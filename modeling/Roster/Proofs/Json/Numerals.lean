import Roster.Proofs.Json.Grammar

/-!
Numbers are read exactly as the grammar writes them, up to the first character that cannot belong to
them; and a number is a natural one of 64 bits if and only if it is written in the digits of one.
-/

namespace Roster.Json

open Text (Symbol ofChars IsNumeral)

/-- A number is over where this follows. -/
def Apart (r : List Char) : Prop :=
  ∀ c ∈ r.head?, c.isDigit = false ∧ c ≠ '.' ∧ c ≠ 'e' ∧ c ≠ 'E'

/-! ## Digits -/

def values (ds : List Char) : List Nat :=
  ds.map fun c => c.toNat - 48

theorem digitsFrom_ofChars (found : List Nat) (s : List Char) :
    digitsFrom found (ofChars s) =
      (found.reverse ++ values (s.takeWhile Char.isDigit), ofChars (s.dropWhile Char.isDigit)) := by
  induction s generalizing found with
  | nil => simp [ofChars, digitsFrom, values]
  | cons c s ih =>
    have hcons : ofChars (c :: s) = .char c :: ofChars s := rfl
    rw [hcons, digitsFrom]
    by_cases hc : c.isDigit = true
    · simp [hc, ih, values]
    · simp [hc, ofChars, values]

theorem digits_ofChars (s : List Char) :
    digits (ofChars s) =
      (values (s.takeWhile Char.isDigit), ofChars (s.dropWhile Char.isDigit)) :=
  digitsFrom_ofChars [] s

theorem digits_append {ds r : List Char} (hds : ∀ c ∈ ds, c.isDigit = true)
    (hr : ∀ c ∈ r.head?, c.isDigit = false) :
    digits (ofChars (ds ++ r)) = (values ds, ofChars r) := by
  have hrest : r.takeWhile Char.isDigit = [] ∧ r.dropWhile Char.isDigit = r := by
    cases r with
    | nil => simp
    | cons c r => simp [hr c rfl]
  rw [digits_ofChars, List.takeWhile_append_of_pos hds, List.dropWhile_append_of_pos hds, hrest.1,
    hrest.2, List.append_nil]

theorem exists_of_digits {s : List Char} {ns : List Nat} {rest : List Symbol}
    (h : digits (ofChars s) = (ns, rest)) :
    ∃ ds r, s = ds ++ r ∧ rest = ofChars r ∧ ns = values ds ∧ ∀ c ∈ ds, c.isDigit = true := by
  rw [digits_ofChars] at h
  cases h
  refine ⟨_, _, List.takeWhile_append_dropWhile.symm, rfl, rfl, ?_⟩
  exact List.all_eq_true.1 (List.all_takeWhile ..)

def someDigits (cut : Cause) (s : List Symbol) : Except Stop (List Nat × List Symbol) :=
  match digits s, s with
  | ([], _), [] => .error (Stop.atEnd cut)
  | ([], _), _ :: _ => .error (Stop.past .invalidNumber s)
  | (ns, rest), _ => .ok (ns, rest)

theorem someDigits_append (cut : Cause) {ds r : List Char} (hds : IsDigits ds)
    (hr : ∀ c ∈ r.head?, c.isDigit = false) :
    someDigits cut (ofChars (ds ++ r)) = .ok (values ds, ofChars r) := by
  have hne : values ds ≠ [] := fun hnil => hds.1 (List.map_eq_nil_iff.1 hnil)
  unfold someDigits
  rw [digits_append hds.2 hr]
  split
  · simp_all
  · simp_all
  · simp_all

theorem exists_of_someDigits {cut : Cause} {s : List Char} {ns : List Nat} {rest : List Symbol}
    (h : someDigits cut (ofChars s) = .ok (ns, rest)) :
    ∃ ds r, s = ds ++ r ∧ rest = ofChars r ∧ ns = values ds ∧ IsDigits ds := by
  cases hdigits : digits (ofChars s) with
  | mk ns' rest' =>
    obtain ⟨ds, r, rfl, rfl, rfl, hds⟩ := exists_of_digits hdigits
    unfold someDigits at h
    rw [hdigits] at h
    split at h
    · cases h
    · cases h
    · rename_i heq hnil hcons
      cases h
      cases heq
      refine ⟨ds, r, rfl, rfl, rfl, ?_, hds⟩
      rintro rfl
      cases hr : ofChars ([] ++ r) with
      | nil => exact hnil hr rfl
      | cons x rest => exact hcons x rest hr rfl

/-! ## Exponents and fractions -/

theorem exponentFrom_plus (cut : Cause) (s : List Symbol) :
    exponentFrom cut (.char '+' :: s) =
      (someDigits cut s).map fun (ns, rest) => ((false, ns), rest) := by
  simp only [exponentFrom, someDigits]
  rcases digits s with ⟨_ | ⟨n, ns⟩, rest⟩ <;> cases s <;> rfl

theorem exponentFrom_minus (cut : Cause) (s : List Symbol) :
    exponentFrom cut (.char '-' :: s) =
      (someDigits cut s).map fun (ns, rest) => ((true, ns), rest) := by
  simp only [exponentFrom, someDigits]
  rcases digits s with ⟨_ | ⟨n, ns⟩, rest⟩ <;> cases s <;> rfl

theorem exponentFrom_unsigned {cut : Cause} {s : List Symbol} (hplus : s.head? ≠ some (.char '+'))
    (hminus : s.head? ≠ some (.char '-')) :
    exponentFrom cut s = (someDigits cut s).map fun (ns, rest) => ((false, ns), rest) := by
  unfold exponentFrom
  split
  rename_i heq
  split at heq <;> cases heq
  · exact absurd rfl hplus
  · exact absurd rfl hminus
  · simp only [someDigits]
    rcases digits s with ⟨_ | ⟨n, ns⟩, rest⟩ <;> cases s <;> rfl

theorem exponentFrom_append (cut : Cause) {sign ds r : List Char}
    (hsign : sign = [] ∨ sign = ['+'] ∨ sign = ['-']) (hds : IsDigits ds)
    (hr : ∀ c ∈ r.head?, c.isDigit = false) :
    ∃ e, exponentFrom cut (ofChars (sign ++ ds ++ r)) = .ok (e, ofChars r) := by
  have hdigits := someDigits_append cut hds hr
  obtain rfl | rfl | rfl := hsign
  · obtain ⟨c, cs, rfl⟩ := List.exists_cons_of_ne_nil hds.1
    have hc := hds.2 c (List.mem_cons_self ..)
    refine ⟨(false, values (c :: cs)), ?_⟩
    rw [List.nil_append, exponentFrom_unsigned, hdigits]
    · rfl
    · rintro ⟨⟩
      cases hc
    · rintro ⟨⟩
      cases hc
  · exact ⟨(false, values ds), (exponentFrom_plus ..).trans (congrArg (Except.map _) hdigits)⟩
  · exact ⟨(true, values ds), (exponentFrom_minus ..).trans (congrArg (Except.map _) hdigits)⟩

theorem exponentFrom_cases (cut : Cause) (s : List Char) :
    ∃ sign t negative, s = sign ++ t ∧ (sign = [] ∨ sign = ['+'] ∨ sign = ['-']) ∧
      exponentFrom cut (ofChars s) =
        (someDigits cut (ofChars t)).map fun (ns, rest) => ((negative, ns), rest) := by
  by_cases hplus : s.head? = some '+'
  · obtain ⟨t, rfl⟩ := List.head?_eq_some_iff.1 hplus
    exact ⟨['+'], t, false, rfl, .inr (.inl rfl), exponentFrom_plus ..⟩
  · by_cases hminus : s.head? = some '-'
    · obtain ⟨t, rfl⟩ := List.head?_eq_some_iff.1 hminus
      exact ⟨['-'], t, true, rfl, .inr (.inr rfl), exponentFrom_minus ..⟩
    · refine ⟨[], s, false, rfl, .inl rfl, exponentFrom_unsigned ?_ ?_⟩
      · simpa [ofChars] using hplus
      · simpa [ofChars] using hminus

theorem exists_of_exponentFrom {cut : Cause} {s : List Char} {e : Bool × List Nat}
    {rest : List Symbol} (h : exponentFrom cut (ofChars s) = .ok (e, rest)) :
    ∃ sign ds r, s = sign ++ ds ++ r ∧ rest = ofChars r ∧
      (sign = [] ∨ sign = ['+'] ∨ sign = ['-']) ∧ IsDigits ds := by
  obtain ⟨sign, t, negative, rfl, hsign, heq⟩ := exponentFrom_cases cut s
  rw [heq] at h
  cases hdigits : someDigits cut (ofChars t) with
  | error stop =>
    rw [hdigits] at h
    cases h
  | ok read =>
    obtain ⟨ns, rest'⟩ := read
    rw [hdigits] at h
    cases h
    obtain ⟨ds, r, rfl, rfl, -, hds⟩ := exists_of_someDigits hdigits
    exact ⟨sign, ds, r, (List.append_assoc ..).symm, rfl, hsign, hds⟩

theorem tailFrom_exponent (cut : Cause) (negative pointed : Bool) (whole fraction : List Nat)
    {c : Char} (hc : c = 'e' ∨ c = 'E') (s : List Symbol) :
    tailFrom cut negative whole fraction pointed (.char c :: s) =
      (exponentFrom cut s).map fun (e, rest) =>
        (⟨negative, whole, fraction, some e, pointed⟩, rest) := by
  obtain rfl | rfl := hc
  · simp only [tailFrom]
    cases exponentFrom cut s <;> rfl
  · simp only [tailFrom]
    cases exponentFrom cut s <;> rfl

theorem tailFrom_append (cut : Cause) (negative pointed : Bool) (whole fraction : List Nat)
    {t r : List Char} (ht : IsExponent t) (hr : Apart r) :
    ∃ e, tailFrom cut negative whole fraction pointed (ofChars (t ++ r)) =
      .ok (⟨negative, whole, fraction, e, pointed⟩, ofChars r) ∧ (e ≠ none ↔ t ≠ []) := by
  obtain rfl | ⟨e, sign, ds, rfl, he, hsign, hds⟩ := ht
  · refine ⟨none, ?_, by simp⟩
    cases r with
    | nil => rfl
    | cons c r =>
      obtain ⟨-, -, he, hE⟩ := hr c rfl
      unfold tailFrom
      split
      · simp_all [ofChars]
      · simp_all [ofChars]
      · rfl
  · obtain ⟨found, hread⟩ := exponentFrom_append cut hsign hds fun c hc => (hr c hc).1
    refine ⟨some found, ?_, by simp⟩
    have hcons : ofChars (e :: sign ++ ds ++ r) = .char e :: ofChars (sign ++ ds ++ r) := rfl
    rw [hcons, tailFrom_exponent cut negative pointed whole fraction he, hread]
    rfl

theorem exists_of_tailFrom {cut : Cause} {negative pointed : Bool} {whole fraction : List Nat}
    {s : List Char} {numeral : Numeral} {rest : List Symbol}
    (h : tailFrom cut negative whole fraction pointed (ofChars s) = .ok (numeral, rest)) :
    ∃ t r e, s = t ++ r ∧ rest = ofChars r ∧ IsExponent t ∧
      numeral = ⟨negative, whole, fraction, e, pointed⟩ ∧ (e ≠ none ↔ t ≠ []) := by
  cases s with
  | nil =>
    cases h
    exact ⟨[], [], none, rfl, rfl, .inl rfl, rfl, by simp⟩
  | cons c s =>
    by_cases hc : c = 'e' ∨ c = 'E'
    · have hcons : ofChars (c :: s) = .char c :: ofChars s := rfl
      rw [hcons, tailFrom_exponent cut negative pointed whole fraction hc] at h
      cases hread : exponentFrom cut (ofChars s) with
      | error stop =>
        rw [hread] at h
        cases h
      | ok read =>
        obtain ⟨e, rest'⟩ := read
        rw [hread] at h
        cases h
        obtain ⟨sign, ds, r, rfl, rfl, hsign, hds⟩ := exists_of_exponentFrom hread
        exact ⟨c :: sign ++ ds, r, some e, by simp, rfl,
          .inr ⟨c, sign, ds, rfl, hc, hsign, hds⟩, rfl, by simp⟩
    · unfold tailFrom at h
      split at h
      · simp_all [ofChars]
      · simp_all [ofChars]
      · cases h
        exact ⟨[], c :: s, none, rfl, rfl, .inl rfl, rfl, by simp⟩

theorem fractionFrom_point (cut : Cause) (negative : Bool) (whole : List Nat) (s : List Symbol) :
    fractionFrom cut negative whole (.char '.' :: s) =
      (someDigits cut s).bind fun (ns, rest) => tailFrom cut negative whole ns true rest := by
  simp only [fractionFrom, someDigits]
  rcases digits s with ⟨_ | ⟨n, ns⟩, rest⟩ <;> cases s <;> rfl

theorem fractionFrom_append (cut : Cause) (negative : Bool) (whole : List Nat) {f t r : List Char}
    (hf : IsFraction f) (ht : IsExponent t) (hr : Apart r) :
    ∃ digits e pointed, fractionFrom cut negative whole (ofChars (f ++ t ++ r)) =
      .ok (⟨negative, whole, digits, e, pointed⟩, ofChars r) ∧
      (pointed = true ↔ f ≠ []) ∧ (e ≠ none ↔ t ≠ []) := by
  -- neither the exponent nor what follows it begins with a digit or a point
  have hhead : ∀ c ∈ (t ++ r).head?, c.isDigit = false ∧ c ≠ '.' := by
    intro c hc
    obtain rfl | ⟨e, sign, ds, rfl, he, -, -⟩ := ht
    · exact ⟨(hr c hc).1, (hr c hc).2.1⟩
    · cases hc
      obtain rfl | rfl := he <;> decide
  obtain rfl | ⟨ds, rfl, hds⟩ := hf
  · obtain ⟨e, hread, he⟩ := tailFrom_append cut negative false whole [] ht hr
    refine ⟨[], e, false, ?_, by simp, he⟩
    rw [List.nil_append, ← hread]
    cases hs : t ++ r with
    | nil => rfl
    | cons c s =>
      have hc := (hhead c (by rw [hs]; rfl)).2
      unfold fractionFrom
      split
      · simp_all [ofChars]
      · rfl
  · obtain ⟨e, hread, he⟩ := tailFrom_append cut negative true whole (values ds) ht hr
    have hdigits := someDigits_append cut hds fun c hc => (hhead c hc).1
    refine ⟨values ds, e, true, ?_, by simp, he⟩
    have hcons : ofChars ('.' :: ds ++ t ++ r) = .char '.' :: ofChars (ds ++ (t ++ r)) := by
      simp [ofChars]
    rw [hcons, fractionFrom_point, hdigits]
    exact hread

theorem exists_of_fractionFrom {cut : Cause} {negative : Bool} {whole : List Nat} {s : List Char}
    {numeral : Numeral} {rest : List Symbol}
    (h : fractionFrom cut negative whole (ofChars s) = .ok (numeral, rest)) :
    ∃ f t r, s = f ++ t ++ r ∧ rest = ofChars r ∧ IsFraction f ∧ IsExponent t ∧
      numeral.negative = negative ∧ numeral.whole = whole ∧
      (numeral.pointed = true ↔ f ≠ []) ∧ (numeral.exponent ≠ none ↔ t ≠ []) := by
  by_cases hpoint : s.head? = some '.'
  · obtain ⟨s, rfl⟩ := List.head?_eq_some_iff.1 hpoint
    have hcons : ofChars ('.' :: s) = .char '.' :: ofChars s := rfl
    rw [hcons, fractionFrom_point] at h
    cases hdigits : someDigits cut (ofChars s) with
    | error stop =>
      rw [hdigits] at h
      cases h
    | ok read =>
      obtain ⟨ns, rest'⟩ := read
      obtain ⟨ds, r, rfl, rfl, rfl, hds⟩ := exists_of_someDigits hdigits
      rw [hdigits] at h
      obtain ⟨t, r, e, rfl, rfl, ht, rfl, he⟩ := exists_of_tailFrom h
      exact ⟨'.' :: ds, t, r, by simp, rfl, .inr ⟨ds, rfl, hds⟩, ht, rfl, rfl, by simp, he⟩
  · have htail : tailFrom cut negative whole [] false (ofChars s) = .ok (numeral, rest) := by
      unfold fractionFrom at h
      split at h
      · cases s <;> simp_all [ofChars]
      · exact h
    obtain ⟨t, r, e, rfl, rfl, ht, rfl, he⟩ := exists_of_tailFrom htail
    exact ⟨[], t, r, rfl, rfl, .inl rfl, ht, rfl, rfl, by simp, he⟩

/-! ## Numbers -/

theorem unsignedFrom_eq_ok_iff {cut : Cause} {negative : Bool} {s : List Symbol}
    {read : Numeral × List Symbol} :
    unsignedFrom cut negative s = .ok read ↔
      ∃ ns t, someDigits cut s = .ok (ns, t) ∧ (ns.head? = some 0 → ns = [0]) ∧
        fractionFrom cut negative ns t = .ok read := by
  simp only [unsignedFrom, someDigits]
  rcases digits s with ⟨_ | ⟨_ | n, _ | ⟨m, ns⟩⟩, rest⟩ <;> cases s <;> simp [and_assoc]

/-- Digits are a numeral if their values do not begin with a needless zero. -/
theorem isNumeral_iff {ds : List Char} (hds : IsDigits ds) :
    IsNumeral ds ↔ ((values ds).head? = some 0 → values ds = [0]) := by
  have hzero : ∀ c ∈ ds, c.toNat - 48 = 0 ↔ c = '0' := by
    intro c hc
    have hlow := (Text.toNat_of_isDigit (hds.2 c hc)).1
    have h0 : '0'.toNat = 48 := rfl
    rw [← Char.toNat_inj]
    omega
  have hhead : (values ds).head? = some 0 ↔ ds.head? = some '0' := by
    cases ds with
    | nil => exact absurd rfl hds.1
    | cons c cs => simpa [values] using hzero c (List.mem_cons_self ..)
  have hall : values ds = [0] ↔ ds = ['0'] := by
    constructor
    · intro h
      obtain ⟨c, rfl, hc⟩ := List.map_eq_singleton_iff.1 h
      rw [(hzero c (List.mem_singleton_self c)).1 hc]
    · rintro rfl
      rfl
  rw [hhead, hall]
  exact ⟨IsNumeral.leading, fun h => ⟨hds.1, hds.2, h⟩⟩

structure Numeral.Written (numeral : Numeral) (sign whole fraction exponent : List Char) :
    Prop where
  signs : sign = [] ∨ sign = ['-']
  numerals : IsNumeral whole
  fractions : IsFraction fraction
  exponents : IsExponent exponent
  whole_eq : numeral.whole = values whole
  negative_iff : numeral.negative = true ↔ sign ≠ []
  pointed_iff : numeral.pointed = true ↔ fraction ≠ []
  exponent_iff : numeral.exponent ≠ none ↔ exponent ≠ []

theorem Numeral.read_append (cut : Cause) {sign whole fraction exponent r : List Char}
    (hsign : sign = [] ∨ sign = ['-']) (hwhole : IsNumeral whole) (hfraction : IsFraction fraction)
    (hexponent : IsExponent exponent) (hr : Apart r) :
    ∃ numeral, Numeral.read cut (ofChars (sign ++ whole ++ fraction ++ exponent ++ r)) =
        .ok (numeral, ofChars r) ∧ numeral.Written sign whole fraction exponent := by
  have hds : IsDigits whole := ⟨hwhole.nonempty, hwhole.digits⟩
  -- no digit follows the whole part
  have hhead : ∀ c ∈ (fraction ++ exponent ++ r).head?, c.isDigit = false := by
    intro c hc
    obtain rfl | ⟨ds, rfl, -⟩ := hfraction
    · obtain rfl | ⟨e, _, _, rfl, he, -, -⟩ := hexponent
      · exact (hr c hc).1
      · cases hc
        obtain rfl | rfl := he <;> rfl
    · cases hc
      rfl
  have hunsigned : ∀ negative, ∃ digits e pointed,
      unsignedFrom cut negative (ofChars (whole ++ (fraction ++ exponent ++ r))) =
        .ok (⟨negative, values whole, digits, e, pointed⟩, ofChars r) ∧
        (pointed = true ↔ fraction ≠ []) ∧ (e ≠ none ↔ exponent ≠ []) := by
    intro negative
    obtain ⟨digits, e, pointed, hread, hpointed, he⟩ :=
      fractionFrom_append cut negative (values whole) hfraction hexponent hr
    exact ⟨digits, e, pointed, unsignedFrom_eq_ok_iff.2
      ⟨_, _, someDigits_append cut hds hhead, (isNumeral_iff hds).1 hwhole, hread⟩, hpointed, he⟩
  have happend : sign ++ whole ++ fraction ++ exponent ++ r =
      sign ++ (whole ++ (fraction ++ exponent ++ r)) := by
    simp
  rw [happend]
  obtain ⟨digits, e, pointed, hread, hpointed, he⟩ := hunsigned (decide (sign ≠ []))
  refine ⟨⟨decide (sign ≠ []), values whole, digits, e, pointed⟩, ?_, hsign, hwhole, hfraction,
    hexponent, rfl, decide_eq_true_iff, hpointed, he⟩
  rw [← hread]
  obtain rfl | rfl := hsign
  · obtain ⟨c, cs, rfl⟩ := List.exists_cons_of_ne_nil hwhole.nonempty
    have hc := hwhole.digits c (List.mem_cons_self ..)
    unfold Numeral.read
    split
    · rename_i h
      cases h
      cases hc
    · rfl
  · rfl

theorem Numeral.exists_of_read {cut : Cause} {s : List Char} {numeral : Numeral}
    {rest : List Symbol} (h : Numeral.read cut (ofChars s) = .ok (numeral, rest)) :
    ∃ sign whole fraction exponent r, s = sign ++ whole ++ fraction ++ exponent ++ r ∧
      rest = ofChars r ∧ numeral.Written sign whole fraction exponent := by
  have hsigned : ∃ sign t, s = sign ++ t ∧ (sign = [] ∨ sign = ['-']) ∧
      unsignedFrom cut (decide (sign ≠ [])) (ofChars t) = .ok (numeral, rest) := by
    by_cases hminus : s.head? = some '-'
    · obtain ⟨t, rfl⟩ := List.head?_eq_some_iff.1 hminus
      exact ⟨['-'], t, rfl, .inr rfl, h⟩
    · refine ⟨[], s, rfl, .inl rfl, ?_⟩
      unfold Numeral.read at h
      split at h
      · cases s <;> simp_all [ofChars]
      · exact h
  obtain ⟨sign, t, rfl, hsign, hunsigned⟩ := hsigned
  obtain ⟨ns, rest', hdigits, hzero, hfraction⟩ := unsignedFrom_eq_ok_iff.1 hunsigned
  obtain ⟨whole, r, rfl, rfl, rfl, hwhole⟩ := exists_of_someDigits hdigits
  obtain ⟨f, t, r, rfl, rfl, hf, ht, hnegative, hvalues, hpointed, he⟩ :=
    exists_of_fractionFrom hfraction
  exact ⟨sign, whole, f, t, r, by simp, rfl, hsign, (isNumeral_iff hwhole).2 hzero, hf, ht, hvalues,
    by rw [hnegative, decide_eq_true_iff], hpointed, he⟩

/-! ## Natural numbers -/

theorem gather_values {ds : List Char} {n m : Nat} (hn : n < 0x10000000000000000) :
    gather n (values ds) = (m, []) ↔
      Nat.ofDigitChars 10 ds n = m ∧ m < 0x10000000000000000 := by
  induction ds generalizing n with
  | nil =>
    simp only [values, List.map_nil, gather, Prod.mk.injEq, and_true, Nat.ofDigitChars_nil]
    constructor
    · rintro rfl
      exact ⟨rfl, hn⟩
    · exact And.left
  | cons c ds ih =>
    have hstep : 10 * n + (c.toNat - '0'.toNat) = n * 10 + (c.toNat - 48) := by
      rw [Nat.mul_comm]
      rfl
    have hcons : values (c :: ds) = (c.toNat - 48) :: values ds := rfl
    rw [hcons, gather, Nat.ofDigitChars_cons, hstep]
    by_cases hlt : n * 10 + (c.toNat - 48) < 0x10000000000000000
    · rw [if_pos hlt, ih hlt]
    · rw [if_neg hlt]
      have hle := Text.le_ofDigitChars ds (n * 10 + (c.toNat - 48))
      constructor
      · rintro ⟨⟩
      · rintro ⟨rfl, hm⟩
        omega

theorem Numeral.value_eq_natural_iff {numeral : Numeral} {n : Nat} :
    numeral.value = .ok (.natural n) ↔ gather 0 numeral.whole = (n, []) ∧
      numeral.negative = false ∧ numeral.pointed = false ∧ numeral.exponent = none := by
  unfold Numeral.value
  cases hgather : gather 0 numeral.whole with
  | mk significand beyond => grind

theorem Number.read_natural {s r : List Char} {n : UInt64} (h : IsNatural s n) (hr : Apart r) :
    Number.read (ofChars (s ++ r)) = .ok (.natural n.toNat, ofChars r) := by
  obtain rfl := h
  obtain ⟨numeral, hread, hwritten⟩ := Numeral.read_append .endInValue (.inl rfl)
    (Text.isNumeral_toDigits n.toNat) (.inl rfl) (.inl rfl) hr
  have hgather : gather 0 numeral.whole = (n.toNat, []) := by
    rw [hwritten.whole_eq, gather_values (by decide), Nat.ofDigitChars_ten_toDigits]
    exact ⟨rfl, n.toNat_lt⟩
  have hvalue : numeral.value = .ok (.natural n.toNat) := by
    have hnegative := hwritten.negative_iff
    have hpointed := hwritten.pointed_iff
    have hexponent := hwritten.exponent_iff
    simp_all [Numeral.value_eq_natural_iff]
  simp only [List.nil_append, List.append_nil] at hread
  simp only [Number.read, hread, hvalue]

theorem Number.isNatural_of_read {s : List Char} {n : Nat} {rest : List Symbol}
    (h : Number.read (ofChars s) = .ok (.natural n, rest)) :
    ∃ t r m, s = t ++ r ∧ rest = ofChars r ∧ n = UInt64.toNat m ∧ IsNatural t m := by
  unfold Number.read at h
  split at h
  · cases h
  · rename_i numeral rest' hread
    split at h
    · rename_i hvalue
      cases h
      obtain ⟨hgather, hnegative, hpointed, hexponent⟩ := Numeral.value_eq_natural_iff.1 hvalue
      obtain ⟨sign, whole, fraction, exponent, r, rfl, rfl, hwritten⟩ :=
        Numeral.exists_of_read hread
      rw [hwritten.whole_eq, gather_values (by decide)] at hgather
      obtain ⟨rfl, hlt⟩ := hgather
      have hsign := hwritten.negative_iff
      have hfraction := hwritten.pointed_iff
      have hno := hwritten.exponent_iff
      obtain ⟨rfl, rfl, rfl⟩ : sign = [] ∧ fraction = [] ∧ exponent = [] := by simp_all
      have hsize : (UInt64.ofNat (Nat.ofDigitChars 10 whole 0)).toNat =
          Nat.ofDigitChars 10 whole 0 := UInt64.toNat_ofNat_of_lt' hlt
      refine ⟨whole, r, UInt64.ofNat (Nat.ofDigitChars 10 whole 0), by simp, rfl, hsize.symm, ?_⟩
      rw [IsNatural, hsize, Text.toDigits_ofDigitChars hwritten.numerals]
    · cases h

end Roster.Json
