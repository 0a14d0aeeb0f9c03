import Roster.Proofs.Json.Grammar

/-!
Texts between quotes are read exactly as the grammar spells them: what is read is spelled, and what
is spelled is read, whatever follows.
-/

namespace Roster.Json

open Text (Symbol ofChars)

/-! ## Escapes -/

theorem hex_of_hexDigit? {c : Char} {n : Nat} (h : Text.hexDigit? c = some n) : Hex c n := by
  have hchar : ∀ base, base ≤ c.toNat → c = Char.ofNat (base + (c.toNat - base)) := by
    intro base hbase
    rw [Nat.add_sub_cancel' hbase, Char.ofNat_toNat]
  unfold Text.hexDigit? at h
  split at h
  · rename_i hc
    have hall : ∀ i < 10, "0123456789abcdef".toList[i]? = some (Char.ofNat (48 + i)) := by decide
    have hbounds : 48 ≤ c.toNat ∧ c.toNat ≤ 57 := hc
    cases h
    exact .inl ((hall _ (by omega)).trans (congrArg some (hchar 48 hbounds.1).symm))
  · split at h
    · rename_i hc
      have hall : ∀ i < 6, "0123456789abcdef".toList[10 + i]? = some (Char.ofNat (97 + i)) := by
        decide
      have hbounds : 97 ≤ c.toNat ∧ c.toNat ≤ 102 := hc
      have hn : n = 10 + (c.toNat - 97) := by
        cases h
        omega
      rw [hn]
      exact .inl ((hall _ (by omega)).trans (congrArg some (hchar 97 hbounds.1).symm))
    · split at h
      · rename_i hc
        have hall : ∀ i < 6, "0123456789ABCDEF".toList[10 + i]? = some (Char.ofNat (65 + i)) := by
          decide
        have hbounds : 65 ≤ c.toNat ∧ c.toNat ≤ 70 := hc
        have hn : n = 10 + (c.toNat - 65) := by
          cases h
          omega
        rw [hn]
        exact .inr ((hall _ (by omega)).trans (congrArg some (hchar 65 hbounds.1).symm))
      · cases h

theorem Hex.lt {c : Char} {n : Nat} (h : Hex c n) : n < 16 := by
  obtain h | h := h <;> exact (List.getElem?_eq_some_iff.1 h).1

theorem Hex.hexDigit? {c : Char} {n : Nat} (h : Hex c n) : Text.hexDigit? c = some n := by
  have hlower : ∀ n < 16, ("0123456789abcdef".toList[n]?).bind Text.hexDigit? = some n := by decide
  have hupper : ∀ n < 16, ("0123456789ABCDEF".toList[n]?).bind Text.hexDigit? = some n := by decide
  have hlt := h.lt
  obtain h | h := h
  · have hn := hlower n hlt
    rwa [h] at hn
  · have hn := hupper n hlt
    rwa [h] at hn

theorem hexValue?_eq_some_iff {a b c d : Char} {n : Nat} :
    hexValue? a b c d = some n ↔ HexDigits [a, b, c, d] n := by
  constructor
  · intro h
    simp only [hexValue?, Option.bind_eq_bind, Option.bind_eq_some_iff, Option.pure_def,
      Option.some.injEq] at h
    obtain ⟨i, hi, j, hj, k, hk, l, hl, rfl⟩ := h
    exact ⟨a, b, c, d, i, j, k, l, rfl, hex_of_hexDigit? hi, hex_of_hexDigit? hj,
      hex_of_hexDigit? hk, hex_of_hexDigit? hl, by omega⟩
  · rintro ⟨_, _, _, _, i, j, k, l, heq, hi, hj, hk, hl, rfl⟩
    cases heq
    simp only [hexValue?, hi.hexDigit?, hj.hexDigit?, hk.hexDigit?, hl.hexDigit?,
      Option.bind_eq_bind, Option.bind_some, Option.pure_def, Option.some.injEq]
    omega

theorem HexDigits.lt {s : List Char} {n : Nat} (h : HexDigits s n) : n < 0x10000 := by
  obtain ⟨_, _, _, _, i, j, k, l, -, hi, hj, hk, hl, rfl⟩ := h
  have := hi.lt
  have := hj.lt
  have := hk.lt
  have := hl.lt
  omega

theorem hexUnit_append {ds : List Char} {n : Nat} (h : HexDigits ds n) (rest : List Symbol) :
    hexUnit (ofChars ds ++ rest) = .ok (n, rest) := by
  have hds := h
  obtain ⟨a, b, c, d, -, -, -, -, rfl, -⟩ := h
  simp only [ofChars, List.map_cons, List.map_nil, List.cons_append, List.nil_append, hexUnit,
    hexValue?_eq_some_iff.2 hds]

theorem hexDigits_of_hexUnit {s : List Char} {n : Nat} {rest : List Symbol}
    (h : hexUnit (ofChars s) = .ok (n, rest)) :
    ∃ ds r, s = ds ++ r ∧ rest = ofChars r ∧ HexDigits ds n := by
  unfold hexUnit at h
  split at h
  · rename_i a b c d rest' hs
    split at h
    · rename_i hvalue
      cases h
      obtain ⟨ds, r, rfl, hds, rfl⟩ := List.map_eq_append_iff.1
        (show s.map Symbol.char = [.char a, .char b, .char c, .char d] ++ rest from hs)
      obtain rfl : ds = [a, b, c, d] := by
        simpa [List.map_eq_cons_iff] using hds
      exact ⟨_, r, rfl, rfl, hexValue?_eq_some_iff.1 hvalue⟩
    · cases h
  · cases h

theorem shortEscape?_eq_some_iff {e c : Char} :
    shortEscape? e = some c ↔ (e, c) ∈ shortEscapes := by
  constructor
  · intro h
    unfold shortEscape? at h
    repeat' split at h
    all_goals cases h
    all_goals subst_vars
    all_goals decide
  · have hall : ∀ p ∈ shortEscapes, shortEscape? p.1 = some p.2 := by decide
    exact hall (e, c)

theorem toNat_ofNat {n : Nat} (h : n < 0xD800 ∨ 0xDFFF < n ∧ n < 0x110000) :
    (Char.ofNat n).toNat = n := by
  rw [Char.ofNat, dif_pos h]
  rfl

theorem unit_append {s : List Char} {n : Nat} (h : Unit s n) :
    ∃ ds, s = '\\' :: 'u' :: ds ∧ ∀ rest, hexUnit (ofChars ds ++ rest) = .ok (n, rest) := by
  obtain ⟨ds, rfl, hds⟩ := h
  exact ⟨ds, rfl, hexUnit_append hds⟩

theorem piece_of_trailingUnit {s : List Char} {c : Char} {lead : Nat} {rest : List Symbol}
    {u : List Char} (hu : Unit u lead) (hlow : 0xD800 ≤ lead) (hhigh : lead < 0xDC00)
    (h : trailingUnit lead (ofChars s) = .ok (c, rest)) :
    ∃ p r, s = p ++ r ∧ rest = ofChars r ∧ Piece (u ++ p) c := by
  unfold trailingUnit at h
  split at h
  · cases h
  · cases h
  · rename_i rest' hs
    obtain ⟨s, rfl, rfl⟩ : ∃ s', s = '\\' :: 'u' :: s' ∧ rest' = ofChars s' := by
      simp only [ofChars, List.map_eq_cons_iff, Symbol.char.injEq] at hs
      obtain ⟨_, _, rfl, rfl, _, s', rfl, rfl, rfl⟩ := hs
      exact ⟨s', rfl, rfl⟩
    split at h
    · cases h
    · rename_i n rest'' hunit
      obtain ⟨ds, r, rfl, rfl, hds⟩ := hexDigits_of_hexUnit hunit
      split at h
      · rename_i htrailing
        simp only [isTrailing, Bool.and_eq_true, decide_eq_true_eq] at htrailing
        simp only [Except.ok.injEq, Prod.mk.injEq] at h
        obtain ⟨hc, rfl⟩ := h
        have hvalue :=
          toNat_ofNat (n := 0x10000 + (lead - 0xD800) * 0x400 + (n - 0xDC00)) (by omega)
        rw [hc] at hvalue
        exact ⟨'\\' :: 'u' :: ds, r, rfl, rfl, .pair hu ⟨ds, rfl, hds⟩ hlow hhigh htrailing.1
          (by omega) hvalue⟩
      · cases h
  · cases h
  · cases h

/-- What is read behind a backslash is an escape. -/
theorem piece_of_escapeFrom {s : List Char} {c : Char} {rest : List Symbol}
    (h : escapeFrom (ofChars s) = .ok (c, rest)) :
    ∃ p r, s = p ++ r ∧ rest = ofChars r ∧ Piece ('\\' :: p) c := by
  cases s with
  | nil => cases h
  | cons e s =>
    by_cases he : e = 'u'
    · subst he
      simp only [ofChars, List.map_cons, escapeFrom] at h
      split at h
      · cases h
      · rename_i n rest' hunit
        obtain ⟨ds, r, rfl, rfl, hds⟩ := hexDigits_of_hexUnit hunit
        have hlt := hds.lt
        split at h
        · cases h
        · rename_i htrailing
          simp only [isTrailing, Bool.and_eq_true, decide_eq_true_eq] at htrailing
          split at h
          · rename_i hleading
            simp only [isLeading, Bool.and_eq_true, decide_eq_true_eq] at hleading
            obtain ⟨p, r, rfl, rfl, hp⟩ :=
              piece_of_trailingUnit ⟨ds, rfl, hds⟩ hleading.1 (by omega) h
            exact ⟨'u' :: ds ++ p, r, by simp, rfl, hp⟩
          · rename_i hleading
            simp only [isLeading, Bool.and_eq_true, decide_eq_true_eq] at hleading
            cases h
            have hvalue : (Char.ofNat n).toNat = n := toNat_ofNat (by omega)
            exact ⟨'u' :: ds, r, rfl, rfl, .unit ⟨ds, rfl, by rwa [hvalue]⟩⟩
    · simp only [ofChars, List.map_cons, escapeFrom] at h
      split at h
      · rename_i hc
        cases h
        exact ⟨[e], s, rfl, rfl, .short (shortEscape?_eq_some_iff.1 hc)⟩
      · cases h

/-- Every escape is read behind its backslash. -/
theorem escapeFrom_append {p : List Char} {c : Char} (h : Piece ('\\' :: p) c)
    (rest : List Symbol) : escapeFrom (ofChars p ++ rest) = .ok (c, rest) := by
  generalize hs : '\\' :: p = s at h
  cases h with
  | plain _ _ hescape =>
    cases hs
    exact absurd rfl hescape
  | @short e c hmem =>
    cases hs
    have he : e ≠ 'u' := by
      rintro rfl
      simp [shortEscapes] at hmem
    simp only [ofChars, List.map_cons, List.map_nil, List.singleton_append, escapeFrom,
      shortEscape?_eq_some_iff.2 hmem]
  | unit hunit =>
    obtain ⟨ds, rfl, hread⟩ := unit_append hunit
    cases hs
    -- a character is no surrogate
    have hvalid : c.toNat < 0xD800 ∨ 0xDFFF < c.toNat ∧ c.toNat < 0x110000 := c.valid
    have htrailing : isTrailing c.toNat = false := by
      simp only [isTrailing, Bool.and_eq_false_iff, decide_eq_false_iff_not]
      omega
    have hleading : isLeading c.toNat = false := by
      simp only [isLeading, Bool.and_eq_false_iff, decide_eq_false_iff_not]
      omega
    simp only [ofChars, List.map_cons, List.cons_append] at hread ⊢
    simp only [escapeFrom, hread, htrailing, hleading, Bool.false_eq_true, if_false,
      Char.ofNat_toNat]
  | @pair s s' lead trail c hlead htrail hlow hhigh hlow' hhigh' hvalue =>
    obtain ⟨ds, rfl, hread⟩ := unit_append hlead
    obtain ⟨ds', rfl, hread'⟩ := unit_append htrail
    obtain rfl : p = 'u' :: ds ++ '\\' :: 'u' :: ds' := (List.cons_eq_cons.1 hs).2
    have htrailing : isTrailing lead = false := by
      simp only [isTrailing, Bool.and_eq_false_iff, decide_eq_false_iff_not]
      omega
    have hleading : isLeading lead = true := by
      simp only [isLeading, Bool.and_eq_true, decide_eq_true_eq]
      omega
    have hsecond : isTrailing trail = true := by
      simp only [isTrailing, Bool.and_eq_true, decide_eq_true_eq]
      omega
    simp only [ofChars, List.map_cons, List.map_append, List.cons_append, List.append_assoc]
      at hread hread' ⊢
    simp only [escapeFrom, hread, htrailing, hleading, trailingUnit, hread', hsecond, ← hvalue,
      Bool.false_eq_true, if_false, if_true, Char.ofNat_toNat]

/-! ## Texts that are wanted -/

theorem textFrom_quote (found : List Char) (rest : List Symbol) :
    textFrom found none (.char '"' :: rest) = .ok (found.reverse, rest) := by
  rw [textFrom]
  rfl

theorem textFrom_escape {s rest : List Symbol} {c : Char} (found : List Char)
    (h : escapeFrom s = .ok (c, rest)) :
    textFrom found none (.char '\\' :: s) = textFrom (c :: found) none rest := by
  rw [textFrom, if_neg (by decide), if_pos rfl]
  split
  · rename_i h'
    cases h.symm.trans h'
  · rename_i h'
    cases h.symm.trans h'
    rfl

theorem textFrom_plain {c : Char} (found : List Char) (rest : List Symbol) (hquote : c ≠ '"')
    (hescape : c ≠ '\\') (hcontrol : ¬c.toNat < 0x20) :
    textFrom found none (.char c :: rest) = textFrom (c :: found) none rest := by
  rw [textFrom, if_neg hquote, if_neg hescape, if_neg hcontrol]
  rfl

theorem textFrom_piece {p : List Char} {c : Char} (h : Piece p c) (found : List Char)
    (rest : List Symbol) :
    textFrom found none (ofChars p ++ rest) = textFrom (c :: found) none rest := by
  have hescape : ∀ p', p = '\\' :: p' →
      textFrom found none (ofChars p ++ rest) = textFrom (c :: found) none rest := by
    rintro p' rfl
    exact textFrom_escape found (escapeFrom_append h rest)
  cases h with
  | plain hcontrol hquote hbackslash =>
    exact textFrom_plain found rest hquote hbackslash (by omega)
  | short hmem => exact hescape _ rfl
  | unit hunit =>
    obtain ⟨ds, rfl, -⟩ := hunit
    exact hescape _ rfl
  | pair hlead =>
    obtain ⟨ds, rfl, -⟩ := hlead
    exact hescape _ rfl

theorem textFrom_spells {body cs : List Char} (h : Spells body cs) (found : List Char)
    (rest : List Symbol) :
    textFrom found none (ofChars body ++ rest) = textFrom (cs.reverse ++ found) none rest := by
  induction h generalizing found with
  | nil => rfl
  | @cons p s cs c hp hs ih =>
    have happend : ofChars (p ++ s) ++ rest = ofChars p ++ (ofChars s ++ rest) := by
      simp [ofChars]
    rw [happend, textFrom_piece hp, ih, List.reverse_cons, List.append_assoc,
      List.singleton_append]

theorem readText_append {body cs : List Char} (h : Spells body cs) (rest : List Symbol) :
    readText (ofChars (body ++ ['"']) ++ rest) = .ok (cs, rest) := by
  have happend : ofChars (body ++ ['"']) ++ rest = ofChars body ++ .char '"' :: rest := by
    simp [ofChars]
  rw [readText, happend, textFrom_spells h, textFrom_quote, List.append_nil, List.reverse_reverse]

/-- What is read first is the closing quote or what stands for a character. -/
theorem textFrom_cases {found cs s : List Char} {c : Char} {rest : List Symbol}
    (h : textFrom found none (ofChars (c :: s)) = .ok (cs, rest)) :
    (c = '"' ∧ cs = found.reverse ∧ rest = ofChars s) ∨
      ∃ p d r, c :: s = p ++ r ∧ p ≠ [] ∧ Piece p d ∧
        textFrom (d :: found) none (ofChars r) = .ok (cs, rest) := by
  have hcons : ofChars (c :: s) = .char c :: ofChars s := rfl
  rw [hcons] at h
  by_cases hquote : c = '"'
  · subst hquote
    rw [textFrom_quote] at h
    cases h
    exact .inl ⟨rfl, rfl, rfl⟩
  · refine .inr ?_
    by_cases hescape : c = '\\'
    · subst hescape
      cases hread : escapeFrom (ofChars s) with
      | error stop =>
        rw [textFrom, if_neg hquote, if_pos rfl] at h
        split at h
        · cases h
        · rename_i h'
          cases hread.symm.trans h'
      | ok result =>
        obtain ⟨d, rest'⟩ := result
        rw [textFrom_escape found hread] at h
        obtain ⟨p, r, rfl, rfl, hp⟩ := piece_of_escapeFrom hread
        exact ⟨'\\' :: p, d, r, rfl, List.cons_ne_nil _ _, hp, h⟩
    · by_cases hcontrol : c.toNat < 0x20
      · rw [textFrom, if_neg hquote, if_neg hescape, if_pos hcontrol] at h
        cases h
      · rw [textFrom_plain found _ hquote hescape hcontrol] at h
        exact ⟨[c], c, s, rfl, List.cons_ne_nil _ _, .plain (by omega) hquote hescape, h⟩

theorem spells_of_textFrom {found cs s : List Char} {rest : List Symbol}
    (h : textFrom found none (ofChars s) = .ok (cs, rest)) :
    ∃ body r cs', s = body ++ '"' :: r ∧ rest = ofChars r ∧ cs = found.reverse ++ cs' ∧
      Spells body cs' := by
  -- on the length, since what stands for a character may be several characters long
  induction hlength : s.length using Nat.strongRecOn generalizing s found with
  | ind n ih =>
    cases s with
    | nil =>
      rw [ofChars, List.map_nil, textFrom] at h
      cases h
    | cons c s =>
      obtain ⟨rfl, rfl, rfl⟩ | ⟨p, d, r, hs, hne, hp, hrest⟩ := textFrom_cases h
      · exact ⟨[], s, [], rfl, rfl, (List.append_nil _).symm, .nil⟩
      · have hshort : r.length < n := by
          have hpos := List.length_pos_iff.2 hne
          rw [hs, List.length_append] at hlength
          omega
        obtain ⟨body, r', cs', rfl, rfl, rfl, hbody⟩ := ih _ hshort hrest rfl
        exact ⟨p ++ body, r', d :: cs', by rw [hs, List.append_assoc], rfl, by simp,
          .cons hp hbody⟩

/-- What is read behind an opening quote is spelled up to the closing one. -/
theorem spells_of_readText {s cs : List Char} {rest : List Symbol}
    (h : readText (ofChars s) = .ok (cs, rest)) :
    ∃ body r, s = body ++ '"' :: r ∧ rest = ofChars r ∧ Spells body cs := by
  obtain ⟨body, r, cs', hs, hrest, rfl, hbody⟩ := spells_of_textFrom h
  exact ⟨body, r, hs, hrest, hbody⟩

/-! ## Texts that are passed over -/

theorem skipText_plain {c : Char} (rest : List Symbol) (hcontrol : 0x20 ≤ c.toNat)
    (hquote : c ≠ '"') (hescape : c ≠ '\\') : skipText (.char c :: rest) = skipText rest := by
  rw [skipText.eq_def]
  simp only
  rw [if_neg hquote, if_neg hescape, if_neg (by omega)]

theorem skipText_short {e c : Char} (h : (e, c) ∈ shortEscapes) (rest : List Symbol) :
    skipText (.char '\\' :: .char e :: rest) = skipText rest := by
  have he : e ≠ 'u' := by
    rintro rfl
    simp [shortEscapes] at h
  rw [skipText, if_neg (by decide), if_pos rfl]
  · simp only [shortEscape?_eq_some_iff.2 h, Option.isSome_some, if_true]
  · exact he

theorem skipText_unit {u : List Char} {n : Nat} (h : Unit u n) (rest : List Symbol) :
    skipText (ofChars u ++ rest) = skipText rest := by
  obtain ⟨ds, rfl, hread⟩ := unit_append h
  have happend : ofChars ('\\' :: 'u' :: ds) ++ rest =
      .char '\\' :: .char 'u' :: (ofChars ds ++ rest) := rfl
  rw [happend, skipText, if_neg (by decide), if_pos rfl]
  split
  · rename_i h'
    cases (hread rest).symm.trans h'
  · rename_i h'
    cases (hread rest).symm.trans h'
    rfl

theorem skipText_append {body : List Char} (h : Unspelled body) (rest : List Symbol) :
    skipText (ofChars (body ++ ['"']) ++ rest) = .ok rest := by
  induction h with
  | nil =>
    rw [List.nil_append, ofChars, List.map_singleton, List.singleton_append, skipText.eq_def]
    rfl
  | plain hcontrol hquote hescape hs ih =>
    exact (skipText_plain _ hcontrol hquote hescape).trans ih
  | short hmem hs ih => exact (skipText_short hmem _).trans ih
  | @unit u s n hu hs ih =>
    have happend : ofChars (u ++ s ++ ['"']) ++ rest =
        ofChars u ++ (ofChars (s ++ ['"']) ++ rest) := by
      simp [ofChars]
    rw [happend, skipText_unit hu, ih]

theorem unspelled_of_skipText {s : List Char} {rest : List Symbol}
    (h : skipText (ofChars s) = .ok rest) :
    ∃ body r, s = body ++ '"' :: r ∧ rest = ofChars r ∧ Unspelled body := by
  generalize hx : ofChars s = x at h
  fun_induction skipText x generalizing s with
  | case1 => cases h
  | case2 b x ih =>
    obtain ⟨_, _, _, hc, -⟩ := List.map_eq_cons_iff.1 hx
    cases hc
  | case3 x =>
    cases h
    obtain ⟨_, r, rfl, hc, rfl⟩ := List.map_eq_cons_iff.1 hx
    cases hc
    exact ⟨[], r, rfl, rfl, .nil⟩
  | case4 => cases h
  | case5 => cases h
  | case6 x n x' hunit _ ih =>
    obtain ⟨_, _, rfl, hc, hx⟩ := List.map_eq_cons_iff.1 hx
    obtain ⟨_, s, rfl, hu, rfl⟩ := List.map_eq_cons_iff.1 hx
    cases hc
    cases hu
    obtain ⟨ds, r, rfl, rfl, hds⟩ := hexDigits_of_hexUnit hunit
    obtain ⟨body, r', rfl, rfl, hbody⟩ := ih rfl h
    exact ⟨'\\' :: 'u' :: ds ++ body, r', by simp, rfl, .unit ⟨ds, rfl, hds⟩ hbody⟩
  | case7 e x _ hshort _ ih =>
    obtain ⟨_, _, rfl, hc, hx⟩ := List.map_eq_cons_iff.1 hx
    obtain ⟨_, s, rfl, he, rfl⟩ := List.map_eq_cons_iff.1 hx
    cases hc
    cases he
    obtain ⟨c, hmem⟩ := Option.isSome_iff_exists.1 hshort
    obtain ⟨body, r, rfl, rfl, hbody⟩ := ih rfl h
    exact ⟨'\\' :: e :: body, r, rfl, rfl, .short (shortEscape?_eq_some_iff.1 hmem) hbody⟩
  | case8 => cases h
  | case9 => cases h
  | case10 => cases h
  | case11 c x hquote hescape hcontrol ih =>
    obtain ⟨_, s, rfl, hc, rfl⟩ := List.map_eq_cons_iff.1 hx
    cases hc
    obtain ⟨body, r, rfl, rfl, hbody⟩ := ih rfl h
    exact ⟨c :: body, r, rfl, rfl, .plain (by omega) hquote hescape hbody⟩

end Roster.Json
