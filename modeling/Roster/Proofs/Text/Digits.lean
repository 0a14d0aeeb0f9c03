import Roster.Text.Integer

/-!
Numbers in decimal notation: the digits in which a number is written are those that begin with no
needless zero, and an integer is read again from its digits. In any base up to sixteen, digits tell
which number they write.
-/

namespace Roster.Text

/-- The digits of a number, which begin with a zero only if there is no other digit. -/
structure IsNumeral (cs : List Char) : Prop where
  nonempty : cs ≠ []
  digits : ∀ c ∈ cs, c.isDigit = true
  leading : cs.head? = some '0' → cs = ['0']

theorem le_ofDigitChars (cs : List Char) (init : Nat) : init ≤ Nat.ofDigitChars 10 cs init := by
  induction cs generalizing init with
  | nil => exact Nat.le_refl _
  | cons c cs ih =>
    rw [Nat.ofDigitChars_cons]
    have hc := ih (10 * init + (c.toNat - '0'.toNat))
    omega

theorem toNat_of_isDigit {c : Char} (h : c.isDigit = true) :
    '0'.toNat ≤ c.toNat ∧ c.toNat ≤ '9'.toNat := by
  simpa [Char.isDigit, UInt32.le_iff_toNat_le] using h

theorem lt_ten_of_isDigit {c : Char} (h : c.isDigit = true) : c.toNat - '0'.toNat < 10 := by
  have hhigh := (toNat_of_isDigit h).2
  have h9 : '9'.toNat = '0'.toNat + 9 := rfl
  omega

theorem toDigits_of_isDigit {c : Char} (h : c.isDigit = true) :
    Nat.toDigits 10 (c.toNat - '0'.toNat) = [c] := by
  have hall : ∀ n < 10, (Nat.digitChar n).toNat = '0'.toNat + n := by decide
  have hlow := (toNat_of_isDigit h).1
  have hlt := lt_ten_of_isDigit h
  rw [Nat.toDigits_of_lt_base hlt, List.singleton_inj, ← Char.toNat_inj, hall _ hlt]
  omega

/-- Digits behind a number other than zero carry on its numeral. -/
theorem toDigits_append {n : Nat} (h : 0 < n) {cs : List Char} (hcs : ∀ c ∈ cs, c.isDigit = true) :
    Nat.toDigits 10 n ++ cs = Nat.toDigits 10 (Nat.ofDigitChars 10 cs n) := by
  induction cs generalizing n with
  | nil => simp
  | cons c cs ih =>
    obtain ⟨hc, hcs⟩ := List.forall_mem_cons.1 hcs
    have hlast := toDigits_of_isDigit hc
    have hlt := lt_ten_of_isDigit hc
    rw [Nat.ofDigitChars_cons, ← ih (by omega) hcs,
      ← Nat.toDigits_append_toDigits (by decide) h hlt, hlast, List.append_assoc,
      List.singleton_append]

/-- A numeral is how its value is written. -/
theorem toDigits_ofDigitChars {cs : List Char} (h : IsNumeral cs) :
    Nat.toDigits 10 (Nat.ofDigitChars 10 cs 0) = cs := by
  cases cs with
  | nil => exact absurd rfl h.nonempty
  | cons c cs =>
    obtain ⟨hc, hcs⟩ := List.forall_mem_cons.1 h.digits
    by_cases hzero : c = '0'
    · subst hzero
      rw [h.leading rfl]
      rfl
    · have hpos : 0 < c.toNat - '0'.toNat := by
        have hne : c.toNat ≠ '0'.toNat := fun heq => hzero (Char.toNat_inj.1 heq)
        have hlow := (toNat_of_isDigit hc).1
        omega
      rw [Nat.ofDigitChars_cons, Nat.mul_zero, Nat.zero_add, ← toDigits_append hpos hcs,
        toDigits_of_isDigit hc, List.singleton_append]

theorem head?_toDigits {n : Nat} (h : 0 < n) : (Nat.toDigits 10 n).head? ≠ some '0' := by
  induction n using Nat.strongRecOn with
  | ind n ih =>
    by_cases hn : n < 10
    · have hall : ∀ n < 10, 0 < n → [Nat.digitChar n].head? ≠ some '0' := by decide
      rw [Nat.toDigits_of_lt_base hn]
      exact hall n hn h
    · have hne : Nat.toDigits 10 (n / 10) ≠ [] := Nat.toDigits_ne_nil
      obtain ⟨c, cs, hcs⟩ := List.exists_cons_of_ne_nil hne
      have hhead := ih (n / 10) (by omega) (by omega)
      rw [hcs] at hhead
      rw [Nat.toDigits_of_base_le (by decide) (by omega), hcs]
      exact hhead

theorem isNumeral_toDigits (n : Nat) : IsNumeral (Nat.toDigits 10 n) where
  nonempty := Nat.toDigits_ne_nil
  digits _ hc := Nat.isDigit_of_mem_toDigits (by decide) (by decide) hc
  leading h := by
    by_cases hn : n = 0
    · rw [hn]
      rfl
    · exact absurd h (head?_toDigits (by omega))

/-! ## Integers -/

theorem readDigits_eq {limit : Nat} {cs : List Char} (hcs : ∀ c ∈ cs, c.isDigit = true)
    (tooFar : IntegerFault) (n : Nat) (h : Nat.ofDigitChars 10 cs n ≤ limit) :
    readDigits limit tooFar n cs = .ok (Nat.ofDigitChars 10 cs n) := by
  induction cs generalizing n with
  | nil => rfl
  | cons c cs ih =>
    obtain ⟨hc, hcs⟩ := List.forall_mem_cons.1 hcs
    rw [Nat.ofDigitChars_cons] at h ⊢
    have hle := le_ofDigitChars cs (10 * n + (c.toNat - '0'.toNat))
    simp only [readDigits, digit?, hc, if_true]
    rw [if_neg (by omega), ih hcs _ h]

theorem readMagnitude_toDigits {limit n : Nat} (tooFar : IntegerFault) (h : n ≤ limit) :
    readMagnitude limit tooFar (Nat.toDigits 10 n) = .ok n := by
  have hle : Nat.ofDigitChars 10 (Nat.toDigits 10 n) 0 ≤ limit := by
    rwa [Nat.ofDigitChars_ten_toDigits]
  have hread := readDigits_eq (isNumeral_toDigits n).digits tooFar 0 hle
  rw [Nat.ofDigitChars_ten_toDigits] at hread
  obtain ⟨c, cs, hcs⟩ := List.exists_cons_of_ne_nil (isNumeral_toDigits n).nonempty
  rw [hcs] at hread ⊢
  exact hread

/-- An integer of the range is read from the text in which it is written. -/
theorem readInteger_toString {lowest highest n : Int} (hlow : lowest ≤ n) (hhigh : n ≤ highest) :
    readInteger lowest highest (toString n).toList = .ok n := by
  cases n with
  | ofNat n =>
    have htext : (toString (Int.ofNat n)).toList = Nat.toDigits 10 n := by
      simp [Int.toString_eq_repr, Int.repr, Nat.repr_eq_ofList_toDigits]
    have hread : readMagnitude highest.toNat .tooLarge (Nat.toDigits 10 n) = .ok n :=
      readMagnitude_toDigits .tooLarge (by have := Int.ofNat_eq_natCast n; omega)
    have hdigits := (isNumeral_toDigits n).digits
    rw [htext]
    obtain ⟨c, cs, hcs⟩ := List.exists_cons_of_ne_nil (isNumeral_toDigits n).nonempty
    rw [hcs] at hread hdigits ⊢
    have hc := hdigits c (List.mem_cons_self ..)
    -- the first character is a digit and so no sign
    unfold readInteger
    split
    · contradiction
    · simp_all
    · simp_all
    · rw [hread]
      rfl
  | negSucc n =>
    have htext : (toString (Int.negSucc n)).toList = '-' :: Nat.toDigits 10 (n + 1) := by
      simp [Int.toString_eq_repr, Int.repr, Nat.repr_eq_ofList_toDigits]
    have hread : readMagnitude (-lowest).toNat .tooSmall (Nat.toDigits 10 (n + 1)) = .ok (n + 1) :=
      readMagnitude_toDigits .tooSmall (by omega)
    rw [htext, readInteger, if_pos (by omega), hread]
    rfl

/-! ## What is read as an integer -/

/-- The characters write the number: they are digits, which a plus sign may precede. -/
def Writes (cs : List Char) (n : Nat) : Prop :=
  ∃ digits, (cs = digits ∨ cs = '+' :: digits) ∧ digits ≠ [] ∧
    (∀ c ∈ digits, c.isDigit = true) ∧ Nat.ofDigitChars 10 digits 0 = n

theorem readDigits_eq_ok_iff {limit n m : Nat} {tooFar : IntegerFault} {cs : List Char}
    (h : n ≤ limit) :
    readDigits limit tooFar n cs = .ok m ↔
      (∀ c ∈ cs, c.isDigit = true) ∧ Nat.ofDigitChars 10 cs n = m ∧ m ≤ limit := by
  constructor
  · intro hread
    induction cs generalizing n with
    | nil =>
      cases hread
      exact ⟨by simp, rfl, h⟩
    | cons c cs ih =>
      unfold readDigits at hread
      cases hc : c.isDigit with
      | false => simp [digit?, hc] at hread
      | true =>
        simp only [digit?, hc, if_true] at hread
        split at hread
        · cases hread
        · rename_i hle
          obtain ⟨hcs, hvalue, hm⟩ := ih (Nat.le_of_not_lt hle) hread
          exact ⟨List.forall_mem_cons.2 ⟨hc, hcs⟩, hvalue, hm⟩
  · rintro ⟨hcs, rfl, hm⟩
    exact readDigits_eq hcs tooFar n hm

theorem readMagnitude_eq_ok_iff {limit n : Nat} {tooFar : IntegerFault} {cs : List Char} :
    readMagnitude limit tooFar cs = .ok n ↔
      cs ≠ [] ∧ (∀ c ∈ cs, c.isDigit = true) ∧ Nat.ofDigitChars 10 cs 0 = n ∧ n ≤ limit := by
  cases cs with
  | nil => simp [readMagnitude]
  | cons c cs =>
    simp [readMagnitude, readDigits_eq_ok_iff (Nat.zero_le limit)]

theorem map_ofNat_eq_ok_iff {x : Except IntegerFault Nat} {n : Nat} :
    x.map Int.ofNat = .ok (n : Int) ↔ x = .ok n := by
  cases x with
  | error fault => simp [Except.map]
  | ok m =>
    rw [Except.map, Except.ok.injEq, Except.ok.injEq]
    exact Int.ofNat_inj

theorem writes_plus {cs : List Char} {n : Nat} :
    Writes ('+' :: cs) n ↔
      cs ≠ [] ∧ (∀ c ∈ cs, c.isDigit = true) ∧ Nat.ofDigitChars 10 cs 0 = n := by
  constructor
  · rintro ⟨digits, hcs | hcs, hne, hdigits, hvalue⟩
    · subst hcs
      exact absurd (hdigits '+' (List.mem_cons_self ..)) (by decide)
    · cases hcs
      exact ⟨hne, hdigits, hvalue⟩
  · rintro ⟨hne, hdigits, hvalue⟩
    exact ⟨cs, .inr rfl, hne, hdigits, hvalue⟩

theorem writes_of_head?_ne {cs : List Char} {n : Nat} (h : cs.head? ≠ some '+') :
    Writes cs n ↔ cs ≠ [] ∧ (∀ c ∈ cs, c.isDigit = true) ∧ Nat.ofDigitChars 10 cs 0 = n := by
  constructor
  · rintro ⟨digits, hcs | hcs, hne, hdigits, hvalue⟩
    · subst hcs
      exact ⟨hne, hdigits, hvalue⟩
    · rw [hcs] at h
      exact absurd rfl h
  · rintro ⟨hne, hdigits, hvalue⟩
    exact ⟨cs, .inl rfl, hne, hdigits, hvalue⟩

/-- A positive integer is read from what writes it, if it can be represented. -/
theorem readInteger_eq_ok_iff {lowest highest : Int} {n : Nat} (hn : 0 < n) (cs : List Char) :
    readInteger lowest highest cs = .ok (n : Int) ↔ Writes cs n ∧ n ≤ highest.toNat := by
  have hmagnitude (cs : List Char) :
      (readMagnitude highest.toNat .tooLarge cs).map Int.ofNat = .ok (n : Int) ↔
        (cs ≠ [] ∧ (∀ c ∈ cs, c.isDigit = true) ∧ Nat.ofDigitChars 10 cs 0 = n) ∧
          n ≤ highest.toNat := by
    rw [map_ofNat_eq_ok_iff, readMagnitude_eq_ok_iff]
    simp only [and_assoc]
  unfold readInteger
  split
  · simp [Writes]
  · rw [hmagnitude, writes_plus]
  · rename_i cs
    -- what follows a minus sign is no positive integer
    have hwrites : ¬Writes ('-' :: cs) n := by
      rw [writes_of_head?_ne (by simp)]
      rintro ⟨-, hdigits, -⟩
      exact absurd (hdigits '-' (List.mem_cons_self ..)) (by decide)
    have hread : ∀ x : Except IntegerFault Nat, (x.map fun m => -(m : Int)) ≠ .ok (n : Int) := by
      intro x hx
      cases x with
      | error fault => cases hx
      | ok m =>
        have hm : -(m : Int) = n := Except.ok.inj hx
        omega
    split
    · exact iff_of_false (hread _) fun h => hwrites h.1
    · exact iff_of_false nofun fun h => hwrites h.1
  · rename_i hplus _
    rw [hmagnitude, writes_of_head?_ne]
    intro hhead
    obtain ⟨rest, hrest⟩ := List.head?_eq_some_iff.1 hhead
    exact hplus rest hrest

/-! ## Where digits end -/

theorem digitChar_inj {m n : Nat} (hm : m < 16) (hn : n < 16)
    (h : Nat.digitChar m = Nat.digitChar n) : m = n := by
  have hall : ∀ m < 16, ∀ n < 16, Nat.digitChar m = Nat.digitChar n → m = n := by decide
  exact hall m hm n hn h

/-- The last digit, and the digits in front of it. -/
theorem toDigits_eq_concat {base : Nat} (hbase : 1 < base) (n : Nat) :
    Nat.toDigits base n =
      (if n < base then [] else Nat.toDigits base (n / base)) ++ [Nat.digitChar (n % base)] := by
  rw [Nat.toDigits_eq_if hbase]
  split
  · rename_i h
    rw [Nat.mod_eq_of_lt h, List.nil_append]
  · rfl

theorem toDigits_inj {base m n : Nat} (hbase : 1 < base) (hle : base ≤ 16)
    (h : Nat.toDigits base m = Nat.toDigits base n) : m = n := by
  induction m using Nat.strongRecOn generalizing n with
  | ind m ih =>
    rw [toDigits_eq_concat hbase, toDigits_eq_concat hbase n] at h
    obtain ⟨hfront, hlast⟩ := List.append_inj' h rfl
    have hmod (k : Nat) : k % base < 16 :=
      Nat.lt_of_lt_of_le (Nat.mod_lt k (Nat.lt_of_succ_lt hbase)) hle
    have hrest : m % base = n % base :=
      digitChar_inj (hmod m) (hmod n) (List.singleton_inj.1 hlast)
    have hdiv : m / base = n / base := by
      split at hfront <;> split at hfront
      · rw [Nat.div_eq_of_lt ‹_›, Nat.div_eq_of_lt ‹_›]
      · exact absurd hfront.symm Nat.toDigits_ne_nil
      · exact absurd hfront Nat.toDigits_ne_nil
      · exact ih _ (Nat.div_lt_self (by omega) hbase) hfront
    rw [← Nat.div_add_mod m base, ← Nat.div_add_mod n base, hdiv, hrest]

theorem notMem_toDigits {c : Char} (hc : ∀ n < 16, Nat.digitChar n ≠ c) {base : Nat}
    (hbase : 1 < base) (hle : base ≤ 16) (n : Nat) : c ∉ Nat.toDigits base n := by
  induction n using Nat.strongRecOn with
  | ind n ih =>
    have hmod : n % base < 16 :=
      Nat.lt_of_lt_of_le (Nat.mod_lt n (Nat.lt_of_succ_lt hbase)) hle
    rw [toDigits_eq_concat hbase]
    intro hmem
    rcases List.mem_append.1 hmem with hfront | hlast
    · split at hfront
      · cases hfront
      · exact ih _ (Nat.div_lt_self (by omega) hbase) hfront
    · exact hc _ hmod (List.mem_singleton.1 hlast).symm

/-- Behind digits, a character that is no digit tells where they end. -/
theorem toDigits_append_inj {base m n : Nat} {c : Char} {u v : List Char} (hbase : 1 < base)
    (hle : base ≤ 16) (hc : ∀ n < 16, Nat.digitChar n ≠ c)
    (h : Nat.toDigits base m ++ c :: u = Nat.toDigits base n ++ c :: v) : m = n ∧ u = v := by
  have htake (k : Nat) (w : List Char) :
      (Nat.toDigits base k ++ c :: w).takeWhile (· != c) = Nat.toDigits base k := by
    rw [List.takeWhile_append_of_pos, List.takeWhile_cons_of_neg (by simp), List.append_nil]
    intro x hx
    rw [bne_iff_ne]
    rintro rfl
    exact notMem_toDigits hc hbase hle k hx
  have hdigits : Nat.toDigits base m = Nat.toDigits base n := by rw [← htake m u, h, htake]
  obtain rfl := toDigits_inj hbase hle hdigits
  exact ⟨rfl, List.tail_eq_of_cons_eq (List.append_cancel_left h)⟩

end Roster.Text
