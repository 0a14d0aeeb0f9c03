import Roster.Proofs.Json.Numerals
import Roster.Proofs.Json.Spelling

/-!
Blanks, and the values that hold no others, are passed over exactly as the grammar writes them.
-/

namespace Roster.Json

open Text (Symbol ofChars)

/-! ## Blanks -/

theorem isSpace_char_iff {c : Char} :
    isSpace (.char c) = true ↔ c = ' ' ∨ c = '\n' ∨ c = '\t' ∨ c = '\r' := by
  simp [isSpace, or_assoc]

theorem Blank.append {w w' : List Char} (h : Blank w) (h' : Blank w') : Blank (w ++ w') := by
  intro c hc
  obtain hc | hc := List.mem_append.1 hc
  · exact h c hc
  · exact h' c hc

theorem skipSpace_append {w : List Char} (h : Blank w) (s : List Char) :
    skipSpace (ofChars (w ++ s)) = skipSpace (ofChars s) := by
  rw [skipSpace, ofChars, List.map_append, List.dropWhile_append_of_pos]
  · rfl
  · intro x hx
    obtain ⟨c, hc, rfl⟩ := List.mem_map.1 hx
    exact isSpace_char_iff.2 (h c hc)

theorem skipSpace_char {c : Char} (h : isSpace (.char c) = false) (s : List Char) :
    skipSpace (ofChars (c :: s)) = ofChars (c :: s) := by
  rw [skipSpace, ofChars, List.map_cons, List.dropWhile_cons_of_neg (by simp [h])]

theorem exists_of_skipSpace (s : List Char) :
    ∃ w t, s = w ++ t ∧ Blank w ∧ skipSpace (ofChars s) = ofChars t ∧
      ∀ c ∈ t.head?, isSpace (.char c) = false := by
  induction s with
  | nil => exact ⟨[], [], rfl, by simp [Blank], rfl, by simp⟩
  | cons c s ih =>
    by_cases hc : isSpace (.char c) = true
    · obtain ⟨w, t, rfl, hw, hskip, ht⟩ := ih
      have hw' : Blank (c :: w) := by
        intro c' hc'
        obtain rfl | hc' := List.mem_cons.1 hc'
        · exact isSpace_char_iff.1 hc
        · exact hw c' hc'
      exact ⟨c :: w, t, rfl, hw',
        (skipSpace_append hw' t).trans ((skipSpace_append hw t).symm.trans hskip), ht⟩
    · have hc' : isSpace (.char c) = false := by simpa using hc
      exact ⟨[], c :: s, rfl, by simp [Blank], skipSpace_char hc' s, by simpa using hc'⟩

theorem exists_of_skipSpace_eq {s : List Char} {rest : List Symbol}
    (h : skipSpace (ofChars s) = rest) : ∃ w t, s = w ++ t ∧ Blank w ∧ rest = ofChars t := by
  obtain ⟨w, t, hs, hw, hskip, -⟩ := exists_of_skipSpace s
  exact ⟨w, t, hs, hw, h.symm.trans hskip⟩

theorem exists_of_skipSpace_cons {s : List Char} {c : Char} {rest : List Symbol}
    (h : skipSpace (ofChars s) = .char c :: rest) :
    ∃ w t, s = w ++ c :: t ∧ Blank w ∧ rest = ofChars t := by
  obtain ⟨w, t, rfl, hw, ht⟩ := exists_of_skipSpace_eq h
  obtain ⟨c', t, rfl, hc, rfl⟩ := List.map_eq_cons_iff.1 ht.symm
  cases hc
  exact ⟨w, t, rfl, hw, rfl⟩

/-! ## Scalars -/

theorem readWord_append (word r : List Char) :
    readWord word (ofChars (word ++ r)) = .ok (ofChars r) := by
  induction word with
  | nil => cases r <;> rfl
  | cons c word ih => exact (if_pos rfl).trans ih

theorem exists_of_readWord {word s : List Char} {rest : List Symbol}
    (h : readWord word (ofChars s) = .ok rest) : ∃ r, s = word ++ r ∧ rest = ofChars r := by
  induction word generalizing s with
  | nil =>
    have hrest : readWord [] (ofChars s) = .ok (ofChars s) := by cases s <;> rfl
    cases hrest.symm.trans h
    exact ⟨s, rfl, rfl⟩
  | cons c word ih =>
    cases s with
    | nil => cases h
    | cons c' s =>
      have hstep : (if Symbol.char c' = .char c then readWord word (ofChars s)
          else .error (Stop.past .expectedWord (ofChars (c' :: s)))) = .ok rest := h
      split at hstep
      · rename_i hc
        cases hc
        obtain ⟨r, rfl, rfl⟩ := ih hstep
        exact ⟨r, rfl, rfl⟩
      · cases hstep

inductive IsScalar : List Char → Prop
  | null : IsScalar "null".toList
  | flag {s : List Char} {b : Bool} : IsFlag s b → IsScalar s
  | number {s : List Char} : IsNumber s → IsScalar s
  | text {s : List Char} : IsAnyText s → IsScalar s

theorem IsScalar.isValue {s : List Char} (h : IsScalar s) : IsValue s := by
  cases h with
  | null => exact .null
  | flag h => exact .flag h
  | number h => exact .number h
  | text h => exact .text h

theorem isScalar_of_skipScalar {s : List Char} {rest : List Symbol}
    (h : skipScalar (ofChars s) = .ok rest) :
    ∃ v r, s = v ++ r ∧ rest = ofChars r ∧ IsScalar v := by
  cases s with
  | nil => cases h
  | cons c s =>
    have hcons : ofChars (c :: s) = .char c :: ofChars s := rfl
    rw [hcons] at h
    unfold skipScalar at h
    split at h
    · cases h
    · rename_i rest' heq
      cases heq
      obtain ⟨r, rfl, rfl⟩ := exists_of_readWord h
      exact ⟨_, r, rfl, rfl, .null⟩
    · rename_i rest' heq
      cases heq
      obtain ⟨r, rfl, rfl⟩ := exists_of_readWord h
      exact ⟨_, r, rfl, rfl, .flag (b := true) rfl⟩
    · rename_i rest' heq
      cases heq
      obtain ⟨r, rfl, rfl⟩ := exists_of_readWord h
      exact ⟨_, r, rfl, rfl, .flag (b := false) rfl⟩
    · rename_i rest' heq
      cases heq
      obtain ⟨body, r, rfl, rfl, hbody⟩ := unspelled_of_skipText h
      exact ⟨'"' :: body ++ ['"'], r, by simp, rfl, .text ⟨body, rfl, hbody⟩⟩
    · rename_i heq
      cases heq
      split at h
      · split at h
        · cases h
        · rename_i hread
          cases h
          obtain ⟨sign, whole, fraction, exponent, r, hs, rfl, hwritten⟩ :=
            Numeral.exists_of_read (s := c :: s) hread
          exact ⟨_, r, hs, rfl, .number ⟨sign, whole, fraction, exponent, rfl, hwritten.signs,
            hwritten.numerals, hwritten.fractions, hwritten.exponents⟩⟩
      · cases h
    · cases h

def Begins (c : Char) : Prop :=
  c = '"' ∨ c = '[' ∨ c = '{' ∨ c = 'n' ∨ c = 't' ∨ c = 'f' ∨ c = '-' ∨ c.isDigit = true

theorem IsNumber.head {v : List Char} (h : IsNumber v) :
    ∃ c s, v = c :: s ∧ (c = '-' ∨ c.isDigit = true) := by
  obtain ⟨sign, whole, fraction, exponent, rfl, hsign, hwhole, -⟩ := h
  obtain ⟨c, cs, rfl⟩ := List.exists_cons_of_ne_nil hwhole.nonempty
  obtain rfl | rfl := hsign
  · exact ⟨c, cs ++ fraction ++ exponent, by simp, .inr (hwhole.digits c (List.mem_cons_self ..))⟩
  · exact ⟨'-', _, rfl, .inl rfl⟩

theorem skipScalar_append {v r : List Char} (h : IsScalar v) (hr : Apart r) :
    skipScalar (ofChars (v ++ r)) = .ok (ofChars r) := by
  cases h with
  | null => exact readWord_append ['u', 'l', 'l'] r
  | @flag _ b h =>
    obtain rfl := h
    cases b with
    | true => exact readWord_append ['r', 'u', 'e'] r
    | false => exact readWord_append ['a', 'l', 's', 'e'] r
  | number h =>
    obtain ⟨c, s, rfl, hc⟩ := h.head
    obtain ⟨sign, whole, fraction, exponent, heq, hsign, hwhole, hfraction, hexponent⟩ := h
    obtain ⟨numeral, hread, -⟩ :=
      Numeral.read_append .invalidNumber hsign hwhole hfraction hexponent hr
    rw [← heq] at hread
    have hcons : ofChars (c :: s ++ r) = .char c :: ofChars (s ++ r) := rfl
    rw [hcons] at hread ⊢
    have hstart : (c = '-' || c.isDigit) = true := by simpa using hc
    unfold skipScalar
    split
    all_goals rename_i hx
    all_goals cases hx
    -- no word and no text begins like a number
    all_goals try exact absurd hc (by decide)
    rw [if_pos hstart, hread]
  | text h =>
    obtain ⟨body, rfl, hbody⟩ := h
    have hcons : ofChars ('"' :: body ++ ['"'] ++ r) =
        .char '"' :: (ofChars (body ++ ['"']) ++ ofChars r) := by
      simp [ofChars]
    rw [hcons]
    exact skipText_append hbody (ofChars r)

theorem IsScalar.begins {v : List Char} (h : IsScalar v) :
    ∃ c s, v = c :: s ∧ Begins c ∧ c ≠ '[' ∧ c ≠ '{' := by
  cases h with
  | null => exact ⟨'n', _, rfl, by simp [Begins], by decide, by decide⟩
  | @flag _ b h =>
    obtain rfl := h
    cases b with
    | true => exact ⟨'t', _, rfl, by simp [Begins], by decide, by decide⟩
    | false => exact ⟨'f', _, rfl, by simp [Begins], by decide, by decide⟩
  | number h =>
    obtain ⟨c, s, rfl, hc⟩ := h.head
    refine ⟨c, s, rfl, ?_, ?_, ?_⟩
    · obtain hc | hc := hc <;> simp [Begins, hc]
    · rintro rfl
      simp at hc
    · rintro rfl
      simp at hc
  | text h =>
    obtain ⟨body, rfl, -⟩ := h
    exact ⟨'"', _, rfl, by simp [Begins], by decide, by decide⟩

theorem IsValue.begins {v : List Char} (h : IsValue v) : ∃ c s, v = c :: s ∧ Begins c := by
  have hscalar : IsScalar v → ∃ c s, v = c :: s ∧ Begins c := fun h =>
    have ⟨c, s, hv, hc, _⟩ := h.begins
    ⟨c, s, hv, hc⟩
  cases h with
  | null => exact hscalar .null
  | flag h => exact hscalar (.flag h)
  | number h => exact hscalar (.number h)
  | text h => exact hscalar (.text h)
  | @empty b => exact ⟨b.opens, _, rfl, by cases b <;> simp [Bracket.opens, Begins]⟩
  | @filled b => exact ⟨b.opens, _, rfl, by cases b <;> simp [Bracket.opens, Begins]⟩

theorem Begins.not_isSpace {c : Char} (h : Begins c) : isSpace (.char c) = false := by
  rw [Bool.eq_false_iff, ne_eq, isSpace_char_iff]
  rintro (rfl | rfl | rfl | rfl) <;> simp [Begins] at h

theorem Begins.ne_closes {c : Char} (h : Begins c) (b : Bracket) : c ≠ b.closes := by
  rintro rfl
  cases b <;> simp [Begins, Bracket.closes] at h

end Roster.Json
