import Roster.Json.Record
import Roster.Proofs.Json.Values

/-!
What stands in a record: the items of an object or a list, one behind the other, and the values of
fields. A value of each kind is read exactly as it is written, and a text gives one value at most.
-/

namespace Roster.Json

open Text (Symbol ofChars)

/-! ## Items -/

section Items

variable {α : Type} {P : List Char → α → Prop}

/-- What stands in front of an item: nothing for the first one, a comma for the others. -/
def Ahead (first : Bool) (l : List Char) : Prop :=
  if first then l = [] else ∃ w, l = w ++ [','] ∧ Blank w

def Remaining (P : List Char → α → Prop) (first : Bool) (s : List Char) (as : List α) : Prop :=
  Blank s ∧ as = [] ∨ ∃ l t, s = l ++ t ∧ Ahead first l ∧ Separated P t as

theorem remaining_true_iff {s : List Char} {as : List α} :
    Remaining P true s as ↔ Blank s ∧ as = [] ∨ Separated P s as := by
  constructor
  · rintro (h | ⟨l, t, rfl, hl, h⟩)
    · exact .inl h
    · obtain rfl : l = [] := hl
      exact .inr h
  · rintro (h | h)
    · exact .inl h
    · exact .inr ⟨[], s, rfl, rfl, h⟩

theorem Remaining.blank {first : Bool} {s : List Char} (h : Remaining P first s []) : Blank s := by
  obtain ⟨h, -⟩ | ⟨-, -, -, -, ⟨⟩⟩ := h
  exact h

theorem Remaining.of_blank {s : List Char} (h : Blank s) (first : Bool) :
    Remaining P first s [] :=
  .inl ⟨h, rfl⟩

/-- Blanks behind an item belong to it or to what is left, as one likes. -/
theorem Remaining.cons {first : Bool} {l s t : List Char} {a : α} {as : List α}
    (hl : Ahead first l) (hs : ∀ w, Blank w → P (s ++ w) a) (ht : Remaining P false t as) :
    Remaining P first (l ++ s ++ t) (a :: as) := by
  refine .inr ⟨l, s ++ t, List.append_assoc .., hl, ?_⟩
  obtain ⟨ht, rfl⟩ | ⟨_, t, rfl, ⟨w, rfl, hw⟩, ht⟩ := ht
  · exact .last (hs t ht)
  · have happend : s ++ (w ++ [','] ++ t) = s ++ w ++ ',' :: t := by simp
    rw [happend]
    exact .more (hs w hw) ht

theorem Remaining.exists_cons {first : Bool} {s : List Char} {a : α} {as : List α}
    (h : Remaining P first s (a :: as)) :
    ∃ l p t, s = l ++ p ++ t ∧ Ahead first l ∧ P p a ∧
      ∀ w, Blank w → Remaining P false (w ++ t) as := by
  obtain ⟨-, ⟨⟩⟩ | ⟨l, t, rfl, hl, h⟩ := h
  cases h with
  | last h =>
    exact ⟨l, t, [], by simp, hl, h, fun w hw => .of_blank (by simpa using hw) false⟩
  | @more p t _ _ hp ht =>
    refine ⟨l, p, ',' :: t, by simp, hl, hp, fun w hw => .inr ⟨w ++ [','], t, by simp, ?_, ht⟩⟩
    exact ⟨w, rfl, hw⟩

theorem Remaining.apart {s : List Char} {as : List α} (h : Remaining P false s as) (b : Bracket)
    (r : List Char) : Apart (s ++ b.closes :: r) := by
  obtain ⟨h, -⟩ | ⟨_, t, rfl, ⟨w, rfl, hw⟩, -⟩ := h
  · exact h.apart (apart_closes b r)
  · have happend : w ++ [','] ++ t ++ b.closes :: r = w ++ ',' :: (t ++ b.closes :: r) := by simp
    rw [happend]
    exact hw.apart (apart_comma _)

theorem Remaining.of_end {s w r r' : List Char} {as : List α} (h : Remaining P false s as)
    (b : Bracket) (hw : Blank w) (heq : w ++ b.closes :: r' = s ++ b.closes :: r) :
    Blank s ∧ as = [] := by
  obtain h | ⟨_, t, rfl, ⟨w', rfl, hw'⟩, -⟩ := h
  · exact h
  · have happend : w' ++ [','] ++ t ++ b.closes :: r = w' ++ ',' :: (t ++ b.closes :: r) := by simp
    have hskip := congrArg (fun s => skipSpace (ofChars s)) (heq.trans happend)
    simp only [skipSpace_append hw, skipSpace_append hw'] at hskip
    cases b <;> cases hskip

end Items

/-! ## Values of fields -/

def Gives : Kind → List Char → FieldValue → Prop
  | .natural, s, v => ∃ n, v = .natural n ∧ IsNatural s n
  | .text, s, v => ∃ cs, v = .text cs ∧ IsText s cs
  | .flag, s, v => ∃ b, v = .flag b ∧ IsFlag s b

theorem IsNatural.isNumber {s : List Char} {n : UInt64} (h : IsNatural s n) : IsNumber s :=
  ⟨[], s, [], [], by simp, .inl rfl, h ▸ Text.isNumeral_toDigits _, .inl rfl, .inl rfl⟩

theorem Piece.unspelled {p s : List Char} {c : Char} (h : Piece p c) (hs : Unspelled s) :
    Unspelled (p ++ s) := by
  cases h with
  | plain hcontrol hquote hescape => exact .plain hcontrol hquote hescape hs
  | short hmem => exact .short hmem hs
  | unit hu => exact .unit hu hs
  | pair hu hu' =>
    rw [List.append_assoc]
    exact .unit hu (.unit hu' hs)

theorem IsText.isAnyText {s cs : List Char} (h : IsText s cs) : IsAnyText s := by
  obtain ⟨body, rfl, hbody⟩ := h
  refine ⟨body, rfl, ?_⟩
  induction hbody with
  | nil => exact .nil
  | cons hp _ ih => exact hp.unspelled ih

theorem Gives.isValue {kind : Kind} {s : List Char} {v : FieldValue} (h : Gives kind s v) :
    IsValue s := by
  cases kind with
  | natural =>
    obtain ⟨n, -, h⟩ := h
    exact .number h.isNumber
  | text =>
    obtain ⟨cs, -, h⟩ := h
    exact .text h.isAnyText
  | flag =>
    obtain ⟨b, -, h⟩ := h
    exact .flag h

theorem readNatural_append {s r : List Char} {n : UInt64} (h : IsNatural s n) (hr : Apart r) :
    readNatural (ofChars (s ++ r)) = .ok (n, ofChars r) := by
  have hread := Number.read_natural h hr
  obtain rfl := h
  obtain ⟨c, t, hcons⟩ := List.exists_cons_of_ne_nil (Text.isNumeral_toDigits n.toNat).nonempty
  have hdigit := (Text.isNumeral_toDigits n.toNat).digits c (by simp [hcons])
  rw [hcons] at hread ⊢
  simp only [ofChars, List.cons_append, List.map_cons] at hread ⊢
  simp only [readNatural, hdigit, Bool.or_true, if_true, hread, UInt64.ofNat_toNat]

theorem isNatural_of_readNatural {s : List Char} {n : UInt64} {rest : List Symbol}
    (h : readNatural (ofChars s) = .ok (n, rest)) :
    ∃ t r, s = t ++ r ∧ rest = ofChars r ∧ IsNatural t n := by
  unfold readNatural at h
  split at h
  · split at h
    · split at h
      · cases h
      · rename_i hread
        cases h
        obtain ⟨t, r, m, hs, hrest, rfl, ht⟩ := Number.isNatural_of_read hread
        exact ⟨t, r, hs, hrest, by rwa [UInt64.ofNat_toNat]⟩
      · cases h
      · cases h
    · cases h
  · cases h

theorem readFlag_append {s : List Char} {b : Bool} (h : IsFlag s b) (r : List Char) :
    readFlag (ofChars (s ++ r)) = .ok (b, ofChars r) := by
  obtain rfl := h
  cases b with
  | true =>
    have hcons : ofChars ("true".toList ++ r) = .char 't' :: ofChars (['r', 'u', 'e'] ++ r) := rfl
    simp only [if_true, hcons, readFlag, readWord_append]
  | false =>
    have hcons : ofChars ("false".toList ++ r) =
        .char 'f' :: ofChars (['a', 'l', 's', 'e'] ++ r) := rfl
    simp only [Bool.false_eq_true, if_false, hcons, readFlag, readWord_append]

theorem isFlag_of_readFlag {s : List Char} {b : Bool} {rest : List Symbol}
    (h : readFlag (ofChars s) = .ok (b, rest)) :
    ∃ t r, s = t ++ r ∧ rest = ofChars r ∧ IsFlag t b := by
  unfold readFlag at h
  split at h
  · rename_i x hs
    obtain ⟨c, s, rfl, hc, rfl⟩ := List.map_eq_cons_iff.1 hs
    cases hc
    split at h
    · cases h
    · rename_i hword
      cases h
      obtain ⟨r, rfl, rfl⟩ := exists_of_readWord hword
      exact ⟨_, r, rfl, rfl, rfl⟩
  · rename_i x hs
    obtain ⟨c, s, rfl, hc, rfl⟩ := List.map_eq_cons_iff.1 hs
    cases hc
    split at h
    · cases h
    · rename_i hword
      cases h
      obtain ⟨r, rfl, rfl⟩ := exists_of_readWord hword
      exact ⟨_, r, rfl, rfl, rfl⟩
  · cases h

theorem readQuoted_append {s cs : List Char} (h : IsText s cs) (r : List Char) :
    readQuoted (ofChars (s ++ r)) = .ok (cs, ofChars r) := by
  obtain ⟨body, rfl, hbody⟩ := h
  have hcons : ofChars ('"' :: body ++ ['"'] ++ r) =
      .char '"' :: (ofChars (body ++ ['"']) ++ ofChars r) := by
    simp [ofChars]
  rw [hcons, readQuoted, readText_append hbody]

theorem isText_of_readQuoted {s cs : List Char} {rest : List Symbol}
    (h : readQuoted (ofChars s) = .ok (cs, rest)) :
    ∃ t r, s = t ++ r ∧ rest = ofChars r ∧ IsText t cs := by
  unfold readQuoted at h
  split at h
  · rename_i x hs
    obtain ⟨c, s, rfl, hc, rfl⟩ := List.map_eq_cons_iff.1 hs
    cases hc
    obtain ⟨body, r, rfl, rfl, hbody⟩ := spells_of_readText h
    exact ⟨'"' :: body ++ ['"'], r, by simp, rfl, body, rfl, hbody⟩
  · cases h

theorem readField_append {kind : Kind} {w s r : List Char} {v : FieldValue} (hw : Blank w)
    (h : Gives kind s v) (hr : Apart r) :
    readField kind (ofChars (w ++ s ++ r)) = .ok (v, ofChars r) := by
  have hskip : skipSpace (ofChars (w ++ s ++ r)) = ofChars (s ++ r) := by
    obtain ⟨c, t, rfl, hc⟩ := h.isValue.begins
    rw [List.append_assoc, skipSpace_append hw]
    exact skipSpace_char hc.not_isSpace _
  cases kind with
  | natural =>
    obtain ⟨n, rfl, h⟩ := h
    simp only [readField, hskip, readNatural_append h hr]
  | text =>
    obtain ⟨cs, rfl, h⟩ := h
    simp only [readField, hskip, readQuoted_append h]
  | flag =>
    obtain ⟨b, rfl, h⟩ := h
    simp only [readField, hskip, readFlag_append h]

theorem gives_of_readField {kind : Kind} {s : List Char} {v : FieldValue} {rest : List Symbol}
    (h : readField kind (ofChars s) = .ok (v, rest)) :
    ∃ w t r, s = w ++ t ++ r ∧ rest = ofChars r ∧ Blank w ∧ Gives kind t v := by
  obtain ⟨w, s, rfl, hw, hskip, -⟩ := exists_of_skipSpace s
  simp only [List.append_assoc]
  cases kind with
  | natural =>
    simp only [readField, hskip] at h
    split at h
    · cases h
    · rename_i n rest' hread
      cases h
      obtain ⟨t, r, rfl, rfl, ht⟩ := isNatural_of_readNatural hread
      exact ⟨w, t, r, rfl, rfl, hw, n, rfl, ht⟩
  | text =>
    simp only [readField, hskip] at h
    split at h
    · cases h
    · rename_i cs rest' hread
      cases h
      obtain ⟨t, r, rfl, rfl, ht⟩ := isText_of_readQuoted hread
      exact ⟨w, t, r, rfl, rfl, hw, cs, rfl, ht⟩
  | flag =>
    simp only [readField, hskip] at h
    split at h
    · cases h
    · rename_i b rest' hread
      cases h
      obtain ⟨t, r, rfl, rfl, ht⟩ := isFlag_of_readFlag hread
      exact ⟨w, t, r, rfl, rfl, hw, b, rfl, ht⟩

theorem Gives.unique {kind : Kind} {s : List Char} {v v' : FieldValue} (h : Gives kind s v)
    (h' : Gives kind s v') : v = v' := by
  have hread := readField_append (w := []) (by simp [Blank]) h apart_nil
  have hread' := readField_append (w := []) (by simp [Blank]) h' apart_nil
  cases hread.symm.trans hread'
  rfl

end Roster.Json
