import Roster.Proofs.Json.Objects

/-!
Records are read exactly as the grammar writes them: in object form from the members of an object,
in list form from the elements of a list, with blanks around the whole document.
-/

namespace Roster.Json

open Text (Symbol ofChars)

/-- What fields get from the elements of a list, one for each; those at the end may be missing. -/
inductive Filled : List Field → List (List Char) → List FieldValue → Prop
  | nil : Filled [] [] []
  | given {f : Field} {fs : List Field} {s : List Char} {es : List (List Char)} {v : FieldValue}
    {vs : List FieldValue} :
    Gives f.kind s v → Filled fs es vs → Filled (f :: fs) (s :: es) (v :: vs)
  | fallback {f : Field} {fs : List Field} {v : FieldValue} {vs : List FieldValue} :
    f.fallback = some v → Filled fs [] vs → Filled (f :: fs) [] (v :: vs)

theorem filled_nil_iff {es : List (List Char)} {vs : List FieldValue} :
    Filled [] es vs ↔ es = [] ∧ vs = [] := by
  constructor
  · rintro ⟨⟩
    exact ⟨rfl, rfl⟩
  · rintro ⟨rfl, rfl⟩
    exact .nil

theorem filled_cons_iff {f : Field} {fs : List Field} {es : List (List Char)}
    {vs : List FieldValue} :
    Filled (f :: fs) es vs ↔
      ∃ v vs', vs = v :: vs' ∧ f.Given es.head?.toList v ∧ Filled fs es.tail vs' := by
  constructor
  · rintro (_ | ⟨hgives, hrest⟩ | ⟨hfallback, hrest⟩)
    · exact ⟨_, _, rfl, .inl ⟨_, rfl, hgives⟩, hrest⟩
    · exact ⟨_, _, rfl, .inr ⟨rfl, hfallback⟩, hrest⟩
  · rintro ⟨v, vs, rfl, hgiven, hrest⟩
    cases es with
    | nil =>
      obtain ⟨s, ⟨⟩, -⟩ | ⟨-, hfallback⟩ := hgiven
      exact .fallback hfallback hrest
    | cons e es =>
      obtain ⟨s, hs, hgives⟩ | ⟨⟨⟩, -⟩ := hgiven
      cases hs
      exact .given hgives hrest

def Shape.Holds (shape : Shape) (vs : List FieldValue) (s : List Char) : Prop :=
  (∃ ms, IsObject s ms ∧
      List.Forall₂ (fun f v => f.Given (under f.name ms) v) shape.fields vs) ∨
    ∃ es, IsList s es ∧ Filled shape.fields es vs

/-! ## List form -/

theorem nextElement_append {first : Bool} {l w v : List Char} (hl : Ahead first l) (hw : Blank w)
    (hv : IsValue v) (s : List Char) :
    nextElement first (ofChars (l ++ (w ++ v ++ s))) = .ok (some (ofChars (v ++ s))) := by
  obtain ⟨c, v, rfl, hc⟩ := hv.begins
  have hskip : skipSpace (ofChars (w ++ c :: (v ++ s))) = .char c :: ofChars (v ++ s) := by
    rw [skipSpace_append hw]
    exact skipSpace_char hc.not_isSpace _
  have hclose : c ≠ ']' := hc.ne_closes .list
  have hcons : ofChars (c :: v ++ s) = .char c :: ofChars (v ++ s) := rfl
  rw [hcons, List.append_assoc, List.cons_append]
  cases first with
  | true =>
    obtain rfl : l = [] := hl
    rw [List.nil_append, nextElement, hskip]
    simp [hclose]
  | false =>
    obtain ⟨w', rfl, hw'⟩ := hl
    have hcomma : skipSpace (ofChars (w' ++ [','] ++ (w ++ c :: (v ++ s)))) =
        .char ',' :: ofChars (w ++ c :: (v ++ s)) := by
      rw [List.append_assoc, skipSpace_append hw']
      exact skipSpace_char rfl _
    rw [nextElement, hcomma]
    simp [hskip, hclose]

theorem nextElement_end {w : List Char} (hw : Blank w) (first : Bool) (r : List Char) :
    nextElement first (ofChars (w ++ ']' :: r)) = .ok none := by
  rw [nextElement, skipSpace_append hw]
  rfl

theorem closeList_append {w : List Char} (hw : Blank w) (r : List Char) :
    closeList (ofChars (w ++ ']' :: r)) = .ok (ofChars r) := by
  rw [closeList, skipSpace_append hw]
  rfl

theorem exists_of_nextElement_none {first : Bool} {s : List Char}
    (h : nextElement first (ofChars s) = .ok none) : ∃ w r, s = w ++ ']' :: r ∧ Blank w := by
  unfold nextElement at h
  split at h
  · cases h
  · rename_i hskip
    obtain ⟨w, r, rfl, hw, -⟩ := exists_of_skipSpace_cons hskip
    exact ⟨w, r, rfl, hw⟩
  · repeat' split at h
    all_goals cases h

theorem exists_of_nextElement_some {first : Bool} {s : List Char} {rest : List Symbol}
    (h : nextElement first (ofChars s) = .ok (some rest)) :
    ∃ l w t, s = l ++ (w ++ t) ∧ rest = ofChars t ∧ Ahead first l ∧ Blank w := by
  obtain ⟨w, t, rfl, hw, hskip, -⟩ := exists_of_skipSpace s
  unfold nextElement at h
  rw [hskip] at h
  cases t with
  | nil => cases h
  | cons c t =>
    simp only [ofChars, List.map_cons] at h
    split at h
    · cases h
    · cases h
    · rename_i x rest' _ hx
      cases hx
      cases first with
      | true =>
        simp only [if_true] at h
        cases h
        exact ⟨[], w, c :: t, rfl, rfl, rfl, hw⟩
      | false =>
        simp only [Bool.false_eq_true, if_false] at h
        split at h
        · rename_i hc
          cases hc
          split at h
          · cases h
          · cases h
          · rename_i y rest'' _ hskip'
            cases h
            obtain ⟨w', t, rfl, hw', ht⟩ := exists_of_skipSpace_eq hskip'
            exact ⟨w ++ [','], w', t, by simp, ht, ⟨w, rfl, hw⟩, hw'⟩
        · cases h

theorem exists_of_closeList {s : List Char} {rest : List Symbol}
    (h : closeList (ofChars s) = .ok rest) :
    ∃ w r, s = w ++ ']' :: r ∧ rest = ofChars r ∧ Blank w := by
  unfold closeList at h
  split at h
  · cases h
  · rename_i hskip
    cases h
    obtain ⟨w, r, rfl, hw, rfl⟩ := exists_of_skipSpace_cons hskip
    exact ⟨w, r, rfl, rfl, hw⟩
  · split at h <;> cases h
  · cases h

theorem elementsFrom_of_filled {shape : Shape} {fs : List Field} {es : List (List Char)}
    {vs : List FieldValue} (h : Filled fs es vs) {index : Nat} {body : List Char}
    (hbody : Remaining IsElement (decide (index = 0)) body es) (r : List Char) :
    elementsFrom shape index (ofChars (body ++ ']' :: r)) fs = .ok (vs, ofChars r) := by
  induction h generalizing index body with
  | nil =>
    have hclose := closeList_append hbody.blank r
    simp only [elementsFrom, hclose]
  | @given f fs s es v vs hgives _ ih =>
    obtain ⟨l, _, t, rfl, hl, ⟨w, w', rfl, hw, hv, hw'⟩, ht⟩ := hbody.exists_cons
    have happend : l ++ (w ++ s ++ w') ++ t ++ ']' :: r =
        l ++ (w ++ s ++ (w' ++ t ++ ']' :: r)) := by
      simp
    have hnext := nextElement_append hl hw hv (w' ++ t ++ ']' :: r)
    have hread : readField f.kind (ofChars (s ++ (w' ++ t ++ ']' :: r))) =
        .ok (v, ofChars (w' ++ t ++ ']' :: r)) :=
      readField_append (w := []) (by simp [Blank]) hgives ((ht w' hw').apart .list r)
    have hrest : elementsFrom shape (index + 1) (ofChars (w' ++ t ++ ']' :: r)) fs =
        .ok (vs, ofChars r) := ih (ht w' hw')
    rw [happend]
    simp only [elementsFrom, hnext, hread, hrest]
  | @fallback f fs v vs hfallback _ ih =>
    have hnext := nextElement_end hbody.blank (decide (index = 0)) r
    have hrest : elementsFrom shape (index + 1) (ofChars (body ++ ']' :: r)) fs =
        .ok (vs, ofChars r) := ih (.of_blank hbody.blank _)
    simp only [elementsFrom, hnext, hfallback, hrest]

theorem filled_of_elementsFrom {shape : Shape} {fs : List Field} {index : Nat} {s : List Char}
    {vs : List FieldValue} {rest : List Symbol}
    (h : elementsFrom shape index (ofChars s) fs = .ok (vs, rest)) :
    ∃ body es r, s = body ++ ']' :: r ∧ rest = ofChars r ∧
      Remaining IsElement (decide (index = 0)) body es ∧ Filled fs es vs := by
  induction fs generalizing index s vs with
  | nil =>
    simp only [elementsFrom] at h
    split at h
    · cases h
    · rename_i hclose
      cases h
      obtain ⟨w, r, rfl, rfl, hw⟩ := exists_of_closeList hclose
      exact ⟨w, [], r, rfl, rfl, .of_blank hw _, .nil⟩
  | cons f fs ih =>
    simp only [elementsFrom] at h
    split at h
    · cases h
    · rename_i hnext
      split at h
      · cases h
      · rename_i v hfallback
        split at h
        · cases h
        · rename_i vs' rest' hrest
          cases h
          obtain ⟨body, es, r, hs, rfl, hbody, hfilled⟩ := ih hrest
          obtain ⟨w, r', rfl, hw⟩ := exists_of_nextElement_none hnext
          obtain ⟨hblank, rfl⟩ := hbody.of_end .list hw hs
          exact ⟨body, [], r, hs, rfl, .of_blank hblank _, .fallback hfallback hfilled⟩
    · rename_i s₁ hnext
      split at h
      · cases h
      · rename_i v s₂ hread
        split at h
        · cases h
        · rename_i vs' rest' hrest
          cases h
          obtain ⟨l, w, t, rfl, rfl, hl, hw⟩ := exists_of_nextElement_some hnext
          obtain ⟨w₁, e, t, rfl, rfl, hw₁, hgives⟩ := gives_of_readField hread
          obtain ⟨body, es, r, rfl, rfl, hbody, hfilled⟩ := ih hrest
          refine ⟨l ++ (w ++ w₁ ++ e) ++ body, e :: es, r, by simp, rfl, ?_, .given hgives hfilled⟩
          exact hbody.cons hl fun w₂ hw₂ =>
            ⟨w ++ w₁, w₂, rfl, hw.append hw₁, hgives.isValue, hw₂⟩

/-! ## Documents -/

variable {shape : Shape}

theorem readRecord_eq_ok_iff (hshape : ∀ f ∈ shape.fields, shape.field? f.name.toList = some f)
    {s : List Char} {vs : List FieldValue} {rest : List Symbol} :
    readRecord shape (ofChars s) = .ok (vs, rest) ↔
      ∃ w d r, s = w ++ d ++ r ∧ rest = ofChars r ∧ Blank w ∧ shape.Holds vs d := by
  constructor
  · intro h
    unfold readRecord at h
    split at h
    · rename_i hskip
      obtain ⟨w, t, rfl, hw, rfl⟩ := exists_of_skipSpace_cons hskip
      obtain ⟨body, es, r, rfl, rfl, hbody, hfilled⟩ := filled_of_elementsFrom h
      exact ⟨w, '[' :: body ++ [']'], r, by simp, rfl, hw,
        .inr ⟨es, ⟨body, rfl, remaining_true_iff.1 hbody⟩, hfilled⟩⟩
    · rename_i hskip
      obtain ⟨w, t, rfl, hw, rfl⟩ := exists_of_skipSpace_cons hskip
      obtain ⟨body, ms, r, rfl, rfl, hbody, hgiven⟩ := (readObject_eq_ok_iff hshape).1 h
      exact ⟨w, '{' :: body ++ ['}'], r, by simp, rfl, hw,
        .inl ⟨ms, ⟨body, rfl, remaining_true_iff.1 hbody⟩, hgiven⟩⟩
    · cases h
  · rintro ⟨w, d, r, rfl, rfl, hw,
      ⟨ms, ⟨body, rfl, hbody⟩, hgiven⟩ | ⟨es, ⟨body, rfl, hbody⟩, hfilled⟩⟩
    · have hskip : skipSpace (ofChars (w ++ ('{' :: body ++ ['}']) ++ r)) =
          .char '{' :: ofChars (body ++ '}' :: r) := by
        rw [List.append_assoc, skipSpace_append hw, ← List.append_cons]
        exact skipSpace_char rfl _
      have hread : readObject shape (ofChars (body ++ '}' :: r)) = .ok (vs, ofChars r) :=
        (readObject_eq_ok_iff hshape).2 ⟨body, ms, r, rfl, rfl, remaining_true_iff.2 hbody, hgiven⟩
      simp only [readRecord, hskip, hread]
    · have hskip : skipSpace (ofChars (w ++ ('[' :: body ++ [']']) ++ r)) =
          .char '[' :: ofChars (body ++ ']' :: r) := by
        rw [List.append_assoc, skipSpace_append hw, ← List.append_cons]
        exact skipSpace_char rfl _
      have hremaining : Remaining IsElement (decide (0 = 0)) body es := remaining_true_iff.2 hbody
      have hread : elementsFrom shape 0 (ofChars (body ++ ']' :: r)) shape.fields =
          .ok (vs, ofChars r) := elementsFrom_of_filled hfilled hremaining r
      simp only [readRecord, hskip, hread]

theorem finish_eq_ok_iff {α : Type} {text : List Symbol} {read : Except Stop (α × List Symbol)}
    {a : α} : finish text read = .ok a ↔ ∃ rest, read = .ok (a, rest) ∧ skipSpace rest = [] := by
  unfold finish
  split
  · simp
  · split <;> simp_all

theorem skipSpace_eq_nil_iff {s : List Char} : skipSpace (ofChars s) = [] ↔ Blank s := by
  constructor
  · intro h
    obtain ⟨w, t, rfl, hw, ht⟩ := exists_of_skipSpace_eq h
    obtain rfl : t = [] := List.map_eq_nil_iff.1 ht.symm
    rwa [List.append_nil]
  · intro h
    have hskip := skipSpace_append h []
    rwa [List.append_nil] at hskip

/-- A text is read as a record if and only if it is an object or a list of its shape. -/
theorem decodeRecord_eq_ok_iff (hshape : ∀ f ∈ shape.fields, shape.field? f.name.toList = some f)
    {s : List Char} {vs : List FieldValue} :
    decodeRecord shape (ofChars s) = .ok vs ↔ Document (shape.Holds vs) s := by
  rw [decodeRecord, finish_eq_ok_iff]
  constructor
  · rintro ⟨rest, hread, hrest⟩
    obtain ⟨w, d, r, rfl, rfl, hw, hd⟩ := (readRecord_eq_ok_iff hshape).1 hread
    exact ⟨w, d, r, rfl, hw, hd, skipSpace_eq_nil_iff.1 hrest⟩
  · rintro ⟨w, d, r, rfl, hw, hd, hr⟩
    exact ⟨ofChars r, (readRecord_eq_ok_iff hshape).2 ⟨w, d, r, rfl, rfl, hw, hd⟩,
      skipSpace_eq_nil_iff.2 hr⟩

end Roster.Json
