import Mathlib.Data.List.Forall2
import Roster.Proofs.Json.Fields

/-!
What is read of an object is what the grammar finds in its members: each field of the shape has what
it is given under its name, or what it has by default, and members of other names are passed over.
-/

namespace Roster.Json

open Text (Symbol ofChars)

variable {shape : Shape} {found found' : List (String × FieldValue)} {first : Bool}

def Field.Given (f : Field) (texts : List (List Char)) (v : FieldValue) : Prop :=
  Tells (Gives f.kind) f.fallback texts v

/-! ## Members -/

/-- What is found in the members of an object, given what was found before. -/
inductive Gathers (shape : Shape) :
    List (String × FieldValue) → List (List Char × List Char) → List (String × FieldValue) → Prop
  | nil {found : List (String × FieldValue)} : Gathers shape found [] found
  | skip {found found' : List (String × FieldValue)} {m : List Char × List Char}
    {ms : List (List Char × List Char)} : shape.field? m.1 = none →
      Gathers shape found ms found' → Gathers shape found (m :: ms) found'
  | take {found found' : List (String × FieldValue)} {m : List Char × List Char}
    {ms : List (List Char × List Char)} {f : Field} {v : FieldValue} :
    shape.field? m.1 = some f → found.lookup f.name = none → Gives f.kind m.2 v →
      Gathers shape ((f.name, v) :: found) ms found' → Gathers shape found (m :: ms) found'

theorem nextKey_append {l w : List Char} (hl : Ahead first l) (hw : Blank w) (s : List Char) :
    nextKey first (ofChars (l ++ w ++ '"' :: s)) = .ok (some (ofChars s)) := by
  have hskip : skipSpace (ofChars (w ++ '"' :: s)) = .char '"' :: ofChars s :=
    (skipSpace_append hw _).trans (skipSpace_char rfl s)
  cases first with
  | true =>
    obtain rfl : l = [] := hl
    rw [List.nil_append, nextKey, hskip]
    rfl
  | false =>
    obtain ⟨w', rfl, hw'⟩ := hl
    have hcomma : skipSpace (ofChars (w' ++ [','] ++ w ++ '"' :: s)) =
        .char ',' :: ofChars (w ++ '"' :: s) := by
      rw [List.append_assoc, List.append_assoc, skipSpace_append hw', ← List.append_assoc,
        List.append_assoc]
      exact skipSpace_char rfl _
    rw [nextKey, hcomma]
    simp [hskip]

theorem nextKey_end {w : List Char} (hw : Blank w) (r : List Char) :
    nextKey first (ofChars (w ++ '}' :: r)) = .ok none := by
  rw [nextKey, skipSpace_append hw]
  rfl

theorem behindBrace_append {w : List Char} (hw : Blank w) (r : List Char) :
    behindBrace (ofChars (w ++ '}' :: r)) = ofChars r := by
  rw [behindBrace, skipSpace_append hw]
  rfl

theorem exists_of_nextKey_some {s : List Char} {rest : List Symbol}
    (h : nextKey first (ofChars s) = .ok (some rest)) :
    ∃ l w t, s = l ++ w ++ '"' :: t ∧ rest = ofChars t ∧ Ahead first l ∧ Blank w := by
  obtain ⟨w, t, rfl, hw, hskip, -⟩ := exists_of_skipSpace s
  unfold nextKey at h
  rw [hskip] at h
  cases t with
  | nil => cases h
  | cons c t =>
    simp only [ofChars, List.map_cons] at h
    split at h
    · cases h
    · cases h
    · rename_i x rest' _ hx
      cases hx
      cases first with
      | true =>
        simp only [if_true] at h
        split at h
        · rename_i hc
          cases hc
          cases h
          exact ⟨[], w, t, rfl, rfl, rfl, hw⟩
        · cases h
      | false =>
        simp only [Bool.false_eq_true, if_false] at h
        split at h
        · rename_i hc
          cases hc
          split at h
          · cases h
          · rename_i rest'' hskip'
            cases h
            obtain ⟨w', t, rfl, hw', rfl⟩ := exists_of_skipSpace_cons hskip'
            exact ⟨w ++ [','], w', t, by simp, rfl, ⟨w, rfl, hw⟩, hw'⟩
          · cases h
          · cases h
        · cases h

theorem exists_of_nextKey_none {s : List Char} (h : nextKey first (ofChars s) = .ok none) :
    ∃ w r, s = w ++ '}' :: r ∧ Blank w := by
  unfold nextKey at h
  split at h
  · cases h
  · rename_i hskip
    obtain ⟨w, r, rfl, hw, -⟩ := exists_of_skipSpace_cons hskip
    exact ⟨w, r, rfl, hw⟩
  · repeat' split at h
    all_goals cases h

theorem membersFrom_eq (shape : Shape) (first : Bool) (found : List (String × FieldValue))
    (s : List Symbol) :
    membersFrom shape first found s =
      match nextKey first s with
      | .error stop => .error stop
      | .ok none => .ok (found, behindBrace s)
      | .ok (some s₁) => (readText s₁).bind fun (key, s₂) =>
        match shape.field? key with
        | none => (readColon s₂).bind fun s₃ => (skipValue s₃).bind (membersFrom shape false found)
        | some f =>
          if (found.lookup f.name).isSome then
            .error (Stop.before (.duplicateField f.name) (behindBrace s₂))
          else (readColon s₂).bind fun s₃ => (readField f.kind s₃).bind fun (v, s₄) =>
            membersFrom shape false ((f.name, v) :: found) s₄ := by
  rw [membersFrom]
  split
  · rename_i h
    rw [h]
  · rename_i h
    rw [h]
  · rename_i s₁ h
    simp only [h]
    cases readText s₁ with
    | error stop => rfl
    | ok read =>
      obtain ⟨key, s₂⟩ := read
      simp only [Except.bind]
      cases shape.field? key with
      | none =>
        simp only
        cases readColon s₂ with
        | error stop => rfl
        | ok s₃ =>
          simp only
          cases skipValue s₃ <;> rfl
      | some f =>
        simp only
        cases readColon s₂ with
        | error stop => rfl
        | ok s₃ =>
          simp only
          cases readField f.kind s₃ <;> rfl

/-- A member up to the text of its value. -/
theorem membersFrom_append {l w k w' key : List Char} (hl : Ahead first l) (hw : Blank w)
    (hk : IsText k key) (hw' : Blank w') (s : List Char) :
    membersFrom shape first found (ofChars (l ++ (w ++ k ++ w' ++ [':']) ++ s)) =
      match shape.field? key with
      | none => (skipValue (ofChars s)).bind (membersFrom shape false found)
      | some f =>
        if (found.lookup f.name).isSome then
          .error (Stop.before (.duplicateField f.name) (behindBrace (ofChars (w' ++ ':' :: s))))
        else (readField f.kind (ofChars s)).bind fun (v, rest) =>
          membersFrom shape false ((f.name, v) :: found) rest := by
  obtain ⟨body, rfl, hbody⟩ := hk
  have hnext := nextKey_append hl hw (body ++ ['"'] ++ (w' ++ ':' :: s))
  have happend : l ++ w ++ '"' :: (body ++ ['"'] ++ (w' ++ ':' :: s)) =
      l ++ (w ++ ('"' :: body ++ ['"']) ++ w' ++ [':']) ++ s := by
    simp
  have htext : readText (ofChars (body ++ ['"'] ++ (w' ++ ':' :: s))) =
      .ok (key, ofChars (w' ++ ':' :: s)) := by
    have hread := readText_append hbody (ofChars (w' ++ ':' :: s))
    simpa [ofChars] using hread
  rw [happend] at hnext
  rw [membersFrom_eq, hnext]
  simp only [htext, Except.bind, readColon_append hw']

/-- Whatever is gathered from members is found where they are read. -/
theorem membersFrom_of_gathers {ms : List (List Char × List Char)}
    (h : Gathers shape found ms found') {body : List Char}
    (hbody : Remaining IsMember first body ms) (r : List Char) :
    membersFrom shape first found (ofChars (body ++ '}' :: r)) = .ok (found', ofChars r) := by
  induction h generalizing first body with
  | nil =>
    rw [membersFrom_eq, nextKey_end hbody.blank]
    simp only [behindBrace_append hbody.blank]
  | @skip found found' m ms hnone _ ih =>
    obtain ⟨l, p, t, rfl, hl, ⟨w, k, w', _, rfl, hw, hk, hw', w₁, w₂, rfl, hw₁, hv, hw₂⟩, ht⟩ :=
      hbody.exists_cons
    have happend : l ++ (w ++ k ++ w' ++ ':' :: (w₁ ++ m.2 ++ w₂)) ++ t ++ '}' :: r =
        l ++ (w ++ k ++ w' ++ [':']) ++ (w₁ ++ m.2 ++ (w₂ ++ t ++ '}' :: r)) := by
      simp
    have hskip : skipValue (ofChars (w₁ ++ m.2 ++ (w₂ ++ t ++ '}' :: r))) =
        .ok (ofChars (w₂ ++ t ++ '}' :: r)) :=
      skipValue_append hw₁ hv ((ht w₂ hw₂).apart .object r)
    rw [happend, membersFrom_append hl hw hk hw', hnone]
    simp only [hskip]
    exact ih (ht w₂ hw₂)
  | @take found found' m ms f v hfield hnew hgives _ ih =>
    obtain ⟨l, p, t, rfl, hl, ⟨w, k, w', _, rfl, hw, hk, hw', w₁, w₂, rfl, hw₁, -, hw₂⟩, ht⟩ :=
      hbody.exists_cons
    have happend : l ++ (w ++ k ++ w' ++ ':' :: (w₁ ++ m.2 ++ w₂)) ++ t ++ '}' :: r =
        l ++ (w ++ k ++ w' ++ [':']) ++ (w₁ ++ m.2 ++ (w₂ ++ t ++ '}' :: r)) := by
      simp
    have hread : readField f.kind (ofChars (w₁ ++ m.2 ++ (w₂ ++ t ++ '}' :: r))) =
        .ok (v, ofChars (w₂ ++ t ++ '}' :: r)) :=
      readField_append hw₁ hgives ((ht w₂ hw₂).apart .object r)
    rw [happend, membersFrom_append hl hw hk hw', hfield]
    simp only [hnew, Option.isSome_none, Bool.false_eq_true, if_false, hread]
    exact ih (ht w₂ hw₂)

theorem exists_of_key {s key : List Char} {s₁ s₂ s₃ : List Symbol}
    (hnext : nextKey first (ofChars s) = .ok (some s₁)) (htext : readText s₁ = .ok (key, s₂))
    (hcolon : readColon s₂ = .ok s₃) :
    ∃ l w k w' t, s = l ++ (w ++ k ++ w' ++ [':']) ++ t ∧ s₃ = ofChars t ∧ Ahead first l ∧
      Blank w ∧ IsText k key ∧ Blank w' := by
  obtain ⟨l, w, t, rfl, rfl, hl, hw⟩ := exists_of_nextKey_some hnext
  obtain ⟨body, t, rfl, rfl, hbody⟩ := spells_of_readText htext
  obtain ⟨w', t, rfl, rfl, hw'⟩ := exists_of_readColon hcolon
  exact ⟨l, w, '"' :: body ++ ['"'], w', t, by simp, rfl, hl, hw, ⟨body, rfl, hbody⟩, hw'⟩

theorem Remaining.member {l w k w' w₁ v t key : List Char} {ms : List (List Char × List Char)}
    (hl : Ahead first l) (hw : Blank w) (hk : IsText k key) (hw' : Blank w') (hw₁ : Blank w₁)
    (hv : IsValue v) (ht : Remaining IsMember false t ms) :
    Remaining IsMember first (l ++ (w ++ k ++ w' ++ [':'] ++ (w₁ ++ v)) ++ t) ((key, v) :: ms) := by
  refine ht.cons hl fun w₂ hw₂ => ?_
  exact ⟨w, k, w', w₁ ++ v ++ w₂, by simp, hw, hk, hw', w₁, w₂, rfl, hw₁, hv, hw₂⟩

theorem gathers_of_membersFrom {s : List Char} {rest : List Symbol}
    (h : membersFrom shape first found (ofChars s) = .ok (found', rest)) :
    ∃ body ms r, s = body ++ '}' :: r ∧ rest = ofChars r ∧ Remaining IsMember first body ms ∧
      Gathers shape found ms found' := by
  generalize hx : ofChars s = x at h
  -- by members, of which only those that are passed over and those that are taken go on
  fun_induction membersFrom shape first found x generalizing s with
  | case1 => cases h
  | case2 first found x hnext =>
    subst hx
    obtain ⟨w, r, rfl, hw⟩ := exists_of_nextKey_none hnext
    rw [behindBrace_append hw] at h
    cases h
    exact ⟨w, [], r, rfl, rfl, .of_blank hw first, .nil⟩
  | case3 => cases h
  | case4 => cases h
  | case5 => cases h
  | case6 first found x s₁ hnext key s₂ htext hfield s₃ hcolon s₄ hvalue ih =>
    subst hx
    obtain ⟨l, w, k, w', t, rfl, rfl, hl, hw, hk, hw'⟩ := exists_of_key hnext htext hcolon
    obtain ⟨w₁, v, t, rfl, rfl, hw₁, hv⟩ := isValue_of_skipValue hvalue
    obtain ⟨body, ms, r, rfl, hrest, hbody, hgathers⟩ := ih rfl h
    exact ⟨_, (key, v) :: ms, r, by simp, hrest, hbody.member hl hw hk hw' hw₁ hv,
      .skip hfield hgathers⟩
  | case7 => cases h
  | case8 => cases h
  | case9 => cases h
  | case10 first found x s₁ hnext key s₂ htext f hfield hnew s₃ hcolon v s₄ hread ih =>
    subst hx
    obtain ⟨l, w, k, w', t, rfl, rfl, hl, hw, hk, hw'⟩ := exists_of_key hnext htext hcolon
    obtain ⟨w₁, e, t, rfl, rfl, hw₁, hgives⟩ := gives_of_readField hread
    obtain ⟨body, ms, r, rfl, hrest, hbody, hgathers⟩ := ih rfl h
    exact ⟨_, (key, e) :: ms, r, by simp, hrest, hbody.member hl hw hk hw' hw₁ hgives.isValue,
      .take hfield (Option.not_isSome_iff_eq_none.1 hnew) hgives hgathers⟩

/-! ## What is gathered for each field -/

/-- What is found of a field before and after texts were given for it. -/
inductive Taken (kind : Kind) :
    Option FieldValue → List (List Char) → Option FieldValue → Prop
  | none {v : Option FieldValue} : Taken kind v [] v
  | one {s : List Char} {v : FieldValue} : Gives kind s v → Taken kind none [s] (some v)

theorem mem_of_field? {key : List Char} {f : Field} (h : shape.field? key = some f) :
    f ∈ shape.fields ∧ key = f.name.toList := by
  refine ⟨List.mem_of_find?_eq_some h, ?_⟩
  have hname := List.find?_some h
  exact (of_decide_eq_true hname).symm

theorem under_cons_of_ne {name : String} {m : List Char × List Char}
    {ms : List (List Char × List Char)} (h : m.1 ≠ name.toList) :
    under name (m :: ms) = under name ms := by
  rw [under, List.filter_cons_of_neg (by simpa using h)]
  rfl

theorem under_cons_of_eq {name : String} {m : List Char × List Char}
    {ms : List (List Char × List Char)} (h : m.1 = name.toList) :
    under name (m :: ms) = m.2 :: under name ms := by
  rw [under, List.filter_cons_of_pos (by simpa using h)]
  rfl

theorem taken_of_gathers {ms : List (List Char × List Char)} (h : Gathers shape found ms found')
    {f : Field} (hf : shape.field? f.name.toList = some f) :
    Taken f.kind (found.lookup f.name) (under f.name ms) (found'.lookup f.name) := by
  induction h with
  | nil => exact .none
  | @skip found found' m ms hnone _ ih =>
    rw [under_cons_of_ne]
    · exact ih
    · intro heq
      rw [heq, hf] at hnone
      cases hnone
  | @take found found' m ms g v hg hnew hgives _ ih =>
    by_cases heq : m.1 = f.name.toList
    · rw [heq, hf] at hg
      cases hg
      rw [List.lookup_cons_self] at ih
      rw [under_cons_of_eq heq, hnew]
      generalize under f.name ms = texts at ih
      generalize found'.lookup f.name = new at ih
      cases ih
      exact .one hgives
    · have hname : (f.name == g.name) = false := by
        rw [beq_eq_false_iff_ne]
        intro hname
        exact heq ((mem_of_field? hg).2.trans (congrArg String.toList hname.symm))
      rw [List.lookup_cons, hname] at ih
      rw [under_cons_of_ne heq]
      exact ih

theorem exists_gathers {ms : List (List Char × List Char)}
    (h : ∀ f, shape.field? f.name.toList = some f →
      ∃ new, Taken f.kind (found.lookup f.name) (under f.name ms) new) :
    ∃ found', Gathers shape found ms found' := by
  induction ms generalizing found with
  | nil => exact ⟨found, .nil⟩
  | cons m ms ih =>
    cases hm : shape.field? m.1 with
    | none =>
      have hothers : ∀ f, shape.field? f.name.toList = some f →
          ∃ new, Taken f.kind (found.lookup f.name) (under f.name ms) new := by
        intro f hf
        obtain ⟨new, hnew⟩ := h f hf
        rw [under_cons_of_ne] at hnew
        · exact ⟨new, hnew⟩
        · intro heq
          rw [heq, hf] at hm
          cases hm
      obtain ⟨found', h'⟩ := ih hothers
      exact ⟨found', .skip hm h'⟩
    | some g =>
      have hkey := (mem_of_field? hm).2
      obtain ⟨new, hnew⟩ := h g (by rwa [← hkey])
      rw [under_cons_of_eq hkey] at hnew
      generalize hbefore : found.lookup g.name = before at hnew
      generalize hrest : under g.name ms = texts at hnew
      cases hnew with
      | @one _ v hgives =>
        have hothers : ∀ f, shape.field? f.name.toList = some f →
            ∃ new, Taken f.kind (((g.name, v) :: found).lookup f.name) (under f.name ms) new := by
          intro f hf
          by_cases hname : f.name = g.name
          · have hfg : f = g := by
              rw [hname, ← hkey, hm] at hf
              exact (Option.some.inj hf).symm
            rw [hfg, List.lookup_cons_self, hrest]
            exact ⟨some v, .none⟩
          · obtain ⟨new, hnew⟩ := h f hf
            have hother : m.1 ≠ f.name.toList := by
              intro heq
              exact hname (String.toList_inj.1 (heq.symm.trans hkey))
            rw [under_cons_of_ne hother] at hnew
            rw [List.lookup_cons, beq_eq_false_iff_ne.2 hname]
            exact ⟨new, hnew⟩
        obtain ⟨found', h'⟩ := ih hothers
        exact ⟨found', .take hm hbefore hgives h'⟩

theorem complete_eq_ok_iff {fs : List Field} {vs : List FieldValue} :
    complete found fs = .ok vs ↔
      List.Forall₂ (fun f v => (found.lookup f.name).or f.fallback = some v) fs vs := by
  induction fs generalizing vs with
  | nil =>
    constructor
    · rintro ⟨⟩
      exact .nil
    · rintro ⟨⟩
      rfl
  | cons f fs ih =>
    constructor
    · intro h
      unfold complete at h
      split at h
      · cases h
      · rename_i v hvalue
        split at h
        · cases h
        · rename_i vs' hrest
          cases h
          exact .cons hvalue (ih.1 hrest)
    · intro h
      cases h with
      | cons hvalue hrest => simp only [complete, hvalue, ih.2 hrest]

/-- A field has what it is given, whatever was gathered on the way. -/
theorem given_iff {f : Field} {texts : List (List Char)} {new : Option FieldValue} {v : FieldValue}
    (h : Taken f.kind none texts new) : new.or f.fallback = some v ↔ f.Given texts v := by
  cases h with
  | none => simp [Field.Given, Tells]
  | @one s v' hgives =>
    simp only [Option.some_or, Option.some.injEq, Field.Given, Tells, List.cons.injEq, and_true,
      List.cons_ne_nil, false_and, or_false]
    constructor
    · rintro rfl
      exact ⟨s, rfl, hgives⟩
    · rintro ⟨_, rfl, hgives'⟩
      exact hgives.unique hgives'

theorem Field.Given.taken {f : Field} {texts : List (List Char)} {v : FieldValue}
    (h : f.Given texts v) : ∃ new, Taken f.kind none texts new := by
  obtain ⟨s, rfl, hgives⟩ | ⟨rfl, -⟩ := h
  · exact ⟨some v, .one hgives⟩
  · exact ⟨none, .none⟩

theorem exists_of_forall₂ {α β : Type} {R : α → β → Prop} {as : List α} {bs : List β}
    (h : List.Forall₂ R as bs) {a : α} (ha : a ∈ as) : ∃ b, R a b := by
  induction h with
  | nil => cases ha
  | cons hab _ ih =>
    obtain rfl | ha := List.mem_cons.1 ha
    · exact ⟨_, hab⟩
    · exact ih ha

theorem complete_of_gathers (hshape : ∀ f ∈ shape.fields, shape.field? f.name.toList = some f)
    {ms : List (List Char × List Char)} (h : Gathers shape [] ms found') {vs : List FieldValue} :
    complete found' shape.fields = .ok vs ↔
      List.Forall₂ (fun f v => f.Given (under f.name ms) v) shape.fields vs := by
  have hiff : ∀ f ∈ shape.fields, ∀ v, (found'.lookup f.name).or f.fallback = some v ↔
      f.Given (under f.name ms) v :=
    fun f hf v => given_iff (taken_of_gathers h (hshape f hf))
  rw [complete_eq_ok_iff]
  constructor
  · intro hall
    refine ((List.forall₂_and_left _ _).2 ⟨fun _ hf => hf, hall⟩).imp ?_
    exact fun f v hv => (hiff f hv.1 v).1 hv.2
  · intro hall
    refine ((List.forall₂_and_left _ _).2 ⟨fun _ hf => hf, hall⟩).imp ?_
    exact fun f v hv => (hiff f hv.1 v).2 hv.2

theorem readObject_eq_ok_iff (hshape : ∀ f ∈ shape.fields, shape.field? f.name.toList = some f)
    {s : List Char} {vs : List FieldValue} {rest : List Symbol} :
    readObject shape (ofChars s) = .ok (vs, rest) ↔
      ∃ body ms r, s = body ++ '}' :: r ∧ rest = ofChars r ∧ Remaining IsMember true body ms ∧
        List.Forall₂ (fun f v => f.Given (under f.name ms) v) shape.fields vs := by
  constructor
  · intro h
    unfold readObject at h
    split at h
    · cases h
    · rename_i found' rest' hmembers
      split at h
      · cases h
      · rename_i vs' hcomplete
        cases h
        obtain ⟨body, ms, r, rfl, rfl, hbody, hgathers⟩ := gathers_of_membersFrom hmembers
        exact ⟨body, ms, r, rfl, rfl, hbody, (complete_of_gathers hshape hgathers).1 hcomplete⟩
  · rintro ⟨body, ms, r, rfl, rfl, hbody, hgiven⟩
    obtain ⟨found', hgathers⟩ : ∃ found', Gathers shape [] ms found' := by
      refine exists_gathers fun f hf => ?_
      obtain ⟨v, hv⟩ := exists_of_forall₂ hgiven (mem_of_field? hf).1
      exact hv.taken
    simp only [readObject, membersFrom_of_gathers hgathers hbody,
      (complete_of_gathers hshape hgathers).2 hgiven]

end Roster.Json
