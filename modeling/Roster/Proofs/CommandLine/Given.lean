import Roster.Proofs.CommandLine.Acceptance
import Mathlib.Data.List.Perm.Basic
import Mathlib.Logic.Function.Basic

/-!
What is known of each argument. Settings and commands are made of the values of arguments and not of
the order in which they were given, so that the order makes no difference.
-/

namespace Roster.CommandLine

namespace Given

variable {given given' : Given} {a : Arg} {text : String} {items items' : List Item}

/-! ## The values of arguments -/

theorem has_eq (given : Given) (a : Arg) : given.has a = (given.value? a).isSome := by
  rw [has, value?, Option.isSome_map, Bool.eq_iff_iff, List.find?_isSome, List.any_eq_true]

theorem value?_eq_none_iff : given.value? a = none ↔ given.has a = false := by
  rw [has_eq]
  simp

/-- A value that is added is that of its argument, and no other changes. -/
theorem value?_append (h : given.has a = false) (x : Value) :
    value? (given ++ [(a, x)]) = Function.update given.value? a (some x) := by
  funext b
  by_cases hb : b = a
  · subst hb
    have hnone : given.find? (fun p => p.1 = b) = none := by
      simpa [value?] using value?_eq_none_iff.2 h
    simp [value?, List.find?_append, hnone]
  · simp [value?, List.find?_append, Ne.symm hb, Function.update_of_ne hb]

theorem value?_of_add (h : given.add a text = .ok given') :
    given.value? a = none ∧ ∃ x, a.form.read text = .ok x ∧
      given'.value? = Function.update given.value? a (some x) := by
  obtain ⟨hhas, x, hx, rfl⟩ := add_eq_ok_iff.1 h
  exact ⟨value?_eq_none_iff.2 hhas, x, hx, value?_append hhas x⟩

/-- What becomes of the values depends on the values. -/
theorem map_value?_add_congr (h : given'.value? = given.value?) (a : Arg) (text : String) :
    (given'.add a text).map value? = (given.add a text).map value? := by
  have hhas : given'.has a = given.has a := by rw [has_eq, has_eq, h]
  unfold add
  rw [hhas]
  cases hgiven : given.has a with
  | true => rfl
  | false =>
    cases a.form.read text with
    | error fault => rfl
    | ok x =>
      have hgiven' := hhas.trans hgiven
      simp only [Bool.false_eq_true, if_false, Except.map, value?_append hgiven,
        value?_append hgiven', h]

/-! ## Several arguments -/

/-- What is known after one more argument, if it can be read and nothing was known of it. -/
def learn (known : Option (Arg → Option Value)) (item : Item) : Option (Arg → Option Value) :=
  known.bind fun values =>
    if values item.1 = none then
      (item.1.form.read item.2).toOption.map fun x => Function.update values item.1 (some x)
    else none

theorem foldl_learn_none (items : List Item) : items.foldl learn none = none := by
  induction items with
  | nil => rfl
  | cons item items ih => exact ih

theorem learn_right_comm (known : Option (Arg → Option Value)) (item item' : Item) :
    learn (learn known item) item' = learn (learn known item') item := by
  obtain ⟨a, text⟩ := item
  obtain ⟨b, text'⟩ := item'
  cases known with
  | none => rfl
  | some values =>
    by_cases hab : a = b
    · subst hab
      simp only [learn, Option.bind_some]
      split
      · cases (a.form.read text).toOption <;> cases (a.form.read text').toOption <;> simp
      · rfl
    · have hba : b ≠ a := Ne.symm hab
      simp only [learn, Option.bind_some]
      by_cases ha : values a = none <;> by_cases hb : values b = none <;>
        cases (a.form.read text).toOption <;> cases (b.form.read text').toOption <;>
          simp [ha, hb, hab, hba, Function.update_comm hab]

theorem map_value?_add (given : Given) (a : Arg) (text : String) :
    (given.add a text).toOption.map value? = learn (some given.value?) (a, text) := by
  unfold add
  simp only [learn, Option.bind_some, value?_eq_none_iff]
  cases hhas : given.has a with
  | true => rfl
  | false =>
    cases a.form.read text with
    | error fault => rfl
    | ok x => simp [Except.toOption, value?_append hhas]

theorem map_value?_addAll? (given : Given) (items : List Item) :
    (given.addAll? items).map value? = items.foldl learn (some given.value?) := by
  induction items generalizing given with
  | nil => rfl
  | cons item items ih =>
    obtain ⟨a, text⟩ := item
    rw [addAll?_cons, List.foldl_cons, ← map_value?_add]
    cases given.add a text with
    | error e => exact (foldl_learn_none items).symm
    | ok given' => exact ih given'

/-- The order of arguments makes no difference to what is known. -/
theorem map_value?_addAll?_perm (given : Given) (h : items'.Perm items) :
    (given.addAll? items').map value? = (given.addAll? items).map value? := by
  rw [map_value?_addAll?, map_value?_addAll?]
  exact h.foldl_eq' (fun item _ item' _ known => learn_right_comm known item item') _

/-- What is known after arguments have been added. -/
theorem value?_of_addAll? (h : given.addAll? items = some given') :
    (∀ a text, (a, text) ∈ items →
      given.value? a = none ∧ ∃ x, a.form.read text = .ok x ∧ given'.value? a = some x) ∧
    ∀ a, (∀ text, (a, text) ∉ items) → given'.value? a = given.value? a := by
  induction items generalizing given with
  | nil =>
    cases h
    exact ⟨by simp, fun a _ => rfl⟩
  | cons item items ih =>
    obtain ⟨b, text'⟩ := item
    obtain ⟨next, hnext, hrest⟩ := Option.bind_eq_some_iff.1 h
    obtain ⟨hb, x, hx, hvalues⟩ := value?_of_add (eq_ok_of_toOption hnext)
    obtain ⟨hread, hold⟩ := ih hrest
    -- the first argument is known from now on and so cannot come again
    have hfirst : ∀ text, (b, text) ∉ items := by
      intro text hmem
      have hnone := (hread b text hmem).1
      rw [hvalues, Function.update_self] at hnone
      cases hnone
    refine ⟨?_, ?_⟩
    · intro a text hmem
      obtain ⟨⟨⟩⟩ | hmem := List.mem_cons.1 hmem
      · refine ⟨hb, x, hx, ?_⟩
        rw [hold b hfirst, hvalues, Function.update_self]
      · obtain ⟨hnone, hknown⟩ := hread a text hmem
        have hab : a ≠ b := by
          intro heq
          exact hfirst text (heq ▸ hmem)
        rw [hvalues, Function.update_of_ne hab] at hnone
        exact ⟨hnone, hknown⟩
    · intro a hmem
      have hab : a ≠ b := by
        rintro rfl
        exact hmem text' (List.mem_cons_self ..)
      have ha := hold a fun text htext => hmem text (List.mem_cons_of_mem _ htext)
      rw [ha, hvalues, Function.update_of_ne hab]

end Given

/-! ## Variables of the environment -/

variable {env env' : Environment} {given given' : Given} {a : Arg} {as : List Arg}

theorem addVariables_cons_of_none {b : Arg}
    (h : (if given.has b then none else b.fallback?.bind env) = none) :
    addVariables env given (b :: as) = addVariables env given as := by
  rw [addVariables, h]

theorem addVariables_cons_of_some {b : Arg} {text : String}
    (h : (if given.has b then none else b.fallback?.bind env) = some text) :
    addVariables env given (b :: as) =
      (given.add b text).bind fun given => addVariables env given as := by
  rw [addVariables, h]
  dsimp only
  cases given.add b text <;> rfl

theorem cases_of_map_eq {ε α β : Type} {f : α → β} {x y : Except ε α} (h : x.map f = y.map f) :
    (∃ e, x = .error e ∧ y = .error e) ∨ ∃ u v, x = .ok u ∧ y = .ok v ∧ f u = f v := by
  cases x with
  | error e =>
    cases y with
    | error e' => exact .inl ⟨e, rfl, congrArg Except.error (Except.error.inj h).symm⟩
    | ok v => cases h
  | ok u =>
    cases y with
    | error e' => cases h
    | ok v => exact .inr ⟨u, v, rfl, rfl, Except.ok.inj h⟩

/-- The variable of an argument that is known is not looked at. -/
theorem map_value?_addVariables_congr (hgiven : given'.value? = given.value?)
    (henv : ∀ a ∈ as, given.value? a = none → a.fallback?.bind env' = a.fallback?.bind env) :
    (addVariables env' given' as).map Given.value? =
      (addVariables env given as).map Given.value? := by
  induction as generalizing given given' with
  | nil => exact congrArg Except.ok hgiven
  | cons b as ih =>
    have hhas : given'.has b = given.has b := by rw [Given.has_eq, Given.has_eq, hgiven]
    have hrest : ∀ a ∈ as, given.value? a = none → a.fallback?.bind env' = a.fallback?.bind env :=
      fun a ha => henv a (List.mem_cons_of_mem _ ha)
    have htext : (if given'.has b then none else b.fallback?.bind env') =
        if given.has b then none else b.fallback?.bind env := by
      rw [hhas]
      cases hb : given.has b with
      | true => rfl
      | false => exact henv b (List.mem_cons_self ..) (Given.value?_eq_none_iff.2 hb)
    cases hb : (if given.has b then none else b.fallback?.bind env) with
    | none =>
      rw [addVariables_cons_of_none hb, addVariables_cons_of_none (htext.trans hb)]
      exact ih hgiven hrest
    | some text =>
      rw [addVariables_cons_of_some hb, addVariables_cons_of_some (htext.trans hb)]
      obtain ⟨e, hnext', hnext⟩ | ⟨next', next, hnext', hnext, hvalues⟩ :=
        cases_of_map_eq (Given.map_value?_add_congr hgiven b text)
      · rw [hnext', hnext]
        rfl
      · rw [hnext', hnext]
        refine ih hvalues fun a ha hnone => hrest a ha ?_
        obtain ⟨hb, x, -, hupdate⟩ := Given.value?_of_add hnext
        by_cases hab : a = b
        · rwa [hab]
        · rwa [hupdate, Function.update_of_ne hab] at hnone

/-- What is known is not changed by variables. -/
theorem value?_of_addVariables_of_known (h : addVariables env given as = .ok given')
    (ha : given.value? a ≠ none ∨ a ∉ as) : given'.value? a = given.value? a := by
  induction as generalizing given with
  | nil =>
    cases h
    rfl
  | cons b as ih =>
    have ha' : given.value? a ≠ none ∨ a ∉ as := ha.imp_right fun h hmem =>
      h (List.mem_cons_of_mem _ hmem)
    cases hb : (if given.has b then none else b.fallback?.bind env) with
    | none =>
      rw [addVariables_cons_of_none hb] at h
      exact ih h ha'
    | some text =>
      rw [addVariables_cons_of_some hb] at h
      cases hnext : given.add b text with
      | error e =>
        rw [hnext] at h
        cases h
      | ok next =>
        rw [hnext] at h
        obtain ⟨hnone, x, -, hupdate⟩ := Given.value?_of_add hnext
        have hab : a ≠ b := by
          rintro rfl
          obtain hknown | hmem := ha
          · exact hknown hnone
          · exact hmem (List.mem_cons_self ..)
        have hsame : next.value? a = given.value? a := by
          rw [hupdate, Function.update_of_ne hab]
        rw [← hsame] at ha' ⊢
        exact ih h ha'

/-- What was not known is what its variable says. -/
theorem value?_of_addVariables_of_unknown (h : addVariables env given as = .ok given')
    (hnone : given.value? a = none) (ha : a ∈ as) :
    match a.fallback?.bind env with
    | some text => ∃ x, a.form.read text = .ok x ∧ given'.value? a = some x
    | none => given'.value? a = none := by
  induction as generalizing given with
  | nil => cases ha
  | cons b as ih =>
    have htail : a ≠ b → a ∈ as := fun hab => (List.mem_cons.1 ha).resolve_left hab
    have hhas := Given.value?_eq_none_iff.1 hnone
    cases hb : (if given.has b then none else b.fallback?.bind env) with
    | none =>
      rw [addVariables_cons_of_none hb] at h
      by_cases hmem : a ∈ as
      · exact ih h hnone hmem
      · obtain rfl : a = b := Decidable.byContradiction fun hab => hmem (htail hab)
        rw [hhas] at hb
        have hvariable : a.fallback?.bind env = none := hb
        rw [hvariable]
        exact (value?_of_addVariables_of_known h (.inr hmem)).trans hnone
    | some text =>
      rw [addVariables_cons_of_some hb] at h
      cases hnext : given.add b text with
      | error e =>
        rw [hnext] at h
        cases h
      | ok next =>
        rw [hnext] at h
        obtain ⟨-, x, hx, hupdate⟩ := Given.value?_of_add hnext
        by_cases hab : a = b
        · subst hab
          rw [hhas] at hb
          have hvariable : a.fallback?.bind env = some text := hb
          have hknown : next.value? a = some x := by rw [hupdate, Function.update_self]
          rw [hvariable]
          refine ⟨x, hx, ?_⟩
          rw [value?_of_addVariables_of_known h (.inl (by simp [hknown])), hknown]
        · refine ih h ?_ (htail hab)
          rwa [hupdate, Function.update_of_ne hab]

/-! ## Settings and commands -/

theorem settingsOf_congr (h : given'.value? = given.value?) :
    settingsOf given' = settingsOf given := by
  simp only [settingsOf, Given.textOf, Given.numberOf, h]

theorem commandOf_congr (h : given'.value? = given.value?) (v : Verb) :
    commandOf given' v = commandOf given v := by
  cases v <;> simp only [commandOf, wordOf, Given.textOf, Given.numberOf, h]

end Roster.CommandLine
