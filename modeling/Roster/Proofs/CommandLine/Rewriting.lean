import Roster.Proofs.CommandLine.Given

/-!
Command lines that are written otherwise. Options and arguments may change places, and a value may
be attached to its option: what the words come to is the same in every environment.
-/

namespace Roster.CommandLine

variable {words words' : List String} {a : Arg} {value : String}

/-! ## Arguments in another order -/

/-- The lines have the same command and the same arguments. -/
structure Line.Reorders (line line' : Line) : Prop where
  options : line'.options.Perm line.options
  verb : line'.verb = line.verb
  arguments : line'.arguments.Perm line.arguments

theorem exists_addAll?_of_perm {items items' : List Item} (h : items'.Perm items) {given : Given}
    (hgiven : Given.addAll? [] items = some given) :
    ∃ given', Given.addAll? [] items' = some given' ∧ given'.value? = given.value? := by
  have hmap := Given.map_value?_addAll?_perm [] h
  rw [hgiven, Option.map_some] at hmap
  exact Option.map_eq_some_iff.1 hmap

theorem Line.Reorders.exists_outcome {line line' : Line} (h : line.Reorders line')
    {r : Given × Command} (hr : line.outcome = some r) :
    ∃ r', line'.outcome = some r' ∧ r'.1.value? = r.1.value? ∧ r'.2 = r.2 := by
  obtain ⟨given, hgiven, hrest⟩ := Option.bind_eq_some_iff.1 hr
  obtain ⟨own, hown, hrest⟩ := Option.bind_eq_some_iff.1 hrest
  obtain ⟨given', hgiven', hvalues⟩ := exists_addAll?_of_perm h.options hgiven
  obtain ⟨own', hown', hvalues'⟩ := exists_addAll?_of_perm h.arguments hown
  have hhas : ∀ a, own'.has a = own.has a := fun a => by
    rw [Given.has_eq, Given.has_eq, hvalues']
  have hcommand := commandOf_congr hvalues' line.verb
  split at hrest
  · rename_i hrequired
    cases hrest
    refine ⟨(given', commandOf own' line.verb), ?_, hvalues, hcommand⟩
    have hrequired' : ∀ a ∈ line'.verb.required, own'.has a = true := by
      intro a ha
      rw [hhas]
      exact hrequired a (h.verb ▸ ha)
    rw [Line.outcome, hgiven', Option.bind_some, hown', Option.bind_some, if_pos hrequired', h.verb]
  · cases hrest

/-! ## Values that are attached -/

theorem label_injective {a b : Arg} (h : a.label = b.label) : a = b := by
  cases a <;> cases b <;> first | rfl | exact absurd h (by decide)

theorem label_ne_mark (a : Arg) : "--" ++ a.label ≠ "--" := by
  cases a <;> decide

theorem isPlain_label (a : Arg) : isPlain ("--" ++ a.label) = false := by
  cases a <;> decide

theorem eq_of_opens_label {level : Level} {b : Arg} (h : level.Opens b ("--" ++ a.label)) :
    b = a ∧ a ∈ level.options := by
  generalize hword : "--" ++ a.label = word at h
  cases h with
  | label hb =>
    have hlabel : a.label.toList = b.label.toList := by
      simpa using congrArg String.toList hword
    obtain rfl := label_injective (String.toList_inj.1 hlabel)
    exact ⟨rfl, hb⟩
  | letter hc =>
    obtain ⟨-, rfl, -⟩ := letterOption?_eq_some hc
    simpa using congrArg String.toList hword

theorem not_attaches_label {level : Level} {b : Arg} :
    ¬level.Attaches b value ("--" ++ a.label) := by
  intro h
  generalize hword : "--" ++ a.label = word at h
  cases h with
  | label hb =>
    have hmem : '=' ∈ a.label.toList := by
      have hlabel : a.label.toList = b.label.toList ++ '=' :: value.toList := by
        simpa using congrArg String.toList hword
      simp [hlabel]
    exact absurd (bne_equals_of_mem_label a _ hmem) (by decide)
  | letter hc =>
    obtain ⟨-, rfl, -⟩ := letterOption?_eq_some hc
    simpa using congrArg String.toList hword
  | joined hc _ _ =>
    obtain ⟨-, rfl, -⟩ := letterOption?_eq_some hc
    simpa using congrArg String.toList hword

namespace Level.Reads

variable {level : Level} {ρ : Type} {F : Scan → List String → Option ρ}

/-- After `--` there is no room for an option and a value. -/
theorem trailing_eq_none (h : level.Reads F) (given : Given) :
    F { given, trailing := true } (("--" ++ a.label) :: value :: words) = none := by
  rw [h.step _ (by simp [isPlain_label]), Scan.step_of_trailing rfl, Scan.place]
  cases hplaced : level.placed? with
  | none => rfl
  | some b =>
    dsimp only
    split
    · rfl
    · have hbegun : Scan.begin { given, trailing := true } b (some ("--" ++ a.label)) =
          .ok { given, last := some (b, some ("--" ++ a.label)), trailing := true } := rfl
      rw [hbegun]
      have hsecond : F { given, last := some (b, some ("--" ++ a.label)), trailing := true }
          (value :: words) = _ :=
        h.step words fun htop => absurd htop (ne_top_of_placed? hplaced)
      refine hsecond.trans ?_
      rw [Scan.step_of_trailing rfl, Scan.place, hplaced]
      simp [Scan.hasBegun, Except.toOption]

/-- An option that is accepted belongs to the level. -/
theorem mem_options_of_label (h : level.Reads F) {given : Given} {r : ρ}
    (hr : F { given } (("--" ++ a.label) :: value :: words) = some r) : a ∈ level.options := by
  obtain hstops | ⟨item, word, rest, given', hwords, -, hword, -⟩ := h.stops_or_writes hr
  · generalize hlabel : "--" ++ a.label = first at hstops
    cases hstops with
    | mark _ => exact absurd hlabel (label_ne_mark a)
    | name _ _ hplain =>
      rw [← hlabel, isPlain_label] at hplain
      cases hplain
  · cases hword with
    | attached hattaches =>
      rw [List.singleton_append] at hwords
      obtain ⟨rfl, -⟩ := List.cons.inj hwords
      exact absurd hattaches not_attaches_label
    | apart hopens _ =>
      obtain ⟨rfl, -⟩ := List.cons.inj hwords
      exact (eq_of_opens_label hopens).2
    | placed _ hplain =>
      rw [List.singleton_append] at hwords
      obtain ⟨rfl, -⟩ := List.cons.inj hwords
      rw [isPlain_label] at hplain
      cases hplain

/-- The value of an option may be attached to it where it is next. -/
theorem attach (h : level.Reads F) (hvalue : isPlain value = true) {s : Scan} {r : ρ}
    (hr : F s (("--" ++ a.label) :: value :: words) = some r) :
    F s (("--" ++ a.label ++ "=" ++ value) :: words) = some r := by
  rw [h.settle] at hr ⊢
  obtain ⟨s', hs', hr⟩ := Option.bind_eq_some_iff.1 hr
  rw [hs', Option.bind_some]
  cases hawaits : s.awaitsValue with
  | true =>
    rw [Scan.settle?_of_awaits hawaits] at hs'
    cases hs'
    obtain ⟨given, last, trailing⟩ := s
    unfold Scan.awaitsValue at hawaits
    split at hawaits
    · rename_i htrailing hlast
      cases htrailing
      cases hlast
      have hplain := h.isPlain_of_awaits hr
      rw [isPlain_label] at hplain
      cases hplain
    · cases hawaits
  | false =>
    cases hs : s.settled with
    | error e =>
      rw [Scan.settle?_of_error hawaits hs] at hs'
      cases hs'
    | ok given =>
      rw [Scan.settle?_of_ok hawaits hs] at hs'
      cases hs'
      cases htrailing : s.trailing with
      | true =>
        rw [htrailing, h.trailing_eq_none] at hr
        cases hr
      | false =>
        rw [htrailing] at hr
        have ha := h.mem_options_of_label hr
        have happart := h.writes (.apart (.label ha) hvalue) given words
        have hword : level.Attaches a value _ := .label ha
        have hattached := h.writes (.attached hword) given words
        exact hattached.trans (happart.symm.trans hr)

end Level.Reads

theorem outcome_attach {v : Verb} (hvalue : isPlain value = true) (before : List String) {s : Scan}
    {given : Given}
    (h : Scan.outcome (.verb v) s (before ++ ("--" ++ a.label) :: value :: words) = some given) :
    Scan.outcome (.verb v) s (before ++ ("--" ++ a.label ++ "=" ++ value) :: words) =
      some given := by
  induction before generalizing s with
  | nil => exact (Scan.reads_outcome v).attach hvalue h
  | cons word before ih =>
    rw [List.cons_append, Scan.outcome_cons] at h ⊢
    obtain ⟨s', hs', h⟩ := Option.bind_eq_some_iff.1 h
    rw [hs', Option.bind_some]
    exact ih h

/-- The value of an option may be attached to it wherever it is. -/
theorem outcomeTop_attach (hvalue : isPlain value = true) (before : List String) {s : Scan}
    {r : Given × Command}
    (h : outcomeTop s (before ++ ("--" ++ a.label) :: value :: words) = some r) :
    outcomeTop s (before ++ ("--" ++ a.label ++ "=" ++ value) :: words) = some r := by
  induction before generalizing s with
  | nil => exact reads_outcomeTop.attach hvalue h
  | cons word before ih =>
    rw [List.cons_append] at h ⊢
    by_cases hstep : isPlain word = true → s.awaitsValue = true
    · rw [outcomeTop_cons _ hstep] at h ⊢
      obtain ⟨s', hs', h⟩ := Option.bind_eq_some_iff.1 h
      rw [hs', Option.bind_some]
      exact ih h
    · -- the word is the name of a command
      obtain ⟨hplain, hawaits⟩ := Classical.not_imp.1 hstep
      rw [Bool.not_eq_true] at hawaits
      by_cases hname : s.trailing = true ∨ Verb.ofName? word = none
      · rw [outcomeTop_plain _ hplain hawaits hname] at h
        cases h
      · obtain ⟨htrailing, v, rfl⟩ := exists_name hname
        rw [outcomeTop_name htrailing hawaits, toOption_parseVerb] at h ⊢
        obtain ⟨command, hcommand, h⟩ := Option.bind_eq_some_iff.1 h
        obtain ⟨own, hown, hcommand⟩ := Option.bind_eq_some_iff.1 hcommand
        rw [outcome_attach hvalue before hown, Option.bind_some, hcommand, Option.bind_some, h]

end Roster.CommandLine
