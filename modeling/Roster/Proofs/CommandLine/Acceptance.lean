import Roster.Proofs.CommandLine.Scanning

/-!
Which command lines are accepted: those that are written according to the grammar, whose values can
be read, in which no argument is there twice and none that is required is missing. What they come to
depends on the arguments that they write and on the environment.
-/

namespace Roster.CommandLine

variable {words : List String} {v : Verb}

/-! ## After a command -/

namespace Scan

def outcome (level : Level) (s : Scan) (words : List String) : Option Given :=
  (s.steps level words).toOption.bind fun s => s.settled.toOption

theorem outcome_cons (level : Level) (s : Scan) (word : String) (words : List String) :
    outcome level s (word :: words) =
      (s.step level word).toOption.bind (outcome level · words) := by
  rw [outcome, steps]
  cases s.step level word <;> rfl

theorem outcome_settle (level : Level) (s : Scan) (words : List String) :
    outcome level s words = s.settle?.bind (outcome level · words) := by
  induction words generalizing s with
  | nil =>
    cases hawaits : s.awaitsValue with
    | true => rw [settle?_of_awaits hawaits, Option.bind_some]
    | false =>
      cases hs : s.settled with
      | error e =>
        rw [settle?_of_error hawaits hs]
        simp [outcome, steps, hs, Except.toOption]
      | ok given =>
        rw [settle?_of_ok hawaits hs, outcome, steps]
        exact congrArg Except.toOption hs
  | cons word words ih =>
    simp only [outcome_cons]
    exact bind_step ih level s word

theorem reads_outcome (v : Verb) : (Level.verb v).Reads (outcome (.verb v)) where
  settle := outcome_settle (.verb v)
  step words _ := outcome_cons ..
  awaits {s} h := by
    unfold awaitsValue at h
    split at h
    · rename_i hlast
      simp [outcome, steps, settled, hlast, Except.toOption]
    · cases h

/-- After `--` there may be one placed argument. -/
theorem outcome_trailing (v : Verb) (given : Given) (words : List String) :
    outcome (.verb v) { given, trailing := true } words =
      match words with
      | [] => some given
      | [word] => v.placed?.bind fun a => (given.add a word).toOption
      | _ => none := by
  cases words with
  | nil => rfl
  | cons word words =>
    have hsettled : settled { given, trailing := true } = .ok given := rfl
    rw [outcome_cons, step_of_trailing rfl]
    cases hv : v.placed? with
    | none =>
      simp only [place, Level.placed?, hv]
      cases words <;> rfl
    | some a =>
      simp only [place, Level.placed?, hv, hasBegun_of_ok hsettled]
      cases hhas : given.has a with
      | true =>
        cases words with
        | nil => simp [Given.add_of_has hhas, Except.toOption]
        | cons word' words => rfl
      | false =>
        have hbegun : begin { given, trailing := true } a (some word) =
            .ok { given, last := some (a, some word), trailing := true } := rfl
        simp only [hbegun, Except.toOption, Bool.false_eq_true, if_false, Option.bind_some]
        cases words with
        | nil => rfl
        | cons word' words =>
          rw [outcome_cons, step_of_trailing rfl]
          simp [place, Level.placed?, hv, hasBegun, Except.toOption]

theorem outcome_mark (v : Verb) (given : Given) (words : List String) :
    outcome (.verb v) { given } ("--" :: words) =
      outcome (.verb v) { given, trailing := true } words := by
  rw [outcome_cons, step_mark rfl]
  rfl

theorem outcome_ends {items : List Item} {tail : List String} (h : (Level.verb v).Ends items tail)
    (given : Given) : outcome (.verb v) { given } tail = given.addAll? items := by
  cases h with
  | nothing => rfl
  | mark =>
    rw [outcome_mark, outcome_trailing]
    rfl
  | placed value ha =>
    have hv : v.placed? = some _ := ha
    rw [outcome_mark, outcome_trailing]
    simp [hv, Given.addAll?]

theorem exists_ends {tail : List String} (hstops : (Level.verb v).Stops tail)
    {given given' : Given} (h : outcome (.verb v) { given } tail = some given') :
    ∃ items, (Level.verb v).Ends items tail := by
  cases hstops with
  | nil => exact ⟨[], .nothing⟩
  | name _ hlevel _ => cases hlevel
  | mark words =>
    rw [outcome_mark, outcome_trailing] at h
    match words with
    | [] => exact ⟨[], .mark⟩
    | [word] =>
      obtain ⟨a, ha, -⟩ := Option.bind_eq_some_iff.1 h
      exact ⟨[(a, word)], .placed word ha⟩

end Scan

/-- What a command comes to that is followed by words. -/
theorem toOption_parseVerb (v : Verb) (words : List String) :
    (parseVerb v words).toOption = (Scan.outcome (.verb v) {} words).bind fun given =>
      if ∀ a ∈ v.required, given.has a = true then some (commandOf given v) else none := by
  unfold parseVerb Scan.outcome
  cases Scan.steps (.verb v) {} words with
  | error e => rfl
  | ok s =>
    simp only [Except.toOption, Option.bind_some]
    cases s.settled with
    | error e => rfl
    | ok given =>
      simp only [Option.bind_some]
      cases hmissing : v.required.filter fun a => !given.has a with
      | nil =>
        have hall : ∀ a ∈ v.required, given.has a = true := by simpa using hmissing
        rw [if_pos hall]
      | cons a as =>
        have hmem : a ∈ v.required.filter fun a => !given.has a := hmissing ▸ List.mem_cons_self ..
        obtain ⟨hmem, hhas⟩ := List.mem_filter.1 hmem
        have hnot : ¬∀ a ∈ v.required, given.has a = true := fun hall => by
          rw [hall a hmem] at hhas
          cases hhas
        rw [if_neg hnot]

/-! ## Up to a command -/

def outcomeTop (s : Scan) (words : List String) : Option (Given × Command) :=
  match scanTop s words with
  | .ok (s, some command) => s.settled.toOption.map fun given => (given, command)
  | _ => none

theorem outcomeTop_name {s : Scan} (htrailing : s.trailing = false)
    (hawaits : s.awaitsValue = false)
    (v : Verb) (words : List String) :
    outcomeTop s (v.name :: words) = (parseVerb v words).toOption.bind fun command =>
      s.settled.toOption.map fun given => (given, command) := by
  unfold outcomeTop scanTop
  simp only [htrailing, hawaits, Bool.or_self, Bool.false_eq_true, if_false, ofName?_name]
  cases parseVerb v words <;> rfl

theorem outcomeTop_cons {s : Scan} {word : String} (words : List String)
    (h : isPlain word = true → s.awaitsValue = true) :
    outcomeTop s (word :: words) = (s.step .top word).toOption.bind (outcomeTop · words) := by
  have hskip : (if s.trailing || s.awaitsValue then none else Verb.ofName? word) = none := by
    cases hplain : isPlain word with
    | true => rw [h hplain, Bool.or_true, if_pos rfl]
    | false =>
      have hname : Verb.ofName? word = none := by
        rw [← Option.not_isSome_iff_eq_none]
        intro hsome
        rw [isPlain_of_ofName? hsome] at hplain
        cases hplain
      rw [hname, ite_self]
  have hhelp : (!s.trailing && !s.awaitsValue && decide (word = Inquiry.help.label)) = false := by
    by_cases hword : word = Inquiry.help.label
    · have hawaits := h (by rw [hword]; decide)
      simp [hawaits]
    · simp [hword]
  rw [outcomeTop, scanTop, hskip, hhelp]
  cases s.step .top word <;> rfl

/-- A plain word before a command is the value of an option or the name of a command. -/
theorem outcomeTop_plain {s : Scan} {word : String} (words : List String)
    (hplain : isPlain word = true) (hawaits : s.awaitsValue = false)
    (hname : s.trailing = true ∨ Verb.ofName? word = none) :
    outcomeTop s (word :: words) = none := by
  have hstep : ∃ e, s.step .top word = .error e := by
    cases htrailing : s.trailing with
    | true => exact ⟨_, Scan.step_of_trailing htrailing .top word⟩
    | false => exact ⟨_, Scan.step_plain htrailing hplain hawaits⟩
  obtain ⟨e, hstep⟩ := hstep
  have hskip : (if s.trailing || s.awaitsValue then none else Verb.ofName? word) = none := by
    obtain htrailing | hname := hname
    · simp [htrailing]
    · simp [hname]
  unfold outcomeTop scanTop
  rw [hskip, hstep]
  by_cases hhelp : (!s.trailing && !s.awaitsValue && decide (word = Inquiry.help.label)) = true <;>
    simp [hhelp]

theorem exists_name {s : Scan} {word : String}
    (h : ¬(s.trailing = true ∨ Verb.ofName? word = none)) :
    s.trailing = false ∧ ∃ v : Verb, word = v.name := by
  obtain ⟨htrailing, hname⟩ := not_or.1 h
  obtain ⟨v, hv⟩ := Option.ne_none_iff_exists'.1 hname
  exact ⟨Bool.not_eq_true _ ▸ htrailing, v, name_of_ofName? hv⟩

theorem outcomeTop_settle (s : Scan) (words : List String) :
    outcomeTop s words = s.settle?.bind (outcomeTop · words) := by
  induction words generalizing s with
  | nil =>
    have hnone (s : Scan) : outcomeTop s [] = none := rfl
    simp [hnone]
  | cons word words ih =>
    cases hplain : isPlain word with
    | false =>
      have hcons (s : Scan) : outcomeTop s (word :: words) = _ :=
        outcomeTop_cons words (by simp [hplain])
      simp only [hcons]
      exact Scan.bind_step ih .top s word
    | true =>
      cases hawaits : s.awaitsValue with
      | true => rw [Scan.settle?_of_awaits hawaits, Option.bind_some]
      | false =>
        by_cases hname : s.trailing = true ∨ Verb.ofName? word = none
        · rw [outcomeTop_plain words hplain hawaits hname]
          cases hs : s.settled with
          | error e => rw [Scan.settle?_of_error hawaits hs, Option.bind_none]
          | ok given =>
            rw [Scan.settle?_of_ok hawaits hs, Option.bind_some]
            have hawaits' : Scan.awaitsValue { given, trailing := s.trailing } = false := by
              cases s.trailing <;> rfl
            exact (outcomeTop_plain words hplain hawaits' hname).symm
        · obtain ⟨htrailing, v, rfl⟩ := exists_name hname
          rw [outcomeTop_name htrailing hawaits]
          cases hs : s.settled with
          | error e =>
            rw [Scan.settle?_of_error hawaits hs, Option.bind_none]
            cases parseVerb v words <;> rfl
          | ok given =>
            rw [Scan.settle?_of_ok hawaits hs, Option.bind_some, htrailing,
              outcomeTop_name rfl rfl]
            rfl

theorem reads_outcomeTop : Level.top.Reads outcomeTop where
  settle := outcomeTop_settle
  step words h := outcomeTop_cons words (h rfl)
  awaits _ := rfl

/-! ## Whole command lines -/

/-- What is given before the command of a line, and the command. -/
def Line.outcome (line : Line) : Option (Given × Command) :=
  (Given.addAll? [] line.options).bind fun given =>
    (Given.addAll? [] line.arguments).bind fun own =>
      if ∀ a ∈ line.verb.required, own.has a = true then some (given, commandOf own line.verb)
      else none

/-- What words come to is what the line that they write comes to. -/
theorem Line.IsWritten.outcomeTop_eq {line : Line} (h : line.IsWritten words) :
    outcomeTop {} words = line.outcome := by
  obtain ⟨hfront, hback, htail⟩ := h
  rename_i v options arguments last front back tail
  have hverb : Scan.outcome (.verb v) {} (back ++ tail) =
      Given.addAll? [] (arguments ++ last) := by
    rw [(Scan.reads_outcome v).spells hback [] tail, Given.addAll?_append]
    exact congrArg _ (funext fun given => Scan.outcome_ends htail given)
  rw [reads_outcomeTop.spells hfront [] (v.name :: (back ++ tail)), Line.outcome]
  refine congrArg _ (funext fun given => ?_)
  rw [outcomeTop_name rfl rfl, toOption_parseVerb, hverb, Option.bind_assoc]
  refine congrArg _ (funext fun own => ?_)
  dsimp only
  split <;> rfl

theorem outcomeTop_trailing (given : Given) (words : List String) :
    outcomeTop { given, trailing := true } words = none := by
  cases words with
  | nil => rfl
  | cons word words =>
    cases hplain : isPlain word with
    | true => exact outcomeTop_plain words hplain rfl (.inl rfl)
    | false =>
      rw [outcomeTop_cons words (by simp [hplain]), Scan.step_of_trailing rfl]
      rfl

/-- Words that come to something write a line. -/
theorem exists_isWritten {r : Given × Command} (h : outcomeTop {} words = some r) :
    ∃ line : Line, line.IsWritten words := by
  obtain ⟨options, front, rest, given, rfl, hfront, hrest, hstops⟩ :=
    reads_outcomeTop.exists_spells h
  cases hstops with
  | nil => cases hrest
  | mark more =>
    rw [outcomeTop_cons more (fun hplain => absurd hplain (by decide)), Scan.step_mark rfl] at hrest
    cases hrest.symm.trans (outcomeTop_trailing given more)
  | @name word more _ hplain =>
    cases hname : Verb.ofName? word with
    | none => cases hrest.symm.trans (outcomeTop_plain more hplain rfl (.inr hname))
    | some v =>
      obtain rfl := name_of_ofName? hname
      rw [outcomeTop_name rfl rfl, toOption_parseVerb] at hrest
      obtain ⟨command, hcommand, -⟩ := Option.bind_eq_some_iff.1 hrest
      obtain ⟨own, hown, -⟩ := Option.bind_eq_some_iff.1 hcommand
      obtain ⟨arguments, back, tail, own', rfl, hback, htail, hstops⟩ :=
        (Scan.reads_outcome v).exists_spells hown
      obtain ⟨last, hlast⟩ := Scan.exists_ends hstops htail
      exact ⟨_, .intro hfront hback hlast⟩

/-- The words are accepted where the environment does not stand in the way: then they write a line,
and the environment is asked for the options that are not given. -/
theorem parse_eq {r : Given × Command} (h : outcomeTop {} words = some r) (env : Environment) :
    parse env words =
      (addVariables env r.1 Arg.settings).map fun given => ⟨settingsOf given, r.2⟩ := by
  unfold outcomeTop at h
  split at h
  · rename_i s command hs
    unfold parse
    rw [hs]
    cases hsettled : s.settled with
    | error e =>
      rw [hsettled] at h
      cases h
    | ok given =>
      rw [hsettled] at h
      cases h
      simp only [hsettled]
      cases addVariables env given Arg.settings <;> rfl
  · cases h

theorem exists_outcomeTop {env : Environment} {inv : Invocation} (h : parse env words = .ok inv) :
    ∃ r, outcomeTop {} words = some r := by
  unfold parse at h
  unfold outcomeTop
  split at h
  · cases h
  · rename_i s command hs
    rw [hs]
    split at h
    · cases h
    · rename_i given hsettled
      cases command with
      | none =>
        split at h <;> cases h
      | some command => exact ⟨(given, command), by simp [hsettled, Except.toOption]⟩

end Roster.CommandLine
