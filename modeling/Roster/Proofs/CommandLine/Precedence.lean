import Roster.Proofs.CommandLine.Rewriting

/-!
Where settings come from. An option that is given decides; one that is not given leaves it to its
variable, and that to the standard value. The order and the spelling of options make no difference.
-/

namespace Roster

def Settings.value? (s : Settings) : CommandLine.Arg → Option CommandLine.Value
  | .dataDir => some (.text s.dataDir)
  | .logLevel => some (.text s.logLevel)
  | .logFormat => some (.text s.logFormat.name)
  | .capacity => some (.number s.capacity)
  | .flushInterval => some (.number s.flushInterval)
  | .chunkSize => some (.number s.chunkSize)
  | .poolSize => some (.number s.poolSize)
  | .eventChannelSize => some (.number s.eventChannelSize)
  | _ => none

namespace CommandLine

variable {words words' : List String} {a : Arg} {given : Given} {text : String} {x : Value}

/-! ## Settings and their values -/

def Form.Fits (form : Form) (x : Value) : Prop :=
  match form with
  | .text | .filledText => ∃ s, x = .text s
  | .choice names => ∃ s ∈ names, x = .text s
  | .number _ _ least most _ => ∃ n, least ≤ n ∧ n ≤ most ∧ x = .number n

theorem Form.fits_of_read {form : Form} (h : form.read text = .ok x) : form.Fits x := by
  cases form with
  | text =>
    cases h
    exact ⟨text, rfl⟩
  | filledText =>
    unfold read at h
    dsimp only at h
    split at h
    · cases h
    · cases h
      exact ⟨text, rfl⟩
  | choice names =>
    unfold read at h
    dsimp only at h
    split at h
    · rename_i hmem
      cases h
      exact ⟨text, hmem, rfl⟩
    · split at h <;> cases h
  | number lowest highest least most range =>
    unfold read at h
    dsimp only at h
    split at h
    · cases h
    · rename_i n _
      split at h
      · rename_i hbounds
        cases h
        exact ⟨n.toNat, by omega, by omega, rfl⟩
      · cases h

theorem ofName?_name_of_mem {s : String} (h : s ∈ Log.Format.all.map Log.Format.name) :
    ∃ format, Log.Format.ofName? s = some format ∧ format.name = s := by
  obtain ⟨format, -, rfl⟩ := List.mem_map.1 h
  cases format
  · exact ⟨.text, by decide, rfl⟩
  · exact ⟨.json, by decide, rfl⟩

/-- A setting has the value that is known of its option. -/
theorem value?_settingsOf_of_known (ha : a ∈ Arg.settings) (hknown : given.value? a = some x)
    (hx : a.form.Fits x) : (settingsOf given).value? a = some x := by
  cases a with
  | dataDir | logLevel =>
    obtain ⟨s, rfl⟩ := hx
    simp only [settingsOf, Settings.value?, Given.textOf, hknown]
  | logFormat =>
    obtain ⟨s, hs, rfl⟩ := hx
    obtain ⟨format, hformat, rfl⟩ := ofName?_name_of_mem hs
    simp only [settingsOf, Settings.value?, Given.textOf, hknown, hformat, Option.getD_some]
  | capacity | flushInterval | chunkSize | poolSize | eventChannelSize =>
    obtain ⟨n, -, -, rfl⟩ := hx
    simp only [settingsOf, Settings.value?, Given.numberOf, hknown]
  | name | description | limit | offset | mode | id | query => exact absurd ha (by decide)

/-- A setting of whose option nothing is known has its standard value. -/
theorem value?_settingsOf_of_unknown (hunknown : given.value? a = none) :
    (settingsOf given).value? a = ({} : Settings).value? a := by
  cases a with
  | logFormat =>
    simp only [settingsOf, Settings.value?, Given.textOf, hunknown]
    rfl
  | _ => simp only [settingsOf, Settings.value?, Given.textOf, Given.numberOf, hunknown]

/-! ## What is given before a command -/

theorem value?_of_outcome {line : Line} {r : Given × Command} (h : line.outcome = some r) :
    (∀ a text, (a, text) ∈ line.options →
      ∃ x, a.form.read text = .ok x ∧ r.1.value? a = some x) ∧
    ∀ a, (∀ text, (a, text) ∉ line.options) → r.1.value? a = none := by
  obtain ⟨given, hgiven, hrest⟩ := Option.bind_eq_some_iff.1 h
  obtain ⟨own, -, hrest⟩ := Option.bind_eq_some_iff.1 hrest
  obtain ⟨hread, hold⟩ := Given.value?_of_addAll? hgiven
  split at hrest
  · cases hrest
    exact ⟨fun a text hmem => (hread a text hmem).2, hold⟩
  · cases hrest

/-- Words that come to the same are told the same, whatever the variables of given options are. -/
theorem parse_congr {r r' : Given × Command} {env env' : Environment}
    (h : outcomeTop {} words = some r) (h' : outcomeTop {} words' = some r')
    (hvalues : r'.1.value? = r.1.value?) (hcommand : r'.2 = r.2)
    (henv : ∀ a ∈ Arg.settings, r.1.value? a = none →
      a.fallback?.bind env' = a.fallback?.bind env) :
    parse env' words' = parse env words := by
  rw [parse_eq h env, parse_eq h' env', hcommand]
  obtain ⟨e, he', he⟩ | ⟨given', given, hgiven', hgiven, hsame⟩ :=
    cases_of_map_eq (map_value?_addVariables_congr hvalues henv)
  · rw [he', he]
  · rw [hgiven', hgiven]
    simp only [Except.map, settingsOf_congr hsame]

/-- Each setting is what its option says, or else what its variable says, or else the standard. -/
theorem value?_settings {env : Environment} {inv : Invocation} {line : Line}
    (hline : line.IsWritten words) (h : parse env words = .ok inv) (ha : a ∈ Arg.settings) :
    (∀ text, (a, text) ∈ line.options →
      ∃ x, a.form.read text = .ok x ∧ inv.settings.value? a = some x) ∧
    ((∀ text, (a, text) ∉ line.options) →
      match a.fallback?.bind env with
      | some text => ∃ x, a.form.read text = .ok x ∧ inv.settings.value? a = some x
      | none => inv.settings.value? a = ({} : Settings).value? a) := by
  obtain ⟨r, hr⟩ := exists_outcomeTop h
  have houtcome := hline.outcomeTop_eq.symm.trans hr
  obtain ⟨hread, hold⟩ := value?_of_outcome houtcome
  rw [parse_eq hr] at h
  cases hgiven : addVariables env r.1 Arg.settings with
  | error e =>
    rw [hgiven] at h
    cases h
  | ok given =>
    rw [hgiven] at h
    cases h
    refine ⟨?_, ?_⟩
    · intro text hmem
      obtain ⟨x, hx, hknown⟩ := hread a text hmem
      have hsame := value?_of_addVariables_of_known hgiven (a := a) (.inl (by simp [hknown]))
      exact ⟨x, hx, value?_settingsOf_of_known ha (hsame.trans hknown) (Form.fits_of_read hx)⟩
    · intro habsent
      have hvariable := value?_of_addVariables_of_unknown hgiven (hold a habsent) ha
      cases htext : a.fallback?.bind env with
      | none =>
        rw [htext] at hvariable
        exact value?_settingsOf_of_unknown hvariable
      | some text =>
        rw [htext] at hvariable
        obtain ⟨x, hx, hknown⟩ := hvariable
        exact ⟨x, hx, value?_settingsOf_of_known ha hknown (Form.fits_of_read hx)⟩

/-- A command line that is accepted in some environment is written according to the grammar. Each
setting has the value of its option if that occurs, otherwise of its variable if that is set, and
otherwise its standard value; the variable of an option that occurs is not looked at. The options
before the command and the arguments of the command may change places and may be spelled in another
way without any change of the result; in particular a value may be attached to its option. -/
theorem options_precede_variables (h : ∃ env inv, parse env words = .ok inv) :
    (∃ line : Line, line.IsWritten words) ∧
    (∀ line : Line, line.IsWritten words →
      (∀ env inv, parse env words = .ok inv → ∀ a ∈ Arg.settings,
        (∀ text, (a, text) ∈ line.options →
          ∃ x, a.form.read text = .ok x ∧ inv.settings.value? a = some x) ∧
        ((∀ text, (a, text) ∉ line.options) →
          match a.fallback?.bind env with
          | some text => ∃ x, a.form.read text = .ok x ∧ inv.settings.value? a = some x
          | none => inv.settings.value? a = ({} : Settings).value? a)) ∧
      (∀ env env', (∀ a ∈ Arg.settings, (∀ text, (a, text) ∉ line.options) →
          a.fallback?.bind env' = a.fallback?.bind env) →
        parse env' words = parse env words) ∧
      ∀ line' words', line.Reorders line' → line'.IsWritten words' →
        ∀ env, parse env words' = parse env words) ∧
    ∀ before (a : Arg) value after, isPlain value = true →
      words = before ++ ("--" ++ a.label) :: value :: after →
      ∀ env, parse env (before ++ ("--" ++ a.label ++ "=" ++ value) :: after) =
        parse env words := by
  obtain ⟨env₀, inv₀, h₀⟩ := h
  obtain ⟨r, hr⟩ := exists_outcomeTop h₀
  refine ⟨exists_isWritten hr, ?_, ?_⟩
  · intro line hline
    have houtcome := hline.outcomeTop_eq.symm.trans hr
    refine ⟨fun env inv h a ha => value?_settings hline h ha, ?_, ?_⟩
    · intro env env' henv
      refine parse_congr hr hr rfl rfl fun a ha hnone => henv a ha fun text hmem => ?_
      obtain ⟨x, -, hknown⟩ := (value?_of_outcome houtcome).1 a text hmem
      cases hnone.symm.trans hknown
    · intro line' words' hreorders hline' env
      obtain ⟨r', hr', hvalues, hcommand⟩ := hreorders.exists_outcome houtcome
      have hwords' := hline'.outcomeTop_eq.trans hr'
      exact parse_congr hr hwords' hvalues hcommand fun _ _ _ => rfl
  · rintro before a value after hvalue rfl env
    exact parse_congr hr (outcomeTop_attach hvalue before hr) rfl rfl fun _ _ _ => rfl

/-- An option hides a bad variable, another variable is used, and another order and spelling come to
the same. -/
theorem options_precede_variables_trial :
    let env : Environment := fun name =>
      if name = "TEAM_SAVER_CAPACITY" then some "zero"
      else if name = "TEAM_SAVER_POOL_SIZE" then some "2"
      else none
    let words := ["--chunk-size", "3", "--capacity=7", "list", "--offset", "2", "--limit=5"]
    parse env words = .ok ⟨{ capacity := 7, chunkSize := 3, poolSize := 2 }, .list 5 2⟩ ∧
      parse env ["--capacity", "7", "--chunk-size", "3", "list", "--limit", "5", "--offset=2"] =
        parse env words ∧
      parse env ["--chunk-size=3", "--capacity=7", "list", "--offset", "2", "--limit=5"] =
        parse env words := by
  intro env words
  have hparse : parse env words =
      .ok ⟨{ capacity := 7, chunkSize := 3, poolSize := 2 }, .list 5 2⟩ := by decide +kernel
  have hline : Line.IsWritten
      ⟨[(.chunkSize, "3"), (.capacity, "7")], .list, [(.offset, "2"), (.limit, "5")] ++ []⟩ words :=
    .intro (.cons (.apart (.label (by decide)) (by decide))
        (.cons (.attached (.label (by decide))) .nil))
      (.cons (.apart (.label (by decide)) (by decide))
        (.cons (.attached (.label (by decide))) .nil))
      .nothing
  have hline' : Line.IsWritten
      ⟨[(.capacity, "7"), (.chunkSize, "3")], .list, [(.limit, "5"), (.offset, "2")] ++ []⟩
      ["--capacity", "7", "--chunk-size", "3", "list", "--limit", "5", "--offset=2"] :=
    .intro (.cons (.apart (.label (by decide)) (by decide))
        (.cons (.apart (.label (by decide)) (by decide)) .nil))
      (.cons (.apart (.label (by decide)) (by decide))
        (.cons (.attached (.label (by decide))) .nil))
      .nothing
  obtain ⟨-, hlines, hattach⟩ := options_precede_variables ⟨env, _, hparse⟩
  obtain ⟨-, -, hreorders⟩ := hlines _ hline
  have hother := hreorders
    ⟨[(.capacity, "7"), (.chunkSize, "3")], .list, [(.limit, "5"), (.offset, "2")] ++ []⟩ _
    ⟨.swap .., rfl, .swap ..⟩ hline' env
  exact ⟨hparse, hother, hattach [] .chunkSize "3" _ (by decide) rfl env⟩

end CommandLine

end Roster
