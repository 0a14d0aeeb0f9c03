import Roster.CommandLine.Printer
import Roster.Proofs.CommandLine.Precedence
import Roster.Proofs.Text.Digits

/-!
Saying what the program is to do. Settings and commands are values of arguments, and a value is read
again from the text in which it is written. With every value attached to its option, and with the
placed argument behind `--`, no value is taken for anything else; and where all settings are given,
the environment is not looked at.
-/

namespace Roster

namespace CommandLine

variable {a : Arg} {as : List Arg} {x : Value} {value? : Arg → Option Value}

/-! ## Values and their texts -/

def Value.shown : Value → String
  | .text s => s
  | .number n => toString n

def Form.Takes : Form → Value → Prop
  | .text, .text _ => True
  | .filledText, .text s => s ≠ ""
  | .choice names, .text s => s ∈ names
  | .number lowest highest least most _, .number n =>
    (lowest ≤ n ∧ n ≤ highest) ∧ least ≤ n ∧ n ≤ most
  | _, _ => False

theorem Form.read_shown {form : Form} (h : form.Takes x) : form.read x.shown = .ok x := by
  cases form with
  | text =>
    cases x with
    | text s => rfl
    | number n => cases h
  | filledText =>
    cases x with
    | text s =>
      have hne : s ≠ "" := h
      exact if_neg hne
    | number n => cases h
  | choice names =>
    cases x with
    | text s =>
      have hmem : s ∈ names := h
      exact if_pos hmem
    | number n => cases h
  | number lowest highest least most range =>
    cases x with
    | text s => cases h
    | number n =>
      obtain ⟨⟨hlow, hhigh⟩, hleast, hmost⟩ := h
      have htext : toString n = toString (n : Int) := rfl
      have hread : Text.readInteger lowest highest (toString n).toList = .ok (n : Int) := by
        rw [htext]
        exact Text.readInteger_toString hlow hhigh
      have hbounds : (least : Int) ≤ (n : Int) ∧ (n : Int) ≤ (most : Int) := by omega
      simp only [read, Value.shown, hread, if_pos hbounds, Int.toNat_natCast]

/-! ## Arguments and what becomes of them -/

def items (value? : Arg → Option Value) (as : List Arg) : List Item :=
  as.filterMap fun a => (value? a).map fun x => (a, x.shown)

theorem mem_items {text : String} :
    (a, text) ∈ items value? as ↔ a ∈ as ∧ ∃ x, value? a = some x ∧ x.shown = text := by
  simp only [items, List.mem_filterMap, Option.map_eq_some_iff, Prod.mk.injEq]
  constructor
  · rintro ⟨_, ha, x, hx, rfl, htext⟩
    exact ⟨ha, x, hx, htext⟩
  · rintro ⟨ha, x, hx, htext⟩
    exact ⟨a, ha, x, hx, rfl, htext⟩

theorem map_fst_items (value? : Arg → Option Value) (as : List Arg) :
    (items value? as).map Prod.fst = as.filter fun a => (value? a).isSome := by
  induction as with
  | nil => rfl
  | cons a as ih =>
    rw [items, List.filterMap_cons, List.filter_cons]
    cases value? a with
    | none => exact ih
    | some x => exact congrArg (a :: ·) ih

/-- Arguments that are all different, and whose values can be read, are taken. -/
theorem Given.exists_addAll? {items : List Item} {given : Given}
    (hnodup : (items.map Prod.fst).Nodup) (hnew : ∀ item ∈ items, given.has item.1 = false)
    (hread : ∀ item ∈ items, ∃ x, item.1.form.read item.2 = .ok x) :
    ∃ given', given.addAll? items = some given' := by
  induction items generalizing given with
  | nil => exact ⟨given, rfl⟩
  | cons item items ih =>
    obtain ⟨a, text⟩ := item
    obtain ⟨hfirst, hnodup⟩ := List.nodup_cons.1 hnodup
    obtain ⟨ha, hnew⟩ := List.forall_mem_cons.1 hnew
    obtain ⟨⟨x, hx⟩, hread⟩ := List.forall_mem_cons.1 hread
    have hadd : given.add a text = .ok (given ++ [(a, x)]) := add_eq_ok_iff.2 ⟨ha, x, hx, rfl⟩
    have hnew' : ∀ item ∈ items, has (given ++ [(a, x)]) item.1 = false := by
      intro item hitem
      have hne : a ≠ item.1 := by
        rintro rfl
        exact hfirst (List.mem_map.2 ⟨item, hitem, rfl⟩)
      rw [has_append, hnew item hitem]
      simp [has, hne]
    obtain ⟨given', hgiven'⟩ := ih hnodup hnew' hread
    exact ⟨given', by rw [addAll?_cons, hadd]; exact hgiven'⟩

/-- What is known after values have been given that are taken: these values. -/
theorem exists_given (hnodup : as.Nodup)
    (htakes : ∀ a ∈ as, ∀ x, value? a = some x → a.form.Takes x) :
    ∃ given, Given.addAll? [] (items value? as) = some given ∧
      ∀ a ∈ as, given.value? a = value? a := by
  have hread : ∀ item ∈ items value? as, ∃ x, item.1.form.read item.2 = .ok x := by
    rintro ⟨a, text⟩ hitem
    obtain ⟨ha, x, hx, rfl⟩ := mem_items.1 hitem
    exact ⟨x, Form.read_shown (htakes a ha x hx)⟩
  have hitems : ((items value? as).map Prod.fst).Nodup := by
    rw [map_fst_items]
    exact hnodup.filter _
  have hnew : ∀ item ∈ items value? as, Given.has [] item.1 = false := fun _ _ => rfl
  obtain ⟨given, hgiven⟩ := Given.exists_addAll? hitems hnew hread
  obtain ⟨hknown, hunknown⟩ := Given.value?_of_addAll? hgiven
  refine ⟨given, hgiven, ?_⟩
  intro a ha
  cases hvalue : value? a with
  | none =>
    refine hunknown a ?_
    intro text hitem
    obtain ⟨-, x, hx, -⟩ := mem_items.1 hitem
    cases hvalue.symm.trans hx
  | some x =>
    obtain ⟨-, y, hy, hfound⟩ := hknown a _ (mem_items.2 ⟨ha, x, hvalue, rfl⟩)
    -- what is read from the text is the value that was written
    cases hy.symm.trans (Form.read_shown (htakes a ha x hvalue))
    exact hfound

/-- No variable is looked at where all arguments are known. -/
theorem addVariables_of_known {given : Given} (env : Environment)
    (h : ∀ a ∈ as, given.value? a ≠ none) : addVariables env given as = .ok given := by
  induction as with
  | nil => rfl
  | cons a as ih =>
    obtain ⟨ha, has⟩ := List.forall_mem_cons.1 h
    have hgiven : given.has a = true := by
      rw [Given.has_eq]
      exact Option.isSome_iff_ne_none.2 ha
    rw [addVariables_cons_of_none (if_pos hgiven), ih has]

/-- Options with their values attached. -/
theorem Level.spells_words {level : Level} {items : List Item}
    (h : ∀ item ∈ items, item.1 ∈ level.options) :
    level.Spells items (items.map fun item => item.1.word item.2) := by
  induction items with
  | nil => exact .nil
  | cons item items ih =>
    obtain ⟨hitem, hitems⟩ := List.forall_mem_cons.1 h
    exact .cons (.attached (.label hitem)) (ih hitems)

end CommandLine

open CommandLine

/-! ## Settings -/

structure Settings.InRange (s : Settings) : Prop where
  dataDir : s.dataDir ≠ ""
  capacity : 1 ≤ s.capacity ∧ s.capacity ≤ maxWord
  flushInterval : 1 ≤ s.flushInterval ∧ s.flushInterval ≤ maxWord
  chunkSize : 1 ≤ s.chunkSize ∧ s.chunkSize ≤ maxWord
  poolSize : 1 ≤ s.poolSize ∧ s.poolSize ≤ 0xFFFFFFFF
  eventChannelSize : 1 ≤ s.eventChannelSize ∧ s.eventChannelSize ≤ maxWord

theorem Settings.InRange.takes {s : Settings} (h : s.InRange) {a : Arg} {x : CommandLine.Value}
    (hx : s.value? a = some x) : a.form.Takes x := by
  have hword {n : Nat} (hn : 1 ≤ n ∧ n ≤ maxWord) : Form.positive.Takes (.number n) :=
    ⟨by omega, hn⟩
  cases a with
  | dataDir =>
    cases hx
    exact h.dataDir
  | logLevel =>
    cases hx
    trivial
  | logFormat =>
    cases hx
    exact List.mem_map_of_mem (by cases s.logFormat <;> decide)
  | capacity =>
    cases hx
    exact hword h.capacity
  | flushInterval =>
    cases hx
    exact hword h.flushInterval
  | chunkSize =>
    cases hx
    exact hword h.chunkSize
  | poolSize =>
    cases hx
    have hsize := h.poolSize
    exact ⟨by omega, hsize⟩
  | eventChannelSize =>
    cases hx
    exact hword h.eventChannelSize
  | name | description | limit | offset | mode | id | query => cases hx

theorem Settings.value?_ne_none (s : Settings) {a : Arg} (ha : a ∈ Arg.settings) :
    s.value? a ≠ none := by
  cases a with
  | name | description | limit | offset | mode | id | query => exact absurd ha (by decide)
  | _ => exact Option.some_ne_none _

/-- Settings are what their values come to. -/
theorem Settings.settingsOf_eq {s : Settings} {given : Given}
    (h : ∀ a ∈ Arg.settings, given.value? a = s.value? a) : settingsOf given = s := by
  have hformat (standard : Log.Format) :
      (Log.Format.ofName? s.logFormat.name).getD standard = s.logFormat := by
    cases s.logFormat <;> rfl
  have hdataDir := h .dataDir (by decide)
  have hlogLevel := h .logLevel (by decide)
  have hlogFormat := h .logFormat (by decide)
  have hcapacity := h .capacity (by decide)
  have hflushInterval := h .flushInterval (by decide)
  have hchunkSize := h .chunkSize (by decide)
  have hpoolSize := h .poolSize (by decide)
  have heventChannelSize := h .eventChannelSize (by decide)
  simp only [settingsOf, Given.textOf, Given.numberOf, hdataDir, hlogLevel, hlogFormat, hcapacity,
    hflushInterval, hchunkSize, hpoolSize, heventChannelSize, value?, hformat]

/-! ## Commands -/

namespace Command

def value? : Command → Arg → Option CommandLine.Value
  | .create name _, .name | .update _ name _, .name => some (.text name)
  | .create _ description, .description | .update _ _ description, .description =>
    some (.text description)
  | .get id, .id | .update id _ _, .id | .remove id, .id => some (.number id.toNat)
  | .list limit _, .limit => some (.number limit.toNat)
  | .list _ offset, .offset => some (.number offset.toNat)
  | .search _ mode, .mode => some (.text mode.name)
  | .search query _, .query => some (.text query)
  | _, _ => none

variable {c : Command} {a : Arg}

theorem takes_natural (n : UInt64) : Form.natural.Takes (.number n.toNat) := by
  have hmost : n.toNat ≤ maxWord := Nat.le_of_lt_succ n.toNat_lt
  exact ⟨⟨Int.natCast_nonneg _, Int.ofNat_le.2 hmost⟩, Nat.zero_le _, hmost⟩

theorem takes_mode (mode : Search.Mode) : Arg.mode.form.Takes (.text mode.name) :=
  List.mem_map_of_mem (by cases mode <;> decide)

theorem takes {x : CommandLine.Value} (h : c.value? a = some x) : a.form.Takes x := by
  unfold value? at h
  split at h
  all_goals cases h
  -- a text, a number, or a mode
  all_goals first
    | exact trivial
    | exact takes_natural _
    | exact takes_mode _

def arity (v : Verb) : List Arg :=
  v.options ++ v.placed?.toList

theorem nodup_arity (v : Verb) : (arity v).Nodup := by
  cases v <;> decide

theorem arguments_eq (c : Command) :
    ∃ tail, (Level.verb c.verb).Ends (items c.value? c.verb.placed?.toList) tail ∧
      c.arguments =
        (items c.value? c.verb.options).map (fun item => item.1.word item.2) ++ tail := by
  cases c with
  | ingest | create | list => exact ⟨[], .nothing, rfl⟩
  | get | update | search | remove => exact ⟨_, .placed _ rfl, rfl⟩

theorem required_subset_arity (v : Verb) : v.required ⊆ arity v := by
  cases v <;> decide

theorem value?_of_required (ha : a ∈ c.verb.required) : (c.value? a).isSome = true := by
  cases c with
  | ingest | list => cases ha
  | create | get | search | remove =>
    obtain rfl := List.mem_singleton.1 ha
    rfl
  | update =>
    obtain rfl | ha := List.mem_cons.1 ha
    · rfl
    · obtain rfl := List.mem_singleton.1 ha
      rfl

/-- A command is what its arguments make of its verb. -/
theorem commandOf_eq {own : Given} (h : ∀ a ∈ arity c.verb, own.value? a = c.value? a) :
    commandOf own c.verb = c := by
  cases c with
  | ingest => rfl
  | create name description =>
    have hown : ∀ a ∈ arity .create, own.value? a = (create name description).value? a := h
    have hname := hown .name (by decide)
    have hdescription := hown .description (by decide)
    simp only [verb, commandOf, Given.textOf, hname, hdescription, value?]
  | get id =>
    have hown : ∀ a ∈ arity .get, own.value? a = (get id).value? a := h
    have hid := hown .id (by decide)
    simp only [verb, commandOf, wordOf, Given.numberOf, hid, value?, UInt64.ofNat_toNat]
  | list limit offset =>
    have hown : ∀ a ∈ arity .list, own.value? a = (list limit offset).value? a := h
    have hlimit := hown .limit (by decide)
    have hoffset := hown .offset (by decide)
    simp only [verb, commandOf, wordOf, Given.numberOf, hlimit, hoffset, value?,
      UInt64.ofNat_toNat]
  | update id name description =>
    have hown : ∀ a ∈ arity .update, own.value? a = (update id name description).value? a := h
    have hid := hown .id (by decide)
    have hname := hown .name (by decide)
    have hdescription := hown .description (by decide)
    simp only [verb, commandOf, wordOf, Given.textOf, Given.numberOf, hid, hname, hdescription,
      value?, UInt64.ofNat_toNat]
  | search query mode =>
    have hown : ∀ a ∈ arity .search, own.value? a = (search query mode).value? a := h
    have hquery := hown .query (by decide)
    have hmode := hown .mode (by decide)
    have hname : (Search.Mode.ofName? mode.name).getD .standard = mode := by
      cases mode <;> decide
    simp only [verb, commandOf, Given.textOf, hquery, hmode, value?, hname]
  | remove id =>
    have hown : ∀ a ∈ arity .remove, own.value? a = (remove id).value? a := h
    have hid := hown .id (by decide)
    simp only [verb, commandOf, wordOf, Given.numberOf, hid, value?, UInt64.ofNat_toNat]

/-- The line of a command has its arguments and comes to the command. -/
theorem exists_line (c : Command) {options : List Item} {given : Given}
    (hgiven : Given.addAll? [] options = some given) :
    (Line.mk options c.verb (items c.value? (arity c.verb))).outcome = some (given, c) := by
  obtain ⟨own, hown, hvalues⟩ := exists_given (nodup_arity c.verb) fun a _ x hx => takes hx
  have hrequired : ∀ a ∈ c.verb.required, own.has a = true := by
    intro a ha
    rw [Given.has_eq, hvalues a (required_subset_arity _ ha)]
    exact value?_of_required ha
  rw [Line.outcome, hgiven, Option.bind_some, hown, Option.bind_some, if_pos hrequired,
    commandOf_eq hvalues]

end Command

/-! ## The whole line -/

def Invocation.line (i : Invocation) : Line :=
  ⟨items i.settings.value? Arg.settings, i.command.verb,
    items i.command.value? (Command.arity i.command.verb)⟩

theorem Invocation.isWritten_words (i : Invocation) : i.line.IsWritten i.words := by
  obtain ⟨tail, htail, harguments⟩ := i.command.arguments_eq
  have hsettings : i.settings.words =
      (items i.settings.value? Arg.settings).map fun item => item.1.word item.2 := rfl
  have hoptions (level : Level) (value? : Arg → Option CommandLine.Value) :
      ∀ item ∈ items value? level.options, item.1 ∈ level.options :=
    fun item hitem => (mem_items.1 hitem).1
  have hsplit : items i.command.value? (Command.arity i.command.verb) =
      items i.command.value? i.command.verb.options ++
        items i.command.value? i.command.verb.placed?.toList := List.filterMap_append ..
  rw [line, words, Command.words, harguments, hsettings, hsplit]
  exact .intro (Level.spells_words (hoptions .top _))
    (Level.spells_words (hoptions (.verb i.command.verb) _)) htail

namespace CommandLine

/-- Whatever the program is to do can be said on the command line, if only the settings are in
range. Texts may be empty, may look like options or commands, and may have equals signs in them;
the environment makes no difference. -/
theorem parse_words {i : Invocation} (h : i.settings.InRange) (env : Environment) :
    parse env i.words = .ok i := by
  have htakes : ∀ a ∈ Arg.settings, ∀ x, i.settings.value? a = some x → a.form.Takes x :=
    fun a _ x hx => h.takes hx
  obtain ⟨given, hgiven, hvalues⟩ := exists_given (by decide) htakes
  have houtcome : outcomeTop {} i.words = some (given, i.command) := by
    rw [i.isWritten_words.outcomeTop_eq]
    exact i.command.exists_line hgiven
  have hvariables : addVariables env given Arg.settings = .ok given := by
    refine addVariables_of_known env ?_
    intro a ha
    rw [hvalues a ha]
    exact i.settings.value?_ne_none ha
  rw [parse_eq houtcome, hvariables, Except.map, Settings.settingsOf_eq hvalues]

def disguised : Invocation :=
  ⟨{ dataDir := "--", logLevel := "", logFormat := .json, capacity := maxWord,
     flushInterval := 1, chunkSize := maxWord, poolSize := 0xFFFFFFFF, eventChannelSize := 1 },
    .update 0xFFFFFFFFFFFFFFFF "--description=get" ""⟩

theorem parse_words_disguised :
    disguised.settings.InRange ∧
      disguised.words =
        ["--data-dir=--", "--log-level=", "--log-format=json", "--capacity=18446744073709551615",
          "--flush-interval-ms=1", "--chunk-size=18446744073709551615", "--pool-size=4294967295",
          "--event-channel-size=1", "update", "--name=--description=get", "--description=", "--",
          "18446744073709551615"] ∧
      parse (fun _ => some "zero") disguised.words = .ok disguised := by
  have hrange : disguised.settings.InRange :=
    ⟨by decide, by decide, by decide, by decide, by decide, by decide⟩
  exact ⟨hrange, by decide +kernel, parse_words hrange _⟩

end CommandLine

end Roster
