import Roster.Event
import Roster.Proofs.CommandLine.Precedence
import Roster.Proofs.Ingest.Accounting
import Roster.Proofs.Saver.Discarding
import Roster.Proofs.Text.Digits

/-!
What the settings of an accepted command line are good for: a saver can be started with them and
never drops teams, and there is a bus. A number that would not do is refused, whether it comes from
an option or from a variable.
-/

namespace Roster

namespace CommandLine

def Arg.most? : Arg → Option Nat
  | .capacity | .flushInterval | .chunkSize | .eventChannelSize => some maxWord
  | .poolSize => some 0xFFFFFFFF
  | _ => none

/-- The text is a number that such an option takes. -/
def Admits (most : Nat) (text : String) : Prop :=
  ∃ n, Text.Writes text.toList n ∧ 1 ≤ n ∧ n ≤ most

variable {a : Arg} {most : Nat} {text : String} {x : Value} {words : List String}
  {env : Environment} {inv : Invocation}

/-! ## Numbers -/

theorem read_number {lowest highest : Int} {range : String} (hmost : most ≤ highest.toNat) :
    (Form.number lowest highest 1 most range).read text = .ok x ↔
      ∃ n, Text.Writes text.toList n ∧ 1 ≤ n ∧ n ≤ most ∧ x = .number n := by
  constructor
  · intro h
    unfold Form.read at h
    dsimp only at h
    split at h
    · cases h
    · rename_i n hread
      split at h
      · rename_i hbounds
        cases h
        obtain ⟨n, rfl⟩ := Int.eq_ofNat_of_zero_le (show 0 ≤ n by omega)
        have hpos : 0 < n := by omega
        exact ⟨n, ((Text.readInteger_eq_ok_iff hpos _).1 hread).1, hpos, by omega, rfl⟩
      · cases h
  · rintro ⟨n, hwrites, hpos, hle, rfl⟩
    have hread : Text.readInteger lowest highest text.toList = .ok (n : Int) :=
      (Text.readInteger_eq_ok_iff hpos _).2 ⟨hwrites, Nat.le_trans hle hmost⟩
    have hbounds : ((1 : Nat) : Int) ≤ (n : Int) ∧ (n : Int) ≤ (most : Int) := by omega
    rw [Form.read, hread]
    dsimp only
    rw [if_pos hbounds]
    rfl

theorem read_of_most? (ha : a.most? = some most) :
    a.form.read text = .ok x ↔
      ∃ n, Text.Writes text.toList n ∧ 1 ≤ n ∧ n ≤ most ∧ x = .number n := by
  cases a with
  | capacity | flushInterval | chunkSize | eventChannelSize | poolSize =>
    cases ha
    exact read_number (by decide)
  | _ => cases ha

theorem admits_iff (ha : a.most? = some most) :
    Admits most text ↔ ∃ x, a.form.read text = .ok x := by
  constructor
  · rintro ⟨n, hwrites, hpos, hle⟩
    exact ⟨.number n, (read_of_most? ha).2 ⟨n, hwrites, hpos, hle, rfl⟩⟩
  · rintro ⟨x, hx⟩
    obtain ⟨n, hwrites, hpos, hle, -⟩ := (read_of_most? ha).1 hx
    exact ⟨n, hwrites, hpos, hle⟩

theorem mem_settings_of_most? (ha : a.most? = some most) : a ∈ Arg.settings := by
  cases a with
  | capacity | flushInterval | chunkSize | eventChannelSize | poolSize => decide
  | _ => cases ha

/-- Whatever a number comes from, it is one that the option takes. -/
theorem exists_number_of_parse (h : parse env words = .ok inv) (ha : a.most? = some most) :
    ∃ n, inv.settings.value? a = some (.number n) ∧ 1 ≤ n ∧ n ≤ most := by
  obtain ⟨r, hr⟩ := exists_outcomeTop h
  obtain ⟨line, hline⟩ := exists_isWritten hr
  obtain ⟨hoption, hvariable⟩ := value?_settings hline h (mem_settings_of_most? ha)
  have hread : ∀ text, (∃ x, a.form.read text = .ok x ∧ inv.settings.value? a = some x) →
      ∃ n, inv.settings.value? a = some (.number n) ∧ 1 ≤ n ∧ n ≤ most := by
    rintro text ⟨x, hx, hvalue⟩
    obtain ⟨n, -, hpos, hle, rfl⟩ := (read_of_most? ha).1 hx
    exact ⟨n, hvalue, hpos, hle⟩
  by_cases hgiven : ∃ text, (a, text) ∈ line.options
  · obtain ⟨text, hmem⟩ := hgiven
    exact hread text (hoption text hmem)
  · have hsource := hvariable (not_exists.1 hgiven)
    cases htext : a.fallback?.bind env with
    | some text =>
      rw [htext] at hsource
      exact hread text hsource
    | none =>
      rw [htext] at hsource
      dsimp only at hsource
      rw [hsource]
      cases a with
      | capacity | flushInterval | chunkSize | eventChannelSize | poolSize =>
        cases ha
        exact ⟨_, rfl, by decide, by decide⟩
      | _ => cases ha

/-- An option that does not take its value keeps the line from being accepted, whatever else there
is. -/
theorem parse_ne_of_option (ha : a.most? = some most) (htext : ¬Admits most text)
    {options : List Item} {front : List String} (hfront : Level.top.Spells options front) :
    (∀ word, Level.top.Attaches a text word →
      ∀ rest, parse env (front ++ word :: rest) ≠ .ok inv) ∧
    ∀ word, Level.top.Opens a word →
      ∀ rest, parse env (front ++ word :: text :: rest) ≠ .ok inv := by
  have hnot {given given' : Given} : given.add a text ≠ .ok given' := by
    intro hadd
    obtain ⟨-, x, hx, -⟩ := Given.value?_of_add hadd
    exact htext ((admits_iff ha).2 ⟨x, hx⟩)
  have hwritten {given : Given} {words rest : List String} {r : Given × Command}
      (hwords : Level.top.Writes (a, text) words) :
      outcomeTop { given } (words ++ rest) ≠ some r := by
    rw [reads_outcomeTop.writes hwords]
    cases hadd : given.add a text with
    | error e => nofun
    | ok given' => exact absurd hadd hnot
  have hbehind {rest : List String} (h : parse env (front ++ rest) = .ok inv) :
      ∃ given r, outcomeTop { given } rest = some r := by
    obtain ⟨r, hr⟩ := exists_outcomeTop h
    have hspells := reads_outcomeTop.spells hfront [] rest
    obtain ⟨given, -, hrest⟩ := Option.bind_eq_some_iff.1 (hspells.symm.trans hr)
    exact ⟨given, r, hrest⟩
  refine ⟨?_, ?_⟩
  · intro word hword rest h
    obtain ⟨given, r, hr⟩ := hbehind h
    exact hwritten (.attached hword) hr
  · intro word hword rest h
    obtain ⟨given, r, hr⟩ := hbehind h
    cases hplain : isPlain text with
    | true => exact hwritten (.apart hword hplain) hr
    | false =>
      -- a text that looks like an option is not taken for a value
      rw [outcomeTop_cons _ (by simp [hword.not_plain]), Scan.step_of_opens hword rfl] at hr
      have hvalue : isPlain text = true := reads_outcomeTop.isPlain_of_awaits hr
      rw [hplain] at hvalue
      cases hvalue

/-- So does a variable, unless its option is given. -/
theorem parse_ne_of_variable (ha : a.most? = some most) (htext : ¬Admits most text)
    (henv : a.fallback?.bind env = some text)
    (habsent : ∀ line : Line, line.IsWritten words → ∀ text', (a, text') ∉ line.options) :
    parse env words ≠ .ok inv := by
  intro h
  obtain ⟨r, hr⟩ := exists_outcomeTop h
  obtain ⟨line, hline⟩ := exists_isWritten hr
  have hsource := (value?_settings hline h (mem_settings_of_most? ha)).2 (habsent line hline)
  rw [henv] at hsource
  obtain ⟨x, hx, -⟩ := hsource
  exact htext ((admits_iff ha).2 ⟨x, hx⟩)

end CommandLine

/-! ## Savers and buses -/

/-- A run with good settings starts, and its saver drops nothing. -/
theorem Ingest.runInto_spares {config : Saver.Config} {chunkSize : Nat}
    (hcapacity : 0 < config.capacity) (hinterval : 0 < config.interval) (hchunk : 0 < chunkSize)
    (repo : Repo Store) (store : Store) (input : List UInt8) (shutdown : Shutdown) :
    let r := runInto repo config chunkSize store input shutdown
    (∀ e, r.result ≠ .error (.start e)) ∧ ∀ e ∈ r.saverLog, e.isDiscarded = false := by
  intro r
  obtain ⟨m, hsetup⟩ := exists_setup hcapacity hinterval chunkSize repo
  obtain ⟨-, rfl⟩ := setup_of_ok hsetup
  obtain ⟨-, hlog, hresult⟩ := runInto_of_setup hsetup store input shutdown
  refine ⟨?_, ?_⟩
  · intro e he
    rw [hresult] at he
    split at he <;> cases he
  · have hstart : (Saver.start m store).Spares := Saver.spares_start store
    have hleads := leads_requests (m := m) (s := Saver.start m store) rfl
      (teams (Reading.ofLines (shutdown.lines input)).lines)
    have hspares := hleads _ (Saver.spares_invariant hchunk) hstart
    intro e he
    rw [hlog] at he
    exact hspares e he

/-- The settings of an accepted command line are in range, wherever they come from. So a saver can
be started with them, no run of it drops teams for chunks of size zero, and there is a bus. A value
that is not a number in range is refused: that of an option whatever else is on the command line,
and that of a variable whose option is not given. -/
theorem settings_drive_pipeline :
    (∀ env words inv, CommandLine.parse env words = .ok inv →
      let s := inv.settings
      (1 ≤ s.capacity ∧ s.capacity ≤ CommandLine.maxWord) ∧
      (1 ≤ s.flushInterval ∧ s.flushInterval ≤ CommandLine.maxWord) ∧
      (1 ≤ s.chunkSize ∧ s.chunkSize ≤ CommandLine.maxWord) ∧
      (1 ≤ s.eventChannelSize ∧ s.eventChannelSize ≤ CommandLine.maxWord) ∧
      (1 ≤ s.poolSize ∧ s.poolSize ≤ 0xFFFFFFFF) ∧
      s.saver.flaw? = none ∧
      (∀ repo store input shutdown,
        let r := Ingest.runInto repo s.saver s.chunkSize store input shutdown
        (∀ e, r.result ≠ .error (.start e)) ∧ ∀ e ∈ r.saverLog, e.isDiscarded = false) ∧
      ∃ bus, Bus.ofCapacity? s.eventChannelSize = some bus) ∧
    ∀ (a : CommandLine.Arg) most text, a.most? = some most → ¬CommandLine.Admits most text →
      (∀ options front, CommandLine.Level.top.Spells options front → ∀ env inv,
        (∀ word, CommandLine.Level.top.Attaches a text word →
          ∀ rest, CommandLine.parse env (front ++ word :: rest) ≠ .ok inv) ∧
        ∀ word, CommandLine.Level.top.Opens a word →
          ∀ rest, CommandLine.parse env (front ++ word :: text :: rest) ≠ .ok inv) ∧
      ∀ env words, a.fallback?.bind env = some text →
        (∀ line : CommandLine.Line, line.IsWritten words → ∀ text', (a, text') ∉ line.options) →
        ∀ inv, CommandLine.parse env words ≠ .ok inv := by
  refine ⟨?_, ?_⟩
  · intro env words inv h s
    have hbounds {a : CommandLine.Arg} {most n : Nat} (ha : a.most? = some most)
        (hn : s.value? a = some (.number n)) : 1 ≤ n ∧ n ≤ most := by
      obtain ⟨n', hn', hpos, hle⟩ := CommandLine.exists_number_of_parse h ha
      cases hn.symm.trans hn'
      exact ⟨hpos, hle⟩
    have hcapacity := hbounds (a := .capacity) rfl rfl
    have hinterval := hbounds (a := .flushInterval) rfl rfl
    have hchunk := hbounds (a := .chunkSize) rfl rfl
    have hchannel := hbounds (a := .eventChannelSize) rfl rfl
    have hpool := hbounds (a := .poolSize) rfl rfl
    have hc : 0 < s.saver.capacity := hcapacity.1
    have hi : 0 < s.saver.interval := hinterval.1
    refine ⟨hcapacity, hinterval, hchunk, hchannel, hpool, ?_, ?_, ?_⟩
    · rw [Saver.Config.flaw?, if_neg (Nat.ne_of_gt hc), if_neg (Nat.ne_of_gt hi)]
    · exact Ingest.runInto_spares hc hi hchunk.1
    · exact ⟨_, if_neg (Nat.ne_of_gt hchannel.1)⟩
  · intro a most text ha htext
    refine ⟨?_, ?_⟩
    · intro options front hfront env inv
      exact CommandLine.parse_ne_of_option ha htext hfront
    · intro env words henv habsent inv
      exact CommandLine.parse_ne_of_variable ha htext henv habsent

/-- Good settings, of which one hides a bad variable, and then a bad option and the bad variable. -/
theorem settings_drive_pipeline_trial :
    let env : Environment := fun name => if name = "TEAM_SAVER_POOL_SIZE" then some "0" else none
    let settings : Settings := { capacity := 5, poolSize := 2 }
    CommandLine.parse env ["--capacity=5", "--pool-size", "2", "ingest"] = .ok ⟨settings, .ingest⟩ ∧
      settings.saver.flaw? = none ∧
      (∀ store input e, e ∈ (Ingest.runInto Store.repo settings.saver settings.chunkSize store input
        .never).saverLog → e.isDiscarded = false) ∧
      (∀ inv, CommandLine.parse env ["--pool-size=2", "--chunk-size", "-3", "ingest"] ≠ .ok inv) ∧
      ∀ inv, CommandLine.parse env ["ingest"] ≠ .ok inv := by
  intro env settings
  have hparse : CommandLine.parse env ["--capacity=5", "--pool-size", "2", "ingest"] =
      .ok ⟨settings, .ingest⟩ := by decide +kernel
  have hnegative : ¬CommandLine.Admits CommandLine.maxWord "-3" := by
    rw [CommandLine.admits_iff (a := .chunkSize) rfl]
    rintro ⟨x, hx⟩
    have hread : CommandLine.Arg.chunkSize.form.read "-3" = .error (.notNumber .invalidDigit) := by
      decide
    cases hread.symm.trans hx
  have hzero : ¬CommandLine.Admits 0xFFFFFFFF "0" := by
    rw [CommandLine.admits_iff (a := .poolSize) rfl]
    rintro ⟨x, hx⟩
    have hread : CommandLine.Arg.poolSize.form.read "0" =
        .error (.outOfRange 0 "1..=4294967295") := by decide
    cases hread.symm.trans hx
  have habsent : ∀ line : CommandLine.Line, line.IsWritten ["ingest"] →
      ∀ text, (CommandLine.Arg.poolSize, text) ∉ line.options := by
    intro line hline text hmem
    have hnothing : CommandLine.outcomeTop {} ["ingest"] = some ([], .ingest) := by decide +kernel
    obtain ⟨x, -, hknown⟩ :=
      (CommandLine.value?_of_outcome (hline.outcomeTop_eq.symm.trans hnothing)).1 _ text hmem
    cases hknown
  obtain ⟨hgood, hbad⟩ := settings_drive_pipeline
  obtain ⟨-, -, -, -, -, hflaw, hruns, -⟩ := hgood env _ _ hparse
  obtain ⟨hoption, -⟩ := hbad .chunkSize _ "-3" rfl hnegative
  obtain ⟨-, hvariable⟩ := hbad .poolSize _ "0" rfl hzero
  refine ⟨hparse, hflaw, fun store input => (hruns Store.repo store input .never).2, ?_, ?_⟩
  · intro inv
    exact (hoption [(.poolSize, "2")] _ (.cons (.attached (.label (by decide))) .nil) env inv).2 _
      (.label (by decide)) ["ingest"]
  · exact hvariable env ["ingest"] rfl habsent

end Roster
