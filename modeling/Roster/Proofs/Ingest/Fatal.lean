import Roster.Proofs.Ingest.Accounting
import Roster.Proofs.Saver.Concurrency

/-!
Lines that end ingesting. The first of them decides the error, and apart from that everything is
left as if the input had only the lines before it: what they have put into the saver's buffer is
still stored when the saver is closed.
-/

namespace Roster.Ingest

variable {σ : Type} {m : Saver.Setup σ}

open Saver (State)

/-- A line ends ingesting: it is no text, or it has a team for a saver that takes no more. -/
inductive Fatal (closed : Prop) (line : List UInt8) : Error → Prop
  | unreadable {flaw : Text.Utf8.Flaw} (h : Text.Utf8.decode line = .error flaw) :
    Fatal closed line (.unreadable flaw)
  | refused {cs : List Char} {t : Team} (hclosed : closed) (h : Text.Utf8.decode line = .ok cs)
    (hrecord : IsRecord (Text.trim cs)) (ht : Admits (Text.trim cs) t) :
    Fatal closed line (.saver .closed)

/-- The lines of an input before the first that ends ingesting, and the error that it causes. -/
def StopsAfter (closed : Prop) (input : List UInt8) (before : List (List UInt8)) (e : Error) :
    Prop :=
  ∃ line rest, Text.lines input = before ++ line :: rest ∧
    (∀ l ∈ before, ∀ e', ¬Fatal closed l e') ∧ Fatal closed line e

theorem not_fatal_of_ok {closed : Prop} {line : List UInt8} {cs : List Char}
    (h : Text.Utf8.decode line = .ok cs) (hteam : closed → (Line.ofChars cs).team? = none)
    (e : Error) : ¬Fatal closed line e := by
  rintro (hdecode | ⟨hclosed, hdecode, hrecord, ht⟩)
  · cases h.symm.trans hdecode
  · cases h.symm.trans hdecode
    have hnone := hteam hclosed
    rw [ofChars_eq_team_iff.2 ⟨hrecord, ht⟩] at hnone
    cases hnone

theorem exists_first_fatal (closed : Prop) (ls : List (List UInt8)) :
    (∀ l ∈ ls, ∀ e, ¬Fatal closed l e) ∨
      ∃ before line rest e, ls = before ++ line :: rest ∧
        (∀ l ∈ before, ∀ e', ¬Fatal closed l e') ∧ Fatal closed line e := by
  induction ls with
  | nil => exact .inl fun _ hl => absurd hl List.not_mem_nil
  | cons line ls ih =>
    by_cases hline : ∃ e, Fatal closed line e
    · obtain ⟨e, he⟩ := hline
      exact .inr ⟨[], line, ls, e, rfl, fun _ hl => absurd hl List.not_mem_nil, he⟩
    · rw [not_exists] at hline
      obtain hall | ⟨before, next, rest, e, rfl, hbefore, he⟩ := ih
      · exact .inl (List.forall_mem_cons.2 ⟨hline, hall⟩)
      · exact .inr ⟨line :: before, next, rest, e, rfl,
          List.forall_mem_cons.2 ⟨hline, hbefore⟩, he⟩

/-! ## Sessions -/

namespace Session

variable {x : Session σ}

/-- A line that ends the session leaves its reports, and a saver that comes to the same when it is
closed. -/
theorem take_of_fatal {line : List UInt8} {e : Error} (h : Fatal (x.saver.openness = 0) line e) :
    (x.take m line).result = some (.error e) ∧ (x.take m line).log = x.log ∧
      ((x.take m line).saver.submit m .close).1 = (x.saver.submit m .close).1 := by
  cases h with
  | unreadable hdecode =>
    rw [take_of_error hdecode]
    exact ⟨rfl, rfl, rfl⟩
  | refused hclosed hdecode hrecord ht =>
    rename_i cs t
    have hline : Line.ofChars cs = .team t := ofChars_eq_team_iff.2 ⟨hrecord, ht⟩
    have hsubmit : x.saver.submit m (.save t) = (x.saver, .refused) :=
      State.submit_of_shut m hclosed _
    rw [take_of_ok hdecode, hline, deal, hand]
    simp only [hsubmit, and_self]

theorem take_of_not_fatal {line : List UInt8} (h : ∀ e, ¬Fatal (x.saver.openness = 0) line e) :
    (x.take m line).result = x.result ∧
      (x.take m line).saver.openness = x.saver.openness := by
  cases hdecode : Text.Utf8.decode line with
  | error flaw => exact absurd (.unreadable hdecode) (h _)
  | ok cs =>
    rw [take_of_ok hdecode]
    cases hline : Line.ofChars cs with
    | nothing => exact ⟨rfl, rfl⟩
    | rejected why => exact ⟨rfl, rfl⟩
    | team t =>
      obtain ⟨hrecord, ht⟩ := ofChars_eq_team_iff.1 hline
      let numbered : Session σ := { x with number := x.number + 1 }
      have hopen : numbered.saver.openness = 1 := by
        have hne : x.saver.openness ≠ 0 := fun hclosed => h _ (.refused hclosed hdecode hrecord ht)
        have hle := State.openness_le_one x.saver
        simp only [numbered]
        omega
      refine ⟨?_, (openness_deal hopen (.team t)).trans hopen.symm⟩
      have hdeal := deal_of_open (m := m) hopen (.team t)
      rw [hdeal]

theorem takeAll_of_not_fatal (hresult : x.result = none) {ls : List (List UInt8)}
    (h : ∀ l ∈ ls, ∀ e, ¬Fatal (x.saver.openness = 0) l e) :
    (x.takeAll m ls).result = none ∧
      (x.takeAll m ls).saver.openness = x.saver.openness := by
  induction ls generalizing x with
  | nil => exact ⟨hresult, rfl⟩
  | cons line ls ih =>
    obtain ⟨hline, hls⟩ := List.forall_mem_cons.1 h
    obtain ⟨hsame, hopenness⟩ := take_of_not_fatal (m := m) hline
    rw [takeAll_cons hresult]
    obtain ⟨hnone, hrest⟩ := @ih (x.take m line) (hsame.trans hresult)
      (by rw [hopenness]; exact hls)
    exact ⟨hnone, hrest.trans hopenness⟩

/-- The first line that ends the session is the last that matters. -/
theorem takeAll_of_fatal (hresult : x.result = none) {before : List (List UInt8)}
    {line : List UInt8} {e : Error}
    (hbefore : ∀ l ∈ before, ∀ e', ¬Fatal (x.saver.openness = 0) l e')
    (hline : Fatal (x.saver.openness = 0) line e) (rest : List (List UInt8)) :
    let done := x.takeAll m (before ++ line :: rest)
    done.result = some (.error e) ∧ done.log = (x.takeAll m before).log ∧
      (done.saver.submit m .close).1 = ((x.takeAll m before).saver.submit m .close).1 := by
  intro done
  obtain ⟨hnone, hopenness⟩ := takeAll_of_not_fatal (m := m) hresult hbefore
  rw [← hopenness] at hline
  obtain ⟨herror, hlog, hclose⟩ := take_of_fatal (m := m) hline
  have hdone : done = (x.takeAll m before).take m line := by
    have hover : ((x.takeAll m before).take m line).result ≠ none := by
      rw [herror]
      exact Option.some_ne_none _
    calc
      done = (x.takeAll m before).takeAll m (line :: rest) := takeAll_append ..
      _ = ((x.takeAll m before).take m line).takeAll m rest := takeAll_cons hnone ..
      _ = _ := takeAll_of_over hover rest
  rw [hdone]
  exact ⟨herror, hlog, hclose⟩

end Session

/-! ## Ingests -/

open Session (start)

theorem StopsAfter.exists_start {closed : Prop} {input : List UInt8}
    {before : List (List UInt8)} {e : Error} (h : StopsAfter closed input before e) :
    ∃ start, start <+: input ∧ Text.lines start = before := by
  obtain ⟨line, rest, hlines, -, -⟩ := h
  obtain ⟨start, hstart, htake⟩ := Text.exists_lines_eq_take input before.length
  refine ⟨start, hstart, htake.trans ?_⟩
  have hlength := Text.length_finishedLines_le input
  have hbefore : (Text.lines input).take before.length = before := by
    rw [hlines, List.take_left]
  rw [hlines, List.length_append, List.length_cons] at hlength
  rw [Text.lines, List.take_append_of_le_length (by omega)] at hbefore
  exact hbefore

theorem StopsAfter.result (s : State σ) {input : List UInt8} {before : List (List UInt8)}
    {e : Error} (h : StopsAfter (s.openness = 0) input before e) :
    (ingest m s input .never).result = .error e := by
  obtain ⟨line, rest, hlines, hbefore, hline⟩ := h
  obtain ⟨hresult, -, -⟩ :=
    Session.takeAll_of_fatal (m := m) (x := start s) rfl hbefore hline rest
  rw [ingest_never, hlines, Session.ingested, hresult]
  rfl

theorem result_eq_error_iff (s : State σ) (input : List UInt8) (e : Error) :
    (ingest m s input .never).result = .error e ↔
      ∃ before, StopsAfter (s.openness = 0) input before e := by
  constructor
  · intro h
    obtain hnone | ⟨before, line, rest, e', hlines, hbefore, hline⟩ :=
      exists_first_fatal (s.openness = 0) (Text.lines input)
    · obtain ⟨hresult, -⟩ := Session.takeAll_of_not_fatal (m := m) (x := start s) rfl hnone
      rw [ingest_never, Session.ingested, hresult] at h
      cases h
    · have hstops : StopsAfter (s.openness = 0) input before e' :=
        ⟨line, rest, hlines, hbefore, hline⟩
      cases (hstops.result (m := m)).symm.trans h
      exact ⟨before, hstops⟩
  · rintro ⟨before, hstops⟩
    exact hstops.result

/-- When the saver is closed after ingesting has failed, everything is as if the input had only the
lines before the one that ended it. -/
theorem StopsAfter.ingestAndClose_eq (s : State σ) {input start : List UInt8}
    {before : List (List UInt8)} {e : Error} (h : StopsAfter (s.openness = 0) input before e)
    (hstart : Text.lines start = before) :
    ingestAndClose m s input .never =
      { ingestAndClose m s start .never with result := .error e } := by
  have hresult := h.result (m := m)
  obtain ⟨line, rest, hlines, hbefore, hline⟩ := h
  obtain ⟨-, hlog, hclose⟩ :=
    Session.takeAll_of_fatal (m := m) (x := Session.start s) rfl hbefore hline rest
  rw [ingest_never, hlines] at hresult
  rw [ingestAndClose, ingestAndClose, ingest_never, ingest_never, hlines, hstart]
  simp only [Session.ingested, Ingested.close] at hresult ⊢
  rw [hresult, hlog, hclose]

/-- Ingesting fails if and only if some line ends it, that is one that is no text, or one with a
team when the saver takes no more, and the first such line decides the error. With the saver closed
afterwards, it leaves what it leaves of an input that has only the lines before, and a run leaves
the same store and reports of the saver. -/
theorem ingest_fails_at_first_fatal (m : Saver.Setup σ) (s : State σ) (input : List UInt8) :
    (∀ e, (ingest m s input .never).result = .error e ↔
      ∃ before, StopsAfter (s.openness = 0) input before e) ∧
    (∀ before e, StopsAfter (s.openness = 0) input before e →
      (∃ start, start <+: input ∧ Text.lines start = before) ∧
      ∀ start, Text.lines start = before →
        ingestAndClose m s input .never =
          { ingestAndClose m s start .never with result := .error e }) ∧
    ∀ before e, StopsAfter False input before e → ∀ start, Text.lines start = before →
      ∀ config chunkSize store,
        (run config chunkSize store input).store = (run config chunkSize store start).store ∧
        (run config chunkSize store input).saverLog =
          (run config chunkSize store start).saverLog := by
  refine ⟨result_eq_error_iff s input, ?_, ?_⟩
  · intro before e h
    exact ⟨h.exists_start, fun start hstart => h.ingestAndClose_eq s hstart⟩
  · intro before e h start hstart config chunkSize store
    cases hsetup : config.setup chunkSize Store.repo with
    | error error => simp only [run, runInto, runAround, hsetup, and_self]
    | ok m =>
      have hopen : (False : Prop) = ((Saver.start m store).openness = 0) :=
        (eq_false Nat.one_ne_zero).symm
      rw [hopen] at h
      have hsaver := congrArg Ingested.saver (h.ingestAndClose_eq (m := m) _ hstart)
      obtain ⟨hworld, hlog, -⟩ :=
        runAround_of_setup hsetup store (Shutdown.never.occurrences input)
      obtain ⟨hworld', hlog', -⟩ :=
        runAround_of_setup hsetup store (Shutdown.never.occurrences start)
      exact ⟨hworld.trans ((congrArg State.world hsaver).trans hworld'.symm),
        hlog.trans ((congrArg State.log hsaver).trans hlog'.symm)⟩

/-- The third line has a team, which a closed saver does not take; the fourth line is no text, to
which a run comes only after it has stored that team. -/
theorem ingest_fails_trial :
    let s := ((Saver.start Saver.trial Saver.trialWorld).submit Saver.trial .close).1
    let comment := "# a".toUTF8.toList
    let list := "[]".toUTF8.toList
    let team := "\x7b\"name\":\"a\"\x7d".toUTF8.toList
    let start := [comment, list, team].flatMap (· ++ [Text.lineFeed])
    let input := start ++ [0xFF, Text.lineFeed]
    StopsAfter (s.openness = 0) input [comment, list] (.saver .closed) ∧
    (ingest Saver.trial s input .never).result = .error (.saver .closed) ∧
    StopsAfter False input [comment, list, team] (.unreadable (.invalid 1 0)) ∧
    Text.lines start = [comment, list, team] ∧
    (run ⟨3, 1000⟩ 2 .empty input).store = (run ⟨3, 1000⟩ 2 .empty start).store ∧
    (run ⟨3, 1000⟩ 2 .empty start).store.table.rows.length = 1 := by
  intro s comment list team start input
  have hlines : Text.lines input = [comment, list, team, [0xFF]] := by decide +kernel
  have hcomment : Text.Utf8.decode comment = .ok "# a".toList := by decide +kernel
  have hlist : Text.Utf8.decode list = .ok "[]".toList := by decide +kernel
  have hteam : Text.Utf8.decode team = .ok "\x7b\"name\":\"a\"\x7d".toList := by decide +kernel
  have hbefore (closed : Prop) : ∀ l ∈ [comment, list], ∀ e, ¬Fatal closed l e := by
    simp only [List.forall_mem_cons, List.not_mem_nil, false_imp_iff, implies_true, and_true]
    exact ⟨not_fatal_of_ok hcomment fun _ => by decide +kernel,
      not_fatal_of_ok hlist fun _ => by decide +kernel⟩
  have hclosed : StopsAfter (s.openness = 0) input [comment, list] (.saver .closed) := by
    refine ⟨team, [[0xFF]], hlines, hbefore _, ?_⟩
    have hline : Line.ofChars "\x7b\"name\":\"a\"\x7d".toList = .team { name := "a" } := by
      decide +kernel
    obtain ⟨hrecord, ht⟩ := ofChars_eq_team_iff.1 hline
    have hphase : s.phase = .closed := State.phase_submit_close
    exact .refused (by simp only [State.openness, hphase]) hteam hrecord ht
  have hunreadable : StopsAfter False input [comment, list, team] (.unreadable (.invalid 1 0)) := by
    refine ⟨[0xFF], [], hlines, ?_, .unreadable (by decide +kernel)⟩
    intro l hl
    obtain hl | hl := List.mem_append.1 (show l ∈ [comment, list] ++ [team] from hl)
    · exact hbefore False l hl
    · rw [List.mem_singleton.1 hl]
      exact not_fatal_of_ok hteam False.elim
  have hstart : Text.lines start = [comment, list, team] := by decide +kernel
  obtain ⟨hfails, -, hrun⟩ := ingest_fails_at_first_fatal Saver.trial s input
  refine ⟨hclosed, (hfails _).2 ⟨_, hclosed⟩, hunreadable, hstart, ?_, ?_⟩
  · exact (hrun _ _ hunreadable start hstart ⟨3, 1000⟩ 2 .empty).1
  · decide +kernel

end Roster.Ingest
