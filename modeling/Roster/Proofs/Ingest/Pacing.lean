import Roster.Proofs.Ingest.Feeding
import Roster.Proofs.Saver.Handles

/-!
Ingesting while time passes. When nothing arrives for a while, ticks come due, and the teams reach
the store in other batches. What is read, counted and reported is the same at every pace, and what
is kept by everything that may happen to a saver is kept by an ingest of any pace.
-/

namespace Roster

variable {σ : Type}

namespace Saver.State

variable {m : Setup σ} {s : State σ}

/-- The owner does not shut a saver that somebody holds. -/
theorem openness_step? (hheld : s.isHeld = true) {s' : State σ} {limit : Nat}
    (h : s.step? m limit = some s') : s'.openness = s.openness := by
  cases (step?_eq_some_iff m).1 h with
  | answer hw hends =>
    rw [openness_takeAnswer]
    simp only [openness, hw]
  | abandon hp hnone => cases hheld.symm.trans hnone
  | tick hp _ hdue => exact (openness_beginFlush ..).trans (openness_of_waiting hp).symm

theorem openness_run (hheld : s.isHeld = true) (limit : Nat) :
    (s.run m limit).openness = s.openness := by
  induction s using State.run.induct m limit with
  | case1 s h => rw [run_of_none m h]
  | case2 s s' h ih =>
    have hheld' : s'.isHeld = true := by
      rw [isHeld, handles_step? h]
      exact hheld
    rw [run_of_some m h, ih hheld', openness_step? hheld h]

theorem openness_advance (hheld : s.isHeld = true) (time : Nat) :
    (s.advance m time).openness = s.openness :=
  openness_run hheld (s.clock + time)

theorem isHeld_advance (s : State σ) (time : Nat) : (s.advance m time).isHeld = s.isHeld :=
  congrArg (·.any id) (handles_run s (s.clock + time))

theorem isHeld_submitAll (s : State σ) (rs : List Request) :
    (s.submitAll m rs).1.isHeld = s.isHeld :=
  congrArg (·.any id) (handles_submitAll s rs)

end Saver.State

namespace Ingest

open Saver (State)
open Session (start)

theorem skips_append (number : Nat) (lines lines' : List Line) :
    skips number (lines ++ lines') =
      skips number lines ++ skips (number + lines.length) lines' := by
  rw [skips, List.zipIdx_append, List.filterMap_append]
  rfl

/-! ## What an ingest has dealt with -/

variable {m : Saver.Setup σ} {s : State σ} {ls : List (List UInt8)} {x : Session σ}

namespace Session

/-- A session that began with the given saver has dealt with what was read, while time may have
passed on the way. -/
structure Dealt (m : Saver.Setup σ) (s : State σ) (reading : Reading) (x : Session σ) : Prop where
  leads : s.Leads m (teams reading.lines) x.saver
  isOpen : x.saver.openness = 1
  isHeld : x.saver.isHeld = true
  number : x.number = reading.lines.length
  report : x.report = ⟨(teams reading.lines).length, rejections reading.lines⟩
  log : x.log = skips 1 reading.lines
  result : x.result = reading.flaw.map fun flaw => .error (.unreadable flaw)

theorem dealt_start (hopen : s.openness = 1) (hheld : s.isHeld = true) :
    (start s).Dealt m s (.ofLines []) :=
  ⟨.refl s, hopen, hheld, rfl, rfl, rfl, rfl⟩

namespace Dealt

variable {reading : Reading}

theorem aside (h : x.Dealt m s reading) (signal : Signal) (begun : List UInt8) :
    (x.aside signal begun).Dealt m s reading :=
  ⟨h.leads, h.isOpen, h.isHeld, h.number, h.report, h.log, h.result⟩

theorem idle (h : x.Dealt m s reading) (time : Nat) : (x.idle m time).Dealt m s reading := by
  by_cases hx : x.result = none
  · rw [idle_of_none hx]
    refine ⟨h.leads.advance time, ?_, ?_, h.number, h.report, h.log, h.result⟩
    · exact (State.openness_advance h.isHeld time).trans h.isOpen
    · exact (State.isHeld_advance ..).trans h.isHeld
  · rw [idle_of_over hx]
    exact h

theorem result_eq_none_iff (h : x.Dealt m s reading) : x.result = none ↔ reading.flaw = none := by
  rw [h.result, Option.map_eq_none_iff]

theorem takeAll (h : x.Dealt m s (.ofLines ls)) (ls' : List (List UInt8)) :
    (x.takeAll m ls').Dealt m s (.ofLines (ls ++ ls')) := by
  by_cases hflaw : (Reading.ofLines ls).flaw = none
  · rw [takeAll_of_open (h.result_eq_none_iff.2 hflaw) h.isOpen, Reading.ofLines_append hflaw]
    refine ⟨?_, State.openness_saves h.isOpen _, ?_, ?_, ?_, ?_, rfl⟩
    · rw [teams, List.filterMap_append]
      exact leads_saves h.leads h.isOpen _
    · exact (State.isHeld_submitAll ..).trans h.isHeld
    · simp only [afterReading, h.number, List.length_append]
    · simp only [afterReading, h.report, teams, rejections, List.filterMap_append,
        List.length_append]
    · simp only [afterReading, h.log, h.number, skips_append, Nat.add_comm]
  · rw [takeAll_of_over (fun hx => hflaw (h.result_eq_none_iff.1 hx)),
      Reading.ofLines_append_of_flaw hflaw]
    exact h

end Dealt

/-- The session has dealt with the finished lines of the given bytes, and is not told of any end. -/
structure Amid (m : Saver.Setup σ) (s : State σ) (bytes : List UInt8) (x : Session σ) : Prop where
  dealt : x.Dealt m s (.ofLines (Text.finishedLines bytes))
  begun : x.begun = (Text.splitLines bytes).2

namespace Amid

variable {bytes : List UInt8}

theorem arrived (h : x.Amid m s bytes) (more : List UInt8) :
    (x.step m (.arrived more)).Amid m s (bytes ++ more) := by
  have hlines : Text.finishedLines (bytes ++ more) =
      Text.finishedLines bytes ++ Text.finishedLines (x.begun ++ more) := by
    rw [Text.finishedLines_append, h.begun]
  have hbegun : (Text.splitLines (bytes ++ more)).2 = (Text.splitLines (x.begun ++ more)).2 := by
    rw [Text.splitLines_append, h.begun]
  rw [step_arrived]
  refine ⟨?_, hbegun.symm⟩
  rw [hlines]
  exact (h.dealt.takeAll _).aside ..

theorem aside (h : x.Amid m s bytes) (signal : Signal) : (x.aside signal x.begun).Amid m s bytes :=
  ⟨h.dealt.aside .., h.begun⟩

theorem elapsed (h : x.Amid m s bytes) (time : Nat) :
    (x.step m (.elapsed time)).Amid m s bytes :=
  ⟨h.dealt.idle time, (begun_idle ..).trans h.begun⟩

/-- At the end of the input all lines have been dealt with. -/
theorem ended (h : x.Amid m s bytes) (later : List Occurrence) :
    ∃ y : Session σ, y.Dealt m s (.ofLines (Text.lines bytes)) ∧
      (x.after m (.ended :: later)).ingested = y.ingested := by
  let y := x.takeAll m (Text.unfinishedLine bytes)
  have hstep : x.step m .ended = y.complete := by
    rw [step, h.begun]
    rfl
  refine ⟨y, h.dealt.takeAll _, ?_⟩
  have hover : y.complete.result ≠ none := by
    cases hy : y.result <;> simp [complete, hy]
  rw [after_cons, hstep, after_of_over hover, ingested_complete]

end Amid

end Session

open Session (Dealt Amid)

/-! ## At any pace -/

/-- An input comes in, in whatever pieces and at whatever pace, and ends. -/
inductive Brings : List UInt8 → List Occurrence → Prop where
  | ended (later : List Occurrence) : Brings [] (.ended :: later)
  | arrived {input : List UInt8} {os : List Occurrence} (bytes : List UInt8) :
    Brings input os → Brings (bytes ++ input) (.arrived bytes :: os)
  | elapsed {input : List UInt8} {os : List Occurrence} (time : Nat) :
    Brings input os → Brings input (.elapsed time :: os)

theorem Brings.exists_dealt {input : List UInt8} {os : List Occurrence} (h : Brings input os)
    {bytes : List UInt8} (hx : x.Amid m s bytes) :
    ∃ y : Session σ, y.Dealt m s (.ofLines (Text.lines (bytes ++ input))) ∧
      (x.after m os).ingested = y.ingested := by
  induction h generalizing x bytes with
  | ended later =>
    rw [List.append_nil]
    exact hx.ended later
  | arrived more _ ih =>
    rw [← List.append_assoc]
    exact ih (hx.arrived more)
  | elapsed time _ ih => exact ih (hx.elapsed time)

theorem amid_start (hopen : s.openness = 1) (hheld : s.isHeld = true) :
    (start s).Amid m s [] :=
  ⟨Session.dealt_start hopen hheld, rfl⟩

/-- However an input comes in, the log and the result are those of an ingest in which no time
passes, and the saver has acknowledged the teams of all lines. -/
theorem Brings.attend_eq {input : List UInt8} {os : List Occurrence} (h : Brings input os)
    (hopen : s.openness = 1) (hheld : s.isHeld = true) :
    let done := attend m s os
    let reading := Reading.ofLines (Text.lines input)
    done = { ingest m s input .never with saver := done.saver } ∧
      s.Leads m (teams reading.lines) done.saver := by
  intro done reading
  obtain ⟨y, hy, hafter⟩ := h.exists_dealt (amid_start (m := m) hopen hheld)
  have hdone : done = y.ingested := hafter
  rw [hdone, ingest_of_open hopen]
  refine ⟨?_, hy.leads⟩
  cases hflaw : (Reading.ofLines (Text.lines input)).flaw <;>
    simp [Session.ingested, hy.log, hy.result, hy.report, Shutdown.lines, Shutdown.entries, hflaw]

/-! ## Whatever happens -/

def Occurrence.bytes : Occurrence → List UInt8
  | .arrived bytes => bytes
  | _ => []

/-- The bytes that come in before the input ends. -/
def bytesOf (os : List Occurrence) : List UInt8 :=
  (os.takeWhile (· ≠ .ended)).flatMap Occurrence.bytes

/-- The lines that are seen unless reading is asked to stop: those that are finished by a line feed
or by the end of the input. -/
def seen (os : List Occurrence) : List (List UInt8) :=
  if .ended ∈ os then Text.lines (bytesOf os) else Text.finishedLines (bytesOf os)

theorem bytesOf_cons {o : Occurrence} (h : o ≠ .ended) (os : List Occurrence) :
    bytesOf (o :: os) = o.bytes ++ bytesOf os := by
  rw [bytesOf, List.takeWhile_cons_of_pos (by simpa using h), List.flatMap_cons]
  rfl

theorem seen_cons_cons (bytes : List UInt8) {o : Occurrence} (h : o ≠ .ended)
    (os : List Occurrence) :
    seen (.arrived bytes :: o :: os) = seen (.arrived (bytes ++ o.bytes) :: os) := by
  have hbytes : bytesOf (.arrived bytes :: o :: os) =
      bytesOf (.arrived (bytes ++ o.bytes) :: os) := by
    rw [bytesOf_cons (by simp), bytesOf_cons h, bytesOf_cons (by simp), ← List.append_assoc]
    rfl
  have hended : .ended ∈ Occurrence.arrived bytes :: o :: os ↔
      .ended ∈ Occurrence.arrived (bytes ++ o.bytes) :: os := by
    simp [Ne.symm h]
  simp only [seen, hbytes, hended]

theorem finishedLines_prefix_seen (bytes : List UInt8) (os : List Occurrence) :
    Text.finishedLines bytes <+: seen (.arrived bytes :: os) := by
  have hfinished : Text.finishedLines bytes <+:
      Text.finishedLines (bytesOf (.arrived bytes :: os)) := by
    rw [bytesOf_cons (by simp), Occurrence.bytes, Text.finishedLines_append]
    exact List.prefix_append ..
  unfold seen
  split
  · exact hfinished.trans (List.prefix_append ..)
  · exact hfinished

theorem seen_ended (bytes : List UInt8) (os : List Occurrence) :
    seen (.arrived bytes :: .ended :: os) = Text.lines bytes := by
  simp [seen, bytesOf, Occurrence.bytes]

/-- In the middle of an input, whatever happens: what has been dealt with in the end are some of the
first lines that are seen. -/
theorem Session.Amid.exists_dealt {bytes : List UInt8} (h : x.Amid m s bytes)
    (os : List Occurrence) :
    ∃ ls, ∃ y : Session σ, ls <+: seen (.arrived bytes :: os) ∧ y.Dealt m s (.ofLines ls) ∧
      (x.after m os).saver = y.saver := by
  induction os generalizing x bytes with
  | nil => exact ⟨_, x, finishedLines_prefix_seen bytes [], h.dealt, rfl⟩
  | cons o os ih =>
    -- what happens to the signal ends the session, or leaves it in the middle of the input
    have hsignal (signal : Signal) (hne : o ≠ .ended) (hnone : o.bytes = [])
        (hstep : x.step m o = (x.aside signal x.begun).heed) :
        ∃ ls, ∃ y : Session σ, ls <+: seen (.arrived bytes :: o :: os) ∧
          y.Dealt m s (.ofLines ls) ∧ (x.after m (o :: os)).saver = y.saver := by
      rw [Session.after_cons, hstep]
      obtain hsame | ⟨hover, hsaver⟩ := (x.aside signal x.begun).heed_cases
      · rw [hsame, seen_cons_cons bytes hne, hnone, List.append_nil]
        exact ih (h.aside signal)
      · refine ⟨_, x, finishedLines_prefix_seen bytes _, h.dealt, ?_⟩
        exact (congrArg Ingested.saver (Session.after_of_over hover os)).trans hsaver
    cases o with
    | arrived more =>
      rw [seen_cons_cons bytes (by simp)]
      exact ih (h.arrived more)
    | ended =>
      obtain ⟨y, hy, hafter⟩ := h.ended os
      exact ⟨_, y, by rw [seen_ended], hy, congrArg Ingested.saver hafter⟩
    | elapsed time =>
      have hnone : (Occurrence.elapsed time).bytes = [] := rfl
      rw [seen_cons_cons bytes (by simp), hnone, List.append_nil]
      exact ih (h.elapsed time)
    | signalled stop => exact hsignal (x.signal.set stop) (by simp) rfl rfl
    | abandoned => exact hsignal { x.signal with held := false } (by simp) rfl rfl

/-- Whatever happens around an ingest, the saver has acknowledged the teams of some of the first
lines that are seen, and of no others. -/
theorem attend_leads (hopen : s.openness = 1) (hheld : s.isHeld = true) (os : List Occurrence) :
    ∃ ls, ls <+: seen os ∧ s.Leads m (teams (Reading.ofLines ls).lines) (attend m s os).saver := by
  obtain ⟨ls, y, hls, hy, hsaver⟩ := (amid_start (m := m) hopen hheld).exists_dealt os
  have hseen : seen (.arrived [] :: os) = seen os := by
    simp [seen, bytesOf, Occurrence.bytes]
  rw [hseen] at hls
  have hleads := hy.leads
  rw [← hsaver] at hleads
  exact ⟨ls, hls, hleads⟩

theorem seen_occurrences (input : List UInt8) (shutdown : Shutdown) :
    seen (shutdown.occurrences input) = shutdown.lines input := by
  cases shutdown <;>
    simp [seen, bytesOf, Occurrence.bytes, Shutdown.occurrences, Shutdown.lines]

end Ingest

end Roster
