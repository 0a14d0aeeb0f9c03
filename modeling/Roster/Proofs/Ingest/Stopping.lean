import Roster.Proofs.Ingest.Session
import Roster.Proofs.Saver.Accounting

/-!
What the signal to stop does. It makes no difference when it can no longer be given, and when it is
given, ingesting comes to what it would have come to at the last line feed.
-/

namespace Roster.Ingest

variable {σ : Type}

open Occurrence (isInput arrived ended signalled abandoned)
open Session (start)

def Ingested.stopped (done : Ingested σ) : Ingested σ :=
  { done with
    log := done.log ++
      match done.result with
      | .ok _ => [.interrupted]
      | .error _ => [] }

variable {m : Saver.Setup σ}

theorem stopped_takeAll (s : Saver.State σ) (ls : List (List UInt8)) :
    let x := (start s).takeAll m ls
    x.ingested.stopped =
      { x.ingested with log := x.log ++ if x.result = none then [.interrupted] else [] } := by
  intro x
  obtain hnone | ⟨e, he⟩ : x.result = none ∨ ∃ e, x.result = some (.error e) :=
    Session.result_takeAll rfl ls
  · simp only [Ingested.stopped, Session.ingested, hnone, Option.getD_none, if_true]
  · simp only [Ingested.stopped, Session.ingested, he, Option.getD_some, reduceCtorEq, if_false]

theorem attend_unsignalled (s : Saver.State σ) {os : List Occurrence} {pieces : List (List UInt8)}
    (hinput : os.filter isInput = pieces.map arrived ++ [ended])
    (h : signalled true ∉ os.takeWhile (· ≠ abandoned)) :
    attend m s os = ingest m s pieces.flatten .never := by
  rw [attend_silent s h, hinput, attend_ended, ingest_never]

/-- When the signal is given, an unfinished line has had no effect. -/
theorem attend_stopped (s : Saver.State σ) {os : List Occurrence} {pieces : List (List UInt8)}
    (hinput : os.filter isInput = pieces.map arrived) (hstop : signalled true ∉ os)
    (hheld : abandoned ∉ os) (later : List Occurrence) :
    attend m s (os ++ signalled true :: later) =
      (ingest m s (Text.finished pieces.flatten) .never).stopped := by
  rw [attend_signalled s hinput hstop hheld, ingest_never, Text.lines_finished, stopped_takeAll]

theorem ingest_afterInput (s : Saver.State σ) (input : List UInt8) :
    ingest m s input .afterInput = (ingest m s (Text.finished input) .never).stopped := by
  have hinput : [arrived input].filter isInput = [input].map arrived := rfl
  have h := attend_stopped (m := m) s hinput (by simp) (by simp) []
  rwa [List.flatten_singleton] at h

/-- The signal to stop has no effect on an ingest of an input, in whatever pieces it comes in, if
nobody is left who gives it. If it is given when the input has come in but not ended, the ingest
leaves what it leaves of the input up to its last line feed, but for the report on the signal, also
when the saver is closed afterwards. -/
theorem ingest_under_signal (m : Saver.Setup σ) (s : Saver.State σ) (pieces : List (List UInt8)) :
    let input := pieces.flatten
    (∀ os : List Occurrence, os.filter isInput = pieces.map arrived ++ [ended] →
      signalled true ∉ os.takeWhile (· ≠ abandoned) →
      attend m s os = ingest m s input .never) ∧
    ingestAndClose m s input .abandoned = ingestAndClose m s input .never ∧
    (∀ os : List Occurrence, os.filter isInput = pieces.map arrived → signalled true ∉ os →
      abandoned ∉ os → ∀ later, attend m s (os ++ signalled true :: later) =
        (ingest m s (Text.finished input) .never).stopped) ∧
    ingestAndClose m s input .afterInput =
      (ingestAndClose m s (Text.finished input) .never).stopped := by
  intro input
  refine ⟨?_, ?_, ?_, ?_⟩
  · intro os hinput h
    exact attend_unsignalled s hinput h
  · rw [ingestAndClose, ingestAndClose, ingest_abandoned]
  · intro os hinput hstop hheld later
    exact attend_stopped s hinput hstop hheld later
  · rw [ingestAndClose, ingestAndClose, ingest_afterInput]
    rfl

/-- The second line is no text, which does not matter as long as it is not finished. -/
theorem ingest_under_signal_trial :
    let s := Saver.start Saver.trial Saver.trialWorld
    let piece := "\x7b\"name\":\"a\"\x7d\n\x7b\"name".toUTF8.toList
    let lost : List Occurrence :=
      [arrived piece, abandoned, signalled true, arrived [0xFF], ended]
    let given : List Occurrence := [signalled false, arrived piece, arrived [0xFF]]
    lost.filter isInput = [piece, [0xFF]].map arrived ++ [ended] ∧
    signalled true ∉ lost.takeWhile (· ≠ abandoned) ∧
    (attend Saver.trial s lost).result = .error (.unreadable (.invalid 1 6)) ∧
    given.filter isInput = [piece, [0xFF]].map arrived ∧
    signalled true ∉ given ∧ abandoned ∉ given ∧
    (attend Saver.trial s (given ++ [signalled true, ended])).result = .ok ⟨1, 0⟩ ∧
    (attend Saver.trial s (given ++ [signalled true, ended])).log = [.interrupted] := by
  intro s piece lost given
  obtain ⟨hlost, -, hgiven, -⟩ := ingest_under_signal Saver.trial s [piece, [0xFF]]
  have hattend := hlost lost rfl (by simp [lost])
  have hattend' := hgiven given rfl (by simp [given]) (by simp [given]) [ended]
  refine ⟨rfl, by simp [lost], ?_, rfl, by simp [given], by simp [given], ?_, ?_⟩
  · rw [hattend]
    decide +kernel
  · rw [hattend']
    decide +kernel
  · rw [hattend']
    decide +kernel

end Roster.Ingest
