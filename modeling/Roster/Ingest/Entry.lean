import Roster.Ingest.Line
import Roster.Log.Record

/-!
What ingesting reports: its beginning, every skipped record, and its end.
-/

namespace Roster.Ingest

structure Report where
  accepted : Nat := 0
  rejected : Nat := 0
deriving DecidableEq, Repr

inductive Entry where
  | started (capacity interval chunkSize : Nat)
  /-- The record on the line of the given number, counted from one, was skipped. -/
  | skipped (line : Nat) (why : Rejection)
  /-- Reading was asked to stop. -/
  | interrupted
  | finished (report : Report)
deriving DecidableEq, Repr

def Entry.isFinished : Entry → Bool
  | .finished _ => true
  | _ => false

def Entry.record : Entry → Log.Record
  | .started capacity interval chunkSize =>
    ⟨.info, "team_saver::app", "Ingesting teams",
      [("capacity", .number capacity), ("flush_interval_ms", .number interval),
        ("chunk_size", .number chunkSize)], none⟩
  | .skipped line why =>
    ⟨.warn, "team_saver::app", "Skipping record",
      [("line", .number line), ("error", .shown why.message)], none⟩
  | .interrupted =>
    ⟨.info, "team_saver::app", "Shutdown requested, no longer reading input", [], none⟩
  | .finished report =>
    ⟨.info, "team_saver::app", "Ingest finished",
      [("accepted", .number report.accepted), ("rejected", .number report.rejected)], none⟩

end Roster.Ingest
