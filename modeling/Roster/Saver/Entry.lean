import Roster.Log.Record
import Roster.Store.Error

/-!
What a saver reports about its work.
-/

namespace Roster.Saver

inductive Trigger where
  /-- The buffer is full. -/
  | capacity
  /-- It is time. -/
  | interval
  /-- The saver closes. -/
  | shutdown
deriving DecidableEq, Repr

def Trigger.name : Trigger → String
  | .capacity => "Capacity"
  | .interval => "Interval"
  | .shutdown => "Shutdown"

inductive Entry where
  | started (capacity interval : Nat)
  /-- A flush of so many teams begins. -/
  | flushing (trigger : Trigger) (pending : Nat)
  /-- A chunk was stored. -/
  | written (chunk count : Nat)
  /-- A chunk was refused and is kept. -/
  | failed (chunk size : Nat) (error : StoreError)
  /-- Teams were dropped because chunks have size zero. -/
  | discarded (count chunkSize : Nat)
  /-- A flush ended with so many teams kept. -/
  | incomplete (trigger : Trigger) (failed pending : Nat)
  /-- Nobody holds the saver any more. -/
  | abandoned
  /-- So many teams were never stored. -/
  | unsaved (count : Nat)
  | closed
deriving DecidableEq, Repr

def Entry.record : Entry → Log.Record
  | .started capacity interval =>
    ⟨.debug, "team_saver::pipeline::saver", "Saver started",
      [("capacity", .number capacity), ("interval_ms", .number interval)], none⟩
  | .flushing trigger pending =>
    ⟨.debug, "team_saver::pipeline::saver", "Flushing saver buffer",
      [("trigger", .shown trigger.name), ("pending", .number pending)], none⟩
  | .written chunk count =>
    ⟨.debug, "team_saver::pipeline::flusher", "Chunk persisted",
      [("chunk", .number chunk), ("written", .number count)], none⟩
  | .failed chunk size error =>
    ⟨.warn, "team_saver::pipeline::flusher", "Chunk write failed, keeping for retry",
      [("chunk", .number chunk), ("size", .number size), ("error", .shown error.message)], none⟩
  | .discarded count chunkSize =>
    ⟨.warn, "team_saver::pipeline::flusher", "Chunk size is zero, nothing written",
      [("dropped", .number count), ("chunk_size", .number chunkSize)], none⟩
  | .incomplete trigger count pending =>
    ⟨.warn, "team_saver::pipeline::saver", "Flush incomplete, retaining failed teams",
      [("trigger", .shown trigger.name), ("failed", .number count),
        ("pending", .number pending)], none⟩
  | .abandoned => ⟨.debug, "team_saver::pipeline::saver", "All saver handles dropped", [], none⟩
  | .unsaved count =>
    ⟨.warn, "team_saver::pipeline::saver", "Saver closed with unpersisted teams",
      [("unsaved", .number count)], none⟩
  | .closed => ⟨.debug, "team_saver::pipeline::saver", "Saver closed", [], none⟩

end Roster.Saver
