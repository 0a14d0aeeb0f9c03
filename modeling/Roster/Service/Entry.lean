import Roster.Event
import Roster.Log.Record
import Roster.Store.Error

/-!
What the service reports about its work, and in the course of what.
-/

namespace Roster.Service

inductive Activity where
  | creating (name : String)
  | creatingAll (count : Nat)
  | updating (id : UInt64)
  | removing (id : UInt64)
deriving DecidableEq, Repr

def Activity.span : Activity → Log.Span
  | .creating name => ⟨"team_saver::service", "create_team", [("name", .shown name)]⟩
  | .creatingAll count =>
    ⟨"team_saver::service", "multi_create_teams", [("count", .number count)]⟩
  | .updating id => ⟨"team_saver::service", "update_team", [("id", .number id.toNat)]⟩
  | .removing id => ⟨"team_saver::service", "remove_team", [("id", .number id.toNat)]⟩

inductive Entry where
  /-- An event was sent to so many listeners. -/
  | published (activity : Activity) (event : Event) (delivered : Nat)
  | created (name : String) (id : UInt64)
  /-- Of so many teams in all, a batch was created. -/
  | batchCreated (count batch size : Nat)
  | batchFailed (count batch : Nat) (error : StoreError)
  | updated (id : UInt64)
  | removed (id : UInt64)
deriving DecidableEq, Repr

def Entry.record : Entry → Log.Record
  | .published activity event delivered =>
    ⟨.trace, "team_saver::events", "Team event published",
      [("id", .number event.id.toNat), ("kind", .shown event.change.name),
        ("delivered", .number delivered)], some activity.span⟩
  | .created name id =>
    ⟨.debug, "team_saver::service", "Team created", [("id", .number id.toNat)],
      some (Activity.creating name).span⟩
  | .batchCreated count batch size =>
    ⟨.debug, "team_saver::service", "Team batch created",
      [("batch", .number batch), ("size", .number size)],
      some (Activity.creatingAll count).span⟩
  | .batchFailed count batch error =>
    ⟨.warn, "team_saver::service", "Team batch failed",
      [("batch", .number batch), ("error", .shown error.message)],
      some (Activity.creatingAll count).span⟩
  | .updated id =>
    ⟨.debug, "team_saver::service", "Team updated", [], some (Activity.updating id).span⟩
  | .removed id =>
    ⟨.debug, "team_saver::service", "Team removed", [], some (Activity.removing id).span⟩

end Roster.Service
