import Roster.Log.Record

/-!
What the store reports about its work.
-/

namespace Roster.Store

inductive Entry where
  /-- A batch of so many teams was added. -/
  | inserted (count : Nat)
deriving DecidableEq, Repr

def Entry.record : Entry → Log.Record
  | .inserted count =>
    ⟨.trace, "team_saver::storage::store", "Inserted team batch", [("count", .number count)], none⟩

end Roster.Store
