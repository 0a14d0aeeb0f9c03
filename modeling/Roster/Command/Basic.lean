import Roster.Search.Mode

/-!
What the program can be told to do.
-/

namespace Roster

inductive Command where
  /-- Records of teams are read and stored through a saver. -/
  | ingest
  | create (name description : String)
  | get (id : UInt64)
  | list (limit offset : UInt64)
  | update (id : UInt64) (name description : String)
  | search (query : String) (mode : Search.Mode)
  | remove (id : UInt64)
deriving DecidableEq, Repr

end Roster
