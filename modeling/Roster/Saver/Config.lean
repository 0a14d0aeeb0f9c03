/-!
Settings of a saver, and why one cannot be started or used. That the memory for a buffer cannot be
had, as with the largest capacities, is not among the reasons.
-/

namespace Roster.Saver

inductive Error where
  | zeroCapacity
  | zeroInterval
  /-- Nothing is there to run it. -/
  | noRuntime
  | closed
deriving DecidableEq, Repr

def Error.message : Error → String
  | .zeroCapacity => "saver capacity must be greater than zero"
  | .zeroInterval => "saver flush interval must be greater than zero"
  | .noRuntime => "saver must be created inside a tokio runtime"
  | .closed => "cannot save to a closed saver"

/-- How many waiting teams call for a flush, and how often one takes place anyway, in
milliseconds. -/
structure Config where
  capacity : Nat := 100
  interval : Nat := 1000
deriving DecidableEq, Repr

def Config.flaw? (c : Config) : Option Error :=
  if c.capacity = 0 then some .zeroCapacity
  else if c.interval = 0 then some .zeroInterval
  else none

end Roster.Saver
