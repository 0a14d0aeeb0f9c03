/-!
Log records: a level, the part of the program that speaks, a message and named values.
-/

namespace Roster.Log

inductive Level where
  | error
  | warn
  | info
  | debug
  | trace
deriving DecidableEq, Repr

def Level.name : Level → String
  | .error => "ERROR"
  | .warn => "WARN"
  | .info => "INFO"
  | .debug => "DEBUG"
  | .trace => "TRACE"

/-- The rank of a level: the higher, the more is said. -/
def Level.rank : Level → Nat
  | .error => 1
  | .warn => 2
  | .info => 3
  | .debug => 4
  | .trace => 5

inductive Value where
  | number (n : Nat)
  /-- A text that is shown between quotes. -/
  | text (s : String)
  /-- A text that is shown as it is. -/
  | shown (s : String)
deriving DecidableEq, Repr

structure Span where
  target : String
  name : String
  fields : List (String × Value)
deriving DecidableEq, Repr

def Span.level : Level := .info

structure Record where
  level : Level
  target : String
  message : String
  fields : List (String × Value) := []
  span : Option Span := none
deriving DecidableEq, Repr

end Roster.Log
