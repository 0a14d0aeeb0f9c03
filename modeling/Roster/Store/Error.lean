/-!
Why the store refuses an operation.
-/

namespace Roster

inductive Refusal where
  /-- A row with this name may not be inserted. -/
  | rejectedName
  /-- There is no identifier left. -/
  | full
  /-- The store may only be read. -/
  | readOnly
  /-- A search pattern is too long. -/
  | patternTooLong
  /-- A search has too many patterns. -/
  | tooManyPatterns
deriving DecidableEq, Repr

def Refusal.message : Refusal → String
  | .rejectedName => "insert rejected"
  | .full => "database or disk is full"
  | .readOnly => "attempt to write a readonly database"
  | .patternTooLong => "LIKE or GLOB pattern too complex"
  | .tooManyPatterns => "Expression tree is too large (maximum depth 1000)"

def Refusal.code : Refusal → String
  | .rejectedName => "Error code 1811: A RAISE function within a trigger fired"
  | .full => "Error code 13: Insertion failed because database is full"
  | .readOnly => "Error code 8: Attempt to write a readonly database"
  | .patternTooLong | .tooManyPatterns => "Error code 1: SQL error or missing database"

inductive StoreError where
  | refused (refusal : Refusal)
  /-- No live team has this identifier. -/
  | notFound (id : UInt64)
  /-- The store cannot be reached. -/
  | unavailable (reason : String)
  /-- No connection to the store can be had. -/
  | unreachable (reason : String)
deriving DecidableEq, Repr

namespace StoreError

def connecting (reason : String) : String :=
  "timed out waiting for connection: " ++ reason

def message : StoreError → String
  | .refused refusal => "Database error: " ++ refusal.message
  | .notFound id => "Team not found: " ++ toString id.toNat
  | .unavailable reason => "Storage unavailable: " ++ reason
  | .unreachable reason => "Failed to get pooled connection: " ++ connecting reason

def chain : StoreError → List String
  | .refused refusal => [message (.refused refusal), refusal.message, refusal.code]
  | .unreachable reason => [message (.unreachable reason), connecting reason]
  | e => [e.message]

end StoreError

end Roster
