import Roster.Store.Error
import Roster.Team.Basic

/-!
Why the service does not do what it is asked for.
-/

namespace Roster.Service

inductive Error where
  /-- An argument is not acceptable. -/
  | invalid (flaw : Invalid)
  /-- The store refuses. -/
  | storage (error : StoreError)
  /-- Some teams were created, with the given identifiers, before the store refused. -/
  | incomplete (created : List UInt64) (error : StoreError)
deriving DecidableEq, Repr

namespace Error

def message : Error → String
  | .invalid flaw => "invalid argument: " ++ flaw.message
  | .storage error => "storage error: " ++ error.message
  | .incomplete created error =>
    "bulk create stopped after " ++ toString created.length ++ " teams: " ++ error.message

def chain : Error → List String
  | .invalid flaw => [message (.invalid flaw), flaw.message]
  | .storage error => message (.storage error) :: error.chain
  | .incomplete created error => message (.incomplete created error) :: error.chain

def isNotFound : Error → Bool
  | .storage (.notFound _) => true
  | _ => false

end Error

end Roster.Service
