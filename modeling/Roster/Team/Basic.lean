import Roster.Text.Blank
import Roster.Text.Quoted

/-!
Teams, the drafts they are made from, and what makes a team's fields acceptable.
-/

namespace Roster

/-- A team. The identifier is zero until the team is stored. -/
structure Team where
  id : UInt64 := 0
  name : String
  description : String := ""
  deleted : Bool := false
deriving DecidableEq, Repr, Inhabited

structure Draft where
  name : String
  description : String := ""
deriving DecidableEq, Repr, Inhabited

def Draft.team (d : Draft) : Team :=
  { name := d.name, description := d.description }

def maxNameLength : Nat := 255

def maxDescriptionLength : Nat := 4096

inductive Invalid where
  | emptyName
  | nameTooLong (length : Nat)
  | descriptionTooLong (length : Nat)
  | emptyQuery
deriving DecidableEq, Repr

def Invalid.message : Invalid → String
  | .emptyName => "team name cannot be empty"
  | .nameTooLong n =>
    "team name too long: " ++ toString n ++ " characters (max " ++ toString maxNameLength ++ ")"
  | .descriptionTooLong n =>
    "team description too long: " ++ toString n ++ " characters (max " ++
      toString maxDescriptionLength ++ ")"
  | .emptyQuery => "search query cannot be empty"

def Text.isEmpty (s : String) : Bool :=
  s.toList.all isBlank

namespace Team

def isStored (t : Team) : Bool :=
  t.id != 0

def flaw? (t : Team) : Option Invalid :=
  if Text.isEmpty t.name then some .emptyName
  else if maxNameLength < t.name.length then some (.nameTooLong t.name.length)
  else if maxDescriptionLength < t.description.length then
    some (.descriptionTooLong t.description.length)
  else none

def display (t : Team) : String :=
  "team#" ++ toString t.id.toNat ++ " " ++ String.ofList (Text.quoted t.name.toList) ++
    (if t.deleted then " (deleted)" else "")

end Team

end Roster
