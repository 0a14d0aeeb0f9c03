import Roster.Team.Json
import Roster.Text.Lines
import Roster.Text.Utf8

/-!
What a line of input holds: nothing, a record of a team, or something that is no acceptable record.
-/

namespace Roster.Ingest

inductive Rejection where
  /-- It is not JSON of the right form. -/
  | malformed (fault : Json.Fault)
  /-- Its values are not acceptable. -/
  | invalid (flaw : Invalid)
deriving DecidableEq, Repr

def Rejection.message : Rejection → String
  | .malformed fault => "malformed JSON: " ++ fault.message
  | .invalid flaw => flaw.message

def parseRecord (record : List Char) : Except Rejection Team :=
  match Draft.ofJson (Text.ofChars record) with
  | .error fault => .error (.malformed fault)
  | .ok draft =>
    match draft.team.flaw? with
    | some flaw => .error (.invalid flaw)
    | none => .ok draft.team

inductive Line where
  /-- Blanks only, or a comment. -/
  | nothing
  | team (t : Team)
  | rejected (why : Rejection)
deriving DecidableEq, Repr

/-- What a line of characters holds. Blanks around a record do not matter. -/
def Line.ofChars (cs : List Char) : Line :=
  match Text.trim cs with
  | [] => .nothing
  | '#' :: _ => .nothing
  | record =>
    match parseRecord record with
    | .ok t => .team t
    | .error why => .rejected why

end Roster.Ingest
