import Roster.Json.Record
import Roster.Team.Basic

/-!
Teams and drafts as JSON. A document is one object on one line; reading accepts more spellings than
writing uses.
-/

namespace Roster

open Text (Symbol)

namespace Team

def json (t : Team) : String :=
  "\x7b\"id\":" ++ toString t.id.toNat ++ ",\"name\":" ++ Json.quoted t.name ++
    ",\"description\":" ++ Json.quoted t.description ++ ",\"is_deleted\":" ++
    toString t.deleted ++ "\x7d"

/-- The fields of a team. Only the name has to be given. -/
def shape : Json.Shape where
  title := "struct Team"
  fields := [⟨"id", .natural, some (.natural 0)⟩, ⟨"name", .text, none⟩,
    ⟨"description", .text, some (.text [])⟩, ⟨"is_deleted", .flag, some (.flag false)⟩]

def ofFields : List Json.FieldValue → Team
  | [.natural id, .text name, .text description, .flag deleted] =>
    ⟨id, String.ofList name, String.ofList description, deleted⟩
  | _ => default

def ofJson (document : List Symbol) : Except Json.Fault Team :=
  (Json.decodeRecord shape document).map ofFields

end Team

namespace Draft

def json (d : Draft) : String :=
  "\x7b\"name\":" ++ Json.quoted d.name ++ ",\"description\":" ++ Json.quoted d.description ++
    "\x7d"

/-- The fields of a draft. Only the name has to be given. -/
def shape : Json.Shape where
  title := "struct NewTeam"
  fields := [⟨"name", .text, none⟩, ⟨"description", .text, some (.text [])⟩]

def ofFields : List Json.FieldValue → Draft
  | [.text name, .text description] => ⟨String.ofList name, String.ofList description⟩
  | _ => default

def ofJson (document : List Symbol) : Except Json.Fault Draft :=
  (Json.decodeRecord shape document).map ofFields

end Draft

end Roster
