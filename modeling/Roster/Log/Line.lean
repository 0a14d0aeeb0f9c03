import Roster.Json.Text
import Roster.Log.Record
import Roster.Settings

/-!
Log records as lines: as text, or as JSON objects.
-/

namespace Roster.Log

inductive Line where
  | text (s : String)
  /-- A JSON object. -/
  | json (s : String)
deriving DecidableEq, Repr

def Line.toText : Line → String
  | .text s => s
  | .json s => s

def Value.toText : Value → String
  | .number n => toString n
  | .text s => String.ofList (Text.quoted s.toList)
  | .shown s => s

def Value.json : Value → String
  | .number n => toString n
  | .text s => Json.quoted s
  | .shown s => Json.quoted s

def fieldsText (fields : List (String × Value)) : String :=
  String.intercalate " " (fields.map fun (name, value) => name ++ "=" ++ value.toText)

def fieldsJson (fields : List (String × Value)) : String :=
  "\x7b" ++
    String.intercalate ","
      (fields.map fun (name, value) => Json.quoted name ++ ":" ++ value.json) ++
    "\x7d"

def Span.toText (s : Span) : String :=
  s.name ++ (if s.fields = [] then "" else "\x7b" ++ fieldsText s.fields ++ "\x7d") ++ ": "

def Span.json (s : Span) : String :=
  fieldsJson (s.fields ++ [("name", .text s.name)])

def threadText (thread : Nat) : String :=
  "ThreadId(" ++ (if thread < 10 then "0" else "") ++ toString thread ++ ")"

def Record.toText (thread : Nat) (r : Record) : String :=
  r.level.name ++ " " ++ threadText thread ++ " " ++ (r.span.map Span.toText).getD "" ++ r.target ++
    ": " ++ r.message ++ (if r.fields = [] then "" else " " ++ fieldsText r.fields)

def Record.json (r : Record) : String :=
  "\x7b\"level\":" ++ Json.quoted r.level.name ++ ",\"fields\":" ++
    fieldsJson (("message", .text r.message) :: r.fields) ++
    ",\"target\":" ++ Json.quoted r.target ++
    (match r.span with
      | none => ""
      | some s => ",\"span\":" ++ s.json ++ ",\"spans\":[" ++ s.json ++ "]") ++
    "\x7d"

def Record.line (format : Format) (thread : Nat) (r : Record) : Line :=
  match format with
  | .text => .text (r.toText thread)
  | .json => .json r.json

end Roster.Log
