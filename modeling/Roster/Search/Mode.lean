import Roster.Json.Record

/-!
The two ways in which the words of a query may be looked for.
-/

namespace Roster

inductive Search.Mode where
  /-- Each word stands somewhere. -/
  | plain
  /-- The words stand together, in order. -/
  | phrase
deriving DecidableEq, Repr

namespace Search.Mode

def standard : Mode := .plain

def name : Mode → String
  | .plain => "plain"
  | .phrase => "phrase"

def all : List Mode := [.plain, .phrase]

def ofName? (s : String) : Option Mode :=
  all.find? fun m => m.name = s

def json (m : Mode) : String :=
  Json.quoted m.name

def ofJson (document : List Text.Symbol) : Except Json.Fault Mode :=
  (Json.decodeVariant (all.map name) document).map fun s => (ofName? s).getD standard

end Search.Mode

end Roster
