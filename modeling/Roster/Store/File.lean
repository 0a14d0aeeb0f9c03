import Roster.Store.Basic
import Roster.Team.Json
import Roster.Text.Integer
import Roster.Text.Lines
import Roster.Text.Utf8

/-!
The file that a store is kept in: the largest identifier ever used on a line of its own, then a line
for each row: its identifier, its mark, and its name and description as a JSON object.
-/

namespace Roster

def Row.line (r : Row) : String :=
  toString r.id.toInt ++ " " ++ toString r.mark.toInt ++ " " ++
    (Draft.json ⟨r.name, r.description⟩)

def Row.number? (cs : List Char) : Option (Int64 × List Char) :=
  let number := cs.takeWhile (· != ' ')
  match Text.readInteger (-0x8000000000000000) 0x7FFFFFFFFFFFFFFF number with
  | .error _ => none
  | .ok n => some (Int64.ofInt n, cs.drop (number.length + 1))

def Row.ofLine? (cs : List Char) : Option Row :=
  match number? cs with
  | none => none
  | some (id, cs) =>
    match number? cs with
    | none => none
    | some (mark, cs) =>
      match Draft.ofJson (Text.ofChars cs) with
      | .error _ => none
      | .ok d => some ⟨id, d.name, d.description, mark⟩

namespace Table

def text (t : Table) : String :=
  toString t.used ++ "\n" ++ String.join (t.rows.map fun r => r.line ++ "\n")

def reserve (t : Table) (n : Nat) : Table where
  rows := t.rows
  used := max t.used (min n lastId)
  sorted := t.sorted
  id_le_used := fun r hr => by
    have := t.id_le_used r hr
    omega
  used_le := by
    have := t.used_le
    omega

def ofLines? : List (List Char) → Option Table
  | [] => some .empty
  | first :: lines =>
    match Text.readInteger 0 lastId first, lines.mapM Row.ofLine? with
    | .ok n, some rows => some ((rows.foldl insert empty).reserve n.toNat)
    | _, _ => none

end Table

def Store.ofBytes? (bytes : List UInt8) : Option Store :=
  match (Text.lines bytes).mapM fun line => (Text.Utf8.decode line).toOption with
  | none => none
  | some lines => (Table.ofLines? lines).map fun table => { table }

end Roster
