import Roster.Batch
import Roster.Search.Pattern
import Roster.Store.Database

/-!
The store: the table and what can be done with it. Deleted teams stay in the table and are hidden
from every operation. An operation either succeeds or leaves the store as it was.
-/

namespace Roster

namespace Store

def empty : Store := {}

def insert (s : Store) (t : Team) : Except Refusal (UInt64 × Store) :=
  if t.name ∈ s.rejected then .error .rejectedName
  else
    match s.table.append? t.name t.description (if t.deleted then 1 else 0) with
    | none => .error .full
    | some table => .ok (UInt64.ofNat table.used, { s with table })

def insertAll (s : Store) : List Team → Except Refusal (List UInt64 × Store)
  | [] => .ok ([], s)
  | t :: ts =>
    match s.insert t with
    | .error refusal => .error refusal
    | .ok (id, s) =>
      match s.insertAll ts with
      | .error refusal => .error refusal
      | .ok (ids, s) => .ok (id :: ids, s)

/-- The result of a change that may be refused, and the store afterwards. -/
def commit {α : Type} (s : Store) : Except Refusal (α × Store) → Except StoreError α × Store
  | .error refusal => (.error (.refused refusal), s)
  | .ok (a, s) => (.ok a, s)

def create (s : Store) (t : Team) : Except StoreError UInt64 × Store :=
  s.commit (s.insert t)

/-- Adds all teams or none; the result is their identifiers. -/
def addTeams (s : Store) (ts : List Team) : Except StoreError (List UInt64) × Store :=
  s.commit (s.insertAll ts)

def get (s : Store) (id : UInt64) : Except StoreError Team :=
  match s.table.find? id.toInt64 with
  | none => .error (.notFound id)
  | some r => .ok r.team

def saturate (n : UInt64) : Nat :=
  min n.toNat lastId

/-- A page of the live teams in the order of their identifiers, and the number of all of them. -/
def list (s : Store) (limit offset : UInt64) : List Team × Nat :=
  (((s.table.live.drop (saturate offset)).take (saturate limit)).map Row.team,
    s.table.live.length)

def maxPatternSize : Nat := 50000

def maxPatterns : Nat := 996

def searched (r : Row) : List Char :=
  r.name.toList ++ ' ' :: r.description.toList

/-- Whether all patterns match a text. They are tried in order up to the first that does not; a
pattern that is too long is refused when its turn comes. -/
def matchAll (text : List Char) : List (List Char) → Except Refusal Bool
  | [] => .ok true
  | p :: ps =>
    if maxPatternSize < (String.ofList p).utf8ByteSize then .error .patternTooLong
    else if Search.like p text then matchAll text ps
    else .ok false

def matching (ps : List (List Char)) : List Row → Except Refusal (List Row)
  | [] => .ok []
  | r :: rows =>
    match matchAll (searched r) ps with
    | .error refusal => .error refusal
    | .ok found =>
      match matching ps rows with
      | .error refusal => .error refusal
      | .ok rows => .ok (if found then r :: rows else rows)

/-- The live teams that a query finds, in the order of their identifiers. A query without words
finds none. -/
def search (s : Store) (query : String) (mode : Search.Mode) : Except StoreError (List Team) :=
  let ps := Search.patterns query mode
  if ps = [] then .ok []
  else if maxPatterns < ps.length then .error (.refused .tooManyPatterns)
  else
    match matching ps s.table.live with
    | .error refusal => .error (.refused refusal)
    | .ok rows => .ok (rows.map Row.team)

def change (s : Store) (id : UInt64) (f : Row → Row) (hf : ∀ r, (f r).id = r.id) :
    Except StoreError Unit × Store :=
  match s.table.find? id.toInt64 with
  | none => (.error (.notFound id), s)
  | some _ =>
    let edit := fun r : Row => if r.id = id.toInt64 && r.isLive then f r else r
    have hedit : ∀ r, (edit r).id = r.id := by
      intro r
      simp only [edit]
      split
      · exact hf r
      · rfl
    (.ok (), { s with table := s.table.update edit hedit })

/-- Gives the live team with the identifier of `t` the name and the description of `t`. -/
def update (s : Store) (t : Team) : Except StoreError Unit × Store :=
  s.change t.id (fun r => { r with name := t.name, description := t.description }) fun _ => rfl

def remove (s : Store) (id : UInt64) : Except StoreError Unit × Store :=
  s.change id (fun r => { r with mark := 1 }) fun _ => rfl

/-- Inserts a row as it is, whatever its identifier; a rejected name and an identifier that is
taken are passed over. -/
def insertRow (s : Store) (r : Row) : Store :=
  if r.name ∈ s.rejected then s else { s with table := s.table.insert r }

end Store

end Roster
