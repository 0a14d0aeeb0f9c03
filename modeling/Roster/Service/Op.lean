import Roster.Service.Basic

/-!
Operations on a service and, past it, on its store, and what they yield.
-/

namespace Roster.Service

inductive Op where
  | create (d : Draft)
  | createAll (ds : List Draft)
  | get (id : UInt64)
  | list (limit offset : UInt64)
  | search (query : String) (mode : Search.Mode)
  | update (id : UInt64) (d : Draft)
  | remove (id : UInt64)
  /-- On the store itself: arguments are taken as they are and no events are sent. -/
  | storeCreate (t : Team)
  | storeAdd (ts : List Team)
  | storeSearch (query : String) (mode : Search.Mode)
  | storeUpdate (t : Team)
  /-- From now on no row may be inserted under this name. -/
  | reject (name : String)
  /-- Rows may be inserted under all names. -/
  | unreject
  /-- A row is put into the table as it is. -/
  | insertRow (r : Row)
  /-- The database is opened again, and a new service takes the place of the old one. -/
  | reopen
deriving DecidableEq, Repr

inductive Value where
  | nothing
  | id (n : UInt64)
  | ids (ns : List UInt64)
  | team (t : Team)
  | teams (ts : List Team)
  /-- A page, and the number of all live teams. -/
  | page (ts : List Team) (total : Nat)
deriving DecidableEq, Repr

def Call.map {α β : Type} (f : α → β) (call : Call α) : Call β :=
  { call with result := call.result.map f }

def direct {α : Type} (s : Service) (f : α → Value) :
    Except StoreError α × Store → Call Value
  | (.error error, _) => s.fail (.storage error)
  | (.ok a, store) => ⟨.ok (f a), [], { s with store }⟩

def silent (s : Service) : Call Value :=
  ⟨.ok .nothing, [], s⟩

def perform (s : Service) : Op → Call Value
  | .create d => (s.create d).map .id
  | .createAll ds => (s.createAll ds).map .ids
  | .get id => (s.get id).map .team
  | .list limit offset => (s.list limit offset).map fun page => .page page.1 page.2
  | .search query mode => (s.search query mode).map .teams
  | .update id d => (s.update id d).map fun _ => .nothing
  | .remove id => (s.remove id).map fun _ => .nothing
  | .storeCreate t => s.direct .id (s.store.create t)
  | .storeAdd ts => s.direct .ids (s.store.addTeams ts)
  | .storeSearch query mode => (s.answer (s.store.search query mode)).map .teams
  | .storeUpdate t => s.direct (fun _ => .nothing) (s.store.update t)
  | .reject name =>
    { s with store := { s.store with rejected := name :: s.store.rejected } }.silent
  | .unreject => { s with store := { s.store with rejected := [] } }.silent
  | .insertRow r => { s with store := s.store.insertRow r }.silent
  | .reopen =>
    match s.reopen with
    | .error error => s.fail (.storage error)
    | .ok s => s.silent

def performAll (s : Service) : List Op → List (Except Error Value) × Service
  | [] => ([], s)
  | op :: ops =>
    let call := s.perform op
    let (results, s) := performAll call.service ops
    (call.result :: results, s)

end Roster.Service
