import Roster.Batch
import Roster.Event
import Roster.Service.Entry
import Roster.Service.Error
import Roster.Store.Basic

/-!
The service: what can be asked about teams. Arguments are looked at first, then the store is
changed, and only when that has succeeded an event is sent. Many teams at once are created in
batches, up to the first batch that the store refuses; no events are sent for them.
-/

namespace Roster

structure Service where
  store : Store
  bus : Bus
  batchSize : Nat
  batchSize_pos : 0 < batchSize

namespace Service

/-- A service over a store; a batch has at least one team. -/
def ofStore (store : Store) (bus : Bus) (batchSize : Nat) : Service :=
  ⟨store, bus, max batchSize 1, by omega⟩

structure Call (α : Type) where
  result : Except Error α
  log : List Entry
  service : Service

def fail {α : Type} (s : Service) (error : Error) : Call α :=
  ⟨.error error, [], s⟩

def answer {α : Type} (s : Service) : Except StoreError α → Call α
  | .error error => s.fail (.storage error)
  | .ok a => ⟨.ok a, [], s⟩

def announce {α : Type} (s : Service) (store : Store) (activity : Activity) (event : Event)
    (entry : Entry) (a : α) : Call α :=
  ⟨.ok a, [.published activity event s.bus.reached, entry],
    { s with store, bus := s.bus.notify event }⟩

def create (s : Service) (d : Draft) : Call UInt64 :=
  match d.team.flaw? with
  | some flaw => s.fail (.invalid flaw)
  | none =>
    match s.store.create d.team with
    | (.error error, _) => s.fail (.storage error)
    | (.ok id, store) => s.announce store (.creating d.name) ⟨id, .created⟩ (.created d.name id) id

def flawAmong? (ds : List Draft) : Option Invalid :=
  ds.findSome? fun d => d.team.flaw?

/-- Creates batches of teams, the first of them having the given number, after so many teams have
got the identifiers `created`. -/
def createBatches (s : Service) (count batch : Nat) (created : List UInt64) :
    List (List Team) → Call (List UInt64)
  | [] => ⟨.ok created, [], s⟩
  | ts :: rest =>
    match s.store.addTeams ts with
    | (.error error, _) =>
      ⟨.error (.incomplete created error), [.batchFailed count batch error], s⟩
    | (.ok ids, store) =>
      let call := createBatches { s with store } count (batch + 1) (created ++ ids) rest
      { call with log := .batchCreated count batch ts.length :: call.log }

def createAll (s : Service) (ds : List Draft) : Call (List UInt64) :=
  match flawAmong? ds with
  | some flaw => s.fail (.invalid flaw)
  | none => s.createBatches ds.length 0 [] (chunks s.batchSize (ds.map Draft.team))

def get (s : Service) (id : UInt64) : Call Team :=
  s.answer (s.store.get id)

def list (s : Service) (limit offset : UInt64) : Call (List Team × Nat) :=
  s.answer (.ok (s.store.list limit offset))

def search (s : Service) (query : String) (mode : Search.Mode) : Call (List Team) :=
  if Text.isEmpty query then s.fail (.invalid .emptyQuery)
  else s.answer (s.store.search query mode)

def update (s : Service) (id : UInt64) (d : Draft) : Call Unit :=
  let t := { d.team with id }
  match t.flaw? with
  | some flaw => s.fail (.invalid flaw)
  | none =>
    match s.store.update t with
    | (.error error, _) => s.fail (.storage error)
    | (.ok (), store) => s.announce store (.updating id) ⟨id, .updated⟩ (.updated id) ()

def remove (s : Service) (id : UInt64) : Call Unit :=
  match s.store.remove id with
  | (.error error, _) => s.fail (.storage error)
  | (.ok (), store) => s.announce store (.removing id) ⟨id, .removed⟩ (.removed id) ()

/-- A new service over the database of the store, which is opened again. -/
def reopen (s : Service) : Except StoreError Service :=
  (s.store.toDatabase.openStore .write).map fun store => ofStore store s.bus s.batchSize

end Service

end Roster
