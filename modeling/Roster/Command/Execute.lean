import Roster.Command.Basic
import Roster.Service.Basic
import Roster.Team.Json

/-!
Executing one command on a service: its result and the events that it caused, one line each, or why
it failed.
-/

namespace Roster.Command

inductive Failure where
  /-- It does not end after one call. -/
  | notOneShot
  | service (error : Service.Error)
deriving DecidableEq, Repr

def Failure.chain : Failure → List String
  | .notOneShot => ["ingest is not a one-shot command"]
  | .service error => error.chain

structure Executed where
  result : Except Failure (List String)
  log : List Service.Entry
  service : Service

def teamsJson (ts : List Team) : String :=
  "[" ++ String.intercalate "," (ts.map Team.json) ++ "]"

def createdLine (id : UInt64) : String :=
  "\x7b\"id\":" ++ toString id.toNat ++ "\x7d"

def pageLine (page : List Team × Nat) : String :=
  "\x7b\"total\":" ++ toString page.2 ++ ",\"teams\":" ++ teamsJson page.1 ++ "\x7d"

def foundLine (ts : List Team) : String :=
  "\x7b\"teams\":" ++ teamsJson ts ++ "\x7d"

def afterCall {α : Type} (lines : α → List String) (call : Service.Call α) : Executed :=
  ⟨match call.result with
    | .error error => .error (.service error)
    | .ok a => .ok (lines a), call.log, call.service⟩

def perform (s : Service) : Command → Executed
  | .ingest => ⟨.error .notOneShot, [], s⟩
  | .create name description =>
    afterCall (fun id => [createdLine id]) (s.create ⟨name, description⟩)
  | .get id => afterCall (fun t => [t.json]) (s.get id)
  | .list limit offset => afterCall (fun page => [pageLine page]) (s.list limit offset)
  | .update id name description => afterCall (fun _ => []) (s.update id ⟨name, description⟩)
  | .search query mode => afterCall (fun ts => [foundLine ts]) (s.search query mode)
  | .remove id => afterCall (fun _ => []) (s.remove id)

/-- Executes a command. It listens to the events from its beginning to its end and prints them
after its result; a command that fails prints nothing. -/
def execute (s : Service) (command : Command) : Executed :=
  let listener := s.bus.listeners.length
  let done := perform { s with bus := s.bus.subscribe } command
  let (events, bus) := done.service.bus.drain listener
  { done with
    result := done.result.map fun lines => lines ++ events.map Event.json
    service := { done.service with bus := bus.unsubscribe listener } }

end Roster.Command
