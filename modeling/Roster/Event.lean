/-!
Events about teams, and the bus that carries them to whoever listens.

Every listener has a backlog of the events it has not received. The bus remembers a bounded number
of events: a listener whose backlog has outgrown that number is told once how many it has lost and
goes on with the newest ones. An event that nobody listens to is lost.
-/

namespace Roster

inductive Change where
  | created
  | updated
  | removed
deriving DecidableEq, Repr

def Change.name : Change → String
  | .created => "Created"
  | .updated => "Updated"
  | .removed => "Removed"

structure Event where
  id : UInt64
  change : Change
deriving DecidableEq, Repr

def Event.json (e : Event) : String :=
  "\x7b\"id\":" ++ toString e.id.toNat ++ ",\"event\":\"" ++ e.change.name ++ "\"\x7d"

inductive Delivery where
  | event (e : Event)
  /-- So many events were lost. -/
  | lagged (count : Nat)
  /-- Nothing waits, but more may come. -/
  | empty
  /-- Nothing waits and nothing will come. -/
  | closed
deriving DecidableEq, Repr

/-- The least power of two that is at least the given number. -/
def roundUp (n : Nat) : Nat :=
  if n ≤ 1 then 1 else 1 <<< (Nat.log2 (n - 1) + 1)

theorem le_roundUp (n : Nat) : n ≤ roundUp n := by
  unfold roundUp
  split
  · assumption
  · have := Nat.lt_log2_self (n := n - 1)
    rw [Nat.one_shiftLeft]
    omega

theorem roundUp_pos (n : Nat) : 0 < roundUp n := by
  unfold roundUp
  split
  · omega
  · rw [Nat.one_shiftLeft]
    exact Nat.two_pow_pos _

/-- A bus and its listeners. A listener that has left keeps its number. -/
structure Bus where
  /-- How many events a listener may fall behind. -/
  reach : Nat
  /-- Whether events can still be sent. -/
  isOpen : Bool := true
  /-- The backlog of each listener, oldest event first. -/
  listeners : List (Option (List Event)) := []
deriving DecidableEq, Repr

namespace Bus

/-- A bus for listeners that fall behind by the given number of events, rounded up to a power of
two; there is none for zero. Numbers so large that no memory could be had are not refused here. -/
def ofCapacity? (capacity : Nat) : Option Bus :=
  if capacity = 0 then none else some { reach := roundUp capacity }

def count (bus : Bus) : Nat :=
  bus.listeners.countP Option.isSome

/-- One more listener, which gets every event from now on. On a closed bus it has already left. -/
def subscribe (bus : Bus) : Bus :=
  { bus with listeners := bus.listeners ++ [if bus.isOpen then some [] else none] }

def listens (bus : Bus) (i : Nat) : Bool :=
  (bus.listeners[i]?.join).isSome

def unsubscribe (bus : Bus) (i : Nat) : Bus :=
  { bus with listeners := bus.listeners.set i none }

def reached (bus : Bus) : Nat :=
  if bus.isOpen then bus.count else 0

def notify (bus : Bus) (e : Event) : Bus :=
  if bus.isOpen then { bus with listeners := bus.listeners.map (·.map (· ++ [e])) } else bus

def close (bus : Bus) : Bus :=
  { bus with isOpen := false }

def next (bus : Bus) (backlog : List Event) : Delivery × List Event :=
  if bus.reach < backlog.length then
    (.lagged (backlog.length - bus.reach), backlog.drop (backlog.length - bus.reach))
  else
    match backlog with
    | [] => (if bus.isOpen then .empty else .closed, [])
    | e :: rest => (.event e, rest)

def receive (bus : Bus) (i : Nat) : Option Delivery × Bus :=
  match bus.listeners[i]?.join with
  | none => (none, bus)
  | some backlog =>
    let (delivery, rest) := bus.next backlog
    (some delivery, { bus with listeners := bus.listeners.set i (some rest) })

/-- All events that a listener gets before it would have to wait or learns that it has lost some,
and the bus afterwards. -/
def drain (bus : Bus) (i : Nat) : List Event × Bus :=
  match bus.listeners[i]?.join with
  | none => ([], bus)
  | some backlog =>
    if bus.reach < backlog.length then ([], (bus.receive i).2)
    else (backlog, { bus with listeners := bus.listeners.set i (some []) })

end Bus

end Roster
