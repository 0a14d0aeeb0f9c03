import Roster.Pending
import Roster.Saver.Config
import Roster.Saver.Flush

/-!
The saver: a buffer of teams with one owner, who flushes it when it is full, when it is time, and
once more when the saver closes. Teams that a flush could not store stay in the buffer.

Time is virtual and moves only while everybody waits. A tick is handled when the owner is free; the
next one is due an interval after the due time of the last, or after its handling if that came more
than `patience` late. When the owner is free, a request that waits comes before a tick that is due.
-/

namespace Roster.Saver

variable {σ : Type}

/-- How late a tick may be handled before the ticks after it are put off, in milliseconds. -/
def patience : Nat := 5

structure Setup (σ : Type) where
  capacity : Nat
  interval : Nat
  chunkSize : Nat
  repo : Repo σ
  capacity_pos : 0 < capacity
  interval_pos : 0 < interval

def Config.setup (c : Config) (chunkSize : Nat) (repo : Repo σ) : Except Error (Setup σ) :=
  if hc : c.capacity = 0 then .error .zeroCapacity
  else if hi : c.interval = 0 then .error .zeroInterval
  else
    .ok ⟨c.capacity, c.interval, chunkSize, repo, Nat.pos_of_ne_zero hc, Nat.pos_of_ne_zero hi⟩

/-- A flush in progress: one chunk is being written. -/
structure Writing where
  trigger : Trigger
  /-- How many teams the flush was given. -/
  pending : Nat
  /-- The number of the chunk that is being written, the chunk, and its answer to come. -/
  index : Nat
  chunk : List Team
  outcome : Except StoreError (List UInt64)
  /-- When the answer comes. -/
  ends : Nat
  /-- The chunks still to be written. -/
  rest : List (List Team)
  /-- The teams kept so far. -/
  failed : List Team

inductive Phase where
  | waiting
  | writing (w : Writing)
  | closed

structure State (σ : Type) where
  clock : Nat := 0
  /-- When the next tick is due. -/
  due : Nat
  phase : Phase := .waiting
  buffer : List Team := []
  world : σ
  /-- Whether each handle ever made is still held. -/
  handles : List Bool := [true]
  log : List Entry

variable (m : Setup σ)

def start (world : σ) : State σ :=
  { due := m.interval, world, log := [.started m.capacity m.interval] }

namespace State

def isHeld (s : State σ) : Bool :=
  s.handles.any id

def holds (s : State σ) (handle : Nat) : Bool :=
  s.handles.getD handle false

def report (s : State σ) (entries : List Entry) : State σ :=
  { s with log := s.log ++ entries }

def wake (s : State σ) (time : Nat) : State σ :=
  { s with clock := max s.clock time }

/-- Ends a flush: what was kept goes back into the buffer, and the owner is free again, or the
saver is closed. -/
def finish (s : State σ) (trigger : Trigger) (pending : Nat) (failed : List Team) : State σ :=
  let s := s.report
    (if failed = [] then [] else [.incomplete trigger failed.length pending])
  let s := { s with buffer := ((⟨m.capacity, s.buffer⟩ : Pending Team).restore failed).items }
  match trigger with
  | .shutdown =>
    { s.report ((if s.buffer = [] then [] else [.unsaved s.buffer.length]) ++ [.closed]) with
      phase := .closed }
  | _ => { s with phase := .waiting }

def sendNext (s : State σ) (trigger : Trigger) (pending index : Nat) (failed : List Team) :
    List (List Team) → State σ
  | [] => s.finish m trigger pending failed
  | chunk :: rest =>
    let (world, reply) := m.repo s.world chunk
    { s with
      world
      phase := .writing
        ⟨trigger, pending, index, chunk, reply.outcome, s.clock + reply.delay, rest, failed⟩ }

def beginFlush (s : State σ) (trigger : Trigger) : State σ :=
  let ts := s.buffer
  let s := { s with buffer := ((⟨m.capacity, s.buffer⟩ : Pending Team).clear).items }
  let s := s.report [.flushing trigger ts.length]
  match chunks m.chunkSize ts with
  | [] => (s.report (discard m.chunkSize ts)).finish m trigger ts.length []
  | cs => s.sendNext m trigger ts.length 0 [] cs

def takeAnswer (s : State σ) (w : Writing) : State σ :=
  (s.report [.ofAnswer w.index w.chunk w.outcome]).sendNext m w.trigger w.pending (w.index + 1)
    (w.failed ++ kept w.chunk w.outcome) w.rest

/-- Handles a tick: the next one is set, and a flush begins. -/
def tick (s : State σ) : State σ :=
  let due := if s.due + patience < s.clock then s.clock + m.interval else s.due + m.interval
  { s with due }.beginFlush m .interval

/-- What the owner does next on its own, if that happens by the given time: take an answer, notice
that nobody holds the saver, or handle a tick. -/
def step? (s : State σ) (limit : Nat) : Option (State σ) :=
  match s.phase with
  | .closed => none
  | .writing w => if w.ends ≤ limit then some ((s.wake w.ends).takeAnswer m w) else none
  | .waiting =>
    if s.isHeld = false then some ((s.report [.abandoned]).beginFlush m .shutdown)
    else if s.due ≤ limit then some ((s.wake s.due).tick m)
    else none

/-! ## The owner goes on until there is nothing to do -/

def callsLeft (s : State σ) : Nat :=
  match s.phase with
  | .writing w => w.rest.length + 1
  | _ => 0

/-- Zero once the last flush has begun. -/
def openness (s : State σ) : Nat :=
  match s.phase with
  | .waiting => 1
  | .writing w => if w.trigger = .shutdown then 0 else 1
  | .closed => 0

theorem due_finish (s : State σ) (trigger : Trigger) (pending : Nat) (failed : List Team) :
    (s.finish m trigger pending failed).due = s.due := by
  cases trigger <;> rfl

theorem due_sendNext (s : State σ) (trigger : Trigger) (pending index : Nat) (failed : List Team)
    (cs : List (List Team)) : (s.sendNext m trigger pending index failed cs).due = s.due := by
  cases cs with
  | nil => exact due_finish ..
  | cons c cs => rfl

theorem due_beginFlush (s : State σ) (trigger : Trigger) :
    (s.beginFlush m trigger).due = s.due := by
  unfold beginFlush
  dsimp only
  split
  · exact due_finish ..
  · exact due_sendNext ..

theorem openness_finish (s : State σ) (trigger : Trigger) (pending : Nat) (failed : List Team) :
    (s.finish m trigger pending failed).openness = if trigger = .shutdown then 0 else 1 := by
  cases trigger <;> rfl

theorem openness_sendNext (s : State σ) (trigger : Trigger) (pending index : Nat)
    (failed : List Team) (cs : List (List Team)) :
    (s.sendNext m trigger pending index failed cs).openness =
      if trigger = .shutdown then 0 else 1 := by
  cases cs with
  | nil => exact openness_finish ..
  | cons c cs => rfl

theorem openness_beginFlush (s : State σ) (trigger : Trigger) :
    (s.beginFlush m trigger).openness = if trigger = .shutdown then 0 else 1 := by
  unfold beginFlush
  dsimp only
  split
  · exact openness_finish ..
  · exact openness_sendNext ..

theorem callsLeft_sendNext (s : State σ) (trigger : Trigger) (pending index : Nat)
    (failed : List Team) (cs : List (List Team)) :
    (s.sendNext m trigger pending index failed cs).callsLeft = cs.length := by
  cases cs with
  | nil => cases trigger <;> rfl
  | cons c cs => rfl

theorem callsLeft_takeAnswer (s : State σ) (w : Writing) :
    (s.takeAnswer m w).callsLeft = w.rest.length :=
  callsLeft_sendNext ..

theorem due_takeAnswer (s : State σ) (w : Writing) : (s.takeAnswer m w).due = s.due :=
  due_sendNext ..

theorem openness_takeAnswer (s : State σ) (w : Writing) :
    (s.takeAnswer m w).openness = if w.trigger = .shutdown then 0 else 1 :=
  openness_sendNext ..

theorem lt_due_tick (s : State σ) : s.due < (s.tick m).due := by
  have := m.interval_pos
  simp only [tick, due_beginFlush]
  split <;> omega

/-- Everything the owner does on its own brings it closer to having nothing to do. -/
theorem step?_lt {s s' : State σ} {limit : Nat} (h : s.step? m limit = some s') :
    Prod.Lex (· < ·) (Prod.Lex (· < ·) (· < ·))
      (limit + 1 - s'.due, s'.openness, s'.callsLeft)
      (limit + 1 - s.due, s.openness, s.callsLeft) := by
  unfold step? at h
  split at h
  · cases h
  · rename_i w hw
    split at h
    · cases h
      have hd : ((s.wake w.ends).takeAnswer m w).due = s.due := due_takeAnswer ..
      have ho : ((s.wake w.ends).takeAnswer m w).openness = s.openness := by
        rw [openness_takeAnswer]
        simp only [openness, hw]
      rw [hd, ho, callsLeft_takeAnswer]
      refine .right _ (.right _ ?_)
      simp only [callsLeft, hw]
      omega
    · cases h
  · rename_i hw
    split at h
    · cases h
      have hd : ((s.report [.abandoned]).beginFlush m .shutdown).due = s.due :=
        due_beginFlush ..
      rw [hd, openness_beginFlush]
      refine .right _ (.left _ _ ?_)
      simp [openness, hw]
    · split at h
      · cases h
        refine .left _ _ ?_
        have : s.due < ((s.wake s.due).tick m).due := lt_due_tick m (s.wake s.due)
        omega
      · cases h

/-- Lets the owner do everything that it does on its own by the given time. -/
def run (limit : Nat) (s : State σ) : State σ :=
  match _h : s.step? m limit with
  | none => s
  | some s' => run limit s'
termination_by (limit + 1 - s.due, s.openness, s.callsLeft)
decreasing_by exact step?_lt m _h

/-- Lets the owner do everything that it does on its own without time passing. -/
def settle (s : State σ) : State σ :=
  s.run m s.clock

/-- The state after so many milliseconds in which nobody asks for anything. -/
def advance (s : State σ) (time : Nat) : State σ :=
  { s.run m (s.clock + time) with clock := s.clock + time }

def await (s : State σ) : State σ :=
  match _h : s.phase with
  | .writing w => ((s.wake w.ends).takeAnswer m w).await
  | _ => s
termination_by s.callsLeft
decreasing_by
  rw [callsLeft_takeAnswer]
  simp only [callsLeft, _h]
  omega

end State

/-! ## Requests -/

inductive Request where
  | save (t : Team)
  | close
deriving DecidableEq, Repr

inductive Answer where
  /-- The team is in the buffer. -/
  | saved
  /-- The saver takes no more teams. -/
  | refused
  /-- The saver is closed. -/
  | closed
deriving DecidableEq, Repr

namespace State

/-- Whether the saver takes teams, as its holders see it. -/
def isClosed (s : State σ) : Bool :=
  match s.phase with
  | .closed => true
  | _ => false

/-- Puts a team into the buffer, and begins a flush if the buffer is then full. -/
def accept (s : State σ) (t : Team) : State σ :=
  let buffer := (⟨m.capacity, s.buffer⟩ : Pending Team).push t
  let s := { s with buffer := buffer.items }
  if buffer.isFull then s.beginFlush m .capacity else s

/-- A request that nobody else competes with. It waits for the flush in progress; only a save that
comes during the last flush is refused at once. A team is acknowledged when it is in the buffer,
before the flush that it may call for; closing is answered after the last flush. -/
def submit (s : State σ) : Request → State σ × Answer
  | .save t => if s.openness = 0 then (s, .refused) else ((s.await m).accept m t, .saved)
  | .close =>
    if s.openness = 0 then (s.await m, .closed)
    else (((s.await m).beginFlush m .shutdown).await m, .closed)

/-- Requests one after another. -/
def submitAll (s : State σ) : List Request → State σ × List Answer
  | [] => (s, [])
  | r :: rs =>
    let (s, answer) := s.submit m r
    let (s, answers) := s.submitAll rs
    (s, answer :: answers)

end State

end Roster.Saver
