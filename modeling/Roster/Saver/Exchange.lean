import Roster.Saver.Basic

/-!
How requests that are made at the same time reach the owner of a saver. They go through a channel
with one place, and wait for it in line. The last flush shuts the channel: who is still in line is
turned away, and so is, once the saver is closed, what is left in the channel. A save that is turned
away is refused; a close then watches for the saver to be closed.

The channel hands its place to the first in line, turns away everybody who waits when it is shut,
and gives up what it still holds when the owner is gone; this is all that is known of it here. A
request that is given up while it waits is left out.
-/

namespace Roster.Saver

variable {σ : Type}

/-- A saver, and the requests that are made of it at the same time, each with its number. -/
structure Exchange (σ : Type) where
  saver : State σ
  /-- The requests still to be made. -/
  coming : List (Request × Nat) := []
  /-- Those that wait for the place in the channel. -/
  line : List (Request × Nat) := []
  place : Option (Request × Nat) := none
  /-- The close that the owner has taken. -/
  closing : Option Nat := none
  /-- The closes that were turned away. -/
  watching : List Nat := []
  told : List (Answer × Nat) := []

variable (m : Setup σ)

namespace Exchange

structure IsOver (x : Exchange σ) : Prop where
  coming : x.coming = []
  line : x.line = []
  place : x.place = none
  closing : x.closing = none
  watching : x.watching = []

def tell (x : Exchange σ) (answer : Answer) (number : Nat) : Exchange σ :=
  { x with told := x.told ++ [(answer, number)] }

/-- What becomes of a request that the channel does not take. -/
def turnAway (x : Exchange σ) : Request × Nat → Exchange σ
  | (.save _, n) => x.tell .refused n
  | (.close, n) => { x with watching := x.watching ++ [n] }

/-- A request is made. A close asks first whether the saver is closed. -/
def enter (x : Exchange σ) (c : Request × Nat) : Exchange σ :=
  if c.1 = .close ∧ x.saver.isClosed then x.tell .closed c.2
  else if x.saver.openness = 0 then x.turnAway c
  else if x.place = none ∧ x.line = [] then { x with place := some c }
  else { x with line := x.line ++ [c] }

/-- The owner takes a request out of the channel. -/
def take (x : Exchange σ) : Request × Nat → Exchange σ
  | (.save t, n) => { x with saver := x.saver.accept m t, place := none }.tell .saved n
  | (.close, n) => { x with closing := some n, place := none }

/-- How the requests get on. Between taking a close and shutting the channel the owner leaves room
for others, who may come into the place again. -/
inductive Move : Exchange σ → Exchange σ → Prop where
  | enter {x c cs} : x.coming = c :: cs → Move x ({ x with coming := cs }.enter c)
  | moveUp {x c cs} :
    x.saver.openness ≠ 0 → x.place = none → x.line = c :: cs →
      Move x { x with line := cs, place := some c }
  | leave {x c before later} :
    x.saver.openness = 0 → x.line = before ++ c :: later →
      Move x ({ x with line := before ++ later }.turnAway c)
  | take {x c} :
    x.saver.phase = .waiting → x.closing = none → x.place = some c → Move x (x.take m c)
  | shut {x n} :
    x.saver.phase = .waiting → x.closing = some n →
      Move x { x with saver := x.saver.beginFlush m .shutdown }
  | release {x n} :
    x.saver.phase = .closed → x.closing = some n →
      Move x ({ x with closing := none }.tell .closed n)
  | give {x c} :
    x.saver.phase = .closed → x.closing = none → x.place = some c →
      Move x ({ x with place := none }.turnAway c)
  | observe {x n before later} :
    x.saver.phase = .closed → x.watching = before ++ n :: later →
      Move x ({ x with watching := before ++ later }.tell .closed n)

/-- What can happen while requests are made at the same time. -/
inductive Step : Exchange σ → Exchange σ → Prop where
  | move {x y} : Move m x y → Step x y
  | answer {x w} :
    x.saver.phase = .writing w →
      Step x { x with saver := (x.saver.wake w.ends).takeAnswer m w }
  | tick {x} :
    x.saver.phase = .waiting → x.closing = none → x.saver.due ≤ x.saver.clock →
      Step x { x with saver := x.saver.tick m }

def Awaited (x : Exchange σ) : Prop :=
  x.closing ≠ none ∨ x.place ≠ none ∨ x.watching ≠ []

instance (x : Exchange σ) : Decidable x.Awaited :=
  inferInstanceAs (Decidable (_ ∨ _ ∨ _))

def serve? (x : Exchange σ) : Option (Exchange σ) :=
  match x.saver.phase with
  | .waiting =>
    match x.closing, x.place with
    | some _, _ => some { x with saver := x.saver.beginFlush m .shutdown }
    | none, some c => some (x.take m c)
    | none, none => none
  | .writing w =>
    if x.Awaited then some { x with saver := (x.saver.wake w.ends).takeAnswer m w } else none
  | .closed =>
    match x.closing, x.place, x.watching with
    | some n, _, _ => some ({ x with closing := none }.tell .closed n)
    | none, some c, _ => some ({ x with place := none }.turnAway c)
    | none, none, n :: ns => some ({ x with watching := ns }.tell .closed n)
    | none, none, [] => none

/-- What happens next if everybody acts as soon as possible. -/
def next? (x : Exchange σ) : Option (Exchange σ) :=
  match x.coming, x.line with
  | c :: cs, _ => some ({ x with coming := cs }.enter c)
  | [], c :: cs =>
    if x.saver.openness = 0 then some ({ x with line := cs }.turnAway c)
    else if x.place = none then some { x with line := cs, place := some c }
    else x.serve? m
  | [], [] => x.serve? m

variable {m} {x y : Exchange σ}

theorem serve?_cases (h : x.serve? m = some y) :
    Move m x y ∨ x.Awaited ∧ ∃ w, x.saver.phase = .writing w ∧
      y = { x with saver := (x.saver.wake w.ends).takeAnswer m w } := by
  unfold serve? at h
  split at h
  · rename_i hp
    split at h
    · rename_i hclosing
      cases h
      exact .inl (.shut hp hclosing)
    · rename_i hclosing hplace
      cases h
      exact .inl (.take hp hclosing hplace)
    · cases h
  · rename_i w hp
    split at h
    · rename_i hawaited
      cases h
      exact .inr ⟨hawaited, w, hp, rfl⟩
    · cases h
  · rename_i hp
    split at h
    · rename_i hclosing
      cases h
      exact .inl (.release hp hclosing)
    · rename_i hclosing hplace
      cases h
      exact .inl (.give hp hclosing hplace)
    · rename_i hwatching
      cases h
      exact .inl (.observe hp (show x.watching = [] ++ _ :: _ from hwatching))
    · cases h

/-- An answer is taken only if somebody waits for it. -/
theorem next?_cases (h : x.next? m = some y) :
    Move m x y ∨ x.Awaited ∧ ∃ w, x.saver.phase = .writing w ∧
      y = { x with saver := (x.saver.wake w.ends).takeAnswer m w } := by
  unfold next? at h
  split at h
  · rename_i hcoming
    cases h
    exact .inl (.enter hcoming)
  · rename_i hline
    split at h
    · rename_i hshut
      cases h
      exact .inl (.leave hshut (show x.line = [] ++ _ :: _ from hline))
    · rename_i hopen
      split at h
      · rename_i hplace
        cases h
        exact .inl (.moveUp hopen hplace hline)
      · exact serve?_cases h
  · exact serve?_cases h

def work (x : Exchange σ) : Nat :=
  4 * x.coming.length + 3 * x.line.length + 2 * x.place.toList.length +
    x.closing.toList.length + x.watching.length

theorem work_turnAway_le (x : Exchange σ) (c : Request × Nat) :
    (x.turnAway c).work ≤ x.work + 1 := by
  obtain ⟨_ | _, n⟩ := c
  · exact Nat.le_succ _
  · simp only [turnAway, work, List.length_append, List.length_singleton]
    omega

theorem work_enter_le (x : Exchange σ) (c : Request × Nat) : (x.enter c).work ≤ x.work + 3 := by
  unfold enter
  split
  · simp [tell, work]
  · split
    · have := x.work_turnAway_le c
      omega
    · split
      · rename_i h
        simp only [work, h.1, Option.toList_some, Option.toList_none, List.length_singleton,
          List.length_nil]
        omega
      · simp [work]
        omega

/-- With every move less is left to be done, or the channel is shut. -/
theorem Move.lt (h : Move m x y) :
    Prod.Lex (· < ·) (Prod.Lex (· < ·) (· < ·))
      (y.work, y.saver.openness, y.saver.callsLeft)
      (x.work, x.saver.openness, x.saver.callsLeft) := by
  cases h with
  | @enter c cs hcoming =>
    refine .left _ _ ?_
    have hle := work_enter_le { x with coming := cs } c
    have hx : x.work = ({ x with coming := cs } : Exchange σ).work + 4 := by
      simp [work, hcoming]
      omega
    omega
  | moveUp _ hplace hline =>
    refine .left _ _ ?_
    simp [work, hplace, hline]
    omega
  | @leave c before later _ hline =>
    refine .left _ _ ?_
    have hle := work_turnAway_le { x with line := before ++ later } c
    have hx : x.work = ({ x with line := before ++ later } : Exchange σ).work + 3 := by
      simp [work, hline]
      omega
    omega
  | @take c _ hclosing hplace =>
    refine .left _ _ ?_
    obtain ⟨_ | _, n⟩ := c <;> simp [Exchange.take, tell, work, hclosing, hplace]
  | shut hp _ =>
    refine .right _ (.left _ _ ?_)
    rw [State.openness_beginFlush]
    simp [State.openness, hp]
  | release _ hclosing =>
    refine .left _ _ ?_
    simp [tell, work, hclosing]
  | @give c _ hclosing hplace =>
    refine .left _ _ ?_
    have hle := work_turnAway_le { x with place := none } c
    have hx : x.work = ({ x with place := none } : Exchange σ).work + 2 := by
      simp [work, hplace]
      omega
    omega
  | observe _ hwatching =>
    refine .left _ _ ?_
    simp [tell, work, hwatching]

theorem answer_lt {w : Writing} (hw : x.saver.phase = .writing w) :
    Prod.Lex (· < ·) (Prod.Lex (· < ·) (· < ·))
      (x.work, ((x.saver.wake w.ends).takeAnswer m w).openness,
        ((x.saver.wake w.ends).takeAnswer m w).callsLeft)
      (x.work, x.saver.openness, x.saver.callsLeft) := by
  have hopen : ((x.saver.wake w.ends).takeAnswer m w).openness = x.saver.openness := by
    rw [State.openness_takeAnswer]
    simp only [State.openness, hw]
  rw [hopen, State.callsLeft_takeAnswer]
  refine .right _ (.right _ ?_)
  simp [State.callsLeft, hw]

theorem next?_lt (h : x.next? m = some y) :
    Prod.Lex (· < ·) (Prod.Lex (· < ·) (· < ·))
      (y.work, y.saver.openness, y.saver.callsLeft)
      (x.work, x.saver.openness, x.saver.callsLeft) := by
  obtain hmove | ⟨-, w, hw, rfl⟩ := next?_cases h
  · exact hmove.lt
  · exact answer_lt hw

variable (m) in
/-- Goes on until nothing is left to be done for the requests. -/
def run (x : Exchange σ) : Exchange σ :=
  match _h : x.next? m with
  | none => x
  | some y => y.run
termination_by (x.work, x.saver.openness, x.saver.callsLeft)
decreasing_by exact next?_lt _h

def answers (x : Exchange σ) : List Answer :=
  (x.told.mergeSort fun a b => a.2 ≤ b.2).map Prod.fst

end Exchange

def State.exchanging (s : State σ) (requests : List Request) : Exchange σ :=
  { saver := s, coming := requests.zipIdx }

def State.exchange (s : State σ) (requests : List Request) : State σ × List Answer :=
  let x := (s.exchanging requests).run m
  (x.saver, x.answers)

end Roster.Saver
