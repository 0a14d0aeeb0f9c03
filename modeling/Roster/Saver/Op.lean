import Roster.Saver.Exchange

/-!
What happens to a saver from outside, one operation after another. Whenever an operation is done,
the owner goes on with what is due.
-/

namespace Roster.Saver

variable {σ : Type} (m : Setup σ)

inductive Op (σ : Type) where
  | submit (handle : Nat) (request : Request)
  /-- Requests that are made at the same time. -/
  | together (handle : Nat) (requests : List Request)
  /-- Milliseconds pass. -/
  | advance (time : Nat)
  /-- The world changes on its own. -/
  | alter (f : σ → σ)
  /-- One more handle is made of a handle. -/
  | clone (handle : Nat)
  | drop (handle : Nat)

inductive Outcome where
  | done
  | answer (a : Answer)
  | answers (as : List Answer)
  /-- The number of a new handle. -/
  | handle (n : Nat)
  | dropped
  /-- The handle was not held. -/
  | gone
deriving DecidableEq, Repr

namespace State

/-- An operation, before the owner goes on with what is due. -/
def apply (s : State σ) : Op σ → State σ × Outcome
  | .submit handle request =>
    if s.holds handle then
      let (s, answer) := s.submit m request
      (s, .answer answer)
    else (s, .gone)
  | .together handle requests =>
    if s.holds handle then
      let (s, answers) := s.exchange m requests
      (s, .answers answers)
    else (s, .gone)
  | .advance time => (s.advance m time, .done)
  | .alter f => ({ s with world := f s.world }, .done)
  | .clone handle =>
    ({ s with handles := s.handles ++ [s.holds handle] }, .handle s.handles.length)
  | .drop handle =>
    if s.holds handle then ({ s with handles := s.handles.set handle false }, .dropped)
    else (s, .gone)

/-- An operation, and what the owner then does without time passing. -/
def step (s : State σ) (op : Op σ) : State σ × Outcome :=
  let (s, outcome) := s.apply m op
  (s.settle m, outcome)

def after (s : State σ) (ops : List (Op σ)) : State σ :=
  ops.foldl (fun s op => (s.step m op).1) s

end State

end Roster.Saver
