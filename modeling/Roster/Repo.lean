import Roster.Store.Basic

/-!
What a saver writes to: something that takes a batch of teams as one unit and answers after a
while. A refused batch has not been stored in any part.

Besides the store there is a rehearsal, which stores nothing, remembers every batch, and answers as
its script says.
-/

namespace Roster

/-- The answer to a batch: identifiers in the order of the teams, or why it was refused, and how
long it takes, in milliseconds. -/
structure Reply where
  outcome : Except StoreError (List UInt64)
  delay : Nat := 0

/-- Takes a batch in some state of the world; the answer, and the state afterwards. -/
abbrev Repo (σ : Type) : Type :=
  σ → List Team → σ × Reply

def Store.repo : Repo Store := fun s ts =>
  let (outcome, s) := s.addTeams ts
  (s, { outcome })

/-- A store that may only be read refuses every batch. -/
def Store.readOnlyRepo : Repo Store := fun s _ =>
  (s, { outcome := .error (.refused .readOnly) })

structure Script where
  failAll : Bool := false
  /-- Batches by their number, counted from zero. -/
  failCalls : List Nat := []
  /-- Batches that hold a team of one of these names. -/
  failNames : List String := []
  delay : Nat := 0
deriving DecidableEq, Repr, Inhabited

def Script.refuses (script : Script) (index : Nat) (ts : List Team) : Bool :=
  script.failAll || script.failCalls.contains index ||
    ts.any fun t => script.failNames.contains t.name

structure Rehearsal where
  script : Script
  calls : List (List Team) := []
deriving DecidableEq, Repr, Inhabited

/-- A rehearsal remembers a batch when it begins and answers as the script then says. -/
def Rehearsal.repo : Repo Rehearsal := fun r ts =>
  let index := r.calls.length
  ({ r with calls := r.calls ++ [ts] },
    { outcome :=
        if r.script.refuses index ts then
          .error (.unavailable ("scripted failure on call " ++ toString index))
        else .ok (ts.map Team.id)
      delay := r.script.delay })

end Roster
