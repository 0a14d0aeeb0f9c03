/-!
The buffer of items that wait for a flush. It may hold more items than its capacity: items that a
flush could not place come back in front of everything newer.
-/

namespace Roster

variable {α : Type}

/-- Items that wait, oldest first, and the number of them that calls for a flush. -/
structure Pending (α : Type) where
  capacity : Nat
  items : List α := []
deriving DecidableEq, Repr

namespace Pending

def isFull (b : Pending α) : Bool :=
  b.capacity ≤ b.items.length

def push (b : Pending α) (x : α) : Pending α :=
  { b with items := b.items ++ [x] }

def clear (b : Pending α) : Pending α :=
  { b with items := [] }

def restore (b : Pending α) (xs : List α) : Pending α :=
  { b with items := xs ++ b.items }

@[simp] theorem items_push (b : Pending α) (x : α) : (b.push x).items = b.items ++ [x] := rfl

@[simp] theorem items_clear (b : Pending α) : b.clear.items = [] := rfl

@[simp] theorem items_restore (b : Pending α) (xs : List α) :
    (b.restore xs).items = xs ++ b.items := rfl

theorem isFull_iff {b : Pending α} : b.isFull = true ↔ b.capacity ≤ b.items.length := by
  simp [isFull]

end Pending

end Roster
