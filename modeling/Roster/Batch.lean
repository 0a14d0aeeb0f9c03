/-!
Batches: a list cut into consecutive chunks of a given size, the last one possibly shorter.
-/

namespace Roster

variable {α : Type}

/-- A list cut into chunks of the given size. No chunk has size zero, so with that size there are
no chunks. -/
def chunks (size : Nat) (xs : List α) : List (List α) :=
  match size, xs with
  | 0, _ => []
  | _ + 1, [] => []
  | k + 1, x :: xs => (x :: xs.take k) :: chunks (k + 1) (xs.drop k)
termination_by xs.length
decreasing_by
  simp only [List.length_drop, List.length_cons]
  omega

@[simp] theorem chunks_zero (xs : List α) : chunks 0 xs = [] := by
  rw [chunks]

@[simp] theorem chunks_nil (size : Nat) : chunks size ([] : List α) = [] := by
  cases size <;> rw [chunks]

/-- The first chunk is as long as it can be. -/
theorem chunks_eq_cons {size : Nat} {xs : List α} (hs : 0 < size) (hx : xs ≠ []) :
    chunks size xs = xs.take size :: chunks size (xs.drop size) := by
  obtain ⟨k, rfl⟩ := Nat.exists_eq_add_one_of_ne_zero (Nat.ne_of_gt hs)
  obtain ⟨x, xs, rfl⟩ := List.exists_cons_of_ne_nil hx
  rw [chunks, List.take_succ_cons, List.drop_succ_cons]

/-- Nothing is lost. -/
theorem flatten_chunks {size : Nat} (hs : 0 < size) (xs : List α) :
    (chunks size xs).flatten = xs := by
  fun_induction chunks size xs with
  | case1 => omega
  | case2 => rfl
  | case3 k x xs ih =>
    rw [List.flatten_cons, ih hs, List.cons_append, List.take_append_drop]

end Roster
