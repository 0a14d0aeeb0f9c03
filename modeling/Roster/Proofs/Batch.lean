import Roster.Batch

/-!
How a list is cut. All chunks but the last have the given size, so chunks of that size are cut off
again as they were wherever they stand in front of something else; and no other way of cutting a
list has pieces of these sizes.
-/

namespace Roster

variable {α : Type} {size : Nat}

theorem length_chunks (hs : 0 < size) (xs : List α) :
    (chunks size xs).length = (xs.length + size - 1) / size := by
  fun_induction chunks size xs with
  | case1 => omega
  | case2 k => simp [Nat.div_eq_of_lt]
  | case3 k x xs ih =>
    have hall : (x :: xs).length + (k + 1) - 1 = xs.length + (k + 1) := by
      rw [List.length_cons]
      omega
    rw [hall, Nat.add_div_right _ hs, List.length_cons, ih hs, List.length_drop]
    by_cases hlen : k ≤ xs.length
    · have hrest : xs.length - k + (k + 1) - 1 = xs.length := by omega
      rw [hrest]
    · -- nothing is left behind the first chunk
      have hrest : xs.length - k + (k + 1) - 1 = k := by omega
      rw [hrest, Nat.div_eq_of_lt (by omega), Nat.div_eq_of_lt (by omega)]

theorem length_of_mem_chunks {xs c : List α} (h : c ∈ chunks size xs) :
    0 < c.length ∧ c.length ≤ size := by
  fun_induction chunks size xs with
  | case1 => simp at h
  | case2 => simp at h
  | case3 k x xs ih =>
    rcases List.mem_cons.1 h with rfl | h
    · rw [List.length_cons, List.length_take]
      omega
    · exact ih h

/-- What stands behind some chunks is cut by itself. -/
theorem of_chunks_eq_append (hs : 0 < size) {xs : List α} {done rest : List (List α)}
    (h : chunks size xs = done ++ rest) :
    done.flatten = xs.take (done.length * size) ∧
      rest = chunks size (xs.drop (done.length * size)) := by
  induction done generalizing xs with
  | nil => simpa using h.symm
  | cons c done ih =>
    have hx : xs ≠ [] := by
      rintro rfl
      simp at h
    rw [chunks_eq_cons hs hx, List.cons_append, List.cons_eq_cons] at h
    obtain ⟨rfl, h⟩ := h
    obtain ⟨hdone, hrest⟩ := ih h
    have hlength : (xs.take size :: done).length * size = size + done.length * size := by
      rw [List.length_cons, Nat.succ_mul, Nat.add_comm]
    rw [hlength, List.flatten_cons, hdone, hrest, List.drop_drop, List.take_add]
    exact ⟨rfl, rfl⟩

/-! ## Full chunks -/

theorem chunks_append (hs : 0 < size) {c : List α} (hc : c.length = size) (ys : List α) :
    chunks size (c ++ ys) = c :: chunks size ys := by
  have hne : c ≠ [] := List.length_pos_iff.1 (by omega)
  rw [chunks_eq_cons hs (List.append_ne_nil_of_left_ne_nil hne ys), List.take_left' hc,
    List.drop_left' hc]

theorem chunks_flatten_append (hs : 0 < size) {full : List (List α)}
    (hfull : ∀ c ∈ full, c.length = size) (ys : List α) :
    chunks size (full.flatten ++ ys) = full ++ chunks size ys := by
  induction full with
  | nil => rfl
  | cons c full ih =>
    obtain ⟨hc, hfull⟩ := List.forall_mem_cons.1 hfull
    rw [List.flatten_cons, List.append_assoc, chunks_append hs hc, ih hfull, List.cons_append]

/-- A chunk that is not full takes up what stands behind it. -/
theorem chunks_short_append (hs : 0 < size) {c : List α} (hpos : 0 < c.length)
    (hc : c.length ≤ size) (ys : List α) :
    chunks size (c ++ ys) =
      (c ++ ys.take (size - c.length)) :: chunks size (ys.drop (size - c.length)) := by
  have hne : c ≠ [] := List.length_pos_iff.1 hpos
  rw [chunks_eq_cons hs (List.append_ne_nil_of_left_ne_nil hne ys), List.take_append,
    List.drop_append, List.take_of_length_le hc, List.drop_of_length_le hc, List.nil_append]

/-- Only the last chunk may be short. -/
theorem length_of_chunks_eq_concat (hs : 0 < size) {xs c : List α} {before : List (List α)}
    (h : chunks size xs = before ++ [c]) : ∀ b ∈ before, b.length = size := by
  induction before generalizing xs with
  | nil => simp
  | cons b before ih =>
    have hx : xs ≠ [] := by
      rintro rfl
      simp at h
    rw [chunks_eq_cons hs hx, List.cons_append, List.cons_eq_cons] at h
    obtain ⟨rfl, h⟩ := h
    refine List.forall_mem_cons.2 ⟨?_, ih h⟩
    -- something is left behind the first chunk, so it has taken all that it can
    have hrest : xs.drop size ≠ [] := by
      intro hnil
      rw [hnil, chunks_nil] at h
      simp at h
    rw [List.length_take]
    have hlt := List.length_pos_iff.2 hrest
    rw [List.length_drop] at hlt
    omega

/-! ## The only way to cut -/

/-- The pieces have the given size; only the last may be shorter, and it is not empty. -/
structure ChunkSized (size : Nat) (css : List (List α)) : Prop where
  full : ∀ c ∈ css.dropLast, c.length = size
  last : ∀ c ∈ css.getLast?, 0 < c.length ∧ c.length ≤ size

theorem chunkSized_chunks (hs : 0 < size) (xs : List α) : ChunkSized size (chunks size xs) := by
  obtain hnil | ⟨before, c, hc⟩ := (chunks size xs).eq_nil_or_concat
  · rw [hnil]
    exact ⟨by simp, by simp⟩
  · rw [List.concat_eq_append] at hc
    refine ⟨?_, ?_⟩
    · rw [hc, List.dropLast_concat]
      exact length_of_chunks_eq_concat hs hc
    · rw [hc, List.getLast?_concat]
      rintro _ ⟨⟩
      exact length_of_mem_chunks (hc ▸ List.mem_concat_self)

theorem chunks_of_length_le (hs : 0 < size) {c : List α} (hpos : 0 < c.length)
    (hc : c.length ≤ size) : chunks size c = [c] := by
  have h := chunks_short_append hs hpos hc []
  rwa [List.append_nil, List.take_nil, List.append_nil, List.drop_nil, chunks_nil] at h

/-- Pieces of these sizes are cut off again as they were. -/
theorem ChunkSized.eq_chunks (hs : 0 < size) {css : List (List α)} (h : ChunkSized size css) :
    css = chunks size css.flatten := by
  obtain rfl | ⟨before, c, rfl⟩ := css.eq_nil_or_concat
  · rw [List.flatten_nil, chunks_nil]
  · obtain ⟨hfull, hlast⟩ := h
    rw [List.concat_eq_append] at hfull hlast ⊢
    rw [List.dropLast_concat] at hfull
    rw [List.getLast?_concat] at hlast
    obtain ⟨hpos, hle⟩ := hlast c rfl
    rw [List.flatten_append, List.flatten_singleton, chunks_flatten_append hs hfull,
      chunks_of_length_le hs hpos hle]

/-- There are as many chunks as it takes, they give the list back, all but the last have the given
size, and nothing else that is cut from the list has pieces of such sizes. Of an empty list, and in
size zero, there are no chunks. -/
theorem chunks_only_partition (size : Nat) (xs : List α) :
    (0 < size →
      (chunks size xs).length = (xs.length + size - 1) / size ∧
      (chunks size xs).flatten = xs ∧ ChunkSized size (chunks size xs) ∧
      ∀ css : List (List α), css.flatten = xs → ChunkSized size css → css = chunks size xs) ∧
    chunks size ([] : List α) = [] ∧ chunks 0 xs = [] := by
  refine ⟨?_, chunks_nil size, chunks_zero xs⟩
  intro hs
  refine ⟨length_chunks hs xs, flatten_chunks hs xs, chunkSized_chunks hs xs, ?_⟩
  rintro css rfl h
  exact h.eq_chunks hs

/-- Seven numbers in threes. -/
theorem chunks_only_partition_trial :
    0 < 3 ∧ [[1, 2, 3], [4, 5, 6], [7]] = chunks 3 [1, 2, 3, 4, 5, 6, 7] ∧
      (chunks 3 [1, 2, 3, 4, 5, 6, 7]).length = 3 := by
  obtain ⟨hlength, -, -, honly⟩ :=
    (chunks_only_partition 3 [1, 2, 3, 4, 5, 6, 7]).1 (by decide)
  exact ⟨by decide, honly [[1, 2, 3], [4, 5, 6], [7]] rfl ⟨by decide, by simp⟩, hlength⟩

end Roster
