import Mathlib.Data.List.Perm.Subperm
import Mathlib.Data.List.Range
import Roster.Pending

/-!
A buffer in use. Items are pushed, all of them are taken, and what a take gave out, or a part of it,
is put back in front of what was pushed meanwhile. With the items numbered in the order in which
they arrive, the numbers in the buffer go up, and every number is at one place only: in the buffer,
with whoever took it last, or gone for good.
-/

namespace Roster.Pending

variable {α β : Type}

/-- Items are put back in two ways: an empty buffer is replaced by them, any other is prefixed. -/
theorem restore_eq_ite (b : Pending α) (xs : List α) :
    b.restore xs =
      if b.items.isEmpty then { b with items := xs } else { b with items := xs ++ b.items } := by
  split
  · rename_i hempty
    rw [restore, List.isEmpty_iff.1 hempty, List.append_nil]
  · rfl

/-! ## What is done with a buffer -/

inductive Act (α : Type) where
  | push (x : α)
  | take
  | restore (xs : List α)

inductive Outcome (α : Type) where
  /-- Whether the buffer is full now. -/
  | pushed (full : Bool)
  | taken (xs : List α)
  | restored

def Act.pushed : Act α → List α
  | .push x => [x]
  | _ => []

def pushed (acts : List (Act α)) : List α :=
  acts.flatMap Act.pushed

theorem pushed_cons (a : Act α) (acts : List (Act α)) :
    pushed (a :: acts) = a.pushed ++ pushed acts :=
  List.flatMap_cons

theorem pushed_append (acts more : List (Act α)) :
    pushed (acts ++ more) = pushed acts ++ pushed more :=
  List.flatMap_append

structure Use (α : Type) where
  buffer : Pending α
  out : List α := []

def opened (capacity : Nat) : Use α :=
  { buffer := { capacity } }

namespace Use

variable {u : Use α}

def step (u : Use α) : Act α → Use α × Outcome α
  | .push x => ({ u with buffer := u.buffer.push x }, .pushed (u.buffer.push x).isFull)
  | .take => ({ buffer := u.buffer.clear, out := u.buffer.items }, .taken u.buffer.items)
  | .restore xs => ({ buffer := u.buffer.restore xs }, .restored)

def after (u : Use α) (acts : List (Act α)) : Use α :=
  acts.foldl (fun u a => (u.step a).1) u

/-- Only what the last take gave out is put back, in its order and none of it twice. -/
def Permits (u : Use α) : Act α → Prop
  | .restore xs => xs.Sublist u.out
  | _ => True

def Allows (u : Use α) : List (Act α) → Prop
  | [] => True
  | a :: acts => u.Permits a ∧ (u.step a).1.Allows acts

instance decidablePermits [DecidableEq α] (u : Use α) : (a : Act α) → Decidable (u.Permits a)
  | .restore xs => inferInstanceAs (Decidable (xs.Sublist u.out))
  | .push _ => .isTrue trivial
  | .take => .isTrue trivial

instance decidableAllows [DecidableEq α] :
    (u : Use α) → (acts : List (Act α)) → Decidable (u.Allows acts)
  | _, [] => .isTrue trivial
  | u, a :: acts =>
    have := decidableAllows (u.step a).1 acts
    inferInstanceAs (Decidable (u.Permits a ∧ (u.step a).1.Allows acts))

/-- What can no longer be put back after an act: with another take, all that is out, and when some
of it is put back, the rest. -/
def released [DecidableEq α] (u : Use α) : Act α → List α
  | .push _ => []
  | .take => u.out
  | .restore xs => u.out.diff xs

def gone [DecidableEq α] (u : Use α) : List (Act α) → List α
  | [] => []
  | a :: acts => u.released a ++ (u.step a).1.gone acts

theorem allows_append (u : Use α) (acts more : List (Act α)) :
    u.Allows (acts ++ more) ↔ u.Allows acts ∧ (u.after acts).Allows more := by
  induction acts generalizing u with
  | nil => exact (and_iff_right trivial).symm
  | cons a acts ih =>
    rw [List.cons_append, Allows, ih, ← and_assoc]
    rfl

theorem gone_append [DecidableEq α] (u : Use α) (acts more : List (Act α)) :
    u.gone (acts ++ more) = u.gone acts ++ (u.after acts).gone more := by
  induction acts generalizing u with
  | nil => rfl
  | cons a acts ih =>
    rw [List.cons_append, gone, ih, gone, List.append_assoc]
    rfl

theorem capacity_step (u : Use α) (a : Act α) :
    (u.step a).1.buffer.capacity = u.buffer.capacity := by
  cases a <;> rfl

theorem capacity_after (u : Use α) (acts : List (Act α)) :
    (u.after acts).buffer.capacity = u.buffer.capacity := by
  induction acts generalizing u with
  | nil => rfl
  | cons a acts ih => exact (ih _).trans (capacity_step u a)

theorem pushed_of_step {a : Act α} {full : Bool} (h : (u.step a).2 = .pushed full) :
    full = (u.step a).1.buffer.isFull := by
  cases a <;> cases h
  rfl

theorem taken_of_step {a : Act α} {taken : List α} (h : (u.step a).2 = .taken taken) :
    taken = u.buffer.items := by
  cases a <;> cases h
  rfl

end Use

/-! ## Items replaced -/

def map (f : α → β) (b : Pending α) : Pending β :=
  { capacity := b.capacity, items := b.items.map f }

def Act.map (f : α → β) : Act α → Act β
  | .push x => .push (f x)
  | .take => .take
  | .restore xs => .restore (xs.map f)

def Outcome.map (f : α → β) : Outcome α → Outcome β
  | .pushed full => .pushed full
  | .taken xs => .taken (xs.map f)
  | .restored => .restored

theorem pushed_map (f : α → β) (acts : List (Act α)) :
    pushed (acts.map (Act.map f)) = (pushed acts).map f := by
  induction acts with
  | nil => rfl
  | cons a acts ih =>
    rw [List.map_cons, pushed_cons, pushed_cons, List.map_append, ih]
    cases a <;> rfl

namespace Use

variable {u : Use α}

def map (f : α → β) (u : Use α) : Use β :=
  { buffer := u.buffer.map f, out := u.out.map f }

/-- A buffer does not look at its items. -/
theorem step_map (f : α → β) (u : Use α) (a : Act α) :
    (u.map f).step (a.map f) = ((u.step a).1.map f, (u.step a).2.map f) := by
  cases a with
  | push x => simp [step, map, Act.map, Outcome.map, Pending.map, push, isFull]
  | take => rfl
  | restore xs => simp [step, map, Act.map, Outcome.map, Pending.map, restore]

theorem after_map (f : α → β) (u : Use α) (acts : List (Act α)) :
    (u.map f).after (acts.map (Act.map f)) = (u.after acts).map f := by
  induction acts generalizing u with
  | nil => rfl
  | cons a acts ih =>
    have hstep := congrArg Prod.fst (step_map f u a)
    exact (congrArg (after · (acts.map (Act.map f))) hstep).trans (ih _)

theorem Permits.map (f : α → β) {a : Act α} (h : u.Permits a) : (u.map f).Permits (a.map f) := by
  cases a with
  | restore xs => exact List.Sublist.map f h
  | _ => trivial

theorem Allows.map (f : α → β) {acts : List (Act α)} (h : u.Allows acts) :
    (u.map f).Allows (acts.map (Act.map f)) := by
  induction acts generalizing u with
  | nil => trivial
  | cons a acts ih =>
    obtain ⟨ha, h⟩ := h
    refine ⟨ha.map f, ?_⟩
    rw [step_map]
    exact ih h

/-- Items can be numbered as they arrive, and what is put back has the numbers with which it was
taken. -/
theorem exists_numbered {u : Use (α × Nat)} {acts : List (Act α)}
    (h : (u.map Prod.fst).Allows acts) (count : Nat) :
    ∃ numbered : List (Act (α × Nat)), numbered.map (Act.map Prod.fst) = acts ∧
      pushed numbered = (pushed acts).zipIdx count ∧ u.Allows numbered := by
  induction acts generalizing u count with
  | nil => exact ⟨[], rfl, rfl, trivial⟩
  | cons a acts ih =>
    obtain ⟨ha, h⟩ := h
    -- it is enough to number the first act; the numbers go on behind what it brings
    suffices hfirst : ∃ b : Act (α × Nat), b.map Prod.fst = a ∧
        b.pushed = a.pushed.zipIdx count ∧ u.Permits b by
      obtain ⟨b, rfl, hb, hpermits⟩ := hfirst
      rw [step_map] at h
      obtain ⟨numbered, hacts, hpushed, hallows⟩ :=
        ih h (count + (b.map Prod.fst).pushed.length)
      refine ⟨b :: numbered, ?_, ?_, hpermits, hallows⟩
      · rw [List.map_cons, hacts]
      · rw [pushed_cons, pushed_cons, List.zipIdx_append, hb, hpushed]
    cases a with
    | push x => exact ⟨.push (x, count), rfl, rfl, trivial⟩
    | take => exact ⟨.take, rfl, rfl, trivial⟩
    | restore xs =>
      obtain ⟨ys, hys, rfl⟩ := List.sublist_map_iff.1 ha
      exact ⟨.restore ys, rfl, rfl, hys⟩

end Use

/-! ## The order of arrival -/

/-- Of the numbers that have arrived, those that are not gone are out or in the buffer, and go up
from the first that is out to the last in the buffer. -/
structure Use.Ordered (u : Use Nat) (count : Nat) (gone : List Nat) : Prop where
  ascending : (u.out ++ u.buffer.items).Pairwise (· < ·)
  perm : (gone ++ (u.out ++ u.buffer.items)).Perm (List.range count)

namespace Use.Ordered

variable {u : Use Nat} {count : Nat} {gone : List Nat}

theorem opened (capacity : Nat) : (opened capacity).Ordered 0 [] :=
  ⟨.nil, .nil⟩

theorem lt_count (h : u.Ordered count gone) {i : Nat} (hi : i ∈ u.out ++ u.buffer.items) :
    i < count :=
  List.mem_range.1 (h.perm.subset (List.mem_append_right _ hi))

theorem notMem_of_gone (h : u.Ordered count gone) {i : Nat} (hi : i ∈ gone) :
    i ∉ u.out ++ u.buffer.items := by
  have hnodup := h.perm.nodup_iff.2 List.nodup_range
  exact fun hin => (List.nodup_append.1 hnodup).2.2 i hi i hin rfl

theorem push (h : u.Ordered count gone) :
    (u.step (.push count)).1.Ordered (count + 1) gone where
  ascending := by
    have hlast : (u.out ++ u.buffer.items ++ [count]).Pairwise (· < ·) :=
      List.pairwise_append.2 ⟨h.ascending, List.pairwise_singleton ..,
        fun i hi j hj => List.mem_singleton.1 hj ▸ h.lt_count hi⟩
    rwa [List.append_assoc] at hlast
  perm := by
    have hlast := h.perm.append_right [count]
    rwa [← List.range_succ, List.append_assoc, List.append_assoc] at hlast

theorem take (h : u.Ordered count gone) :
    (u.step .take).1.Ordered count (gone ++ u.out) where
  ascending := by
    rw [step, items_clear, List.append_nil]
    exact (List.pairwise_append.1 h.ascending).2.1
  perm := by
    rw [step, items_clear, List.append_nil, List.append_assoc]
    exact h.perm

/-- What is put back was out, and so in front of all that the buffer holds. -/
theorem restore (h : u.Ordered count gone) {xs : List Nat} (hxs : xs.Sublist u.out) :
    (u.step (.restore xs)).1.Ordered count (gone ++ u.out.diff xs) where
  ascending := h.ascending.sublist (hxs.append_right u.buffer.items)
  perm := by
    have hout : (u.out.diff xs ++ xs).Perm u.out :=
      List.perm_append_comm.trans
        (List.subperm_append_diff_self_of_count_le fun i _ => hxs.count_le i)
    have hplaces := ((hout.append_right u.buffer.items).append_left gone).trans h.perm
    rwa [List.append_assoc, ← List.append_assoc] at hplaces

/-- An act keeps the order, if what it brings has the next number. -/
theorem step (h : u.Ordered count gone) {a : Act Nat} (ha : u.Permits a)
    (hpushed : a.pushed = List.range' count a.pushed.length) :
    (u.step a).1.Ordered (count + a.pushed.length) (gone ++ u.released a) := by
  cases a with
  | push i =>
    obtain rfl : i = count := List.head_eq_of_cons_eq hpushed
    rw [released, List.append_nil]
    exact h.push
  | take => exact h.take
  | restore xs => exact h.restore ha

theorem after (h : u.Ordered count gone) {acts : List (Act Nat)} (ha : u.Allows acts)
    (hpushed : pushed acts = List.range' count (pushed acts).length) :
    (u.after acts).Ordered (count + (pushed acts).length) (gone ++ u.gone acts) := by
  induction acts generalizing u count gone with
  | nil =>
    rw [Use.gone, List.append_nil]
    exact h
  | cons a acts ih =>
    obtain ⟨ha, hacts⟩ := ha
    rw [pushed_cons, List.length_append, ← List.range'_append_1] at hpushed
    obtain ⟨hfirst, hrest⟩ := List.append_inj hpushed (by simp)
    have hafter := ih (h.step ha hfirst) hacts hrest
    rw [Nat.add_assoc, List.append_assoc] at hafter
    rw [pushed_cons, List.length_append]
    exact hafter

end Use.Ordered

open Use

/-- At every point of the use of a buffer whose items are numbered the numbers are in order. -/
theorem ordered_numbers {capacity : Nat} {before after : List (Act (α × Nat))} {xs : List α}
    (hallows : (opened capacity).Allows (before ++ after))
    (hpushed : pushed (before ++ after) = xs.zipIdx) :
    (((opened capacity).after before).map Prod.snd).Ordered (pushed before).length
      ((opened capacity).gone (before.map (Act.map Prod.snd))) := by
  have hnumbers : (pushed before).map Prod.snd = List.range' 0 (pushed before).length := by
    have hall := congrArg (List.map Prod.snd) hpushed
    have hlength := congrArg List.length hpushed
    rw [pushed_append, List.length_append, List.length_zipIdx] at hlength
    rw [pushed_append, List.map_append, List.zipIdx_map_snd, ← hlength,
      ← List.range'_append_1] at hall
    exact (List.append_inj hall (by simp)).1
  have hbefore := ((allows_append _ before after).1 hallows).1.map Prod.snd
  have hordered := (Ordered.opened capacity).after hbefore (by
    rw [pushed_map, List.length_map]
    exact hnumbers)
  rw [pushed_map, List.length_map, Nat.zero_add, List.nil_append] at hordered
  rw [← after_map]
  exact hordered

/-- Items are numbered in the order in which they arrive; what is put back has the numbers with
which it was taken. Then, after any acts, the numbers in the buffer go up, and so do those of what
is taken; every number is at one place, in the buffer, with whoever took it last, or gone for good;
and what is gone is never seen again. The buffer is full, and a push says so, exactly if it holds as
many items as its capacity or more. It makes no difference that an empty buffer is replaced where
any other is prefixed. -/
theorem arrival_order_kept (capacity : Nat) {acts : List (Act α)}
    (h : (opened capacity).Allows acts) :
    (∃ numbered : List (Act (α × Nat)),
      numbered.map (Act.map Prod.fst) = acts ∧ pushed numbered = (pushed acts).zipIdx ∧
      (opened capacity).Allows numbered ∧
      ∀ before after, numbered = before ++ after →
        let plain := (opened capacity).after (before.map (Act.map Prod.fst))
        let u := (opened capacity).after before
        let numbers := u.map Prod.snd
        let gone := (opened capacity).gone (before.map (Act.map Prod.snd))
        plain = u.map Prod.fst ∧
        numbers.buffer.items.Pairwise (· < ·) ∧
        (gone ++ (numbers.out ++ numbers.buffer.items)).Perm
          (List.range (pushed before).length) ∧
        (∀ more later, after = more ++ later →
          let numbers' := ((opened capacity).after (before ++ more)).map Prod.snd
          ∀ i ∈ gone, i ∉ numbers'.out ++ numbers'.buffer.items) ∧
        (plain.buffer.isFull = true ↔ capacity ≤ plain.buffer.items.length) ∧
        ∀ a later, after = a :: later →
          (plain.step (a.map Prod.fst)).2 = (u.step a).2.map Prod.fst ∧
          (∀ full, (u.step a).2 = .pushed full →
            (full = true ↔ capacity ≤ (u.step a).1.buffer.items.length)) ∧
          ∀ taken, (u.step a).2 = .taken taken → (taken.map Prod.snd).Pairwise (· < ·)) ∧
    ∀ (b : Pending α) (xs : List α),
      b.restore xs =
        if b.items.isEmpty then { b with items := xs } else { b with items := xs ++ b.items } := by
  refine ⟨?_, restore_eq_ite⟩
  obtain ⟨numbered, rfl, hpushed, hallows⟩ := exists_numbered (u := opened capacity) h 0
  refine ⟨numbered, rfl, hpushed, hallows, ?_⟩
  rintro before after rfl plain u numbers gone
  have hordered : numbers.Ordered (pushed before).length gone := ordered_numbers hallows hpushed
  have hplain : plain = u.map Prod.fst := after_map Prod.fst (opened capacity) before
  have hascending := (List.pairwise_append.1 hordered.ascending).2.1
  have hcapacity : plain.buffer.capacity = capacity ∧ u.buffer.capacity = capacity :=
    ⟨capacity_after .., capacity_after ..⟩
  refine ⟨hplain, hascending, hordered.perm, ?_, ?_, ?_⟩
  · -- what is gone stays gone, and is nowhere else later
    rintro more later rfl numbers' i hi
    rw [← List.append_assoc] at hallows hpushed
    refine (ordered_numbers hallows hpushed).notMem_of_gone ?_
    rw [List.map_append, gone_append]
    exact List.mem_append_left _ hi
  · rw [isFull_iff, hcapacity.1]
  · rintro a later rfl
    refine ⟨?_, ?_, ?_⟩
    · rw [hplain, step_map]
    · intro full hfull
      rw [pushed_of_step hfull, isFull_iff, capacity_step, hcapacity.2]
    · intro taken htaken
      rw [taken_of_step htaken]
      exact hascending

/-- Of two equal items that were taken one is put back, with a third pushed meanwhile. -/
def retriedActs : List (Act String) :=
  [.push "a", .push "a", .take, .push "b", .restore ["a"], .push "c", .take]

/-- The other one is gone, and the other three come with the second take. -/
theorem arrival_trial :
    (opened 2).Allows retriedActs ∧ ((opened 2).after retriedActs).out = ["a", "b", "c"] ∧
    ∃ numbered : List (Act (String × Nat)),
      numbered.map (Act.map Prod.fst) = retriedActs ∧
      pushed numbered = [("a", 0), ("a", 1), ("b", 2), ("c", 3)] ∧
      let numbers := ((opened 2).after numbered).map Prod.snd
      ((opened 2).gone (numbered.map (Act.map Prod.snd)) ++
        (numbers.out ++ numbers.buffer.items)).Perm [0, 1, 2, 3] := by
  have hallows : (opened 2).Allows retriedActs := by decide
  obtain ⟨⟨numbered, hacts, hpushed, -, hpoints⟩, -⟩ := arrival_order_kept 2 hallows
  obtain ⟨-, -, hperm, -⟩ := hpoints numbered [] (List.append_nil _).symm
  refine ⟨hallows, rfl, numbered, hacts, hpushed, ?_⟩
  rw [hpushed] at hperm
  exact hperm

end Roster.Pending
