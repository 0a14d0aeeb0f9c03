import Roster.Proofs.Saver.Exchange

/-!
A repo that keeps a record of the batches it was given and of its answers. A saver that writes to
it does what it does without the record, and reports the same.
-/

namespace Roster

variable {σ : Type}

structure Call where
  batch : List Team
  outcome : Except StoreError (List UInt64)

/-- The teams that a call has stored: all of the batch or none. -/
def Call.stored (c : Call) : List Team :=
  match c.outcome with
  | .ok _ => c.batch
  | .error _ => []

theorem Call.mem_batch {c : Call} {t : Team} (h : t ∈ c.stored) : t ∈ c.batch := by
  unfold stored at h
  split at h
  · exact h
  · cases h

/-- A world and the calls that were made to it, in the order in which they began. -/
structure Recorded (σ : Type) where
  world : σ
  calls : List Call := []

def Repo.recorded (repo : Repo σ) : Repo (Recorded σ) := fun r ts =>
  let (world, reply) := repo r.world ts
  (⟨world, r.calls ++ [⟨ts, reply.outcome⟩]⟩, reply)

namespace Saver

variable (m : Setup σ)

def Setup.recorded : Setup (Recorded σ) where
  capacity := m.capacity
  interval := m.interval
  chunkSize := m.chunkSize
  repo := m.repo.recorded
  capacity_pos := m.capacity_pos
  interval_pos := m.interval_pos

/-- The same operation in a recorded world; the world changes without calls being made. -/
def Op.recorded : Op σ → Op (Recorded σ)
  | .submit handle request => .submit handle request
  | .together handle requests => .together handle requests
  | .advance time => .advance time
  | .alter f => .alter fun r => { r with world := f r.world }
  | .clone handle => .clone handle
  | .drop handle => .drop handle

namespace State

def forget (s : State (Recorded σ)) : State σ where
  clock := s.clock
  due := s.due
  phase := s.phase
  buffer := s.buffer
  world := s.world.world
  handles := s.handles
  log := s.log

@[simp] theorem clock_forget (s : State (Recorded σ)) : s.forget.clock = s.clock := rfl

@[simp] theorem due_forget (s : State (Recorded σ)) : s.forget.due = s.due := rfl

@[simp] theorem phase_forget (s : State (Recorded σ)) : s.forget.phase = s.phase := rfl

@[simp] theorem buffer_forget (s : State (Recorded σ)) : s.forget.buffer = s.buffer := rfl

@[simp] theorem isHeld_forget (s : State (Recorded σ)) : s.forget.isHeld = s.isHeld := rfl

@[simp] theorem holds_forget (s : State (Recorded σ)) (handle : Nat) :
    s.forget.holds handle = s.holds handle := rfl

theorem forget_finish (s : State (Recorded σ)) (trigger : Trigger) (pending : Nat)
    (failed : List Team) :
    (s.finish m.recorded trigger pending failed).forget =
      s.forget.finish m trigger pending failed := by
  cases trigger <;> rfl

theorem forget_sendNext (s : State (Recorded σ)) (trigger : Trigger) (pending index : Nat)
    (failed : List Team) (cs : List (List Team)) :
    (s.sendNext m.recorded trigger pending index failed cs).forget =
      s.forget.sendNext m trigger pending index failed cs := by
  cases cs with
  | nil => exact forget_finish ..
  | cons c cs => rfl

theorem forget_beginFlush (s : State (Recorded σ)) (trigger : Trigger) :
    (s.beginFlush m.recorded trigger).forget = s.forget.beginFlush m trigger := by
  have hc : m.recorded.chunkSize = m.chunkSize := rfl
  simp only [beginFlush, buffer_forget, hc]
  cases chunks m.chunkSize s.buffer with
  | nil => exact forget_finish ..
  | cons c cs => exact forget_sendNext ..

theorem forget_takeAnswer (s : State (Recorded σ)) (w : Writing) :
    (s.takeAnswer m.recorded w).forget = s.forget.takeAnswer m w :=
  forget_sendNext ..

theorem forget_tick (s : State (Recorded σ)) :
    (s.tick m.recorded).forget = s.forget.tick m :=
  forget_beginFlush ..

theorem forget_step? (s : State (Recorded σ)) (limit : Nat) :
    (s.step? m.recorded limit).map forget = s.forget.step? m limit := by
  unfold step?
  rw [phase_forget, isHeld_forget, due_forget]
  cases s.phase with
  | closed => rfl
  | writing w =>
    dsimp only
    split
    · exact congrArg some (forget_takeAnswer ..)
    · rfl
  | waiting =>
    dsimp only
    split
    · exact congrArg some (forget_beginFlush ..)
    · split
      · exact congrArg some (forget_tick ..)
      · rfl

theorem forget_run (limit : Nat) (s : State (Recorded σ)) :
    (s.run m.recorded limit).forget = s.forget.run m limit := by
  induction s using run.induct m.recorded limit with
  | case1 s h =>
    have h' : s.forget.step? m limit = none := by rw [← forget_step?, h, Option.map_none]
    rw [run_of_none _ h, run_of_none _ h']
  | case2 s s' h ih =>
    have h' : s.forget.step? m limit = some s'.forget := by
      rw [← forget_step?, h, Option.map_some]
    rw [run_of_some _ h, run_of_some _ h', ih]

theorem forget_await (s : State (Recorded σ)) :
    (s.await m.recorded).forget = s.forget.await m := by
  induction s using await.induct m.recorded with
  | case1 s w h ih =>
    have h' : s.forget.phase = .writing w := h
    rw [await_of_writing _ h, await_of_writing _ h', ih, forget_takeAnswer]
    rfl
  | case2 s h =>
    have h' : ∀ w, s.forget.phase ≠ .writing w := h
    rw [await_of_idle _ h, await_of_idle _ h']

theorem forget_settle (s : State (Recorded σ)) :
    (s.settle m.recorded).forget = s.forget.settle m :=
  forget_run ..

theorem forget_advance (s : State (Recorded σ)) (time : Nat) :
    (s.advance m.recorded time).forget = s.forget.advance m time := by
  have h := forget_run m (s.clock + time) s
  simp only [advance, clock_forget, ← h]
  rfl

theorem forget_accept (s : State (Recorded σ)) (t : Team) :
    (s.accept m.recorded t).forget = s.forget.accept m t := by
  have hc : m.recorded.capacity = m.capacity := rfl
  by_cases h : m.capacity ≤ (s.buffer ++ [t]).length
  · rw [accept_of_full m.recorded h, accept_of_full m h]
    exact forget_beginFlush m { s with buffer := s.buffer ++ [t] } .capacity
  · rw [accept_of_not_full m.recorded h, accept_of_not_full m h]
    rfl

theorem forget_submit (s : State (Recorded σ)) (request : Request) :
    (s.submit m.recorded request).1.forget = (s.forget.submit m request).1 ∧
      (s.submit m.recorded request).2 = (s.forget.submit m request).2 := by
  have ha : (s.forget.await m).phase = (s.await m.recorded).phase := by
    rw [← forget_await, phase_forget]
  obtain h | h := phase_await m.recorded s
  · cases request with
    | save t =>
      rw [submit_save_of_waiting _ h, submit_save_of_waiting _ (ha.trans h), ← forget_await,
        ← forget_accept]
      exact ⟨rfl, rfl⟩
    | close =>
      rw [submit_close_of_waiting _ h, submit_close_of_waiting _ (ha.trans h), ← forget_await,
        ← forget_beginFlush, ← forget_await]
      exact ⟨rfl, rfl⟩
  · have hshut := openness_of_await_closed _ h
    have hshut' := openness_of_await_closed _ (ha.trans h)
    rw [submit_of_shut _ hshut, submit_of_shut _ hshut', ← forget_await]
    exact ⟨apply_ite .., rfl⟩

theorem forget_submitAll (s : State (Recorded σ)) (requests : List Request) :
    (s.submitAll m.recorded requests).1.forget = (s.forget.submitAll m requests).1 ∧
      (s.submitAll m.recorded requests).2 = (s.forget.submitAll m requests).2 := by
  induction requests generalizing s with
  | nil => exact ⟨rfl, rfl⟩
  | cons r rs ih =>
    obtain ⟨hs, ha⟩ := forget_submit m s r
    obtain ⟨hs', ha'⟩ := ih (s.submit m.recorded r).1
    rw [hs] at hs' ha'
    simp only [submitAll, hs', ha, ha', and_self]

theorem forget_apply (s : State (Recorded σ)) (op : Op σ) :
    (s.apply m.recorded op.recorded).1.forget = (s.forget.apply m op).1 ∧
      (s.apply m.recorded op.recorded).2 = (s.forget.apply m op).2 := by
  cases op with
  | submit handle request =>
    obtain ⟨hs, ha⟩ := forget_submit m s request
    have hf := holds_forget s handle
    cases h : s.holds handle with
    | true =>
      rw [h] at hf
      rw [Op.recorded, apply_submit_of_holds _ h, apply_submit_of_holds _ hf]
      exact ⟨hs, congrArg Outcome.answer ha⟩
    | false =>
      rw [h] at hf
      rw [Op.recorded, apply_submit_of_not_holds _ h, apply_submit_of_not_holds _ hf]
      exact ⟨rfl, rfl⟩
  | together handle requests =>
    obtain ⟨hs, ha⟩ := forget_submitAll m s requests
    have hf := holds_forget s handle
    cases h : s.holds handle with
    | true =>
      rw [h] at hf
      rw [Op.recorded, apply_together_of_holds _ h, apply_together_of_holds _ hf]
      exact ⟨hs, congrArg Outcome.answers ha⟩
    | false =>
      rw [h] at hf
      rw [Op.recorded, apply_together_of_not_holds _ h, apply_together_of_not_holds _ hf]
      exact ⟨rfl, rfl⟩
  | advance time => exact ⟨forget_advance .., rfl⟩
  | alter f => exact ⟨rfl, rfl⟩
  | clone handle => exact ⟨rfl, rfl⟩
  | drop handle =>
    have hf := holds_forget s handle
    cases h : s.holds handle with
    | true =>
      rw [h] at hf
      rw [Op.recorded, apply_drop_of_holds _ h, apply_drop_of_holds _ hf]
      exact ⟨rfl, rfl⟩
    | false =>
      rw [h] at hf
      rw [Op.recorded, apply_drop_of_not_holds _ h, apply_drop_of_not_holds _ hf]
      exact ⟨rfl, rfl⟩

theorem forget_step (s : State (Recorded σ)) (op : Op σ) :
    (s.step m.recorded op.recorded).1.forget = (s.forget.step m op).1 ∧
      (s.step m.recorded op.recorded).2 = (s.forget.step m op).2 := by
  obtain ⟨hs, ho⟩ := forget_apply m s op
  refine ⟨?_, ho⟩
  calc
    (s.step m.recorded op.recorded).1.forget
        = (s.apply m.recorded op.recorded).1.forget.settle m := forget_settle ..
    _ = (s.forget.step m op).1 := by rw [hs]; rfl

theorem forget_after (s : State (Recorded σ)) (ops : List (Op σ)) :
    (s.after m.recorded (ops.map Op.recorded)).forget = s.forget.after m ops := by
  induction ops generalizing s with
  | nil => rfl
  | cons op ops ih =>
    rw [List.map_cons, after_cons, after_cons, ih, (forget_step m s op).1]

end State

end Saver

end Roster
