import Roster.Saver.Op

/-!
What the owner of a saver does, one equation for each case: it goes on until there is nothing to
do, waits until a flush is over, and takes a request while it waits or after it has closed.
-/

namespace Roster.Saver

variable {σ : Type} (m : Setup σ)

def Request.late : Request → Answer
  | .save _ => .refused
  | .close => .closed

/-- When the tick after one is due that was due at a time and handled at another. -/
def nextDue (interval due time : Nat) : Nat :=
  if due + patience < time then time + interval else due + interval

namespace State

/-! ## Flushing -/

/-- A flush takes the whole buffer and sends its chunks; what there are no chunks for is dropped. -/
theorem beginFlush_eq_sendNext (s : State σ) (trigger : Trigger) :
    s.beginFlush m trigger =
      ({ s with buffer := [] }.report (.flushing trigger s.buffer.length ::
        if chunks m.chunkSize s.buffer = [] then discard m.chunkSize s.buffer else [])).sendNext m
          trigger s.buffer.length 0 [] (chunks m.chunkSize s.buffer) := by
  unfold beginFlush
  dsimp only
  split
  · rename_i h
    simp only [h, if_true, report, Pending.clear, sendNext, List.append_assoc, List.cons_append,
      List.nil_append]
  · rename_i h
    rw [if_neg h]
    rfl

/-- With chunks of positive size a flush sends the whole buffer, also when it is empty. -/
theorem beginFlush_eq (hm : 0 < m.chunkSize) (s : State σ) (trigger : Trigger) :
    s.beginFlush m trigger =
      ({ s with buffer := [] }.report [.flushing trigger s.buffer.length]).sendNext m trigger
        s.buffer.length 0 [] (chunks m.chunkSize s.buffer) := by
  have hnone : (if chunks m.chunkSize s.buffer = [] then discard m.chunkSize s.buffer else []) =
      [] := by
    split
    · rename_i h
      have hb : s.buffer = [] := by
        rw [← flatten_chunks hm s.buffer, h]
        rfl
      rw [hb, discard, if_pos rfl]
    · rfl
  rw [beginFlush_eq_sendNext, hnone]

theorem due_tick (s : State σ) : (s.tick m).due = nextDue m.interval s.due s.clock :=
  due_beginFlush ..

/-! ## Going on -/

theorem step?_of_closed {s : State σ} (h : s.phase = .closed) (limit : Nat) :
    s.step? m limit = none := by
  simp only [step?, h]

theorem step?_of_writing {s : State σ} {w : Writing} (h : s.phase = .writing w) (limit : Nat) :
    s.step? m limit = if w.ends ≤ limit then some ((s.wake w.ends).takeAnswer m w) else none := by
  simp only [step?, h]

theorem step?_of_waiting {s : State σ} (h : s.phase = .waiting) (limit : Nat) :
    s.step? m limit =
      if s.isHeld = false then some ((s.report [.abandoned]).beginFlush m .shutdown)
      else if s.due ≤ limit then some ((s.wake s.due).tick m)
      else none := by
  simp only [step?, h]

/-- What the owner does next on its own, if it is given until some time. -/
inductive GoesOn (limit : Nat) : State σ → State σ → Prop where
  | answer {s : State σ} {w : Writing} :
    s.phase = .writing w → w.ends ≤ limit → GoesOn limit s ((s.wake w.ends).takeAnswer m w)
  | abandon {s : State σ} :
    s.phase = .waiting → s.isHeld = false →
      GoesOn limit s ((s.report [.abandoned]).beginFlush m .shutdown)
  | tick {s : State σ} :
    s.phase = .waiting → s.isHeld ≠ false → s.due ≤ limit → GoesOn limit s ((s.wake s.due).tick m)

theorem step?_eq_some_iff {s s' : State σ} {limit : Nat} :
    s.step? m limit = some s' ↔ GoesOn m limit s s' := by
  constructor
  · intro h
    cases hp : s.phase with
    | closed =>
      rw [step?_of_closed m hp] at h
      cases h
    | writing w =>
      rw [step?_of_writing m hp] at h
      split at h
      · cases h
        exact .answer hp ‹_›
      · cases h
    | waiting =>
      rw [step?_of_waiting m hp] at h
      split at h
      · cases h
        exact .abandon hp ‹_›
      · split at h
        · cases h
          exact .tick hp ‹_› ‹_›
        · cases h
  · intro h
    cases h with
    | answer hw hends => rw [step?_of_writing m hw, if_pos hends]
    | abandon hp hheld => rw [step?_of_waiting m hp, if_pos hheld]
    | tick hp hheld hdue => rw [step?_of_waiting m hp, if_neg hheld, if_pos hdue]

theorem run_of_none {s : State σ} {limit : Nat} (h : s.step? m limit = none) :
    s.run m limit = s := by
  rw [run.eq_def]
  split
  · rfl
  · rename_i h'
    cases h.symm.trans h'

theorem run_of_some {s s' : State σ} {limit : Nat} (h : s.step? m limit = some s') :
    s.run m limit = s'.run m limit := by
  rw [run.eq_def]
  split
  · rename_i h'
    cases h.symm.trans h'
  · rename_i h'
    cases h.symm.trans h'
    rfl

theorem clock_finish (s : State σ) (trigger : Trigger) (pending : Nat) (failed : List Team) :
    (s.finish m trigger pending failed).clock = s.clock := by
  cases trigger <;> rfl

theorem clock_sendNext (s : State σ) (trigger : Trigger) (pending index : Nat)
    (failed : List Team) (cs : List (List Team)) :
    (s.sendNext m trigger pending index failed cs).clock = s.clock := by
  cases cs with
  | nil => exact clock_finish ..
  | cons c cs => rfl

theorem clock_beginFlush (s : State σ) (trigger : Trigger) :
    (s.beginFlush m trigger).clock = s.clock := by
  unfold beginFlush
  dsimp only
  split
  · exact clock_finish ..
  · exact clock_sendNext ..

theorem clock_takeAnswer (s : State σ) (w : Writing) : (s.takeAnswer m w).clock = s.clock :=
  clock_sendNext ..

theorem clock_tick (s : State σ) : (s.tick m).clock = s.clock :=
  clock_beginFlush ..

theorem clock_step?_le {s s' : State σ} {limit : Nat} (h : s.step? m limit = some s')
    (hs : s.clock ≤ limit) : s'.clock ≤ limit := by
  cases (step?_eq_some_iff m).1 h with
  | answer _ hends =>
    rw [clock_takeAnswer]
    exact Nat.max_le.2 ⟨hs, hends⟩
  | abandon =>
    rw [clock_beginFlush]
    exact hs
  | tick _ _ hdue =>
    rw [clock_tick]
    exact Nat.max_le.2 ⟨hs, hdue⟩

/-- The owner does not run ahead of the time that it is given. -/
theorem clock_run_le {s : State σ} {limit : Nat} (hs : s.clock ≤ limit) :
    (s.run m limit).clock ≤ limit := by
  induction s using run.induct m limit with
  | case1 s h =>
    rw [run_of_none m h]
    exact hs
  | case2 s s' h ih =>
    rw [run_of_some m h]
    exact ih (clock_step?_le m h hs)

theorem advance_eq_wake (s : State σ) (time : Nat) :
    s.advance m time = (s.run m (s.clock + time)).wake (s.clock + time) := by
  have hclock : (s.run m (s.clock + time)).clock ≤ s.clock + time :=
    clock_run_le m (Nat.le_add_right ..)
  simp only [advance, wake, Nat.max_eq_right hclock]

/-! ## Open and shut -/

/-- The last flush has begun or it has not. -/
theorem openness_eq (s : State σ) : s.openness = 0 ∨ s.openness = 1 := by
  unfold openness
  split
  · exact .inr rfl
  · split
    · exact .inl rfl
    · exact .inr rfl
  · exact .inl rfl

theorem openness_of_waiting {s : State σ} (h : s.phase = .waiting) : s.openness = 1 := by
  simp only [openness, h]

theorem openness_of_closed {s : State σ} (h : s.phase = .closed) : s.openness = 0 := by
  simp only [openness, h]

/-! ## Waiting for the end of a flush -/

theorem await_of_writing {s : State σ} {w : Writing} (h : s.phase = .writing w) :
    s.await m = ((s.wake w.ends).takeAnswer m w).await m := by
  rw [await.eq_def]
  split
  · rename_i w' h'
    cases h.symm.trans h'
    rfl
  · rename_i h'
    exact absurd h (h' w)

theorem await_of_idle {s : State σ} (h : ∀ w, s.phase ≠ .writing w) : s.await m = s := by
  rw [await.eq_def]
  split
  · rename_i w h'
    exact absurd h' (h w)
  · rfl

theorem await_of_waiting {s : State σ} (h : s.phase = .waiting) : s.await m = s :=
  await_of_idle m fun _ hw => nomatch h.symm.trans hw

theorem await_of_closed {s : State σ} (h : s.phase = .closed) : s.await m = s :=
  await_of_idle m fun _ hw => nomatch h.symm.trans hw

/-- After the wait the owner is free or the saver closed. -/
theorem phase_await (s : State σ) : (s.await m).phase = .waiting ∨ (s.await m).phase = .closed := by
  induction s using await.induct m with
  | case1 s w h ih =>
    rw [await_of_writing m h]
    exact ih
  | case2 s h =>
    rw [await_of_idle m h]
    cases hp : s.phase with
    | waiting => exact .inl rfl
    | closed => exact .inr rfl
    | writing w => exact absurd hp (h w)

/-- Waiting does not begin the last flush, and does not undo it. -/
theorem openness_await (s : State σ) : (s.await m).openness = s.openness := by
  induction s using await.induct m with
  | case1 s w h ih =>
    rw [await_of_writing m h, ih, openness_takeAnswer]
    simp only [openness, h]
  | case2 s h => rw [await_of_idle m h]

theorem phase_await_of_open {s : State σ} (h : s.openness = 1) : (s.await m).phase = .waiting := by
  obtain hp | hp := phase_await m s
  · exact hp
  · cases ((openness_await m s).trans h).symm.trans (openness_of_closed hp)

/-- A saver whose last flush has begun is closed as soon as the flush is over. -/
theorem phase_await_of_shut {s : State σ} (h : s.openness = 0) : (s.await m).phase = .closed := by
  obtain hp | hp := phase_await m s
  · cases ((openness_await m s).trans h).symm.trans (openness_of_waiting hp)
  · exact hp

theorem openness_of_await_waiting {s : State σ} (h : (s.await m).phase = .waiting) :
    s.openness = 1 :=
  (openness_await m s).symm.trans (openness_of_waiting h)

theorem openness_of_await_closed {s : State σ} (h : (s.await m).phase = .closed) :
    s.openness = 0 :=
  (openness_await m s).symm.trans (openness_of_closed h)

/-! ## Taking a request -/

theorem accept_eq (s : State σ) (t : Team) :
    s.accept m t =
      if m.capacity ≤ (s.buffer ++ [t]).length then
        { s with buffer := s.buffer ++ [t] }.beginFlush m .capacity
      else { s with buffer := s.buffer ++ [t] } := by
  simp only [accept, Pending.isFull_iff, Pending.push]

theorem accept_of_full {s : State σ} {t : Team} (h : m.capacity ≤ (s.buffer ++ [t]).length) :
    s.accept m t = { s with buffer := s.buffer ++ [t] }.beginFlush m .capacity := by
  rw [accept_eq, if_pos h]

theorem accept_of_not_full {s : State σ} {t : Team} (h : ¬m.capacity ≤ (s.buffer ++ [t]).length) :
    s.accept m t = { s with buffer := s.buffer ++ [t] } := by
  rw [accept_eq, if_neg h]

theorem openness_accept {s : State σ} (hp : s.phase = .waiting) (t : Team) :
    (s.accept m t).openness = 1 := by
  by_cases hfull : m.capacity ≤ (s.buffer ++ [t]).length
  · rw [accept_of_full m hfull]
    exact openness_beginFlush ..
  · rw [accept_of_not_full m hfull]
    exact openness_of_waiting hp

theorem submit_save_of_waiting {s : State σ} (h : (s.await m).phase = .waiting) (t : Team) :
    s.submit m (.save t) = ((s.await m).accept m t, .saved) := by
  simp [submit, openness_of_await_waiting m h]

theorem submit_close_of_waiting {s : State σ} (h : (s.await m).phase = .waiting) :
    s.submit m .close = (((s.await m).beginFlush m .shutdown).await m, .closed) := by
  simp [submit, openness_of_await_waiting m h]

/-- During the last flush and after it, only a close waits. -/
theorem submit_of_shut {s : State σ} (h : s.openness = 0) (request : Request) :
    s.submit m request = (if request = .close then s.await m else s, request.late) := by
  cases request <;> simp [submit, h, Request.late]

theorem submit_of_closed {s : State σ} (h : s.phase = .closed) (request : Request) :
    s.submit m request = (s, request.late) := by
  rw [submit_of_shut m (openness_of_closed h), await_of_closed m h, ite_self]

theorem submitAll_append (s : State σ) (rs rs' : List Request) :
    (s.submitAll m (rs ++ rs')).1 = ((s.submitAll m rs).1.submitAll m rs').1 := by
  induction rs generalizing s with
  | nil => rfl
  | cons r rs ih => exact ih (s.submit m r).1

/-! ## Operations -/

section

variable {s : State σ} {handle : Nat}

theorem apply_submit_of_holds (h : s.holds handle = true) (request : Request) :
    s.apply m (.submit handle request) =
      ((s.submit m request).1, .answer (s.submit m request).2) := by
  simp only [apply, h, if_true]

theorem apply_submit_of_not_holds (h : s.holds handle = false) (request : Request) :
    s.apply m (.submit handle request) = (s, .gone) := by
  simp only [apply, h, Bool.false_eq_true, if_false]

theorem apply_together_of_not_holds (h : s.holds handle = false) (requests : List Request) :
    s.apply m (.together handle requests) = (s, .gone) := by
  simp only [apply, h, Bool.false_eq_true, if_false]

theorem apply_drop_of_holds (h : s.holds handle = true) :
    s.apply m (.drop handle) = ({ s with handles := s.handles.set handle false }, .dropped) := by
  simp only [apply, h, if_true]

theorem apply_drop_of_not_holds (h : s.holds handle = false) :
    s.apply m (.drop handle) = (s, .gone) := by
  simp only [apply, h, Bool.false_eq_true, if_false]

end

@[simp] theorem after_nil (s : State σ) : s.after m [] = s := rfl

theorem after_cons (s : State σ) (op : Op σ) (ops : List (Op σ)) :
    s.after m (op :: ops) = (s.step m op).1.after m ops := rfl

theorem after_append (s : State σ) (ops more : List (Op σ)) :
    s.after m (ops ++ more) = (s.after m ops).after m more :=
  List.foldl_append

end State

end Roster.Saver
