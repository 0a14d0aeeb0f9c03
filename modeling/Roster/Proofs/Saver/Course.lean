import Roster.Proofs.Saver.Invariant
import Roster.Proofs.Saver.Recording

/-!
The course of a saver, move by move. Between two moves anything may happen that can happen: a
request may be taken before or after a tick that is due, time may pass, the world may change. What
holds at every point of every course therefore holds at every point of every run of operations,
also inside an operation and whatever the order of things that happen at once.
-/

namespace Roster.Saver

variable {σ : Type} (m : Setup σ)

/-- What may happen to a saver with a recorded repo, apart from its taking a team. -/
inductive Move : State (Recorded σ) → State (Recorded σ) → Prop where
  | wake (s : State (Recorded σ)) (time : Nat) : Move s (s.wake time)
  | alter (s : State (Recorded σ)) (f : σ → σ) :
    Move s { s with world := { s.world with world := f s.world.world } }
  | handles (s : State (Recorded σ)) (handles : List Bool) : Move s { s with handles }
  | tick {s : State (Recorded σ)} :
    s.phase = .waiting → s.due ≤ s.clock → Move s (s.tick m.recorded)
  /-- Nobody holds the saver any more; this is noticed before it shuts. -/
  | abandon {s : State (Recorded σ)} :
    s.phase = .waiting → s.isHeld = false → Move s (s.report [.abandoned])
  | shut {s : State (Recorded σ)} :
    s.phase = .waiting → Move s (s.beginFlush m.recorded .shutdown)
  | answer {s : State (Recorded σ)} {w : Writing} :
    s.phase = .writing w → w.ends ≤ s.clock → Move s (s.takeAnswer m.recorded w)

/-- A saver that was started in the given world may be found in a state after it has acknowledged
the given teams, in order. -/
inductive Course (world : σ) : List Team → State (Recorded σ) → Prop where
  | start : Course world [] (start m.recorded { world })
  | save {saved : List Team} {s : State (Recorded σ)} (t : Team) :
    Course world saved s → s.phase = .waiting →
      Course world (saved ++ [t]) (s.accept m.recorded t)
  | move {saved : List Team} {s s' : State (Recorded σ)} :
    Course world saved s → Move m s s' → Course world saved s'

/-- The course of a saver is an invariant: nothing else may happen to it. -/
theorem course_invariant (world : σ) : Invariant m.recorded (Course m world) where
  wake h _ := h.move (.wake ..)
  handles handles h := h.move (.handles _ handles)
  save t h hp := h.save t hp
  tick h hp hd := h.move (.tick hp hd)
  abandon h hp hh := h.move (.abandon hp hh)
  shut h hp := h.move (.shut hp)
  answer h hw he := h.move (.answer hw he)

/-- An invariant holds at every point of a course if it does not depend on when time passes. -/
theorem Invariant.course {m : Setup σ} {world : σ} {P : List Team → State (Recorded σ) → Prop}
    (hP : Invariant m.recorded P) (hstart : P [] (start m.recorded { world }))
    (hwake : ∀ saved s time, P saved s → P saved (s.wake time))
    (halter : ∀ (f : σ → σ) saved s, P saved s →
      P saved { s with world := { s.world with world := f s.world.world } })
    {saved : List Team} {s : State (Recorded σ)} (h : Course m world saved s) : P saved s := by
  induction h with
  | start => exact hstart
  | save t _ hp ih => exact hP.save t ih hp
  | move _ hs ih =>
    cases hs with
    | wake time => exact hwake _ _ time ih
    | alter f => exact halter f _ _ ih
    | handles handles => exact hP.handles handles ih
    | tick hp hd => exact hP.tick ih hp hd
    | abandon hp hh => exact hP.abandon ih hp hh
    | shut hp => exact hP.shut ih hp
    | answer hw he => exact hP.answer ih hw he

/-! ## Every run is a course -/

theorem Op.acknowledged_recorded (op : Op σ) (o : Outcome) :
    op.recorded.acknowledged o = op.acknowledged o := by
  cases op <;> cases o <;> rfl

theorem State.acknowledged_recorded (s : State (Recorded σ)) (ops : List (Op σ)) :
    s.acknowledged m.recorded (ops.map Op.recorded) = s.forget.acknowledged m ops := by
  induction ops generalizing s with
  | nil => rfl
  | cons op ops ih =>
    obtain ⟨hs, ho⟩ := State.forget_step m s op
    rw [List.map_cons, acknowledged, acknowledged, Op.acknowledged_recorded, ho, ih, hs]

/-- In a recorded world nothing changes on its own but the world that is recorded. -/
theorem exists_alter_of_mem_recorded {ops : List (Op σ)} {g : Recorded σ → Recorded σ}
    (h : .alter g ∈ ops.map Op.recorded) :
    ∃ f : σ → σ, g = fun r => { r with world := f r.world } := by
  obtain ⟨op, -, hop⟩ := List.mem_map.1 h
  cases op with
  | alter f =>
    cases hop
    exact ⟨f, rfl⟩
  | _ => cases hop

/-- An invariant of the recorded saver holds after every run of operations. -/
theorem Invariant.after_recorded {m : Setup σ} {P : List Team → State (Recorded σ) → Prop}
    (hP : Invariant m.recorded P) {s : State (Recorded σ)} {saved : List Team} (h : P saved s)
    (halter : ∀ (f : σ → σ) saved s, P saved s →
      P saved { s with world := { s.world with world := f s.world.world } })
    (ops : List (Op σ)) :
    P (saved ++ s.forget.acknowledged m ops) (s.after m.recorded (ops.map Op.recorded)) := by
  rw [← State.acknowledged_recorded]
  refine hP.after h _ ?_
  intro g hg saved s hs
  obtain ⟨f, rfl⟩ := exists_alter_of_mem_recorded hg
  exact halter f saved s hs

def recordedRun (world : σ) (ops : List (Op σ)) : State (Recorded σ) :=
  (start m.recorded { world }).after m.recorded (ops.map Op.recorded)

def calls (world : σ) (ops : List (Op σ)) : List Call :=
  (recordedRun m world ops).world.calls

theorem recordedRun_append (world : σ) (ops more : List (Op σ)) :
    recordedRun m world (ops ++ more) =
      (recordedRun m world ops).after m.recorded (more.map Op.recorded) := by
  rw [recordedRun, List.map_append, State.after_append]
  rfl

theorem forget_recordedRun (world : σ) (ops : List (Op σ)) :
    (recordedRun m world ops).forget = (start m world).after m ops :=
  State.forget_after ..

theorem course_recordedRun (world : σ) (ops : List (Op σ)) :
    Course m world ((start m world).acknowledged m ops) (recordedRun m world ops) := by
  have hstart : Course m world [] (start m.recorded { world }) := .start
  have h := (course_invariant m world).after_recorded hstart
    (fun f _ s hs => hs.move (.alter s f)) ops
  rw [List.nil_append] at h
  exact h

end Roster.Saver
