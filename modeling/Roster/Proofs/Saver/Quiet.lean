import Roster.Proofs.Saver.Schedule

/-!
A saver whose calls are answered at once. The owner is free again before the clock moves, and as
long as no time passes it does no more on its own than to end a flush.
-/

namespace Roster

variable {σ : Type}

/-- A property of worlds in which every call is answered at once, and which calls keep. -/
structure Quiet (repo : Repo σ) (P : σ → Prop) : Prop where
  delay {world : σ} (ts : List Team) : P world → (repo world ts).2.delay = 0
  next {world : σ} (ts : List Team) : P world → P (repo world ts).1

theorem Quiet.recorded {repo : Repo σ} {P : σ → Prop} (hq : Quiet repo P) :
    Quiet repo.recorded fun r => P r.world where
  delay ts h := hq.delay ts h
  next ts h := hq.next ts h

theorem quiet_rehearsal : Quiet Rehearsal.repo fun r => r.script.delay = 0 where
  delay _ h := h
  next _ h := h

namespace Saver

variable {m : Setup σ} {P : σ → Prop} {s : State σ}

namespace State

/-! ## A saver that does not have to wait -/

/-- The world is quiet, and the answer to a call in progress has come. -/
structure Calm (P : σ → Prop) (s : State σ) : Prop where
  world : P s.world
  prompt : s.Prompt

theorem calm_sendNext (hq : Quiet m.repo P) (hs : P s.world) (trigger : Trigger)
    (pending index : Nat) (failed : List Team) (cs : List (List Team)) :
    (s.sendNext m trigger pending index failed cs).Calm P := by
  refine ⟨?_, prompt_sendNext ?_⟩
  · cases cs with
    | nil => cases trigger <;> exact hs
    | cons c cs => exact hq.next c hs
  · intro chunk reply hcall
    rw [reply_of_mem_sending hcall]
    exact hq.delay chunk hs

theorem Calm.beginFlush (hq : Quiet m.repo P) (h : s.Calm P) (trigger : Trigger) :
    (s.beginFlush m trigger).Calm P := by
  rw [beginFlush_eq_sendNext]
  refine calm_sendNext hq ?_ ..
  exact h.world

theorem Calm.accept (hq : Quiet m.repo P) (h : s.Calm P) (t : Team) : (s.accept m t).Calm P := by
  have hpush : { s with buffer := s.buffer ++ [t] }.Calm P := ⟨h.world, h.prompt⟩
  by_cases hfull : m.capacity ≤ (s.buffer ++ [t]).length
  · rw [accept_of_full m hfull]
    exact hpush.beginFlush hq .capacity
  · rw [accept_of_not_full m hfull]
    exact hpush

theorem Calm.takeAnswer (hq : Quiet m.repo P) (h : s.Calm P) (w : Writing) :
    (s.takeAnswer m w).Calm P := by
  refine calm_sendNext hq ?_ ..
  exact h.world

theorem Calm.wake_eq (h : s.Calm P) {w : Writing} (hw : s.phase = .writing w) :
    s.wake w.ends = s := by
  rw [wake, Nat.max_eq_left (h.prompt w hw)]

/-- Without time passing, the owner first of all ends the flush in progress. -/
theorem Calm.settle_await (hq : Quiet m.repo P) (h : s.Calm P) :
    (s.await m).settle m = s.settle m := by
  induction s using await.induct m with
  | case1 s w hw ih =>
    -- the answer has come, so the owner takes it before anything else
    have hstep : s.step? m s.clock = some ((s.wake w.ends).takeAnswer m w) :=
      (step?_eq_some_iff m).2 (.answer hw (h.prompt w hw))
    rw [await_of_writing m hw]
    rw [h.wake_eq hw] at hstep ih ⊢
    rw [ih (h.takeAnswer hq w), settle, settle, clock_takeAnswer, run_of_some m hstep]
  | case2 s hs => rw [await_of_idle m hs]

theorem calm_invariant (hq : Quiet m.repo P) : Invariant m fun _ s => s.Calm P where
  wake h _ := ⟨h.world, fun w hw => Nat.le_trans (h.prompt w hw) (Nat.le_max_left ..)⟩
  handles _ h := ⟨h.world, h.prompt⟩
  save t h _ := h.accept hq t
  tick := by
    intro saved s h _ _
    have hset : { s with due := nextDue m.interval s.due s.clock }.Calm P := ⟨h.world, h.prompt⟩
    exact hset.beginFlush hq .interval
  abandon h _ _ := ⟨h.world, h.prompt⟩
  shut h _ := h.beginFlush hq .shutdown
  answer h _ _ := h.takeAnswer hq _

theorem calm_after (hq : Quiet m.repo P) {world : σ} (hw : P world) {ops : List (Op σ)}
    (halter : ∀ f, .alter f ∈ ops → ∀ world, P world → P (f world)) :
    ((start m world).after m ops).Calm P := by
  have hstart : (start m world).Calm P := ⟨hw, prompt_of_waiting rfl⟩
  refine @Invariant.after σ m _ [] _ (calm_invariant hq) hstart ops ?_
  intro f hf _ s hs
  exact ⟨halter f hf _ hs.world, hs.prompt⟩

/-- Somebody holds the saver besides, and no tick is due. -/
structure Steady (P : σ → Prop) (s : State σ) : Prop extends s.Calm P where
  held : s.isHeld = true
  early : s.openness = 1 → s.clock < s.due

theorem handles_finish (s : State σ) (trigger : Trigger) (pending : Nat) (failed : List Team) :
    (s.finish m trigger pending failed).handles = s.handles := by
  cases trigger <;> rfl

theorem handles_sendNext (s : State σ) (trigger : Trigger) (pending index : Nat)
    (failed : List Team) (cs : List (List Team)) :
    (s.sendNext m trigger pending index failed cs).handles = s.handles := by
  cases cs with
  | nil => exact handles_finish ..
  | cons c cs => rfl

theorem handles_beginFlush (s : State σ) (trigger : Trigger) :
    (s.beginFlush m trigger).handles = s.handles := by
  rw [beginFlush_eq_sendNext]
  exact handles_sendNext ..

theorem handles_accept (s : State σ) (t : Team) : (s.accept m t).handles = s.handles := by
  by_cases hfull : m.capacity ≤ (s.buffer ++ [t]).length
  · rw [accept_of_full m hfull]
    exact handles_beginFlush ..
  · rw [accept_of_not_full m hfull]

theorem handles_await (s : State σ) : (s.await m).handles = s.handles := by
  induction s using await.induct m with
  | case1 s w hw ih =>
    rw [await_of_writing m hw, ih]
    exact handles_sendNext ..
  | case2 s hs => rw [await_of_idle m hs]

theorem handles_submit (s : State σ) (r : Request) : (s.submit m r).1.handles = s.handles := by
  obtain hp | hp := phase_await m s
  · cases r with
    | save t => rw [submit_save_of_waiting m hp, handles_accept, handles_await]
    | close =>
      rw [submit_close_of_waiting m hp, handles_await, handles_beginFlush, handles_await]
  · rw [submit_of_shut m (openness_of_await_closed m hp)]
    dsimp only
    split
    · exact handles_await s
    · rfl

/-- What happens at once, and does not open the saver, keeps it steady. -/
theorem Steady.congr {s' : State σ} (h : s.Steady P) (hcalm : s'.Calm P)
    (hhandles : s'.handles = s.handles) (hclock : s'.clock = s.clock) (hdue : s'.due = s.due)
    (hopen : s'.openness = 1 → s.openness = 1) : s'.Steady P := by
  refine ⟨hcalm, ?_, ?_⟩
  · rw [isHeld, hhandles]
    exact h.held
  · intro ho
    rw [hclock, hdue]
    exact h.early (hopen ho)

theorem Steady.beginFlush (hq : Quiet m.repo P) (h : s.Steady P) (hp : s.phase = .waiting)
    (trigger : Trigger) : (s.beginFlush m trigger).Steady P := by
  refine h.congr (h.toCalm.beginFlush hq trigger) (handles_beginFlush ..) (clock_beginFlush ..)
    (due_beginFlush ..) ?_
  intro _
  exact openness_of_waiting hp

theorem Steady.accept (hq : Quiet m.repo P) (h : s.Steady P) (hp : s.phase = .waiting) (t : Team) :
    (s.accept m t).Steady P := by
  refine h.congr (h.toCalm.accept hq t) (handles_accept ..) (clock_accept ..) (due_accept ..) ?_
  intro _
  exact openness_of_waiting hp

theorem Steady.takeAnswer (hq : Quiet m.repo P) (h : s.Steady P) {w : Writing}
    (hw : s.phase = .writing w) : (s.takeAnswer m w).Steady P := by
  refine h.congr (h.toCalm.takeAnswer hq w) (handles_sendNext ..) (clock_takeAnswer ..)
    (due_takeAnswer ..) ?_
  intro ho
  rw [openness_takeAnswer] at ho
  simpa only [openness, hw] using ho

theorem Steady.await (hq : Quiet m.repo P) (h : s.Steady P) : (s.await m).Steady P := by
  induction s using await.induct m with
  | case1 s w hw ih =>
    rw [await_of_writing m hw]
    rw [h.wake_eq hw] at ih ⊢
    exact ih (h.takeAnswer hq hw)
  | case2 s hs =>
    rw [await_of_idle m hs]
    exact h

theorem Steady.submit (hq : Quiet m.repo P) (h : s.Steady P) (r : Request) :
    (s.submit m r).1.Steady P := by
  obtain hp | hp := phase_await m s
  · cases r with
    | save t =>
      rw [submit_save_of_waiting m hp]
      exact (h.await hq).accept hq hp t
    | close =>
      rw [submit_close_of_waiting m hp]
      exact ((h.await hq).beginFlush hq hp .shutdown).await hq
  · rw [submit_of_shut m (openness_of_await_closed m hp)]
    dsimp only
    split
    · exact h.await hq
    · exact h

/-- Without time passing, the owner does no more than to end a flush. -/
theorem Steady.settle_eq (hq : Quiet m.repo P) (h : s.Steady P) : s.settle m = s.await m := by
  have hsteady := h.await hq
  rw [← h.settle_await hq]
  obtain hp | hp := phase_await m s
  · -- the saver is held and no tick is due
    have ho := openness_of_waiting hp
    exact run_of_none m (step?_eq_none_of_lt_due hp (by simp [hsteady.held]) (hsteady.early ho))
  · exact settle_of_closed hp

theorem isHeld_of_holds {handle : Nat} (h : s.holds handle = true) : s.isHeld = true := by
  rw [holds, List.getD_eq_getElem?_getD] at h
  cases hget : s.handles[handle]? with
  | none =>
    rw [hget] at h
    cases h
  | some b =>
    rw [hget] at h
    exact List.any_eq_true.2 ⟨b, List.mem_of_getElem? hget, h⟩

/-- Between operations the owner is free, or the saver closed. -/
theorem phase_after (hq : Quiet m.repo P) {world : σ} (hw : P world) {ops : List (Op σ)}
    (halter : ∀ f, .alter f ∈ ops → ∀ world, P world → P (f world)) :
    ((start m world).after m ops).phase = .waiting ∨
      ((start m world).after m ops).phase = .closed := by
  have hcalm := calm_after (m := m) hq hw halter
  have hnone := step?_after (m := m) world ops
  cases hp : ((start m world).after m ops).phase with
  | waiting => exact .inl rfl
  | closed => exact .inr rfl
  | writing w =>
    exact absurd (lt_ends_of_step?_eq_none hnone hp) (Nat.not_lt.2 (hcalm.prompt w hp))

theorem steady_after (hq : Quiet m.repo P) {world : σ} (hw : P world) {ops : List (Op σ)}
    (halter : ∀ f, .alter f ∈ ops → ∀ world, P world → P (f world))
    (hheld : ((start m world).after m ops).isHeld = true) :
    ((start m world).after m ops).Steady P := by
  refine ⟨calm_after hq hw halter, hheld, ?_⟩
  intro ho
  have hnone := step?_after (m := m) world ops
  obtain hp | hp := phase_after (m := m) hq hw halter
  · exact lt_due_of_step?_eq_none hnone hp
  · cases ho.symm.trans (openness_of_closed hp)

end State

end Saver

end Roster
