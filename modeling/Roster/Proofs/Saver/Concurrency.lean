import Roster.Proofs.Saver.Interleaving

/-!
Requests that are made at the same time. If every call is answered at once, it does not matter in
which order the channel and the owner take them on: they get the same answers, cause the same calls
and reports, and leave the same state as when they are made one after the other.
-/

namespace Roster

variable {σ : Type}

namespace Saver

variable {m : Setup σ} {P : σ → Prop} {s : State σ}

namespace State

/-! ## One after the other -/

variable (m) in
def outcomes (s : State σ) : List (Op σ) → List Outcome
  | [] => []
  | op :: ops => (s.step m op).2 :: (s.step m op).1.outcomes ops

theorem phase_submit_of_shut (h : s.openness = 0 → s.phase = .closed) (r : Request)
    (hshut : (s.submit m r).1.openness = 0) : (s.submit m r).1.phase = .closed := by
  cases r with
  | close => exact phase_submit_close
  | save t =>
    obtain hs | hs := openness_eq s
    · rw [submit_of_closed m (h hs)]
      exact h hs
    · have hp := phase_await_of_open m hs
      rw [submit_save_of_waiting m hp] at hshut
      cases (openness_accept m hp t).symm.trans hshut

theorem Steady.step_submit (hq : Quiet m.repo P) (h : s.Steady P)
    (hs : s.openness = 0 → s.phase = .closed) {handle : Nat} (hh : s.holds handle = true)
    (r : Request) :
    (s.settle m).step m (.submit handle r) =
      ((s.submit m r).1.settle m, .answer (s.submit m r).2) := by
  have hholds : (s.await m).holds handle = true := by
    rw [holds, handles_await]
    exact hh
  rw [h.settle_eq hq, step, apply_submit_of_holds m hholds, submit_await hs]

/-- Whether the owner comes to rest between requests makes no difference. -/
theorem Steady.submitAll_eq (hq : Quiet m.repo P) (h : s.Steady P)
    (hs : s.openness = 0 → s.phase = .closed) {handle : Nat} (hh : s.holds handle = true)
    (rs : List Request) :
    (s.submitAll m rs).1.settle m = (s.settle m).after m (rs.map (.submit handle)) ∧
      (s.settle m).outcomes m (rs.map (.submit handle)) =
        (s.submitAll m rs).2.map .answer := by
  induction rs generalizing s with
  | nil => exact ⟨rfl, rfl⟩
  | cons r rs ih =>
    have hnext : (s.submit m r).1.holds handle = true := by
      rw [holds, handles_submit]
      exact hh
    -- the others follow on a state in which a flush may still be in progress
    obtain ⟨hstate, houtcomes⟩ := ih (h.submit hq r) (phase_submit_of_shut hs r) hnext
    have hstep := h.step_submit hq hs hh r
    refine ⟨?_, ?_⟩
    · rw [List.map_cons, after_cons, hstep]
      exact hstate
    · rw [List.map_cons, outcomes, hstep, houtcomes]
      rfl

theorem Steady.submitAll (hq : Quiet m.repo P) (h : s.Steady P) (rs : List Request) :
    (s.submitAll m rs).1.Steady P := by
  induction rs generalizing s with
  | nil => exact h
  | cons r rs ih => exact ih (h.submit hq r)

/-- Between operations a saver is closed as soon as it is shut. -/
theorem phase_after_of_shut (hq : Quiet m.repo P) {world : σ} (hw : P world) {ops : List (Op σ)}
    (halter : ∀ f, .alter f ∈ ops → ∀ world, P world → P (f world))
    (hshut : ((start m world).after m ops).openness = 0) :
    ((start m world).after m ops).phase = .closed := by
  obtain hp | hp := phase_after (m := m) hq hw halter
  · cases (openness_of_waiting hp).symm.trans hshut
  · exact hp

theorem step_together (hq : Quiet m.repo P) {world : σ} (hw : P world) {ops : List (Op σ)}
    (halter : ∀ f, .alter f ∈ ops → ∀ world, P world → P (f world)) {handle : Nat}
    (hh : ((start m world).after m ops).holds handle = true) (rs : List Request) :
    let s := (start m world).after m ops
    let oneByOne : List (Op σ) := rs.map (.submit handle)
    s.step m (.together handle rs) = (s.after m oneByOne, .answers (s.submitAll m rs).2) ∧
      s.outcomes m oneByOne = (s.submitAll m rs).2.map .answer := by
  intro s oneByOne
  have hsteady : s.Steady P := steady_after hq hw halter (isHeld_of_holds hh)
  have hsettle : s.settle m = s := run_of_none m (step?_after world ops)
  obtain ⟨hstate, houtcomes⟩ :=
    hsteady.submitAll_eq hq (phase_after_of_shut hq hw halter) hh rs
  rw [hsettle] at hstate houtcomes
  refine ⟨?_, houtcomes⟩
  rw [step, apply_together_of_holds m hh]
  exact congrArg (·, Outcome.answers (s.submitAll m rs).2) hstate

/-- However the requests come to the owner, they leave the same state and get the same answers. -/
theorem of_interleaving (hq : Quiet m.repo P) {world : σ} (hw : P world) {ops : List (Op σ)}
    (halter : ∀ f, .alter f ∈ ops → ∀ world, P world → P (f world)) {handle : Nat}
    (hh : ((start m world).after m ops).holds handle = true) {rs : List Request} {x : Exchange σ}
    (hx : Interleaving m ((start m world).after m ops) rs x) (hover : x.IsOver) :
    let s := (start m world).after m ops
    x.saver.settle m = s.after m (rs.map (.submit handle)) ∧
      x.answers = (s.submitAll m rs).2 := by
  intro s
  have hsteady : s.Steady P := steady_after hq hw halter (isHeld_of_holds hh)
  have hsettle : s.settle m = s := run_of_none m (step?_after world ops)
  obtain ⟨hstate, hanswers⟩ :=
    (Exchange.Underway.of_interleaving hq hsteady hx).of_over hq hover
  obtain ⟨hone, -⟩ := hsteady.submitAll_eq hq (phase_after_of_shut hq hw halter) hh rs
  rw [hsettle, (hsteady.submitAll hq rs).settle_eq hq] at hone
  exact ⟨hstate.trans hone, hanswers⟩

/-! ## The answers -/

/-- An open saver takes every team up to the first close, and none after it. -/
theorem answers_submitAll (h : s.openness = 1) (rs : List Request) :
    (s.submitAll m rs).2 =
      (rs.takeWhile (· ≠ .close)).map (fun _ => .saved) ++
        (rs.dropWhile (· ≠ .close)).map Request.late := by
  induction rs generalizing s with
  | nil => rfl
  | cons r rs ih =>
    have hp := phase_await_of_open m h
    cases r with
    | save t =>
      have hrest := ih (openness_accept m hp t)
      simp [submitAll, submit_save_of_waiting m hp, hrest]
    | close =>
      have hclosed : (s.submit m .close).1.phase = .closed := phase_submit_close
      have hrest := submitAll_of_closed (m := m) hclosed rs
      rw [submit_close_of_waiting m hp] at hrest
      simp [submitAll, submit_close_of_waiting m hp, hrest, Request.late]

/-! ## The last flush -/

theorem count_shutdown_beginFlush (s : State σ) (trigger : Trigger) :
    (triggers (s.beginFlush m trigger).log).count .shutdown =
      (triggers s.log).count .shutdown + if trigger = .shutdown then 1 else 0 := by
  have hnew : triggers [.flushing trigger s.buffer.length] = [trigger] := rfl
  rw [(follows_beginFlush m s trigger).triggers_eq, triggers_append, hnew, List.count_append,
    List.count_singleton]
  simp

/-- The last flush has begun once or the saver is open, and not both. -/
def ShutOnce (s : State σ) : Prop :=
  (triggers s.log).count .shutdown + s.openness = 1

theorem shutOnce_beginFlush (h : s.ShutOnce) (hp : s.phase = .waiting) (trigger : Trigger) :
    (s.beginFlush m trigger).ShutOnce := by
  have ho := openness_of_waiting hp
  rw [ShutOnce, ho] at h
  rw [ShutOnce, count_shutdown_beginFlush, openness_beginFlush]
  split <;> omega

theorem shutOnce_invariant (m : Setup σ) : Invariant m fun _ s => s.ShutOnce where
  wake h _ := h
  handles _ h := h
  save := by
    intro saved s t h hp
    by_cases hfull : m.capacity ≤ (s.buffer ++ [t]).length
    · rw [accept_of_full m hfull]
      exact shutOnce_beginFlush (s := { s with buffer := s.buffer ++ [t] }) h hp .capacity
    · rw [accept_of_not_full m hfull]
      exact h
  tick := by
    intro saved s h hp _
    exact shutOnce_beginFlush (s := { s with due := nextDue m.interval s.due s.clock }) h hp
      .interval
  abandon := by
    intro saved s h _ _
    have hlog : Follows s.log (s.report [.abandoned]).log := .append rfl
    rw [ShutOnce, hlog.triggers_eq]
    exact h
  shut h hp := shutOnce_beginFlush h hp .shutdown
  answer := by
    intro saved s w h hw _
    rw [ShutOnce, (follows_takeAnswer m s w).triggers_eq, openness_takeAnswer]
    simpa only [ShutOnce, openness, hw] using h

theorem shutOnce_after (world : σ) (ops : List (Op σ)) :
    ((start m world).after m ops).ShutOnce := by
  have hstart : (start m world).ShutOnce := rfl
  exact @Invariant.after σ m _ [] _ (shutOnce_invariant m) hstart ops fun _ _ _ _ hs => hs

theorem ShutOnce.submitAll (h : s.ShutOnce) (rs : List Request) : (s.submitAll m rs).1.ShutOnce :=
  @Invariant.submitAll σ m _ [] _ (shutOnce_invariant m) h rs

theorem count_shutdown_of_closed (h : s.ShutOnce) (hs : s.phase = .closed) :
    (triggers s.log).count .shutdown = 1 := by
  have ho := openness_of_closed hs
  rwa [ShutOnce, ho] at h

theorem phase_submitAll_close (s : State σ) (before : List Request) :
    (s.submitAll m (before ++ [.close])).1.phase = .closed := by
  rw [submitAll_append]
  exact phase_submit_close

/-- When a close is answered, everything has happened that the requests will cause. -/
theorem step_together_of_close {handle : Nat} (hh : s.holds handle = true)
    (before later : List Request) :
    (s.step m (.together handle (before ++ .close :: later))).1 =
      (s.submitAll m (before ++ [.close])).1 := by
  have hclosed := phase_submitAll_close (m := m) s before
  have hall : (s.submitAll m (before ++ .close :: later)).1 =
      (s.submitAll m (before ++ [.close])).1 := by
    rw [List.append_cons, submitAll_append, submitAll_of_closed hclosed]
  rw [step, apply_together_of_holds m hh]
  dsimp only
  rw [hall, settle_of_closed hclosed]

end State

open State

/-- If the changes of the world keep a property, they keep it in a recorded world. -/
theorem alter_recorded {ops : List (Op σ)}
    (halter : ∀ f, .alter f ∈ ops → ∀ world, P world → P (f world)) :
    ∀ g, .alter g ∈ ops.map Op.recorded → ∀ r : Recorded σ, P r.world → P (g r).world := by
  intro g hg r hr
  obtain ⟨op, hop, hg⟩ := List.mem_map.1 hg
  cases op with
  | alter f =>
    cases hg
    exact halter f hop _ hr
  | _ => cases hg

theorem recordedRun_together (hq : Quiet m.repo P) {world : σ} (hw : P world) {ops : List (Op σ)}
    (halter : ∀ f, .alter f ∈ ops → ∀ world, P world → P (f world)) {handle : Nat}
    (hh : ((start m world).after m ops).holds handle = true) (rs : List Request) :
    recordedRun m world (ops ++ [.together handle rs]) =
      recordedRun m world (ops ++ rs.map (.submit handle)) := by
  have hh' : (recordedRun m world ops).holds handle = true := by
    rw [← holds_forget, forget_recordedRun]
    exact hh
  obtain ⟨hstep, -⟩ := @step_together (Recorded σ) m.recorded _ hq.recorded { world } hw _
    (alter_recorded halter) _ hh' rs
  have heach : (rs.map fun r => (.submit handle r : Op σ)).map Op.recorded =
      rs.map (.submit handle) := by
    rw [List.map_map]
    rfl
  rw [recordedRun_append, recordedRun_append, heach]
  exact congrArg Prod.fst hstep

theorem calls_of_interleaving (hq : Quiet m.repo P) {world : σ} (hw : P world) {ops : List (Op σ)}
    (halter : ∀ f, .alter f ∈ ops → ∀ world, P world → P (f world)) {handle : Nat}
    (hh : ((start m world).after m ops).holds handle = true) {rs : List Request}
    {x : Exchange (Recorded σ)} (hx : Interleaving m.recorded (recordedRun m world ops) rs x)
    (hover : x.IsOver) :
    (x.saver.settle m.recorded).world.calls = calls m world (ops ++ rs.map (.submit handle)) := by
  have hh' : (recordedRun m world ops).holds handle = true := by
    rw [← holds_forget, forget_recordedRun]
    exact hh
  obtain ⟨hstate, -⟩ := @of_interleaving (Recorded σ) m.recorded _ hq.recorded { world } hw _
    (alter_recorded halter) _ hh' _ _ hx hover
  rw [hstate, calls, recordedRun_append, List.map_map]
  rfl

/-- If every call is answered at once, requests that are made at the same time get the answers that
they get when they are made one after the other, with the same calls, and leave the same saver,
whichever way they come through the channel: no way gets stuck or goes on for ever. An open saver
takes the teams up to the first close and refuses those after it, a closed one refuses all. Every
close is answered when the saver is closed, after one last flush, and with that everything is
over. -/
theorem together_eq_one_by_one (m : Setup σ) {P : σ → Prop} (hq : Quiet m.repo P) {world : σ}
    (hw : P world) {ops : List (Op σ)}
    (halter : ∀ f, .alter f ∈ ops → ∀ world, P world → P (f world)) {handle : Nat}
    (hh : ((start m world).after m ops).holds handle = true) (rs : List Request) :
    let s := (start m world).after m ops
    let oneByOne : List (Op σ) := rs.map (.submit handle)
    ∃ answers : List Answer,
      s.step m (.together handle rs) = (s.after m oneByOne, .answers answers) ∧
      s.outcomes m oneByOne = answers.map .answer ∧
      calls m world (ops ++ [.together handle rs]) = calls m world (ops ++ oneByOne) ∧
      (∀ x, Interleaving m s rs x → x.IsOver →
        x.saver.settle m = s.after m oneByOne ∧ x.answers = answers) ∧
      (∀ x, Interleaving m.recorded (recordedRun m world ops) rs x → x.IsOver →
        (x.saver.settle m.recorded).world.calls = calls m world (ops ++ oneByOne)) ∧
      (∀ x, Interleaving m s rs x → ¬x.IsOver → ∃ y, Exchange.Step m x y) ∧
      (∀ xs : Nat → Exchange σ, xs 0 = s.exchanging rs →
        ¬∀ n, Exchange.Step m (xs n) (xs (n + 1))) ∧
      (s.isClosed = true → answers = rs.map Request.late) ∧
      (s.isClosed = false → answers =
        (rs.takeWhile (· ≠ .close)).map (fun _ => .saved) ++
          (rs.dropWhile (· ≠ .close)).map Request.late) ∧
      ∀ before later, rs = before ++ .close :: later →
        let told := (s.submitAll m (before ++ [.close])).1
        told.isClosed = true ∧ (triggers told.log).count .shutdown = 1 ∧
          s.after m oneByOne = told := by
  intro s oneByOne
  have hsteady : s.Steady P := steady_after hq hw halter (isHeld_of_holds hh)
  obtain ⟨hstep, houtcomes⟩ := step_together hq hw halter hh rs
  refine ⟨(s.submitAll m rs).2, hstep, houtcomes, ?_, ?_, ?_, ?_, ?_, ?_, ?_, ?_⟩
  · rw [calls, calls, recordedRun_together hq hw halter hh]
  · intro x hx hover
    exact of_interleaving hq hw halter hh hx hover
  · intro x hx hover
    exact calls_of_interleaving hq hw halter hh hx hover
  · intro x hx hover
    exact (Exchange.Underway.of_interleaving hq hsteady hx).sound.exists_step hover
  · intro xs hstart
    exact not_forever hq hsteady hstart
  · intro hclosed
    rw [submitAll_of_closed (isClosed_iff.1 hclosed)]
  · intro hopen
    refine answers_submitAll ?_ rs
    obtain hp | hp := phase_after (m := m) hq hw halter
    · exact openness_of_waiting hp
    · rw [isClosed_iff.2 hp] at hopen
      cases hopen
  · rintro before later rfl told
    have hclosed : told.phase = .closed := phase_submitAll_close s before
    have hshut : told.ShutOnce := (shutOnce_after world ops).submitAll _
    refine ⟨isClosed_iff.2 hclosed, count_shutdown_of_closed hshut hclosed, ?_⟩
    exact (congrArg Prod.fst hstep).symm.trans (step_together_of_close hh before later)

/-- The batch that was refused is in the buffer, and one more team makes it full. -/
theorem together_trial :
    let s := (start trial trialWorld).after trial trialOps
    let requests : List Request :=
      [.save ⟨3, "c", "", false⟩, .close, .save ⟨4, "d", "", false⟩, .close]
    Quiet trial.repo (fun r => r.script.delay = 0) ∧ trialWorld.script.delay = 0 ∧
    s.holds 0 = true ∧
    (s.step trial (.together 0 requests)).2 = .answers [.saved, .closed, .refused, .closed] ∧
    (s.step trial (.together 0 requests)).1 = s.after trial (requests.map (.submit 0)) := by
  intro s requests
  have hw : trialWorld.script.delay = 0 := rfl
  have halter : ∀ f, .alter f ∈ trialOps → ∀ r : Rehearsal, r.script.delay = 0 →
      (f r).script.delay = 0 := by
    intro f hf
    simp [trialOps] at hf
  have hh : ((start trial trialWorld).after trial trialOps).holds 0 = true := by cbv
  have hopen : ((start trial trialWorld).after trial trialOps).isClosed = false := by cbv
  obtain ⟨answers, hstep, -, -, -, -, -, -, -, hanswers, -⟩ :=
    together_eq_one_by_one trial quiet_rehearsal hw halter hh requests
  have htold : answers = [.saved, .closed, .refused, .closed] := hanswers hopen
  rw [hstep, htold]
  exact ⟨quiet_rehearsal, hw, hh, rfl, rfl⟩

/-- A saver that is already closed has live handles, and takes no team even before a close. -/
theorem together_refused_after_close :
    let s := (start trial trialWorld).after trial [.submit 0 .close]
    s.holds 0 = true ∧
      (s.step trial (.together 0 [.save ⟨1, "a", "", false⟩])).2 = .answers [.refused] ∧
      ¬∀ (requests : List Request) answers,
        (s.step trial (.together 0 requests)).2 = .answers answers →
          (requests.takeWhile (· ≠ .close)).map (fun _ => .saved) <+: answers := by
  intro s
  have hh : ((start trial trialWorld).after trial [.submit 0 .close]).holds 0 = true := by cbv
  have hrefused : (((start trial trialWorld).after trial [.submit 0 .close]).step trial
      (.together 0 [.save ⟨1, "a", "", false⟩])).2 = .answers [.refused] := by cbv
  refine ⟨hh, hrefused, ?_⟩
  intro htaken
  have hsaved := htaken _ _ hrefused
  simp at hsaved

end Saver

end Roster
