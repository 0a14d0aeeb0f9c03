import Roster.Proofs.Saver.Ticks

/-!
When the timer makes a saver flush. If no call has to be waited for, no tick is ever late, and so
they are at the multiples of the interval.
-/

namespace Roster.Saver

variable {σ : Type} {m : Setup σ} {s s' : State σ}

/-! ## Answers that come at once -/

namespace State

/-- The answer to a call in progress has come. -/
def Prompt (s : State σ) : Prop :=
  ∀ w, s.phase = .writing w → w.ends ≤ s.clock

theorem prompt_of_waiting (h : s.phase = .waiting) : s.Prompt := by
  intro w hw
  cases h.symm.trans hw

theorem prompt_finish (trigger : Trigger) (pending : Nat) (failed : List Team) :
    (s.finish m trigger pending failed).Prompt := by
  intro w hw
  cases trigger <;> cases hw

theorem prompt_sendNext {trigger : Trigger} {pending index : Nat} {failed : List Team}
    {cs : List (List Team)} (hnew : (s.sending m cs).Prompt) :
    (s.sendNext m trigger pending index failed cs).Prompt := by
  cases cs with
  | nil => exact prompt_finish trigger pending failed
  | cons c cs =>
    intro w hw
    cases hw
    have hdelay : (m.repo s.world c).2.delay = 0 := hnew c _ (List.mem_singleton_self _)
    rw [clock_sendNext]
    simp only [hdelay]
    exact Nat.le_refl _

theorem prompt_beginFlush {trigger : Trigger} (hnew : (s.flushing m trigger).Prompt) :
    (s.beginFlush m trigger).Prompt := by
  rw [beginFlush_eq_sendNext]
  refine prompt_sendNext ?_
  intro chunk reply hcall
  exact hnew chunk reply (List.mem_cons_of_mem _ hcall)

theorem prompt_accept {t : Team} (hp : s.phase = .waiting) (hnew : (s.accepting m t).Prompt) :
    (s.accept m t).Prompt := by
  by_cases hfull : m.capacity ≤ (s.buffer ++ [t]).length
  · rw [accepting_of_full m s hfull] at hnew
    rw [accept_of_full m hfull]
    refine prompt_beginFlush ?_
    intro chunk reply hcall
    exact hnew chunk reply (List.mem_cons_of_mem _ hcall)
  · rw [accept_of_not_full m hfull]
    exact prompt_of_waiting hp

theorem openness_le_one (s : State σ) : s.openness ≤ 1 := by
  unfold openness
  split
  · exact Nat.le_refl _
  · split <;> omega
  · exact Nat.zero_le _

end State

namespace Turn

variable {new : History}

theorem prompt (ht : Turn m s new s') (hs : s.Prompt) (hnew : new.Prompt) : s'.Prompt := by
  cases ht with
  | wake hnone =>
    intro w hw
    exact Nat.le_trans (hs w hw) (Nat.le_max_left ..)
  | alter f => exact hs
  | handles handles => exact hs
  | abandon hp hh => exact hs
  | save t hp => exact State.prompt_accept hp hnew
  | tick hp hd => exact State.prompt_beginFlush hnew
  | shut hp => exact State.prompt_beginFlush hnew
  | answer hw he => exact State.prompt_sendNext hnew

/-- The last flush is never undone. -/
theorem openness_le (ht : Turn m s new s') : s'.openness ≤ s.openness := by
  have hfree : s.phase = .waiting → s'.openness ≤ s.openness := by
    intro hp
    have hopen : s.openness = 1 := by simp only [State.openness, hp]
    rw [hopen]
    exact s'.openness_le_one
  cases ht with
  | wake hnone => exact Nat.le_refl _
  | alter f => exact Nat.le_refl _
  | handles handles => exact Nat.le_refl _
  | abandon hp hh => exact hfree hp
  | save t hp => exact hfree hp
  | tick hp hd => exact hfree hp
  | shut hp => exact hfree hp
  | answer hw he =>
    rw [State.openness_takeAnswer]
    simp only [State.openness, hw]
    exact Nat.le_refl _

/-- Before the last flush the clock does not run past a tick that is due. -/
theorem clock_le_due (ht : Turn m s new s') (hs : s.Prompt) (hopen : s'.openness = 1)
    (hle : s.clock ≤ s.due) : s'.clock ≤ s'.due := by
  cases ht with
  | @wake time hnone =>
    refine Nat.max_le.2 ⟨hle, ?_⟩
    by_contra hpast
    have hidle := hnone s.due (Nat.lt_of_not_le hpast)
    cases hp : s.phase with
    | closed =>
      have hclosed : s.openness = 0 := by simp only [State.openness, hp]
      cases hclosed.symm.trans hopen
    | waiting => exact Nat.lt_irrefl _ (State.lt_due_of_step?_eq_none hidle hp)
    | writing w =>
      have hends : w.ends ≤ s.due := Nat.le_trans (hs w hp) hle
      exact Nat.not_lt.2 hends (State.lt_ends_of_step?_eq_none hidle hp)
  | alter f => exact hle
  | handles handles => exact hle
  | abandon hp hh => exact hle
  | save t hp =>
    rw [State.clock_accept, State.due_accept]
    exact hle
  | tick hp hd =>
    rw [State.clock_tick]
    exact Nat.le_trans hle (Nat.le_of_lt (State.lt_due_tick m s))
  | shut hp =>
    rw [State.clock_beginFlush, State.due_beginFlush]
    exact hle
  | answer hw he =>
    rw [State.clock_takeAnswer, State.due_takeAnswer]
    exact hle

end Turn

/-- The ticks are the first multiples of the interval. Before the last flush the next one is due,
and the clock has not run past it. -/
structure History.OnTime (m : Setup σ) (h : History) (s : State σ) (n : Nat) : Prop where
  ticks : h.ticks = List.range' m.interval n m.interval
  due : s.openness = 1 → s.due = n * m.interval + m.interval
  reached : s.openness = 1 → n * m.interval ≤ s.clock
  clock : s.openness = 1 → s.clock ≤ s.due

theorem History.OnTime.turn {h new : History} {n : Nat} (hon : h.OnTime m s n) (hs : s.Prompt)
    (ht : Turn m s new s') : ∃ n, (h ++ new : History).OnTime m s' n := by
  have hopen : s'.openness = 1 → s.openness = 1 := by
    intro ho
    exact Nat.le_antisymm s.openness_le_one (ho ▸ ht.openness_le)
  obtain ⟨hticks, hdue, hclock⟩ | ⟨hticks, hp, hd, hdue, hclock⟩ := ht.timing
  · refine ⟨n, ?_, ?_, ?_, ?_⟩
    · rw [ticks_append, hticks, List.append_nil, hon.ticks]
    · intro ho
      rw [hdue, hon.due (hopen ho)]
    · intro ho
      exact Nat.le_trans (hon.reached (hopen ho)) hclock
    · intro ho
      exact ht.clock_le_due hs ho (hon.clock (hopen ho))
  · have ho : s.openness = 1 := by simp only [State.openness, hp]
    have hlast := hon.due ho
    have hle := hon.clock ho
    -- the tick is handled no earlier than it is due, and the clock has not run past that
    have hnow : s.clock = n * m.interval + m.interval := by omega
    have hnext : s'.due = (n + 1) * m.interval + m.interval := by
      rw [hdue, nextDue, if_neg (by omega), hlast, Nat.succ_mul]
    refine ⟨n + 1, ?_, fun _ => hnext, ?_, ?_⟩
    · rw [ticks_append, hticks, hon.ticks, List.range'_concat, hnow, Nat.mul_comm n, Nat.add_comm]
    · intro _
      rw [hclock, hnow, Nat.succ_mul]
    · intro _
      rw [hnext, hclock, hnow, Nat.succ_mul]
      exact Nat.le_add_right ..

theorem Chronicle.onTime {world : σ} {h : History} (hc : Chronicle m (start m world) h s)
    (hprompt : h.Prompt) : s.Prompt ∧ ∃ n, h.OnTime m s n := by
  induction hc with
  | nil =>
    have hdue : (start m world).due = 0 * m.interval + m.interval := by
      rw [Nat.zero_mul, Nat.zero_add]
      rfl
    refine ⟨State.prompt_of_waiting rfl, 0, rfl, fun _ => hdue, ?_, fun _ => Nat.zero_le _⟩
    intro _
    rw [Nat.zero_mul]
    exact Nat.zero_le _
  | turn hc ht ih =>
    obtain ⟨hold, hnew⟩ := History.prompt_append.1 hprompt
    obtain ⟨hs, n, hon⟩ := ih hold
    exact ⟨ht.prompt hs hnew, hon.turn hs ht⟩

section

variable {chunk : List Team} {reply : Reply}

theorem State.reply_of_mem_sending {cs : List (List Team)}
    (h : .call chunk reply ∈ s.sending m cs) : reply = (m.repo s.world chunk).2 := by
  cases cs with
  | nil => cases h
  | cons c cs =>
    cases List.mem_singleton.1 h
    rfl

theorem State.reply_of_mem_flushing {trigger : Trigger}
    (h : .call chunk reply ∈ s.flushing m trigger) : reply = (m.repo s.world chunk).2 := by
  obtain hflush | hsent := List.mem_cons.1 h
  · cases hflush
  · exact reply_of_mem_sending hsent

theorem State.reply_of_mem_accepting {t : Team} (h : .call chunk reply ∈ s.accepting m t) :
    reply = (m.repo s.world chunk).2 := by
  by_cases hfull : m.capacity ≤ (s.buffer ++ [t]).length
  · rw [accepting_of_full m s hfull] at h
    obtain hsaved | hflush := List.mem_cons.1 h
    · cases hsaved
    · exact reply_of_mem_flushing (s := { s with buffer := s.buffer ++ [t] }) hflush
  · rw [accepting_of_not_full m s hfull] at h
    cases List.mem_singleton.1 h

/-- Every reply that is told is one of the repo. -/
theorem Chronicle.exists_world {s₀ : State σ} {h : History} (hc : Chronicle m s₀ h s)
    (hcall : .call chunk reply ∈ h) : ∃ world, reply = (m.repo world chunk).2 := by
  induction hc with
  | nil => cases hcall
  | @turn h new s s' hc ht ih =>
    obtain hold | hnew := List.mem_append.1 hcall
    · exact ih hold
    · refine ⟨s.world, ?_⟩
      cases ht with
      | save t hp => exact State.reply_of_mem_accepting hnew
      | tick hp hd => exact State.reply_of_mem_flushing hnew
      | shut hp => exact State.reply_of_mem_flushing hnew
      | answer hw he => exact State.reply_of_mem_sending hnew
      | _ => cases hnew

/-- A repo that answers at once lets no call wait. -/
theorem Chronicle.prompt_of_repo {s₀ : State σ} {h : History} (hc : Chronicle m s₀ h s)
    (hrepo : ∀ world ts, (m.repo world ts).2.delay = 0) : h.Prompt := by
  intro chunk reply hcall
  obtain ⟨world, rfl⟩ := hc.exists_world hcall
  exact hrepo world chunk

end

/-! ## The schedule -/

namespace State

/-- Between operations the owner has nothing to do. -/
theorem step?_after (world : σ) (ops : List (Op σ)) :
    ((start m world).after m ops).step? m ((start m world).after m ops).clock = none := by
  obtain rfl | ⟨init, op, rfl⟩ := ops.eq_nil_or_concat
  · exact step?_eq_none_of_lt_due rfl (by simp [isHeld, Saver.start]) m.interval_pos
  · rw [List.concat_eq_append, after_append]
    exact step?_eq_none_of_le (step?_run ..) (clock_run_le m (Nat.le_refl _))

end State

theorem History.TellsOf.ticks_eq {h : History} {world : σ} {ops : List (Op σ)}
    (htells : h.TellsOf m world ops) (hprompt : h.Prompt)
    (hopen : ((start m world).after m ops).isClosed = false) :
    h.ticks = List.range' m.interval (((start m world).after m ops).clock / m.interval)
      m.interval := by
  obtain ⟨hs, n, hon⟩ := htells.chronicle.onTime hprompt
  have hnone := State.step?_after (m := m) world ops
  generalize (start m world).after m ops = s at hopen hs hon hnone ⊢
  cases hp : s.phase with
  | closed =>
    rw [State.isClosed_iff.2 hp] at hopen
    cases hopen
  | writing w => exact absurd (State.lt_ends_of_step?_eq_none hnone hp) (Nat.not_lt.2 (hs w hp))
  | waiting =>
    have ho : s.openness = 1 := by simp only [State.openness, hp]
    have hlt : s.clock < s.due := State.lt_due_of_step?_eq_none hnone hp
    rw [hon.due ho, ← Nat.succ_mul] at hlt
    rw [hon.ticks, Nat.div_eq_of_lt_le (hon.reached ho) hlt]

theorem History.TellsOf.count_triggers {h : History} {world : σ} {ops : List (Op σ)}
    (htells : h.TellsOf m world ops) :
    (triggers ((start m world).after m ops).log).count .interval = h.ticks.length := by
  rw [triggers_eq_map_flushesOf, ← htells.flushes, length_ticks]

/-- If no call has to be waited for, the timer begins flushes at exactly the multiples of the
interval, as long as the saver is open, and at any time it has begun as many as there were
intervals. However long calls take, two ticks are an interval apart but for `patience`; none comes
before it is due; and an owner who becomes free handles one tick if that is late by more than
`patience`, and otherwise those whose times have passed, of which `patience` admits only so many. -/
theorem ticks_on_schedule (m : Setup σ) (world : σ) :
    (∀ ops : List (Op σ), ∃ h : History, h.TellsOf m world ops) ∧
    (∀ (h : History) (s : State σ), Chronicle m (start m world) h s →
      (h.Prompt → ∃ n, h.ticks = List.range' m.interval n m.interval ∧
        (s.openness = 1 →
          n * m.interval ≤ s.clock ∧ s.clock ≤ n * m.interval + m.interval)) ∧
      (h.ticks.IsChain fun a b => a + m.interval ≤ b + patience) ∧
      s.due = dueAfter m.interval h.ticks ∧
      (∀ (before : History) time given after,
        h = before ++ .flush .interval time given :: after →
          dueAfter m.interval before.ticks ≤ time) ∧
      (∀ (later : History) s', Chronicle m s later s' →
        later.ticks.count s.clock ≤ owed m.interval s.due s.clock) ∧
      ∀ time, h.ticks.count time ≤ patience / m.interval + 1) ∧
    ∀ (ops : List (Op σ)) (h : History), h.TellsOf m world ops → h.Prompt →
      let s := (start m world).after m ops
      s.isClosed = false →
        h.ticks = List.range' m.interval (s.clock / m.interval) m.interval ∧
        (triggers s.log).count .interval = s.clock / m.interval := by
  refine ⟨exists_history m world, ?_, ?_⟩
  · intro h s hc
    refine ⟨?_, hc.ticks_apart.1, hc.due_eq, ?_, ?_, ?_⟩
    · intro hprompt
      obtain ⟨-, n, hon⟩ := hc.onTime hprompt
      refine ⟨n, hon.ticks, ?_⟩
      intro ho
      have hclock := hon.clock ho
      rw [hon.due ho] at hclock
      exact ⟨hon.reached ho, hclock⟩
    · rintro before time given after rfl
      exact hc.due_le_tick
    · intro later s' hlater
      have hcount := hlater.count_ticks_le s.clock
      rw [State.mayTick, State.mayTick, if_neg (lt_irrefl _), if_pos rfl] at hcount
      omega
    · intro time
      have hcount := hc.count_ticks_le time
      have hmay := (start m world).mayTick_le (m := m) time
      omega
  · intro ops h htells hprompt s hopen
    have hticks := htells.ticks_eq hprompt hopen
    refine ⟨hticks, ?_⟩
    rw [htells.count_triggers, hticks, List.length_range']

def ticking {σ : Type} (repo : Repo σ) : Setup σ :=
  ⟨10, 4, 1, repo, by decide, by decide⟩

def slowWorld : Rehearsal :=
  { script := { delay := 9 } }

def tickingOps {σ : Type} : List (Op σ) :=
  [.submit 0 (.save ⟨1, "a", "", false⟩), .advance 12]

/-- The store answers at once, so there are three ticks. With the slow repo there is one, whose
flush is still in progress. -/
theorem ticks_trial :
    (∃ h : History, h.TellsOf (ticking Store.repo) .empty tickingOps ∧ h.Prompt ∧
      h.ticks = [4, 8, 12]) ∧
    ∃ h : History, h.TellsOf (ticking Rehearsal.repo) slowWorld tickingOps ∧
      h.ticks.length = 1 ∧ ∀ time, h.ticks.count time ≤ 2 := by
  refine ⟨?_, ?_⟩
  · obtain ⟨h, htells⟩ := (ticks_on_schedule (ticking Store.repo) .empty).1 tickingOps
    have hprompt : h.Prompt := htells.chronicle.prompt_of_repo fun _ _ => rfl
    have hopen : ((start (ticking Store.repo) .empty).after (ticking Store.repo)
        tickingOps).isClosed = false := by cbv
    have hclock : ((start (ticking Store.repo) .empty).after (ticking Store.repo)
        tickingOps).clock = 12 := by cbv
    have hticks :=
      ((ticks_on_schedule (ticking Store.repo) .empty).2.2 tickingOps h htells hprompt hopen).1
    rw [hclock] at hticks
    exact ⟨h, htells, hprompt, hticks⟩
  · obtain ⟨h, htells⟩ := (ticks_on_schedule (ticking Rehearsal.repo) slowWorld).1 tickingOps
    have hcount : (triggers ((start (ticking Rehearsal.repo) slowWorld).after
        (ticking Rehearsal.repo) tickingOps).log).count .interval = 1 := by cbv
    obtain ⟨-, -, -, -, -, hatonce⟩ :=
      (ticks_on_schedule (ticking Rehearsal.repo) slowWorld).2.1 h _ htells.chronicle
    exact ⟨h, htells, htells.count_triggers.symm.trans hcount, hatonce⟩

/-- When that flush ends a millisecond later, two ticks have to be made up for: within that
millisecond both of them begin a flush. -/
theorem two_ticks_owed :
    let slow := (start (ticking Rehearsal.repo) slowWorld).after (ticking Rehearsal.repo) tickingOps
    let late := slow.after (ticking Rehearsal.repo) [.advance 1]
    slow.isFlushing = true ∧ flushesOf slow.log = [(.interval, 1)] ∧ late.clock = slow.clock + 1 ∧
    flushesOf late.log = [(.interval, 1), (.interval, 0), (.interval, 0)] ∧
    ¬ (triggers late.log).count .interval ≤ (triggers slow.log).count .interval + 1 := by
  have hflushing : ((start (ticking Rehearsal.repo) slowWorld).after (ticking Rehearsal.repo)
      tickingOps).isFlushing = true := by cbv
  have hslow : flushesOf ((start (ticking Rehearsal.repo) slowWorld).after
      (ticking Rehearsal.repo) tickingOps).log = [(.interval, 1)] := by cbv
  have hclock : (((start (ticking Rehearsal.repo) slowWorld).after (ticking Rehearsal.repo)
      tickingOps).after (ticking Rehearsal.repo) [.advance 1]).clock =
      ((start (ticking Rehearsal.repo) slowWorld).after (ticking Rehearsal.repo)
        tickingOps).clock + 1 := by cbv
  have hlate : flushesOf (((start (ticking Rehearsal.repo) slowWorld).after
      (ticking Rehearsal.repo) tickingOps).after (ticking Rehearsal.repo) [.advance 1]).log =
      [(.interval, 1), (.interval, 0), (.interval, 0)] := by cbv
  refine ⟨hflushing, hslow, hclock, hlate, ?_⟩
  rw [triggers_eq_map_flushesOf, triggers_eq_map_flushesOf, hslow, hlate]
  decide

end Roster.Saver
