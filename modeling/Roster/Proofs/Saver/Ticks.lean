import Roster.Proofs.Saver.Chronicle

/-!
The ticks of a saver's timer, however long calls take. A tick may be late; then the ticks after it
are put off, unless it is late by no more than `patience`, when they keep their times and may have
to be made up for.
-/

namespace Roster.Saver

variable {σ : Type} {m : Setup σ} {s s' : State σ}

/-! ## Ticks -/

def Happening.tick? : Happening → Option Nat
  | .flush .interval time _ => some time
  | _ => none

namespace History

def ticks (h : History) : List Nat :=
  h.filterMap Happening.tick?

/-- No call has to be waited for. -/
def Prompt (h : History) : Prop :=
  ∀ chunk reply, .call chunk reply ∈ h → reply.delay = 0

@[simp] theorem ticks_append (h h' : History) : ticks (h ++ h') = h.ticks ++ h'.ticks :=
  List.filterMap_append

theorem prompt_append {h h' : History} : Prompt (h ++ h') ↔ h.Prompt ∧ h'.Prompt := by
  simp only [Prompt, List.mem_append, or_imp, forall_and]

theorem length_ticks (h : History) : h.ticks.length = (h.flushes.map Prod.fst).count .interval := by
  induction h with
  | nil => rfl
  | cons x h ih =>
    cases x with
    | saved t => exact ih
    | call chunk reply => exact ih
    | flush trigger time given =>
      cases trigger with
      | interval =>
        have hflushes : (flushes (.flush .interval time given :: h)).map Prod.fst =
            .interval :: (flushes h).map Prod.fst := rfl
        rw [hflushes, List.count_cons_self, ← ih]
        rfl
      | capacity => exact ih
      | shutdown => exact ih

end History

namespace State

theorem ticks_sending (s : State σ) (cs : List (List Team)) : (s.sending m cs).ticks = [] := by
  cases cs <;> rfl

theorem ticks_flushing (s : State σ) (trigger : Trigger) :
    (s.flushing m trigger).ticks = if trigger = .interval then [s.clock] else [] := by
  have hsent := s.ticks_sending (m := m) (chunks m.chunkSize s.buffer)
  cases trigger with
  | capacity => exact hsent
  | interval => exact congrArg (s.clock :: ·) hsent
  | shutdown => exact hsent

theorem ticks_accepting (s : State σ) (t : Team) : (s.accepting m t).ticks = [] := by
  by_cases hfull : m.capacity ≤ (s.buffer ++ [t]).length
  · rw [accepting_of_full m s hfull]
    exact ticks_flushing { s with buffer := s.buffer ++ [t] } .capacity
  · rw [accepting_of_not_full m s hfull]
    rfl

theorem due_accept (s : State σ) (t : Team) : (s.accept m t).due = s.due := by
  rw [accept_eq]
  split
  · exact due_beginFlush ..
  · rfl

theorem clock_accept (s : State σ) (t : Team) : (s.accept m t).clock = s.clock := by
  rw [accept_eq]
  split
  · exact clock_beginFlush ..
  · rfl

end State

namespace Turn

variable {new : History}

/-- In a turn either the timer is not heard, or a tick that is due begins a flush. -/
theorem timing (ht : Turn m s new s') :
    (new.ticks = [] ∧ s'.due = s.due ∧ s.clock ≤ s'.clock) ∨
    (new.ticks = [s.clock] ∧ s.phase = .waiting ∧ s.due ≤ s.clock ∧
      s'.due = nextDue m.interval s.due s.clock ∧ s'.clock = s.clock) := by
  cases ht with
  | wake hnone => exact .inl ⟨rfl, rfl, Nat.le_max_left ..⟩
  | alter f => exact .inl ⟨rfl, rfl, Nat.le_refl _⟩
  | handles handles => exact .inl ⟨rfl, rfl, Nat.le_refl _⟩
  | abandon hp hh => exact .inl ⟨rfl, rfl, Nat.le_refl _⟩
  | save t hp =>
    exact .inl ⟨s.ticks_accepting t, s.due_accept t, Nat.le_of_eq (s.clock_accept t).symm⟩
  | tick hp hd =>
    exact .inr ⟨s.ticks_flushing .interval, hp, hd, s.due_tick m, s.clock_tick m⟩
  | shut hp =>
    exact .inl ⟨s.ticks_flushing .shutdown, s.due_beginFlush m .shutdown,
      Nat.le_of_eq (s.clock_beginFlush m .shutdown).symm⟩
  | answer hw he =>
    exact .inl ⟨s.ticks_sending _, s.due_takeAnswer m _, Nat.le_of_eq (s.clock_takeAnswer m _).symm⟩

end Turn

/-! ## However long calls take -/

def dueAfter (interval : Nat) (ticks : List Nat) : Nat :=
  ticks.foldl (nextDue interval) interval

/-- How many ticks an owner who is free at the given time has to handle at once, the first of them
being due at the given one. -/
def owed (interval due time : Nat) : Nat :=
  if time < due then 0
  else if due + patience < time then 1
  else (time - due) / interval + 1

theorem owed_le (interval due time : Nat) : owed interval due time ≤ patience / interval + 1 := by
  unfold owed
  split
  · exact Nat.zero_le _
  · split
    · exact Nat.le_add_left ..
    · exact Nat.add_le_add_right (Nat.div_le_div_right (by omega)) 1

/-- Handling a tick leaves one fewer to be handled. -/
theorem owed_nextDue {interval due time : Nat} (hi : 0 < interval) (h : due ≤ time) :
    owed interval (nextDue interval due time) time + 1 = owed interval due time := by
  unfold nextDue
  by_cases hlate : due + patience < time
  · rw [if_pos hlate, owed, if_pos (by omega), owed, if_neg (by omega), if_pos hlate]
  · rw [if_neg hlate]
    by_cases hmore : due + interval ≤ time
    · have hdiv : (time - due) / interval = (time - (due + interval)) / interval + 1 := by
        rw [Nat.div_eq_sub_div hi (by omega), Nat.sub_sub]
      rw [owed, if_neg (by omega), if_neg (by omega), owed, if_neg (by omega), if_neg hlate, hdiv]
    · have hnone : (time - due) / interval = 0 := Nat.div_eq_of_lt (by omega)
      rw [owed, if_pos (by omega), owed, if_neg (by omega), if_neg hlate, hnone]

def State.mayTick (m : Setup σ) (s : State σ) (time : Nat) : Nat :=
  if time < s.clock then 0
  else if time = s.clock then owed m.interval s.due time
  else patience / m.interval + 1

theorem State.mayTick_le (s : State σ) (time : Nat) :
    s.mayTick m time ≤ patience / m.interval + 1 := by
  unfold mayTick
  split
  · exact Nat.zero_le _
  · split
    · exact owed_le ..
    · exact Nat.le_refl _

/-- What a turn handles may be handled no more. -/
theorem Turn.count_ticks_le {new : History} (ht : Turn m s new s') (time : Nat) :
    new.ticks.count time + s'.mayTick m time ≤ s.mayTick m time := by
  obtain ⟨hticks, hdue, hclock⟩ | ⟨hticks, -, hd, hdue, hclock⟩ := ht.timing
  · rw [hticks, List.count_nil, Nat.zero_add]
    -- the clock may come to `time`, pass it, or stay where it is
    by_cases hbefore : s.clock < time
    · have hmay : s.mayTick m time = patience / m.interval + 1 := by
        rw [State.mayTick, if_neg (by omega), if_neg (by omega)]
      rw [hmay]
      exact s'.mayTick_le time
    · by_cases hpast : time < s'.clock
      · rw [State.mayTick, if_pos hpast]
        exact Nat.zero_le _
      · have hsame : s'.clock = s.clock := by omega
        rw [State.mayTick, State.mayTick, hdue, hsame]
  · rw [hticks, State.mayTick, State.mayTick, hclock, hdue]
    by_cases hnow : time = s.clock
    · have howed := owed_nextDue m.interval_pos hd
      subst hnow
      simp only [lt_irrefl, if_true, if_false, List.count_singleton_self]
      omega
    · rw [List.count_singleton, if_neg (by simpa using Ne.symm hnow), if_neg hnow, if_neg hnow,
        Nat.zero_add]

namespace Chronicle

variable {s₀ : State σ} {world : σ} {h : History}

theorem count_ticks_le (hc : Chronicle m s₀ h s) (time : Nat) :
    h.ticks.count time + s.mayTick m time ≤ s₀.mayTick m time := by
  induction hc with
  | nil => exact Nat.le_of_eq (Nat.zero_add _)
  | turn hc ht ih =>
    have hnew := ht.count_ticks_le time
    rw [History.ticks_append, List.count_append]
    omega

/-- Between two ticks lies an interval, less what the first of them may have been late. -/
theorem ticks_apart (hc : Chronicle m s₀ h s) :
    (h.ticks.IsChain fun a b => a + m.interval ≤ b + patience) ∧
      ∀ a ∈ h.ticks.getLast?, a + m.interval ≤ s.due + patience := by
  induction hc with
  | nil => simp [History.ticks]
  | @turn h new s s' hc ht ih =>
    obtain ⟨hchain, hlast⟩ := ih
    obtain ⟨hticks, hdue, -⟩ | ⟨hticks, -, hd, hdue, -⟩ := ht.timing
    · rw [History.ticks_append, hticks, List.append_nil, hdue]
      exact ⟨hchain, hlast⟩
    · rw [History.ticks_append, hticks]
      refine ⟨?_, ?_⟩
      · refine List.isChain_append.2 ⟨hchain, .singleton _, ?_⟩
        intro a ha b hb
        cases hb
        have hprevious := hlast a ha
        omega
      · -- a tick later than `patience` puts the next one off by as much as it is late
        intro a ha
        rw [List.getLast?_concat] at ha
        cases ha
        rw [hdue, nextDue]
        split <;> omega

theorem due_eq (hc : Chronicle m (start m world) h s) : s.due = dueAfter m.interval h.ticks := by
  induction hc with
  | nil => rfl
  | @turn h new s s' hc ht ih =>
    obtain ⟨hticks, hdue, -⟩ | ⟨hticks, -, -, hdue, -⟩ := ht.timing
    · rw [History.ticks_append, hticks, List.append_nil, hdue, ih]
    · rw [hdue, ih, History.ticks_append, hticks, dueAfter, dueAfter, List.foldl_append]
      rfl

/-- A tick is not handled before it is due. -/
theorem due_le_tick {before after : History} {time : Nat} {given : List Team}
    (hc : Chronicle m (start m world) (before ++ .flush .interval time given :: after) s) :
    dueAfter m.interval before.ticks ≤ time := by
  obtain ⟨h, a, b, later, s₁, s₂, hc₁, ht, rfl, rfl⟩ := hc.split
  obtain ⟨-, rfl, hbegins⟩ := ht.of_flush
  cases hbegins with
  | interval hd =>
    rw [List.append_nil, ← hc₁.due_eq]
    exact hd

end Chronicle

end Roster.Saver
