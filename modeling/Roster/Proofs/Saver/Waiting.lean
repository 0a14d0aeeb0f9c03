import Roster.Proofs.Saver.Course

/-!
Waiting in pieces. A wait may be cut anywhere, also while a chunk is being written or at the moment
at which a tick is due. What the owner does by some time it does in the same way on the way to a
later one, and nothing depends on whether the clock was read in between.
-/

namespace Roster.Saver

variable {σ : Type}

namespace State

variable {m : Setup σ} {s s' : State σ} {limit limit' : Nat}

/-! ## The owner on the way to a later time -/

theorem run_run (hle : limit ≤ limit') (s : State σ) :
    (s.run m limit).run m limit' = s.run m limit' := by
  induction s using run.induct m limit with
  | case1 s h => rw [run_of_none m h]
  | case2 s s' h ih => rw [run_of_some m h, run_of_some m (step?_eq_some_of_le h hle), ih]

/-! ## The clock is read -/

theorem wake_wake (s : State σ) {time time' : Nat} (h : time ≤ time') :
    (s.wake time).wake time' = s.wake time' := by
  simp only [wake, Nat.max_assoc, Nat.max_eq_right h]

/-- If there is nothing to do by some time, whatever is done next is done at its own time, whether
or not the clock was read before. -/
theorem step?_wake (h : s.step? m limit = none) (limit' : Nat) :
    (s.wake limit).step? m limit' = s.step? m limit' := by
  cases hp : s.phase with
  | closed =>
    have hp' : (s.wake limit).phase = .closed := hp
    rw [step?_of_closed m hp, step?_of_closed m hp']
  | writing w =>
    have hp' : (s.wake limit).phase = .writing w := hp
    have hends : limit < w.ends := lt_ends_of_step?_eq_none h hp
    rw [step?_of_writing m hp, step?_of_writing m hp', wake_wake s (Nat.le_of_lt hends)]
  | waiting =>
    have hp' : (s.wake limit).phase = .waiting := hp
    have hheld : s.isHeld ≠ false := isHeld_of_step?_eq_none h hp
    have hheld' : (s.wake limit).isHeld ≠ false := hheld
    have hdue : limit < s.due := lt_due_of_step?_eq_none h hp
    have hwake : (s.wake limit).wake (s.wake limit).due = s.wake s.due :=
      wake_wake s (Nat.le_of_lt hdue)
    rw [step?_of_waiting m hp, step?_of_waiting m hp', if_neg hheld, if_neg hheld', hwake]
    rfl

theorem run_wake (h : s.step? m limit = none) (hle : limit ≤ limit') :
    ((s.wake limit).run m limit').wake limit' = (s.run m limit').wake limit' := by
  have hwake := step?_wake h limit'
  cases hs : s.step? m limit' with
  | none => rw [run_of_none m hs, run_of_none m (hwake.trans hs), wake_wake s hle]
  | some s' => rw [run_of_some m hs, run_of_some m (hwake.trans hs)]

/-! ## Waiting -/

theorem advance_advance (s : State σ) (a b : Nat) :
    (s.advance m a).advance m b = s.advance m (a + b) := by
  have hclock : (s.advance m a).clock + b = s.clock + (a + b) := Nat.add_assoc ..
  have hle : s.clock + a ≤ s.clock + (a + b) := by omega
  calc
    (s.advance m a).advance m b
        = (((s.run m (s.clock + a)).wake (s.clock + a)).run m (s.clock + (a + b))).wake
            (s.clock + (a + b)) := by
          rw [advance_eq_wake, hclock, advance_eq_wake]
    _ = ((s.run m (s.clock + a)).run m (s.clock + (a + b))).wake (s.clock + (a + b)) :=
          run_wake (step?_run ..) hle
    _ = s.advance m (a + b) := by rw [run_run hle, advance_eq_wake]

/-- When a wait is over, everything that was due has been done. -/
theorem step?_advance (s : State σ) (time : Nat) :
    (s.advance m time).step? m (s.clock + time) = none := by
  rw [advance_eq_wake, step?_wake (step?_run ..), step?_run]

theorem settle_advance (s : State σ) (time : Nat) :
    (s.advance m time).settle m = s.advance m time :=
  run_of_none m (step?_advance s time)

theorem after_advance (s : State σ) (time : Nat) :
    s.after m [.advance time] = s.advance m time :=
  settle_advance s time

theorem after_advance_advance (s : State σ) (a b : Nat) :
    s.after m [.advance a, .advance b] = s.after m [.advance (a + b)] :=
  calc
    s.after m [.advance a, .advance b]
        = (s.after m [.advance a]).after m [.advance b] := after_append m s [.advance a] _
    _ = (s.advance m a).advance m b := by rw [after_advance, after_advance]
    _ = s.advance m (a + b) := advance_advance s a b
    _ = s.after m [.advance (a + b)] := (after_advance s _).symm

end State

/-- Two waits in a row are one wait: whatever state a saver is in, also with a chunk being written,
the owner takes the same answers and handles the same ticks at the same times, reports the same and
leaves the same state, in which nothing is left to do. Anywhere in a run, the same calls are made.
-/
theorem waiting_splits (m : Setup σ) (a b : Nat) :
    (∀ s : State σ,
      s.after m [.advance a, .advance b] = s.after m [.advance (a + b)] ∧
      (s.after m [.advance (a + b)]).clock = s.clock + (a + b) ∧
      (s.after m [.advance (a + b)]).step? m (s.clock + (a + b)) = none) ∧
    ∀ (world : σ) (before later : List (Op σ)),
      calls m world (before ++ [.advance a, .advance b] ++ later) =
        calls m world (before ++ [.advance (a + b)] ++ later) := by
  refine ⟨?_, ?_⟩
  · intro s
    have hsplit := s.after_advance_advance (m := m) a b
    refine ⟨hsplit, ?_⟩
    rw [State.after_advance]
    exact ⟨rfl, State.step?_advance s (a + b)⟩
  · intro world before later
    have hsplit : recordedRun m world (before ++ [.advance a, .advance b]) =
        recordedRun m world (before ++ [.advance (a + b)]) := by
      rw [recordedRun_append, recordedRun_append]
      exact (recordedRun m world before).after_advance_advance a b
    rw [calls, calls, recordedRun_append, hsplit, ← recordedRun_append]

end Roster.Saver
