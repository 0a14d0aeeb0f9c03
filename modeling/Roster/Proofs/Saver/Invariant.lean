import Roster.Proofs.Saver.Exchange

/-!
What holds at every point of a run. A property that is kept by each thing that may happen to a saver
holds after every run of operations, and in the middle of each of them.
-/

namespace Roster.Saver

variable {σ : Type} (m : Setup σ)

/-! ## Acknowledged teams -/

def Request.acknowledged : Request → Answer → List Team
  | .save t, .saved => [t]
  | _, _ => []

def Op.acknowledged : Op σ → Outcome → List Team
  | .submit _ request, .answer a => request.acknowledged a
  | .together _ requests, .answers as => (List.zipWith Request.acknowledged requests as).flatten
  | _, _ => []

def State.acknowledged (s : State σ) : List (Op σ) → List Team
  | [] => []
  | op :: ops => op.acknowledged (s.step m op).2 ++ (s.step m op).1.acknowledged ops

theorem Request.acknowledged_late (r : Request) : r.acknowledged r.late = [] := by
  cases r <;> rfl

/-! ## When the owner has nothing to do -/

namespace State

variable {m} {s : State σ} {limit limit' : Nat}

theorem step?_eq_none_of_lt_ends {w : Writing} (hw : s.phase = .writing w) (h : limit < w.ends) :
    s.step? m limit = none := by
  rw [step?_of_writing m hw, if_neg (Nat.not_le.2 h)]

theorem step?_eq_none_of_lt_due (hp : s.phase = .waiting) (hh : s.isHeld ≠ false)
    (h : limit < s.due) : s.step? m limit = none := by
  rw [step?_of_waiting m hp, if_neg hh, if_neg (Nat.not_le.2 h)]

/-- What the owner does by some time it does all the same if it is given longer. -/
theorem step?_eq_some_of_le {s' : State σ} (h : s.step? m limit = some s') (hle : limit ≤ limit') :
    s.step? m limit' = some s' := by
  rw [step?_eq_some_iff]
  cases (step?_eq_some_iff m).1 h with
  | answer hw hends => exact .answer hw (Nat.le_trans hends hle)
  | abandon hp hheld => exact .abandon hp hheld
  | tick hp hheld hdue => exact .tick hp hheld (Nat.le_trans hdue hle)

/-- What the owner does not do by some time it does not do earlier. -/
theorem step?_eq_none_of_le (h : s.step? m limit = none) (hle : limit' ≤ limit) :
    s.step? m limit' = none := by
  cases hs : s.step? m limit' with
  | none => rfl
  | some s' => cases h.symm.trans (step?_eq_some_of_le hs hle)

theorem lt_ends_of_step?_eq_none (h : s.step? m limit = none) {w : Writing}
    (hw : s.phase = .writing w) : limit < w.ends := by
  refine Nat.lt_of_not_le fun hends => ?_
  cases h.symm.trans ((step?_eq_some_iff m).2 (.answer hw hends))

theorem isHeld_of_step?_eq_none (h : s.step? m limit = none) (hp : s.phase = .waiting) :
    s.isHeld ≠ false := by
  intro hheld
  cases h.symm.trans ((step?_eq_some_iff m).2 (.abandon hp hheld))

theorem lt_due_of_step?_eq_none (h : s.step? m limit = none) (hp : s.phase = .waiting) :
    limit < s.due := by
  refine Nat.lt_of_not_le fun hdue => ?_
  have hheld := isHeld_of_step?_eq_none h hp
  cases h.symm.trans ((step?_eq_some_iff m).2 (.tick hp hheld hdue))

theorem step?_run (s : State σ) (limit : Nat) : (s.run m limit).step? m limit = none := by
  induction s using run.induct m limit with
  | case1 s h =>
    rw [run_of_none m h]
    exact h
  | case2 s s' h ih =>
    rw [run_of_some m h]
    exact ih

end State

/-! ## Invariants -/

/-- What is kept by everything that may happen to a saver that has acknowledged the given teams.
Time passes only while the owner has nothing to do. -/
structure Invariant (P : List Team → State σ → Prop) : Prop where
  wake {saved : List Team} {s : State σ} {time : Nat} :
    P saved s → (∀ limit < time, s.step? m limit = none) → P saved (s.wake time)
  handles {saved : List Team} {s : State σ} (handles : List Bool) :
    P saved s → P saved { s with handles }
  save {saved : List Team} {s : State σ} (t : Team) :
    P saved s → s.phase = .waiting → P (saved ++ [t]) (s.accept m t)
  tick {saved : List Team} {s : State σ} :
    P saved s → s.phase = .waiting → s.due ≤ s.clock → P saved (s.tick m)
  abandon {saved : List Team} {s : State σ} :
    P saved s → s.phase = .waiting → s.isHeld = false → P saved (s.report [.abandoned])
  shut {saved : List Team} {s : State σ} :
    P saved s → s.phase = .waiting → P saved (s.beginFlush m .shutdown)
  answer {saved : List Team} {s : State σ} {w : Writing} :
    P saved s → s.phase = .writing w → w.ends ≤ s.clock → P saved (s.takeAnswer m w)

namespace Invariant

variable {m} {P : List Team → State σ → Prop} {saved : List Team} {s : State σ}

theorem takeAnswer (hP : Invariant m P) (h : P saved s) {w : Writing}
    (hw : s.phase = .writing w) : P saved ((s.wake w.ends).takeAnswer m w) := by
  have hwake : P saved (s.wake w.ends) :=
    hP.wake h fun limit hlimit => State.step?_eq_none_of_lt_ends hw hlimit
  exact hP.answer hwake hw (Nat.le_max_right ..)

theorem await (hP : Invariant m P) (h : P saved s) : P saved (s.await m) := by
  induction s using State.await.induct m with
  | case1 s w hw ih =>
    rw [State.await_of_writing m hw]
    exact ih (hP.takeAnswer h hw)
  | case2 s hs =>
    rw [State.await_of_idle m hs]
    exact h

theorem step? (hP : Invariant m P) (h : P saved s) {s' : State σ} {limit : Nat}
    (hs : s.step? m limit = some s') : P saved s' := by
  cases (State.step?_eq_some_iff m).1 hs with
  | answer hw hends => exact hP.takeAnswer h hw
  | abandon hp hheld => exact hP.shut (hP.abandon h hp hheld) hp
  | tick hp hheld hdue =>
    have hwake : P saved (s.wake s.due) :=
      hP.wake h fun limit hlimit => State.step?_eq_none_of_lt_due hp hheld hlimit
    exact hP.tick hwake hp (Nat.le_max_right ..)

theorem run (hP : Invariant m P) (h : P saved s) (limit : Nat) : P saved (s.run m limit) := by
  induction s using State.run.induct m limit with
  | case1 s hs =>
    rw [State.run_of_none m hs]
    exact h
  | case2 s s' hs ih =>
    rw [State.run_of_some m hs]
    exact ih (hP.step? h hs)

theorem advance (hP : Invariant m P) (h : P saved s) (time : Nat) :
    P saved (s.advance m time) := by
  rw [State.advance_eq_wake]
  refine hP.wake (hP.run h _) ?_
  intro limit hlimit
  exact State.step?_eq_none_of_le (State.step?_run ..) (Nat.le_of_lt hlimit)

theorem submit (hP : Invariant m P) (h : P saved s) (r : Request) :
    P (saved ++ r.acknowledged (s.submit m r).2) (s.submit m r).1 := by
  obtain hp | hp := State.phase_await m s
  · cases r with
    | save t =>
      rw [State.submit_save_of_waiting m hp]
      exact hP.save t (hP.await h) hp
    | close =>
      rw [State.submit_close_of_waiting m hp]
      simpa [Request.acknowledged] using hP.await (hP.shut (hP.await h) hp)
  · rw [State.submit_of_shut m (State.openness_of_await_closed m hp), Request.acknowledged_late,
      List.append_nil]
    dsimp only
    split
    · exact hP.await h
    · exact h

theorem submitAll (hP : Invariant m P) (h : P saved s) (rs : List Request) :
    P (saved ++ (List.zipWith Request.acknowledged rs (s.submitAll m rs).2).flatten)
      (s.submitAll m rs).1 := by
  induction rs generalizing saved s with
  | nil => simpa [State.submitAll] using h
  | cons r rs ih =>
    have hr := ih (hP.submit h r)
    rw [List.append_assoc] at hr
    exact hr

/-- That the world may change on its own is asked only of the changes that there are. -/
theorem apply (hP : Invariant m P) (h : P saved s) (op : Op σ)
    (halter : ∀ f, op = .alter f → P saved { s with world := f s.world }) :
    P (saved ++ op.acknowledged (s.apply m op).2) (s.apply m op).1 := by
  cases op with
  | submit handle r =>
    cases hh : s.holds handle with
    | true =>
      rw [State.apply_submit_of_holds m hh]
      exact hP.submit h r
    | false =>
      rw [State.apply_submit_of_not_holds m hh]
      simpa [Op.acknowledged] using h
  | together handle rs =>
    cases hh : s.holds handle with
    | true =>
      rw [State.apply_together_of_holds m hh]
      exact hP.submitAll h rs
    | false =>
      rw [State.apply_together_of_not_holds m hh]
      simpa [Op.acknowledged] using h
  | advance time => simpa [State.apply, Op.acknowledged] using hP.advance h time
  | alter f => simpa [State.apply, Op.acknowledged] using halter f rfl
  | clone handle => simpa [State.apply, Op.acknowledged] using hP.handles _ h
  | drop handle =>
    cases hh : s.holds handle with
    | true =>
      rw [State.apply_drop_of_holds m hh]
      simpa [Op.acknowledged] using hP.handles _ h
    | false =>
      rw [State.apply_drop_of_not_holds m hh]
      simpa [Op.acknowledged] using h

theorem after (hP : Invariant m P) (h : P saved s) (ops : List (Op σ))
    (halter : ∀ f, .alter f ∈ ops → ∀ saved s, P saved s → P saved { s with world := f s.world }) :
    P (saved ++ s.acknowledged m ops) (s.after m ops) := by
  induction ops generalizing saved s with
  | nil => simpa [State.acknowledged] using h
  | cons op ops ih =>
    have happly := hP.apply h op fun f hf => halter f (hf ▸ List.mem_cons_self ..) _ _ h
    have hstep : P (saved ++ op.acknowledged (s.step m op).2) (s.step m op).1 :=
      hP.run happly _
    have hrest := ih hstep fun f hf => halter f (List.mem_cons_of_mem _ hf)
    rw [List.append_assoc] at hrest
    exact hrest

end Invariant

/-! ## From one state to another -/

namespace State

variable {m} {s s' : State σ} {saved : List Team}

variable (m) in
/-- Whatever is kept holds of the second state if it holds of the first, the saver having
acknowledged the given teams on the way. -/
def Leads (s : State σ) (saved : List Team) (s' : State σ) : Prop :=
  ∀ P, Invariant m P → P [] s → P saved s'

theorem Leads.refl (s : State σ) : s.Leads m [] s :=
  fun _ _ h => h

theorem Leads.advance (h : s.Leads m saved s') (time : Nat) :
    s.Leads m saved (s'.advance m time) :=
  fun P hP hs => hP.advance (h P hP hs) time

theorem Leads.submitAll (h : s.Leads m saved s') (rs : List Request) :
    s.Leads m (saved ++ (List.zipWith Request.acknowledged rs (s'.submitAll m rs).2).flatten)
      (s'.submitAll m rs).1 :=
  fun P hP hs => hP.submitAll (h P hP hs) rs

/-- Closing acknowledges nothing. -/
theorem Leads.close (h : s.Leads m saved s') : s.Leads m saved (s'.submit m .close).1 := by
  intro P hP hs
  have hclose := hP.submit (h P hP hs) .close
  have hnothing : Request.close.acknowledged (s'.submit m .close).2 = [] := rfl
  rwa [hnothing, List.append_nil] at hclose

end State

end Roster.Saver
