import Roster.Proofs.Saver.Concurrency

/-!
The handles of a saver. It does not matter which of the handles that are held an operation names,
and nothing happens when one of them is dropped; only the last one shuts the saver, which then does
exactly what it does when it is asked to close.
-/

namespace Roster.Saver

variable {σ : Type} {m : Setup σ} {P : σ → Prop}

namespace State

variable {s : State σ}

/-! ## Handles and reports bear on nothing else -/

/-- The state with other handles, and with reports in front of its own. -/
def framed (s : State σ) (log : List Entry) (handles : List Bool) : State σ :=
  { s with log := log ++ s.log, handles }

def bare (s : State σ) : State σ :=
  { s with log := [] }

section

variable (s) (log : List Entry) (handles : List Bool)

@[simp] theorem framed_framed (log' : List Entry) (handles' : List Bool) :
    (s.framed log handles).framed log' handles' = s.framed (log' ++ log) handles' := by
  simp only [framed, List.append_assoc]

theorem bare_framed : s.bare.framed s.log s.handles = s := by
  simp only [bare, framed, List.append_nil]

theorem finish_framed (trigger : Trigger) (pending : Nat) (failed : List Team) :
    (s.framed log handles).finish m trigger pending failed =
      (s.finish m trigger pending failed).framed log handles := by
  cases trigger with
  | capacity => simp only [finish, framed, report, List.append_assoc]
  | interval => simp only [finish, framed, report, List.append_assoc]
  | shutdown =>
    simp only [finish, framed, report, List.append_assoc]
    rfl

theorem sendNext_framed (trigger : Trigger) (pending index : Nat) (failed : List Team)
    (cs : List (List Team)) :
    (s.framed log handles).sendNext m trigger pending index failed cs =
      (s.sendNext m trigger pending index failed cs).framed log handles := by
  cases cs with
  | nil => exact finish_framed ..
  | cons c cs => rfl

theorem report_framed (entries : List Entry) :
    (s.framed log handles).report entries = (s.report entries).framed log handles := by
  simp only [framed, report, List.append_assoc]

theorem beginFlush_framed (trigger : Trigger) :
    (s.framed log handles).beginFlush m trigger = (s.beginFlush m trigger).framed log handles := by
  have hreport : ∀ entries, ({ s.framed log handles with buffer := [] } : State σ).report entries =
      (({ s with buffer := [] } : State σ).report entries).framed log handles :=
    report_framed { s with buffer := [] } log handles
  rw [beginFlush_eq_sendNext, beginFlush_eq_sendNext, hreport, sendNext_framed]
  rfl

theorem takeAnswer_framed (w : Writing) :
    (s.framed log handles).takeAnswer m w = (s.takeAnswer m w).framed log handles := by
  rw [takeAnswer, report_framed, sendNext_framed]
  rfl

theorem accept_framed (t : Team) :
    (s.framed log handles).accept m t = (s.accept m t).framed log handles := by
  by_cases hfull : m.capacity ≤ (s.buffer ++ [t]).length
  · rw [accept_of_full m hfull, accept_of_full m (s := s.framed log handles) hfull]
    exact beginFlush_framed { s with buffer := s.buffer ++ [t] } ..
  · rw [accept_of_not_full m hfull, accept_of_not_full m (s := s.framed log handles) hfull]
    rfl

theorem await_framed : (s.framed log handles).await m = (s.await m).framed log handles := by
  induction s using await.induct m with
  | case1 s w hw ih =>
    have hstep : ((s.framed log handles).wake w.ends).takeAnswer m w =
        ((s.wake w.ends).takeAnswer m w).framed log handles :=
      takeAnswer_framed (s.wake w.ends) ..
    rw [await_of_writing m hw, await_of_writing m (s := s.framed log handles) hw, hstep, ih]
  | case2 s hs => rw [await_of_idle m hs, await_of_idle m (s := s.framed log handles) hs]

theorem submit_framed (r : Request) :
    (s.framed log handles).submit m r =
      ((s.submit m r).1.framed log handles, (s.submit m r).2) := by
  have hawait : (s.framed log handles).await m = (s.await m).framed log handles := await_framed ..
  have hphase : ((s.framed log handles).await m).phase = (s.await m).phase := by
    rw [hawait]
    rfl
  obtain hp | hp := phase_await m s
  · cases r with
    | save t =>
      rw [submit_save_of_waiting m hp, submit_save_of_waiting m (hphase.trans hp), hawait,
        accept_framed]
    | close =>
      rw [submit_close_of_waiting m hp, submit_close_of_waiting m (hphase.trans hp), hawait,
        beginFlush_framed, await_framed]
  · rw [submit_of_shut m (openness_of_await_closed m hp),
      submit_of_shut m (openness_of_await_closed m (hphase.trans hp)), hawait]
    dsimp only
    split <;> rfl

theorem submitAll_framed (rs : List Request) :
    (s.framed log handles).submitAll m rs =
      ((s.submitAll m rs).1.framed log handles, (s.submitAll m rs).2) := by
  induction rs generalizing s with
  | nil => rfl
  | cons r rs ih => simp only [submitAll, submit_framed, ih]

end

/-- What the owner does on its own depends on whether anybody holds the saver, and not on who. -/
theorem step?_framed {log : List Entry} {handles : List Bool} (h : handles.any id = s.isHeld)
    (limit : Nat) :
    (s.framed log handles).step? m limit = (s.step? m limit).map (·.framed log handles) := by
  have hheld : (s.framed log handles).isHeld = s.isHeld := h
  cases hp : s.phase with
  | closed => rw [step?_of_closed m hp, step?_of_closed m (s := s.framed log handles) hp]; rfl
  | writing w =>
    have hp' : (s.framed log handles).phase = .writing w := hp
    rw [step?_of_writing m hp, step?_of_writing m hp']
    split
    · exact congrArg some (takeAnswer_framed (s.wake w.ends) ..)
    · rfl
  | waiting =>
    have hp' : (s.framed log handles).phase = .waiting := hp
    have hdue : (s.framed log handles).due = s.due := rfl
    rw [step?_of_waiting m hp, step?_of_waiting m hp', hheld, hdue]
    split
    · rw [report_framed, beginFlush_framed, Option.map_some]
    · split
      · exact congrArg some (beginFlush_framed
          { s.wake s.due with due := nextDue m.interval s.due (s.wake s.due).clock } ..)
      · rfl

theorem handles_step? {s' : State σ} {limit : Nat} (h : s.step? m limit = some s') :
    s'.handles = s.handles := by
  cases (step?_eq_some_iff m).1 h with
  | answer => exact handles_sendNext ..
  | abandon => exact handles_beginFlush ..
  | tick => exact handles_beginFlush ..

theorem run_framed {log : List Entry} {handles : List Bool} (h : handles.any id = s.isHeld)
    (limit : Nat) : (s.framed log handles).run m limit = (s.run m limit).framed log handles := by
  induction s using run.induct m limit with
  | case1 s hnone =>
    have hnone' : (s.framed log handles).step? m limit = none := by
      rw [step?_framed h, hnone, Option.map_none]
    rw [run_of_none m hnone, run_of_none m hnone']
  | case2 s s' hsome ih =>
    have hsome' : (s.framed log handles).step? m limit = some (s'.framed log handles) := by
      rw [step?_framed h, hsome, Option.map_some]
    have hheld : handles.any id = s'.isHeld := by rw [isHeld, handles_step? hsome, h, isHeld]
    rw [run_of_some m hsome, run_of_some m hsome', ih hheld]

theorem handles_run (s : State σ) (limit : Nat) : (s.run m limit).handles = s.handles := by
  induction s using run.induct m limit with
  | case1 s h => rw [run_of_none m h]
  | case2 s s' h ih => rw [run_of_some m h, ih, handles_step? h]

theorem settle_framed {log : List Entry} {handles : List Bool} (h : handles.any id = s.isHeld) :
    (s.framed log handles).settle m = (s.settle m).framed log handles :=
  run_framed h s.clock

theorem advance_framed {log : List Entry} {handles : List Bool} (h : handles.any id = s.isHeld)
    (time : Nat) :
    (s.framed log handles).advance m time = (s.advance m time).framed log handles := by
  have hrun : (s.framed log handles).run m (s.clock + time) = _ := run_framed h (s.clock + time)
  rw [advance, advance]
  exact congrArg (fun s' : State σ => { s' with clock := s.clock + time }) hrun

/-! ## What operations do to handles -/

theorem isHeld_iff : s.isHeld = true ↔ ∃ handle, s.holds handle = true := by
  constructor
  · intro h
    obtain ⟨b, hb, hid⟩ := List.any_eq_true.1 h
    obtain ⟨i, hi⟩ := List.mem_iff_getElem?.1 hb
    refine ⟨i, ?_⟩
    rw [holds, List.getD_eq_getElem?_getD, hi]
    exact hid
  · rintro ⟨handle, h⟩
    exact isHeld_of_holds h

def release (s : State σ) (handle : Nat) : State σ :=
  { s with handles := s.handles.set handle false }

theorem release_eq_framed (s : State σ) (handle : Nat) :
    s.release handle = s.framed [] (s.handles.set handle false) := rfl

theorem holds_release (s : State σ) (handle i : Nat) :
    (s.release handle).holds i = (i ≠ handle && s.holds i) := by
  simp only [holds, release, List.getD_eq_getElem?_getD, List.getElem?_set]
  by_cases hi : i = handle
  · subst hi
    by_cases hlt : i < s.handles.length <;> simp [hlt]
  · simp [hi, Ne.symm hi]

theorem release_of_not_holds {handle : Nat} (h : s.holds handle = false) :
    s.release handle = s := by
  have hset : s.handles.set handle false = s.handles := by
    by_cases hlt : handle < s.handles.length
    · rw [holds, List.getD_eq_getElem _ _ hlt] at h
      rw [← h, List.set_getElem_self]
    · exact List.set_eq_of_length_le (Nat.le_of_not_lt hlt)
  rw [release, hset]

theorem apply_drop (s : State σ) (handle : Nat) :
    s.apply m (.drop handle) =
      (s.release handle, if s.holds handle then .dropped else .gone) := by
  cases hh : s.holds handle with
  | true => exact apply_drop_of_holds m hh
  | false =>
    rw [apply_drop_of_not_holds m hh, release_of_not_holds hh]
    rfl

theorem handles_submitAll (s : State σ) (rs : List Request) :
    (s.submitAll m rs).1.handles = s.handles := by
  induction rs generalizing s with
  | nil => rfl
  | cons r rs ih =>
    have hrest := ih (s.submit m r).1
    rw [handles_submit] at hrest
    exact hrest

/-! ## Runs on other handles -/

/-- The states differ at most in which handles are held, and not in how many. -/
structure Alike (s s' : State σ) : Prop where
  rest : s' = s.framed [] s'.handles
  handles : s'.handles.Perm s.handles

end State

/-- The second operation is the first one on some handle that is held if and only if the handle of
the first one is. -/
inductive Op.Mirrors (s s' : State σ) : Op σ → Op σ → Prop where
  | submit {handle handle' : Nat} (r : Request) :
    s'.holds handle' = s.holds handle → Mirrors s s' (.submit handle r) (.submit handle' r)
  | together {handle handle' : Nat} (rs : List Request) :
    s'.holds handle' = s.holds handle → Mirrors s s' (.together handle rs) (.together handle' rs)
  | advance (time : Nat) : Mirrors s s' (.advance time) (.advance time)
  | alter (f : σ → σ) : Mirrors s s' (.alter f) (.alter f)
  | clone {handle handle' : Nat} :
    s'.holds handle' = s.holds handle → Mirrors s s' (.clone handle) (.clone handle')
  | drop {handle handle' : Nat} :
    s'.holds handle' = s.holds handle → Mirrors s s' (.drop handle) (.drop handle')

/-- The operations are the same, one after the other, but for the handles that they name. -/
inductive Mirrors (m : Setup σ) : State σ → State σ → List (Op σ) → List (Op σ) → Prop where
  | nil (s s' : State σ) : Mirrors m s s' [] []
  | cons {s s' : State σ} {op op' : Op σ} {ops ops' : List (Op σ)} :
    op.Mirrors s s' op' → Mirrors m (s.step m op).1 (s'.step m op').1 ops ops' →
      Mirrors m s s' (op :: ops) (op' :: ops')

namespace State

variable {s s' : State σ}

theorem Alike.refl (s : State σ) : Alike s s := ⟨rfl, .refl _⟩

theorem alike_framed {handles : List Bool} (h : handles.Perm s.handles) :
    Alike s (s.framed [] handles) :=
  ⟨rfl, h⟩

theorem Alike.isHeld_eq (h : Alike s s') : s'.handles.any id = s.isHeld :=
  h.handles.any_eq

/-- Of handles as many are left, whichever of those that are held is let go. -/
theorem Alike.release (h : Alike s s') {handle handle' : Nat}
    (hheld : s'.holds handle' = s.holds handle) :
    Alike (s.release handle) (s'.release handle') := by
  cases hh : s.holds handle with
  | false =>
    rw [release_of_not_holds hh, release_of_not_holds (hheld.trans hh)]
    exact h
  | true =>
    have hget : ∀ {t : State σ} {i : Nat}, t.holds i = true →
        ∃ hi : i < t.handles.length, t.handles[i] = true := by
      intro t i ht
      by_cases hi : i < t.handles.length
      · rw [holds, List.getD_eq_getElem _ _ hi] at ht
        exact ⟨hi, ht⟩
      · rw [holds, List.getD_eq_default _ _ (Nat.le_of_not_lt hi)] at ht
        cases ht
    obtain ⟨hi, htrue⟩ := hget hh
    obtain ⟨hi', htrue'⟩ := hget (hheld.trans hh)
    refine ⟨?_, List.perm_iff_count.2 ?_⟩
    · rw [release_eq_framed s', h.rest]
      rfl
    · intro b
      have hcount := List.perm_iff_count.1 h.handles b
      simp only [State.release, List.count_set hi, List.count_set hi', htrue, htrue', hcount]

theorem Alike.apply (h : Alike s s') {op op' : Op σ} (hop : op.Mirrors s s' op') :
    (s'.apply m op').2 = (s.apply m op).2 ∧ Alike (s.apply m op).1 (s'.apply m op').1 := by
  obtain ⟨handles, rfl⟩ : ∃ handles, s' = s.framed [] handles := ⟨_, h.rest⟩
  have hperm : handles.Perm s.handles := h.handles
  cases hop with
  | @submit handle handle' r hheld =>
    cases hh : s.holds handle with
    | true =>
      rw [apply_submit_of_holds m hh, apply_submit_of_holds m (hheld.trans hh), submit_framed]
      refine ⟨rfl, alike_framed ?_⟩
      rw [handles_submit]
      exact hperm
    | false =>
      rw [apply_submit_of_not_holds m hh, apply_submit_of_not_holds m (hheld.trans hh)]
      exact ⟨rfl, h⟩
  | @together handle handle' rs hheld =>
    cases hh : s.holds handle with
    | true =>
      rw [apply_together_of_holds m hh, apply_together_of_holds m (hheld.trans hh),
        submitAll_framed]
      refine ⟨rfl, alike_framed ?_⟩
      rw [handles_submitAll]
      exact hperm
    | false =>
      rw [apply_together_of_not_holds m hh, apply_together_of_not_holds m (hheld.trans hh)]
      exact ⟨rfl, h⟩
  | advance time =>
    have hadvance : (s.framed [] handles).advance m time = (s.advance m time).framed [] handles :=
      advance_framed h.isHeld_eq time
    have halike : Alike (s.advance m time) ((s.framed [] handles).advance m time) := by
      rw [hadvance]
      refine alike_framed ?_
      rw [advance, handles_run]
      exact hperm
    exact ⟨rfl, halike⟩
  | alter f => exact ⟨rfl, rfl, hperm⟩
  | @clone handle handle' hheld =>
    have hlength : handles.length = s.handles.length := hperm.length_eq
    have hclone : (handles ++ [(s.framed [] handles).holds handle']).Perm
        (s.handles ++ [s.holds handle]) := by
      rw [hheld]
      exact hperm.append_right _
    exact ⟨congrArg Outcome.handle hlength, rfl, hclone⟩
  | @drop handle handle' hheld =>
    rw [apply_drop, apply_drop, hheld]
    exact ⟨rfl, h.release hheld⟩

theorem Alike.settle (h : Alike s s') : Alike (s.settle m) (s'.settle m) := by
  have hsettle : s'.settle m = (s.settle m).framed [] s'.handles := by
    rw [h.rest, settle_framed h.isHeld_eq]
    rfl
  rw [hsettle]
  refine alike_framed ?_
  rw [State.settle, handles_run]
  exact h.handles

theorem Alike.step (h : Alike s s') {op op' : Op σ} (hop : op.Mirrors s s' op') :
    (s'.step m op').2 = (s.step m op).2 ∧ Alike (s.step m op).1 (s'.step m op').1 := by
  obtain ⟨houtcome, halike⟩ := h.apply (m := m) hop
  exact ⟨houtcome, halike.settle⟩

/-- Operations on other handles yield the same and leave a saver of which as many handles are
held. -/
theorem Alike.after (h : Alike s s') {ops ops' : List (Op σ)} (hops : Mirrors m s s' ops ops') :
    s'.outcomes m ops' = s.outcomes m ops ∧ Alike (s.after m ops) (s'.after m ops') := by
  induction hops with
  | nil => exact ⟨rfl, h⟩
  | cons hop hops ih =>
    obtain ⟨houtcome, hnext⟩ := h.step (m := m) hop
    obtain ⟨houtcomes, hlast⟩ := ih hnext
    refine ⟨?_, hlast⟩
    rw [outcomes, outcomes, houtcome, houtcomes]

end State

theorem Op.Mirrors.recorded {s s' : State (Recorded σ)} {op op' : Op σ}
    (h : op.Mirrors s.forget s'.forget op') : op.recorded.Mirrors s s' op'.recorded := by
  cases h with
  | submit r hheld => exact .submit r hheld
  | together rs hheld => exact .together rs hheld
  | advance time => exact .advance time
  | alter f => exact .alter _
  | clone hheld => exact .clone hheld
  | drop hheld => exact .drop hheld

theorem Mirrors.recorded {s s' : State (Recorded σ)} {ops ops' : List (Op σ)}
    (h : Mirrors m s.forget s'.forget ops ops') :
    Mirrors m.recorded s s' (ops.map Op.recorded) (ops'.map Op.recorded) := by
  generalize ht : s.forget = t, ht' : s'.forget = t' at h
  induction h generalizing s s' with
  | nil => exact .nil ..
  | @cons t t' op op' ops ops' hop hops ih =>
    subst ht ht'
    exact .cons hop.recorded (ih (State.forget_step m s op).1 (State.forget_step m s' op').1)

/-! ## Letting go -/

namespace State

variable {s : State σ}

def releaseAll (s : State σ) (handles : List Nat) : State σ :=
  { s with handles := handles.foldl (fun held handle => held.set handle false) s.handles }

theorem releaseAll_cons (s : State σ) (handle : Nat) (handles : List Nat) :
    s.releaseAll (handle :: handles) = (s.release handle).releaseAll handles := rfl

theorem holds_releaseAll (s : State σ) (handles : List Nat) (i : Nat) :
    (s.releaseAll handles).holds i = (i ∉ handles && s.holds i) := by
  induction handles generalizing s with
  | nil => simp [releaseAll, holds]
  | cons handle handles ih =>
    rw [releaseAll_cons, ih, holds_release]
    by_cases hi : i = handle <;> simp [hi]

theorem isHeld_releaseAll {handles : List Nat} (h : ∀ i, s.holds i = true → i ∈ handles) :
    (s.releaseAll handles).isHeld = false := by
  rw [Bool.eq_false_iff]
  intro hheld
  obtain ⟨i, hi⟩ := isHeld_iff.1 hheld
  rw [holds_releaseAll] at hi
  simp only [Bool.and_eq_true, decide_eq_true_eq] at hi
  exact hi.1 (h i hi.2)

theorem isHeld_of_release {handle : Nat} (h : (s.release handle).isHeld = true) :
    s.isHeld = true := by
  obtain ⟨i, hi⟩ := isHeld_iff.1 h
  rw [holds_release, Bool.and_eq_true] at hi
  exact isHeld_of_holds hi.2

/-- While the saver is held, nobody notices that a handle is let go. -/
theorem step_drop_of_isHeld (hidle : s.step? m s.clock = none) {handle : Nat}
    (hheld : (s.release handle).isHeld = true) :
    s.step m (.drop handle) =
      (s.release handle, if s.holds handle then .dropped else .gone) := by
  have hany : (s.handles.set handle false).any id = s.isHeld :=
    hheld.trans (isHeld_of_release hheld).symm
  have hnone : (s.release handle).step? m s.clock = none := by
    rw [release_eq_framed, step?_framed hany, hidle, Option.map_none]
  have hsettle : (s.release handle).settle m = s.release handle := run_of_none m hnone
  rw [step, apply_drop]
  dsimp only
  rw [hsettle]

theorem step_drop_of_closed (h : s.phase = .closed) (handle : Nat) :
    (s.step m (.drop handle)).1 = s.release handle := by
  have hsettle : (s.release handle).settle m = s.release handle := settle_of_closed h
  rw [step, apply_drop]
  exact hsettle

theorem step_submit_of_closed (h : s.phase = .closed) {handle : Nat} (hh : s.holds handle = true)
    (r : Request) : (s.step m (.submit handle r)).1 = s := by
  rw [step, apply_submit_of_holds m hh, submit_of_closed m h]
  exact settle_of_closed h

theorem after_drops_of_closed (h : s.phase = .closed) (handles : List Nat) :
    s.after m (handles.map .drop) = s.releaseAll handles := by
  induction handles generalizing s with
  | nil => rfl
  | cons handle handles ih =>
    have hp : (s.release handle).phase = .closed := h
    rw [List.map_cons, after_cons, step_drop_of_closed h, ih hp, releaseAll_cons]

def shut (m : Setup σ) (s : State σ) : State σ :=
  (s.bare.beginFlush m .shutdown).await m

theorem shut_framed (log : List Entry) (handles : List Bool) :
    ((s.bare.framed log handles).beginFlush m .shutdown).await m =
      (s.shut m).framed log handles := by
  rw [beginFlush_framed, await_framed, shut]

theorem phase_shut (m : Setup σ) (s : State σ) : (s.shut m).phase = .closed := by
  refine phase_await_of_shut m ?_
  rw [openness_beginFlush, if_pos rfl]

theorem step_close_of_waiting (hp : s.phase = .waiting) {handle : Nat}
    (hh : s.holds handle = true) :
    (s.step m (.submit handle .close)).1 = (s.shut m).framed s.log s.handles := by
  have hawait : s.await m = s := by
    refine await_of_idle m ?_
    intro w hw
    cases hp.symm.trans hw
  have hp' : (s.await m).phase = .waiting := by rwa [hawait]
  have hsubmit : (s.submit m .close).1 = (s.shut m).framed s.log s.handles := by
    rw [submit_close_of_waiting m hp', hawait, ← shut_framed, bare_framed]
  have hclosed : ((s.shut m).framed s.log s.handles).phase = .closed := phase_shut m s
  rw [step, apply_submit_of_holds m hh]
  dsimp only
  rw [hsubmit, settle_of_closed hclosed]

/-- When the last handle is let go, the owner notices it and shuts the saver. -/
theorem Steady.step_drop_of_not_isHeld (hq : Quiet m.repo P) (h : s.Steady P)
    (hp : s.phase = .waiting) {handle : Nat} (hheld : (s.release handle).isHeld = false) :
    (s.step m (.drop handle)).1 =
      (s.shut m).framed (s.log ++ [.abandoned]) (s.release handle).handles := by
  let noticed := (s.release handle).report [.abandoned]
  have hstep : (s.release handle).step? m s.clock = some (noticed.beginFlush m .shutdown) :=
    (step?_eq_some_iff m).2 (.abandon hp hheld)
  have hcalm : noticed.Calm P := ⟨h.world, h.prompt⟩
  have hnoticed : noticed = s.bare.framed (s.log ++ [.abandoned]) (s.release handle).handles := by
    simp only [noticed, report, bare, framed, release, List.append_nil]
  have hshut : (noticed.beginFlush m .shutdown).await m =
      (s.shut m).framed (s.log ++ [.abandoned]) (s.release handle).handles := by
    rw [hnoticed, shut_framed]
  have hclosed : ((s.shut m).framed (s.log ++ [.abandoned])
      (s.release handle).handles).phase = .closed := phase_shut m s
  calc
    (s.step m (.drop handle)).1 = (s.release handle).run m s.clock := by
      rw [step, apply_drop]
      rfl
    _ = (noticed.beginFlush m .shutdown).run m s.clock := run_of_some m hstep
    _ = (noticed.beginFlush m .shutdown).settle m := by
      rw [settle, clock_beginFlush]
      rfl
    _ = ((noticed.beginFlush m .shutdown).await m).settle m :=
      ((hcalm.beginFlush hq .shutdown).settle_await hq).symm
    _ = _ := by rw [hshut, settle_of_closed hclosed]

/-- When all handles are let go, the saver is shut once, by the last of them. -/
theorem Steady.after_drops (hq : Quiet m.repo P) (h : s.Steady P) (hp : s.phase = .waiting)
    {handles : List Nat} (hall : ∀ i, s.holds i = true → i ∈ handles) :
    s.after m (handles.map .drop) =
      (s.shut m).framed (s.log ++ [.abandoned]) (s.releaseAll handles).handles := by
  induction handles generalizing s with
  | nil =>
    obtain ⟨i, hi⟩ := isHeld_iff.1 h.held
    cases hall i hi
  | cons handle handles ih =>
    rw [List.map_cons, after_cons, releaseAll_cons]
    cases hheld : (s.release handle).isHeld with
    | true =>
      -- somebody is left
      have ho := openness_of_waiting hp
      have hidle : s.step? m s.clock = none :=
        step?_eq_none_of_lt_due hp (by simp [h.held]) (h.early ho)
      have hnext : (s.release handle).Steady P := ⟨⟨h.world, h.prompt⟩, hheld, h.early⟩
      have hall' : ∀ i, (s.release handle).holds i = true → i ∈ handles := by
        intro i hi
        rw [holds_release] at hi
        simp only [Bool.and_eq_true, decide_eq_true_eq] at hi
        exact List.mem_of_ne_of_mem hi.1 (hall i hi.2)
      have hshut : (s.release handle).shut m = (s.shut m).framed [] (s.release handle).handles :=
        shut_framed [] (s.release handle).handles
      rw [step_drop_of_isHeld hidle hheld, ih hnext hp hall', hshut, framed_framed,
        List.append_nil]
      rfl
    | false =>
      -- this was the last handle
      have hclosed : ((s.shut m).framed (s.log ++ [.abandoned])
          (s.release handle).handles).phase = .closed := phase_shut m s
      rw [h.step_drop_of_not_isHeld hq hp hheld, after_drops_of_closed hclosed]
      rfl

end State

open State

/-- Operations that differ in the handles that they name make the same calls. -/
theorem calls_of_mirrors {world : σ} {ops ops' : List (Op σ)}
    (h : Mirrors m (start m world) (start m world) ops ops') :
    calls m world ops' = calls m world ops := by
  have hrecorded : Mirrors m.recorded (start m.recorded { world }) (start m.recorded { world })
      (ops.map Op.recorded) (ops'.map Op.recorded) :=
    h.recorded
  have hlast := ((Alike.refl (start m.recorded { world })).after hrecorded).2
  have hworld := congrArg State.world hlast.rest
  exact congrArg Recorded.calls hworld

theorem calls_append_of_world_eq {world : σ} {ops more : List (Op σ)}
    (h : ((recordedRun m world ops).after m.recorded (more.map Op.recorded)).world =
      (recordedRun m world ops).world) :
    calls m world (ops ++ more) = calls m world ops := by
  rw [calls, recordedRun_append, h, calls]

theorem map_recorded_drop (handles : List Nat) :
    (handles.map Op.drop : List (Op σ)).map Op.recorded = handles.map .drop := by
  rw [List.map_map]
  rfl

/-- Dropping a handle of a saver that stays held makes no call. -/
theorem calls_drop_of_isHeld {world : σ} {ops : List (Op σ)} {handle : Nat}
    (hheld : (((start m world).after m ops).release handle).isHeld = true) :
    calls m world (ops ++ [.drop handle]) = calls m world ops := by
  have hidle := step?_after (m := m.recorded) { world } (ops.map Op.recorded)
  rw [← forget_recordedRun] at hheld
  have hstep := step_drop_of_isHeld (m := m.recorded) hidle hheld
  exact calls_append_of_world_eq (congrArg (fun x => x.1.world) hstep)

theorem calls_drops_of_closed {world : σ} {ops : List (Op σ)}
    (h : ((start m world).after m ops).phase = .closed) (handles : List Nat) :
    calls m world (ops ++ handles.map .drop) = calls m world ops := by
  rw [← forget_recordedRun] at h
  have hp : (recordedRun m world ops).phase = .closed := h
  refine calls_append_of_world_eq ?_
  rw [map_recorded_drop, after_drops_of_closed hp]
  rfl

theorem calls_submit_of_closed {world : σ} {ops : List (Op σ)}
    (h : ((start m world).after m ops).phase = .closed) {handle : Nat}
    (hh : ((start m world).after m ops).holds handle = true) (r : Request) :
    calls m world (ops ++ [.submit handle r]) = calls m world ops := by
  rw [← forget_recordedRun] at h hh
  have hstep := step_submit_of_closed (m := m.recorded) (s := recordedRun m world ops) h hh r
  exact calls_append_of_world_eq (congrArg State.world hstep)

/-- Letting all handles go makes the calls that closing makes. -/
theorem calls_drops_of_quiet (hq : Quiet m.repo P) {world : σ} (hw : P world) {ops : List (Op σ)}
    (halter : ∀ f, .alter f ∈ ops → ∀ world, P world → P (f world)) {handle : Nat}
    (hh : ((start m world).after m ops).holds handle = true)
    (hp : ((start m world).after m ops).phase = .waiting) {handles : List Nat}
    (hall : ∀ i, ((start m world).after m ops).holds i = true → i ∈ handles) :
    calls m world (ops ++ handles.map .drop) = calls m world (ops ++ [.submit handle .close]) := by
  rw [← forget_recordedRun] at hh hp hall
  have hh : (recordedRun m world ops).holds handle = true := hh
  have hp : (recordedRun m world ops).phase = .waiting := hp
  have hsteady : (recordedRun m world ops).Steady fun r => P r.world :=
    @steady_after _ m.recorded _ hq.recorded { world } hw _ (alter_recorded halter)
      (isHeld_of_holds hh)
  have hclose : (recordedRun m world (ops ++ [.submit handle .close])).world =
      ((recordedRun m world ops).shut m.recorded).world := by
    have hstep := congrArg State.world (step_close_of_waiting (m := m.recorded) hp hh)
    rw [recordedRun_append]
    exact hstep
  rw [calls, calls, hclose, recordedRun_append, map_recorded_drop,
    hsteady.after_drops hq.recorded hp hall]
  rfl

/-- It does not matter which of the held handles operations name: they yield the same, make the same
calls and leave the same saver. A handle that is dropped while another is held leaves everything
else as it was. If every call is answered at once, dropping all handles makes the calls that closing
makes and leaves the saver that closing leaves, with the report that nobody holds it any more before
those on the last flush. Once the saver is closed, dropping handles changes nothing else. -/
theorem handles_interchangeable (m : Setup σ) (world : σ) :
    (∀ ops ops' : List (Op σ), Mirrors m (start m world) (start m world) ops ops' →
      (start m world).outcomes m ops' = (start m world).outcomes m ops ∧
      calls m world ops' = calls m world ops ∧
      Alike ((start m world).after m ops) ((start m world).after m ops')) ∧
    ∀ ops : List (Op σ), let s := (start m world).after m ops
      (∀ i j, i ≠ j → s.holds i = true → s.holds j = true →
        s.step m (.drop i) = ({ s with handles := s.handles.set i false }, .dropped) ∧
        calls m world (ops ++ [.drop i]) = calls m world ops) ∧
      (∀ P : σ → Prop, Quiet m.repo P → P world →
        (∀ f, .alter f ∈ ops → ∀ world, P world → P (f world)) →
        ∀ (handle : Nat) (handles : List Nat), s.holds handle = true →
          (∀ i, s.holds i = true → i ∈ handles) →
          let closed := (s.step m (.submit handle .close)).1
          let dropped := s.after m (handles.map .drop)
          closed.isClosed = true ∧ dropped.isHeld = false ∧
          calls m world (ops ++ handles.map .drop) =
            calls m world (ops ++ [.submit handle .close]) ∧
          ∃ new, closed.log = s.log ++ new ∧
            dropped = { closed with
              handles := dropped.handles
              log := s.log ++ (if s.isClosed then [] else [.abandoned]) ++ new }) ∧
      (s.isClosed = true → ∀ handles : List Nat,
        s.after m (handles.map .drop) = s.releaseAll handles ∧
        calls m world (ops ++ handles.map .drop) = calls m world ops) := by
  refine ⟨?_, ?_⟩
  · intro ops ops' hops
    obtain ⟨houtcomes, hlast⟩ := (Alike.refl (start m world)).after hops
    exact ⟨houtcomes, calls_of_mirrors hops, hlast⟩
  intro ops s
  refine ⟨?_, ?_, ?_⟩
  · intro i j hij hi hj
    have hholds : (s.release i).holds j = true := by
      rw [holds_release, hj]
      simp [hij.symm]
    have hheld : (s.release i).isHeld = true := isHeld_of_holds hholds
    refine ⟨?_, calls_drop_of_isHeld hheld⟩
    rw [step_drop_of_isHeld (step?_after world ops) hheld, hi]
    rfl
  · intro P hq hw halter handle handles hh hall closed dropped
    obtain hp | hp : s.phase = .waiting ∨ s.phase = .closed := phase_after hq hw halter
    · have hopen : s.isClosed = false := by simp only [isClosed, hp]
      have hsteady : s.Steady P := steady_after hq hw halter (isHeld_of_holds hh)
      have hclosed : closed = (s.shut m).framed s.log s.handles := step_close_of_waiting hp hh
      have hdropped : dropped =
          (s.shut m).framed (s.log ++ [.abandoned]) (s.releaseAll handles).handles :=
        hsteady.after_drops hq hp hall
      refine ⟨?_, ?_, calls_drops_of_quiet hq hw halter hh hp hall, (s.shut m).log, ?_, ?_⟩
      · rw [isClosed_iff, hclosed]
        exact phase_shut m s
      · rw [hdropped]
        exact isHeld_releaseAll hall
      · rw [hclosed]
        rfl
      · rw [hdropped, hclosed, hopen]
        rfl
    · have hsame : closed = s := step_submit_of_closed hp hh .close
      have hdropped : dropped = s.releaseAll handles := after_drops_of_closed hp handles
      refine ⟨?_, ?_, ?_, [], ?_, ?_⟩
      · rw [hsame, isClosed_iff]
        exact hp
      · rw [hdropped]
        exact isHeld_releaseAll hall
      · rw [calls_drops_of_closed hp, calls_submit_of_closed hp hh]
      · rw [hsame, List.append_nil]
      · rw [hdropped, hsame, isClosed_iff.2 hp]
        simp only [if_true, List.append_nil]
        rfl
  · intro hclosed handles
    have hp : s.phase = .closed := isClosed_iff.1 hclosed
    exact ⟨after_drops_of_closed hp handles, calls_drops_of_closed hp handles⟩

def sharedOps : List (Op Rehearsal) :=
  [.clone 0, .submit 0 (.save ⟨1, "a", "", false⟩), .submit 1 (.save ⟨2, "b", "", false⟩)]

def exchangedOps : List (Op Rehearsal) :=
  [.clone 0, .submit 1 (.save ⟨1, "a", "", false⟩), .submit 0 (.save ⟨2, "b", "", false⟩)]

theorem mirrors_exchangedOps :
    Mirrors trial (start trial trialWorld) (start trial trialWorld) sharedOps exchangedOps := by
  refine .cons (.clone rfl) (.cons (.submit _ ?_) (.cons (.submit _ ?_) (.nil ..)))
  · cbv
  · cbv

/-- The team of the refused batch is sent again when both handles have been dropped, as it is when
one of them is used to close the saver. -/
theorem handles_trial :
    let s := (start trial trialWorld).after trial sharedOps
    let closed := (s.step trial (.submit 1 .close)).1
    let dropped := s.after trial ([0, 1].map .drop)
    calls trial trialWorld exchangedOps = calls trial trialWorld sharedOps ∧
    s.step trial (.drop 0) = ({ s with handles := s.handles.set 0 false }, .dropped) ∧
    calls trial trialWorld (sharedOps ++ [0, 1].map .drop) =
      calls trial trialWorld (sharedOps ++ [.submit 1 .close]) ∧
    dropped.isClosed = true ∧ dropped.buffer = closed.buffer ∧
    closed.log = s.log ++ [.flushing .shutdown 1, .written 0 1, .closed] ∧
    dropped.log = s.log ++ [.abandoned, .flushing .shutdown 1, .written 0 1, .closed] := by
  intro s closed dropped
  have hw : trialWorld.script.delay = 0 := rfl
  have hopen : ((start trial trialWorld).after trial sharedOps).isClosed = false := by cbv
  have hheld : ((start trial trialWorld).after trial sharedOps).handles = [true, true] := by cbv
  have hh : ∀ i, ((start trial trialWorld).after trial sharedOps).holds i = true → i ∈ [0, 1] := by
    intro i hi
    rw [State.holds, hheld] at hi
    obtain _ | _ | i := i
    · decide
    · decide
    · cases hi
  have hlog : ((((start trial trialWorld).after trial sharedOps).step trial
      (.submit 1 .close)).1).log = ((start trial trialWorld).after trial sharedOps).log ++
        [.flushing .shutdown 1, .written 0 1, .closed] := by cbv
  obtain ⟨hmirrors, hruns⟩ := handles_interchangeable trial trialWorld
  obtain ⟨hdrop, hlast, -⟩ := hruns sharedOps
  obtain ⟨hclosed, -, hcalls, new, hnew, hdropped⟩ :=
    hlast _ quiet_rehearsal hw (by simp [sharedOps]) 1 [0, 1] (by rw [holds, hheld]; rfl) hh
  obtain rfl := List.append_cancel_left (hlog.symm.trans hnew)
  rw [hopen] at hdropped
  have hsame := congrArg isClosed hdropped
  have hbuffer := congrArg State.buffer hdropped
  have hreports := congrArg State.log hdropped
  exact ⟨(hmirrors _ _ mirrors_exchangedOps).2.1,
    (hdrop 0 1 (by decide) (by rw [holds, hheld]; rfl) (by rw [holds, hheld]; rfl)).1, hcalls,
    hsame.trans hclosed, hbuffer, hlog, hreports.trans (List.append_assoc ..)⟩

end Roster.Saver
