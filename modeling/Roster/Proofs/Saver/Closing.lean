import Roster.Proofs.Saver.Accounting

/-!
How a saver ends. It is shut by exactly one last flush, which is given everything that is then in
the buffer, so every team that was ever acknowledged has been sent at least once before anybody is
told that the saver is closed. After that nothing happens any more: no flush, no call, no report;
every save is refused and every close is answered.
-/

namespace Roster.Saver

variable {σ : Type}

def Entry.trigger? : Entry → Option Trigger
  | .flushing trigger _ => some trigger
  | _ => none

def triggers (log : List Entry) : List Trigger :=
  log.filterMap Entry.trigger?

@[simp] theorem triggers_append (es es' : List Entry) :
    triggers (es ++ es') = triggers es ++ triggers es' :=
  List.filterMap_append

theorem triggers_ite {p : Prop} [Decidable p] {e : Entry} (h : e.trigger? = none) :
    triggers (if p then [] else [e]) = [] := by
  split
  · rfl
  · simp [triggers, h]

def Follows (log log' : List Entry) : Prop :=
  ∃ es, log' = log ++ es ∧ triggers es = []

theorem Follows.refl (log : List Entry) : Follows log log :=
  ⟨[], (List.append_nil log).symm, rfl⟩

theorem Follows.append {log es : List Entry} (h : triggers es = []) : Follows log (log ++ es) :=
  ⟨es, rfl, h⟩

theorem Follows.trans {a b c : List Entry} (h : Follows a b) (h' : Follows b c) : Follows a c := by
  obtain ⟨es, rfl, hs⟩ := h
  obtain ⟨es', rfl, hs'⟩ := h'
  exact ⟨es ++ es', List.append_assoc .., by simp [hs, hs']⟩

theorem Follows.triggers_eq {log log' : List Entry} (h : Follows log log') :
    triggers log' = triggers log := by
  obtain ⟨es, rfl, hs⟩ := h
  simp [hs]

namespace State

/-! ## What a flush reports and sends -/

section

variable (m : Setup σ)

theorem follows_finish (s : State σ) (trigger : Trigger) (pending : Nat) (failed : List Team) :
    Follows s.log (s.finish m trigger pending failed).log := by
  have h : Follows s.log (s.log ++
      (if failed = [] then [] else [.incomplete trigger failed.length pending])) :=
    .append (triggers_ite rfl)
  cases trigger with
  | capacity => exact h
  | interval => exact h
  | shutdown =>
    refine h.trans (.append ?_)
    rw [triggers_append, triggers_ite rfl]
    rfl

theorem follows_sendNext (s : State σ) (trigger : Trigger) (pending index : Nat)
    (failed : List Team) (cs : List (List Team)) :
    Follows s.log (s.sendNext m trigger pending index failed cs).log := by
  cases cs with
  | nil => exact follows_finish ..
  | cons c cs => exact .refl _

theorem follows_takeAnswer (s : State σ) (w : Writing) :
    Follows s.log (s.takeAnswer m w).log := by
  refine Follows.trans (.append ?_) (follows_sendNext ..)
  cases w.outcome <;> rfl

theorem triggers_discard (chunkSize : Nat) (ts : List Team) :
    triggers (discard chunkSize ts) = [] :=
  triggers_ite rfl

theorem follows_beginFlush (s : State σ) (trigger : Trigger) :
    Follows (s.log ++ [.flushing trigger s.buffer.length]) (s.beginFlush m trigger).log := by
  rw [beginFlush_eq_sendNext]
  refine Follows.trans ⟨_, List.append_cons .., ?_⟩ (follows_sendNext ..)
  split
  · exact triggers_discard ..
  · rfl

end

def unsent (s : State σ) : List Team :=
  match s.phase with
  | .writing w => w.rest.flatten
  | _ => []

variable {m : Setup σ}

/-- A flush that goes on has sent, or will send, all its chunks. -/
theorem calls_sendNext (s : State (Recorded σ)) (trigger : Trigger) (pending index : Nat)
    (failed : List Team) (cs : List (List Team)) :
    ∃ new, (s.sendNext m.recorded trigger pending index failed cs).world.calls =
        s.world.calls ++ new ∧
      new.flatMap Call.batch ++ (s.sendNext m.recorded trigger pending index failed cs).unsent =
        cs.flatten := by
  cases cs with
  | nil =>
    refine ⟨[], ?_, ?_⟩
    · cases trigger <;> exact (List.append_nil _).symm
    · cases trigger <;> rfl
  | cons c cs =>
    refine ⟨[⟨c, (m.repo s.world.world c).2.outcome⟩], rfl, ?_⟩
    simp [sendNext, unsent]

theorem calls_takeAnswer {s : State (Recorded σ)} {w : Writing} (hw : s.phase = .writing w) :
    ∃ new, (s.takeAnswer m.recorded w).world.calls = s.world.calls ++ new ∧
      new.flatMap Call.batch ++ (s.takeAnswer m.recorded w).unsent = s.unsent := by
  have hu : s.unsent = w.rest.flatten := by simp only [unsent, hw]
  rw [hu]
  exact calls_sendNext ..

theorem calls_beginFlush (hm : 0 < m.chunkSize) (s : State (Recorded σ)) (trigger : Trigger) :
    ∃ new, (s.beginFlush m.recorded trigger).world.calls = s.world.calls ++ new ∧
      new.flatMap Call.batch ++ (s.beginFlush m.recorded trigger).unsent = s.buffer := by
  have hf : (chunks m.recorded.chunkSize s.buffer).flatten = s.buffer := flatten_chunks hm _
  have h := calls_sendNext (m := m)
    ({ s with buffer := [] }.report [.flushing trigger s.buffer.length]) trigger s.buffer.length
    0 [] (chunks m.recorded.chunkSize s.buffer)
  rw [← beginFlush_eq m.recorded hm, hf] at h
  exact h

end State

/-! ## The last flush -/

/-- The last flush of a saver, which has come to the state `s`, began in the state `s₀` and made the
given calls so far. -/
structure LastFlush (m : Setup σ) (world : σ) (saved : List Team) (s₀ : State (Recorded σ))
    (final : List Call) (s : State (Recorded σ)) : Prop where
  /-- The owner was free, and had acknowledged all that it ever would. -/
  course : Course m world saved s₀
  waiting : s₀.phase = .waiting
  /-- The saver had not been shut before. -/
  first : .shutdown ∉ triggers s₀.log
  /-- The flush is reported as one for the shutdown, and no other flush after it. -/
  log : Follows (s₀.log ++ [.flushing .shutdown s₀.buffer.length]) s.log
  calls : s.world.calls = s₀.world.calls ++ final
  /-- The flush was given the whole buffer. -/
  given : final.flatMap Call.batch ++ s.unsent = s₀.buffer

/-- Either the saver has not been shut, or its last flush has begun. -/
def State.Orderly (m : Setup σ) (world : σ) (saved : List Team) (s : State (Recorded σ)) : Prop :=
  (s.openness = 1 ∧ .shutdown ∉ triggers s.log) ∨
    (s.openness = 0 ∧ ∃ s₀ final, LastFlush m world saved s₀ final s)

section

variable {m : Setup σ} {world : σ} {saved : List Team} {s s' : State (Recorded σ)}

theorem State.Orderly.fresh (h : s.Orderly m world saved) (hp : s.openness = 1) :
    .shutdown ∉ triggers s.log := by
  obtain ⟨-, h⟩ | ⟨h, -⟩ := h
  · exact h
  · rw [hp] at h
    cases h

/-- A flush that is not the last one leaves the saver open. -/
theorem State.orderly_beginFlush {trigger : Trigger} (ht : trigger ≠ .shutdown)
    (h : .shutdown ∉ triggers s.log) :
    (s.beginFlush m.recorded trigger).Orderly m world saved := by
  refine .inl ⟨by rw [openness_beginFlush, if_neg ht], ?_⟩
  rw [(follows_beginFlush m.recorded s trigger).triggers_eq, triggers_append]
  simp [triggers, Entry.trigger?, ht.symm] at h ⊢
  exact h

/-- The flush for the shutdown is the last one. -/
theorem State.orderly_shut (hm : 0 < m.chunkSize) (hc : Course m world saved s)
    (hp : s.phase = .waiting) (h : .shutdown ∉ triggers s.log) :
    (s.beginFlush m.recorded .shutdown).Orderly m world saved := by
  obtain ⟨new, hcalls, hgiven⟩ := calls_beginFlush (m := m) hm s .shutdown
  exact .inr ⟨by rw [openness_beginFlush, if_pos rfl], s, new, hc, hp, h,
    follows_beginFlush m.recorded s .shutdown, hcalls, hgiven⟩

/-- A flush that goes on neither begins the last one nor undoes it. -/
theorem State.orderly_takeAnswer {w : Writing} (hw : s.phase = .writing w)
    (h : s.Orderly m world saved) : (s.takeAnswer m.recorded w).Orderly m world saved := by
  have ho : (s.takeAnswer m.recorded w).openness = s.openness := by
    rw [openness_takeAnswer]
    simp only [openness, hw]
  have hl := follows_takeAnswer m.recorded s w
  obtain ⟨h, hs⟩ | ⟨h, s₀, final, hf⟩ := h
  · refine .inl ⟨ho.trans h, ?_⟩
    rw [hl.triggers_eq]
    exact hs
  · obtain ⟨new, hcalls, hgiven⟩ := calls_takeAnswer (m := m) hw
    refine .inr ⟨ho.trans h, s₀, final ++ new, hf.course, hf.waiting, hf.first, hf.log.trans hl,
      ?_, ?_⟩
    · rw [hcalls, hf.calls, List.append_assoc]
    · rw [List.flatMap_append, List.append_assoc, hgiven, hf.given]

/-- A change that touches neither the owner's work nor what is known about it. -/
theorem State.Orderly.congr (h : s.Orderly m world saved) (hp : s'.phase = s.phase)
    (hl : Follows s.log s'.log) (hc : s'.world.calls = s.world.calls) :
    s'.Orderly m world saved := by
  have ho : s'.openness = s.openness := by simp only [openness, hp]
  have hu : s'.unsent = s.unsent := by simp only [unsent, hp]
  obtain ⟨h, hs⟩ | ⟨h, s₀, final, hf⟩ := h
  · refine .inl ⟨ho.trans h, ?_⟩
    rw [hl.triggers_eq]
    exact hs
  · exact .inr ⟨ho.trans h, s₀, final, hf.course, hf.waiting, hf.first, hf.log.trans hl,
      hc.trans hf.calls, (congrArg _ hu).trans hf.given⟩

theorem Course.orderly (hm : 0 < m.chunkSize) (h : Course m world saved s) :
    s.Orderly m world saved := by
  induction h with
  | start => exact .inl ⟨rfl, by simp [Saver.start, triggers, Entry.trigger?]⟩
  | @save saved s t _ hp ih =>
    have hs := ih.fresh (State.openness_of_waiting hp)
    rw [State.accept_eq]
    split
    · exact State.orderly_beginFlush (by decide) hs
    · exact .inl ⟨State.openness_of_waiting hp, hs⟩
  | @move saved s s' hc hs ih =>
    cases hs with
    | wake time => exact ih.congr rfl (.refl _) rfl
    | alter f => exact ih.congr rfl (.refl _) rfl
    | handles handles => exact ih.congr rfl (.refl _) rfl
    | abandon hp hh => exact ih.congr rfl (.append rfl) rfl
    | tick hp hd =>
      exact State.orderly_beginFlush (by decide) (ih.fresh (State.openness_of_waiting hp))
    | shut hp => exact State.orderly_shut hm hc hp (ih.fresh (State.openness_of_waiting hp))
    | answer hw he => exact State.orderly_takeAnswer hw ih

end

/-! ## Afterwards -/

def Outcome.tellsClosed : Outcome → Prop
  | .answer a => a = .closed
  | .answers as => .closed ∈ as
  | _ => False

namespace State

section

variable {m : Setup σ} {s : State σ}

theorem settle_of_closed (h : s.phase = .closed) : s.settle m = s :=
  run_of_none m (step?_of_closed m h _)

/-- A close is answered when the saver is closed. -/
theorem phase_submit_close : (s.submit m .close).1.phase = .closed := by
  obtain hp | hp := phase_await m s
  · rw [submit_close_of_waiting m hp]
    refine phase_await_of_shut m ?_
    rw [openness_beginFlush, if_pos rfl]
  · have hshut := openness_of_await_closed m hp
    rw [submit_of_shut m hshut]
    exact hp

/-- A request that is told that the saver is closed finds it so. -/
theorem phase_submit {r : Request} (h : (s.submit m r).2 = .closed) :
    (s.submit m r).1.phase = .closed := by
  cases r with
  | close => exact phase_submit_close
  | save t =>
    obtain hp | hp := phase_await m s
    · rw [submit_save_of_waiting m hp] at h
      cases h
    · have hshut := openness_of_await_closed m hp
      rw [submit_of_shut m hshut] at h
      cases h

theorem submitAll_of_closed (h : s.phase = .closed) (rs : List Request) :
    s.submitAll m rs = (s, rs.map Request.late) := by
  induction rs with
  | nil => rfl
  | cons r rs ih => simp only [submitAll, submit_of_closed m h, ih, List.map_cons]

/-- If one of several requests is told that the saver is closed, it is. -/
theorem phase_submitAll {rs : List Request} (h : .closed ∈ (s.submitAll m rs).2) :
    (s.submitAll m rs).1.phase = .closed := by
  induction rs generalizing s with
  | nil => simp [submitAll] at h
  | cons r rs ih =>
    simp only [submitAll, List.mem_cons] at h ⊢
    obtain h | h := h
    · have hp := phase_submit h.symm
      rw [submitAll_of_closed hp]
      exact hp
    · exact ih h

theorem phase_step_of_tellsClosed {op : Op σ} (h : (s.step m op).2.tellsClosed) :
    (s.step m op).1.phase = .closed := by
  have hc : (s.apply m op).1.phase = .closed := by
    change (s.apply m op).2.tellsClosed at h
    cases op with
    | submit handle r =>
      cases hh : s.holds handle with
      | true =>
        rw [apply_submit_of_holds m hh] at h ⊢
        exact phase_submit h
      | false =>
        rw [apply_submit_of_not_holds m hh] at h
        exact h.elim
    | together handle rs =>
      cases hh : s.holds handle with
      | true =>
        rw [apply_together_of_holds m hh] at h ⊢
        exact phase_submitAll h
      | false =>
        rw [apply_together_of_not_holds m hh] at h
        exact h.elim
    | advance time => exact h.elim
    | alter f => exact h.elim
    | clone handle => exact h.elim
    | drop handle =>
      cases hh : s.holds handle with
      | true =>
        rw [apply_drop_of_holds m hh] at h
        exact h.elim
      | false =>
        rw [apply_drop_of_not_holds m hh] at h
        exact h.elim
  change ((s.apply m op).1.settle m).phase = .closed
  rw [settle_of_closed hc]
  exact hc

theorem advance_of_closed (h : s.phase = .closed) (time : Nat) :
    s.advance m time = { s with clock := s.clock + time } := by
  simp only [advance, run_of_none m (step?_of_closed m h _)]

theorem outcome_submit_of_closed (h : s.phase = .closed) {handle : Nat}
    (hh : s.holds handle = true) (r : Request) :
    (s.step m (.submit handle r)).2 = .answer r.late := by
  simp only [step, apply_submit_of_holds m hh, submit_of_closed m h]

theorem outcome_together_of_closed (h : s.phase = .closed) {handle : Nat}
    (hh : s.holds handle = true) (rs : List Request) :
    (s.step m (.together handle rs)).2 = .answers (rs.map Request.late) := by
  simp only [step, apply_together_of_holds m hh, submitAll_of_closed h]

end

/-- The saver `s'` is closed and has done nothing that `s` had not. -/
structure Rests (s s' : State (Recorded σ)) : Prop where
  phase : s'.phase = .closed
  log : s'.log = s.log
  calls : s'.world.calls = s.world.calls

variable {m : Setup σ} {s : State (Recorded σ)}

theorem rests_apply (h : s.phase = .closed) (op : Op σ) :
    Rests s (s.apply m.recorded op.recorded).1 := by
  cases op with
  | submit handle r =>
    cases hh : s.holds handle with
    | true =>
      rw [Op.recorded, apply_submit_of_holds _ hh, submit_of_closed _ h]
      exact ⟨h, rfl, rfl⟩
    | false =>
      rw [Op.recorded, apply_submit_of_not_holds _ hh]
      exact ⟨h, rfl, rfl⟩
  | together handle rs =>
    cases hh : s.holds handle with
    | true =>
      rw [Op.recorded, apply_together_of_holds _ hh, submitAll_of_closed h]
      exact ⟨h, rfl, rfl⟩
    | false =>
      rw [Op.recorded, apply_together_of_not_holds _ hh]
      exact ⟨h, rfl, rfl⟩
  | advance time =>
    simp only [Op.recorded, apply, advance_of_closed h]
    exact ⟨h, rfl, rfl⟩
  | alter f => exact ⟨h, rfl, rfl⟩
  | clone handle => exact ⟨h, rfl, rfl⟩
  | drop handle =>
    cases hh : s.holds handle with
    | true =>
      rw [Op.recorded, apply_drop_of_holds _ hh]
      exact ⟨h, rfl, rfl⟩
    | false =>
      rw [Op.recorded, apply_drop_of_not_holds _ hh]
      exact ⟨h, rfl, rfl⟩

theorem rests_after (h : s.phase = .closed) (ops : List (Op σ)) :
    Rests s (s.after m.recorded (ops.map Op.recorded)) := by
  induction ops generalizing s with
  | nil => exact ⟨h, rfl, rfl⟩
  | cons op ops ih =>
    have ha := rests_apply (m := m) h op
    have hs : (s.step m.recorded op.recorded).1 = (s.apply m.recorded op.recorded).1 :=
      settle_of_closed ha.phase
    have hr := ih ha.phase
    rw [List.map_cons, after_cons, hs]
    exact ⟨hr.phase, hr.log.trans ha.log, hr.calls.trans ha.calls⟩

end State

/-- Every team that was ever acknowledged was sent: there was one last flush, it was given all teams
that were in the buffer, and those are the teams that the calls before it had not stored. -/
def Finished (m : Setup σ) (world : σ) (saved : List Team) (s : State (Recorded σ)) : Prop :=
  ∃ s₀ final, LastFlush m world saved s₀ final s ∧ final.flatMap Call.batch = s₀.buffer ∧
    Accounted saved s₀.world.calls (final.flatMap Call.batch) ∧
    ∀ t ∈ saved, ∃ c ∈ s.world.calls, t ∈ c.batch

theorem Course.finished {m : Setup σ} (hm : 0 < m.chunkSize) {world : σ} {saved : List Team}
    {s : State (Recorded σ)} (h : Course m world saved s) (hs : s.phase = .closed) :
    Finished m world saved s := by
  have ho : s.openness = 0 := by simp only [State.openness, hs]
  have hu : s.unsent = [] := by simp only [State.unsent, hs]
  obtain ⟨h', -⟩ | ⟨-, s₀, final, hf⟩ := h.orderly hm
  · rw [ho] at h'
    cases h'
  · have hg := hf.given
    rw [hu, List.append_nil] at hg
    have ha := (hf.course.sound hm).buffer hf.waiting
    refine ⟨s₀, final, hf, hg, hg ▸ ha, ?_⟩
    intro t ht
    rw [hf.calls]
    obtain hb | ⟨c, hc, htc⟩ := ha.mem ht
    · rw [← hg] at hb
      obtain ⟨c, hc, htc⟩ := List.mem_flatMap.1 hb
      exact ⟨c, List.mem_append_right _ hc, htc⟩
    · exact ⟨c, List.mem_append_left _ hc, htc⟩

/-- A closed saver has sent every team that it ever acknowledged, the last ones in one flush for the
shutdown, after which there is no other; a holder is told of the close only when that is over. From
then on no operation begins a call or a flush, opens the saver, or gets another answer from it than
that it is closed. -/
theorem closed_for_good (m : Setup σ) (hm : 0 < m.chunkSize) (world : σ) :
    (∀ saved s, Course m world saved s → s.isClosed = true → Finished m world saved s) ∧
    (∀ ops op, (((start m world).after m ops).step m op).2.tellsClosed →
      ((start m world).after m (ops ++ [op])).isClosed = true) ∧
    ∀ ops : List (Op σ), ((start m world).after m ops).isClosed = true →
      Finished m world ((start m world).acknowledged m ops) (recordedRun m world ops) ∧
      ∀ more, let s := (start m world).after m (ops ++ more)
        s.isClosed = true ∧ s.log = ((start m world).after m ops).log ∧
        calls m world (ops ++ more) = calls m world ops ∧
        ∀ handle, s.holds handle = true →
          (∀ r, (s.step m (.submit handle r)).2 = .answer r.late) ∧
          ∀ rs, (s.step m (.together handle rs)).2 = .answers (rs.map Request.late) := by
  refine ⟨?_, ?_, ?_⟩
  · intro saved s h hs
    exact h.finished hm (State.isClosed_iff.1 hs)
  · intro ops op h
    rw [State.after_append]
    exact State.isClosed_iff.2 (State.phase_step_of_tellsClosed h)
  · intro ops hs
    rw [← forget_recordedRun] at hs
    have hp : (recordedRun m world ops).phase = .closed := State.isClosed_iff.1 hs
    refine ⟨(course_recordedRun m world ops).finished hm hp, ?_⟩
    intro more
    have hr : State.Rests (recordedRun m world ops) (recordedRun m world (ops ++ more)) := by
      rw [recordedRun_append]
      exact State.rests_after hp more
    have hc : ((start m world).after m (ops ++ more)).phase = .closed := by
      rw [← forget_recordedRun]
      exact hr.phase
    refine ⟨State.isClosed_iff.2 hc, ?_, hr.calls, ?_⟩
    · rw [← forget_recordedRun, ← forget_recordedRun]
      exact hr.log
    · intro handle hh
      exact ⟨State.outcome_submit_of_closed hc hh, State.outcome_together_of_closed hc hh⟩

/-- Two closes at once, after the refused batch was put back: both are answered after the last
flush, and a save later on is refused. -/
theorem closed_trial :
    let ops := trialOps ++ [.together 0 [.close, .close]]
    0 < trial.chunkSize ∧ ((start trial trialWorld).after trial ops).isClosed = true ∧
    (calls trial trialWorld ops).map Call.stored =
      [[], [⟨2, "b", "", false⟩], [⟨1, "a", "", false⟩]] ∧
    Finished trial trialWorld [⟨1, "a", "", false⟩, ⟨2, "b", "", false⟩]
      (recordedRun trial trialWorld ops) ∧
    (((start trial trialWorld).after trial (ops ++ [.advance 5000])).step trial
      (.submit 0 (.save ⟨3, "c", "", false⟩))).2 = .answer .refused := by
  intro ops
  have hclosed : ((start trial trialWorld).after trial ops).isClosed = true :=
    (closed_for_good trial (by decide) trialWorld).2.1 trialOps (.together 0 [.close, .close])
      (by
        have ho : (((start trial trialWorld).after trial trialOps).step trial
            (.together 0 [.close, .close])).2 = .answers [.closed, .closed] := by cbv
        rw [ho]
        exact List.mem_cons_self ..)
  have hsaved : (start trial trialWorld).acknowledged trial ops =
      [⟨1, "a", "", false⟩, ⟨2, "b", "", false⟩] := by cbv
  have hheld : ((start trial trialWorld).after trial (ops ++ [.advance 5000])).holds 0 = true := by
    cbv
  obtain ⟨hfinished, hlater⟩ := (closed_for_good trial (by decide) trialWorld).2.2 ops hclosed
  obtain ⟨-, -, -, htold⟩ := hlater [.advance 5000]
  rw [hsaved] at hfinished
  exact ⟨by decide, hclosed, by cbv, hfinished, (htold 0 hheld).1 (.save ⟨3, "c", "", false⟩)⟩

end Roster.Saver
