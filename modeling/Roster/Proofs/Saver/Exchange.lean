import Mathlib.Logic.Relation
import Roster.Proofs.Saver.Basic

/-!
Requests that are made at the same time, against the same requests one after another. Whatever the
channel and the owner do, answering what is outstanding one by one always has the same results.
-/

namespace Roster.Saver

variable {σ : Type} {m : Setup σ}

namespace State

variable {s : State σ}

/-! ## A saver that is shut -/

theorem await_await (s : State σ) : (s.await m).await m = s.await m := by
  refine await_of_idle m ?_
  intro w hw
  obtain hp | hp := phase_await m s <;> cases hp.symm.trans hw

theorem isClosed_iff : s.isClosed = true ↔ s.phase = .closed := by
  unfold isClosed
  split <;> simp_all

/-- Unless the last flush is in progress a request waits for the flush, and so it may as well be
made afterwards. -/
theorem submit_await (h : s.openness = 0 → s.phase = .closed) (r : Request) :
    (s.await m).submit m r = s.submit m r := by
  obtain hshut | hopen := openness_eq s
  · rw [await_of_closed m (h hshut)]
  · have hp : (s.await m).phase = .waiting := phase_await_of_open m hopen
    have hp' : ((s.await m).await m).phase = .waiting := by rwa [await_await]
    cases r with
    | save t => rw [submit_save_of_waiting m hp', submit_save_of_waiting m hp, await_await]
    | close => rw [submit_close_of_waiting m hp', submit_close_of_waiting m hp, await_await]

theorem submitAll_of_shut (h : s.openness = 0) (rs : List Request) :
    s.submitAll m rs = (if .close ∈ rs then s.await m else s, rs.map Request.late) := by
  induction rs generalizing s with
  | nil => rfl
  | cons r rs ih =>
    have hawait : (s.await m).openness = 0 := (openness_await m s).trans h
    cases r with
    | save t => simp [submitAll, submit_of_shut m h, ih h]
    | close => simp [submitAll, submit_of_shut m h, ih hawait, await_await]

end State

namespace Exchange

open State

variable {x y : Exchange σ}

/-! ## What is outstanding -/

/-- The requests without an answer, a close that is under way before the others. -/
def outstanding (x : Exchange σ) : List (Request × Nat) :=
  (x.closing.toList ++ x.watching).map (Prod.mk .close) ++
    (x.place.toList ++ x.line ++ x.coming)

variable (m) in
/-- What comes of it if everything outstanding is answered one by one. -/
def forecast (x : Exchange σ) : State σ × List (Answer × Nat) :=
  let (s, answers) := x.saver.submitAll m (x.outstanding.map Prod.fst)
  (s, x.told ++ answers.zip (x.outstanding.map Prod.snd))

theorem forecast_eq (x : Exchange σ) :
    x.forecast m = ((x.saver.submitAll m (x.outstanding.map Prod.fst)).1,
      x.told ++ (x.saver.submitAll m (x.outstanding.map Prod.fst)).2.zip
        (x.outstanding.map Prod.snd)) := rfl

theorem forecast_of_shut (h : x.saver.openness = 0) :
    x.forecast m =
      (if .close ∈ x.outstanding.map Prod.fst then x.saver.await m else x.saver,
        x.told ++ x.outstanding.map fun c => (c.1.late, c.2)) := by
  rw [forecast_eq, submitAll_of_shut h]
  simp [List.zip_map']

structure Sound (x : Exchange σ) : Prop where
  closing : x.closing ≠ none → x.saver.openness = 1 → x.saver.phase = .waiting
  watching : x.watching ≠ [] → x.saver.openness = 0
  place : x.place ≠ none → x.saver.openness = 0 → x.closing ≠ none ∨ x.saver.phase = .closed

theorem sound_exchanging (s : State σ) (rs : List Request) : (s.exchanging rs).Sound :=
  ⟨fun h => (h rfl).elim, fun h => (h rfl).elim, fun h => (h rfl).elim⟩

/-! ## Every move leaves the outcome alone -/

variable (m) in
/-- The same comes of it, if everything outstanding is answered one by one. -/
def Agrees (x y : Exchange σ) : Prop :=
  (y.forecast m).1 = (x.forecast m).1 ∧ (y.forecast m).2.Perm (x.forecast m).2

theorem Agrees.trans {z : Exchange σ} (h : Agrees m x y) (h' : Agrees m y z) : Agrees m x z :=
  ⟨h'.1.trans h.1, h'.2.trans h.2⟩

theorem agrees_of_eq (hsaver : y.saver = x.saver) (hout : y.outstanding = x.outstanding)
    (htold : y.told = x.told) : Agrees m x y := by
  have hsame : y.forecast m = x.forecast m := by
    rw [forecast_eq, forecast_eq, hsaver, hout, htold]
  exact ⟨congrArg Prod.fst hsame, .of_eq (congrArg Prod.snd hsame)⟩

/-- Once the channel is shut it does not matter who comes first. -/
theorem agrees_of_perm (hshut : x.saver.openness = 0) (hsaver : y.saver = x.saver)
    (hout : x.outstanding.Perm y.outstanding) (htold : y.told = x.told) : Agrees m x y := by
  have hshut' : y.saver.openness = 0 := hsaver ▸ hshut
  rw [Agrees, forecast_of_shut hshut, forecast_of_shut hshut', hsaver, htold]
  refine ⟨?_, ?_⟩
  · simp only [(hout.map Prod.fst).mem_iff]
  · exact .append_left _ (hout.symm.map _)

/-- Once the channel is shut every save is refused, and once the saver is closed every close may be
answered. -/
theorem agrees_of_tell (hshut : x.saver.openness = 0) (hsaver : y.saver = x.saver)
    {c : Request × Nat} (hout : x.outstanding.Perm (c :: y.outstanding))
    (htold : y.told = x.told ++ [(c.1.late, c.2)])
    (hclose : c.1 = .close → x.saver.phase = .closed) : Agrees m x y := by
  have hshut' : y.saver.openness = 0 := hsaver ▸ hshut
  rw [Agrees, forecast_of_shut hshut, forecast_of_shut hshut', hsaver, htold]
  refine ⟨?_, ?_⟩
  · by_cases hc : c.1 = .close
    · simp [await_of_closed m (hclose hc)]
    · simp only [(hout.map Prod.fst).mem_iff, List.map_cons, List.mem_cons, Ne.symm hc, false_or]
  · rw [List.append_assoc]
    exact .append_left _ (hout.map fun c : Request × Nat => (c.1.late, c.2)).symm

theorem agrees_turnAway (z : Exchange σ) (hshut : x.saver.openness = 0) (hsaver : z.saver = x.saver)
    {c : Request × Nat} (hout : x.outstanding.Perm (c :: z.outstanding)) (htold : z.told = x.told) :
    Agrees m x (z.turnAway c) := by
  obtain ⟨_ | _, n⟩ := c
  · refine agrees_of_tell hshut hsaver hout ?_ (fun h => nomatch h)
    rw [← htold]
    rfl
  · refine agrees_of_perm hshut hsaver (hout.trans ?_) htold
    rw [List.perm_iff_count]
    intro a
    simp only [outstanding, turnAway, List.map_append, List.map_cons, List.map_nil,
      List.count_append, List.count_cons, List.count_nil]
    omega

theorem agrees_enter {c : Request × Nat} {cs : List (Request × Nat)} (h : x.coming = c :: cs) :
    Agrees m x ({ x with coming := cs }.enter c) := by
  have hout : x.outstanding.Perm (c :: ({ x with coming := cs } : Exchange σ).outstanding) := by
    rw [List.perm_iff_count]
    intro a
    simp only [outstanding, h, List.count_append, List.count_cons]
    omega
  unfold enter
  split
  · rename_i hclosed
    have hp : x.saver.phase = .closed := isClosed_iff.1 hclosed.2
    have hshut := openness_of_closed hp
    refine agrees_of_tell hshut rfl hout ?_ fun _ => hp
    rw [hclosed.1]
    rfl
  · split
    · exact agrees_turnAway (x := x) { x with coming := cs } ‹_› rfl hout rfl
    · split
      · rename_i hfree
        refine agrees_of_eq rfl ?_ rfl
        have hfree : x.place = none ∧ x.line = [] := hfree
        simp [outstanding, h, hfree]
      · refine agrees_of_eq rfl ?_ rfl
        simp [outstanding, h]

theorem agrees_take (hx : x.Sound) {c : Request × Nat} (hp : x.saver.phase = .waiting)
    (hclosing : x.closing = none) (hplace : x.place = some c) : Agrees m x (x.take m c) := by
  have hwatching : x.watching = [] := by
    cases hw : x.watching with
    | nil => rfl
    | cons n ns =>
      cases (openness_of_waiting hp).symm.trans (hx.watching (by simp [hw]))
  obtain ⟨t | _, n⟩ := c
  · have hawait : (x.saver.await m).phase = .waiting := by rwa [await_of_waiting m hp]
    have hsubmit := submit_save_of_waiting m hawait t
    rw [await_of_waiting m hp] at hsubmit
    simp [Agrees, forecast_eq, outstanding, take, tell, hclosing, hplace, hwatching, submitAll,
      hsubmit]
  · refine agrees_of_eq rfl ?_ rfl
    simp [outstanding, take, hclosing, hplace, hwatching]

theorem agrees_shut {n : Nat} (hp : x.saver.phase = .waiting) (hclosing : x.closing = some n) :
    Agrees m x { x with saver := x.saver.beginFlush m .shutdown } := by
  have hawait : (x.saver.await m).phase = .waiting := by rwa [await_of_waiting m hp]
  have hshut : (x.saver.beginFlush m .shutdown).openness = 0 := openness_beginFlush ..
  have hsubmit := submit_close_of_waiting m hawait
  rw [await_of_waiting m hp] at hsubmit
  simp [Agrees, forecast_eq, outstanding, hclosing, submitAll, hsubmit, submit_of_shut m hshut,
    Request.late]

theorem Move.agrees (h : Move m x y) (hx : x.Sound) : Agrees m x y := by
  cases h with
  | enter hcoming => exact agrees_enter hcoming
  | moveUp _ hplace hline =>
    refine agrees_of_eq rfl ?_ rfl
    simp [outstanding, hplace, hline]
  | @leave _ before later hshut hline =>
    refine agrees_turnAway { x with line := before ++ later } hshut rfl ?_ rfl
    rw [List.perm_iff_count]
    intro a
    simp only [outstanding, hline, List.count_append, List.count_cons]
    omega
  | take hp hclosing hplace => exact agrees_take hx hp hclosing hplace
  | shut hp hclosing => exact agrees_shut hp hclosing
  | @release n hp hclosing =>
    have hshut := openness_of_closed hp
    refine agrees_of_tell (c := (.close, n)) hshut rfl ?_ rfl fun _ => hp
    simp [outstanding, tell, hclosing]
  | give hp _ hplace =>
    have hshut := openness_of_closed hp
    refine agrees_turnAway { x with place := none } hshut rfl ?_ rfl
    rw [List.perm_iff_count]
    intro a
    simp only [outstanding, hplace, Option.toList_some, Option.toList_none, List.count_append,
      List.count_cons, List.count_nil]
    omega
  | @observe n _ _ hp hwatching =>
    have hshut := openness_of_closed hp
    refine agrees_of_tell (c := (.close, n)) hshut rfl ?_ rfl fun _ => hp
    rw [List.perm_iff_count]
    intro a
    simp only [outstanding, tell, hwatching, List.map_append, List.map_cons, List.count_append,
      List.count_cons]
    omega

/-! ## Soundness -/

theorem sound_turnAway {z : Exchange σ} (hz : z.Sound) (hshut : z.saver.openness = 0)
    (c : Request × Nat) : (z.turnAway c).Sound := by
  obtain ⟨_ | _, n⟩ := c
  · exact ⟨hz.closing, hz.watching, hz.place⟩
  · exact ⟨hz.closing, fun _ => hshut, hz.place⟩

theorem sound_enter {z : Exchange σ} (hz : z.Sound) (c : Request × Nat) : (z.enter c).Sound := by
  unfold enter
  split
  · exact ⟨hz.closing, hz.watching, hz.place⟩
  · split
    · exact sound_turnAway hz ‹_› c
    · rename_i hopen
      split
      · exact ⟨hz.closing, hz.watching, fun _ hshut => absurd hshut hopen⟩
      · exact ⟨hz.closing, hz.watching, hz.place⟩

theorem Move.sound (h : Move m x y) (hx : x.Sound) : y.Sound := by
  cases h with
  | @enter c cs _ =>
    exact sound_enter (z := { x with coming := cs }) ⟨hx.closing, hx.watching, hx.place⟩ c
  | moveUp hopen _ _ => exact ⟨hx.closing, hx.watching, fun _ hshut => absurd hshut hopen⟩
  | @leave c before later hshut _ =>
    have hx' : ({ x with line := before ++ later } : Exchange σ).Sound :=
      ⟨hx.closing, hx.watching, hx.place⟩
    exact sound_turnAway hx' hshut c
  | @take c hp hclosing hplace =>
    have hopen := openness_of_waiting hp
    have hwatching : x.watching ≠ [] → x.saver.openness = 0 := hx.watching
    obtain ⟨t | _, n⟩ := c
    · refine ⟨fun h => absurd hclosing h, fun h => ?_, fun h => absurd rfl h⟩
      cases hopen.symm.trans (hwatching h)
    · exact ⟨fun _ _ => hp, hwatching, fun h => absurd rfl h⟩
  | shut hp hclosing =>
    have hshut : (x.saver.beginFlush m .shutdown).openness = 0 := openness_beginFlush ..
    refine ⟨fun _ hopen => ?_, fun _ => hshut, fun _ _ => .inl (by simp [hclosing])⟩
    cases hopen.symm.trans hshut
  | release hp _ => exact ⟨fun h => absurd rfl h, hx.watching, fun _ _ => .inr hp⟩
  | give hp hclosing _ =>
    have hshut := openness_of_closed hp
    refine sound_turnAway (z := { x with place := none }) ?_ hshut _
    exact ⟨hx.closing, hx.watching, fun h => absurd rfl h⟩
  | observe hp _ =>
    have hshut := openness_of_closed hp
    exact ⟨hx.closing, fun _ => hshut, hx.place⟩

theorem sound_answer (hx : x.Sound) {w : Writing} (hw : x.saver.phase = .writing w) :
    ({ x with saver := (x.saver.wake w.ends).takeAnswer m w } : Exchange σ).Sound := by
  have hopen : ((x.saver.wake w.ends).takeAnswer m w).openness = x.saver.openness := by
    rw [openness_takeAnswer]
    simp only [openness, hw]
  refine ⟨fun h ho => ?_, fun h => hopen.trans (hx.watching h), fun h ho => ?_⟩
  · cases hw.symm.trans (hx.closing h (hopen.symm.trans ho))
  · obtain hclosing | hp := hx.place h (hopen.symm.trans ho)
    · exact .inl hclosing
    · cases hw.symm.trans hp

/-! ## Answers to calls -/

theorem await_answer {s : State σ} {w : Writing} (hw : s.phase = .writing w) :
    ((s.wake w.ends).takeAnswer m w).await m = s.await m :=
  (await_of_writing m hw).symm

/-- If the owner is waited for in the end, it does not matter how far it has come already. -/
theorem submitAll_congr {s s' : State σ} (h : s'.await m = s.await m) (rs : List Request) :
    (s'.submitAll m rs).2 = (s.submitAll m rs).2 ∧
      (s'.submitAll m rs).1.await m = (s.submitAll m rs).1.await m ∧
      (s.openness = 1 ∧ rs ≠ [] ∨ .close ∈ rs →
        (s'.submitAll m rs).1 = (s.submitAll m rs).1) := by
  have hopenness : s'.openness = s.openness := by
    rw [← openness_await m s', h, openness_await]
  obtain hshut | hopen := openness_eq s
  · rw [submitAll_of_shut hshut, submitAll_of_shut (hopenness.trans hshut), h]
    refine ⟨rfl, ?_, ?_⟩
    · dsimp only
      split
      · rfl
      · exact h
    · rintro (⟨hopen, -⟩ | hclose)
      · cases hopen.symm.trans hshut
      · simp only [hclose, if_true]
  · have hidle {u : State σ} (hu : u.openness = 1) (hshut : u.openness = 0) : u.phase = .closed :=
      absurd (hu.symm.trans hshut) (by decide)
    cases rs with
    | nil => exact ⟨rfl, h, fun hneed => by simp at hneed⟩
    | cons r rs =>
      have hsubmit : s'.submit m r = s.submit m r := by
        rw [← submit_await (m := m) (hidle (hopenness.trans hopen)), h, submit_await (hidle hopen)]
      simp only [submitAll, hsubmit, implies_true, and_self]

theorem close_mem_outstanding (h : x.closing ≠ none ∨ x.watching ≠ []) :
    .close ∈ x.outstanding.map Prod.fst := by
  obtain hclosing | hwatching := h
  · cases hc : x.closing with
    | none => exact absurd hc hclosing
    | some n => simp [outstanding, hc]
  · cases hw : x.watching with
    | nil => exact absurd hw hwatching
    | cons n ns => simp [outstanding, hw]

/-- If somebody waits for the owner, taking an answer leaves the outcome alone. -/
theorem agrees_answer {w : Writing} (hw : x.saver.phase = .writing w) (hx : x.Sound)
    (hawaited : x.Awaited) :
    Agrees m x { x with saver := (x.saver.wake w.ends).takeAnswer m w } := by
  obtain ⟨hanswers, -, hstate⟩ :=
    submitAll_congr (m := m) (await_answer hw) (x.outstanding.map Prod.fst)
  have hneed : x.saver.openness = 1 ∧ x.outstanding.map Prod.fst ≠ [] ∨
      .close ∈ x.outstanding.map Prod.fst := by
    obtain hclosing | hplace | hwatching := hawaited
    · exact .inr (close_mem_outstanding (.inl hclosing))
    · obtain hshut | hopen := openness_eq x.saver
      · -- who is still in the channel then has come after a close
        obtain hclosing | hp := hx.place hplace hshut
        · exact .inr (close_mem_outstanding (.inl hclosing))
        · cases hw.symm.trans hp
      · refine .inl ⟨hopen, ?_⟩
        cases hc : x.place with
        | none => exact absurd hc hplace
        | some c => simp [outstanding, hc]
    · exact .inr (close_mem_outstanding (.inr hwatching))
  refine ⟨hstate hneed, ?_⟩
  rw [forecast_eq, forecast_eq]
  exact .of_eq (congrArg (fun as => x.told ++ as.zip (x.outstanding.map Prod.snd)) hanswers)

/-! ## When nothing is left to be done -/

theorem not_awaited_of_serve? (hx : x.Sound) (h : x.serve? m = none) : ¬x.Awaited := by
  intro hawaited
  unfold serve? at h
  split at h
  · rename_i hp
    have hopen : x.saver.openness ≠ 0 := by simp [openness, hp]
    split at h
    · cases h
    · cases h
    · rename_i hclosing hplace
      obtain hne | hne | hne := hawaited
      · exact hne hclosing
      · exact hne hplace
      · exact hopen (hx.watching hne)
  · rw [if_pos hawaited] at h
    cases h
  · split at h
    · cases h
    · cases h
    · cases h
    · rename_i hclosing hplace hwatching
      obtain hne | hne | hne := hawaited
      · exact hne hclosing
      · exact hne hplace
      · exact hne hwatching

theorem isOver_of_next? (hx : x.Sound) (h : x.next? m = none) : x.IsOver := by
  unfold next? at h
  split at h
  · cases h
  · split at h
    · cases h
    · split at h
      · cases h
      · rename_i hplace
        exact absurd (.inr (.inl hplace)) (not_awaited_of_serve? hx h)
  · rename_i hcoming hline
    have hnobody := not_awaited_of_serve? hx h
    simp only [Awaited, not_or, ne_eq, Decidable.not_not] at hnobody
    exact ⟨hcoming, hline, hnobody.2.1, hnobody.1, hnobody.2.2⟩

theorem IsOver.forecast (h : x.IsOver) : x.forecast m = (x.saver, x.told) := by
  simp [forecast_eq, outstanding, h.coming, h.line, h.place, h.closing, h.watching, submitAll]

/-! ## Everybody acts as soon as possible -/

theorem next?_spec (hx : x.Sound) (h : x.next? m = some y) : y.Sound ∧ Agrees m x y := by
  obtain hmove | ⟨hawaited, w, hw, rfl⟩ := next?_cases h
  · exact ⟨hmove.sound hx, hmove.agrees hx⟩
  · exact ⟨sound_answer hx hw, agrees_answer hw hx hawaited⟩

theorem run_of_none (h : x.next? m = none) : x.run m = x := by
  rw [run.eq_def]
  split
  · rfl
  · rename_i h'
    cases h.symm.trans h'

theorem run_of_some (h : x.next? m = some y) : x.run m = y.run m := by
  rw [run.eq_def]
  split
  · rename_i h'
    cases h.symm.trans h'
  · rename_i h'
    cases h.symm.trans h'
    rfl

theorem run_spec (hx : x.Sound) : (x.run m).IsOver ∧ Agrees m x (x.run m) := by
  induction x using run.induct m with
  | case1 x h =>
    rw [run_of_none h]
    exact ⟨isOver_of_next? hx h, rfl, .rfl⟩
  | case2 x y h ih =>
    obtain ⟨hy, hagrees⟩ := next?_spec hx h
    rw [run_of_some h]
    exact ⟨(ih hy).1, hagrees.trans (ih hy).2⟩

/-! ## The answers in their order -/

theorem zip_numbers {rs : List Request} {as : List Answer} (h : as.length = rs.length) :
    as.zip (rs.zipIdx.map Prod.snd) = as.zipIdx := by
  rw [List.zipIdx_map_snd, List.zipIdx_eq_zip_range', h]

theorem answers_of_perm {as : List Answer} (h : x.told.Perm as.zipIdx) : x.answers = as := by
  let le : Answer × Nat → Answer × Nat → Prop := fun a b => a.2 ≤ b.2
  have hsorted : (x.told.mergeSort fun a b => a.2 ≤ b.2) = as.zipIdx := by
    refine @List.Perm.eq_of_pairwise _ le _ _ ?_ ?_ ?_ ((List.mergeSort_perm ..).trans h)
    · -- each number has been answered once
      intro a b ha hb hab hba
      have hnumber : a.2 = b.2 := Nat.le_antisymm hab hba
      have ha :=
        List.mem_zipIdx_iff_getElem?.1 (h.mem_iff.1 ((List.mergeSort_perm ..).mem_iff.1 ha))
      have hb := List.mem_zipIdx_iff_getElem?.1 hb
      rw [hnumber, hb] at ha
      exact Prod.ext (Option.some.inj ha).symm hnumber
    · have hpairs := @List.pairwise_mergeSort _ (fun a b : Answer × Nat => a.2 ≤ b.2)
        (by simp; omega) (by simp; omega) x.told
      simpa using hpairs
    · refine List.Pairwise.of_map (S := (· ≤ ·)) Prod.snd (fun _ _ h => h) ?_
      rw [List.zipIdx_map_snd]
      exact List.pairwise_le_range' 1
  rw [answers, hsorted, List.zipIdx_map_fst]

end Exchange

namespace State

variable {s : State σ}

theorem length_submitAll (s : State σ) (rs : List Request) :
    (s.submitAll m rs).2.length = rs.length := by
  induction rs generalizing s with
  | nil => rfl
  | cons r rs ih => exact congrArg (· + 1) (ih _)

theorem forecast_exchanging (s : State σ) (rs : List Request) :
    (s.exchanging rs).forecast m =
      ((s.submitAll m rs).1, (s.submitAll m rs).2.zipIdx) := by
  have hout : (s.exchanging rs).outstanding = rs.zipIdx := rfl
  rw [Exchange.forecast_eq, hout, List.zipIdx_map_fst]
  exact congrArg _ (Exchange.zip_numbers (length_submitAll s rs))

/-- If everybody acts as soon as possible, requests that are made at the same time come to the
owner one after another. -/
theorem exchange_eq_submitAll (s : State σ) (rs : List Request) :
    s.exchange m rs = s.submitAll m rs := by
  obtain ⟨hover, hstate, htold⟩ :=
    Exchange.run_spec (m := m) (Exchange.sound_exchanging s rs)
  rw [hover.forecast, forecast_exchanging] at hstate htold
  exact Prod.ext hstate (Exchange.answers_of_perm htold)

/-- A request that nobody else competes with goes through the channel like any other. -/
theorem exchange_singleton (s : State σ) (r : Request) :
    s.exchange m [r] = ((s.submit m r).1, [(s.submit m r).2]) := by
  rw [exchange_eq_submitAll]
  rfl

variable (m) in
theorem apply_together_of_holds {handle : Nat} (h : s.holds handle = true)
    (requests : List Request) :
    s.apply m (.together handle requests) =
      ((s.submitAll m requests).1, .answers (s.submitAll m requests).2) := by
  simp only [apply, h, if_true, exchange_eq_submitAll]

end State

end Roster.Saver
