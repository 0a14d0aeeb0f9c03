import Roster.Proofs.Saver.Course
import Mathlib

/-!
Where acknowledged teams are. A ledger lists them in the order in which they were acknowledged,
each with the number of the one call that stored it or with nothing while it waits. At every point
of every run such a ledger balances: the teams that wait are those in the buffer and in the hands
of a flush, in order, and the teams of a call are its batch if it succeeded and none if it failed.
-/

namespace Roster.Saver

variable {σ : Type}

/-- Acknowledged teams in order, each with the number of the call that stored it, if one has. -/
abbrev Ledger : Type :=
  List (Team × Option Nat)

def Ledger.met (l : Ledger) (fate : Option Nat) : List Team :=
  (l.filter fun x => x.2 = fate).map Prod.fst

/-- The teams that the call of the given number has stored; none if there is no such call. -/
def storedBy (calls : List Call) (j : Nat) : List Team :=
  (calls.map Call.stored).getD j []

theorem storedBy_length (calls : List Call) : storedBy calls calls.length = [] := by
  simp [storedBy]

theorem storedBy_concat (calls : List Call) (c : Call) (j : Nat) :
    storedBy (calls ++ [c]) j = if j = calls.length then c.stored else storedBy calls j := by
  unfold storedBy
  by_cases hj : j = calls.length
  · simp [hj]
  · rw [if_neg hj, List.map_append, List.getD_eq_getElem?_getD, List.getD_eq_getElem?_getD]
    by_cases hlt : j < calls.length
    · rw [List.getElem?_append_left (by simpa using hlt)]
    · have hold : (calls.map Call.stored).length ≤ j := by
        rw [List.length_map]
        omega
      have hnew : (calls.map Call.stored ++ [c].map Call.stored).length ≤ j := by
        rw [List.length_append, List.length_map, List.length_map, List.length_singleton]
        omega
      rw [List.getElem?_eq_none hold, List.getElem?_eq_none hnew]

theorem mem_of_mem_storedBy {calls : List Call} {j : Nat} {t : Team} (h : t ∈ storedBy calls j) :
    ∃ c ∈ calls, t ∈ c.batch := by
  rw [storedBy, List.getD_eq_getElem?_getD, List.getElem?_map] at h
  cases hc : calls[j]? with
  | none => simp [hc] at h
  | some c =>
    rw [hc] at h
    exact ⟨c, List.mem_of_getElem? hc, Call.mem_batch h⟩

/-- The ledger lists the acknowledged teams; those that no call has stored are the ones that wait,
and those that a call has stored are its batch. -/
structure Ledger.Balances (l : Ledger) (saved : List Team) (calls : List Call)
    (waiting : List Team) : Prop where
  saved : l.map Prod.fst = saved
  waiting : l.met none = waiting
  stored : ∀ j, l.met (some j) = storedBy calls j

/-- Every acknowledged team is stored by exactly one successful call or waits, and not both. -/
def Accounted (saved : List Team) (calls : List Call) (waiting : List Team) : Prop :=
  ∃ l : Ledger, l.Balances saved calls waiting

namespace Ledger

theorem met_append (l l' : Ledger) (fate : Option Nat) :
    met (l ++ l') fate = met l fate ++ met l' fate := by
  simp [met]

theorem exists_of_met_eq_append {l : Ledger} {fate : Option Nat} {a b : List Team}
    (h : l.met fate = a ++ b) : ∃ l₁ l₂, l = l₁ ++ l₂ ∧ met l₁ fate = a ∧ met l₂ fate = b := by
  obtain ⟨f₁, f₂, hf, rfl, rfl⟩ := List.map_eq_append_iff.1 h
  obtain ⟨l₁, l₂, rfl, rfl, rfl⟩ := List.filter_eq_append_iff.1 hf
  exact ⟨l₁, l₂, rfl, rfl, rfl⟩

/-- The ledger after a call of the given number has stored every team that waits. -/
def settle (l : Ledger) (j : Nat) : Ledger :=
  l.map fun x => (x.1, x.2.or (some j))

theorem map_fst_settle (l : Ledger) (j : Nat) : (l.settle j).map Prod.fst = l.map Prod.fst := by
  simp [settle, Function.comp_def]

theorem met_none_settle (l : Ledger) (j : Nat) : (l.settle j).met none = [] := by
  simp only [met, settle, List.map_eq_nil_iff, List.filter_eq_nil_iff, List.mem_map]
  rintro _ ⟨⟨t, fate⟩, -, rfl⟩
  cases fate <;> simp

theorem met_some_settle (l : Ledger) {i j : Nat} (h : l.met (some j) = []) :
    (l.settle j).met (some i) = if i = j then l.met none else l.met (some i) := by
  induction l with
  | nil => simp [settle, met]
  | cons x l ih =>
    obtain ⟨t, fate⟩ := x
    cases fate with
    | none =>
      have hl : met l (some j) = [] := by simpa [met] using h
      by_cases hi : i = j
      · subst hi
        simpa [settle, met] using ih hl
      · simpa [settle, met, hi, Ne.symm hi] using ih hl
    | some k =>
      have hk : k ≠ j := by
        rintro rfl
        simp [met] at h
      have hl : met l (some j) = [] := by simpa [met, hk] using h
      by_cases hi : i = j
      · subst hi
        simpa [settle, met, hk] using ih hl
      · by_cases hki : k = i
        · subst hki
          simpa [settle, met, hi] using ih hl
        · simpa [settle, met, hi, hki] using ih hl

end Ledger

namespace Accounted

variable {saved : List Team} {calls : List Call} {waiting : List Team}

theorem nil : Accounted [] [] [] :=
  ⟨[], rfl, rfl, fun _ => rfl⟩

/-- A team that is acknowledged waits behind all others. -/
theorem save (h : Accounted saved calls waiting) (t : Team) :
    Accounted (saved ++ [t]) calls (waiting ++ [t]) := by
  obtain ⟨l, hs, hw, hc⟩ := h
  refine ⟨l ++ [(t, none)], ?_, ?_, ?_⟩
  · simp [hs]
  · rw [Ledger.met_append, hw]
    simp [Ledger.met]
  · intro j
    rw [Ledger.met_append, hc]
    simp [Ledger.met]

/-- A call takes from the teams that wait exactly those that it stores. -/
theorem call {a b : List Team} {c : Call} (h : Accounted saved calls (a ++ c.stored ++ b)) :
    Accounted saved (calls ++ [c]) (a ++ b) := by
  obtain ⟨l, hs, hw, hc⟩ := h
  obtain ⟨l', l₃, rfl, hl', h₃⟩ := Ledger.exists_of_met_eq_append hw
  obtain ⟨l₁, l₂, rfl, h₁, h₂⟩ := Ledger.exists_of_met_eq_append hl'
  simp only [Ledger.met_append] at hc
  have hnew := hc calls.length
  rw [storedBy_length, List.append_eq_nil_iff, List.append_eq_nil_iff] at hnew
  refine ⟨l₁ ++ l₂.settle calls.length ++ l₃, ?_, ?_, ?_⟩
  · simpa [Ledger.map_fst_settle] using hs
  · simp [Ledger.met_append, Ledger.met_none_settle, h₁, h₃]
  · intro j
    rw [Ledger.met_append, Ledger.met_append, Ledger.met_some_settle l₂ hnew.1.2, h₂,
      storedBy_concat]
    by_cases hj : j = calls.length
    · simp [hj, hnew.1.1, hnew.2]
    · rw [if_neg hj, if_neg hj, hc]

/-- A chunk that waits is stored by a call that succeeds and kept by one that fails. -/
theorem send {a b chunk : List Team} (h : Accounted saved calls (a ++ chunk ++ b))
    (outcome : Except StoreError (List UInt64)) :
    Accounted saved (calls ++ [⟨chunk, outcome⟩]) (a ++ kept chunk outcome ++ b) := by
  cases outcome with
  | ok ids =>
    have hs : Accounted saved calls (a ++ (⟨chunk, .ok ids⟩ : Call).stored ++ b) := h
    simpa [kept] using hs.call
  | error e =>
    have hs : Accounted saved calls
        (a ++ chunk ++ b ++ (⟨chunk, .error e⟩ : Call).stored ++ []) := by
      simpa [Call.stored] using h
    simpa [kept] using hs.call

/-- A team that is accounted for has been stored by a call or waits. -/
theorem mem (h : Accounted saved calls waiting) {t : Team} (ht : t ∈ saved) :
    t ∈ waiting ∨ ∃ c ∈ calls, t ∈ c.batch := by
  obtain ⟨l, rfl, rfl, hc⟩ := h
  obtain ⟨⟨t, fate⟩, hx, rfl⟩ := List.mem_map.1 ht
  have hm : t ∈ l.met fate := List.mem_map.2 ⟨(t, fate), by simpa using hx, rfl⟩
  cases fate with
  | none => exact .inl hm
  | some j =>
    rw [hc] at hm
    exact .inr (mem_of_mem_storedBy hm)

end Accounted

/-! ## What a saver holds -/

namespace State

def isFlushing (s : State σ) : Bool :=
  match s.phase with
  | .writing _ => true
  | _ => false

/-- The teams in the hands of a flush that it has not stored, and those in the buffer. -/
def held (s : State σ) : List Team :=
  match s.phase with
  | .writing w => w.failed ++ kept w.chunk w.outcome ++ w.rest.flatten ++ s.buffer
  | _ => s.buffer

/-- Between flushes a saver holds its buffer. -/
theorem held_eq_buffer {s : State σ} (h : s.isFlushing = false) : s.held = s.buffer := by
  unfold isFlushing at h
  unfold held
  split at h
  · cases h
  · rfl

def Sound (saved : List Team) (s : State (Recorded σ)) : Prop :=
  Accounted saved s.world.calls s.held

variable {m : Setup σ} {saved : List Team} {s : State (Recorded σ)}

theorem Sound.buffer (h : Sound saved s) (hp : s.phase = .waiting) :
    Accounted saved s.world.calls s.buffer := by
  simpa only [Sound, held, hp] using h

theorem sound_finish {failed : List Team} (trigger : Trigger) (pending : Nat)
    (h : Accounted saved s.world.calls (failed ++ s.buffer)) :
    Sound saved (s.finish m.recorded trigger pending failed) := by
  cases trigger <;> exact h

theorem sound_sendNext {failed : List Team} {cs : List (List Team)} (trigger : Trigger)
    (pending index : Nat)
    (h : Accounted saved s.world.calls (failed ++ cs.flatten ++ s.buffer)) :
    Sound saved (s.sendNext m.recorded trigger pending index failed cs) := by
  cases cs with
  | nil => exact sound_finish _ _ (by simpa using h)
  | cons chunk rest =>
    have hs : Accounted saved s.world.calls (failed ++ chunk ++ (rest.flatten ++ s.buffer)) := by
      simpa using h
    have hc := hs.send (m.repo s.world.world chunk).2.outcome
    rw [← List.append_assoc] at hc
    exact hc

theorem sound_beginFlush (hm : 0 < m.chunkSize) (trigger : Trigger)
    (h : Accounted saved s.world.calls s.buffer) :
    Sound saved (s.beginFlush m.recorded trigger) := by
  rw [beginFlush_eq m.recorded hm]
  refine sound_sendNext _ _ _ ?_
  have hf : (chunks m.recorded.chunkSize s.buffer).flatten = s.buffer := flatten_chunks hm _
  simpa [report, hf] using h

theorem sound_takeAnswer {w : Writing} (hw : s.phase = .writing w) (h : Sound saved s) :
    Sound saved (s.takeAnswer m.recorded w) := by
  simp only [Sound, held, hw] at h
  exact sound_sendNext _ _ _ h

theorem sound_accept (hm : 0 < m.chunkSize) (t : Team)
    (h : Accounted saved s.world.calls s.buffer) (hp : s.phase = .waiting) :
    Sound (saved ++ [t]) (s.accept m.recorded t) := by
  rw [accept_eq]
  split
  · exact sound_beginFlush hm _ (h.save t)
  · simpa only [Sound, held, hp] using h.save t

end State

/-- A move keeps all acknowledged teams accounted for. -/
theorem Move.sound {m : Setup σ} (hm : 0 < m.chunkSize) {saved : List Team}
    {s s' : State (Recorded σ)} (hs : Move m s s') (h : s.Sound saved) : s'.Sound saved := by
  cases hs with
  | wake time => exact h
  | alter f => exact h
  | handles handles => exact h
  | abandon hp hh => exact h
  | tick hp hd => exact State.sound_beginFlush hm .interval (h.buffer hp)
  | shut hp => exact State.sound_beginFlush hm .shutdown (h.buffer hp)
  | answer hw he => exact State.sound_takeAnswer hw h

/-- At every point of every course all acknowledged teams are accounted for. -/
theorem Course.sound {m : Setup σ} (hm : 0 < m.chunkSize) {world : σ} {saved : List Team}
    {s : State (Recorded σ)} (h : Course m world saved s) : s.Sound saved := by
  induction h with
  | start => exact Accounted.nil
  | save t _ hp ih => exact State.sound_accept hm t (ih.buffer hp) hp
  | move _ hs ih => exact hs.sound hm ih

/-- While no flush is in progress, every team that a saver has acknowledged was stored by exactly
one successful call or is in the buffer, which lists its teams in the order in which they were
acknowledged. No other team was stored or is in the buffer. This holds at every point of every
course, and so after all operations, whatever the repo answers. -/
theorem accounted_between_flushes (m : Setup σ) (hm : 0 < m.chunkSize) (world : σ) :
    (∀ saved s, Course m world saved s → s.isFlushing = false →
      Accounted saved s.world.calls s.buffer) ∧
    ∀ ops : List (Op σ), ((start m world).after m ops).isFlushing = false →
      Accounted ((start m world).acknowledged m ops) (calls m world ops)
        ((start m world).after m ops).buffer := by
  have hpoint : ∀ saved s, Course m world saved s → s.isFlushing = false →
      Accounted saved s.world.calls s.buffer := by
    intro saved s h hs
    rw [← State.held_eq_buffer hs]
    exact h.sound hm
  refine ⟨hpoint, ?_⟩
  intro ops hs
  rw [← forget_recordedRun] at hs ⊢
  exact hpoint _ _ (course_recordedRun m world ops) hs

def trial : Setup Rehearsal :=
  ⟨2, 1000, 1, Rehearsal.repo, by decide, by decide⟩

def trialWorld : Rehearsal :=
  { script := { failCalls := [0] } }

def trialOps : List (Op Rehearsal) :=
  [.submit 0 (.save ⟨1, "a", "", false⟩), .submit 0 (.save ⟨2, "b", "", false⟩)]

/-- The team of the refused batch is back in the buffer, the other one is stored. -/
theorem accounted_trial :
    0 < trial.chunkSize ∧ ((start trial trialWorld).after trial trialOps).isFlushing = false ∧
    (calls trial trialWorld trialOps).map Call.stored = [[], [⟨2, "b", "", false⟩]] ∧
    Accounted [⟨1, "a", "", false⟩, ⟨2, "b", "", false⟩] (calls trial trialWorld trialOps)
      [⟨1, "a", "", false⟩] := by
  have hidle : ((start trial trialWorld).after trial trialOps).isFlushing = false := by cbv
  have hsaved : (start trial trialWorld).acknowledged trial trialOps =
      [⟨1, "a", "", false⟩, ⟨2, "b", "", false⟩] := by cbv
  have hbuffer : ((start trial trialWorld).after trial trialOps).buffer =
      [⟨1, "a", "", false⟩] := by cbv
  have h := (accounted_between_flushes trial (by decide) trialWorld).2 trialOps hidle
  rw [hsaved, hbuffer] at h
  exact ⟨by decide, hidle, by cbv, h⟩

end Roster.Saver
