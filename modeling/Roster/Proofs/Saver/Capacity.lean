import Roster.Proofs.Saver.Chronicle

/-!
The buffer of a saver. While the owner is free it holds what the last flush could not store, and
then what was acknowledged since; as soon as a team makes it full, it is flushed.
-/

namespace Roster.Saver

variable {σ : Type} {m : Setup σ} {s s' : State σ}

/-! ## Where flushes for the capacity stand -/

namespace Turn

variable {before after : History}

/-- A team is acknowledged when the owner is free, and nothing is told before it. -/
theorem of_saved {t : Team} (h : Turn m s (before ++ .saved t :: after) s') :
    s.phase = .waiting ∧ before = [] ∧ .saved t :: after = s.accepting m t := by
  generalize hall : before ++ .saved t :: after = all at h
  have hmem : .saved t ∈ all := hall ▸ List.mem_append_cons_self
  have hsaves := History.mem_saves hmem
  cases h with
  | save t' hp =>
    rw [State.saves_accepting, List.mem_singleton] at hsaves
    subst hsaves
    cases before with
    | nil => exact ⟨hp, rfl, hall⟩
    | cons x before =>
      -- otherwise two teams would be acknowledged
      have htwo := s.saves_accepting m t
      rw [← hall, (List.cons_eq_cons.1 hall).1] at htwo
      simp [History.saves, Happening.saved?] at htwo
  | tick hp hd =>
    rw [State.saves_flushing] at hsaves
    cases hsaves
  | shut hp =>
    rw [State.saves_flushing] at hsaves
    cases hsaves
  | answer hw he =>
    rw [State.saves_sending] at hsaves
    cases hsaves
  | _ => cases hmem

end Turn

/-! ## What the buffer is made of -/

/-- The teams that the last flush has not stored, and those that were acknowledged since. -/
structure Stock where
  failed : List Team := []
  fresh : List Team := []

def Stock.all (b : Stock) : List Team :=
  b.failed ++ b.fresh

/-- The stock after one more thing has happened. A flush takes everything. -/
def Stock.next (b : Stock) : Happening → Stock
  | .saved t => { b with fresh := b.fresh ++ [t] }
  | .flush _ _ _ => {}
  | .call chunk reply => { b with failed := b.failed ++ kept chunk reply.outcome }

def History.stock (h : History) : Stock :=
  h.foldl Stock.next {}

/-- A stock goes with a state: the buffer is the stock while the owner is free, and the rest of it
is below the capacity; during a flush nothing is acknowledged. -/
def Stock.Fits (m : Setup σ) (b : Stock) (s : State σ) : Prop :=
  match s.phase with
  | .waiting => s.buffer = b.all ∧ (b.fresh ≠ [] → s.buffer.length < m.capacity)
  | .writing w => s.buffer = [] ∧ b.fresh = [] ∧ b.failed = w.failed ++ kept w.chunk w.outcome
  | .closed => True

namespace Stock

variable {b : Stock}

theorem Fits.of_waiting (h : b.Fits m s) (hp : s.phase = .waiting) :
    s.buffer = b.all ∧ (b.fresh ≠ [] → s.buffer.length < m.capacity) := by
  rwa [Fits, hp] at h

theorem Fits.congr (h : b.Fits m s) (hp : s'.phase = s.phase) (hb : s'.buffer = s.buffer) :
    b.Fits m s' := by
  rwa [Fits, hp, hb]

theorem fits_finish {trigger : Trigger} {pending : Nat} (hb : s.buffer = [])
    (hf : b.fresh = []) : b.Fits m (s.finish m trigger pending b.failed) := by
  have hbuffer : b.failed ++ s.buffer = b.all := by rw [all, hb, hf]
  have hfresh : b.fresh ≠ [] → (b.failed ++ s.buffer).length < m.capacity := absurd hf
  cases trigger with
  | capacity => exact ⟨hbuffer, hfresh⟩
  | interval => exact ⟨hbuffer, hfresh⟩
  | shutdown => trivial

theorem fits_sendNext {trigger : Trigger} {pending index : Nat} {cs : List (List Team)}
    (hb : s.buffer = []) (hf : b.fresh = []) :
    ((s.sending m cs).foldl next b).Fits m (s.sendNext m trigger pending index b.failed cs) := by
  cases cs with
  | nil => exact fits_finish hb hf
  | cons c cs => exact ⟨hb, hf, rfl⟩

theorem fits_beginFlush (s : State σ) (trigger : Trigger) :
    ((s.flushing m trigger).foldl next b).Fits m (s.beginFlush m trigger) := by
  rw [State.beginFlush_eq_sendNext]
  exact fits_sendNext (b := {}) rfl rfl

theorem fits_accept (h : b.Fits m s) (hp : s.phase = .waiting) (t : Team) :
    ((s.accepting m t).foldl next b).Fits m (s.accept m t) := by
  obtain ⟨hbuffer, -⟩ := h.of_waiting hp
  by_cases hfull : m.capacity ≤ (s.buffer ++ [t]).length
  · rw [State.accepting_of_full m s hfull, State.accept_of_full m hfull]
    exact fits_beginFlush ..
  · have hnext : s.buffer ++ [t] = (b.next (.saved t)).all := by
      rw [hbuffer, all, List.append_assoc]
      rfl
    rw [State.accepting_of_not_full m s hfull, State.accept_of_not_full m hfull, Fits, hp]
    exact ⟨hnext, fun _ => Nat.lt_of_not_le hfull⟩

theorem fits_takeAnswer (h : b.Fits m s) {w : Writing} (hw : s.phase = .writing w) :
    ((s.sending m w.rest).foldl next b).Fits m (s.takeAnswer m w) := by
  rw [Fits, hw] at h
  obtain ⟨hb, hf, hfailed⟩ := h
  rw [State.takeAnswer, ← hfailed]
  exact fits_sendNext hb hf

theorem Fits.turn {new : History} (h : b.Fits m s) (ht : Turn m s new s') :
    (new.foldl next b).Fits m s' := by
  cases ht with
  | wake hnone => exact h.congr rfl rfl
  | alter f => exact h.congr rfl rfl
  | handles handles => exact h.congr rfl rfl
  | abandon hp hh => exact h.congr rfl rfl
  | save t hp => exact fits_accept h hp t
  | tick hp hd => exact fits_beginFlush ..
  | shut hp => exact fits_beginFlush ..
  | answer hw he => exact fits_takeAnswer h hw

end Stock

/-- The stock since a flush, when there has been no other: the refused chunks and the acknowledged
teams. -/
theorem History.stock_of_last_flush (before : History) (trigger : Trigger) (time : Nat)
    (given : List Team) {after : History} (hlast : after.flushes = []) :
    stock (before ++ .flush trigger time given :: after) =
      ⟨after.calls.flatMap fun c => kept c.batch c.outcome, after.saves⟩ := by
  have hafter : ∀ b : Stock, after.foldl Stock.next b =
      ⟨b.failed ++ after.calls.flatMap fun c => kept c.batch c.outcome,
        b.fresh ++ after.saves⟩ := by
    intro b
    induction after generalizing b with
    | nil => simp [calls, saves]
    | cons x after ih =>
      cases x with
      | flush trigger' time' given' => cases hlast
      | saved t =>
        rw [List.foldl_cons, ih hlast]
        simp [Stock.next, calls, saves, List.filterMap_cons, Happening.call?, Happening.saved?]
      | call chunk reply =>
        rw [List.foldl_cons, ih hlast]
        simp [Stock.next, calls, saves, List.filterMap_cons, Happening.call?, Happening.saved?]
  rw [stock, List.foldl_append, List.foldl_cons]
  exact hafter {}

theorem History.failed_stock {h : History} (hok : ∀ c ∈ h.calls, c.outcome.isOk = true) :
    h.stock.failed = [] := by
  suffices hall : ∀ b : Stock, b.failed = [] → (h.foldl Stock.next b).failed = [] from hall {} rfl
  intro b hb
  induction h generalizing b with
  | nil => exact hb
  | cons x h ih =>
    rw [List.foldl_cons]
    cases x with
    | saved t => exact ih hok _ hb
    | flush trigger time given => exact ih hok _ rfl
    | call chunk reply =>
      have hcalls : calls (.call chunk reply :: h) = ⟨chunk, reply.outcome⟩ :: calls h := rfl
      rw [hcalls, List.forall_mem_cons] at hok
      refine ih hok.2 _ ?_
      cases houtcome : reply.outcome with
      | ok ids => simp [Stock.next, houtcome, kept, hb]
      | error e =>
        rw [houtcome] at hok
        cases hok.1

theorem Chronicle.fits {world : σ} {h : History} (hc : Chronicle m (start m world) h s) :
    h.stock.Fits m s :=
  hc.foldl ⟨rfl, fun hne => absurd rfl hne⟩ Stock.Fits.turn

/-! ## The capacity is kept -/

section

variable {world : σ} {h : History}

/-- A team that makes the buffer full is followed at once by a flush of it. -/
theorem Chronicle.flush_of_full {before after : History} {t : Team}
    (hc : Chronicle m (start m world) (before ++ .saved t :: after) s)
    (hfull : m.capacity ≤ (before.stock.all ++ [t]).length) :
    ∃ time rest, after = .flush .capacity time (before.stock.all ++ [t]) :: rest := by
  obtain ⟨h, a, b, later, s₁, s₂, hc₁, ht, rfl, rfl⟩ := hc.split
  obtain ⟨hp, rfl, htold⟩ := ht.of_saved
  rw [List.append_nil] at hfull ⊢
  obtain ⟨hbuffer, -⟩ := hc₁.fits.of_waiting hp
  rw [← hbuffer] at hfull ⊢
  rw [State.accepting_of_full m s₁ hfull] at htold
  obtain ⟨-, rfl⟩ := List.cons_eq_cons.1 htold
  exact ⟨s₁.clock, _, rfl⟩

theorem Chronicle.full_of_flush {before after : History} {time : Nat} {given : List Team}
    (hc : Chronicle m (start m world) (before ++ .flush .capacity time given :: after) s) :
    ∃ earlier t s₁, before = earlier ++ [.saved t] ∧ given = earlier.stock.all ++ [t] ∧
      m.capacity ≤ given.length ∧ Chronicle m (start m world) earlier s₁ ∧ s₁.phase = .waiting := by
  obtain ⟨h, a, b, later, s₁, s₂, hc₁, ht, rfl, rfl⟩ := hc.split
  obtain ⟨hp, -, hbegins⟩ := ht.of_flush
  obtain ⟨hbuffer, -⟩ := hc₁.fits.of_waiting hp
  cases hbegins with
  | @capacity t hfull => exact ⟨h, t, s₁, rfl, by rw [hbuffer], hfull, hc₁, hp⟩

theorem Chronicle.length_lt_of_all_ok (hc : Chronicle m (start m world) h s)
    (hok : ∀ c ∈ h.calls, c.outcome.isOk = true) (hp : s.phase = .waiting) :
    s.buffer.length < m.capacity := by
  obtain ⟨hbuffer, hbelow⟩ := hc.fits.of_waiting hp
  by_cases hfresh : h.stock.fresh = []
  · rw [hbuffer, Stock.all, History.failed_stock hok, hfresh]
    exact m.capacity_pos
  · exact hbelow hfresh

/-- Whatever happens to a saver of any capacity and chunk size, and whatever its repo answers: while
the owner is free, the buffer is what the last flush could not store and then what was acknowledged
since, and with any of the latter it is below the capacity. A flush for the capacity follows at once
on exactly those teams that bring the buffer to the capacity. If no call fails, the buffer is always
below the capacity when the owner is free, and each flush for the capacity is given just as many
teams. -/
theorem buffer_below_capacity (m : Setup σ) (world : σ) :
    (∀ ops : List (Op σ), ∃ h : History, h.TellsOf m world ops) ∧
    ∀ (h : History) (s : State σ), Chronicle m (start m world) h s →
      (s.phase = .waiting → s.buffer = h.stock.failed ++ h.stock.fresh ∧
        (h.stock.fresh ≠ [] → s.buffer.length < m.capacity)) ∧
      (∀ before trigger time given (after : History),
        h = before ++ .flush trigger time given :: after → after.flushes = [] →
          s.phase = .waiting →
            s.buffer = (after.calls.flatMap fun c => kept c.batch c.outcome) ++ after.saves) ∧
      (∀ (before : History) t after, h = before ++ .saved t :: after →
        (m.capacity ≤ (before.stock.all ++ [t]).length ↔
          ∃ time rest, after = .flush .capacity time (before.stock.all ++ [t]) :: rest)) ∧
      (∀ before time given after, h = before ++ .flush .capacity time given :: after →
        ∃ (earlier : History) (t : Team), before = earlier ++ [.saved t] ∧
          given = earlier.stock.all ++ [t]) ∧
      ((∀ c ∈ h.calls, c.outcome.isOk = true) →
        (s.phase = .waiting → s.buffer.length < m.capacity) ∧
        ∀ time given, .flush .capacity time given ∈ h → given.length = m.capacity) := by
  refine ⟨exists_history m world, ?_⟩
  intro h s hc
  refine ⟨hc.fits.of_waiting, ?_, ?_, ?_, ?_⟩
  · rintro before trigger time given after rfl hlast hp
    rw [(hc.fits.of_waiting hp).1, History.stock_of_last_flush before trigger time given hlast]
    rfl
  · rintro before t after rfl
    refine ⟨hc.flush_of_full, ?_⟩
    rintro ⟨time, rest, rfl⟩
    rw [List.append_cons] at hc
    obtain ⟨earlier, t', s₁, hbefore, hgiven, hfull, -⟩ := hc.full_of_flush
    exact hfull
  · rintro before time given after rfl
    obtain ⟨earlier, t, s₁, hbefore, hgiven, -⟩ := hc.full_of_flush
    exact ⟨earlier, t, hbefore, hgiven⟩
  · intro hok
    refine ⟨hc.length_lt_of_all_ok hok, ?_⟩
    intro time given hflush
    obtain ⟨before, after, rfl⟩ := List.append_of_mem hflush
    obtain ⟨earlier, t, s₁, rfl, hgiven, hfull, hc₁, hp⟩ := hc.full_of_flush
    have hearlier : ∀ c ∈ earlier.calls, c.outcome.isOk = true := by
      intro c hcall
      refine hok c ?_
      rw [History.calls_append, History.calls_append]
      exact List.mem_append_left _ (List.mem_append_left _ hcall)
    have hlt := hc₁.length_lt_of_all_ok hearlier hp
    rw [(hc₁.fits.of_waiting hp).1] at hlt
    rw [hgiven, List.length_append, List.length_singleton] at hfull ⊢
    omega

end

/-- Two teams, the second of which makes the buffer full, are both stored by the flush. If the first
chunk is refused, its team is what the buffer is then made of. -/
theorem capacity_trial :
    (∃ h : History, h.TellsOf trial { script := {} } trialOps ∧ h.flushes = [(.capacity, 2)] ∧
      (∀ c ∈ h.calls, c.outcome.isOk = true) ∧
      ((start trial { script := {} }).after trial trialOps).buffer.length < trial.capacity ∧
      ∀ time given, .flush .capacity time given ∈ h → given.length = trial.capacity) ∧
    ∃ h : History, h.TellsOf trial trialWorld trialOps ∧
      [⟨1, "a", "", false⟩] = h.stock.failed ++ h.stock.fresh := by
  refine ⟨?_, ?_⟩
  · obtain ⟨h, htells⟩ := (buffer_below_capacity trial { script := {} }).1 trialOps
    have hflushes : flushesOf ((start trial { script := {} }).after trial trialOps).log =
        [(.capacity, 2)] := by cbv
    have hcalls : calls trial { script := {} } trialOps =
        [⟨[⟨1, "a", "", false⟩], .ok [1]⟩, ⟨[⟨2, "b", "", false⟩], .ok [2]⟩] := by cbv
    have hwaiting : ((start trial { script := {} }).after trial trialOps).phase = .waiting := by
      cbv
    have hok : ∀ c ∈ h.calls, c.outcome.isOk = true := by
      rw [htells.calls, hcalls]
      simp [Except.isOk, Except.toBool]
    obtain ⟨hlength, hgiven⟩ :=
      ((buffer_below_capacity trial { script := {} }).2 h _ htells.chronicle).2.2.2.2 hok
    exact ⟨h, htells, htells.flushes.trans hflushes, hok, hlength hwaiting, hgiven⟩
  · obtain ⟨h, htells⟩ := (buffer_below_capacity trial trialWorld).1 trialOps
    have hwaiting : ((start trial trialWorld).after trial trialOps).phase = .waiting := by cbv
    have hbuffer : ((start trial trialWorld).after trial trialOps).buffer =
        [⟨1, "a", "", false⟩] := by cbv
    have hstock :=
      (((buffer_below_capacity trial trialWorld).2 h _ htells.chronicle).1 hwaiting).1
    exact ⟨h, htells, hbuffer.symm.trans hstock⟩

end Roster.Saver
