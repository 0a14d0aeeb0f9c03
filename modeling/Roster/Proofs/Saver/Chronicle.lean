import Roster.Proofs.Saver.Closing

/-!
Histories: what happened at a saver, in order. Every run of operations has one that tells of the
same acknowledged teams, calls and flushes, so what is shown of all histories holds of all runs.
-/

namespace Roster.Saver

variable {σ : Type}

inductive Happening where
  /-- A team was acknowledged. -/
  | saved (t : Team)
  /-- At the given time a flush of the given teams began. -/
  | flush (trigger : Trigger) (time : Nat) (given : List Team)
  /-- A chunk was sent. The reply comes when its delay is over, before anything else happens. -/
  | call (chunk : List Team) (reply : Reply)

abbrev History : Type :=
  List Happening

/-! ## What a history tells -/

namespace Happening

def saved? : Happening → Option Team
  | saved t => some t
  | _ => none

def call? : Happening → Option Call
  | call chunk reply => some ⟨chunk, reply.outcome⟩
  | _ => none

def flush? : Happening → Option (Trigger × Nat)
  | flush trigger _ given => some (trigger, given.length)
  | _ => none

end Happening

namespace History

def saves (h : History) : List Team :=
  h.filterMap Happening.saved?

def calls (h : History) : List Call :=
  h.filterMap Happening.call?

def flushes (h : History) : List (Trigger × Nat) :=
  h.filterMap Happening.flush?

variable (h h' : History)

@[simp] theorem saves_append : saves (h ++ h') = h.saves ++ h'.saves := List.filterMap_append

@[simp] theorem calls_append : calls (h ++ h') = h.calls ++ h'.calls := List.filterMap_append

@[simp] theorem flushes_append : flushes (h ++ h') = h.flushes ++ h'.flushes :=
  List.filterMap_append

variable {h}

theorem mem_saves {t : Team} (hx : .saved t ∈ h) : t ∈ h.saves :=
  List.mem_filterMap.2 ⟨_, hx, rfl⟩

theorem mem_flushes {trigger : Trigger} {time : Nat} {given : List Team}
    (hx : .flush trigger time given ∈ h) : (trigger, given.length) ∈ h.flushes :=
  List.mem_filterMap.2 ⟨_, hx, rfl⟩

end History

def Entry.flush? : Entry → Option (Trigger × Nat)
  | .flushing trigger pending => some (trigger, pending)
  | _ => none

def flushesOf (log : List Entry) : List (Trigger × Nat) :=
  log.filterMap Entry.flush?

theorem triggers_eq_map_flushesOf (log : List Entry) :
    triggers log = (flushesOf log).map Prod.fst := by
  rw [triggers, flushesOf, List.map_filterMap]
  congr 1
  funext e
  cases e <;> rfl

theorem Follows.flushesOf_eq {log log' : List Entry} (h : Follows log log') :
    flushesOf log' = flushesOf log := by
  obtain ⟨es, rfl, hes⟩ := h
  rw [triggers_eq_map_flushesOf, List.map_eq_nil_iff] at hes
  rw [flushesOf, List.filterMap_append, ← flushesOf, ← flushesOf, hes, List.append_nil]

/-! ## What happens in one turn -/

namespace State

variable (m : Setup σ) (s : State σ)

def sending : List (List Team) → History
  | [] => []
  | c :: _ => [.call c (m.repo s.world c).2]

def flushing (trigger : Trigger) : History :=
  .flush trigger s.clock s.buffer :: s.sending m (chunks m.chunkSize s.buffer)

def accepting (t : Team) : History :=
  .saved t ::
    if m.capacity ≤ (s.buffer ++ [t]).length then
      { s with buffer := s.buffer ++ [t] }.flushing m .capacity
    else []

end State

/-! ### What is told of it -/

namespace State

variable (m : Setup σ) (s : State σ)

@[simp] theorem saves_sending (cs : List (List Team)) : (s.sending m cs).saves = [] := by
  cases cs <;> rfl

@[simp] theorem flushes_sending (cs : List (List Team)) : (s.sending m cs).flushes = [] := by
  cases cs <;> rfl

@[simp] theorem saves_flushing (trigger : Trigger) : (s.flushing m trigger).saves = [] :=
  s.saves_sending m _

@[simp] theorem flushes_flushing (trigger : Trigger) :
    (s.flushing m trigger).flushes = [(trigger, s.buffer.length)] :=
  congrArg ((trigger, s.buffer.length) :: ·) (s.flushes_sending m _)

@[simp] theorem saves_accepting (t : Team) : (s.accepting m t).saves = [t] := by
  refine congrArg (t :: ·) ?_
  split
  · exact saves_flushing m _ _
  · rfl

theorem accepting_of_full {t : Team} (h : m.capacity ≤ (s.buffer ++ [t]).length) :
    s.accepting m t =
      .saved t :: { s with buffer := s.buffer ++ [t] }.flushing m .capacity :=
  congrArg (Happening.saved t :: ·) (if_pos h)

theorem accepting_of_not_full {t : Team} (h : ¬m.capacity ≤ (s.buffer ++ [t]).length) :
    s.accepting m t = [.saved t] :=
  congrArg (Happening.saved t :: ·) (if_neg h)

variable {m s}

/-- A flush begins before its chunks are sent. -/
theorem flushing_split {trigger trigger' : Trigger} {time : Nat} {given : List Team}
    {before after : History}
    (h : before ++ .flush trigger' time given :: after = s.flushing m trigger) :
    before = [] ∧ trigger' = trigger ∧ time = s.clock ∧ given = s.buffer := by
  rw [flushing] at h
  cases before with
  | nil =>
    obtain ⟨hflush, -⟩ := List.cons_eq_cons.1 h
    cases hflush
    exact ⟨rfl, rfl, rfl, rfl⟩
  | cons x before =>
    have hmem : .flush trigger' time given ∈ s.sending m (chunks m.chunkSize s.buffer) :=
      (List.cons_eq_cons.1 h).2 ▸ List.mem_append_cons_self
    have hflushes := History.mem_flushes hmem
    rw [flushes_sending] at hflushes
    cases hflushes

end State

variable (m : Setup σ)

/-- One thing after another: what happens in it, and the state afterwards. Time passes only while
the owner has nothing to do. -/
inductive Turn : State σ → History → State σ → Prop where
  | wake {s : State σ} {time : Nat} :
    (∀ limit < time, s.step? m limit = none) → Turn s [] (s.wake time)
  | alter (s : State σ) (f : σ → σ) : Turn s [] { s with world := f s.world }
  | handles (s : State σ) (handles : List Bool) : Turn s [] { s with handles }
  | abandon {s : State σ} :
    s.phase = .waiting → s.isHeld = false → Turn s [] (s.report [.abandoned])
  | save {s : State σ} (t : Team) :
    s.phase = .waiting → Turn s (s.accepting m t) (s.accept m t)
  | tick {s : State σ} :
    s.phase = .waiting → s.due ≤ s.clock → Turn s (s.flushing m .interval) (s.tick m)
  | shut {s : State σ} :
    s.phase = .waiting → Turn s (s.flushing m .shutdown) (s.beginFlush m .shutdown)
  | answer {s : State σ} {w : Writing} :
    s.phase = .writing w → w.ends ≤ s.clock → Turn s (s.sending m w.rest) (s.takeAnswer m w)

/-- How a flush begins when the owner is free: what is told before it in the same turn, and what it
is given. -/
inductive State.Begins (s : State σ) : Trigger → History → List Team → Prop where
  | capacity {t : Team} :
    m.capacity ≤ (s.buffer ++ [t]).length → s.Begins .capacity [.saved t] (s.buffer ++ [t])
  | interval : s.due ≤ s.clock → s.Begins .interval [] s.buffer
  | shutdown : s.Begins .shutdown [] s.buffer

theorem Turn.of_flush {m : Setup σ} {s s' : State σ} {trigger : Trigger} {time : Nat}
    {given : List Team} {before after : History}
    (h : Turn m s (before ++ .flush trigger time given :: after) s') :
    s.phase = .waiting ∧ time = s.clock ∧ s.Begins m trigger before given := by
  generalize hall : before ++ .flush trigger time given :: after = all at h
  have hmem : .flush trigger time given ∈ all := hall ▸ List.mem_append_cons_self
  cases h with
  | save t hp =>
    by_cases hfull : m.capacity ≤ (s.buffer ++ [t]).length
    · rw [State.accepting_of_full m s hfull] at hall
      cases before with
      | nil => cases hall
      | cons x before =>
        obtain ⟨rfl, hflush⟩ := List.cons_eq_cons.1 hall
        obtain ⟨rfl, rfl, rfl, rfl⟩ := State.flushing_split hflush
        exact ⟨hp, rfl, .capacity hfull⟩
    · rw [State.accepting_of_not_full m s hfull] at hmem
      cases List.mem_singleton.1 hmem
  | tick hp hd =>
    obtain ⟨rfl, rfl, rfl, rfl⟩ := State.flushing_split hall
    exact ⟨hp, rfl, .interval hd⟩
  | shut hp =>
    obtain ⟨rfl, rfl, rfl, rfl⟩ := State.flushing_split hall
    exact ⟨hp, rfl, .shutdown⟩
  | answer hw he =>
    have hflushes := History.mem_flushes hmem
    rw [State.flushes_sending] at hflushes
    cases hflushes
  | _ => cases hmem

/-- What may have happened between two states of a saver. -/
inductive Chronicle (s₀ : State σ) : History → State σ → Prop where
  | nil : Chronicle s₀ [] s₀
  | turn {h new : History} {s s' : State σ} :
    Chronicle s₀ h s → Turn m s new s' → Chronicle s₀ (h ++ new) s'

namespace Chronicle

variable {m} {s₀ s s' : State σ}

theorem quiet {h : History} (hc : Chronicle m s₀ h s) (ht : Turn m s [] s') :
    Chronicle m s₀ h s' := by
  have hturn := hc.turn ht
  rwa [List.append_nil] at hturn

/-- What is gathered from a history goes with the state if every turn keeps it so. -/
theorem foldl {α : Type} {next : α → Happening → α} {fits : α → State σ → Prop} {a : α}
    {h : History} (hc : Chronicle m s₀ h s) (hstart : fits a s₀)
    (hturn : ∀ {a : α} {s s' : State σ} {new : History}, fits a s → Turn m s new s' →
      fits (new.foldl next a) s') : fits (h.foldl next a) s := by
  induction hc with
  | nil => exact hstart
  | turn hc ht ih =>
    rw [List.foldl_append]
    exact hturn ih ht

/-- Everything that happened did so in some turn. -/
theorem split {before after : History} {x : Happening}
    (hc : Chronicle m s₀ (before ++ x :: after) s) :
    ∃ h a b later s₁ s₂, Chronicle m s₀ h s₁ ∧ Turn m s₁ (a ++ x :: b) s₂ ∧ before = h ++ a ∧
      after = b ++ later := by
  generalize hall : before ++ x :: after = all at hc
  induction hc generalizing after with
  | nil => simp at hall
  | @turn h new s s' hc ht ih =>
    -- `x` is told in an earlier turn or as the first thing of this one, or later in this one
    obtain ⟨c, rfl, hnew⟩ | ⟨c, rfl, rfl⟩ := List.append_eq_append_iff.1 hall
    · cases c with
      | nil =>
        obtain rfl : new = x :: after := hnew.symm
        exact ⟨before, [], after, [], s, s', by simpa using hc, ht, by simp, by simp⟩
      | cons y c =>
        obtain ⟨rfl, rfl⟩ := List.cons_eq_cons.1 hnew
        obtain ⟨h, a, b, later, s₁, s₂, hc₁, ht₁, hbefore, rfl⟩ := ih rfl
        exact ⟨h, a, b, later ++ new, s₁, s₂, hc₁, ht₁, hbefore, List.append_assoc ..⟩
    · exact ⟨h, c, after, [], s, s', hc, ht, rfl, (List.append_nil _).symm⟩

end Chronicle

/-! ## Every run has a history -/

namespace State

structure Tells (new : History) (s s' : State (Recorded σ)) : Prop where
  calls : s'.world.calls = s.world.calls ++ new.calls
  flushes : flushesOf s'.log = flushesOf s.log ++ new.flushes

variable {m} {s s' : State (Recorded σ)}

theorem tells_nil (hcalls : s'.world.calls = s.world.calls) (hlog : Follows s.log s'.log) :
    Tells [] s s' :=
  ⟨hcalls.trans (List.append_nil _).symm, hlog.flushesOf_eq.trans (List.append_nil _).symm⟩

theorem calls_sendNext_eq (s : State (Recorded σ)) (trigger : Trigger) (pending index : Nat)
    (failed : List Team) (cs : List (List Team)) :
    (s.sendNext m.recorded trigger pending index failed cs).world.calls =
      s.world.calls ++ (s.forget.sending m cs).calls := by
  cases cs with
  | nil => cases trigger <;> exact (List.append_nil _).symm
  | cons c cs => rfl

theorem tells_beginFlush (s : State (Recorded σ)) (trigger : Trigger) :
    Tells (s.forget.flushing m trigger) s (s.beginFlush m.recorded trigger) where
  calls := by
    rw [beginFlush_eq_sendNext, calls_sendNext_eq]
    rfl
  flushes := by
    rw [(follows_beginFlush m.recorded s trigger).flushesOf_eq, flushes_flushing, flushesOf,
      List.filterMap_append]
    rfl

theorem tells_accept (s : State (Recorded σ)) (t : Team) :
    Tells (s.forget.accepting m t) s (s.accept m.recorded t) := by
  by_cases h : m.capacity ≤ (s.buffer ++ [t]).length
  · have hflush := tells_beginFlush (m := m) { s with buffer := s.buffer ++ [t] } .capacity
    rw [accept_of_full m.recorded h, accepting_of_full m s.forget h]
    exact ⟨hflush.calls, hflush.flushes⟩
  · rw [accept_of_not_full m.recorded h, accepting_of_not_full m s.forget h]
    exact ⟨(List.append_nil _).symm, (List.append_nil _).symm⟩

theorem tells_tick (s : State (Recorded σ)) :
    Tells (s.forget.flushing m .interval) s (s.tick m.recorded) := by
  have hflush := tells_beginFlush (m := m)
    { s with due := nextDue m.interval s.due s.clock } .interval
  exact ⟨hflush.calls, hflush.flushes⟩

theorem tells_takeAnswer (s : State (Recorded σ)) (w : Writing) :
    Tells (s.forget.sending m w.rest) s (s.takeAnswer m.recorded w) where
  calls := calls_sendNext_eq ..
  flushes := by
    rw [(follows_takeAnswer m.recorded s w).flushesOf_eq, flushes_sending, List.append_nil]

end State

def Charted (world : σ) (saved : List Team) (s : State (Recorded σ)) : Prop :=
  ∃ h : History, Chronicle m (start m world) h s.forget ∧ h.saves = saved ∧
    State.Tells h (start m.recorded { world }) s

variable {m} {world : σ} {saved : List Team} {s s' : State (Recorded σ)}

theorem Charted.turn {new : History} (h : Charted m world saved s)
    (ht : Turn m s.forget new s'.forget) (hnew : State.Tells new s s') :
    Charted m world (saved ++ new.saves) s' := by
  obtain ⟨h, hc, rfl, htells⟩ := h
  refine ⟨h ++ new, hc.turn ht, History.saves_append .., ?_, ?_⟩
  · rw [hnew.calls, htells.calls, History.calls_append, List.append_assoc]
  · rw [hnew.flushes, htells.flushes, History.flushes_append, List.append_assoc]

theorem Charted.quiet (h : Charted m world saved s) (ht : Turn m s.forget [] s'.forget)
    (hcalls : s'.world.calls = s.world.calls) (hlog : Follows s.log s'.log) :
    Charted m world saved s' := by
  have hturn := h.turn ht (State.tells_nil hcalls hlog)
  rwa [History.saves, List.filterMap_nil, List.append_nil] at hturn

theorem charted_invariant (m : Setup σ) (world : σ) : Invariant m.recorded (Charted m world) where
  wake := by
    intro saved s time h hnone
    refine h.quiet (.wake ?_) rfl (.refl _)
    intro limit hlimit
    rw [← State.forget_step?, hnone limit hlimit, Option.map_none]
  handles handles h := h.quiet (.handles _ handles) rfl (.refl _)
  save := by
    intro saved s t h hp
    have hturn : Turn m s.forget (s.forget.accepting m t) (s.accept m.recorded t).forget := by
      rw [State.forget_accept]
      exact .save t hp
    have hsaved := h.turn hturn (State.tells_accept s t)
    rwa [State.saves_accepting] at hsaved
  tick := by
    intro saved s h hp hd
    have hturn : Turn m s.forget (s.forget.flushing m .interval) (s.tick m.recorded).forget := by
      rw [State.forget_tick]
      exact .tick hp hd
    have htick := h.turn hturn (State.tells_tick s)
    rwa [State.saves_flushing, List.append_nil] at htick
  abandon h hp hh := h.quiet (.abandon hp hh) rfl (.append rfl)
  shut := by
    intro saved s h hp
    have hturn : Turn m s.forget (s.forget.flushing m .shutdown)
        (s.beginFlush m.recorded .shutdown).forget := by
      rw [State.forget_beginFlush]
      exact .shut hp
    have hshut := h.turn hturn (State.tells_beginFlush s .shutdown)
    rwa [State.saves_flushing, List.append_nil] at hshut
  answer := by
    intro saved s w h hw he
    have hturn : Turn m s.forget (s.forget.sending m w.rest)
        (s.takeAnswer m.recorded w).forget := by
      rw [State.forget_takeAnswer]
      exact .answer hw he
    have hanswer := h.turn hturn (State.tells_takeAnswer s w)
    rwa [State.saves_sending, List.append_nil] at hanswer

/-- A history tells of what a run of operations led to: what was acknowledged, the calls that were
made and the flushes that were reported. -/
structure History.TellsOf (h : History) (m : Setup σ) (world : σ) (ops : List (Op σ)) : Prop where
  chronicle : Chronicle m (start m world) h ((start m world).after m ops)
  saves : h.saves = (start m world).acknowledged m ops
  calls : h.calls = Saver.calls m world ops
  flushes : h.flushes = flushesOf ((start m world).after m ops).log

theorem exists_history (m : Setup σ) (world : σ) (ops : List (Op σ)) :
    ∃ h : History, h.TellsOf m world ops := by
  have hstart : Charted m world [] (start m.recorded { world }) :=
    ⟨[], .nil, rfl, State.tells_nil rfl (.refl _)⟩
  obtain ⟨h, hc, hsaves, hcalls, hflushes⟩ := (charted_invariant m world).after_recorded hstart
    (fun f _ s hs => hs.quiet (.alter s.forget f) rfl (.refl _)) ops
  rw [State.forget_after] at hc
  refine ⟨h, hc, hsaves, hcalls.symm, ?_⟩
  rw [← forget_recordedRun]
  exact hflushes.symm

end Roster.Saver
