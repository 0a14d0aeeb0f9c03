import Roster.Proofs.Saver.Accounting

/-!
What a saver sends, and what it says is left. Its calls, made one after the other to the world as it
was at first, account for the world as it is. Only teams that were acknowledged are sent, in order
if none is refused. When the saver closes, it reports how many teams are left in the buffer.
-/

namespace Roster

variable {σ : Type}

inductive Repo.Replays (repo : Repo σ) (world : σ) : List Call → σ → Prop
  | nil : Replays repo world [] world
  | call {calls : List Call} {w : σ} (h : Replays repo world calls w) (batch : List Team) :
    Replays repo world (calls ++ [⟨batch, (repo w batch).2.outcome⟩]) (repo w batch).1

/-- The calls at the beginning have a world of their own. -/
theorem Repo.Replays.of_prefix {repo : Repo σ} {world w : σ} {calls first : List Call}
    (h : repo.Replays world calls w) (hfirst : first <+: calls) :
    ∃ w', repo.Replays world first w' := by
  induction h with
  | nil =>
    obtain rfl := List.prefix_nil.1 hfirst
    exact ⟨world, .nil⟩
  | call h batch ih =>
    rcases List.prefix_concat_iff.1 hfirst with rfl | hfirst
    · exact ⟨_, h.call batch⟩
    · exact ih hfirst

/-- Batches of teams with the one property keep the other. -/
def Repo.Maintains (repo : Repo σ) (P : σ → Prop) (V : Team → Prop) : Prop :=
  ∀ w ts, P w → (∀ t ∈ ts, V t) → P (repo w ts).1

/-- The given teams are taken in order, in whatever batches they come; which ones have been taken so
far is seen in the world. -/
def Repo.Takes (repo : Repo σ) (shows : σ → List Team → Prop) (all : List Team) : Prop :=
  ∀ w ts us, shows w ts → ts ++ us <+: all →
    (∃ ids, (repo w us).2.outcome = .ok ids) ∧ shows (repo w us).1 (ts ++ us)

namespace Saver

/-! ## Everything is somewhere -/

namespace Ledger

def without (l : Ledger) (fate : Option Nat) : Ledger :=
  l.filter fun x => x.2 ≠ fate

theorem met_without_self (l : Ledger) (fate : Option Nat) : (l.without fate).met fate = [] := by
  rw [met, without, List.filter_filter, List.map_eq_nil_iff, List.filter_eq_nil_iff]
  intro x _
  simp

theorem met_without (l : Ledger) {fate other : Option Nat} (h : other ≠ fate) :
    (l.without fate).met other = l.met other := by
  rw [met, without, List.filter_filter, met]
  congr 1
  refine List.filter_congr fun x _ => ?_
  by_cases hx : x.2 = other
  · simp [hx, h]
  · simp [hx]

theorem perm_without (l : Ledger) (fate : Option Nat) :
    (l.met fate ++ (l.without fate).map Prod.fst).Perm (l.map Prod.fst) := by
  have hsplit := (List.filter_append_perm (fun x : Team × Option Nat => x.2 = fate) l).map Prod.fst
  simpa [met, without] using hsplit

end Ledger

/-- The teams that were stored and those that wait are those that were acknowledged. -/
theorem Accounted.perm {saved : List Team} {calls : List Call} {waiting : List Team}
    (h : Accounted saved calls waiting) :
    (calls.flatMap Call.stored ++ waiting).Perm saved := by
  obtain ⟨l, rfl, rfl, hstored⟩ := h
  -- the last call is taken away together with what it has stored
  induction calls using List.reverseRecOn generalizing l with
  | nil =>
    have hnone : ∀ x ∈ l, x.2 = none := by
      intro x hx
      cases hfate : x.2 with
      | none => rfl
      | some j =>
        have hmem : x.1 ∈ l.met (some j) := List.mem_map.2 ⟨x, by simp [hx, hfate], rfl⟩
        rw [hstored] at hmem
        simp [storedBy] at hmem
    have hall : l.met none = l.map Prod.fst := by
      rw [Ledger.met, List.filter_eq_self.2 (by simpa using hnone)]
    rw [hall]
    exact List.Perm.refl _
  | append_singleton calls c ih =>
    have hrest : ∀ j, (l.without (some calls.length)).met (some j) = storedBy calls j := by
      intro j
      by_cases hj : j = calls.length
      · rw [hj, Ledger.met_without_self, storedBy_length]
      · rw [Ledger.met_without l (by simpa using hj), hstored, storedBy_concat, if_neg hj]
    have hlast : l.met (some calls.length) = c.stored := by
      rw [hstored, storedBy_concat, if_pos rfl]
    have hperm := ih _ hrest
    rw [Ledger.met_without l (by simp)] at hperm
    have hwhole := l.perm_without (some calls.length)
    rw [hlast] at hwhole
    calc
      (calls ++ [c]).flatMap Call.stored ++ l.met none
          = calls.flatMap Call.stored ++ c.stored ++ l.met none := by simp
      _ |>.Perm (c.stored ++ (calls.flatMap Call.stored ++ l.met none)) := by
        rw [← List.append_assoc]
        exact List.perm_append_comm.append_right _
      _ |>.Perm (c.stored ++ (l.without (some calls.length)).map Prod.fst) := hperm.append_left _
      _ |>.Perm (l.map Prod.fst) := hwhole

/-! ## What is sent -/

theorem mem_kept {chunk : List Team} {outcome : Except StoreError (List UInt64)} {t : Team}
    (h : t ∈ kept chunk outcome) : t ∈ chunk := by
  cases outcome with
  | ok ids => cases h
  | error e => exact h

theorem mem_flatten_chunks {size : Nat} {ts : List Team} {t : Team}
    (h : t ∈ (chunks size ts).flatten) : t ∈ ts := by
  cases size with
  | zero => simp at h
  | succ n => rwa [flatten_chunks (Nat.succ_pos n)] at h

namespace State

/-- The world has the one property, and the teams that are held have the other. -/
def Carries (world : σ → Prop) (team : Team → Prop) (s : State σ) : Prop :=
  world s.world ∧ ∀ t ∈ s.held, team t

section

variable {m : Setup σ} {P : σ → Prop} {V : Team → Prop} {s : State σ}

theorem Carries.buffer (h : s.Carries P V) (hp : s.phase = .waiting) : ∀ t ∈ s.buffer, V t := by
  simpa only [Carries, held, hp] using h.2

theorem carries_finish {failed : List Team} (trigger : Trigger) (pending : Nat) (hw : P s.world)
    (hts : ∀ t ∈ failed ++ s.buffer, V t) : (s.finish m trigger pending failed).Carries P V := by
  cases trigger <;> exact ⟨hw, hts⟩

theorem carries_sendNext {failed : List Team} {cs : List (List Team)}
    (hrepo : m.repo.Maintains P V) (trigger : Trigger) (pending index : Nat) (hw : P s.world)
    (hts : ∀ t ∈ failed ++ cs.flatten ++ s.buffer, V t) :
    (s.sendNext m trigger pending index failed cs).Carries P V := by
  cases cs with
  | nil => exact carries_finish _ _ hw (by simpa using hts)
  | cons chunk rest =>
    simp only [List.flatten_cons, List.mem_append] at hts
    refine ⟨hrepo _ _ hw fun t ht => hts t (.inl (.inr (.inl ht))), ?_⟩
    simp only [sendNext, held, List.mem_append]
    rintro t (((ht | ht) | ht) | ht)
    · exact hts t (.inl (.inl ht))
    · exact hts t (.inl (.inr (.inl (mem_kept ht))))
    · exact hts t (.inl (.inr (.inr ht)))
    · exact hts t (.inr ht)

theorem carries_beginFlush (hrepo : m.repo.Maintains P V) (trigger : Trigger) (hw : P s.world)
    (hts : ∀ t ∈ s.buffer, V t) : (s.beginFlush m trigger).Carries P V := by
  rw [beginFlush_eq_sendNext]
  refine carries_sendNext hrepo _ _ _ hw ?_
  intro t ht
  simp only [report, List.nil_append, List.append_nil] at ht
  exact hts t (mem_flatten_chunks ht)

theorem carries_accept (hrepo : m.repo.Maintains P V) {t : Team} (hp : s.phase = .waiting)
    (hw : P s.world) (hts : ∀ u ∈ s.buffer ++ [t], V u) : (s.accept m t).Carries P V := by
  rw [accept_eq]
  split
  · exact carries_beginFlush hrepo _ hw hts
  · refine ⟨hw, ?_⟩
    simpa only [held, hp] using hts

end

end State

/-- A property of the world that calls with acknowledged teams keep is kept by the saver, which
holds and sends no other teams. -/
theorem carries_invariant (m : Setup σ) (P : σ → Prop) (V : Team → Prop)
    (hrepo : m.repo.Maintains P V) :
    Invariant m fun saved s => (∀ t ∈ saved, V t) → s.Carries P V where
  wake h _ := h
  handles _ h := h
  save t h hp hsaved := by
    rw [List.forall_mem_append] at hsaved
    have hs := h hsaved.1
    exact State.carries_accept hrepo hp hs.1 (List.forall_mem_append.2 ⟨hs.buffer hp, hsaved.2⟩)
  tick h hp _ hsaved :=
    State.carries_beginFlush hrepo .interval (h hsaved).1 ((h hsaved).buffer hp)
  abandon h _ _ := h
  shut h hp hsaved := State.carries_beginFlush hrepo _ (h hsaved).1 ((h hsaved).buffer hp)
  answer h hw _ hsaved := by
    have hs := (h hsaved).2
    simp only [State.held, hw] at hs
    exact State.carries_sendNext hrepo _ _ _ (h hsaved).1 hs

/-- The calls of a saver, made one after the other, explain the world, and all their teams were
acknowledged. -/
def Explained (repo : Repo σ) (world : σ) (V : Team → Prop) (r : Recorded σ) : Prop :=
  repo.Replays world r.calls r.world ∧ ∀ c ∈ r.calls, ∀ t ∈ c.batch, V t

theorem explained_call {repo : Repo σ} {world : σ} {V : Team → Prop} {r : Recorded σ}
    (h : Explained repo world V r) {ts : List Team} (hts : ∀ t ∈ ts, V t) :
    Explained repo world V (repo.recorded r ts).1 := by
  refine ⟨h.1.call ts, ?_⟩
  intro c hc
  rcases List.mem_append.1 hc with hc | hc
  · exact h.2 c hc
  · obtain rfl := List.mem_singleton.1 hc
    exact hts

/-- At every point of a run in which the world does not change on its own, the calls explain the
world. -/
theorem explained_invariant (m : Setup σ) (world : σ) (V : Team → Prop) :
    Invariant m.recorded fun saved s =>
      (∀ t ∈ saved, V t) → s.Carries (Explained m.repo world V) V :=
  carries_invariant m.recorded _ V fun _ _ h hts => explained_call h hts

/-! ## What is reported at the end -/

def Entry.unsaved? : Entry → Option Nat
  | .unsaved count => some count
  | _ => none

/-- The first number of teams that a log reports as never stored; zero if it reports none. -/
def unsavedIn (log : List Entry) : Nat :=
  (log.findSome? Entry.unsaved?).getD 0

namespace State

/-- The report that a saver has made about teams that were never stored: none before it has closed,
and then none if there are none. -/
def unsaved? (s : State σ) : Option Nat :=
  match s.phase with
  | .closed => if s.buffer = [] then none else some s.buffer.length
  | _ => none

/-- The log tells of the teams that were never stored. -/
def Honest (s : State σ) : Prop :=
  s.log.findSome? Entry.unsaved? = s.unsaved?

section

variable {m : Setup σ} {s : State σ}

theorem Honest.silent (h : s.Honest) (hp : s.phase ≠ .closed) :
    s.log.findSome? Entry.unsaved? = none := by
  rw [h, unsaved?]
  split
  · exact absurd ‹_› hp
  · rfl

theorem honest_finish (trigger : Trigger) (pending : Nat) (failed : List Team)
    (h : s.log.findSome? Entry.unsaved? = none) : (s.finish m trigger pending failed).Honest := by
  have hlog : (s.log ++ (if failed = [] then [] else
      [Entry.incomplete trigger failed.length pending])).findSome? Entry.unsaved? = none := by
    rw [List.findSome?_append, h, Option.none_or]
    split <;> rfl
  cases trigger with
  | capacity => exact hlog
  | interval => exact hlog
  | shutdown =>
    have hend (ts : List Team) : ((if ts = [] then [] else [Entry.unsaved ts.length]) ++
        [Entry.closed]).findSome? Entry.unsaved? = if ts = [] then none else some ts.length := by
      split <;> rfl
    exact List.findSome?_append.trans ((congrArg (Option.or · _) hlog).trans (hend _))

theorem honest_sendNext (trigger : Trigger) (pending index : Nat) (failed : List Team)
    (cs : List (List Team)) (h : s.log.findSome? Entry.unsaved? = none) :
    (s.sendNext m trigger pending index failed cs).Honest := by
  cases cs with
  | nil => exact honest_finish _ _ _ h
  | cons c cs => exact h

theorem honest_beginFlush (trigger : Trigger) (h : s.log.findSome? Entry.unsaved? = none) :
    (s.beginFlush m trigger).Honest := by
  rw [beginFlush_eq_sendNext]
  refine honest_sendNext _ _ _ _ _ ?_
  simp only [report, List.findSome?_append, h, Option.none_or, List.findSome?_cons,
    Entry.unsaved?]
  split
  · rw [discard]
    split <;> rfl
  · rfl

theorem honest_takeAnswer {w : Writing} (h : s.log.findSome? Entry.unsaved? = none) :
    (s.takeAnswer m w).Honest := by
  refine honest_sendNext _ _ _ _ _ ?_
  rw [report, List.findSome?_append, h, Option.none_or]
  cases w.outcome <;> rfl

theorem honest_accept (t : Team) (hp : s.phase = .waiting) (h : s.Honest) :
    (s.accept m t).Honest := by
  have hs := h.silent (by simp [hp])
  rw [accept_eq]
  split
  · exact honest_beginFlush _ hs
  · simpa only [Honest, unsaved?, hp] using h

end

end State

theorem honest_invariant (m : Setup σ) : Invariant m fun _ s => s.Honest where
  wake h _ := h
  handles _ h := h
  save t h hp := State.honest_accept t hp h
  tick h hp _ := State.honest_beginFlush _ (h.silent (by simp [hp]))
  abandon h hp _ := by
    have hs := h.silent (by simp [hp])
    simp [State.Honest, State.report, State.unsaved?, hp, List.findSome?_append, hs, Entry.unsaved?]
  shut h hp := State.honest_beginFlush _ (h.silent (by simp [hp]))
  answer h hw _ := State.honest_takeAnswer (h.silent (by simp [hw]))

/-- A closed saver has reported how many teams are left in its buffer. -/
theorem State.Honest.unsavedIn_eq {s : State σ} (h : s.Honest) (hp : s.phase = .closed) :
    unsavedIn s.log = s.buffer.length := by
  rw [unsavedIn, h, State.unsaved?]
  simp only [hp]
  split
  · simp [*]
  · rfl

/-! ## When nothing is refused -/

namespace State

/-- Nothing that was sent has come back, and a flush has the whole buffer in hand. -/
def Smooth (s : State σ) : Prop :=
  match s.phase with
  | .waiting => True
  | .writing w => w.failed = [] ∧ kept w.chunk w.outcome = [] ∧ s.buffer = []
  | .closed => s.buffer = []

/-- All acknowledged teams have been sent in order, as the world shows, but for those that are
held. -/
def InOrder (shows : σ → List Team → Prop) (saved : List Team) (s : State σ) : Prop :=
  s.Smooth ∧ ∃ sent, shows s.world sent ∧ sent ++ s.held = saved

section

variable {m : Setup σ} {shows : σ → List Team → Prop} {all saved : List Team} {s : State σ}

theorem InOrder.buffer (h : s.InOrder shows saved) (hp : s.phase = .waiting) :
    ∃ sent, shows s.world sent ∧ sent ++ s.buffer = saved := by
  simpa only [InOrder, held, hp] using h.2

theorem InOrder.of_closed (h : s.InOrder shows saved) (hp : s.phase = .closed) :
    s.buffer = [] ∧ shows s.world saved := by
  obtain ⟨hsmooth, sent, hw, hsent⟩ := h
  simp only [Smooth, hp] at hsmooth
  simp only [held, hp, hsmooth, List.append_nil] at hsent
  exact ⟨hsmooth, hsent ▸ hw⟩

theorem inOrder_sendNext {sent : List Team} {cs : List (List Team)}
    (hrepo : m.repo.Takes shows all) (hall : saved <+: all) (trigger : Trigger)
    (pending index : Nat) (hb : s.buffer = []) (hw : shows s.world sent)
    (hsent : sent ++ cs.flatten = saved) :
    (s.sendNext m trigger pending index [] cs).InOrder shows saved := by
  cases cs with
  | nil =>
    have hs : shows s.world sent ∧ sent ++ ([] ++ s.buffer) = saved := by
      simpa [hb] using And.intro hw hsent
    cases trigger with
    | capacity => exact ⟨trivial, sent, hs⟩
    | interval => exact ⟨trivial, sent, hs⟩
    | shutdown => exact ⟨hb, sent, hs⟩
  | cons chunk rest =>
    have hpre : sent ++ chunk <+: all := by
      refine List.IsPrefix.trans ⟨rest.flatten, ?_⟩ hall
      simpa using hsent
    obtain ⟨⟨ids, hok⟩, hshows⟩ := hrepo _ _ _ hw hpre
    have hkept : kept chunk (m.repo s.world chunk).2.outcome = [] := by rw [hok, kept]
    refine ⟨⟨rfl, hkept, hb⟩, sent ++ chunk, hshows, ?_⟩
    simp only [sendNext, held, hkept, hb]
    simpa using hsent

theorem inOrder_beginFlush (hm : 0 < m.chunkSize) (hrepo : m.repo.Takes shows all)
    (hall : saved <+: all) (trigger : Trigger)
    (h : ∃ sent, shows s.world sent ∧ sent ++ s.buffer = saved) :
    (s.beginFlush m trigger).InOrder shows saved := by
  obtain ⟨sent, hw, hsent⟩ := h
  rw [beginFlush_eq m hm]
  exact inOrder_sendNext hrepo hall _ _ _ rfl hw (by rw [flatten_chunks hm, hsent])

theorem inOrder_takeAnswer (hrepo : m.repo.Takes shows all) (hall : saved <+: all)
    {w : Writing} (hw : s.phase = .writing w) (h : s.InOrder shows saved) :
    (s.takeAnswer m w).InOrder shows saved := by
  obtain ⟨hsmooth, sent, hshows, hsent⟩ := h
  simp only [Smooth, hw] at hsmooth
  obtain ⟨hfailed, hkept, hb⟩ := hsmooth
  simp only [held, hw, hfailed, hkept, hb] at hsent
  rw [takeAnswer, hfailed, hkept]
  exact inOrder_sendNext hrepo hall _ _ _ hb hshows (by simpa using hsent)

theorem inOrder_accept (hm : 0 < m.chunkSize) (hrepo : m.repo.Takes shows all) {t : Team}
    (hall : saved ++ [t] <+: all) (hp : s.phase = .waiting) (h : s.InOrder shows saved) :
    (s.accept m t).InOrder shows (saved ++ [t]) := by
  obtain ⟨sent, hw, hsent⟩ := h.buffer hp
  have hs : sent ++ (s.buffer ++ [t]) = saved ++ [t] := by rw [← List.append_assoc, hsent]
  rw [accept_eq]
  split
  · exact inOrder_beginFlush hm hrepo hall _ ⟨sent, hw, hs⟩
  · refine ⟨?_, sent, hw, ?_⟩
    · simp only [Smooth, hp]
    · simpa only [held, hp] using hs

end

end State

/-- As long as the acknowledged teams are the first of some teams that the repo takes in order, in
whatever batches, nothing that is sent comes back. -/
theorem inOrder_invariant (m : Setup σ) (hm : 0 < m.chunkSize) (shows : σ → List Team → Prop)
    (all : List Team) (hrepo : m.repo.Takes shows all) :
    Invariant m fun saved s => saved <+: all → s.InOrder shows saved where
  wake h _ := h
  handles _ h := h
  save _ h hp hall :=
    State.inOrder_accept hm hrepo hall hp (h ((List.prefix_append ..).trans hall))
  tick h hp _ hall := State.inOrder_beginFlush hm hrepo hall .interval ((h hall).buffer hp)
  abandon h _ _ := h
  shut h hp hall := State.inOrder_beginFlush hm hrepo hall .shutdown ((h hall).buffer hp)
  answer h hw _ hall := State.inOrder_takeAnswer hrepo hall hw (h hall)

end Saver

end Roster
