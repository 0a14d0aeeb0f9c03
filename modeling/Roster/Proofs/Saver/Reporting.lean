import Roster.Proofs.Saver.Chronicle
import Roster.Proofs.Saver.Sending
import Roster.Proofs.Store.Identifiers

/-!
What the log tells of teams. For each flush it tells how many teams were given, and where each of
them went: written, refused and kept, or dropped. So at the end of a run the log shows how many of
the acknowledged teams were stored, however often they were sent.
-/

namespace Roster

variable {σ : Type}

/-- Of a batch that is stored each team gets an identifier. -/
def Repo.Counts (repo : Repo σ) : Prop :=
  ∀ w ts ids, (repo w ts).2.outcome = .ok ids → ids.length = ts.length

theorem Store.counts_repo : Store.repo.Counts := by
  intro s ts ids h
  obtain ⟨ids', s', hadd, hins⟩ | ⟨e, hrefused⟩ := s.addTeams_inserts ts
  · simp only [repo, hadd] at h
    cases h
    exact hins.length_ids
  · simp only [repo, hrefused] at h
    cases h

namespace Saver

/-! ## What a report counts -/

namespace Entry

def writtenCount : Entry → Nat
  | .written _ count => count
  | _ => 0

def refusedCount : Entry → Nat
  | .failed _ size _ => size
  | _ => 0

def droppedCount : Entry → Nat
  | .discarded count _ => count
  | _ => 0

def incomplete? : Entry → Option Nat
  | .incomplete _ count _ => some count
  | _ => none

/-- A report that counts no teams of a flush and does not begin one. -/
structure IsAside (e : Entry) : Prop where
  written : e.writtenCount = 0
  refused : e.refusedCount = 0
  dropped : e.droppedCount = 0
  incomplete : e.incomplete? = none
  flush : e.flush? = none

theorem isAside_abandoned : abandoned.IsAside :=
  ⟨rfl, rfl, rfl, rfl, rfl⟩

theorem isAside_unsaved (count : Nat) : (unsaved count).IsAside :=
  ⟨rfl, rfl, rfl, rfl, rfl⟩

theorem isAside_closed : closed.IsAside :=
  ⟨rfl, rfl, rfl, rfl, rfl⟩

end Entry

def total (count : Entry → Nat) (log : List Entry) : Nat :=
  (log.map count).sum

@[simp] theorem total_nil (count : Entry → Nat) : total count [] = 0 := rfl

@[simp] theorem total_cons (count : Entry → Nat) (e : Entry) (log : List Entry) :
    total count (e :: log) = count e + total count log := by
  simp [total]

@[simp] theorem total_append (count : Entry → Nat) (log log' : List Entry) :
    total count (log ++ log') = total count log + total count log' := by
  simp [total]

/-- The teams of a chunk are written or kept. -/
theorem Entry.counts_ofAnswer {chunk : List Team} {outcome : Except StoreError (List UInt64)}
    (index : Nat) (h : ∀ ids, outcome = .ok ids → ids.length = chunk.length) :
    let e := Entry.ofAnswer index chunk outcome
    e.writtenCount + (kept chunk outcome).length = chunk.length ∧
      e.refusedCount = (kept chunk outcome).length ∧ e.droppedCount = 0 ∧ e.incomplete? = none ∧
      e.flush? = none := by
  cases outcome with
  | ok ids => exact ⟨h ids rfl, rfl, rfl, rfl, rfl⟩
  | error e => exact ⟨Nat.zero_add _, rfl, rfl, rfl, rfl⟩

theorem total_of_aside {es : List Entry} (hes : ∀ e ∈ es, e.IsAside) :
    total Entry.writtenCount es = 0 ∧ total Entry.refusedCount es = 0 ∧
      total Entry.droppedCount es = 0 := by
  induction es with
  | nil => exact ⟨rfl, rfl, rfl⟩
  | cons e es ih =>
    obtain ⟨he, hes⟩ := List.forall_mem_cons.1 hes
    obtain ⟨hwritten, hrefused, hdropped⟩ := ih hes
    simp only [total_cons, he.written, he.refused, he.dropped, hwritten, hrefused, hdropped,
      and_self]

/-! ## Accounts of flushes -/

/-- What a log tells of a flush: why it began, how many teams it was given, and what was reported
then, until the next flush began. -/
structure Account where
  trigger : Trigger
  pending : Nat
  reports : List Entry := []

def Account.tell : List Account → Entry → List Account
  | as, .flushing trigger pending => { trigger, pending } :: as
  | [], _ => []
  | a :: as, e => { a with reports := a.reports ++ [e] } :: as

/-- The accounts of all flushes that a log tells of, the latest first. -/
def accounts (log : List Entry) : List Account :=
  log.foldl Account.tell []

namespace Account

/-- The teams of a flush were written, refused or dropped; if some were refused, it is reported at
the end how many. -/
structure Balances (a : Account) : Prop where
  pending : a.pending = total Entry.writtenCount a.reports + total Entry.refusedCount a.reports +
    total Entry.droppedCount a.reports
  incomplete : a.reports.filterMap Entry.incomplete? =
    if total Entry.refusedCount a.reports = 0 then [] else [total Entry.refusedCount a.reports]

structure Open (a : Account) (failed : List Team) (cs : List (List Team)) : Prop where
  pending : a.pending = total Entry.writtenCount a.reports + failed.length +
    total Entry.droppedCount a.reports + cs.flatten.length
  refused : total Entry.refusedCount a.reports = failed.length
  incomplete : a.reports.filterMap Entry.incomplete? = []

variable {a : Account} {failed : List Team} {cs : List (List Team)}

theorem tell_of_flush?_eq_none {e : Entry} (he : e.flush? = none) (a : Account)
    (as : List Account) : tell (a :: as) e = { a with reports := a.reports ++ [e] } :: as := by
  cases e with
  | flushing trigger pending => cases he
  | _ => rfl

theorem foldl_tell {es : List Entry} (hes : ∀ e ∈ es, e.flush? = none) (a : Account)
    (as : List Account) :
    es.foldl tell (a :: as) = { a with reports := a.reports ++ es } :: as := by
  induction es generalizing a with
  | nil => simp
  | cons e es ih =>
    obtain ⟨he, hes⟩ := List.forall_mem_cons.1 hes
    rw [List.foldl_cons, tell_of_flush?_eq_none he, ih hes, List.append_assoc]
    rfl

theorem foldl_tell_nil {es : List Entry} (hes : ∀ e ∈ es, e.flush? = none) :
    es.foldl tell [] = [] := by
  induction es with
  | nil => rfl
  | cons e es ih =>
    obtain ⟨he, hes⟩ := List.forall_mem_cons.1 hes
    have hnone : tell [] e = [] := by
      cases e with
      | flushing trigger pending => cases he
      | _ => rfl
    rw [List.foldl_cons, hnone, ih hes]

/-! ### In the course of a flush -/

theorem open_begin (trigger : Trigger) (size : Nat) (ts : List Team) :
    Open ⟨trigger, ts.length, if chunks size ts = [] then discard size ts else []⟩ []
      (chunks size ts) := by
  by_cases h : chunks size ts = []
  · rw [h, if_pos rfl, discard]
    by_cases hts : ts = []
    · subst hts
      exact ⟨rfl, rfl, rfl⟩
    · rw [if_neg hts]
      refine ⟨?_, rfl, rfl⟩
      simp [Entry.writtenCount, Entry.droppedCount]
  · have hs : 0 < size := by
      refine Nat.pos_of_ne_zero ?_
      rintro rfl
      exact h (chunks_zero ts)
    rw [if_neg h]
    refine ⟨?_, rfl, rfl⟩
    simp [flatten_chunks hs]

theorem Open.answer {chunk : List Team} {outcome : Except StoreError (List UInt64)}
    (h : a.Open failed (chunk :: cs)) (index : Nat)
    (houtcome : ∀ ids, outcome = .ok ids → ids.length = chunk.length) :
    Open { a with reports := a.reports ++ [.ofAnswer index chunk outcome] }
      (failed ++ kept chunk outcome) cs := by
  obtain ⟨hpending, hrefused, hincomplete⟩ := h
  obtain ⟨hall, hkept, hdropped, hnone, -⟩ := Entry.counts_ofAnswer index houtcome
  rw [List.flatten_cons, List.length_append] at hpending
  refine ⟨?_, ?_, ?_⟩
  · simp only [total_append, total_cons, total_nil, hdropped, List.length_append]
    omega
  · simp only [total_append, total_cons, total_nil, hkept, hrefused, List.length_append,
      Nat.add_zero]
  · simp [hincomplete, hnone]

theorem Open.finish (h : a.Open failed []) (trigger : Trigger) (pending : Nat) :
    Balances { a with reports := a.reports ++
      if failed = [] then [] else [.incomplete trigger failed.length pending] } := by
  obtain ⟨hpending, hrefused, hincomplete⟩ := h
  by_cases hfailed : failed = []
  · subst hfailed
    rw [if_pos rfl, List.append_nil]
    refine ⟨?_, ?_⟩
    · rw [hrefused]
      exact hpending
    · rw [hrefused]
      exact hincomplete
  · rw [if_neg hfailed]
    refine ⟨?_, ?_⟩
    · simpa [Entry.writtenCount, Entry.refusedCount, Entry.droppedCount, hrefused] using hpending
    · simp [Entry.refusedCount, Entry.incomplete?, hrefused, hincomplete, hfailed]

theorem Balances.aside {es : List Entry} (h : a.Balances) (hes : ∀ e ∈ es, e.IsAside) :
    Balances { a with reports := a.reports ++ es } := by
  obtain ⟨hpending, hincomplete⟩ := h
  obtain ⟨hwritten, hrefused, hdropped⟩ := total_of_aside hes
  have hnone : es.filterMap Entry.incomplete? = [] :=
    List.filterMap_eq_nil_iff.2 fun e he => (hes e he).incomplete
  refine ⟨?_, ?_⟩
  · simpa [hwritten, hrefused, hdropped] using hpending
  · simpa [hrefused, hnone] using hincomplete

end Account

theorem accounts_append (log es : List Entry) :
    accounts (log ++ es) = es.foldl Account.tell (accounts log) :=
  List.foldl_append

/-- Every flush has an account. -/
theorem map_accounts (log : List Entry) :
    (accounts log).reverse.map (fun a => (a.trigger, a.pending)) = flushesOf log := by
  induction log using List.reverseRecOn with
  | nil => rfl
  | append_singleton log e ih =>
    rw [accounts_append, flushesOf, List.filterMap_append, ← flushesOf, ← ih]
    cases e with
    | flushing trigger pending => simp [Account.tell, Entry.flush?]
    | _ => cases accounts log <;> simp [Account.tell, Entry.flush?]

/-! ## What a log tells between flushes and during one -/

structure AtRest (saved : List Team) (log : List Entry) (left : List Team) : Prop where
  balanced : ∀ a ∈ accounts log, a.Balances
  saved : saved.length =
    total Entry.writtenCount log + total Entry.droppedCount log + left.length

structure InFlush (saved : List Team) (log : List Entry) (failed : List Team)
    (cs : List (List Team)) (left : List Team) : Prop where
  balanced : ∃ a as, accounts log = a :: as ∧ a.Open failed cs ∧ ∀ b ∈ as, b.Balances
  saved : saved.length = total Entry.writtenCount log + total Entry.droppedCount log +
    failed.length + cs.flatten.length + left.length

section

variable {saved failed left : List Team} {log : List Entry} {cs : List (List Team)}

theorem AtRest.save (h : AtRest saved log left) (t : Team) :
    AtRest (saved ++ [t]) log (left ++ [t]) := by
  refine ⟨h.balanced, ?_⟩
  rw [List.length_append, List.length_append, h.saved]
  exact Nat.add_assoc ..

theorem AtRest.aside {es : List Entry} (h : AtRest saved log left)
    (hes : ∀ e ∈ es, e.IsAside) : AtRest saved (log ++ es) left := by
  obtain ⟨haccounts, hsaved⟩ := h
  obtain ⟨hwritten, -, hdropped⟩ := total_of_aside hes
  have hnone : ∀ e ∈ es, e.flush? = none := fun e he => (hes e he).flush
  refine ⟨?_, ?_⟩
  · rw [accounts_append]
    cases hlog : accounts log with
    | nil =>
      rw [Account.foldl_tell_nil hnone]
      exact List.forall_mem_nil _
    | cons a as =>
      rw [hlog] at haccounts
      obtain ⟨ha, has⟩ := List.forall_mem_cons.1 haccounts
      rw [Account.foldl_tell hnone]
      exact List.forall_mem_cons.2 ⟨ha.aside hes, has⟩
  · simpa [hwritten, hdropped] using hsaved

theorem AtRest.begin (h : AtRest saved log left) (trigger : Trigger) (size : Nat) :
    InFlush saved (log ++ .flushing trigger left.length ::
      if chunks size left = [] then discard size left else []) [] (chunks size left) [] := by
  have hopen := Account.open_begin trigger size left
  have hnone : ∀ e ∈ (if chunks size left = [] then discard size left else []),
      e.flush? = none := by
    split
    · rw [discard]
      split <;> simp [Entry.flush?]
    · exact List.forall_mem_nil _
  obtain ⟨hbalanced, hsaved⟩ := h
  refine ⟨⟨_, accounts log, ?_, hopen, hbalanced⟩, ?_⟩
  · rw [accounts_append, List.foldl_cons]
    exact Account.foldl_tell hnone ⟨trigger, left.length, []⟩ _
  · have hpending := hopen.pending
    simp only [total_append, total_cons, Entry.writtenCount, Entry.droppedCount,
      List.length_nil] at hpending ⊢
    omega

theorem InFlush.answer {chunk : List Team} {outcome : Except StoreError (List UInt64)}
    (h : InFlush saved log failed (chunk :: cs) left) (index : Nat)
    (houtcome : ∀ ids, outcome = .ok ids → ids.length = chunk.length) :
    InFlush saved (log ++ [.ofAnswer index chunk outcome]) (failed ++ kept chunk outcome) cs
      left := by
  obtain ⟨⟨a, as, haccounts, hopen, has⟩, hsaved⟩ := h
  obtain ⟨hall, -, hdropped, -, hnone⟩ := Entry.counts_ofAnswer index houtcome
  refine ⟨⟨_, as, ?_, hopen.answer index houtcome, has⟩, ?_⟩
  · rw [accounts_append, haccounts]
    exact Account.foldl_tell (List.forall_mem_singleton.2 hnone) a as
  · rw [List.flatten_cons, List.length_append] at hsaved
    simp only [total_append, total_cons, total_nil, hdropped, List.length_append]
    omega

theorem InFlush.finish (h : InFlush saved log failed [] left) (trigger : Trigger)
    (pending : Nat) :
    AtRest saved (log ++ if failed = [] then [] else [.incomplete trigger failed.length pending])
      (failed ++ left) := by
  obtain ⟨⟨a, as, haccounts, hopen, has⟩, hsaved⟩ := h
  refine ⟨?_, ?_⟩
  · rw [accounts_append, haccounts, Account.foldl_tell]
    · exact List.forall_mem_cons.2 ⟨hopen.finish trigger pending, has⟩
    · split <;> simp [Entry.flush?]
  · rw [List.flatten_nil, List.length_nil, Nat.add_zero] at hsaved
    split
    · simpa [Nat.add_assoc] using hsaved
    · simpa [Entry.writtenCount, Entry.droppedCount, Nat.add_assoc] using hsaved

end

/-! ## At every point of a run -/

namespace State

variable {m : Setup σ} {saved failed : List Team} {cs : List (List Team)} {s : State σ}

/-- The log of a saver agrees with what it has acknowledged and what it holds. -/
def Reckoned (saved : List Team) (s : State σ) : Prop :=
  match s.phase with
  | .writing w => (∀ ids, w.outcome = .ok ids → ids.length = w.chunk.length) ∧
    InFlush saved s.log w.failed (w.chunk :: w.rest) s.buffer
  | _ => AtRest saved s.log s.buffer

theorem Reckoned.atRest (h : s.Reckoned saved) (hp : s.phase = .waiting) :
    AtRest saved s.log s.buffer := by
  rwa [Reckoned, hp] at h

theorem reckoned_finish (h : InFlush saved s.log failed [] s.buffer) (trigger : Trigger)
    (pending : Nat) : (s.finish m trigger pending failed).Reckoned saved := by
  have hrest := h.finish trigger pending
  cases trigger with
  | capacity => exact hrest
  | interval => exact hrest
  | shutdown =>
    have hend (ts : List Team) : ∀ e ∈ (if ts = [] then [] else [Entry.unsaved ts.length]) ++
        [Entry.closed], e.IsAside := by
      refine List.forall_mem_append.2 ⟨?_, List.forall_mem_singleton.2 Entry.isAside_closed⟩
      split
      · exact List.forall_mem_nil _
      · exact List.forall_mem_singleton.2 (Entry.isAside_unsaved _)
    exact hrest.aside (hend _)

theorem reckoned_sendNext (hrepo : m.repo.Counts) (h : InFlush saved s.log failed cs s.buffer)
    (trigger : Trigger) (pending index : Nat) :
    (s.sendNext m trigger pending index failed cs).Reckoned saved := by
  cases cs with
  | nil => exact reckoned_finish h trigger pending
  | cons c cs => exact ⟨hrepo s.world c, h⟩

theorem reckoned_beginFlush (hrepo : m.repo.Counts) (h : AtRest saved s.log s.buffer)
    (trigger : Trigger) : (s.beginFlush m trigger).Reckoned saved := by
  rw [beginFlush_eq_sendNext]
  exact reckoned_sendNext hrepo (h.begin trigger m.chunkSize) _ _ _

theorem reckoned_accept (hrepo : m.repo.Counts) (h : s.Reckoned saved) (hp : s.phase = .waiting)
    (t : Team) : (s.accept m t).Reckoned (saved ++ [t]) := by
  have hpushed := (h.atRest hp).save t
  by_cases hfull : m.capacity ≤ (s.buffer ++ [t]).length
  · rw [accept_of_full m hfull]
    exact reckoned_beginFlush hrepo hpushed _
  · rw [accept_of_not_full m hfull]
    simpa only [Reckoned, hp] using hpushed

theorem reckoned_tick (hrepo : m.repo.Counts) (h : s.Reckoned saved) (hp : s.phase = .waiting) :
    (s.tick m).Reckoned saved := by
  refine reckoned_beginFlush hrepo ?_ .interval
  exact h.atRest hp

theorem reckoned_takeAnswer (hrepo : m.repo.Counts) (h : s.Reckoned saved) {w : Writing}
    (hw : s.phase = .writing w) : (s.takeAnswer m w).Reckoned saved := by
  rw [Reckoned, hw] at h
  obtain ⟨houtcome, hflush⟩ := h
  exact reckoned_sendNext hrepo (hflush.answer w.index houtcome) _ _ _

end State

theorem reckoned_invariant (m : Setup σ) (hrepo : m.repo.Counts) :
    Invariant m fun saved s => s.Reckoned saved where
  wake h _ := h
  handles _ h := h
  save t h hp := State.reckoned_accept hrepo h hp t
  tick h hp _ := State.reckoned_tick hrepo h hp
  abandon h hp _ := by
    have hrest := (h.atRest hp).aside (List.forall_mem_singleton.2 Entry.isAside_abandoned)
    simpa only [State.Reckoned, State.report, hp] using hrest
  shut h hp := State.reckoned_beginFlush hrepo (h.atRest hp) _
  answer h hw _ := State.reckoned_takeAnswer hrepo h hw

namespace State

def ended (s : State σ) : List Account :=
  match s.phase with
  | .writing _ => (accounts s.log).tail
  | _ => accounts s.log

/-- The log tells of all teams: of those of each flush that is over, and after closing of all that
were acknowledged. -/
structure Reconciles (saved : List Team) (s : State σ) : Prop where
  flushes : ∀ a ∈ s.ended, a.Balances
  closed : s.phase = .closed →
    saved.length = total Entry.writtenCount s.log + total Entry.droppedCount s.log +
      unsavedIn s.log

theorem Reckoned.reconciles {saved : List Team} {s : State σ} (h : s.Reckoned saved)
    (hs : s.Honest) : s.Reconciles saved := by
  refine ⟨?_, ?_⟩
  · rw [ended]
    rw [Reckoned] at h
    split at h
    · obtain ⟨a, as, haccounts, -, has⟩ := h.2.balanced
      rw [haccounts]
      exact has
    · exact h.balanced
  · intro hp
    rw [Reckoned, hp] at h
    rw [hs.unsavedIn_eq hp]
    exact h.saved

end State

theorem reckoned_start (m : Setup σ) (world : σ) : (start m world).Reckoned [] :=
  ⟨List.forall_mem_nil _, rfl⟩

theorem honest_start (m : Setup σ) (world : σ) : (start m world).Honest := rfl

/-- The log of a saver accounts for every team, whatever the chunk size, the answers of the repo and
the run are. It has an account of every flush. The teams of a flush that is over are reported as
written, refused or dropped, and those that were refused are reported once more at its end. After
closing, all that were acknowledged have been reported as written, dropped or never stored. -/
theorem log_accounts_for_teams (m : Setup σ) (hrepo : m.repo.Counts) (world : σ) :
    (∀ log : List Entry,
      (accounts log).reverse.map (fun a => (a.trigger, a.pending)) = flushesOf log) ∧
    (∀ saved s, Course m world saved s → s.Reconciles saved) ∧
    ∀ ops : List (Op σ),
      ((start m world).after m ops).Reconciles ((start m world).acknowledged m ops) := by
  refine ⟨map_accounts, ?_, ?_⟩
  · intro saved s h
    have hreckoned := (reckoned_invariant m.recorded fun r => hrepo r.world).course
      (reckoned_start ..) (fun _ _ _ h => h) (fun _ _ _ h => h) h
    have hhonest := (honest_invariant m.recorded).course (honest_start ..) (fun _ _ _ h => h)
      (fun _ _ _ h => h) h
    exact hreckoned.reconciles hhonest
  · intro ops
    have hreckoned := (reckoned_invariant m hrepo).after (reckoned_start m world) ops
      fun _ _ _ _ h => h
    have hhonest := @Invariant.after σ m _ [] _ (honest_invariant m) (honest_start m world) ops
      fun _ _ _ _ h => h
    exact hreckoned.reconciles hhonest

def singles : Setup Store :=
  ⟨trial.capacity, trial.interval, trial.chunkSize, Store.repo, trial.capacity_pos,
    trial.interval_pos⟩

/-- No team may be called `c`. -/
def strictStore : Store :=
  { rejected := ["c"] }

/-- The first two teams are flushed, then the third one together with what is left of them; closing
makes the last flush. -/
def singlesOps : List (Op Store) :=
  [.submit 0 (.save ⟨0, "a", "", false⟩), .submit 0 (.save ⟨0, "c", "", false⟩),
    .submit 0 (.save ⟨0, "b", "", false⟩), .submit 0 .close]

/-- One of three teams is refused three times and is never stored. -/
theorem log_accounts_trial :
    let s := (start singles strictStore).after singles singlesOps
    singles.repo.Counts ∧ s.phase = .closed ∧
    (∀ a ∈ s.ended, a.Balances) ∧
    s.ended.map (fun a => (a.pending, total Entry.writtenCount a.reports,
      total Entry.refusedCount a.reports)) = [(1, 0, 1), (2, 1, 1), (2, 1, 1)] ∧
    total Entry.writtenCount s.log = 2 ∧ unsavedIn s.log = 1 ∧
    3 = total Entry.writtenCount s.log + total Entry.droppedCount s.log + unsavedIn s.log := by
  intro s
  have hsaved : ((start singles strictStore).acknowledged singles singlesOps).length = 3 := by cbv
  have hclosed : s.phase = .closed := by
    simp only [s]
    cbv
  have hended : s.ended.map (fun a => (a.pending, total Entry.writtenCount a.reports,
      total Entry.refusedCount a.reports)) = [(1, 0, 1), (2, 1, 1), (2, 1, 1)] := by
    simp only [s]
    cbv
  have hwritten : total Entry.writtenCount s.log = 2 := by
    simp only [s]
    cbv
  have hunsaved : unsavedIn s.log = 1 := by
    simp only [s]
    cbv
  obtain ⟨-, -, hruns⟩ := log_accounts_for_teams singles Store.counts_repo strictStore
  obtain ⟨hflushes, hall⟩ := hruns singlesOps
  rw [hsaved] at hall
  exact ⟨Store.counts_repo, hclosed, hflushes, hended, hwritten, hunsaved, hall hclosed⟩

end Saver

end Roster
