import Roster.Proofs.Saver.Capacity
import Roster.Proofs.Saver.Flushing

/-!
What is sent again. The teams that a flush leaves stand in front of newer ones in the next flush,
and only the last chunk of a flush may be short. So each refused chunk of full size is sent again as
it was; a short one is filled up with newer teams.
-/

namespace Roster.Saver

variable {σ : Type} {m : Setup σ} {s s' : State σ}

/-- What is sent of teams that were refused in some of the given batches, and of newer teams behind
them. -/
inductive Resends (size : Nat) (batches : List (List Team)) (newer : List Team) :
    List (List Team) → List (List Team) → Prop where
  | whole {full : List (List Team)} (hfull : ∀ c ∈ full, c.length = size) :
    Resends size batches newer full (full ++ chunks size newer)
  /-- The last batch was short and was refused. -/
  | regrouped {full : List (List Team)} {short : List Team} (hfull : ∀ c ∈ full, c.length = size)
    (hlast : batches.getLast? = some short) (hpos : 0 < short.length)
    (hshort : short.length < size) :
    Resends size batches newer (full ++ [short])
      (full ++ (short ++ newer.take (size - short.length)) ::
        chunks size (newer.drop (size - short.length)))

theorem resends_chunks {size : Nat} (hs : 0 < size) {ts : List Team} {refused : List (List Team)}
    (h : refused.Sublist (chunks size ts)) (newer : List Team) :
    Resends size (chunks size ts) newer refused (chunks size (refused.flatten ++ newer)) := by
  rcases List.eq_nil_or_concat' (chunks size ts) with hnil | ⟨before, c, hcs⟩
  · rw [hnil, List.sublist_nil] at h
    rw [h]
    exact .whole (List.forall_mem_nil _)
  · have hall := length_of_chunks_eq_concat hs hcs
    have hc : c ∈ chunks size ts := by simp [hcs]
    obtain ⟨hpos, hle⟩ := length_of_mem_chunks hc
    rw [hcs] at h ⊢
    obtain ⟨full, last, rfl, hbefore, hlast⟩ := List.sublist_append_iff.1 h
    have hfull : ∀ b ∈ full, b.length = size := fun b hb => hall b (hbefore.subset hb)
    -- among the refused chunks only the last one of all can be short
    rcases List.sublist_singleton.1 hlast with rfl | rfl
    · rw [List.append_nil, chunks_flatten_append hs hfull]
      exact .whole hfull
    · by_cases hlength : c.length = size
      · have hwhole : ∀ b ∈ full ++ [c], b.length = size :=
          List.forall_mem_append.2 ⟨hfull, List.forall_mem_singleton.2 hlength⟩
        rw [chunks_flatten_append hs hwhole]
        exact .whole hwhole
      · rw [List.flatten_append, List.flatten_singleton, List.append_assoc,
          chunks_flatten_append hs hfull, chunks_short_append hs hpos hle]
        exact .regrouped hfull (by simp) hpos (by omega)

namespace Resends

variable {size : Nat} {batches refused sent : List (List Team)} {newer : List Team}

/-- The refused batches of full size are sent first, as they were. -/
theorem full_first (h : Resends size batches newer refused sent) :
    refused.filter (fun c => c.length = size) <+: sent := by
  have hall {full : List (List Team)} (hfull : ∀ c ∈ full, c.length = size) :
      full.filter (fun c => c.length = size) = full := by
    simpa [List.filter_eq_self] using hfull
  cases h with
  | whole hfull =>
    rw [hall hfull]
    exact List.prefix_append ..
  | @regrouped full short hfull hlast hpos hshort =>
    have hnone : [short].filter (fun c => c.length = size) = [] := by
      simp [Nat.ne_of_lt hshort]
    rw [List.filter_append, hall hfull, hnone, List.append_nil]
    exact List.prefix_append ..

end Resends

/-! ## What a flush in progress has sent -/

def State.unsentChunks (s : State σ) : List (List Team) :=
  match s.phase with
  | .writing w => w.rest
  | _ => []

structure Round where
  given : List Team := []
  sent : List (List Team) := []

def Round.next (r : Round) : Happening → Round
  | .saved _ => r
  | .flush _ _ given => { given }
  | .call chunk _ => { r with sent := r.sent ++ [chunk] }

def History.round (h : History) : Round :=
  h.foldl Round.next {}

/-- A round goes with a state: what is still to be sent are the other chunks. -/
def Round.Fits (m : Setup σ) (r : Round) (s : State σ) : Prop :=
  r.sent ++ s.unsentChunks = chunks m.chunkSize r.given

namespace Round

variable {r : Round}

theorem Fits.congr (h : r.Fits m s) (hp : s'.phase = s.phase) : r.Fits m s' := by
  rwa [Fits, State.unsentChunks, hp]

theorem fits_sendNext {trigger : Trigger} {pending index : Nat} {failed : List Team}
    {cs : List (List Team)} (h : r.sent ++ cs = chunks m.chunkSize r.given) :
    ((s.sending m cs).foldl next r).Fits m (s'.sendNext m trigger pending index failed cs) := by
  cases cs with
  | nil => cases trigger <;> exact h
  | cons c cs =>
    rw [List.append_cons] at h
    exact h

theorem fits_beginFlush (s : State σ) (trigger : Trigger) :
    ((s.flushing m trigger).foldl next r).Fits m (s.beginFlush m trigger) := by
  rw [State.beginFlush_eq_sendNext]
  exact fits_sendNext (r := ⟨s.buffer, []⟩) (List.nil_append _)

theorem fits_accept (h : r.Fits m s) (t : Team) :
    ((s.accepting m t).foldl next r).Fits m (s.accept m t) := by
  by_cases hfull : m.capacity ≤ (s.buffer ++ [t]).length
  · rw [State.accepting_of_full m s hfull, State.accept_of_full m hfull]
    exact fits_beginFlush ..
  · rw [State.accepting_of_not_full m s hfull, State.accept_of_not_full m hfull]
    exact h.congr rfl

theorem Fits.turn {new : History} (h : r.Fits m s) (ht : Turn m s new s') :
    (new.foldl next r).Fits m s' := by
  cases ht with
  | wake hnone => exact h.congr rfl
  | alter f => exact h.congr rfl
  | handles handles => exact h.congr rfl
  | abandon hp hh => exact h.congr rfl
  | save t hp => exact fits_accept h t
  | tick hp hd => exact fits_beginFlush { s with due := nextDue m.interval s.due s.clock } _
  | shut hp => exact fits_beginFlush ..
  | answer hw he =>
    rw [Fits, State.unsentChunks, hw] at h
    exact fits_sendNext h

end Round

theorem Chronicle.round_fits {world : σ} {h : History} (hc : Chronicle m (start m world) h s) :
    h.round.Fits m s :=
  hc.foldl (chunks_nil _).symm Round.Fits.turn

/-- The round since a flush, when there has been no other. -/
theorem History.round_of_last_flush (before : History) (trigger : Trigger) (time : Nat)
    (given : List Team) {after : History} (hlast : after.flushes = []) :
    round (before ++ .flush trigger time given :: after) = ⟨given, after.calls.map Call.batch⟩ := by
  have hafter : ∀ r : Round, after.foldl Round.next r =
      ⟨r.given, r.sent ++ after.calls.map Call.batch⟩ := by
    intro r
    induction after generalizing r with
    | nil => simp [calls]
    | cons x after ih =>
      cases x with
      | flush trigger' time' given' => cases hlast
      | saved t => exact ih hlast r
      | call chunk reply =>
        rw [List.foldl_cons, ih hlast]
        simp [Round.next, calls, Happening.call?]
  rw [round, List.foldl_append, List.foldl_cons]
  exact hafter ⟨given, []⟩

theorem History.exists_of_flushes_eq_cons {h : History} {trigger : Trigger} {n : Nat}
    {rest : List (Trigger × Nat)} (hflushes : h.flushes = (trigger, n) :: rest) :
    ∃ (before after : History) (time : Nat) (given : List Team),
      h = before ++ .flush trigger time given :: after ∧ before.flushes = [] ∧
      given.length = n ∧ after.flushes = rest := by
  obtain ⟨before, x, after, rfl, hbefore, hx, hafter⟩ := List.filterMap_eq_cons_iff.1 hflushes
  cases x with
  | flush trigger' time given =>
    cases hx
    exact ⟨before, after, time, given, rfl, List.filterMap_eq_nil_iff.2 hbefore, rfl, hafter⟩
  | _ => cases hx

/-- A flush is given the whole stock, after all chunks of the flush before it have been sent. -/
theorem Chronicle.of_flush {world : σ} {before after : History} {trigger : Trigger} {time : Nat}
    {given : List Team}
    (hc : Chronicle m (start m world) (before ++ .flush trigger time given :: after) s) :
    given = before.stock.all ∧ before.round.sent = chunks m.chunkSize before.round.given := by
  obtain ⟨h, a, b, later, s₁, s₂, hc₁, ht, rfl, rfl⟩ := hc.split
  obtain ⟨hp, -, hbegins⟩ := ht.of_flush
  obtain ⟨hbuffer, -⟩ := hc₁.fits.of_waiting hp
  have hround := hc₁.round_fits
  rw [Round.Fits, State.unsentChunks, hp, List.append_nil] at hround
  cases hbegins with
  | capacity hfull =>
    rw [History.stock, History.round, List.foldl_append, List.foldl_append]
    refine ⟨?_, hround⟩
    rw [hbuffer]
    exact List.append_assoc ..
  | interval hd =>
    rw [List.append_nil]
    exact ⟨hbuffer, hround⟩
  | shutdown =>
    rw [List.append_nil]
    exact ⟨hbuffer, hround⟩

theorem resends_flush (repo : Repo σ) {size : Nat} (hs : 0 < size) (world world' : σ)
    (ts newer : List Team) :
    let f := flush repo size world ts
    let first := (flush repo.recorded size { world } ts).world.calls
    let next := (flush repo.recorded size { world := world' } (f.failed ++ newer)).world.calls
    Resends size (first.map Call.batch) newer (refusedBatches first) (next.map Call.batch) := by
  intro f first next
  obtain ⟨hbatches, hfailed⟩ := calls_flush repo size world ts
  obtain ⟨hnext, -⟩ := calls_flush repo size world' (f.failed ++ newer)
  have hkept : f.failed = (refusedBatches first).flatten := hfailed
  have hsublist := refusedBatches_sublist first
  rw [hbatches] at hsublist
  rw [hnext, hkept, hbatches]
  exact resends_chunks hs hsublist newer

/-- What a flush could not store is sent again by the next one, in front of the teams that came
later: first the refused chunks of full size as they were and in order, then the rest, where only a
short last chunk is changed, by newer teams that are put behind it. This is how two flushes go, and
how any two flushes of a saver go between which there is no other. -/
theorem full_chunks_sent_again (m : Setup σ) (hm : 0 < m.chunkSize) (world : σ) :
    (∀ (world' : σ) (ts newer : List Team),
      let f := flush m.repo m.chunkSize world ts
      let first := (flush m.repo.recorded m.chunkSize { world } ts).world.calls
      let next :=
        (flush m.repo.recorded m.chunkSize { world := world' } (f.failed ++ newer)).world.calls
      (refusedBatches first).filter (fun c => c.length = m.chunkSize) <+: next.map Call.batch ∧
      Resends m.chunkSize (first.map Call.batch) newer (refusedBatches first)
        (next.map Call.batch)) ∧
    (∀ ops : List (Op σ), ∃ h : History, h.TellsOf m world ops) ∧
    ∀ (s : State σ) (before between after : History) trigger time given trigger' time' given',
      Chronicle m (start m world) (before ++ .flush trigger time given ::
        (between ++ .flush trigger' time' given' :: after)) s →
      between.flushes = [] → after.flushes = [] →
      let sent := after.calls.map Call.batch ++ s.unsentChunks
      between.calls.map Call.batch = chunks m.chunkSize given ∧
      given' = (refusedBatches between.calls).flatten ++ between.saves ∧
      (refusedBatches between.calls).filter (fun c => c.length = m.chunkSize) <+: sent ∧
      Resends m.chunkSize (chunks m.chunkSize given) between.saves (refusedBatches between.calls)
        sent := by
  refine ⟨?_, exists_history m world, ?_⟩
  · intro world' ts newer f first next
    have h := resends_flush m.repo hm world world' ts newer
    exact ⟨h.full_first, h⟩
  · intro s before between after trigger time given trigger' time' given' hc hbetween hafter sent
    rw [← List.cons_append, ← List.append_assoc] at hc
    obtain ⟨hgiven, hround⟩ := hc.of_flush
    have hsent := hc.round_fits
    rw [History.stock_of_last_flush _ _ _ _ hbetween, Stock.all, ← flatten_refusedBatches] at hgiven
    rw [History.round_of_last_flush _ _ _ _ hbetween] at hround
    rw [Round.Fits, History.round_of_last_flush _ _ _ _ hafter] at hsent
    have hfirst : between.calls.map Call.batch = chunks m.chunkSize given := hround
    have hsublist := refusedBatches_sublist between.calls
    rw [hfirst] at hsublist
    have hresends := resends_chunks hm hsublist between.saves
    rw [← hgiven, ← hsent] at hresends
    exact ⟨hfirst, hgiven, hresends.full_first, hresends⟩

def pairing : Setup Rehearsal :=
  ⟨5, trial.interval, 2, Rehearsal.repo, by decide, trial.interval_pos⟩

def pairingWorld : Rehearsal :=
  { script := { failCalls := [0, 2] } }

/-- Five teams are saved, then one more, which waits for the timer. -/
def pairingOps : List (Op Rehearsal) :=
  [.together 0 [.save ⟨1, "a", "", false⟩, .save ⟨2, "b", "", false⟩, .save ⟨3, "c", "", false⟩,
    .save ⟨4, "d", "", false⟩, .save ⟨5, "e", "", false⟩], .submit 0 (.save ⟨6, "f", "", false⟩),
    .advance 1000]

/-- The first chunk is sent again; the short third one is, too, with the team that came later. -/
theorem full_chunks_sent_again_trial :
    0 < pairing.chunkSize ∧
    (calls pairing pairingWorld pairingOps).map (fun c => c.batch.map Team.name) =
      [["a", "b"], ["c", "d"], ["e"], ["a", "b"], ["e", "f"]] ∧
    ∃ (before between after : History) (time : Nat) (given : List Team) (time' : Nat)
        (given' : List Team),
      (before ++ .flush .capacity time given ::
        (between ++ .flush .interval time' given' :: after)).TellsOf pairing pairingWorld
          pairingOps ∧
      between.flushes = [] ∧ after.flushes = [] ∧ given.length = 5 ∧ given'.length = 4 ∧
      Resends 2 (chunks 2 given) between.saves (refusedBatches between.calls)
        (after.calls.map Call.batch) := by
  have hcalls : (calls pairing pairingWorld pairingOps).map (fun c => c.batch.map Team.name) =
      [["a", "b"], ["c", "d"], ["e"], ["a", "b"], ["e", "f"]] := by cbv
  have hflushes : flushesOf ((start pairing pairingWorld).after pairing pairingOps).log =
      [(.capacity, 5), (.interval, 4)] := by cbv
  have hover : ((start pairing pairingWorld).after pairing pairingOps).unsentChunks = [] := by cbv
  obtain ⟨-, hruns, hagain⟩ := full_chunks_sent_again pairing (by decide) pairingWorld
  obtain ⟨h, htells⟩ := hruns pairingOps
  obtain ⟨before, rest, time, given, rfl, -, hgiven, hrest⟩ :=
    History.exists_of_flushes_eq_cons (htells.flushes.trans hflushes)
  obtain ⟨between, after, time', given', rfl, hbetween, hgiven', hafter⟩ :=
    History.exists_of_flushes_eq_cons hrest
  obtain ⟨-, -, -, hresends⟩ := hagain _ _ _ _ _ _ _ _ _ _ htells.chronicle hbetween hafter
  rw [hover, List.append_nil] at hresends
  exact ⟨by decide, hcalls, before, between, after, time, given, time', given', htells, hbetween,
    hafter, hgiven, hgiven', hresends⟩

end Roster.Saver
