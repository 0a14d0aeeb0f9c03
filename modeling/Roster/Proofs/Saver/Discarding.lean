import Roster.Proofs.Saver.Invariant

/-!
Teams are dropped only where chunks have size zero. With chunks of any other size no report of a
saver, however it is used and whatever the repo answers, tells of teams that were dropped.
-/

namespace Roster.Saver

variable {σ : Type} {m : Setup σ} {s : State σ}

def Entry.isDiscarded : Entry → Bool
  | .discarded _ _ => true
  | _ => false

def State.Spares (s : State σ) : Prop :=
  ∀ e ∈ s.log, e.isDiscarded = false

namespace State

theorem spares_report {entries : List Entry} (h : s.Spares)
    (hentries : ∀ e ∈ entries, e.isDiscarded = false) : (s.report entries).Spares := by
  intro e he
  obtain he | he := List.mem_append.1 he
  · exact h e he
  · exact hentries e he

theorem spares_finish (trigger : Trigger) (pending : Nat) (failed : List Team) (h : s.Spares) :
    (s.finish m trigger pending failed).Spares := by
  have hincomplete : ∀ e ∈ (if failed = [] then [] else
      [Entry.incomplete trigger failed.length pending]), e.isDiscarded = false := by
    split <;> simp [Entry.isDiscarded]
  have hunsaved (ts : List Team) : ∀ e ∈ (if ts = [] then [] else [Entry.unsaved ts.length]) ++
      [Entry.closed], e.isDiscarded = false := by
    split <;> simp [Entry.isDiscarded]
  have hlog := spares_report h hincomplete
  cases trigger with
  | capacity => exact hlog
  | interval => exact hlog
  | shutdown => exact spares_report hlog (hunsaved _)

theorem spares_sendNext (trigger : Trigger) (pending index : Nat) (failed : List Team)
    (cs : List (List Team)) (h : s.Spares) :
    (s.sendNext m trigger pending index failed cs).Spares := by
  cases cs with
  | nil => exact spares_finish trigger pending failed h
  | cons c cs => exact h

theorem spares_beginFlush (hm : 0 < m.chunkSize) (trigger : Trigger) (h : s.Spares) :
    (s.beginFlush m trigger).Spares := by
  have hempty : { s with buffer := [] }.Spares := h
  rw [beginFlush_eq m hm]
  exact spares_sendNext _ _ _ _ _ (spares_report hempty (by simp [Entry.isDiscarded]))

theorem spares_accept (hm : 0 < m.chunkSize) (t : Team) (h : s.Spares) :
    (s.accept m t).Spares := by
  have hpushed : { s with buffer := s.buffer ++ [t] }.Spares := h
  rw [accept_eq]
  split
  · exact spares_beginFlush hm .capacity hpushed
  · exact hpushed

theorem spares_tick (hm : 0 < m.chunkSize) (h : s.Spares) : (s.tick m).Spares := by
  unfold tick
  exact spares_beginFlush hm .interval h

theorem spares_takeAnswer (w : Writing) (h : s.Spares) : (s.takeAnswer m w).Spares := by
  refine spares_sendNext _ _ _ _ _ (spares_report h ?_)
  cases w.outcome <;> simp [Entry.ofAnswer, Entry.isDiscarded]

end State

theorem spares_invariant (hm : 0 < m.chunkSize) : Invariant m fun _ s => s.Spares where
  wake h _ := h
  handles _ h := h
  save t h _ := State.spares_accept hm t h
  tick h _ _ := State.spares_tick hm h
  abandon h _ _ := State.spares_report h (by simp [Entry.isDiscarded])
  shut h _ := State.spares_beginFlush hm .shutdown h
  answer h _ _ := State.spares_takeAnswer _ h

theorem spares_start (world : σ) : (start m world).Spares := by
  simp [State.Spares, start, Entry.isDiscarded]

/-- No run of a saver with chunks of positive size drops teams. -/
theorem spares_after (hm : 0 < m.chunkSize) (world : σ) (ops : List (Op σ)) :
    ((start m world).after m ops).Spares :=
  @Invariant.after σ m _ [] _ (spares_invariant hm) (spares_start world) ops fun _ _ _ _ h => h

end Roster.Saver
