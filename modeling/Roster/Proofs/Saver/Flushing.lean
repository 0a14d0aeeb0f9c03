import Roster.Proofs.Batch
import Roster.Proofs.Saver.Sending

/-!
One flush. Every chunk is sent once, in order, and the refused ones are what it leaves. The owner of
a saver, who takes one answer at a time, comes to the same end.
-/

namespace Roster

variable {σ : Type}

def Call.isRefused (c : Call) : Bool :=
  !c.outcome.isOk

namespace Saver

def Flushed.forget (f : Flushed (Recorded σ)) : Flushed σ :=
  ⟨f.failed, f.log, f.world.world⟩

def refusedBatches (calls : List Call) : List (List Team) :=
  (calls.filter Call.isRefused).map Call.batch

theorem refusedBatches_sublist (calls : List Call) :
    (refusedBatches calls).Sublist (calls.map Call.batch) :=
  List.filter_sublist.map Call.batch

/-- A refused batch is kept whole, and nothing is kept of the others. -/
theorem flatten_refusedBatches (calls : List Call) :
    (refusedBatches calls).flatten = calls.flatMap fun c => kept c.batch c.outcome := by
  induction calls with
  | nil => rfl
  | cons c calls ih =>
    obtain ⟨batch, outcome⟩ := c
    rw [List.flatMap_cons, ← ih]
    cases outcome with
    | ok ids => rfl
    | error e => rfl

/-! ## Sending chunks -/

section

variable (repo : Repo σ)

theorem send_cons (world : σ) (index : Nat) (c : List Team) (cs : List (List Team)) :
    send repo world index (c :: cs) =
      ⟨kept c (repo world c).2.outcome ++ (send repo (repo world c).1 (index + 1) cs).failed,
        .ofAnswer index c (repo world c).2.outcome ::
          (send repo (repo world c).1 (index + 1) cs).log,
        (send repo (repo world c).1 (index + 1) cs).world⟩ :=
  rfl

theorem forget_send (r : Recorded σ) (index : Nat) (cs : List (List Team)) :
    (send repo.recorded r index cs).forget = send repo r.world index cs := by
  induction cs generalizing r index with
  | nil => rfl
  | cons c cs ih =>
    have hrest := ih (repo.recorded r c).1 (index + 1)
    have hworld : (repo.recorded r c).1.world = (repo r.world c).1 := rfl
    rw [hworld] at hrest
    rw [send_cons, send_cons, ← hrest]
    rfl

/-- The calls that sending chunks adds to those made before. -/
theorem calls_send (r : Recorded σ) (index : Nat) (cs : List (List Team)) :
    ∃ calls, (send repo.recorded r index cs).world.calls = r.calls ++ calls ∧
      calls.map Call.batch = cs ∧
      (send repo.recorded r index cs).failed = calls.flatMap fun c => kept c.batch c.outcome := by
  induction cs generalizing r index with
  | nil => exact ⟨[], (List.append_nil _).symm, rfl, rfl⟩
  | cons c cs ih =>
    obtain ⟨calls, hcalls, rfl, hfailed⟩ := ih (repo.recorded r c).1 (index + 1)
    refine ⟨⟨c, (repo r.world c).2.outcome⟩ :: calls, ?_, rfl, ?_⟩
    · rw [send_cons, hcalls]
      exact List.append_assoc ..
    · rw [List.flatMap_cons, ← hfailed]
      rfl

theorem replays_send {world : σ} {r : Recorded σ} (h : repo.Replays world r.calls r.world)
    (index : Nat) (cs : List (List Team)) :
    let after := (send repo.recorded r index cs).world
    repo.Replays world after.calls after.world := by
  induction cs generalizing r index with
  | nil => exact h
  | cons c cs ih => exact ih (h.call c) (index + 1)

theorem flush_eq_send (size : Nat) (world : σ) (ts : List Team) :
    flush repo size world ts =
      ⟨(send repo world 0 (chunks size ts)).failed,
        (if chunks size ts = [] then discard size ts else []) ++
          (send repo world 0 (chunks size ts)).log,
        (send repo world 0 (chunks size ts)).world⟩ := by
  unfold flush
  split
  · rename_i h
    simp only [h, send, if_true, List.append_nil]
  · rename_i h
    simp only [if_neg h, List.nil_append]

theorem forget_flush (size : Nat) (world : σ) (ts : List Team) :
    (flush repo.recorded size { world } ts).forget = flush repo size world ts := by
  have hsend : (send repo.recorded { world } 0 (chunks size ts)).forget =
      send repo world 0 (chunks size ts) := forget_send ..
  rw [flush_eq_send, flush_eq_send, ← hsend]
  rfl

/-- The calls of a flush, one for each chunk. -/
theorem calls_flush (size : Nat) (world : σ) (ts : List Team) :
    let calls := (flush repo.recorded size { world } ts).world.calls
    calls.map Call.batch = chunks size ts ∧
      (flush repo size world ts).failed = (refusedBatches calls).flatten := by
  have hforget := congrArg Flushed.failed (forget_flush repo size world ts)
  rw [← hforget, flush_eq_send]
  obtain ⟨calls, hcalls, hbatches, hfailed⟩ := calls_send repo { world } 0 (chunks size ts)
  rw [List.nil_append] at hcalls
  rw [← flatten_refusedBatches] at hfailed
  simp only [Flushed.forget, hcalls]
  exact ⟨hbatches, hfailed⟩

theorem replays_flush (size : Nat) (world : σ) (ts : List Team) :
    repo.Replays world (flush repo.recorded size { world } ts).world.calls
      (flush repo size world ts).world := by
  have hworld := congrArg Flushed.world (forget_flush repo size world ts)
  rw [← hworld, flush_eq_send]
  exact replays_send (r := { world }) repo .nil 0 (chunks size ts)

end

variable (m : Setup σ)

/-! ## The owner's way through a flush -/

namespace State

/-- The owner that has sent chunks and taken their answers ends the flush as `send` leaves it. -/
theorem await_sendNext (s : State σ) (trigger : Trigger) (pending index : Nat) (failed : List Team)
    (cs : List (List Team)) :
    let sent := send m.repo s.world index cs
    ∃ time, (s.sendNext m trigger pending index failed cs).await m =
      { s with clock := time, world := sent.world, log := s.log ++ sent.log }.finish m trigger
        pending (failed ++ sent.failed) := by
  induction cs generalizing s index failed with
  | nil =>
    have hidle : ∀ w, (s.finish m trigger pending failed).phase ≠ .writing w := by
      intro w
      cases trigger <;> exact nofun
    refine ⟨s.clock, ?_⟩
    rw [sendNext, await_of_idle m hidle, send, List.append_nil, List.append_nil]
  | cons c cs ih =>
    let w : Writing := ⟨trigger, pending, index, c, (m.repo s.world c).2.outcome,
      s.clock + (m.repo s.world c).2.delay, cs, failed⟩
    let s₁ : State σ := { s with world := (m.repo s.world c).1, phase := .writing w }
    obtain ⟨time, hrest⟩ := ih ((s₁.wake w.ends).report [.ofAnswer index c w.outcome]) (index + 1)
      (failed ++ kept c w.outcome)
    refine ⟨time, ?_⟩
    calc
      (s.sendNext m trigger pending index failed (c :: cs)).await m
          = ((s₁.wake w.ends).takeAnswer m w).await m := await_of_writing m rfl
      _ = _ := hrest
      _ = _ := by
        rw [List.append_assoc]
        simp only [report, List.append_assoc]
        cases trigger <;> rfl

/-- The state in which a flush of the buffer that has left the given things comes to its end. -/
def flushed (s : State σ) (trigger : Trigger) (time : Nat) (f : Flushed σ) : State σ :=
  { s with
    clock := time
    buffer := []
    world := f.world
    log := s.log ++ .flushing trigger s.buffer.length :: f.log }

theorem await_beginFlush (s : State σ) (trigger : Trigger) :
    let f := flush m.repo m.chunkSize s.world s.buffer
    ∃ time, (s.beginFlush m trigger).await m =
      (s.flushed trigger time f).finish m trigger s.buffer.length f.failed := by
  rw [beginFlush_eq_sendNext, flush_eq_send]
  obtain ⟨time, hrest⟩ := await_sendNext m
    ({ s with buffer := [] }.report (.flushing trigger s.buffer.length ::
      if chunks m.chunkSize s.buffer = [] then discard m.chunkSize s.buffer else []))
    trigger s.buffer.length 0 [] (chunks m.chunkSize s.buffer)
  refine ⟨time, hrest.trans ?_⟩
  simp only [report, flushed, List.append_assoc, List.cons_append, List.nil_append]

end State

/-- One flush, whatever the repo answers and whatever that depends on. There is a call for each
chunk, also after one that was refused; the batches in order are the teams, and those that were
refused are what is left. With chunks of size zero there are no calls, and nothing is left. A saver
that flushes its buffer does just that. -/
theorem flush_keeps_refused (repo : Repo σ) (size : Nat) (world : σ) (ts : List Team) :
    let f := flush repo size world ts
    let recorded := flush repo.recorded size { world } ts
    let calls := recorded.world.calls
    recorded.forget = f ∧ repo.Replays world calls f.world ∧
    (0 < size →
      calls.length = (ts.length + size - 1) / size ∧
      (∀ c ∈ calls, 0 < c.batch.length ∧ c.batch.length ≤ size) ∧
      calls.flatMap Call.batch = ts ∧
      f.failed = (refusedBatches calls).flatten) ∧
    (size = 0 → calls = [] ∧ f.failed = []) ∧
    ∀ (m : Setup σ) (s : State σ) (trigger : Trigger), m.repo = repo → m.chunkSize = size →
      s.world = world → s.buffer = ts →
      ∃ time, (s.beginFlush m trigger).await m =
        (s.flushed trigger time f).finish m trigger ts.length f.failed := by
  intro f recorded calls
  obtain ⟨hbatches, hfailed⟩ := calls_flush repo size world ts
  refine ⟨forget_flush repo size world ts, replays_flush repo size world ts, ?_, ?_, ?_⟩
  · intro hs
    refine ⟨?_, ?_, ?_, hfailed⟩
    · rw [← length_chunks hs, ← hbatches, List.length_map]
    · intro c hc
      have hmem : c.batch ∈ chunks size ts := hbatches ▸ List.mem_map_of_mem hc
      exact length_of_mem_chunks hmem
    · rw [List.flatMap_def, hbatches, flatten_chunks hs]
  · rintro rfl
    have hnone : calls = [] := by rw [← List.map_eq_nil_iff, hbatches, chunks_zero]
    refine ⟨hnone, hfailed.trans ?_⟩
    exact congrArg (fun calls => (refusedBatches calls).flatten) hnone
  · rintro m s trigger rfl rfl rfl rfl
    exact s.await_beginFlush m trigger

/-- Of five teams in chunks of two, the first chunk and the short last one are refused. -/
theorem flush_keeps_refused_trial :
    let ts : List Team := [⟨1, "a", "", false⟩, ⟨2, "b", "", false⟩, ⟨3, "c", "", false⟩,
      ⟨4, "d", "", false⟩, ⟨5, "e", "", false⟩]
    let world : Rehearsal := { script := { failCalls := [0, 2] } }
    let calls := (flush Rehearsal.repo.recorded 2 { world } ts).world.calls
    0 < 2 ∧ calls.map Call.batch = [ts.take 2, (ts.drop 2).take 2, ts.drop 4] ∧
    calls.length = (ts.length + 2 - 1) / 2 ∧
    (flush Rehearsal.repo 2 world ts).failed = ts.take 2 ++ ts.drop 4 ∧
    (flush Rehearsal.repo 2 world ts).failed = (refusedBatches calls).flatten := by
  intro ts world calls
  obtain ⟨-, -, hflush, -, -⟩ := flush_keeps_refused Rehearsal.repo 2 world ts
  obtain ⟨hlength, -, -, hfailed⟩ := hflush (by decide)
  have hbatches : calls.map Call.batch = [ts.take 2, (ts.drop 2).take 2, ts.drop 4] := by
    simp only [calls, ts]
    cbv
  exact ⟨by decide, hbatches, hlength, by cbv, hfailed⟩

end Saver

end Roster
