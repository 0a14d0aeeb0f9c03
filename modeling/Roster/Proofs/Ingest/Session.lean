import Roster.Ingest.Basic
import Roster.Proofs.Text.Encoding

/-!
How a session goes on. The lines of an input are dealt with in order, whatever the pieces in which
its bytes come in, and neither the signal to stop nor an unfinished line has a part in what becomes
of the lines before.
-/

namespace Roster.Ingest

variable {σ : Type}

/-- The lines that are seen. A line that might have gone on is not among them. -/
def Shutdown.lines (input : List UInt8) : Shutdown → List (List UInt8)
  | .never | .abandoned => Text.lines input
  | .afterInput => Text.finishedLines input

def Shutdown.entries : Shutdown → List Entry
  | .never | .abandoned => []
  | .afterInput => [.interrupted]

/-- Whether something happens to the input, be it that time passes without any. -/
def Occurrence.isInput : Occurrence → Bool
  | .arrived _ | .ended | .elapsed _ => true
  | .signalled _ | .abandoned => false

theorem Signal.stops_eq (g : Signal) : g.stops = g.stop := by
  cases g with
  | mk stop held => cases stop <;> cases held <;> rfl

theorem Signal.held_set (g : Signal) (stop : Bool) : (g.set stop).held = g.held := by
  unfold set
  split <;> rfl

namespace Session

variable {m : Saver.Setup σ} {x : Session σ}

/-! ## Lines -/

theorem takeAll_of_over (h : x.result ≠ none) (ls : List (List UInt8)) : x.takeAll m ls = x := by
  cases ls with
  | nil => rfl
  | cons line ls => rw [takeAll, if_pos (Option.isSome_iff_ne_none.2 h)]

theorem takeAll_cons (h : x.result = none) (line : List UInt8) (ls : List (List UInt8)) :
    x.takeAll m (line :: ls) = (x.take m line).takeAll m ls := by
  rw [takeAll, h]
  rfl

theorem takeAll_append (x : Session σ) (ls ls' : List (List UInt8)) :
    x.takeAll m (ls ++ ls') = (x.takeAll m ls).takeAll m ls' := by
  induction ls generalizing x with
  | nil => rfl
  | cons line ls ih =>
    by_cases hx : x.result = none
    · rw [List.cons_append, takeAll_cons hx, takeAll_cons hx, ih]
    · rw [takeAll_of_over hx, takeAll_of_over hx, takeAll_of_over hx]

theorem take_of_error {line : List UInt8} {flaw : Text.Utf8.Flaw}
    (h : Text.Utf8.decode line = .error flaw) :
    x.take m line = { x with result := some (.error (.unreadable flaw)) } := by
  rw [take, h]

theorem take_of_ok {line : List UInt8} {cs : List Char} (h : Text.Utf8.decode line = .ok cs) :
    x.take m line = { x with number := x.number + 1 }.deal m (.ofChars cs) := by
  rw [take, h]

/-- The session with another signal, and with another line begun. -/
def aside (x : Session σ) (signal : Signal) (begun : List UInt8) : Session σ :=
  { x with signal, begun }

theorem aside_self (x : Session σ) : x.aside x.signal x.begun = x := rfl

theorem hand_aside (x : Session σ) (signal : Signal) (begun : List UInt8) (t : Team) :
    (x.aside signal begun).hand m t = (x.hand m t).aside signal begun := by
  unfold hand aside
  rcases x.saver.submit m (.save t) with ⟨s, answer⟩
  cases answer <;> rfl

theorem take_aside (x : Session σ) (signal : Signal) (begun line : List UInt8) :
    (x.aside signal begun).take m line = (x.take m line).aside signal begun := by
  cases h : Text.Utf8.decode line with
  | error flaw =>
    rw [take_of_error h, take_of_error h]
    rfl
  | ok cs =>
    rw [take_of_ok h, take_of_ok h]
    cases Line.ofChars cs with
    | team t => exact hand_aside { x with number := x.number + 1 } signal begun t
    | _ => rfl

theorem takeAll_aside (x : Session σ) (signal : Signal) (begun : List UInt8)
    (ls : List (List UInt8)) :
    (x.aside signal begun).takeAll m ls = (x.takeAll m ls).aside signal begun := by
  induction ls generalizing x with
  | nil => rfl
  | cons line ls ih =>
    by_cases hx : x.result = none
    · have hx' : (x.aside signal begun).result = none := hx
      rw [takeAll_cons hx, takeAll_cons hx', take_aside, ih]
    · have hx' : (x.aside signal begun).result ≠ none := hx
      rw [takeAll_of_over hx, takeAll_of_over hx']

theorem begun_takeAll (x : Session σ) (ls : List (List UInt8)) :
    (x.takeAll m ls).begun = x.begun := by
  have h := takeAll_aside (m := m) x x.signal x.begun ls
  rw [aside_self] at h
  rw [h]
  rfl

theorem result_take (h : x.result = none) (line : List UInt8) :
    (x.take m line).result = none ∨ ∃ e, (x.take m line).result = some (.error e) := by
  cases hdecode : Text.Utf8.decode line with
  | error flaw =>
    rw [take_of_error hdecode]
    exact .inr ⟨_, rfl⟩
  | ok cs =>
    rw [take_of_ok hdecode]
    cases Line.ofChars cs with
    | team t =>
      rw [deal, hand]
      split
      · exact .inr ⟨_, rfl⟩
      · exact .inl h
    | _ => exact .inl h

/-- What lines come to is an error if it is anything yet. -/
theorem result_takeAll (h : x.result = none) (ls : List (List UInt8)) :
    (x.takeAll m ls).result = none ∨ ∃ e, (x.takeAll m ls).result = some (.error e) := by
  induction ls generalizing x with
  | nil => exact .inl h
  | cons line ls ih =>
    rw [takeAll_cons h]
    obtain hnone | ⟨e, he⟩ := result_take (m := m) h line
    · exact ih hnone
    · rw [takeAll_of_over (by rw [he]; exact Option.some_ne_none _)]
      exact .inr ⟨e, he⟩

/-! ## Bytes -/

theorem step_arrived (x : Session σ) (bytes : List UInt8) :
    x.step m (.arrived bytes) =
      (x.takeAll m (Text.finishedLines (x.begun ++ bytes))).aside x.signal
        (Text.splitLines (x.begun ++ bytes)).2 :=
  takeAll_aside x _ _ _

theorem step_arrived_nil (h : Text.lineFeed ∉ x.begun) : x.step m (.arrived []) = x := by
  rw [step_arrived, List.append_nil, Text.finishedLines, Text.splitLines_of_notMem h]
  rfl

/-- It does not matter in how many pieces bytes come in. -/
theorem step_arrived_append (x : Session σ) (bytes more : List UInt8) :
    x.step m (.arrived (bytes ++ more)) = (x.step m (.arrived bytes)).step m (.arrived more) := by
  simp only [step_arrived, Text.finishedLines, ← List.append_assoc,
    Text.splitLines_append (x.begun ++ bytes), List.map_append, takeAll_append]
  rw [takeAll_aside]
  rfl

theorem after_cons (x : Session σ) (o : Occurrence) (os : List Occurrence) :
    x.after m (o :: os) = (x.step m o).after m os := rfl

theorem after_append (x : Session σ) (os os' : List Occurrence) :
    x.after m (os ++ os') = (x.after m os).after m os' :=
  List.foldl_append

theorem after_arrived (h : Text.lineFeed ∉ x.begun) (pieces : List (List UInt8)) :
    x.after m (pieces.map .arrived) = x.step m (.arrived pieces.flatten) := by
  induction pieces generalizing x with
  | nil => exact (step_arrived_nil h).symm
  | cons bytes pieces ih =>
    have hrest : Text.lineFeed ∉ (x.step m (.arrived bytes)).begun := by
      rw [step_arrived]
      exact (Text.lineFeed_notMem_splitLines _).2
    rw [List.flatten_cons, step_arrived_append, ← ih hrest]
    rfl

theorem complete_aside (x : Session σ) (signal : Signal) (begun : List UInt8) :
    (x.aside signal begun).complete = x.complete.aside signal begun := by
  cases h : x.result <;> simp [complete, aside, h]

theorem begun_complete (x : Session σ) : x.complete.begun = x.begun := by
  cases h : x.result <;> simp [complete, h]

theorem step_ended_aside (x : Session σ) (signal : Signal) (begun : List UInt8) :
    (x.aside signal begun).step m .ended =
      ((x.takeAll m (if begun = [] then [] else [begun])).complete).aside signal begun := by
  have hbegun : (x.aside signal begun).begun = begun := rfl
  rw [step, hbegun, takeAll_aside, complete_aside]

theorem idle_of_over (h : x.result ≠ none) (time : Nat) : x.idle m time = x := by
  rw [idle, if_pos (Option.isSome_iff_ne_none.2 h)]

theorem idle_of_none (h : x.result = none) (time : Nat) :
    x.idle m time = { x with saver := x.saver.advance m time } := by
  rw [idle, h]
  rfl

theorem idle_aside (x : Session σ) (signal : Signal) (begun : List UInt8) (time : Nat) :
    (x.aside signal begun).idle m time = (x.idle m time).aside signal begun := by
  by_cases hx : x.result = none
  · have hx' : (x.aside signal begun).result = none := hx
    rw [idle_of_none hx, idle_of_none hx']
    rfl
  · have hx' : (x.aside signal begun).result ≠ none := hx
    rw [idle_of_over hx, idle_of_over hx']

theorem begun_idle (x : Session σ) (time : Nat) : (x.idle m time).begun = x.begun := by
  unfold idle
  split <;> rfl

/-! ## The signal -/

theorem heed_of_not_stop (h : x.signal.stop = false) : x.heed = x := by
  rw [heed, Signal.stops_eq, h]
  simp

theorem step_input {o : Occurrence} (h : o.isInput = true) (x : Session σ) (signal : Signal) :
    (x.aside signal x.begun).step m o = (x.step m o).aside signal (x.step m o).begun := by
  cases o with
  | arrived bytes =>
    rw [step_arrived, step_arrived, takeAll_aside]
    rfl
  | ended =>
    rw [step_ended_aside, step, begun_complete, begun_takeAll]
  | elapsed time =>
    rw [step, step, idle_aside, begun_idle]
  | signalled stop => cases h
  | abandoned => cases h

theorem signal_step {o : Occurrence} (h : o.isInput = true) (x : Session σ) :
    (x.step m o).signal = x.signal := by
  have hstep := step_input (m := m) h x x.signal
  rw [aside_self] at hstep
  rw [hstep]
  rfl

/-- Whatever happens to the signal, if it is not given by somebody who is left, leaves everything
else alone, and brings nobody back. -/
theorem step_silent {o : Occurrence} (h : o.isInput = false) (hstop : x.signal.stop = false)
    (ho : x.signal.held = true → o ≠ .signalled true) :
    ∃ signal : Signal, signal.stop = false ∧
      (signal.held = true → x.signal.held = true ∧ o ≠ .abandoned) ∧
      x.step m o = x.aside signal x.begun := by
  cases o with
  | arrived bytes => cases h
  | ended => cases h
  | elapsed time => cases h
  | signalled stop =>
    have hset : (x.signal.set stop).stop = false := by
      cases hheld : x.signal.held with
      | true =>
        rw [Signal.set, if_pos hheld]
        cases stop with
        | false => rfl
        | true => exact absurd rfl (ho hheld)
      | false =>
        rw [Signal.set, hheld]
        exact hstop
    refine ⟨x.signal.set stop, hset, ?_, heed_of_not_stop hset⟩
    rw [Signal.held_set]
    exact fun hheld => ⟨hheld, by simp⟩
  | abandoned =>
    exact ⟨⟨x.signal.stop, false⟩, hstop, fun hheld => absurd hheld Bool.false_ne_true,
      heed_of_not_stop hstop⟩

/-- As long as the signal is not given by somebody who is left, only what happens to the input
matters. -/
theorem after_silent {os : List Occurrence} (hstop : x.signal.stop = false)
    (h : x.signal.held = true → Occurrence.signalled true ∉ os.takeWhile (· ≠ .abandoned))
    (signal : Signal) :
    (x.aside signal x.begun).after m (os.filter Occurrence.isInput) =
      (x.after m os).aside signal (x.after m os).begun := by
  induction os generalizing x with
  | nil => rfl
  | cons o os ih =>
    have hsplit (hne : o ≠ .abandoned) (hheld : x.signal.held = true) :
        o ≠ .signalled true ∧ Occurrence.signalled true ∉ os.takeWhile (· ≠ .abandoned) := by
      have hnot := h hheld
      rw [List.takeWhile_cons_of_pos (by simpa using hne), List.mem_cons, not_or] at hnot
      exact ⟨Ne.symm hnot.1, hnot.2⟩
    cases ho : o.isInput with
    | true =>
      have hne : o ≠ .abandoned := by
        rintro rfl
        cases ho
      have hsignal := signal_step (m := m) ho x
      rw [List.filter_cons_of_pos ho, after_cons, after_cons, step_input ho]
      refine @ih (x.step m o) ?_ ?_
      · rw [hsignal]
        exact hstop
      · rw [hsignal]
        exact fun hheld => (hsplit hne hheld).2
    | false =>
      have hnot : x.signal.held = true → o ≠ .signalled true := by
        rintro hheld rfl
        exact (hsplit (by simp) hheld).1 rfl
      obtain ⟨g, hg, hkeeps, hstep⟩ := step_silent (m := m) ho hstop hnot
      rw [List.filter_cons_of_neg (by simp [ho]), after_cons, hstep]
      exact @ih (x.aside g x.begun) hg fun hheld => (hsplit (hkeeps hheld).2 (hkeeps hheld).1).2

theorem signal_heed (x : Session σ) : x.heed.signal = x.signal := by
  unfold heed
  split
  · rfl
  · split <;> rfl

theorem held_after {os : List Occurrence} (hheld : x.signal.held = true)
    (h : Occurrence.abandoned ∉ os) : (x.after m os).signal.held = true := by
  induction os generalizing x with
  | nil => exact hheld
  | cons o os ih =>
    rw [List.mem_cons, not_or] at h
    refine @ih (x.step m o) ?_ h.2
    cases ho : o.isInput with
    | true =>
      rw [signal_step ho]
      exact hheld
    | false =>
      cases o with
      | signalled stop =>
        rw [step, signal_heed]
        exact (Signal.held_set ..).trans hheld
      | abandoned => exact absurd rfl h.1
      | _ => cases ho

/-! ## Results -/

theorem ingested_aside (x : Session σ) (signal : Signal) (begun : List UInt8) :
    (x.aside signal begun).ingested = x.ingested := rfl

theorem ingested_complete (x : Session σ) : x.complete.ingested = x.ingested := by
  cases h : x.result <;> simp [complete, ingested, h]

/-- Nothing that happens later makes a difference to a session that is over. -/
theorem after_of_over (h : x.result ≠ none) (os : List Occurrence) :
    (x.after m os).ingested = x.ingested := by
  induction os generalizing x with
  | nil => rfl
  | cons o os ih =>
    have hstep : ∃ signal begun, x.step m o = x.aside signal begun := by
      have hsome := Option.isSome_iff_ne_none.2 h
      cases o with
      | arrived bytes =>
        rw [step_arrived, takeAll_of_over h]
        exact ⟨_, _, rfl⟩
      | ended =>
        rw [step, takeAll_of_over h, complete, if_pos hsome]
        exact ⟨_, _, x.aside_self.symm⟩
      | elapsed time =>
        rw [step, idle_of_over h]
        exact ⟨_, _, x.aside_self.symm⟩
      | signalled stop => exact ⟨_, _, if_pos hsome⟩
      | abandoned => exact ⟨_, _, if_pos hsome⟩
    obtain ⟨signal, begun, hstep⟩ := hstep
    have hrest := @ih (x.aside signal begun) h
    rw [after_cons, hstep]
    exact hrest

theorem heed_cases (x : Session σ) :
    x.heed = x ∨ (x.heed.result ≠ none ∧ x.heed.saver = x.saver) := by
  unfold heed
  split
  · exact .inl rfl
  · split
    · exact .inr ⟨Option.some_ne_none _, rfl⟩
    · exact .inl rfl

theorem ingested_heed (h : x.signal.stop = true) :
    x.heed.ingested =
      { x.ingested with log := x.log ++ if x.result = none then [.interrupted] else [] } := by
  rw [heed, Signal.stops_eq, h]
  cases hx : x.result <;> simp [ingested, hx]

end Session

variable {m : Saver.Setup σ}

open Session (start)

/-- What ingesting comes to if nobody who is left gives the signal to stop. -/
theorem attend_silent (s : Saver.State σ) {os : List Occurrence}
    (h : Occurrence.signalled true ∉ os.takeWhile (· ≠ .abandoned)) :
    attend m s os = attend m s (os.filter Occurrence.isInput) := by
  have hafter := Session.after_silent (m := m) (x := start s) rfl (fun _ => h) {}
  exact (congrArg Session.ingested hafter).symm

theorem after_input (s : Saver.State σ) (pieces : List (List UInt8)) :
    (start s).after m (pieces.map .arrived) =
      ((start s).takeAll m (Text.finishedLines pieces.flatten)).aside {}
        (Text.splitLines pieces.flatten).2 := by
  rw [Session.after_arrived List.not_mem_nil, Session.step_arrived]
  rfl

theorem attend_ended (s : Saver.State σ) (pieces : List (List UInt8)) :
    attend m s (pieces.map .arrived ++ [.ended]) =
      ((start s).takeAll m (Text.lines pieces.flatten)).ingested := by
  let finished := (start s).takeAll m (Text.finishedLines pieces.flatten)
  let rest := (Text.splitLines pieces.flatten).2
  calc
    _ = ((finished.aside {} rest).step m .ended).ingested := by
        rw [attend, Session.after_append, after_input]
        rfl
    _ = ((finished.takeAll m (Text.unfinishedLine pieces.flatten)).complete.aside {}
          rest).ingested := congrArg Session.ingested (Session.step_ended_aside ..)
    _ = _ := by
        rw [Session.ingested_aside, Session.ingested_complete, ← Session.takeAll_append,
          Text.lines]

/-- When the signal is given, the finished lines have been dealt with, and nothing that happens
later makes a difference. -/
theorem attend_signalled (s : Saver.State σ) {os : List Occurrence} {pieces : List (List UInt8)}
    (hinput : os.filter Occurrence.isInput = pieces.map .arrived)
    (hstop : Occurrence.signalled true ∉ os) (hheld : Occurrence.abandoned ∉ os)
    (later : List Occurrence) :
    let x := (start s).takeAll m (Text.finishedLines pieces.flatten)
    attend m s (os ++ .signalled true :: later) =
      { x.ingested with log := x.log ++ if x.result = none then [.interrupted] else [] } := by
  intro x
  let reached := (start s).after m os
  let given := x.aside ⟨true, true⟩ (Text.splitLines pieces.flatten).2
  have hsilent : Occurrence.signalled true ∉ os.takeWhile (· ≠ .abandoned) :=
    fun hmem => hstop (List.takeWhile_subset _ hmem)
  have hreached : reached.aside {} reached.begun =
      x.aside {} (Text.splitLines pieces.flatten).2 := by
    have hafter := Session.after_silent (m := m) (x := start s) rfl (fun _ => hsilent) {}
    rw [hinput] at hafter
    exact hafter.symm.trans (after_input s pieces)
  have hset : reached.signal.set true = ⟨true, true⟩ := by
    have hleft : reached.signal.held = true := Session.held_after rfl hheld
    rw [Signal.set, if_pos hleft, hleft]
  have hstep : reached.step m (.signalled true) = given.heed := by
    have haside := congrArg (fun y => y.aside ⟨true, true⟩ y.begun) hreached
    rw [Session.step, hset]
    exact congrArg Session.heed haside
  have hover : given.heed.result ≠ none := by
    cases h : x.result <;> simp [given, Session.heed, Session.aside, Signal.stops_eq, h]
  calc
    _ = (given.heed.after m later).ingested := by
        rw [attend, Session.after_append, ← hstep]
        rfl
    _ = given.heed.ingested := Session.after_of_over hover later
    _ = _ := Session.ingested_heed rfl

theorem ingest_never (s : Saver.State σ) (input : List UInt8) :
    ingest m s input .never = ((start s).takeAll m (Text.lines input)).ingested := by
  have h := attend_ended (m := m) s [input]
  rwa [List.flatten_singleton] at h

theorem ingest_abandoned (s : Saver.State σ) (input : List UInt8) :
    ingest m s input .abandoned = ingest m s input .never := by
  have hsilent : Occurrence.signalled true ∉
      [Occurrence.abandoned, .arrived input, .ended].takeWhile (· ≠ .abandoned) := by simp
  exact attend_silent s hsilent

/-- Ingesting comes to what becomes of the lines that are seen. -/
theorem ingest_eq (s : Saver.State σ) (input : List UInt8) (shutdown : Shutdown) :
    let x := (start s).takeAll m (shutdown.lines input)
    ingest m s input shutdown =
      { x.ingested with log := x.log ++ if x.result = none then shutdown.entries else [] } := by
  have hnothing (x : Session σ) : x.ingested =
      { x.ingested with log := x.log ++ if x.result = none then [] else [] } := by
    rw [ite_self, List.append_nil]
    rfl
  cases shutdown with
  | never => exact (ingest_never s input).trans (hnothing _)
  | abandoned =>
    exact ((ingest_abandoned s input).trans (ingest_never s input)).trans (hnothing _)
  | afterInput =>
    have hinput : [Occurrence.arrived input].filter Occurrence.isInput = [input].map .arrived := rfl
    have h := attend_signalled (m := m) s hinput (by simp) (by simp) []
    rwa [List.flatten_singleton] at h

end Roster.Ingest
