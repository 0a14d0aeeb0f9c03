import Roster.Proofs.Ingest.Records
import Roster.Proofs.Ingest.Session
import Roster.Proofs.Saver.Closing

/-!
What ingesting asks of a saver. An open saver is asked to save the teams of all lines, in order, and
acknowledges each; then it is asked to close. So whatever holds of a saver through requests holds of
it through an input.
-/

namespace Roster

variable {σ : Type} (m : Saver.Setup σ)

namespace Saver.State

variable {m} {s : State σ}

/-- An open saver takes a team and stays open. -/
theorem submit_save_of_open (h : s.openness = 1) (t : Team) :
    (s.submit m (.save t)).2 = .saved ∧ (s.submit m (.save t)).1.openness = 1 := by
  have hp := phase_await_of_open m h
  rw [submit_save_of_waiting m hp]
  exact ⟨rfl, openness_accept m hp t⟩

theorem openness_saves (h : s.openness = 1) (ts : List Team) :
    (s.submitAll m (ts.map .save)).1.openness = 1 := by
  induction ts generalizing s with
  | nil => exact h
  | cons t ts ih => exact ih (submit_save_of_open h t).2

theorem answers_saves (h : s.openness = 1) (ts : List Team) :
    (s.submitAll m (ts.map .save)).2 = ts.map fun _ => .saved := by
  induction ts generalizing s with
  | nil => rfl
  | cons t ts ih =>
    obtain ⟨hsaved, hopen⟩ := submit_save_of_open (m := m) h t
    calc
      _ = (s.submit m (.save t)).2 ::
          ((s.submit m (.save t)).1.submitAll m (ts.map .save)).2 := rfl
      _ = _ := by
        rw [hsaved, ih hopen]
        rfl

end Saver.State

namespace Ingest

open Saver (State)

def skips (number : Nat) (lines : List Line) : List Entry :=
  (lines.zipIdx number).filterMap fun x => x.1.rejection?.map (.skipped x.2)

def requests (ts : List Team) : List Saver.Request :=
  ts.map .save ++ [.close]

variable {m} {s : State σ}

theorem teams_cons (line : Line) (lines : List Line) :
    teams (line :: lines) = line.team?.toList ++ teams lines := by
  cases line <;> rfl

theorem rejections_cons (line : Line) (lines : List Line) :
    rejections (line :: lines) = line.rejection?.toList.length + rejections lines := by
  cases line with
  | rejected why => exact Nat.add_comm ..
  | _ => exact (Nat.zero_add _).symm

theorem skips_cons (number : Nat) (line : Line) (lines : List Line) :
    skips number (line :: lines) =
      (line.rejection?.map (.skipped number)).toList ++ skips (number + 1) lines := by
  cases line <;> rfl

namespace Session

/-- The session when the lines of a reading have been dealt with while the saver was open. -/
def afterReading (m : Saver.Setup σ) (x : Session σ) (reading : Reading) : Session σ :=
  { x with
    saver := (x.saver.submitAll m ((teams reading.lines).map .save)).1
    number := x.number + reading.lines.length
    report :=
      ⟨x.report.accepted + (teams reading.lines).length,
        x.report.rejected + rejections reading.lines⟩
    log := x.log ++ skips (x.number + 1) reading.lines
    result := reading.flaw.map fun flaw => .error (.unreadable flaw) }

/-- What an open saver makes of a line, as one equation. -/
theorem deal_of_open {x : Session σ} (h : x.saver.openness = 1) (line : Line) :
    x.deal m line =
      { x with
        saver := (x.saver.submitAll m (line.team?.toList.map .save)).1
        report :=
          ⟨x.report.accepted + line.team?.toList.length,
            x.report.rejected + line.rejection?.toList.length⟩
        log := x.log ++ (line.rejection?.map (.skipped x.number)).toList } := by
  cases line with
  | nothing => simp [deal, Line.team?, Line.rejection?, State.submitAll]
  | rejected why => simp [deal, Line.team?, Line.rejection?, State.submitAll]
  | team t =>
    have hsaved := (State.submit_save_of_open (m := m) h t).1
    rw [deal, hand]
    rcases hsubmit : x.saver.submit m (.save t) with ⟨s, answer⟩
    rw [hsubmit] at hsaved
    obtain rfl : answer = .saved := hsaved
    simp [Line.team?, Line.rejection?, State.submitAll, hsubmit]

theorem openness_deal {x : Session σ} (h : x.saver.openness = 1) (line : Line) :
    (x.deal m line).saver.openness = 1 := by
  rw [deal_of_open h]
  cases line with
  | team t => exact (State.submit_save_of_open h t).2
  | _ => exact h

theorem takeAll_of_open {x : Session σ} (hresult : x.result = none) (h : x.saver.openness = 1)
    (ls : List (List UInt8)) : x.takeAll m ls = x.afterReading m (.ofLines ls) := by
  induction ls generalizing x with
  | nil =>
    cases x
    cases hresult
    simp [takeAll, afterReading, Reading.ofLines, teams, rejections, skips, State.submitAll]
  | cons line ls ih =>
    rw [takeAll_cons hresult, Reading.ofLines]
    cases hdecode : Text.Utf8.decode line with
    | error flaw =>
      rw [take_of_error hdecode, takeAll_of_over (Option.some_ne_none _)]
      simp [afterReading, teams, rejections, skips, State.submitAll]
    | ok cs =>
      let numbered : Session σ := { x with number := x.number + 1 }
      have hopen : numbered.saver.openness = 1 := h
      have hdeal := deal_of_open (m := m) hopen (.ofChars cs)
      have hrest := @ih (numbered.deal m (.ofChars cs)) (by rw [hdeal]; exact hresult)
        (openness_deal hopen _)
      rw [take_of_ok hdecode, hrest, hdeal]
      simp only [numbered, afterReading, teams_cons, rejections_cons, skips_cons, List.map_append,
        State.submitAll_append, List.length_append, List.length_cons, List.append_assoc,
        Nat.add_assoc, Nat.add_comm 1]

end Session

/-- What ingesting into an open saver leaves: the saver has been asked for the teams of all lines,
and the result tells of them unless a line could not be read. -/
theorem ingest_of_open (h : s.openness = 1) (input : List UInt8) (shutdown : Shutdown) :
    let reading := Reading.ofLines (shutdown.lines input)
    ingest m s input shutdown =
      ⟨(s.submitAll m ((teams reading.lines).map .save)).1,
        skips 1 reading.lines ++ if reading.flaw = none then shutdown.entries else [],
        match reading.flaw with
        | some flaw => .error (.unreadable flaw)
        | none => .ok ⟨(teams reading.lines).length, rejections reading.lines⟩⟩ := by
  intro reading
  have hstart : (Session.start s).takeAll m (shutdown.lines input) =
      (Session.start s).afterReading m reading := Session.takeAll_of_open rfl h _
  rw [ingest_eq, hstart]
  cases hflaw : reading.flaw <;>
    simp [Session.afterReading, Session.ingested, Session.start, hflaw]

/-- What ingesting leaves when all lines are text. -/
theorem ingest_of_text (h : s.openness = 1) {input : List UInt8} {lines : List Line}
    (hread : Reading.ofLines (Text.lines input) = ⟨lines, none⟩) :
    ingest m s input .never =
      ⟨(s.submitAll m ((teams lines).map .save)).1, skips 1 lines,
        .ok ⟨(teams lines).length, rejections lines⟩⟩ := by
  rw [ingest_of_open h]
  simp only [Shutdown.lines, hread, Shutdown.entries, if_true, List.append_nil]

/-- What ingesting into an open saver and closing it leaves: the saver has been asked for the teams
of all lines and to close, and the result tells of them unless a line could not be read. -/
theorem ingestAndClose_of_open (h : s.openness = 1) (input : List UInt8) (shutdown : Shutdown) :
    let reading := Reading.ofLines (shutdown.lines input)
    let done := ingestAndClose m s input shutdown
    done.saver = (s.submitAll m (requests (teams reading.lines))).1 ∧
    done.result =
      match reading.flaw with
      | some flaw => .error (.unreadable flaw)
      | none => .ok ⟨(teams reading.lines).length, rejections reading.lines⟩ := by
  intro reading done
  simp only [done, ingestAndClose, Ingested.close, ingest_of_open h, reading, and_true]
  rw [requests, Saver.State.submitAll_append]
  rfl

/-- An open saver acknowledges all teams that it is asked for. -/
theorem leads_saves {s' : State σ} {saved : List Team} (h : s.Leads m saved s')
    (hopen : s'.openness = 1) (ts : List Team) :
    s.Leads m (saved ++ ts) (s'.submitAll m (ts.map .save)).1 := by
  have hacknowledged : (List.zipWith Saver.Request.acknowledged (ts.map .save)
      (s'.submitAll m (ts.map .save)).2).flatten = ts := by
    rw [State.answers_saves hopen, List.zipWith_map, List.zipWith_self]
    exact List.flatMap_singleton' ts
  have hall := h.submitAll (ts.map .save)
  rwa [hacknowledged] at hall

theorem leads_requests (h : s.openness = 1) (ts : List Team) :
    s.Leads m ts (s.submitAll m (requests ts)).1 := by
  rw [requests, State.submitAll_append]
  exact (leads_saves (.refl s) h ts).close

theorem phase_requests (s : State σ) (ts : List Team) :
    (s.submitAll m (requests ts)).1.phase = .closed := by
  rw [requests, Saver.State.submitAll_append]
  exact Saver.State.phase_submit_close

end Ingest

end Roster
