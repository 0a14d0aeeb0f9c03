import Roster.Command.Execute
import Roster.Proofs.Ingest.Feeding
import Roster.Proofs.Store.Directory

/-!
Teams that are printed and ingested again. The JSON of a team is that of a draft with two more
members, which are passed over, and it stays one record on its line whatever the team's texts are.
-/

namespace Roster

/-! ## One team -/

theorem Team.draft_spelled (t : Team) : t.draft.Spelled t.json.toList := by
  refine ⟨[], t.json.toList, [], by simp, by simp [Json.Blank], .inl ?_, by simp [Json.Blank]⟩
  rw [toList_json]
  refine ⟨_, Json.isObject_members (by simp [members]) t.isValue_members, ?_⟩
  simp only [Draft.Told, Json.Tells, Json.under, members]
  exact ⟨.inl ⟨Json.quote t.name.toList, by simp, Json.isText_quote _⟩,
    .inl ⟨Json.quote t.description.toList, by simp, Json.isText_quote _⟩⟩

theorem Team.flaw?_draft (t : Team) : t.draft.team.flaw? = t.flaw? := rfl

theorem Bus.drain_subscribe (bus : Bus) :
    (bus.subscribe.drain bus.listeners.length).1 = [] := by
  have hlast : bus.subscribe.listeners[bus.listeners.length]? =
      some (if bus.isOpen then some [] else none) := List.getElem?_concat_length
  rw [drain, hlast, Option.join_some]
  cases bus.isOpen <;> simp

/-- A team that is asked for is printed as its JSON, and nothing else is. -/
theorem Command.execute_get {service : Service} {id : UInt64} {t : Team}
    (h : (service.get id).result = .ok t) :
    ((Command.get id).execute service).result = .ok [t.json] := by
  have hstore : service.store.get id = .ok t := by
    rw [Service.get] at h
    cases hget : service.store.get id with
    | error e =>
      rw [hget] at h
      cases h
    | ok t' =>
      rw [hget] at h
      cases h
      rfl
  simp only [execute, perform, Service.get, hstore, Service.answer, afterCall, Except.map,
    Bus.drain_subscribe, List.map_nil, List.append_nil]

namespace Ingest

open Saver (State)

def reread (t : Team) : Line :=
  match t.flaw? with
  | none => .team { t with id := 0, deleted := false }
  | some flaw => .rejected (.invalid flaw)

theorem ofChars_printed (t : Team) : Line.ofChars t.json.toList = reread t := by
  have hdraft : Draft.ofJson (Text.ofChars t.json.toList) = .ok t.draft :=
    Draft.ofJson_eq_ok_iff.2 t.draft_spelled
  have hparse : parseRecord t.json.toList =
      match t.flaw? with
      | none => .ok { t with id := 0, deleted := false }
      | some flaw => .error (.invalid flaw) := by
    rw [parseRecord, hdraft, ← t.flaw?_draft]
    cases hflaw : t.draft.team.flaw? <;> simp only [hflaw]
    rfl
  rw [t.toList_json] at hparse ⊢
  rw [ofChars_object, hparse, reread]
  cases t.flaw? <;> rfl

/-! ## Many teams -/

def printed (ts : List Team) : String :=
  String.intercalate "\n" (ts.map Team.json)

theorem ofLines_printed (ts : List Team) :
    Reading.ofLines (Text.lines (printed ts).toUTF8.toList) = ⟨ts.map reread, none⟩ := by
  have hplain : ∀ s ∈ ts.map Team.json, Text.Plain (Text.encode s.toList) := by
    intro s hs
    obtain ⟨t, -, rfl⟩ := List.mem_map.1 hs
    exact t.plain_json
  rw [printed, lines_joined hplain, ofLines_encode]
  simp only [List.map_map, Function.comp_def, ofChars_printed]

theorem teams_reread (ts : List Team) :
    teams (ts.map reread) =
      (ts.filter fun t => t.flaw? = none).map fun t => { t with id := 0, deleted := false } := by
  induction ts with
  | nil => rfl
  | cons t ts ih =>
    rw [List.map_cons, teams_cons, ih]
    cases h : t.flaw? <;> simp [reread, Line.team?, h]

theorem rejections_reread (ts : List Team) :
    rejections (ts.map reread) = (ts.filter fun t => t.flaw? ≠ none).length := by
  induction ts with
  | nil => rfl
  | cons t ts ih =>
    rw [List.map_cons, rejections_cons, ih]
    cases h : t.flaw? <;> simp [reread, Line.rejection?, h, Nat.add_comm]

theorem skips_reread (number : Nat) (ts : List Team) :
    skips number (ts.map reread) =
      (ts.zipIdx number).filterMap fun x =>
        x.1.flaw?.map fun flaw => .skipped x.2 (.invalid flaw) := by
  rw [skips, List.zipIdx_map, List.filterMap_map]
  refine List.filterMap_congr fun x _ => ?_
  simp only [Function.comp_apply, Prod.map, reread, id_eq]
  cases x.1.flaw? <;> rfl

variable {σ : Type}

/-- When teams are printed and ingested into an open saver, exactly those with acceptable texts are
handed over, in order and as new ones, and all others are skipped, each as a record. -/
theorem ingest_printed (m : Saver.Setup σ) {s : State σ} (h : s.openness = 1) (ts : List Team) :
    let valid := (ts.filter fun t => t.flaw? = none).map
      fun t => { t with id := 0, deleted := false }
    let done := ingest m s (printed ts).toUTF8.toList .never
    done.saver = (s.submitAll m (valid.map .save)).1 ∧
    (s.submitAll m (valid.map .save)).2 = valid.map (fun _ => .saved) ∧
    done.result = .ok ⟨valid.length, (ts.filter fun t => t.flaw? ≠ none).length⟩ ∧
    done.log = ((ts.zipIdx 1).filterMap fun x =>
      x.1.flaw?.map fun flaw => .skipped x.2 (.invalid flaw)) ∧
    ∀ {service : Service} {id : UInt64} {t : Team}, (service.get id).result = .ok t →
      ((Command.get id).execute service).result = .ok [t.json] := by
  intro valid done
  have hdone := ingest_of_text (m := m) h (ofLines_printed ts)
  rw [teams_reread, rejections_reread, skips_reread] at hdone
  exact ⟨congrArg Ingested.saver hdone, State.answers_saves h valid,
    congrArg Ingested.result hdone, congrArg Ingested.log hdone, Command.execute_get⟩

/-- A deleted team with line breaks in its texts, and one whose name is blank. -/
theorem ingest_printed_trial :
    let ts : List Team := [⟨7, "# a\r\n\u2028", "\"\n", true⟩, ⟨8, " ", "b", false⟩]
    let s := Saver.start Saver.trial Saver.trialWorld
    let done := ingest Saver.trial s (printed ts).toUTF8.toList .never
    let service := Service.ofStore (Store.empty.create { name := "a" }).2 { reach := 1 } 1
    s.openness = 1 ∧
    done.saver = (s.submitAll Saver.trial
      [.save { name := "# a\r\n\u2028", description := "\"\n" }]).1 ∧
    done.result = .ok ⟨1, 1⟩ ∧ done.log = [.skipped 2 (.invalid .emptyName)] ∧
    (service.get 1).result = .ok ⟨1, "a", "", false⟩ ∧
    ((Command.get 1).execute service).result = .ok [Team.json ⟨1, "a", "", false⟩] := by
  intro ts s done service
  obtain ⟨hsaver, -, hresult, hlog, hprint⟩ := ingest_printed Saver.trial (s := s) rfl ts
  have hvalid : (ts.filter fun t => t.flaw? = none).map
      (fun t => { t with id := 0, deleted := false }) =
        [{ name := "# a\r\n\u2028", description := "\"\n" }] := by decide +kernel
  have hinvalid : (ts.filter fun t => t.flaw? ≠ none).length = 1 := by decide +kernel
  have hskipped : ((ts.zipIdx 1).filterMap fun x =>
      x.1.flaw?.map fun flaw => Entry.skipped x.2 (.invalid flaw)) =
        [.skipped 2 (.invalid .emptyName)] := by decide +kernel
  have hget : (service.get 1).result = .ok ⟨1, "a", "", false⟩ := by cbv
  rw [hvalid] at hsaver hresult
  rw [hinvalid] at hresult
  rw [hskipped] at hlog
  exact ⟨rfl, hsaver, hresult, hlog, hget, hprint hget⟩

end Ingest

end Roster
