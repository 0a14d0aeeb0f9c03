import Roster.Proofs.Ingest.Feeding
import Roster.Proofs.Text.Rows

/-!
What a text hands over. Every record of it, which is a line that is neither empty nor a comment when
the blanks at its ends are taken away, is either admitted, and its team goes to the saver, or
refused, and reported with the number of its line. Both happen in the order of the lines.
-/

namespace Roster.Ingest

open Saver (State)

/-! ## Records -/

def numbered (text : String) : List (List Char × Nat) :=
  ((Text.rows text.toList).map Text.trim).zipIdx 1

def records (text : String) : List (List Char × Nat) :=
  (numbered text).filter fun r => IsRecord r.1

/-- The team of a record, if it is the JSON of a draft with nothing wrong with it. -/
def admitted? (record : List Char) : Option Team :=
  match Draft.ofJson (Text.ofChars record) with
  | .error _ => none
  | .ok d => if d.team.flaw? = none then some d.team else none

/-- Why a record is refused: it is no JSON of a draft, or something is wrong with the draft. -/
def refusal? (record : List Char) : Option Rejection :=
  match Draft.ofJson (Text.ofChars record) with
  | .error fault => some (.malformed fault)
  | .ok d => d.team.flaw?.map .invalid

def valid (records : List (List Char × Nat)) : List Team :=
  records.filterMap fun r => admitted? r.1

def refusals (records : List (List Char × Nat)) : List Entry :=
  records.filterMap fun r => (refusal? r.1).map (.skipped r.2)

/-- A record is either admitted or refused, and it is parsed accordingly. -/
theorem admitted_or_refused (record : List Char) :
    (∃ t, admitted? record = some t ∧ refusal? record = none ∧ parseRecord record = .ok t) ∨
      ∃ why, admitted? record = none ∧ refusal? record = some why ∧
        parseRecord record = .error why := by
  unfold admitted? refusal? parseRecord
  cases Draft.ofJson (Text.ofChars record) with
  | error fault => exact .inr ⟨_, rfl, rfl, rfl⟩
  | ok d =>
    cases hflaw : d.team.flaw? with
    | none => exact .inl ⟨d.team, by simp [hflaw]⟩
    | some flaw => exact .inr ⟨.invalid flaw, by simp [hflaw]⟩

theorem new_of_admitted? {record : List Char} {t : Team} (h : admitted? record = some t) :
    t.id = 0 ∧ t.deleted = false := by
  unfold admitted? at h
  split at h
  · cases h
  · split at h
    · cases h
      exact ⟨rfl, rfl⟩
    · cases h

theorem length_valid_add_refusals (records : List (List Char × Nat)) :
    (valid records).length + (refusals records).length = records.length := by
  induction records with
  | nil => rfl
  | cons r records ih =>
    simp only [valid, refusals, List.filterMap_cons, List.length_cons] at ih ⊢
    obtain ⟨t, hteam, hrefuse, -⟩ | ⟨why, hteam, hrefuse, -⟩ := admitted_or_refused r.1
    all_goals
      simp only [hteam, hrefuse, Option.map_none, Option.map_some, List.length_cons]
      omega

/-! ## Lines -/

theorem ofChars_tells (cs : List Char) :
    (Line.ofChars cs).team? =
        (if IsRecord (Text.trim cs) then admitted? (Text.trim cs) else none) ∧
      (Line.ofChars cs).rejection? =
        if IsRecord (Text.trim cs) then refusal? (Text.trim cs) else none := by
  by_cases h : IsRecord (Text.trim cs)
  · rw [ofChars_of_isRecord h, if_pos h, if_pos h]
    obtain ⟨t, hteam, hrefuse, hparse⟩ | ⟨why, hteam, hrefuse, hparse⟩ :=
      admitted_or_refused (Text.trim cs)
    all_goals
      rw [hteam, hrefuse, hparse]
      exact ⟨rfl, rfl⟩
  · rw [ofChars_of_not_isRecord h, if_neg h, if_neg h]
    exact ⟨rfl, rfl⟩

theorem teams_rows (text : String) :
    teams ((Text.rows text.toList).map Line.ofChars) = valid (records text) := by
  let f := fun line => if IsRecord line then admitted? line else none
  calc
    _ = ((Text.rows text.toList).map Text.trim).filterMap f := by
        rw [teams, List.filterMap_map, List.filterMap_map]
        exact List.filterMap_congr fun cs _ => (ofChars_tells cs).1
    _ = (numbered text).filterMap (f ∘ Prod.fst) := by
        rw [← List.filterMap_map, numbered, List.zipIdx_map_fst]
    _ = _ := by
        rw [valid, records, List.filterMap_filter]
        exact List.filterMap_congr fun r _ => by simp [f]

theorem skips_rows (text : String) :
    skips 1 ((Text.rows text.toList).map Line.ofChars) = refusals (records text) := by
  rw [skips, refusals, records, List.filterMap_filter, numbered, List.zipIdx_map, List.zipIdx_map,
    List.filterMap_map, List.filterMap_map]
  refine List.filterMap_congr fun x _ => ?_
  simp only [Function.comp_apply, Prod.map, (ofChars_tells x.1).2, id_eq, decide_eq_true_eq]
  split <;> rfl

theorem length_skips (number : Nat) (lines : List Line) :
    (skips number lines).length = rejections lines := by
  induction lines generalizing number with
  | nil => rfl
  | cons line lines ih =>
    rw [skips_cons, rejections_cons, List.length_append, ih]
    cases line <;> rfl

/-! ## Texts -/

theorem ofLines_text (text : String) :
    Reading.ofLines (Text.lines text.toUTF8.toList) =
      ⟨(Text.rows text.toList).map Line.ofChars, none⟩ := by
  rw [Text.toList_toUTF8, Text.lines_encode, ofLines_encode]

variable {σ : Type}

/-- Ingesting a text into an open saver hands over exactly the teams of the records that are
admitted, in order, all of them acknowledged and none stored before. All other records are counted
and reported with the numbers of their lines. -/
theorem ingest_text (m : Saver.Setup σ) {s : State σ} (h : s.openness = 1) (text : String) :
    let records := records text
    let done := ingest m s text.toUTF8.toList .never
    done.saver = (s.submitAll m ((valid records).map .save)).1 ∧
    (s.submitAll m ((valid records).map .save)).2 = (valid records).map (fun _ => .saved) ∧
    (∀ t ∈ valid records, t.id = 0 ∧ t.deleted = false) ∧
    done.result = .ok ⟨(valid records).length, (refusals records).length⟩ ∧
    (valid records).length + (refusals records).length = records.length ∧
    done.log = refusals records ∧
    ∀ r ∈ records, (refusal? r.1).isSome = (admitted? r.1).isNone := by
  intro rs done
  have hdone : done =
      ⟨(s.submitAll m ((valid rs).map .save)).1, refusals rs,
        .ok ⟨(valid rs).length, (refusals rs).length⟩⟩ := by
    have htext := ingest_of_text (m := m) h (ofLines_text text)
    rwa [← length_skips 1, teams_rows, skips_rows] at htext
  refine ⟨by rw [hdone], State.answers_saves h _, ?_, by rw [hdone],
    length_valid_add_refusals rs, by rw [hdone], ?_⟩
  · intro t ht
    obtain ⟨r, -, hr⟩ := List.mem_filterMap.1 ht
    exact new_of_admitted? hr
  · intro r _
    obtain ⟨t, hteam, hrefuse, -⟩ | ⟨why, hteam, hrefuse, -⟩ := admitted_or_refused r.1
    all_goals
      rw [hteam, hrefuse]
      rfl

/-- Four records, one behind a wide space, among a line that is empty and one that is a comment; the
last line has no end. -/
theorem ingest_text_trial :
    let text := "[\"a\"]\r\n\n # c\n\u2003\x7b\"name\":\" \"\x7d\n[]\n\x7b\"name\":\"b\"\x7d"
    let s := Saver.start Saver.trial Saver.trialWorld
    let done := ingest Saver.trial s text.toUTF8.toList .never
    s.openness = 1 ∧
    done.saver = (s.submitAll Saver.trial [.save { name := "a" }, .save { name := "b" }]).1 ∧
    done.result = .ok ⟨2, 2⟩ ∧
    done.log = [.skipped 4 (.invalid .emptyName),
      .skipped 5 (.malformed ⟨.tooShort 0 "struct NewTeam with 2 elements", ⟨1, 2⟩⟩)] := by
  intro text s done
  have hvalid : valid (records text) = [{ name := "a" }, { name := "b" }] := by decide +kernel
  have hrefusals : refusals (records text) = [.skipped 4 (.invalid .emptyName),
      .skipped 5 (.malformed ⟨.tooShort 0 "struct NewTeam with 2 elements", ⟨1, 2⟩⟩)] := by
    decide +kernel
  obtain ⟨hsaver, -, -, hresult, -, hlog, -⟩ := ingest_text Saver.trial (s := s) rfl text
  rw [hvalid] at hsaver hresult
  rw [hrefusals] at hresult hlog
  exact ⟨rfl, hsaver, hresult, hlog⟩

end Roster.Ingest
