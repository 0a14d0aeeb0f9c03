import Roster.Ingest.Line
import Roster.Proofs.Team.Json
import Roster.Proofs.Text.Encoding

/-!
Which teams are read from lines. A team is read only from a record whose draft has nothing wrong
with it, and drafts that are written one to a line are all read again.
-/

namespace Roster

theorem Text.trim_of_not_isBlank {first last : Char} {cs : List Char}
    (hfirst : isBlank first = false) (hlast : isBlank last = false) :
    trim (first :: cs ++ [last]) = first :: cs ++ [last] := by
  have hhead : (first :: cs ++ [last]).dropWhile isBlank = first :: cs ++ [last] := by
    rw [List.cons_append, List.dropWhile_cons_of_neg (by simp [hfirst])]
  have htail : (first :: cs ++ [last]).reverse.dropWhile isBlank =
      (first :: cs ++ [last]).reverse := by
    rw [List.reverse_append, List.reverse_singleton, List.singleton_append,
      List.dropWhile_cons_of_neg (by simp [hlast])]
  rw [trim, hhead, htail, List.reverse_reverse]

namespace Ingest

/-- Lines up to the first that is no text, and its flaw. -/
structure Reading where
  lines : List Line
  flaw : Option Text.Utf8.Flaw

def Reading.ofLines : List (List UInt8) → Reading
  | [] => ⟨[], none⟩
  | bytes :: rest =>
    match Text.Utf8.decode bytes with
    | .error flaw => ⟨[], some flaw⟩
    | .ok cs =>
      let reading := ofLines rest
      { reading with lines := .ofChars cs :: reading.lines }

theorem Reading.ofLines_append {ls : List (List UInt8)} (h : (ofLines ls).flaw = none)
    (ls' : List (List UInt8)) :
    ofLines (ls ++ ls') = ⟨(ofLines ls).lines ++ (ofLines ls').lines, (ofLines ls').flaw⟩ := by
  induction ls with
  | nil => rfl
  | cons line ls ih =>
    rw [ofLines] at h
    rw [List.cons_append, ofLines, ofLines]
    cases hdecode : Text.Utf8.decode line with
    | error flaw =>
      rw [hdecode] at h
      cases h
    | ok cs =>
      rw [hdecode] at h
      simp only [ih h, List.cons_append]

/-- Nothing is read behind a line that is no text. -/
theorem Reading.ofLines_append_of_flaw {ls : List (List UInt8)} (h : (ofLines ls).flaw ≠ none)
    (ls' : List (List UInt8)) : ofLines (ls ++ ls') = ofLines ls := by
  induction ls with
  | nil => exact absurd rfl h
  | cons line ls ih =>
    rw [ofLines] at h
    rw [List.cons_append, ofLines, ofLines]
    cases hdecode : Text.Utf8.decode line with
    | error flaw => rfl
    | ok cs =>
      rw [hdecode] at h
      simp only [ih h]

def Line.team? : Line → Option Team
  | .team t => some t
  | _ => none

def Line.rejection? : Line → Option Rejection
  | .rejected why => some why
  | _ => none

def teams (lines : List Line) : List Team :=
  lines.filterMap Line.team?

def rejections (lines : List Line) : Nat :=
  (lines.filterMap Line.rejection?).length

/-! ## What is admitted -/

/-- A record is the JSON of a draft with nothing wrong with it. -/
def Admits (record : List Char) (t : Team) : Prop :=
  ∃ d, Draft.ofJson (Text.ofChars record) = .ok d ∧ d.team.flaw? = none ∧ t = d.team

theorem parseRecord_eq_ok_iff {record : List Char} {t : Team} :
    parseRecord record = .ok t ↔ Admits record t := by
  unfold parseRecord Admits
  cases Draft.ofJson (Text.ofChars record) with
  | error fault => simp
  | ok d => cases hflaw : d.team.flaw? <;> simp [hflaw, eq_comm]

/-- What is left of a line without the blanks at its ends is a record, unless it is empty or a
comment. -/
def IsRecord (line : List Char) : Prop :=
  line ≠ [] ∧ line.head? ≠ some '#'

instance : DecidablePred IsRecord :=
  fun line => inferInstanceAs (Decidable (line ≠ [] ∧ line.head? ≠ some '#'))

theorem ofChars_of_not_isRecord {cs : List Char} (h : ¬IsRecord (Text.trim cs)) :
    Line.ofChars cs = .nothing := by
  unfold Line.ofChars
  split
  · rfl
  · rfl
  · rename_i record hne hcomment
    refine absurd ⟨hne, ?_⟩ h
    intro hhead
    obtain ⟨rest, hrest⟩ := List.head?_eq_some_iff.1 hhead
    exact hcomment rest hrest

theorem ofChars_of_isRecord {cs : List Char} (h : IsRecord (Text.trim cs)) :
    Line.ofChars cs =
      match parseRecord (Text.trim cs) with
      | .ok t => .team t
      | .error why => .rejected why := by
  obtain ⟨hne, hcomment⟩ := h
  unfold Line.ofChars
  split
  · rename_i hnil
    exact absurd hnil hne
  · rename_i hhash
    rw [hhash] at hcomment
    exact absurd rfl hcomment
  · rfl

/-- A line holds a team if it holds a record that is admitted. -/
theorem ofChars_eq_team_iff {cs : List Char} {t : Team} :
    Line.ofChars cs = .team t ↔ IsRecord (Text.trim cs) ∧ Admits (Text.trim cs) t := by
  rw [← parseRecord_eq_ok_iff]
  by_cases h : IsRecord (Text.trim cs)
  · rw [ofChars_of_isRecord h]
    cases parseRecord (Text.trim cs) <;> simp [h]
  · simp [ofChars_of_not_isRecord h, h]

/-- A team that was read stands on a line that is text, as a record that is admitted. -/
theorem exists_line_of_mem_teams {ls : List (List UInt8)} {t : Team}
    (h : t ∈ teams (Reading.ofLines ls).lines) :
    ∃ line ∈ ls, ∃ cs, Text.Utf8.decode line = .ok cs ∧ Admits (Text.trim cs) t := by
  induction ls with
  | nil => cases h
  | cons line ls ih =>
    rw [Reading.ofLines] at h
    cases hdecode : Text.Utf8.decode line with
    | error flaw =>
      simp only [hdecode] at h
      cases h
    | ok cs =>
      simp only [hdecode, teams, List.mem_filterMap, List.mem_cons] at h
      obtain ⟨_, rfl | hmem, hteam⟩ := h
      · refine ⟨line, List.mem_cons_self .., cs, hdecode, ?_⟩
        cases hline : Line.ofChars cs with
        | team u =>
          rw [hline] at hteam
          cases hteam
          exact (ofChars_eq_team_iff.1 hline).2
        | _ =>
          rw [hline] at hteam
          cases hteam
      · obtain ⟨line', hline', hrest⟩ := ih (List.mem_filterMap.2 ⟨_, hmem, hteam⟩)
        exact ⟨line', List.mem_cons_of_mem _ hline', hrest⟩

theorem ofLines_encode (texts : List (List Char)) :
    Reading.ofLines (texts.map Text.encode) = ⟨texts.map Line.ofChars, none⟩ := by
  induction texts with
  | nil => rfl
  | cons text texts ih =>
    rw [List.map_cons, Reading.ofLines, Text.Utf8.decode_encode]
    simp only [ih, List.map_cons]

theorem length_teams_le (lines : List Line) : (teams lines).length ≤ lines.length :=
  List.length_filterMap_le ..

theorem length_ofLines_le (ls : List (List UInt8)) :
    (Reading.ofLines ls).lines.length ≤ ls.length := by
  induction ls with
  | nil => exact Nat.le_refl _
  | cons line ls ih =>
    rw [Reading.ofLines]
    split
    · exact Nat.zero_le _
    · exact Nat.succ_le_succ ih

/-! ## What was written -/

/-- An object on a line of its own is a record. -/
theorem ofChars_object (ms : List (String × List Char)) :
    Line.ofChars ('{' :: Json.members ms ++ ['}']) =
      match parseRecord ('{' :: Json.members ms ++ ['}']) with
      | .ok t => .team t
      | .error why => .rejected why := by
  have htrim : Text.trim ('{' :: Json.members ms ++ ['}']) = '{' :: Json.members ms ++ ['}'] :=
    Text.trim_of_not_isBlank (by decide) (by decide)
  have hrecord : IsRecord (Text.trim ('{' :: Json.members ms ++ ['}'])) := by
    rw [htrim]
    exact ⟨List.cons_ne_nil _ _, by simp⟩
  rw [ofChars_of_isRecord hrecord, htrim]

/-- The line of a draft holds its team. -/
theorem ofChars_json {d : Draft} (h : d.team.flaw? = none) :
    Line.ofChars d.json.toList = .team d.team := by
  have hparse : parseRecord d.json.toList = .ok d.team :=
    parseRecord_eq_ok_iff.2 ⟨d, d.ofJson_json, h, rfl⟩
  rw [d.toList_json] at hparse ⊢
  rw [ofChars_object, hparse]

def document (ds : List Draft) : String :=
  String.intercalate "\n" (ds.map Draft.json)

theorem encode_intercalate (texts : List (List Char)) :
    Text.encode (['\n'].intercalate texts) =
      [Text.lineFeed].intercalate (texts.map Text.encode) := by
  induction texts with
  | nil => rfl
  | cons text texts ih =>
    cases texts with
    | nil => simp
    | cons next texts =>
      rw [List.map_cons, List.map_cons, List.intercalate_cons_cons, List.intercalate_cons_cons,
        Text.encode_append, Text.encode_append, ih]
      rfl

theorem lines_joined {ss : List String} (h : ∀ s ∈ ss, Text.Plain (Text.encode s.toList)) :
    Text.lines (String.intercalate "\n" ss).toUTF8.toList =
      (ss.map String.toList).map Text.encode := by
  have hnewline : "\n".toList = ['\n'] := by decide
  rw [Text.toList_toUTF8, String.toList_intercalate, hnewline, encode_intercalate]
  refine Text.lines_intercalate ?_
  simpa using h

/-- All drafts of a document are read if nothing is wrong with them. -/
theorem ofLines_document {ds : List Draft} (h : ∀ d ∈ ds, d.team.flaw? = none) :
    Reading.ofLines (Text.lines (document ds).toUTF8.toList) =
      ⟨(ds.map Draft.team).map .team, none⟩ := by
  have hplain : ∀ s ∈ ds.map Draft.json, Text.Plain (Text.encode s.toList) := by
    intro s hs
    obtain ⟨d, -, rfl⟩ := List.mem_map.1 hs
    exact d.plain_json
  have hread : ((ds.map Draft.json).map String.toList).map Line.ofChars =
      (ds.map Draft.team).map .team := by
    simp only [List.map_map, Function.comp_def]
    exact List.map_congr_left fun d hd => ofChars_json (h d hd)
  rw [document, lines_joined hplain, ofLines_encode, hread]

theorem teams_map_team (ts : List Team) : teams (ts.map .team) = ts := by
  rw [teams, List.filterMap_map]
  exact List.filterMap_some

theorem rejections_map_team (ts : List Team) : rejections (ts.map .team) = 0 := by
  rw [rejections, List.filterMap_map, List.length_eq_zero_iff, List.filterMap_eq_nil_iff]
  exact fun _ _ => rfl

end Ingest

end Roster
