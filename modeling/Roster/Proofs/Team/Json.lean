import Roster.Proofs.Json.Writing
import Roster.Proofs.Team.Grammar

/-!
Teams and drafts written as JSON and read again.
-/

namespace Roster

open Json (Tells under)
open Text (Symbol ofChars)

namespace Team

def members (t : Team) : List (String × List Char) :=
  [("id", Nat.toDigits 10 t.id.toNat), ("name", Json.quote t.name.toList),
    ("description", Json.quote t.description.toList), ("is_deleted", (toString t.deleted).toList)]

theorem toList_json (t : Team) : t.json.toList = '{' :: Json.members t.members ++ ['}'] := by
  have hid : Json.quote ['i', 'd'] = ['"', 'i', 'd', '"'] := rfl
  have hname : Json.quote ['n', 'a', 'm', 'e'] = ['"', 'n', 'a', 'm', 'e', '"'] := rfl
  have hdescription : Json.quote ['d', 'e', 's', 'c', 'r', 'i', 'p', 't', 'i', 'o', 'n'] =
      ['"', 'd', 'e', 's', 'c', 'r', 'i', 'p', 't', 'i', 'o', 'n', '"'] := rfl
  have hdeleted : Json.quote ['i', 's', '_', 'd', 'e', 'l', 'e', 't', 'e', 'd'] =
      ['"', 'i', 's', '_', 'd', 'e', 'l', 'e', 't', 'e', 'd', '"'] := rfl
  simp [json, Json.quoted, members, Json.members, Json.member, hid, hname, hdescription, hdeleted]

theorem isFlag_deleted (t : Team) : Json.IsFlag (toString t.deleted).toList t.deleted := by
  cases h : t.deleted <;> rfl

theorem isValue_members (t : Team) : ∀ m ∈ t.members, Json.IsValue m.2 := by
  have hid : Json.IsNatural (Nat.toDigits 10 t.id.toNat) t.id := rfl
  intro m hm
  simp only [members, List.mem_cons, List.not_mem_nil, or_false] at hm
  obtain rfl | rfl | rfl | rfl := hm
  · exact .number hid.isNumber
  · exact .text (Json.isText_quote _).isAnyText
  · exact .text (Json.isText_quote _).isAnyText
  · exact .flag t.isFlag_deleted

theorem spelled_json (t : Team) : t.Spelled t.json.toList := by
  refine ⟨[], t.json.toList, [], by simp, by simp [Json.Blank], .inl ?_, by simp [Json.Blank]⟩
  rw [toList_json]
  refine ⟨_, Json.isObject_members (by simp [members]) t.isValue_members, ?_⟩
  simp only [Told, Tells, under, members]
  exact ⟨.inl ⟨_, by simp, rfl⟩, .inl ⟨_, by simp, Json.isText_quote _⟩,
    .inl ⟨_, by simp, Json.isText_quote _⟩, .inl ⟨_, by simp, t.isFlag_deleted⟩⟩

theorem ofJson_json (t : Team) : ofJson (ofChars t.json.toList) = .ok t :=
  ofJson_eq_ok_iff.2 t.spelled_json

theorem printable_json (t : Team) : ∀ c ∈ t.json.toList, 0x20 ≤ c.toNat := by
  have hdeleted : ∀ c ∈ (toString t.deleted).toList, 0x20 ≤ c.toNat := by
    have hall : ∀ b : Bool, (toString b).toList.all (0x20 ≤ ·.toNat) = true := by decide
    simpa using hall t.deleted
  rw [toList_json]
  refine Json.printable_object ?_
  intro m hm
  simp only [members, List.mem_cons, List.not_mem_nil, or_false] at hm
  obtain rfl | rfl | rfl | rfl := hm
  · exact Json.printable_toDigits _
  · exact Json.printable_quote _
  · exact Json.printable_quote _
  · exact hdeleted

theorem clean_json (t : Team) : Json.Clean (Json.object t.members) where
  isValue := Json.isValue_object (by simp [members]) t.isValue_members
  printable := by
    rw [Json.object, ← toList_json]
    exact t.printable_json

end Team

namespace Draft

def members (d : Draft) : List (String × List Char) :=
  [("name", Json.quote d.name.toList), ("description", Json.quote d.description.toList)]

theorem toList_json (d : Draft) : d.json.toList = '{' :: Json.members d.members ++ ['}'] := by
  have hname : Json.quote ['n', 'a', 'm', 'e'] = ['"', 'n', 'a', 'm', 'e', '"'] := rfl
  have hdescription : Json.quote ['d', 'e', 's', 'c', 'r', 'i', 'p', 't', 'i', 'o', 'n'] =
      ['"', 'd', 'e', 's', 'c', 'r', 'i', 'p', 't', 'i', 'o', 'n', '"'] := rfl
  simp [json, Json.quoted, members, Json.members, Json.member, hname, hdescription]

theorem isValue_members (d : Draft) : ∀ m ∈ d.members, Json.IsValue m.2 := by
  intro m hm
  simp only [members, List.mem_cons, List.not_mem_nil, or_false] at hm
  obtain rfl | rfl := hm
  · exact .text (Json.isText_quote _).isAnyText
  · exact .text (Json.isText_quote _).isAnyText

theorem spelled_json (d : Draft) : d.Spelled d.json.toList := by
  refine ⟨[], d.json.toList, [], by simp, by simp [Json.Blank], .inl ?_, by simp [Json.Blank]⟩
  rw [toList_json]
  refine ⟨_, Json.isObject_members (by simp [members]) d.isValue_members, ?_⟩
  simp only [Told, Tells, under, members]
  exact ⟨.inl ⟨_, by simp, Json.isText_quote _⟩, .inl ⟨_, by simp, Json.isText_quote _⟩⟩

theorem ofJson_json (d : Draft) : ofJson (ofChars d.json.toList) = .ok d :=
  ofJson_eq_ok_iff.2 d.spelled_json

theorem printable_json (d : Draft) : ∀ c ∈ d.json.toList, 0x20 ≤ c.toNat := by
  rw [toList_json]
  refine Json.printable_object ?_
  intro m hm
  simp only [members, List.mem_cons, List.not_mem_nil, or_false] at hm
  obtain rfl | rfl := hm <;> exact Json.printable_quote _

end Draft

/-- A text without control characters is found again on its line. -/
theorem plain_of_printable {s : String} (hne : s.toList ≠ []) (h : ∀ c ∈ s.toList, 0x20 ≤ c.toNat) :
    Text.Plain (Text.encode s.toList) := by
  have hcontrol : ∀ c, c.toNat < 0x20 → c ∉ s.toList := by
    intro c hc hmem
    exact absurd (h c hmem) (by omega)
  exact Text.plain_encode_of_notMem hne (hcontrol _ (by decide)) (hcontrol _ (by decide))

theorem Team.plain_json (t : Team) : Text.Plain (Text.encode t.json.toList) :=
  plain_of_printable (by simp [t.toList_json]) t.printable_json

theorem Draft.plain_json (d : Draft) : Text.Plain (Text.encode d.json.toList) :=
  plain_of_printable (by simp [d.toList_json]) d.printable_json

theorem lines_of_plain {s : String} (h : Text.Plain (Text.encode s.toList)) :
    Text.lines s.toUTF8.toList = [s.toUTF8.toList] := by
  rw [Text.toList_toUTF8]
  have hlines : Text.lines ([Text.lineFeed].intercalate [Text.encode s.toList]) =
      [Text.encode s.toList] := Text.lines_intercalate (by simpa using h)
  rwa [List.intercalate_singleton] at hlines

/-- Teams and drafts are read again from their JSON, which is one line without control
characters. -/
theorem json_read_back :
    (∀ t : Team, Team.ofJson (Text.Utf8.symbols t.json.toUTF8.toList) = .ok t ∧
      (∀ c ∈ t.json.toList, 0x20 ≤ c.toNat) ∧
      Text.lines t.json.toUTF8.toList = [t.json.toUTF8.toList]) ∧
    ∀ d : Draft, Draft.ofJson (Text.Utf8.symbols d.json.toUTF8.toList) = .ok d ∧
      (∀ c ∈ d.json.toList, 0x20 ≤ c.toNat) ∧
      Text.lines d.json.toUTF8.toList = [d.json.toUTF8.toList] := by
  refine ⟨fun t => ⟨?_, t.printable_json, ?_⟩, fun d => ⟨?_, d.printable_json, ?_⟩⟩
  · rw [Text.Utf8.symbols_toUTF8]
    exact t.ofJson_json
  · exact lines_of_plain t.plain_json
  · rw [Text.Utf8.symbols_toUTF8]
    exact d.ofJson_json
  · exact lines_of_plain d.plain_json

end Roster
