import Roster.Proofs.Json.Records
import Roster.Proofs.Text.Encoding
import Roster.Team.Json

/-!
The grammar of teams and drafts. A document is an object or a list with blanks around it. In an
object every key stands for characters; the name is there once, the other fields once at most, and
further members have values of any shape. In a list the fields stand in their order, and those
behind the name may be missing. What is missing is zero, empty or false.
-/

namespace Roster

open Json (Document IsObject IsList under Tells IsNatural IsText IsFlag)
open Text (ofChars)

namespace Team

/-- A team as it is told by the texts of its fields. -/
def Told (t : Team) (id name description deleted : List (List Char)) : Prop :=
  Tells IsNatural (some 0) id t.id ∧ Tells IsText none name t.name.toList ∧
    Tells IsText (some []) description t.description.toList ∧
      Tells IsFlag (some false) deleted t.deleted

def InObject (t : Team) (s : List Char) : Prop :=
  ∃ ms, IsObject s ms ∧
    t.Told (under "id" ms) (under "name" ms) (under "description" ms) (under "is_deleted" ms)

def InList (t : Team) (s : List Char) : Prop :=
  ∃ es, IsList s es ∧ es.length ≤ 4 ∧
    t.Told es[0]?.toList es[1]?.toList es[2]?.toList es[3]?.toList

def Spelled (t : Team) (s : List Char) : Prop :=
  Document (fun d => t.InObject d ∨ t.InList d) s

end Team

namespace Draft

def Told (d : Draft) (name description : List (List Char)) : Prop :=
  Tells IsText none name d.name.toList ∧ Tells IsText (some []) description d.description.toList

def InObject (d : Draft) (s : List Char) : Prop :=
  ∃ ms, IsObject s ms ∧ d.Told (under "name" ms) (under "description" ms)

def InList (d : Draft) (s : List Char) : Prop :=
  ∃ es, IsList s es ∧ es.length ≤ 2 ∧ d.Told es[0]?.toList es[1]?.toList

def Spelled (d : Draft) (s : List Char) : Prop :=
  Document (fun s => d.InObject s ∨ d.InList s) s

end Draft

/-! ## Fields -/

namespace Json

theorem given_iff_tells {α : Type} {P : List Char → α → Prop} {inject : α → FieldValue}
    {default : Option α} {f : Field} {texts : List (List Char)} {v : FieldValue}
    (hkind : ∀ s v, Gives f.kind s v ↔ ∃ a, v = inject a ∧ P s a)
    (hfallback : f.fallback = default.map inject) :
    f.Given texts v ↔ ∃ a, v = inject a ∧ Tells P default texts a := by
  simp only [Field.Given, Tells, hkind, hfallback]
  constructor
  · rintro (⟨s, hs, a, rfl, ha⟩ | ⟨hs, h⟩)
    · exact ⟨a, rfl, .inl ⟨s, hs, ha⟩⟩
    · obtain ⟨a, ha, rfl⟩ := Option.map_eq_some_iff.1 h
      exact ⟨a, rfl, .inr ⟨hs, ha⟩⟩
  · rintro ⟨a, rfl, ⟨s, hs, ha⟩ | ⟨hs, rfl⟩⟩
    · exact .inl ⟨s, hs, a, rfl, ha⟩
    · exact .inr ⟨hs, rfl⟩

theorem given_natural_iff {name : String} (default : Option UInt64) {texts : List (List Char)}
    {v : FieldValue} :
    Field.Given ⟨name, .natural, default.map .natural⟩ texts v ↔
      ∃ n, v = .natural n ∧ Tells IsNatural default texts n :=
  given_iff_tells (fun _ _ => Iff.rfl) rfl

theorem given_text_iff {name : String} (default : Option (List Char)) {texts : List (List Char)}
    {v : FieldValue} :
    Field.Given ⟨name, .text, default.map .text⟩ texts v ↔
      ∃ cs, v = .text cs ∧ Tells IsText default texts cs :=
  given_iff_tells (fun _ _ => Iff.rfl) rfl

theorem given_flag_iff {name : String} (default : Option Bool) {texts : List (List Char)}
    {v : FieldValue} :
    Field.Given ⟨name, .flag, default.map .flag⟩ texts v ↔
      ∃ b, v = .flag b ∧ Tells IsFlag default texts b :=
  given_iff_tells (fun _ _ => Iff.rfl) rfl

end Json

/-! ## Reading -/

theorem map_decodeRecord_eq_ok_iff {α : Type} {shape : Json.Shape} {f : List Json.FieldValue → α}
    (hshape : ∀ f ∈ shape.fields, shape.field? f.name.toList = some f) {s : List Char} {a : α} :
    (Json.decodeRecord shape (ofChars s)).map f = .ok a ↔
      Document (fun d => ∃ vs, shape.Holds vs d ∧ f vs = a) s := by
  constructor
  · intro h
    cases hread : Json.decodeRecord shape (ofChars s) with
    | error fault =>
      rw [hread] at h
      cases h
    | ok vs =>
      rw [hread] at h
      cases h
      obtain ⟨w, d, w', hs, hw, hd, hw'⟩ := (Json.decodeRecord_eq_ok_iff hshape).1 hread
      exact ⟨w, d, w', hs, hw, ⟨vs, hd, rfl⟩, hw'⟩
  · rintro ⟨w, d, w', hs, hw, ⟨vs, hd, rfl⟩, hw'⟩
    rw [(Json.decodeRecord_eq_ok_iff hshape).2 ⟨w, d, w', hs, hw, hd, hw'⟩]
    rfl

namespace Team

def fields (t : Team) : List Json.FieldValue :=
  [.natural t.id, .text t.name.toList, .text t.description.toList, .flag t.deleted]

theorem ofFields_fields (t : Team) : ofFields t.fields = t := by
  simp only [fields, ofFields, String.ofList_toList]

theorem told_iff {t : Team} {id name description deleted : List (List Char)} :
    (∃ v₀ v₁ v₂ v₃, Json.Field.Given ⟨"id", .natural, some (.natural 0)⟩ id v₀ ∧
      Json.Field.Given ⟨"name", .text, none⟩ name v₁ ∧
      Json.Field.Given ⟨"description", .text, some (.text [])⟩ description v₂ ∧
      Json.Field.Given ⟨"is_deleted", .flag, some (.flag false)⟩ deleted v₃ ∧
      ofFields [v₀, v₁, v₂, v₃] = t) ↔ t.Told id name description deleted := by
  constructor
  · rintro ⟨v₀, v₁, v₂, v₃, h₀, h₁, h₂, h₃, rfl⟩
    obtain ⟨n, rfl, hid⟩ := (Json.given_natural_iff (some 0)).1 h₀
    obtain ⟨cs, rfl, hname⟩ := (Json.given_text_iff none).1 h₁
    obtain ⟨cs', rfl, hdescription⟩ := (Json.given_text_iff (some [])).1 h₂
    obtain ⟨b, rfl, hdeleted⟩ := (Json.given_flag_iff (some false)).1 h₃
    simp only [ofFields, Told, String.toList_ofList]
    exact ⟨hid, hname, hdescription, hdeleted⟩
  · rintro ⟨hid, hname, hdescription, hdeleted⟩
    exact ⟨_, _, _, _, (Json.given_natural_iff (some 0)).2 ⟨_, rfl, hid⟩,
      (Json.given_text_iff none).2 ⟨_, rfl, hname⟩,
      (Json.given_text_iff (some [])).2 ⟨_, rfl, hdescription⟩,
      (Json.given_flag_iff (some false)).2 ⟨_, rfl, hdeleted⟩, t.ofFields_fields⟩

theorem holds_iff {t : Team} {s : List Char} :
    (∃ vs, shape.Holds vs s ∧ ofFields vs = t) ↔ t.InObject s ∨ t.InList s := by
  have helements : ∀ es : List (List Char), es[0]? = es.head? ∧ es[1]? = es.tail.head? ∧
      es[2]? = es.tail.tail.head? ∧ es[3]? = es.tail.tail.tail.head? := by
    simp [List.head?_eq_getElem?]
  constructor
  · rintro ⟨vs, ⟨ms, hs, hgiven⟩ | ⟨es, hs, hfilled⟩, rfl⟩
    · simp only [shape, List.forall₂_cons_left_iff, List.forall₂_nil_left_iff] at hgiven
      obtain ⟨v₀, _, h₀, ⟨v₁, _, h₁, ⟨v₂, _, h₂, ⟨v₃, _, h₃, rfl, rfl⟩, rfl⟩, rfl⟩, rfl⟩ := hgiven
      exact .inl ⟨ms, hs, told_iff.1 ⟨v₀, v₁, v₂, v₃, h₀, h₁, h₂, h₃, rfl⟩⟩
    · simp only [shape, Json.filled_cons_iff, Json.filled_nil_iff] at hfilled
      obtain ⟨v₀, _, rfl, h₀, v₁, _, rfl, h₁, v₂, _, rfl, h₂, v₃, _, rfl, h₃, hend, rfl⟩ := hfilled
      have hlength : es.length ≤ 4 := by
        have htail := congrArg List.length hend
        simp only [List.length_tail, List.length_nil] at htail
        omega
      refine .inr ⟨es, hs, hlength, ?_⟩
      obtain ⟨hzero, hone, htwo, hthree⟩ := helements es
      rw [hzero, hone, htwo, hthree]
      exact told_iff.1 ⟨v₀, v₁, v₂, v₃, h₀, h₁, h₂, h₃, rfl⟩
  · rintro (⟨ms, hs, htold⟩ | ⟨es, hs, hlength, htold⟩)
    · obtain ⟨v₀, v₁, v₂, v₃, h₀, h₁, h₂, h₃, rfl⟩ := told_iff.2 htold
      exact ⟨_, .inl ⟨ms, hs, .cons h₀ (.cons h₁ (.cons h₂ (.cons h₃ .nil)))⟩, rfl⟩
    · obtain ⟨hzero, hone, htwo, hthree⟩ := helements es
      rw [hzero, hone, htwo, hthree] at htold
      obtain ⟨v₀, v₁, v₂, v₃, h₀, h₁, h₂, h₃, rfl⟩ := told_iff.2 htold
      have hend : es.tail.tail.tail.tail = [] := by
        rw [← List.length_eq_zero_iff]
        simp only [List.length_tail]
        omega
      refine ⟨_, .inr ⟨es, hs, ?_⟩, rfl⟩
      simp only [shape, Json.filled_cons_iff, Json.filled_nil_iff]
      exact ⟨v₀, _, rfl, h₀, v₁, _, rfl, h₁, v₂, _, rfl, h₂, v₃, _, rfl, h₃, hend, rfl⟩

theorem ofJson_eq_ok_iff {t : Team} {s : List Char} : ofJson (ofChars s) = .ok t ↔ t.Spelled s := by
  rw [ofJson, map_decodeRecord_eq_ok_iff (by decide)]
  simp only [holds_iff, Spelled]

end Team

namespace Draft

def fields (d : Draft) : List Json.FieldValue :=
  [.text d.name.toList, .text d.description.toList]

theorem ofFields_fields (d : Draft) : ofFields d.fields = d := by
  simp only [fields, ofFields, String.ofList_toList]

theorem told_iff {d : Draft} {name description : List (List Char)} :
    (∃ v₀ v₁, Json.Field.Given ⟨"name", .text, none⟩ name v₀ ∧
      Json.Field.Given ⟨"description", .text, some (.text [])⟩ description v₁ ∧
      ofFields [v₀, v₁] = d) ↔ d.Told name description := by
  constructor
  · rintro ⟨v₀, v₁, h₀, h₁, rfl⟩
    obtain ⟨cs, rfl, hname⟩ := (Json.given_text_iff none).1 h₀
    obtain ⟨cs', rfl, hdescription⟩ := (Json.given_text_iff (some [])).1 h₁
    simp only [ofFields, Told, String.toList_ofList]
    exact ⟨hname, hdescription⟩
  · rintro ⟨hname, hdescription⟩
    exact ⟨_, _, (Json.given_text_iff none).2 ⟨_, rfl, hname⟩,
      (Json.given_text_iff (some [])).2 ⟨_, rfl, hdescription⟩, d.ofFields_fields⟩

theorem holds_iff {d : Draft} {s : List Char} :
    (∃ vs, shape.Holds vs s ∧ ofFields vs = d) ↔ d.InObject s ∨ d.InList s := by
  have helements : ∀ es : List (List Char), es[0]? = es.head? ∧ es[1]? = es.tail.head? := by
    simp [List.head?_eq_getElem?]
  constructor
  · rintro ⟨vs, ⟨ms, hs, hgiven⟩ | ⟨es, hs, hfilled⟩, rfl⟩
    · simp only [shape, List.forall₂_cons_left_iff, List.forall₂_nil_left_iff] at hgiven
      obtain ⟨v₀, _, h₀, ⟨v₁, _, h₁, rfl, rfl⟩, rfl⟩ := hgiven
      exact .inl ⟨ms, hs, told_iff.1 ⟨v₀, v₁, h₀, h₁, rfl⟩⟩
    · simp only [shape, Json.filled_cons_iff, Json.filled_nil_iff] at hfilled
      obtain ⟨v₀, _, rfl, h₀, v₁, _, rfl, h₁, hend, rfl⟩ := hfilled
      have hlength : es.length ≤ 2 := by
        have htail := congrArg List.length hend
        simp only [List.length_tail, List.length_nil] at htail
        omega
      refine .inr ⟨es, hs, hlength, ?_⟩
      rw [(helements es).1, (helements es).2]
      exact told_iff.1 ⟨v₀, v₁, h₀, h₁, rfl⟩
  · rintro (⟨ms, hs, htold⟩ | ⟨es, hs, hlength, htold⟩)
    · obtain ⟨v₀, v₁, h₀, h₁, rfl⟩ := told_iff.2 htold
      exact ⟨_, .inl ⟨ms, hs, .cons h₀ (.cons h₁ .nil)⟩, rfl⟩
    · rw [(helements es).1, (helements es).2] at htold
      obtain ⟨v₀, v₁, h₀, h₁, rfl⟩ := told_iff.2 htold
      have hend : es.tail.tail = [] := by
        rw [← List.length_eq_zero_iff]
        simp only [List.length_tail]
        omega
      refine ⟨_, .inr ⟨es, hs, ?_⟩, rfl⟩
      simp only [shape, Json.filled_cons_iff, Json.filled_nil_iff]
      exact ⟨v₀, _, rfl, h₀, v₁, _, rfl, h₁, hend, rfl⟩

theorem ofJson_eq_ok_iff {d : Draft} {s : List Char} :
    ofJson (ofChars s) = .ok d ↔ d.Spelled s := by
  rw [ofJson, map_decodeRecord_eq_ok_iff (by decide)]
  simp only [holds_iff, Spelled]

end Draft

/-- A text is read as a team, or as a draft, if and only if it is one in the grammar, and what it
tells of the fields is what is read. -/
theorem read_iff_spelled (s : String) :
    (∀ t, Team.ofJson (Text.Utf8.symbols s.toUTF8.toList) = .ok t ↔ t.Spelled s.toList) ∧
      ∀ d, Draft.ofJson (Text.Utf8.symbols s.toUTF8.toList) = .ok d ↔ d.Spelled s.toList := by
  rw [Text.Utf8.symbols_toUTF8]
  exact ⟨fun _ => Team.ofJson_eq_ok_iff, fun _ => Draft.ofJson_eq_ok_iff⟩

end Roster
