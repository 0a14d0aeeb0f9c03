import Roster.Proofs.Json.Fields

/-!
Texts, objects and lists as they are written. What is written between quotes spells the text, and
members or elements that are written behind one another are those of an object or of a list; all of
it without control characters.
-/

namespace Roster.Json

/-! ## Texts -/

theorem hex_digitChar {n : Nat} (h : n < 16) : Hex (Nat.digitChar n) n := by
  have hall : ∀ n < 16, "0123456789abcdef".toList[n]? = some (Nat.digitChar n) := by decide
  exact .inl (hall n h)

theorem hexDigits_control {n : Nat} (h : n < 0x20) :
    HexDigits ['0', '0', Nat.digitChar (n / 16), Nat.digitChar (n % 16)] n :=
  ⟨_, _, _, _, 0, 0, n / 16, n % 16, rfl, .inl rfl, .inl rfl, hex_digitChar (by omega),
    hex_digitChar (Nat.mod_lt _ (by decide)), by omega⟩

/-- A character is spelled by the form in which it is written. -/
theorem piece_escapeChar (c : Char) : Piece (escapeChar c) c := by
  unfold escapeChar
  repeat' split
  -- a short escape, the escape of another control character, or the character itself
  all_goals first
    | exact .short (by subst_vars; decide)
    | exact .unit ⟨_, rfl, hexDigits_control ‹_›⟩
    | exact .plain (by omega) ‹_› ‹_›

theorem spells_flatMap (cs : List Char) : Spells (cs.flatMap escapeChar) cs := by
  induction cs with
  | nil => exact .nil
  | cons c cs ih => exact .cons (piece_escapeChar c) ih

theorem isText_quote (cs : List Char) : IsText (quote cs) cs :=
  ⟨_, rfl, spells_flatMap cs⟩

theorem printable_digitChar {n : Nat} (h : n < 0x10) : 0x20 ≤ (Nat.digitChar n).toNat := by
  have hall : ∀ n < 0x10, 0x20 ≤ (Nat.digitChar n).toNat := by decide
  exact hall n h

/-- What is written for a character has no control characters in it. -/
theorem printable_escapeChar (c : Char) : ∀ x ∈ escapeChar c, 0x20 ≤ x.toNat := by
  unfold escapeChar
  repeat' split
  all_goals simp_all
  -- the digits by which another control character is written
  refine ⟨?_, ?_⟩
  · exact printable_digitChar (by omega)
  · exact printable_digitChar (Nat.mod_lt _ (by decide))

theorem printable_quote (cs : List Char) : ∀ x ∈ quote cs, 0x20 ≤ x.toNat := by
  intro x hx
  rw [quote, List.cons_append, List.mem_cons, List.mem_append, List.mem_singleton,
    List.mem_flatMap] at hx
  obtain rfl | ⟨c, -, hx⟩ | rfl := hx
  · decide
  · exact printable_escapeChar c x hx
  · decide

/-! ## Objects -/

def member (name : String) (value : List Char) : List Char :=
  quote name.toList ++ ':' :: value

def members (ms : List (String × List Char)) : List Char :=
  [','].intercalate (ms.map fun m => member m.1 m.2)

theorem isMember_member (name : String) {value : List Char} (h : IsValue value) :
    IsMember (member name value) (name.toList, value) :=
  ⟨[], quote name.toList, [], value, by simp [member], by simp [Blank], isText_quote _,
    by simp [Blank], [], [], by simp, by simp [Blank], h, by simp [Blank]⟩

theorem separated_members {ms : List (String × List Char)} (hne : ms ≠ [])
    (h : ∀ m ∈ ms, IsValue m.2) :
    Separated IsMember (members ms) (ms.map fun m => (m.1.toList, m.2)) := by
  induction ms with
  | nil => exact absurd rfl hne
  | cons m ms ih =>
    obtain ⟨hm, hms⟩ := List.forall_mem_cons.1 h
    cases ms with
    | nil =>
      rw [members, List.map_singleton, List.intercalate_singleton]
      exact .last (isMember_member _ hm)
    | cons m' ms =>
      rw [members, List.map_cons, List.map_cons, List.intercalate_cons_cons, List.append_assoc]
      exact .more (isMember_member _ hm) (ih (List.cons_ne_nil _ _) hms)

/-- Members that are written behind one another are an object. -/
theorem isObject_members {ms : List (String × List Char)} (hne : ms ≠ [])
    (h : ∀ m ∈ ms, IsValue m.2) :
    IsObject ('{' :: members ms ++ ['}']) (ms.map fun m => (m.1.toList, m.2)) :=
  ⟨members ms, rfl, .inr (separated_members hne h)⟩

theorem printable_member {name : String} {value : List Char} (h : ∀ c ∈ value, 0x20 ≤ c.toNat) :
    ∀ c ∈ member name value, 0x20 ≤ c.toNat := by
  intro c hc
  rw [member, List.mem_append, List.mem_cons] at hc
  obtain hc | rfl | hc := hc
  · exact printable_quote _ c hc
  · decide
  · exact h c hc

theorem printable_members {ms : List (String × List Char)}
    (h : ∀ m ∈ ms, ∀ c ∈ m.2, 0x20 ≤ c.toNat) : ∀ c ∈ members ms, 0x20 ≤ c.toNat := by
  induction ms with
  | nil => simp [members]
  | cons m ms ih =>
    obtain ⟨hm, hms⟩ := List.forall_mem_cons.1 h
    cases ms with
    | nil =>
      rw [members, List.map_singleton, List.intercalate_singleton]
      exact printable_member hm
    | cons m' ms =>
      rw [members, List.map_cons, List.map_cons, List.intercalate_cons_cons]
      intro c hc
      simp only [List.append_assoc, List.singleton_append, List.mem_append, List.mem_cons] at hc
      obtain hc | rfl | hc := hc
      · exact printable_member hm c hc
      · decide
      · exact ih hms c (by simpa [members] using hc)

theorem printable_object {ms : List (String × List Char)}
    (h : ∀ m ∈ ms, ∀ c ∈ m.2, 0x20 ≤ c.toNat) :
    ∀ c ∈ '{' :: members ms ++ ['}'], 0x20 ≤ c.toNat := by
  intro c hc
  simp only [List.cons_append, List.mem_cons, List.mem_append, List.not_mem_nil, or_false] at hc
  obtain rfl | hc | rfl := hc
  · decide
  · exact printable_members h c hc
  · decide

/-! ## Values of any shape -/

def object (ms : List (String × List Char)) : List Char :=
  '{' :: members ms ++ ['}']

def array (vs : List (List Char)) : List Char :=
  '[' :: [','].intercalate vs ++ [']']

theorem isNumber_toDigits (n : Nat) : IsNumber (Nat.toDigits 10 n) :=
  ⟨[], _, [], [], by simp, .inl rfl, Text.isNumeral_toDigits n, .inl rfl, .inl rfl⟩

theorem printable_toDigits (n : Nat) : ∀ c ∈ Nat.toDigits 10 n, 0x20 ≤ c.toNat := by
  intro c hc
  have hdigit := (Text.isNumeral_toDigits n).digits c hc
  have hlow : 48 ≤ c.toNat := (Text.toNat_of_isDigit hdigit).1
  omega

/-- What an item of a bracket consists of: its label, if the bracket has labels, and its value. -/
def IsItem (b : Bracket) (s : List Char) : Prop :=
  ∃ l w v w', s = l ++ w ++ v ++ w' ∧ IsLabel b l ∧ Blank w ∧ IsValue v ∧ Blank w'

theorem IsMember.isItem {s : List Char} {m : List Char × List Char} (h : IsMember s m) :
    IsItem .object s := by
  obtain ⟨w, k, w', e, rfl, hw, hk, hw', x, x', rfl, hx, hv, hx'⟩ := h
  exact ⟨w ++ k ++ w' ++ [':'], x, m.2, x', by simp, ⟨w, k, w', rfl, hw, hk.isAnyText, hw'⟩, hx, hv,
    hx'⟩

theorem IsElement.isItem {s v : List Char} (h : IsElement s v) : IsItem .list s := by
  obtain ⟨w, w', rfl, hw, hv, hw'⟩ := h
  exact ⟨[], w, v, w', by simp, rfl, hw, hv, hw'⟩

theorem Separated.formed {α : Type} {P : List Char → α → Prop} {b : Bracket} {s : List Char}
    {as : List α} (h : Separated P s as) (hP : ∀ s a, P s a → IsItem b s) :
    Formed (.items b) s := by
  induction h with
  | last hitem =>
    obtain ⟨l, w, v, w', rfl, hl, hw, hv, hw'⟩ := hP _ _ hitem
    exact .last hl hw hv hw'
  | more hitem _ ih =>
    obtain ⟨l, w, v, w', rfl, hl, hw, hv, hw'⟩ := hP _ _ hitem
    exact .more hl hw hv hw' ih

theorem IsObject.isValue {s : List Char} {ms : List (List Char × List Char)}
    (h : IsObject s ms) : IsValue s := by
  obtain ⟨body, rfl, ⟨hbody, -⟩ | hbody⟩ := h
  · exact .empty (b := .object) hbody
  · exact .filled (b := .object) (hbody.formed fun _ _ => IsMember.isItem)

theorem IsList.isValue {s : List Char} {vs : List (List Char)} (h : IsList s vs) : IsValue s := by
  obtain ⟨body, rfl, ⟨hbody, -⟩ | hbody⟩ := h
  · exact .empty (b := .list) hbody
  · exact .filled (b := .list) (hbody.formed fun _ _ => IsElement.isItem)

theorem isValue_object {ms : List (String × List Char)} (hne : ms ≠ [])
    (h : ∀ m ∈ ms, IsValue m.2) : IsValue (object ms) :=
  (isObject_members hne h).isValue

theorem isElement_self {v : List Char} (h : IsValue v) : IsElement v v :=
  ⟨[], [], by simp, by simp [Blank], h, by simp [Blank]⟩

/-- Elements that are written behind one another are a list. -/
theorem isList_array {vs : List (List Char)} (h : ∀ v ∈ vs, IsValue v) : IsList (array vs) vs := by
  refine ⟨_, rfl, ?_⟩
  induction vs with
  | nil => exact .inl ⟨by simp [Blank], rfl⟩
  | cons v vs ih =>
    obtain ⟨hv, hvs⟩ := List.forall_mem_cons.1 h
    cases vs with
    | nil =>
      rw [List.intercalate_singleton]
      exact .inr (.last (isElement_self hv))
    | cons v' vs =>
      obtain ⟨-, hnil⟩ | hrest := ih hvs
      · cases hnil
      · rw [List.intercalate_cons_cons, List.append_assoc]
        exact .inr (.more (isElement_self hv) hrest)

theorem isValue_array {vs : List (List Char)} (h : ∀ v ∈ vs, IsValue v) : IsValue (array vs) :=
  (isList_array h).isValue

theorem printable_array {vs : List (List Char)} (h : ∀ v ∈ vs, ∀ c ∈ v, 0x20 ≤ c.toNat) :
    ∀ c ∈ array vs, 0x20 ≤ c.toNat := by
  have hbody : ∀ c ∈ [','].intercalate vs, 0x20 ≤ c.toNat := by
    induction vs with
    | nil => simp
    | cons v vs ih =>
      obtain ⟨hv, hvs⟩ := List.forall_mem_cons.1 h
      cases vs with
      | nil => rwa [List.intercalate_singleton]
      | cons v' vs =>
        rw [List.intercalate_cons_cons]
        intro c hc
        simp only [List.mem_append, List.mem_singleton] at hc
        obtain (hc | rfl) | hc := hc
        · exact hv c hc
        · decide
        · exact ih hvs c hc
  intro c hc
  simp only [array, List.cons_append, List.mem_cons, List.mem_append, List.not_mem_nil,
    or_false] at hc
  obtain rfl | hc | rfl := hc
  · decide
  · exact hbody c hc
  · decide

structure Clean (v : List Char) : Prop where
  isValue : IsValue v
  printable : ∀ c ∈ v, 0x20 ≤ c.toNat

theorem clean_toDigits (n : Nat) : Clean (Nat.toDigits 10 n) :=
  ⟨.number (isNumber_toDigits n), printable_toDigits n⟩

theorem clean_quote (cs : List Char) : Clean (quote cs) :=
  ⟨.text (isText_quote cs).isAnyText, printable_quote cs⟩

theorem clean_object {ms : List (String × List Char)} (hne : ms ≠ [])
    (h : ∀ m ∈ ms, Clean m.2) : Clean (object ms) :=
  ⟨isValue_object hne fun m hm => (h m hm).isValue, printable_object fun m hm => (h m hm).printable⟩

theorem clean_array {vs : List (List Char)} (h : ∀ v ∈ vs, Clean v) : Clean (array vs) :=
  ⟨isValue_array fun v hv => (h v hv).isValue, printable_array fun v hv => (h v hv).printable⟩

end Roster.Json
