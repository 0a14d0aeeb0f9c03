import Roster.Search.Pattern
import Mathlib.Data.List.Forall2

/-!
What a pattern made from a word matches. The matcher tries one place after the other; here its
answer is described by parts of the text, and a word's pattern turns out to look for the word
itself, whatever special characters it has.
-/

namespace Roster.Search

def SameUpToCase (a b : Char) : Prop :=
  a.toLower = b.toLower

instance (a b : Char) : Decidable (SameUpToCase a b) :=
  inferInstanceAs (Decidable (a.toLower = b.toLower))

/-- A character as it is read from a text: the two last characters of the basic plane are read as
the replacement character. -/
def asRead (c : Char) : Char :=
  if c = '\ufffe' ∨ c = '\uffff' then '\ufffd' else c

/-- Equality of the characters that are read, up to the case of ASCII letters. -/
def Alike (a b : Char) : Prop :=
  SameUpToCase (asRead a) (asRead b)

/-- Whether a text has a word, its characters being compared by `alike`. A word with a U+0000 ends
there, and the text has to end with it. -/
def Matches (alike : Char → Char → Prop) (word text : List Char) : Prop :=
  if '\x00' ∈ word then ∃ u, u <:+ text ∧ List.Forall₂ alike (untilNull word) u
  else ∃ u, u <:+: text ∧ List.Forall₂ alike word u

theorem folded_eq (c : Char) : folded c = (asRead c).toLower := by
  unfold folded asRead
  by_cases h : c = '\ufffe' ∨ c = '\uffff'
  · rw [if_pos h, if_pos h]
    rfl
  · rw [if_neg h, if_neg h]

theorem sameLetter_iff {a b : Char} : sameLetter a b = true ↔ Alike a b := by
  rw [sameLetter, beq_iff_eq, folded_eq, folded_eq, Alike, SameUpToCase]

/-! The matcher, part by part. -/

theorem fits_nil_iff {text : List Char} : fits [] text = true ↔ text = [] := by
  rw [fits, List.isEmpty_iff]

theorem fits_any_iff {ps : List Glyph} {text : List Char} :
    fits (.any :: ps) text = true ↔ ∃ v, v <:+ text ∧ fits ps v = true := by
  induction text with
  | nil =>
    rw [fits]
    simp [List.suffix_nil]
  | cons c text ih =>
    rw [fits, Bool.or_eq_true, ih]
    constructor
    · rintro (h | ⟨v, hv, h⟩)
      · exact ⟨c :: text, List.suffix_refl _, h⟩
      · exact ⟨v, hv.trans (List.suffix_cons c text), h⟩
    · rintro ⟨v, hv, h⟩
      obtain rfl | hv := List.suffix_cons_iff.1 hv
      · exact Or.inl h
      · exact Or.inr ⟨v, hv, h⟩

theorem fits_chars_iff {word : List Char} {ps : List Glyph} {text : List Char} :
    fits (word.map .char ++ ps) text = true ↔
      ∃ u v, text = u ++ v ∧ List.Forall₂ Alike word u ∧ fits ps v = true := by
  induction word generalizing text with
  | nil =>
    constructor
    · intro h
      exact ⟨[], text, rfl, .nil, h⟩
    · rintro ⟨u, v, rfl, hu, h⟩
      obtain rfl := List.forall₂_nil_left_iff.1 hu
      exact h
  | cons a word ih =>
    rw [List.map_cons, List.cons_append]
    constructor
    · intro h
      cases text with
      | nil => simp [fits] at h
      | cons c text =>
        rw [fits, Bool.and_eq_true, sameLetter_iff] at h
        obtain ⟨u, v, rfl, hu, hv⟩ := ih.1 h.2
        exact ⟨c :: u, v, rfl, .cons h.1 hu, hv⟩
    · rintro ⟨u, v, rfl, hu, hv⟩
      obtain ⟨c, u, hac, htail, rfl⟩ := List.forall₂_cons_left_iff.1 hu
      rw [List.cons_append, fits, Bool.and_eq_true, sameLetter_iff]
      exact ⟨hac, ih.2 ⟨u, v, rfl, htail, hv⟩⟩

/-- A word between two wildcards stands anywhere. -/
theorem fits_between_iff {word text : List Char} :
    fits (.any :: (word.map .char ++ [.any])) text = true ↔
      ∃ u, u <:+: text ∧ List.Forall₂ Alike word u := by
  rw [fits_any_iff]
  constructor
  · rintro ⟨v, hv, h⟩
    obtain ⟨u, w, rfl, hu, -⟩ := fits_chars_iff.1 h
    exact ⟨u, (List.prefix_append u w).isInfix.trans hv.isInfix, hu⟩
  · rintro ⟨u, ⟨before, after, rfl⟩, hu⟩
    refine ⟨u ++ after, ⟨before, by rw [List.append_assoc]⟩, ?_⟩
    have hrest : fits [.any] after = true :=
      fits_any_iff.2 ⟨[], List.nil_suffix, fits_nil_iff.2 rfl⟩
    exact fits_chars_iff.2 ⟨u, after, rfl, hu, hrest⟩

/-- A word after a wildcard stands at the end. -/
theorem fits_after_iff {word text : List Char} :
    fits (.any :: word.map .char) text = true ↔
      ∃ u, u <:+ text ∧ List.Forall₂ Alike word u := by
  rw [fits_any_iff]
  have hword {v : List Char} : fits (word.map .char) v = true ↔ List.Forall₂ Alike word v := by
    have h := @fits_chars_iff word [] v
    simpa [fits_nil_iff] using h
  simp only [hword]

/-! The parts of a word's pattern. -/

theorem glyphs_cons {c : Char} (hc : ¬(c = '%' ∨ c = '_' ∨ c = '\\')) (rest : List Char) :
    glyphs (c :: rest) = .char c :: glyphs rest := by
  rw [not_or, not_or] at hc
  obtain ⟨h1, h2, h3⟩ := hc
  rw [glyphs]
  · exact h1
  · exact h2
  · intro h
    exact absurd h h3
  · intro _ _ h
    exact absurd h h3

theorem glyphs_backslash {c : Char} (rest : List Char) :
    glyphs ('\\' :: c :: rest) = .char c :: glyphs rest := by
  rw [glyphs]

theorem escape_cons (c : Char) (word : List Char) :
    escape (c :: word) =
      (if c = '%' ∨ c = '_' ∨ c = '\\' then ['\\', c] else [c]) ++ escape word := by
  rw [escape, List.flatMap_cons]
  rfl

/-- Every character of an escaped word stands for itself. -/
theorem glyphs_escape (word rest : List Char) :
    glyphs (escape word ++ rest) = word.map .char ++ glyphs rest := by
  induction word with
  | nil => rfl
  | cons c word ih =>
    rw [escape_cons, List.map_cons]
    by_cases hc : c = '%' ∨ c = '_' ∨ c = '\\'
    · rw [if_pos hc]
      simp only [List.cons_append, List.nil_append]
      rw [glyphs_backslash, ih]
    · rw [if_neg hc]
      simp only [List.cons_append, List.nil_append]
      rw [glyphs_cons hc, ih]

theorem untilNull_cons {c : Char} (hc : c ≠ '\x00') (cs : List Char) :
    untilNull (c :: cs) = c :: untilNull cs := by
  rw [untilNull, List.takeWhile_cons, if_pos (by simpa using hc)]
  rfl

/-- Escaping leaves a U+0000 where it is: what follows it is cut off in either order. -/
theorem untilNull_escape (word rest : List Char) :
    untilNull (escape word ++ rest) =
      if '\x00' ∈ word then escape (untilNull word) else escape word ++ untilNull rest := by
  induction word with
  | nil => rfl
  | cons c word ih =>
    by_cases hnull : c = '\x00'
    · subst hnull
      rw [if_pos (List.mem_cons_self ..)]
      rfl
    · have hmem : '\x00' ∈ c :: word ↔ '\x00' ∈ word := by
        simp [Ne.symm hnull]
      have hback : '\\' ≠ '\x00' := by decide
      rw [untilNull_cons hnull, escape_cons, escape_cons, List.append_assoc]
      by_cases hc : c = '%' ∨ c = '_' ∨ c = '\\'
      · simp only [if_pos hc, List.cons_append, List.nil_append]
        rw [untilNull_cons hback, untilNull_cons hnull, ih]
        simp only [hmem]
        split <;> rfl
      · simp only [if_neg hc, List.cons_append, List.nil_append]
        rw [untilNull_cons hnull, ih]
        simp only [hmem]
        split <;> rfl

/-- The pattern of a word matches the texts that have the word. -/
theorem like_containing_iff {word text : List Char} :
    like (containing word) text = true ↔ Matches Alike word (untilNull text) := by
  have hpercent : '%' ≠ '\x00' := by decide
  rw [like, containing, List.cons_append, untilNull_cons hpercent, untilNull_escape, Matches]
  by_cases hnull : '\x00' ∈ word
  · rw [if_pos hnull, if_pos hnull]
    have h := glyphs_escape (untilNull word) []
    rw [List.append_nil, glyphs, List.append_nil] at h
    rw [glyphs, h, fits_after_iff]
  · rw [if_neg hnull, if_neg hnull]
    have hend : glyphs (untilNull ['%']) = [.any] := rfl
    rw [glyphs, glyphs_escape, hend, fits_between_iff]

/-! The words of a query. -/

/-- Whether a query finds a text: each of its words in it, or all of them together in order. -/
def Finds (alike : Char → Char → Prop) (query : String) : Mode → List Char → Prop
  | .plain, text => ∀ w ∈ Text.words query.toList, Matches alike w text
  | .phrase, text =>
    Text.words query.toList ≠ [] ∧ Matches alike (Text.unwords (Text.words query.toList)) text

theorem patterns_eq_nil_iff {query : String} {mode : Mode} :
    patterns query mode = [] ↔ Text.words query.toList = [] := by
  cases mode with
  | plain => rw [patterns, List.map_eq_nil_iff]
  | phrase =>
    rw [patterns]
    split
    · rename_i h
      exact iff_of_true rfl h
    · rename_i h
      exact iff_of_false (List.cons_ne_nil _ _) h

/-- The patterns of a query with a word match together the texts that the query finds. -/
theorem forall_like_iff {query : String} {mode : Mode} {text : List Char}
    (hwords : Text.words query.toList ≠ []) :
    (∀ p ∈ patterns query mode, like p text = true) ↔
      Finds Alike query mode (untilNull text) := by
  cases mode with
  | plain => simp only [patterns, List.forall_mem_map, like_containing_iff, Finds]
  | phrase =>
    simp only [patterns, if_neg hwords, List.forall_mem_singleton, like_containing_iff, Finds]
    exact ⟨fun h => ⟨hwords, h⟩, And.right⟩

end Roster.Search
