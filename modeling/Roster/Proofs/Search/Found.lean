import Roster.Proofs.Search.Like
import Roster.Proofs.Store.Live
import Roster.Service.Basic
import Mathlib

/-!
What a search finds. The rows are tried one after the other and the patterns of the query on each
of them; a search that ends without a refusal has found the live teams whose text the query finds.
-/

namespace Roster

/-- The text of a team that a query is looked for in: the name and the description, up to the first
U+0000. -/
def Team.text (t : Team) : List Char :=
  Search.untilNull (t.name.toList ++ ' ' :: t.description.toList)

/-- Whether a query finds a team among those that are held. -/
def Search.Found (held : Team → Prop) (query : String) (mode : Mode) (t : Team) : Prop :=
  held t ∧ Text.words query.toList ≠ [] ∧ Finds Alike query mode t.text

namespace Text

theorem words_cons_of_blank {c : Char} (hc : isBlank c = true) (cs : List Char) :
    words (c :: cs) = words cs := by
  rw [words, List.splitOnP_cons_eq_if_modifyHead, if_pos hc]
  rfl

theorem words_cons_ne_nil {c : Char} (hc : isBlank c = false) (cs : List Char) :
    words (c :: cs) ≠ [] := by
  obtain ⟨w, ws, h⟩ := List.exists_cons_of_ne_nil (List.splitOnP_ne_nil isBlank cs)
  rw [words, List.splitOnP_cons_eq_if_modifyHead, if_neg (by simp [hc]), h]
  simp

/-- Only a text of blanks has no word. -/
theorem words_eq_nil_iff {cs : List Char} : words cs = [] ↔ ∀ c ∈ cs, isBlank c = true := by
  induction cs with
  | nil => exact iff_of_true rfl (by simp)
  | cons c cs ih =>
    rw [List.forall_mem_cons]
    by_cases hc : isBlank c = true
    · rw [words_cons_of_blank hc, ih, and_iff_right hc]
    · have hword := words_cons_ne_nil (Bool.eq_false_iff.2 hc) cs
      exact iff_of_false hword fun h => hc h.1

theorem isEmpty_iff {s : String} : isEmpty s = true ↔ words s.toList = [] := by
  rw [isEmpty, List.all_eq_true, words_eq_nil_iff]

end Text

namespace Store

theorem untilNull_searched (r : Row) : Search.untilNull (searched r) = r.team.text := rfl

/-- When no pattern was refused, the patterns were tried as if all of them had been. -/
theorem matchAll_ok {text : List Char} {ps : List (List Char)} {found : Bool}
    (h : matchAll text ps = .ok found) : found = ps.all fun p => Search.like p text := by
  induction ps with
  | nil =>
    cases h
    rfl
  | cons p ps ih =>
    rw [matchAll] at h
    rw [List.all_cons]
    by_cases hsize : maxPatternSize < (String.ofList p).utf8ByteSize
    · rw [if_pos hsize] at h
      cases h
    · rw [if_neg hsize] at h
      by_cases hlike : Search.like p text = true
      · rw [if_pos hlike] at h
        rw [hlike, Bool.true_and, ih h]
      · rw [if_neg hlike] at h
        cases h
        rw [Bool.eq_false_iff.2 hlike, Bool.false_and]

theorem matching_ok {ps : List (List Char)} {rows found : List Row}
    (h : matching ps rows = .ok found) :
    found = rows.filter fun r => ps.all fun p => Search.like p (searched r) := by
  induction rows generalizing found with
  | nil =>
    cases h
    rfl
  | cons r rows ih =>
    rw [matching] at h
    cases hr : matchAll (searched r) ps with
    | error refusal =>
      rw [hr] at h
      cases h
    | ok b =>
      cases hrest : matching ps rows with
      | error refusal =>
        rw [hr, hrest] at h
        cases h
      | ok rest =>
        rw [hr, hrest] at h
        cases h
        rw [List.filter_cons, ← matchAll_ok hr, ih hrest]

/-- A refusal tells of a pattern that is too long. -/
theorem matchAll_error {text : List Char} {ps : List (List Char)} {refusal : Refusal}
    (h : matchAll text ps = .error refusal) :
    refusal = .patternTooLong ∧ ∃ p ∈ ps, maxPatternSize < (String.ofList p).utf8ByteSize := by
  induction ps with
  | nil => cases h
  | cons p ps ih =>
    rw [matchAll] at h
    by_cases hsize : maxPatternSize < (String.ofList p).utf8ByteSize
    · rw [if_pos hsize] at h
      cases h
      exact ⟨rfl, p, List.mem_cons_self, hsize⟩
    · rw [if_neg hsize] at h
      split at h
      · obtain ⟨hrefusal, q, hq, hlong⟩ := ih h
        exact ⟨hrefusal, q, List.mem_cons_of_mem p hq, hlong⟩
      · cases h

theorem matching_error {ps : List (List Char)} {rows : List Row} {refusal : Refusal}
    (h : matching ps rows = .error refusal) :
    refusal = .patternTooLong ∧ ∃ p ∈ ps, maxPatternSize < (String.ofList p).utf8ByteSize := by
  induction rows with
  | nil => cases h
  | cons r rows ih =>
    rw [matching] at h
    cases hr : matchAll (searched r) ps with
    | error e =>
      rw [hr] at h
      cases h
      exact matchAll_error hr
    | ok b =>
      rw [hr] at h
      cases hrest : matching ps rows with
      | error e =>
        rw [hrest] at h
        cases h
        exact ih hrest
      | ok rest =>
        rw [hrest] at h
        cases h

/-- A search that is not refused shows what the query finds. -/
theorem search_ok {s : Store} {query : String} {mode : Search.Mode} {ts : List Team}
    (h : s.search query mode = .ok ts) : Shows (Search.Found s.table.Holds query mode) ts := by
  simp only [search, Search.patterns_eq_nil_iff] at h
  by_cases hwords : Text.words query.toList = []
  · rw [if_pos hwords] at h
    cases h
    refine ⟨List.Pairwise.nil, fun t => ?_⟩
    exact iff_of_false List.not_mem_nil fun hfound => hfound.2.1 hwords
  · rw [if_neg hwords] at h
    split at h
    · cases h
    · cases hrows : matching (Search.patterns query mode) s.table.live with
      | error refusal =>
        rw [hrows] at h
        cases h
      | ok rows =>
        rw [hrows] at h
        cases h
        rw [matching_ok hrows]
        refine s.table.shows_filter _ fun r => ?_
        rw [List.all_eq_true, Search.forall_like_iff hwords, untilNull_searched]
        exact (and_iff_right hwords).symm

/-- A search is refused because the query has too many words or a word that is too long. -/
theorem search_error {s : Store} {query : String} {mode : Search.Mode} {e : StoreError}
    (h : s.search query mode = .error e) :
    (e = .refused .tooManyPatterns ∧ maxPatterns < (Search.patterns query mode).length) ∨
      (e = .refused .patternTooLong ∧ ∃ p ∈ Search.patterns query mode,
        maxPatternSize < (String.ofList p).utf8ByteSize) := by
  simp only [search] at h
  split at h
  · cases h
  · split at h
    · rename_i hmany
      cases h
      exact Or.inl ⟨rfl, hmany⟩
    · cases hrows : matching (Search.patterns query mode) s.table.live with
      | error refusal =>
        rw [hrows] at h
        cases h
        obtain ⟨rfl, hlong⟩ := matching_error hrows
        exact Or.inr ⟨rfl, hlong⟩
      | ok rows =>
        rw [hrows] at h
        cases h

end Store

namespace Service

/-- The service passes a query with a word to the store, and no other. -/
theorem result_search (s : Service) (query : String) (mode : Search.Mode) :
    (s.search query mode).result =
      if Text.words query.toList = [] then .error (.invalid .emptyQuery)
      else (s.store.search query mode).mapError .storage := by
  simp only [search, Text.isEmpty_iff]
  split
  · rfl
  · cases s.store.search query mode with
    | error e => rfl
    | ok ts => rfl

theorem search_ok {s : Service} {query : String} {mode : Search.Mode} {ts : List Team}
    (h : (s.search query mode).result = .ok ts) :
    Shows (Search.Found s.store.table.Holds query mode) ts := by
  rw [result_search] at h
  split at h
  · cases h
  · cases hstore : s.store.search query mode with
    | error e =>
      rw [hstore] at h
      cases h
    | ok found =>
      rw [hstore] at h
      cases h
      exact Store.search_ok hstore

theorem search_emptyQuery_iff {s : Service} {query : String} {mode : Search.Mode} :
    (s.search query mode).result = .error (.invalid .emptyQuery) ↔
      ∀ c ∈ query.toList, Text.isBlank c = true := by
  rw [result_search, ← Text.words_eq_nil_iff]
  by_cases hwords : Text.words query.toList = []
  · rw [if_pos hwords]
    exact iff_of_true rfl hwords
  · rw [if_neg hwords]
    refine iff_of_false (fun h => ?_) hwords
    cases hstore : s.store.search query mode with
    | error e =>
      rw [hstore] at h
      cases h
    | ok found =>
      rw [hstore] at h
      cases h

/-- A search that succeeds shows the live teams that the query finds, each once and in order; only a
query of blanks is refused as empty. -/
theorem search_shows_found (s : Service) (query : String) (mode : Search.Mode) :
    (∀ ts, s.store.search query mode = .ok ts →
        Shows (Search.Found s.store.table.Holds query mode) ts) ∧
      (∀ ts, (s.search query mode).result = .ok ts →
        Shows (Search.Found s.store.table.Holds query mode) ts) ∧
      ((s.search query mode).result = .error (.invalid .emptyQuery) ↔
        ∀ c ∈ query.toList, Text.isBlank c = true) :=
  ⟨fun _ h => Store.search_ok h, fun _ h => search_ok h, search_emptyQuery_iff⟩

def fewTeams : Service :=
  ofStore
    { table := ((Table.empty.insert ⟨2, "a%", "\ufffe", 0⟩).insert ⟨1, "ab", "", 0⟩).insert
        ⟨-1, "a%", "", 1⟩ }
    { reach := 1 } 1

theorem search_shows_wildcard :
    ((fewTeams.search "A%" .plain).result = .ok [⟨2, "a%", "\ufffe", false⟩] ∧
      Shows (Search.Found fewTeams.store.table.Holds "A%" .plain) [⟨2, "a%", "\ufffe", false⟩]) ∧
    fewTeams.store.search "b " .phrase = .ok [⟨1, "ab", "", false⟩] ∧
      Shows (Search.Found fewTeams.store.table.Holds "b " .phrase) [⟨1, "ab", "", false⟩] := by
  have hservice : (fewTeams.search "A%" .plain).result = .ok [⟨2, "a%", "\ufffe", false⟩] := by
    cbv
  have hstore : fewTeams.store.search "b " .phrase = .ok [⟨1, "ab", "", false⟩] := by
    cbv
  exact ⟨⟨hservice, (search_shows_found fewTeams "A%" .plain).2.1 _ hservice⟩,
    hstore, (search_shows_found fewTeams "b " .phrase).1 _ hstore⟩

/-- A character is found for another one although they differ in more than case; and a query
without a word finds nothing in a store, although no word of it is missing. -/
theorem search_differs_from_literal :
    ((fewTeams.search "\uffff" .plain).result = .ok [⟨2, "a%", "\ufffe", false⟩] ∧
      ¬Search.Finds Search.SameUpToCase "\uffff" .plain
        (Team.text ⟨2, "a%", "\ufffe", false⟩)) ∧
    fewTeams.store.search "" .plain = .ok [] ∧
      fewTeams.store.table.Holds ⟨1, "ab", "", false⟩ ∧
      Search.Finds Search.SameUpToCase "" .plain (Team.text ⟨1, "ab", "", false⟩) := by
  refine ⟨⟨by cbv, fun h => ?_⟩, by cbv, ⟨⟨1, "ab", "", 0⟩, by decide, rfl, rfl⟩, ?_⟩
  · have hword : Search.Matches Search.SameUpToCase ['\uffff']
        (Team.text ⟨2, "a%", "\ufffe", false⟩) := h _ (by decide)
    rw [Search.Matches, if_neg (by decide)] at hword
    obtain ⟨u, hu, hsame⟩ := hword
    obtain ⟨c, u, hc, -, rfl⟩ := List.forall₂_cons_left_iff.1 hsame
    have hmem : c ∈ ['a', '%', ' ', '\ufffe'] := hu.subset List.mem_cons_self
    simp only [List.mem_cons, List.not_mem_nil, or_false] at hmem
    obtain rfl | rfl | rfl | rfl := hmem
    · exact absurd hc (by decide)
    · exact absurd hc (by decide)
    · exact absurd hc (by decide)
    · exact absurd hc (by decide)
  · intro w hw
    exact absurd hw List.not_mem_nil

end Service

end Roster
