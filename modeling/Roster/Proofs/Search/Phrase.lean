import Roster.Proofs.Search.Found

/-!
Phrases. Whatever blanks a query has, its words are looked for with one space between each two of
them, while the text of a team keeps the blanks that it has. So words that are adjacent in a name or
in a description are found where single spaces separate them, and may be missed elsewhere.
-/

namespace Roster

/-! ## Words and the texts that they stand in -/

namespace Text

theorem isInfix_of_splitOnP {p : Char → Bool} {cs w : List Char} {ws : List (List Char)}
    (h : cs.splitOnP p = w :: ws) : w <+: cs ∧ ∀ v ∈ ws, v <:+: cs := by
  induction cs generalizing w ws with
  | nil =>
    cases h
    exact ⟨List.nil_prefix, by simp⟩
  | cons c cs ih =>
    obtain ⟨w', ws', hrest⟩ := List.exists_cons_of_ne_nil (List.splitOnP_ne_nil p cs)
    obtain ⟨hfirst, hothers⟩ := ih hrest
    rw [List.splitOnP_cons_eq_if_modifyHead, hrest] at h
    split at h
    · cases h
      refine ⟨List.nil_prefix, List.forall_mem_cons.2 ⟨?_, ?_⟩⟩
      · exact List.infix_cons hfirst.isInfix
      · exact fun v hv => List.infix_cons (hothers v hv)
    · cases h
      exact ⟨(List.prefix_cons_inj c).2 hfirst, fun v hv => List.infix_cons (hothers v hv)⟩

/-- A word of a text stands in it. -/
theorem isInfix_of_mem_words {w cs : List Char} (h : w ∈ words cs) : w <:+: cs := by
  obtain ⟨v, vs, hsplit⟩ := List.exists_cons_of_ne_nil (List.splitOnP_ne_nil isBlank cs)
  obtain ⟨hfirst, hothers⟩ := isInfix_of_splitOnP hsplit
  rw [words, hsplit] at h
  obtain rfl | hmem := List.mem_cons.1 (List.mem_filter.1 h).1
  · exact hfirst.isInfix
  · exact hothers w hmem

theorem unwords_singleton (w : List Char) : unwords [w] = w :=
  List.intercalate_singleton ..

theorem unwords_cons_cons (w w' : List Char) (ws : List (List Char)) :
    unwords (w :: w' :: ws) = w ++ ' ' :: unwords (w' :: ws) := by
  rw [unwords, List.intercalate_cons_cons, List.append_assoc]
  rfl

theorem mem_unwords {c : Char} {ws : List (List Char)} (h : c ∈ unwords ws) :
    c = ' ' ∨ ∃ w ∈ ws, c ∈ w := by
  induction ws with
  | nil => cases h
  | cons w ws ih =>
    cases ws with
    | nil => exact .inr ⟨w, List.mem_cons_self, unwords_singleton w ▸ h⟩
    | cons w' ws =>
      rw [unwords_cons_cons, List.mem_append, List.mem_cons] at h
      obtain h | rfl | h := h
      · exact .inr ⟨w, List.mem_cons_self, h⟩
      · exact .inl rfl
      · exact (ih h).imp_right fun ⟨v, hv, hc⟩ => ⟨v, List.mem_cons_of_mem w hv, hc⟩

theorem null_notMem_unwords_words {cs : List Char} (h : '\x00' ∉ cs) :
    '\x00' ∉ unwords (words cs) := by
  intro hmem
  obtain hspace | ⟨w, hw, hnull⟩ := mem_unwords hmem
  · exact absurd hspace (by decide)
  · exact h ((isInfix_of_mem_words hw).subset hnull)

end Text

namespace Search

/-! ## Texts that read like the words -/

/-- Only letters are written in two ways. -/
theorem eq_of_toLower_eq {a b : Char} (hb : b.isAlpha = false) (h : a.toLower = b) : a = b := by
  cases ha : a.isUpper with
  | true =>
    have hletter : a.toLower.isLower = a.isAlpha := Char.isLower_toLower_eq_isAlpha a
    rw [h, Char.isAlpha, ha, Bool.true_or] at hletter
    rw [Char.isAlpha, hletter, Bool.or_true] at hb
    cases hb
  | false => rw [← h, Char.toLower_eq_of_not_isUpper (by simp [ha])]

theorem asRead_of_ne {c : Char} (h : ¬(c = '\ufffe' ∨ c = '\uffff')) : asRead c = c :=
  if_neg h

/-- The characters that are not told apart from the replacement character are no letters. -/
theorem eq_of_sameUpToCase {a b : Char} (hb : b = '\ufffe' ∨ b = '\uffff')
    (h : SameUpToCase a b) : a = b := by
  obtain rfl | rfl := hb
  · exact eq_of_toLower_eq (by decide) h
  · exact eq_of_toLower_eq (by decide) h

theorem alike_of_sameUpToCase {a b : Char} (h : SameUpToCase a b) : Alike a b := by
  by_cases ha : a = '\ufffe' ∨ a = '\uffff'
  · rw [eq_of_sameUpToCase ha h.symm]
    rfl
  · by_cases hb : b = '\ufffe' ∨ b = '\uffff'
    · rw [eq_of_sameUpToCase hb h]
      rfl
    · rwa [Alike, asRead_of_ne ha, asRead_of_ne hb]

theorem alike_space_iff {c : Char} : Alike ' ' c ↔ c = ' ' := by
  constructor
  · intro h
    have hread : asRead c = ' ' := eq_of_toLower_eq (by decide) h.symm
    by_cases hc : c = '\ufffe' ∨ c = '\uffff'
    · rw [asRead, if_pos hc] at hread
      exact absurd hread (by decide)
    · rwa [asRead_of_ne hc] at hread
  · rintro rfl
    rfl

variable {alike : Char → Char → Prop} {ws us : List (List Char)} {text : List Char}

theorem exists_of_forall₂_append {u v text : List Char}
    (h : List.Forall₂ alike (u ++ v) text) :
    ∃ u' v', text = u' ++ v' ∧ List.Forall₂ alike u u' ∧ List.Forall₂ alike v v' := by
  induction u generalizing text with
  | nil => exact ⟨[], text, rfl, .nil, h⟩
  | cons c u ih =>
    obtain ⟨c', text', hc, hrest, rfl⟩ := List.forall₂_cons_left_iff.1 h
    obtain ⟨u', v', rfl, hu, hv⟩ := ih hrest
    exact ⟨c' :: u', v', rfl, .cons hc hu, hv⟩

theorem forall₂_unwords (hspace : alike ' ' ' ') (h : List.Forall₂ (List.Forall₂ alike) ws us) :
    List.Forall₂ alike (Text.unwords ws) (Text.unwords us) := by
  induction h with
  | nil => exact .nil
  | cons hw hws ih =>
    cases hws with
    | nil => rwa [Text.unwords_singleton, Text.unwords_singleton]
    | cons hw' hws =>
      rw [Text.unwords_cons_cons, Text.unwords_cons_cons]
      exact List.rel_append hw (.cons hspace ih)

/-- What reads like words with single spaces between them is such words with single spaces between
them. -/
theorem exists_of_forall₂_unwords (hspace : ∀ c, alike ' ' c → c = ' ')
    (h : List.Forall₂ alike (Text.unwords ws) text) :
    ∃ us, List.Forall₂ (List.Forall₂ alike) ws us ∧ text = Text.unwords us := by
  induction ws generalizing text with
  | nil => exact ⟨[], .nil, List.forall₂_nil_left_iff.1 h⟩
  | cons w ws ih =>
    cases ws with
    | nil =>
      rw [Text.unwords_singleton] at h
      exact ⟨[text], .cons h .nil, (Text.unwords_singleton text).symm⟩
    | cons w' ws =>
      rw [Text.unwords_cons_cons] at h
      obtain ⟨u, behind, rfl, hu, hbehind⟩ := exists_of_forall₂_append h
      obtain ⟨c, rest, hc, hrest, rfl⟩ := List.forall₂_cons_left_iff.1 hbehind
      obtain ⟨us, hus, rfl⟩ := ih hrest
      obtain ⟨u', us', -, -, rfl⟩ := List.forall₂_cons_left_iff.1 hus
      rw [hspace c hc]
      exact ⟨u :: u' :: us', .cons hu hus, (Text.unwords_cons_cons ..).symm⟩

/-! ## Adjacent words -/

/-- Some consecutive words of a text are the given ones, up to the case of ASCII letters. -/
structure Adjacent (ws us : List (List Char)) (text : List Char) : Prop where
  consecutive : us <:+: Text.words text
  same : List.Forall₂ (List.Forall₂ SameUpToCase) ws us

/-- The words stand in a text with one space between each two of them. The first of them may be the
end of a longer word, and the last of them the beginning of one. -/
def SpacedOnce (alike : Char → Char → Prop) (ws : List (List Char)) (text : List Char) : Prop :=
  ∃ us, List.Forall₂ (List.Forall₂ alike) ws us ∧ Text.unwords us <:+: text

/-- A text without U+0000 has a phrase exactly if its words stand there once spaced. -/
theorem matches_unwords_iff (hnull : '\x00' ∉ Text.unwords ws) :
    Matches Alike (Text.unwords ws) text ↔ SpacedOnce Alike ws text := by
  rw [Matches, if_neg hnull]
  constructor
  · rintro ⟨u, hinfix, hu⟩
    obtain ⟨us, hus, rfl⟩ := exists_of_forall₂_unwords (fun _ => alike_space_iff.1) hu
    exact ⟨us, hus, hinfix⟩
  · rintro ⟨us, hus, hinfix⟩
    exact ⟨Text.unwords us, hinfix, forall₂_unwords (alike_space_iff.2 rfl) hus⟩

theorem adjacent_self (text : List Char) : Adjacent (Text.words text) (Text.words text) text :=
  ⟨List.infix_refl _, List.forall₂_same.2 fun _ _ => List.forall₂_same.2 fun _ _ => rfl⟩

theorem Adjacent.spacedOnce (h : Adjacent ws us text)
    (hspaced : ws.length = 1 ∨ Text.unwords us <:+: text) : SpacedOnce Alike ws text := by
  refine ⟨us, h.same.imp fun _ _ hword => hword.imp fun _ _ => alike_of_sameUpToCase, ?_⟩
  obtain hone | hspaced := hspaced
  · -- one word has no blanks in it that could be others than spaces
    rw [h.same.length_eq] at hone
    obtain ⟨u, rfl⟩ := List.length_eq_one_iff.1 hone
    rw [Text.unwords_singleton]
    exact Text.isInfix_of_mem_words (h.consecutive.subset (List.mem_singleton_self u))
  · exact hspaced

theorem SpacedOnce.mono {text' : List Char} (h : SpacedOnce alike ws text)
    (htext : text <:+: text') :
    SpacedOnce alike ws text' := by
  obtain ⟨us, hus, hinfix⟩ := h
  exact ⟨us, hus, hinfix.trans htext⟩

end Search

/-! ## Searching -/

/-- A phrase has one pattern, so only its length may be refused. -/
theorem Store.exists_search_phrase (s : Store) {query : String}
    (hwords : Text.words query.toList ≠ [])
    (hsize : ∀ p ∈ Search.patterns query .phrase,
      (String.ofList p).utf8ByteSize ≤ maxPatternSize) :
    ∃ ts, s.search query .phrase = .ok ts := by
  cases hsearch : s.search query .phrase with
  | ok ts => exact ⟨ts, rfl⟩
  | error e =>
    obtain ⟨-, hmany⟩ | ⟨-, p, hp, hlong⟩ := search_error hsearch
    · have hone : (Search.patterns query .phrase).length = 1 := by
        simp only [Search.patterns, if_neg hwords, List.length_singleton]
      exact absurd hmany (by rw [hone]; decide)
    · exact absurd (hsize p hp) (Nat.not_le.2 hlong)

theorem Team.text_eq {t : Team} (hname : '\x00' ∉ t.name.toList)
    (hdescription : '\x00' ∉ t.description.toList) :
    t.text = t.name.toList ++ ' ' :: t.description.toList := by
  rw [text, Search.untilNull, List.takeWhile_eq_self_iff]
  intro c hc
  rw [List.mem_append, List.mem_cons] at hc
  rw [bne_iff_ne]
  rintro rfl
  obtain hc | hc | hc := hc
  · exact hname hc
  · exact absurd hc (by decide)
  · exact hdescription hc

namespace Service

/-- A search for a phrase shows the live teams in whose text the words of the query stand with one
space between each two of them. So adjacent words of a name or of a description are found if it is
only one word, or if single spaces separate them there; in particular a team is found by its own
name if its words are separated by single spaces. -/
theorem phrase_shows_spaced (s : Service) {query : String} (hwords : Text.words query.toList ≠ [])
    (hnull : '\x00' ∉ query.toList)
    (hsize : ∀ p ∈ Search.patterns query .phrase,
      (String.ofList p).utf8ByteSize ≤ Store.maxPatternSize) :
    ∃ ts, (s.search query .phrase).result = .ok ts ∧ s.store.search query .phrase = .ok ts ∧
      ∀ t, s.store.table.Holds t → '\x00' ∉ t.name.toList → '\x00' ∉ t.description.toList →
        (t ∈ ts ↔ Search.SpacedOnce Search.Alike (Text.words query.toList)
          (t.name.toList ++ ' ' :: t.description.toList)) ∧
        (∀ text us, text = t.name.toList ∨ text = t.description.toList →
          Search.Adjacent (Text.words query.toList) us text →
          (Text.words query.toList).length = 1 ∨ Text.unwords us <:+: text → t ∈ ts) ∧
        (query = t.name → Text.unwords (Text.words t.name.toList) <:+: t.name.toList → t ∈ ts) := by
  obtain ⟨ts, hstore⟩ := s.store.exists_search_phrase hwords hsize
  have hresult : (s.search query .phrase).result = .ok ts := by
    rw [result_search, if_neg hwords, hstore]
    rfl
  refine ⟨ts, hresult, hstore, ?_⟩
  intro t hheld hname hdescription
  have hfound : t ∈ ts ↔ Search.SpacedOnce Search.Alike (Text.words query.toList)
      (t.name.toList ++ ' ' :: t.description.toList) := by
    rw [(Store.search_ok hstore).mem_iff, Search.Found, and_iff_right hheld, and_iff_right hwords,
      Search.Finds, and_iff_right hwords, Team.text_eq hname hdescription,
      Search.matches_unwords_iff (Text.null_notMem_unwords_words hnull)]
  have hadjacent : ∀ text us, text = t.name.toList ∨ text = t.description.toList →
      Search.Adjacent (Text.words query.toList) us text →
      (Text.words query.toList).length = 1 ∨ Text.unwords us <:+: text → t ∈ ts := by
    rintro text us (rfl | rfl) hus hspaced
    · exact hfound.2 ((hus.spacedOnce hspaced).mono (List.prefix_append ..).isInfix)
    · have hinfix : t.description.toList <:+: t.name.toList ++ ' ' :: t.description.toList :=
        ((List.suffix_cons ..).trans (List.suffix_append ..)).isInfix
      exact hfound.2 ((hus.spacedOnce hspaced).mono hinfix)
  refine ⟨hfound, hadjacent, ?_⟩
  rintro rfl hspaced
  refine hadjacent t.name.toList (Text.words t.name.toList) (.inl rfl) ?_ (.inr hspaced)
  exact Search.adjacent_self _

/-- A service over one team, the words of whose name are separated by two spaces here and by one
there. -/
def unevenName : Service :=
  ofStore { table := Table.empty.insert ⟨1, "x  A b", "", 0⟩ } { reach := 1 } 1

/-- Two of the words, written in another way. -/
theorem phrase_shows_spaced_trial :
    Text.words "a\tB".toList ≠ [] ∧ '\x00' ∉ "a\tB".toList ∧
    (∀ p ∈ Search.patterns "a\tB" .phrase,
      (String.ofList p).utf8ByteSize ≤ Store.maxPatternSize) ∧
    unevenName.store.table.Holds ⟨1, "x  A b", "", false⟩ ∧
    Search.Adjacent (Text.words "a\tB".toList) ["A".toList, "b".toList]
      "x  A b".toList ∧
    Text.unwords ["A".toList, "b".toList] <:+: "x  A b".toList ∧
    ∃ ts, (unevenName.search "a\tB" .phrase).result = .ok ts ∧
      ⟨1, "x  A b", "", false⟩ ∈ ts := by
  have hwords : Text.words "a\tB".toList ≠ [] := by decide
  have hnull : '\x00' ∉ "a\tB".toList := by decide
  have hsize : ∀ p ∈ Search.patterns "a\tB" .phrase,
      (String.ofList p).utf8ByteSize ≤ Store.maxPatternSize := by decide +kernel
  have hheld : unevenName.store.table.Holds ⟨1, "x  A b", "", false⟩ :=
    ⟨⟨1, "x  A b", "", 0⟩, by decide +kernel, rfl, rfl⟩
  have hadjacent : Search.Adjacent (Text.words "a\tB".toList)
      ["A".toList, "b".toList] "x  A b".toList :=
    ⟨by decide +kernel, by decide +kernel⟩
  have hspaced : Text.unwords ["A".toList, "b".toList] <:+: "x  A b".toList := by
    decide +kernel
  obtain ⟨ts, hresult, -, hteams⟩ := phrase_shows_spaced unevenName hwords hnull hsize
  obtain ⟨-, hfound, -⟩ := hteams _ hheld (by decide) (by decide)
  exact ⟨hwords, hnull, hsize, hheld, hadjacent, hspaced, ts, hresult,
    hfound _ _ (.inl rfl) hadjacent (.inr hspaced)⟩

def wideName : Service :=
  ofStore { table := Table.empty.insert ⟨1, "a  b", "", 0⟩ } { reach := 1 } 1

/-- A team is not found by its own name, although the words of the name are adjacent in it. -/
theorem phrase_misses_own_name :
    wideName.store.table.Holds ⟨1, "a  b", "", false⟩ ∧
    '\x00' ∉ "a  b".toList ∧
    (∀ p ∈ Search.patterns "a  b" .phrase, (String.ofList p).utf8ByteSize ≤ Store.maxPatternSize) ∧
    Search.Adjacent (Text.words "a  b".toList) (Text.words "a  b".toList) "a  b".toList ∧
    (wideName.search "a  b" .phrase).result = .ok [] := by
  refine ⟨⟨⟨1, "a  b", "", 0⟩, by decide +kernel, rfl, rfl⟩, by decide, by decide +kernel,
    Search.adjacent_self _, ?_⟩
  cbv

end Service

end Roster
