import Roster.Proofs.CommandLine.Grammar

/-!
What is read from words. A scan is followed only from states in which the last argument has been
looked at: there the words that write an argument add that argument, and every word that is accepted
begins such words.
-/

namespace Roster.CommandLine

theorem eq_ok_of_toOption {ε α : Type} {x : Except ε α} {y : α} (h : x.toOption = some y) :
    x = .ok y := by
  cases x with
  | error e => cases h
  | ok y' => exact congrArg Except.ok (Option.some.inj h)

namespace Scan

variable {level : Level} {s : Scan} {a : Arg} {value word : String} {given : Given} {e : Error}

/-! ## One word -/

theorem begin_eq (s : Scan) (a : Arg) (value : Option String) :
    s.begin a value =
      s.settled.map fun given => { given, last := some (a, value), trailing := s.trailing } := by
  unfold begin
  cases s.settled <;> rfl

theorem complete_eq (s : Scan) (a : Arg) (value : String) :
    s.complete a value = s.settled.bind fun given =>
      (given.add a value).map fun given => { given, trailing := s.trailing } := by
  unfold complete
  cases s.settled with
  | error e => rfl
  | ok given =>
    simp only [Except.bind]
    cases given.add a value <;> rfl

theorem inquire_eq (s : Scan) (inquiry : Inquiry) :
    s.inquire inquiry = s.settled.bind fun _ => .error (.asked inquiry) := by
  unfold inquire
  cases s.settled <;> rfl

theorem step_of_trailing (h : s.trailing = true) (level : Level) (word : String) :
    s.step level word = s.place level word := by
  rw [step, h, if_pos rfl]

theorem step_mark (h : s.trailing = false) (level : Level) :
    s.step level "--" = .ok { s with trailing := true } := by
  simp [step, h]

theorem step_long (h : s.trailing = false) {cs : List Char} (hcs : cs ≠ [])
    (hword : word.toList = '-' :: '-' :: cs) : s.step level word = s.long level cs := by
  obtain ⟨c, cs, rfl⟩ := List.exists_cons_of_ne_nil hcs
  simp [step, h, hword]

theorem step_short (h : s.trailing = false) {c : Char} {cs : List Char} (hc : c ≠ '-')
    (hword : word.toList = '-' :: c :: cs) : s.step level word = s.short level c cs := by
  simp [step, h, hword, hc]

theorem step_value (h : s.trailing = false) (hword : isPlain word = true)
    (hlast : s.last = some (a, none)) :
    s.step level word = .ok { s with last := some (a, some word) } := by
  unfold isPlain at hword
  split at hword
  · cases hword
  · simp_all [step]

theorem step_plain (h : s.trailing = false) (hword : isPlain word = true)
    (hlast : s.awaitsValue = false) : s.step level word = s.place level word := by
  unfold isPlain at hword
  split at hword
  · cases hword
  · cases hl : s.last with
    | none => simp_all [step]
    | some last =>
      obtain ⟨b, value⟩ := last
      cases value with
      | none =>
        rw [awaitsValue, h, hl] at hlast
        cases hlast
      | some value => simp_all [step]

/-- What a word looks like. -/
theorem word_cases (word : String) :
    word = "--" ∨ (∃ cs, cs ≠ [] ∧ word.toList = '-' :: '-' :: cs) ∨
      (∃ c cs, c ≠ '-' ∧ word.toList = '-' :: c :: cs) ∨ isPlain word = true := by
  cases hplain : isPlain word with
  | true => exact .inr (.inr (.inr rfl))
  | false =>
    obtain ⟨c, cs, hword⟩ := exists_toList_of_not_plain hplain
    by_cases hc : c = '-'
    · subst hc
      by_cases hcs : cs = []
      · subst hcs
        exact .inl (String.toList_inj.1 hword)
      · exact .inr (.inl ⟨cs, hcs, hword⟩)
    · exact .inr (.inr (.inl ⟨c, cs, hc, hword⟩))

/-! ## The last argument -/

/-- The state after the last argument has been looked at, unless its value is still to come. There
is none if the value is bad. -/
def settle? (s : Scan) : Option Scan :=
  if s.awaitsValue then some s
  else s.settled.toOption.map fun given => { given, trailing := s.trailing }

theorem settle?_of_awaits (h : s.awaitsValue = true) : s.settle? = some s :=
  if_pos h

theorem settle?_of_error (h : s.awaitsValue = false) (hs : s.settled = .error e) :
    s.settle? = none := by
  rw [settle?, h, hs]
  rfl

theorem settle?_of_ok (h : s.awaitsValue = false) (hs : s.settled = .ok given) :
    s.settle? = some { given, trailing := s.trailing } := by
  rw [settle?, h, hs]
  rfl

theorem settle?_some (given : Given) (a : Arg) (value : String) (trailing : Bool) :
    settle? { given, last := some (a, some value), trailing } =
      (given.add a value).toOption.map fun given => { given, trailing } := by
  cases trailing <;> rfl

/-- A bad value is noticed with the next word, whatever it is. -/
theorem toOption_place_of_error (hs : s.settled = .error e) :
    (s.place level word).toOption = none := by
  unfold place
  split
  · rfl
  · split
    · rfl
    · rw [begin_eq, hs]
      rfl

theorem toOption_option_of_error (hs : s.settled = .error e) (value : Option String) :
    (s.option a value).toOption = none := by
  cases value with
  | none =>
    rw [option, begin_eq, hs]
    rfl
  | some value =>
    rw [option, complete_eq, hs]
    rfl

theorem toOption_inquire (s : Scan) (inquiry : Inquiry) : (s.inquire inquiry).toOption = none := by
  rw [inquire_eq]
  cases s.settled <;> rfl

theorem toOption_long_of_error (hs : s.settled = .error e) (cs : List Char) :
    (s.long level cs).toOption = none := by
  unfold long
  dsimp only
  split
  · exact toOption_option_of_error hs _
  · split
    · rfl
    · split
      · exact toOption_inquire ..
      · rfl

theorem toOption_short_of_error (hs : s.settled = .error e) (c : Char) (cs : List Char) :
    (s.short level c cs).toOption = none := by
  unfold short
  split
  · exact toOption_option_of_error hs _
  · split
    · exact toOption_inquire ..
    · rfl

theorem hasBegun_of_ok (hs : s.settled = .ok given) (a : Arg) : s.hasBegun a = given.has a := by
  unfold settled at hs
  unfold hasBegun
  split at hs
  · rename_i hlast
    cases hs
    simp [hlast]
  · cases hs
  · rename_i b value hlast
    obtain ⟨-, v, -, rfl⟩ := Given.add_eq_ok_iff.1 hs
    rw [Given.has_append, hlast]
    simp [Given.has]

theorem place_of_ok (hs : s.settled = .ok given) :
    s.place level word = place level { given, trailing := s.trailing } word := by
  have hsettled : settled { given, trailing := s.trailing } = .ok given := rfl
  simp only [place, hasBegun_of_ok hs, hasBegun_of_ok hsettled, begin_eq, hs, hsettled]

theorem option_of_ok (hs : s.settled = .ok given) (value : Option String) :
    s.option a value = option { given, trailing := s.trailing } a value := by
  have hsettled : settled { given, trailing := s.trailing } = .ok given := rfl
  cases value with
  | none => simp only [option, begin_eq, hs, hsettled]
  | some value => simp only [option, complete_eq, hs, hsettled]

theorem inquire_of_ok (hs : s.settled = .ok given) (inquiry : Inquiry) :
    s.inquire inquiry = inquire { given, trailing := s.trailing } inquiry := by
  have hsettled : settled { given, trailing := s.trailing } = .ok given := rfl
  simp only [inquire_eq, hs, hsettled]

/-- It makes no difference whether the last argument is looked at now or with the next word. -/
theorem settle?_step (level : Level) (s : Scan) (word : String) :
    (s.step level word).toOption.bind settle? =
      s.settle?.bind fun s => (s.step level word).toOption.bind settle? := by
  cases hawaits : s.awaitsValue with
  | true => rw [settle?_of_awaits hawaits, Option.bind_some]
  | false =>
    cases hs : s.settled with
    | error e =>
      rw [settle?_of_error hawaits hs, Option.bind_none]
      cases htrailing : s.trailing with
      | true => rw [step_of_trailing htrailing, toOption_place_of_error hs, Option.bind_none]
      | false =>
        obtain rfl | ⟨cs, hcs, hword⟩ | ⟨c, cs, hc, hword⟩ | hplain := word_cases word
        · rw [step_mark htrailing]
          exact settle?_of_error (s := { s with trailing := true }) rfl hs
        · rw [step_long htrailing hcs hword, toOption_long_of_error hs, Option.bind_none]
        · rw [step_short htrailing hc hword, toOption_short_of_error hs, Option.bind_none]
        · rw [step_plain htrailing hplain hawaits, toOption_place_of_error hs, Option.bind_none]
    | ok given =>
      rw [settle?_of_ok hawaits hs, Option.bind_some]
      cases htrailing : s.trailing with
      | true =>
        have hplace : s.place level word = _ := place_of_ok hs
        rw [step_of_trailing htrailing, hplace, htrailing, step_of_trailing rfl]
      | false =>
        obtain rfl | ⟨cs, hcs, hword⟩ | ⟨c, cs, hc, hword⟩ | hplain := word_cases word
        · rw [step_mark htrailing, step_mark rfl]
          exact settle?_of_ok (s := { s with trailing := true }) rfl hs
        · rw [step_long htrailing hcs hword, step_long rfl hcs hword]
          simp only [long, option_of_ok hs, inquire_of_ok hs, htrailing]
        · rw [step_short htrailing hc hword, step_short rfl hc hword]
          simp only [short, option_of_ok hs, inquire_of_ok hs, htrailing]
        · rw [step_plain htrailing hplain hawaits, step_plain rfl hplain rfl, place_of_ok hs,
            htrailing]

theorem bind_step {ρ : Type} {F : Scan → Option ρ} (hF : ∀ s, F s = s.settle?.bind F)
    (level : Level) (s : Scan) (word : String) :
    (s.step level word).toOption.bind F =
      s.settle?.bind fun s => (s.step level word).toOption.bind F :=
  calc
    _ = ((s.step level word).toOption.bind settle?).bind F := by
      rw [Option.bind_assoc]
      exact congrArg _ (funext hF)
    _ = s.settle?.bind fun s => ((s.step level word).toOption.bind settle?).bind F := by
      rw [settle?_step, Option.bind_assoc]
    _ = _ := by simp only [Option.bind_assoc, ← hF]

/-! ## Words that are options -/

theorem takeWhile_label (a : Arg) (cs : List Char) (hcs : cs.head?.all (· = '=') = true) :
    (a.label.toList ++ cs).takeWhile (· != '=') = a.label.toList := by
  rw [List.takeWhile_append_of_pos (bne_equals_of_mem_label a)]
  cases cs with
  | nil => simp
  | cons c cs =>
    have hc : c = '=' := by simpa using hcs
    simp [hc]

theorem attached?_label (a : Arg) : attached? a.label.toList = none := by
  have hdrop : (a.label.toList ++ []).dropWhile (· != '=') = [] :=
    List.dropWhile_append_of_pos (bne_equals_of_mem_label a)
  rw [List.append_nil] at hdrop
  rw [attached?, hdrop]

theorem attached?_label_append (a : Arg) (value : List Char) :
    attached? (a.label.toList ++ '=' :: value) = some (String.ofList value) := by
  have hdrop : (a.label.toList ++ '=' :: value).dropWhile (· != '=') = '=' :: value := by
    rw [List.dropWhile_append_of_pos (bne_equals_of_mem_label a)]
    rfl
  rw [attached?, hdrop]

theorem eq_of_attached? (cs : List Char) :
    match attached? cs with
    | none => cs = cs.takeWhile (· != '=')
    | some value => cs = cs.takeWhile (· != '=') ++ '=' :: value.toList := by
  have hcs := (List.takeWhile_append_dropWhile (p := (· != '=')) (l := cs)).symm
  unfold attached?
  cases hdrop : cs.dropWhile (· != '=') with
  | nil =>
    rw [hdrop, List.append_nil] at hcs
    exact hcs
  | cons c value =>
    have hc := List.head?_dropWhile_not (· != '=') cs
    rw [hdrop] at hc hcs
    have hc : c = '=' := by simpa using hc
    rw [hc] at hcs
    simpa using hcs

theorem step_of_attaches (h : level.Attaches a value word) (hs : s.trailing = false) :
    s.step level word = s.complete a value := by
  cases h with
  | label ha =>
    have hword : ("--" ++ a.label ++ "=" ++ value).toList =
        '-' :: '-' :: (a.label.toList ++ '=' :: value.toList) := by simp
    rw [step_long hs (by simp) hword, long]
    simp only [takeWhile_label a ('=' :: value.toList) rfl, option?_label ha,
      attached?_label_append, String.ofList_toList]
    rfl
  | letter hc =>
    obtain ⟨rfl, rfl, rfl⟩ := letterOption?_eq_some hc
    rw [step_short hs (by decide) String.toList_ofList]
    simp only [short, hc, String.ofList_toList]
    rfl
  | joined hc hne hhead =>
    obtain ⟨rfl, rfl, rfl⟩ := letterOption?_eq_some hc
    rw [step_short hs (by decide) String.toList_ofList]
    have hvalue := String.ofList_toList (s := value)
    cases hcs : value.toList with
    | nil => exact absurd (String.toList_eq_nil_iff.1 hcs) hne
    | cons c cs =>
      rw [hcs] at hvalue hhead
      have hne : c ≠ '=' := by simpa using hhead
      simp only [short, hc]
      split
      · contradiction
      · simp_all
      · rw [hvalue]
        rfl

theorem step_of_opens (h : level.Opens a word) (hs : s.trailing = false) :
    s.step level word = s.begin a none := by
  cases h with
  | label ha =>
    have hword : ("--" ++ a.label).toList = '-' :: '-' :: a.label.toList := by simp
    have hlabel := takeWhile_label a [] rfl
    rw [List.append_nil] at hlabel
    rw [step_long hs (label_toList_ne_nil a) hword, long]
    simp only [hlabel, option?_label ha, attached?_label]
    rfl
  | letter hc =>
    obtain ⟨rfl, rfl, rfl⟩ := letterOption?_eq_some hc
    rw [step_short hs (by decide) String.toList_ofList]
    simp only [short, hc]
    rfl

/-- A word with two hyphens that is accepted names an option. -/
theorem attaches_or_opens_of_long {cs : List Char} (hcs : cs ≠ [])
    (hword : word.toList = '-' :: '-' :: cs) (hs : s.trailing = false) {s' : Scan}
    (h : s.step level word = .ok s') :
    (∃ a value, level.Attaches a value word) ∨ ∃ a, level.Opens a word := by
  rw [step_long hs hcs hword, long] at h
  split at h
  · rename_i a ha
    obtain ⟨hmem, hlabel⟩ := option?_eq_some ha
    have hattached := eq_of_attached? cs
    cases hvalue : attached? cs with
    | none =>
      rw [hvalue] at hattached
      have heq : word = "--" ++ a.label := by
        rw [← String.toList_inj, hword, hattached, ← hlabel]
        simp
      exact .inr ⟨a, heq ▸ .label hmem⟩
    | some value =>
      rw [hvalue] at hattached
      have heq : word = "--" ++ a.label ++ "=" ++ value := by
        rw [← String.toList_inj, hword, hattached, ← hlabel]
        simp
      exact .inl ⟨a, value, heq ▸ .label hmem⟩
  · split at h
    · cases h
    · split at h
      · have hnone := toOption_inquire s ‹_›
        rw [h] at hnone
        cases hnone
      · cases h

/-- A word with one hyphen that is accepted is an option with a letter. -/
theorem attaches_or_opens_of_short {c : Char} {cs : List Char} (hc : c ≠ '-')
    (hword : word.toList = '-' :: c :: cs) (hs : s.trailing = false) {s' : Scan}
    (h : s.step level word = .ok s') :
    (∃ a value, level.Attaches a value word) ∨ ∃ a, level.Opens a word := by
  rw [step_short hs hc hword] at h
  unfold short at h
  split at h
  · rename_i a ha
    cases cs with
    | nil =>
      have heq : word = String.ofList ['-', c] := by
        rw [← String.toList_inj, hword, String.toList_ofList]
      exact .inr ⟨a, heq ▸ .letter ha⟩
    | cons d cs =>
      by_cases hd : d = '='
      · subst hd
        have heq : word = String.ofList ('-' :: c :: '=' :: (String.ofList cs).toList) := by
          rw [← String.toList_inj, hword, String.toList_ofList, String.toList_ofList]
        exact .inl ⟨a, String.ofList cs, heq ▸ .letter ha⟩
      · have heq : word = String.ofList ('-' :: c :: (String.ofList (d :: cs)).toList) := by
          rw [← String.toList_inj, hword, String.toList_ofList, String.toList_ofList]
        refine .inl ⟨a, String.ofList (d :: cs), heq ▸ .joined ha ?_ ?_⟩
        · intro hempty
          simpa using congrArg String.toList hempty
        · simpa using hd
  · split at h
    · have hnone := toOption_inquire s ‹_›
      rw [h] at hnone
      cases hnone
    · cases h

/-- What a word is that is accepted when no value is awaited. -/
theorem step_cases (hs : s.trailing = false) (hawaits : s.awaitsValue = false) {s' : Scan}
    (h : s.step level word = .ok s') :
    word = "--" ∨ (∃ a value, level.Attaches a value word) ∨ (∃ a, level.Opens a word) ∨
      ∃ a, level.placed? = some a ∧ isPlain word = true := by
  obtain rfl | ⟨cs, hcs, hword⟩ | ⟨c, cs, hc, hword⟩ | hplain := word_cases word
  · exact .inl rfl
  · exact .inr ((attaches_or_opens_of_long hcs hword hs h).imp_right .inl)
  · exact .inr ((attaches_or_opens_of_short hc hword hs h).imp_right .inl)
  · rw [step_plain hs hplain hawaits, place] at h
    split at h
    · cases h
    · exact .inr (.inr (.inr ⟨_, ‹_›, hplain⟩))

end Scan

/-! ## Words that write arguments -/

theorem Given.add_of_has {given : Given} {a : Arg} (h : given.has a = true) (value : String) :
    given.add a value = .error (.repeated a) := by
  rw [add, h, if_pos rfl]

/-- The given arguments and more of them, if all can be read and none is there twice. -/
def Given.addAll? (given : Given) : List Item → Option Given
  | [] => some given
  | (a, value) :: items => (given.add a value).toOption.bind (addAll? · items)

theorem Given.addAll?_cons (given : Given) (a : Arg) (value : String) (items : List Item) :
    given.addAll? ((a, value) :: items) =
      (given.add a value).toOption.bind fun given => given.addAll? items := rfl

theorem Given.addAll?_append (given : Given) (items items' : List Item) :
    given.addAll? (items ++ items') =
      (given.addAll? items).bind fun given => given.addAll? items' := by
  induction items generalizing given with
  | nil => rfl
  | cons item items ih =>
    obtain ⟨a, value⟩ := item
    rw [List.cons_append, addAll?_cons, addAll?_cons, Option.bind_assoc]
    simp only [ih]

theorem Level.ne_top_of_placed? {level : Level} {a : Arg} (h : level.placed? = some a) :
    level ≠ .top := by
  rintro rfl
  cases h

inductive Level.Stops (level : Level) : List String → Prop where
  | nil : level.Stops []
  | mark (words : List String) : level.Stops ("--" :: words)
  | name {word : String} (words : List String) : level = .top → isPlain word = true →
    level.Stops (word :: words)

/-- The function tells what comes of a state and the words that are left, as far as this level is
concerned: words are taken one after the other, but before a command only those that do not look
like its name. -/
structure Level.Reads (level : Level) {ρ : Type} (F : Scan → List String → Option ρ) : Prop where
  settle (s : Scan) (words : List String) : F s words = s.settle?.bind (F · words)
  step {s : Scan} {word : String} (words : List String) :
    (level = .top → isPlain word = true → s.awaitsValue = true) →
    F s (word :: words) = (s.step level word).toOption.bind (F · words)
  awaits {s : Scan} : s.awaitsValue = true → F s [] = none

namespace Level.Reads

variable {level : Level} {ρ : Type} {F : Scan → List String → Option ρ}

/-- The words that write an argument add it to what is given. -/
theorem writes (h : level.Reads F) {a : Arg} {value : String} {word : List String}
    (hw : level.Writes (a, value) word) (given : Given) (words : List String) :
    F { given } (word ++ words) =
      (given.add a value).toOption.bind fun given => F { given } words := by
  have hlast : F { given, last := some (a, some value) } words =
      (given.add a value).toOption.bind fun given => F { given } words := by
    rw [h.settle, Scan.settle?_some, Option.bind_map]
    rfl
  cases hw with
  | attached hword =>
    rw [List.singleton_append, h.step words (by simp [hword.not_plain]),
      Scan.step_of_attaches hword rfl, Scan.complete_eq]
    simp only [Scan.settled, Except.bind]
    cases given.add a value <;> rfl
  | apart hword hvalue =>
    rename_i word
    have hopen : Scan.step level { given } word = .ok { given, last := some (a, none) } := by
      rw [Scan.step_of_opens hword rfl]
      rfl
    have hvalue : Scan.step level { given, last := some (a, none) } value =
        .ok { given, last := some (a, some value) } := Scan.step_value rfl hvalue rfl
    have hsecond : F { given, last := some (a, none) } (value :: words) = _ :=
      h.step words fun _ _ => rfl
    rw [hvalue] at hsecond
    rw [List.cons_append, List.singleton_append, h.step _ (by simp [hword.not_plain]), hopen]
    exact hsecond.trans hlast
  | placed ha hvalue =>
    rw [List.singleton_append, h.step words fun htop => absurd htop (ne_top_of_placed? ha),
      Scan.step_plain rfl hvalue rfl, Scan.place, ha]
    dsimp only
    cases hhas : given.has a with
    | true =>
      rw [Scan.hasBegun_of_ok rfl, hhas, Given.add_of_has hhas]
      rfl
    | false =>
      rw [Scan.hasBegun_of_ok rfl, hhas]
      exact hlast

/-- The words of several arguments add all of them. -/
theorem spells (h : level.Reads F) {items : List Item} {front : List String}
    (hw : level.Spells items front) (given : Given) (words : List String) :
    F { given } (front ++ words) =
      (given.addAll? items).bind fun given => F { given } words := by
  induction hw generalizing given with
  | nil => rfl
  | @cons item items word front hword _ ih =>
    obtain ⟨a, value⟩ := item
    rw [List.append_assoc, h.writes hword, Given.addAll?_cons, Option.bind_assoc]
    simp only [ih]

/-- The value that is awaited does not look like an option. -/
theorem isPlain_of_awaits (h : level.Reads F) {given : Given} {a : Arg} {value : String}
    {words : List String} {r : ρ}
    (hr : F { given, last := some (a, none) } (value :: words) = some r) :
    isPlain value = true := by
  have hfirst : F { given, last := some (a, none) } (value :: words) = _ :=
    h.step words fun _ _ => rfl
  have hsettled : Scan.settled { given, last := some (a, none) } =
      .error (.badValue a "" .missing) := rfl
  rw [hr] at hfirst
  obtain rfl | ⟨cs, hcs, hword⟩ | ⟨c, cs, hc, hword⟩ | hplain := Scan.word_cases value
  · rw [Scan.step_mark rfl] at hfirst
    have hnone := h.settle { given, last := some (a, none), trailing := true } words
    rw [Scan.settle?_of_error rfl rfl] at hnone
    cases hfirst.trans hnone
  · rw [Scan.step_long rfl hcs hword, Scan.toOption_long_of_error hsettled] at hfirst
    cases hfirst
  · rw [Scan.step_short rfl hc hword, Scan.toOption_short_of_error hsettled] at hfirst
    cases hfirst
  · exact hplain

/-- Words of which something comes are at their end or begin with an argument. -/
theorem stops_or_writes (h : level.Reads F) {given : Given} {words : List String} {r : ρ}
    (hr : F { given } words = some r) :
    level.Stops words ∨ ∃ item word rest given', words = word ++ rest ∧ word ≠ [] ∧
      level.Writes item word ∧ F { given := given' } rest = some r := by
  -- what an argument leads to is known from the words that write it
  have hrest : ∀ {item : Item} (word : List String) {rest : List String},
      words = word ++ rest → word ≠ [] → level.Writes item word →
        ∃ item word rest given', words = word ++ rest ∧ word ≠ [] ∧
          level.Writes item word ∧ F { given := given' } rest = some r := by
    intro item word rest hwords hne hword
    obtain ⟨a, value⟩ := item
    rw [hwords, h.writes hword] at hr
    obtain ⟨given', -, hr⟩ := Option.bind_eq_some_iff.1 hr
    exact ⟨_, word, rest, given', hwords, hne, hword, hr⟩
  cases words with
  | nil => exact .inl .nil
  | cons word words =>
    by_cases hname : level = .top ∧ isPlain word = true
    · exact .inl (.name words hname.1 hname.2)
    · have hfirst := h.step (s := { given }) words fun htop hplain => absurd ⟨htop, hplain⟩ hname
      rw [hr] at hfirst
      obtain ⟨s, hs, hafter⟩ := Option.bind_eq_some_iff.1 hfirst.symm
      have hstep := eq_ok_of_toOption hs
      obtain rfl | ⟨a, value, hword⟩ | ⟨a, hword⟩ | ⟨a, ha, hplain⟩ :=
        Scan.step_cases (s := { given }) rfl rfl hstep
      · exact .inl (.mark words)
      · exact .inr (hrest [word] rfl (by simp) (.attached hword))
      · rw [Scan.step_of_opens hword rfl] at hstep
        obtain rfl : s = { given, last := some (a, none) } := by
          cases hstep
          rfl
        cases words with
        | nil =>
          rw [h.awaits rfl] at hafter
          cases hafter
        | cons value words =>
          have hvalue := h.isPlain_of_awaits hafter
          exact .inr (hrest [word, value] rfl (by simp) (.apart hword hvalue))
      · exact .inr (hrest [word] rfl (by simp) (.placed ha hplain))

/-- Words of which something comes are arguments up to where no more are written. -/
theorem exists_spells (h : level.Reads F) {given : Given} {words : List String} {r : ρ}
    (hr : F { given } words = some r) :
    ∃ items front rest given', words = front ++ rest ∧ level.Spells items front ∧
      F { given := given' } rest = some r ∧ level.Stops rest := by
  induction hlength : words.length using Nat.strongRecOn generalizing words given with
  | ind n ih =>
    obtain hstops | ⟨item, word, rest, given', rfl, hne, hword, hrest⟩ := h.stops_or_writes hr
    · exact ⟨[], [], words, given, rfl, .nil, hr, hstops⟩
    · have hlt : rest.length < n := by
        have hpos := List.length_pos_iff.2 hne
        rw [List.length_append] at hlength
        omega
      obtain ⟨items, front, rest', given'', rfl, hspells, hlast⟩ := ih rest.length hlt hrest rfl
      exact ⟨item :: items, word ++ front, rest', given'', (List.append_assoc ..).symm,
        .cons hword hspells, hlast⟩

end Level.Reads

end Roster.CommandLine
