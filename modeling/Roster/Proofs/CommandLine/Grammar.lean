import Roster.CommandLine.Basic

/-!
How command lines are written: options, each with its value attached or in the next word, the name
of a command, and then the options and the placed argument of that command in any order. What
follows `--` is the placed argument, whatever it looks like.
-/

namespace Roster.CommandLine

/-- Whether a word may be a value or a placed argument of its own: it does not look like an
option. -/
def isPlain (word : String) : Bool :=
  match word.toList with
  | '-' :: _ :: _ => false
  | _ => true

abbrev Item : Type :=
  Arg × String

namespace Level

inductive Opens (level : Level) (a : Arg) : String → Prop where
  | label : a ∈ level.options → level.Opens a ("--" ++ a.label)
  | letter {c : Char} : level.letterOption? c = some a → level.Opens a (String.ofList ['-', c])

inductive Attaches (level : Level) (a : Arg) (value : String) : String → Prop where
  | label : a ∈ level.options → level.Attaches a value ("--" ++ a.label ++ "=" ++ value)
  | letter {c : Char} : level.letterOption? c = some a →
    level.Attaches a value (String.ofList ('-' :: c :: '=' :: value.toList))
  /-- The equals sign may be left out if the value is not empty and does not begin with one. -/
  | joined {c : Char} : level.letterOption? c = some a → value ≠ "" →
    value.toList.head? ≠ some '=' →
    level.Attaches a value (String.ofList ('-' :: c :: value.toList))

/-- The words give one argument its value. -/
inductive Writes (level : Level) : Item → List String → Prop where
  | attached {a : Arg} {value word : String} : level.Attaches a value word →
    level.Writes (a, value) [word]
  | apart {a : Arg} {value word : String} : level.Opens a word → isPlain value = true →
    level.Writes (a, value) [word, value]
  | placed {a : Arg} {value : String} : level.placed? = some a → isPlain value = true →
    level.Writes (a, value) [value]

/-- The words give arguments their values, in order. -/
inductive Spells (level : Level) : List Item → List String → Prop where
  | nil : level.Spells [] []
  | cons {item : Item} {items : List Item} {word words : List String} : level.Writes item word →
    level.Spells items words → level.Spells (item :: items) (word ++ words)

inductive Ends (level : Level) : List Item → List String → Prop where
  | nothing : level.Ends [] []
  | mark : level.Ends [] ["--"]
  | placed {a : Arg} (value : String) : level.placed? = some a →
    level.Ends [(a, value)] ["--", value]

theorem Spells.append {level : Level} {items items' : List Item} {words words' : List String}
    (h : level.Spells items words) (h' : level.Spells items' words') :
    level.Spells (items ++ items') (words ++ words') := by
  induction h with
  | nil => exact h'
  | cons hw _ ih =>
    rw [List.append_assoc]
    exact .cons hw ih

end Level

structure Line where
  /-- The options before the command. -/
  options : List Item
  verb : Verb
  /-- The arguments of the command. -/
  arguments : List Item

/-- The words are a way to write the command line. -/
inductive Line.IsWritten : Line → List String → Prop where
  | intro {v : Verb} {options arguments last : List Item} {front back tail : List String} :
    Level.top.Spells options front → (Level.verb v).Spells arguments back →
    (Level.verb v).Ends last tail →
    IsWritten ⟨options, v, arguments ++ last⟩ (front ++ v.name :: (back ++ tail))

/-! ## Options and their names -/

theorem option?_label {level : Level} {a : Arg} (h : a ∈ level.options) :
    level.option? a.label.toList = some a := by
  cases level with
  | top => revert a; decide
  | verb v => cases v <;> (revert a; decide)

theorem option?_eq_some {level : Level} {a : Arg} {label : List Char}
    (h : level.option? label = some a) : a ∈ level.options ∧ a.label.toList = label := by
  have hlabel := List.find?_some h
  exact ⟨List.mem_of_find?_eq_some h, by simpa using hlabel⟩

theorem label_toList_ne_nil (a : Arg) : a.label.toList ≠ [] := by
  cases a <;> decide

theorem bne_equals_of_mem_label (a : Arg) : ∀ c ∈ a.label.toList, (c != '=') = true := by
  have hall : a.label.toList.all (· != '=') = true := by cases a <;> decide
  exact List.all_eq_true.1 hall

/-- Only the directory of the data has a letter. -/
theorem letterOption?_eq_some {level : Level} {a : Arg} {c : Char}
    (h : level.letterOption? c = some a) : level = .top ∧ c = 'd' ∧ a = .dataDir := by
  unfold Level.letterOption? at h
  split at h
  · exact ⟨rfl, rfl, (Option.some.inj h).symm⟩
  · cases h

/-! ## Names of commands -/

theorem ofName?_name (v : Verb) : Verb.ofName? v.name = some v := by
  cases v <;> decide

theorem name_of_ofName? {word : String} {v : Verb} (h : Verb.ofName? word = some v) :
    word = v.name := by
  have hname := List.find?_some h
  simpa [eq_comm] using hname

theorem isPlain_name (v : Verb) : isPlain v.name = true := by
  cases v <;> decide

theorem isPlain_of_ofName? {word : String} (h : (Verb.ofName? word).isSome = true) :
    isPlain word = true := by
  obtain ⟨v, hv⟩ := Option.isSome_iff_exists.1 h
  rw [name_of_ofName? hv]
  exact isPlain_name v

/-! ## Words that look like options -/

theorem isPlain_eq_false {word : String} (c : Char) (cs : List Char)
    (h : word.toList = '-' :: c :: cs) : isPlain word = false := by
  simp only [isPlain, h]

theorem exists_toList_of_not_plain {word : String} (h : isPlain word = false) :
    ∃ c cs, word.toList = '-' :: c :: cs := by
  unfold isPlain at h
  split at h
  · exact ⟨_, _, ‹_›⟩
  · cases h

namespace Level

variable {level : Level} {a : Arg} {value word : String}

theorem Opens.not_plain (h : level.Opens a word) : isPlain word = false := by
  cases h with
  | label _ => exact isPlain_eq_false '-' a.label.toList (by simp)
  | letter _ => exact isPlain_eq_false _ _ String.toList_ofList

theorem Attaches.not_plain (h : level.Attaches a value word) : isPlain word = false := by
  cases h with
  | label _ =>
    exact isPlain_eq_false '-' (a.label.toList ++ '=' :: value.toList) (by simp)
  | letter _ => exact isPlain_eq_false _ _ String.toList_ofList
  | joined _ _ _ => exact isPlain_eq_false _ _ String.toList_ofList

end Level

end Roster.CommandLine
