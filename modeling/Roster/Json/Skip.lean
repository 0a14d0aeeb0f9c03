import Roster.Json.Number
import Roster.Json.Text

/-!
Passing over a JSON value of any shape. What is open around the value is kept as a stack of
brackets, innermost first, so nesting has no bound.
-/

namespace Roster.Json

open Text (Symbol)

def isSpace (x : Symbol) : Bool :=
  x == .char ' ' || x == .char '\n' || x == .char '\t' || x == .char '\r'

def skipSpace (s : List Symbol) : List Symbol :=
  s.dropWhile isSpace

def readWord (word : List Char) (s : List Symbol) : Except Stop (List Symbol) :=
  match word, s with
  | [], _ => .ok s
  | _ :: _, [] => .error (Stop.atEnd .endInValue)
  | c :: word, x :: rest =>
    if x = .char c then readWord word rest else .error (Stop.past .expectedWord (x :: rest))

def skipScalar (s : List Symbol) : Except Stop (List Symbol) :=
  match s with
  | [] => .error (Stop.atEnd .endInValue)
  | .char 'n' :: rest => readWord ['u', 'l', 'l'] rest
  | .char 't' :: rest => readWord ['r', 'u', 'e'] rest
  | .char 'f' :: rest => readWord ['a', 'l', 's', 'e'] rest
  | .char '"' :: rest => skipText rest
  | .char c :: _ =>
    if c = '-' || c.isDigit then
      match Numeral.read .invalidNumber s with
      | .error stop => .error stop
      | .ok (_, rest) => .ok rest
    else .error (Stop.past .expectedValue s)
  | .stray _ :: _ => .error (Stop.past .expectedValue s)

def readColon (s : List Symbol) : Except Stop (List Symbol) :=
  match skipSpace s with
  | [] => .error (Stop.atEnd .endInObject)
  | x :: rest =>
    if x = .char ':' then .ok rest else .error (Stop.past .expectedColon (x :: rest))

def skipKey (s : List Symbol) : Except Stop (List Symbol) :=
  match skipSpace s with
  | [] => .error (Stop.atEnd .endInObject)
  | x :: rest =>
    if x = .char '"' then
      match skipText rest with
      | .error stop => .error stop
      | .ok rest => readColon rest
    else .error (Stop.past .keyNotText (x :: rest))

inductive Bracket where
  | list
  | object
deriving DecidableEq, Repr

def Bracket.closing : Bracket → Symbol
  | .list => .char ']'
  | .object => .char '}'

def Bracket.cut : Bracket → Cause
  | .list => .endInList
  | .object => .endInObject

def Bracket.unseparated : Bracket → Cause
  | .list => .expectedCommaOrBracket
  | .object => .expectedCommaOrBrace

/-- What is next inside a bracket after its opening or after a comma: the key in an object. -/
def Bracket.enter : Bracket → List Symbol → Except Stop (List Symbol)
  | .list, s => .ok s
  | .object, s => skipKey s

inductive Skipping where
  /-- A value is to come. -/
  | value
  /-- A bracket was opened. -/
  | opened
  /-- A value is complete. -/
  | done
deriving DecidableEq, Repr

theorem length_skipSpace (s : List Symbol) : (skipSpace s).length ≤ s.length :=
  (List.dropWhile_suffix _).length_le

theorem length_readWord {word : List Char} {s rest : List Symbol}
    (h : readWord word s = .ok rest) : rest.length ≤ s.length := by
  fun_induction readWord word s <;> grind

theorem length_skipScalar {s rest : List Symbol} (h : skipScalar s = .ok rest) :
    rest.length < s.length := by
  unfold skipScalar at h
  grind [→ length_readWord, → length_skipText, → Numeral.length_read]

theorem length_readColon {s rest : List Symbol} (h : readColon s = .ok rest) :
    rest.length < s.length := by
  unfold readColon at h
  grind [length_skipSpace]

theorem length_skipKey {s rest : List Symbol} (h : skipKey s = .ok rest) :
    rest.length < s.length := by
  unfold skipKey at h
  grind [length_skipSpace, → length_skipText, → length_readColon]

theorem Bracket.length_enter {b : Bracket} {s rest : List Symbol}
    (h : b.enter s = .ok rest) : rest.length ≤ s.length := by
  cases b with
  | list => cases h; exact Nat.le_refl _
  | object => exact Nat.le_of_lt (length_skipKey h)

def skipFrom (state : Skipping) (stack : List Bracket) (s : List Symbol) :
    Except Stop (List Symbol) :=
  match state, stack with
  | .value, stack =>
    match _h : skipSpace s with
    | [] => .error (Stop.atEnd .endInValue)
    | x :: rest =>
      if x = .char '[' then skipFrom .opened (.list :: stack) rest
      else if x = .char '{' then skipFrom .opened (.object :: stack) rest
      else
        match _h' : skipScalar (x :: rest) with
        | .error stop => .error stop
        | .ok rest => skipFrom .done stack rest
  | _, [] => .ok s
  | .opened, b :: outer =>
    match _h : skipSpace s with
    | [] => .error (Stop.atEnd b.cut)
    | x :: rest =>
      if x = b.closing then skipFrom .done outer rest
      else
        match _h' : b.enter (x :: rest) with
        | .error stop => .error stop
        | .ok rest => skipFrom .value (b :: outer) rest
  | .done, b :: outer =>
    match _h : skipSpace s with
    | [] => .error (Stop.atEnd b.cut)
    | x :: rest =>
      if x = .char ',' then
        match _h' : b.enter rest with
        | .error stop => .error stop
        | .ok rest => skipFrom .value (b :: outer) rest
      else if x = b.closing then skipFrom .done outer rest
      else .error (Stop.past b.unseparated (x :: rest))
termination_by (s.length, if state = .opened then 1 else 0)
decreasing_by
  all_goals have := length_skipSpace s
  all_goals simp_all only [List.length_cons, Prod.lex_def]
  all_goals grind [→ length_skipScalar, → Bracket.length_enter]

def skipValue (s : List Symbol) : Except Stop (List Symbol) :=
  skipFrom .value [] s

theorem length_skipFrom {state : Skipping} {stack : List Bracket} {s rest : List Symbol}
    (h : skipFrom state stack s = .ok rest) :
    if state = .value then rest.length < s.length else rest.length ≤ s.length := by
  fun_induction skipFrom state stack s <;>
    grind [length_skipSpace, → length_skipScalar, → Bracket.length_enter]

theorem length_skipValue {s rest : List Symbol} (h : skipValue s = .ok rest) :
    rest.length < s.length := by
  simpa using length_skipFrom h

end Roster.Json
