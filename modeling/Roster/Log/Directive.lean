import Roster.Log.Record
import Roster.Regular.Reader
import Roster.Text.Integer

/-!
Directives: what a filter says about a part of the log. A directive is a level for everything, or
names a target, a span between brackets, or both, and after an equals sign the level up to which
they are written; without a level it is all levels. Inside the brackets the fields that a span must
have may follow its name between braces, each perhaps with a value.

A directive is taken apart without the blanks around it, but its parts are cut from the whole text
at the places so found: a blank in front shifts every part.
-/

namespace Roster.Log

inductive Condition where
  | number (n : Nat)
  /-- A regular expression that matches the text, and how it was written. -/
  | pattern (written : List Char) (p : Regular.Expr)
  /-- A kind of value that no field has: a truth value or a number that is not natural. -/
  | otherKind
deriving DecidableEq, Repr

def Condition.holds : Condition → Value → Bool
  | .number n, .number m => n == m
  | .pattern _ p, .text s => p.matchesText s.toList
  | .pattern _ p, .shown s => p.matchesText s.toList
  | _, _ => false

structure FieldTest where
  name : String
  condition : Option Condition
deriving DecidableEq, Repr

/-- A directive. Its rank is that of the last level that is written, or zero for none. -/
structure Directive where
  target : Option String
  span : Option String
  fields : List FieldTest
  rank : Nat
deriving DecidableEq, Repr

def Level.all : List Level :=
  [.error, .warn, .info, .debug, .trace]

def rank? (s : List Char) : Option Nat :=
  match Text.readInteger 0 5 s with
  | .ok n => some n.toNat
  | .error _ =>
    let name := String.ofList (s.map Char.toUpper)
    if name = "OFF" then some 0 else (Level.all.find? fun l => l.name = name).map Level.rank

/-! ## Conditions -/

def unsigned : List Char → List Char
  | '+' :: cs => cs
  | '-' :: cs => cs
  | cs => cs

def isExponent (cs : List Char) : Bool :=
  !(unsigned cs).isEmpty && (unsigned cs).all Char.isDigit

/-- Whether a text is a number in decimal notation, or one of the words for what is no number or
not finite. -/
def isNumeral (cs : List Char) : Bool :=
  let cs := unsigned cs
  let whole := cs.takeWhile Char.isDigit
  let behind := cs.drop whole.length
  let (fraction, behind) := match behind with
    | '.' :: rest => (rest.takeWhile Char.isDigit, rest.dropWhile Char.isDigit)
    | rest => ([], rest)
  let named := ["inf", "infinity", "nan"].contains (String.ofList (cs.map Char.toLower))
  named || (!(whole ++ fraction).isEmpty &&
    match behind with
    | [] => true
    | e :: rest => (e == 'e' || e == 'E') && isExponent rest)

def Condition.ofChars? (cs : List Char) : Option Condition :=
  if cs = "true".toList ∨ cs = "false".toList then some .otherKind
  else
    match Text.readInteger 0 0xFFFFFFFFFFFFFFFF cs with
    | .ok n => some (.number n.toNat)
    | .error _ =>
      if isNumeral cs then some .otherKind
      else (Regular.Expr.ofChars? cs).map (.pattern cs)

/-- Reads a field with what is asked of it: its name up to an equals sign, then the value up to the
next one. -/
def FieldTest.ofChars? (cs : List Char) : Option FieldTest :=
  let name := String.ofList (cs.takeWhile (· != '='))
  match cs.dropWhile (· != '=') with
  | [] => some ⟨name, none⟩
  | _ :: value => (Condition.ofChars? (value.takeWhile (· != '='))).map fun c => ⟨name, some c⟩

/-! ## Directives -/

def byteCount (cs : List Char) : Nat :=
  cs.foldl (fun n c => n + c.utf8Size) 0

/-- What follows the first bytes of a text, unless they end inside a character. -/
def dropBytes? : (count : Nat) → List Char → Option (List Char)
  | 0, cs => some cs
  | _ + 1, [] => none
  | count + 1, c :: cs =>
    if c.utf8Size ≤ count + 1 then dropBytes? (count + 1 - c.utf8Size) cs else none

/-- The first bytes of a text, unless they end inside a character. -/
def takeBytes? : (count : Nat) → List Char → Option (List Char)
  | 0, _ => some []
  | _ + 1, [] => none
  | count + 1, c :: cs =>
    if c.utf8Size ≤ count + 1 then (takeBytes? (count + 1 - c.utf8Size) cs).map (c :: ·) else none

def cut? (whole : List Char) (start stop : Nat) : Option (List Char) :=
  (dropBytes? start whole).bind (takeBytes? (stop - start))

def isDirectiveStart (c : Char) : Bool :=
  Text.isAlphanumeric c || c == '-' || c == ':' || c == '_'

namespace Directive

def withLevel? (whole : List Char) (start : Nat) (d : Directive) : Option Directive := do
  let level ← dropBytes? start whole
  if level = [] then some d else (rank? level).map fun rank => { d with rank }

def afterSpan? (whole : List Char) (here : Nat) (d : Directive) : List Char → Option Directive
  | [] => some d
  | '=' :: _ => withLevel? whole (here + 1) d
  | _ => none

def withField? (whole : List Char) (here : Nat) (d : Directive) (rest : List Char) :
    Option Directive :=
  let field := rest.takeWhile (· != '}')
  let stop := here + byteCount field
  match rest.drop field.length with
  | '}' :: ']' :: rest => do
    let field ← cut? whole here stop
    if field = [] then none
    else
      let test ← FieldTest.ofChars? field
      afterSpan? whole (stop + 2) { d with fields := [test] } rest
  | _ => none

def withSpan? (whole : List Char) (here : Nat) (d : Directive) (rest : List Char) :
    Option Directive :=
  let name := rest.takeWhile fun c => c != ']' && c != '{'
  let stop := here + byteCount name
  match rest.drop name.length with
  | ']' :: rest => do
    let name ← cut? whole here stop
    afterSpan? whole (stop + 1) { d with span := some (String.ofList name) } rest
  | '{' :: rest => do
    let name ← cut? whole here stop
    let span := if name = [] then none else some (String.ofList name)
    withField? whole (stop + 1) { d with span } rest
  | _ => none

def ofChars? (whole : List Char) : Option Directive :=
  let all : Directive := ⟨none, none, [], Level.trace.rank⟩
  match Text.trim whole with
  | [] => none
  | '[' :: rest => withSpan? whole 1 all rest
  | first :: rest =>
    let head := (first :: rest).takeWhile fun c => c != '=' && c != '['
    let here := byteCount head
    if !isDirectiveStart first then none
    else
      match (first :: rest).drop head.length with
      | [] =>
        match rank? whole with
        | some rank => some { all with rank }
        | none => some { all with target := some (String.ofList whole) }
      | mark :: rest => do
        let target ← cut? whole 0 here
        let d := { all with target := some (String.ofList target) }
        if mark = '[' then withSpan? whole (here + 1) d rest
        else withLevel? whole (here + 1) d

def isDynamic (d : Directive) : Bool :=
  d.span.isSome || !d.fields.isEmpty

def isStatic (d : Directive) : Bool :=
  d.span.isNone && d.fields.all fun f => f.condition.isNone

def isAbout (d : Directive) (target : String) : Bool :=
  d.target.all fun t => t.toList.isPrefixOf target.toList

/-- Whether a directive asks for fields of the given names only. -/
def asksOnly (d : Directive) (names : List String) : Bool :=
  d.fields.all fun f => names.contains f.name

end Directive

end Roster.Log
