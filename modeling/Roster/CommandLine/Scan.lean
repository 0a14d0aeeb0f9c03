import Roster.CommandLine.Error

/-!
Reading the arguments of one level. An option may have its value attached or take the next
argument; a value is looked at only when the next option or placed argument begins, or at the end.
After `--` every argument is taken as it is.
-/

namespace Roster.CommandLine

abbrev Given : Type :=
  List (Arg × Value)

namespace Given

def has (given : Given) (a : Arg) : Bool :=
  given.any fun p => p.1 = a

def value? (given : Given) (a : Arg) : Option Value :=
  (given.find? fun p => p.1 = a).map Prod.snd

def textOf (given : Given) (a : Arg) (default : String) : String :=
  match given.value? a with
  | some (.text s) => s
  | _ => default

def numberOf (given : Given) (a : Arg) (default : Nat) : Nat :=
  match given.value? a with
  | some (.number n) => n
  | _ => default

/-- One more argument with its value; an argument is given once. -/
def add (given : Given) (a : Arg) (value : String) : Except Error Given :=
  if given.has a then .error (.repeated a)
  else
    match a.form.read value with
    | .error fault =>
      .error (.badValue a (if fault = .missing then "" else value) fault)
    | .ok v => .ok (given ++ [(a, v)])

theorem add_eq_ok_iff {given given' : Given} {a : Arg} {value : String} :
    given.add a value = .ok given' ↔
      given.has a = false ∧ ∃ v, a.form.read value = .ok v ∧ given' = given ++ [(a, v)] := by
  unfold add
  cases given.has a with
  | true => simp
  | false =>
    cases a.form.read value with
    | error fault => simp
    | ok v => simp [eq_comm]

theorem has_append (given given' : Given) (a : Arg) :
    has (given ++ given') a = (given.has a || given'.has a) :=
  List.any_append

end Given

structure Scan where
  given : Given := []
  /-- The last argument and its value, if that is there already. -/
  last : Option (Arg × Option String) := none
  /-- Whether `--` has been read. -/
  trailing : Bool := false
deriving DecidableEq, Repr

namespace Scan

/-- Whether the next argument is the value of the last one, whatever it is named. -/
def awaitsValue (s : Scan) : Bool :=
  match s.trailing, s.last with
  | false, some (_, none) => true
  | _, _ => false

def settled (s : Scan) : Except Error Given :=
  match s.last with
  | none => .ok s.given
  | some (a, none) => .error (.badValue a "" .missing)
  | some (a, some value) => s.given.add a value

def begin (s : Scan) (a : Arg) (value : Option String) : Except Error Scan :=
  match s.settled with
  | .error e => .error e
  | .ok given => .ok { s with given, last := some (a, value) }

def complete (s : Scan) (a : Arg) (value : String) : Except Error Scan :=
  match s.settled with
  | .error e => .error e
  | .ok given =>
    match given.add a value with
    | .error e => .error e
    | .ok given => .ok { s with given, last := none }

def option (s : Scan) (a : Arg) : Option String → Except Error Scan
  | none => s.begin a none
  | some value => s.complete a value

def inquire (s : Scan) (inquiry : Inquiry) : Except Error Scan :=
  match s.settled with
  | .error e => .error e
  | .ok _ => .error (.asked inquiry)

def hasBegun (s : Scan) (a : Arg) : Bool :=
  s.given.has a || s.last.any fun p => p.1 = a

def unexpected (level : Level) (trailing : Bool) (word : String) : Error :=
  match level with
  | .verb _ => .unknownArgument word
  | .top =>
    if trailing && ((Verb.ofName? word).isSome || word = Inquiry.help.label) then
      .unknownArgument word
    else .unknownCommand word

def place (level : Level) (s : Scan) (word : String) : Except Error Scan :=
  match level.placed? with
  | none => .error (unexpected level s.trailing word)
  | some a =>
    if s.hasBegun a then .error (unexpected level s.trailing word) else s.begin a (some word)

/-- What follows the first `=` of a text. -/
def attached? (cs : List Char) : Option String :=
  match cs.dropWhile (· != '=') with
  | [] => none
  | _ :: value => some (String.ofList value)

def long (level : Level) (s : Scan) (cs : List Char) : Except Error Scan :=
  let label := cs.takeWhile (· != '=')
  match level.option? label with
  | some a => s.option a (attached? cs)
  | none =>
    match level.inquiry? label with
    | none => .error (.unknownArgument ("--" ++ String.ofList label))
    | some inquiry =>
      match attached? cs with
      | none => s.inquire inquiry
      | some value => .error (.needlessValue inquiry value)

def short (level : Level) (s : Scan) (letter : Char) (cs : List Char) : Except Error Scan :=
  match level.letterOption? letter with
  | some a =>
    s.option a
      (match cs with
      | [] => none
      | '=' :: value => some (String.ofList value)
      | value => some (String.ofList value))
  | none =>
    match level.letterInquiry? letter with
    | some inquiry => s.inquire inquiry
    | none => .error (.unknownArgument (String.ofList ['-', letter]))

def step (level : Level) (s : Scan) (word : String) : Except Error Scan :=
  if s.trailing then place level s word
  else
    match word.toList with
    | ['-', '-'] => .ok { s with trailing := true }
    | '-' :: '-' :: cs => long level s cs
    | '-' :: c :: cs => short level s c cs
    | _ =>
      match s.last with
      | some (a, none) => .ok { s with last := some (a, some word) }
      | _ => place level s word

def steps (level : Level) (s : Scan) : List String → Except Error Scan
  | [] => .ok s
  | word :: words =>
    match step level s word with
    | .error e => .error e
    | .ok s => steps level s words

end Scan

end Roster.CommandLine
