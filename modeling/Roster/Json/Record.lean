import Roster.Json.Skip

/-!
Reading records: JSON documents that hold one value for each of a list of named fields.

A record is written as an object or as a list. In an object the fields stand in any order, each at
most once, among other members that are passed over; in a list they stand in their own order, and
those at the end may be left out. A field without a value takes its fallback, if it has one.
-/

namespace Roster.Json

open Text (Symbol)

inductive Kind where
  | natural
  | text
  | flag
deriving DecidableEq, Repr

def Kind.wanted : Kind → String
  | .natural => "u64"
  | .text => "a string"
  | .flag => "a boolean"

inductive FieldValue where
  | natural (n : UInt64)
  | text (cs : List Char)
  | flag (b : Bool)
deriving DecidableEq, Repr

structure Field where
  name : String
  kind : Kind
  fallback : Option FieldValue
deriving DecidableEq, Repr

structure Shape where
  title : String
  fields : List Field
deriving DecidableEq, Repr

def Shape.wanted (shape : Shape) : String :=
  shape.title ++ " with " ++ toString shape.fields.length ++ " elements"

/-- Why a text does not hold a value of the kind wanted: it holds another value, or none. A list or
an object is not looked into. -/
def mismatch (wanted : String) (s : List Symbol) : Stop :=
  let found := fun (f : Found) (rest : List Symbol) => Stop.before (.wrongKind f wanted) rest
  let word := fun (f : Found) (w : List Char) (rest : List Symbol) =>
    match readWord w rest with
    | .error stop => stop
    | .ok rest => found f rest
  match s with
  | [] => Stop.atEnd .endInValue
  | .char 'n' :: rest => word .null ['u', 'l', 'l'] rest
  | .char 't' :: rest => word (.flag true) ['r', 'u', 'e'] rest
  | .char 'f' :: rest => word (.flag false) ['a', 'l', 's', 'e'] rest
  | .char '[' :: _ => found .list s
  | .char '{' :: _ => found .object s
  | .char '"' :: rest =>
    match readText rest with
    | .error stop => stop
    | .ok (cs, rest) => found (.text cs) rest
  | .char c :: _ =>
    if c = '-' || c.isDigit then
      match Number.read s with
      | .error stop => stop
      | .ok (n, rest) => found n.found rest
    else Stop.past .expectedValue s
  | .stray _ :: _ => Stop.past .expectedValue s

def readNatural (s : List Symbol) : Except Stop (UInt64 × List Symbol) :=
  match s with
  | .char c :: _ =>
    if c = '-' || c.isDigit then
      match Number.read s with
      | .error stop => .error stop
      | .ok (.natural n, rest) => .ok (UInt64.ofNat n, rest)
      | .ok (.negative n, rest) =>
        .error (Stop.before (.wrongValue (.negative n) Kind.natural.wanted) rest)
      | .ok (.decimal d, rest) =>
        .error (Stop.before (.wrongKind (.decimal d) Kind.natural.wanted) rest)
    else .error (mismatch Kind.natural.wanted s)
  | _ => .error (mismatch Kind.natural.wanted s)

def readFlag (s : List Symbol) : Except Stop (Bool × List Symbol) :=
  match s with
  | .char 't' :: rest =>
    match readWord ['r', 'u', 'e'] rest with
    | .error stop => .error stop
    | .ok rest => .ok (true, rest)
  | .char 'f' :: rest =>
    match readWord ['a', 'l', 's', 'e'] rest with
    | .error stop => .error stop
    | .ok rest => .ok (false, rest)
  | _ => .error (mismatch Kind.flag.wanted s)

def readQuoted (s : List Symbol) : Except Stop (List Char × List Symbol) :=
  match s with
  | .char '"' :: rest => readText rest
  | _ => .error (mismatch Kind.text.wanted s)

def readField (kind : Kind) (s : List Symbol) : Except Stop (FieldValue × List Symbol) :=
  let s := skipSpace s
  match kind with
  | .natural =>
    match readNatural s with
    | .error stop => .error stop
    | .ok (n, rest) => .ok (.natural n, rest)
  | .text =>
    match readQuoted s with
    | .error stop => .error stop
    | .ok (cs, rest) => .ok (.text cs, rest)
  | .flag =>
    match readFlag s with
    | .error stop => .error stop
    | .ok (b, rest) => .ok (.flag b, rest)

theorem length_readField {kind : Kind} {s rest : List Symbol} {v : FieldValue}
    (h : readField kind s = .ok (v, rest)) : rest.length < s.length := by
  have hs := length_skipSpace s
  cases kind with
  | natural =>
    unfold readField readNatural at h
    grind [→ Number.length_read]
  | text =>
    unfold readField readQuoted at h
    grind [→ length_readText]
  | flag =>
    unfold readField readFlag at h
    grind [→ length_readWord]

/-! ## Object form -/

def nextKey (first : Bool) (s : List Symbol) : Except Stop (Option (List Symbol)) :=
  match skipSpace s with
  | [] => .error (Stop.atEnd .endInObject)
  | .char '}' :: _ => .ok none
  | x :: rest =>
    if first then
      if x = .char '"' then .ok (some rest) else .error (Stop.past .keyNotText (x :: rest))
    else if x = .char ',' then
      match skipSpace rest with
      | [] => .error (Stop.atEnd .endInValue)
      | .char '"' :: rest => .ok (some rest)
      | .char '}' :: rest => .error (Stop.past .trailingComma (.char '}' :: rest))
      | y :: rest => .error (Stop.past .keyNotText (y :: rest))
    else .error (Stop.past .expectedCommaOrBrace (x :: rest))

def behindBrace (s : List Symbol) : List Symbol :=
  match skipSpace s with
  | .char '}' :: rest => rest
  | rest => rest

theorem length_nextKey {first : Bool} {s rest : List Symbol}
    (h : nextKey first s = .ok (some rest)) : rest.length < s.length := by
  have hs := length_skipSpace s
  unfold nextKey at h
  split at h
  · cases h
  · cases h
  · rename_i x r _ hr
    have := length_skipSpace r
    grind

def Shape.field? (shape : Shape) (key : List Char) : Option Field :=
  shape.fields.find? fun f => f.name.toList = key

def membersFrom (shape : Shape) (first : Bool) (found : List (String × FieldValue))
    (s : List Symbol) : Except Stop (List (String × FieldValue) × List Symbol) :=
  match _hk : nextKey first s with
  | .error stop => .error stop
  | .ok none => .ok (found, behindBrace s)
  | .ok (some s₁) =>
    match _ht : readText s₁ with
    | .error stop => .error stop
    | .ok (key, s₂) =>
      match shape.field? key with
      | none =>
        match _hc : readColon s₂ with
        | .error stop => .error stop
        | .ok s₃ =>
          match _hv : skipValue s₃ with
          | .error stop => .error stop
          | .ok s₄ => membersFrom shape false found s₄
      | some field =>
        if (found.lookup field.name).isSome then
          .error (Stop.before (.duplicateField field.name) (behindBrace s₂))
        else
          match _hc : readColon s₂ with
          | .error stop => .error stop
          | .ok s₃ =>
            match _hv : readField field.kind s₃ with
            | .error stop => .error stop
            | .ok (v, s₄) => membersFrom shape false ((field.name, v) :: found) s₄
termination_by s.length
decreasing_by
  all_goals have h₁ := length_nextKey _hk
  all_goals have h₂ := length_readText _ht
  all_goals have h₃ := length_readColon _hc
  · have := length_skipValue _hv
    omega
  · have := length_readField _hv
    omega

def complete (found : List (String × FieldValue)) : List Field → Except Cause (List FieldValue)
  | [] => .ok []
  | f :: fs =>
    match (found.lookup f.name).or f.fallback with
    | none => .error (.missingField f.name)
    | some v =>
      match complete found fs with
      | .error cause => .error cause
      | .ok vs => .ok (v :: vs)

def readObject (shape : Shape) (s : List Symbol) :
    Except Stop (List FieldValue × List Symbol) :=
  match membersFrom shape true [] s with
  | .error stop => .error stop
  | .ok (found, rest) =>
    match complete found shape.fields with
    | .error cause => .error (Stop.before cause rest)
    | .ok vs => .ok (vs, rest)

/-! ## List form -/

/-- What comes next in a list: nothing at its end, otherwise the text of an element. -/
def nextElement (first : Bool) (s : List Symbol) : Except Stop (Option (List Symbol)) :=
  match skipSpace s with
  | [] => .error (Stop.atEnd .endInList)
  | .char ']' :: _ => .ok none
  | x :: rest =>
    if first then .ok (some (x :: rest))
    else if x = .char ',' then
      match skipSpace rest with
      | [] => .error (Stop.atEnd .endInValue)
      | .char ']' :: rest => .error (Stop.past .trailingComma (.char ']' :: rest))
      | y :: rest => .ok (some (y :: rest))
    else .error (Stop.past .expectedCommaOrBracket (x :: rest))

def closeList (s : List Symbol) : Except Stop (List Symbol) :=
  match skipSpace s with
  | [] => .error (Stop.atEnd .endInList)
  | .char ']' :: rest => .ok rest
  | .char ',' :: rest =>
    match skipSpace rest with
    | .char ']' :: rest => .error (Stop.past .trailingComma (.char ']' :: rest))
    | rest => .error (Stop.past .trailingCharacters rest)
  | rest => .error (Stop.past .trailingCharacters rest)

/-- Reads the elements of a list, one for each field, `index` of them being read. Fields left out
take their fallbacks. -/
def elementsFrom (shape : Shape) (index : Nat) (s : List Symbol) :
    List Field → Except Stop (List FieldValue × List Symbol)
  | [] =>
    match closeList s with
    | .error stop => .error stop
    | .ok rest => .ok ([], rest)
  | f :: fs =>
    match nextElement (index = 0) s with
    | .error stop => .error stop
    | .ok none =>
      match f.fallback with
      | none => .error (Stop.before (.tooShort index shape.wanted) ((skipSpace s).drop 1))
      | some v =>
        match elementsFrom shape (index + 1) s fs with
        | .error stop => .error stop
        | .ok (vs, rest) => .ok (v :: vs, rest)
    | .ok (some s₁) =>
      match readField f.kind s₁ with
      | .error stop => .error stop
      | .ok (v, s₂) =>
        match elementsFrom shape (index + 1) s₂ fs with
        | .error stop => .error stop
        | .ok (vs, rest) => .ok (v :: vs, rest)

/-! ## Documents -/

def readRecord (shape : Shape) (s : List Symbol) :
    Except Stop (List FieldValue × List Symbol) :=
  match skipSpace s with
  | .char '[' :: rest => elementsFrom shape 0 rest shape.fields
  | .char '{' :: rest => readObject shape rest
  | s => .error (mismatch shape.title s)

def finish {α : Type} (text : List Symbol) (read : Except Stop (α × List Symbol)) :
    Except Fault α :=
  match read with
  | .error stop => .error (stop.inText text)
  | .ok (a, rest) =>
    match skipSpace rest with
    | [] => .ok a
    | rest => .error ((Stop.past .trailingCharacters rest).inText text)

def decodeRecord (shape : Shape) (text : List Symbol) : Except Fault (List FieldValue) :=
  finish text (readRecord shape text)

/-! ## Choices -/

def readChoice (choices : List String) (s : List Symbol) :
    Except Stop (String × List Symbol) :=
  match readText s with
  | .error stop => .error stop
  | .ok (cs, rest) =>
    match choices.find? (fun c => c.toList = cs) with
    | some c => .ok (c, rest)
    | none => .error (Stop.before (.unknownChoice cs choices) rest)

def readNull (s : List Symbol) : Except Stop (List Symbol) :=
  match skipSpace s with
  | .char 'n' :: rest => readWord ['u', 'l', 'l'] rest
  | s => .error (mismatch "unit" s)

/-- Reads a choice: its name alone, or an object with the name as its only key and `null` under
it. -/
def readVariant (choices : List String) (s : List Symbol) :
    Except Stop (String × List Symbol) :=
  match skipSpace s with
  | [] => .error (Stop.atEnd .endInValue)
  | .char '"' :: rest => readChoice choices rest
  | .char '{' :: rest =>
    match skipSpace rest with
    | [] => .error (Stop.atEnd .endInObject)
    | .char '"' :: rest => do
      let (choice, rest) ← readChoice choices rest
      let rest ← readNull (← readColon rest)
      match skipSpace rest with
      | [] => .error (Stop.atEnd .endInObject)
      | .char '}' :: rest => .ok (choice, rest)
      | rest => .error (Stop.before .expectedValue rest)
    | .char '}' :: rest => .error (Stop.past .expectedValue (.char '}' :: rest))
    | rest => .error (Stop.past .keyNotText rest)
  | s => .error (Stop.past .expectedValue s)

def decodeVariant (choices : List String) (text : List Symbol) : Except Fault String :=
  finish text (readVariant choices text)

end Roster.Json
