import Roster.Json.Decimal
import Roster.Text.Quoted
import Roster.Text.Utf8

/-!
What can be wrong with a JSON document, how it is worded, and where it is reported.

Reading stops with a cause and with the number of bytes that were still ahead; from that and the
whole text follow the line and the column, both counted from one, columns in bytes.
-/

namespace Roster.Json

open Text (Symbol)

inductive Found where
  | null
  | flag (b : Bool)
  | natural (n : Nat)
  | negative (n : Nat)
  | decimal (d : Decimal)
  | text (s : List Char)
  | list
  | object
deriving DecidableEq, Repr

def Found.message : Found → String
  | .null => "null"
  | .flag b => "boolean `" ++ toString b ++ "`"
  | .natural n => "integer `" ++ toString n ++ "`"
  | .negative n => "integer `-" ++ toString n ++ "`"
  | .decimal d => "floating point `" ++ d.text ++ "`"
  | .text s => "string " ++ String.ofList (Text.quoted s)
  | .list => "sequence"
  | .object => "map"

inductive Cause where
  -- it breaks off
  | endInValue
  | endInList
  | endInObject
  | endInString
  -- it is not JSON
  | expectedValue
  | expectedWord
  | expectedColon
  | expectedCommaOrBracket
  | expectedCommaOrBrace
  | keyNotText
  | trailingComma
  | trailingCharacters
  | controlCharacter
  | invalidEscape
  | invalidNumber
  | numberOutOfRange
  | invalidCharacter
  | loneSurrogate
  | unfinishedPair
  -- it is JSON, but not what was wanted
  | wrongKind (found : Found) (wanted : String)
  | wrongValue (found : Found) (wanted : String)
  | tooShort (length : Nat) (wanted : String)
  | duplicateField (name : String)
  | missingField (name : String)
  | unknownChoice (found : List Char) (choices : List String)
deriving DecidableEq, Repr

inductive Category where
  | ending
  | form
  | content
deriving DecidableEq, Repr

def Cause.category : Cause → Category
  | .endInValue | .endInList | .endInObject | .endInString => .ending
  | .wrongKind .. | .wrongValue .. | .tooShort .. | .duplicateField _ | .missingField _
  | .unknownChoice .. => .content
  | _ => .form

def listChoices : List String → String
  | [] => "nothing"
  | [a] => "`" ++ a ++ "`"
  | [a, b] => "`" ++ a ++ "` or `" ++ b ++ "`"
  | many => "one of " ++ ", ".intercalate (many.map fun a => "`" ++ a ++ "`")

def Cause.message : Cause → String
  | .endInValue => "EOF while parsing a value"
  | .endInList => "EOF while parsing a list"
  | .endInObject => "EOF while parsing an object"
  | .endInString => "EOF while parsing a string"
  | .expectedValue => "expected value"
  | .expectedWord => "expected ident"
  | .expectedColon => "expected `:`"
  | .expectedCommaOrBracket => "expected `,` or `]`"
  | .expectedCommaOrBrace => "expected `,` or `\x7d`"
  | .keyNotText => "key must be a string"
  | .trailingComma => "trailing comma"
  | .trailingCharacters => "trailing characters"
  | .controlCharacter => "control character (\\u0000-\\u001F) found while parsing a string"
  | .invalidEscape => "invalid escape"
  | .invalidNumber => "invalid number"
  | .numberOutOfRange => "number out of range"
  | .invalidCharacter => "invalid unicode code point"
  | .loneSurrogate => "lone leading surrogate in hex escape"
  | .unfinishedPair => "unexpected end of hex escape"
  | .wrongKind found wanted => "invalid type: " ++ found.message ++ ", expected " ++ wanted
  | .wrongValue found wanted => "invalid value: " ++ found.message ++ ", expected " ++ wanted
  | .tooShort length wanted =>
    "invalid length " ++ toString length ++ ", expected " ++ wanted
  | .duplicateField name => "duplicate field `" ++ name ++ "`"
  | .missingField name => "missing field `" ++ name ++ "`"
  | .unknownChoice found choices =>
    "unknown variant `" ++ String.ofList found ++ "`, expected " ++ listChoices choices

structure Position where
  line : Nat
  column : Nat
deriving DecidableEq, Repr

def Position.after (p : Position) : (bytes : Nat) → List Symbol → Position
  | _, [] => p
  | bytes, x :: rest =>
    if bytes = 0 then p
    else
      let next : Position :=
        if x = .char '\n' then ⟨p.line + 1, 0⟩ else ⟨p.line, p.column + min bytes x.width⟩
      next.after (bytes - x.width) rest

/-- Where and why reading stopped: `ahead` bytes of the text were still to come. -/
structure Stop where
  cause : Cause
  ahead : Nat
deriving DecidableEq, Repr

def Stop.before (cause : Cause) (rest : List Symbol) : Stop :=
  ⟨cause, Text.width rest⟩

/-- Stopping behind the first byte of a text, or at its end if it is empty. -/
def Stop.past (cause : Cause) (rest : List Symbol) : Stop :=
  ⟨cause, Text.width rest - 1⟩

def Stop.atEnd (cause : Cause) : Stop :=
  ⟨cause, 0⟩

structure Fault where
  cause : Cause
  position : Position
deriving DecidableEq, Repr

def Stop.inText (stop : Stop) (text : List Symbol) : Fault :=
  ⟨stop.cause, Position.after ⟨1, 0⟩ (Text.width text - stop.ahead) text⟩

def Fault.message (f : Fault) : String :=
  f.cause.message ++ " at line " ++ toString f.position.line ++ " column " ++
    toString f.position.column

end Roster.Json
