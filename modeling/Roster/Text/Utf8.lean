/-!
Bytes read as UTF-8. A text of bytes is a row of symbols: characters, and stray bytes that belong
to none. Where stray bytes are not wanted, the first flaw is reported with its index and, when the
bytes at hand are enough to tell, the length of the part that cannot begin any character.
-/

namespace Roster.Text

inductive Symbol where
  /-- A character in its one well-formed encoding. -/
  | char (c : Char)
  /-- A byte that is part of no character. -/
  | stray (b : UInt8)
deriving DecidableEq, Repr

def Symbol.width : Symbol → Nat
  | .char c => c.utf8Size
  | .stray _ => 1

def width (s : List Symbol) : Nat :=
  s.foldl (fun n x => n + x.width) 0

def ofChars (cs : List Char) : List Symbol :=
  cs.map .char

namespace Utf8

def first? (bytes : List UInt8) : Option Char :=
  (bytes.take 4).toByteArray.utf8DecodeChar? 0

def symbolsFrom (found : List Symbol) : List UInt8 → List Symbol
  | [] => found.reverse
  | b :: rest =>
    match first? (b :: rest) with
    | some c => symbolsFrom (.char c :: found) (rest.drop (c.utf8Size - 1))
    | none => symbolsFrom (.stray b :: found) rest
termination_by bytes => bytes.length
decreasing_by
  all_goals simp only [List.length_drop, List.length_cons]
  all_goals omega

def symbols (bytes : List UInt8) : List Symbol :=
  symbolsFrom [] bytes

inductive Flaw where
  /-- The given number of bytes begin no character, whatever follows them. -/
  | invalid (count index : Nat)
  /-- The bytes end in the middle of a character. -/
  | incomplete (index : Nat)
deriving DecidableEq, Repr

def Flaw.message : Flaw → String
  | .invalid count index =>
    "invalid utf-8 sequence of " ++ toString count ++ " bytes from index " ++ toString index
  | .incomplete index => "incomplete utf-8 byte sequence from index " ++ toString index

/-- How many bytes follow a first byte; none for a byte that begins no longer character. -/
def followers (lead : UInt8) : Nat :=
  if 0xC2 ≤ lead && lead ≤ 0xDF then 1
  else if 0xE0 ≤ lead && lead ≤ 0xEF then 2
  else if 0xF0 ≤ lead && lead ≤ 0xF4 then 3
  else 0

/-- Whether a byte may come second after the given first byte: overlong forms, surrogates and
values above the last code point are cut off here. -/
def mayFollow (lead second : UInt8) : Bool :=
  let low : UInt8 := if lead == 0xE0 then 0xA0 else if lead == 0xF0 then 0x90 else 0x80
  let high : UInt8 := if lead == 0xED then 0x9F else if lead == 0xF4 then 0x8F else 0xBF
  low ≤ second && second ≤ high

/-- The flaw of bytes whose first `seen` were fine while `due` more bytes of the range 80 to BF
were to follow. -/
def flawAmong (index : Nat) : (due seen : Nat) → List UInt8 → Flaw
  | 0, seen, _ => .invalid seen index
  | _ + 1, _, [] => .incomplete index
  | due + 1, seen, b :: rest =>
    if 0x80 ≤ b && b ≤ 0xBF then flawAmong index due (seen + 1) rest else .invalid seen index

def flawAt (index : Nat) : List UInt8 → Flaw
  | [] => .incomplete index
  | lead :: rest =>
    match followers lead, rest with
    | 0, _ => .invalid 1 index
    | _ + 1, [] => .incomplete index
    | due + 1, second :: rest =>
      if mayFollow lead second then flawAmong index due 2 rest else .invalid 1 index

def decodeFrom (found : List Char) (index : Nat) : List UInt8 → Except Flaw (List Char)
  | [] => .ok found.reverse
  | b :: rest =>
    match first? (b :: rest) with
    | some c => decodeFrom (c :: found) (index + c.utf8Size) (rest.drop (c.utf8Size - 1))
    | none => .error (flawAt index (b :: rest))
termination_by bytes => bytes.length
decreasing_by
  simp only [List.length_drop, List.length_cons]
  omega

def decode (bytes : List UInt8) : Except Flaw (List Char) :=
  decodeFrom [] 0 bytes

end Utf8

end Roster.Text
