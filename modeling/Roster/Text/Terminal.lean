/-!
Text as a terminal shows it: control characters other than blanks are gone, and so are control
sequences, finished or not.

A sequence begins with an escape character. What follows decides how long it is: one character,
perhaps after a few marks; parameters up to a final letter; or a whole text, which a bell, a string
terminator or another sequence ends. A blank control character such as a line end interrupts the
first two kinds and is shown.
-/

namespace Roster.Text.Terminal

inductive State where
  /-- In none. -/
  | ground
  /-- Behind an escape character. -/
  | escape
  /-- Behind an escape character and marks. -/
  | marked
  /-- Among the parameters of a control sequence. -/
  | control
  /-- At the beginning of a device sequence. -/
  | device
  /-- Among the parameters of a device sequence. -/
  | deviceParameters
  /-- Among the marks of a device sequence. -/
  | deviceMarks
  /-- In a text for the operating system. -/
  | systemText
  /-- In another text that is not shown. -/
  | hiddenText
deriving DecidableEq, Repr

def within (lo hi n : Nat) : Bool :=
  lo ≤ n && n ≤ hi

/-- Control characters that are blank: tabulator, line end, form feed and carriage return. -/
def isLayout (c : Char) : Bool :=
  c = '\t' || c = '\n' || c = '\x0c' || c = '\r'

def holdsTerminator (c : Char) : Bool :=
  (String.singleton c).toUTF8.toList.contains 0x9C

def State.opened (c : Char) : State :=
  if c = '[' then .control
  else if c = ']' then .systemText
  else if c = 'P' then .device
  else if c = 'X' || c = '^' || c = '_' then .hiddenText
  else if within 0x20 0x2F c.toNat then .marked
  else if within 0x30 0x7E c.toNat then .ground
  else .escape

def State.next (s : State) (c : Char) : State :=
  let n := c.toNat
  match s with
  | .ground => .ground
  | .escape => if isLayout c then .ground else State.opened c
  | .marked => if isLayout c || within 0x30 0x7E n then .ground else .marked
  | .control => if isLayout c || within 0x40 0x7E n then .ground else .control
  | .device =>
    if within 0x20 0x2F n then .deviceMarks
    else if within 0x30 0x3F n then .deviceParameters
    else if within 0x40 0x7E n then .hiddenText
    else .device
  | .deviceParameters =>
    if within 0x20 0x2F n then .deviceMarks
    else if within 0x3C 0x7E n then .hiddenText
    else .deviceParameters
  | .deviceMarks => if within 0x30 0x7E n then .hiddenText else .deviceMarks
  | .systemText => if c = '\x07' then .ground else .systemText
  | .hiddenText => if holdsTerminator c then .ground else .hiddenText

def State.shows (s : State) (c : Char) : Bool :=
  match s with
  | .ground => isLayout c || (0x20 ≤ c.toNat && c.toNat ≠ 0x7F)
  | .escape | .marked | .control => isLayout c
  | _ => false

def shownFrom (s : State) : List Char → List Char
  | [] => []
  | c :: cs =>
    if c = '\x1b' then shownFrom .escape cs
    else if c = '\x18' || c = '\x1a' then shownFrom .ground cs
    else if s.shows c then c :: shownFrom (s.next c) cs
    else shownFrom (s.next c) cs

def shown (text : String) : String :=
  String.ofList (shownFrom .ground text.toList)

end Roster.Text.Terminal
