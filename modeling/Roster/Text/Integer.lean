/-!
Integers in decimal notation, as they are typed: an optional sign, then digits, and nothing else.
What cannot be represented is told apart from what is no number. A minus sign is read only where
negative numbers can be represented.
-/

namespace Roster.Text

inductive IntegerFault where
  | empty
  | invalidDigit
  | tooLarge
  | tooSmall
deriving DecidableEq, Repr

def IntegerFault.message : IntegerFault → String
  | .empty => "cannot parse integer from empty string"
  | .invalidDigit => "invalid digit found in string"
  | .tooLarge => "number too large to fit in target type"
  | .tooSmall => "number too small to fit in target type"

def digit? (c : Char) : Option Nat :=
  if c.isDigit then some (c.toNat - '0'.toNat) else none

def hexDigit? (c : Char) : Option Nat :=
  if '0' ≤ c ∧ c ≤ '9' then some (c.toNat - 48)
  else if 'a' ≤ c ∧ c ≤ 'f' then some (c.toNat - 87)
  else if 'A' ≤ c ∧ c ≤ 'F' then some (c.toNat - 55)
  else none

/-- Reads digits after a number; the first fault from the left counts. -/
def readDigits (limit : Nat) (tooFar : IntegerFault) : Nat → List Char → Except IntegerFault Nat
  | n, [] => .ok n
  | n, c :: cs =>
    match digit? c with
    | none => .error .invalidDigit
    | some d =>
      if limit < 10 * n + d then .error tooFar else readDigits limit tooFar (10 * n + d) cs

/-- Reads the magnitude of a number, which has a digit at least. -/
def readMagnitude (limit : Nat) (tooFar : IntegerFault) : List Char → Except IntegerFault Nat
  | [] => .error .invalidDigit
  | cs => readDigits limit tooFar 0 cs

def readInteger (lowest highest : Int) : List Char → Except IntegerFault Int
  | [] => .error .empty
  | '+' :: cs => (readMagnitude highest.toNat .tooLarge cs).map Int.ofNat
  | '-' :: cs =>
    if lowest < 0 then (readMagnitude (-lowest).toNat .tooSmall cs).map fun n => -(n : Int)
    else .error .invalidDigit
  | cs => (readMagnitude highest.toNat .tooLarge cs).map Int.ofNat

end Roster.Text
