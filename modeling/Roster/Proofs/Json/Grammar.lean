import Roster.Json.Skip
import Roster.Proofs.Text.Digits

/-!
The grammar of JSON, apart from any reader: which texts are values, which characters a text between
quotes stands for, and of which members or elements an object or a list is made. A text whose value
is wanted stands for characters, so its escapes have to be those of characters; one that is passed
over may also have escapes of single surrogates.
-/

namespace Roster.Json

open Text (IsNumeral)

def Blank (w : List Char) : Prop :=
  ∀ c ∈ w, c = ' ' ∨ c = '\n' ∨ c = '\t' ∨ c = '\r'

def Document (P : List Char → Prop) (s : List Char) : Prop :=
  ∃ w d w', s = w ++ d ++ w' ∧ Blank w ∧ P d ∧ Blank w'

/-! ## Texts -/

def Hex (c : Char) (n : Nat) : Prop :=
  "0123456789abcdef".toList[n]? = some c ∨ "0123456789ABCDEF".toList[n]? = some c

def HexDigits (s : List Char) (n : Nat) : Prop :=
  ∃ a b c d i j k l, s = [a, b, c, d] ∧ Hex a i ∧ Hex b j ∧ Hex c k ∧ Hex d l ∧
    n = ((i * 16 + j) * 16 + k) * 16 + l

def Unit (s : List Char) (n : Nat) : Prop :=
  ∃ ds, s = '\\' :: 'u' :: ds ∧ HexDigits ds n

def shortEscapes : List (Char × Char) :=
  [('"', '"'), ('\\', '\\'), ('/', '/'), ('b', '\x08'), ('f', '\x0c'), ('n', '\n'), ('r', '\r'),
    ('t', '\t')]

/-- What may stand for a character between quotes: the character itself, a short escape, the escape
of its code unit, or those of its two surrogates. -/
inductive Piece : List Char → Char → Prop
  | plain {c : Char} : 0x20 ≤ c.toNat → c ≠ '"' → c ≠ '\\' → Piece [c] c
  | short {e c : Char} : (e, c) ∈ shortEscapes → Piece ['\\', e] c
  | unit {s : List Char} {c : Char} : Unit s c.toNat → Piece s c
  | pair {s s' : List Char} {lead trail : Nat} {c : Char} :
    Unit s lead → Unit s' trail → 0xD800 ≤ lead → lead < 0xDC00 → 0xDC00 ≤ trail → trail < 0xE000 →
      c.toNat = 0x10000 + (lead - 0xD800) * 0x400 + (trail - 0xDC00) → Piece (s ++ s') c

inductive Spells : List Char → List Char → Prop
  | nil : Spells [] []
  | cons {p s cs : List Char} {c : Char} : Piece p c → Spells s cs → Spells (p ++ s) (c :: cs)

def IsText (s cs : List Char) : Prop :=
  ∃ body, s = '"' :: body ++ ['"'] ∧ Spells body cs

/-- What may stand between quotes, whether or not it stands for characters. -/
inductive Unspelled : List Char → Prop
  | nil : Unspelled []
  | plain {c : Char} {s : List Char} :
    0x20 ≤ c.toNat → c ≠ '"' → c ≠ '\\' → Unspelled s → Unspelled (c :: s)
  | short {e c : Char} {s : List Char} :
    (e, c) ∈ shortEscapes → Unspelled s → Unspelled ('\\' :: e :: s)
  | unit {u s : List Char} {n : Nat} : Unit u n → Unspelled s → Unspelled (u ++ s)

def IsAnyText (s : List Char) : Prop :=
  ∃ body, s = '"' :: body ++ ['"'] ∧ Unspelled body

/-! ## Numbers and words -/

def IsDigits (s : List Char) : Prop :=
  s ≠ [] ∧ ∀ c ∈ s, c.isDigit = true

def IsFraction (s : List Char) : Prop :=
  s = [] ∨ ∃ ds, s = '.' :: ds ∧ IsDigits ds

def IsExponent (s : List Char) : Prop :=
  s = [] ∨ ∃ e sign ds, s = e :: sign ++ ds ∧ (e = 'e' ∨ e = 'E') ∧
    (sign = [] ∨ sign = ['+'] ∨ sign = ['-']) ∧ IsDigits ds

def IsNumber (s : List Char) : Prop :=
  ∃ sign whole fraction exponent, s = sign ++ whole ++ fraction ++ exponent ∧
    (sign = [] ∨ sign = ['-']) ∧ IsNumeral whole ∧ IsFraction fraction ∧ IsExponent exponent

/-- A natural number of 64 bits, which is written in its digits alone. -/
def IsNatural (s : List Char) (n : UInt64) : Prop :=
  s = Nat.toDigits 10 n.toNat

def IsFlag (s : List Char) (b : Bool) : Prop :=
  s = (if b then "true" else "false").toList

/-! ## Values of any shape -/

def Bracket.opens : Bracket → Char
  | .list => '['
  | .object => '{'

def Bracket.closes : Bracket → Char
  | .list => ']'
  | .object => '}'

/-- What stands in front of a value inside a bracket: in an object, a key and a colon. -/
def IsLabel : Bracket → List Char → Prop
  | .list, s => s = []
  | .object, s => ∃ w k w', s = w ++ k ++ w' ++ [':'] ∧ Blank w ∧ IsAnyText k ∧ Blank w'

/-- The parts that values are made of: values, and the items of a bracket, at least one of them. -/
inductive Part where
  | value
  | items (b : Bracket)

inductive Formed : Part → List Char → Prop
  | null : Formed .value "null".toList
  | flag {s : List Char} {b : Bool} : IsFlag s b → Formed .value s
  | number {s : List Char} : IsNumber s → Formed .value s
  | text {s : List Char} : IsAnyText s → Formed .value s
  | empty {b : Bracket} {w : List Char} : Blank w → Formed .value (b.opens :: w ++ [b.closes])
  | filled {b : Bracket} {s : List Char} :
    Formed (.items b) s → Formed .value (b.opens :: s ++ [b.closes])
  | last {b : Bracket} {l w v w' : List Char} :
    IsLabel b l → Blank w → Formed .value v → Blank w' → Formed (.items b) (l ++ w ++ v ++ w')
  | more {b : Bracket} {l w v w' s : List Char} :
    IsLabel b l → Blank w → Formed .value v → Blank w' → Formed (.items b) s →
      Formed (.items b) (l ++ w ++ v ++ w' ++ ',' :: s)

def IsValue (s : List Char) : Prop :=
  Formed .value s

/-! ## Objects and lists, with their members and elements -/

inductive Separated {α : Type} (P : List Char → α → Prop) : List Char → List α → Prop
  | last {s : List Char} {a : α} : P s a → Separated P s [a]
  | more {s s' : List Char} {a : α} {as : List α} :
    P s a → Separated P s' as → Separated P (s ++ ',' :: s') (a :: as)

def IsElement (s v : List Char) : Prop :=
  ∃ w w', s = w ++ v ++ w' ∧ Blank w ∧ IsValue v ∧ Blank w'

/-- A member of an object: its key, which stands for characters, and the text of its value. -/
def IsMember (s : List Char) (m : List Char × List Char) : Prop :=
  ∃ w k w' e, s = w ++ k ++ w' ++ ':' :: e ∧ Blank w ∧ IsText k m.1 ∧ Blank w' ∧ IsElement e m.2

def IsList (s : List Char) (vs : List (List Char)) : Prop :=
  ∃ body, s = '[' :: body ++ [']'] ∧ (Blank body ∧ vs = [] ∨ Separated IsElement body vs)

def IsObject (s : List Char) (ms : List (List Char × List Char)) : Prop :=
  ∃ body, s = '{' :: body ++ ['}'] ∧ (Blank body ∧ ms = [] ∨ Separated IsMember body ms)

def under (key : String) (ms : List (List Char × List Char)) : List (List Char) :=
  (ms.filter fun m => m.1 = key.toList).map Prod.snd

/-- What the texts given for something say of it: what the only one says, or, if there is none, what
is so by default. -/
def Tells {α : Type} (P : List Char → α → Prop) (default : Option α) (texts : List (List Char))
    (a : α) : Prop :=
  (∃ s, texts = [s] ∧ P s a) ∨ texts = [] ∧ default = some a

end Roster.Json
