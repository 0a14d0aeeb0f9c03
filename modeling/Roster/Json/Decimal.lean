/-!
Decimal text of binary floating-point numbers: the fewest digits that read back as the same
number, nearest to it among those, the even one of two that are equally near. It is written
positionally while the leading digit stands between the fifth place after the point and the
sixteenth before it, and with an exponent otherwise.
-/

namespace Roster.Json

/-- A decimal number: `digits · 10 ^ scale`, with a sign of its own. -/
structure Decimal where
  negative : Bool
  digits : Nat
  scale : Int
deriving DecidableEq, Repr

namespace Decimal

/-- The leading bit of a mantissa, which is not among the bits of a number: `2 ^ 52`. -/
def leadingBit : Nat := 0x10000000000000

def mantissa (bits : UInt64) : Nat × Int :=
  let fraction : Nat := bits.toNat % leadingBit
  let exponent : Nat := bits.toNat / leadingBit % 0x800
  if exponent = 0 then (fraction, -1074) else (leadingBit + fraction, (exponent : Int) - 1075)

def gap (a b : Nat) : Nat :=
  max a b - min a b

/-- The numbers around a binary one that read back as it: `value / unit` itself with the room below
and above it, all over the same denominator. The ends of the interval belong to it when the
mantissa is even. -/
structure Interval where
  value : Nat
  unit : Nat
  below : Nat
  above : Nat
  closed : Bool

/-- Whether `candidate / unit` lies in the interval, everything scaled by `factor`. -/
def Interval.holds (i : Interval) (factor candidate : Nat) : Bool :=
  let value := i.value * factor
  let room := (if candidate < value then i.below else i.above) * factor
  if i.closed then gap candidate value ≤ room else gap candidate value < room

/-- Whether the first of two neighbouring multiples, at the given distances from a value, is the one
to take for it: the nearer one, and the even one if they are equally near. -/
def takesLower (low below above : Nat) : Bool :=
  below < above || (below == above && low % 2 == 0)

/-- The nearest of the two decimals around an interval's value whose last place is `10 ^ place`, if
one of them lies in the interval. -/
def Interval.onGrid (i : Interval) (place : Int) : Option Nat :=
  let factor := Nat.pow 10 (-place).toNat
  let step := i.unit * Nat.pow 10 place.toNat
  let value := i.value * factor
  let low := value / step
  let lower := takesLower low (gap (low * step) value) (gap ((low + 1) * step) value)
  let near := if lower then low else low + 1
  let far := if near = low then low + 1 else low
  if i.holds factor (near * step) then some near
  else if i.holds factor (far * step) then some far
  else none

def Interval.search (i : Interval) : (fuel : Nat) → (place : Int) → Nat × Int
  | 0, place => (0, place)
  | fuel + 1, place =>
    match i.onGrid place with
    | some (k + 1) => (k + 1, place)
    | _ => i.search fuel (place - 1)

/-- Digits without the zeros at their end, which go into the scale. -/
def strip : (fuel : Nat) → Nat → Int → Nat × Int
  | 0, digits, scale => (digits, scale)
  | fuel + 1, digits, scale =>
    if digits ≠ 0 ∧ digits % 10 = 0 then strip fuel (digits / 10) (scale + 1) else (digits, scale)

/-- The interval of the finite number `m * 2 ^ q`, in quarters of its last binary place. Below a
power of two the numbers lie twice as close. -/
def Interval.ofMantissa (m : Nat) (q : Int) (power : Bool) : Interval :=
  let ulp := 1 <<< q.toNat
  ⟨4 * m * ulp, 4 <<< (-q).toNat, if power then ulp else 2 * ulp, 2 * ulp, m % 2 = 0⟩

def ofBits (bits : UInt64) : Decimal :=
  let negative := decide (0x8000000000000000 ≤ bits.toNat)
  let (m, q) := mantissa bits
  if m = 0 then ⟨negative, 0, 0⟩
  else
    let i := Interval.ofMantissa m q (m = leadingBit ∧ -1074 < q)
    let top : Int := (Nat.toDigits 10 (i.value / i.unit)).length
    let (digits, scale) := i.search 400 top
    let (digits, scale) := strip 400 digits scale
    ⟨negative, digits, scale⟩

def text (d : Decimal) : String :=
  let sign := if d.negative then "-" else ""
  let digits := Nat.toDigits 10 d.digits
  let count : Int := digits.length
  -- the place of the leading digit, the units being place 0
  let lead := d.scale + count - 1
  let body : List Char :=
    if d.digits = 0 then "0.0".toList
    else if -5 ≤ lead ∧ lead < 16 then
      if 0 ≤ d.scale then digits ++ List.replicate d.scale.toNat '0' ++ ['.', '0']
      else if 0 ≤ lead then
        digits.take (lead + 1).toNat ++ ['.'] ++ digits.drop (lead + 1).toNat
      else ['0', '.'] ++ List.replicate (-1 - lead).toNat '0' ++ digits
    else
      let point := if digits.length = 1 then [] else '.' :: digits.drop 1
      let exponent := (if lead < 0 then ['-'] else ['+']) ++ Nat.toDigits 10 lead.natAbs
      digits.take 1 ++ point ++ ['e'] ++ exponent
  sign ++ String.ofList body

end Decimal

end Roster.Json
