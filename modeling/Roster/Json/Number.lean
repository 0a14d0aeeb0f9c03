import Roster.Json.Fault

/-!
Numbers in JSON: their written form, and the value they stand for. A number without fraction and
exponent is a natural number or a negative one as long as it fits 64 bits; every other number is
taken as a binary floating-point number, the sign of `-0` included.
-/

namespace Roster.Json

open Text (Symbol)

def digitsFrom (found : List Nat) : List Symbol → List Nat × List Symbol
  | .char c :: rest =>
    if c.isDigit then digitsFrom ((c.toNat - 48) :: found) rest
    else (found.reverse, .char c :: rest)
  | rest => (found.reverse, rest)

def digits (s : List Symbol) : List Nat × List Symbol :=
  digitsFrom [] s

theorem length_digitsFrom (found : List Nat) (s : List Symbol) :
    (digitsFrom found s).1.length + (digitsFrom found s).2.length = found.length + s.length := by
  fun_induction digitsFrom found s with
  | case1 found c rest _ ih => rw [ih]; simp only [List.length_cons]; omega
  | case2 => simp
  | case3 => simp

theorem length_digits (s : List Symbol) :
    (digits s).1.length + (digits s).2.length = s.length := by
  simpa [digits] using length_digitsFrom [] s

structure Numeral where
  negative : Bool
  whole : List Nat
  fraction : List Nat
  /-- Whether the exponent is negative, and its digits. -/
  exponent : Option (Bool × List Nat)
  /-- Whether there is a fraction. -/
  pointed : Bool
deriving DecidableEq, Repr

/-- Reads an exponent after its letter. `cut` is the cause reported when the text ends in it. -/
def exponentFrom (cut : Cause) (s : List Symbol) :
    Except Stop ((Bool × List Nat) × List Symbol) :=
  let (negative, s) : Bool × List Symbol :=
    match s with
    | .char '+' :: rest => (false, rest)
    | .char '-' :: rest => (true, rest)
    | _ => (false, s)
  match digits s, s with
  | ([], _), [] => .error (Stop.atEnd cut)
  | ([], _), _ :: _ => .error (Stop.past .invalidNumber s)
  | (ds, rest), _ => .ok ((negative, ds), rest)

def tailFrom (cut : Cause) (negative : Bool) (whole fraction : List Nat) (pointed : Bool)
    (s : List Symbol) : Except Stop (Numeral × List Symbol) :=
  match s with
  | .char 'e' :: rest | .char 'E' :: rest =>
    match exponentFrom cut rest with
    | .error stop => .error stop
    | .ok (exponent, rest) => .ok (⟨negative, whole, fraction, some exponent, pointed⟩, rest)
  | _ => .ok (⟨negative, whole, fraction, none, pointed⟩, s)

def fractionFrom (cut : Cause) (negative : Bool) (whole : List Nat) (s : List Symbol) :
    Except Stop (Numeral × List Symbol) :=
  match s with
  | .char '.' :: rest =>
    match digits rest, rest with
    | ([], _), [] => .error (Stop.atEnd cut)
    | ([], _), _ :: _ => .error (Stop.past .invalidNumber rest)
    | (fraction, rest), _ => tailFrom cut negative whole fraction true rest
  | _ => tailFrom cut negative whole [] false s

/-- Reads a number after its sign. A zero in front of another digit is refused. -/
def unsignedFrom (cut : Cause) (negative : Bool) (s : List Symbol) :
    Except Stop (Numeral × List Symbol) :=
  match digits s, s with
  | ([], _), [] => .error (Stop.atEnd cut)
  | ([], _), _ :: _ => .error (Stop.past .invalidNumber s)
  | (0 :: _ :: _, _), s => .error (Stop.past .invalidNumber (s.drop 1))
  | (whole, rest), _ => fractionFrom cut negative whole rest

def Numeral.read (cut : Cause) (s : List Symbol) : Except Stop (Numeral × List Symbol) :=
  match s with
  | .char '-' :: rest => unsignedFrom cut true rest
  | _ => unsignedFrom cut false s

theorem length_exponentFrom {cut : Cause} {s rest : List Symbol} {e : Bool × List Nat}
    (h : exponentFrom cut s = .ok (e, rest)) : rest.length ≤ s.length := by
  unfold exponentFrom at h
  grind [length_digits]

theorem length_tailFrom {cut : Cause} {negative pointed : Bool} {whole fraction : List Nat}
    {s rest : List Symbol} {numeral : Numeral}
    (h : tailFrom cut negative whole fraction pointed s = .ok (numeral, rest)) :
    rest.length ≤ s.length := by
  unfold tailFrom at h
  grind [→ length_exponentFrom]

theorem length_fractionFrom {cut : Cause} {negative : Bool} {whole : List Nat}
    {s rest : List Symbol} {numeral : Numeral}
    (h : fractionFrom cut negative whole s = .ok (numeral, rest)) : rest.length ≤ s.length := by
  unfold fractionFrom at h
  grind [→ length_tailFrom, length_digits]

theorem length_unsignedFrom {cut : Cause} {negative : Bool} {s rest : List Symbol}
    {numeral : Numeral} (h : unsignedFrom cut negative s = .ok (numeral, rest)) :
    rest.length < s.length := by
  unfold unsignedFrom at h
  have hd := length_digits s
  rcases hds : digits s with ⟨_ | ⟨d, ds⟩, tail⟩
  · cases s <;> simp [hds] at h
  · have hr : rest.length ≤ tail.length := by
      rw [hds] at h
      split at h <;> grind [→ length_fractionFrom]
    simp only [hds, List.length_cons] at hd
    omega

theorem Numeral.length_read {cut : Cause} {s rest : List Symbol} {numeral : Numeral}
    (h : Numeral.read cut s = .ok (numeral, rest)) : rest.length < s.length := by
  unfold Numeral.read at h
  grind [→ length_unsignedFrom]

inductive Number where
  | natural (n : Nat)
  | negative (n : Nat)
  | decimal (d : Decimal)
deriving DecidableEq, Repr

def Number.found : Number → Found
  | .natural n => .natural n
  | .negative n => .negative n
  | .decimal d => .decimal d

/-- Takes digits into a significand as long as it stays below `2 ^ 64`; the rest is left over. -/
def gather : Nat → List Nat → Nat × List Nat
  | n, [] => (n, [])
  | n, d :: ds => if n * 10 + d < 0x10000000000000000 then gather (n * 10 + d) ds else (n, d :: ds)

/-- The size of an exponent's digits while it stays below `2 ^ 31`, and the digits beyond the one
that took it over that bound. -/
def exponentSize : Nat → List Nat → Except (List Nat) Nat
  | n, [] => .ok n
  | n, d :: ds => if n * 10 + d < 0x80000000 then exponentSize (n * 10 + d) ds else .error ds

/-- The number of a significand and a power of ten: one multiplication or division by an exact or
nearest power, large negative powers in two steps. -/
def scale (significand : Nat) (power : Int) : Option Float :=
  let f := (UInt64.ofNat significand).toFloat
  if power.natAbs ≤ 308 then
    let ten := Float.ofScientific 1 false power.natAbs
    if 0 ≤ power then
      let g := f * ten
      if g.isInf then none else some g
    else some (f / ten)
  else if significand = 0 then some f
  else if 0 ≤ power then none
  else
    let f := f / Float.ofScientific 1 false 308
    let power := power + 308
    if power.natAbs ≤ 308 then some (f / Float.ofScientific 1 false power.natAbs)
    else some 0.0

/-- The value of a written number, or how many digits of its exponent follow the place where it was
seen to be too large. -/
def Numeral.value (numeral : Numeral) : Except Nat Number :=
  let (significand, beyond) := gather 0 numeral.whole
  let signed := fun (f : Float) => if numeral.negative then -f else f
  let decimal := fun (f : Float) => Number.decimal (Decimal.ofBits (signed f).toBits)
  if beyond = [] ∧ numeral.pointed = false ∧ numeral.exponent = none then
    if numeral.negative = false then .ok (.natural significand)
    else if 1 ≤ significand ∧ significand ≤ 0x8000000000000000 then .ok (.negative significand)
    else .ok (decimal (UInt64.ofNat significand).toFloat)
  else
    let (significand, unread) := gather significand numeral.fraction
    let places : Int := (beyond.length : Int) - (numeral.fraction.length - unread.length : Nat)
    match numeral.exponent with
    | none =>
      match scale significand places with
      | some f => .ok (decimal f)
      | none => .error 0
    | some (down, ds) =>
      match exponentSize 0 ds with
      | .error later =>
        if significand ≠ 0 ∧ down = false then .error later.length else .ok (decimal 0.0)
      | .ok n =>
        match scale significand (if down then places - n else places + n) with
        | some f => .ok (decimal f)
        | none => .error 0

def Number.read (s : List Symbol) : Except Stop (Number × List Symbol) :=
  match Numeral.read .endInValue s with
  | .error stop => .error stop
  | .ok (numeral, rest) =>
    match numeral.value with
    | .ok n => .ok (n, rest)
    | .error later => .error ⟨.numberOutOfRange, Text.width rest + later⟩

theorem Number.length_read {s rest : List Symbol} {n : Number}
    (h : Number.read s = .ok (n, rest)) : rest.length < s.length := by
  unfold Number.read at h
  grind [→ Numeral.length_read]

end Roster.Json
