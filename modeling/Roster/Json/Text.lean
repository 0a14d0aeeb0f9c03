import Roster.Json.Fault
import Roster.Text.Integer

/-!
Texts in JSON: how a text is written between quotes, and how one is read.

Reading keeps going over stray bytes and reports the first of them when the closing quote is
reached, so a text that breaks off or holds a bad escape is reported as that. The place reported is
counted backwards from the closing quote, an escape after the stray byte counting as the character
it stands for. A text whose value is not wanted may hold stray bytes and unpaired surrogates.
-/

namespace Roster.Json

open Text (Symbol)

def escapeChar (c : Char) : List Char :=
  if c = '"' then ['\\', '"']
  else if c = '\\' then ['\\', '\\']
  else if c = '\x08' then ['\\', 'b']
  else if c = '\x0c' then ['\\', 'f']
  else if c = '\n' then ['\\', 'n']
  else if c = '\r' then ['\\', 'r']
  else if c = '\t' then ['\\', 't']
  else if c.toNat < 0x20 then
    ['\\', 'u', '0', '0', Nat.digitChar (c.toNat / 16), Nat.digitChar (c.toNat % 16)]
  else [c]

def quote (cs : List Char) : List Char :=
  '"' :: cs.flatMap escapeChar ++ ['"']

def quoted (s : String) : String :=
  String.ofList (quote s.toList)

def hexValue? (a b c d : Char) : Option Nat := do
  let high := (← Text.hexDigit? a) * 16 + (← Text.hexDigit? b)
  let low := (← Text.hexDigit? c) * 16 + (← Text.hexDigit? d)
  pure (high * 256 + low)

/-- Where four bytes that are no digits are refused: behind them, or at the end of the text if it
has fewer. -/
def refusedUnit (s : List Symbol) : Stop :=
  if Text.width s < 4 then Stop.atEnd .endInString else ⟨.invalidEscape, Text.width s - 4⟩

def hexUnit (s : List Symbol) : Except Stop (Nat × List Symbol) :=
  match s with
  | .char a :: .char b :: .char c :: .char d :: rest =>
    match hexValue? a b c d with
    | some n => .ok (n, rest)
    | none => .error (refusedUnit s)
  | _ => .error (refusedUnit s)

def shortEscape? (c : Char) : Option Char :=
  if c = '"' then some '"'
  else if c = '\\' then some '\\'
  else if c = '/' then some '/'
  else if c = 'b' then some '\x08'
  else if c = 'f' then some '\x0c'
  else if c = 'n' then some '\n'
  else if c = 'r' then some '\r'
  else if c = 't' then some '\t'
  else none

def isLeading (n : Nat) : Bool :=
  0xD800 ≤ n && n ≤ 0xDBFF

def isTrailing (n : Nat) : Bool :=
  0xDC00 ≤ n && n ≤ 0xDFFF

def trailingUnit (lead : Nat) (s : List Symbol) : Except Stop (Char × List Symbol) :=
  match s with
  | [] => .error (Stop.atEnd .endInString)
  | .char '\\' :: [] => .error (Stop.atEnd .endInString)
  | .char '\\' :: .char 'u' :: rest =>
    match hexUnit rest with
    | .error stop => .error stop
    | .ok (n, rest) =>
      if isTrailing n then
        .ok (Char.ofNat (0x10000 + (lead - 0xD800) * 0x400 + (n - 0xDC00)), rest)
      else .error (Stop.before .loneSurrogate rest)
  | .char '\\' :: rest => .error (Stop.past .unfinishedPair rest)
  | _ :: _ => .error (Stop.past .unfinishedPair s)

def escapeFrom (s : List Symbol) : Except Stop (Char × List Symbol) :=
  match s with
  | [] => .error (Stop.atEnd .endInString)
  | .char 'u' :: rest =>
    match hexUnit rest with
    | .error stop => .error stop
    | .ok (n, rest) =>
      if isTrailing n then .error (Stop.before .loneSurrogate rest)
      else if isLeading n then trailingUnit n rest
      else .ok (Char.ofNat n, rest)
  | .char c :: rest =>
    match shortEscape? c with
    | some c => .ok (c, rest)
    | none => .error (Stop.past .invalidEscape s)
  | .stray _ :: _ => .error (Stop.past .invalidEscape s)

theorem length_hexUnit {s rest : List Symbol} {n : Nat} (h : hexUnit s = .ok (n, rest)) :
    rest.length < s.length := by
  unfold hexUnit at h
  split at h
  · split at h
    · simp only [Except.ok.injEq, Prod.mk.injEq] at h
      simp only [← h.2, List.length_cons]
      omega
    · cases h
  · cases h

theorem length_trailingUnit {lead : Nat} {s rest : List Symbol} {c : Char}
    (h : trailingUnit lead s = .ok (c, rest)) : rest.length < s.length := by
  unfold trailingUnit at h
  split at h
  · cases h
  · cases h
  · split at h
    · cases h
    · rename_i hn
      split at h
      · simp only [Except.ok.injEq, Prod.mk.injEq] at h
        have := length_hexUnit hn
        simp only [← h.2, List.length_cons]
        omega
      · cases h
  · cases h
  · cases h

theorem length_escapeFrom {s rest : List Symbol} {c : Char}
    (h : escapeFrom s = .ok (c, rest)) : rest.length < s.length := by
  unfold escapeFrom at h
  split at h
  · cases h
  · split at h
    · cases h
    · rename_i hn
      have := length_hexUnit hn
      split at h
      · cases h
      · split at h
        · have := length_trailingUnit h
          simp only [List.length_cons]
          omega
        · simp only [Except.ok.injEq, Prod.mk.injEq] at h
          simp only [← h.2, List.length_cons]
          omega
  · split at h
    · simp only [Except.ok.injEq, Prod.mk.injEq] at h
      simp only [← h.2, List.length_cons]
      omega
    · cases h
  · cases h

/-- Reads the rest of a text after the characters already found (in reverse); `spoiled` is the
number of bytes that the text has from its first stray byte on, escapes being replaced. -/
def textFrom (found : List Char) (spoiled : Option Nat) (s : List Symbol) :
    Except Stop (List Char × List Symbol) :=
  match s with
  | [] => .error (Stop.atEnd .endInString)
  | .stray _ :: rest => textFrom found (some (spoiled.getD 0 + 1)) rest
  | .char c :: rest =>
    if c = '"' then
      match spoiled with
      | some count => .error ⟨.invalidCharacter, Text.width rest + count⟩
      | none => .ok (found.reverse, rest)
    else if c = '\\' then
      match _h : escapeFrom rest with
      | .error stop => .error stop
      | .ok (c, rest') => textFrom (c :: found) (spoiled.map (· + c.utf8Size)) rest'
    else if c.toNat < 0x20 then .error (Stop.past .controlCharacter (.char c :: rest))
    else textFrom (c :: found) (spoiled.map (· + c.utf8Size)) rest
termination_by s.length
decreasing_by
  all_goals simp only [List.length_cons]
  · omega
  · have := length_escapeFrom _h
    omega
  · omega

def readText (s : List Symbol) : Except Stop (List Char × List Symbol) :=
  textFrom [] none s

theorem length_textFrom {found cs : List Char} {spoiled : Option Nat} {s rest : List Symbol}
    (h : textFrom found spoiled s = .ok (cs, rest)) : rest.length < s.length := by
  fun_induction textFrom found spoiled s <;> grind [→ length_escapeFrom]

theorem length_readText {s rest : List Symbol} {cs : List Char}
    (h : readText s = .ok (cs, rest)) : rest.length < s.length :=
  length_textFrom h

/-- Passes over the rest of a text whose value is not wanted. -/
def skipText (s : List Symbol) : Except Stop (List Symbol) :=
  match s with
  | [] => .error (Stop.atEnd .endInString)
  | .stray _ :: rest => skipText rest
  | .char c :: rest =>
    if c = '"' then .ok rest
    else if c = '\\' then
      match rest with
      | [] => .error (Stop.atEnd .endInString)
      | .char 'u' :: rest =>
        match _h : hexUnit rest with
        | .error stop => .error stop
        | .ok (_, rest') => skipText rest'
      | .char e :: rest' =>
        if (shortEscape? e).isSome then skipText rest'
        else .error (Stop.past .invalidEscape (.char e :: rest'))
      | .stray b :: rest' => .error (Stop.past .invalidEscape (.stray b :: rest'))
    else if c.toNat < 0x20 then .error (Stop.before .controlCharacter (.char c :: rest))
    else skipText rest
termination_by s.length
decreasing_by
  all_goals simp only [List.length_cons]
  · omega
  · have := length_hexUnit _h
    omega
  · omega
  · omega

theorem length_skipText {s rest : List Symbol} (h : skipText s = .ok rest) :
    rest.length < s.length := by
  fun_induction skipText s <;> grind [→ length_hexUnit]

end Roster.Json
