import Roster.Regular.Basic
import Roster.Text.Alphanumeric
import Roster.Text.Blank
import Roster.Text.Integer

/-!
Reading a regular expression from its usual notation: literals, escapes, `.`, `^` and `$`, classes
between brackets, groups, alternatives, the repetitions `*`, `+` and `?`, and flags.

An expression is about characters unless the flag `u` is taken away, and then about bytes. No
properties of characters are known, so the classes of letters, digits and blanks, the edges of
words and the disregard of case can be had for bytes only. A byte that is no ASCII character is not
to be matched, and counted repetitions are refused.
-/

namespace Roster.Regular

structure Flags where
  /-- Case is disregarded. -/
  caseless : Bool := false
  /-- `^` and `$` stand for the edges of lines. -/
  lines : Bool := false
  /-- `.` stands for every character. -/
  dotAll : Bool := false
  /-- Repetitions prefer fewer times. -/
  swapped : Bool := false
  /-- The expression is about characters. -/
  characters : Bool := true
  /-- A carriage return ends lines, too. -/
  returns : Bool := false
  /-- Blanks and comments are left out. -/
  spaced : Bool := false
deriving DecidableEq, Repr

def Flags.set? (f : Flags) (value : Bool) : Char → Option Flags
  | 'i' => some { f with caseless := value }
  | 'm' => some { f with lines := value }
  | 's' => some { f with dotAll := value }
  | 'U' => some { f with swapped := value }
  | 'u' => some { f with characters := value }
  | 'R' => some { f with returns := value }
  | 'x' => some { f with spaced := value }
  | _ => none

namespace Reader

def skipSpaced : (inComment : Bool) → List Char → List Char
  | _, [] => []
  | true, c :: cs => skipSpaced (c ≠ '\n') cs
  | false, c :: cs =>
    if Text.isBlank c then skipSpaced false cs
    else if c = '#' then skipSpaced true cs
    else c :: cs

def skip (f : Flags) (cs : List Char) : List Char :=
  if f.spaced then skipSpaced false cs else cs

/-! ## Escapes -/

inductive Escaped where
  | char (c : Char)
  | set (s : CharSet)
  | edge (e : Edge)

def hexChar? (count : Nat) (cs : List Char) : Option (Char × List Char) := do
  let ds ← (cs.take count).mapM Text.hexDigit?
  let n := ds.foldl (fun n d => 16 * n + d) 0
  if ds.length = count ∧ n.isValidChar then some (Char.ofNat n, cs.drop count) else none

def escape? (f : Flags) : List Char → Option (Escaped × List Char)
  | [] => none
  | c :: cs =>
    let bytesOnly := fun (e : Escaped) => if f.characters then none else some (e, cs)
    if c = 'x' then do
      let (c, cs) ← hexChar? 2 cs
      if f.characters || c.toNat < 0x80 then some (.char c, cs) else none
    else if c = 'u' then (hexChar? 4 cs).map fun p => (.char p.1, p.2)
    else if c = 'U' then (hexChar? 8 cs).map fun p => (.char p.1, p.2)
    else if c = 'a' then some (.char '\x07', cs)
    else if c = 'f' then some (.char '\x0c', cs)
    else if c = 't' then some (.char '\t', cs)
    else if c = 'n' then some (.char '\n', cs)
    else if c = 'r' then some (.char '\r', cs)
    else if c = 'v' then some (.char '\x0b', cs)
    else if c = 'A' then some (.edge .textStart, cs)
    else if c = 'z' then some (.edge .textEnd, cs)
    else if c = 'd' then bytesOnly (.set (.range 0x30 0x39))
    else if c = 's' then bytesOnly (.set (.ofRanges [(0x09, 0x0D), (0x20, 0x20)]))
    else if c = 'w' then bytesOnly (.set .word)
    else if c = 'b' then bytesOnly (.edge .wordEdge)
    else if c = 'B' then bytesOnly (.edge .noWordEdge)
    else if c = '<' then bytesOnly (.edge .wordStart)
    else if c = '>' then bytesOnly (.edge .wordEnd)
    else if c.toNat < 0x80 && !c.isAlphanum then some (.char c, cs)
    else none

/-! ## Classes -/

def namedRanges? (name : String) : Option (List (Nat × Nat)) :=
  match name with
  | "alnum" => some [(0x30, 0x39), (0x41, 0x5A), (0x61, 0x7A)]
  | "alpha" => some [(0x41, 0x5A), (0x61, 0x7A)]
  | "ascii" => some [(0x00, 0x7F)]
  | "blank" => some [(0x09, 0x09), (0x20, 0x20)]
  | "cntrl" => some [(0x00, 0x1F), (0x7F, 0x7F)]
  | "digit" => some [(0x30, 0x39)]
  | "graph" => some [(0x21, 0x7E)]
  | "lower" => some [(0x61, 0x7A)]
  | "print" => some [(0x20, 0x7E)]
  | "punct" => some [(0x21, 0x2F), (0x3A, 0x40), (0x5B, 0x60), (0x7B, 0x7E)]
  | "space" => some [(0x09, 0x0D), (0x20, 0x20)]
  | "upper" => some [(0x41, 0x5A)]
  | "word" => some [(0x30, 0x39), (0x41, 0x5A), (0x5F, 0x5F), (0x61, 0x7A)]
  | "xdigit" => some [(0x30, 0x39), (0x41, 0x46), (0x61, 0x66)]
  | _ => none

def complement (negated : Bool) (s : CharSet) : CharSet :=
  if negated then .other s else s

def named? : List Char → Option (CharSet × List Char)
  | ':' :: cs =>
    let (negated, cs) := match cs with
      | '^' :: cs => (true, cs)
      | cs => (false, cs)
    let name := cs.takeWhile (· != ':')
    match cs.drop name.length with
    | ':' :: ']' :: rest =>
      (namedRanges? (String.ofList name)).map fun ranges =>
        (complement negated (.ofRanges ranges), rest)
    | _ => none
  | _ => none

def classItem? (f : Flags) : List Char → Option (Escaped × List Char)
  | [] => none
  | '\\' :: cs => escape? f cs
  | c :: cs => if f.characters || c.toNat < 0x80 then some (.char c, cs) else none

def isRange (f : Flags) : List Char → Bool
  | '-' :: cs =>
    match skip f cs with
    | ']' :: _ | '-' :: _ => false
    | _ => true
  | _ => false

def classRange? (f : Flags) (cs : List Char) : Option (CharSet × List Char) := do
  let (first, cs) ← classItem? f cs
  let cs := skip f cs
  if isRange f cs then
    let (last, cs) ← classItem? f (skip f (cs.drop 1))
    match first, last with
    | .char a, .char b =>
      if a ≤ b then some (.range a.toNat b.toNat, cs) else none
    | _, _ => none
  else
    match first with
    | .char c => some (.only c.toNat, cs)
    | .set s => some (s, cs)
    | .edge _ => none

abbrev Joint : Type :=
  CharSet → CharSet → CharSet

def joined (before : Option (Joint × CharSet)) (s : CharSet) : CharSet :=
  match before with
  | none => s
  | some (joint, t) => joint t s

/-- A class with its flags applied. Case cannot be disregarded among characters. -/
def closed? (f : Flags) (negated : Bool) (s : CharSet) : Option CharSet :=
  if f.caseless then if f.characters then none else some (complement negated (.caseless s))
  else some (complement negated s)

/-- Hyphens at the beginning of a class, which stand for themselves, and then perhaps a bracket,
which does so, too. -/
def classStart (f : Flags) : (fuel : Nat) → (s : Option CharSet) → List Char →
    CharSet × List Char
  | fuel + 1, s, '-' :: cs =>
    classStart f fuel (some (.either (s.getD .none) (.only 0x2D))) (skip f cs)
  | _, none, ']' :: cs => (.only 0x5D, skip f cs)
  | _, s, cs => (s.getD .none, cs)

/-- Reads a class behind its opening bracket: `s` is the part read so far, and `before` what comes
before that part. -/
def classFrom (f : Flags) (negated : Bool) : (fuel : Nat) → Option (Joint × CharSet) → CharSet →
    List Char → Option (CharSet × List Char)
  | 0, _, _, _ => none
  | fuel + 1, before, s, cs =>
    let join := fun (joint : Joint) (cs : List Char) =>
      classFrom f negated fuel (some (joint, joined before s)) .none cs
    match skip f cs with
    | [] => none
    | ']' :: cs => (closed? f negated (joined before s)).map fun s => (s, cs)
    | '&' :: '&' :: cs => join .both cs
    | '-' :: '-' :: cs => join .without cs
    | '~' :: '~' :: cs => join .unlike cs
    | '[' :: cs =>
      match named? cs with
      | some (t, cs) => classFrom f negated fuel before (.either s t) cs
      | none => do
        let (inner, cs) := match skip f cs with
          | '^' :: cs => (true, skip f cs)
          | cs => (false, cs)
        let (t, cs) := classStart f cs.length none cs
        let (t, cs) ← classFrom f inner fuel none t cs
        classFrom f negated fuel before (.either s t) cs
    | cs => do
      let (t, cs) ← classRange? f cs
      classFrom f negated fuel before (.either s t) cs

/-- Reads a class behind its opening bracket. Among bytes it may hold ASCII characters only. -/
def class? (f : Flags) (cs : List Char) : Option (CharSet × List Char) := do
  let (negated, cs) := match skip f cs with
    | '^' :: cs => (true, skip f cs)
    | cs => (false, cs)
  let (s, cs) := classStart f cs.length none cs
  let (s, cs) ← classFrom f negated (cs.length + 1) none s cs
  if f.characters || (List.range 0x80).all (fun n => !s.contains (n + 0x80)) then some (s, cs)
  else none

/-! ## Expressions -/

structure State where
  flags : Flags
  names : List (List Char)
  rest : List Char

def literal? (f : Flags) (c : Char) : Option Expr :=
  if f.caseless then
    if f.characters then none
    else some (.one (.either (.only c.toNat) (.only (CharSet.partner c.toNat))))
  else some (.one (.only c.toNat))

def dot? (f : Flags) : Option Expr :=
  if !f.characters then none
  else if f.dotAll then some (.one (.other .none))
  else if f.returns then some (.one (.other (.either (.only 0x0A) (.only 0x0D))))
  else some (.one (.other (.only 0x0A)))

def caret (f : Flags) : Edge :=
  if f.lines then if f.returns then .anyLineStart else .lineStart else .textStart

def dollar (f : Flags) : Edge :=
  if f.lines then if f.returns then .anyLineEnd else .lineEnd else .textEnd

def Escaped.expr? (f : Flags) : Escaped → Option Expr
  | .char c => literal? f c
  | .set s => some (.one s)
  | .edge e => some (.edge e)

/-- Reads flags up to the bracket or the colon behind them; `seen` are those that came before, and
`value` is what they are set to. -/
def flagsFrom (f : Flags) (seen : List Char) (value : Bool) : List Char →
    Option (Flags × List Char)
  | [] => none
  | c :: cs =>
    if c = ')' || c = ':' then
      if seen.head? = some '-' then none else some (f, c :: cs)
    else if c ∈ seen then none
    else if c = '-' then flagsFrom f (c :: seen) false cs
    else (f.set? value c).bind fun f => flagsFrom f (c :: seen) value cs

def name? (cs : List Char) : Option (List Char × List Char) :=
  let name := cs.takeWhile (· != '>')
  let fits := fun (c : Char) =>
    c = '_' || c = '.' || c = '[' || c = ']' || Text.isAlphanumeric c
  match name, cs.drop name.length with
  | c :: more, '>' :: rest =>
    if (c = '_' || (Text.isAlphanumeric c && !c.isDigit)) && more.all fits then some (name, rest)
    else none
  | _, _ => none

inductive Opening where
  /-- Flags for what comes behind it. -/
  | setting (flags : Flags) (rest : List Char)
  /-- A group, to be read with the flags given. -/
  | group (inner : State)

def opening? (st : State) (cs : List Char) : Option Opening :=
  let named := fun (cs : List Char) => do
    let (name, rest) ← name? cs
    if name ∈ st.names then none
    else some (.group { st with names := name :: st.names, rest })
  match skip st.flags cs with
  | '?' :: 'P' :: '<' :: cs => named cs
  | '?' :: '<' :: '=' :: _ | '?' :: '<' :: '!' :: _ => none
  | '?' :: '<' :: cs => named cs
  | '?' :: ')' :: _ => none
  | '?' :: cs => do
    let (flags, cs) ← flagsFrom st.flags [] true cs
    match cs with
    | ')' :: rest => some (.setting flags rest)
    | _ :: rest => some (.group { st with flags, rest })
    | [] => none
  | cs => some (.group { st with rest := cs })

def repeated? (f : Flags) (times : Bool → Expr → Expr) (parts : List (Option Expr))
    (cs : List Char) : Option (List (Option Expr) × List Char) :=
  match parts with
  | some p :: parts =>
    match cs with
    | '?' :: cs => some (some (times f.swapped p) :: parts, cs)
    | cs => some (some (times (!f.swapped) p) :: parts, cs)
  | _ => none

def sequence (parts : List (Option Expr)) : Expr :=
  parts.foldl
    (fun after part =>
      match part with
      | some p => if after = .empty then p else .seq p after
      | none => after)
    .empty

mutual

def alternatives : (fuel : Nat) → State → Option (Expr × State)
  | 0, _ => none
  | fuel + 1, st => do
    let (p, st) ← partsFrom fuel [] st
    match st.rest with
    | '|' :: rest =>
      let (q, st) ← alternatives fuel { st with rest }
      some (.alt p q, st)
    | _ => some (p, st)

/-- Reads the parts of a sequence behind those already read, the last one first. A part that only
sets flags matches nothing and cannot be repeated. -/
def partsFrom : (fuel : Nat) → (parts : List (Option Expr)) → State → Option (Expr × State)
  | 0, _, _ => none
  | fuel + 1, parts, st =>
    let f := st.flags
    let go := fun (p : Expr) (rest : List Char) => partsFrom fuel (some p :: parts) { st with rest }
    let again := fun (times : Bool → Expr → Expr) (rest : List Char) => do
      let (parts, rest) ← repeated? f times parts rest
      partsFrom fuel parts { st with rest }
    match skip f st.rest with
    | [] => some (sequence parts, { st with rest := [] })
    | '|' :: cs => some (sequence parts, { st with rest := '|' :: cs })
    | ')' :: cs => some (sequence parts, { st with rest := ')' :: cs })
    | '*' :: cs => again .star cs
    | '+' :: cs => again Expr.plus cs
    | '?' :: cs => again Expr.optional cs
    | '{' :: _ => none
    | '.' :: cs => do go (← dot? f) cs
    | '^' :: cs => go (.edge (caret f)) cs
    | '$' :: cs => go (.edge (dollar f)) cs
    | '\\' :: cs => do
      let (e, cs) ← escape? f cs
      go (← e.expr? f) cs
    | '[' :: cs => do
      let (s, cs) ← class? f cs
      go (.one s) cs
    | '(' :: cs => do
      match ← opening? st cs with
      | .setting flags rest => partsFrom fuel (none :: parts) { st with flags, rest }
      | .group inner =>
        let (p, done) ← alternatives fuel inner
        match done.rest with
        | ')' :: rest =>
          partsFrom fuel (some p :: parts) { st with names := done.names, rest }
        | _ => none
    | c :: cs => do go (← literal? f c) cs

end

end Reader

def Expr.ofChars? (cs : List Char) : Option Expr := do
  let (p, st) ← Reader.alternatives (3 * cs.length + 3) ⟨{}, [], cs⟩
  if st.rest = [] then some p else none

end Roster.Regular
