/-!
Regular expressions, and the texts that match them as a whole.

Reading a text from left to right, an expression is turned into what has to be matched by the rest.
There may be several such remainders; they are kept in the order in which the expression prefers
them. Where a remainder is done, those behind it are given up: an expression that has found its
match does not look for another one, so `a|ab` does not match `ab`.
-/

namespace Roster.Regular

inductive CharSet where
  | range (lo hi : Nat)
  | either (s t : CharSet)
  | both (s t : CharSet)
  | without (s t : CharSet)
  /-- In one of the two sets and not in the other. -/
  | unlike (s t : CharSet)
  | other (s : CharSet)
  /-- With every Latin letter its partner in the other case. -/
  | caseless (s : CharSet)
deriving DecidableEq, Repr

namespace CharSet

def none : CharSet := .range 1 0

def only (n : Nat) : CharSet := .range n n

/-- The partner of a Latin letter in the other case; any other code point is its own. -/
def partner (n : Nat) : Nat :=
  if 0x41 ≤ n ∧ n ≤ 0x5A then n + 0x20 else if 0x61 ≤ n ∧ n ≤ 0x7A then n - 0x20 else n

def contains : CharSet → Nat → Bool
  | .range lo hi, n => lo ≤ n && n ≤ hi
  | .either s t, n => s.contains n || t.contains n
  | .both s t, n => s.contains n && t.contains n
  | .without s t, n => s.contains n && !t.contains n
  | .unlike s t, n => s.contains n != t.contains n
  | .other s, n => !s.contains n
  | .caseless s, n => s.contains n || s.contains (partner n)

def ofRanges (ranges : List (Nat × Nat)) : CharSet :=
  ranges.foldr (fun r s => .either (.range r.1 r.2) s) none

def word : CharSet :=
  ofRanges [(0x30, 0x39), (0x41, 0x5A), (0x5F, 0x5F), (0x61, 0x7A)]

end CharSet

inductive Edge where
  | textStart
  | textEnd
  | lineStart
  | lineEnd
  /-- Line edges where a carriage return ends lines, too. -/
  | anyLineStart
  | anyLineEnd
  | wordEdge
  | noWordEdge
  | wordStart
  | wordEnd
deriving DecidableEq, Repr

def inWord (c : Option Char) : Bool :=
  c.any fun c => CharSet.word.contains c.toNat

/-- Whether a condition holds between two characters, which are missing at the ends of a text. -/
def Edge.holds (before after : Option Char) : Edge → Bool
  | .textStart => before.isNone
  | .textEnd => after.isNone
  | .lineStart => before.isNone || before = some '\n'
  | .lineEnd => after.isNone || after = some '\n'
  | .anyLineStart =>
    before.isNone || before = some '\n' || (before = some '\r' && after != some '\n')
  | .anyLineEnd =>
    after.isNone || after = some '\r' || (after = some '\n' && before != some '\r')
  | .wordEdge => inWord before != inWord after
  | .noWordEdge => inWord before == inWord after
  | .wordStart => !inWord before && inWord after
  | .wordEnd => inWord before && !inWord after

inductive Expr where
  | empty
  | one (s : CharSet)
  | edge (e : Edge)
  | seq (p q : Expr)
  /-- The first if it leads to a match, otherwise the second. -/
  | alt (p q : Expr)
  /-- Any number of times, more rather than fewer if `greedy`. -/
  | star (greedy : Bool) (p : Expr)
deriving DecidableEq, Repr

inductive Way where
  | done
  /-- A character of the set, and then the rest. -/
  | step (s : CharSet) (rest : Expr)
deriving DecidableEq, Repr

def Way.isDone : Way → Bool
  | .done => true
  | .step .. => false

def Way.before (ways : List Way) (q : Expr) : Way → List Way
  | .done => ways
  | .step s rest => [.step s (.seq rest q)]

namespace Expr

/-- The ways of an expression between two characters, in the order of preference. A repetition that
would take nothing ends instead. -/
def ways (before after : Option Char) : Expr → List Way
  | .empty => [.done]
  | .one s => [.step s .empty]
  | .edge e => if e.holds before after then [.done] else []
  | .seq p q => (p.ways before after).flatMap (Way.before (q.ways before after) q)
  | .alt p q => p.ways before after ++ q.ways before after
  | .star greedy p =>
    let again := (p.ways before after).flatMap (Way.before [.done] (.star greedy p))
    if greedy then again ++ [.done] else .done :: again

def plus (greedy : Bool) (p : Expr) : Expr :=
  .seq p (.star greedy p)

def optional (greedy : Bool) (p : Expr) : Expr :=
  if greedy then .alt p .empty else .alt .empty p

def afterChar (c : Char) : Way → Option Expr
  | .done => none
  | .step s rest => if s.contains c.toNat then some rest else none

/-- Whether one of several remainders, the preferred one first, matches a text that comes after the
given character. -/
def matchesFrom (before : Option Char) (remainders : List Expr) : List Char → Bool
  | [] => (remainders.flatMap (ways before none)).any Way.isDone
  | c :: cs =>
    let going := (remainders.flatMap (ways before (some c))).takeWhile fun w => !w.isDone
    match (going.filterMap (afterChar c)).eraseDups with
    | [] => false
    | remainders => matchesFrom (some c) remainders cs

def matchesText (p : Expr) (text : List Char) : Bool :=
  matchesFrom none [p] text

end Expr

end Roster.Regular
