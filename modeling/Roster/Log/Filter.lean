import Roster.Log.Directive

/-!
Which log records are written. A filter is a list of directives between commas.

A record is written if the level of the directive that decides about it allows it: the directive
with the longest target that the record's target begins with, of those the one with the most
fields. A record is also written in a span that a directive is about, up to the level of that
directive, or of the most talkative one if there are several.
-/

namespace Roster.Log

/-- Which records are written: directives in the order in which they were given. -/
abbrev Filter : Type :=
  List Directive

def parts (cs : List Char) : List (List Char) :=
  (cs.splitOn ',').filter (· ≠ [])

namespace Filter

def errorsOnly : Filter :=
  [⟨none, none, [], Level.error.rank⟩]

def ofString? (s : String) : Option Filter :=
  match (parts s.toList).mapM Directive.ofChars? with
  | none => none
  | some [] => some errorsOnly
  | some directives => some directives

def fallback : Filter :=
  [⟨none, none, [], Level.info.rank⟩, ⟨some "team_saver", none, [], Level.debug.rank⟩]

/-- The filter of an environment variable and a setting, of which the first that can be read
counts. -/
def choose (outer : Option String) (setting : String) : Filter :=
  ((outer.bind ofString?) <|> ofString? setting).getD fallback

/-! ## By target and fields -/

/-- How special a directive is: by the length of its target, by the number of its fields, and to
tell the rest apart by their names. -/
def specialty (d : Directive) : Nat × Nat × List String :=
  ((d.target.map fun t => t.length + 1).getD 0, d.fields.length, d.fields.map FieldTest.name)

def givesWay (d e : Directive) : Bool :=
  let (a, b, c) := specialty d
  let (a', b', c') := specialty e
  a < a' || (a == a' && (b < b' || (b == b' && c < c')))

/-- The most special of some directives, and of equally special ones the last. -/
def mostSpecial? (ds : List Directive) : Option Directive :=
  ds.foldl
    (fun best d =>
      match best with
      | some b => if givesWay d b then some b else some d
      | none => some d)
    none

def allows (rank : Nat) (ds : List Directive) : Bool :=
  (mostSpecial? ds).any fun d => rank ≤ d.rank

def statics (filter : Filter) : List Directive :=
  filter.filter (fun d => !d.isDynamic) ++ filter.filter fun d => d.isDynamic && d.isStatic

/-- Whether a record is written wherever it is made. The message is one of its fields. -/
def allowsRecord (filter : Filter) (r : Record) : Bool :=
  allows r.level.rank
    (filter.statics.filter fun d =>
      d.isAbout r.target && d.asksOnly ("message" :: r.fields.map (·.1)))

/-! ## By span -/

def sameSubject (d e : Directive) : Bool :=
  d.target = e.target && d.span = e.span && d.fields = e.fields

/-- The directives about spans; of several about the same only the last one counts. -/
def dynamics : Filter → List Directive
  | [] => []
  | d :: ds => if d.isDynamic && !ds.any (sameSubject d) then d :: dynamics ds else dynamics ds

/-- The directives about spans that have a span as their subject, whatever its values. -/
def dynamicsFor (filter : Filter) (s : Span) : List Directive :=
  filter.dynamics.filter fun d =>
    d.isAbout s.target && d.span.all (· = s.name) && d.asksOnly (s.fields.map (·.1))

def fits (d : Directive) (s : Span) : Bool :=
  d.fields.all fun f =>
    f.condition.all fun c => (s.fields.lookup f.name).any c.holds

def spanRank (filter : Filter) (s : Span) : Nat :=
  ((filter.dynamicsFor s).filter fun d => fits d s).foldl (fun rank d => max rank d.rank) 0

/-- The highest rank that a filter is ever asked about. What values a span has is not known
beforehand, so where a directive asks for values it is asked about everything. -/
def reach (filter : Filter) : Nat :=
  if filter.any fun d => d.fields.any fun f => f.condition.isSome then Level.trace.rank
  else filter.foldl (fun rank d => max rank d.rank) 0

/-- Whether a span is noted: it is the subject of a directive, or its own level is allowed, fields
not being looked at. -/
def notes (filter : Filter) (s : Span) : Bool :=
  Span.level.rank ≤ filter.reach &&
    (!(filter.dynamicsFor s).isEmpty ||
      allows Span.level.rank (filter.statics.filter fun d => d.isAbout s.target))

/-- The record as it is written, if it is: its span is named only if it is noted. -/
def written? (filter : Filter) (r : Record) : Option Record :=
  let span := r.span.filter filter.notes
  if filter.allowsRecord r || span.any fun s => r.level.rank ≤ filter.spanRank s then
    some { r with span }
  else none

end Filter

end Roster.Log
