/-!
Lines of a text of bytes. A line feed ends a line, and a carriage return directly before it belongs
to the ending. What follows the last line feed is an unfinished line, if it is anything at all.
-/

namespace Roster.Text

def lineFeed : UInt8 := 0x0A

def carriageReturn : UInt8 := 0x0D

def lineStep (b : UInt8) (split : List (List UInt8) × List UInt8) :
    List (List UInt8) × List UInt8 :=
  if b = lineFeed then ([] :: split.1, split.2)
  else
    match split.1 with
    | [] => ([], b :: split.2)
    | line :: lines => ((b :: line) :: lines, split.2)

def splitLines (bytes : List UInt8) : List (List UInt8) × List UInt8 :=
  bytes.foldr lineStep ([], [])

theorem splitLines_nil : splitLines [] = ([], []) := rfl

theorem splitLines_cons (b : UInt8) (bytes : List UInt8) :
    splitLines (b :: bytes) = lineStep b (splitLines bytes) := rfl

/-- Nothing is lost but the line feeds. -/
theorem flatMap_splitLines (bytes : List UInt8) :
    (splitLines bytes).1.flatMap (· ++ [lineFeed]) ++ (splitLines bytes).2 = bytes := by
  induction bytes with
  | nil => rfl
  | cons b bytes ih =>
    rw [splitLines_cons, lineStep]
    split
    · rename_i hb
      simp [hb, ih]
    · revert ih
      cases splitLines bytes with
      | mk lines rest =>
        cases lines with
        | nil => intro ih; simpa using ih
        | cons line lines => intro ih; simpa using ih

/-- No line has a line feed in it. -/
theorem lineFeed_notMem_splitLines (bytes : List UInt8) :
    (∀ line ∈ (splitLines bytes).1, lineFeed ∉ line) ∧ lineFeed ∉ (splitLines bytes).2 := by
  induction bytes with
  | nil => simp [splitLines_nil]
  | cons b bytes ih =>
    rw [splitLines_cons, lineStep]
    split
    · simpa using ih
    · rename_i hb
      have hb : lineFeed ≠ b := Ne.symm hb
      revert ih
      cases splitLines bytes with
      | mk lines rest =>
        cases lines with
        | nil => intro ih; simpa [hb] using ih
        | cons line lines =>
          intro ih
          simp only [List.mem_cons, forall_eq_or_imp, not_or] at ih ⊢
          exact ⟨⟨⟨hb, ih.1.1⟩, ih.1.2⟩, ih.2⟩

def chomp (line : List UInt8) : List UInt8 :=
  if line.getLast? = some carriageReturn then line.dropLast else line

def finishedLines (bytes : List UInt8) : List (List UInt8) :=
  (splitLines bytes).1.map chomp

/-- The unfinished line, if there is one. -/
def unfinishedLine (bytes : List UInt8) : List (List UInt8) :=
  if (splitLines bytes).2 = [] then [] else [(splitLines bytes).2]

def lines (bytes : List UInt8) : List (List UInt8) :=
  finishedLines bytes ++ unfinishedLine bytes

end Roster.Text
