import Roster.Proofs.Text.Encoding

/-!
The lines of a text of characters. The bytes of a text have the bytes of its lines as their lines,
since a byte that ends a line, or belongs to its ending, is all of its character.
-/

namespace Roster.Text

/-- Lines with something put in front of the first of them, which becomes one if there is none. -/
def precede {α : Type} (xs : List α) : List (List α) → List (List α)
  | [] => [xs]
  | line :: lines => (xs ++ line) :: lines

/-- The lines of a text. A line feed ends a line, alone or behind a carriage return. -/
def rows : List Char → List (List Char)
  | [] => []
  | '\n' :: cs => [] :: rows cs
  | '\r' :: '\n' :: cs => [] :: rows cs
  | c :: cs => precede [c] (rows cs)

theorem precede_append {α : Type} (xs ys : List α) (ls : List (List α)) :
    precede (xs ++ ys) ls = precede xs (precede ys ls) := by
  cases ls with
  | nil => rfl
  | cons line ls => rw [precede, precede, precede, List.append_assoc]

theorem encode_precede (cs : List Char) (ls : List (List Char)) :
    (precede cs ls).map encode = precede (encode cs) (ls.map encode) := by
  cases ls with
  | nil => rfl
  | cons line ls => rw [precede, List.map_cons, encode_append, List.map_cons, precede]

/-! ## Bytes -/

theorem chomp_cons {b : UInt8} {line : List UInt8} (h : line = [] → b ≠ carriageReturn) :
    chomp (b :: line) = b :: chomp line := by
  cases line with
  | nil =>
    have hb : [b].getLast? ≠ some carriageReturn := by simpa using h rfl
    rw [chomp, if_neg hb]
    rfl
  | cons b' line =>
    rw [chomp, chomp, List.getLast?_cons_cons]
    split
    · rw [List.dropLast_cons_cons]
    · rfl

theorem lines_lineFeed (bytes : List UInt8) : lines (lineFeed :: bytes) = [] :: lines bytes := by
  simp only [lines, finishedLines, unfinishedLine, splitLines_cons, lineStep, if_true,
    List.map_cons, List.cons_append]
  rfl

theorem lines_carriageReturn_lineFeed (bytes : List UInt8) :
    lines (carriageReturn :: lineFeed :: bytes) = [] :: lines bytes := by
  have hreturn : carriageReturn ≠ lineFeed := by decide
  simp only [lines, finishedLines, unfinishedLine, splitLines_cons, lineStep, if_true,
    if_neg hreturn, List.map_cons, List.cons_append]
  rfl

/-- A byte that has no part in the ending of a line goes on with the first line behind it. -/
theorem lines_cons {b : UInt8} {bytes : List UInt8} (hfeed : b ≠ lineFeed)
    (hreturn : bytes.head? = some lineFeed → b ≠ carriageReturn) :
    lines (b :: bytes) = precede [b] (lines bytes) := by
  have hbytes := flatMap_splitLines bytes
  rw [lines, finishedLines, unfinishedLine, lines, finishedLines, unfinishedLine, splitLines_cons,
    lineStep, if_neg hfeed]
  rcases hsplit : splitLines bytes with ⟨finished, rest⟩
  cases finished with
  | nil => cases rest <;> rfl
  | cons line finished =>
    have hline : line = [] → b ≠ carriageReturn := by
      rintro rfl
      refine hreturn ?_
      rw [← hbytes, hsplit]
      rfl
    simp only [List.map_cons, chomp_cons hline]
    rfl

theorem lines_append {piece bytes : List UInt8} (hne : piece ≠ []) (hfeed : lineFeed ∉ piece)
    (hreturn : bytes.head? = some lineFeed → carriageReturn ∉ piece) :
    lines (piece ++ bytes) = precede piece (lines bytes) := by
  induction piece with
  | nil => exact absurd rfl hne
  | cons b piece ih =>
    rw [List.mem_cons, not_or] at hfeed
    obtain ⟨hb, hpiece⟩ := hfeed
    cases piece with
    | nil =>
      refine lines_cons (Ne.symm hb) ?_
      intro hhead heq
      exact hreturn hhead (by simp [heq])
    | cons b' piece =>
      rw [List.mem_cons, not_or] at hpiece
      have hrest := ih (List.cons_ne_nil _ _) (by rw [List.mem_cons, not_or]; exact hpiece)
        fun hhead hmem => hreturn hhead (List.mem_cons_of_mem _ hmem)
      have hcons : lines (b :: (b' :: piece ++ bytes)) =
          precede [b] (lines (b' :: piece ++ bytes)) :=
        lines_cons (Ne.symm hb) fun hhead _ => hpiece.1 (Option.some_inj.1 hhead).symm
      rw [List.cons_append, hcons, hrest, ← precede_append]
      rfl

/-! ## Characters -/

theorem lineFeed_mem_utf8EncodeChar {c : Char} (h : lineFeed ∈ String.utf8EncodeChar c) :
    c = '\n' :=
  eq_of_mem_utf8EncodeChar h rfl (by decide)

theorem carriageReturn_mem_utf8EncodeChar {c : Char}
    (h : carriageReturn ∈ String.utf8EncodeChar c) : c = '\r' :=
  eq_of_mem_utf8EncodeChar h rfl (by decide)

theorem head?_encode {cs : List Char} (h : (encode cs).head? = some lineFeed) :
    ∃ rest, cs = '\n' :: rest := by
  cases cs with
  | nil => cases h
  | cons c cs =>
    have hhead : (String.utf8EncodeChar c).head? = some lineFeed := by
      obtain ⟨b, bytes, hbytes⟩ := List.exists_cons_of_ne_nil (utf8EncodeChar_ne_nil c)
      rw [encode, List.flatMap_cons, hbytes] at h
      rw [hbytes]
      exact h
    rw [lineFeed_mem_utf8EncodeChar (List.mem_of_mem_head? hhead)]
    exact ⟨cs, rfl⟩

/-- The lines of the bytes of a text are the bytes of its lines. -/
theorem lines_encode (cs : List Char) : lines (encode cs) = (rows cs).map encode := by
  induction cs using rows.induct with
  | case1 => rfl
  | case2 cs ih =>
    rw [rows, List.map_cons, ← ih]
    exact lines_lineFeed _
  | case3 cs ih =>
    rw [rows, List.map_cons, ← ih]
    exact lines_carriageReturn_lineFeed _
  | case4 c cs hfeed hreturn ih =>
    have hencode : encode (c :: cs) = String.utf8EncodeChar c ++ encode cs := rfl
    have hsingle : encode [c] = String.utf8EncodeChar c := List.append_nil _
    rw [rows, encode_precede, hsingle, ← ih, hencode]
    · refine lines_append (utf8EncodeChar_ne_nil c) ?_ ?_
      · exact fun hmem => hfeed (lineFeed_mem_utf8EncodeChar hmem)
      · intro hhead hmem
        obtain ⟨rest, hrest⟩ := head?_encode hhead
        exact hreturn rest (carriageReturn_mem_utf8EncodeChar hmem) hrest
    · exact hfeed
    · exact hreturn

end Roster.Text
