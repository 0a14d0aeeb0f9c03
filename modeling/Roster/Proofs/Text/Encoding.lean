import Mathlib.Data.List.DropRight
import Roster.Text.Lines
import Roster.Text.Utf8

/-!
Texts as bytes and back. The characters of a text are read from its bytes again, and lines that are
joined by line feeds are found again, if none of them is empty or holds the end of a line.
-/

namespace Roster.Text

def encode (cs : List Char) : List UInt8 :=
  cs.flatMap String.utf8EncodeChar

theorem encode_append (cs cs' : List Char) : encode (cs ++ cs') = encode cs ++ encode cs' :=
  List.flatMap_append

theorem encode_flatMap (ls : List (List Char)) :
    encode (ls.flatMap (· ++ ['\n'])) = (ls.map encode).flatMap (· ++ [lineFeed]) := by
  induction ls with
  | nil => rfl
  | cons line ls ih =>
    rw [List.flatMap_cons, encode_append, encode_append, ih]
    rfl

theorem toList_loop (bytes : ByteArray) (i : Nat) (found : List UInt8) :
    ByteArray.toList.loop bytes i found = found.reverse ++ bytes.data.toList.drop i := by
  fun_induction ByteArray.toList.loop bytes i found with
  | case1 i found hi ih =>
    have hlt : i < bytes.data.toList.length := by simpa using hi
    have hget : bytes.get! i = bytes.data.toList[i] := by simp [ByteArray.get!, hi]
    rw [ih, List.drop_eq_getElem_cons hlt, hget, List.reverse_cons, List.append_assoc,
      List.singleton_append]
  | case2 i found hi =>
    have hle : bytes.data.toList.length ≤ i := by simpa using Nat.le_of_not_lt hi
    rw [List.drop_eq_nil_of_le hle, List.append_nil]

theorem toList_toUTF8 (s : String) : s.toUTF8.toList = encode s.toList := by
  rw [String.toUTF8_eq_toByteArray, ← String.utf8Encode_toList, ByteArray.toList, toList_loop,
    List.utf8Encode, List.toList_data_toByteArray]
  rfl

/-- A byte that is an ASCII code is all of its character. -/
theorem eq_of_mem_utf8EncodeChar {c c' : Char} {b : UInt8} (h : b ∈ String.utf8EncodeChar c)
    (hb : b.toNat = c'.toNat) (hc' : c'.toNat < 0x80) : c = c' := by
  unfold String.utf8EncodeChar at h
  have hc : c.val.toNat = c.toNat := rfl
  have hcode : c.toNat = c'.toNat := by grind [UInt8.toNat_ofNat']
  exact Char.toNat_inj.1 hcode

theorem utf8EncodeChar_ne_nil (c : Char) : String.utf8EncodeChar c ≠ [] := by
  intro hnil
  have hlength := String.length_utf8EncodeChar c
  have hpos := c.utf8Size_pos
  rw [hnil, List.length_nil] at hlength
  omega

namespace Utf8

theorem first?_encode (c : Char) (bytes : List UInt8) :
    first? (String.utf8EncodeChar c ++ bytes) = some c := by
  have hlength : (String.utf8EncodeChar c).length ≤ 4 := by
    rw [String.length_utf8EncodeChar]
    exact c.utf8Size_le_four
  rw [first?, List.take_append, List.take_of_length_le hlength, List.toByteArray_append]
  exact ByteArray.utf8DecodeChar?_utf8EncodeChar_append

/-- The first character of a text is read from its bytes, and the others follow it. -/
theorem exists_encode_cons (c : Char) (cs : List Char) :
    ∃ b bytes, encode (c :: cs) = b :: bytes ∧ first? (b :: bytes) = some c ∧
      bytes.drop (c.utf8Size - 1) = encode cs := by
  have hlength := String.length_utf8EncodeChar c
  have hfirst := first?_encode c (encode cs)
  have hcons : encode (c :: cs) = String.utf8EncodeChar c ++ encode cs := rfl
  obtain ⟨b, bytes, hbytes⟩ := List.exists_cons_of_ne_nil (utf8EncodeChar_ne_nil c)
  rw [hbytes, List.cons_append] at hfirst hcons
  rw [hbytes, List.length_cons] at hlength
  refine ⟨b, bytes ++ encode cs, hcons, hfirst, ?_⟩
  rw [← hlength, Nat.add_sub_cancel, List.drop_left]

theorem decodeFrom_encode (found : List Char) (index : Nat) (cs : List Char) :
    decodeFrom found index (encode cs) = .ok (found.reverse ++ cs) := by
  induction cs generalizing found index with
  | nil => simp [encode, decodeFrom]
  | cons c cs ih =>
    obtain ⟨b, bytes, hcons, hfirst, hrest⟩ := exists_encode_cons c cs
    rw [hcons, decodeFrom]
    simp only [hfirst, hrest, ih, List.reverse_cons, List.append_assoc, List.cons_append,
      List.nil_append]

theorem symbolsFrom_encode (found : List Symbol) (cs : List Char) :
    symbolsFrom found (encode cs) = found.reverse ++ ofChars cs := by
  induction cs generalizing found with
  | nil => simp [encode, symbolsFrom, ofChars]
  | cons c cs ih =>
    obtain ⟨b, bytes, hcons, hfirst, hrest⟩ := exists_encode_cons c cs
    rw [hcons, symbolsFrom]
    simp only [hfirst, hrest, ih, List.reverse_cons, List.append_assoc, List.cons_append,
      List.nil_append, ofChars, List.map_cons]

/-- The bytes of a text have no stray ones among them. -/
theorem symbols_toUTF8 (s : String) : symbols s.toUTF8.toList = ofChars s.toList := by
  rw [toList_toUTF8, symbols, symbolsFrom_encode]
  rfl

/-- The bytes of a text are read as this text. -/
theorem decode_encode (cs : List Char) : decode (encode cs) = .ok cs :=
  decodeFrom_encode [] 0 cs

end Utf8

/-! ## Lines -/

theorem splitLines_append_lineFeed {line : List UInt8} (h : lineFeed ∉ line)
    (bytes : List UInt8) :
    splitLines (line ++ lineFeed :: bytes) =
      (line :: (splitLines bytes).1, (splitLines bytes).2) := by
  induction line with
  | nil => rw [List.nil_append, splitLines_cons, lineStep, if_pos rfl]
  | cons b line ih =>
    rw [List.mem_cons, not_or] at h
    obtain ⟨hb, hline⟩ := h
    rw [List.cons_append, splitLines_cons, ih hline, lineStep, if_neg (Ne.symm hb)]

/-- Lines that end in line feeds are split off what follows them. -/
theorem splitLines_flatMap_append {ls : List (List UInt8)} (h : ∀ line ∈ ls, lineFeed ∉ line)
    (bytes : List UInt8) :
    splitLines (ls.flatMap (· ++ [lineFeed]) ++ bytes) =
      (ls ++ (splitLines bytes).1, (splitLines bytes).2) := by
  induction ls with
  | nil => rfl
  | cons line ls ih =>
    obtain ⟨hline, hls⟩ := List.forall_mem_cons.1 h
    rw [List.flatMap_cons, List.append_assoc, List.append_assoc, List.singleton_append,
      splitLines_append_lineFeed hline, ih hls, List.cons_append]

def finished (bytes : List UInt8) : List UInt8 :=
  bytes.rdropWhile (· ≠ lineFeed)

/-- What is left without the unfinished line are the finished lines with their endings. -/
theorem finished_eq (bytes : List UInt8) :
    finished bytes = (splitLines bytes).1.flatMap (· ++ [lineFeed]) := by
  let whole := (splitLines bytes).1.flatMap (· ++ [lineFeed])
  let rest := (splitLines bytes).2
  have hbytes : whole ++ rest = bytes := flatMap_splitLines bytes
  have hrest : ∀ b ∈ rest.reverse, decide (b ≠ lineFeed) = true := by
    intro b hb
    rw [decide_eq_true_eq]
    rintro rfl
    exact (lineFeed_notMem_splitLines bytes).2 (List.mem_reverse.1 hb)
  have hwhole : whole.rdropWhile (· ≠ lineFeed) = whole := by
    rw [List.rdropWhile_eq_self_iff]
    intro hne
    simp only [whole] at hne ⊢
    rcases List.eq_nil_or_concat (splitLines bytes).1 with hnil | ⟨init, line, hlast⟩
    · exact absurd (by rw [hnil]; rfl) hne
    · simp [hlast]
  calc
    finished bytes = ((whole ++ rest).reverse.dropWhile (· ≠ lineFeed)).reverse := by
        rw [hbytes, finished, List.rdropWhile]
    _ = whole.rdropWhile (· ≠ lineFeed) := by
        rw [List.reverse_append, List.dropWhile_append_of_pos hrest, List.rdropWhile]
    _ = whole := hwhole

theorem splitLines_finished (bytes : List UInt8) :
    splitLines (finished bytes) = ((splitLines bytes).1, []) := by
  have hsplit := splitLines_flatMap_append (lineFeed_notMem_splitLines bytes).1 []
  rwa [List.append_nil, splitLines_nil, List.append_nil, ← finished_eq] at hsplit

theorem lines_finished (bytes : List UInt8) : lines (finished bytes) = finishedLines bytes := by
  rw [lines, finishedLines, unfinishedLine, splitLines_finished, if_pos rfl, List.append_nil,
    finishedLines]

/-- The first of the finished lines are all lines of a text with which the whole one begins. -/
theorem exists_lines_eq_take (bytes : List UInt8) (k : Nat) :
    ∃ start, start <+: bytes ∧ lines start = (finishedLines bytes).take k := by
  let first := (splitLines bytes).1.take k
  refine ⟨first.flatMap (· ++ [lineFeed]), ?_, ?_⟩
  · have hall : (first ++ (splitLines bytes).1.drop k).flatMap (· ++ [lineFeed]) ++
        (splitLines bytes).2 = bytes := by
      rw [List.take_append_drop]
      exact flatMap_splitLines bytes
    rw [List.flatMap_append, List.append_assoc] at hall
    exact ⟨_, hall⟩
  · have hlines : ∀ line ∈ first, lineFeed ∉ line :=
      fun line hline => (lineFeed_notMem_splitLines bytes).1 line (List.mem_of_mem_take hline)
    have hsplit := splitLines_flatMap_append hlines []
    rw [List.append_nil, splitLines_nil, List.append_nil] at hsplit
    rw [lines, finishedLines, unfinishedLine, hsplit, if_pos rfl, List.append_nil, finishedLines,
      List.map_take]

theorem length_finishedLines_le (bytes : List UInt8) :
    (lines bytes).length ≤ (finishedLines bytes).length + 1 := by
  rw [lines, List.length_append, unfinishedLine]
  split <;> simp

/-- More bytes go on with the line that was left unfinished. -/
theorem splitLines_append (bytes more : List UInt8) :
    splitLines (bytes ++ more) =
      ((splitLines bytes).1 ++ (splitLines ((splitLines bytes).2 ++ more)).1,
        (splitLines ((splitLines bytes).2 ++ more)).2) := by
  have hlines := (lineFeed_notMem_splitLines bytes).1
  have hbytes := flatMap_splitLines bytes
  calc
    splitLines (bytes ++ more)
        = splitLines ((splitLines bytes).1.flatMap (· ++ [lineFeed]) ++
            ((splitLines bytes).2 ++ more)) := by rw [← List.append_assoc, hbytes]
    _ = _ := splitLines_flatMap_append hlines _

theorem finishedLines_append (bytes more : List UInt8) :
    finishedLines (bytes ++ more) =
      finishedLines bytes ++ finishedLines ((splitLines bytes).2 ++ more) := by
  rw [finishedLines, splitLines_append, List.map_append]
  rfl

theorem splitLines_of_notMem {line : List UInt8} (h : lineFeed ∉ line) :
    splitLines line = ([], line) := by
  induction line with
  | nil => rfl
  | cons b line ih =>
    rw [List.mem_cons, not_or] at h
    obtain ⟨hb, hline⟩ := h
    rw [splitLines_cons, ih hline, lineStep, if_neg (Ne.symm hb)]

theorem length_le_length_flatMap (ls : List (List UInt8)) :
    ls.length ≤ (ls.flatMap (· ++ [lineFeed])).length := by
  induction ls with
  | nil => exact Nat.le_refl _
  | cons line ls ih =>
    rw [List.flatMap_cons, List.length_append, List.length_append, List.length_singleton,
      List.length_cons]
    omega

/-- A text has no more lines than bytes. -/
theorem length_lines_le (bytes : List UInt8) : (lines bytes).length ≤ bytes.length := by
  have hall := congrArg List.length (flatMap_splitLines bytes)
  have hlines := length_le_length_flatMap (splitLines bytes).1
  rw [List.length_append] at hall
  rw [lines, List.length_append, finishedLines, List.length_map, unfinishedLine]
  split
  · rw [List.length_nil]
    omega
  · rename_i hrest
    have hpos := List.length_pos_iff.2 hrest
    rw [List.length_singleton]
    omega

/-- A line that is found again after it was written behind others. -/
structure Plain (line : List UInt8) : Prop where
  nonempty : line ≠ []
  unbroken : lineFeed ∉ line
  unfinished : line.getLast? ≠ some carriageReturn

theorem Plain.chomp {line : List UInt8} (h : Plain line) : chomp line = line :=
  if_neg h.unfinished

/-- A text that holds no line feed and does not end in a carriage return is a line. -/
theorem plain_encode {cs : List Char} {last : Char} (h : '\n' ∉ cs ++ [last])
    (hlast : last ≠ '\r') : Plain (encode (cs ++ [last])) := by
  have hconcat : encode (cs ++ [last]) = encode cs ++ String.utf8EncodeChar last := by
    rw [encode_append]
    simp [encode]
  refine ⟨?_, ?_, ?_⟩
  · rw [hconcat]
    exact List.append_ne_nil_of_right_ne_nil _ (utf8EncodeChar_ne_nil last)
  · intro hmem
    obtain ⟨c, hc, hbyte⟩ := List.mem_flatMap.1 hmem
    obtain rfl : c = '\n' := eq_of_mem_utf8EncodeChar hbyte rfl (by decide)
    exact h hc
  · rw [hconcat, List.getLast?_append, List.getLast?_eq_some_getLast (utf8EncodeChar_ne_nil last),
      Option.some_or, ne_eq, Option.some_inj]
    intro hbyte
    have hmem := List.getLast_mem (utf8EncodeChar_ne_nil last)
    rw [hbyte] at hmem
    exact hlast (eq_of_mem_utf8EncodeChar hmem rfl (by decide))

theorem plain_encode_of_notMem {cs : List Char} (hne : cs ≠ []) (hfeed : '\n' ∉ cs)
    (hreturn : '\r' ∉ cs) : Plain (encode cs) := by
  rw [← List.dropLast_concat_getLast hne] at hfeed ⊢
  refine plain_encode hfeed ?_
  intro heq
  exact hreturn (heq ▸ List.getLast_mem hne)

/-- Lines that end in line feeds are found again. -/
theorem lines_flatMap {ls : List (List UInt8)} (h : ∀ line ∈ ls, Plain line) :
    lines (ls.flatMap (· ++ [lineFeed])) = ls := by
  have hsplit := splitLines_flatMap_append (fun line hline => (h line hline).unbroken) []
  rw [List.append_nil, splitLines_nil, List.append_nil] at hsplit
  have hchomp : ls.map chomp = ls := by
    simpa using List.map_congr_left fun line hline => (h line hline).chomp
  rw [lines, finishedLines, unfinishedLine, hsplit, if_pos rfl, List.append_nil, hchomp]

/-- Lines that are joined by line feeds are found again. -/
theorem lines_intercalate {ls : List (List UInt8)} (h : ∀ line ∈ ls, Plain line) :
    lines ([lineFeed].intercalate ls) = ls := by
  induction ls with
  | nil => rfl
  | cons line ls ih =>
    obtain ⟨hline, hls⟩ := List.forall_mem_cons.1 h
    cases ls with
    | nil =>
      rw [List.intercalate_singleton, lines, finishedLines, unfinishedLine,
        splitLines_of_notMem hline.unbroken, if_neg hline.nonempty]
      rfl
    | cons next ls =>
      rw [List.intercalate_cons_cons, List.append_assoc, List.singleton_append]
      have hsplit := splitLines_append_lineFeed hline.unbroken ([lineFeed].intercalate (next :: ls))
      have hrest := ih hls
      rw [lines, finishedLines, unfinishedLine] at hrest
      rw [lines, finishedLines, unfinishedLine, hsplit, List.map_cons, hline.chomp,
        List.cons_append, hrest]

end Roster.Text
