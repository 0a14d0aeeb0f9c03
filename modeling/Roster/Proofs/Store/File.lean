import Roster.Proofs.Team.Json
import Roster.Proofs.Text.Digits
import Roster.Proofs.Text.Encoding
import Roster.Store.File

/-!
A store is read from the file that it is kept in as it was written: every row with its identifier
and its mark, also a deleted one, and the largest identifier ever used, also if no row has it.
-/

namespace Roster

open Text (encode lineFeed)

theorem notMem_repr {c : Char} (n : Int) (hsign : c ≠ '-') (hdigit : c.isDigit = false) :
    c ∉ n.repr.toList := by
  have hdigits : ∀ n, c ∉ Nat.toDigits 10 n := by
    intro n hc
    simp [(Text.isNumeral_toDigits n).digits c hc] at hdigit
  cases n with
  | ofNat n => simpa [Int.repr, Nat.repr_eq_ofList_toDigits] using hdigits n
  | negSucc n => simpa [Int.repr, Nat.repr_eq_ofList_toDigits, hsign] using hdigits (n + 1)

theorem mapM_eq_some {α β : Type} {f : α → Option β} {g : β → α} (h : ∀ b, f (g b) = some b)
    (bs : List β) : (bs.map g).mapM f = some bs := by
  induction bs with
  | nil => rfl
  | cons b bs ih => simp [List.mapM_cons, h, ih]

/-! ## Rows -/

namespace Row

theorem number?_append (n : Int64) (rest : List Char) :
    number? ((toString n.toInt).toList ++ ' ' :: rest) = some (n, rest) := by
  have hspace : ' ' ∉ n.toInt.repr.toList := notMem_repr n.toInt (by decide) rfl
  have htake : ((toString n.toInt).toList ++ ' ' :: rest).takeWhile (· != ' ') =
      (toString n.toInt).toList := by
    rw [List.takeWhile_append_of_pos, List.takeWhile_cons_of_neg (by simp), List.append_nil]
    intro c hc
    simp only [bne_iff_ne, ne_eq]
    rintro rfl
    exact hspace hc
  have hread : Text.readInteger (-0x8000000000000000) 0x7FFFFFFFFFFFFFFF
      (toString n.toInt).toList = .ok n.toInt :=
    Text.readInteger_toString n.le_toInt (Int.le_of_lt_add_one n.toInt_lt)
  simp only [number?, htake, hread]
  simp

/-- A row is read from its line. -/
theorem ofLine?_line (r : Row) : ofLine? r.line.toList = some r := by
  have hline : r.line.toList = (toString r.id.toInt).toList ++ ' ' ::
      ((toString r.mark.toInt).toList ++ ' ' :: (Draft.json ⟨r.name, r.description⟩).toList) := by
    simp [line]
  have hdraft := Draft.ofJson_json ⟨r.name, r.description⟩
  simp only [ofLine?, hline, number?_append, hdraft]

theorem plain_line (r : Row) : Text.Plain (encode r.line.toList) := by
  have hjson : ∀ c, c.toNat < 0x20 → c ∉ (Draft.json ⟨r.name, r.description⟩).toList := by
    intro c hc hmem
    exact absurd (Draft.printable_json _ c hmem) (by omega)
  have hline : ∀ c, c ≠ '-' → c.isDigit = false → c ≠ ' ' → c.toNat < 0x20 → c ∉ r.line.toList := by
    intro c hsign hdigit hspace hcontrol
    simp [line, Int.toString_eq_repr, notMem_repr _ hsign hdigit, hspace, hjson c hcontrol]
  refine Text.plain_encode_of_notMem ?_ (hline _ ?_ rfl ?_ ?_) (hline _ ?_ rfl ?_ ?_)
  · simp [line]
  all_goals decide

end Row

/-! ## Tables -/

namespace Table

theorem ext {t t' : Table} (hrows : t.rows = t'.rows) (hused : t.used = t'.used) : t = t' := by
  cases t
  cases t'
  cases hrows
  cases hused
  rfl

theorem place_of_lt {r : Row} {rows : List Row} (h : ∀ x ∈ rows, x.id < r.id) :
    place r rows = rows ++ [r] := by
  induction rows with
  | nil => rfl
  | cons x rows ih =>
    obtain ⟨hx, hrows⟩ := List.forall_mem_cons.1 h
    have hnot : ¬r.id < x.id := fun hlt => Int64.lt_irrefl (Int64.lt_trans hx hlt)
    rw [place, if_neg hnot, ih hrows, List.cons_append]

/-- Rows that are inserted in the order of their identifiers stay in this order. -/
theorem rows_foldl_insert (rows : List Row) (t : Table)
    (h : (t.rows ++ rows).Pairwise fun a b => a.id < b.id) :
    (rows.foldl insert t).rows = t.rows ++ rows := by
  induction rows generalizing t with
  | nil => exact (List.append_nil _).symm
  | cons r rows ih =>
    have hbefore : ∀ x ∈ t.rows, x.id < r.id := by
      intro x hx
      exact (List.pairwise_append.1 h).2.2 x hx r (List.mem_cons_self ..)
    have hrows : (t.insert r).rows = t.rows ++ [r] := by
      have hne : ∀ x ∈ t.rows, x.id ≠ r.id := by
        intro x hx heq
        exact Int64.lt_irrefl (heq ▸ hbefore x hx)
      rw [insert, dif_pos hne]
      exact place_of_lt hbefore
    rw [List.foldl_cons, ih _ (by simpa [hrows] using h), hrows, List.append_assoc,
      List.singleton_append]

theorem used_foldl_insert_le {n : Nat} {rows : List Row} (h : ∀ r ∈ rows, r.id.toInt ≤ n)
    {t : Table} (ht : t.used ≤ n) : (rows.foldl insert t).used ≤ n := by
  induction rows generalizing t with
  | nil => exact ht
  | cons r rows ih =>
    obtain ⟨hr, hrows⟩ := List.forall_mem_cons.1 h
    refine ih hrows ?_
    rw [insert]
    split
    · exact Nat.max_le.2 ⟨ht, by omega⟩
    · exact ht

/-- A table is what is left when its rows are inserted into an empty one. -/
theorem reserve_foldl_insert (t : Table) : (t.rows.foldl insert empty).reserve t.used = t := by
  have hle := used_foldl_insert_le t.id_le_used (t := empty) (Nat.zero_le _)
  have hlast := t.used_le
  refine ext (rows_foldl_insert t.rows empty t.sorted) ?_
  change max (t.rows.foldl insert empty).used (min t.used lastId) = t.used
  omega

def lines (t : Table) : List (List Char) :=
  (toString (t.used : Int)).toList :: t.rows.map fun r => r.line.toList

theorem toList_text (t : Table) : t.text.toList = t.lines.flatMap (· ++ ['\n']) := by
  simp [text, lines, String.toList_join, List.flatMap_map, Int.toString_eq_repr, Int.repr]

theorem plain_lines (t : Table) : ∀ line ∈ t.lines.map encode, Text.Plain line := by
  intro line hline
  obtain ⟨cs, hcs, rfl⟩ := List.mem_map.1 hline
  obtain rfl | hrow := List.mem_cons.1 hcs
  · refine Text.plain_encode_of_notMem ?_ (notMem_repr _ (by decide) rfl)
      (notMem_repr _ (by decide) rfl)
    simp [Int.toString_eq_repr, Int.repr, Nat.repr_eq_ofList_toDigits]
  · obtain ⟨r, -, rfl⟩ := List.mem_map.1 hrow
    exact r.plain_line

theorem lines_text (t : Table) : Text.lines t.text.toUTF8.toList = t.lines.map encode := by
  have hbytes : t.text.toUTF8.toList = (t.lines.map encode).flatMap (· ++ [lineFeed]) := by
    rw [Text.toList_toUTF8, toList_text, Text.encode_flatMap]
  rw [hbytes]
  exact Text.lines_flatMap t.plain_lines

theorem ofLines?_lines (t : Table) : ofLines? t.lines = some t := by
  have hused : Text.readInteger 0 lastId (toString (t.used : Int)).toList = .ok (t.used : Int) :=
    Text.readInteger_toString (Int.natCast_nonneg _) (Int.ofNat_le.2 t.used_le)
  have hrows := mapM_eq_some Row.ofLine?_line t.rows
  simp only [lines, ofLines?, hused, hrows, Int.toNat_natCast, reserve_foldl_insert]

end Table

/-- A store is read from its file. -/
theorem Store.ofBytes?_text (t : Table) :
    Store.ofBytes? t.text.toUTF8.toList = some { table := t } := by
  have hdecode := mapM_eq_some (f := fun line => (Text.Utf8.decode line).toOption) (g := encode)
    (fun cs => by rw [Text.Utf8.decode_encode]; rfl) t.lines
  simp only [ofBytes?, t.lines_text, hdecode, t.ofLines?_lines, Option.map_some]

end Roster
