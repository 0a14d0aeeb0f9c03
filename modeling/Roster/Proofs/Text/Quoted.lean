import Roster.Proofs.Text.Digits
import Roster.Text.Quoted

/-!
Names between quotes can be told apart. What a character is written as tells which character it is
and where it ends, whatever stands behind it; nothing is written with a quote at its beginning, so
the quote that closes a name is found as well.
-/

namespace Roster.Text

/-! ## Characters -/

/-- The characters that have a short escape, and what stands for them behind the backslash. -/
def shortEscapes : List (Char × Char) :=
  [('\x00', '0'), ('\t', 't'), ('\r', 'r'), ('\n', 'n'), ('"', '"'), ('\\', '\\')]

inductive Spelling (c : Char) : List Char → Prop where
  | plain : c ≠ '\\' → c ≠ '"' → Spelling c [c]
  | short {x : Char} : (c, x) ∈ shortEscapes → Spelling c ['\\', x]
  | code : Spelling c ('\\' :: 'u' :: '{' :: (Nat.toDigits 16 c.toNat ++ ['}']))

theorem spelling_quoteChar (c : Char) : Spelling c (quoteChar c) := by
  unfold quoteChar
  repeat' split
  -- a short escape, the code point, or the character itself
  all_goals first
    | exact .short (by subst_vars; decide)
    | exact .code
    | exact .plain ‹_› ‹_›

theorem shortEscapes_ne {c x : Char} (h : (c, x) ∈ shortEscapes) : x ≠ 'u' := by
  have hall : ∀ p ∈ shortEscapes, p.2 ≠ 'u' := by decide
  exact hall _ h

theorem shortEscapes_inj {c d x : Char} (hc : (c, x) ∈ shortEscapes)
    (hd : (d, x) ∈ shortEscapes) : c = d := by
  have hall : ∀ p ∈ shortEscapes, ∀ q ∈ shortEscapes, p.2 = q.2 → p.1 = q.1 := by decide
  exact hall _ hc _ hd rfl

theorem Spelling.ne_quote {c : Char} {cs u v : List Char} (h : Spelling c cs) :
    cs ++ u ≠ '"' :: v := by
  intro heq
  cases h with
  | plain _ hquote => exact hquote (List.head_eq_of_cons_eq heq)
  | short _ => exact absurd (List.head_eq_of_cons_eq heq) (by decide)
  | code => exact absurd (List.head_eq_of_cons_eq heq) (by decide)

/-- A spelling tells which character it spells, and where it ends. -/
theorem Spelling.append_inj {c d : Char} {cs ds u v : List Char} (hc : Spelling c cs)
    (hd : Spelling d ds) (h : cs ++ u = ds ++ v) : c = d ∧ u = v := by
  cases hc with
  | plain hback _ =>
    cases hd with
    | plain _ _ => simpa using h
    | short _ => exact absurd (List.head_eq_of_cons_eq h) hback
    | code => exact absurd (List.head_eq_of_cons_eq h) hback
  | short hx =>
    cases hd with
    | plain hback _ => exact absurd (List.head_eq_of_cons_eq h).symm hback
    | short hy =>
      obtain ⟨rfl, rfl⟩ : _ = _ ∧ u = v := by simpa using h
      exact ⟨shortEscapes_inj hx hy, rfl⟩
    | code =>
      -- no short escape is the letter that announces a code point
      have hu : _ = 'u' := List.head_eq_of_cons_eq (List.tail_eq_of_cons_eq h)
      exact absurd hu (shortEscapes_ne hx)
  | code =>
    cases hd with
    | plain hback _ => exact absurd (List.head_eq_of_cons_eq h).symm hback
    | short hy =>
      have hu : 'u' = _ := List.head_eq_of_cons_eq (List.tail_eq_of_cons_eq h)
      exact absurd hu.symm (shortEscapes_ne hy)
    | code =>
      -- both code points end at the first brace
      have hdigits : Nat.toDigits 16 c.toNat ++ '}' :: u = Nat.toDigits 16 d.toNat ++ '}' :: v := by
        simpa using h
      obtain ⟨hcode, hrest⟩ :=
        toDigits_append_inj (by decide) (by decide) (by decide) hdigits
      exact ⟨Char.toNat_inj.1 hcode, hrest⟩

/-! ## Names -/

/-- A quoted name tells which name it is, and where it ends. -/
theorem quoted_append_inj {cs ds u v : List Char} (h : quoted cs ++ u = quoted ds ++ v) :
    cs = ds ∧ u = v := by
  have hbody : cs.flatMap quoteChar ++ '"' :: u = ds.flatMap quoteChar ++ '"' :: v := by
    simpa [quoted] using h
  clear h
  induction cs generalizing ds with
  | nil =>
    cases ds with
    | nil => exact ⟨rfl, List.tail_eq_of_cons_eq hbody⟩
    | cons d ds =>
      rw [List.flatMap_cons, List.append_assoc] at hbody
      exact absurd hbody.symm (spelling_quoteChar d).ne_quote
  | cons c cs ih =>
    rw [List.flatMap_cons, List.append_assoc] at hbody
    cases ds with
    | nil => exact absurd hbody (spelling_quoteChar c).ne_quote
    | cons d ds =>
      rw [List.flatMap_cons, List.append_assoc] at hbody
      obtain ⟨rfl, hrest⟩ := (spelling_quoteChar c).append_inj (spelling_quoteChar d) hbody
      obtain ⟨rfl, hend⟩ := ih hrest
      exact ⟨rfl, hend⟩

end Roster.Text
