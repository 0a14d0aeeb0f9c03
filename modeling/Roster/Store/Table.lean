import Roster.Team.Basic

/-!
The table of teams: rows in the order of their identifiers, and the largest identifier that was
ever in it. A row is never taken out; a deleted one is marked.

Identifiers of rows are signed, those of teams are not; both have 64 bits, and each names the one
with the same bits.
-/

namespace Roster

/-- A row of the table. It is live while its mark is zero. -/
structure Row where
  id : Int64
  name : String
  description : String
  mark : Int64
deriving DecidableEq, Repr

namespace Row

def isLive (r : Row) : Bool :=
  r.mark == 0

def team (r : Row) : Team :=
  ⟨r.id.toUInt64, r.name, r.description, !r.isLive⟩

end Row

def lastId : Nat := 0x7FFFFFFFFFFFFFFF

/-- Rows in the order of their identifiers, and the largest identifier ever used (zero if none was
positive). -/
structure Table where
  rows : List Row := []
  used : Nat := 0
  sorted : rows.Pairwise fun a b => a.id < b.id := by simp
  id_le_used : ∀ r ∈ rows, r.id.toInt ≤ used := by simp
  used_le : used ≤ lastId := by simp

namespace Table

def empty : Table := {}

instance : Inhabited Table := ⟨empty⟩

def live (t : Table) : List Row :=
  t.rows.filter Row.isLive

def find? (t : Table) (id : Int64) : Option Row :=
  t.rows.find? fun r => r.id = id && r.isLive

theorem toInt_next {n : Nat} (h : n < lastId) : (Int64.ofNat (n + 1)).toInt = n + 1 := by
  refine Int64.toInt_ofNat_of_lt ?_
  simp only [lastId] at h
  omega

/-- The table with a new row under the next identifier, which is one more than the largest ever
used; there is none after the last one. -/
def append? (t : Table) (name description : String) (mark : Int64) : Option Table :=
  if h : t.used < lastId then
    have hid := toInt_next h
    some
      { rows := t.rows ++ [⟨Int64.ofNat (t.used + 1), name, description, mark⟩]
        used := t.used + 1
        sorted := by
          refine List.pairwise_append.2 ⟨t.sorted, List.pairwise_singleton .., ?_⟩
          intro a ha b hb
          obtain rfl := List.mem_singleton.1 hb
          rw [Int64.lt_iff_toInt_lt, hid]
          have := t.id_le_used a ha
          omega
        id_le_used := by
          intro r hr
          rcases List.mem_append.1 hr with hr | hr
          · have := t.id_le_used r hr
            omega
          · obtain rfl := List.mem_singleton.1 hr
            rw [hid]
            omega
        used_le := h }
  else none

theorem append?_eq_none_iff {t : Table} {name description : String} {mark : Int64} :
    t.append? name description mark = none ↔ t.used = lastId := by
  have := t.used_le
  unfold append?
  split
  · simp
    omega
  · simp
    omega

theorem rows_append? {t t' : Table} {name description : String} {mark : Int64}
    (h : t.append? name description mark = some t') :
    t'.rows = t.rows ++ [⟨Int64.ofNat (t.used + 1), name, description, mark⟩] ∧
      t'.used = t.used + 1 := by
  unfold append? at h
  split at h
  · cases h
    exact ⟨rfl, rfl⟩
  · cases h

def update (t : Table) (f : Row → Row) (hf : ∀ r, (f r).id = r.id) : Table where
  rows := t.rows.map f
  used := t.used
  sorted := by simpa [List.pairwise_map, hf] using t.sorted
  id_le_used := by simpa [hf] using t.id_le_used
  used_le := t.used_le

/-- Puts a row in front of the first row with a larger identifier. -/
def place (r : Row) : List Row → List Row
  | [] => [r]
  | x :: xs => if r.id < x.id then r :: x :: xs else x :: place r xs

theorem mem_place {r x : Row} {rows : List Row} : x ∈ place r rows ↔ x = r ∨ x ∈ rows := by
  induction rows with
  | nil => simp [place]
  | cons y ys ih =>
    simp only [place]
    split
    · simp
    · simp only [List.mem_cons, ih]
      grind

theorem pairwise_place {r : Row} {rows : List Row} (hs : rows.Pairwise fun a b => a.id < b.id)
    (hr : ∀ x ∈ rows, x.id ≠ r.id) : (place r rows).Pairwise fun a b => a.id < b.id := by
  induction rows with
  | nil => exact List.pairwise_singleton ..
  | cons y ys ih =>
    obtain ⟨hy, hys⟩ := List.pairwise_cons.1 hs
    simp only [place]
    split
    · rename_i hlt
      refine List.pairwise_cons.2 ⟨?_, hs⟩
      intro x hx
      rcases List.mem_cons.1 hx with rfl | hx
      · exact hlt
      · exact Int64.lt_trans hlt (hy x hx)
    · rename_i hge
      refine List.pairwise_cons.2 ⟨?_, ih hys fun x hx => hr x (List.mem_cons_of_mem _ hx)⟩
      intro x hx
      rcases mem_place.1 hx with rfl | hx
      · have hne := hr y (List.mem_cons_self ..)
        rw [Int64.lt_iff_toInt_lt] at hge ⊢
        rw [ne_eq, ← Int64.toInt_inj] at hne
        omega
      · exact hy x hx

/-- The table with a row of any identifier; a row that is already there stays. -/
def insert (t : Table) (r : Row) : Table :=
  if h : ∀ x ∈ t.rows, x.id ≠ r.id then
    { rows := place r t.rows
      used := max t.used r.id.toInt.toNat
      sorted := pairwise_place t.sorted h
      id_le_used := by
        intro x hx
        rcases mem_place.1 hx with rfl | hx
        · omega
        · have := t.id_le_used x hx
          omega
      used_le := by
        have := t.used_le
        have := r.id.toInt_lt
        simp only [lastId] at *
        omega }
  else t

end Table

end Roster
