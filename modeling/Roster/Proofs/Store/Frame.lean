import Roster.Proofs.Store.Identifiers

/-!
What a change of the table leaves alone. Teams are added under identifiers that were free; an update
and a deletion touch one live row and nothing else. So no row is ever lost, none gets another
identifier, and a deleted row stays as it is.
-/

namespace Roster

def Row.renamed (d : Draft) (r : Row) : Row :=
  { r with name := d.name, description := d.description }

def Row.marked (r : Row) : Row :=
  { r with mark := 1 }

namespace Table

/-- All rows are still there as they were, and the other ones have identifiers that were free. -/
structure Extends (t t' : Table) : Prop where
  sublist : t.rows.Sublist t'.rows
  fresh : ∀ r ∈ t'.rows, r ∉ t.rows → ∀ x ∈ t.rows, x.id ≠ r.id

/-- The one live row with the given identifier was changed by `f`, and no other one. -/
def Edits (t : Table) (id : Int64) (f : Row → Row) (t' : Table) : Prop :=
  ∃ before old after, t.rows = before ++ old :: after ∧ old.id = id ∧ old.mark = 0 ∧
    t'.rows = before ++ f old :: after

/-- No row is lost or gets another identifier, and deleted rows stay as they are. -/
structure Keeps (t t' : Table) : Prop where
  ids : (t.rows.map Row.id).Sublist (t'.rows.map Row.id)
  deleted : ∀ r ∈ t.rows, r.mark ≠ 0 → r ∈ t'.rows

variable {t t' t'' : Table}

theorem extends_of_sublist (h : t.rows.Sublist t'.rows) : t.Extends t' where
  sublist := h
  fresh := by
    intro r hr hnew x hx hid
    have hsame : x = r := t'.row_unique (h.mem hx) hr hid
    exact hnew (hsame ▸ hx)

theorem sublist_place (r : Row) (rows : List Row) : rows.Sublist (place r rows) := by
  induction rows with
  | nil => exact List.nil_sublist _
  | cons x xs ih =>
    rw [place]
    split
    · exact List.sublist_cons_self ..
    · exact ih.cons_cons x

theorem extends_insert (t : Table) (r : Row) : t.Extends (t.insert r) := by
  refine extends_of_sublist ?_
  unfold insert
  split
  · exact sublist_place r t.rows
  · exact List.Sublist.refl _

/-- A row with another identifier than a given one is not the one that a change is about. -/
theorem map_eq_self_of_ne {rows : List Row} {id : Int64} {f : Row → Row}
    (h : ∀ r ∈ rows, r.id ≠ id) :
    rows.map (fun r => if r.id = id && r.isLive then f r else r) = rows := by
  refine (List.map_congr_left fun r hr => ?_).trans (List.map_id rows)
  rw [if_neg]
  · rfl
  · rw [Bool.and_eq_true, decide_eq_true_eq]
    exact fun hrow => h r hr hrow.1

/-- The rows around the live row of an identifier have other identifiers. -/
theorem exists_split_of_find? {id : UInt64} {old : Row} (h : t.find? id.toInt64 = some old) :
    ∃ before after, t.rows = before ++ old :: after ∧ old.id = id.toInt64 ∧ old.mark = 0 ∧
      (∀ r ∈ before, r.id ≠ id.toInt64) ∧ ∀ r ∈ after, r.id ≠ id.toInt64 := by
  obtain ⟨hmem, hid, hmark⟩ := find?_eq_some_iff.1 h
  obtain ⟨before, after, hrows⟩ := List.append_of_mem hmem
  have hsorted := t.sorted
  rw [hrows] at hsorted
  obtain ⟨-, hcons, hcross⟩ := List.pairwise_append.1 hsorted
  have hid' := Row.toUInt64_eq_iff.1 hid
  refine ⟨before, after, hrows, hid', hmark, ?_, ?_⟩
  · intro r hr
    rw [← hid']
    exact Int64.ne_of_lt (hcross r hr old (List.mem_cons_self ..))
  · intro r hr
    rw [← hid']
    exact (Int64.ne_of_lt ((List.pairwise_cons.1 hcons).1 r hr)).symm

/-- Nothing is found under the identifier of a deleted row. -/
theorem find?_of_deleted {r : Row} (hr : r ∈ t.rows) (hmark : r.mark ≠ 0) :
    t.find? r.id.toUInt64.toInt64 = none := by
  rw [Option.eq_none_iff_forall_ne_some]
  intro x hx
  obtain ⟨hmem, hid, hlive⟩ := find?_eq_some_iff.1 hx
  have hid' : x.id = r.id := by rw [Row.toUInt64_eq_iff.1 hid, Int64.toInt64_toUInt64]
  exact hmark (t.row_unique hmem hr hid' ▸ hlive)

namespace Keeps

theorem refl (t : Table) : t.Keeps t :=
  ⟨List.Sublist.refl _, fun _ hr _ => hr⟩

theorem trans (h : t.Keeps t') (h' : t'.Keeps t'') : t.Keeps t'' :=
  ⟨h.ids.trans h'.ids, fun r hr hmark => h'.deleted r (h.deleted r hr hmark) hmark⟩

theorem of_eq (h : t'.rows = t.rows) : t.Keeps t' where
  ids := by rw [h]
  deleted := by
    intro r hr _
    rwa [h]

end Keeps

theorem Extends.keeps (h : t.Extends t') : t.Keeps t' :=
  ⟨h.sublist.map _, fun _ hr _ => h.sublist.mem hr⟩

theorem Edits.keeps {id : Int64} {f : Row → Row} (h : t.Edits id f t')
    (hf : ∀ r, (f r).id = r.id) : t.Keeps t' := by
  obtain ⟨before, old, after, hrows, -, hlive, hrows'⟩ := h
  refine ⟨?_, ?_⟩
  · simp only [hrows, hrows', List.map_append, List.map_cons, hf]
    exact List.Sublist.refl _
  · intro r hr hmark
    have hne : r ≠ old := by
      rintro rfl
      exact hmark hlive
    rw [hrows, List.mem_append, List.mem_cons] at hr
    rw [hrows', List.mem_append, List.mem_cons]
    obtain hr | rfl | hr := hr
    · exact .inl hr
    · exact absurd rfl hne
    · exact .inr (.inr hr)

end Table

namespace Store

variable {s s' : Store}

theorem Inserts.extends {ts : List Team} {ids : List UInt64} (h : s.Inserts ts ids s') :
    s.table.Extends s'.table := by
  refine Table.extends_of_sublist ?_
  rw [h.rows_eq]
  exact List.sublist_append_left ..

theorem extends_insertRow (s : Store) (r : Row) : s.table.Extends (s.insertRow r).table := by
  unfold insertRow
  split
  · exact Table.extends_of_sublist (List.Sublist.refl _)
  · exact s.table.extends_insert r

theorem change_edits {id : UInt64} {f : Row → Row} {hf : ∀ r, (f r).id = r.id}
    (h : s.change id f hf = (.ok (), s')) : s.table.Edits id.toInt64 f s'.table := by
  unfold change at h
  split at h
  · cases h
  · rename_i old hfind
    cases h
    obtain ⟨before, after, hrows, hid, hlive, hbefore, hafter⟩ := Table.exists_split_of_find? hfind
    refine ⟨before, old, after, hrows, hid, hlive, ?_⟩
    simp only [Table.update, hrows, List.map_append, List.map_cons,
      Table.map_eq_self_of_ne hbefore, Table.map_eq_self_of_ne hafter, hid, Row.isLive_iff.2 hlive,
      decide_true, Bool.and_self, if_true]

theorem update_edits {t : Team} (h : s.update t = (.ok (), s')) :
    s.table.Edits t.id.toInt64 (Row.renamed ⟨t.name, t.description⟩) s'.table :=
  change_edits h

theorem remove_edits {id : UInt64} (h : s.remove id = (.ok (), s')) :
    s.table.Edits id.toInt64 Row.marked s'.table :=
  change_edits h

theorem change_of_find?_eq_none {id : UInt64} {f : Row → Row} (hf : ∀ r, (f r).id = r.id)
    (h : s.table.find? id.toInt64 = none) : s.change id f hf = (.error (.notFound id), s) := by
  simp only [change, h]

theorem get_of_find?_eq_none {id : UInt64} (h : s.table.find? id.toInt64 = none) :
    s.get id = .error (.notFound id) := by
  simp only [get, h]

end Store

end Roster
