import Roster.Proofs.Store.Frame

/-!
Which rows a table may have if teams are looked at before they are stored. A row that comes new is
that of a team with nothing wrong with it; an update or a deletion leaves a row as acceptable as it
was.
-/

namespace Roster

/-- A row as it may be in a table that is never written to past the checks: its name is not only
blanks and not too long, nor is its description, and its identifier and mark are in range. -/
structure Row.Sound (r : Row) : Prop where
  name : ∃ c ∈ r.name.toList, Text.isBlank c = false
  name_length : r.name.length ≤ 255
  description_length : r.description.length ≤ 4096
  id : 1 ≤ r.id.toInt
  mark : r.mark = 0 ∨ r.mark = 1

theorem Team.flaw?_eq_none_iff {t : Team} :
    t.flaw? = none ↔ (∃ c ∈ t.name.toList, Text.isBlank c = false) ∧ t.name.length ≤ 255 ∧
      t.description.length ≤ 4096 := by
  have hempty : Text.isEmpty t.name = false ↔ ∃ c ∈ t.name.toList, Text.isBlank c = false := by
    rw [Text.isEmpty, List.all_eq_false]
    simp only [Bool.not_eq_true]
  rw [← hempty, flaw?]
  split
  · simp [*]
  · split
    · simp [maxNameLength] at *
      omega
    · split
      · simp [maxDescriptionLength] at *
        omega
      · simp [maxNameLength, maxDescriptionLength] at *
        simp [*]

namespace Row

theorem sound_ofTeam {t : Team} {id : UInt64} (h : t.flaw? = none)
    (hid : 1 ≤ id.toInt64.toInt) : (Row.ofTeam id t).Sound := by
  obtain ⟨hname, hlength, hdescription⟩ := Team.flaw?_eq_none_iff.1 h
  refine ⟨hname, hlength, hdescription, hid, ?_⟩
  cases hdeleted : t.deleted with
  | false => exact .inl (by simp [ofTeam, hdeleted])
  | true => exact .inr (by simp [ofTeam, hdeleted])

theorem Sound.renamed {r : Row} {d : Draft} (hr : r.Sound) (hd : d.team.flaw? = none) :
    (r.renamed d).Sound := by
  obtain ⟨hname, hlength, hdescription⟩ := Team.flaw?_eq_none_iff.1 hd
  exact ⟨hname, hlength, hdescription, hr.id, hr.mark⟩

theorem Sound.marked {r : Row} (hr : r.Sound) : r.marked.Sound :=
  ⟨hr.name, hr.name_length, hr.description_length, hr.id, .inr rfl⟩

end Row

namespace Table

def Sound (t : Table) : Prop :=
  ∀ r ∈ t.rows, r.Sound

/-- Every row was there before or is that of a team with the given property, under a positive
identifier. -/
def Gains (V : Team → Prop) (t t' : Table) : Prop :=
  ∀ r ∈ t'.rows, r ∈ t.rows ∨ ∃ id u, V u ∧ 1 ≤ id.toInt64.toInt ∧ r = Row.ofTeam id u

variable {t t' : Table}

theorem Sound.gains (h : t.Sound) (hgains : t.Gains (fun u => u.flaw? = none) t') : t'.Sound := by
  intro r hr
  obtain hold | ⟨id, u, hu, hid, rfl⟩ := hgains r hr
  · exact h r hold
  · exact Row.sound_ofTeam hu hid

theorem Sound.edits {id : Int64} {f : Row → Row} (h : t.Sound) (hedits : t.Edits id f t')
    (hf : ∀ r : Row, r.Sound → (f r).Sound) : t'.Sound := by
  obtain ⟨before, old, after, hrows, -, -, hrows'⟩ := hedits
  simp only [Sound, hrows, hrows', List.forall_mem_append, List.forall_mem_cons] at h ⊢
  exact ⟨h.1, hf old h.2.1, h.2.2⟩

theorem Gains.refl (V : Team → Prop) (t : Table) : t.Gains V t :=
  fun _ hr => .inl hr

theorem Gains.trans {V : Team → Prop} {t'' : Table} (h : t.Gains V t') (h' : t'.Gains V t'') :
    t.Gains V t'' := by
  intro r hr
  obtain hold | hnew := h' r hr
  · exact h r hold
  · exact .inr hnew

theorem Gains.mono {V W : Team → Prop} (h : t.Gains V t') (hVW : ∀ u, V u → W u) :
    t.Gains W t' := by
  intro r hr
  obtain hold | ⟨id, u, hu, hid, rfl⟩ := h r hr
  · exact .inl hold
  · exact .inr ⟨id, u, hVW u hu, hid, rfl⟩

end Table

/-- Teams that are inserted are all that is new. -/
theorem Store.Inserts.gains {s s' : Store} {ts : List Team} {ids : List UInt64} {V : Team → Prop}
    (h : s.Inserts ts ids s') (hts : ∀ t ∈ ts, V t) : s.table.Gains V s'.table := by
  intro r hr
  rw [h.rows_eq, List.mem_append] at hr
  obtain hold | hnew := hr
  · exact .inl hold
  · obtain ⟨i, hi, rfl⟩ := List.mem_iff_getElem.1 hnew
    rw [List.length_zipWith] at hi
    have hmem : ids[i] ∈ idsAfter s.table.used ts.length := by
      rw [← h.ids_eq]
      exact List.getElem_mem _
    obtain ⟨k, hk, hid⟩ := List.mem_map.1 hmem
    have hrange := List.mem_range'_1.1 hk
    have hlast := h.le_lastId
    rw [List.getElem_zipWith]
    refine .inr ⟨_, _, hts _ (List.getElem_mem _), ?_, rfl⟩
    rw [← hid, toInt_ofNat_of_le (by omega)]
    omega

end Roster
