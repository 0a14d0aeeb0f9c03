import Roster.Proofs.Store.Identifiers

/-!
What is in a store that was filled from nothing. An insertion succeeds as long as the names are not
rejected and there are identifiers left, and the table that it leaves depends on the teams alone,
not on how they came.
-/

namespace Roster

namespace Store

/-- The rows of a store are those of the given teams in order, none of them deleted, under the
identifiers from one on. -/
structure Lists (s : Store) (ts : List Team) : Prop where
  fields : s.table.rows.map (fun r => (r.name, r.description, r.mark)) =
    ts.map fun t => (t.name, t.description, 0)
  ids : s.table.rows.map (fun r => r.id.toInt) = (List.range' 1 ts.length).map Int.ofNat
  used : s.table.used = ts.length

variable {s s' s'' : Store} {ts : List Team} {ids ids' : List UInt64}

theorem rejected_of_insert {t : Team} {id : UInt64} (h : s.insert t = .ok (id, s')) :
    t.name ∉ s.rejected ∧ s'.rejected = s.rejected := by
  unfold insert at h
  split at h
  · cases h
  · split at h
    · cases h
    · cases h
      exact ⟨‹_›, rfl⟩

theorem rejected_of_insertAll (h : s.insertAll ts = .ok (ids, s')) :
    (∀ t ∈ ts, t.name ∉ s.rejected) ∧ s'.rejected = s.rejected := by
  induction ts generalizing s ids with
  | nil =>
    cases h
    exact ⟨by simp, rfl⟩
  | cons t ts ih =>
    rw [insertAll] at h
    cases hone : s.insert t with
    | error refusal => simp [hone] at h
    | ok first =>
      obtain ⟨id, s₁⟩ := first
      cases hrest : s₁.insertAll ts with
      | error refusal => simp [hone, hrest] at h
      | ok rest =>
        obtain ⟨ids₁, s₂⟩ := rest
        simp only [hone, hrest] at h
        cases h
        obtain ⟨hname, hsame⟩ := rejected_of_insert hone
        obtain ⟨hnames, hsame'⟩ := ih hrest
        rw [hsame] at hnames hsame'
        exact ⟨List.forall_mem_cons.2 ⟨hname, hnames⟩, hsame'⟩

theorem exists_insert {t : Team} (hname : t.name ∉ s.rejected) (hroom : s.table.used < lastId) :
    ∃ id s', s.insert t = .ok (id, s') := by
  unfold insert
  rw [if_neg hname]
  cases happend : s.table.append? t.name t.description (if t.deleted then 1 else 0) with
  | none =>
    rw [Table.append?_eq_none_iff] at happend
    omega
  | some table => exact ⟨_, _, rfl⟩

theorem exists_insertAll (hnames : ∀ t ∈ ts, t.name ∉ s.rejected)
    (hroom : s.table.used + ts.length ≤ lastId) : ∃ ids s', s.insertAll ts = .ok (ids, s') := by
  induction ts generalizing s with
  | nil => exact ⟨[], s, rfl⟩
  | cons t ts ih =>
    rw [List.length_cons] at hroom
    obtain ⟨hname, hnames⟩ := List.forall_mem_cons.1 hnames
    obtain ⟨id, s₁, hone⟩ := exists_insert hname (by omega)
    have hused : s₁.table.used = s.table.used + 1 := (insert_inserts hone).used_eq
    rw [← (rejected_of_insert hone).2] at hnames
    obtain ⟨ids, s₂, hrest⟩ := ih hnames (by omega)
    exact ⟨id :: ids, s₂, by simp only [insertAll, hone, hrest]⟩

theorem rejected_of_addTeams (h : s.addTeams ts = (.ok ids, s')) :
    (∀ t ∈ ts, t.name ∉ s.rejected) ∧ s'.rejected = s.rejected := by
  rw [addTeams] at h
  cases hall : s.insertAll ts with
  | error refusal =>
    rw [hall] at h
    cases h
  | ok added =>
    rw [hall] at h
    cases h
    exact rejected_of_insertAll hall

theorem exists_addTeams (hnames : ∀ t ∈ ts, t.name ∉ s.rejected)
    (hroom : s.table.used + ts.length ≤ lastId) : ∃ ids s', s.addTeams ts = (.ok ids, s') := by
  obtain ⟨ids, s', hall⟩ := exists_insertAll hnames hroom
  exact ⟨ids, s', by rw [addTeams, hall, commit]⟩

/-- With identifiers left for all teams, one is refused only for its name. -/
theorem refused_of_insertAll {refusal : Refusal} (h : s.insertAll ts = .error refusal)
    (hroom : s.table.used + ts.length ≤ lastId) :
    refusal = .rejectedName ∧ ∃ t ∈ ts, t.name ∈ s.rejected := by
  induction ts generalizing s with
  | nil => cases h
  | cons t ts ih =>
    rw [List.length_cons] at hroom
    by_cases hname : t.name ∈ s.rejected
    · rw [insertAll, insert, if_pos hname] at h
      cases h
      exact ⟨rfl, t, List.mem_cons_self .., hname⟩
    · obtain ⟨id, s₁, hone⟩ := exists_insert hname (by omega)
      have hused : s₁.table.used = s.table.used + 1 := (insert_inserts hone).used_eq
      cases hrest : s₁.insertAll ts with
      | ok rest => simp [insertAll, hone, hrest] at h
      | error cause =>
        simp only [insertAll, hone, hrest] at h
        cases h
        obtain ⟨hcause, u, hu, hrejected⟩ := ih hrest (by omega)
        rw [(rejected_of_insert hone).2] at hrejected
        exact ⟨hcause, u, List.mem_cons_of_mem _ hu, hrejected⟩

theorem refused_of_addTeams {e : StoreError} (h : s.addTeams ts = (.error e, s'))
    (hroom : s.table.used + ts.length ≤ lastId) :
    e = .refused .rejectedName ∧ ∃ t ∈ ts, t.name ∈ s.rejected := by
  rw [addTeams] at h
  cases hall : s.insertAll ts with
  | ok added =>
    rw [hall] at h
    cases h
  | error refusal =>
    rw [hall] at h
    cases h
    obtain ⟨rfl, hname⟩ := refused_of_insertAll hall hroom
    exact ⟨rfl, hname⟩

/-- The identifiers and the table that an insertion leaves follow from what was there and from the
teams. -/
theorem Inserts.unique (h : s.Inserts ts ids s') (h' : s.Inserts ts ids' s'') :
    ids = ids' ∧ s'.table = s''.table := by
  have hids : ids = ids' := h.ids_eq.trans h'.ids_eq.symm
  have hused : s'.table.used = s''.table.used := h.used_eq.trans h'.used_eq.symm
  have hrows : s'.table.rows = s''.table.rows := by rw [h.rows_eq, h'.rows_eq, hids]
  refine ⟨hids, ?_⟩
  cases hs : s'.table
  cases hs' : s''.table
  simp_all

theorem Inserts.lists (hempty : s.table = .empty) (hlive : ∀ t ∈ ts, t.deleted = false)
    (h : s.Inserts ts ids s') : s'.Lists ts := by
  have hlast := h.le_lastId
  have hlength := h.length_ids
  have hrows : s'.table.rows = List.zipWith Row.ofTeam ids ts := by
    rw [h.rows_eq, hempty]
    rfl
  have hused : s.table.used = 0 := by rw [hempty]; rfl
  rw [hused, Nat.zero_add] at hlast
  refine ⟨?_, ?_, ?_⟩
  · rw [hrows, List.map_zipWith]
    refine List.ext_getElem (by simp [hlength]) ?_
    intro i hi hi'
    rw [List.length_map] at hi'
    have hmem : ts[i] ∈ ts := List.getElem_mem hi'
    simp [Row.ofTeam, hlive _ hmem]
  · rw [hrows, List.map_zipWith]
    refine List.ext_getElem (by simp [hlength]) ?_
    intro i hi hi'
    rw [List.length_map, List.length_range'] at hi'
    have hid : (UInt64.ofNat (1 + i)).toInt64.toInt = (1 + i : Nat) := toInt_ofNat_of_le (by omega)
    simp only [List.getElem_zipWith, Row.ofTeam, h.ids_eq, hused, idsAfter, List.getElem_map,
      List.getElem_range', Nat.zero_add, Nat.one_mul, hid]
    rfl
  · rw [h.used_eq, hused, Nat.zero_add]

end Store

end Roster
