import Roster.Proofs.Store.Live

/-!
Which identifiers are handed out. Teams that are inserted together get the numbers after the largest
one ever used, in order; an insertion that is refused gives back what was taken for it. So whatever
else happens to the table, the identifiers that are handed out only ever go up.
-/

namespace Roster

/-- The `n` identifiers after the first `used` ones. -/
def idsAfter (used n : Nat) : List UInt64 :=
  (List.range' (used + 1) n).map UInt64.ofNat

theorem toNat_ofNat_of_le {n : Nat} (h : n ≤ lastId) : (UInt64.ofNat n).toNat = n := by
  refine UInt64.toNat_ofNat_of_lt' ?_
  simp only [lastId, UInt64.size] at *
  omega

theorem toInt_ofNat_of_le {n : Nat} (h : n ≤ lastId) : (UInt64.ofNat n).toInt64.toInt = n := by
  rw [← Int64.toUInt64_ofNat', Int64.toInt64_toUInt64]
  refine Int64.toInt_ofNat_of_lt ?_
  simp only [lastId] at h
  omega

theorem idsAfter_cons (used n : Nat) :
    idsAfter used (n + 1) = UInt64.ofNat (used + 1) :: idsAfter (used + 1) n := by
  rw [idsAfter, List.range'_succ]
  rfl

theorem idsAfter_add (used m n : Nat) :
    idsAfter used (m + n) = idsAfter used m ++ idsAfter (used + m) n := by
  induction m generalizing used with
  | zero => simp [idsAfter]
  | succ m ih =>
    have hn : m + 1 + n = (m + n) + 1 := by omega
    have hused : used + 1 + m = used + (m + 1) := by omega
    rw [hn, idsAfter_cons, idsAfter_cons, ih, List.cons_append, hused]

theorem bounds_of_mem_idsAfter {used n : Nat} {id : UInt64} (hlast : used + n ≤ lastId)
    (h : id ∈ idsAfter used n) : used < id.toNat ∧ id.toNat ≤ used + n := by
  obtain ⟨k, hk, rfl⟩ := List.mem_map.1 h
  have hrange := List.mem_range'_1.1 hk
  have hid : (UInt64.ofNat k).toNat = k := toNat_ofNat_of_le (by omega)
  omega

theorem map_toNat_idsAfter {used n : Nat} (h : used + n ≤ lastId) :
    (idsAfter used n).map UInt64.toNat = List.range' (used + 1) n := by
  rw [idsAfter, List.map_map]
  refine (List.map_congr_left fun k hk => ?_).trans (List.map_id _)
  have hrange := List.mem_range'_1.1 hk
  exact toNat_ofNat_of_le (by omega)

theorem pairwise_idsAfter {used n : Nat} (hlast : used + n ≤ lastId) :
    (idsAfter used n).Pairwise (· < ·) := by
  induction n generalizing used with
  | zero => exact .nil
  | succ n ih =>
    rw [idsAfter_cons]
    refine List.pairwise_cons.2 ⟨?_, ih (by omega)⟩
    intro id hid
    have hbounds := bounds_of_mem_idsAfter (by omega) hid
    have hfirst : (UInt64.ofNat (used + 1)).toNat = used + 1 := toNat_ofNat_of_le (by omega)
    rw [UInt64.lt_iff_toNat_lt]
    omega

def Row.ofTeam (id : UInt64) (t : Team) : Row :=
  ⟨id.toInt64, t.name, t.description, if t.deleted then 1 else 0⟩

namespace Store

/-- All teams were inserted: under consecutive identifiers, in order, after every identifier that
was in use. -/
structure Inserts (s : Store) (ts : List Team) (ids : List UInt64) (s' : Store) : Prop where
  ids_eq : ids = idsAfter s.table.used ts.length
  used_eq : s'.table.used = s.table.used + ts.length
  rows_eq : s'.table.rows = s.table.rows ++ List.zipWith Row.ofTeam ids ts

/-- The given identifiers were handed out between two states of a store. -/
structure HandsOut (s : Store) (ids : List UInt64) (s' : Store) : Prop where
  ordered : ids.Pairwise (· < ·)
  fresh : ∀ id ∈ ids, s.table.used < id.toNat
  le_used : ∀ id ∈ ids, id.toNat ≤ s'.table.used
  used_mono : s.table.used ≤ s'.table.used

/-- The identifiers that are taken for teams in one insertion, up to the first team that is
refused. -/
def taken (s : Store) : List Team → List UInt64
  | [] => []
  | t :: ts =>
    if s.table.used < lastId then
      UInt64.ofNat (s.table.used + 1) ::
        match s.insert t with
        | .error _ => []
        | .ok (_, s) => s.taken ts
    else []

namespace Inserts

variable {s s' s'' : Store} {ts ts' : List Team} {ids ids' : List UInt64}

theorem nil (s : Store) : s.Inserts [] [] s :=
  ⟨rfl, rfl, (List.append_nil _).symm⟩

theorem length_ids (h : s.Inserts ts ids s') : ids.length = ts.length := by
  rw [h.ids_eq, idsAfter, List.length_map, List.length_range']

theorem append (h : s.Inserts ts ids s') (h' : s'.Inserts ts' ids' s'') :
    s.Inserts (ts ++ ts') (ids ++ ids') s'' where
  ids_eq := by rw [h.ids_eq, h'.ids_eq, h.used_eq, List.length_append, idsAfter_add]
  used_eq := by rw [h'.used_eq, h.used_eq, List.length_append, Nat.add_assoc]
  rows_eq := by
    rw [h'.rows_eq, h.rows_eq, List.append_assoc, List.zipWith_append h.length_ids]

theorem le_lastId (h : s.Inserts ts ids s') : s.table.used + ts.length ≤ lastId := by
  rw [← h.used_eq]
  exact s'.table.used_le

theorem handsOut (h : s.Inserts ts ids s') : s.HandsOut ids s' := by
  have hlast := h.le_lastId
  rw [h.ids_eq]
  refine ⟨pairwise_idsAfter hlast, ?_, ?_, ?_⟩
  · intro id hid
    exact (bounds_of_mem_idsAfter hlast hid).1
  · intro id hid
    rw [h.used_eq]
    exact (bounds_of_mem_idsAfter hlast hid).2
  · rw [h.used_eq]
    exact Nat.le_add_right ..

end Inserts

namespace HandsOut

variable {s s' s'' : Store} {ids ids' : List UInt64}

theorem nil (h : s.table.used ≤ s'.table.used) : s.HandsOut [] s' :=
  ⟨.nil, by simp, by simp, h⟩

theorem trans (h : s.HandsOut ids s') (h' : s'.HandsOut ids' s'') :
    s.HandsOut (ids ++ ids') s'' where
  ordered := by
    refine List.pairwise_append.2 ⟨h.ordered, h'.ordered, ?_⟩
    intro a ha b hb
    have hle := h.le_used a ha
    have hlt := h'.fresh b hb
    rw [UInt64.lt_iff_toNat_lt]
    omega
  fresh := by
    intro id hid
    rcases List.mem_append.1 hid with hid | hid
    · exact h.fresh id hid
    · exact Nat.lt_of_le_of_lt h.used_mono (h'.fresh id hid)
  le_used := by
    intro id hid
    rcases List.mem_append.1 hid with hid | hid
    · exact Nat.le_trans (h.le_used id hid) h'.used_mono
    · exact h'.le_used id hid
  used_mono := Nat.le_trans h.used_mono h'.used_mono

theorem lt_id (h : s.HandsOut ids s') {id : UInt64} (hid : id ∈ ids) {r : Row}
    (hr : r ∈ s.table.rows) : r.id.toInt < id.toNat := by
  have hle := s.table.id_le_used r hr
  have hlt := h.fresh id hid
  omega

end HandsOut

theorem insert_inserts {s s' : Store} {t : Team} {id : UInt64}
    (h : s.insert t = .ok (id, s')) : s.Inserts [t] [id] s' := by
  unfold insert at h
  split at h
  · cases h
  · split at h
    · cases h
    · rename_i table happend
      cases h
      obtain ⟨hrows, hused⟩ := Table.rows_append? happend
      refine ⟨?_, hused, ?_⟩
      · rw [hused]
        rfl
      · rw [hrows, hused, ← Int64.toUInt64_ofNat']
        simp [Row.ofTeam]

theorem insertAll_inserts {s s' : Store} {ts : List Team} {ids : List UInt64}
    (h : s.insertAll ts = .ok (ids, s')) : s.Inserts ts ids s' := by
  induction ts generalizing s ids with
  | nil =>
    cases h
    exact .nil _
  | cons t ts ih =>
    rw [insertAll] at h
    cases hone : s.insert t with
    | error refusal => simp [hone] at h
    | ok first =>
      obtain ⟨id, s₁⟩ := first
      cases hrest : s₁.insertAll ts with
      | error refusal => simp [hone, hrest] at h
      | ok rest =>
        obtain ⟨ids₁, s₂⟩ := rest
        simp only [hone, hrest] at h
        cases h
        exact (insert_inserts hone).append (ih hrest)

theorem lt_of_mem_taken {s : Store} {ts : List Team} {id : UInt64} (h : id ∈ s.taken ts) :
    s.table.used < id.toNat := by
  induction ts generalizing s with
  | nil => cases h
  | cons t ts ih =>
    unfold taken at h
    split at h
    · rename_i hroom
      rcases List.mem_cons.1 h with rfl | h
      · rw [toNat_ofNat_of_le hroom]
        omega
      · cases hone : s.insert t with
        | error refusal => simp [hone] at h
        | ok first =>
          obtain ⟨first, s₁⟩ := first
          simp only [hone] at h
          have hlt := ih h
          have hused := (insert_inserts hone).used_eq
          omega
    · cases h

theorem taken_eq {s s' : Store} {ts : List Team} {ids : List UInt64}
    (h : s.insertAll ts = .ok (ids, s')) : s.taken ts = ids := by
  induction ts generalizing s ids with
  | nil =>
    cases h
    rfl
  | cons t ts ih =>
    rw [insertAll] at h
    cases hone : s.insert t with
    | error refusal => simp [hone] at h
    | ok first =>
      obtain ⟨id, s₁⟩ := first
      cases hrest : s₁.insertAll ts with
      | error refusal => simp [hone, hrest] at h
      | ok rest =>
        obtain ⟨ids₁, s₂⟩ := rest
        simp only [hone, hrest] at h
        cases h
        have hfirst := insert_inserts hone
        have hroom : s.table.used < lastId := by
          have hlast := hfirst.le_lastId
          simp only [List.length_singleton] at hlast
          omega
        have hid : id = UInt64.ofNat (s.table.used + 1) := by
          simpa [idsAfter] using hfirst.ids_eq
        simp only [taken, if_pos hroom, hone, ih hrest, hid]

theorem taken_of_addTeams {s s' : Store} {ts : List Team} {ids : List UInt64}
    (h : s.addTeams ts = (.ok ids, s')) : s.taken ts = ids := by
  rw [addTeams] at h
  cases hall : s.insertAll ts with
  | error refusal =>
    rw [hall] at h
    cases h
  | ok added =>
    rw [hall] at h
    cases h
    exact taken_eq hall

/-- Teams that are added together are all inserted, or the store stays as it was. -/
theorem addTeams_inserts (s : Store) (ts : List Team) :
    (∃ ids s', s.addTeams ts = (.ok ids, s') ∧ s.Inserts ts ids s') ∨
      ∃ e, s.addTeams ts = (.error e, s) := by
  rw [addTeams]
  cases h : s.insertAll ts with
  | error refusal => exact .inr ⟨_, rfl⟩
  | ok added => exact .inl ⟨added.1, added.2, rfl, insertAll_inserts h⟩

theorem inserts_of_addTeams {s s' : Store} {ts : List Team} {ids : List UInt64}
    (h : s.addTeams ts = (.ok ids, s')) : s.Inserts ts ids s' := by
  obtain ⟨ids₁, s₁, heq, hins⟩ | ⟨e, heq⟩ := s.addTeams_inserts ts
  · cases h.symm.trans heq
    exact hins
  · cases h.symm.trans heq

theorem inserts_of_create {s s' : Store} {t : Team} {id : UInt64}
    (h : s.create t = (.ok id, s')) : s.Inserts [t] [id] s' := by
  rw [create] at h
  cases hone : s.insert t with
  | error refusal =>
    rw [hone] at h
    cases h
  | ok added =>
    rw [hone] at h
    cases h
    exact insert_inserts hone

theorem addTeams_singleton (s : Store) (t : Team) :
    s.addTeams [t] = ((s.create t).1.map fun id => [id], (s.create t).2) := by
  rw [addTeams, create, insertAll]
  cases s.insert t with
  | error refusal => rfl
  | ok added => rfl

theorem addTeams_of_lastId_lt {s : Store} {ts : List Team}
    (h : lastId < s.table.used + ts.length) : ∃ e, s.addTeams ts = (.error e, s) := by
  obtain ⟨ids, s', -, hins⟩ | herror := s.addTeams_inserts ts
  · have hlast := hins.le_lastId
    omega
  · exact herror

theorem used_change (s : Store) (id : UInt64) (f : Row → Row) (hf : ∀ r, (f r).id = r.id) :
    (s.change id f hf).2.table.used = s.table.used := by
  unfold change
  split <;> rfl

theorem used_of_update {s s' : Store} {t : Team} (h : s.update t = (.ok (), s')) :
    s'.table.used = s.table.used := by
  have hused : (s.update t).2.table.used = s.table.used := s.used_change ..
  rw [h] at hused
  exact hused

theorem used_of_remove {s s' : Store} {id : UInt64} (h : s.remove id = (.ok (), s')) :
    s'.table.used = s.table.used := by
  have hused : (s.remove id).2.table.used = s.table.used := s.used_change ..
  rw [h] at hused
  exact hused

theorem used_insertRow (s : Store) (r : Row) :
    s.table.used ≤ (s.insertRow r).table.used := by
  unfold insertRow Table.insert
  split
  · exact Nat.le_refl _
  · split
    · exact Nat.le_max_left ..
    · exact Nat.le_refl _

end Store

end Roster
