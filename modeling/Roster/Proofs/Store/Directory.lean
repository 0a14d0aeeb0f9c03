import Roster.Proofs.Store.Live
import Mathlib.Logic.Function.Basic

/-!
The directory of a table: what is left of it when deleted rows, marks and the order of the rows are
forgotten. Every operation on the table is an operation on its directory.
-/

namespace Roster

/-- The name and the description of each live team, by its identifier. -/
def Directory : Type :=
  UInt64 → Option Draft

def Row.draft (r : Row) : Draft :=
  ⟨r.name, r.description⟩

def Team.draft (t : Team) : Draft :=
  ⟨t.name, t.description⟩

namespace Directory

/-- The directory of a table. An identifier names the row whose signed identifier has the same
bits. -/
def ofTable (t : Table) : Directory :=
  fun id => (t.rows.find? fun r => decide (r.id.toUInt64 = id ∧ r.mark = 0)).map Row.draft

def set (d : Directory) (id : UInt64) (entry : Option Draft) : Directory :=
  fun other => if other = id then entry else d other

def get (d : Directory) (id : UInt64) : Except StoreError Team :=
  match d id with
  | none => .error (.notFound id)
  | some x => .ok ⟨id, x.name, x.description, false⟩

/-- Replaces the entry under an identifier, which has to be there. -/
def change (d : Directory) (id : UInt64) (entry : Option Draft) :
    Except StoreError Unit × Directory :=
  match d id with
  | none => (.error (.notFound id), d)
  | some _ => (.ok (), d.set id entry)

/-- Enters a team under an identifier. A deleted team leaves no entry. -/
def enter (d : Directory) (id : UInt64) (t : Team) : Directory :=
  if t.deleted then d else d.set id (some t.draft)

/-- Teams are entered one after the other, each under an identifier that has no entry. -/
inductive Enters : Directory → List UInt64 → List Team → Directory → Prop
  | nil (d : Directory) : Enters d [] [] d
  | cons {d d' : Directory} {id : UInt64} {ids : List UInt64} {t : Team} {ts : List Team}
      (hfree : d id = none) (h : Enters (d.enter id t) ids ts d') :
      Enters d (id :: ids) (t :: ts) d'

/-- What decides about insertions: the names that are rejected, and the largest identifier ever
used. -/
structure Limits where
  rejected : List String
  used : Nat

/-- The identifier that a team gets, and what decides about the next one. -/
def Limits.assign (l : Limits) (t : Team) : Except Refusal (UInt64 × Limits) :=
  if t.name ∈ l.rejected then .error .rejectedName
  else if l.used < lastId then .ok (UInt64.ofNat (l.used + 1), { l with used := l.used + 1 })
  else .error .full

/-- The identifiers that teams get, unless one of them is refused. -/
def Limits.assignAll (l : Limits) : List Team → Except Refusal (List UInt64 × Limits)
  | [] => .ok ([], l)
  | t :: ts =>
    match l.assign t with
    | .error refusal => .error refusal
    | .ok (id, l) => (l.assignAll ts).map fun p => (id :: p.1, p.2)

theorem Limits.assignAll_append {l l' l'' : Limits} {ts ts' : List Team} {ids ids' : List UInt64}
    (h : l.assignAll ts = .ok (ids, l')) (h' : l'.assignAll ts' = .ok (ids', l'')) :
    l.assignAll (ts ++ ts') = .ok (ids ++ ids', l'') := by
  induction ts generalizing l ids with
  | nil =>
    cases h
    exact h'
  | cons t ts ih =>
    rw [List.cons_append, assignAll]
    rw [assignAll] at h
    cases hone : l.assign t with
    | error refusal =>
      rw [hone] at h
      cases h
    | ok first =>
      obtain ⟨id, l₁⟩ := first
      cases hrest : l₁.assignAll ts with
      | error refusal => simp [hone, hrest, Except.map] at h
      | ok rest =>
        simp only [hone, hrest, Except.map] at h
        cases h
        simp only [ih hrest, Except.map, List.cons_append]

/-- What decides after a row was put into the table, or passed over because its identifier is
taken. -/
def Limits.afterRow (l : Limits) (r : Row) : Limits :=
  if r.name ∈ l.rejected then l else { l with used := max l.used r.id.toInt.toNat }

def Holds (d : Directory) (t : Team) : Prop :=
  d t.id = some t.draft ∧ t.deleted = false

theorem Enters.append {d d' d'' : Directory} {ids ids' : List UInt64} {ts ts' : List Team}
    (h : Enters d ids ts d') (h' : Enters d' ids' ts' d'') :
    Enters d (ids ++ ids') (ts ++ ts') d'' := by
  induction h with
  | nil => exact h'
  | cons hfree _ ih => exact .cons hfree (ih h')

theorem ext {d d' : Directory} (h : ∀ id x, d id = some x ↔ d' id = some x) : d = d' :=
  funext fun id => Option.ext fun x => h id x

theorem set_of_ne {d : Directory} {id other : UInt64} (entry : Option Draft) (h : other ≠ id) :
    d.set id entry other = d other := if_neg h

theorem set_self (d : Directory) (id : UInt64) (entry : Option Draft) :
    d.set id entry id = entry := if_pos rfl

/-! The directory of a table, looked at through its rows. -/

theorem ofTable_find? (t : Table) (id : UInt64) :
    ofTable t id = (t.find? id.toInt64).map Row.draft := by
  have hp : (fun r : Row => decide (r.id.toUInt64 = id ∧ r.mark = 0)) =
      fun r => r.id = id.toInt64 && r.isLive := by
    funext r
    rw [Bool.eq_iff_iff, decide_eq_true_eq, Bool.and_eq_true, decide_eq_true_eq, Row.isLive_iff,
      Row.toUInt64_eq_iff]
  rw [ofTable, hp]
  rfl

theorem ofTable_eq_some_iff {t : Table} {id : UInt64} {x : Draft} :
    ofTable t id = some x ↔
      ∃ r ∈ t.rows, r.id.toUInt64 = id ∧ r.mark = 0 ∧ r.draft = x := by
  rw [ofTable_find?, Option.map_eq_some_iff]
  constructor
  · rintro ⟨r, hr, hx⟩
    obtain ⟨hmem, hid, hmark⟩ := Table.find?_eq_some_iff.1 hr
    exact ⟨r, hmem, hid, hmark, hx⟩
  · rintro ⟨r, hmem, hid, hmark, hx⟩
    exact ⟨r, Table.find?_eq_some_iff.2 ⟨hmem, hid, hmark⟩, hx⟩

theorem ofTable_eq_none {t : Table} {id : UInt64} (h : ∀ r ∈ t.rows, r.id.toUInt64 ≠ id) :
    ofTable t id = none := by
  rw [Option.eq_none_iff_forall_ne_some]
  intro x hx
  obtain ⟨r, hmem, hid, -⟩ := ofTable_eq_some_iff.1 hx
  exact h r hmem hid

theorem holds_ofTable_iff {t : Table} {team : Team} : (ofTable t).Holds team ↔ t.Holds team := by
  constructor
  · rintro ⟨hentry, hdeleted⟩
    obtain ⟨r, hmem, hid, hmark, hdraft⟩ := ofTable_eq_some_iff.1 hentry
    refine ⟨r, hmem, hmark, ?_⟩
    obtain ⟨id, name, description, deleted⟩ := team
    cases hid
    cases hdraft
    cases hdeleted
    exact Row.team_of_mark hmark
  · rintro ⟨r, hmem, hmark, rfl⟩
    rw [Row.team_of_mark hmark]
    exact ⟨ofTable_eq_some_iff.2 ⟨r, hmem, rfl, hmark, rfl⟩, rfl⟩

/-! What the operations on a table do to its directory. -/

/-- A table that got one more row, whose identifier was free. -/
theorem ofTable_of_mem_iff {t t' : Table} {new : Row}
    (hrows : ∀ r, r ∈ t'.rows ↔ r = new ∨ r ∈ t.rows) (hfree : ∀ r ∈ t.rows, r.id ≠ new.id) :
    ofTable t new.id.toUInt64 = none ∧
      ofTable t' =
        if new.mark = 0 then (ofTable t).set new.id.toUInt64 (some new.draft) else ofTable t := by
  have hother : ∀ r ∈ t.rows, r.id.toUInt64 ≠ new.id.toUInt64 := by
    intro r hr h
    rw [Row.toUInt64_eq_iff, Int64.toInt64_toUInt64] at h
    exact hfree r hr h
  refine ⟨ofTable_eq_none hother, ext fun id x => ?_⟩
  have hsplit : ofTable t' id = some x ↔
      (new.id.toUInt64 = id ∧ new.mark = 0 ∧ new.draft = x) ∨ ofTable t id = some x := by
    simp only [ofTable_eq_some_iff, hrows, or_and_right, exists_or, exists_eq_left]
  rw [hsplit]
  by_cases hmark : new.mark = 0
  · rw [if_pos hmark]
    by_cases hid : id = new.id.toUInt64
    · subst hid
      rw [set_self, ofTable_eq_none hother]
      simp [hmark]
    · rw [set_of_ne _ hid]
      simp [Ne.symm hid]
  · rw [if_neg hmark]
    simp [hmark]

theorem ofTable_append? {t t' : Table} {name description : String} {mark : Int64}
    (h : t.append? name description mark = some t') :
    ofTable t (UInt64.ofNat t'.used) = none ∧
      ofTable t' =
        if mark = 0 then (ofTable t).set (UInt64.ofNat t'.used) (some ⟨name, description⟩)
        else ofTable t := by
  obtain ⟨hrows, hused⟩ := Table.rows_append? h
  have hlast : t.used + 1 < 2 ^ 63 := by
    have := t'.used_le
    simp only [lastId] at this
    omega
  have hfree : ∀ r ∈ t.rows, r.id ≠ Int64.ofNat (t.used + 1) := by
    intro r hr hid
    have hle := t.id_le_used r hr
    rw [hid, Int64.toInt_ofNat_of_lt hlast] at hle
    omega
  rw [hused, ← Int64.toUInt64_ofNat']
  have hmem : ∀ r, r ∈ t'.rows ↔
      r = ⟨Int64.ofNat (t.used + 1), name, description, mark⟩ ∨ r ∈ t.rows := by
    intro r
    rw [hrows, List.mem_append, List.mem_singleton, or_comm]
  exact ofTable_of_mem_iff hmem hfree

theorem ofTable_insert (t : Table) (r : Row) :
    (ofTable (t.insert r) = ofTable t ∧ (r.mark ≠ 0 ∨ r.id.toInt ≤ t.used)) ∨
      (r.mark = 0 ∧ ofTable t r.id.toUInt64 = none ∧
        ofTable (t.insert r) = (ofTable t).set r.id.toUInt64 (some r.draft)) := by
  by_cases hfree : ∀ x ∈ t.rows, x.id ≠ r.id
  · have hrows : ∀ x, x ∈ (t.insert r).rows ↔ x = r ∨ x ∈ t.rows := by
      intro x
      rw [Table.insert, dif_pos hfree]
      exact Table.mem_place
    obtain ⟨hnone, heq⟩ := ofTable_of_mem_iff hrows hfree
    by_cases hmark : r.mark = 0
    · rw [if_pos hmark] at heq
      exact Or.inr ⟨hmark, hnone, heq⟩
    · rw [if_neg hmark] at heq
      exact Or.inl ⟨heq, Or.inl hmark⟩
  · rw [Table.insert, dif_neg hfree]
    refine Or.inl ⟨rfl, Or.inr ?_⟩
    simp only [ne_eq, not_forall, Decidable.not_not] at hfree
    obtain ⟨x, hx, hid⟩ := hfree
    rw [← hid]
    exact t.id_le_used x hx

theorem used_insert (t : Table) (r : Row) : (t.insert r).used = max t.used r.id.toInt.toNat := by
  by_cases hfree : ∀ x ∈ t.rows, x.id ≠ r.id
  · rw [Table.insert, dif_pos hfree]
  · rw [Table.insert, dif_neg hfree]
    simp only [ne_eq, not_forall, Decidable.not_not] at hfree
    obtain ⟨x, hx, hid⟩ := hfree
    have hle := t.id_le_used x hx
    rw [hid] at hle
    omega

/-- Changing the live row of an identifier replaces its entry. -/
theorem ofTable_update {t : Table} {id : UInt64} {f edit : Row → Row}
    (hedit : ∀ r, (edit r).id = r.id)
    (heq : ∀ r, edit r = if r.id = id.toInt64 && r.isLive then f r else r)
    {old : Row} (hold : t.find? id.toInt64 = some old) :
    ofTable (t.update edit hedit) =
      (ofTable t).set id (if (f old).mark = 0 then some (f old).draft else none) := by
  obtain ⟨hmem, hid, hmark⟩ := Table.find?_eq_some_iff.1 hold
  refine ext fun other x => ?_
  have hsplit : ofTable (t.update edit hedit) other = some x ↔
      ∃ r ∈ t.rows, r.id.toUInt64 = other ∧ (edit r).mark = 0 ∧ (edit r).draft = x := by
    rw [ofTable_eq_some_iff, Table.update]
    simp only [List.mem_map, exists_exists_and_eq_and, hedit]
  rw [hsplit]
  by_cases hother : other = id
  · have hrow : edit old = f old := by
      rw [heq, if_pos]
      rw [Bool.and_eq_true, decide_eq_true_eq, Row.isLive_iff]
      exact ⟨Row.toUInt64_eq_iff.1 hid, hmark⟩
    rw [hother, set_self]
    constructor
    · rintro ⟨r, hr, hrid, hrmark, hdraft⟩
      have hsame : r = old := by
        refine t.row_unique hr hmem ?_
        rw [Row.toUInt64_eq_iff.1 hrid, Row.toUInt64_eq_iff.1 hid]
      rw [hsame, hrow] at hrmark hdraft
      rw [if_pos hrmark, hdraft]
    · intro h
      by_cases hfmark : (f old).mark = 0
      · rw [if_pos hfmark, Option.some_inj] at h
        exact ⟨old, hmem, hid, by rw [hrow, hfmark], by rw [hrow, h]⟩
      · rw [if_neg hfmark] at h
        cases h
  · have hrow : ∀ r : Row, r.id.toUInt64 = other → edit r = r := by
      intro r hr
      rw [heq, if_neg]
      rw [Bool.and_eq_true, decide_eq_true_eq, ← Row.toUInt64_eq_iff]
      exact fun h => hother (hr.symm.trans h.1)
    rw [set_of_ne _ hother, ofTable_eq_some_iff]
    constructor
    · rintro ⟨r, hr, hrid, hrest⟩
      rw [hrow r hrid] at hrest
      exact ⟨r, hr, hrid, hrest⟩
    · rintro ⟨r, hr, hrid, hrest⟩
      rw [← hrow r hrid] at hrest
      exact ⟨r, hr, hrid, hrest⟩

end Directory

namespace Store

/-! What the operations on a store do to its directory, and what they answer. -/

def directory (s : Store) : Directory :=
  .ofTable s.table

def limits (s : Store) : Directory.Limits :=
  ⟨s.rejected, s.table.used⟩

theorem assign_limits (s : Store) (t : Team) :
    s.limits.assign t = (s.insert t).map fun p => (p.1, p.2.limits) := by
  unfold Directory.Limits.assign insert limits
  by_cases hname : t.name ∈ s.rejected
  · simp only [hname, if_true]
    rfl
  · simp only [hname, if_false]
    cases happend : s.table.append? t.name t.description (if t.deleted then 1 else 0) with
    | none =>
      rw [if_neg (Nat.not_lt.2 (Nat.le_of_eq (Table.append?_eq_none_iff.1 happend).symm))]
      rfl
    | some table =>
      have hroom : s.table.used < lastId := by
        have hle := table.used_le
        rw [(Table.rows_append? happend).2] at hle
        exact hle
      rw [if_pos hroom, ← (Table.rows_append? happend).2]
      rfl

theorem assignAll_limits (s : Store) (ts : List Team) :
    s.limits.assignAll ts = (s.insertAll ts).map fun p => (p.1, p.2.limits) := by
  induction ts generalizing s with
  | nil => rfl
  | cons t ts ih =>
    rw [Directory.Limits.assignAll, assign_limits, insertAll]
    cases s.insert t with
    | error refusal => rfl
    | ok first =>
      obtain ⟨id, s₁⟩ := first
      have hrest := ih s₁
      dsimp only [Except.map] at hrest ⊢
      rw [hrest]
      cases s₁.insertAll ts with
      | error refusal => rfl
      | ok rest => rfl

theorem get_eq (s : Store) (id : UInt64) : s.get id = s.directory.get id := by
  rw [get, Directory.get, directory, Directory.ofTable_find?]
  cases hfind : s.table.find? id.toInt64 with
  | none => rfl
  | some r =>
    obtain ⟨-, hid, hmark⟩ := Table.find?_eq_some_iff.1 hfind
    have hteam : r.team = ⟨id, r.name, r.description, false⟩ := by
      rw [Row.team_of_mark hmark, hid]
    exact congrArg Except.ok hteam

/-- A change of the live row is a change of the entry, provided that `f` turns every live row into
one with this entry; where there is none, nothing changes. -/
theorem change_cases (s : Store) (id : UInt64) {f : Row → Row} (hf : ∀ r, (f r).id = r.id)
    {entry : Option Draft}
    (hentry : ∀ r, r.mark = 0 → (if (f r).mark = 0 then some (f r).draft else none) = entry) :
    (∃ s', s.change id f hf = (.ok (), s') ∧ s'.limits = s.limits ∧
      s.directory.change id entry = (.ok (), s'.directory)) ∨
    (∃ e, s.change id f hf = (.error e, s) ∧
      s.directory.change id entry = (.error e, s.directory)) := by
  have hdirectory : s.directory id = (s.table.find? id.toInt64).map Row.draft :=
    Directory.ofTable_find? s.table id
  unfold change Directory.change
  rw [hdirectory]
  cases hfind : s.table.find? id.toInt64 with
  | none => exact Or.inr ⟨_, rfl, rfl⟩
  | some r =>
    have hmark := (Table.find?_eq_some_iff.1 hfind).2.2
    have hedit : ∀ x : Row, (if x.id = id.toInt64 && x.isLive then f x else x).id = x.id := by
      intro x
      split
      · exact hf x
      · rfl
    have hset := Directory.ofTable_update hedit (fun _ => rfl) hfind
    rw [hentry r hmark] at hset
    exact Or.inl ⟨_, rfl, rfl, congrArg (Prod.mk _) hset.symm⟩

theorem update_cases (s : Store) (t : Team) :
    (∃ s', s.update t = (.ok (), s') ∧ s'.limits = s.limits ∧
      s.directory.change t.id (some t.draft) = (.ok (), s'.directory)) ∨
    (∃ e, s.update t = (.error e, s) ∧
      s.directory.change t.id (some t.draft) = (.error e, s.directory)) :=
  s.change_cases t.id _ fun _ hmark => if_pos hmark

theorem remove_cases (s : Store) (id : UInt64) :
    (∃ s', s.remove id = (.ok (), s') ∧ s'.limits = s.limits ∧
      s.directory.change id none = (.ok (), s'.directory)) ∨
    (∃ e, s.remove id = (.error e, s) ∧
      s.directory.change id none = (.error e, s.directory)) :=
  s.change_cases id _ fun _ _ => rfl

theorem insert_ok {s s' : Store} {t : Team} {id : UInt64} (h : s.insert t = .ok (id, s')) :
    s.directory id = none ∧ s'.directory = s.directory.enter id t := by
  unfold insert at h
  split at h
  · cases h
  · cases happend : s.table.append? t.name t.description (if t.deleted then 1 else 0) with
    | none =>
      rw [happend] at h
      cases h
    | some table =>
      rw [happend] at h
      cases h
      obtain ⟨hfree, heq⟩ := Directory.ofTable_append? happend
      refine ⟨hfree, heq.trans ?_⟩
      rw [Directory.enter]
      cases t.deleted with
      | true => rfl
      | false => rfl

theorem insertAll_ok {s s' : Store} {ts : List Team} {ids : List UInt64}
    (h : s.insertAll ts = .ok (ids, s')) : Directory.Enters s.directory ids ts s'.directory := by
  induction ts generalizing s ids with
  | nil =>
    cases h
    exact .nil _
  | cons t ts ih =>
    rw [insertAll] at h
    cases hone : s.insert t with
    | error refusal =>
      rw [hone] at h
      cases h
    | ok first =>
      obtain ⟨id, s₁⟩ := first
      cases hrest : s₁.insertAll ts with
      | error refusal =>
        simp only [hone, hrest] at h
        cases h
      | ok rest =>
        obtain ⟨ids₁, s₂⟩ := rest
        simp only [hone, hrest] at h
        cases h
        obtain ⟨hfree, hentered⟩ := insert_ok hone
        have hall := ih hrest
        rw [hentered] at hall
        exact .cons hfree hall

/-- Adding teams enters all of them, or is refused and changes nothing. -/
theorem addTeams_cases (s : Store) (ts : List Team) :
    (∃ ids s', s.addTeams ts = (.ok ids, s') ∧ s.limits.assignAll ts = .ok (ids, s'.limits) ∧
      Directory.Enters s.directory ids ts s'.directory) ∨
    (∃ refusal, s.addTeams ts = (.error (.refused refusal), s) ∧
      s.limits.assignAll ts = .error refusal) := by
  rw [addTeams, assignAll_limits]
  cases h : s.insertAll ts with
  | error refusal => exact Or.inr ⟨refusal, rfl, rfl⟩
  | ok added =>
    obtain ⟨ids, s'⟩ := added
    exact Or.inl ⟨ids, s', rfl, rfl, insertAll_ok h⟩

/-- Adding a team enters it, or is refused and changes nothing. -/
theorem create_cases (s : Store) (t : Team) :
    (∃ id s', s.create t = (.ok id, s') ∧ s.limits.assignAll [t] = .ok ([id], s'.limits) ∧
      Directory.Enters s.directory [id] [t] s'.directory) ∨
    (∃ refusal, s.create t = (.error (.refused refusal), s) ∧
      s.limits.assignAll [t] = .error refusal) := by
  rw [create, assignAll_limits, insertAll]
  cases h : s.insert t with
  | error refusal => exact Or.inr ⟨refusal, rfl, rfl⟩
  | ok added =>
    obtain ⟨id, s'⟩ := added
    obtain ⟨hfree, hentered⟩ := insert_ok h
    refine Or.inl ⟨id, s', rfl, rfl, .cons hfree ?_⟩
    rw [hentered]
    exact .nil _

/-- A row that is put into the table gets an entry if it is live and its identifier is free. It is
passed over only if its name is rejected, if it is not live, or if its identifier may have been
used. -/
theorem insertRow_cases (s : Store) (r : Row) :
    ((s.insertRow r).directory = s.directory ∧
        (r.name ∈ s.rejected ∨ r.mark ≠ 0 ∨ r.id.toInt ≤ s.table.used)) ∨
      (r.name ∉ s.rejected ∧ r.mark = 0 ∧ s.directory r.id.toUInt64 = none ∧
        (s.insertRow r).directory = s.directory.set r.id.toUInt64 (some r.draft)) := by
  rw [insertRow]
  by_cases hrejected : r.name ∈ s.rejected
  · rw [if_pos hrejected]
    exact Or.inl ⟨rfl, Or.inl hrejected⟩
  · rw [if_neg hrejected]
    obtain ⟨hsame, hwhy⟩ | hentered := Directory.ofTable_insert s.table r
    · exact Or.inl ⟨hsame, Or.inr hwhy⟩
    · exact Or.inr ⟨hrejected, hentered⟩

theorem limits_insertRow (s : Store) (r : Row) :
    (s.insertRow r).limits = s.limits.afterRow r := by
  rw [insertRow, Directory.Limits.afterRow, limits, limits]
  split
  · rfl
  · rw [Directory.used_insert]

end Store

end Roster
