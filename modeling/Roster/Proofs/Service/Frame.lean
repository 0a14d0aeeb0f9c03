import Roster.Proofs.Service.Calls
import Roster.Proofs.Store.Frame

/-!
What an operation leaves alone. Whatever is performed, no row is lost, and a deleted row stays as it
is for ever: nothing is found under its identifier any more.
-/

namespace Roster.Service

def Op.inserts : Op → Bool
  | .create _ | .createAll _ | .storeCreate _ | .storeAdd _ | .insertRow _ => true
  | _ => false

/-- What an operation that yields a result does to the rows of a table: one that has updated or
deleted a team has changed the row of the team, one that inserts rows adds some or none, and any
other one leaves all rows as they are. -/
def Frame (t : Table) (op : Op) (result : Except Error Value) (t' : Table) : Prop :=
  match op, result with
  | .update id d, .ok _ => t.Edits id.toInt64 (Row.renamed d) t'
  | .storeUpdate team, .ok _ =>
    t.Edits team.id.toInt64 (Row.renamed ⟨team.name, team.description⟩) t'
  | .remove id, .ok _ => t.Edits id.toInt64 Row.marked t'
  | op, _ => if op.inserts then t.Extends t' else t'.rows = t.rows

/-- No operation finds a live team under an identifier. A draft that is not acceptable is refused
before anything is looked for. -/
structure Misses (s : Service) (id : UInt64) : Prop where
  get : (s.perform (.get id)).result = .error (.storage (.notFound id))
  remove : (s.perform (.remove id)).result = .error (.storage (.notFound id))
  update : ∀ d : Draft, (s.perform (.update id d)).result =
    match d.team.flaw? with
    | some flaw => .error (.invalid flaw)
    | none => .error (.storage (.notFound id))
  storeUpdate : ∀ t : Team, t.id = id →
    (s.perform (.storeUpdate t)).result = .error (.storage (.notFound id))
  storeGet : s.store.get id = .error (.notFound id)
  storeRemove : (s.store.remove id).1 = .error (.notFound id)

theorem frame_error (t : Table) (op : Op) (e : Error) : Frame t op (.error e) t := by
  have hextends : t.Extends t := Table.extends_of_sublist (List.Sublist.refl _)
  cases op <;> first | exact hextends | rfl

theorem Batched.extends {s : Service} {created : List UInt64} {tss : List (List Team)}
    {call : Call (List UInt64)} (h : s.Batched created tss call) :
    s.store.table.Extends call.service.store.table := by
  obtain ⟨ids, store, hall, -, hservice⟩ |
    ⟨done, ts, rest, ids, store, e, -, hall, -, -, hservice⟩ := h
  · rw [hservice]
    exact hall.inserts.extends
  · rw [hservice]
    exact hall.inserts.extends

theorem frame_createAll {t t' : Table} (ds : List Draft) (result : Except Error Value)
    (h : t.Extends t') : Frame t (.createAll ds) result t' := by
  cases result with
  | error e => exact h
  | ok a => exact h

variable {s : Service} {op : Op} {call : Call Value}

theorem Does.frame (h : s.Does op call) :
    Frame s.store.table op call.result call.service.store.table := by
  cases h with
  | invalid flaw => exact frame_error ..
  | refused e => exact frame_error ..
  | create hflaw h => exact (Store.inserts_of_create h).extends
  | update hflaw h => exact Store.update_edits h
  | remove h => exact Store.remove_edits h
  | createAll hflaw h => exact frame_createAll _ _ h.extends
  | storeCreate h => exact (Store.inserts_of_create h).extends
  | storeAdd h => exact (Store.inserts_of_addTeams h).extends
  | storeUpdate h => exact Store.update_edits h
  | insertRow r => exact s.store.extends_insertRow r
  | _ => rfl

theorem Frame.keeps {t t' : Table} {result : Except Error Value} (h : Frame t op result t') :
    t.Keeps t' := by
  unfold Frame at h
  split at h
  · exact h.keeps fun _ => rfl
  · exact h.keeps fun _ => rfl
  · exact h.keeps fun _ => rfl
  · split at h
    · exact h.keeps
    · exact .of_eq h

theorem performAll_keeps (s : Service) (ops : List Op) :
    s.store.table.Keeps (s.performAll ops).2.store.table := by
  induction ops generalizing s with
  | nil => exact .refl _
  | cons op ops ih => exact (s.perform_does op).frame.keeps.trans (ih (s.perform op).service)

theorem misses_of_find?_eq_none {id : UInt64} (h : s.store.table.find? id.toInt64 = none) :
    s.Misses id := by
  refine ⟨?_, ?_, ?_, ?_, Store.get_of_find?_eq_none h, ?_⟩
  · simp only [perform, get, Store.get_of_find?_eq_none h]
    rfl
  · simp only [perform, remove, Store.remove, Store.change_of_find?_eq_none _ h]
    rfl
  · intro d
    have hsame : Team.flaw? { d.team with id } = d.team.flaw? := rfl
    simp only [perform, update, hsame]
    cases d.team.flaw? with
    | some flaw => rfl
    | none =>
      simp only [Store.update, Store.change_of_find?_eq_none _ h]
      rfl
  · rintro t rfl
    simp only [perform, Store.update, Store.change_of_find?_eq_none _ h]
    rfl
  · rw [Store.remove, Store.change_of_find?_eq_none _ h]

/-- Whatever is performed on whatever table, only the row of a team that is updated or deleted is
changed, only in its name and description or in its mark, and only while it is live; rows are
otherwise only added, under identifiers that were free. So no row is ever lost, no identifier ever
changes, and a deleted row is for ever the same, and no operation finds a team under its
identifier. -/
theorem rows_framed (s : Service) :
    (∀ op, Frame s.store.table op (s.perform op).result (s.perform op).service.store.table) ∧
    (∀ id store, s.store.remove id = (.ok (), store) →
      s.store.table.Edits id.toInt64 Row.marked store.table) ∧
    ∀ ops, let s' := (s.performAll ops).2
      s.store.table.Keeps s'.store.table ∧
      ∀ r ∈ s.store.table.rows, r.mark ≠ 0 → r ∈ s'.store.table.rows ∧ s'.Misses r.id.toUInt64 := by
  refine ⟨fun op => (s.perform_does op).frame, fun id store => Store.remove_edits, ?_⟩
  intro ops s'
  have hkeeps : s.store.table.Keeps s'.store.table := s.performAll_keeps ops
  refine ⟨hkeeps, ?_⟩
  intro r hr hmark
  have hr' := hkeeps.deleted r hr hmark
  exact ⟨hr', misses_of_find?_eq_none (Table.find?_of_deleted hr' hmark)⟩

def widowed : Service :=
  ((ofStore .empty { reach := 1 } 1).performAll
    [.create ⟨"a", ""⟩, .create ⟨"b", ""⟩, .remove 1]).2

theorem rows_widowed : widowed.store.table.rows = [⟨1, "a", "", 1⟩, ⟨2, "b", "", 0⟩] := by
  decide

/-- The deleted row outlives a row that is put in under its identifier, and an attempt to change
it. -/
theorem rows_framed_widowed :
    let s' := (widowed.performAll
      [.insertRow ⟨1, "c", "", 0⟩, .update 1 ⟨"c", ""⟩, .create ⟨"d", ""⟩]).2
    (widowed.store.remove 2).1 = .ok () ∧
    widowed.store.table.Edits 2 Row.marked (widowed.store.remove 2).2.table ∧
    ⟨1, "a", "", 1⟩ ∈ widowed.store.table.rows ∧ (1 : Int64) ≠ 0 ∧
    ⟨1, "a", "", 1⟩ ∈ s'.store.table.rows ∧ s'.Misses 1 := by
  have hrow : (⟨1, "a", "", 1⟩ : Row) ∈ widowed.store.table.rows := by
    rw [rows_widowed]
    exact List.mem_cons_self ..
  obtain ⟨-, hremove, hrun⟩ := rows_framed widowed
  obtain ⟨hkept, hmisses⟩ := (hrun
    [.insertRow ⟨1, "c", "", 0⟩, .update 1 ⟨"c", ""⟩, .create ⟨"d", ""⟩]).2 _ hrow (by decide)
  exact ⟨rfl, hremove 2 _ rfl, hrow, by decide, hkept, hmisses⟩

/-- An update of a deleted team to a draft without a name is not told that the team is missing, but
that the draft is not acceptable. -/
theorem update_deleted_nameless :
    ⟨1, "a", "", 1⟩ ∈ widowed.store.table.rows ∧
    (widowed.perform (.update 1 ⟨"", ""⟩)).result ≠ .error (.storage (.notFound 1)) := by
  have hresult : (widowed.perform (.update 1 ⟨"", ""⟩)).result = .error (.invalid .emptyName) := rfl
  rw [rows_widowed, hresult]
  exact ⟨List.mem_cons_self .., by simp⟩

end Roster.Service
