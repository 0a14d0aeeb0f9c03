import Roster.Proofs.Service.Calls
import Mathlib

/-!
Identifiers over a run of operations. Those that the operations return only ever go up, from one
operation to the next and within a batch; none is ever returned twice, and what a refused insertion
had taken was not returned before it.
-/

namespace Roster.Service

/-- The identifiers that an operation has returned for teams that it inserted, also when it failed
after some of them. -/
def issued : Except Error Value → List UInt64
  | .ok (.id n) => [n]
  | .ok (.ids ns) => ns
  | .error (.incomplete created _) => created
  | _ => []

theorem Batched.handsOut {s : Service} {tss : List (List Team)} {call : Call (List UInt64)}
    (h : s.Batched [] tss call) :
    s.store.HandsOut (issued (call.map .ids).result) call.service.store := by
  obtain ⟨ids, store, hall, hresult, hservice⟩ |
    ⟨done, ts, rest, ids, store, e, -, hall, -, hresult, hservice⟩ := h
  · rw [Call.map, hresult, hservice]
    exact hall.inserts.handsOut
  · rw [Call.map, hresult, hservice]
    exact hall.inserts.handsOut

theorem Does.handsOut {s : Service} {op : Op} {call : Call Value} (h : s.Does op call) :
    s.store.HandsOut (issued call.result) call.service.store := by
  have hsame : s.store.HandsOut [] s.store := .nil (Nat.le_refl _)
  cases h with
  | invalid flaw => exact hsame
  | refused e => exact hsame
  | get h => exact hsame
  | list limit offset => exact hsame
  | search h => exact hsame
  | storeSearch h => exact hsame
  | create hflaw h => exact (Store.inserts_of_create h).handsOut
  | update hflaw h => exact .nil (Nat.le_of_eq (Store.used_of_update h).symm)
  | remove h => exact .nil (Nat.le_of_eq (Store.used_of_remove h).symm)
  | createAll hflaw h => exact h.handsOut
  | storeCreate h => exact (Store.inserts_of_create h).handsOut
  | storeAdd h => exact (Store.inserts_of_addTeams h).handsOut
  | storeUpdate h => exact .nil (Nat.le_of_eq (Store.used_of_update h).symm)
  | reject name => exact .nil (Nat.le_refl _)
  | unreject => exact .nil (Nat.le_refl _)
  | insertRow r => exact .nil (s.store.used_insertRow r)
  | reopen => exact hsame

theorem performAll_handsOut (s : Service) (ops : List Op) :
    s.store.HandsOut ((s.performAll ops).1.flatMap issued) (s.performAll ops).2.store := by
  induction ops generalizing s with
  | nil => exact .nil (Nat.le_refl _)
  | cons op ops ih => exact (s.perform_does op).handsOut.trans (ih (s.perform op).service)

/-- Whatever was performed, the identifiers returned so far go up strictly and are positive; the
next ones are larger than those of all rows. A batch of teams gets consecutive identifiers in order,
or it is refused as a whole, as it must be when there are not enough identifiers left; also after
other batches of the same operation, nothing that it had taken has been returned. A team that is
created alone is a batch of one, and teams that are created together are batches up to the first
that is refused. -/
theorem ids_never_reused (s : Service) (ops : List Op) :
    let returned := (s.performAll ops).1.flatMap issued
    let s' := (s.performAll ops).2
    returned.Pairwise (· < ·) ∧
    (∀ id ∈ returned, 0 < id.toNat ∧ id.toNat ≤ lastId) ∧
    (∀ op, ∀ id ∈ issued (s'.perform op).result, ∀ r ∈ s'.store.table.rows,
      r.id.toInt < id.toNat) ∧
    (∀ (store : Store) (ts : List Team),
      ((∃ ids store', store.addTeams ts = (.ok ids, store') ∧ store.Inserts ts ids store' ∧
          store.taken ts = ids) ∨
        ∃ e, store.addTeams ts = (.error e, store)) ∧
      (lastId < store.table.used + ts.length → ∃ e, store.addTeams ts = (.error e, store))) ∧
    (∀ tss ids store, s'.store.AddsAll tss ids store →
      ∀ ts, ∀ id ∈ store.taken ts, id ∉ returned ++ ids) ∧
    (∀ (store : Store) (t : Team), store.addTeams [t] =
      ((store.create t).1.map fun id => [id], (store.create t).2)) ∧
    ∀ ds, flawAmong? ds = none → s'.Batched [] (s'.batches ds) (s'.createAll ds) := by
  intro returned s'
  have hall : s.store.HandsOut returned s'.store := s.performAll_handsOut ops
  refine ⟨hall.ordered, ?_, ?_, ?_, ?_, Store.addTeams_singleton, fun ds => s'.createAll_batched⟩
  · intro id hid
    have hfresh := hall.fresh id hid
    have hle := hall.le_used id hid
    have hlast := s'.store.table.used_le
    omega
  · intro op id hid r hr
    exact (s'.perform_does op).handsOut.lt_id hid hr
  · intro store ts
    refine ⟨?_, Store.addTeams_of_lastId_lt⟩
    obtain ⟨ids, store', hadd, hins⟩ | herror := store.addTeams_inserts ts
    · exact .inl ⟨ids, store', hadd, hins, Store.taken_of_addTeams hadd⟩
    · exact .inr herror
  · intro tss ids store hadds ts id htaken hid
    have hlt := Store.lt_of_mem_taken htaken
    have hle := (hall.trans hadds.inserts.handsOut).le_used id hid
    omega

def trialService : Service :=
  ofStore .empty { reach := 1 } 2

/-- Rows of any identifier come between; three teams are created when two identifiers are left. -/
def trialOps : List Op :=
  [.create ⟨"a", ""⟩, .insertRow ⟨-5, "low", "", 0⟩,
    .insertRow ⟨9223372036854775805, "high", "", 1⟩, .createAll [⟨"b", ""⟩, ⟨"c", ""⟩, ⟨"d", ""⟩]]

/-- The batch of two gets the last identifiers. The third team, for which none is left, is refused
like every batch after it. -/
theorem ids_trial :
    let returned := (trialService.performAll trialOps).1.flatMap issued
    let s' := (trialService.performAll trialOps).2
    returned = [1, 9223372036854775806, 9223372036854775807] ∧
    returned.Pairwise (· < ·) ∧
    lastId < s'.store.table.used + [({ name := "e" } : Team)].length ∧
    ∃ e, s'.store.addTeams [{ name := "e" }] = (.error e, s'.store) := by
  have hreturned : (trialService.performAll trialOps).1.flatMap issued =
      [1, 9223372036854775806, 9223372036854775807] := by cbv
  have hused : (trialService.performAll trialOps).2.store.table.used = lastId := by cbv
  have hfull : lastId < (trialService.performAll trialOps).2.store.table.used +
      [({ name := "e" } : Team)].length := by
    rw [hused]
    exact Nat.lt_succ_self _
  obtain ⟨hordered, -, -, hbatch, -⟩ := ids_never_reused trialService trialOps
  exact ⟨hreturned, hordered, hfull, (hbatch _ [{ name := "e" }]).2 hfull⟩

end Roster.Service
