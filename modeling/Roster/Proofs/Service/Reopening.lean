import Roster.Proofs.Service.Calls

/-!
Opening a store again. Whatever a service knows of its teams is in the database, and opening that
leaves alone what is there, so a new service over it goes on as the old one would have.
-/

namespace Roster.Service

def others (ops : List Op) (results : List (Except Error Value)) : List (Except Error Value) :=
  ((ops.zip results).filter fun p => p.1 ≠ .reopen).map Prod.snd

/-- Reopening may be left out. -/
theorem performAll_filter (s : Service) (ops : List Op) :
    s.performAll (ops.filter (· ≠ .reopen)) =
      (others ops (s.performAll ops).1, (s.performAll ops).2) := by
  induction ops generalizing s with
  | nil => rfl
  | cons op ops ih =>
    by_cases hop : op = .reopen
    · subst hop
      have hservice : (s.perform .reopen).service = s := by rw [perform_reopen]; rfl
      simpa [performAll, others, hservice] using ih s
    · simpa [performAll, others, hop, Prod.ext_iff] using ih (s.perform op).service

theorem result_of_reopen {s : Service} {ops : List Op} {p : Op × Except Error Value}
    (hp : p ∈ ops.zip (s.performAll ops).1) (hop : p.1 = .reopen) : p.2 = .ok .nothing := by
  induction ops generalizing s with
  | nil => cases hp
  | cons op ops ih =>
    obtain rfl | hp := List.mem_cons.1 hp
    · change op = .reopen at hop
      rw [hop, perform_reopen]
      rfl
    · exact ih hp

/-- However often, and wherever, the database is opened again during a run, it is opened, and
nothing that the other operations yield is changed, the identifiers among it, nor anything that they
leave: the rows, the identifier that comes next, the rejected names. Opening any database sets up
its schema once, and keeps the table that is there. -/
theorem reopening_unnoticed (s : Service) (ops : List Op) :
    s.performAll (ops.filter (· ≠ .reopen)) =
      (others ops (s.performAll ops).1, (s.performAll ops).2) ∧
    (∀ p ∈ ops.zip (s.performAll ops).1, p.1 = .reopen → p.2 = .ok .nothing) ∧
    ∀ db : Database, ∃ store : Store, db.openStore .write = .ok store ∧
      store.rejected = db.rejected ∧
      store.table = (if .teams ∈ db.objects then db.table else .empty) ∧
      store.toDatabase.openStore .write = .ok store := by
  refine ⟨s.performAll_filter ops, ?_, ?_⟩
  · intro p hp hop
    exact result_of_reopen hp hop
  · intro db
    obtain ⟨store, hopen, hrejected, htable⟩ := db.openStore_write
    exact ⟨store, hopen, hrejected, htable, Database.openStore_toDatabase store .write⟩

end Roster.Service
