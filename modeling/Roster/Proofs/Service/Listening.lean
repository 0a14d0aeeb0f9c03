import Roster.Proofs.Service.Announcement

/-!
Who listens makes no difference to an operation: it yields the same and stores the same. One who
begins to listen while a bus works has caught up with it, and leaves it working.
-/

namespace Roster

namespace Service

variable {α β : Type}

structure Call.Agrees (call call' : Call α) : Prop where
  result : call'.result = call.result
  store : call'.service.store = call.service.store

theorem Call.Agrees.map {call call' : Call α} (h : call.Agrees call') (f : α → β) :
    (call.map f).Agrees (call'.map f) :=
  ⟨congrArg (Except.map f) h.result, h.store⟩

theorem agrees_answer (s : Service) (bus : Bus) (r : Except StoreError α) :
    (s.answer r).Agrees ({ s with bus }.answer r) := by
  cases r <;> exact ⟨rfl, rfl⟩

theorem agrees_direct (s : Service) (bus : Bus) (f : α → Value) (r : Except StoreError α × Store) :
    (s.direct f r).Agrees ({ s with bus }.direct f r) := by
  obtain ⟨e | a, store⟩ := r <;> exact ⟨rfl, rfl⟩

theorem agrees_create (s : Service) (bus : Bus) (d : Draft) :
    (s.create d).Agrees ({ s with bus }.create d) := by
  simp only [create]
  cases d.team.flaw? with
  | some flaw => exact ⟨rfl, rfl⟩
  | none =>
    obtain ⟨e | id, store⟩ := s.store.create d.team <;> exact ⟨rfl, rfl⟩

theorem agrees_createBatches (s : Service) (bus : Bus) (count batch : Nat) (created : List UInt64)
    (tss : List (List Team)) :
    (s.createBatches count batch created tss).Agrees
      ({ s with bus }.createBatches count batch created tss) := by
  induction tss generalizing s batch created with
  | nil => exact ⟨rfl, rfl⟩
  | cons ts tss ih =>
    simp only [createBatches]
    obtain ⟨e | ids, store⟩ := s.store.addTeams ts
    · exact ⟨rfl, rfl⟩
    · have hrest := ih { s with store } (batch + 1) (created ++ ids)
      exact ⟨hrest.result, hrest.store⟩

theorem agrees_createAll (s : Service) (bus : Bus) (ds : List Draft) :
    (s.createAll ds).Agrees ({ s with bus }.createAll ds) := by
  simp only [createAll]
  cases flawAmong? ds with
  | some flaw => exact ⟨rfl, rfl⟩
  | none => exact s.agrees_createBatches ..

theorem agrees_search (s : Service) (bus : Bus) (query : String) (mode : Search.Mode) :
    (s.search query mode).Agrees ({ s with bus }.search query mode) := by
  simp only [search]
  cases Text.isEmpty query with
  | true => exact ⟨rfl, rfl⟩
  | false => exact s.agrees_answer ..

theorem agrees_update (s : Service) (bus : Bus) (id : UInt64) (d : Draft) :
    (s.update id d).Agrees ({ s with bus }.update id d) := by
  simp only [update]
  cases Team.flaw? { d.team with id } with
  | some flaw => exact ⟨rfl, rfl⟩
  | none =>
    obtain ⟨e | _, store⟩ := s.store.update { d.team with id } <;> exact ⟨rfl, rfl⟩

theorem agrees_remove (s : Service) (bus : Bus) (id : UInt64) :
    (s.remove id).Agrees ({ s with bus }.remove id) := by
  simp only [remove]
  obtain ⟨e | _, store⟩ := s.store.remove id <;> exact ⟨rfl, rfl⟩

/-- What an operation yields and stores does not depend on who listens. -/
theorem agrees_perform (s : Service) (bus : Bus) (op : Op) :
    (s.perform op).Agrees ({ s with bus }.perform op) := by
  cases op with
  | create d => exact (s.agrees_create bus d).map _
  | createAll ds => exact (s.agrees_createAll bus ds).map _
  | get id => exact (s.agrees_answer bus _).map _
  | list limit offset => exact (s.agrees_answer bus _).map _
  | search query mode => exact (s.agrees_search bus query mode).map _
  | update id d => exact (s.agrees_update bus id d).map _
  | remove id => exact (s.agrees_remove bus id).map _
  | storeCreate t => exact s.agrees_direct ..
  | storeAdd ts => exact s.agrees_direct ..
  | storeSearch query mode => exact (s.agrees_answer bus _).map _
  | storeUpdate t => exact s.agrees_direct ..
  | reject _ | unreject | insertRow _ => exact ⟨rfl, rfl⟩
  | reopen =>
    rw [perform_reopen, perform_reopen]
    exact ⟨rfl, rfl⟩

end Service

namespace Bus

/-- Listeners can be reached: events can be sent, and one at least is remembered. -/
structure IsWorking (bus : Bus) : Prop where
  isOpen : bus.isOpen = true
  reach_pos : 0 < bus.reach

theorem isWorking_of_capacity {capacity : Nat} {bus : Bus}
    (h : ofCapacity? capacity = some bus) : bus.IsWorking := by
  unfold ofCapacity? at h
  split at h
  · cases h
  · cases h
    exact ⟨rfl, roundUp_pos capacity⟩

theorem IsWorking.caughtUp_subscribe {bus : Bus} (h : bus.IsWorking) :
    bus.subscribe.CaughtUp bus.listeners.length where
  isOpen := h.isOpen
  nothing := by
    rw [subscribe, h.isOpen]
    exact List.getElem?_concat_length
  reach_pos := h.reach_pos

theorem CaughtUp.isWorking_unsubscribe {bus : Bus} {i : Nat} (h : bus.CaughtUp i) :
    (bus.unsubscribe i).IsWorking :=
  ⟨h.isOpen, h.reach_pos⟩

end Bus

end Roster
