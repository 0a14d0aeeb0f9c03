import Roster.Proofs.Store.Database
import Roster.Proofs.Store.Identifiers
import Roster.Service.Op

/-!
What an operation on the service does, said once for all that is derived from it: it fails before
anything is changed, it only reads, or the store makes one change, which is announced or not. Teams
that are created together are added batch by batch: all batches are added, or those before the first
one that the store refuses.
-/

namespace Roster

/-- Batches are added one after the other, all of them. -/
inductive Store.AddsAll : Store → List (List Team) → List UInt64 → Store → Prop
  | nil (s : Store) : AddsAll s [] [] s
  | cons {s s' s'' : Store} {ts : List Team} {tss : List (List Team)} {ids ids' : List UInt64}
      (h : s.addTeams ts = (.ok ids, s')) (hs : AddsAll s' tss ids' s'') :
      AddsAll s (ts :: tss) (ids ++ ids') s''

theorem Store.AddsAll.inserts {s s' : Store} {tss : List (List Team)} {ids : List UInt64}
    (h : s.AddsAll tss ids s') : s.Inserts tss.flatten ids s' := by
  induction h with
  | nil => exact .nil _
  | cons hadd _ ih => exact (Store.inserts_of_addTeams hadd).append ih

namespace Service

theorem Call.ok_of_map {α β : Type} {call : Call α} {f : α → β} {b : β}
    (h : (call.map f).result = .ok b) : ∃ a, call.result = .ok a ∧ b = f a := by
  rw [Call.map] at h
  cases hresult : call.result with
  | error e =>
    rw [hresult] at h
    cases h
  | ok a =>
    rw [hresult] at h
    cases h
    exact ⟨a, rfl, rfl⟩

/-- What becomes of batches: all are added, or the store has refused the first one after those that
were added. -/
def Batched (s : Service) (created : List UInt64) (tss : List (List Team))
    (call : Call (List UInt64)) : Prop :=
  (∃ ids store, s.store.AddsAll tss ids store ∧ call.result = .ok (created ++ ids) ∧
    call.service = { s with store }) ∨
  ∃ done ts rest ids store e, tss = done ++ ts :: rest ∧ s.store.AddsAll done ids store ∧
    store.addTeams ts = (.error e, store) ∧
    call.result = .error (.incomplete (created ++ ids) e) ∧ call.service = { s with store }

theorem createBatches_batched (s : Service) (count batch : Nat) (created : List UInt64)
    (tss : List (List Team)) :
    s.Batched created tss (s.createBatches count batch created tss) := by
  induction tss generalizing s batch created with
  | nil => exact .inl ⟨[], s.store, .nil _, by rw [createBatches, List.append_nil], rfl⟩
  | cons ts tss ih =>
    obtain ⟨ids, store, hadd, -⟩ | ⟨e, hrefused⟩ := s.store.addTeams_inserts ts
    · simp only [createBatches, hadd, Batched]
      obtain ⟨more, last, hall, hresult, hservice⟩ |
        ⟨done, us, rest, more, last, e, rfl, hall, hrefused, hresult, hservice⟩ :=
        ih { s with store } (batch + 1) (created ++ ids)
      · refine .inl ⟨ids ++ more, last, .cons hadd hall, ?_, hservice⟩
        rw [hresult, List.append_assoc]
      · refine .inr ⟨ts :: done, us, rest, ids ++ more, last, e, rfl, .cons hadd hall, hrefused,
          ?_, hservice⟩
        rw [hresult, List.append_assoc]
    · simp only [createBatches, hrefused]
      exact .inr ⟨[], ts, tss, [], s.store, e, rfl, .nil _, hrefused, by rw [List.append_nil], rfl⟩

def batches (s : Service) (ds : List Draft) : List (List Team) :=
  chunks s.batchSize (ds.map Draft.team)

theorem createAll_batched (s : Service) {ds : List Draft} (h : flawAmong? ds = none) :
    s.Batched [] (s.batches ds) (s.createAll ds) := by
  simp only [createAll, h]
  exact s.createBatches_batched ..

/-- What an operation does: the call that it is. -/
inductive Does (s : Service) : Op → Call Value → Prop
  | invalid {op : Op} (flaw : Invalid) : Does s op (s.fail (.invalid flaw))
  | refused {op : Op} (e : StoreError) : Does s op (s.fail (.storage e))
  | get {id : UInt64} {t : Team} (h : s.store.get id = .ok t) :
      Does s (.get id) ⟨.ok (.team t), [], s⟩
  | list (limit offset : UInt64) :
      Does s (.list limit offset)
        ⟨.ok (.page (s.store.list limit offset).1 (s.store.list limit offset).2), [], s⟩
  | search {query : String} {mode : Search.Mode} {ts : List Team}
      (h : s.store.search query mode = .ok ts) :
      Does s (.search query mode) ⟨.ok (.teams ts), [], s⟩
  | storeSearch {query : String} {mode : Search.Mode} {ts : List Team}
      (h : s.store.search query mode = .ok ts) :
      Does s (.storeSearch query mode) ⟨.ok (.teams ts), [], s⟩
  | create {d : Draft} {id : UInt64} {store : Store} (hflaw : d.team.flaw? = none)
      (h : s.store.create d.team = (.ok id, store)) :
      Does s (.create d)
        (s.announce store (.creating d.name) ⟨id, .created⟩ (.created d.name id) (.id id))
  | update {id : UInt64} {d : Draft} {store : Store} (hflaw : d.team.flaw? = none)
      (h : s.store.update { d.team with id } = (.ok (), store)) :
      Does s (.update id d)
        (s.announce store (.updating id) ⟨id, .updated⟩ (.updated id) .nothing)
  | remove {id : UInt64} {store : Store} (h : s.store.remove id = (.ok (), store)) :
      Does s (.remove id)
        (s.announce store (.removing id) ⟨id, .removed⟩ (.removed id) .nothing)
  | createAll {ds : List Draft} {call : Call (List UInt64)} (hflaw : flawAmong? ds = none)
      (h : s.Batched [] (s.batches ds) call) : Does s (.createAll ds) (call.map .ids)
  | storeCreate {t : Team} {id : UInt64} {store : Store} (h : s.store.create t = (.ok id, store)) :
      Does s (.storeCreate t) ⟨.ok (.id id), [], { s with store }⟩
  | storeAdd {ts : List Team} {ids : List UInt64} {store : Store}
      (h : s.store.addTeams ts = (.ok ids, store)) :
      Does s (.storeAdd ts) ⟨.ok (.ids ids), [], { s with store }⟩
  | storeUpdate {t : Team} {store : Store} (h : s.store.update t = (.ok (), store)) :
      Does s (.storeUpdate t) ⟨.ok .nothing, [], { s with store }⟩
  | reject (name : String) :
      Does s (.reject name)
        { s with store := { s.store with rejected := name :: s.store.rejected } }.silent
  | unreject : Does s .unreject { s with store := { s.store with rejected := [] } }.silent
  | insertRow (r : Row) : Does s (.insertRow r) { s with store := s.store.insertRow r }.silent
  | reopen : Does s .reopen s.silent

theorem reopen_eq (s : Service) : s.reopen = .ok s := by
  have hbatch : max s.batchSize 1 = s.batchSize := Nat.max_eq_left s.batchSize_pos
  simp only [reopen, Database.openStore_toDatabase, Except.map, ofStore, hbatch]

theorem perform_reopen (s : Service) : s.perform .reopen = s.silent := by
  simp only [perform, reopen_eq]

theorem does_search (s : Service) (query : String) (mode : Search.Mode) :
    s.Does (.search query mode) (s.perform (.search query mode)) := by
  simp only [perform, search]
  split
  · exact .invalid _
  · cases h : s.store.search query mode with
    | error e => exact .refused e
    | ok ts => exact .search h

theorem does_create (s : Service) (d : Draft) : s.Does (.create d) (s.perform (.create d)) := by
  simp only [perform, create]
  cases hflaw : d.team.flaw? with
  | some flaw => exact .invalid flaw
  | none =>
    rcases h : s.store.create d.team with ⟨e | id, store⟩
    · exact .refused e
    · exact .create hflaw h

theorem does_update (s : Service) (id : UInt64) (d : Draft) :
    s.Does (.update id d) (s.perform (.update id d)) := by
  have hsame : Team.flaw? { d.team with id } = d.team.flaw? := rfl
  simp only [perform, update, hsame]
  cases hflaw : d.team.flaw? with
  | some flaw => exact .invalid flaw
  | none =>
    rcases h : s.store.update { d.team with id } with ⟨e | _, store⟩
    · exact .refused e
    · exact .update hflaw h

theorem does_createAll (s : Service) (ds : List Draft) :
    s.Does (.createAll ds) (s.perform (.createAll ds)) := by
  rw [perform]
  cases hflaw : flawAmong? ds with
  | some flaw =>
    simp only [createAll, hflaw]
    exact .invalid flaw
  | none => exact .createAll hflaw (s.createAll_batched hflaw)

theorem perform_does (s : Service) (op : Op) : s.Does op (s.perform op) := by
  cases op with
  | create d => exact s.does_create d
  | createAll ds => exact s.does_createAll ds
  | get id =>
    simp only [perform, get]
    cases h : s.store.get id with
    | error e => exact .refused e
    | ok t => exact .get h
  | list limit offset => exact .list limit offset
  | search query mode => exact s.does_search query mode
  | update id d => exact s.does_update id d
  | remove id =>
    simp only [perform, remove]
    rcases h : s.store.remove id with ⟨e | _, store⟩
    · exact .refused e
    · exact .remove h
  | storeCreate t =>
    simp only [perform]
    rcases h : s.store.create t with ⟨e | id, store⟩
    · exact .refused e
    · exact .storeCreate h
  | storeAdd ts =>
    simp only [perform]
    rcases h : s.store.addTeams ts with ⟨e | ids, store⟩
    · exact .refused e
    · exact .storeAdd h
  | storeSearch query mode =>
    simp only [perform]
    cases h : s.store.search query mode with
    | error e => exact .refused e
    | ok ts => exact .storeSearch h
  | storeUpdate t =>
    simp only [perform]
    rcases h : s.store.update t with ⟨e | _, store⟩
    · exact .refused e
    · exact .storeUpdate h
  | reject name => exact .reject name
  | unreject => exact .unreject
  | insertRow r => exact .insertRow r
  | reopen =>
    rw [perform_reopen]
    exact .reopen

end Service

end Roster
