import Roster.Proofs.Ingest.Accounting
import Roster.Proofs.Ingest.Pacing
import Roster.Proofs.Service.Creating

/-!
The three ways to write many teams: one after the other, in batches, and as a document that is
ingested. If nothing keeps a team from being stored, all three hand out the same identifiers and
leave the same table, however the teams are cut into batches and chunks on the way, and at whatever
pace the document comes in.
-/

namespace Roster

theorem Store.exists_create {s : Store} {t : Team} (hname : t.name ∉ s.rejected)
    (hroom : s.table.used < lastId) :
    ∃ id s', s.create t = (.ok id, s') ∧ s.Inserts [t] [id] s' ∧ s'.rejected = s.rejected := by
  obtain ⟨id, s', hone⟩ := exists_insert hname hroom
  refine ⟨id, s', ?_, insert_inserts hone, (rejected_of_insert hone).2⟩
  rw [create, hone, commit]

namespace Service

variable {s : Service} {ds : List Draft}

theorem perform_create {d : Draft} {id : UInt64} {store : Store} (hflaw : d.team.flaw? = none)
    (h : s.store.create d.team = (.ok id, store)) :
    (s.perform (.create d)).result = .ok (.id id) ∧
      (s.perform (.create d)).service.store = store := by
  simp only [perform, create, hflaw, h, announce, Call.map, Except.map, and_self]

/-- Teams that are created one after the other are all inserted. -/
theorem performAll_create (hvalid : ∀ d ∈ ds, d.team.flaw? = none)
    (hnames : ∀ d ∈ ds, d.name ∉ s.store.rejected)
    (hroom : s.store.table.used + ds.length ≤ lastId) :
    ∃ ids, (s.performAll (ds.map .create)).1 = ids.map (fun id => .ok (.id id)) ∧
      s.store.Inserts (ds.map Draft.team) ids (s.performAll (ds.map .create)).2.store := by
  induction ds generalizing s with
  | nil => exact ⟨[], rfl, .nil _⟩
  | cons d ds ih =>
    obtain ⟨hflaw, hvalid⟩ := List.forall_mem_cons.1 hvalid
    obtain ⟨hname, hnames⟩ := List.forall_mem_cons.1 hnames
    rw [List.length_cons] at hroom
    have hname : d.team.name ∉ s.store.rejected := hname
    obtain ⟨id, store, hcreate, hins, hsame⟩ := Store.exists_create hname (by omega)
    obtain ⟨hresult, hstore⟩ := perform_create hflaw hcreate
    have hused := hins.used_eq
    rw [List.length_singleton] at hused
    obtain ⟨ids, hresults, hrest⟩ := @ih (s.perform (.create d)).service hvalid
      (by rw [hstore, hsame]; exact hnames) (by rw [hstore]; omega)
    rw [hstore] at hrest
    exact ⟨id :: ids, congrArg₂ List.cons hresult hresults, hins.append hrest⟩

/-- Teams that are created together are all inserted. -/
theorem createAll_inserts (hvalid : ∀ d ∈ ds, d.team.flaw? = none)
    (hnames : ∀ d ∈ ds, d.name ∉ s.store.rejected)
    (hroom : s.store.table.used + ds.length ≤ lastId) :
    ∃ ids, (s.createAll ds).result = .ok ids ∧
      s.store.Inserts (ds.map Draft.team) ids (s.createAll ds).service.store := by
  have hflaw : flawAmong? ds = none := List.findSome?_eq_none_iff.2 hvalid
  obtain ⟨ids, -, hresult, hins⟩ | ⟨k, ids, hfirst, -, -⟩ := s.createAll_cases hflaw hroom
  · exact ⟨ids, hresult, hins⟩
  · obtain ⟨d, hd, hname⟩ := hfirst.holds
    exact absurd hname (hnames d (mem_of_mem_batchAt hd))

end Service

/-- A document is ingested in full and in order at whatever pace it comes in. -/
theorem Ingest.Brings.inserts {ds : List Draft} {os : List Ingest.Occurrence}
    (h : Ingest.Brings (Ingest.document ds).toUTF8.toList os)
    (hvalid : ∀ d ∈ ds, d.team.flaw? = none) {store : Store}
    (hnames : ∀ d ∈ ds, d.name ∉ store.rejected) (hroom : store.table.used + ds.length ≤ lastId)
    {config : Saver.Config} {chunkSize : Nat} (hcapacity : 0 < config.capacity)
    (hinterval : 0 < config.interval) (hchunk : 0 < chunkSize) :
    let r := Ingest.runAround Store.repo config chunkSize store os
    r.result = .ok ⟨ds.length, 0⟩ ∧ ∃ ids, store.Inserts (ds.map Draft.team) ids r.store := by
  intro r
  obtain ⟨m, hsetup⟩ := exists_setup hcapacity hinterval chunkSize Store.repo
  obtain ⟨hrepo, hsize⟩ := setup_of_ok hsetup
  obtain ⟨hstore, -, hresult⟩ := runAround_of_setup hsetup store os
  let first := Saver.start m store
  obtain ⟨hdone, hleads⟩ := h.attend_eq (m := m) (s := first) rfl rfl
  have hread := ofLines_document hvalid
  rw [hread, teams_map_team] at hleads
  rw [ingest_of_text rfl hread, teams_map_team, rejections_map_team, List.length_map] at hdone
  refine ⟨?_, ?_⟩
  · have hattend : (attend m first os).result = .ok ⟨ds.length, 0⟩ := congrArg Ingested.result hdone
    rw [hresult, Ingested.close, hattend]
    rfl
  · have hfree : ∀ t ∈ ds.map Draft.team, t.name ∉ store.rejected := by
      intro t ht
      obtain ⟨d, hd, rfl⟩ := List.mem_map.1 ht
      exact hnames d hd
    obtain ⟨-, hins⟩ := inserts_of_leads hrepo (hsize ▸ hchunk) hleads.close
      Saver.State.phase_submit_close hfree (by rwa [List.length_map])
    exact hstore ▸ hins

/-- Creating drafts one by one, creating them together and ingesting their document give the same
identifiers, from one on in the order of the drafts, and leave the same table, at whatever pace the
document comes in and however many ticks come due meanwhile. -/
theorem write_paths_agree (ds : List Draft) (hvalid : ∀ d ∈ ds, d.team.flaw? = none)
    (hroom : ds.length ≤ lastId) (bus : Bus) (batchSize : Nat) (config : Saver.Config)
    (chunkSize : Nat) (hcapacity : 0 < config.capacity) (hinterval : 0 < config.interval)
    (hchunk : 0 < chunkSize) :
    let service := Service.ofStore .empty bus batchSize
    let singly := service.performAll (ds.map .create)
    let together := service.createAll ds
    let document := (Ingest.document ds).toUTF8.toList
    let ingested := Ingest.run config chunkSize .empty document
    ∃ ids, ids.map UInt64.toNat = List.range' 1 ds.length ∧
      singly.1 = ids.map (fun id => .ok (.id id)) ∧ together.result = .ok ids ∧
      ingested.result = .ok ⟨ids.length, 0⟩ ∧
      together.service.store.table = singly.2.store.table ∧
      ingested.store.table = singly.2.store.table ∧
      singly.2.store.Lists (ds.map Draft.team) ∧
      ∀ os, Ingest.Brings document os →
        let paced := Ingest.runAround Store.repo config chunkSize .empty os
        paced.result = .ok ⟨ids.length, 0⟩ ∧ paced.store.table = singly.2.store.table := by
  intro service singly together document ingested
  have hused : service.store.table.used + ds.length ≤ lastId := by
    have hzero : service.store.table.used = 0 := rfl
    omega
  have hnames : ∀ d ∈ ds, d.name ∉ service.store.rejected := fun _ _ => List.not_mem_nil
  obtain ⟨ids, hsingly, hins⟩ := Service.performAll_create hvalid hnames hused
  obtain ⟨ids₂, htogether, hins₂⟩ := Service.createAll_inserts hvalid hnames hused
  -- the same teams are inserted into an empty table each time, and that leaves no choice
  obtain ⟨hids, htable⟩ := hins₂.unique hins
  have hlength := hins.length_ids
  rw [List.length_map] at hlength
  have hpaced : ∀ os, Ingest.Brings document os →
      let paced := Ingest.runAround Store.repo config chunkSize .empty os
      paced.result = .ok ⟨ids.length, 0⟩ ∧ paced.store.table = singly.2.store.table := by
    intro os hos paced
    obtain ⟨hresult, ids₃, hins₃⟩ :=
      hos.inserts hvalid hnames hused hcapacity hinterval hchunk
    exact ⟨hlength ▸ hresult, (hins₃.unique hins).2⟩
  -- a document that is there at once is one that comes in without any time passing
  have hatOnce : Ingest.Brings document [.arrived document, .ended] := by
    have hone := Ingest.Brings.arrived document (.ended [])
    rwa [List.append_nil] at hone
  obtain ⟨hresult, htable'⟩ := hpaced _ hatOnce
  refine ⟨ids, ?_, hsingly, hids ▸ htogether, hresult, htable, htable', hins.lists rfl ?_, hpaced⟩
  · rw [hins.ids_eq, List.length_map, map_toNat_idsAfter hused]
    rfl
  · intro t ht
    obtain ⟨d, -, rfl⟩ := List.mem_map.1 ht
    rfl

/-- Batches of one team, chunks of two and a buffer for three make no difference to three drafts,
nor do five ticks in the middle of the document. -/
theorem write_paths_agree_trial :
    let ds : List Draft := [⟨"a", ""⟩, ⟨"b\n\"c\"", "d\\"⟩, ⟨"e", "f"⟩]
    let service := Service.ofStore .empty { reach := 1 } 0
    let document := (Ingest.document ds).toUTF8.toList
    let ingested := Ingest.run ⟨3, 1000⟩ 2 .empty document
    let os : List Ingest.Occurrence :=
      [.arrived (document.take 40), .elapsed 5000, .arrived (document.drop 40), .ended]
    let paced := Ingest.runAround Store.repo ⟨3, 1000⟩ 2 .empty os
    (∀ d ∈ ds, d.team.flaw? = none) ∧ ds.length ≤ lastId ∧ 0 < 3 ∧ 0 < 1000 ∧ 0 < 2 ∧
    (service.createAll ds).result = .ok [1, 2, 3] ∧ ingested.result = .ok ⟨3, 0⟩ ∧
    ingested.store.table = (service.performAll (ds.map .create)).2.store.table ∧
    Ingest.Brings document os ∧ paced.result = .ok ⟨3, 0⟩ ∧
    paced.store.table = ingested.store.table := by
  intro ds service document ingested os paced
  have hvalid : ∀ d ∈ ds, d.team.flaw? = none := by decide
  have hos : Ingest.Brings document os := by
    have h : Ingest.Brings (document.take 40 ++ (document.drop 40 ++ [])) os :=
      .arrived _ (.elapsed 5000 (.arrived _ (.ended [])))
    rwa [List.append_nil, List.take_append_drop] at h
  obtain ⟨ids, hids, -, htogether, hingested, -, htable, -, hpaced⟩ := write_paths_agree ds hvalid
    (by decide) { reach := 1 } 0 ⟨3, 1000⟩ 2 (by decide) (by decide) (by decide)
  have hcreated : (service.createAll ds).result = .ok [1, 2, 3] := by cbv
  cases hcreated.symm.trans htogether
  obtain ⟨hresult, htable'⟩ := hpaced os hos
  exact ⟨hvalid, by decide, by decide, by decide, by decide, hcreated, hingested, htable, hos,
    hresult, htable'.trans htable.symm⟩

end Roster
