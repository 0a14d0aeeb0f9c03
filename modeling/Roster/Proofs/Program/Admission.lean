import Roster.Command.Execute
import Roster.Proofs.Ingest.Accounting
import Roster.Proofs.Ingest.Pacing
import Roster.Proofs.Service.Calls
import Roster.Proofs.Store.Admission

/-!
What is in a table that was only written to through the program. Whatever is created, updated,
removed or ingested, at every point every row is one that the checks let through.
-/

namespace Roster

/-! ## Points of a run -/

/-- Whether an operation is one of the service's own, which looks at its arguments. -/
def Service.Op.isGuarded : Service.Op → Bool
  | .create _ | .createAll _ | .get _ | .list .. | .search .. | .update .. | .remove _ => true
  | _ => false

def Ingest.calls (m : Saver.Setup Store) (store : Store) (os : List Occurrence) : List Call :=
  ((attend m.recorded (Saver.start m.recorded { world := store }) os).close
    m.recorded).saver.world.calls

/-- A store may be found in this state after a run of service operations, commands and ingests that
began without any team, or in the middle of one of them: between two batches that are created
together, or between two calls of a saver. The settings may be others each time, and so may the
names that are rejected; whatever may happen around an ingest, ticks among it. -/
inductive Reached : Store → Prop
  | empty : Reached .empty
  | reject {s : Store} (h : Reached s) (names : List String) : Reached { s with rejected := names }
  | perform {s : Service} {op : Service.Op} (h : Reached s.store) (hop : op.isGuarded = true) :
    Reached (s.perform op).service.store
  | batch {s : Service} {ds : List Draft} {done : List (List Team)} {ids : List UInt64}
      {store : Store} (h : Reached s.store) (hflaw : Service.flawAmong? ds = none)
      (hdone : done <+: s.batches ds) (hadds : s.store.AddsAll done ids store) : Reached store
  | execute {s : Service} (h : Reached s.store) (command : Command) :
    Reached (command.execute s).service.store
  | ingest {s : Store} (h : Reached s) (config : Saver.Config) (chunkSize : Nat)
      (os : List Ingest.Occurrence) :
    Reached (Ingest.runAround Store.repo config chunkSize s os).store
  | call {s w : Store} {config : Saver.Config} {chunkSize : Nat} {m : Saver.Setup Store}
      {first : List Call} (h : Reached s) (hm : config.setup chunkSize Store.repo = .ok m)
      (os : List Ingest.Occurrence) (hfirst : first <+: Ingest.calls m s os)
      (hw : Store.repo.Replays s first w) :
    Reached w

/-! ## Through the service -/

namespace Service

theorem flaw?_of_mem {ds : List Draft} (h : flawAmong? ds = none) {d : Draft} (hd : d ∈ ds) :
    d.team.flaw? = none :=
  List.findSome?_eq_none_iff.1 h d hd

/-- The team is that of one of the drafts, which has nothing wrong with it. -/
def Admits (ds : List Draft) (t : Team) : Prop :=
  ∃ d ∈ ds, d.team.flaw? = none ∧ t = d.team

variable {s : Service} {ds : List Draft}

theorem admits_of_mem_batches (hflaw : flawAmong? ds = none) {ts : List Team} {t : Team}
    (hts : ts ∈ s.batches ds) (ht : t ∈ ts) : Admits ds t := by
  have hmem : t ∈ (s.batches ds).flatten := List.mem_flatten.2 ⟨ts, hts, ht⟩
  rw [batches, flatten_chunks s.batchSize_pos] at hmem
  obtain ⟨d, hd, rfl⟩ := List.mem_map.1 hmem
  exact ⟨d, hd, flaw?_of_mem hflaw hd, rfl⟩

theorem gains_of_addsAll {done : List (List Team)} {ids : List UInt64} {store : Store}
    (hflaw : flawAmong? ds = none) (hdone : done <+: s.batches ds)
    (hadds : s.store.AddsAll done ids store) :
    s.store.table.Gains (Admits ds) store.table := by
  refine hadds.inserts.gains ?_
  intro t ht
  obtain ⟨ts, hts, ht⟩ := List.mem_flatten.1 ht
  exact admits_of_mem_batches hflaw (hdone.subset hts) ht

/-- Teams that are created together are those of drafts that have nothing wrong with them. -/
theorem Batched.gains {call : Call (List UInt64)} (hflaw : flawAmong? ds = none)
    (h : s.Batched [] (s.batches ds) call) :
    s.store.table.Gains (Admits ds) call.service.store.table := by
  obtain ⟨ids, store, hall, -, hservice⟩ |
    ⟨done, ts, rest, ids, store, e, hbatches, hall, -, -, hservice⟩ := h
  · rw [hservice]
    exact gains_of_addsAll hflaw List.prefix_rfl hall
  · rw [hservice]
    exact gains_of_addsAll hflaw ⟨ts :: rest, hbatches.symm⟩ hall

theorem createAll_gains (s : Service) (ds : List Draft) :
    s.store.table.Gains (Admits ds) (s.createAll ds).service.store.table := by
  cases hflaw : flawAmong? ds with
  | some flaw =>
    have hsame : (s.createAll ds).service = s := by simp only [createAll, hflaw, fail]
    rw [hsame]
    exact .refl _ _
  | none => exact (s.createAll_batched hflaw).gains hflaw

theorem Admits.flaw? {t : Team} (h : Admits ds t) : t.flaw? = none := by
  obtain ⟨d, -, hflaw, rfl⟩ := h
  exact hflaw

/-- An operation that looks at its arguments leaves only rows as they may be. -/
theorem Does.sound {op : Op} {call : Call Value} (h : s.Does op call) (hop : op.isGuarded = true)
    (hs : s.store.table.Sound) : call.service.store.table.Sound := by
  cases h with
  | create hflaw h =>
    refine hs.gains ((Store.inserts_of_create h).gains ?_)
    intro t ht
    obtain rfl := List.mem_singleton.1 ht
    exact hflaw
  | update hflaw h => exact hs.edits (Store.update_edits h) fun r hr => hr.renamed hflaw
  | remove h => exact hs.edits (Store.remove_edits h) fun r hr => hr.marked
  | createAll hflaw h => exact hs.gains ((h.gains hflaw).mono fun _ hu => hu.flaw?)
  | storeCreate h => cases hop
  | storeAdd h => cases hop
  | storeUpdate h => cases hop
  | insertRow r => cases hop
  | _ => exact hs

end Service

theorem Command.execute_sound {s : Service} (hs : s.store.table.Sound) (command : Command) :
    (command.execute s).service.store.table.Sound := by
  let listening := { s with bus := s.bus.subscribe }
  have hop : ∀ op : Service.Op, op.isGuarded = true →
      (listening.perform op).service.store.table.Sound :=
    fun op hguarded => (listening.perform_does op).sound hguarded hs
  cases command with
  | ingest => exact hs
  | create name description => exact hop (.create ⟨name, description⟩) rfl
  | get id => exact hop (.get id) rfl
  | list limit offset => exact hop (.list limit offset) rfl
  | update id name description => exact hop (.update id ⟨name, description⟩) rfl
  | search query mode => exact hop (.search query mode) rfl
  | remove id => exact hop (.remove id) rfl

/-! ## Through a saver -/

/-- Whatever batches are sent to a store, it gains no other teams. -/
theorem Store.repo_gains (s : Store) (V : Team → Prop) :
    Store.repo.Maintains (fun w => s.table.Gains V w.table) V := by
  intro w batch hw hbatch
  obtain ⟨ids, w', hadd, hins⟩ | ⟨e, hrefused⟩ := w.addTeams_inserts batch
  · rw [repo_of_ok hadd]
    exact hw.trans (hins.gains hbatch)
  · rw [repo_of_error hrefused]
    exact hw

theorem Store.gains_of_replays {s w : Store} {calls : List Call} {V : Team → Prop}
    (h : Store.repo.Replays s calls w) (hcalls : ∀ c ∈ calls, ∀ t ∈ c.batch, V t) :
    s.table.Gains V w.table := by
  obtain ⟨⟨ids, hins⟩, -⟩ := inserts_of_replays h
  refine hins.gains ?_
  intro t ht
  obtain ⟨c, hc, ht⟩ := List.mem_flatMap.1 ht
  exact hcalls c hc t (Call.mem_batch ht)

namespace Ingest

/-- The team is that of a record on one of the lines, which has nothing wrong with it. -/
def Offers (ls : List (List UInt8)) (t : Team) : Prop :=
  ∃ line ∈ ls, ∃ cs, Text.Utf8.decode line = .ok cs ∧ Admits (Text.trim cs) t

theorem Offers.flaw? {ls : List (List UInt8)} {t : Team} (h : Offers ls t) : t.flaw? = none := by
  obtain ⟨-, -, -, -, d, -, hflaw, rfl⟩ := h
  exact hflaw

theorem Offers.mono {ls ls' : List (List UInt8)} {t : Team} (h : Offers ls t) (hls : ls <+: ls') :
    Offers ls' t := by
  obtain ⟨line, hline, hrest⟩ := h
  exact ⟨line, hls.subset hline, hrest⟩

/-- The calls of an ingest can be made one after the other, and send only valid teams. -/
theorem exists_replays {m : Saver.Setup Store} (hrepo : m.repo = Store.repo) (store : Store)
    (os : List Occurrence) :
    (∃ w, Store.repo.Replays store (calls m store os) w) ∧
      ∀ c ∈ calls m store os, ∀ t ∈ c.batch, Offers (seen os) t := by
  obtain ⟨ls, hls, hleads⟩ := attend_leads (m := m.recorded)
    (s := Saver.start m.recorded { world := store }) rfl rfl os
  obtain ⟨hreplays, hbatches⟩ := explained_of_leads hrepo hleads.close fun t ht =>
    Offers.mono (exists_line_of_mem_teams ht) hls
  exact ⟨⟨_, hreplays⟩, hbatches⟩

/-- What an ingest adds are valid teams of the lines that are seen. -/
theorem runAround_gains (config : Saver.Config) (chunkSize : Nat) (store : Store)
    (os : List Occurrence) :
    store.table.Gains (Offers (seen os))
      (runAround Store.repo config chunkSize store os).store.table := by
  cases hsetup : config.setup chunkSize Store.repo with
  | error error =>
    have hsame : (runAround Store.repo config chunkSize store os).store = store := by
      simp only [runAround, hsetup]
    rw [hsame]
    exact .refl _ _
  | ok m =>
    obtain ⟨hrepo, -⟩ := setup_of_ok hsetup
    obtain ⟨hstore, -⟩ := runAround_of_setup hsetup store os
    obtain ⟨ls, hls, hleads⟩ := attend_leads (m := m) (s := Saver.start m store) rfl rfl os
    have hstart : (Saver.start m store).Carries
        (fun w => store.table.Gains (Offers (seen os)) w.table) (Offers (seen os)) :=
      ⟨.refl _ _, by simp [Saver.start, Saver.State.held]⟩
    have hlast := hleads.close _
      (Saver.carries_invariant m _ _ (hrepo ▸ store.repo_gains (Offers (seen os))))
      (fun _ => hstart) fun t ht => Offers.mono (exists_line_of_mem_teams ht) hls
    rw [hstore]
    exact hlast.1

theorem exists_line_of_new_row {config : Saver.Config} {chunkSize : Nat} {store : Store}
    {os : List Occurrence} {r : Row}
    (hr : r ∈ (runAround Store.repo config chunkSize store os).store.table.rows)
    (hnew : r ∉ store.table.rows) :
    ∃ line ∈ seen os, ∃ cs t, Text.Utf8.decode line = .ok cs ∧ Admits (Text.trim cs) t ∧
      r.name = t.name ∧ r.description = t.description := by
  obtain hold | ⟨id, u, ⟨line, hline, cs, hdecode, hadmits⟩, -, rfl⟩ := runAround_gains _ _ _ _ r hr
  · exact absurd hold hnew
  · exact ⟨line, hline, cs, u, hdecode, hadmits, rfl, rfl⟩

end Ingest

theorem Reached.sound {s : Store} (h : Reached s) : s.table.Sound := by
  -- each way to a point adds rows that were looked at, or edits one to a row that is as good
  induction h with
  | empty => exact fun r hr => absurd hr List.not_mem_nil
  | reject h names ih => exact ih
  | @perform s op _ hop ih => exact (s.perform_does op).sound hop ih
  | batch _ hflaw hdone hadds ih =>
    exact ih.gains ((Service.gains_of_addsAll hflaw hdone hadds).mono fun _ hu => hu.flaw?)
  | execute _ command ih => exact command.execute_sound ih
  | @ingest s _ config chunkSize os ih =>
    exact ih.gains ((Ingest.runAround_gains config chunkSize s os).mono fun _ hu => hu.flaw?)
  | call _ hm os hfirst hw ih =>
    obtain ⟨hrepo, -⟩ := Ingest.setup_of_ok hm
    refine ih.gains (Store.gains_of_replays hw ?_)
    intro c hc t ht
    obtain ⟨-, hbatches⟩ := Ingest.exists_replays hrepo _ os
    exact (hbatches c (hfirst.subset hc) t ht).flaw?

/-- There is a point behind each call of an ingest. -/
theorem Reached.exists_call {s : Store} {config : Saver.Config} {chunkSize : Nat}
    {m : Saver.Setup Store} {first : List Call} (h : Reached s)
    (hm : config.setup chunkSize Store.repo = .ok m) (os : List Ingest.Occurrence)
    (hfirst : first <+: Ingest.calls m s os) :
    ∃ w, Store.repo.Replays s first w ∧ Reached w := by
  obtain ⟨hrepo, -⟩ := Ingest.setup_of_ok hm
  obtain ⟨⟨last, hreplays⟩, -⟩ := Ingest.exists_replays hrepo s os
  obtain ⟨w, hw⟩ := hreplays.of_prefix hfirst
  exact ⟨w, hw, h.call hm os hfirst hw⟩

/-- At every point of every run that began without any team, every row, deleted or not, has a name
and a description within the limits, a positive identifier and a mark of zero or one. Creating teams
together adds only rows of drafts with nothing wrong with them, if none of the drafts has anything
wrong with it, and an ingest adds only rows of records with nothing wrong with them, of lines that
are seen, whatever happens around it. -/
theorem rows_sound :
    (∀ s, Reached s → ∀ r ∈ s.table.rows, r.Sound) ∧
    (∀ (s : Service) (ds : List Draft), ∀ r ∈ (s.createAll ds).service.store.table.rows,
      r ∉ s.store.table.rows →
      ∃ d ∈ ds, d.team.flaw? = none ∧ r.name = d.name ∧ r.description = d.description) ∧
    (∀ config chunkSize store input shutdown,
      ∀ r ∈ (Ingest.run config chunkSize store input shutdown).store.table.rows,
      r ∉ store.table.rows →
      ∃ line ∈ shutdown.lines input, ∃ cs t, Text.Utf8.decode line = .ok cs ∧
        Ingest.Admits (Text.trim cs) t ∧ r.name = t.name ∧ r.description = t.description) ∧
    ∀ config chunkSize store os,
      ∀ r ∈ (Ingest.runAround Store.repo config chunkSize store os).store.table.rows,
      r ∉ store.table.rows →
      ∃ line ∈ Ingest.seen os, ∃ cs t, Text.Utf8.decode line = .ok cs ∧
        Ingest.Admits (Text.trim cs) t ∧ r.name = t.name ∧ r.description = t.description := by
  refine ⟨fun s hs => hs.sound, ?_, ?_, ?_⟩
  · intro s ds r hr hnew
    obtain hold | ⟨id, u, ⟨d, hd, hflaw, rfl⟩, -, rfl⟩ := s.createAll_gains ds r hr
    · exact absurd hold hnew
    · exact ⟨d, hd, hflaw, rfl, rfl⟩
  · intro config chunkSize store input shutdown r hr hnew
    rw [← Ingest.seen_occurrences]
    exact Ingest.exists_line_of_new_row hr hnew
  · intro config chunkSize store os r hr hnew
    exact Ingest.exists_line_of_new_row hr hnew

/-- A store with a deleted team and a live one, which were created together. -/
def keptStore : Store :=
  (((Service.ofStore .empty { reach := 1 } 1).perform
    (.createAll [⟨"a", ""⟩, ⟨"b", ""⟩])).service.perform (.remove 1)).service.store

theorem reached_keptStore : Reached keptStore := by
  refine Reached.perform ?_ rfl
  exact Reached.perform .empty rfl

theorem rows_keptStore : keptStore.table.rows = [⟨1, "a", "", 1⟩, ⟨2, "b", "", 0⟩] := by
  cbv

def latecomer : List UInt8 :=
  (Ingest.document [⟨"c", ""⟩]).toUTF8.toList

theorem rows_latecomer :
    (Ingest.run ⟨1, 1000⟩ 1 keptStore latecomer).store.table.rows =
      [⟨1, "a", "", 1⟩, ⟨2, "b", "", 0⟩, ⟨3, "c", "", 0⟩] := by
  have hvalid : ∀ d ∈ [(⟨"c", ""⟩ : Draft)], d.team.flaw? = none := by decide
  have hreading : Ingest.Reading.ofLines (Ingest.Shutdown.never.lines latecomer) =
      ⟨([⟨"c", ""⟩].map Draft.team).map .team, none⟩ := Ingest.ofLines_document hvalid
  have hsetup : Saver.Config.setup ⟨1, 1000⟩ 1 Store.repo =
      .ok ⟨1, 1000, 1, Store.repo, by decide, by decide⟩ := rfl
  obtain ⟨hstore, -⟩ := Ingest.run_of_setup hsetup keptStore latecomer .never
  rw [hstore, hreading, Ingest.teams_map_team]
  cbv

/-- The deleted row is as it may be, and so is the store that a document was added to; the row that
was added is that of its record. -/
theorem rows_sound_latecomer :
    Reached keptStore ∧ ⟨1, "a", "", 1⟩ ∈ keptStore.table.rows ∧ Row.Sound ⟨1, "a", "", 1⟩ ∧
    Reached (Ingest.run ⟨1, 1000⟩ 1 keptStore latecomer).store ∧
    ⟨3, "c", "", 0⟩ ∉ keptStore.table.rows ∧ Row.Sound ⟨3, "c", "", 0⟩ ∧
    ∃ line ∈ Text.lines latecomer, ∃ cs t, Text.Utf8.decode line = .ok cs ∧
      Ingest.Admits (Text.trim cs) t ∧ "c" = t.name ∧ "" = t.description := by
  obtain ⟨hsound, -, hingest, -⟩ := rows_sound
  have hreached : Reached (Ingest.run ⟨1, 1000⟩ 1 keptStore latecomer).store :=
    reached_keptStore.ingest ⟨1, 1000⟩ 1 (Ingest.Shutdown.never.occurrences latecomer)
  have hold : (⟨1, "a", "", 1⟩ : Row) ∈ keptStore.table.rows := by
    rw [rows_keptStore]
    exact List.mem_cons_self ..
  have hmem : (⟨3, "c", "", 0⟩ : Row) ∈
      (Ingest.run ⟨1, 1000⟩ 1 keptStore latecomer).store.table.rows := by
    rw [rows_latecomer]
    decide
  have hnew : (⟨3, "c", "", 0⟩ : Row) ∉ keptStore.table.rows := by
    rw [rows_keptStore]
    decide
  exact ⟨reached_keptStore, hold, hsound _ reached_keptStore _ hold, hreached, hnew,
    hsound _ hreached _ hmem, hingest ⟨1, 1000⟩ 1 keptStore latecomer .never _ hmem hnew⟩

end Roster
