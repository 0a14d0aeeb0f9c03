import Roster.Proofs.Ingest.Feeding
import Roster.Proofs.Saver.Sending
import Roster.Proofs.Store.Listing

/-!
What becomes of an input. Every valid team of it is in the store, exactly once, or is reported as
never stored, and none has a rejected name; if no name is rejected, the store lists the teams in the
order of the input.
-/

namespace Roster

/-! ## The store behind a saver -/

namespace Store

theorem repo_of_ok {s s' : Store} {ts : List Team} {ids : List UInt64}
    (h : s.addTeams ts = (.ok ids, s')) : Store.repo s ts = (s', { outcome := .ok ids }) := by
  simp only [Store.repo, h]

theorem repo_of_error {s : Store} {ts : List Team} {e : StoreError}
    (h : s.addTeams ts = (.error e, s)) : Store.repo s ts = (s, { outcome := .error e }) := by
  simp only [Store.repo, h]

/-- Calls insert the teams that they store, in order, and no name of them is rejected. -/
theorem inserts_of_replays {s s' : Store} {calls : List Call}
    (h : Store.repo.Replays s calls s') :
    (∃ ids, s.Inserts (calls.flatMap Call.stored) ids s') ∧ s'.rejected = s.rejected ∧
      ∀ t ∈ calls.flatMap Call.stored, t.name ∉ s.rejected := by
  induction h with
  | nil => exact ⟨⟨[], .nil s⟩, rfl, by simp⟩
  | @call calls w _ batch ih =>
    obtain ⟨⟨ids, hins⟩, hsame, hnames⟩ := ih
    obtain ⟨ids', w', hadd, hins'⟩ | ⟨e, hrefused⟩ := w.addTeams_inserts batch
    · obtain ⟨hnew, hsame'⟩ := rejected_of_addTeams hadd
      rw [hsame] at hnew hsame'
      rw [repo_of_ok hadd, List.flatMap_append]
      refine ⟨⟨ids ++ ids', ?_⟩, hsame', ?_⟩
      · simpa [Call.stored] using hins.append hins'
      · simpa [Call.stored] using List.forall_mem_append.2 ⟨hnames, hnew⟩
    · rw [repo_of_error hrefused, List.flatMap_append]
      refine ⟨⟨ids, ?_⟩, hsame, ?_⟩
      · simpa [Call.stored] using hins
      · simpa [Call.stored] using hnames

/-- A store takes teams in whatever batches if no name is rejected and there are identifiers for
all of them. -/
theorem takes {s : Store} {ts : List Team} (hnames : ∀ t ∈ ts, t.name ∉ s.rejected)
    (hroom : s.table.used + ts.length ≤ lastId) :
    Store.repo.Takes (fun s' sent => (∃ ids, s.Inserts sent ids s') ∧ s'.rejected = s.rejected)
      ts := by
  rintro w sent batch ⟨⟨ids, hins⟩, hsame⟩ ⟨rest, rfl⟩
  have hbatch : ∀ t ∈ batch, t.name ∉ w.rejected := by
    rw [hsame]
    exact fun t ht => hnames t (by simp [ht])
  have hused := hins.used_eq
  simp only [List.length_append] at hroom
  obtain ⟨ids', w', hadd⟩ := exists_addTeams hbatch (by omega)
  rw [repo_of_ok hadd]
  exact ⟨⟨ids', rfl⟩, ⟨ids ++ ids', hins.append (inserts_of_addTeams hadd)⟩,
    (rejected_of_addTeams hadd).2.trans hsame⟩

end Store

namespace Ingest

open Saver (State)

/-! ## A run -/

/-- Settings that can drive a saver make one that writes to the repo in chunks of the given size. -/
theorem setup_of_ok {σ : Type} {config : Saver.Config} {chunkSize : Nat} {repo : Repo σ}
    {m : Saver.Setup σ} (h : config.setup chunkSize repo = .ok m) :
    m.repo = repo ∧ m.chunkSize = chunkSize := by
  unfold Saver.Config.setup at h
  split at h
  · cases h
  · split at h
    · cases h
    · cases h
      exact ⟨rfl, rfl⟩

theorem exists_setup {σ : Type} {config : Saver.Config} (hcapacity : 0 < config.capacity)
    (hinterval : 0 < config.interval) (chunkSize : Nat) (repo : Repo σ) :
    ∃ m, config.setup chunkSize repo = .ok m := by
  rw [Saver.Config.setup, dif_neg (Nat.ne_of_gt hcapacity), dif_neg (Nat.ne_of_gt hinterval)]
  exact ⟨_, rfl⟩

/-- What a run leaves is what its saver leaves when it is closed. -/
theorem runAround_of_setup {repo : Repo Store} {config : Saver.Config} {chunkSize : Nat}
    {m : Saver.Setup Store} (h : config.setup chunkSize repo = .ok m) (store : Store)
    (os : List Occurrence) :
    let done := (attend m (Saver.start m store) os).close m
    let r := runAround repo config chunkSize store os
    r.store = done.saver.world ∧ r.saverLog = done.saver.log ∧
      r.result = done.result.mapError .ingest := by
  intro done r
  simp only [r, runAround, h]
  cases hresult : done.result <;> simp only [done, Except.mapError, and_self]

/-- The saver of a run has been asked for the valid teams and to close. -/
theorem runInto_of_setup {repo : Repo Store} {config : Saver.Config} {chunkSize : Nat}
    {m : Saver.Setup Store} (h : config.setup chunkSize repo = .ok m) (store : Store)
    (input : List UInt8) (shutdown : Shutdown) :
    let reading := Reading.ofLines (shutdown.lines input)
    let r := runInto repo config chunkSize store input shutdown
    let last := ((Saver.start m store).submitAll m (requests (teams reading.lines))).1
    r.store = last.world ∧ r.saverLog = last.log ∧
    r.result =
      match reading.flaw with
      | some flaw => .error (.ingest (.unreadable flaw))
      | none => .ok ⟨(teams reading.lines).length, rejections reading.lines⟩ := by
  intro reading r last
  obtain ⟨hsaver, hresult⟩ :=
    ingestAndClose_of_open (m := m) (s := Saver.start m store) rfl input shutdown
  obtain ⟨hstore, hlog, hmapped⟩ := runAround_of_setup h store (shutdown.occurrences input)
  have hmapped : r.result =
      (ingestAndClose m (Saver.start m store) input shutdown).result.mapError .ingest := hmapped
  refine ⟨?_, ?_, ?_⟩
  · exact hstore.trans (congrArg Saver.State.world hsaver)
  · exact hlog.trans (congrArg Saver.State.log hsaver)
  · rw [hmapped, hresult]
    cases hflaw : (Reading.ofLines (shutdown.lines input)).flaw <;>
      simp only [reading, Except.mapError]

theorem run_of_setup {config : Saver.Config} {chunkSize : Nat} {m : Saver.Setup Store}
    (h : config.setup chunkSize Store.repo = .ok m) (store : Store) (input : List UInt8)
    (shutdown : Shutdown) :
    let reading := Reading.ofLines (shutdown.lines input)
    let r := run config chunkSize store input shutdown
    let last := ((Saver.start m store).submitAll m (requests (teams reading.lines))).1
    r.store = last.world ∧ r.saverLog = last.log ∧
    r.result =
      match reading.flaw with
      | some flaw => .error (.ingest (.unreadable flaw))
      | none => .ok ⟨(teams reading.lines).length, rejections reading.lines⟩ :=
  runInto_of_setup h store input shutdown

theorem length_teams_le_length (input : List UInt8) (shutdown : Shutdown) :
    (teams (Reading.ofLines (shutdown.lines input)).lines).length ≤ input.length := by
  have hlines : (shutdown.lines input).length ≤ (Text.lines input).length := by
    cases shutdown with
    | afterInput =>
      rw [Text.lines, List.length_append]
      exact Nat.le_add_right ..
    | _ => exact Nat.le_refl _
  calc
    _ ≤ _ := length_teams_le _
    _ ≤ _ := length_ofLines_le _
    _ ≤ _ := hlines
    _ ≤ _ := Text.length_lines_le input

/-- The valid teams of an input are drafts as they were read: with no identifier and not deleted. -/
theorem deleted_of_mem_teams {ls : List (List UInt8)} {t : Team}
    (h : t ∈ teams (Reading.ofLines ls).lines) : t.deleted = false := by
  obtain ⟨-, -, -, -, d, -, -, rfl⟩ := exists_line_of_mem_teams h
  rfl

section

variable {m : Saver.Setup Store} (hrepo : m.repo = Store.repo)
include hrepo

/-- The calls of a saver explain the store, and have sent no other teams than it acknowledged. -/
theorem explained_of_leads {store : Store} {ts : List Team} {s : State (Recorded Store)}
    (h : (Saver.start m.recorded { world := store }).Leads m.recorded ts s) {V : Team → Prop}
    (hts : ∀ t ∈ ts, V t) : Saver.Explained Store.repo store V s.world := by
  have hstart : (Saver.start m.recorded { world := store }).Carries
      (Saver.Explained m.repo store V) V :=
    ⟨⟨.nil, by simp [Saver.start]⟩, by simp [Saver.start, Saver.State.held]⟩
  have hlast := h _ (Saver.explained_invariant m store V) (fun _ => hstart) hts
  rw [hrepo] at hlast
  exact hlast.1

/-- What the calls have stored and what is left in the buffer are the teams that were asked for. -/
theorem exists_calls (hchunk : 0 < m.chunkSize) (store : Store) (ts : List Team) :
    let last := ((Saver.start m store).submitAll m (requests ts)).1
    ∃ calls, Store.repo.Replays store calls last.world ∧
      (calls.flatMap Call.stored ++ last.buffer).Perm ts := by
  intro last
  let s := ((Saver.start m.recorded { world := store }).submitAll m.recorded (requests ts)).1
  have hforget : s.forget = last := (Saver.State.forget_submitAll m _ _).1
  have hleads : (Saver.start m.recorded { world := store }).Leads m.recorded ts s :=
    leads_requests rfl ts
  obtain ⟨hreplays, -⟩ := explained_of_leads hrepo hleads fun _ ht => ht
  have hcourse : Saver.Course m store ts s := hleads _ (Saver.course_invariant m store) .start
  have hidle : s.isFlushing = false := by
    simp only [Saver.State.isFlushing, s, phase_requests]
  have hsound : Saver.Accounted ts s.world.calls s.held := hcourse.sound hchunk
  rw [Saver.State.held_eq_buffer hidle] at hsound
  refine ⟨s.world.calls, ?_, ?_⟩
  · rw [← hforget]
    exact hreplays
  · rw [← hforget]
    exact hsound.perm

/-- If no name is rejected and there are identifiers enough, all teams that a saver acknowledged are
inserted in order when it is closed. -/
theorem inserts_of_leads (hchunk : 0 < m.chunkSize) {store : Store} {ts : List Team}
    {last : State Store} (h : (Saver.start m store).Leads m ts last)
    (hclosed : last.phase = .closed) (hnames : ∀ t ∈ ts, t.name ∉ store.rejected)
    (hroom : store.table.used + ts.length ≤ lastId) :
    last.buffer = [] ∧ ∃ ids, store.Inserts ts ids last.world := by
  have hstart : (Saver.start m store).InOrder
      (fun s' sent => (∃ ids, store.Inserts sent ids s') ∧ s'.rejected = store.rejected) [] :=
    ⟨trivial, [], ⟨⟨[], .nil store⟩, rfl⟩, rfl⟩
  have horder := h _ (Saver.inOrder_invariant m hchunk _ ts (hrepo ▸ Store.takes hnames hroom))
    (fun _ => hstart) List.prefix_rfl
  -- a saver that never got anything back has nothing left when it closes
  obtain ⟨hempty, hins, -⟩ := horder.of_closed hclosed
  exact ⟨hempty, hins⟩

end

/-- After a run into a fresh store, the rows are teams among the valid ones of the input, each
occurrence at most once and under the identifiers from one on, and none has a rejected name;
together with those that are reported as never stored they are all. If no name is rejected, the rows
are the valid teams in order, given an identifier for each, as there is for any input of at most
`lastId` bytes. If the input can be read, the report tells how many there are. -/
theorem run_accounts (config : Saver.Config) (chunkSize : Nat) (rejected : List String)
    (input : List UInt8) (shutdown : Shutdown) (hcapacity : 0 < config.capacity)
    (hinterval : 0 < config.interval) (hchunk : 0 < chunkSize) :
    let reading := Reading.ofLines (shutdown.lines input)
    let valid := teams reading.lines
    let r := run config chunkSize { rejected } input shutdown
    let unsaved := Saver.unsavedIn r.saverLog
    (∃ stored left, r.store.Lists stored ∧ (stored ++ left).Perm valid ∧ left.length = unsaved ∧
      ∀ t ∈ stored, t.name ∉ rejected) ∧
    r.store.table.rows.length + unsaved = valid.length ∧
    ((∀ t ∈ valid, t.name ∉ rejected) → valid.length ≤ lastId →
      unsaved = 0 ∧ r.store.Lists valid) ∧
    valid.length ≤ input.length ∧
    r.result =
      match reading.flaw with
      | some flaw => .error (.ingest (.unreadable flaw))
      | none => .ok ⟨valid.length, rejections reading.lines⟩ := by
  intro reading valid r unsaved
  let store : Store := { rejected }
  obtain ⟨m, hsetup⟩ := exists_setup hcapacity hinterval chunkSize Store.repo
  obtain ⟨hrepo, rfl⟩ := setup_of_ok hsetup
  let last := ((Saver.start m store).submitAll m (requests valid)).1
  obtain ⟨hstore, hlog, hresult⟩ := run_of_setup hsetup store input shutdown
  have hstore : r.store = last.world := hstore
  have hstart : (Saver.start m store).Honest := rfl
  -- the number in the report is that of the teams in the buffer of the closed saver
  have hleads : (Saver.start m store).Leads m valid last := leads_requests rfl valid
  have hhonest : last.Honest := hleads _ (Saver.honest_invariant m) hstart
  have hunsaved : unsaved = last.buffer.length := by
    rw [← hhonest.unsavedIn_eq (phase_requests ..)]
    exact congrArg Saver.unsavedIn hlog
  have hlive : ∀ t ∈ valid, t.deleted = false := fun t => deleted_of_mem_teams
  -- the rows are what the calls have stored, so with the buffer they are all teams
  obtain ⟨calls, hreplays, hperm⟩ := exists_calls hrepo hchunk store valid
  obtain ⟨⟨ids, hins⟩, -, hnames⟩ := Store.inserts_of_replays hreplays
  have hlists : r.store.Lists (calls.flatMap Call.stored) := by
    rw [hstore]
    refine hins.lists rfl ?_
    intro t ht
    exact hlive t (hperm.subset (List.mem_append_left _ ht))
  refine ⟨⟨_, last.buffer, hlists, hperm, hunsaved.symm, hnames⟩, ?_, ?_,
    length_teams_le_length input shutdown, hresult⟩
  · have hrows := congrArg List.length hlists.fields
    rw [List.length_map, List.length_map] at hrows
    rw [hrows, hunsaved, ← List.length_append, hperm.length_eq]
  · intro hfree hroom
    have hused : store.table.used + valid.length ≤ lastId := by
      have hzero : store.table.used = 0 := rfl
      omega
    obtain ⟨hempty, ids', hall⟩ :=
      inserts_of_leads hrepo hchunk hleads (phase_requests ..) hfree hused
    refine ⟨?_, ?_⟩
    · rw [hunsaved, hempty, List.length_nil]
    · rw [hstore]
      exact hall.lists rfl hlive

def trialDrafts : List Draft :=
  [⟨"a", ""⟩, ⟨"b", "second"⟩, ⟨"c", ""⟩]

def trialInput : List UInt8 :=
  (document trialDrafts).toUTF8.toList

theorem ofLines_trialInput :
    Reading.ofLines (Shutdown.never.lines trialInput) =
      ⟨(trialDrafts.map Draft.team).map .team, none⟩ :=
  ofLines_document (by decide)

/-- With chunks of two teams and a buffer for two, the team of the rejected name is all that is left
over; without rejected names everything is stored. -/
theorem run_accounts_trial :
    let refused := run ⟨2, 1000⟩ 2 { rejected := ["c"] } trialInput
    let free := run ⟨2, 1000⟩ 2 {} trialInput
    0 < 2 ∧ 0 < 1000 ∧
    refused.store.table.rows.length + Saver.unsavedIn refused.saverLog = 3 ∧
    Saver.unsavedIn refused.saverLog = 1 ∧
    (∀ t ∈ trialDrafts.map Draft.team, t.name ∉ ([] : List String)) ∧ 3 ≤ lastId ∧
    Saver.unsavedIn free.saverLog = 0 ∧ free.store.Lists (trialDrafts.map Draft.team) ∧
    free.result = .ok ⟨3, 0⟩ := by
  intro refused free
  have hteams : teams (Reading.ofLines (Shutdown.never.lines trialInput)).lines =
      trialDrafts.map Draft.team := by
    rw [ofLines_trialInput, teams_map_team]
  obtain ⟨-, hcount, -⟩ :=
    run_accounts ⟨2, 1000⟩ 2 ["c"] trialInput .never (by decide) (by decide) (by decide)
  obtain ⟨-, -, hall, -, hresult⟩ :=
    run_accounts ⟨2, 1000⟩ 2 [] trialInput .never (by decide) (by decide) (by decide)
  have hsetup : Saver.Config.setup ⟨2, 1000⟩ 2 Store.repo =
      .ok ⟨2, 1000, 2, Store.repo, by decide, by decide⟩ := rfl
  obtain ⟨-, hlog, -⟩ := run_of_setup hsetup { rejected := ["c"] } trialInput .never
  rw [hteams] at hcount hall hlog
  have hnames : ∀ t ∈ trialDrafts.map Draft.team, t.name ∉ ([] : List String) := by simp
  obtain ⟨hunsaved, hlists⟩ := hall hnames (by decide)
  have hleft : Saver.unsavedIn refused.saverLog = 1 := by
    refine (congrArg Saver.unsavedIn hlog).trans ?_
    cbv
  simp only [ofLines_trialInput] at hresult
  exact ⟨by decide, by decide, hcount, hleft, hnames, by decide, hunsaved, hlists, hresult⟩

end Ingest

end Roster
