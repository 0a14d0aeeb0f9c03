import Roster.Proofs.Search.Found
import Roster.Proofs.Service.Calls
import Roster.Proofs.Store.Directory

/-!
The service refines a machine that keeps only a directory, the names that are rejected and the
largest identifier ever used. One operation is one step of the machine, and so a run of operations
is a run of the machine.
-/

namespace Roster

namespace Directory

open Service (Op Value Error)

/-- What a search may answer: all that the query finds, or that the query is too large. -/
def Searched (d : Directory) (query : String) (mode : Search.Mode) :
    Except StoreError (List Team) → Prop
  | .ok ts => Shows (Search.Found d.Holds query mode) ts
  | .error e =>
    (e = .refused .tooManyPatterns ∧
        Store.maxPatterns < (Search.patterns query mode).length) ∨
      (e = .refused .patternTooLong ∧ ∃ p ∈ Search.patterns query mode,
        Store.maxPatternSize < (String.ofList p).utf8ByteSize)

def passed {α : Type} (f : α → Value) : Except StoreError α → Except Error Value
  | .error e => .error (.storage e)
  | .ok a => .ok (f a)

def page (ts : List Team) (limit offset : UInt64) : Value :=
  .page ((ts.drop (Store.saturate offset)).take (Store.saturate limit)) ts.length

/-- What the service finds wrong with an operation before it asks the store. -/
def flaw? : Op → Option Invalid
  | .create x | .update _ x => x.team.flaw?
  | .createAll xs => Service.flawAmong? xs
  | .search query _ => if Text.words query.toList = [] then some .emptyQuery else none
  | _ => none

def inserted? : Op → Option (List Team)
  | .create x => some [x.team]
  | .storeCreate t => some [t]
  | .storeAdd ts => some ts
  | _ => none

/-- One step of the machine: an operation, its answer, and the limits and the directory
afterwards. Some but not all of several teams are created if after them there are some of which one
is refused. A row is passed over, or may be, if the directory does not tell whether its identifier
is taken. -/
inductive Step (l : Limits) (d : Directory) :
    Op → Except Error Value → Limits → Directory → Prop
  | flawed {op : Op} {flaw : Invalid} (h : flaw? op = some flaw) :
      Step l d op (.error (.invalid flaw)) l d
  | get (id : UInt64) : Step l d (.get id) (passed .team (d.get id)) l d
  | list {ts : List Team} (limit offset : UInt64) (h : Shows d.Holds ts) :
      Step l d (.list limit offset) (.ok (page ts limit offset)) l d
  | search {query : String} {mode : Search.Mode} {r : Except StoreError (List Team)}
      (hflaw : flaw? (.search query mode) = none) (h : d.Searched query mode r) :
      Step l d (.search query mode) (passed .teams r) l d
  | storeSearch {query : String} {mode : Search.Mode} {r : Except StoreError (List Team)}
      (h : d.Searched query mode r) : Step l d (.storeSearch query mode) (passed .teams r) l d
  | update {id : UInt64} {x : Draft} (hflaw : flaw? (.update id x) = none) :
      Step l d (.update id x) (passed (fun _ => .nothing) (d.change id (some x)).1) l
        (d.change id (some x)).2
  | storeUpdate (t : Team) :
      Step l d (.storeUpdate t) (passed (fun _ => .nothing) (d.change t.id (some t.draft)).1) l
        (d.change t.id (some t.draft)).2
  | remove (id : UInt64) :
      Step l d (.remove id) (passed (fun _ => .nothing) (d.change id none).1) l
        (d.change id none).2
  | create {x : Draft} {id : UInt64} {l' : Limits} {d' : Directory}
      (hflaw : flaw? (.create x) = none) (hassign : l.assignAll [x.team] = .ok ([id], l'))
      (h : Enters d [id] [x.team] d') : Step l d (.create x) (.ok (.id id)) l' d'
  | createAll {xs : List Draft} {ids : List UInt64} {l' : Limits} {d' : Directory}
      (hflaw : flaw? (.createAll xs) = none)
      (hassign : l.assignAll (xs.map Draft.team) = .ok (ids, l'))
      (h : Enters d ids (xs.map Draft.team) d') :
      Step l d (.createAll xs) (.ok (.ids ids)) l' d'
  | createSome {xs : List Draft} {ts next : List Team} {ids : List UInt64} {l' : Limits}
      {d' : Directory} {refusal : Refusal} (hflaw : flaw? (.createAll xs) = none)
      (hts : ts ++ next <+: xs.map Draft.team) (hassign : l.assignAll ts = .ok (ids, l'))
      (h : Enters d ids ts d') (hrefused : l'.assignAll next = .error refusal) :
      Step l d (.createAll xs) (.error (.incomplete ids (.refused refusal))) l' d'
  | storeCreate {t : Team} {id : UInt64} {l' : Limits} {d' : Directory}
      (hassign : l.assignAll [t] = .ok ([id], l')) (h : Enters d [id] [t] d') :
      Step l d (.storeCreate t) (.ok (.id id)) l' d'
  | storeAdd {ts : List Team} {ids : List UInt64} {l' : Limits} {d' : Directory}
      (hassign : l.assignAll ts = .ok (ids, l')) (h : Enters d ids ts d') :
      Step l d (.storeAdd ts) (.ok (.ids ids)) l' d'
  | refused {op : Op} {ts : List Team} {refusal : Refusal} (hflaw : flaw? op = none)
      (hop : inserted? op = some ts) (hrefused : l.assignAll ts = .error refusal) :
      Step l d op (.error (.storage (.refused refusal))) l d
  | reject (name : String) :
      Step l d (.reject name) (.ok .nothing) { l with rejected := name :: l.rejected } d
  | unreject : Step l d .unreject (.ok .nothing) { l with rejected := [] } d
  | reopen : Step l d .reopen (.ok .nothing) l d
  | rowPassedOver {r : Row} (hwhy : r.name ∈ l.rejected ∨ r.mark ≠ 0 ∨ r.id.toInt ≤ l.used) :
      Step l d (.insertRow r) (.ok .nothing) (l.afterRow r) d
  | rowEntered {r : Row} (hname : r.name ∉ l.rejected) (hmark : r.mark = 0)
      (hfree : d r.id.toUInt64 = none) :
      Step l d (.insertRow r) (.ok .nothing) (l.afterRow r)
        (d.set r.id.toUInt64 (some r.draft))

/-- A run of the machine: operations, their answers, and the limits and the directory at the end. -/
inductive Run :
    Limits → Directory → List Op → List (Except Error Value) → Limits → Directory → Prop
  | nil (l : Limits) (d : Directory) : Run l d [] [] l d
  | cons {l l' l'' : Limits} {d d' d'' : Directory} {op : Op} {ops : List Op}
      {r : Except Error Value} {rs : List (Except Error Value)} (h : Step l d op r l' d')
      (hs : Run l' d' ops rs l'' d'') : Run l d (op :: ops) (r :: rs) l'' d''

theorem Enters.unique {d d₁ d₂ : Directory} {ids : List UInt64} {ts : List Team}
    (h₁ : Enters d ids ts d₁) (h₂ : Enters d ids ts d₂) : d₁ = d₂ := by
  induction h₁ with
  | nil =>
    cases h₂
    rfl
  | cons _ _ ih =>
    cases h₂ with
    | cons _ h₂ => exact ih h₂

/-- Getting, updating, removing, creating one team and adding teams to the store leave the machine
no choice: the limits and the directory settle the answer and what becomes of them. -/
theorem Step.unique {l l₁ l₂ : Limits} {d d₁ d₂ : Directory} {op : Op} {r₁ r₂ : Except Error Value}
    (hop : (∃ id, op = .get id) ∨ (∃ id x, op = .update id x) ∨ (∃ t, op = .storeUpdate t) ∨
      (∃ id, op = .remove id) ∨ (∃ x, op = .create x) ∨ (∃ t, op = .storeCreate t) ∨
      ∃ ts, op = .storeAdd ts)
    (h₁ : Step l d op r₁ l₁ d₁) (h₂ : Step l d op r₂ l₂ d₂) : r₁ = r₂ ∧ l₁ = l₂ ∧ d₁ = d₂ := by
  -- two steps of one kind agree, and the steps of other kinds are not steps of these operations
  obtain ⟨id, rfl⟩ | ⟨id, x, rfl⟩ | ⟨t, rfl⟩ | ⟨id, rfl⟩ | ⟨x, rfl⟩ | ⟨t, rfl⟩ | ⟨ts, rfl⟩ :=
    hop <;>
    cases h₁ <;> cases h₂ <;> simp_all [flaw?, inserted?]
  -- what is left is what one team or several under the same identifiers make of a directory
  all_goals exact Enters.unique (by assumption) (by assumption)

end Directory

namespace Store

theorem assigns_of_addTeams {s s' : Store} {ts : List Team} {ids : List UInt64}
    (h : s.addTeams ts = (.ok ids, s')) :
    s.limits.assignAll ts = .ok (ids, s'.limits) ∧
      Directory.Enters s.directory ids ts s'.directory := by
  obtain ⟨ids', store, heq, hassign⟩ | ⟨refusal, heq, -⟩ := s.addTeams_cases ts
  · cases h.symm.trans heq
    exact hassign
  · cases h.symm.trans heq

theorem refuses_of_addTeams {s s' : Store} {ts : List Team} {e : StoreError}
    (h : s.addTeams ts = (.error e, s')) :
    ∃ refusal, e = .refused refusal ∧ s.limits.assignAll ts = .error refusal := by
  obtain ⟨ids, store, heq, -⟩ | ⟨refusal, heq, hrefused⟩ := s.addTeams_cases ts
  · cases h.symm.trans heq
  · cases h.symm.trans heq
    exact ⟨refusal, rfl, hrefused⟩

theorem AddsAll.assigns {s s' : Store} {tss : List (List Team)} {ids : List UInt64}
    (h : s.AddsAll tss ids s') :
    s.limits.assignAll tss.flatten = .ok (ids, s'.limits) ∧
      Directory.Enters s.directory ids tss.flatten s'.directory := by
  induction h with
  | nil => exact ⟨rfl, .nil _⟩
  | cons hadd _ ih =>
    obtain ⟨hassign, hentered⟩ := assigns_of_addTeams hadd
    exact ⟨Directory.Limits.assignAll_append hassign ih.1, hentered.append ih.2⟩

theorem shows_directory (s : Store) : Shows s.directory.Holds (s.table.live.map Row.team) :=
  s.table.shows_live.congr fun _ => Directory.holds_ofTable_iff.symm

theorem searched_directory (s : Store) (query : String) (mode : Search.Mode) :
    s.directory.Searched query mode (s.search query mode) := by
  cases hsearch : s.search query mode with
  | error e => exact search_error hsearch
  | ok ts =>
    refine (search_ok hsearch).congr fun t => ?_
    rw [Search.Found, Search.Found, directory, Directory.holds_ofTable_iff]

end Store

namespace Service

open Directory (Step Enters)

abbrev Refines (s : Service) (op : Op) : Prop :=
  Step s.store.limits s.store.directory op (s.perform op).result
    (s.perform op).service.store.limits (s.perform op).service.store.directory

theorem step_create (s : Service) (x : Draft) :
    s.Refines (.create x) := by
  simp only [Refines, perform, Call.map, create]
  cases hflaw : x.team.flaw? with
  | some flaw => exact .flawed hflaw
  | none =>
    obtain ⟨id, store, heq, hassign, hentered⟩ | ⟨refusal, heq, hrefused⟩ :=
      s.store.create_cases x.team
    · simp only [heq]
      exact .create hflaw hassign hentered
    · simp only [heq]
      exact .refused hflaw rfl hrefused

theorem step_createAll (s : Service) (xs : List Draft) :
    s.Refines (.createAll xs) := by
  simp only [Refines, perform, Call.map]
  cases hflaw : flawAmong? xs with
  | some flaw =>
    simp only [createAll, hflaw]
    exact .flawed hflaw
  | none =>
    have hflatten : (s.batches xs).flatten = xs.map Draft.team := flatten_chunks s.batchSize_pos _
    obtain ⟨ids, store, hall, hresult, hservice⟩ |
      ⟨done, ts, rest, ids, store, e, hbatches, hall, hrefused, hresult, hservice⟩ :=
      s.createAll_batched hflaw
    · obtain ⟨hassign, hentered⟩ := hall.assigns
      rw [hflatten] at hassign hentered
      simp only [hresult, hservice]
      exact .createAll hflaw hassign hentered
    · have hprefix : done.flatten ++ ts <+: xs.map Draft.team := by
        rw [← hflatten, hbatches, List.flatten_append, List.flatten_cons, ← List.append_assoc]
        exact List.prefix_append ..
      obtain ⟨hassign, hentered⟩ := hall.assigns
      obtain ⟨refusal, rfl, hrefusal⟩ := Store.refuses_of_addTeams hrefused
      simp only [hresult, hservice]
      exact .createSome hflaw hprefix hassign hentered hrefusal

theorem map_answer {α : Type} (s : Service) (f : α → Value) (r : Except StoreError α) :
    (s.answer r).map f = ⟨Directory.passed f r, [], s⟩ := by
  cases r with
  | error e => rfl
  | ok a => rfl

theorem step_get (s : Service) (id : UInt64) :
    s.Refines (.get id) := by
  rw [Refines, perform, get, map_answer, Store.get_eq]
  exact .get id

theorem result_list (s : Service) (limit offset : UInt64) :
    (s.perform (.list limit offset)).result =
      .ok (Directory.page (s.store.table.live.map Row.team) limit offset) := by
  rw [Directory.page, ← List.map_drop, ← List.map_take, List.length_map]
  rfl

theorem step_list (s : Service) (limit offset : UInt64) :
    s.Refines (.list limit offset) := by
  rw [Refines, result_list]
  exact .list limit offset s.store.shows_directory

theorem step_search (s : Service) (query : String) (mode : Search.Mode) :
    s.Refines (.search query mode) := by
  simp only [Refines, perform, search, Text.isEmpty_iff]
  by_cases hwords : Text.words query.toList = []
  · rw [if_pos hwords]
    exact .flawed (if_pos hwords)
  · rw [if_neg hwords, map_answer]
    exact .search (if_neg hwords) (s.store.searched_directory query mode)

theorem step_storeSearch (s : Service) (query : String) (mode : Search.Mode) :
    s.Refines (.storeSearch query mode) := by
  rw [Refines, perform, map_answer]
  exact .storeSearch (s.store.searched_directory query mode)

theorem step_update (s : Service) (id : UInt64) (x : Draft) :
    s.Refines (.update id x) := by
  have hsame : Team.flaw? { x.team with id } = x.team.flaw? := rfl
  simp only [Refines, perform, Call.map, update, hsame]
  cases hflaw : x.team.flaw? with
  | some flaw => exact .flawed hflaw
  | none =>
    have hstep : Step s.store.limits s.store.directory (.update id x) _ _ _ := .update hflaw
    obtain ⟨store, heq, hlimits, hchange⟩ | ⟨e, heq, hchange⟩ :=
      s.store.update_cases { x.team with id }
    · change s.store.directory.change id (some x) = _ at hchange
      rw [hchange] at hstep
      simp only [heq]
      exact hlimits ▸ hstep
    · change s.store.directory.change id (some x) = _ at hchange
      rw [hchange] at hstep
      simp only [heq]
      exact hstep

theorem step_remove (s : Service) (id : UInt64) :
    s.Refines (.remove id) := by
  have hstep : Step s.store.limits s.store.directory (.remove id) _ _ _ := .remove id
  simp only [Refines, perform, Call.map, remove]
  obtain ⟨store, heq, hlimits, hchange⟩ | ⟨e, heq, hchange⟩ := s.store.remove_cases id
  · rw [hchange] at hstep
    simp only [heq]
    exact hlimits ▸ hstep
  · rw [hchange] at hstep
    simp only [heq]
    exact hstep

theorem step_storeCreate (s : Service) (t : Team) :
    s.Refines (.storeCreate t) := by
  simp only [Refines, perform]
  obtain ⟨id, store, heq, hassign, hentered⟩ | ⟨refusal, heq, hrefused⟩ := s.store.create_cases t
  · rw [heq]
    exact .storeCreate hassign hentered
  · rw [heq]
    exact .refused rfl rfl hrefused

theorem step_storeAdd (s : Service) (ts : List Team) :
    s.Refines (.storeAdd ts) := by
  simp only [Refines, perform]
  obtain ⟨ids, store, heq, hassign, hentered⟩ | ⟨refusal, heq, hrefused⟩ :=
    s.store.addTeams_cases ts
  · rw [heq]
    exact .storeAdd hassign hentered
  · rw [heq]
    exact .refused rfl rfl hrefused

theorem step_storeUpdate (s : Service) (t : Team) :
    s.Refines (.storeUpdate t) := by
  have hstep : Step s.store.limits s.store.directory (.storeUpdate t) _ _ _ := .storeUpdate t
  simp only [Refines, perform]
  obtain ⟨store, heq, hlimits, hchange⟩ | ⟨e, heq, hchange⟩ := s.store.update_cases t
  · rw [hchange] at hstep
    rw [heq]
    exact hlimits ▸ hstep
  · rw [hchange] at hstep
    rw [heq]
    exact hstep

theorem step_insertRow (s : Service) (r : Row) :
    s.Refines (.insertRow r) := by
  simp only [Refines, perform, silent, Store.limits_insertRow]
  obtain ⟨heq, hwhy⟩ | ⟨hname, hmark, hfree, heq⟩ := s.store.insertRow_cases r
  · rw [heq]
    exact .rowPassedOver hwhy
  · rw [heq]
    exact .rowEntered hname hmark hfree

/-- An operation is a step of the machine. -/
theorem perform_step (s : Service) (op : Op) :
    s.Refines op := by
  cases op with
  | create x => exact s.step_create x
  | createAll xs => exact s.step_createAll xs
  | get id => exact s.step_get id
  | list limit offset => exact s.step_list limit offset
  | search query mode => exact s.step_search query mode
  | update id x => exact s.step_update id x
  | remove id => exact s.step_remove id
  | storeCreate t => exact s.step_storeCreate t
  | storeAdd ts => exact s.step_storeAdd ts
  | storeSearch query mode => exact s.step_storeSearch query mode
  | storeUpdate t => exact s.step_storeUpdate t
  | reject name => exact .reject name
  | unreject => exact .unreject
  | insertRow r => exact s.step_insertRow r
  | reopen =>
    rw [Refines, perform_reopen]
    exact .reopen

/-- Operations are a run of the machine. -/
theorem performAll_run (s : Service) (ops : List Op) :
    Directory.Run s.store.limits s.store.directory ops (s.performAll ops).1
      (s.performAll ops).2.store.limits (s.performAll ops).2.store.directory := by
  induction ops generalizing s with
  | nil => exact .nil _ _
  | cons op ops ih => exact .cons (s.perform_step op) (ih (s.perform op).service)

/-- A query of one U+0000 finds every team that is held. -/
theorem found_null_iff {held : Team → Prop} {t : Team} :
    Search.Found held "\x00" .plain t ↔ held t := by
  have hwords : Text.words "\x00".toList = [['\x00']] := by decide
  rw [Search.Found, Search.Finds, hwords, List.forall_mem_singleton, Search.Matches,
    if_pos (by decide)]
  constructor
  · exact And.left
  · intro h
    exact ⟨h, List.cons_ne_nil _ _, [], List.nil_suffix, .nil⟩

/-- A query of one U+0000 is never refused. -/
theorem search_null_ok (s : Service) : ∃ ts, (s.search "\x00" .plain).result = .ok ts := by
  have hwords : Text.words "\x00".toList ≠ [] := by decide
  rw [result_search, if_neg hwords]
  cases hsearch : s.store.search "\x00" .plain with
  | ok ts => exact ⟨ts, rfl⟩
  | error e =>
    have hpatterns : Search.patterns "\x00" .plain = [['%', '\x00', '%']] := by decide
    obtain ⟨-, hmany⟩ | ⟨-, p, hp, hlong⟩ := Store.search_error hsearch
    · rw [hpatterns] at hmany
      exact absurd hmany (by decide)
    · rw [hpatterns, List.mem_singleton] at hp
      subst hp
      exact absurd hlong (by decide)

/-- Whatever is performed, the service answers as the machine does that keeps only the directory and
what decides about insertions; and what can be seen of it afterwards by listing or by searching is
what its directory holds. -/
theorem refines_directory (s : Service) (ops : List Op) :
    Directory.Run s.store.limits s.store.directory ops (s.performAll ops).1
        (s.performAll ops).2.store.limits (s.performAll ops).2.store.directory ∧
      (∃ ts, Shows (s.performAll ops).2.store.directory.Holds ts ∧
        ∀ limit offset, ((s.performAll ops).2.perform (.list limit offset)).result =
          .ok (Directory.page ts limit offset)) ∧
      ∀ t, (∃ query mode ts, ((s.performAll ops).2.search query mode).result = .ok ts ∧ t ∈ ts) ↔
        (s.performAll ops).2.store.directory.Holds t := by
  refine ⟨s.performAll_run ops, ?_⟩
  generalize (s.performAll ops).2 = s'
  refine ⟨⟨_, s'.store.shows_directory, s'.result_list⟩, fun t => ?_⟩
  rw [Store.directory, Directory.holds_ofTable_iff]
  constructor
  · rintro ⟨query, mode, ts, hresult, hmem⟩
    exact ((search_ok hresult).mem_iff t).1 hmem |>.1
  · intro hholds
    obtain ⟨ts, hresult⟩ := s'.search_null_ok
    exact ⟨_, _, ts, hresult, ((search_ok hresult).mem_iff t).2 (found_null_iff.2 hholds)⟩

end Service

end Roster
