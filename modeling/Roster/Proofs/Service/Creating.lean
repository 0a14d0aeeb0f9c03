import Roster.Proofs.Batch
import Roster.Proofs.Service.Identifiers
import Roster.Proofs.Store.Listing

/-!
Many teams created together. A flaw anywhere keeps all of them from being looked at by the store.
Otherwise they are added a batch at a time, up to the first batch with a name that is rejected: of
that batch and of those behind it nothing is added, and its identifiers are free again.
-/

namespace Roster

def Table.next (t : Table) : Nat :=
  t.used + 1

namespace Store

theorem AddsAll.names {s s' : Store} {tss : List (List Team)} {ids : List UInt64}
    (h : s.AddsAll tss ids s') :
    (∀ t ∈ tss.flatten, t.name ∉ s.rejected) ∧ s'.rejected = s.rejected := by
  induction h with
  | nil => simp
  | @cons s s' s'' ts tss ids ids' hadd hs ih =>
    obtain ⟨hnames, hsame⟩ := rejected_of_addTeams hadd
    rw [hsame] at ih
    rw [List.flatten_cons, List.forall_mem_append]
    exact ⟨⟨hnames, ih.1⟩, ih.2⟩

theorem next_of_create {s s' : Store} {t : Team} {id : UInt64}
    (h : s.create t = (.ok id, s')) : id.toNat = s.table.next := by
  have hins := inserts_of_create h
  have hid : id = UInt64.ofNat (s.table.used + 1) := by
    simpa [idsAfter] using hins.ids_eq
  have hlast := hins.le_lastId
  rw [hid]
  exact toNat_ofNat_of_le hlast

theorem Inserts.next_eq {s s' : Store} {ts : List Team} {ids : List UInt64}
    (h : s.Inserts ts ids s') :
    s'.table.next = (ids.getLast?.map fun id => id.toNat + 1).getD s.table.next := by
  have hlast := h.le_lastId
  rw [Table.next, h.used_eq, h.ids_eq]
  cases hn : ts.length with
  | zero => rfl
  | succ n =>
    rw [hn] at hlast
    have hid : (UInt64.ofNat (s.table.used + n + 1)).toNat = s.table.used + n + 1 :=
      toNat_ofNat_of_le hlast
    have hnil : idsAfter (s.table.used + n + 1) 0 = [] := rfl
    rw [idsAfter_add, idsAfter_cons, hnil, List.getLast?_concat, Option.map_some, Option.getD_some,
      hid]
    omega

end Store

namespace Service

def batchAt (size k : Nat) (ds : List Draft) : List Draft :=
  (ds.drop (k * size)).take size

/-- The batch of the given number is the first one in which there is a rejected name. -/
structure FirstRejected (rejected : List String) (size : Nat) (ds : List Draft) (k : Nat) :
    Prop where
  holds : ∃ d ∈ batchAt size k ds, d.name ∈ rejected
  before : ∀ j < k, ∀ d ∈ batchAt size j ds, d.name ∉ rejected

theorem mem_take_of_mem_batchAt {size j k : Nat} {ds : List Draft} {d : Draft} (hjk : j < k)
    (h : d ∈ batchAt size j ds) : d ∈ ds.take (k * size) := by
  rw [batchAt, List.take_drop] at h
  have hle : j * size + size ≤ k * size := by
    rw [← Nat.succ_mul]
    exact Nat.mul_le_mul_right size hjk
  exact List.take_subset_take_left ds hle (List.mem_of_mem_drop h)

theorem mem_of_mem_batchAt {size k : Nat} {ds : List Draft} {d : Draft}
    (h : d ∈ batchAt size k ds) : d ∈ ds :=
  List.mem_of_mem_drop (List.mem_of_mem_take h)

namespace FirstRejected

variable {rejected : List String} {size j k : Nat} {ds : List Draft}

theorem unique (h : FirstRejected rejected size ds j) (h' : FirstRejected rejected size ds k) :
    j = k := by
  obtain ⟨d, hd, hname⟩ := h.holds
  obtain ⟨d', hd', hname'⟩ := h'.holds
  rcases Nat.lt_trichotomy j k with hlt | heq | hgt
  · exact absurd hname (h'.before j hlt d hd)
  · exact heq
  · exact absurd hname' (h.before k hgt d' hd')

theorem length_take (h : FirstRejected rejected size ds k) :
    (ds.take (k * size)).length = k * size := by
  obtain ⟨d, hd, -⟩ := h.holds
  have hpos := List.length_pos_of_mem hd
  rw [batchAt, List.length_take, List.length_drop] at hpos
  rw [List.length_take]
  omega

end FirstRejected

/-- The batches in front of another one, and that one. -/
theorem of_batches_eq_append {s : Service} {ds : List Draft} {done rest : List (List Team)}
    {ts : List Team} (h : s.batches ds = done ++ ts :: rest) :
    done.flatten = (ds.take (done.length * s.batchSize)).map Draft.team ∧
      ts = (batchAt s.batchSize done.length ds).map Draft.team := by
  obtain ⟨htake, hrest⟩ := of_chunks_eq_append s.batchSize_pos h
  rw [← List.map_drop] at hrest
  refine ⟨htake.trans List.map_take.symm, ?_⟩
  have hne : (ds.drop (done.length * s.batchSize)).map Draft.team ≠ [] := by
    intro hnil
    rw [hnil, chunks_nil] at hrest
    cases hrest
  rw [chunks_eq_cons s.batchSize_pos hne, ← List.map_take] at hrest
  exact (List.cons_eq_cons.1 hrest).1

/-- With identifiers left for all of them, drafts without flaws are all created, or those in front
of the first batch in which there is a rejected name. -/
theorem createAll_cases (s : Service) {ds : List Draft} (hflaw : flawAmong? ds = none)
    (hroom : s.store.table.used + ds.length ≤ lastId) :
    (∃ ids, (∀ d ∈ ds, d.name ∉ s.store.rejected) ∧ (s.createAll ds).result = .ok ids ∧
      s.store.Inserts (ds.map Draft.team) ids (s.createAll ds).service.store) ∨
    ∃ k ids, FirstRejected s.store.rejected s.batchSize ds k ∧
      (s.createAll ds).result = .error (.incomplete ids (.refused .rejectedName)) ∧
      s.store.Inserts ((ds.take (k * s.batchSize)).map Draft.team) ids
        (s.createAll ds).service.store := by
  have hflatten : (s.batches ds).flatten = ds.map Draft.team := flatten_chunks s.batchSize_pos _
  obtain ⟨ids, store, hall, hresult, hservice⟩ |
    ⟨done, ts, rest, ids, store, e, hbatches, hdone, hrefused, hresult, hservice⟩ :=
    s.createAll_batched hflaw
  · have hins := hall.inserts
    have hnames := hall.names.1
    rw [hflatten] at hins hnames
    refine .inl ⟨ids, ?_, hresult, ?_⟩
    · intro d hd
      exact hnames d.team (List.mem_map_of_mem hd)
    · rw [hservice]
      exact hins
  · obtain ⟨htake, hts⟩ := of_batches_eq_append hbatches
    have hins := hdone.inserts
    obtain ⟨hnames, hsame⟩ := hdone.names
    rw [htake] at hins hnames
    -- there are identifiers left for the refused batch, so it is refused for a name
    have hlength := congrArg List.length hflatten
    simp only [hbatches, List.flatten_append, List.flatten_cons, htake, List.length_append,
      List.length_map] at hlength
    have hused := hins.used_eq
    rw [List.length_map] at hused
    obtain ⟨rfl, t, ht, hrejected⟩ := Store.refused_of_addTeams hrefused (by omega)
    rw [hts] at ht
    rw [hsame] at hrejected
    obtain ⟨d, hd, rfl⟩ := List.mem_map.1 ht
    refine .inr ⟨done.length, ids, ⟨⟨d, hd, hrejected⟩, ?_⟩, hresult, ?_⟩
    · intro j hj d hd
      exact hnames d.team (List.mem_map_of_mem (mem_take_of_mem_batchAt hj hd))
    · rw [hservice]
      exact hins

theorem flawAmong?_append {before later : List Draft} {d : Draft} {flaw : Invalid}
    (hbefore : ∀ c ∈ before, c.team.flaw? = none) (hd : d.team.flaw? = some flaw) :
    flawAmong? (before ++ d :: later) = some flaw := by
  have hnone : before.findSome? (fun c => c.team.flaw?) = none :=
    List.findSome?_eq_none_iff.2 hbefore
  rw [flawAmong?, List.findSome?_append, hnone, Option.none_or, List.findSome?_cons, hd]

theorem Batched.next_eq {s : Service} {tss : List (List Team)} {call : Call (List UInt64)}
    (h : s.Batched [] tss call) :
    call.service.store.table.next =
      ((issued (call.map .ids).result).getLast?.map fun id => id.toNat + 1).getD
        s.store.table.next := by
  obtain ⟨ids, store, hall, hresult, hservice⟩ |
    ⟨done, ts, rest, ids, store, e, -, hall, -, hresult, hservice⟩ := h
  · rw [Call.map, hresult, hservice]
    exact hall.inserts.next_eq
  · rw [Call.map, hresult, hservice]
    exact hall.inserts.next_eq

theorem createAll_next (s : Service) (ds : List Draft) :
    (s.createAll ds).service.store.table.next =
      ((issued ((s.createAll ds).map .ids).result).getLast?.map fun id => id.toNat + 1).getD
        s.store.table.next := by
  cases h : flawAmong? ds with
  | none => exact (s.createAll_batched h).next_eq
  | some flaw =>
    simp only [createAll, h]
    rfl

/-- Many teams created together. The first flaw among them is the answer, and nothing has changed
then. Otherwise the teams before the first batch with a rejected name are added, those and no
others, or all teams if there is no such batch. The identifiers are those of the teams that were
added, and the next one is the one after the last of them. -/
theorem createAll_in_batches (store : Store) (bus : Bus) (batchSize : Nat) (ds : List Draft) :
    let s := ofStore store bus batchSize
    let size := max batchSize 1
    let call := s.createAll ds
    let after := call.service.store
    (∀ before d later flaw, ds = before ++ d :: later → (∀ c ∈ before, c.team.flaw? = none) →
      d.team.flaw? = some flaw → call.result = .error (.invalid flaw) ∧ call.service = s) ∧
    ((∀ d ∈ ds, d.team.flaw? = none) → store.table.used + ds.length ≤ lastId →
      (∀ k, FirstRejected store.rejected size ds k →
        ∃ ids, call.result = .error (.incomplete ids (.refused .rejectedName)) ∧
          ids.length = k * size ∧
          store.Inserts ((ds.take (k * size)).map Draft.team) ids after) ∧
      ((∀ k, ¬FirstRejected store.rejected size ds k) →
        ∃ ids, call.result = .ok ids ∧ ids.length = ds.length ∧
          store.Inserts (ds.map Draft.team) ids after)) ∧
    after.table.next =
      ((issued (call.map .ids).result).getLast?.map fun id => id.toNat + 1).getD
        store.table.next ∧
    ∀ t id s', after.create t = (.ok id, s') → id.toNat = after.table.next := by
  intro s size call after
  refine ⟨?_, ?_, s.createAll_next ds, fun t id s' => Store.next_of_create⟩
  · rintro before d later flaw rfl hbefore hd
    have hflaw : flawAmong? (before ++ d :: later) = some flaw := flawAmong?_append hbefore hd
    simp only [call, createAll, hflaw, fail, and_self]
  · intro hvalid hroom
    have hflaw : flawAmong? ds = none := List.findSome?_eq_none_iff.2 hvalid
    obtain ⟨ids, hnames, hresult, hins⟩ | ⟨j, ids, hfirst, hresult, hins⟩ :=
      s.createAll_cases hflaw hroom
    · constructor
      · intro k hk
        obtain ⟨d, hd, hname⟩ := hk.holds
        exact absurd hname (hnames d (mem_of_mem_batchAt hd))
      · intro _
        refine ⟨ids, hresult, ?_, hins⟩
        rw [hins.length_ids, List.length_map]
    · constructor
      · intro k hk
        obtain rfl := hfirst.unique hk
        refine ⟨ids, hresult, ?_, hins⟩
        rw [hins.length_ids, List.length_map, hfirst.length_take]
        rfl
      · intro hnone
        exact absurd hfirst (hnone j)

/-- A table with a negative identifier and one in the middle; no team may be called `x`. -/
def trialStore : Store :=
  { (Store.empty.insertRow ⟨-5, "low", "", 0⟩).insertRow ⟨40, "middle", "", 1⟩ with
    rejected := ["x"] }

/-- The batch of `c` and `x` is the second one, so `c` is not added, and neither is `e`. -/
theorem createAll_in_batches_trial :
    let ds : List Draft := [⟨"a", ""⟩, ⟨"b", "first"⟩, ⟨"c", ""⟩, ⟨"x", ""⟩, ⟨"e", ""⟩]
    let call := (ofStore trialStore { reach := 1 } 2).createAll ds
    (∀ d ∈ ds, d.team.flaw? = none) ∧ trialStore.table.used + ds.length ≤ lastId ∧
    FirstRejected trialStore.rejected 2 ds 1 ∧
    call.result = .error (.incomplete [41, 42] (.refused .rejectedName)) ∧
    trialStore.Inserts ((ds.take 2).map Draft.team) [41, 42] call.service.store ∧
    call.service.store.table.next = 43 := by
  intro ds call
  have hvalid : ∀ d ∈ ds, d.team.flaw? = none := by decide
  have hroom : trialStore.table.used + ds.length ≤ lastId := by decide
  have hfirst : FirstRejected trialStore.rejected 2 ds 1 :=
    ⟨⟨⟨"x", ""⟩, by decide, by decide⟩, by decide⟩
  obtain ⟨-, hcreated, hnext, -⟩ := createAll_in_batches trialStore { reach := 1 } 2 ds
  obtain ⟨ids, hresult, -, hins⟩ := (hcreated hvalid hroom).1 1 hfirst
  have hids : ids = [41, 42] := hins.ids_eq
  subst hids
  rw [Call.map, hresult] at hnext
  exact ⟨hvalid, hroom, hfirst, hresult, hins, hnext⟩

end Service

end Roster
