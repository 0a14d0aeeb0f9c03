import Roster.Proofs.Service.Calls
import Roster.Proofs.Store.Directory
import Mathlib

/-!
Which events an operation sends. A listener that takes all events after every operation receives
exactly the changes that single operations on the service have made, one event for each, and never
falls behind. An operation that fails sends none and leaves everything as it was, unless some
batches had been added before it failed.
-/

namespace Roster

/-! ## Listening -/

namespace Bus

structure CaughtUp (bus : Bus) (i : Nat) : Prop where
  isOpen : bus.isOpen = true
  nothing : bus.listeners[i]? = some (some [])
  reach_pos : 0 < bus.reach

variable {bus : Bus} {i : Nat}

theorem caughtUp_subscribe {capacity : Nat} (h : ofCapacity? capacity = some bus) :
    bus.subscribe.CaughtUp 0 := by
  unfold ofCapacity? at h
  split at h
  · cases h
  · cases h
    exact ⟨rfl, rfl, roundUp_pos capacity⟩

theorem listeners_notify (h : bus.CaughtUp i) (e : Event) :
    (bus.notify e).listeners[i]? = some (some [e]) := by
  simp [notify, h.isOpen, h.nothing]

theorem reach_notify (e : Event) : (bus.notify e).reach = bus.reach := by
  unfold notify
  split <;> rfl

theorem isOpen_notify (e : Event) : (bus.notify e).isOpen = bus.isOpen := by
  unfold notify
  split <;> rfl

theorem drain_of_le {backlog : List Event} (h : bus.listeners[i]? = some (some backlog))
    (hreach : backlog.length ≤ bus.reach) :
    bus.drain i = (backlog, { bus with listeners := bus.listeners.set i (some []) }) := by
  have hj : bus.listeners[i]?.join = some backlog := by rw [h, Option.join_some]
  rw [drain, hj]
  simp only [if_neg (Nat.not_lt.2 hreach)]

theorem receive_ne_lagged {backlog : List Event} (h : bus.listeners[i]? = some (some backlog))
    (hreach : backlog.length ≤ bus.reach) (n : Nat) : (bus.receive i).1 ≠ some (.lagged n) := by
  have hj : bus.listeners[i]?.join = some backlog := by rw [h, Option.join_some]
  rw [receive, hj]
  simp only [next, if_neg (Nat.not_lt.2 hreach)]
  cases backlog with
  | nil => cases bus.isOpen <;> simp
  | cons e rest => simp

/-- The listener takes all of at most one event, without loss, and has caught up again. -/
theorem CaughtUp.drain (h : bus.CaughtUp i) {es : List Event} (hes : es.length ≤ 1) :
    ((es.foldl notify bus).drain i).1 = es ∧ ((es.foldl notify bus).drain i).2.CaughtUp i ∧
      ∀ n, ((es.foldl notify bus).receive i).1 ≠ some (.lagged n) := by
  match es, hes with
  | [], _ =>
    have hreach : ([] : List Event).length ≤ bus.reach := Nat.zero_le _
    rw [List.foldl_nil, drain_of_le h.nothing hreach]
    refine ⟨rfl, ⟨h.isOpen, ?_, h.reach_pos⟩, receive_ne_lagged h.nothing hreach⟩
    rw [List.getElem?_set_self (List.getElem?_eq_some_iff.1 h.nothing).1]
  | [e], _ =>
    have hlisteners := listeners_notify h e
    have hreach : [e].length ≤ (bus.notify e).reach := by
      rw [reach_notify]
      exact h.reach_pos
    rw [List.foldl_cons, List.foldl_nil, drain_of_le hlisteners hreach]
    refine ⟨rfl, ⟨?_, ?_, ?_⟩, receive_ne_lagged hlisteners hreach⟩
    · rw [isOpen_notify]
      exact h.isOpen
    · rw [List.getElem?_set_self (List.getElem?_eq_some_iff.1 hlisteners).1]
    · rw [reach_notify]
      exact h.reach_pos

end Bus

/-! ## What an event tells -/

theorem Directory.eq_of_set {d d' : Directory} {id : UInt64} {entry : Option Draft}
    (h : d' = d.set id entry) : (∀ other, other ≠ id → d' other = d other) ∧ d' id = entry := by
  subst h
  exact ⟨fun other hother => set_of_ne entry hother, set_self ..⟩

/-- What an event tells of a directory: only the entry under its identifier is touched, and it was
made, replaced or taken out. -/
def Event.Tells (e : Event) (before after : Directory) : Prop :=
  (∀ id, id ≠ e.id → after id = before id) ∧
    match e.change with
    | .created => before e.id = none ∧ after e.id ≠ none
    | .updated => before e.id ≠ none ∧ after e.id ≠ none
    | .removed => before e.id ≠ none ∧ after e.id = none

theorem Directory.Enters.of_nil {d d' : Directory} {ids : List UInt64} (h : d.Enters ids [] d') :
    d' = d := by
  cases h
  rfl

theorem Directory.Enters.of_singleton {d d' : Directory} {id : UInt64} {t : Team}
    (h : d.Enters [id] [t] d') : d id = none ∧ d' = d.enter id t := by
  cases h with
  | cons hfree hrest => exact ⟨hfree, hrest.of_nil⟩

theorem Directory.change_ok {d d' : Directory} {id : UInt64} {entry : Option Draft}
    (h : d.change id entry = (.ok (), d')) : d id ≠ none ∧ d' = d.set id entry := by
  unfold change at h
  split at h
  · cases h
  · rename_i x hx
    cases h
    exact ⟨by simp [hx], rfl⟩

namespace Service

def announced : Op → Except Error Value → List Event
  | .create _, .ok (.id id) => [⟨id, .created⟩]
  | .update id _, .ok _ => [⟨id, .updated⟩]
  | .remove id, .ok _ => [⟨id, .removed⟩]
  | _, _ => []

def changesOne : Op → Bool
  | .create _ => true
  | .update _ _ => true
  | .remove _ => true
  | _ => false

theorem length_announced_le (op : Op) (r : Except Error Value) : (announced op r).length ≤ 1 := by
  unfold announced
  split <;> simp

theorem announced_error (op : Op) (e : Error) : announced op (.error e) = [] := by
  cases op <;> rfl

variable {s : Service} {op : Op} {call : Call Value}

theorem Batched.bus {tss : List (List Team)} {call : Call (List UInt64)}
    (h : s.Batched [] tss call) : call.service.bus = s.bus := by
  obtain ⟨ids, store, -, -, hservice⟩ | ⟨done, ts, rest, ids, store, e, -, -, -, -, hservice⟩ := h
  · rw [hservice]
  · rw [hservice]

theorem Does.bus (h : s.Does op call) :
    call.service.bus = (announced op call.result).foldl Bus.notify s.bus := by
  cases h with
  | invalid flaw => rw [fail, announced_error, List.foldl_nil]
  | refused e => rw [fail, announced_error, List.foldl_nil]
  | createAll hflaw h => exact h.bus
  | _ => rfl

theorem Does.service_eq_of_error (h : s.Does op call) {e : Error} (hresult : call.result = .error e)
    (he : ∀ created error, e ≠ .incomplete created error) : call.service = s := by
  cases h with
  | createAll hflaw h =>
    obtain ⟨ids, store, -, hok, -⟩ | ⟨done, ts, rest, ids, store, error, -, -, -, herror, -⟩ := h
    · rw [Call.map, hok] at hresult
      cases hresult
    · rw [Call.map, herror] at hresult
      cases hresult
      exact absurd rfl (he _ _)
  | invalid flaw => rfl
  | refused e => rfl
  | _ => cases hresult

theorem Does.tells (h : s.Does op call) :
    ∀ e ∈ announced op call.result, e.Tells s.store.directory call.service.store.directory := by
  cases h with
  | @create d id store hflaw h =>
    intro e he
    obtain rfl := List.mem_singleton.1 he
    obtain ⟨id', store', heq, -, hentered⟩ | ⟨refusal, heq, -⟩ := s.store.create_cases d.team
    · cases h.symm.trans heq
      obtain ⟨hfree, hafter⟩ := hentered.of_singleton
      have hset : store.directory = s.store.directory.set id (some d.team.draft) := hafter
      obtain ⟨hothers, hself⟩ := Directory.eq_of_set hset
      exact ⟨hothers, hfree, by simp [announce, hself]⟩
    · cases h.symm.trans heq
  | @update id d store hflaw h =>
    intro e he
    obtain rfl := List.mem_singleton.1 he
    obtain ⟨store', heq, -, hchange⟩ | ⟨error, heq, -⟩ := s.store.update_cases { d.team with id }
    · cases h.symm.trans heq
      obtain ⟨hsome, hset⟩ := Directory.change_ok hchange
      obtain ⟨hothers, hself⟩ := Directory.eq_of_set hset
      exact ⟨hothers, hsome, by simp [announce, hself]⟩
    · cases h.symm.trans heq
  | @remove id store h =>
    intro e he
    obtain rfl := List.mem_singleton.1 he
    obtain ⟨store', heq, -, hchange⟩ | ⟨error, heq, -⟩ := s.store.remove_cases id
    · cases h.symm.trans heq
      obtain ⟨hsome, hset⟩ := Directory.change_ok hchange
      obtain ⟨hothers, hself⟩ := Directory.eq_of_set hset
      exact ⟨hothers, hsome, hself⟩
    · cases h.symm.trans heq
  | invalid flaw => simp [fail, announced_error]
  | refused e => simp [fail, announced_error]
  | _ => intro e he; cases he

theorem Does.length_announced (h : s.Does op call) :
    (announced op call.result).length = if changesOne op && call.result.isOk then 1 else 0 := by
  cases h with
  | invalid flaw => simp [fail, announced_error, Except.isOk, Except.toBool]
  | refused e => simp [fail, announced_error, Except.isOk, Except.toBool]
  | _ => rfl

/-- Performs operations in order; after each, the listener takes all events that have come. What
each operation yields with the events that were then received, and the service afterwards. -/
def performHeard (s : Service) (i : Nat) :
    List Op → List (Except Error Value × List Event) × Service
  | [] => ([], s)
  | op :: ops =>
    let call := s.perform op
    let (events, bus) := call.service.bus.drain i
    let (steps, s) := performHeard { call.service with bus } i ops
    ((call.result, events) :: steps, s)

theorem performHeard_cons (s : Service) (i : Nat) (op : Op) (ops : List Op) :
    let call := s.perform op
    let later := { call.service with bus := (call.service.bus.drain i).2 }.performHeard i ops
    s.performHeard i (op :: ops) =
      ((call.result, (call.service.bus.drain i).1) :: later.1, later.2) := rfl

/-- A listener who has caught up receives, after each operation, the event of its success, and has
then caught up again. -/
theorem performHeard_events {i : Nat} (h : s.bus.CaughtUp i) (ops : List Op) :
    (s.performHeard i ops).1.map Prod.snd =
        List.zipWith announced ops ((s.performHeard i ops).1.map Prod.fst) ∧
      (s.performHeard i ops).2.bus.CaughtUp i := by
  induction ops generalizing s with
  | nil => exact ⟨rfl, h⟩
  | cons op ops ih =>
    have hdrain := h.drain (length_announced_le op (s.perform op).result)
    rw [← (s.perform_does op).bus] at hdrain
    obtain ⟨hevents, hcaught, -⟩ := hdrain
    obtain ⟨hlater, hlast⟩ :=
      ih (s := { (s.perform op).service with bus := ((s.perform op).service.bus.drain i).2 })
        hcaught
    rw [performHeard_cons]
    refine ⟨?_, hlast⟩
    rw [List.map_cons, List.map_cons, List.zipWith_cons_cons, hevents, hlater]

/-- Whatever operations are performed while one subscriber to a channel of any size listens, in each
step it receives the event of that step's success: one if a single team was created, updated or
removed through the service, with the identifier of the team, and none otherwise. So it receives the
events of all successes in order, and nothing is ever lost. An operation that fails changes nothing
at all, unless it had added some batches of teams. -/
theorem events_mirror_successes {capacity : Nat} {bus : Bus}
    (hbus : Bus.ofCapacity? capacity = some bus) (store : Store) (batchSize : Nat)
    (ops : List Op) :
    let run := (ofStore store bus.subscribe batchSize).performHeard 0 ops
    run.1.map Prod.snd = List.zipWith announced ops (run.1.map Prod.fst) ∧
    run.1.flatMap Prod.snd = (List.zipWith announced ops (run.1.map Prod.fst)).flatten ∧
    ∀ op, let call := run.2.perform op
      call.service.bus = (announced op call.result).foldl Bus.notify run.2.bus ∧
      (call.service.bus.drain 0).1 = announced op call.result ∧
      (∀ n, (call.service.bus.receive 0).1 ≠ some (.lagged n)) ∧
      (announced op call.result).length = (if changesOne op && call.result.isOk then 1 else 0) ∧
      (∀ e ∈ announced op call.result,
        e.Tells run.2.store.directory call.service.store.directory) ∧
      ∀ e, call.result = .error e → (∀ created error, e ≠ .incomplete created error) →
        call.service = run.2 := by
  intro run
  have hcaught : (ofStore store bus.subscribe batchSize).bus.CaughtUp 0 :=
    Bus.caughtUp_subscribe hbus
  obtain ⟨hevents, hlast⟩ := performHeard_events hcaught ops
  have hall : run.1.flatMap Prod.snd =
      (List.zipWith announced ops (run.1.map Prod.fst)).flatten := by
    rw [← hevents, List.flatMap_def]
  refine ⟨hevents, hall, ?_⟩
  intro op call
  have hdoes : run.2.Does op call := run.2.perform_does op
  have hdrain := hlast.drain (length_announced_le op call.result)
  rw [← hdoes.bus] at hdrain
  exact ⟨hdoes.bus, hdrain.1, hdrain.2.2, hdoes.length_announced, hdoes.tells,
    fun e => hdoes.service_eq_of_error⟩

/-- One team is created, renamed and removed. Between that, a draft has no name, a team is not
there, and of two batches the second is refused. -/
def heardOps : List Op :=
  [.reject "x", .create ⟨"a", ""⟩, .create ⟨"", ""⟩, .update 1 ⟨"b", ""⟩, .remove 7,
    .createAll [⟨"c", ""⟩, ⟨"x", ""⟩], .remove 1]

theorem events_heard :
    Bus.ofCapacity? 1 = some { reach := 1 } ∧
    ((ofStore .empty (Bus.subscribe { reach := 1 }) 1).performHeard 0 heardOps).1.flatMap Prod.snd =
      [⟨1, .created⟩, ⟨1, .updated⟩, ⟨1, .removed⟩] := by
  have hbus : Bus.ofCapacity? 1 = some { reach := 1 } := rfl
  refine ⟨hbus, (events_mirror_successes hbus .empty 1 heardOps).2.1.trans ?_⟩
  cbv

end Service

end Roster
