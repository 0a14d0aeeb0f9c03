import Roster.Event
import Mathlib

/-!
What a listener of a bus receives. Every event that is sent while it listens is received, reported
as lost or still waiting; the oldest ones are lost, and only when more are waiting than the bus
remembers. Whether and when other listeners receive makes no difference.
-/

namespace Roster

/-! ## How many events a bus remembers -/

theorem exists_roundUp_eq (n : Nat) : ∃ k, roundUp n = 2 ^ k := by
  by_cases hn : n ≤ 1
  · exact ⟨0, if_pos hn⟩
  · exact ⟨Nat.log2 (n - 1) + 1, by rw [roundUp, if_neg hn, Nat.one_shiftLeft]⟩

theorem roundUp_le {n k : Nat} (h : n ≤ 2 ^ k) : roundUp n ≤ 2 ^ k := by
  by_cases hn : n ≤ 1
  · rw [roundUp, if_pos hn]
    exact Nat.one_le_two_pow
  · have hlog : Nat.log2 (n - 1) < k := (Nat.log2_lt (by omega)).2 (by omega)
    rw [roundUp, if_neg hn, Nat.one_shiftLeft]
    exact Nat.pow_le_pow_right (by decide) hlog

/-! ## What listeners are told -/

namespace Delivery

def event? : Delivery → Option Event
  | event e => some e
  | _ => none

def lost : Delivery → Nat
  | lagged count => count
  | _ => 0

def obtained (ds : List Delivery) : List Event :=
  ds.filterMap event?

def lostIn (ds : List Delivery) : Nat :=
  (ds.map lost).sum

theorem obtained_cons (d : Delivery) (ds : List Delivery) :
    obtained (d :: ds) = d.event?.toList ++ obtained ds := by
  cases d <;> rfl

theorem lostIn_cons (d : Delivery) (ds : List Delivery) :
    lostIn (d :: ds) = d.lost + lostIn ds :=
  List.sum_cons

/-- The deliveries are what became of the given events, in order: each event was received, or was
among so many that are reported as lost. -/
inductive Account : List Delivery → List Event → Prop where
  | nil : Account [] []
  | event {ds : List Delivery} {es : List Event} (e : Event) :
    Account ds es → Account (.event e :: ds) (e :: es)
  | lagged {ds : List Delivery} {es : List Event} (gone : List Event) :
    Account ds es → Account (.lagged gone.length :: ds) (gone ++ es)
  | empty {ds : List Delivery} {es : List Event} : Account ds es → Account (.empty :: ds) es
  | closed {ds : List Delivery} {es : List Event} : Account ds es → Account (.closed :: ds) es

theorem Account.sublist {ds : List Delivery} {es : List Event} (h : Account ds es) :
    (obtained ds).Sublist es := by
  induction h with
  | nil => exact .slnil
  | event e _ ih => exact ih.cons_cons e
  | lagged gone _ ih => exact ih.trans (List.sublist_append_right ..)
  | empty _ ih => exact ih
  | closed _ ih => exact ih

theorem Account.length_eq {ds : List Delivery} {es : List Event} (h : Account ds es) :
    (obtained ds).length + lostIn ds = es.length := by
  induction h with
  | nil => rfl
  | event e _ ih =>
    simp only [obtained_cons, lostIn_cons, event?, lost, Option.toList_some, List.singleton_append,
      List.length_cons]
    omega
  | lagged gone _ ih =>
    simp only [obtained_cons, lostIn_cons, event?, lost, Option.toList_none, List.nil_append,
      List.length_append]
    omega
  | empty _ ih => simpa [obtained_cons, lostIn_cons, event?, lost] using ih
  | closed _ ih => simpa [obtained_cons, lostIn_cons, event?, lost] using ih

end Delivery

namespace Bus

/-! ## Runs -/

inductive Op where
  | subscribe
  | notify (e : Event)
  | receive (i : Nat)
  | unsubscribe (i : Nat)
  | close
deriving DecidableEq

inductive Outcome where
  /-- A listener of the given number, which is there if the bus is open. -/
  | joined (i : Nat) (isThere : Bool)
  /-- How many listeners an event has reached. -/
  | reached (count : Nat)
  /-- What a listener was given, if it is there. -/
  | given (d : Option Delivery)
  /-- Whether a listener has left that was there. -/
  | left (wasThere : Bool)
  | closed
deriving DecidableEq

def step (bus : Bus) : Op → Bus × Outcome
  | .subscribe => (bus.subscribe, .joined bus.listeners.length bus.isOpen)
  | .notify e => (bus.notify e, .reached bus.reached)
  | .receive i => ((bus.receive i).2, .given (bus.receive i).1)
  | .unsubscribe i => (bus.unsubscribe i, .left (bus.listens i))
  | .close => (bus.close, .closed)

def after (bus : Bus) (ops : List Op) : Bus :=
  ops.foldl (fun bus op => (bus.step op).1) bus

def outcomes (bus : Bus) : List Op → List Outcome
  | [] => []
  | op :: ops => (bus.step op).2 :: (bus.step op).1.outcomes ops

def Op.delivery? (i : Nat) : Op → Outcome → Option Delivery
  | .receive j, .given d => if j = i then d else none
  | _, _ => none

def heard (bus : Bus) (i : Nat) : List Op → List Delivery
  | [] => []
  | op :: ops => (op.delivery? i (bus.step op).2).toList ++ (bus.step op).1.heard i ops

def sent : List Op → List Event
  | [] => []
  | .close :: _ => []
  | .notify e :: ops => e :: sent ops
  | _ :: ops => sent ops

def waiting? (bus : Bus) (i : Nat) : Option (List Event) :=
  bus.listeners[i]?.join

theorem after_cons (bus : Bus) (op : Op) (ops : List Op) :
    bus.after (op :: ops) = (bus.step op).1.after ops := rfl

theorem after_append (bus : Bus) (ops more : List Op) :
    bus.after (ops ++ more) = (bus.after ops).after more :=
  List.foldl_append

/-! ## One operation, as it concerns one listener -/

variable {bus : Bus} {i : Nat}

theorem next_of_lt {waiting : List Event} (h : bus.reach < waiting.length) :
    bus.next waiting = (.lagged (waiting.length - bus.reach),
      waiting.drop (waiting.length - bus.reach)) :=
  if_pos h

theorem next_nil (bus : Bus) : bus.next [] = (if bus.isOpen then .empty else .closed, []) :=
  if_neg (Nat.not_lt_zero _)

theorem next_cons {e : Event} {waiting : List Event} (h : ¬bus.reach < (e :: waiting).length) :
    bus.next (e :: waiting) = (.event e, waiting) :=
  if_neg h

def keeps (bus : Bus) (i : Nat) (waiting : List Event) : Op → Option (List Event)
  | .notify e => some (if bus.isOpen then waiting ++ [e] else waiting)
  | .receive j => some (if j = i then (bus.next waiting).2 else waiting)
  | .unsubscribe j => if j = i then none else some waiting
  | _ => some waiting

theorem waiting?_set (bus' : Bus) {j : Nat} {x : Option (List Event)}
    (hj : j < bus.listeners.length) (h : bus'.listeners = bus.listeners.set j x) :
    bus'.waiting? i = if j = i then x else bus.waiting? i := by
  rw [waiting?, waiting?, h, List.getElem?_set]
  by_cases hji : j = i
  · subst hji
    simp [hj]
  · simp [hji]

theorem lt_of_waiting? {waiting : List Event} (h : bus.waiting? i = some waiting) :
    i < bus.listeners.length :=
  (List.getElem?_eq_some_iff.1 (Option.join_eq_some_iff.1 h)).1

theorem receive_of_waiting? {waiting : List Event} (h : bus.waiting? i = some waiting) :
    bus.receive i = (some (bus.next waiting).1,
      { bus with listeners := bus.listeners.set i (some (bus.next waiting).2) }) := by
  have hjoin : bus.listeners[i]?.join = some waiting := h
  rw [receive, hjoin]

theorem receive_of_waiting?_eq_none (h : bus.waiting? i = none) : bus.receive i = (none, bus) := by
  have hjoin : bus.listeners[i]?.join = none := h
  rw [receive, hjoin]

/-- A listener is touched by what it does itself and by the events that are sent. -/
theorem waiting?_step (hi : i < bus.listeners.length) (op : Op) :
    (bus.step op).1.waiting? i = (bus.waiting? i).bind (bus.keeps i · op) := by
  cases op with
  | subscribe =>
    simp only [step, subscribe, waiting?, List.getElem?_append_left hi, keeps, Option.bind_fun_some]
  | notify e =>
    cases hopen : bus.isOpen with
    | true =>
      simp only [step, notify, hopen, if_true, waiting?, List.getElem?_map, keeps]
      cases bus.listeners[i]? with
      | none => rfl
      | some x => cases x <;> rfl
    | false => simp [step, notify, hopen, keeps]
  | receive j =>
    cases hj : bus.waiting? j with
    | none =>
      by_cases hji : j = i
      · subst hji
        simp [step, receive_of_waiting?_eq_none hj, hj]
      · simp [step, receive_of_waiting?_eq_none hj, keeps, hji]
    | some waiting =>
      have hset := waiting?_set (i := i)
        { bus with listeners := bus.listeners.set j (some (bus.next waiting).2) }
        (lt_of_waiting? hj) rfl
      rw [step, receive_of_waiting? hj]
      dsimp only
      rw [hset]
      by_cases hji : j = i
      · subst hji
        simp [hj, keeps]
      · simp [hji, keeps]
  | unsubscribe j =>
    by_cases hj : j < bus.listeners.length
    · have hset := waiting?_set (i := i) (bus.unsubscribe j) hj rfl
      simp only [step, hset, keeps]
      by_cases hji : j = i <;> simp [hji]
    · have hsame : bus.unsubscribe j = bus := by
        rw [unsubscribe, List.set_eq_of_length_le (Nat.le_of_not_lt hj)]
      have hji : j ≠ i := by omega
      simp [step, hsame, keeps, hji]
  | close => simp [step, close, waiting?, keeps]

/-- Besides the backlogs an operation changes at most whether the bus is open and how many listeners
there have been. -/
theorem exists_step (bus : Bus) (op : Op) :
    ∃ listeners, (bus.step op).1 = ⟨bus.reach, bus.isOpen && op ≠ .close, listeners⟩ ∧
      listeners.length = bus.listeners.length + if op = .subscribe then 1 else 0 := by
  have hsame {op : Op} (hclose : op ≠ .close) (hsubscribe : op ≠ .subscribe) :
      ∃ listeners, bus = ⟨bus.reach, bus.isOpen && op ≠ .close, listeners⟩ ∧
        listeners.length = bus.listeners.length + if op = .subscribe then 1 else 0 :=
    ⟨bus.listeners, by simp [hclose], by simp [hsubscribe]⟩
  cases op with
  | subscribe =>
    exact ⟨bus.listeners ++ [if bus.isOpen then some [] else none], by simp [step, subscribe],
      List.length_append⟩
  | notify e =>
    cases hopen : bus.isOpen with
    | true =>
      exact ⟨bus.listeners.map (·.map (· ++ [e])), by simp [step, notify, hopen], by simp⟩
    | false =>
      have hnotify : bus.notify e = bus := by simp [notify, hopen]
      rw [step, hnotify, ← hopen]
      exact hsame (by simp) (by simp)
  | receive j =>
    cases hj : bus.waiting? j with
    | none =>
      rw [step, receive_of_waiting?_eq_none hj]
      exact hsame (by simp) (by simp)
    | some waiting =>
      refine ⟨bus.listeners.set j (some (bus.next waiting).2), ?_, by simp⟩
      simp [step, receive_of_waiting? hj]
  | unsubscribe j =>
    exact ⟨bus.listeners.set j none, by simp [step, unsubscribe], List.length_set⟩
  | close => exact ⟨bus.listeners, by simp [step, close], rfl⟩

theorem isOpen_step (bus : Bus) (op : Op) :
    (bus.step op).1.isOpen = (bus.isOpen && op ≠ .close) := by
  obtain ⟨listeners, h, -⟩ := bus.exists_step op
  rw [h]

theorem reach_step (bus : Bus) (op : Op) : (bus.step op).1.reach = bus.reach := by
  obtain ⟨listeners, h, -⟩ := bus.exists_step op
  rw [h]

theorem length_listeners_step (bus : Bus) (op : Op) :
    (bus.step op).1.listeners.length = bus.listeners.length + if op = .subscribe then 1 else 0 := by
  obtain ⟨listeners, h, hlength⟩ := bus.exists_step op
  rw [h]
  exact hlength

theorem lt_length_step (hi : i < bus.listeners.length) (op : Op) :
    i < (bus.step op).1.listeners.length := by
  rw [length_listeners_step]
  omega

theorem delivery?_step (bus : Bus) (i : Nat) (op : Op) :
    op.delivery? i (bus.step op).2 =
      if op = .receive i then (bus.waiting? i).map fun waiting => (bus.next waiting).1
      else none := by
  cases op with
  | receive j =>
    by_cases hji : j = i
    · subst hji
      cases hj : bus.waiting? j with
      | none => simp [step, Op.delivery?, receive_of_waiting?_eq_none hj]
      | some waiting => simp [step, Op.delivery?, receive_of_waiting? hj]
    · simp [step, Op.delivery?, hji]
  | _ => rfl

/-! ## What became of the events that were sent -/

/-- What a listener is given when the given events are waiting for it, and those that are waiting
afterwards. The oldest ones are lost, and this is told, if more are waiting than are remembered. -/
inductive Gives (reach : Nat) (isOpen : Bool) : List Event → Delivery → List Event → Prop where
  | lagged {gone kept : List Event} :
    gone ≠ [] → kept.length = reach → Gives reach isOpen (gone ++ kept) (.lagged gone.length) kept
  | event {e : Event} {rest : List Event} :
    rest.length < reach → Gives reach isOpen (e :: rest) (.event e) rest
  | empty : isOpen = true → Gives reach isOpen [] .empty []
  | closed : isOpen = false → Gives reach isOpen [] .closed []

theorem gives_next (bus : Bus) (waiting : List Event) :
    Gives bus.reach bus.isOpen waiting (bus.next waiting).1 (bus.next waiting).2 := by
  by_cases hlag : bus.reach < waiting.length
  · have hgone : (waiting.take (waiting.length - bus.reach)).length =
        waiting.length - bus.reach := by
      rw [List.length_take]
      omega
    have hkept : (waiting.drop (waiting.length - bus.reach)).length = bus.reach := by
      rw [List.length_drop]
      omega
    have hne : waiting.take (waiting.length - bus.reach) ≠ [] := by
      rw [← List.length_pos_iff, hgone]
      omega
    have hlagged : Gives bus.reach bus.isOpen _ _ _ := .lagged hne hkept
    rw [List.take_append_drop, hgone] at hlagged
    rw [next_of_lt hlag]
    exact hlagged
  · cases waiting with
    | nil =>
      rw [next_nil]
      cases hopen : bus.isOpen with
      | true => exact .empty rfl
      | false => exact .closed rfl
    | cons e rest =>
      rw [next_cons hlag]
      rw [List.length_cons] at hlag
      exact .event (by omega)

/-- What is received or lost is the oldest of what was waiting. -/
theorem exists_gone (bus : Bus) (waiting : List Event) :
    ∃ gone, waiting = gone ++ (bus.next waiting).2 ∧ ∀ ds es, Delivery.Account ds es →
      Delivery.Account ((bus.next waiting).1 :: ds) (gone ++ es) := by
  have hgives := gives_next bus waiting
  generalize (bus.next waiting).1 = d, (bus.next waiting).2 = rest at hgives ⊢
  cases hgives with
  | lagged _ _ => exact ⟨_, rfl, fun ds es h => h.lagged _⟩
  | event _ => exact ⟨[_], rfl, fun ds es h => h.event _⟩
  | empty _ => exact ⟨[], rfl, fun ds es h => h.empty⟩
  | closed _ => exact ⟨[], rfl, fun ds es h => h.closed⟩

/-- A listener that has left gets nothing, and does not come back. -/
theorem heard_of_gone (hi : i < bus.listeners.length) (h : bus.waiting? i = none)
    (ops : List Op) : bus.heard i ops = [] ∧ (bus.after ops).waiting? i = none := by
  induction ops generalizing bus with
  | nil => exact ⟨rfl, h⟩
  | cons op ops ih =>
    have hi' := lt_length_step hi op
    have hnext : (bus.step op).1.waiting? i = none := by rw [waiting?_step hi, h, Option.bind_none]
    obtain ⟨hheard, hlast⟩ := ih hi' hnext
    rw [heard, delivery?_step, h, hheard]
    refine ⟨?_, hlast⟩
    split <;> rfl

def sentOn (bus : Bus) (ops : List Op) : List Event :=
  if bus.isOpen then sent ops else []

theorem sentOn_notify (e : Event) (ops : List Op) :
    bus.sentOn (.notify e :: ops) =
      (if bus.isOpen then [e] else []) ++ (bus.notify e).sentOn ops := by
  cases hopen : bus.isOpen <;> simp [sentOn, notify, hopen, sent]

theorem sentOn_of_not_notify {op : Op} (h : ∀ e, op ≠ .notify e) (ops : List Op) :
    bus.sentOn (op :: ops) = (bus.step op).1.sentOn ops := by
  rw [sentOn, sentOn, isOpen_step]
  cases hopen : bus.isOpen with
  | false => rfl
  | true =>
    cases op with
    | notify e => exact absurd rfl (h e)
    | _ => rfl

/-- The events that were waiting and those that have been sent since are those that the deliveries
are about and, behind them, those that are waiting. -/
theorem exists_account {waiting : List Event} (h : bus.waiting? i = some waiting)
    (ops : List Op) :
    ∃ taken rest, waiting ++ bus.sentOn ops = taken ++ rest ∧
      Delivery.Account (bus.heard i ops) taken ∧
      ∀ w, (bus.after ops).waiting? i = some w → w = rest := by
  induction ops generalizing bus waiting with
  | nil =>
    refine ⟨[], waiting, ?_, .nil, ?_⟩
    · cases hopen : bus.isOpen <;> simp [sentOn, hopen, sent]
    · intro w hw
      exact (Option.some.inj (h.symm.trans hw)).symm
  | cons op ops ih =>
    have hi := lt_of_waiting? h
    have hi' := lt_length_step hi op
    have hnext := waiting?_step hi op
    rw [h, Option.bind_some] at hnext
    have hdelivery := delivery?_step bus i op
    rw [h] at hdelivery
    -- what is not received is given to nobody, and then the account goes on as it was
    have hquiet : ∀ waiting', op ≠ .receive i → (bus.step op).1.waiting? i = some waiting' →
        waiting' ++ (bus.step op).1.sentOn ops = waiting ++ bus.sentOn (op :: ops) →
        ∃ taken rest, waiting ++ bus.sentOn (op :: ops) = taken ++ rest ∧
          Delivery.Account (bus.heard i (op :: ops)) taken ∧
          ∀ w, (bus.after (op :: ops)).waiting? i = some w → w = rest := by
      intro waiting' hop hwaiting hsent
      obtain ⟨taken, rest, htaken, haccount, hrest⟩ := ih hwaiting
      refine ⟨taken, rest, hsent.symm.trans htaken, ?_, hrest⟩
      rw [heard, hdelivery, if_neg hop]
      exact haccount
    cases op with
    | subscribe =>
      exact hquiet waiting (by simp) hnext (by rw [sentOn_of_not_notify (by simp)])
    | close => exact hquiet waiting (by simp) hnext (by rw [sentOn_of_not_notify (by simp)])
    | notify e =>
      refine hquiet _ (by simp) hnext ?_
      rw [sentOn_notify]
      cases hopen : bus.isOpen <;> simp [step]
    | unsubscribe j =>
      by_cases hji : j = i
      · subst hji
        rw [keeps, if_pos rfl] at hnext
        obtain ⟨hheard, hlast⟩ := heard_of_gone hi' hnext ops
        refine ⟨[], _, rfl, ?_, ?_⟩
        · rw [heard, hheard, hdelivery]
          exact .nil
        · intro w hw
          cases hlast.symm.trans hw
      · rw [keeps, if_neg hji] at hnext
        exact hquiet waiting (by simp) hnext (by rw [sentOn_of_not_notify (by simp)])
    | receive j =>
      by_cases hji : j = i
      · subst hji
        rw [keeps, if_pos rfl] at hnext
        obtain ⟨taken, rest, htaken, haccount, hrest⟩ := ih hnext
        obtain ⟨gone, hgone, htells⟩ := bus.exists_gone waiting
        refine ⟨gone ++ taken, rest, ?_, ?_, hrest⟩
        · rw [sentOn_of_not_notify (by simp), List.append_assoc, ← htaken, ← List.append_assoc,
            ← hgone]
        · rw [heard, hdelivery, if_pos rfl]
          exact htells _ _ haccount
      · rw [keeps, if_neg hji] at hnext
        exact hquiet waiting (by simpa using hji) hnext (by rw [sentOn_of_not_notify (by simp)])

/-! ## Other listeners -/

/-- Whether an operation concerns a listener; only what other listeners receive does not. -/
def Op.concerns (i : Nat) : Op → Bool
  | .receive j => j = i
  | _ => true

structure Agree (i : Nat) (bus bus' : Bus) : Prop where
  reach : bus'.reach = bus.reach
  isOpen : bus'.isOpen = bus.isOpen
  length : bus'.listeners.length = bus.listeners.length
  waiting : bus'.waiting? i = bus.waiting? i

theorem Agree.next {bus' : Bus} (h : Agree i bus bus') (waiting : List Event) :
    bus'.next waiting = bus.next waiting := by
  simp only [Bus.next, h.reach, h.isOpen]

theorem Agree.keeps {bus' : Bus} (h : Agree i bus bus') (waiting : List Event) (op : Op) :
    bus'.keeps i waiting op = bus.keeps i waiting op := by
  cases op with
  | notify e => simp only [Bus.keeps, h.isOpen]
  | receive j => simp only [Bus.keeps, h.next]
  | _ => rfl

theorem Agree.step {bus' : Bus} (h : Agree i bus bus') (hi : i < bus.listeners.length) (op : Op) :
    op.delivery? i (bus'.step op).2 = op.delivery? i (bus.step op).2 ∧
      Agree i (bus.step op).1 (bus'.step op).1 := by
  have hi' : i < bus'.listeners.length := h.length ▸ hi
  refine ⟨?_, ?_, ?_, ?_, ?_⟩
  · simp only [delivery?_step, h.waiting, h.next]
  · rw [reach_step, reach_step, h.reach]
  · rw [isOpen_step, isOpen_step, h.isOpen]
  · rw [length_listeners_step, length_listeners_step, h.length]
  · simp only [waiting?_step hi, waiting?_step hi', h.waiting, h.keeps]

/-- What another listener receives is not noticed. -/
theorem Agree.pass {bus' : Bus} (h : Agree i bus bus') (hi : i < bus.listeners.length) {op : Op}
    (hop : op.concerns i = false) :
    op.delivery? i (bus.step op).2 = none ∧ Agree i (bus.step op).1 bus' := by
  cases op with
  | receive j =>
    have hji : j ≠ i := by simpa [Op.concerns] using hop
    refine ⟨?_, ?_, ?_, ?_, ?_⟩
    · rw [delivery?_step, if_neg (by simpa using hji)]
    · rw [reach_step, h.reach]
    · rw [isOpen_step, h.isOpen]
      simp
    · rw [length_listeners_step, h.length]
      simp
    · rw [waiting?_step hi, h.waiting]
      simp only [Bus.keeps, if_neg hji, Option.bind_fun_some]
  | _ => cases hop

theorem Agree.run {bus' : Bus} (h : Agree i bus bus') (hi : i < bus.listeners.length)
    (ops : List Op) :
    bus'.heard i (ops.filter (Op.concerns i)) = bus.heard i ops ∧
      Agree i (bus.after ops) (bus'.after (ops.filter (Op.concerns i))) := by
  induction ops generalizing bus bus' with
  | nil => exact ⟨rfl, h⟩
  | cons op ops ih =>
    have hi' := lt_length_step hi op
    cases hop : op.concerns i with
    | true =>
      obtain ⟨hdelivery, hnext⟩ := h.step hi op
      obtain ⟨hheard, hlast⟩ := ih hnext hi'
      rw [List.filter_cons_of_pos hop]
      refine ⟨?_, hlast⟩
      rw [heard, heard, hdelivery, hheard]
    | false =>
      obtain ⟨hdelivery, hnext⟩ := h.pass hi hop
      obtain ⟨hheard, hlast⟩ := ih hnext hi'
      rw [List.filter_cons_of_neg (by simp [hop])]
      refine ⟨?_, hlast⟩
      rw [heard, hdelivery, hheard]
      rfl

/-! ## After the end -/

def dues (reach : Nat) (waiting : List Event) : List Delivery :=
  if reach < waiting.length then
    .lagged (waiting.length - reach) :: (waiting.drop (waiting.length - reach)).map .event
  else waiting.map .event

theorem dues_eq_cons (bus : Bus) {waiting : List Event} (h : waiting ≠ []) :
    dues bus.reach waiting =
      (bus.next waiting).1 :: dues bus.reach (bus.next waiting).2 := by
  by_cases hlag : bus.reach < waiting.length
  · have hrest : ¬bus.reach < (waiting.drop (waiting.length - bus.reach)).length := by
      rw [List.length_drop]
      omega
    simp only [next_of_lt hlag, dues, if_pos hlag, if_neg hrest]
  · obtain ⟨e, rest, rfl⟩ := List.exists_cons_of_ne_nil h
    have hrest : ¬bus.reach < rest.length := by
      rw [List.length_cons] at hlag
      omega
    simp only [next_cons hlag, dues, if_neg hlag, if_neg hrest, List.map_cons]

/-- After the end of the bus a listener is given what was waiting, and then told that it is over. -/
theorem heard_of_closed (hclosed : bus.isOpen = false) {waiting : List Event}
    (h : bus.waiting? i = some waiting) {ops : List Op} (hstays : .unsubscribe i ∉ ops) :
    bus.heard i ops = (dues bus.reach waiting).take (ops.count (.receive i)) ++
      .replicate (ops.count (.receive i) - (dues bus.reach waiting).length) .closed := by
  induction ops generalizing bus waiting with
  | nil => simp [heard]
  | cons op ops ih =>
    obtain ⟨hop, hops⟩ := List.ne_and_not_mem_of_not_mem_cons hstays
    have hclosed' : (bus.step op).1.isOpen = false := by
      rw [isOpen_step, hclosed]
      rfl
    have hnext := waiting?_step (lt_of_waiting? h) op
    rw [h, Option.bind_some] at hnext
    rw [heard, delivery?_step, h]
    by_cases hown : op = .receive i
    · subst hown
      rw [keeps, if_pos rfl] at hnext
      have hrest := ih hclosed' hnext hops
      rw [reach_step] at hrest
      rw [if_pos rfl, List.count_cons_self, hrest]
      cases waiting with
      | nil => simp [next_nil, hclosed, dues, List.replicate_succ]
      | cons e waiting =>
        rw [dues_eq_cons bus (List.cons_ne_nil e waiting)]
        simp
    · have hkeeps : bus.keeps i waiting op = some waiting := by
        cases op with
        | notify e => simp [keeps, hclosed]
        | receive j =>
          have hji : j ≠ i := by simpa using hown
          rw [keeps, if_neg hji]
        | unsubscribe j =>
          have hji : j ≠ i := by simpa using Ne.symm hop
          rw [keeps, if_neg hji]
        | _ => rfl
      have hrest := ih hclosed' (hnext.trans hkeeps) hops
      rw [reach_step] at hrest
      rw [if_neg hown, List.count_cons_of_ne hown, hrest]
      rfl

/-! ## How many listeners there are -/

theorem count_set {x : Option (List Event)} (hi : i < bus.listeners.length) :
    ({ bus with listeners := bus.listeners.set i x } : Bus).count + (bus.listens i).toNat =
      bus.count + x.isSome.toNat := by
  have hlistens : bus.listens i = (bus.listeners[i]).isSome := by
    rw [listens, List.getElem?_eq_getElem hi]
    rfl
  have hpos : (bus.listeners[i]).isSome = true → 0 < bus.listeners.countP Option.isSome := by
    intro hsome
    exact List.countP_pos_iff.2 ⟨_, List.getElem_mem hi, hsome⟩
  rw [count, count, List.countP_set hi, hlistens]
  generalize (bus.listeners[i]).isSome = wasThere at hpos ⊢
  cases wasThere with
  | false => cases x.isSome <;> simp
  | true =>
    have hpos := hpos rfl
    cases x.isSome <;> simp <;> omega

theorem count_step (bus : Bus) (op : Op) :
    (bus.step op).1.count + (if (bus.step op).2 = .left true then 1 else 0) =
      bus.count + if op = .subscribe ∧ bus.isOpen = true then 1 else 0 := by
  cases op with
  | subscribe => cases hopen : bus.isOpen <;> simp [step, subscribe, count, hopen]
  | notify e =>
    cases hopen : bus.isOpen <;>
      simp [step, notify, count, hopen, List.countP_map, Function.comp_def]
  | receive j =>
    cases hj : bus.waiting? j with
    | none => simp [step, receive_of_waiting?_eq_none hj]
    | some waiting =>
      have hlistens : bus.listens j = true := by
        have hjoin : bus.listeners[j]?.join = some waiting := hj
        rw [listens, hjoin, Option.isSome_some]
      have hset := count_set (x := some (bus.next waiting).2) (lt_of_waiting? hj)
      rw [hlistens] at hset
      simp only [step, receive_of_waiting? hj]
      simpa using hset
  | unsubscribe j =>
    by_cases hj : j < bus.listeners.length
    · have hset := count_set (x := none) hj
      cases hlistens : bus.listens j <;> simpa [step, unsubscribe, hlistens] using hset
    · have hsame : bus.unsubscribe j = bus := by
        rw [unsubscribe, List.set_eq_of_length_le (Nat.le_of_not_lt hj)]
      have hlistens : bus.listens j = false := by
        rw [listens, List.getElem?_eq_none (Nat.le_of_not_lt hj)]
        rfl
      simp [step, hsame, hlistens]
  | close => simp [step, close, count]

/-- Who has joined and has not left is there. -/
theorem count_after (hopen : bus.isOpen = true) {ops : List Op} (hops : .close ∉ ops) :
    (bus.after ops).count + (bus.outcomes ops).count (.left true) =
      bus.count + ops.count .subscribe := by
  induction ops generalizing bus with
  | nil => rfl
  | cons op ops ih =>
    obtain ⟨hop, hops⟩ := List.ne_and_not_mem_of_not_mem_cons hops
    have hopen' : (bus.step op).1.isOpen = true := by
      rw [isOpen_step, hopen]
      simpa using hop.symm
    have hstep := bus.count_step op
    have hrest := ih hopen' hops
    simp only [hopen, and_true] at hstep
    simp only [after_cons, outcomes, List.count_cons, beq_iff_eq]
    omega

/-! ## Whole runs -/

theorem isOpen_after (bus : Bus) (ops : List Op) :
    (bus.after ops).isOpen = (bus.isOpen && .close ∉ ops) := by
  induction ops generalizing bus with
  | nil => simp [after]
  | cons op ops ih =>
    rw [after_cons, ih, isOpen_step]
    by_cases hop : op = .close
    · simp [hop]
    · simp [hop, Ne.symm hop]

theorem reach_after (bus : Bus) (ops : List Op) : (bus.after ops).reach = bus.reach := by
  induction ops generalizing bus with
  | nil => rfl
  | cons op ops ih => rw [after_cons, ih, reach_step]

theorem length_listeners_after (bus : Bus) (ops : List Op) :
    (bus.after ops).listeners.length = bus.listeners.length + ops.count .subscribe := by
  induction ops generalizing bus with
  | nil => rfl
  | cons op ops ih =>
    simp only [after_cons, ih, length_listeners_step, List.count_cons, beq_iff_eq]
    omega

/-- A listener is there until it leaves. -/
theorem exists_waiting {waiting : List Event} (h : bus.waiting? i = some waiting) {ops : List Op}
    (hstays : .unsubscribe i ∉ ops) : ∃ w, (bus.after ops).waiting? i = some w := by
  induction ops generalizing bus waiting with
  | nil => exact ⟨waiting, h⟩
  | cons op ops ih =>
    obtain ⟨hop, hops⟩ := List.ne_and_not_mem_of_not_mem_cons hstays
    have hkeeps : ∃ w, bus.keeps i waiting op = some w := by
      cases op with
      | unsubscribe j =>
        have hji : j ≠ i := by simpa using Ne.symm hop
        exact ⟨waiting, if_neg hji⟩
      | _ => exact ⟨_, rfl⟩
    obtain ⟨w, hw⟩ := hkeeps
    have hnext := waiting?_step (lt_of_waiting? h) op
    rw [h, Option.bind_some, hw] at hnext
    exact ih hnext hops

/-- Who joins an open bus has nothing waiting. -/
theorem waiting?_subscribe (hopen : bus.isOpen = true) :
    bus.subscribe.waiting? bus.listeners.length = some [] := by
  simp [subscribe, waiting?, hopen]

/-- A channel of any size but zero makes a bus that remembers as many events as the next power of
two. An event reaches all who have joined and not left. Whoever joins is given, in order, some of
the events that are sent from then on; together with those that are reported as lost and those that
are waiting they are all. A loss is reported if and only if more are waiting than are remembered,
and leaves just so many of the newest ones. After the end of the bus a listener is given what was
waiting and then told that it is over. What other listeners receive makes no difference to any of
this. -/
theorem deliveries_accounted {capacity : Nat} (hcapacity : 0 < capacity) :
    ∃ bus : Bus, ofCapacity? capacity = some bus ∧
      (∃ k, bus.reach = 2 ^ k) ∧ capacity ≤ bus.reach ∧
      (∀ k, capacity ≤ 2 ^ k → bus.reach ≤ 2 ^ k) ∧
      (∀ ops e, .close ∉ ops → ∃ n, ((bus.after ops).step (.notify e)).2 = .reached n ∧
        n + (bus.outcomes ops).count (.left true) = ops.count .subscribe) ∧
      ∀ before : List Op, .close ∉ before →
        let i := before.count .subscribe
        let joined := bus.after (before ++ [.subscribe])
        ∀ ops : List Op,
          let ds := joined.heard i ops
          let now := joined.after ops
          (Delivery.obtained ds).Sublist (sent ops) ∧
          (.unsubscribe i ∉ ops → ∃ waiting, now.waiting? i = some waiting ∧
            waiting <:+ sent ops ∧
            (Delivery.obtained ds).length + Delivery.lostIn ds + waiting.length =
              (sent ops).length ∧
            (∃ d rest, (now.step (.receive i)).2 = .given (some d) ∧
              (now.step (.receive i)).1.waiting? i = some rest ∧
              Gives bus.reach (.close ∉ ops) waiting d rest) ∧
            (.close ∈ ops → ∀ more, .unsubscribe i ∉ more →
              now.heard i more =
                (dues bus.reach waiting).take (more.count (.receive i)) ++
                  .replicate (more.count (.receive i) - (dues bus.reach waiting).length)
                    .closed)) ∧
          joined.heard i (ops.filter (Op.concerns i)) = ds ∧
          (joined.after (ops.filter (Op.concerns i))).waiting? i = now.waiting? i := by
  let bus : Bus := { reach := roundUp capacity }
  have hnew : ofCapacity? capacity = some bus := if_neg (Nat.ne_of_gt hcapacity)
  refine ⟨bus, hnew, exists_roundUp_eq capacity, le_roundUp capacity, fun k => roundUp_le, ?_, ?_⟩
  · intro ops e hops
    have hopen : (bus.after ops).isOpen = true := by
      rw [isOpen_after]
      simpa [bus] using hops
    have hcount : (bus.after ops).count + (bus.outcomes ops).count (.left true) =
        bus.count + ops.count .subscribe := count_after rfl hops
    refine ⟨(bus.after ops).count, ?_, hcount.trans (Nat.zero_add _)⟩
    simp only [step, reached, hopen, if_true]
  intro before hbefore i joined ops ds now
  have hopen : (bus.after before).isOpen = true := by
    rw [isOpen_after]
    simpa [bus] using hbefore
  have hlength : (bus.after before).listeners.length = i :=
    (length_listeners_after bus before).trans (Nat.zero_add _)
  have hjoined : joined = (bus.after before).subscribe := after_append bus before [.subscribe]
  have hreach : joined.reach = bus.reach := reach_after ..
  have hjoinedOpen : joined.isOpen = true := by rw [hjoined]; exact hopen
  have hwaiting : joined.waiting? i = some [] := by
    rw [hjoined, ← hlength]
    exact waiting?_subscribe hopen
  have hnowOpen : now.isOpen = decide (.close ∉ ops) := by
    rw [isOpen_after, hjoinedOpen, Bool.true_and]
  obtain ⟨taken, rest, htaken, haccount, hrest⟩ := exists_account hwaiting ops
  rw [List.nil_append, sentOn, if_pos hjoinedOpen] at htaken
  have hagree : Agree i joined joined := ⟨rfl, rfl, rfl, rfl⟩
  obtain ⟨hheard, hlast⟩ := hagree.run (lt_of_waiting? hwaiting) ops
  refine ⟨?_, ?_, hheard, hlast.waiting⟩
  · rw [htaken]
    exact haccount.sublist.trans (List.sublist_append_left ..)
  intro hstays
  obtain ⟨waiting, hnow⟩ := exists_waiting hwaiting hstays
  have hsuffix : sent ops = taken ++ waiting := by rw [htaken, hrest waiting hnow]
  have hnowReach : now.reach = bus.reach := (reach_after joined ops).trans hreach
  refine ⟨waiting, hnow, ⟨taken, hsuffix.symm⟩, ?_, ?_, ?_⟩
  · rw [hsuffix, List.length_append, haccount.length_eq]
  · have hstep := waiting?_step (lt_of_waiting? hnow) (.receive i)
    rw [hnow, Option.bind_some, keeps, if_pos rfl] at hstep
    have hgives := gives_next now waiting
    rw [hnowReach, hnowOpen] at hgives
    have hreceive : now.receive i = _ := receive_of_waiting? hnow
    refine ⟨(now.next waiting).1, (now.next waiting).2, ?_, hstep, hgives⟩
    rw [step, hreceive]
  · intro hclose more hmore
    have hclosed : now.isOpen = false := by
      rw [hnowOpen]
      simpa using hclose
    have hlater := heard_of_closed hclosed hnow hmore
    rwa [hnowReach] at hlater

/-- A bus of two hears three events, of which the first is lost, while a listener that never
receives listens too. -/
theorem deliveries_trial : ∃ bus : Bus, ofCapacity? 2 = some bus ∧ bus.reach = 2 ∧
    (let created : Event := ⟨1, .created⟩
     let updated : Event := ⟨1, .updated⟩
     let removed : Event := ⟨1, .removed⟩
     let joined := bus.after [.subscribe, .notify removed, .subscribe]
     let ops : List Op := [.notify created, .notify updated, .notify removed, .receive 1,
       .receive 0, .receive 1, .close]
     joined.heard 1 ops = [.lagged 1, .event updated] ∧
       (Delivery.obtained (joined.heard 1 ops)).Sublist (sent ops) ∧
       ∃ waiting, (joined.after ops).waiting? 1 = some waiting ∧ waiting = [removed] ∧
         1 + 1 + waiting.length = (sent ops).length ∧
         (joined.after ops).heard 1 [.receive 1, .receive 1] = [.event removed, .closed]) := by
  have htwo : 0 < 2 := by decide
  obtain ⟨bus, hnew, -, -, -, -, hlisteners⟩ := deliveries_accounted htwo
  cases hnew
  obtain ⟨hsublist, hstays, -, -⟩ := hlisteners [.subscribe, .notify ⟨1, .removed⟩] (by decide)
    [.notify ⟨1, .created⟩, .notify ⟨1, .updated⟩, .notify ⟨1, .removed⟩, .receive 1, .receive 0,
      .receive 1, .close]
  obtain ⟨waiting, hwaiting, -, hlength, -, hlater⟩ := hstays (by decide)
  have hwaits : waiting = [⟨1, .removed⟩] :=
    Option.some.inj (hwaiting.symm.trans (by decide +kernel))
  refine ⟨_, rfl, by decide +kernel, by decide +kernel, hsublist, waiting, hwaiting, hwaits, ?_, ?_⟩
  · exact hlength
  · subst hwaits
    exact (hlater (by decide) [.receive 1, .receive 1] (by decide)).trans (by decide +kernel)

end Bus

end Roster
