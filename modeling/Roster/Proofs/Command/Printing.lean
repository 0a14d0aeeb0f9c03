import Roster.Command.Execute
import Roster.Proofs.Search.Found
import Roster.Proofs.Service.Listening
import Roster.Proofs.Team.Json
import Roster.Program.Basic

/-!
What a command prints. A command asks the service for one operation; what that yields is printed,
and then the event that a listener from the beginning of the command to its end has received. One
that fails prints nothing and leaves the store as it was.
-/

namespace Roster

/-! ## Executing a command -/

namespace Command

open Service (Op Value announced)

/-- The operation that a command asks for, if it is over after one. -/
def op? : Command → Option Op
  | .ingest => none
  | .create name description => some (.create ⟨name, description⟩)
  | .get id => some (.get id)
  | .list limit offset => some (.list limit offset)
  | .update id name description => some (.update id ⟨name, description⟩)
  | .search query mode => some (.search query mode)
  | .remove id => some (.remove id)

def linesFor : Value → List String
  | .nothing | .ids _ => []
  | .id n => [createdLine n]
  | .team t => [t.json]
  | .teams ts => [foundLine ts]
  | .page ts total => [pageLine (ts, total)]

def output (op : Op) : Except Service.Error Value → Except Failure (List String)
  | .error e => .error (.service e)
  | .ok v => .ok (linesFor v ++ (announced op (.ok v)).map Event.json)

theorem exists_of_output_ok {op : Op} {r : Except Service.Error Value} {lines : List String}
    (h : output op r = .ok lines) :
    ∃ v, r = .ok v ∧ lines = linesFor v ++ (announced op (.ok v)).map Event.json := by
  cases r with
  | error e => cases h
  | ok v =>
    cases h
    exact ⟨v, rfl, rfl⟩

theorem exists_of_output_error {op : Op} {r : Except Service.Error Value} {failure : Failure}
    (h : output op r = .error failure) : ∃ e, r = .error e ∧ failure = .service e := by
  cases r with
  | ok v => cases h
  | error e =>
    cases h
    exact ⟨e, rfl, rfl⟩

variable {s : Service} {command : Command} {op : Op}

/-- A call whose lines are those for what an operation yields. -/
theorem result_afterCall {α : Type} (f : α → Value) (call : Service.Call α) :
    (afterCall (fun a => linesFor (f a)) call).result =
      match (call.map f).result with
      | .error e => .error (.service e)
      | .ok v => .ok (linesFor v) := by
  rw [afterCall, Service.Call.map]
  cases call.result <;> rfl

theorem result_perform (h : command.op? = some op) (s : Service) :
    (perform s command).result =
        (match (s.perform op).result with
        | .error e => .error (.service e)
        | .ok v => .ok (linesFor v)) ∧
      (perform s command).service = (s.perform op).service := by
  cases command with
  | ingest => cases h
  | create name description =>
    cases h
    exact ⟨result_afterCall .id _, rfl⟩
  | get id =>
    cases h
    exact ⟨result_afterCall .team _, rfl⟩
  | list limit offset =>
    cases h
    exact ⟨rfl, rfl⟩
  | update id name description =>
    cases h
    exact ⟨result_afterCall (fun _ => .nothing) _, rfl⟩
  | search query mode =>
    cases h
    exact ⟨result_afterCall .teams _, rfl⟩
  | remove id =>
    cases h
    exact ⟨result_afterCall (fun _ => .nothing) _, rfl⟩

/-- A command does what its operation does, and prints what that yields and the event that it sends.
Whoever listened before or has left makes no difference. -/
theorem execute_of_op (hbus : s.bus.IsWorking) (h : command.op? = some op) :
    (command.execute s).result = output op (s.perform op).result ∧
      (command.execute s).service.store = (s.perform op).service.store ∧
      (command.execute s).service.bus.IsWorking := by
  -- the command is performed with one listener more, who has nothing to take yet
  let listening := { s with bus := s.bus.subscribe }
  obtain ⟨hresult, hservice⟩ := result_perform h listening
  have hagrees : (s.perform op).Agrees (listening.perform op) := s.agrees_perform ..
  have hdrain := hbus.caughtUp_subscribe.drain
    (Service.length_announced_le op (listening.perform op).result)
  rw [← (listening.perform_does op).bus, ← hservice] at hdrain
  obtain ⟨hevents, hcaught, -⟩ := hdrain
  refine ⟨?_, ?_, hcaught.isWorking_unsubscribe⟩
  · have hexecute : (command.execute s).result = (perform listening command).result.map
        fun lines => lines ++
          ((perform listening command).service.bus.drain s.bus.listeners.length).1.map
            Event.json := rfl
    rw [hexecute, hevents, hresult, hagrees.result]
    cases (s.perform op).result <;> rfl
  · have hexecute : (command.execute s).service.store =
        (perform listening command).service.store := rfl
    rw [hexecute, hservice, hagrees.store]

/-- The operation of a command changes nothing when it fails. -/
theorem service_of_error (hop : command.op? = some op) {e : Service.Error}
    (h : (s.perform op).result = .error e) : (s.perform op).service = s := by
  have hdoes := s.perform_does op
  generalize s.perform op = call at hdoes h
  cases hdoes with
  | invalid flaw => rfl
  | refused e => rfl
  | createAll _ _ => cases command <;> cases hop
  | _ => cases h

theorem execute_ingest (hbus : s.bus.IsWorking) :
    (Command.ingest.execute s).result = .error .notOneShot ∧
      (Command.ingest.execute s).service.store = s.store ∧
      (Command.ingest.execute s).service.bus.IsWorking := by
  have hnone : ([] : List Event).length ≤ 1 := Nat.zero_le 1
  obtain ⟨-, hcaught, -⟩ := hbus.caughtUp_subscribe.drain hnone
  exact ⟨rfl, rfl, hcaught.isWorking_unsubscribe⟩

/-! ## Lines -/

def objectLine (ms : List (String × List Char)) : String :=
  String.ofList (Json.object ms)

def eventLine (id : UInt64) (change : Change) : String :=
  objectLine [("id", Nat.toDigits 10 id.toNat), ("event", Json.quote change.name.toList)]

theorem json_team (t : Team) : t.json = objectLine t.members := by
  rw [objectLine, Json.object, ← t.toList_json, String.ofList_toList]

theorem json_event (id : UInt64) (change : Change) :
    Event.json ⟨id, change⟩ = eventLine id change := by
  have hid : Json.quote ['i', 'd'] = ['"', 'i', 'd', '"'] := rfl
  have hevent : Json.quote ['e', 'v', 'e', 'n', 't'] =
      ['"', 'e', 'v', 'e', 'n', 't', '"'] := rfl
  have hname : Json.quote change.name.toList = '"' :: change.name.toList ++ ['"'] := by
    cases change <;> rfl
  rw [← String.toList_inj]
  simp [Event.json, eventLine, objectLine, Json.object, Json.members, Json.member, hid, hevent,
    hname]

theorem createdLine_eq (id : UInt64) :
    createdLine id = objectLine [("id", Nat.toDigits 10 id.toNat)] := by
  have hid : Json.quote ['i', 'd'] = ['"', 'i', 'd', '"'] := rfl
  rw [← String.toList_inj]
  simp [createdLine, objectLine, Json.object, Json.members, Json.member, hid]

theorem toList_teamsJson (ts : List Team) :
    (teamsJson ts).toList = Json.array (ts.map fun t => Json.object t.members) := by
  have htexts : (ts.map Team.json).map String.toList = ts.map fun t => Json.object t.members := by
    rw [List.map_map]
    exact List.map_congr_left fun t _ => t.toList_json
  simp only [teamsJson, String.toList_append, String.toList_intercalate, htexts]
  rfl

theorem foundLine_eq (ts : List Team) :
    foundLine ts = objectLine [("teams", Json.array (ts.map fun t => Json.object t.members))] := by
  have hteams : Json.quote ['t', 'e', 'a', 'm', 's'] = ['"', 't', 'e', 'a', 'm', 's', '"'] := rfl
  rw [← String.toList_inj]
  simp [foundLine, objectLine, Json.object, Json.members, Json.member, hteams, toList_teamsJson]

theorem pageLine_eq (ts : List Team) (total : Nat) :
    pageLine (ts, total) = objectLine [("total", Nat.toDigits 10 total),
      ("teams", Json.array (ts.map fun t => Json.object t.members))] := by
  have htotal : Json.quote ['t', 'o', 't', 'a', 'l'] = ['"', 't', 'o', 't', 'a', 'l', '"'] := rfl
  have hteams : Json.quote ['t', 'e', 'a', 'm', 's'] = ['"', 't', 'e', 'a', 'm', 's', '"'] := rfl
  rw [← String.toList_inj]
  simp [pageLine, objectLine, Json.object, Json.members, Json.member, htotal, hteams,
    toList_teamsJson]

def IsLine (line : String) : Prop :=
  Json.Clean line.toList

theorem isLine_objectLine {ms : List (String × List Char)} (hne : ms ≠ [])
    (h : ∀ m ∈ ms, Json.Clean m.2) : IsLine (objectLine ms) := by
  rw [IsLine, objectLine, String.toList_ofList]
  exact Json.clean_object hne h

theorem isLine_event (e : Event) : IsLine e.json := by
  rw [json_event, eventLine]
  refine isLine_objectLine (by simp) ?_
  simp [Json.clean_toDigits, Json.clean_quote]

theorem clean_teams (ts : List Team) :
    Json.Clean (Json.array (ts.map fun t => Json.object t.members)) := by
  refine Json.clean_array ?_
  intro text htext
  obtain ⟨t, -, rfl⟩ := List.mem_map.1 htext
  exact t.clean_json

theorem isLine_of_mem_linesFor {v : Value} {line : String} (h : line ∈ linesFor v) :
    IsLine line := by
  cases v with
  | nothing => cases h
  | ids ns => cases h
  | id n =>
    rw [List.mem_singleton.1 h, createdLine_eq]
    exact isLine_objectLine (by simp) (by simp [Json.clean_toDigits])
  | team t =>
    rw [List.mem_singleton.1 h, IsLine, t.toList_json]
    exact t.clean_json
  | teams ts =>
    rw [List.mem_singleton.1 h, foundLine_eq]
    exact isLine_objectLine (by simp) (by simp [clean_teams])
  | page ts total =>
    rw [List.mem_singleton.1 h, pageLine_eq]
    exact isLine_objectLine (by simp) (by simp [Json.clean_toDigits, clean_teams])

theorem isLine_of_mem_output (op : Op) (v : Value) :
    ∀ line ∈ linesFor v ++ (announced op (.ok v)).map Event.json, IsLine line := by
  intro line hline
  obtain hline | hline := List.mem_append.1 hline
  · exact isLine_of_mem_linesFor hline
  · obtain ⟨e, -, rfl⟩ := List.mem_map.1 hline
    exact isLine_event e

/-! ## What is printed -/

def Texts (s : Service) (ts : List Team) (texts : List (List Char)) : Prop :=
  List.Forall₂ (fun t text => ((Command.get t.id).execute s).result = .ok [String.ofList text]) ts
    texts

inductive Prints (s : Service) : Command → List String → Prop
  | create {name description : String} {id : UInt64}
      (h : (s.create ⟨name, description⟩).result = .ok id) :
      Prints s (.create name description)
        [objectLine [("id", Nat.toDigits 10 id.toNat)], eventLine id .created]
  | get {id : UInt64} {t : Team} (h : (s.get id).result = .ok t) :
      Prints s (.get id) [objectLine t.members]
  | list {limit offset : UInt64} {ts : List Team} {total : Nat} {texts : List (List Char)}
      (h : (s.list limit offset).result = .ok (ts, total)) (htexts : Texts s ts texts) :
      Prints s (.list limit offset)
        [objectLine [("total", Nat.toDigits 10 total), ("teams", Json.array texts)]]
  | search {query : String} {mode : Search.Mode} {ts : List Team} {texts : List (List Char)}
      (h : (s.search query mode).result = .ok ts) (htexts : Texts s ts texts) :
      Prints s (.search query mode) [objectLine [("teams", Json.array texts)]]
  | update {id : UInt64} {name description : String}
      (h : (s.update id ⟨name, description⟩).result = .ok ()) :
      Prints s (.update id name description) [eventLine id .updated]
  | remove {id : UInt64} (h : (s.remove id).result = .ok ()) :
      Prints s (.remove id) [eventLine id .removed]

inductive Fails (s : Service) : Command → Failure → Prop
  | notOneShot : Fails s .ingest .notOneShot
  | service {command : Command} {op : Op} {e : Service.Error} (hop : command.op? = some op)
      (h : (s.perform op).result = .error e) : Fails s command (.service e)

theorem get_of_holds {t : Team} (h : s.store.table.Holds t) : (s.get t.id).result = .ok t := by
  obtain ⟨r, hr, hmark, rfl⟩ := h
  have hfind : s.store.table.find? r.team.id.toInt64 = some r :=
    Table.find?_eq_some_iff.2 ⟨hr, rfl, hmark⟩
  simp only [Service.get, Store.get, hfind, Service.answer]

theorem texts_of_holds (hbus : s.bus.IsWorking) {ts : List Team}
    (h : ∀ t ∈ ts, s.store.table.Holds t) : Texts s ts (ts.map fun t => Json.object t.members) := by
  rw [Texts, List.forall₂_map_right_iff, List.forall₂_same]
  intro t ht
  have hresult : (s.perform (.get t.id)).result = .ok (.team t) := by
    rw [Service.perform, Service.Call.map, get_of_holds (h t ht), Except.map]
  have hop : (Command.get t.id).op? = some (.get t.id) := rfl
  rw [(execute_of_op hbus hop).1, hresult, ← objectLine, ← json_team]
  rfl

theorem holds_of_mem_list {limit offset : UInt64} {ts : List Team} {total : Nat}
    (h : (s.list limit offset).result = .ok (ts, total)) {t : Team} (ht : t ∈ ts) :
    s.store.table.Holds t := by
  cases h
  obtain ⟨r, hr, rfl⟩ := List.mem_map.1 ht
  have hlive : r ∈ s.store.table.live := List.mem_of_mem_drop (List.mem_of_mem_take hr)
  exact (s.store.table.shows_live.mem_iff _).1 (List.mem_map_of_mem hlive)

theorem prints_of_ok (hbus : s.bus.IsWorking) (hop : command.op? = some op) {v : Value}
    (h : (s.perform op).result = .ok v) :
    Prints s command (linesFor v ++ (announced op (.ok v)).map Event.json) := by
  cases command with
  | ingest => cases hop
  | create name description =>
    cases hop
    obtain ⟨id, hcreate, rfl⟩ := Service.Call.ok_of_map h
    simpa [linesFor, announced, createdLine_eq, json_event] using .create hcreate
  | get id =>
    cases hop
    obtain ⟨t, hget, rfl⟩ := Service.Call.ok_of_map h
    simpa [linesFor, announced, json_team] using .get hget
  | list limit offset =>
    cases hop
    obtain ⟨⟨ts, total⟩, hlist, rfl⟩ := Service.Call.ok_of_map h
    have htexts := texts_of_holds hbus fun t ht => holds_of_mem_list hlist ht
    simpa [linesFor, announced, pageLine_eq] using .list hlist htexts
  | search query mode =>
    cases hop
    obtain ⟨ts, hsearch, rfl⟩ := Service.Call.ok_of_map h
    have hfound := Service.search_ok hsearch
    have htexts := texts_of_holds hbus fun t ht => ((hfound.mem_iff t).1 ht).1
    simpa [linesFor, announced, foundLine_eq] using .search hsearch htexts
  | update id name description =>
    cases hop
    obtain ⟨_, hupdate, rfl⟩ := Service.Call.ok_of_map h
    simpa [linesFor, announced, json_event] using .update hupdate
  | remove id =>
    cases hop
    obtain ⟨_, hremove, rfl⟩ := Service.Call.ok_of_map h
    simpa [linesFor, announced, json_event] using .remove hremove

/-! ## One command after the other -/

/-- What a command writes: its lines, each of them ended, or nothing if it fails. -/
def Executed.written (done : Executed) : String :=
  match done.result with
  | .error _ => ""
  | .ok lines => String.join (lines.map (· ++ "\n"))

/-- The program writes what its command writes. -/
theorem output_executeOnce (env : Environment) (settings : Settings) (store : Store)
    (log : List (Nat × Log.Record)) :
    let bus := (Bus.ofCapacity? settings.eventChannelSize).getD { reach := 1 }
    let done := command.execute (Service.ofStore store bus settings.chunkSize)
    (Program.transcript env settings log
        (Program.executeOnce settings store command).result).output = .text done.written := by
  intro bus done
  have hdone : (Program.executeOnce settings store command).result =
      (match done.result with
      | .error failure => .error (.command failure)
      | .ok lines => .ok (String.join (lines.map (· ++ "\n")))) := rfl
  rw [hdone, Executed.written]
  cases done.result <;> rfl

/-- Lines that are JSON values are found again in what is written. -/
theorem lines_written {done : Executed} {lines : List String} (h : done.result = .ok lines)
    (hlines : ∀ line ∈ lines, IsLine line) :
    Text.lines done.written.toUTF8.toList = lines.map (·.toUTF8.toList) := by
  have hwritten : done.written.toList = (lines.map String.toList).flatMap (· ++ ['\n']) := by
    simp [Executed.written, h, String.toList_join, List.flatMap_map]
  have hencoded : lines.map (·.toUTF8.toList) = (lines.map String.toList).map Text.encode := by
    rw [List.map_map]
    exact List.map_congr_left fun line _ => Text.toList_toUTF8 line
  rw [Text.toList_toUTF8, hwritten, Text.encode_flatMap, hencoded]
  refine Text.lines_flatMap ?_
  intro bytes hbytes
  simp only [List.mem_map] at hbytes
  obtain ⟨_, ⟨line, hline, rfl⟩, rfl⟩ := hbytes
  obtain ⟨c, cs, hcons, -⟩ := (hlines line hline).isValue.begins
  exact plain_of_printable (by simp [hcons]) (hlines line hline).printable

structure Step where
  before : Service
  command : Command
  done : Executed

/-- Commands that are executed one after the other, each on the service that the former one has
left. -/
def steps (s : Service) : List Command → List Step
  | [] => []
  | command :: commands =>
    ⟨s, command, command.execute s⟩ :: steps (command.execute s).service commands

/-- A command that fails writes nothing and changes nothing that is stored. One that succeeds writes
its lines, each a JSON value, and stores what its operation stores. -/
structure Step.Sound (step : Step) : Prop where
  fails : ∀ failure, step.done.result = .error failure →
    Fails step.before step.command failure ∧ step.done.written = "" ∧
      step.done.service.store = step.before.store
  prints : ∀ lines, step.done.result = .ok lines →
    Prints step.before step.command lines ∧ (∀ line ∈ lines, IsLine line) ∧
      step.done.written = String.join (lines.map (· ++ "\n")) ∧
      Text.lines step.done.written.toUTF8.toList = lines.map (·.toUTF8.toList)
  stores : ∀ op, step.command.op? = some op →
    step.done.service.store = (step.before.perform op).service.store

theorem sound_of_op (hbus : s.bus.IsWorking) (hop : command.op? = some op) :
    Step.Sound ⟨s, command, command.execute s⟩ := by
  obtain ⟨hresult, hstore, -⟩ := execute_of_op hbus hop
  constructor
  case fails =>
    intro failure hfailure
    have hwritten : (command.execute s).written = "" := by rw [Executed.written, hfailure]
    obtain ⟨e, he, rfl⟩ := exists_of_output_error (hresult.symm.trans hfailure)
    exact ⟨.service hop he, hwritten, by rw [hstore, service_of_error hop he]⟩
  case prints =>
    intro lines hlines
    obtain ⟨v, hv, rfl⟩ := exists_of_output_ok (hresult.symm.trans hlines)
    have hall := isLine_of_mem_output op v
    exact ⟨prints_of_ok hbus hop hv, hall, by rw [Executed.written, hlines],
      lines_written hlines hall⟩
  case stores =>
    intro op' hop'
    cases hop.symm.trans hop'
    exact hstore

theorem sound_ingest (hbus : s.bus.IsWorking) :
    Step.Sound ⟨s, .ingest, Command.ingest.execute s⟩ := by
  obtain ⟨hresult, hstore, -⟩ := execute_ingest hbus
  constructor
  case fails =>
    intro failure hfailure
    cases hresult.symm.trans hfailure
    exact ⟨.notOneShot, by rw [Executed.written, hresult], hstore⟩
  case prints =>
    intro lines hlines
    cases hresult.symm.trans hlines
  case stores =>
    intro op hop
    cases hop

/-- Every command does what it should, and the next one finds a service that works. -/
theorem sound_execute (hbus : s.bus.IsWorking) (command : Command) :
    Step.Sound ⟨s, command, command.execute s⟩ ∧ (command.execute s).service.bus.IsWorking := by
  cases hop : command.op? with
  | some op => exact ⟨sound_of_op hbus hop, (execute_of_op hbus hop).2.2⟩
  | none =>
    obtain rfl : command = .ingest := by
      cases command with
      | ingest => rfl
      | _ => cases hop
    exact ⟨sound_ingest hbus, (execute_ingest hbus).2.2⟩

/-- Commands that are executed one after the other on one service, which others may listen to as
well. One that fails writes nothing and leaves all rows as they are. One that succeeds writes its
own lines, in which every team has the text that is printed when it is asked for alone, and behind
them the event of its own change; each line is a JSON value without control characters. -/
theorem commands_print_own_results (hbus : s.bus.IsWorking) (commands : List Command) :
    (steps s commands).map Step.command = commands ∧
      ∀ step ∈ steps s commands, step.Sound := by
  induction commands generalizing s with
  | nil => exact ⟨rfl, by simp [steps]⟩
  | cons command commands ih =>
    obtain ⟨hsound, hnext⟩ := sound_execute hbus command
    obtain ⟨hcommands, hall⟩ := ih hnext
    rw [steps, List.map_cons, hcommands, List.forall_mem_cons]
    exact ⟨rfl, hsound, hall⟩

def quiet : Service :=
  .ofStore .empty { reach := 1 } 1

theorem commands_print_own_results_quiet :
    quiet.bus.IsWorking ∧
      ((steps quiet [.create "a\n" "", .ingest, .list 5 0, .remove 1, .get 1]).map
          fun step => step.done.written) =
        ["\x7b\"id\":1\x7d\n\x7b\"id\":1,\"event\":\"Created\"\x7d\n", "",
          "\x7b\"total\":1,\"teams\":[\x7b\"id\":1,\"name\":\"a\\n\"," ++
            "\"description\":\"\",\"is_deleted\":false\x7d]\x7d\n",
          "\x7b\"id\":1,\"event\":\"Removed\"\x7d\n", ""] ∧
      ∀ step ∈ steps quiet [.create "a\n" "", .ingest, .list 5 0, .remove 1, .get 1],
        step.Sound := by
  have hmade : Bus.ofCapacity? 1 = some quiet.bus := rfl
  have hbus := Bus.isWorking_of_capacity hmade
  exact ⟨hbus, by cbv, (commands_print_own_results hbus _).2⟩

end Command

end Roster
