import Roster.Command.Basic
import Roster.CommandLine.Scan

/-!
From a command line and the environment to settings and a command. An option that is not given is
taken from its environment variable; one that is given hides its variable.
-/

namespace Roster

abbrev Environment : Type :=
  String → Option String

structure Invocation where
  settings : Settings
  command : Command
deriving DecidableEq, Repr

namespace CommandLine

def settingsOf (given : Given) : Settings :=
  let standard : Settings := {}
  { dataDir := given.textOf .dataDir standard.dataDir
    logLevel := given.textOf .logLevel standard.logLevel
    logFormat :=
      (Log.Format.ofName? (given.textOf .logFormat standard.logFormat.name)).getD standard.logFormat
    capacity := given.numberOf .capacity standard.capacity
    flushInterval := given.numberOf .flushInterval standard.flushInterval
    chunkSize := given.numberOf .chunkSize standard.chunkSize
    poolSize := given.numberOf .poolSize standard.poolSize
    eventChannelSize := given.numberOf .eventChannelSize standard.eventChannelSize }

def wordOf (given : Given) (a : Arg) (default : Nat) : UInt64 :=
  UInt64.ofNat (given.numberOf a default)

def commandOf (given : Given) : Verb → Command
  | .ingest => .ingest
  | .create => .create (given.textOf .name "") (given.textOf .description "")
  | .get => .get (wordOf given .id 0)
  | .list => .list (wordOf given .limit 20) (wordOf given .offset 0)
  | .update =>
    .update (wordOf given .id 0) (given.textOf .name "") (given.textOf .description "")
  | .search =>
    .search (given.textOf .query "")
      ((Search.Mode.ofName? (given.textOf .mode Search.Mode.standard.name)).getD .standard)
  | .remove => .remove (wordOf given .id 0)

def addVariables (env : Environment) (given : Given) : List Arg → Except Error Given
  | [] => .ok given
  | a :: as =>
    match if given.has a then none else a.fallback?.bind env with
    | none => addVariables env given as
    | some value =>
      match given.add a value with
      | .error e => .error e
      | .ok given => addVariables env given as

def parseVerb (v : Verb) (words : List String) : Except Error Command :=
  match Scan.steps (.verb v) {} words with
  | .error e => .error e
  | .ok s =>
    match s.settled with
    | .error e => .error e
    | .ok given =>
      match v.required.filter fun a => !given.has a with
      | [] => .ok (commandOf given v)
      | as => .error (.missing as)

def helpOn : List String → Error
  | [] => .asked .help
  | word :: words =>
    if (Verb.ofName? word).isSome || word = Inquiry.help.label then
      match words with
      | [] => .asked .help
      | next :: _ => .unknownCommand next
    else .unknownCommand word

def scanTop (s : Scan) : List String → Except Error (Scan × Option Command)
  | [] => .ok (s, none)
  | word :: words =>
    match if s.trailing || s.awaitsValue then none else Verb.ofName? word with
    | some v =>
      match parseVerb v words with
      | .error e => .error e
      | .ok command => .ok (s, some command)
    | none =>
      if !s.trailing && !s.awaitsValue && word = Inquiry.help.label then .error (helpOn words)
      else
        match s.step .top word with
        | .error e => .error e
        | .ok s => scanTop s words

def parse (env : Environment) (words : List String) : Except Error Invocation :=
  match scanTop {} words with
  | .error e => .error e
  | .ok (s, command) =>
    match s.settled with
    | .error e => .error e
    | .ok given =>
      match addVariables env given Arg.settings with
      | .error e => .error e
      | .ok given =>
        match command with
        | some command => .ok ⟨settingsOf given, command⟩
        | none => .error (if given = [] then .nothing else .noCommand)

end CommandLine

end Roster
