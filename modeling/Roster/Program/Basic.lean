import Roster.Command.Execute
import Roster.CommandLine.Basic
import Roster.CommandLine.Usage
import Roster.Ingest.Basic
import Roster.Log.Filter
import Roster.Log.Line
import Roster.Program.Disk
import Roster.Settings
import Roster.Store.Entry

/-!
A run of the program: the command line and the environment tell what to do, the input is read if it
is asked for, and what is printed, what is reported and how it ended are given back.
-/

namespace Roster.Program

inductive Output where
  | text (s : String)
  /-- How the program is used. -/
  | usage
deriving DecidableEq, Repr

structure Transcript where
  exitCode : Nat
  output : Output
  errors : List Log.Line
deriving DecidableEq, Repr

inductive Failure where
  | directory (path : String) (obstacle : Disk.Obstacle)
  | store (path : String) (error : StoreError)
  | ingest (failure : Ingest.Failure)
  | command (failure : Command.Failure)
deriving DecidableEq, Repr

def Failure.chain : Failure → List String
  | .directory path obstacle => ["failed to create data dir " ++ path, obstacle.message]
  | .store path e => ("failed to open store at " ++ path) :: e.chain
  | .ingest failure => failure.chain
  | .command failure => failure.chain

def padded (n : Nat) : String :=
  String.ofList (List.replicate (5 - (toString n).length) ' ') ++ toString n

def textLines (s : String) : List String :=
  (s.toList.splitOn '\n').map String.ofList

def indented (first later : String) (s : String) : List String :=
  match textLines s with
  | [] => []
  | line :: lines => (first ++ line) :: lines.map (later ++ ·)

/-- The lines about causes: they are numbered if there are several. -/
def causeLines : List String → List String
  | [] => []
  | [cause] => "" :: "Caused by:" :: indented "    " "    " cause
  | causes =>
    "" :: "Caused by:" ::
      causes.zipIdx.flatMap fun (cause, i) => indented (padded i ++ ": ") "       " cause

def failureLines : List String → List String
  | [] => []
  | outer :: causes => textLines ("Error: " ++ outer) ++ causeLines causes

def initialized (s : Settings) : Log.Record :=
  ⟨.info, "team_saver::observability::tracing", "Tracing initialized",
    [("level", .text s.logLevel), ("format", .shown s.logFormat.title)], none⟩

def finished : Log.Record :=
  ⟨.debug, "team_saver", "Team Saver finished", [], none⟩

def mainThread : Nat := 1

def saverThread : Nat := 2

def storeThread : Nat := 3

def saverRecords : Saver.Entry → List (Nat × Log.Record)
  | .written chunk count =>
    [(storeThread, (Store.Entry.inserted count).record),
      (saverThread, (Saver.Entry.written chunk count).record)]
  | e => [(saverThread, e.record)]

structure Work where
  result : Except Failure String
  log : List (Nat × Log.Record)
  store : Store

/-- Ingests the input. The saver reports its start on the main thread, and all else on its own,
before the main thread reports the end. The store reports every batch that it has added. -/
def ingest (s : Settings) (opened : Disk.Opened) (input : List UInt8) : Work :=
  let repo := if opened.isWritable then Store.repo else Store.readOnlyRepo
  let done := Ingest.runInto repo s.saver s.chunkSize opened.store input
  let (closing, reading) := done.log.partition Ingest.Entry.isFinished
  let log :=
    (done.saverLog.take 1).map (fun e => (mainThread, e.record)) ++
      reading.map (fun e => (mainThread, e.record)) ++
      (done.saverLog.drop 1).flatMap saverRecords ++
      closing.map (fun e => (mainThread, e.record))
  ⟨match done.result with
    | .error failure => .error (.ingest failure)
    | .ok _ => .ok "", log, done.store⟩

/-- Executes a command that ends after one call. The bus has room for one event at least. -/
def executeOnce (s : Settings) (store : Store) (command : Command) : Work :=
  let bus := (Bus.ofCapacity? s.eventChannelSize).getD { reach := 1 }
  let done := Command.execute (Service.ofStore store bus s.chunkSize) command
  ⟨match done.result with
    | .error failure => .error (.command failure)
    | .ok lines => .ok (String.join (lines.map (· ++ "\n"))),
    done.log.map fun e => (mainThread, e.record), done.service.store⟩

def changes : Command → Bool
  | .create _ _ | .update _ _ _ | .remove _ => true
  | _ => false

/-- Executes a command on a store that may only be read. A change is refused, but not before its
arguments have been looked at. -/
def executeReading (s : Settings) (store : Store) (command : Command) : Work :=
  let done := executeOnce s store command
  match changes command, done.result with
  | false, _ | true, .error (.command (.service (.invalid _))) => done
  | true, _ => ⟨.error (.command (.service (.storage (.refused .readOnly)))), [], store⟩

def work (s : Settings) (opened : Disk.Opened) (command : Command) (input : List UInt8) : Work :=
  match command, opened.isWritable with
  | .ingest, _ => ingest s opened input
  | command, true => executeOnce s opened.store command
  | command, false => executeReading s opened.store command

def logLines (filter : Log.Filter) (format : Log.Format) (log : List (Nat × Log.Record)) :
    List Log.Line :=
  log.filterMap fun (thread, r) => (filter.written? r).map fun r => r.line format thread

def transcript (env : Environment) (s : Settings) (log : List (Nat × Log.Record)) :
    Except Failure String → Transcript
  | .error failure =>
    ⟨1, .text "",
      logLines (Log.Filter.choose (env "RUST_LOG") s.logLevel) s.logFormat
          ((mainThread, initialized s) :: log) ++
        (failureLines failure.chain).map .text⟩
  | .ok output =>
    ⟨0, .text output,
      logLines (Log.Filter.choose (env "RUST_LOG") s.logLevel) s.logFormat
        ((mainThread, initialized s) :: log ++ [(mainThread, finished)])⟩

def refusal (e : CommandLine.Error) : Transcript :=
  match e with
  | .asked .help => ⟨e.exitCode, .usage, []⟩
  | .asked .version => ⟨e.exitCode, .text (e.message ++ "\n"), []⟩
  | .nothing => ⟨e.exitCode, .text "", CommandLine.usage.map .text⟩
  | e => ⟨e.exitCode, .text "", [.text e.headline]⟩

def run (env : Environment) (words : List String) (input : List UInt8) (disk : Disk) :
    Transcript × Disk :=
  match CommandLine.parse env words with
  | .error e => (refusal e, disk)
  | .ok ⟨s, command⟩ =>
    match disk.ensureDirectory s.dataDir with
    | .error obstacle => (transcript env s [] (.error (.directory s.dataDir obstacle)), disk)
    | .ok disk =>
      match disk.openStore s.storePath with
      | (.error e, disk) => (transcript env s [] (.error (.store s.storePath e)), disk)
      | (.ok opened, disk) =>
        let done := work s opened command input
        (transcript env s done.log done.result, disk.close opened done.store)

end Roster.Program
