import Roster.Ingest.Session

/-!
Ingesting: the records of an input are handed to a saver, one line after the other. A record that
is not acceptable is reported and passed over; a line that is no text, and a saver that takes no
more teams, end it. An input that is there at once leaves no time in between; around one that comes
in pieces anything may happen.
-/

namespace Roster.Ingest

variable {σ : Type}

inductive Shutdown where
  | never
  /-- Nobody is left who could ask for it. -/
  | abandoned
  /-- It is asked for once the whole input has been read, while more might have followed. -/
  | afterInput
deriving DecidableEq, Repr

def Shutdown.occurrences (input : List UInt8) : Shutdown → List Occurrence
  | .never => [.arrived input, .ended]
  | .abandoned => [.abandoned, .arrived input, .ended]
  | .afterInput => [.arrived input, .signalled true]

structure Ingested (σ : Type) where
  saver : Saver.State σ
  log : List Entry
  result : Except Error Report

variable (m : Saver.Setup σ)

/-- What a session leaves; if it is not over, what it has come to so far. -/
def Session.ingested (x : Session σ) : Ingested σ :=
  ⟨x.saver, x.log, x.result.getD (.ok x.report)⟩

/-- Ingests into a saver while the given things happen. -/
def attend (s : Saver.State σ) (os : List Occurrence) : Ingested σ :=
  ((Session.start s).after m os).ingested

def ingest (s : Saver.State σ) (input : List UInt8) (shutdown : Shutdown) : Ingested σ :=
  attend m s (shutdown.occurrences input)

def Ingested.close (done : Ingested σ) : Ingested σ :=
  { done with saver := (done.saver.submit m .close).1 }

def ingestAndClose (s : Saver.State σ) (input : List UInt8) (shutdown : Shutdown) :
    Ingested σ :=
  (ingest m s input shutdown).close m

/-! ## Into a store -/

inductive Failure where
  /-- The saver cannot be started. -/
  | start (error : Saver.Error)
  | ingest (error : Error)
deriving DecidableEq, Repr

def Failure.chain : Failure → List String
  | .start error => ["failed to start saver", error.message]
  | .ingest error => "ingest failed" :: error.chain

structure Run where
  store : Store
  saverLog : List Saver.Entry
  log : List Entry
  result : Except Failure Report

/-- Ingests into a store, which takes batches in a given way, through a saver of its own, while the
given things happen. -/
def runAround (repo : Repo Store) (config : Saver.Config) (chunkSize : Nat) (store : Store)
    (os : List Occurrence) : Run :=
  match config.setup chunkSize repo with
  | .error error => ⟨store, [], [], .error (.start error)⟩
  | .ok m =>
    let done := (attend m (Saver.start m store) os).close m
    let log := .started config.capacity config.interval chunkSize :: done.log
    match done.result with
    | .error error => ⟨done.saver.world, done.saver.log, log, .error (.ingest error)⟩
    | .ok report =>
      ⟨done.saver.world, done.saver.log, log ++ [.finished report], .ok report⟩

/-- Ingests an input that is there at once. -/
def runInto (repo : Repo Store) (config : Saver.Config) (chunkSize : Nat) (store : Store)
    (input : List UInt8) (shutdown : Shutdown := .never) : Run :=
  runAround repo config chunkSize store (shutdown.occurrences input)

def run (config : Saver.Config) (chunkSize : Nat) (store : Store) (input : List UInt8)
    (shutdown : Shutdown := .never) : Run :=
  runInto Store.repo config chunkSize store input shutdown

end Roster.Ingest
