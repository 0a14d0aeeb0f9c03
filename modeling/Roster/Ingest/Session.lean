import Roster.Ingest.Entry
import Roster.Saver.Basic

/-!
An ingest while it goes on. Bytes come in, and every line that they finish is dealt with before
anything else is noticed: its record is handed to a saver, or reported and passed over. While
nothing comes, time passes, and the saver handles its ticks. The ingest is over at the end of the
input, when it is asked to stop, at a line that is no text, and when the saver takes no more teams.
-/

namespace Roster.Ingest

variable {σ : Type}

inductive Error where
  /-- A line is no text. -/
  | unreadable (flaw : Text.Utf8.Flaw)
  /-- The saver takes no more teams. -/
  | saver (error : Saver.Error)
deriving DecidableEq, Repr

def Error.message : Error → String
  | .unreadable flaw => "failed to read input: " ++ flaw.message
  | .saver error => error.message

def Error.chain : Error → List String
  | .unreadable flaw => [message (.unreadable flaw), flaw.message]
  | e => [e.message]

inductive Occurrence where
  /-- More bytes of the input are there. -/
  | arrived (bytes : List UInt8)
  /-- No more bytes will come. -/
  | ended
  /-- Nothing came for so many milliseconds. -/
  | elapsed (time : Nat)
  /-- The signal to stop is given, or taken back. -/
  | signalled (stop : Bool)
  /-- Nobody is left who could give the signal. -/
  | abandoned
deriving DecidableEq, Repr

/-! ## The signal to stop -/

structure Signal where
  stop : Bool := false
  /-- Whether anybody is left who could give it. -/
  held : Bool := true
deriving DecidableEq, Repr

inductive Signal.Wait where
  | signalled
  /-- It can no longer be given. -/
  | lost
  | pending
deriving DecidableEq, Repr

/-- Waits for the signal. One that was given counts, also when nobody is left. -/
def Signal.wait (g : Signal) : Wait :=
  if g.stop then .signalled else if g.held then .pending else .lost

/-- Whether reading is to stop. A signal that is lost is waited for without end. -/
def Signal.stops (g : Signal) : Bool :=
  match g.wait with
  | .signalled => true
  | .lost | .pending => false

/-- Gives the signal or takes it back, if there is somebody to do it. -/
def Signal.set (g : Signal) (stop : Bool) : Signal :=
  if g.held then { g with stop } else g

/-! ## Reading -/

structure Session (σ : Type) where
  saver : Saver.State σ
  signal : Signal := {}
  /-- The bytes behind the last line that is finished. -/
  begun : List UInt8 := []
  /-- The number of the last line that was read, counted from one. -/
  number : Nat := 0
  report : Report := {}
  log : List Entry := []
  /-- The result, once it is over. -/
  result : Option (Except Error Report) := none

namespace Session

def start (s : Saver.State σ) : Session σ :=
  { saver := s }

variable (m : Saver.Setup σ)

def hand (x : Session σ) (t : Team) : Session σ :=
  match x.saver.submit m (.save t) with
  | (s, .refused) => { x with saver := s, result := some (.error (.saver .closed)) }
  | (s, _) =>
    { x with saver := s, report := { x.report with accepted := x.report.accepted + 1 } }

def deal (x : Session σ) : Line → Session σ
  | .nothing => x
  | .rejected why =>
    { x with
      report := { x.report with rejected := x.report.rejected + 1 }
      log := x.log ++ [.skipped x.number why] }
  | .team t => x.hand m t

/-- Reads a line and deals with it. A line comes here without its ending, so a character that the
ending cuts off is one that is incomplete. -/
def take (x : Session σ) (line : List UInt8) : Session σ :=
  match Text.Utf8.decode line with
  | .error flaw => { x with result := some (.error (.unreadable flaw)) }
  | .ok cs => { x with number := x.number + 1 }.deal m (.ofChars cs)

def takeAll (x : Session σ) : List (List UInt8) → Session σ
  | [] => x
  | line :: lines => if x.result.isSome then x else (x.take m line).takeAll lines

def complete (x : Session σ) : Session σ :=
  if x.result.isSome then x else { x with result := some (.ok x.report) }

def heed (x : Session σ) : Session σ :=
  if x.result.isSome then x
  else if x.signal.stops then
    { x with log := x.log ++ [.interrupted], result := some (.ok x.report) }
  else x

/-- Waits, while the owner of the saver goes on: it may handle ticks that come due. -/
def idle (x : Session σ) (time : Nat) : Session σ :=
  if x.result.isSome then x else { x with saver := x.saver.advance m time }

/-- What an occurrence leads to. A line that has begun is finished by its ending or by the end of
the input. -/
def step (x : Session σ) : Occurrence → Session σ
  | .arrived bytes =>
    let split := Text.splitLines (x.begun ++ bytes)
    { x with begun := split.2 }.takeAll m (split.1.map Text.chomp)
  | .ended => (x.takeAll m (if x.begun = [] then [] else [x.begun])).complete
  | .elapsed time => x.idle m time
  | .signalled stop => { x with signal := x.signal.set stop }.heed
  | .abandoned => { x with signal := { x.signal with held := false } }.heed

def after (x : Session σ) (os : List Occurrence) : Session σ :=
  os.foldl (step m) x

end Session

end Roster.Ingest
