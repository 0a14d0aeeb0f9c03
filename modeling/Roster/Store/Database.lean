import Roster.Store.Error
import Roster.Store.Table

/-!
The database that a store is kept in, and how it is opened: a connection asks for the write-ahead
log, and then the table of teams and the index of the live ones are made if they are not there.

The pool of connections, the time that a connection waits for another one and the settings that
change no result are left out.
-/

namespace Roster

inductive Journal where
  | rollback
  | writeAhead
deriving DecidableEq, Repr

inductive Object where
  | teams
  /-- The index of the live teams. -/
  | liveIndex
deriving DecidableEq, Repr

/-- A database; in a new one there is nothing. The table of teams has its rows and a sequence, which
stands at the largest identifier ever used. -/
structure Database where
  journal : Journal := .rollback
  objects : List Object := []
  table : Table := .empty
  /-- The names that a trigger keeps from being inserted. -/
  rejected : List String := []
deriving Inhabited

inductive Mode where
  | write
  | read
  /-- The file is taken for one that never changes, and no journal is looked at. -/
  | frozen
deriving DecidableEq, Repr

namespace Database

def setJournal (db : Database) (mode : Mode) : Except Refusal Database :=
  if db.journal = .rollback ∧ mode = .read then .error .readOnly
  else .ok { db with journal := .writeAhead }

/-- Makes a part of the schema if it is not there. A new table has no rows, and its sequence stands
at zero. -/
def create (db : Database) (mode : Mode) (o : Object) : Except Refusal Database :=
  if o ∈ db.objects then .ok db
  else if mode ≠ .write then .error .readOnly
  else
    .ok { db with
      objects := db.objects ++ [o]
      table := if o = .teams then .empty else db.table }

def ensureSchema (db : Database) (mode : Mode) : Except Refusal Database :=
  match db.create mode .teams with
  | .error refusal => .error refusal
  | .ok db => db.create mode .liveIndex

theorem journal_of_setJournal {db db' : Database} {mode : Mode}
    (h : db.setJournal mode = .ok db') : db'.journal = .writeAhead := by
  unfold setJournal at h
  split at h
  · cases h
  · cases h
    rfl

theorem of_create {db db' : Database} {mode : Mode} {o : Object}
    (h : db.create mode o = .ok db') :
    o ∈ db'.objects ∧ (∀ o' ∈ db.objects, o' ∈ db'.objects) ∧ db'.journal = db.journal := by
  unfold create at h
  split at h
  · cases h
    exact ⟨‹_›, fun _ ho => ho, rfl⟩
  · split at h
    · cases h
    · cases h
      exact ⟨by simp, fun _ ho => by simp [ho], rfl⟩

theorem of_ensureSchema {db db' : Database} {mode : Mode} (h : db.ensureSchema mode = .ok db') :
    (∀ o, o ∈ db'.objects) ∧ db'.journal = db.journal := by
  unfold ensureSchema at h
  split at h
  · cases h
  · rename_i hteams
    obtain ⟨hteam, -, hjournal⟩ := of_create hteams
    obtain ⟨hindex, hkept, hjournal'⟩ := of_create h
    refine ⟨?_, hjournal'.trans hjournal⟩
    rintro ⟨⟩
    · exact hkept _ hteam
    · exact hindex

end Database

namespace Object

def all : List Object :=
  [.teams, .liveIndex]

theorem teams_mem_all : .teams ∈ all :=
  .head _

theorem liveIndex_mem_all : .liveIndex ∈ all :=
  .tail _ (.head _)

end Object

/-- A database that has been opened: changes go to the write-ahead log, and the schema is there. -/
structure Store extends Database where
  journal := .writeAhead
  objects := Object.all
  isWriteAhead : journal = .writeAhead := by rfl
  hasTeams : .teams ∈ objects := by exact Object.teams_mem_all
  hasLiveIndex : .liveIndex ∈ objects := by exact Object.liveIndex_mem_all

def Database.openStore (db : Database) (mode : Mode) : Except StoreError Store :=
  match hconnect : db.setJournal mode with
  | .error refusal => .error (.unreachable refusal.message)
  | .ok db =>
    match hschema : db.ensureSchema mode with
    | .error refusal => .error (.refused refusal)
    | .ok db =>
      .ok
        { toDatabase := db
          isWriteAhead := (of_ensureSchema hschema).2.trans (journal_of_setJournal hconnect)
          hasTeams := (of_ensureSchema hschema).1 .teams
          hasLiveIndex := (of_ensureSchema hschema).1 .liveIndex }

end Roster
