import Roster.Store.Basic

/-!
Opening a database. What is there already stays as it is, so opening again what has been opened
changes nothing, whatever its rows, its sequence and the names that it rejects.
-/

namespace Roster

namespace Database

variable {db db' : Database}

theorem setJournal_of_writeAhead (h : db.journal = .writeAhead) (mode : Mode) :
    db.setJournal mode = .ok db := by
  have hjournal : db.journal ≠ .rollback := by simp [h]
  rw [setJournal, if_neg fun hc => hjournal hc.1, ← h]

theorem create_of_mem {o : Object} (h : o ∈ db.objects) (mode : Mode) :
    db.create mode o = .ok db :=
  if_pos h

theorem ensureSchema_of_mem (hteams : .teams ∈ db.objects) (hindex : .liveIndex ∈ db.objects)
    (mode : Mode) : db.ensureSchema mode = .ok db := by
  simp only [ensureSchema, create_of_mem hteams, create_of_mem hindex]

/-- The schema may be set up any number of times. -/
theorem ensureSchema_ensureSchema {mode : Mode} (h : db.ensureSchema mode = .ok db')
    (mode' : Mode) : db'.ensureSchema mode' = .ok db' :=
  ensureSchema_of_mem ((of_ensureSchema h).1 .teams) ((of_ensureSchema h).1 .liveIndex) mode'

theorem create_of_notMem {o : Object} (h : o ∉ db.objects) :
    db.create .write o =
      .ok { db with
        objects := db.objects ++ [o]
        table := if o = .teams then .empty else db.table } := by
  rw [create, if_neg h, if_neg (by decide)]

/-- A database that may be written gets the schema; a table that is there keeps its rows. -/
theorem ensureSchema_write (db : Database) :
    ∃ db', db.ensureSchema .write = .ok db' ∧ db'.rejected = db.rejected ∧
      db'.table = if .teams ∈ db.objects then db.table else .empty := by
  by_cases hteams : .teams ∈ db.objects
  · rw [if_pos hteams, ensureSchema, create_of_mem hteams]
    by_cases hindex : .liveIndex ∈ db.objects
    · exact ⟨db, create_of_mem hindex .write, rfl, rfl⟩
    · exact ⟨_, create_of_notMem hindex, rfl, rfl⟩
  · rw [if_neg hteams, ensureSchema, create_of_notMem hteams]
    by_cases hindex : .liveIndex ∈ db.objects ++ [.teams]
    · exact ⟨_, create_of_mem hindex .write, rfl, rfl⟩
    · exact ⟨_, create_of_notMem hindex, rfl, rfl⟩

theorem openStore_of_ok {mode : Mode} {db'' : Database} (hjournal : db.setJournal mode = .ok db')
    (hschema : db'.ensureSchema mode = .ok db'') :
    ∃ s : Store, db.openStore mode = .ok s ∧ s.toDatabase = db'' := by
  unfold openStore
  split
  · rename_i h
    cases h.symm.trans hjournal
  · rename_i h
    cases h.symm.trans hjournal
    split
    · rename_i h
      cases h.symm.trans hschema
    · rename_i h
      cases h.symm.trans hschema
      exact ⟨_, rfl, rfl⟩

/-- Every database that may be written can be opened. -/
theorem openStore_write (db : Database) :
    ∃ s : Store, db.openStore .write = .ok s ∧ s.rejected = db.rejected ∧
      s.table = if .teams ∈ db.objects then db.table else .empty := by
  have hjournal : db.setJournal .write = .ok { db with journal := .writeAhead } :=
    if_neg fun h => nomatch h.2
  obtain ⟨db', hschema, hrejected, htable⟩ :=
    ensureSchema_write { db with journal := .writeAhead }
  obtain ⟨s, hopen, rfl⟩ := openStore_of_ok hjournal hschema
  exact ⟨s, hopen, hrejected, htable⟩

/-- What has been opened is the same when it is opened again. -/
theorem openStore_toDatabase (s : Store) (mode : Mode) : s.toDatabase.openStore mode = .ok s := by
  obtain ⟨s', hopen, hsame⟩ := openStore_of_ok (setJournal_of_writeAhead s.isWriteAhead mode)
    (ensureSchema_of_mem s.hasTeams s.hasLiveIndex mode)
  rw [hopen]
  cases s
  cases s'
  cases hsame
  rfl

/-- The store of a new database is empty. -/
theorem openStore_new : ({} : Database).openStore .write = .ok .empty := by
  rfl

end Database

end Roster
