import Roster.Saver.Config

/-!
The settings of the program and their standard values.
-/

namespace Roster

inductive Log.Format where
  /-- A line of text for each. -/
  | text
  /-- A JSON object on a line of its own for each. -/
  | json
deriving DecidableEq, Repr

namespace Log.Format

def name : Format → String
  | .text => "text"
  | .json => "json"

def all : List Format := [.text, .json]

def ofName? (s : String) : Option Format :=
  all.find? fun f => f.name = s

def title : Format → String
  | .text => "Text"
  | .json => "Json"

end Log.Format

structure Settings where
  /-- The directory that the store is kept in. -/
  dataDir : String := "./data"
  /-- Which log records are written. -/
  logLevel : String := "info"
  logFormat : Log.Format := .text
  /-- How many waiting teams call for a flush. -/
  capacity : Nat := 100
  /-- How often a flush takes place anyway, in milliseconds. -/
  flushInterval : Nat := 1000
  /-- How many teams are stored at once. -/
  chunkSize : Nat := 10
  /-- How many connections to the store there may be. -/
  poolSize : Nat := 4
  /-- How many events a listener may fall behind. -/
  eventChannelSize : Nat := 1024
deriving DecidableEq, Repr

namespace Settings

def fileIn (directory file : String) : String :=
  if directory.toList.getLast? = some '/' then directory ++ file else directory ++ "/" ++ file

def storePath (s : Settings) : String :=
  fileIn s.dataDir "teams.db"

def saver (s : Settings) : Saver.Config :=
  ⟨s.capacity, s.flushInterval⟩

end Settings

end Roster
