import Roster.CommandLine.Basic

/-!
From settings and a command to a command line that says them: every option has its value attached,
and an argument that is given by its place stands after `--`, so that no value can be taken for
anything else.
-/

namespace Roster

def CommandLine.Arg.word (a : Arg) (value : String) : String :=
  "--" ++ a.label ++ "=" ++ value

open CommandLine

def Settings.words (s : Settings) : List String :=
  [Arg.dataDir.word s.dataDir, Arg.logLevel.word s.logLevel, Arg.logFormat.word s.logFormat.name,
    Arg.capacity.word (toString s.capacity), Arg.flushInterval.word (toString s.flushInterval),
    Arg.chunkSize.word (toString s.chunkSize), Arg.poolSize.word (toString s.poolSize),
    Arg.eventChannelSize.word (toString s.eventChannelSize)]

namespace Command

def verb : Command → Verb
  | .ingest => .ingest
  | .create _ _ => .create
  | .get _ => .get
  | .list _ _ => .list
  | .update _ _ _ => .update
  | .search _ _ => .search
  | .remove _ => .remove

def arguments : Command → List String
  | .ingest => []
  | .create name description => [Arg.name.word name, Arg.description.word description]
  | .get id => ["--", toString id.toNat]
  | .list limit offset =>
    [Arg.limit.word (toString limit.toNat), Arg.offset.word (toString offset.toNat)]
  | .update id name description =>
    [Arg.name.word name, Arg.description.word description, "--", toString id.toNat]
  | .search query mode => [Arg.mode.word mode.name, "--", query]
  | .remove id => ["--", toString id.toNat]

def words (c : Command) : List String :=
  c.verb.name :: c.arguments

end Command

def Invocation.words (i : Invocation) : List String :=
  i.settings.words ++ i.command.words

end Roster
