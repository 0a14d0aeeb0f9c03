import Roster.CommandLine.Error

/-!
How the program is used, in lines of text.
-/

namespace Roster.CommandLine

def Verb.summary : Verb → String
  | .ingest => "Read JSON team records from stdin and persist them through the saver"
  | .create => "Create one team immediately"
  | .get => "Show a team"
  | .list => "List teams"
  | .update => "Replace a team's name and description"
  | .search => "Search teams by name and description"
  | .remove => "Delete a team"

def Arg.summary : Arg → String
  | .dataDir => "Data directory for the SQLite database"
  | .logLevel => "Log level (trace, debug, info, warn, error)"
  | .logFormat => "Log output format"
  | .capacity => "Buffered teams that trigger an immediate flush"
  | .flushInterval => "Period of the timer-driven flush in milliseconds"
  | .chunkSize => "Teams written per storage call"
  | .poolSize => "Size of the SQLite connection pool"
  | .eventChannelSize => "Size of the event channel"
  | _ => ""

def Verb.usage (v : Verb) : String :=
  "  " ++ String.intercalate " "
    (v.name :: (v.placed?.toList ++ v.options).map fun a => "[" ++ a.display ++ "]") ++
    ": " ++ v.summary

def usage : List String :=
  ["Buffered, chunked persistence pipeline for team records", "",
    "Usage: " ++ programName ++ " [OPTIONS] <COMMAND>", "", "Commands:"] ++
  Verb.all.map Verb.usage ++
  ["", "Options:"] ++
  Arg.settings.map fun a => "  " ++ a.display ++ ": " ++ a.summary

end Roster.CommandLine
