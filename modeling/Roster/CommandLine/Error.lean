import Roster.CommandLine.Arg
import Roster.Text.Terminal

/-!
What a command line can come to other than a command.
-/

namespace Roster.CommandLine

def programName : String := "team-saver"

def programVersion : String := programName ++ " 0.1.0"

inductive Error where
  /-- It asks about the program itself. -/
  | asked (inquiry : Inquiry)
  /-- It says nothing at all. -/
  | nothing
  /-- It names no command. -/
  | noCommand
  /-- It names something that is no command. -/
  | unknownCommand (word : String)
  /-- It has something in it that does not belong there. -/
  | unknownArgument (word : String)
  /-- An option is given more than once. -/
  | repeated (a : Arg)
  /-- An argument has a bad value. -/
  | badValue (a : Arg) (value : String) (fault : ValueFault)
  /-- An inquiry has a value. -/
  | needlessValue (inquiry : Inquiry) (value : String)
  /-- Required arguments are not there. -/
  | missing (as : List Arg)
deriving DecidableEq, Repr

namespace Error

/-- A text as it is shown in a message; what a terminal would obey is left out. -/
def cite (s : String) : String :=
  "'" ++ Text.Terminal.shown s ++ "'"

def badValueMessage (a : Arg) (value : String) : ValueFault → String
  | .missing => "a value is required for " ++ cite a.display ++ " but none was supplied"
  | .notListed => "invalid value " ++ cite value ++ " for " ++ cite a.display
  | .notNumber fault =>
    "invalid value " ++ cite value ++ " for " ++ cite a.display ++ ": " ++ fault.message
  | .outOfRange n range =>
    "invalid value " ++ cite value ++ " for " ++ cite a.display ++ ": " ++ toString n ++
      " is not in " ++ range

def message : Error → String
  | .asked .help | .nothing => ""
  | .asked .version => programVersion
  | .noCommand =>
    "error: " ++ cite programName ++ " requires a subcommand but one was not provided"
  | .unknownCommand word => "error: unrecognized subcommand " ++ cite word
  | .unknownArgument word => "error: unexpected argument " ++ cite word ++ " found"
  | .repeated a => "error: the argument " ++ cite a.display ++ " cannot be used multiple times"
  | .badValue a value fault => "error: " ++ badValueMessage a value fault
  | .needlessValue inquiry value =>
    "error: unexpected value " ++ cite value ++ " for " ++ cite ("--" ++ inquiry.label) ++
      " found; no more were expected"
  | .missing as =>
    "error: the following required arguments were not provided:" ++
      String.join (as.map fun a => "\n  " ++ a.display)

def headline (e : Error) : String :=
  let line := e.message.toList.takeWhile (· != '\n')
  if line.length < e.message.length ∧ line.getLast? = some '\r' then String.ofList line.dropLast
  else String.ofList line

def exitCode : Error → Nat
  | .asked _ => 0
  | _ => 2

end Error

end Roster.CommandLine
