import Roster.Program.Basic
import Roster.Store.File

/-!
The program: arguments, environment, input and disk are read, a run takes place, and what it shows
and leaves is written.
-/

namespace Roster.Main

def environment : IO Environment := do
  let names := CommandLine.Arg.settings.filterMap CommandLine.Arg.fallback?
  let values ← names.mapM fun name => do return (name, ← IO.getEnv name)
  return fun name => ((values.find? fun p => p.1 = name).map Prod.snd).join

/-- The whole of the input. -/
partial def readAll (stream : IO.FS.Stream) (found : List UInt8) : IO (List UInt8) := do
  let bytes ← stream.read 65536
  if bytes.isEmpty then return found
  else readAll stream (found ++ bytes.toList)

def pathText : List String → String
  | [] => "."
  | "/" :: names => "/" ++ String.intercalate "/" names
  | names => String.intercalate "/" names

def stations (here : List String) : List String → List (List String)
  | [] => []
  | name :: names => Disk.child here name :: stations (Disk.child here name) names

def probe (path : String) : IO (Option Node) := do
  match ← (IO.FS.readBinFile path).toBaseIO with
  | .error (.noFileOrDirectory ..) => return none
  | .error _ => return some .directory
  | .ok bytes =>
    if bytes.isEmpty then return some (.file {})
    else
      match Store.ofBytes? bytes.toList with
      | some store => return some (.file store.toDatabase)
      | none => throw (IO.userError (path ++ " is not a store"))

def survey (settings : Settings) : IO Disk := do
  let ways := match Location.ofName settings.storePath with
    | .ok l => [settings.dataDir, l.path]
    | .error _ => [settings.dataDir]
  let mut disk : Disk := {}
  for path in ways.flatMap fun way => stations [] (Disk.names way) do
    if (disk.node? path).isNone then
      match ← probe (pathText path) with
      | none => pure ()
      | some node => disk := ⟨(path, node) :: disk.nodes⟩
  return disk

/-- Writes what a run has left under a path. -/
def settle (path : List String) : Node → IO Unit
  | .directory => IO.FS.createDir (pathText path)
  | .file db => IO.FS.writeFile (pathText path) (if db.objects = [] then "" else db.table.text)

def present (t : Program.Transcript) : IO Unit := do
  for line in t.errors do
    IO.eprintln line.toText
  match t.output with
  | .text s => IO.print s
  | .usage => IO.println (String.intercalate "\n" CommandLine.usage)

end Roster.Main

open Roster Main in
def main (words : List String) : IO UInt32 := do
  let env ← environment
  let (disk, input) ← match CommandLine.parse env words with
    | .error _ => pure (({} : Disk), [])
    | .ok ⟨settings, command⟩ => do
      let input ← if command = .ingest then readAll (← IO.getStdin) [] else pure []
      pure (← survey settings, input)
  let (transcript, after) := Program.run env words input disk
  for (path, node) in (after.nodes.take (after.nodes.length - disk.nodes.length)).reverse do
    settle path node
  present transcript
  return UInt32.ofNat transcript.exitCode
