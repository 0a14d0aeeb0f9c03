import Roster.Program.Location
import Roster.Store.Basic

/-!
The disk: directories and files by their paths, and the stores that are kept in files. A directory
is made together with the directories above it; that fails where a file is in the way.
-/

namespace Roster

inductive Node where
  | directory
  /-- A file with a database; an empty file is a database in which there is nothing. -/
  | file (db : Database)
deriving Inhabited

/-- Directories and files by their paths, newest first. The directory in which the program runs has
the empty path. -/
structure Disk where
  nodes : List (List String × Node) := []
deriving Inhabited

namespace Disk

inductive Obstacle where
  /-- Something is there already. -/
  | exists
  /-- A file is used as a directory. -/
  | notDirectory
  /-- Nothing is there. -/
  | missing
  /-- A name, or a whole path, is too long. -/
  | tooLong
deriving DecidableEq, Repr

def Obstacle.message : Obstacle → String
  | .exists => "File exists (os error 17)"
  | .notDirectory => "Not a directory (os error 20)"
  | .missing => "No such file or directory (os error 2)"
  | .tooLong => "File name too long (os error 36)"

/-- The names that a path is made of; a slash at its beginning is one of them. -/
def names (path : String) : List String :=
  let parts := (path.toList.splitOn '/').filter (· ≠ [])
  (if path.toList.head? = some '/' then ["/"] else []) ++ parts.map String.ofList

def above (path : List String) : List String :=
  match path.getLast? with
  | none | some ".." => path ++ [".."]
  | some "/" => path
  | some _ => path.dropLast

def child (here : List String) (name : String) : List String :=
  if name = "." then here
  else if name = ".." then above here
  else if name = "/" then ["/"]
  else here ++ [name]

def node? (disk : Disk) (path : List String) : Option Node :=
  if path = [] ∨ path.getLast? = some ".." ∨ path = ["/"] then some .directory
  else (disk.nodes.find? fun p => p.1 = path).map Prod.snd

def isTooLong (name : String) : Bool :=
  255 < name.utf8ByteSize

def walk (disk : Disk) (here : List String) : List String → Except Obstacle (List String)
  | [] => .ok here
  | name :: rest =>
    match disk.node? here with
    | none => .error .missing
    | some (.file _) => .error .notDirectory
    | some .directory =>
      if isTooLong name then .error .tooLong
      else
        match disk.node? (child here name) with
        | none => .error .missing
        | some _ => walk disk (child here name) rest

def isDirectory (disk : Disk) (ns : List String) : Bool :=
  match disk.walk [] ns with
  | .error _ => false
  | .ok path =>
    match disk.node? path with
    | some .directory => true
    | _ => false

def makeDirectory (disk : Disk) (ns : List String) : Except Obstacle Disk :=
  match ns.getLast? with
  | none => .error .missing
  | some name =>
    match disk.walk [] ns.dropLast with
    | .error obstacle => .error obstacle
    | .ok here =>
      match disk.node? here with
      | some .directory =>
        if isTooLong name then .error .tooLong
        else
          match disk.node? (child here name) with
          | some _ => .error .exists
          | none => .ok ⟨(child here name, .directory) :: disk.nodes⟩
      | _ => .error .notDirectory

/-- Makes the directory of some names, and before it those of shorter and shorter beginnings until
one is there. There are at most `depth` of them. -/
def makeDirectories (disk : Disk) : (depth : Nat) → List String → Except Obstacle Disk
  | _, [] => .ok disk
  | depth, ns =>
    match disk.makeDirectory ns, depth with
    | .ok disk, _ => .ok disk
    | .error .missing, depth + 1 =>
      match makeDirectories disk depth (ns.filter (· != ".")).dropLast with
      | .error obstacle => .error obstacle
      | .ok disk =>
        match disk.makeDirectory ns with
        | .ok disk => .ok disk
        | .error obstacle => if disk.isDirectory ns then .ok disk else .error obstacle
    | .error obstacle, _ => if disk.isDirectory ns then .ok disk else .error obstacle

def pathLimit : Nat := 4096

def ensureDirectory (disk : Disk) (path : String) : Except Obstacle Disk :=
  if pathLimit ≤ path.utf8ByteSize then .error .tooLong
  else disk.makeDirectories (names path).length (names path)

/-! ## Stores -/

structure Opened where
  store : Store
  /-- The path of its file, if it is kept in one. -/
  path? : Option (List String) := none
  /-- Whether it may be changed. -/
  isWritable : Bool := true

def destination (ns : List String) : List String :=
  ns.foldl child []

def mode (l : Location) : Mode :=
  if l.isFrozen then .frozen else if l.access = .read then .read else .write

def openDatabase (l : Location) (path : List String) (db : Database) : Except StoreError Opened :=
  (db.openStore (mode l)).map fun store => ⟨store, some path, mode l = .write⟩

def openFile (disk : Disk) (l : Location) (path : List String) (cannot : StoreError) :
    Except StoreError Opened × Disk :=
  match disk.node? path.dropLast, disk.node? path with
  | some .directory, none =>
    if l.access ≠ .create ∨ path.any isTooLong then (.error cannot, disk)
    else (openDatabase l path {}, ⟨(path, .file {}) :: disk.nodes⟩)
  | some .directory, some (.file db) => (openDatabase l path db, disk)
  | _, _ => (.error cannot, disk)

/-- Opens the store that a name tells, and makes it if there is none. A store that is in no file has
no journal. -/
def openStore (disk : Disk) (name : String) : Except StoreError Opened × Disk :=
  match Location.ofName name with
  | .error flaw => (.error (.unreachable flaw.message), disk)
  | .ok l =>
    if l.isPassing then
      let mode : Mode := if l.access = .read then .frozen else .write
      ((({} : Database).openStore mode).map fun store => { store }, disk)
    else
      disk.openFile l (destination (names l.path))
        (.unreachable ("unable to open database file: " ++ name))

def close (disk : Disk) (opened : Opened) (store : Store) : Disk :=
  match opened.path? with
  | some path =>
    if opened.isWritable then ⟨(path, .file store.toDatabase) :: disk.nodes⟩ else disk
  | none => disk

def touch (disk : Disk) (name : String) : Disk :=
  ⟨([name], .file {}) :: disk.nodes⟩

end Disk

end Roster
