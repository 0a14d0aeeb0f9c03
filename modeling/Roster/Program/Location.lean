import Roster.Text.Integer
import Roster.Text.Utf8

/-!
Where a store is kept. A name that begins with `file:` is a URI: the path of a file in percent
encoding, and behind a question mark parameters that say how the file is used. Any other name is a
path as it stands.
-/

namespace Roster

inductive Access where
  /-- It is in no file. -/
  | memory
  /-- It is only read. -/
  | read
  /-- It is read and written. -/
  | write
  /-- It is read and written, and made if it is not there. -/
  | create
deriving DecidableEq, Repr

namespace Access

def ofName? (s : String) : Option Access :=
  if s = "memory" then some .memory
  else if s = "ro" then some .read
  else if s = "rw" then some .write
  else if s = "rwc" then some .create
  else none

/-- How much an access permits; a store that is in no file can become any other. -/
def rank : Access → Nat
  | .read => 1
  | .write => 2
  | .create => 3
  | .memory => 4

def permits (now next : Access) : Bool :=
  next = .memory || next.rank ≤ now.rank

end Access

structure Location where
  path : String
  access : Access := .create
  /-- Whether the file is taken for one that never changes. -/
  isFrozen : Bool := false
  /-- Whether the store ends with the run, whatever its path. -/
  isPassing : Bool := false
deriving DecidableEq, Repr

namespace Location

inductive Flaw where
  /-- The file is on another machine. -/
  | authority (name : String)
  /-- A parameter has a value that is not known. -/
  | unknown (kind value : String)
  /-- A parameter asks for more than an earlier one permits. -/
  | denied (value : String)
deriving DecidableEq, Repr

def Flaw.message : Flaw → String
  | .authority name => "invalid uri authority: " ++ name
  | .unknown kind value => "no such " ++ kind ++ ": " ++ value
  | .denied value => "access mode not allowed: " ++ value

/-! ## Parts of a URI -/

/-- The bytes that a text in percent encoding stands for. A zero ends them. -/
def bytes : List Char → List UInt8
  | [] => []
  | '%' :: a :: b :: cs =>
    match Text.hexDigit? a, Text.hexDigit? b with
    | some x, some y => if 16 * x + y = 0 then [] else UInt8.ofNat (16 * x + y) :: bytes cs
    | _, _ => 0x25 :: bytes (a :: b :: cs)
  | c :: cs => (String.singleton c).toUTF8.toList ++ bytes cs

/-- What a text in percent encoding stands for. If that is no text, each byte that is no ASCII
character is marked by a zero, which is found in no text. -/
def decode (cs : List Char) : String :=
  match Text.Utf8.decode (bytes cs) with
  | .ok cs => String.ofList cs
  | .error _ =>
    String.ofList ((bytes cs).flatMap fun b =>
      if b < 0x80 then [Char.ofNat b.toNat] else ['\x00', Char.ofNat b.toNat])

/-- The parameter of a part between two `&`, unless it has no name. -/
def parameter? (cs : List Char) : Option (String × String) :=
  let name := decode (cs.takeWhile (· ≠ '='))
  if name = "" then none else some (name, decode ((cs.dropWhile (· ≠ '=')).drop 1))

def parameters (cs : List Char) : List (String × String) :=
  (cs.splitOn '&').filterMap parameter?

/-- What follows the authority, which can only be this machine. -/
def withoutAuthority : List Char → Except Flaw (List Char)
  | '/' :: '/' :: cs =>
    let name := String.ofList (cs.takeWhile (· ≠ '/'))
    if name = "" ∨ name = "localhost" then .ok (cs.dropWhile (· ≠ '/'))
    else .error (.authority name)
  | cs => .ok cs

/-! ## Parameters -/

def adjust (l : Location) : String × String → Except Flaw Location
  | ("mode", value) =>
    match Access.ofName? value with
    | none => .error (.unknown "access mode" value)
    | some access =>
      if l.access.permits access then .ok { l with access } else .error (.denied value)
  | ("cache", value) =>
    if value = "shared" ∨ value = "private" then .ok l else .error (.unknown "cache mode" value)
  | _ => .ok l

/-- The ways to use files that are known; the last of them uses none. -/
def fileSystems : List String :=
  ["unix", "unix-none", "unix-dotfile", "unix-excl", "memdb"]

/-- Whether a value means yes: it is a word for it, or a number whose last eight bits are not all
zero. -/
def isYes (value : String) : Bool :=
  match value.toList with
  | [] => false
  | c :: cs =>
    if c.isDigit then
      match Text.readInteger 0 0x7FFFFFFF (c :: cs.takeWhile Char.isDigit) with
      | .ok n => n % 256 ≠ 0
      | .error _ => false
    else ["on", "yes", "true"].contains value.toLower

/-- The location of a path with parameters. Of several file systems the last one counts, and of
several other values of one name the first. -/
def ofParameters (path : String) (ps : List (String × String)) : Except Flaw Location :=
  match ps.foldlM adjust { path } with
  | .error flaw => .error flaw
  | .ok l =>
    let fileSystem := (ps.reverse.lookup "vfs").getD "unix"
    if fileSystem ∈ fileSystems then
      .ok { l with
        isFrozen := (ps.lookup "immutable").any isYes
        isPassing := l.access = .memory || path = "" || path = ":memory:" || fileSystem = "memdb" }
    else .error (.unknown "vfs" fileSystem)

/-- The location that a name tells. What follows a `#` in a URI is passed over. -/
def ofName (name : String) : Except Flaw Location :=
  match name.toList with
  | 'f' :: 'i' :: 'l' :: 'e' :: ':' :: cs =>
    match withoutAuthority cs with
    | .error flaw => .error flaw
    | .ok cs =>
      let cs := cs.takeWhile (· ≠ '#')
      ofParameters (decode (cs.takeWhile (· ≠ '?')))
        (parameters ((cs.dropWhile (· ≠ '?')).drop 1))
  | _ => .ok { path := name }

end Location

end Roster
