import Roster.Search.Mode
import Roster.Settings
import Roster.Text.Integer

/-!
The arguments of the command line: which there are, how they are named, what their values have to
be, and which of them each command takes.
-/

namespace Roster.CommandLine

inductive Arg where
  | dataDir
  | logLevel
  | logFormat
  | capacity
  | flushInterval
  | chunkSize
  | poolSize
  | eventChannelSize
  | name
  | description
  | limit
  | offset
  | mode
  /-- Given by its place. -/
  | id
  /-- Given by its place. -/
  | query
deriving DecidableEq, Repr

inductive Form where
  | text
  | filledText
  /-- One of some names. -/
  | choice (names : List String)
  /-- A number from `lowest` to `highest`, of which those from `least` to `most` are accepted;
  `range` is how these are named. -/
  | number (lowest highest : Int) (least most : Nat) (range : String)
deriving DecidableEq, Repr

inductive Value where
  | text (s : String)
  | number (n : Nat)
deriving DecidableEq, Repr

inductive ValueFault where
  /-- There is nothing where something is required. -/
  | missing
  | notListed
  | notNumber (fault : Text.IntegerFault)
  | outOfRange (n : Int) (range : String)
deriving DecidableEq, Repr

def Form.read (form : Form) (s : String) : Except ValueFault Value :=
  match form with
  | .text => .ok (.text s)
  | .filledText => if s = "" then .error .missing else .ok (.text s)
  | .choice names =>
    if s ∈ names then .ok (.text s)
    else if s = "" then .error .missing
    else .error .notListed
  | .number lowest highest least most range =>
    match Text.readInteger lowest highest s.toList with
    | .error fault => .error (.notNumber fault)
    | .ok n =>
      if least ≤ n ∧ n ≤ most then .ok (.number n.toNat) else .error (.outOfRange n range)

/-- The largest unsigned number of 64 bits. -/
def maxWord : Nat := 0xFFFFFFFFFFFFFFFF

def Form.natural : Form :=
  .number 0 maxWord 0 maxWord ""

def Form.positive : Form :=
  .number 0 maxWord 1 maxWord "1..18446744073709551615"

def Form.connections : Form :=
  .number (-0x8000000000000000) 0x7FFFFFFFFFFFFFFF 1 0xFFFFFFFF "1..=4294967295"

namespace Arg

def label : Arg → String
  | .dataDir => "data-dir"
  | .logLevel => "log-level"
  | .logFormat => "log-format"
  | .capacity => "capacity"
  | .flushInterval => "flush-interval-ms"
  | .chunkSize => "chunk-size"
  | .poolSize => "pool-size"
  | .eventChannelSize => "event-channel-size"
  | .name => "name"
  | .description => "description"
  | .limit => "limit"
  | .offset => "offset"
  | .mode => "mode"
  | .id => "id"
  | .query => "query"

def placeholder (a : Arg) : String :=
  String.ofList ('<' :: a.label.toList.map (fun c => if c = '-' then '_' else c.toUpper) ++ ['>'])

/-- Whether an argument is given by its place and not by its name. -/
def isPlaced : Arg → Bool
  | .id | .query => true
  | _ => false

def display (a : Arg) : String :=
  if a.isPlaced then a.placeholder else "--" ++ a.label ++ " " ++ a.placeholder

def form : Arg → Form
  | .dataDir => .filledText
  | .logLevel | .name | .description | .query => .text
  | .logFormat => .choice (Log.Format.all.map Log.Format.name)
  | .capacity | .flushInterval | .chunkSize | .eventChannelSize => .positive
  | .poolSize => .connections
  | .limit | .offset | .id => .natural
  | .mode => .choice (Search.Mode.all.map Search.Mode.name)

def settings : List Arg :=
  [.dataDir, .logLevel, .logFormat, .capacity, .flushInterval, .chunkSize, .poolSize,
    .eventChannelSize]

/-- The environment variable that an option is taken from if it is not given. -/
def fallback? : Arg → Option String
  | .dataDir => some "TEAM_SAVER_DATA_DIR"
  | .logLevel => some "RUST_LOG"
  | .logFormat => some "TEAM_SAVER_LOG_FORMAT"
  | .capacity => some "TEAM_SAVER_CAPACITY"
  | .flushInterval => some "TEAM_SAVER_FLUSH_INTERVAL_MS"
  | .chunkSize => some "TEAM_SAVER_CHUNK_SIZE"
  | .poolSize => some "TEAM_SAVER_POOL_SIZE"
  | .eventChannelSize => some "TEAM_SAVER_EVENT_CHANNEL_SIZE"
  | _ => none

end Arg

inductive Verb where
  | ingest
  | create
  | get
  | list
  | update
  | search
  | remove
deriving DecidableEq, Repr

namespace Verb

def name : Verb → String
  | .ingest => "ingest"
  | .create => "create"
  | .get => "get"
  | .list => "list"
  | .update => "update"
  | .search => "search"
  | .remove => "remove"

def all : List Verb :=
  [.ingest, .create, .get, .list, .update, .search, .remove]

def ofName? (s : String) : Option Verb :=
  all.find? fun v => v.name = s

def options : Verb → List Arg
  | .ingest | .get | .remove => []
  | .create | .update => [.name, .description]
  | .list => [.limit, .offset]
  | .search => [.mode]

def placed? : Verb → Option Arg
  | .get | .update | .remove => some .id
  | .search => some .query
  | .ingest | .create | .list => none

def required : Verb → List Arg
  | .ingest | .list => []
  | .create => [.name]
  | .get | .remove => [.id]
  | .update => [.name, .id]
  | .search => [.query]

end Verb

inductive Level where
  | top
  | verb (v : Verb)
deriving DecidableEq, Repr

namespace Level

def options : Level → List Arg
  | .top => Arg.settings
  | .verb v => v.options

def placed? : Level → Option Arg
  | .top => none
  | .verb v => v.placed?

def option? (level : Level) (label : List Char) : Option Arg :=
  level.options.find? fun a => a.label.toList = label

def letterOption? : Level → Char → Option Arg
  | .top, 'd' => some .dataDir
  | _, _ => none

end Level

/-- An option that has no value and asks about the program itself. -/
inductive Inquiry where
  | help
  | version
deriving DecidableEq, Repr

def Inquiry.label : Inquiry → String
  | .help => "help"
  | .version => "version"

def Level.inquiry? (level : Level) (label : List Char) : Option Inquiry :=
  if label = Inquiry.help.label.toList then some .help
  else if label = Inquiry.version.label.toList ∧ level = .top then some .version
  else none

def Level.letterInquiry? : Level → Char → Option Inquiry
  | _, 'h' => some .help
  | .top, 'V' => some .version
  | _, _ => none

end Roster.CommandLine
