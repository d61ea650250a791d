-- The command line of the daemon. Five options take a value, and each may
-- be given once. An attached value is judged at once, and a word of its own
-- when the next option or the end of the line is reached.
import TopologySync.Metric.Scaling
import TopologySync.Text.Numeral

namespace TopologySync

/-- What a command line asks for. -/
structure Arguments where
  /-- Where events are read from; a dash stands for standard input. -/
  events : String := "-"
  /-- The file of the snapshot to load first. -/
  snapshot : Option String := none
  /-- The hold time instead of the one in the settings. -/
  holdTime : Option UInt64 := none
  /-- The strategy instead of the one in the settings. -/
  strategy : Option Strategy := none
  /-- The directory of the settings. -/
  configDir : Option String := none
deriving DecidableEq

/-- Why a command line is not carried out. -/
inductive ArgumentError where
  /-- A word is no option and no value of one. -/
  | unknown
  /-- An option has no value. -/
  | missingValue
  /-- A value stands where none can. -/
  | needlessValue
  /-- A value is none of those that its option takes. -/
  | unusableValue
  /-- An option is given twice. -/
  | repeated
  | helpWanted
  | versionWanted
deriving DecidableEq, Repr

/-- The command line asks for nothing but a text. -/
def ArgumentError.isRequest : ArgumentError → Bool
  | helpWanted | versionWanted => true
  | _ => false

/-- An option that takes a value. -/
inductive ValueOption where
  | events
  | snapshot
  | holdTime
  | normalization
  | configDir
deriving DecidableEq, Repr

namespace ValueOption

def all : List ValueOption := [events, snapshot, holdTime, normalization, configDir]

def name : ValueOption → String
  | events => "events"
  | snapshot => "snapshot"
  | holdTime => "hold-time-ms"
  | normalization => "normalization"
  | configDir => "config-dir"

/-- The option with a given name. -/
def ofName? (name : String) : Option ValueOption :=
  all.find? (fun o => o.name == name)

/-- The option with a given letter. -/
def ofLetter? : Char → Option ValueOption
  | 'e' => some events
  | 's' => some snapshot
  | _ => none

end ValueOption

namespace Arguments

/-! ## Values -/

/-- A path, which has at least one character. -/
def path (value : String) : Except ArgumentError String :=
  if value.isEmpty then .error .missingValue else .ok value

/-- A time in milliseconds. -/
def duration (value : String) : Except ArgumentError UInt64 :=
  match Text.natural? value.toList with
  | some n => if n < UInt64.size then .ok (UInt64.ofNat n) else .error .unusableValue
  | none => .error .unusableValue

/-- A strategy by its spelling. -/
def normalization (value : String) : Except ArgumentError Strategy :=
  match Strategy.ofName? value with
  | some strategy => .ok strategy
  | none => .error .unusableValue

/-- Takes the value of an option. -/
def set (arguments : Arguments) (o : ValueOption) (value : String) :
    Except ArgumentError Arguments :=
  match o with
  | .events => .ok { arguments with events := value }
  | .snapshot => (path value).map (fun p => { arguments with snapshot := some p })
  | .holdTime => (duration value).map (fun t => { arguments with holdTime := some t })
  | .normalization => (normalization value).map (fun s => { arguments with strategy := some s })
  | .configDir => (path value).map (fun p => { arguments with configDir := some p })

/-! ## Reading a line -/

/-- The option that is being read. -/
inductive Pending where
  | nothing
  /-- The value of an option is due. -/
  | due (o : ValueOption)
  /-- A word is its value, and not judged yet. -/
  | given (o : ValueOption) (value : String)
deriving DecidableEq, Repr

/-- A command line up to a word. -/
structure Reading where
  arguments : Arguments := {}
  seen : List ValueOption := []
  pending : Pending := .nothing
deriving DecidableEq

namespace Reading

/-- Judges the value of an option. -/
def take (r : Reading) (o : ValueOption) (value : String) : Except ArgumentError Reading :=
  if r.seen.contains o then .error .repeated
  else (r.arguments.set o value).map (fun arguments => { arguments, seen := o :: r.seen })

/-- Judges the option that is being read. -/
def settle (r : Reading) : Except ArgumentError Reading :=
  match r.pending with
  | .nothing => .ok r
  | .due _ => .error .missingValue
  | .given o value => r.take o value

/-- Starts to read an option whose value is a word of its own. -/
def expect (r : Reading) (o : ValueOption) : Except ArgumentError Reading :=
  r.settle.map (fun r => { r with pending := .due o })

/-- Takes an option and the value that is attached to it. -/
def attach (r : Reading) (o : ValueOption) (value : String) : Except ArgumentError Reading := do
  (← r.settle).take o value

/-- Breaks off for a request. -/
def request (r : Reading) (wish : ArgumentError) : Except ArgumentError Reading := do
  let _ ← r.settle
  throw wish

/-- The request with a given name. -/
def wishNamed? (name : String) : Option ArgumentError :=
  if name = "help" then some .helpWanted
  else if name = "version" then some .versionWanted
  else none

/-- Takes an option by its name, with the value behind an equals sign. A
request has no value. -/
def long (r : Reading) (name : String) (value : Option String) : Except ArgumentError Reading :=
  match ValueOption.ofName? name, wishNamed? name, value with
  | some o, _, some value => r.attach o value
  | some o, _, none => r.expect o
  | none, some _, some _ => .error .needlessValue
  | none, some wish, none => r.request wish
  | none, none, _ => .error .unknown

/-- Takes an option by its letter, with what is attached to it. -/
def short (r : Reading) (letter : Char) (attached : List Char) : Except ArgumentError Reading :=
  match ValueOption.ofLetter? letter, attached with
  | some o, [] => r.expect o
  | some o, '=' :: value => r.attach o (String.ofList value)
  | some o, value => r.attach o (String.ofList value)
  | none, _ =>
    if letter = 'h' then r.request .helpWanted
    else if letter = 'V' then r.request .versionWanted
    else .error .unknown

/-- Takes a word that is no option. It can only be the value that is due. -/
def plain (r : Reading) (word : String) : Except ArgumentError Reading :=
  match r.pending with
  | .due o => .ok { r with pending := .given o word }
  | _ => .error .unknown

/-- Takes a word. A single dash is no option. -/
def word (r : Reading) (word : String) : Except ArgumentError Reading :=
  match word.toList with
  | '-' :: '-' :: rest =>
    let name := rest.takeWhile (· ≠ '=')
    let value := match rest.drop name.length with
      | [] => none
      | _ :: value => some (String.ofList value)
    r.long (String.ofList name) value
  | '-' :: letter :: attached => r.short letter attached
  | _ => r.plain word

/-- Takes words in turn. Two dashes alone end the options, and no word may
follow them. -/
def words (r : Reading) : List String → Except ArgumentError Reading
  | [] => r.settle
  | ["--"] => r.settle
  | "--" :: _ => .error .unknown
  | word :: rest => do (← r.word word).words rest

end Reading

/-- What the words of a command line ask for. -/
def parse (words : List String) : Except ArgumentError Arguments :=
  (({} : Reading).words words).map Reading.arguments

end Arguments

end TopologySync
