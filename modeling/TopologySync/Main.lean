-- The daemon as a program. It reads files and standard input, writes the
-- log to standard output, and leaves all decisions to the session.
import TopologySync.Daemon.Session

namespace TopologySync.Program

/-- The content of a file, if it can be read. -/
def contentOf? (path : String) : IO (Option Bytes) := do
  try
    return some (← IO.FS.readBinFile path).toList
  catch _ => return none

/-! ## Settings -/

/-- The directory of the settings, if the command line names none. -/
def platformDirectory : IO String := do
  match ← IO.getEnv "XDG_CONFIG_HOME", ← IO.getEnv "HOME" with
  | some directory, _ => return directory ++ "/meridian"
  | none, home => return home.getD "" ++ "/.config/meridian"

/-- The file of the settings in a directory. -/
def settingsFile (directory : String) : String :=
  directory ++ "/" ++ Settings.documentKey ++ ".json"

/-- Does something with the files of the settings. -/
def reach {α : Type} (action : IO α) : IO (Except IO.Error α) := do
  try
    return .ok (← action)
  catch e => return .error e

/-- The settings cannot be loaded if their files cannot be read or written. -/
def reached {α : Type} : Except IO.Error α → ExceptT Failure IO α
  | .ok result => return result
  | .error _ => throw (.startup (.loading .unreachable))

/-- A store with the settings of a directory, which is made if it is missing. Only a file that is
not there counts as no document. -/
def storeOf (directory : String) : ExceptT Failure IO MemoryStore := do
  reached (← reach (IO.FS.createDirAll directory))
  match ← reach (IO.FS.readBinFile (settingsFile directory)) with
  | .error (.noFileOrDirectory ..) => return {}
  | content => return .ofDocument Settings.documentKey (← reached content).toList

/-- Writes the settings of a store back, if it was written to. -/
def save (directory : String) (store : MemoryStore) : ExceptT Failure IO Unit := do
  if 0 < store.writes then
    if let some document := store.documents[Settings.documentKey]? then
      reached (← reach (IO.FS.writeBinFile (settingsFile directory) document.toByteArray))

/-! ## The log -/

/-- Writes the lines that a filter lets through. -/
def write (filter : Log.Filter) (notices : List Notice) : IO Unit := do
  for notice in notices do
    if filter.permits notice.heading then
      IO.println (notice.level.label ++ " " ++ notice.target ++ ": " ++ notice.text)

/-- Carries out what the session does, and writes what it tells. -/
def carryOut {α : Type} (filter : Log.Filter) (step : Telling α) : ExceptT Failure IO α := do
  let (result, notices) := (step.run).run []
  write filter notices
  MonadExcept.ofExcept result

/-! ## The stream -/

/-- A stream of the content of a file, if it can be opened. A dash stands
for standard input. -/
def openStream? (path : String) : IO (Option IO.FS.Stream) := do
  if path = "-" then return some (← IO.getStdin)
  try
    return some (.ofHandle (← IO.FS.Handle.mk path .read))
  catch _ => return none

/-- The next line of a stream, behind what was read of it. At the end of
the stream it is empty. -/
partial def nextLine (stream : IO.FS.Stream) (read : ByteArray) : IO Bytes := do
  let chunk ← stream.read 1
  if chunk.isEmpty then return read.toList
  else if chunk.toList = [Replay.lineFeed] then return (read ++ chunk).toList
  else nextLine stream (read ++ chunk)

/-- Hands the lines of a stream to the session as they come, and lets the
time between them pass for it. -/
partial def listen (filter : Log.Filter) (stream : IO.FS.Stream) (s : Session) (last : Nat) :
    ExceptT Failure IO Session := do
  let line ← nextLine stream .empty
  let now ← IO.monoMsNow
  let s ← carryOut filter (s.wait (now - last))
  if line.isEmpty then return s
  else listen filter stream (← carryOut filter (s.hear (Replay.lines line))) now

/-- Runs a session to the end of its stream. -/
def conduct (arguments : Arguments) (settings : Settings) (filter : Log.Filter) :
    ExceptT Failure IO Unit := do
  write filter [.starting settings]
  let content ← match arguments.snapshot with
    | some path => contentOf? path
    | none => pure none
  let s ← carryOut filter ((Session.new settings).loadIfAsked arguments.snapshot content)
  let s ← carryOut filter s.start
  match ← openStream? arguments.events with
  | none => throw (.streamUnopened arguments.events)
  | some stream =>
    let s ← listen filter stream s (← IO.monoMsNow)
    carryOut filter s.finish

/-- Loads the settings, builds the log filter, and runs a session. -/
def run (arguments : Arguments) : ExceptT Failure IO Unit := do
  let directory ← match arguments.configDir with
    | some directory => pure directory
    | none => platformDirectory
  let (settings, store) := arguments.settings (← storeOf directory)
  save directory store
  match settings with
  | .error e => throw (.startup e)
  | .ok settings =>
    match Log.Filter.choose? (← IO.getEnv "RUST_LOG") settings.logFilter with
    | none => throw .logFilter
    | some filter => conduct arguments settings filter

/-! ## The command line -/

/-- How the daemon is called. -/
def usage : String :=
  "usage: meridiand [--events FILE] [--snapshot FILE] [--hold-time-ms N] "
    ++ "[--normalization STRATEGY] [--config-dir DIR]"

/-- What is said of a command line that is not carried out. -/
def complaint : ArgumentError → String
  | .unknown => "unexpected argument"
  | .missingValue => "an option has no value"
  | .needlessValue => "a value stands where none can"
  | .unusableValue => "the value of an option cannot be used"
  | .repeated => "an option is given twice"
  | .helpWanted => usage
  | .versionWanted => "meridiand 0.1.0"

/-- Does what the words of a command line ask for. The number is what the
program ends with. -/
def call (words : List String) : IO UInt32 := do
  match Arguments.parse words with
  | .error e =>
    if e.isRequest then
      IO.println (complaint e)
      return 0
    else
      IO.eprintln ("error: " ++ complaint e ++ "\n" ++ usage)
      return 2
  | .ok arguments =>
    match ← (run arguments).run with
    | .ok () => return 0
    | .error failure =>
      IO.eprintln ("Error: " ++ failure.message)
      return 1

end TopologySync.Program

def main (words : List String) : IO UInt32 :=
  TopologySync.Program.call words
