-- A run of the daemon. It loads a snapshot if it is told to, hands the
-- events of a stream to its processor, and stops when the stream ends or
-- when it is interrupted. What it writes to the log is told on the way.
import TopologySync.Burst.Timeline
import TopologySync.Daemon.Notice
import TopologySync.Daemon.Startup
import TopologySync.Json.Records
import TopologySync.Json.Value
import TopologySync.Replay

namespace TopologySync

/-- Why a run breaks off. -/
inductive Failure where
  | startup (error : StartupError)
  /-- The log filter of the settings is none. -/
  | logFilter
  | snapshotUnreadable (path : String)
  /-- The file holds no snapshot. -/
  | snapshotUndecodable (path : String)
  /-- The links of the snapshot cannot be normalized. -/
  | snapshotRefused (error : NormalizeError)
  | streamUnopened (path : String)
  | streamUnreadable
deriving DecidableEq

/-- What is said of a failure first. -/
def Failure.message : Failure → String
  | startup (.loading _) => "loading sync config"
  | startup (.invalid field) => ((SettingsError.invalid field).message?).getD ""
  | logFilter => "building log filter"
  | snapshotUnreadable path => "reading snapshot " ++ path
  | snapshotUndecodable path => "parsing snapshot " ++ path
  | snapshotRefused _ => "loading snapshot"
  | streamUnopened path => "opening event stream " ++ path
  | streamUnreadable => "reading event stream"

/-- A computation that tells lines of the log and may break off. -/
abbrev Telling (α : Type) := ExceptT Failure (StateM (List Notice)) α

def tell (notices : List Notice) : Telling Unit :=
  modify (· ++ notices)

/-- The daemon at work. -/
structure Session where
  settings : Settings
  timeline : Timeline
  /-- How many lines of the stream were read. -/
  lines : Nat := 0
  forwarded : Nat := 0
  skipped : Nat := 0
deriving DecidableEq

namespace Session

/-- The processor that settings ask for. -/
def processorOf (settings : Settings) : Processor where
  holdTime := settings.holdTime.toNat
  normalizer := some (.new settings.strategy)
  thresholds := some (.new settings.window.toNat)

/-- A session that has done nothing yet. -/
def new (settings : Settings) : Session where
  settings
  timeline := .new (processorOf settings)

/-- Tells that the subgraphs are new. -/
def updateNotice (t : Timeline) : Notice :=
  let graph := t.topology.graph
  .updated graph.generation graph.nodes.size graph.edges.size graph.subGraphs.keys

/-- Goes on with a timeline, and tells what its processor told and signalled
on the way. -/
def advance (s : Session) (step : Timeline × List Report) : Telling Session := do
  let (timeline, reports) := step
  tell (reports.map (.work (Log.runSpan timeline.processor.holdTime)))
  if s.timeline.processor.signals < timeline.processor.signals then
    tell [updateNotice timeline]
  return { s with timeline }

/-! ## The snapshot -/

/-- The snapshot that a file holds. -/
def readSnapshot (path : String) (content : Option Bytes) : Except Failure Snapshot :=
  match content with
  | none => .error (.snapshotUnreadable path)
  | some bytes => match Json.decode Snapshot.decoder bytes with
    | .ok snapshot => .ok snapshot
    | .error _ => .error (.snapshotUndecodable path)

/-- The thresholds of the metrics that have some. -/
def thresholdNotices (p : Processor) : List Notice :=
  Metric.all.filterMap (fun metric =>
    (p.thresholds.bind (·.smoothed? metric)).map (.thresholds metric))

/-- Loads a snapshot. -/
def load (s : Session) (path : String) (content : Option Bytes) : Telling Session := do
  let snapshot ← MonadExcept.ofExcept (readSnapshot path content)
  match s.timeline.processor.loadSnapshot snapshot (Normalizer.new s.settings.strategy) with
  | .error e => throw (.snapshotRefused e)
  | .ok (summary, _, processor, reports) =>
    tell (reports.map (.work (Log.loadSpan snapshot.nodes.length snapshot.links.length)))
    tell (.topologyBuilt summary :: thresholdNotices processor)
    let timeline := { s.timeline with run := { s.timeline.run with processor } }
    tell [updateNotice timeline]
    return { s with timeline }

/-! ## The stream -/

/-- Starts the processor. -/
def start (s : Session) : Telling Session :=
  s.advance s.timeline.start

/-- Lets time pass. -/
def wait (s : Session) (duration : Nat) : Telling Session :=
  s.advance (s.timeline.sleep duration)

/-- Reads lines of the stream, and hands their events to the processor. -/
def hear (s : Session) (lines : List Bytes) : Telling Session := do
  let heard := Replay.forwardLines true (s.lines + 1) lines
  tell (heard.skipped.map .lineSkipped)
  if heard.ending ≠ .finished then throw .streamUnreadable
  let s := { s with
    lines := s.lines + lines.length
    forwarded := s.forwarded + heard.stats.forwarded
    skipped := s.skipped + heard.stats.skipped }
  s.advance (s.timeline.enqueue heard.events).settle

/-- The stream has ended. -/
def finish (s : Session) : Telling Unit := do
  tell [.inputEnded s.forwarded s.skipped]
  let _ ← s.advance s.timeline.close.settle
  tell [.stopped]

/-- The daemon is interrupted. -/
def interrupt (s : Session) : Telling Unit := do
  tell [.interrupted]
  let _ ← s.advance s.timeline.quit.settle
  tell [.stopped]

end Session

/-! ## A whole run -/

/-- What a run finds outside. -/
structure Surroundings where
  /-- The filter that the environment asks for. -/
  logVariable : Option String := none
  /-- The content of the snapshot file, if it can be read. -/
  snapshot : Option Bytes := none
  /-- The content of the event stream, if it can be opened. -/
  events : Option Bytes := none
  /-- The stream goes on after its content, until the run is interrupted. -/
  interrupted : Bool := false

/-- What is left of a run: the lines of its log that the filter let through,
and why it broke off, if it did. -/
structure Outcome where
  log : List Notice := []
  failure : Option Failure := none
deriving DecidableEq

namespace Session

/-- Loads the snapshot that a command line asks for. -/
def loadIfAsked (s : Session) (path : Option String) (content : Option Bytes) :
    Telling Session :=
  match path with
  | some path => s.load path content
  | none => return s

/-- A whole run. All events of the stream are one burst. -/
def conduct (arguments : Arguments) (settings : Settings) (around : Surroundings) :
    Telling Unit := do
  tell [.starting settings]
  let s ← (Session.new settings).loadIfAsked arguments.snapshot around.snapshot
  match around.events with
  | none => throw (.streamUnopened arguments.events)
  | some stream =>
    if around.interrupted then
      let s ← s.hear (Replay.lines (Replay.ended stream))
      (← s.start).interrupt
    else
      let s ← s.hear (Replay.lines stream)
      (← s.start).finish

/-- The outcome of a computation under a filter. -/
def outcome (filter : Log.Filter) (run : Telling Unit) : Outcome :=
  let (ending, notices) := (run.run).run []
  { log := notices.filter (fun notice => filter.permits notice.heading)
    failure := match ending with
      | .ok () => none
      | .error failure => some failure }

/-- Runs the daemon with the settings of a store. -/
def run {σ : Type} [DocumentStore σ] (arguments : Arguments) (around : Surroundings)
    (store : σ) : Outcome × σ :=
  match arguments.settings store with
  | (.error e, store) => ({ failure := some (.startup e) }, store)
  | (.ok settings, store) => match Log.Filter.choose? around.logVariable settings.logFilter with
    | none => ({ failure := some .logFilter }, store)
    | some filter => (outcome filter (conduct arguments settings around), store)

end Session

end TopologySync
