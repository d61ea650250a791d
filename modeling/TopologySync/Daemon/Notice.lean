-- The lines that the daemon and its processor write to the log: what each
-- one tells, how grave it is, where it comes from, and how it reads.
import TopologySync.Burst.Processor
import TopologySync.Decimal.Notation
import TopologySync.Log.Filter
import TopologySync.Settings.Basic

namespace TopologySync

/-- A line of the log. -/
inductive Notice where
  | starting (settings : Settings)
  | topologyBuilt (summary : Summary)
  | thresholds (metric : Metric) (values : Thresholds)
  /-- The subgraphs are new. -/
  | updated (generation nodes edges : Nat) (algorithms : List UInt8)
  /-- A line of the stream holds no event. -/
  | lineSkipped (line : Nat)
  | inputEnded (forwarded skipped : Nat)
  | interrupted
  | stopped
  /-- The processor tells of its work, in a span. -/
  | work (span : Log.Span) (report : Report)
deriving DecidableEq

open Log (Level)

/-! ## How grave a line is -/

/-- A refused change that a later one is expected to complete is not as
grave as one that points to a lost state. -/
def Refusal.level : Refusal → Level
  | unhandled _ _ => .warn
  | event _ _ error => if error.isValidation then .warn else .error
  | record .link _ _ => .warn
  | record _ _ _ => .error

def Report.level : Report → Level
  | refused refusal => refusal.level
  | normalizationFailed _ | thresholdsUnavailable _ => .warn
  | _ => .info

def Notice.level : Notice → Level
  | lineSkipped _ => .warn
  | work _ report => report.level
  | _ => .info

/-! ## Where a line comes from -/

namespace Log

def daemonTarget : String := "meridiand"
def replayTarget : String := "meridiand::replay"
def processorTarget : String := "meridian_sync::processor"
def dispatchTarget : String := "meridian_sync::dispatch"
def linkTarget : String := "meridian_sync::reconcile::link"
def announcementTarget : String := "meridian_sync::reconcile::prefix"

/-- The name of the span of a snapshot that is loaded. -/
def loadName : String := "load_snapshot"

/-- The span of a snapshot that is loaded. It tells how much the snapshot holds. -/
def loadSpan (nodes links : Nat) : Span where
  name := loadName
  target := processorTarget
  level := .info
  fields := [("nodes", .count nodes), ("links", .count links)]

/-- The span of a processor at work. Its hold time is known by its digits. -/
def runSpan (holdTime : Nat) : Span where
  name := "run"
  target := processorTarget
  level := .info
  fields := [("hold_ms", .text (String.ofList (Nat.toDigits 10 holdTime)))]

end Log

def Refusal.target : Refusal → String
  | unhandled _ _ | event _ _ _ => Log.dispatchTarget
  | record .link _ _ => Log.linkTarget
  | record .announcement _ _ => Log.announcementTarget
  | record _ _ _ => Log.dispatchTarget

def Report.target : Report → String
  | refused refusal => refusal.target
  | _ => Log.processorTarget

def Notice.target : Notice → String
  | lineSkipped _ => Log.replayTarget
  | work _ report => report.target
  | _ => Log.daemonTarget

def Notice.span? : Notice → Option Log.Span
  | work span _ => some span
  | _ => none

namespace Notice

/-- The line tells that the subgraphs are new. -/
def isUpdate : Notice → Bool
  | updated _ _ _ _ => true
  | _ => false

/-- The line is one of the processor's. -/
def isWork : Notice → Bool
  | work _ _ => true
  | _ => false

/-- The processor tells it while it loads a snapshot. -/
def isLoadWork (notice : Notice) : Bool :=
  notice.span?.any (fun span => span.name == Log.loadName)

end Notice

/-! ## How a line reads -/

/-- The text of a truth value. -/
def truthText (b : Bool) : String :=
  if b then "true" else "false"

/-- The text of a whole number. -/
def countText (n : Nat) : String :=
  String.ofList (Nat.toDigits 10 n)

/-- A text between quotation marks. -/
def quotedText (text : String) : String :=
  "\"" ++ text ++ "\""

/-- Numbers between brackets. -/
def listText (values : List UInt8) : String :=
  "[" ++ String.intercalate ", " (values.map (fun v => countText v.toNat)) ++ "]"

/-- The text of a summary, as a record with its fields. -/
def Summary.text (summary : Summary) : String :=
  "SnapshotSummary \x7b nodes: " ++ countText summary.nodes
    ++ ", links: " ++ countText summary.links
    ++ ", prefixes: " ++ countText summary.prefixes
    ++ ", sids: " ++ countText summary.sids ++ " \x7d"

/-- The fields of a line: what is written beside the message. -/
abbrev LogFields := List (String × String)

def Refusal.message : Refusal → String
  | unhandled _ _ => "no reconciler registered"
  | event _ _ error => if error.isValidation then "event rejected" else "event failed"
  | record family _ _ => family.name ++ " skipped during bulk load"

def Refusal.fields : Refusal → LogFields
  | unhandled family key => [("entity", family.name), ("key", quotedText key)]
  | event kind key error =>
    [("event", quotedText kind.name), ("key", key), ("err", error.message)]
  | record _ key error => [("key", key), ("err", error.message)]

def Report.message : Report → String
  | refused refusal => refusal.message
  | snapshotLoaded _ _ => "snapshot loaded"
  | started => "network processor started"
  | normalizationFailed _ => "renormalization failed; keeping previous normalized weights"
  | thresholdsUnavailable _ => "threshold statistics unavailable"
  | burstComplete _ _ => "burst complete"
  | sourceClosed => "event channel closed; network processor stopped"
  | quit => "network processor stopped"

def Report.fields : Report → LogFields
  | refused refusal => refusal.fields
  | snapshotLoaded summary strategy =>
    [("nodes", countText summary.nodes), ("links", countText summary.links),
      ("prefixes", countText summary.prefixes), ("sids", countText summary.sids),
      ("strategy", strategy.name)]
  | normalizationFailed error => [("err", error.message)]
  | thresholdsUnavailable error => [("err", error.message)]
  | burstComplete events rebuilt =>
    [("events", countText events), ("recompute", truthText rebuilt)]
  | started | sourceClosed | quit => []

namespace Notice

def message : Notice → String
  | starting _ => "starting meridiand"
  | topologyBuilt _ => "initial topology built"
  | thresholds _ _ => "raw thresholds"
  | updated _ _ _ _ => "subgraphs updated"
  | lineSkipped _ => "malformed event skipped"
  | inputEnded _ _ => "end of input"
  | interrupted => "interrupt received; shutting down"
  | stopped => "meridiand stopped"
  | work _ report => report.message

def fields : Notice → LogFields
  | starting settings =>
    [("hold_ms", countText settings.holdTime.toNat), ("strategy", settings.strategy.name),
      ("window", countText settings.window.toNat)]
  | topologyBuilt summary => [("summary", summary.text)]
  | thresholds metric values =>
    [("metric", metric.name), ("q1", Decimal.ofDouble values.q1),
      ("q3", Decimal.ofDouble values.q3), ("min", Decimal.ofDouble values.min),
      ("max", Decimal.ofDouble values.max)]
  | updated generation nodes edges algorithms =>
    [("generation", countText generation), ("nodes", countText nodes),
      ("edges", countText edges), ("algorithms", listText algorithms)]
  | lineSkipped line => [("line", countText line)]
  | inputEnded forwarded skipped =>
    [("forwarded", countText forwarded), ("skipped", countText skipped)]
  | interrupted | stopped => []
  | work _ report => report.fields

/-- The line behind its level. -/
def text (notice : Notice) : String :=
  notice.message ++ String.join (notice.fields.map (fun (name, value) =>
    " " ++ name ++ "=" ++ value))

/-- The names of the fields. What is wrong with a line of the stream is a
field as well, but its text is not kept. -/
def fieldNames (notice : Notice) : List String :=
  notice.fields.map Prod.fst ++ match notice with
    | lineSkipped _ => ["err"]
    | _ => []

/-- What a filter can tell about the line. -/
def heading (notice : Notice) : Log.Heading where
  level := notice.level
  target := notice.target
  fields := notice.fieldNames
  span := notice.span?

end Notice

end TopologySync
