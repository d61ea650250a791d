import TopologySync.Burst.Channel
import TopologySync.Burst.Processor
import TopologySync.Burst.Renormalization
import TopologySync.Burst.Run
import TopologySync.Burst.Timeline
import TopologySync.Cache.Basic
import TopologySync.Daemon.Arguments
import TopologySync.Daemon.Notice
import TopologySync.Daemon.Session
import TopologySync.Daemon.Startup
import TopologySync.Decimal.Notation
import TopologySync.Decimal.Shortest
import TopologySync.Event
import TopologySync.Fixtures
import TopologySync.Graph.Basic
import TopologySync.Groups
import TopologySync.Json.Basic
import TopologySync.Json.Byte
import TopologySync.Json.Decoder
import TopologySync.Json.Events
import TopologySync.Json.Number
import TopologySync.Json.Records
import TopologySync.Json.Text
import TopologySync.Json.Value
import TopologySync.Json.Writer
import TopologySync.Log.Field
import TopologySync.Log.Filter
import TopologySync.Log.Level
import TopologySync.Main
import TopologySync.Metric.Basic
import TopologySync.Metric.Normalizer
import TopologySync.Metric.Sample
import TopologySync.Metric.Scaling
import TopologySync.Metric.Window
import TopologySync.Pattern.Atom
import TopologySync.Pattern.Basic
import TopologySync.Pattern.Brackets
import TopologySync.Pattern.CharSet
import TopologySync.Pattern.Chart
import TopologySync.Pattern.Nesting
import TopologySync.Pattern.Reader
import TopologySync.Proofs.Announcements.Counts
import TopologySync.Proofs.Announcements.FailedMoves
import TopologySync.Proofs.Announcements.History
import TopologySync.Proofs.Announcements.Networks
import TopologySync.Proofs.Announcements.Standing
import TopologySync.Proofs.Burst.Clock
import TopologySync.Proofs.Burst.FailedPass
import TopologySync.Proofs.Burst.Freshness
import TopologySync.Proofs.Burst.Loads
import TopologySync.Proofs.Burst.Moves
import TopologySync.Proofs.Burst.Order
import TopologySync.Proofs.Burst.Passes
import TopologySync.Proofs.Burst.Quiet
import TopologySync.Proofs.Burst.Renewal
import TopologySync.Proofs.Burst.Rows
import TopologySync.Proofs.Burst.Signals
import TopologySync.Proofs.Burst.Taken
import TopologySync.Proofs.Burst.Telemetry
import TopologySync.Proofs.Burst.Thresholds
import TopologySync.Proofs.Cache.ClientNetworks
import TopologySync.Proofs.Cache.Indices
import TopologySync.Proofs.Cache.Passes
import TopologySync.Proofs.Cache.Tenancy
import TopologySync.Proofs.Doubles.Arithmetic
import TopologySync.Proofs.Doubles.Infinities
import TopologySync.Proofs.Doubles.Mantissas
import TopologySync.Proofs.Doubles.Rounding
import TopologySync.Proofs.Doubles.Slips
import TopologySync.Proofs.Doubles.Values
import TopologySync.Proofs.Graph.Agreement
import TopologySync.Proofs.Graph.Calls
import TopologySync.Proofs.Graph.Edits
import TopologySync.Proofs.Graph.Incidence
import TopologySync.Proofs.Graph.SubGraphs
import TopologySync.Proofs.Graph.Undoing
import TopologySync.Proofs.Json.Events
import TopologySync.Proofs.Json.Layout
import TopologySync.Proofs.Json.Numerals
import TopologySync.Proofs.Json.Overflows
import TopologySync.Proofs.Json.Reading
import TopologySync.Proofs.Json.Records
import TopologySync.Proofs.Json.Texts
import TopologySync.Proofs.Json.Utf8
import TopologySync.Proofs.Json.Writing
import TopologySync.Proofs.Lasting
import TopologySync.Proofs.Maps
import TopologySync.Proofs.Metric.Averages
import TopologySync.Proofs.Metric.FiniteScores
import TopologySync.Proofs.Metric.FlatBatches
import TopologySync.Proofs.Metric.Held
import TopologySync.Proofs.Metric.Intervals
import TopologySync.Proofs.Metric.Lockstep
import TopologySync.Proofs.Metric.Passes
import TopologySync.Proofs.Metric.Places
import TopologySync.Proofs.Metric.Quartiles
import TopologySync.Proofs.Metric.Residues
import TopologySync.Proofs.Metric.Samples
import TopologySync.Proofs.Metric.Windows
import TopologySync.Proofs.Numbers
import TopologySync.Proofs.Presence.Events
import TopologySync.Proofs.Presence.Gaps
import TopologySync.Proofs.Presence.Router
import TopologySync.Proofs.Reconcile.Agreement
import TopologySync.Proofs.Reconcile.Changes
import TopologySync.Proofs.Reconcile.Deletion
import TopologySync.Proofs.Reconcile.Feeds
import TopologySync.Proofs.Reconcile.InPlace
import TopologySync.Proofs.Reconcile.Loads
import TopologySync.Proofs.Reconcile.Merge
import TopologySync.Proofs.Reconcile.Notice
import TopologySync.Proofs.Reconcile.Operations
import TopologySync.Proofs.Reconcile.Outcomes
import TopologySync.Proofs.Reconcile.Refusals
import TopologySync.Proofs.Reconcile.Reload
import TopologySync.Proofs.Reconcile.Requests
import TopologySync.Proofs.Reconcile.Swaps
import TopologySync.Proofs.Reconcile.Tolerance
import TopologySync.Proofs.Reconcile.Updates
import TopologySync.Proofs.Replay
import TopologySync.Proofs.Settings.Documents
import TopologySync.Proofs.Settings.Overrides
import TopologySync.Proofs.Settings.Stores
import TopologySync.Reconcile.Dispatch
import TopologySync.Reconcile.Error
import TopologySync.Reconcile.Link
import TopologySync.Reconcile.Node
import TopologySync.Reconcile.Prefix
import TopologySync.Record
import TopologySync.Replay
import TopologySync.Settings.Basic
import TopologySync.Settings.FileTree
import TopologySync.Settings.Store
import TopologySync.Text.Alphanumeric
import TopologySync.Text.Blank
import TopologySync.Text.Lossy
import TopologySync.Text.Numeral
import TopologySync.Weight
