-- Why a reported change is not applied, and what is noted about it.
import TopologySync.Cache.Basic
import TopologySync.Event
import TopologySync.Graph.Basic

namespace TopologySync

/-- Why a change is not applied. -/
inductive ReconcileError where
  /-- The telemetry of a link is not populated yet. -/
  | zeroWeight (key : String) (kind : WeightKind)
  /-- No announcement has this key. -/
  | unknownPrefix (key : String)
  /-- An announcement is known whose network was never counted. -/
  | uncountedNetwork (key network : String)
  /-- The graph refuses the change. -/
  | graph (error : GraphError)
deriving DecidableEq

namespace ReconcileError

/-- The change is incomplete, and a later one is expected to complete it.
Every other error points to a state that lost its way. -/
def isValidation : ReconcileError → Bool
  | zeroWeight _ _ => true
  | _ => false

def message : ReconcileError → String
  | zeroWeight key kind => "link " ++ key ++ ": " ++ kind.name ++ " is zero"
  | unknownPrefix key => "prefix " ++ key ++ " is not cached"
  | uncountedNetwork key network =>
    "no announcement count for " ++ network ++ " (prefix " ++ key ++ ")"
  | graph error => error.message

end ReconcileError

/-- The cache and the graph, which every change is applied to. -/
structure Topology where
  cache : Cache := .empty
  graph : Graph := .empty
deriving DecidableEq

/-- What is worth telling about a change that was not applied. -/
inductive Refusal where
  /-- No one takes events of this family. -/
  | unhandled (family : Family) (key : String)
  /-- An event was refused. -/
  | event (kind : Event.Kind) (key : String) (error : ReconcileError)
  /-- A record of a snapshot was refused. -/
  | record (family : Family) (key : String) (error : ReconcileError)
deriving DecidableEq

end TopologySync
