-- The records that telemetry reports about a segment-routed network:
-- routers, directed links, announced prefixes and segment identifiers.
import TopologySync.Weight
import Std.Data.ExtTreeSet

namespace TopologySync

/-- A router. `algorithms` lists the flexible algorithms it takes part in. -/
structure Node where
  key : String
  router : String
  name : String := ""
  algorithms : Std.ExtTreeSet UInt8 := ∅
deriving DecidableEq

/-- A directed link with the telemetry measured on it. -/
structure Link where
  key : String
  source : String
  target : String
  igpMetric : UInt32
  delay : UInt32
  jitter : UInt32
  maxBandwidth : UInt64
  availableBandwidth : UInt64
  utilizedBandwidth : UInt64
  packetLoss : Float
  normalizedDelay : Float := 0.0
  normalizedJitter : Float := 0.0
  normalizedPacketLoss : Float := 0.0
deriving DecidableEq

namespace Link

/-- The value a link reports for one kind of weight. -/
def weight (link : Link) : WeightKind → Float
  | .igpMetric => link.igpMetric.toFloat
  | .delay => link.delay.toFloat
  | .jitter => link.jitter.toFloat
  | .maxBandwidth => link.maxBandwidth.toFloat
  | .availableBandwidth => link.availableBandwidth.toFloat
  | .utilizedBandwidth => link.utilizedBandwidth.toFloat
  | .packetLoss => link.packetLoss
  | .normalizedDelay => link.normalizedDelay
  | .normalizedJitter => link.normalizedJitter
  | .normalizedPacketLoss => link.normalizedPacketLoss

/-- All ten weights of a link, in canonical order. -/
def weights (link : Link) : List (WeightKind × Float) :=
  WeightKind.all.map (fun kind => (kind, link.weight kind))

end Link

/-- An announcement of a network by a router. -/
structure Prefix where
  key : String
  router : String
  address : String
  length : UInt8
deriving DecidableEq

namespace Prefix

/-- The least length of a host route. -/
def hostRouteLength : UInt8 := 128

/-- The announced network, written `address/length`. -/
def network (p : Prefix) : String :=
  p.address ++ "/" ++ toString p.length.toNat

/-- A host route names one address and never counts as a network. -/
def isHostRoute (p : Prefix) : Bool :=
  hostRouteLength ≤ p.length

end Prefix

/-- A segment identifier of a router for one flexible algorithm. -/
structure Sid where
  key : String
  router : String
  address : String
  algorithm : UInt8 := 0
deriving DecidableEq

/-- A full picture of the network at one moment. -/
structure Snapshot where
  nodes : List Node := []
  links : List Link := []
  prefixes : List Prefix := []
  sids : List Sid := []
deriving DecidableEq

end TopologySync
