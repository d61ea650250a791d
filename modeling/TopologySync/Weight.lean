-- The ten weights that every edge of the graph may carry: seven that
-- telemetry reports as they are, and three that normalization derives.
import Std.Data.ExtTreeMap

namespace TopologySync

/-- One of the ten numbers on an edge, named in canonical order. -/
inductive WeightKind where
  | igpMetric
  | delay
  | jitter
  | maxBandwidth
  | availableBandwidth
  | utilizedBandwidth
  | packetLoss
  | normalizedDelay
  | normalizedJitter
  | normalizedPacketLoss
deriving DecidableEq, Repr

namespace WeightKind

/-- All kinds, in canonical order. -/
def all : List WeightKind :=
  [igpMetric, delay, jitter, maxBandwidth, availableBandwidth, utilizedBandwidth, packetLoss,
    normalizedDelay, normalizedJitter, normalizedPacketLoss]

/-- The kinds that normalization writes; they alone may be zero. -/
def isNormalized : WeightKind → Bool
  | normalizedDelay | normalizedJitter | normalizedPacketLoss => true
  | _ => false

/-- The spelling of a kind in documents and messages. -/
def name : WeightKind → String
  | igpMetric => "igp_metric"
  | delay => "delay"
  | jitter => "jitter"
  | maxBandwidth => "max_bandwidth"
  | availableBandwidth => "available_bandwidth"
  | utilizedBandwidth => "utilized_bandwidth"
  | packetLoss => "packet_loss"
  | normalizedDelay => "normalized_delay"
  | normalizedJitter => "normalized_jitter"
  | normalizedPacketLoss => "normalized_packet_loss"

/-- The kind with a given spelling. -/
def ofName? (text : String) : Option WeightKind :=
  all.find? (fun kind => kind.name == text)

/-! ## Canonical order -/

/-- The place of a kind in the canonical order. -/
def rank : WeightKind → Nat
  | igpMetric => 0
  | delay => 1
  | jitter => 2
  | maxBandwidth => 3
  | availableBandwidth => 4
  | utilizedBandwidth => 5
  | packetLoss => 6
  | normalizedDelay => 7
  | normalizedJitter => 8
  | normalizedPacketLoss => 9

theorem rank_injective {a b : WeightKind} (h : a.rank = b.rank) : a = b := by
  cases a <;> cases b <;> first | rfl | cases h

instance : Ord WeightKind where
  compare a b := compare a.rank b.rank

instance : Std.TransOrd WeightKind :=
  inferInstanceAs (Std.TransCmp (compareOn rank))

instance : Std.LawfulEqOrd WeightKind where
  eq_of_compare h := rank_injective (Std.LawfulEqOrd.eq_of_compare h)

theorem mem_all (kind : WeightKind) : kind ∈ all := by
  cases kind <;> simp [all]

end WeightKind

/-- The weights present on an edge, kept in canonical order. -/
abbrev Weights := Std.ExtTreeMap WeightKind Float

/-- Weights are the same if they hold the same doubles, bit by bit. -/
instance : DecidableEq Weights :=
  let _ : BEq Float := instBEqOfDecidableEq
  have : LawfulBEq Float := inferInstance
  inferInstance

end TopologySync
