-- Normalization of links: the raw values of the three metrics are scaled
-- over the whole batch, and the results are written back link by link.
-- Whatever makes such passes may stand in for a strategy.
import TopologySync.Metric.Scaling

namespace TopologySync

/-- The values of the three metrics, one of each for every link. -/
structure Series where
  delay : List Float := []
  jitter : List Float := []
  packetLoss : List Float := []
deriving DecidableEq

/-- The value that a link reports for a metric. -/
def Link.reported (link : Link) : Metric → Float
  | .delay => link.delay.toFloat
  | .jitter => link.jitter.toFloat
  | .packetLoss => link.packetLoss

namespace Series

/-- The raw values of a list of links. -/
def ofLinks (links : List Link) : Series where
  delay := links.map (fun link => link.weight .delay)
  jitter := links.map (fun link => link.weight .jitter)
  packetLoss := links.map (fun link => link.weight .packetLoss)

/-- The values of one metric. -/
def get (series : Series) : Metric → List Float
  | .delay => series.delay
  | .jitter => series.jitter
  | .packetLoss => series.packetLoss

/-- The raw values of a metric are those that the links report for it, in their order. -/
theorem get_ofLinks (links : List Link) (metric : Metric) :
    (ofLinks links).get metric = links.map (·.reported metric) := by
  cases metric <;> rfl

/-- The number of links. -/
def length (series : Series) : Nat :=
  series.delay.length

/-- The values link by link. -/
def rows (series : Series) : List (Float × Float × Float) :=
  series.delay.zip (series.jitter.zip series.packetLoss)

/-- Scales one metric of a series. -/
def scaleMetric (strategy : Strategy) (raw : Series) (metric : Metric) :
    Except NormalizeError (List Float) :=
  (strategy.scale (raw.get metric)).mapError (⟨metric, ·⟩)

/-- Scales every metric of a series on its own. The first metric that
cannot be scaled is named. -/
def scale (strategy : Strategy) (raw : Series) : Except NormalizeError Series := do
  let delay ← scaleMetric strategy raw .delay
  let jitter ← scaleMetric strategy raw .jitter
  let packetLoss ← scaleMetric strategy raw .packetLoss
  return { delay, jitter, packetLoss }

end Series

/-- The values of one pass, as reported and as scaled. -/
structure Batch where
  raw : Series := {}
  normalized : Series := {}
deriving DecidableEq

/-- Whatever can normalize. A pass may fail, and may leave other state behind
either way. -/
class Normalizing (ν : Type) where
  /-- The strategy that it goes by. -/
  strategy : ν → Strategy
  /-- The values of its last pass. -/
  batch : ν → Batch
  /-- Makes a pass over raw values. -/
  normalizeSeries : ν → Series → Except NormalizeError Batch × ν
  /-- Makes a pass over links, and writes the scaled values on them. -/
  normalizeLinks : ν → List Link → Except NormalizeError (List Link) × ν

/-- A strategy together with its last successful pass. -/
structure Normalizer where
  strategy : Strategy
  batch : Batch := {}
deriving DecidableEq

namespace Normalizer

/-- A normalizer that has made no pass. -/
def new (strategy : Strategy) : Normalizer :=
  { strategy }

/-- Makes a pass over raw values. -/
def normalizeSeries (normalizer : Normalizer) (raw : Series) :
    Except NormalizeError Normalizer := do
  let normalized ← raw.scale normalizer.strategy
  return { normalizer with batch := { raw, normalized } }

/-- Writes the scaled values of one link. -/
def writeRow (link : Link) : Float × Float × Float → Link
  | (delay, jitter, packetLoss) =>
    { link with
      normalizedDelay := delay
      normalizedJitter := jitter
      normalizedPacketLoss := packetLoss }

/-- Makes a pass over links, and writes the scaled values on them. -/
def normalizeLinks (normalizer : Normalizer) (links : List Link) :
    Except NormalizeError (Normalizer × List Link) := do
  let normalizer ← normalizer.normalizeSeries (.ofLinks links)
  return (normalizer, links.zipWith writeRow normalizer.batch.normalized.rows)

/-- A pass that fails leaves a normalizer as it was. -/
@[default_instance]
instance : Normalizing Normalizer where
  strategy := Normalizer.strategy
  batch := Normalizer.batch
  normalizeSeries normalizer raw := match normalizer.normalizeSeries raw with
    | .ok normalizer => (.ok normalizer.batch, normalizer)
    | .error e => (.error e, normalizer)
  normalizeLinks normalizer links := match normalizer.normalizeLinks links with
    | .ok (normalizer, links) => (.ok links, normalizer)
    | .error e => (.error e, normalizer)

end Normalizer

end TopologySync
