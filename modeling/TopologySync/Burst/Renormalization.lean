-- Normalizing the edges of the graph anew: the normalized weights of all
-- edges are scaled from their raw ones as one batch.
import TopologySync.Graph.Basic
import TopologySync.Metric.Normalizer

namespace TopologySync

namespace Edge

/-- The raw weights of the three metrics, if the edge has all of them. -/
def rawMetrics? (edge : Edge) : Option (Float × Float × Float) := do
  return (← edge.weights[WeightKind.delay]?, ← edge.weights[WeightKind.jitter]?,
    ← edge.weights[WeightKind.packetLoss]?)

/-- Writes the normalized weights of an edge. -/
def normalize (row : Float × Float × Float) (edge : Edge) : Edge :=
  let (delay, jitter, packetLoss) := row
  let weights := edge.weights.insert .normalizedDelay delay
  let weights := weights.insert .normalizedJitter jitter
  { edge with weights := weights.insert .normalizedPacketLoss packetLoss }

end Edge

/-- The series of the three metrics, given link by link. -/
def Series.ofRows (rows : List (Float × Float × Float)) : Series where
  delay := rows.map (fun row => row.1)
  jitter := rows.map (fun row => row.2.1)
  packetLoss := rows.map (fun row => row.2.2)

namespace Graph

/-- The edges with raw metrics, by key. -/
def measured (graph : Graph) : List (String × Float × Float × Float) :=
  graph.edges.toList.filterMap (fun (key, edge) => edge.rawMetrics?.map (key, ·))

/-- Writes the normalized weights of one edge. -/
def normalizeEdge (graph : Graph) (entry : String × Float × Float × Float) : Graph :=
  { graph with edges := graph.edges.modify entry.1 (Edge.normalize entry.2) }

/-- Normalizes all edges that have raw metrics, and tells how many. If none
has, no pass is made. -/
def renormalize {ν : Type} [Normalizing ν] (graph : Graph) (normalizer : ν) :
    Except NormalizeError (Nat × Graph) × ν :=
  let measured := graph.measured
  if measured.isEmpty then (.ok (0, graph), normalizer)
  else match Normalizing.normalizeSeries normalizer (.ofRows (measured.map Prod.snd)) with
    | (.error e, normalizer) => (.error e, normalizer)
    | (.ok batch, normalizer) =>
      let entries := (measured.map Prod.fst).zip batch.normalized.rows
      (.ok (measured.length, entries.foldl normalizeEdge graph), normalizer)

end Graph

end TopologySync
