-- The processor keeps cache and graph current. It loads a snapshot, takes
-- events, and at the end of a burst of events normalizes the edges anew
-- and rebuilds the subgraphs, if the burst owes it.
import TopologySync.Burst.Renormalization
import TopologySync.Metric.Window
import TopologySync.Reconcile.Dispatch

namespace TopologySync

/-- What a processor tells of its work. -/
inductive Report where
  | refused (refusal : Refusal)
  | snapshotLoaded (summary : Summary) (strategy : Strategy)
  | started
  /-- The edges keep the normalized weights that they had. -/
  | normalizationFailed (error : NormalizeError)
  | thresholdsUnavailable (error : StatError)
  | burstComplete (events : Nat) (rebuilt : Bool)
  /-- No more events can come. -/
  | sourceClosed
  /-- The processor was told to quit. -/
  | quit
deriving DecidableEq

/-- A processor with the state that it keeps. -/
structure Processor (ν : Type := Normalizer) where
  /-- How long a burst must be quiet to end, in milliseconds. -/
  holdTime : Nat := 1000
  sync : Sync := {}
  normalizer : Option ν := none
  thresholds : Option ThresholdTracker := none
  /-- How many times it signalled that the subgraphs are new. -/
  signals : Nat := 0
deriving DecidableEq

namespace Processor

variable {ν μ : Type}

def graph (p : Processor ν) : Graph :=
  p.sync.topology.graph

def withGraph (p : Processor ν) (graph : Graph) : Processor ν :=
  { p with sync := { p.sync with topology := { p.sync.topology with graph } } }

/-- Tells whoever listens that the subgraphs are new. -/
def signal (p : Processor ν) : Processor ν :=
  { p with signals := p.signals + 1 }

/-- Takes the raw values of a pass into the threshold windows. -/
def observe (p : Processor ν) (raw : Series) : Processor ν × List Report :=
  match p.thresholds with
  | none => (p, [])
  | some tracker => match tracker.observe raw with
    | .ok tracker => ({ p with thresholds := some tracker }, [])
    | .error e => (p, [.thresholdsUnavailable e])

/-! ## Snapshots -/

/-- Normalizes the links of a snapshot as one batch. -/
def normalizeSnapshot [Normalizing μ] (p : Processor ν) (snapshot : Snapshot) (normalizer : μ) :
    Except NormalizeError (Snapshot × μ × Processor ν × List Report) :=
  if snapshot.links.isEmpty then .ok (snapshot, normalizer, p, [])
  else match Normalizing.normalizeLinks normalizer snapshot.links with
    | (.error e, _) => .error e
    | (.ok links, normalizer) =>
      let (p, reports) := p.observe (Normalizing.batch normalizer).raw
      .ok ({ snapshot with links }, normalizer, p, reports)

/-- Loads a snapshot. If its links cannot be normalized, nothing is loaded. -/
def loadSnapshot [Normalizing μ] (p : Processor ν) (snapshot : Snapshot) (normalizer : μ) :
    Except NormalizeError (Summary × μ × Processor ν × List Report) := do
  let (snapshot, normalizer, p, observed) ← p.normalizeSnapshot snapshot normalizer
  let (summary, sync, refused) := p.sync.applySnapshot snapshot
  return (summary, normalizer, { p with sync }.signal,
    observed ++ refused.map .refused ++ [.snapshotLoaded summary (Normalizing.strategy normalizer)])

/-- The processor after a load. A load that fails leaves it as it was. -/
def afterLoad [Normalizing μ] (p : Processor ν) (load : Snapshot × μ) : Processor ν :=
  match p.loadSnapshot load.1 load.2 with
  | .ok (_, _, p, _) => p
  | .error _ => p

/-- The processor after loads in turn. -/
def afterLoads [Normalizing μ] (p : Processor ν) (loads : List (Snapshot × μ)) : Processor ν :=
  loads.foldl afterLoad p

/-! ## Bursts -/

/-- Normalizes the edges anew, if there is a normalizer. -/
def renormalize [Normalizing ν] (p : Processor ν) : Processor ν × List Report :=
  match p.normalizer with
  | none => (p, [])
  | some normalizer => match p.graph.renormalize normalizer with
    | (.error e, normalizer) =>
      ({ p with normalizer := some normalizer }, [.normalizationFailed e])
    | (.ok (0, _), normalizer) => ({ p with normalizer := some normalizer }, [])
    | (.ok (_, graph), normalizer) =>
      ({ p.withGraph graph with normalizer := some normalizer }).observe
        (Normalizing.batch normalizer).raw

/-- Ends a burst. The subgraphs are rebuilt if the burst owes it, and then
a signal follows. -/
def finishBurst [Normalizing ν] (p : Processor ν) (events : Nat) (owed : Bool) :
    Processor ν × List Report :=
  if owed then
    let (p, reports) := p.renormalize
    ((p.withGraph p.graph.rebuild).signal, reports ++ [.burstComplete events true])
  else (p, [.burstComplete events false])

end Processor

end TopologySync
