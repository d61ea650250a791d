-- The law of telemetry. By whatever way an edge comes into the graph, and
-- whatever is written to it later, it has all ten weights and no raw one of
-- them is zero.
import TopologySync.Fixtures
import TopologySync.Proofs.Burst.Passes
import TopologySync.Proofs.Reconcile.Merge
import TopologySync.Proofs.Reconcile.Notice

open Std

namespace TopologySync

/-! ## Populated edges -/

/-- All weights of the edge are there, and the raw ones are populated. -/
def Edge.Populated (edge : Edge) : Prop :=
  ∀ kind, ∃ value, edge.weights[kind]? = some value ∧ unpopulated kind value = false

/-- All edges of the graph are populated. -/
def Graph.Populated (graph : Graph) : Prop :=
  ∀ (key : String) (edge : Edge), graph.edges[key]? = some edge → edge.Populated

/-- A raw weight that is populated is neither of the two zeros. -/
theorem ne_zero_of_populated {kind : WeightKind} {value : Float}
    (h : unpopulated kind value = false) (hraw : kind.isNormalized = false) :
    value ≠ 0.0 ∧ value ≠ -0.0 := by
  unfold unpopulated at h
  rw [hraw, Bool.not_false, Bool.true_and] at h
  constructor
  · rintro rfl
    exact absurd h (by decide)
  · rintro rfl
    exact absurd h (by decide)

namespace Topology

theorem getElem?_edgeOf (link : Link) (kind : WeightKind) :
    (edgeOf link).weights[kind]? = some (link.weight kind) := by
  have hkinds : WeightKind.all.Pairwise (fun a b => ¬ compare a b = .eq) := by decide
  have hdistinct : link.weights.Pairwise (fun a b => ¬ compare a.1 b.1 = .eq) :=
    List.pairwise_map.2 hkinds
  apply ExtTreeMap.getElem?_ofList_of_mem ReflCmp.compare_self hdistinct
  exact List.mem_map_of_mem (WeightKind.mem_all kind)

/-- The edge of a link is only made if the link is populated. -/
theorem populated_edgeOf {link : Link} (h : unpopulatedWeight? link = none) :
    (edgeOf link).Populated := by
  intro kind
  refine ⟨link.weight kind, getElem?_edgeOf link kind, ?_⟩
  unfold unpopulatedWeight? at h
  rw [Option.map_eq_none_iff, List.find?_eq_none] at h
  simpa using h (kind, link.weight kind) (List.mem_map_of_mem (WeightKind.mem_all kind))

/-- A merge writes only what is populated. -/
theorem populated_mergeLink {edge : Edge} (h : edge.Populated) (link : Link) :
    Edge.Populated { edge with weights := (mergeLink edge link).2 } := by
  intro kind
  simp only [getElem?_merged]
  split
  · rename_i hrewrites
    simp only [rewrites, Bool.and_eq_true, Bool.not_eq_true'] at hrewrites
    exact ⟨link.weight kind, rfl, hrewrites.1⟩
  · exact h kind

end Topology

/-! ## Populated graphs -/

namespace Graph

variable {graph graph' : Graph}

theorem populated_empty : Populated empty := by
  intro key edge h
  simp [empty] at h

theorem populated_insert (h : graph.Populated) {edge : Edge} (hedge : edge.Populated)
    (key : String) (hedges : graph'.edges = graph.edges.insert key edge) : graph'.Populated := by
  intro k known hknown
  rw [hedges, ExtTreeMap.getElem?_insert] at hknown
  split at hknown
  · cases hknown
    exact hedge
  · exact h k known hknown

theorem populated_thinned (h : graph.Populated) (hthinned : graph.Thinned graph') :
    graph'.Populated := by
  intro key edge hedge
  have hstays := hthinned key (Maps.mem_iff_exists.2 ⟨edge, hedge⟩)
  exact h key edge (hstays ▸ hedge)

end Graph

/-- Every change leaves populated edges behind. -/
theorem Topology.stable_populated : Stable Graph.Populated := by
  intro t changed graph hchange h
  cases hchange with
  | keep => exact h
  | describe node => exact h
  | dropNode => exact Graph.populated_thinned h (t.graph.thinned_dropNode _)
  | link hnew hweights => exact Graph.populated_insert h (populated_edgeOf hweights) _ rfl
  | merge hedge =>
    exact Graph.populated_insert h (populated_mergeLink (h _ _ hedge) _) _ rfl
  | unlink => exact Graph.populated_thinned h (t.graph.thinned_unlink _)

theorem Sync.populated_serve {s : Sync} (h : s.topology.graph.Populated) (request : Request) :
    (s.serve request).topology.graph.Populated := by
  cases request with
  | event event => exact Topology.stable_populated (s.dispatch_change event) h
  | snapshot snapshot =>
    obtain ⟨graph, hbuilt, hgraph⟩ := applySnapshot_keeps Topology.stable_populated h snapshot
    rw [serve, hgraph]
    exact hbuilt

/-! ## Passes -/

theorem Edge.populated_write {edge : Edge} (h : edge.Populated) (kind : WeightKind) (value : Float)
    (hvalue : unpopulated kind value = false) :
    Edge.Populated { edge with weights := edge.weights.insert kind value } := by
  intro other
  rw [ExtTreeMap.getElem?_insert]
  split
  · rename_i hkind
    rw [← Std.compare_eq_iff_eq.1 hkind]
    exact ⟨value, rfl, hvalue⟩
  · exact h other

/-- A pass writes normalized weights, which may be zero. -/
theorem Edge.populated_normalize {edge : Edge} (h : edge.Populated) (row : Float × Float × Float) :
    (edge.normalize row).Populated := by
  have hdelay := Edge.populated_write h .normalizedDelay row.1 rfl
  have hjitter := Edge.populated_write hdelay .normalizedJitter row.2.1 rfl
  exact Edge.populated_write hjitter .normalizedPacketLoss row.2.2 rfl

theorem Graph.populated_normalizeEdge {graph : Graph} (h : graph.Populated)
    (entry : String × Float × Float × Float) : (graph.normalizeEdge entry).Populated := by
  intro key edge hedge
  simp only [normalizeEdge, ExtTreeMap.getElem?_modify] at hedge
  split at hedge
  · obtain ⟨known, hknown, rfl⟩ := Option.map_eq_some_iff.1 hedge
    exact Edge.populated_normalize (h entry.1 known hknown) entry.2
  · exact h key edge hedge

theorem Graph.populated_normalizeEdges {graph : Graph} (h : graph.Populated)
    (entries : List (String × Float × Float × Float)) :
    (graph.normalizeEdges entries).Populated :=
  List.foldlRecOn _ _ h (fun _ h entry _ => populated_normalizeEdge h entry)

/-! ## All that is done to a processor -/

namespace Processor

/-- What may be done to a processor, by itself and in any order. -/
inductive Deed (ν μ : Type) where
  /-- It takes an event, or a snapshot as it is. -/
  | serve (request : Sync.Request)
  /-- It loads a snapshot, normalized first. -/
  | load (snapshot : Snapshot) (normalizer : μ)
  /-- It ends a burst, with whatever normalizer is attached to it by then. -/
  | finish (normalizer : Option ν) (events : Nat) (owed : Bool)

variable {ν μ : Type} [Normalizing ν] [Normalizing μ]

def perform (p : Processor ν) : Deed ν μ → Processor ν
  | .serve request => { p with sync := p.sync.serve request }
  | .load snapshot normalizer => p.afterLoad (snapshot, normalizer)
  | .finish normalizer events owed => ({ p with normalizer }.finishBurst events owed).1

/-- The processor after deeds in turn. -/
def performAll (p : Processor ν) (deeds : List (Deed ν μ)) : Processor ν :=
  deeds.foldl perform p

omit [Normalizing ν] in
theorem populated_afterLoad {p : Processor ν} (h : p.graph.Populated) (load : Snapshot × μ) :
    (p.afterLoad load).graph.Populated := by
  unfold graph at h ⊢
  rcases p.afterLoad_sync load with hsame | ⟨snapshot, happlied⟩
  · rw [hsame]
    exact h
  · rw [happlied]
    exact Sync.populated_serve h (.snapshot snapshot)

theorem populated_finishBurst {p : Processor ν} (h : p.graph.Populated) (events : Nat)
    (owed : Bool) : (p.finishBurst events owed).1.graph.Populated := by
  cases owed with
  | false => exact h
  | true =>
    obtain ⟨entries, hsync⟩ := p.finishBurst_sync events
    rw [graph, hsync]
    exact Graph.populated_normalizeEdges h entries

theorem populated_perform {p : Processor ν} (h : p.graph.Populated) (deed : Deed ν μ) :
    (p.perform deed).graph.Populated := by
  cases deed with
  | serve request => exact Sync.populated_serve h request
  | load snapshot normalizer => exact populated_afterLoad h (snapshot, normalizer)
  | finish normalizer events owed =>
    exact populated_finishBurst (p := { p with normalizer }) h events owed

theorem populated_performAll {p : Processor ν} (h : p.graph.Populated)
    (deeds : List (Deed ν μ)) : (p.performAll deeds).graph.Populated :=
  List.foldlRecOn (motive := fun q : Processor ν => q.graph.Populated) deeds perform h
    (fun _ h deed _ => populated_perform h deed)

end Processor

/-! ## The law -/

/-- Whatever a processor whose graph was empty has been through, each of its edges
has all ten weights, and none of the seven raw ones is zero or negative zero. -/
theorem every_raw_weight_is_populated {ν μ : Type} [Normalizing ν] [Normalizing μ]
    (p : Processor ν) (deeds : List (Processor.Deed ν μ)) (key : String) (edge : Edge)
    (hedge : ((p.withGraph .empty).performAll deeds).graph.edges[key]? = some edge)
    (kind : WeightKind) :
    ∃ value, edge.weights[kind]? = some value ∧
      (kind.isNormalized = false → value ≠ 0.0 ∧ value ≠ -0.0) := by
  have hempty : (p.withGraph .empty).graph.Populated := Graph.populated_empty
  have hpopulated := Processor.populated_performAll hempty deeds
  obtain ⟨value, hvalue, hkind⟩ := hpopulated key edge hedge kind
  exact ⟨value, hvalue, ne_zero_of_populated hkind⟩

/-- A link whose loss is negative zero makes no edge, and an update that reports no
delay leaves the one that is known. -/
theorem a_delay_that_is_not_reported_is_kept :
    let link := Fixtures.link "l" "r1" "r2"
    let silent := { Fixtures.link "m" "r2" "r1" with packetLoss := -0.0 }
    let deeds : List (Processor.Deed Normalizer Normalizer) :=
      [.load { links := [link, silent] } (.new .minMax), .serve (.event (.addLink silent)),
        .serve (.event (.updateLink { link with delay := 0, jitter := 70 })),
        .finish (some (.new .iqrMinMax)) 2 true]
    let graph := ((Processor.withGraph {} .empty).performAll deeds).graph
    "m" ∉ graph.edges ∧ ∃ edge, graph.edges["l"]? = some edge ∧
      edge.weights[WeightKind.delay]? = some 1000.0 ∧
      edge.weights[WeightKind.jitter]? = some 70.0 ∧
      ∀ kind : WeightKind, kind.isNormalized = false → edge.weights[kind]? ≠ some 0.0 := by
  intro link silent deeds graph
  have hrefused : "m" ∉ graph.edges := by decide +kernel
  have hdelay : graph.edges["l"]?.bind (fun edge => edge.weights[WeightKind.delay]?) =
      some 1000.0 := by
    decide +kernel
  have hjitter : graph.edges["l"]?.bind (fun edge => edge.weights[WeightKind.jitter]?) =
      some 70.0 := by
    decide +kernel
  obtain ⟨edge, hedge, hkept⟩ := Option.bind_eq_some_iff.1 hdelay
  rw [hedge, Option.bind_some] at hjitter
  refine ⟨hrefused, edge, hedge, hkept, hjitter, fun kind hraw hzero => ?_⟩
  obtain ⟨value, hvalue, hpopulated⟩ := every_raw_weight_is_populated {} deeds "l" edge hedge kind
  rw [hzero] at hvalue
  exact (hpopulated hraw).1 (Option.some.inj hvalue).symm

end TopologySync
