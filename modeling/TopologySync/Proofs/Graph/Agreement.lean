-- Graphs that agree: the same nodes and the same edges between them, with
-- the same weights of the kinds that are compared. Whatever is done to
-- both alike, they still agree.
import TopologySync.Proofs.Graph.Edits

open Std

namespace TopologySync

/-! ## Agreement -/

/-- The same edge, with the same weights of the kinds that are compared. -/
structure Edge.Agree (kinds : WeightKind → Prop) (edge edge' : Edge) : Prop where
  key : edge.key = edge'.key
  source : edge.source = edge'.source
  target : edge.target = edge'.target
  weights : ∀ kind, kinds kind → edge.weights[kind]? = edge'.weights[kind]?

/-- The same nodes, and edges that agree under the same keys. Subgraphs are
not compared. -/
structure Graph.Agree (kinds : WeightKind → Prop) (graph graph' : Graph) : Prop where
  nodes : graph.nodes = graph'.nodes
  outbound : graph.outbound = graph'.outbound
  inbound : graph.inbound = graph'.inbound
  edges : ∀ key : String, Option.Rel (Edge.Agree kinds) graph.edges[key]? graph'.edges[key]?

/-- The seven kinds that telemetry reports as they are. -/
def WeightKind.isRaw (kind : WeightKind) : Prop :=
  kind.isNormalized = false

namespace Edge

variable {kinds : WeightKind → Prop}

theorem agree_refl (edge : Edge) : edge.Agree kinds edge :=
  ⟨rfl, rfl, rfl, fun _ _ => rfl⟩

theorem agree_symm {edge edge' : Edge} (h : edge.Agree kinds edge') : edge'.Agree kinds edge :=
  ⟨h.key.symm, h.source.symm, h.target.symm, fun kind hkind => (h.weights kind hkind).symm⟩

theorem agree_trans {edge edge' edge'' : Edge} (h : edge.Agree kinds edge')
    (h' : edge'.Agree kinds edge'') : edge.Agree kinds edge'' :=
  ⟨h.key.trans h'.key, h.source.trans h'.source, h.target.trans h'.target,
    fun kind hkind => (h.weights kind hkind).trans (h'.weights kind hkind)⟩

/-- Edges that agree on every weight are the same. -/
theorem eq_of_agree {edge edge' : Edge} (h : edge.Agree (fun _ => True) edge') :
    edge = edge' := by
  obtain ⟨key, source, target, weights⟩ := edge
  obtain ⟨hkey, hsource, htarget, hweights⟩ := h
  have hsame : weights = edge'.weights :=
    ExtTreeMap.ext_getElem? fun kind => hweights kind trivial
  cases hkey
  cases hsource
  cases htarget
  rw [hsame]

end Edge

namespace Graph

variable {kinds : WeightKind → Prop} {graph graph' graph'' : Graph}

theorem agree_edge (h : graph.Agree kinds graph') (key : String) :
    (graph.edges[key]? = none ∧ graph'.edges[key]? = none) ∨
      ∃ edge edge' : Edge, graph.edges[key]? = some edge ∧ graph'.edges[key]? = some edge' ∧
        edge.Agree kinds edge' := by
  have hedge := h.edges key
  generalize graph.edges[key]? = known at hedge ⊢
  generalize graph'.edges[key]? = known' at hedge ⊢
  cases hedge with
  | none => exact Or.inl ⟨rfl, rfl⟩
  | some hedge => exact Or.inr ⟨_, _, rfl, rfl, hedge⟩

theorem agree_refl (graph : Graph) : graph.Agree kinds graph := by
  refine ⟨rfl, rfl, rfl, fun key => ?_⟩
  rcases graph.edges[key]? with _ | edge
  · exact .none
  · exact .some edge.agree_refl

theorem agree_symm (h : graph.Agree kinds graph') : graph'.Agree kinds graph := by
  refine ⟨h.nodes.symm, h.outbound.symm, h.inbound.symm, fun key => ?_⟩
  rcases agree_edge h key with ⟨hnone, hnone'⟩ | ⟨edge, edge', hedge, hedge', hagree⟩
  · rw [hnone, hnone']
    exact .none
  · rw [hedge, hedge']
    exact .some (Edge.agree_symm hagree)

theorem agree_trans (h : graph.Agree kinds graph') (h' : graph'.Agree kinds graph'') :
    graph.Agree kinds graph'' := by
  refine ⟨h.nodes.trans h'.nodes, h.outbound.trans h'.outbound, h.inbound.trans h'.inbound,
    fun key => ?_⟩
  have hlast := h'.edges key
  rcases agree_edge h key with ⟨hnone, hnone'⟩ | ⟨edge, edge', hedge, hedge', hagree⟩
  · rw [hnone]
    rwa [hnone'] at hlast
  · rw [hedge'] at hlast
    rw [hedge]
    generalize graph''.edges[key]? = known at hlast ⊢
    cases hlast with
    | some hagree' => exact .some (Edge.agree_trans hagree hagree')

/-- Graphs that agree on every weight have the same edges. -/
theorem edges_eq_of_agree (h : graph.Agree (fun _ => True) graph') :
    graph.edges = graph'.edges := by
  apply ExtTreeMap.ext_getElem?
  intro key
  rcases agree_edge h key with ⟨hnone, hnone'⟩ | ⟨edge, edge', hedge, hedge', hagree⟩
  · rw [hnone, hnone']
  · rw [hedge, hedge', Edge.eq_of_agree hagree]

theorem mem_edges_of_agree (h : graph.Agree kinds graph') (key : String) :
    key ∈ graph.edges ↔ key ∈ graph'.edges := by
  simp only [ExtTreeMap.mem_iff_isSome_getElem?]
  rcases agree_edge h key with ⟨hnone, hnone'⟩ | ⟨edge, edge', hedge, hedge', -⟩
  · rw [hnone, hnone']
  · rw [hedge, hedge']
    exact Iff.rfl

/-! ## What keeps agreement -/

theorem agree_withNode (h : graph.Agree kinds graph') (node : GraphNode) :
    (graph.withNode node).Agree kinds (graph'.withNode node) :=
  ⟨congrArg (·.insertIfNew node.id node) h.nodes, h.outbound, h.inbound, h.edges⟩

theorem agree_describe (h : graph.Agree kinds graph') (node : Node) :
    (graph.describe node).Agree kinds (graph'.describe node) := by
  refine ⟨?_, h.outbound, h.inbound, h.edges⟩
  simp only [describe, h.nodes]

theorem agree_insert (h : graph.Agree kinds graph') {edge edge' : Edge}
    (hedge : edge.Agree kinds edge') (key k : String) :
    Option.Rel (Edge.Agree kinds) (graph.edges.insert key edge)[k]?
      (graph'.edges.insert key edge')[k]? := by
  simp only [ExtTreeMap.getElem?_insert]
  split
  · exact .some hedge
  · exact h.edges k

theorem agree_link (h : graph.Agree kinds graph') (edge : Edge) :
    (graph.link edge).Agree kinds (graph'.link edge) := by
  refine ⟨h.nodes, ?_, ?_, agree_insert h edge.agree_refl edge.key⟩
  · simp only [link, h.outbound]
  · simp only [link, h.inbound]

theorem agree_unlink (h : graph.Agree kinds graph') {edge edge' : Edge}
    (hedge : edge.Agree kinds edge') :
    (graph.unlink edge).Agree kinds (graph'.unlink edge') := by
  refine ⟨h.nodes, ?_, ?_, fun key => ?_⟩
  · simp only [unlink, h.outbound, hedge.key, hedge.source]
  · simp only [unlink, h.inbound, hedge.key, hedge.target]
  · simp only [unlink, ExtTreeMap.getElem?_erase, hedge.key]
    split
    · exact .none
    · exact h.edges key

theorem agree_dropEdge (h : graph.Agree kinds graph') (key : String) :
    (graph.dropEdge key).Agree kinds (graph'.dropEdge key) := by
  unfold dropEdge
  rcases agree_edge h key with ⟨hnone, hnone'⟩ | ⟨edge, edge', hedge, hedge', hagree⟩
  · rw [hnone, hnone']
    exact h
  · rw [hedge, hedge']
    exact agree_unlink h hagree

theorem agree_dropEdges (h : graph.Agree kinds graph') (keys : List String) :
    (keys.foldl dropEdge graph).Agree kinds (keys.foldl dropEdge graph') := by
  induction keys generalizing graph graph' with
  | nil => exact h
  | cons key rest ih => exact ih (agree_dropEdge h key)

theorem agree_dropNode (h : graph.Agree kinds graph') (id : String) :
    (graph.dropNode id).Agree kinds (graph'.dropNode id) := by
  have hincident : graph.incident id = graph'.incident id := by
    simp only [incident, h.outbound, h.inbound]
  have hbare : Agree kinds { graph with nodes := graph.nodes.erase id }
      { graph' with nodes := graph'.nodes.erase id } :=
    ⟨congrArg (·.erase id) h.nodes, h.outbound, h.inbound, h.edges⟩
  unfold dropNode
  rw [hincident]
  exact agree_dropEdges hbare _

theorem agree_reweigh (h : graph.Agree kinds graph') {edge edge' : Edge}
    (hedge : edge.Agree kinds edge') (key : String) {weights weights' : Weights}
    (hweights : ∀ kind, kinds kind → weights[kind]? = weights'[kind]?) :
    (graph.reweigh edge key weights).Agree kinds (graph'.reweigh edge' key weights') := by
  have hnew : Edge.Agree kinds { edge with weights } { edge' with weights := weights' } :=
    ⟨hedge.key, hedge.source, hedge.target, hweights⟩
  exact ⟨h.nodes, h.outbound, h.inbound, agree_insert h hnew key⟩

theorem agree_rebuild (graph : Graph) : graph.rebuild.Agree kinds graph :=
  ⟨rfl, rfl, rfl, graph.agree_refl.edges⟩

end Graph

end TopologySync
