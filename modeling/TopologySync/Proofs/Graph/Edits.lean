-- Plain forms of what is done to a graph. None of them can fail, and each
-- keeps every node and every edge under its own key.
import TopologySync.Proofs.Maps
import TopologySync.Record
import TopologySync.Graph.Basic

open Std

namespace TopologySync.Graph

/-! ## The edits -/

/-- The graph with a node. A node that is there is left as it is. -/
def withNode (graph : Graph) (node : GraphNode) : Graph :=
  { graph with nodes := graph.nodes.insertIfNew node.id node }

/-- The graph in which a router is described by a record. -/
def describe (graph : Graph) (node : Node) : Graph :=
  let known := graph.nodes[node.router]?.getD (.placeholder node.router)
  let described := { known with name := node.name, algorithms := node.algorithms }
  { graph with nodes := graph.nodes.insert node.router described }

/-- The graph without a node and its incident edges. -/
def dropNode (graph : Graph) (id : String) : Graph :=
  (graph.incident id).toList.foldl dropEdge { graph with nodes := graph.nodes.erase id }

/-- The graph in which an edge has other weights. -/
def reweigh (graph : Graph) (edge : Edge) (key : String) (weights : Weights) : Graph :=
  { graph with edges := graph.edges.insert key { edge with weights } }

theorem mem_withNode (graph : Graph) (node : GraphNode) (id : String) :
    id ∈ (graph.withNode node).nodes ↔ node.id = id ∨ id ∈ graph.nodes := by
  simp [withNode]

theorem getElem?_withNode (graph : Graph) (node : GraphNode) (id : String) :
    (graph.withNode node).nodes[id]? =
      if node.id = id then graph.nodes[id]?.or (some node) else graph.nodes[id]? := by
  unfold withNode
  by_cases hid : node.id = id
  · subst hid
    rcases hknown : graph.nodes[node.id]? with _ | known
    · have habsent : node.id ∉ graph.nodes := by simp [Maps.mem_iff_exists, hknown]
      simp [Maps.insertIfNew_of_notMem node habsent]
    · have hthere : node.id ∈ graph.nodes := Maps.mem_iff_exists.2 ⟨known, hknown⟩
      simp [Maps.insertIfNew_of_mem node hthere, hknown]
  · simp [ExtTreeMap.getElem?_insertIfNew, hid]

theorem addNode_eq {graph : Graph} {node : GraphNode} (h : node.id ∉ graph.nodes) :
    graph.addNode node = .ok (graph.withNode node) := by
  rw [withNode, Maps.insertIfNew_of_notMem node h]
  exact if_neg h

theorem addEdge_eq {graph : Graph} {edge : Edge} (hkey : edge.key ∉ graph.edges)
    (hsource : edge.source ∈ graph.nodes) (htarget : edge.target ∈ graph.nodes) :
    graph.addEdge edge = .ok (graph.link edge) := by
  simp [addEdge, hkey, hsource, htarget]

/-- Only a node that is not there yet is added. -/
theorem of_addNode {graph next : Graph} {node : GraphNode} (h : graph.addNode node = .ok next) :
    node.id ∉ graph.nodes ∧ next = graph.withNode node := by
  unfold addNode at h
  split at h
  · cases h
  · rename_i hnew
    cases h
    exact ⟨hnew, by rw [withNode, Maps.insertIfNew_of_notMem node hnew]⟩

/-- Only an edge that is not there yet is added, and only between nodes that are. -/
theorem of_addEdge {graph next : Graph} {edge : Edge} (h : graph.addEdge edge = .ok next) :
    edge.key ∉ graph.edges ∧ edge.source ∈ graph.nodes ∧ edge.target ∈ graph.nodes ∧
      next = graph.link edge := by
  unfold addEdge at h
  by_cases hnew : edge.key ∈ graph.edges
  · simp [hnew] at h
  · by_cases hsource : edge.source ∈ graph.nodes
    · by_cases htarget : edge.target ∈ graph.nodes
      · simp only [hnew, hsource, htarget, not_true, if_false] at h
        cases h
        exact ⟨hnew, hsource, htarget, rfl⟩
      · simp [hnew, hsource, htarget] at h
    · simp [hnew, hsource] at h

/-! ## Edges that stay -/

/-- Edges may be gone, and those that are left are as they were. -/
def Thinned (graph graph' : Graph) : Prop :=
  ∀ key : String, key ∈ graph'.edges → graph'.edges[key]? = graph.edges[key]?

theorem thinned_unlink (graph : Graph) (edge : Edge) : graph.Thinned (graph.unlink edge) := by
  intro key hkey
  simp only [unlink, ExtTreeMap.mem_erase, ne_eq] at hkey
  simp [unlink, ExtTreeMap.getElem?_erase, hkey.1]

theorem thinned_trans {graph graph' graph'' : Graph} (h : graph.Thinned graph')
    (h' : graph'.Thinned graph'') : graph.Thinned graph'' := by
  intro key hkey
  have hlast := h' key hkey
  rw [hlast]
  apply h key
  rw [Maps.mem_iff_exists] at hkey ⊢
  rwa [hlast] at hkey

theorem thinned_dropNode (graph : Graph) (id : String) : graph.Thinned (graph.dropNode id) := by
  have hdrop : ∀ (graph : Graph) (key : String), graph.Thinned (graph.dropEdge key) := by
    intro graph key
    unfold dropEdge
    split
    · exact fun _ _ => rfl
    · exact thinned_unlink graph _
  have hbare : graph.Thinned { graph with nodes := graph.nodes.erase id } := fun _ _ => rfl
  exact List.foldlRecOn _ _ hbare (fun left h key _ => thinned_trans h (hdrop left key))

/-! ## Every record under its own key -/

/-- Every node is stored under its router and every edge under its link. -/
structure Keyed (graph : Graph) : Prop where
  nodes : ∀ id (node : GraphNode), graph.nodes[id]? = some node → node.id = id
  edges : ∀ key (edge : Edge), graph.edges[key]? = some edge → edge.key = key

theorem keyed_empty : Keyed empty where
  nodes id node h := by simp [empty] at h
  edges key edge h := by simp [empty] at h

theorem keyed_withNode {graph : Graph} (h : graph.Keyed) (node : GraphNode) :
    (graph.withNode node).Keyed := by
  refine ⟨?_, h.edges⟩
  unfold withNode
  by_cases hmem : node.id ∈ graph.nodes
  · rw [Maps.insertIfNew_of_mem node hmem]
    exact h.nodes
  · rw [Maps.insertIfNew_of_notMem node hmem]
    exact Maps.own_key_insert h.nodes rfl

theorem keyed_describe {graph : Graph} (h : graph.Keyed) (node : Node) :
    (graph.describe node).Keyed := by
  refine ⟨Maps.own_key_insert h.nodes ?_, h.edges⟩
  rcases hknown : graph.nodes[node.router]? with _ | known
  · rfl
  · exact h.nodes node.router known hknown

theorem keyed_link {graph : Graph} (h : graph.Keyed) (edge : Edge) : (graph.link edge).Keyed :=
  ⟨h.nodes, Maps.own_key_insert h.edges rfl⟩

theorem keyed_unlink {graph : Graph} (h : graph.Keyed) (edge : Edge) :
    (graph.unlink edge).Keyed :=
  ⟨h.nodes, Maps.own_key_erase h.edges edge.key⟩

theorem keyed_dropEdge {graph : Graph} (h : graph.Keyed) (key : String) :
    (graph.dropEdge key).Keyed := by
  unfold dropEdge
  split
  · exact h
  · exact keyed_unlink h _

theorem keyed_dropNode {graph : Graph} (h : graph.Keyed) (id : String) :
    (graph.dropNode id).Keyed := by
  have hbare : Keyed { graph with nodes := graph.nodes.erase id } :=
    ⟨Maps.own_key_erase h.nodes id, h.edges⟩
  exact List.foldlRecOn _ _ hbare (fun _ h key _ => keyed_dropEdge h key)

theorem keyed_reweigh {graph : Graph} (h : graph.Keyed) {edge : Edge} {key : String}
    (hedge : graph.edges[key]? = some edge) (weights : Weights) :
    (graph.reweigh edge key weights).Keyed :=
  ⟨h.nodes, Maps.own_key_insert h.edges (h.edges key edge hedge)⟩

theorem keyed_rebuild {graph : Graph} (h : graph.Keyed) : graph.rebuild.Keyed :=
  ⟨h.nodes, h.edges⟩

end TopologySync.Graph
