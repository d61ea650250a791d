-- What each change of the topology comes to. The graph refuses nothing
-- that is asked of it here, so a change has one plain result, or it leaves
-- everything as it was and says why.
import TopologySync.Proofs.Graph.Edits
import TopologySync.Reconcile.Dispatch

open Std

namespace TopologySync.Topology

theorem mapError_ok {ε ε' α : Type} (f : ε → ε') (x : α) :
    (Except.ok x : Except ε α).mapError f = .ok x :=
  rfl

/-! ## Links -/

theorem endpoint_id (cache : Cache) (router : String) : (endpoint cache router).id = router := by
  unfold endpoint
  split <;> rfl

theorem ensureNode_eq (cache : Cache) (router : String) (graph : Graph) :
    ensureNode cache router graph = .ok (graph.withNode (endpoint cache router)) := by
  unfold ensureNode Graph.addNode Graph.withNode
  rw [endpoint_id]
  by_cases h : router ∈ graph.nodes
  · simp [h, Maps.insertIfNew_of_mem _ h]
  · simp [h, Maps.insertIfNew_of_notMem _ h]

/-- The graph with the edge of a link and with both of its endpoints. -/
def linked (t : Topology) (link : Link) : Graph :=
  ((t.graph.withNode (endpoint t.cache link.source)).withNode
    (endpoint t.cache link.target)).link (edgeOf link)

/-- With both of its endpoints there, a new edge is entered. -/
theorem addEdge_linked {t : Topology} {link : Link} (h : link.key ∉ t.graph.edges) :
    ((t.graph.withNode (endpoint t.cache link.source)).withNode
      (endpoint t.cache link.target)).addEdge (edgeOf link) = .ok (t.linked link) :=
  Graph.addEdge_eq h (by simp [edgeOf, Graph.mem_withNode, endpoint_id])
    (by simp [edgeOf, Graph.mem_withNode, endpoint_id])

/-- A new edge is refused only for a weight that is not populated. -/
theorem addLink_eq (t : Topology) (link : Link) :
    t.addLink link =
      if link.key ∈ t.graph.edges then .ok (false, t)
      else match unpopulatedWeight? link with
        | some kind => .error (.zeroWeight link.key kind)
        | none => .ok (true, { t with graph := t.linked link }) := by
  unfold addLink
  split
  · rfl
  · rename_i hkey
    rcases unpopulatedWeight? link with _ | kind
    · simp only [ensureNode_eq, bind, Except.bind, addEdge_linked hkey, mapError_ok, pure,
        Except.pure]
    · rfl

theorem deleteLink_eq (t : Topology) (key : String) :
    t.deleteLink key = match t.graph.edges[key]? with
      | none => .ok (false, t)
      | some edge => .ok (true, { t with graph := t.graph.unlink edge }) := by
  unfold deleteLink Graph.deleteEdge
  rcases h : t.graph.edges[key]? with _ | edge
  · have hkey : key ∉ t.graph.edges := by simp [Maps.mem_iff_exists, h]
    simp [hkey]
  · have hkey : key ∈ t.graph.edges := Maps.mem_iff_exists.2 ⟨edge, h⟩
    simp [hkey, bind, Except.bind, mapError_ok, pure, Except.pure]

/-! ## Updates of links -/

/-- Merges one weight into the weights of an edge. -/
def mergeInto (state : WeightUpdate × Weights) (weight : WeightKind × Float) :
    WeightUpdate × Weights :=
  if unpopulated weight.1 weight.2 then
    ({ state.1 with skipped := state.1.skipped ++ [weight.1] }, state.2)
  else if state.2[weight.1]?.any (· == weight.2) then state
  else ({ state.1 with changed := state.1.changed ++ [weight.1] },
    state.2.insert weight.1 weight.2)

/-- Merges all weights of a link into the weights of its edge. -/
def mergeLink (edge : Edge) (link : Link) : WeightUpdate × Weights :=
  link.weights.foldl mergeInto ({}, edge.weights)

theorem mergeWeight_eq {graph : Graph} {edge : Edge} {key : String} (update : WeightUpdate)
    (weight : WeightKind × Float) (h : graph.edges[key]? = some edge) :
    mergeWeight key (update, graph) weight =
      .ok ((mergeInto (update, edge.weights) weight).1,
        graph.reweigh edge key (mergeInto (update, edge.weights) weight).2) := by
  obtain ⟨kind, value⟩ := weight
  have hsame : graph.reweigh edge key edge.weights = graph := by
    simp [Graph.reweigh, Maps.insert_self h]
  have hset : graph.setWeight key kind value =
      .ok (graph.reweigh edge key (edge.weights.insert kind value)) := by
    simp only [Graph.setWeight, h, Graph.reweigh]
  unfold mergeWeight mergeInto
  simp only [Graph.weight, Graph.allWeights, hset, h, bind, Except.bind, pure, Except.pure]
  split
  · simp [hsame]
  · rcases edge.weights[kind]? with _ | old
    · simp
    · simp only [Option.any_some]
      split
      · simp [hsame]
      · simp

theorem foldlM_mergeWeight {graph : Graph} {edge : Edge} {key : String}
    (h : graph.edges[key]? = some edge) (update : WeightUpdate)
    (weights : List (WeightKind × Float)) :
    weights.foldlM (mergeWeight key) (update, graph) =
      .ok ((weights.foldl mergeInto (update, edge.weights)).1,
        graph.reweigh edge key (weights.foldl mergeInto (update, edge.weights)).2) := by
  induction weights generalizing graph edge update with
  | nil => simp [Graph.reweigh, Maps.insert_self h, pure, Except.pure]
  | cons weight rest ih =>
    rw [List.foldlM_cons, mergeWeight_eq update weight h, List.foldl_cons]
    rcases mergeInto (update, edge.weights) weight with ⟨update, merged⟩
    have hnext : (graph.reweigh edge key merged).edges[key]? =
        some { edge with weights := merged } := by
      simp [Graph.reweigh]
    simp only [bind, Except.bind]
    rw [ih hnext update]
    simp [Graph.reweigh, Maps.insert_insert]

/-- An update of an edge always succeeds. -/
theorem updateLink_eq (t : Topology) (link : Link) :
    t.updateLink link = match t.graph.edges[link.key]? with
      | none => (t.addLink link).map (fun (created, t) => ({ created }, t))
      | some edge => .ok ((mergeLink edge link).1,
          { t with graph := t.graph.reweigh edge link.key (mergeLink edge link).2 }) := by
  unfold updateLink
  rcases h : t.graph.edges[link.key]? with _ | edge
  · have hkey : link.key ∉ t.graph.edges := by simp [Maps.mem_iff_exists, h]
    rw [if_neg hkey]
    rcases t.addLink link with e | ⟨created, t⟩ <;> rfl
  · have hkey : link.key ∈ t.graph.edges := Maps.mem_iff_exists.2 ⟨edge, h⟩
    rw [if_pos hkey, foldlM_mergeWeight h]
    rfl

/-! ## Nodes -/

/-- A node is never refused. -/
theorem upsertNode_eq (t : Topology) (node : Node) :
    t.upsertNode node = .ok (differsFrom node t.graph.nodes[node.router]?,
      { cache := t.cache.storeNode node, graph := t.graph.describe node }) := by
  unfold upsertNode Graph.describe
  rcases h : t.graph.nodes[node.router]? with _ | known
  · have hnode : (graphNodeOf node).id ∉ t.graph.nodes := by
      simp [Maps.mem_iff_exists, graphNodeOf, h]
    simp only [Graph.addNode, hnode, bind, Except.bind, pure, Except.pure]
    rfl
  · simp only [bind, Except.bind, pure, Except.pure, Graph.describeNode,
      Maps.modify_eq_insert _ h, Option.getD_some]

theorem deleteNode_eq (t : Topology) (key : String) :
    t.deleteNode key = match t.cache.nodes[key]? with
      | none => .ok (false, t)
      | some node =>
        let cache := (t.cache.removeNode key).2
        if node.router ∈ t.graph.nodes then
          .ok (true, { cache, graph := t.graph.dropNode node.router })
        else .ok (false, { t with cache }) := by
  unfold deleteNode Cache.removeNode
  rcases t.cache.nodes[key]? with _ | node
  · rfl
  · simp only
    split
    · rename_i hnode
      obtain ⟨known, hknown⟩ := Maps.mem_iff_exists.1 hnode
      simp only [Graph.deleteNode, hknown, bind, Except.bind, mapError_ok, pure, Except.pure]
      rfl
    · rfl

end TopologySync.Topology
