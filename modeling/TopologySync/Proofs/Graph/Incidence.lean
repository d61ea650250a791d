-- How the four maps of a graph stay in step. Every edge lies between nodes
-- that are there, and the two indices name exactly the edges that leave and
-- enter each node, so that a deleted node takes all of its edges along.
import TopologySync.Proofs.Graph.Edits

open Std

namespace TopologySync

/-! ## Groups -/

namespace Groups

/-- Every group that is there has a member. -/
def NoneEmpty (groups : Groups) : Prop :=
  ∀ (name : String) members, groups[name]? = some members → ∃ member, member ∈ members

theorem mem_members_add (groups : Groups) (name member n m : String) :
    m ∈ (groups.add name member).members n ↔
      (name = n ∧ member = m) ∨ m ∈ groups.members n := by
  by_cases hname : name = n
  · subst hname
    simp [members, add]
  · simp [members, add, ExtTreeMap.getElem?_insert, hname]

theorem mem_members_remove (groups : Groups) (name member n m : String) :
    m ∈ (groups.remove name member).members n ↔
      ¬(name = n ∧ member = m) ∧ m ∈ groups.members n := by
  unfold remove
  dsimp only
  by_cases hname : name = n
  · subst hname
    split
    · rename_i hlast
      have hnone : m ∉ (groups.members name).erase member := by
        rw [ExtTreeSet.isEmpty_iff.1 hlast]
        exact ExtTreeSet.not_mem_empty
      simpa [members] using hnone
    · simp [members]
  · split
    · simp [members, ExtTreeMap.getElem?_erase, hname]
    · simp [members, ExtTreeMap.getElem?_insert, hname]

theorem noneEmpty_add {groups : Groups} (h : groups.NoneEmpty) (name member : String) :
    (groups.add name member).NoneEmpty := by
  intro n left hleft
  rw [add, ExtTreeMap.getElem?_insert] at hleft
  split at hleft
  · cases hleft
    exact ⟨member, ExtTreeSet.mem_insert_self⟩
  · exact h n left hleft

theorem noneEmpty_remove {groups : Groups} (h : groups.NoneEmpty) (name member : String) :
    (groups.remove name member).NoneEmpty := by
  intro n left hleft
  unfold remove at hleft
  dsimp only at hleft
  split at hleft
  · rw [ExtTreeMap.getElem?_erase] at hleft
    split at hleft
    · cases hleft
    · exact h n left hleft
  · rename_i hsome
    rw [ExtTreeMap.getElem?_insert] at hleft
    split at hleft
    · cases hleft
      refine Classical.byContradiction fun hnone => hsome ?_
      exact ExtTreeSet.isEmpty_iff.2 (ExtTreeSet.eq_empty_iff_forall_not_mem.2
        (not_exists.1 hnone))
    · exact h n left hleft

end Groups

namespace Graph

/-! ## One index -/

/-- An index groups the keys of the edges by one of their ends. -/
structure Indexes (groups : Groups) (edges : ExtTreeMap String Edge) (side : Edge → String) :
    Prop where
  exact : ∀ id key : String, key ∈ groups.members id ↔ ∃ edge, edges[key]? = some edge ∧
    side edge = id
  noneEmpty : groups.NoneEmpty

section

variable {groups : Groups} {edges : ExtTreeMap String Edge} {side : Edge → String}

theorem indexes_insert (h : Indexes groups edges side) {edge : Edge} (hnew : edge.key ∉ edges) :
    Indexes (groups.add (side edge) edge.key) (edges.insert edge.key edge) side := by
  refine ⟨fun id key => ?_, Groups.noneEmpty_add h.noneEmpty _ _⟩
  rw [Groups.mem_members_add, h.exact, ExtTreeMap.getElem?_insert]
  by_cases hkey : edge.key = key
  · subst hkey
    simp [ExtTreeMap.getElem?_eq_none hnew]
  · simp [hkey]

theorem indexes_erase (h : Indexes groups edges side) {edge : Edge}
    (hedge : edges[edge.key]? = some edge) :
    Indexes (groups.remove (side edge) edge.key) (edges.erase edge.key) side := by
  refine ⟨fun id key => ?_, Groups.noneEmpty_remove h.noneEmpty _ _⟩
  rw [Groups.mem_members_remove, h.exact, ExtTreeMap.getElem?_erase]
  by_cases hkey : edge.key = key
  · subst hkey
    simp [hedge]
  · simp [hkey]

/-- An index does not look at the weights. -/
theorem indexes_replace (h : Indexes groups edges side) {edge edge' : Edge} {key : String}
    (hedge : edges[key]? = some edge) (hside : side edge' = side edge) :
    Indexes groups (edges.insert key edge') side := by
  refine ⟨fun id k => ?_, h.noneEmpty⟩
  rw [h.exact, ExtTreeMap.getElem?_insert]
  by_cases hkey : key = k
  · subst hkey
    simp [hedge, hside]
  · simp [hkey]

end

/-! ## Both indices -/

/-- Every record stands under its own key, and both indices are exact. -/
structure Indexed (graph : Graph) : Prop where
  keyed : graph.Keyed
  outbound : Indexes graph.outbound graph.edges Edge.source
  inbound : Indexes graph.inbound graph.edges Edge.target

/-- A graph in order: no edge lacks an endpoint, and both indices are exact. -/
structure Sound (graph : Graph) : Prop extends Indexed graph where
  endpoints : ∀ (key : String) edge, graph.edges[key]? = some edge →
    edge.source ∈ graph.nodes ∧ edge.target ∈ graph.nodes

variable {graph : Graph}

theorem sound_empty : Sound empty where
  keyed := keyed_empty
  outbound := ⟨by simp [empty, Groups.members], by simp [empty, Groups.NoneEmpty]⟩
  inbound := ⟨by simp [empty, Groups.members], by simp [empty, Groups.NoneEmpty]⟩
  endpoints key edge h := by simp [empty] at h

theorem indexed_unlink (h : graph.Indexed) {key : String} {edge : Edge}
    (hedge : graph.edges[key]? = some edge) : (graph.unlink edge).Indexed := by
  have hkey := h.keyed.edges key edge hedge
  subst hkey
  exact ⟨keyed_unlink h.keyed edge, indexes_erase h.outbound hedge, indexes_erase h.inbound hedge⟩

theorem indexed_dropEdge (h : graph.Indexed) (key : String) : (graph.dropEdge key).Indexed := by
  unfold dropEdge
  rcases hedge : graph.edges[key]? with _ | edge
  · exact h
  · exact indexed_unlink h hedge

theorem getElem?_dropEdge (h : graph.Keyed) (key k : String) :
    (graph.dropEdge key).edges[k]? = if key = k then none else graph.edges[k]? := by
  unfold dropEdge
  rcases hedge : graph.edges[key]? with _ | edge
  · by_cases hk : key = k
    · subst hk
      simpa using hedge
    · simp [hk]
  · have hkey := h.edges key edge hedge
    subst hkey
    simp [unlink, ExtTreeMap.getElem?_erase]

/-! ## Several edges -/

/-- The same graph, but for its edges. -/
structure SameButEdges (graph graph' : Graph) : Prop where
  nodes : graph'.nodes = graph.nodes
  subGraphs : graph'.subGraphs = graph.subGraphs
  generation : graph'.generation = graph.generation

theorem sameButEdges_dropEdges (graph : Graph) (keys : List String) :
    graph.SameButEdges (keys.foldl dropEdge graph) := by
  refine List.foldlRecOn (motive := graph.SameButEdges) keys dropEdge ⟨rfl, rfl, rfl⟩
    fun left h key _ => ?_
  unfold dropEdge
  split
  · exact h
  · exact ⟨h.nodes, h.subGraphs, h.generation⟩

theorem indexed_dropEdges (h : graph.Indexed) (keys : List String) :
    (keys.foldl dropEdge graph).Indexed :=
  List.foldlRecOn _ _ h (fun _ h key _ => indexed_dropEdge h key)

theorem getElem?_dropEdges (h : graph.Keyed) (keys : List String) (k : String) :
    (keys.foldl dropEdge graph).edges[k]? = if k ∈ keys then none else graph.edges[k]? := by
  induction keys generalizing graph with
  | nil => simp
  | cons key rest ih =>
    rw [List.foldl_cons, ih (keyed_dropEdge h key), getElem?_dropEdge h]
    by_cases hk : key = k
    · simp [hk]
    · simp [hk, Ne.symm hk]

/-! ## A node with its edges -/

theorem nodes_dropNode (graph : Graph) (id : String) :
    (graph.dropNode id).nodes = graph.nodes.erase id :=
  (sameButEdges_dropEdges _ _).nodes

theorem mem_incident (h : graph.Indexed) (id key : String) :
    key ∈ (graph.incident id).toList ↔
      ∃ edge, graph.edges[key]? = some edge ∧ (edge.source = id ∨ edge.target = id) := by
  have hmem : key ∈ graph.incident id ↔
      key ∈ graph.outbound.members id ∨ key ∈ graph.inbound.members id := by
    simp [incident]
  rw [ExtTreeSet.mem_toList, hmem, h.outbound.exact, h.inbound.exact]
  constructor
  · rintro (⟨edge, hedge, hend⟩ | ⟨edge, hedge, hend⟩)
    · exact ⟨edge, hedge, Or.inl hend⟩
    · exact ⟨edge, hedge, Or.inr hend⟩
  · rintro ⟨edge, hedge, hend | hend⟩
    · exact Or.inl ⟨edge, hedge, hend⟩
    · exact Or.inr ⟨edge, hedge, hend⟩

theorem indexed_bare (h : graph.Indexed) (id : String) :
    Indexed { graph with nodes := graph.nodes.erase id } :=
  ⟨⟨Maps.own_key_erase h.keyed.nodes id, h.keyed.edges⟩, h.outbound, h.inbound⟩

/-- Exactly the edges that touch a node go with it. -/
theorem getElem?_dropNode (h : graph.Indexed) (id key : String) :
    (graph.dropNode id).edges[key]? =
      graph.edges[key]?.filter (fun edge => edge.source ≠ id ∧ edge.target ≠ id) := by
  unfold dropNode
  rw [getElem?_dropEdges (indexed_bare h id).keyed]
  simp only [mem_incident h]
  rcases hedge : graph.edges[key]? with _ | edge
  · simp
  · by_cases htouch : edge.source = id ∨ edge.target = id
    · simp only [Option.some.injEq, exists_eq_left', htouch, if_true]
      simp only [Option.filter_some, ← not_or, htouch]
      rfl
    · simp only [Option.some.injEq, exists_eq_left', htouch, if_false]
      simp only [Option.filter_some, ← not_or, htouch]
      rfl

theorem sound_dropNode (h : graph.Sound) (id : String) : (graph.dropNode id).Sound := by
  refine ⟨indexed_dropEdges (indexed_bare h.toIndexed id) _, fun key edge hedge => ?_⟩
  rw [getElem?_dropNode h.toIndexed, Option.filter_eq_some_iff] at hedge
  obtain ⟨hedge, hfar⟩ := hedge
  obtain ⟨hsource, htarget⟩ := h.endpoints key edge hedge
  rw [decide_eq_true_eq] at hfar
  rw [nodes_dropNode]
  simp [hsource, htarget, Ne.symm hfar.1, Ne.symm hfar.2]

/-- No edge touches a node that is not there. -/
theorem far_of_notMem (h : graph.Sound) {id : String} (hout : id ∉ graph.nodes) {key : String}
    {edge : Edge} (hedge : graph.edges[key]? = some edge) :
    edge.source ≠ id ∧ edge.target ≠ id := by
  obtain ⟨hsource, htarget⟩ := h.endpoints key edge hedge
  exact ⟨fun heq => hout (heq ▸ hsource), fun heq => hout (heq ▸ htarget)⟩

theorem incident_of_notMem (h : graph.Sound) {id : String} (hout : id ∉ graph.nodes) :
    (graph.incident id).toList = [] := by
  rw [List.eq_nil_iff_forall_not_mem]
  intro key hkey
  obtain ⟨edge, hedge, htouch⟩ := (mem_incident h.toIndexed id key).1 hkey
  obtain ⟨hsource, htarget⟩ := far_of_notMem h hout hedge
  exact htouch.elim hsource htarget

theorem dropNode_of_notMem (h : graph.Sound) {id : String} (hout : id ∉ graph.nodes) :
    graph.dropNode id = graph := by
  unfold dropNode
  rw [incident_of_notMem h hout, Maps.erase_of_notMem hout]
  rfl

/-! ## The other edits -/

theorem sound_describe (h : graph.Sound) (node : Node) : (graph.describe node).Sound := by
  refine ⟨⟨keyed_describe h.keyed node, h.outbound, h.inbound⟩, fun key edge hedge => ?_⟩
  obtain ⟨hsource, htarget⟩ := h.endpoints key edge hedge
  exact ⟨ExtTreeMap.mem_insert.2 (Or.inr hsource), ExtTreeMap.mem_insert.2 (Or.inr htarget)⟩

theorem sound_withNode (h : graph.Sound) (node : GraphNode) : (graph.withNode node).Sound := by
  refine ⟨⟨keyed_withNode h.keyed node, h.outbound, h.inbound⟩, fun key edge hedge => ?_⟩
  obtain ⟨hsource, htarget⟩ := h.endpoints key edge hedge
  simp [mem_withNode, hsource, htarget]

theorem sound_link (h : graph.Sound) {edge : Edge} (hnew : edge.key ∉ graph.edges)
    (hsource : edge.source ∈ graph.nodes) (htarget : edge.target ∈ graph.nodes) :
    (graph.link edge).Sound := by
  refine ⟨⟨keyed_link h.keyed edge, indexes_insert h.outbound hnew,
    indexes_insert h.inbound hnew⟩, fun key edge' hedge => ?_⟩
  rw [link, ExtTreeMap.getElem?_insert] at hedge
  split at hedge
  · cases hedge
    exact ⟨hsource, htarget⟩
  · exact h.endpoints key edge' hedge

theorem sound_unlink (h : graph.Sound) {key : String} {edge : Edge}
    (hedge : graph.edges[key]? = some edge) : (graph.unlink edge).Sound := by
  refine ⟨indexed_unlink h.toIndexed hedge, fun key' edge' hedge' => ?_⟩
  rw [unlink, ExtTreeMap.getElem?_erase] at hedge'
  split at hedge'
  · cases hedge'
  · exact h.endpoints key' edge' hedge'

theorem sound_reweigh (h : graph.Sound) {key : String} {edge : Edge}
    (hedge : graph.edges[key]? = some edge) (weights : Weights) :
    (graph.reweigh edge key weights).Sound := by
  refine ⟨⟨keyed_reweigh h.keyed hedge weights, indexes_replace h.outbound hedge rfl,
    indexes_replace h.inbound hedge rfl⟩, fun key' edge' hedge' => ?_⟩
  rw [reweigh, ExtTreeMap.getElem?_insert] at hedge'
  split at hedge'
  · cases hedge'
    exact h.endpoints key edge hedge
  · exact h.endpoints key' edge' hedge'

theorem sound_rebuild (h : graph.Sound) : graph.rebuild.Sound :=
  ⟨⟨keyed_rebuild h.keyed, h.outbound, h.inbound⟩, h.endpoints⟩

/-! ## The edges that leave a node -/

theorem mem_edgesFrom (h : graph.Indexed) (id : String) (edge : Edge) :
    edge ∈ graph.edgesFrom id ↔ graph.edges[edge.key]? = some edge ∧ edge.source = id := by
  unfold edgesFrom
  rw [List.mem_filterMap]
  constructor
  · rintro ⟨key, hmem, hedge⟩
    rw [ExtTreeSet.mem_toList, h.outbound.exact] at hmem
    obtain ⟨edge', hedge', hsource⟩ := hmem
    rw [hedge] at hedge'
    cases hedge'
    rw [h.keyed.edges key edge hedge]
    exact ⟨hedge, hsource⟩
  · rintro ⟨hedge, hsource⟩
    refine ⟨edge.key, ?_, hedge⟩
    rw [ExtTreeSet.mem_toList, h.outbound.exact]
    exact ⟨edge, hedge, hsource⟩

/-- The edges that leave a node are listed in the order of their keys, so
that none is listed twice. -/
theorem edgesFrom_sorted (h : graph.Keyed) (id : String) :
    (graph.edgesFrom id).Pairwise (fun edge edge' => edge.key < edge'.key) := by
  unfold edgesFrom
  rw [List.pairwise_filterMap]
  refine ExtTreeSet.ordered_toList.imp ?_
  intro key key' hlt edge hedge edge' hedge'
  rw [h.edges key edge hedge, h.edges key' edge' hedge']
  exact compareOfLessAndEq_eq_lt.1 hlt

end Graph

end TopologySync
