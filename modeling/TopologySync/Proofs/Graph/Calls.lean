-- The graph under any calls. Whatever is asked of it, and in whatever
-- order, its maps stay in step, and a call that is refused leaves it as it
-- was, also a delete that takes out before it knows what was there.
import TopologySync.Proofs.Graph.Incidence

open Std

namespace TopologySync.Graph

/-! ## Calls -/

/-- A call that may change a graph. -/
inductive Call where
  | addNode (node : GraphNode)
  | describeNode (id name : String) (algorithms : ExtTreeSet UInt8)
  | deleteNode (id : String)
  | addEdge (edge : Edge)
  | deleteEdge (key : String)
  | setWeight (key : String) (kind : WeightKind) (value : Float)
  | rebuild

/-- The graph that a call comes to, or why it is refused. -/
def outcome (graph : Graph) : Call → Except GraphError Graph
  | .addNode node => graph.addNode node
  | .describeNode id name algorithms => .ok (graph.describeNode id name algorithms)
  | .deleteNode id => (graph.deleteNode id).map Prod.snd
  | .addEdge edge => graph.addEdge edge
  | .deleteEdge key => (graph.deleteEdge key).map Prod.snd
  | .setWeight key kind value => graph.setWeight key kind value
  | .rebuild => .ok graph.rebuild

/-- The error of a call, if there is one, and the graph behind it. -/
def settled (graph : Graph) : Except GraphError Graph → Option GraphError × Graph
  | .ok next => (none, next)
  | .error e => (some e, graph)

/-- The graph after calls, refused ones among them. -/
def afterCalls (graph : Graph) (calls : List Call) : Graph :=
  calls.foldl (fun graph call => (graph.settled (graph.outcome call)).2) graph

/-- A call as it writes. A delete takes out first what stands under the key,
and is refused if that was nothing. All other calls look before they write. -/
def inPlace (graph : Graph) : Call → Option GraphError × Graph
  | .deleteNode id =>
    let bare := { graph with nodes := graph.nodes.erase id }
    match graph.nodes[id]? with
    | none => (some (.nodeNotFound id), bare)
    | some _ => (none, (bare.incident id).toList.foldl dropEdge bare)
  | .deleteEdge key =>
    let bare := { graph with edges := graph.edges.erase key }
    match graph.edges[key]? with
    | none => (some (.edgeNotFound key), bare)
    | some edge => (none, { bare with
        outbound := bare.outbound.remove edge.source edge.key
        inbound := bare.inbound.remove edge.target edge.key })
  | call => graph.settled (graph.outcome call)

variable {graph : Graph}

/-! ## One call -/

theorem inPlace_eq (h : graph.Keyed) (call : Call) :
    graph.inPlace call = graph.settled (graph.outcome call) := by
  cases call with
  | deleteNode id =>
    rcases hnode : graph.nodes[id]? with _ | node
    · have hout : id ∉ graph.nodes := by simp [Maps.mem_iff_exists, hnode]
      simp only [inPlace, outcome, deleteNode, hnode, Maps.erase_of_notMem hout]
      rfl
    · simp only [inPlace, outcome, deleteNode, hnode]
      rfl
  | deleteEdge key =>
    rcases hedge : graph.edges[key]? with _ | edge
    · have hout : key ∉ graph.edges := by simp [Maps.mem_iff_exists, hedge]
      simp only [inPlace, outcome, deleteEdge, hedge, Maps.erase_of_notMem hout]
      rfl
    · have hkey := h.edges key edge hedge
      subst hkey
      simp only [inPlace, outcome, deleteEdge, hedge]
      rfl
  | addNode | describeNode | addEdge | setWeight | rebuild => rfl

theorem mem_nodes_describeNode (graph : Graph) (id name : String)
    (algorithms : ExtTreeSet UInt8) (k : String) :
    k ∈ (graph.describeNode id name algorithms).nodes ↔ k ∈ graph.nodes :=
  ExtTreeMap.mem_modify

theorem sound_describeNode (h : graph.Sound) (id name : String) (algorithms : ExtTreeSet UInt8) :
    (graph.describeNode id name algorithms).Sound := by
  refine ⟨⟨⟨fun k node hnode => ?_, h.keyed.edges⟩, h.outbound, h.inbound⟩,
    fun key edge hedge => ?_⟩
  · rw [describeNode, ExtTreeMap.getElem?_modify] at hnode
    split at hnode
    · rename_i hk
      obtain ⟨known, hknown, rfl⟩ := Option.map_eq_some_iff.1 hnode
      rw [← Std.compare_eq_iff_eq.1 hk]
      exact h.keyed.nodes id known hknown
    · exact h.keyed.nodes k node hnode
  · rw [mem_nodes_describeNode, mem_nodes_describeNode]
    exact h.endpoints key edge hedge

theorem sound_addNode (h : graph.Sound) {node : GraphNode} {next : Graph}
    (hnext : graph.addNode node = .ok next) : next.Sound := by
  obtain ⟨-, rfl⟩ := of_addNode hnext
  exact sound_withNode h node

theorem sound_deleteNode (h : graph.Sound) {id : String} {node : GraphNode} {next : Graph}
    (hnext : graph.deleteNode id = .ok (node, next)) : next.Sound := by
  unfold deleteNode at hnext
  split at hnext
  · cases hnext
  · cases hnext
    exact sound_dropNode h id

theorem sound_addEdge (h : graph.Sound) {edge : Edge} {next : Graph}
    (hnext : graph.addEdge edge = .ok next) : next.Sound := by
  obtain ⟨hnew, hsource, htarget, rfl⟩ := of_addEdge hnext
  exact sound_link h hnew hsource htarget

theorem sound_deleteEdge (h : graph.Sound) {key : String} {edge : Edge} {next : Graph}
    (hnext : graph.deleteEdge key = .ok (edge, next)) : next.Sound := by
  unfold deleteEdge at hnext
  split at hnext
  · cases hnext
  · rename_i hedge
    cases hnext
    exact sound_unlink h hedge

theorem sound_setWeight (h : graph.Sound) {key : String} {kind : WeightKind} {value : Float}
    {next : Graph} (hnext : graph.setWeight key kind value = .ok next) : next.Sound := by
  unfold setWeight at hnext
  split at hnext
  · cases hnext
  · rename_i hedge
    cases hnext
    exact sound_reweigh h hedge _

theorem eq_ok_of_map_snd {ε α β : Type} {made : Except ε (α × β)} {b : β}
    (h : made.map Prod.snd = .ok b) : ∃ a, made = .ok (a, b) := by
  rcases made with e | ⟨a, b'⟩
  · cases h
  · cases h
    exact ⟨a, rfl⟩

theorem sound_outcome (h : graph.Sound) {call : Call} {next : Graph}
    (hnext : graph.outcome call = .ok next) : next.Sound := by
  cases call with
  | addNode node => exact sound_addNode h hnext
  | describeNode id name algorithms =>
    cases hnext
    exact sound_describeNode h id name algorithms
  | deleteNode id =>
    obtain ⟨node, hdelete⟩ := eq_ok_of_map_snd hnext
    exact sound_deleteNode h hdelete
  | addEdge edge => exact sound_addEdge h hnext
  | deleteEdge key =>
    obtain ⟨edge, hdelete⟩ := eq_ok_of_map_snd hnext
    exact sound_deleteEdge h hdelete
  | setWeight key kind value => exact sound_setWeight h hnext
  | rebuild =>
    cases hnext
    exact sound_rebuild h

/-! ## Calls in turn -/

theorem sound_afterCalls (h : graph.Sound) (calls : List Call) :
    (graph.afterCalls calls).Sound := by
  induction calls generalizing graph with
  | nil => exact h
  | cons call rest ih =>
    rw [afterCalls, List.foldl_cons]
    apply ih
    rcases hcall : graph.outcome call with e | next
    · exact h
    · exact sound_outcome h hcall

/-- Any calls leave the maps of a graph in step. A refused call leaves the
graph as it was, and the edges that leave a node are listed by key, once. -/
theorem maps_stay_in_step (calls : List Call) :
    let graph := empty.afterCalls calls
    graph.Sound ∧
      (∀ call, graph.inPlace call = graph.settled (graph.outcome call) ∧
        ∀ e, graph.outcome call = .error e → graph.inPlace call = (some e, graph)) ∧
      ∀ id, (∀ edge, edge ∈ graph.edgesFrom id ↔
          graph.edges[edge.key]? = some edge ∧ edge.source = id) ∧
        (graph.edgesFrom id).Pairwise (fun edge edge' => edge.key < edge'.key) := by
  intro graph
  have hsound : graph.Sound := sound_afterCalls sound_empty calls
  refine ⟨hsound, fun call => ?_, fun id => ?_⟩
  · have hcall := inPlace_eq hsound.keyed call
    refine ⟨hcall, fun e he => ?_⟩
    rw [hcall, he]
    rfl
  · exact ⟨mem_edgesFrom hsound.toIndexed id, edgesFrom_sorted hsound.keyed id⟩

/-- A node goes with its loop and with both of two parallel edges. -/
example :
    let edge := fun key source target => Call.addEdge { key, source, target, weights := ∅ }
    let graph := empty.afterCalls [.addNode { id := "a" }, .addNode { id := "b" },
      edge "aa" "a" "a", edge "ab" "a" "b", edge "ab2" "a" "b", edge "bb" "b" "b", .deleteNode "a"]
    graph.edges.keys = ["bb"] ∧ graph.outbound.keys = ["b"] ∧ graph.inbound.keys = ["b"] := by
  decide +kernel

end TopologySync.Graph
