-- Additions taken back. What is added to a graph in order and deleted right
-- away leaves no trace, since the indices are no more than the edges say, and
-- nothing touches a node that has only just come.
import TopologySync.Proofs.Graph.Calls

open Std

namespace TopologySync

/-! ## What an index is determined by -/

/-- Groups that have the same members are the same, as none of them is empty. -/
theorem Groups.eq_of_members {groups groups' : Groups} (h : groups.NoneEmpty)
    (h' : groups'.NoneEmpty)
    (hsame : ∀ name member : String, member ∈ groups.members name ↔ member ∈ groups'.members name) :
    groups = groups' := by
  apply ExtTreeMap.ext_getElem?
  intro name
  have hname := hsame name
  unfold members at hname
  rcases hgroup : groups[name]? with _ | group <;> rcases hgroup' : groups'[name]? with _ | group'
  · rfl
  · obtain ⟨member, hmember⟩ := h' name group' hgroup'
    simp [hgroup, hgroup'] at hname
    exact absurd hmember (hname member)
  · obtain ⟨member, hmember⟩ := h name group hgroup
    simp [hgroup, hgroup'] at hname
    exact absurd hmember (hname member)
  · simp only [hgroup, hgroup', Option.getD_some] at hname
    rw [ExtTreeSet.ext_mem hname]

namespace Graph

theorem eq_of_indexes {groups groups' : Groups} {edges : ExtTreeMap String Edge}
    {side : Edge → String} (h : Indexes groups edges side) (h' : Indexes groups' edges side) :
    groups = groups' :=
  Groups.eq_of_members h.noneEmpty h'.noneEmpty
    fun name member => (h.exact name member).trans (h'.exact name member).symm

variable {graph : Graph}

/-! ## Edges -/

/-- An edge that was entered goes with all that its entry left. -/
theorem unlink_link (h : graph.Indexed) {edge : Edge} (hnew : edge.key ∉ graph.edges) :
    (graph.link edge).unlink edge = graph := by
  have hedges : (graph.edges.insert edge.key edge).erase edge.key = graph.edges := by
    rw [Maps.erase_insert, Maps.erase_of_notMem hnew]
  have hthere : (graph.edges.insert edge.key edge)[edge.key]? = some edge :=
    ExtTreeMap.getElem?_insert_self
  have houtbound := indexes_erase (indexes_insert h.outbound hnew) hthere
  have hinbound := indexes_erase (indexes_insert h.inbound hnew) hthere
  rw [hedges] at houtbound hinbound
  unfold link unlink
  simp only [hedges, eq_of_indexes houtbound h.outbound, eq_of_indexes hinbound h.inbound]

theorem deleteEdge_addEdge (h : graph.Sound) {edge : Edge} {next : Graph}
    (hadd : graph.addEdge edge = .ok next) : next.deleteEdge edge.key = .ok (edge, graph) := by
  obtain ⟨hnew, -, -, rfl⟩ := of_addEdge hadd
  have hthere : (graph.link edge).edges[edge.key]? = some edge := ExtTreeMap.getElem?_insert_self
  simp only [deleteEdge, hthere, unlink_link h.toIndexed hnew]

/-! ## Nodes -/

theorem deleteNode_addNode (h : graph.Sound) {node : GraphNode} {next : Graph}
    (hadd : graph.addNode node = .ok next) : next.deleteNode node.id = .ok (node, graph) := by
  obtain ⟨hnew, rfl⟩ := of_addNode hadd
  have hnodes : (graph.withNode node).nodes = graph.nodes.insert node.id node :=
    Maps.insertIfNew_of_notMem node hnew
  have hthere : (graph.withNode node).nodes[node.id]? = some node := by
    rw [hnodes, ExtTreeMap.getElem?_insert_self]
  have hincident : ((graph.withNode node).incident node.id).toList = [] :=
    incident_of_notMem h hnew
  have hbare : { graph.withNode node with nodes := (graph.withNode node).nodes.erase node.id } =
      graph := by
    rw [hnodes, Maps.erase_insert, Maps.erase_of_notMem hnew]
    rfl
  simp only [deleteNode, hthere, hincident, List.foldl_nil, hbare]

/-! ## The law -/

/-- Whatever was asked of a graph before, an edge that is added and then deleted is
returned as it was added, and the graph is the one from before, with both of its indices,
its subgraphs and the number of their rebuilds. The same holds of a node. -/
theorem an_addition_is_undone_by_a_deletion (calls : List Call) :
    let graph := empty.afterCalls calls
    (∀ edge next, graph.addEdge edge = .ok next →
        next.deleteEdge edge.key = .ok (edge, graph)) ∧
      ∀ node next, graph.addNode node = .ok next →
        next.deleteNode node.id = .ok (node, graph) := by
  intro graph
  have hsound : graph.Sound := sound_afterCalls sound_empty calls
  exact ⟨fun _ _ hadd => deleteEdge_addEdge hsound hadd,
    fun _ _ hadd => deleteNode_addNode hsound hadd⟩

/-- A second loop leaves the first one in its groups, the first loop of a node takes its
groups along, and a node that was once deleted with its loop comes and goes without it. -/
theorem a_loop_comes_and_goes :
    let loop := fun key id => ({ key, source := id, target := id, weights := ∅ } : Edge)
    let graph := empty.afterCalls [.addNode { id := "a" }, .addNode { id := "b" },
      .addEdge (loop "aa" "a"), .addNode { id := "c" }, .addEdge (loop "cc" "c"),
      .deleteNode "c", .rebuild]
    (∃ next, graph.addEdge (loop "aa2" "a") = .ok next ∧
        next.deleteEdge "aa2" = .ok (loop "aa2" "a", graph)) ∧
      (∃ next, graph.addEdge (loop "bb" "b") = .ok next ∧ next.outbound.keys = ["a", "b"] ∧
        next.deleteEdge "bb" = .ok (loop "bb" "b", graph)) ∧
      ∃ next, graph.addNode { id := "c" } = .ok next ∧
        next.deleteNode "c" = .ok ({ id := "c" }, graph) := by
  intro loop graph
  obtain ⟨hedge, hnode⟩ := an_addition_is_undone_by_a_deletion [.addNode { id := "a" },
    .addNode { id := "b" }, .addEdge (loop "aa" "a"), .addNode { id := "c" },
    .addEdge (loop "cc" "c"), .deleteNode "c", .rebuild]
  have hbeside : graph.addEdge (loop "aa2" "a") = .ok (graph.link (loop "aa2" "a")) :=
    addEdge_eq (by decide +kernel) (by decide +kernel) (by decide +kernel)
  have hfirst : graph.addEdge (loop "bb" "b") = .ok (graph.link (loop "bb" "b")) :=
    addEdge_eq (by decide +kernel) (by decide +kernel) (by decide +kernel)
  have hagain : graph.addNode { id := "c" } = .ok (graph.withNode { id := "c" }) :=
    addNode_eq (by decide +kernel)
  exact ⟨⟨_, hbeside, hedge _ _ hbeside⟩, ⟨_, hfirst, by decide +kernel, hedge _ _ hfirst⟩,
    ⟨_, hagain, hnode _ _ hagain⟩⟩

end Graph

end TopologySync
