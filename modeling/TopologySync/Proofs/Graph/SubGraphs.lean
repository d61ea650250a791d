-- The laws of the subgraphs. They are current if they are the ones that
-- the nodes and edges define, and a rebuild makes them current.
import TopologySync.Proofs.Graph.Edits

open Std

namespace TopologySync.Graph

/-! ## What the subgraphs are to be -/

/-- A node takes part in the shortest path and in the algorithms that it lists. -/
def Joins (graph : Graph) (algorithm : UInt8) (id : String) : Prop :=
  ∃ node, graph.nodes[id]? = some node ∧
    (algorithm = shortestPath ∨ algorithm ∈ node.algorithms)

/-- A subgraph has the nodes that take part, and the edges with both ends
among them. -/
structure Covers (graph : Graph) (algorithm : UInt8) (sub : SubGraph) : Prop where
  named : sub.algorithm = algorithm
  nodes : ∀ id, id ∈ sub.nodes ↔ graph.Joins algorithm id
  edges : ∀ key, key ∈ sub.edges ↔ ∃ edge, graph.edges[key]? = some edge ∧
    graph.Joins algorithm edge.source ∧ graph.Joins algorithm edge.target

/-- The subgraphs are those that the nodes and edges define: one for the
shortest path, and one for each algorithm that a node lists. -/
structure Current (graph : Graph) : Prop where
  listed : ∀ algorithm, algorithm ∈ graph.subGraphs ↔ algorithm = shortestPath ∨
    ∃ (id : String) (node : GraphNode), graph.nodes[id]? = some node ∧
      algorithm ∈ node.algorithms
  covers : ∀ algorithm sub, graph.subGraphs[algorithm]? = some sub → graph.Covers algorithm sub

/-! ## A rebuild -/

theorem takesPart_iff (algorithm : UInt8) (node : GraphNode) :
    takesPart algorithm node = true ↔
      algorithm = shortestPath ∨ algorithm ∈ node.algorithms := by
  simp [takesPart]

theorem mem_algorithms (graph : Graph) (algorithm : UInt8) :
    algorithm ∈ graph.algorithms ↔ algorithm = shortestPath ∨
      ∃ (id : String) (node : GraphNode), graph.nodes[id]? = some node ∧
        algorithm ∈ node.algorithms := by
  simp only [algorithms, ExtTreeSet.mem_insert, ExtTreeSet.mem_ofList, List.contains_iff_mem,
    List.mem_flatMap, Maps.mem_values, ExtTreeSet.mem_toList, Std.compare_eq_iff_eq]
  constructor
  · rintro (h | ⟨node, ⟨id, hnode⟩, hmem⟩)
    · exact Or.inl h.symm
    · exact Or.inr ⟨id, node, hnode, hmem⟩
  · rintro (h | ⟨id, node, hnode, hmem⟩)
    · exact Or.inl h.symm
    · exact Or.inr ⟨node, ⟨id, hnode⟩, hmem⟩

theorem subGraphFor_covers {graph : Graph} (h : graph.Keyed) (algorithm : UInt8) :
    graph.Covers algorithm (graph.subGraphFor algorithm) := by
  have hnodes : ∀ id, id ∈ (graph.subGraphFor algorithm).nodes ↔ graph.Joins algorithm id := by
    intro id
    simp only [subGraphFor, ExtTreeSet.mem_ofList, List.contains_iff_mem, List.mem_map,
      List.mem_filter, Maps.mem_values, takesPart_iff]
    constructor
    · rintro ⟨node, ⟨⟨id', hnode⟩, hpart⟩, rfl⟩
      rw [h.nodes id' node hnode]
      exact ⟨node, hnode, hpart⟩
    · rintro ⟨node, hnode, hpart⟩
      exact ⟨node, ⟨⟨id, hnode⟩, hpart⟩, h.nodes id node hnode⟩
  refine ⟨rfl, hnodes, fun key => ?_⟩
  have hinside : ∀ edge : Edge, graph.Joins algorithm edge.source ∧
      graph.Joins algorithm edge.target ↔
        ((graph.subGraphFor algorithm).nodes.contains edge.source &&
          (graph.subGraphFor algorithm).nodes.contains edge.target) = true := by
    intro edge
    rw [Bool.and_eq_true, ← ExtTreeSet.mem_iff_contains, ← ExtTreeSet.mem_iff_contains, hnodes,
      hnodes]
  have hedges : key ∈ (graph.subGraphFor algorithm).edges ↔
      ∃ edge ∈ graph.edges.values, (graph.Joins algorithm edge.source ∧
        graph.Joins algorithm edge.target) ∧ edge.key = key := by
    simp only [hinside]
    simp only [subGraphFor, ExtTreeSet.mem_ofList, List.contains_iff_mem, List.mem_map,
      List.mem_filter, and_assoc]
  rw [hedges]
  constructor
  · rintro ⟨edge, hmem, hjoins, rfl⟩
    obtain ⟨key, hedge⟩ := Maps.mem_values.1 hmem
    rw [h.edges key edge hedge]
    exact ⟨edge, hedge, hjoins⟩
  · rintro ⟨edge, hedge, hjoins⟩
    exact ⟨edge, Maps.mem_values.2 ⟨key, hedge⟩, hjoins, h.edges key edge hedge⟩

theorem getElem?_rebuild (graph : Graph) (algorithm : UInt8) :
    graph.rebuild.subGraphs[algorithm]? =
      if algorithm ∈ graph.algorithms then some (graph.subGraphFor algorithm) else none :=
  Maps.getElem?_ofList_map graph.algorithms graph.subGraphFor algorithm

/-- After a rebuild the subgraphs are current. -/
theorem rebuild_current {graph : Graph} (h : graph.Keyed) : graph.rebuild.Current := by
  constructor
  · intro algorithm
    have hmem : algorithm ∈ graph.rebuild.subGraphs ↔ algorithm ∈ graph.algorithms := by
      rw [Maps.mem_iff_exists, getElem?_rebuild]
      by_cases h : algorithm ∈ graph.algorithms <;> simp [h]
    rw [hmem, mem_algorithms]
    rfl
  · intro algorithm sub hsub
    rw [getElem?_rebuild] at hsub
    split at hsub
    · cases hsub
      obtain ⟨halgorithm, hnodes, hedges⟩ := subGraphFor_covers h algorithm
      exact ⟨halgorithm, hnodes, hedges⟩
    · cases hsub

end TopologySync.Graph
