-- A node that is deleted. Its record goes with the slots that it holds, its
-- router goes with every edge that touches it, and that is all: no record, no
-- edge and no count of anything else is lost along the way.
import TopologySync.Proofs.Reconcile.Feeds
import TopologySync.Proofs.Reconcile.Operations

open Std

namespace TopologySync

/-! ## What is left -/

/-- What is left of a cache without a node: every other record, and every slot that
the node does not hold. -/
structure Cache.Without (key : String) (cache left : Cache) : Prop where
  nodes : left.nodes = cache.nodes.erase key
  nodeSlots : left.nodeSlots = cache.nodeSlots.filter (fun _ holder => holder ≠ key)
  others : left = { cache with nodes := left.nodes, nodeSlots := left.nodeSlots }

/-- What is left of a graph without a node: every other node, every edge that does not
touch it, and in both indices the keys of these edges, where they stood before. The
subgraphs are not rebuilt yet. -/
structure Graph.Without (id : String) (graph left : Graph) : Prop where
  nodes : left.nodes = graph.nodes.erase id
  edges : left.edges = graph.edges.filter (fun _ edge => edge.source ≠ id ∧ edge.target ≠ id)
  outbound : ∀ name key : String, key ∈ left.outbound.members name ↔
    key ∈ graph.outbound.members name ∧ key ∈ left.edges
  inbound : ∀ name key : String, key ∈ left.inbound.members name ↔
    key ∈ graph.inbound.members name ∧ key ∈ left.edges
  subGraphs : left.subGraphs = graph.subGraphs
  generation : left.generation = graph.generation

namespace Graph

variable {graph : Graph}

/-- Of edges that are thinned out, an index keeps those that are left. -/
theorem mem_members_thinned {groups groups' : Groups} {left : Graph} {side : Edge → String}
    (hthinned : graph.Thinned left) (h : Indexes groups graph.edges side)
    (h' : Indexes groups' left.edges side) (name key : String) :
    key ∈ groups'.members name ↔ key ∈ groups.members name ∧ key ∈ left.edges := by
  rw [h.exact, h'.exact]
  constructor
  · rintro ⟨edge, hedge, hside⟩
    have hleft : key ∈ left.edges := Maps.mem_iff_exists.2 ⟨edge, hedge⟩
    exact ⟨⟨edge, hthinned key hleft ▸ hedge, hside⟩, hleft⟩
  · rintro ⟨⟨edge, hedge, hside⟩, hleft⟩
    exact ⟨edge, (hthinned key hleft).trans hedge, hside⟩

theorem without_dropNode (h : graph.Indexed) (id : String) :
    graph.Without id (graph.dropNode id) := by
  have hthinned := graph.thinned_dropNode id
  have hleft := indexed_dropEdges (indexed_bare h id) (graph.incident id).toList
  have hsame := sameButEdges_dropEdges { graph with nodes := graph.nodes.erase id }
    (graph.incident id).toList
  refine ⟨hsame.nodes, ?_, mem_members_thinned hthinned h.outbound hleft.outbound,
    mem_members_thinned hthinned h.inbound hleft.inbound, hsame.subGraphs, hsame.generation⟩
  apply ExtTreeMap.ext_getElem?
  intro key
  rw [getElem?_dropNode h, ExtTreeMap.getElem?_filter']

end Graph

/-! ## One deletion -/

namespace Cache

variable {cache : Cache} {key : String} {node : Node}

/-- No slot but that of its own router is held by a node. -/
theorem without_removeNode (h : cache.Made) (hnode : cache.nodes[key]? = some node) :
    cache.Without key (cache.removeNode key).2 := by
  obtain ⟨ops, rfl⟩ := h
  simp only [removeNode, hnode]
  refine ⟨rfl, ?_, rfl⟩
  apply ExtTreeMap.ext_getElem?
  intro router
  rw [Slots.getElem?_release, ExtTreeMap.getElem?_filter']
  rcases hslot : (empty.after ops).nodeSlots[router]? with _ | holder
  · simp
  · by_cases hholder : holder = key
    · subst hholder
      obtain ⟨known, hknown, -, hrouter⟩ := node_of_slot ops hslot
      rw [hnode] at hknown
      cases hknown
      simp [hrouter, Option.filter]
    · simp [hholder, Option.filter]

end Cache

namespace Topology

variable {t : Topology}

/-- A node that a link has not named either may be missing from the graph. Then no edge
touches it, and the graph without it is the graph as it is. -/
theorem deleteNode_of_known (h : t.graph.Sound) {key : String} {node : Node}
    (hnode : t.cache.nodes[key]? = some node) :
    t.settle (t.deleteNode key) =
      { cache := (t.cache.removeNode key).2, graph := t.graph.dropNode node.router } := by
  simp only [deleteNode_eq, hnode]
  split
  · rfl
  · rename_i hout
    rw [Graph.dropNode_of_notMem h hout]
    rfl

theorem deleteNode_of_unknown {key : String} (hnode : t.cache.nodes[key]? = none) :
    t.settle (t.deleteNode key) = t := by
  simp only [deleteNode_eq, hnode]
  rfl

/-! ## Graphs in order -/

theorem sound_linked (h : t.graph.Sound) {link : Link} (hnew : link.key ∉ t.graph.edges) :
    (t.linked link).Sound := by
  apply Graph.sound_link (Graph.sound_withNode (Graph.sound_withNode h _) _)
  · exact hnew
  · simp [edgeOf, Graph.mem_withNode, endpoint_id]
  · simp [edgeOf, Graph.mem_withNode, endpoint_id]

theorem Change.sound {changed : Bool} {graph : Graph} (hchange : t.Change changed graph)
    (h : t.graph.Sound) : graph.Sound := by
  cases hchange with
  | keep => exact h
  | describe node => exact Graph.sound_describe h node
  | dropNode => exact Graph.sound_dropNode h _
  | link hnew => exact sound_linked h hnew
  | merge hedge => exact Graph.sound_reweigh h hedge _
  | unlink hedge => exact Graph.sound_unlink h hedge

end Topology

namespace Sync

variable {s : Sync}

theorem sound_serveAll (dispatcher : Dispatcher) (requests : List Request) :
    (serveAll { dispatcher } requests).topology.graph.Sound :=
  serveAll_keeps (P := fun s => s.topology.graph.Sound)
    (fun s event h => (s.dispatch_change event).sound h) (fun _ h => Graph.sound_rebuild h)
    Graph.sound_empty requests

/-! ## Who stores nodes -/

/-- Events of all other families leave the nodes of the cache alone. -/
theorem nodes_dispatch (s : Sync) {event : Event} (h : event.family ≠ .node) :
    (s.dispatch event).2.1.topology.cache.nodes = s.topology.cache.nodes := by
  have hlink : ∀ change : Topology → Except ReconcileError (Bool × Topology),
      (s.topology.settle (change s.topology)).cache = s.topology.cache →
      (s.onTopology s.dispatcher.links change).2.topology.cache.nodes =
        s.topology.cache.nodes := by
    intro change hcache
    rw [onTopology_topology]
    split
    · exact congrArg Cache.nodes hcache
    · rfl
  cases event with
  | addNode | updateNode | deleteNode => exact absurd rfl h
  | addLink link =>
    rw [dispatch_state]
    split
    · exact hlink _ (Topology.cache_addLink _ link)
    · rfl
  | updateLink link =>
    rw [dispatch_state]
    split
    · apply hlink
      simp only [Topology.settle_map, implies_true]
      exact Topology.cache_updateLink _ link
    · rfl
  | deleteLink key =>
    rw [dispatch_state]
    split
    · apply hlink
      rw [Topology.deleteLink_eq]
      split <;> rfl
    · rfl
  | addPrefix | deletePrefix | addSid | deleteSid =>
    rw [dispatch_eq_withPart]
    rfl

/-- Only a dispatcher that takes nodes has any. -/
theorem handles_of_mem (dispatcher : Dispatcher) (requests : List Request) {key : String}
    (hkey : key ∈ (serveAll { dispatcher } requests).topology.cache.nodes) :
    (serveAll { dispatcher } requests).dispatcher.handles .node = true := by
  refine serveAll_keeps (P := fun s => key ∈ s.topology.cache.nodes →
    s.dispatcher.handles .node = true) (fun s event h hkey => ?_) (fun _ h => h)
    (fun hkey => absurd hkey ExtTreeMap.not_mem_empty) requests hkey
  rw [handles_dispatch]
  by_cases hfamily : event.family = .node
  · rcases htaken : s.dispatcher.handles .node with _ | _
    · rw [dispatch_untaken (hfamily ▸ htaken)] at hkey
      rw [← htaken]
      exact h hkey
    · rfl
  · rw [nodes_dispatch s hfamily] at hkey
    exact h hkey

/-! ## The law -/

theorem dispatch_deleteNode (h : s.dispatcher.handles .node = true) (key : String) :
    (s.dispatch (.deleteNode key)).2.1 =
      { s with topology := s.topology.settle (s.topology.deleteNode key) } := by
  rw [dispatch_state, Event.family, if_pos h, apply, onTopology_topology]
  exact if_pos h

/-- Whatever was applied before, a node that is deleted takes its slots along, its router
and every edge that touches the router, and nothing else: every other record stays, every
other slot, every other node of the graph and every other edge with its weights, and so do
the counts of announcements. A key that no node has changes nothing at all. -/
theorem a_deleted_node_takes_no_more_than_its_own (dispatcher : Dispatcher)
    (requests : List Request) (key : String) :
    let s := serveAll { dispatcher } requests
    let left := (s.dispatch (.deleteNode key)).2.1
    (∀ node, s.topology.cache.nodes[key]? = some node →
      s.topology.cache.Without key left.topology.cache ∧
        s.topology.graph.Without node.router left.topology.graph ∧
        left.topology.graph.Sound ∧ left.dispatcher = s.dispatcher) ∧
      (s.topology.cache.nodes[key]? = none → left = s) := by
  intro s left
  have hmade : s.topology.cache.Made := made_serveAll dispatcher requests
  have hsound : s.topology.graph.Sound := sound_serveAll dispatcher requests
  constructor
  · intro node hnode
    have htaken : s.dispatcher.handles .node = true :=
      handles_of_mem dispatcher requests (Maps.mem_iff_exists.2 ⟨node, hnode⟩)
    have hleft : left = { s with topology := {
        cache := (s.topology.cache.removeNode key).2
        graph := s.topology.graph.dropNode node.router } } := by
      rw [← Topology.deleteNode_of_known hsound hnode]
      exact dispatch_deleteNode htaken key
    rw [hleft]
    exact ⟨Cache.without_removeNode hmade hnode,
      Graph.without_dropNode hsound.toIndexed node.router,
      Graph.sound_dropNode hsound node.router, rfl⟩
  · intro hnone
    rcases htaken : s.dispatcher.handles .node with _ | _
    · exact dispatch_untaken htaken
    · refine (dispatch_deleteNode htaken key).trans ?_
      rw [Topology.deleteNode_of_unknown hnone]

/-- A loop goes, two parallel edges and one that comes back. The loop of the neighbour
stays, and so does the slot of the router, which another node has taken over. -/
theorem a_node_goes_and_its_heir_stays :
    let heir := { Fixtures.node "r1" with key := "heir" }
    let requests : List Request := [.snapshot {
      nodes := [Fixtures.node "r1", heir, Fixtures.node "r2"]
      links := [Fixtures.link "l11" "r1" "r1", Fixtures.link "l12" "r1" "r2",
        Fixtures.link "l12b" "r1" "r2", Fixtures.link "l21" "r2" "r1",
        Fixtures.link "l22" "r2" "r2"] }]
    let s := serveAll { dispatcher := .full } requests
    let left := (s.dispatch (.deleteNode "node-r1")).2.1
    (s.dispatch (.deleteNode "unknown")).2.1 = s ∧
      s.topology.cache.nodes[("node-r1" : String)]? = some (Fixtures.node "r1") ∧
      s.topology.cache.Without "node-r1" left.topology.cache ∧
      s.topology.graph.Without "r1" left.topology.graph ∧
      left.topology.cache.nodeSlots[("r1" : String)]? = some "heir" ∧
      left.topology.graph.edges.keys = ["l22"] ∧ left.topology.graph.outbound.keys = ["r2"] := by
  intro heir requests s left
  have hknown : s.topology.cache.nodes[("node-r1" : String)]? = some (Fixtures.node "r1") := by
    decide +kernel
  have hunknown : s.topology.cache.nodes[("unknown" : String)]? = none := by decide +kernel
  obtain ⟨hcache, hgraph, -⟩ :=
    (a_deleted_node_takes_no_more_than_its_own .full requests "node-r1").1 _ hknown
  exact ⟨(a_deleted_node_takes_no_more_than_its_own .full requests "unknown").2 hunknown, hknown,
    hcache, hgraph, by decide +kernel⟩

end Sync

end TopologySync
