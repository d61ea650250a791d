-- What events do to one router. Whatever an event changes, for one router it
-- comes to a report, a departure, a deletion, a mention by a link or nothing.
import TopologySync.Proofs.Graph.Incidence
import TopologySync.Proofs.Presence.Router
import TopologySync.Proofs.Reconcile.Feeds

open Std

namespace TopologySync

/-! ## Every router -/

namespace Topology

def presence (t : Topology) (router : String) : Presence where
  router := router
  reporters := t.cache.nodes.filter (fun _ node => node.router = router)
  speaker := t.cache.nodeSlots[router]?
  shown := t.graph.nodes[router]?

variable {t : Topology} {router : String}

theorem getElem?_reporters (t : Topology) (router key : String) :
    (t.presence router).reporters[key]? =
      t.cache.nodes[key]?.filter (fun node => node.router = router) := by
  simp [presence]

theorem mem_reporters (t : Topology) (router key : String) :
    key ∈ (t.presence router).reporters ↔
      ∃ node, t.cache.nodes[key]? = some node ∧ node.router = router := by
  simp [Maps.mem_iff_exists, getElem?_reporters, Option.filter_eq_some_iff]

theorem good_empty (router : String) : (Topology.presence {} router).Good where
  own key node h := by simp [presence, Cache.empty] at h
  speaks key h := by simp [presence, Cache.empty] at h
  alike node shown h _ := by simp [Presence.voice, presence, Cache.empty] at h

theorem nodeOfRouter?_eq (h : (t.presence router).Good) :
    t.cache.nodeOfRouter? router = (t.presence router).voice := by
  unfold Cache.nodeOfRouter? Presence.voice
  rcases hspeaker : t.cache.nodeSlots[router]? with _ | key
  · simp [presence, hspeaker]
  · obtain ⟨node, hnode, hrouter⟩ := (mem_reporters t router key).1 (h.speaks key hspeaker)
    have hreporter : (t.presence router).reporters[key]? = some node := by
      rw [getElem?_reporters, hnode, Option.filter_some, hrouter]
      simp
    simp only [show (t.presence router).speaker = some key from hspeaker, Option.bind_some,
      hreporter]
    simpa using hnode

theorem endpoint_eq (h : (t.presence router).Good) :
    endpoint t.cache router = (t.presence router).likeness := by
  unfold endpoint Presence.likeness
  rw [nodeOfRouter?_eq h]
  rfl

/-! ## Nodes -/

/-- A record that is stored for another router gives this one up. -/
theorem getElem?_leaveRouter (t : Topology) {node : Node} (hrouter : node.router ≠ router) :
    (t.cache.leaveRouter node)[router]? =
      if node.key ∈ (t.presence router).reporters ∧ t.cache.nodeSlots[router]? = some node.key
      then none else t.cache.nodeSlots[router]? := by
  simp only [mem_reporters]
  unfold Cache.leaveRouter
  rcases t.cache.nodes[node.key]? with _ | previous
  · simp
  · by_cases hsame : previous.router = node.router
    · simp [hsame, hrouter]
    · simp [hsame, Slots.getElem?_release]

theorem getElem?_describe (hkeyed : t.graph.Keyed) (node : Node) (router : String) :
    (t.graph.describe node).nodes[router]? =
      if node.router = router then some (graphNodeOf node) else t.graph.nodes[router]? := by
  unfold Graph.describe
  by_cases hrouter : node.router = router
  · subst hrouter
    rcases hknown : t.graph.nodes[node.router]? with _ | known
    · simp [GraphNode.placeholder, graphNodeOf]
    · have hid := hkeyed.nodes node.router known hknown
      simp [hid, graphNodeOf]
  · simp [ExtTreeMap.getElem?_insert, hrouter]

theorem presence_store_own (hkeyed : t.graph.Keyed) (node : Node) :
    presence ⟨t.cache.storeNode node, t.graph.describe node⟩ node.router =
      (t.presence node.router).report node := by
  simp [presence, Presence.report, Cache.storeNode, Maps.filter_insert, getElem?_describe hkeyed]

theorem presence_store_other (hkeyed : t.graph.Keyed) (node : Node)
    (hrouter : node.router ≠ router) :
    presence ⟨t.cache.storeNode node, t.graph.describe node⟩ router =
      if node.key ∈ (t.presence router).reporters then (t.presence router).leave node.key
      else t.presence router := by
  have hshown : (t.graph.describe node).nodes[router]? = t.graph.nodes[router]? := by
    rw [getElem?_describe hkeyed, if_neg hrouter]
  have hspeaker : (t.cache.storeNode node).nodeSlots[router]? =
      (t.cache.leaveRouter node)[router]? := by
    simp [Cache.storeNode, ExtTreeMap.getElem?_insert, hrouter]
  have hreporters : (t.cache.storeNode node).nodes.filter (fun _ node => node.router = router) =
      (t.presence router).reporters.erase node.key := by
    simp [Cache.storeNode, Maps.filter_insert, hrouter, presence]
  rw [getElem?_leaveRouter t hrouter] at hspeaker
  by_cases hmem : node.key ∈ (t.presence router).reporters
  · rw [if_pos hmem]
    simp only [hmem, true_and] at hspeaker
    exact Presence.ext rfl hreporters hspeaker hshown
  · rw [if_neg hmem]
    simp only [hmem, false_and, if_false] at hspeaker
    rw [Maps.erase_of_notMem hmem] at hreporters
    exact Presence.ext rfl hreporters hspeaker hshown

theorem step_store (hkeyed : t.graph.Keyed) (node : Node) (router : String) {event : Event}
    (hevent : event.reported? = some node) :
    (t.presence router).Step event
      (presence ⟨t.cache.storeNode node, t.graph.describe node⟩ router) := by
  by_cases hrouter : node.router = router
  · subst hrouter
    rw [presence_store_own hkeyed]
    exact .report hevent rfl
  · rw [presence_store_other hkeyed node hrouter]
    split
    · exact .leave hevent hrouter ‹_›
    · exact .still

theorem presence_removed {key : String} {node : Node} (hnode : t.cache.nodes[key]? = some node)
    {graph : Graph} (hgraph : graph.nodes = t.graph.nodes.erase node.router) (router : String) :
    presence ⟨(t.cache.removeNode key).2, graph⟩ router =
      if node.router = router then (t.presence router).delete key else t.presence router := by
  have hreporters : (t.cache.removeNode key).2.nodes.filter (fun _ node => node.router = router) =
      (t.presence router).reporters.erase key := by
    simp [Cache.removeNode, hnode, Maps.filter_erase, presence]
  have hspeaker : (t.cache.removeNode key).2.nodeSlots[router]? =
      if node.router = router ∧ t.cache.nodeSlots[router]? = some key then none
      else t.cache.nodeSlots[router]? := by
    simp [Cache.removeNode, hnode, Slots.getElem?_release]
  have hshown : graph.nodes[router]? =
      if node.router = router then none else t.graph.nodes[router]? := by
    simp [hgraph, ExtTreeMap.getElem?_erase]
  by_cases hrouter : node.router = router
  · rw [if_pos hrouter] at hshown ⊢
    simp only [hrouter, true_and] at hspeaker
    exact Presence.ext rfl hreporters hspeaker hshown
  · rw [if_neg hrouter] at hshown ⊢
    simp only [hrouter, false_and, if_false] at hspeaker
    have hstays : key ∉ (t.presence router).reporters := by
      simp [mem_reporters, hnode, hrouter]
    rw [Maps.erase_of_notMem hstays] at hreporters
    exact Presence.ext rfl hreporters hspeaker hshown

theorem step_deleteNode (t : Topology) (key router : String) :
    (t.presence router).Step (.deleteNode key)
      ((t.settle (t.deleteNode key)).presence router) := by
  rw [deleteNode_eq]
  rcases hnode : t.cache.nodes[key]? with _ | node
  · exact .still
  · have hstep : ∀ graph : Graph, graph.nodes = t.graph.nodes.erase node.router →
        (t.presence router).Step (.deleteNode key)
          (presence ⟨(t.cache.removeNode key).2, graph⟩ router) := by
      intro graph hgraph
      rw [presence_removed hnode hgraph]
      split
      · exact .delete ((mem_reporters t router key).2 ⟨node, hnode, ‹_›⟩)
      · exact .still
    dsimp only
    split
    · exact hstep _ (Graph.nodes_dropNode t.graph node.router)
    · rename_i habsent
      exact hstep t.graph (Maps.erase_of_notMem habsent).symm

/-! ## Links -/

theorem presence_linked (h : (t.presence router).Good) (link : Link) :
    presence { t with graph := t.linked link } router =
      if link.source = router ∨ link.target = router then (t.presence router).mention
      else t.presence router := by
  have hnodes : (t.linked link).nodes[router]? =
      if link.source = router ∨ link.target = router
      then t.graph.nodes[router]?.or (some (t.presence router).likeness)
      else t.graph.nodes[router]? := by
    simp only [linked, Graph.link, Graph.getElem?_withNode, endpoint_id, ← endpoint_eq h]
    by_cases hsource : link.source = router
    · subst hsource
      by_cases htarget : link.target = link.source
      · simp [htarget]
      · simp [htarget]
    · by_cases htarget : link.target = router
      · subst htarget
        simp [hsource]
      · simp [hsource, htarget]
  by_cases hend : link.source = router ∨ link.target = router
  · rw [if_pos hend] at hnodes ⊢
    exact Presence.ext rfl rfl rfl hnodes
  · rw [if_neg hend] at hnodes ⊢
    exact Presence.ext rfl rfl rfl hnodes

theorem step_addLink (h : (t.presence router).Good) (link : Link) (event : Event) :
    (t.presence router).Step event ((t.settle (t.addLink link)).presence router) := by
  rw [addLink_eq]
  split
  · exact .still
  · rcases unpopulatedWeight? link with _ | kind
    · rw [settle, presence_linked h]
      split
      · exact .mention
      · exact .still
    · exact .still

theorem step_updateLink (h : (t.presence router).Good) (link : Link) (event : Event) :
    (t.presence router).Step event ((t.settle (t.updateLink link)).presence router) := by
  rw [updateLink_eq]
  rcases t.graph.edges[link.key]? with _ | edge
  · simp only [settle_map, implies_true]
    exact step_addLink h link event
  · exact .still

theorem step_deleteLink (t : Topology) (key router : String) (event : Event) :
    (t.presence router).Step event ((t.settle (t.deleteLink key)).presence router) := by
  rw [deleteLink_eq]
  rcases t.graph.edges[key]? with _ | edge <;> exact .still

end Topology

/-! ## One event -/

namespace Sync

variable {s : Sync}

/-- Announcements and segment identifiers do not matter to a router. -/
theorem presence_withPart {feed : Feed} (hfeed : feed ≠ .network) (other : Sync)
    (router : String) :
    (s.withPart feed other).topology.presence router = s.topology.presence router := by
  cases feed with
  | network => exact absurd rfl hfeed
  | announcements | sids => rfl

theorem step_onTopology {taken : Bool}
    {change : Topology → Except ReconcileError (Bool × Topology)} {event : Event} {router : String}
    (h : (s.topology.presence router).Step event
      ((s.topology.settle (change s.topology)).presence router)) :
    (s.topology.presence router).Step event
      ((s.onTopology taken change).2.topology.presence router) := by
  rw [onTopology_topology]
  split
  · exact h
  · exact .still

theorem step_apply (hkeyed : s.topology.graph.Keyed) {router : String}
    (h : (s.topology.presence router).Good) {event : Event} (hfeed : event.feed = .network) :
    (s.topology.presence router).Step event ((s.apply event).2.topology.presence router) := by
  cases event with
  | addNode node | updateNode node =>
    apply step_onTopology
    rw [Topology.upsertNode_eq]
    exact Topology.step_store hkeyed node router rfl
  | deleteNode key => exact step_onTopology (Topology.step_deleteNode s.topology key router)
  | addLink link => exact step_onTopology (Topology.step_addLink h link _)
  | updateLink link =>
    apply step_onTopology
    simp only [Topology.settle_map, implies_true]
    exact Topology.step_updateLink h link _
  | deleteLink key => exact step_onTopology (Topology.step_deleteLink s.topology key router _)
  | addPrefix | deletePrefix | addSid | deleteSid => cases hfeed

theorem step_dispatch (hkeyed : s.topology.graph.Keyed) {router : String}
    (h : (s.topology.presence router).Good) (event : Event) :
    (s.topology.presence router).Step event
      ((s.dispatch event).2.1.topology.presence router) := by
  by_cases hfeed : event.feed = .network
  · rw [dispatch_state]
    split
    · exact step_apply hkeyed h hfeed
    · exact .still
  · rw [dispatch_eq_withPart, presence_withPart hfeed]
    exact .still

end Sync

end TopologySync
