-- What one event may do to the graph, all of it. An event that tells of no
-- change leaves the graph as it was, and each change keeps every record
-- under its own key.
import TopologySync.Proofs.Reconcile.Agreement
import TopologySync.Proofs.Reconcile.Outcomes

open Std

namespace TopologySync

/-! ## The changes -/

/-- What an event may make of the graph, and whether it tells of a change. -/
inductive Topology.Change (t : Topology) : Bool → Graph → Prop where
  | keep : t.Change false t.graph
  | describe (node : Node) :
    t.Change (differsFrom node t.graph.nodes[node.router]?) (t.graph.describe node)
  | dropNode {id : String} (h : id ∈ t.graph.nodes) : t.Change true (t.graph.dropNode id)
  | link {link : Link} (hnew : link.key ∉ t.graph.edges) (h : unpopulatedWeight? link = none) :
    t.Change true (t.linked link)
  | merge {link : Link} {edge : Edge} (h : t.graph.edges[link.key]? = some edge) :
    t.Change (mergeLink edge link).1.graphChanged
      (t.graph.reweigh edge link.key (mergeLink edge link).2)
  | unlink {key : String} {edge : Edge} (h : t.graph.edges[key]? = some edge) :
    t.Change true (t.graph.unlink edge)

namespace Topology

theorem upsertNode_change {t t' : Topology} {node : Node} {changed : Bool}
    (h : t.upsertNode node = .ok (changed, t')) : t.Change changed t'.graph := by
  rw [upsertNode_eq] at h
  cases h
  exact .describe node

theorem deleteNode_change {t t' : Topology} {key : String} {changed : Bool}
    (h : t.deleteNode key = .ok (changed, t')) : t.Change changed t'.graph := by
  rw [deleteNode_eq] at h
  rcases hnode : t.cache.nodes[key]? with _ | node
  · rw [hnode] at h
    cases h
    exact .keep
  · simp only [hnode] at h
    split at h
    · cases h
      exact .dropNode ‹_›
    · cases h
      exact .keep

theorem addLink_change {t t' : Topology} {link : Link} {changed : Bool}
    (h : t.addLink link = .ok (changed, t')) : t.Change changed t'.graph := by
  rw [addLink_eq] at h
  split at h
  · cases h
    exact .keep
  · rename_i hnew
    rcases hweights : unpopulatedWeight? link with _ | kind
    · rw [hweights] at h
      cases h
      exact .link hnew hweights
    · rw [hweights] at h
      cases h

theorem updateLink_change {t t' : Topology} {link : Link} {update : WeightUpdate}
    (h : t.updateLink link = .ok (update, t')) : t.Change update.graphChanged t'.graph := by
  rw [updateLink_eq] at h
  rcases hedge : t.graph.edges[link.key]? with _ | edge
  · rw [hedge] at h
    rcases hadd : t.addLink link with e | ⟨created, added⟩
    · rw [hadd] at h
      cases h
    · rw [hadd] at h
      cases h
      have hchange := addLink_change hadd
      simpa [WeightUpdate.graphChanged] using hchange
  · rw [hedge] at h
    cases h
    exact .merge hedge

theorem deleteLink_change {t t' : Topology} {key : String} {changed : Bool}
    (h : t.deleteLink key = .ok (changed, t')) : t.Change changed t'.graph := by
  rw [deleteLink_eq] at h
  rcases hedge : t.graph.edges[key]? with _ | edge
  · rw [hedge] at h
    cases h
    exact .keep
  · rw [hedge] at h
    cases h
    exact .unlink hedge

/-! ## No change without notice -/

/-- An update that tells of no changed weight has written none. -/
theorem foldl_mergeInto_unchanged (rest : List (WeightKind × Float))
    (state : WeightUpdate × Weights) (h : (rest.foldl mergeInto state).1.changed = []) :
    state.1.changed = [] ∧ (rest.foldl mergeInto state).2 = state.2 := by
  induction rest generalizing state with
  | nil => exact ⟨h, rfl⟩
  | cons weight rest ih =>
    rw [List.foldl_cons] at h ⊢
    obtain ⟨hchanged, hweights⟩ := ih _ h
    rw [hweights]
    unfold mergeInto at hchanged ⊢
    by_cases hskip : unpopulated weight.1 weight.2 = true
    · rw [if_pos hskip] at hchanged ⊢
      exact ⟨hchanged, rfl⟩
    · rw [if_neg hskip] at hchanged ⊢
      by_cases hsame : state.2[weight.1]?.any (· == weight.2) = true
      · rw [if_pos hsame] at hchanged ⊢
        exact ⟨hchanged, rfl⟩
      · rw [if_neg hsame] at hchanged
        simp at hchanged

theorem differsFrom_eq_false (node : Node) (known : GraphNode) :
    differsFrom node (some known) = false ↔
      known.name = node.name ∧ known.algorithms = node.algorithms := by
  simp [differsFrom]

/-- What tells of no change has changed nothing. -/
theorem Change.unchanged {t : Topology} {graph : Graph} (h : t.Change false graph) :
    graph = t.graph := by
  generalize hchanged : false = changed at h
  cases h with
  | keep => rfl
  | describe node =>
    unfold Graph.describe
    rcases hknown : t.graph.nodes[node.router]? with _ | known
    · simp [hknown, differsFrom] at hchanged
    · rw [hknown] at hchanged
      obtain ⟨hname, halgorithms⟩ := (differsFrom_eq_false node known).1 hchanged.symm
      simp only [Option.getD_some, ← hname, ← halgorithms, Maps.insert_self hknown]
  | dropNode h => cases hchanged
  | link hnew h => cases hchanged
  | @merge link edge h =>
    have hnone : (mergeLink edge link).1.changed = [] := by
      simp only [WeightUpdate.graphChanged, Bool.false_eq, Bool.or_eq_false_iff] at hchanged
      simpa using hchanged.2
    have hweights := (foldl_mergeInto_unchanged link.weights ({}, edge.weights) hnone).2
    simp only [mergeLink, hweights, Graph.reweigh, Maps.insert_self h]
  | unlink h => cases hchanged

/-! ## Every record under its own key -/

theorem keyed_linked {t : Topology} (h : t.graph.Keyed) (link : Link) : (t.linked link).Keyed :=
  Graph.keyed_link (Graph.keyed_withNode (Graph.keyed_withNode h _) _) _

theorem Change.keyed {t : Topology} {changed : Bool} {graph : Graph}
    (hchange : t.Change changed graph) (h : t.graph.Keyed) : graph.Keyed := by
  cases hchange with
  | keep => exact h
  | describe node => exact Graph.keyed_describe h node
  | dropNode => exact Graph.keyed_dropNode h _
  | link => exact keyed_linked h _
  | merge hedge => exact Graph.keyed_reweigh h hedge _
  | unlink => exact Graph.keyed_unlink h _

/-! ## What every change keeps -/

/-- A property of graphs that no change takes away. -/
def Stable (P : Graph → Prop) : Prop :=
  ∀ ⦃t : Topology⦄ ⦃changed : Bool⦄ ⦃graph : Graph⦄,
    t.Change changed graph → P t.graph → P graph

variable {P : Graph → Prop} {t : Topology}

theorem Stable.upsertNodes (hstable : Stable P) (h : P t.graph) (nodes : List Node) :
    P (t.upsertNodes nodes).2.1.graph := by
  induction nodes generalizing t with
  | nil => exact h
  | cons node rest ih =>
    unfold Topology.upsertNodes
    rw [upsertNode_eq]
    exact ih (hstable (.describe node) h)

theorem Stable.addLinks (hstable : Stable P) (h : P t.graph) (links : List Link) :
    P (t.addLinks links).2.1.graph := by
  induction links generalizing t with
  | nil => exact h
  | cons link rest ih =>
    unfold Topology.addLinks
    rcases hadd : t.addLink link with e | ⟨changed, added⟩
    · exact ih h
    · exact ih (hstable (addLink_change hadd) h)

end Topology

namespace Sync

/-! ## One event -/

/-- What an outcome tells of the graph. A refusal tells of no change. -/
def told : Except ReconcileError Bool → Bool
  | .ok changed => changed
  | .error _ => false

theorem onTopology_change (s : Sync) (taken : Bool)
    {change : Topology → Except ReconcileError (Bool × Topology)}
    (h : ∀ changed t, change s.topology = .ok (changed, t) → s.topology.Change changed t.graph) :
    s.topology.Change (told (s.onTopology taken change).1)
      (s.onTopology taken change).2.topology.graph := by
  unfold onTopology
  split
  · rcases hchange : change s.topology with e | ⟨changed, t⟩
    · exact .keep
    · exact h changed t hchange
  · exact .keep

theorem onAnnouncements_change (s : Sync)
    (change : Announcements → Except ReconcileError Unit × Announcements) :
    s.topology.Change (told (s.onAnnouncements change).1)
      (s.onAnnouncements change).2.topology.graph := by
  unfold onAnnouncements
  rcases s.dispatcher.prefixes with _ | counts
  · exact .keep
  · simp only
    rcases change { counts, cache := s.topology.cache } with ⟨_ | _, a⟩ <;> exact .keep

theorem onCache_change (s : Sync) (taken : Bool) (change : Cache → Cache) :
    s.topology.Change (told (s.onCache taken change).1)
      (s.onCache taken change).2.topology.graph := by
  apply onTopology_change
  intro changed t h
  cases h
  exact .keep

theorem apply_change (s : Sync) (event : Event) :
    s.topology.Change (told (s.apply event).1) (s.apply event).2.topology.graph := by
  cases event with
  | addNode node => exact s.onTopology_change _ (fun _ _ => Topology.upsertNode_change)
  | updateNode node => exact s.onTopology_change _ (fun _ _ => Topology.upsertNode_change)
  | deleteNode key => exact s.onTopology_change _ (fun _ _ => Topology.deleteNode_change)
  | addLink link => exact s.onTopology_change _ (fun _ _ => Topology.addLink_change)
  | updateLink link =>
    apply s.onTopology_change
    intro changed t h
    rcases hupdate : s.topology.updateLink link with e | ⟨update, updated⟩
    · rw [hupdate] at h
      cases h
    · rw [hupdate] at h
      cases h
      exact Topology.updateLink_change hupdate
  | deleteLink key => exact s.onTopology_change _ (fun _ _ => Topology.deleteLink_change)
  | addPrefix p => exact s.onAnnouncements_change _
  | deletePrefix key => exact s.onAnnouncements_change _
  | addSid sid => exact s.onCache_change _ _
  | deleteSid key => exact s.onCache_change _ _

/-- What an event tells of the graph is what it made of it. -/
theorem dispatch_change (s : Sync) (event : Event) :
    s.topology.Change (s.dispatch event).1 (s.dispatch event).2.1.topology.graph := by
  have happly := s.apply_change event
  unfold dispatch
  split
  · rcases hstep : s.apply event with ⟨_ | _, s'⟩ <;> rw [hstep] at happly <;> exact happly
  · exact .keep

theorem dispatch_unchanged {s : Sync} {event : Event} (h : (s.dispatch event).1 = false) :
    (s.dispatch event).2.1.topology.graph = s.topology.graph := by
  have hchange := s.dispatch_change event
  rw [h] at hchange
  exact hchange.unchanged

theorem dispatch_keyed {s : Sync} (h : s.topology.graph.Keyed) (event : Event) :
    (s.dispatch event).2.1.topology.graph.Keyed :=
  (s.dispatch_change event).keyed h

theorem keyed_dispatchAll {s : Sync} (h : s.topology.graph.Keyed) (events : List Event) :
    (s.dispatchAll events).topology.graph.Keyed := by
  induction events generalizing s with
  | nil => exact h
  | cons event rest ih => exact ih (dispatch_keyed h event)

/-! ## Snapshots -/

theorem loadPrefixes_graph (s : Sync) (prefixes : List Prefix) :
    (s.loadPrefixes prefixes).2.1.topology.graph = s.topology.graph := by
  unfold loadPrefixes
  rcases s.dispatcher.prefixes with _ | counts <;> rfl

theorem loadSids_graph (s : Sync) (sids : List Sid) :
    (s.loadSids sids).2.topology.graph = s.topology.graph := by
  unfold loadSids
  split <;> rfl

/-- A snapshot leaves a graph behind that was rebuilt last of all, and before that
it took away nothing that every change keeps. -/
theorem applySnapshot_keeps {P : Graph → Prop} (hstable : Topology.Stable P) {s : Sync}
    (h : P s.topology.graph) (snapshot : Snapshot) :
    ∃ graph : Graph, P graph ∧
      (s.applySnapshot snapshot).2.1.topology.graph = graph.rebuild := by
  have hnodes : P (s.loadNodes snapshot.nodes).2.1.topology.graph := by
    unfold loadNodes
    split
    · exact hstable.upsertNodes h snapshot.nodes
    · exact h
  unfold applySnapshot
  simp only [loadSids_graph, loadPrefixes_graph]
  exact ⟨_, hstable.addLinks hnodes _, rfl⟩

theorem applySnapshot_rebuilt {s : Sync} (h : s.topology.graph.Keyed) (snapshot : Snapshot) :
    ∃ graph : Graph, graph.Keyed ∧
      (s.applySnapshot snapshot).2.1.topology.graph = graph.rebuild :=
  applySnapshot_keeps (fun _ _ _ hchange => hchange.keyed) h snapshot

end Sync

end TopologySync
