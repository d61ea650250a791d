-- The law of exact notice. An event tells of a change of the graph if and
-- only if it made one, and tells of none by leaving the graph alone. Values
-- are compared as numbers: zero is zero, whatever its sign.
import TopologySync.Proofs.Graph.Incidence
import TopologySync.Proofs.Numbers
import TopologySync.Proofs.Reconcile.Changes
import TopologySync.Proofs.Reconcile.Merge
import TopologySync.Fixtures

open Std

namespace TopologySync

/-! ## The same graph -/

/-- The same double, or zeros of either sign. -/
def SameValue (x y : Float) : Prop :=
  x = y ∨ (x == y) = true

/-- The same edge, with the same values. -/
structure Edge.Same (edge edge' : Edge) : Prop where
  key : edge.key = edge'.key
  source : edge.source = edge'.source
  target : edge.target = edge'.target
  weights : ∀ kind : WeightKind, Option.Rel SameValue edge.weights[kind]? edge'.weights[kind]?

/-- The same nodes, and the same edges under the same keys. -/
structure Graph.Same (graph graph' : Graph) : Prop where
  nodes : graph.nodes = graph'.nodes
  edges : ∀ key : String, Option.Rel Edge.Same graph.edges[key]? graph'.edges[key]?

theorem Edge.same_refl (edge : Edge) : edge.Same edge := by
  refine ⟨rfl, rfl, rfl, fun kind => ?_⟩
  rcases edge.weights[kind]? with _ | value
  · exact .none
  · exact .some (Or.inl rfl)

namespace Graph

variable {graph graph' : Graph}

theorem same_refl (graph : Graph) : graph.Same graph := by
  refine ⟨rfl, fun key => ?_⟩
  rcases graph.edges[key]? with _ | edge
  · exact .none
  · exact .some edge.same_refl

theorem same_mem_edges (h : graph.Same graph') (key : String) :
    key ∈ graph.edges ↔ key ∈ graph'.edges := by
  have hedge := h.edges key
  rw [ExtTreeMap.mem_iff_isSome_getElem?, ExtTreeMap.mem_iff_isSome_getElem?]
  generalize graph.edges[key]? = known at hedge ⊢
  generalize graph'.edges[key]? = known' at hedge ⊢
  cases hedge with
  | none => exact Iff.rfl
  | some hsame => exact Iff.rfl

/-! ## Edits that leave a mark -/

theorem describe_differs {node : Node}
    (h : Topology.differsFrom node graph.nodes[node.router]? = true) :
    ¬ graph.Same (graph.describe node) := by
  intro hsame
  rw [hsame.nodes] at h
  simp [describe, Topology.differsFrom] at h

theorem dropNode_differs {id : String} (h : id ∈ graph.nodes) :
    ¬ graph.Same (graph.dropNode id) := by
  intro hsame
  rw [hsame.nodes, nodes_dropNode] at h
  simp at h

theorem unlink_differs (h : graph.Keyed) {key : String} {edge : Edge}
    (hedge : graph.edges[key]? = some edge) : ¬ graph.Same (graph.unlink edge) := by
  intro hsame
  have hmem := (same_mem_edges hsame key).1 (Maps.mem_iff_exists.2 ⟨edge, hedge⟩)
  simp [unlink, h.edges key edge hedge] at hmem

theorem linked_differs {t : Topology} {link : Link} (h : link.key ∉ t.graph.edges) :
    ¬ t.graph.Same (t.linked link) := by
  intro hsame
  apply h
  rw [same_mem_edges hsame]
  simp [Topology.linked, Graph.link, Topology.edgeOf]

/-- A value that is written differs from the one before. NaN would not. -/
theorem merge_differs {link : Link} (hnumeric : link.Numeric) {edge : Edge}
    (hedge : graph.edges[link.key]? = some edge)
    (h : (Topology.mergeLink edge link).1.graphChanged = true) :
    ¬ graph.Same (graph.reweigh edge link.key (Topology.mergeLink edge link).2) := by
  intro hsame
  obtain ⟨kind, hkind⟩ := (Topology.graphChanged_mergeLink edge link).1 h
  have hedges := hsame.edges link.key
  rw [hedge, reweigh, ExtTreeMap.getElem?_insert_self] at hedges
  have hvalues : Option.Rel SameValue edge.weights[kind]? (some (link.weight kind)) := by
    cases hedges with
    | some hsame =>
      have hweights := hsame.weights kind
      rwa [Topology.getElem?_merged, if_pos hkind] at hweights
  simp only [Topology.rewrites, Bool.and_eq_true, Bool.not_eq_true'] at hkind
  generalize edge.weights[kind]? = known at hkind hvalues
  cases hvalues with
  | some hvalue =>
    have hunequal := hkind.2
    rw [Option.any_some] at hunequal
    rcases hvalue with heq | hbeq
    · subst heq
      have hself : (link.weight kind == link.weight kind) = true := by
        simpa using Link.isNaN_weight hnumeric kind
      rw [hself] at hunequal
      cases hunequal
    · rw [hbeq] at hunequal
      cases hunequal

end Graph

/-! ## Changes that are told of -/

namespace Topology

variable {t : Topology}

theorem upsertNode_differs {node : Node} {t' : Topology}
    (h : t.upsertNode node = .ok (true, t')) : ¬ t.graph.Same t'.graph := by
  rw [Topology.upsertNode_eq, Except.ok.injEq, Prod.mk.injEq] at h
  obtain ⟨hdiffers, rfl⟩ := h
  exact Graph.describe_differs hdiffers

theorem deleteNode_differs {key : String} {t' : Topology}
    (h : t.deleteNode key = .ok (true, t')) : ¬ t.graph.Same t'.graph := by
  rw [Topology.deleteNode_eq] at h
  split at h
  · cases h
  · dsimp only at h
    split at h
    · cases h
      exact Graph.dropNode_differs ‹_›
    · cases h

theorem addLink_differs {link : Link} {t' : Topology}
    (h : t.addLink link = .ok (true, t')) : ¬ t.graph.Same t'.graph := by
  rw [Topology.addLink_eq] at h
  split at h
  · cases h
  · rename_i hnew
    split at h
    · cases h
    · cases h
      exact Graph.linked_differs hnew

theorem updateLink_differs {link : Link} (hnumeric : link.Numeric) {update : WeightUpdate}
    {t' : Topology} (h : t.updateLink link = .ok (update, t'))
    (hchanged : update.graphChanged = true) : ¬ t.graph.Same t'.graph := by
  rw [Topology.updateLink_eq] at h
  rcases hedge : t.graph.edges[link.key]? with _ | edge
  · rw [hedge] at h
    rcases hadd : t.addLink link with e | ⟨created, added⟩
    · rw [hadd] at h
      cases h
    · rw [hadd] at h
      cases h
      simp only [WeightUpdate.graphChanged, List.isEmpty_nil, Bool.not_true, Bool.or_false]
        at hchanged
      subst hchanged
      exact addLink_differs hadd
  · rw [hedge] at h
    cases h
    exact Graph.merge_differs hnumeric hedge hchanged

theorem deleteLink_differs (hkeyed : t.graph.Keyed) {key : String} {t' : Topology}
    (h : t.deleteLink key = .ok (true, t')) : ¬ t.graph.Same t'.graph := by
  rw [Topology.deleteLink_eq] at h
  split at h
  · cases h
  · rename_i hedge
    cases h
    exact Graph.unlink_differs hkeyed hedge

end Topology

/-! ## One event -/

namespace Sync

variable {s : Sync}

/-- A change that is told of was made. -/
theorem of_told_onTopology {taken : Bool}
    {change : Topology → Except ReconcileError (Bool × Topology)}
    (h : told (s.onTopology taken change).1 = true) :
    ∃ t, change s.topology = .ok (true, t) ∧ (s.onTopology taken change).2.topology = t := by
  unfold onTopology at h ⊢
  split at h
  · rename_i htaken
    rcases hchange : change s.topology with e | ⟨changed, t⟩
    · rw [hchange] at h
      cases h
    · rw [hchange] at h
      simp only [told] at h
      subst h
      exact ⟨t, rfl, by simp [htaken]⟩
  · cases h

theorem told_onAnnouncements (change : Announcements → Except ReconcileError Unit × Announcements) :
    told (s.onAnnouncements change).1 = false := by
  unfold onAnnouncements
  rcases s.dispatcher.prefixes with _ | counts
  · rfl
  · rcases hchange : change { counts, cache := s.topology.cache } with ⟨_ | _, a⟩ <;>
      simp [hchange, told, Except.map]

theorem told_onCache (taken : Bool) (change : Cache → Cache) :
    told (s.onCache taken change).1 = false := by
  unfold onCache onTopology
  split <;> rfl

theorem apply_differs (hkeyed : s.topology.graph.Keyed) {event : Event}
    (hnumeric : event.Numeric) (h : told (s.apply event).1 = true) :
    ¬ s.topology.graph.Same (s.apply event).2.topology.graph := by
  cases event with
  | addNode node | updateNode node =>
    obtain ⟨t, hchange, htopology⟩ := of_told_onTopology h
    rw [apply, htopology]
    exact Topology.upsertNode_differs hchange
  | deleteNode key =>
    obtain ⟨t, hchange, htopology⟩ := of_told_onTopology h
    rw [apply, htopology]
    exact Topology.deleteNode_differs hchange
  | addLink link =>
    obtain ⟨t, hchange, htopology⟩ := of_told_onTopology h
    rw [apply, htopology]
    exact Topology.addLink_differs hchange
  | updateLink link =>
    obtain ⟨t, hchange, htopology⟩ := of_told_onTopology h
    rw [apply, htopology]
    rcases hupdate : s.topology.updateLink link with e | ⟨update, updated⟩
    · rw [hupdate] at hchange
      cases hchange
    · rw [hupdate] at hchange
      simp only [Except.map, Except.ok.injEq, Prod.mk.injEq] at hchange
      obtain ⟨hchanged, rfl⟩ := hchange
      exact Topology.updateLink_differs hnumeric hupdate hchanged
  | deleteLink key =>
    obtain ⟨t, hchange, htopology⟩ := of_told_onTopology h
    rw [apply, htopology]
    exact Topology.deleteLink_differs hkeyed hchange
  | addPrefix p =>
    rw [apply, told_onAnnouncements] at h
    cases h
  | deletePrefix key =>
    rw [apply, told_onAnnouncements] at h
    cases h
  | addSid sid =>
    rw [apply, told_onCache] at h
    cases h
  | deleteSid key =>
    rw [apply, told_onCache] at h
    cases h

theorem dispatch_told (s : Sync) (event : Event) :
    (s.dispatch event).1 =
      (s.dispatcher.handles event.family && told (s.apply event).1) := by
  unfold dispatch
  split
  · rename_i htaken
    rcases hstep : s.apply event with ⟨_ | _, s'⟩ <;> simp [htaken, told]
  · rename_i hleft
    simp [hleft]

/-- A change that an event tells of was made. -/
theorem dispatch_differs (hkeyed : s.topology.graph.Keyed) {event : Event}
    (hnumeric : event.Numeric) (h : (s.dispatch event).1 = true) :
    ¬ s.topology.graph.Same (s.dispatch event).2.1.topology.graph := by
  rw [dispatch_told, Bool.and_eq_true] at h
  rw [dispatch_state, if_pos h.1]
  exact apply_differs hkeyed hnumeric h.2

/-- Announcements and segment identifiers are no part of the graph. -/
theorem dispatch_quiet {event : Event}
    (h : event.family = .announcement ∨ event.family = .sid ∨
      s.dispatcher.handles event.family = false) :
    (s.dispatch event).1 = false := by
  rw [dispatch_told]
  rcases h with hfamily | hfamily | hleft
  · cases event with
    | addPrefix p => rw [apply, told_onAnnouncements, Bool.and_false]
    | deletePrefix key => rw [apply, told_onAnnouncements, Bool.and_false]
    | _ => cases hfamily
  · cases event with
    | addSid sid => rw [apply, told_onCache, Bool.and_false]
    | deleteSid key => rw [apply, told_onCache, Bool.and_false]
    | _ => cases hfamily
  · rw [hleft, Bool.false_and]

/-! ## Requests in turn -/

/-- What a dispatcher is asked to apply. -/
inductive Request where
  | event (event : Event)
  | snapshot (snapshot : Snapshot)

def serve (s : Sync) : Request → Sync
  | .event event => (s.dispatch event).2.1
  | .snapshot snapshot => (s.applySnapshot snapshot).2.1

/-- The state after requests, one by one. -/
def serveAll (s : Sync) (requests : List Request) : Sync :=
  requests.foldl serve s

theorem serve_keyed (h : s.topology.graph.Keyed) (request : Request) :
    (s.serve request).topology.graph.Keyed := by
  cases request with
  | event event => exact dispatch_keyed h event
  | snapshot snapshot =>
    obtain ⟨graph, hkeyed, hgraph⟩ := applySnapshot_rebuilt h snapshot
    rw [serve, hgraph]
    exact Graph.keyed_rebuild hkeyed

theorem serveAll_keyed (h : s.topology.graph.Keyed) (requests : List Request) :
    (s.serveAll requests).topology.graph.Keyed := by
  induction requests generalizing s with
  | nil => exact h
  | cons request rest ih => exact ih (serve_keyed h request)

/-- Whatever was applied before, an event tells of a change if and only if
the nodes or edges differ behind it. If it tells of none, all of the graph is
as it was. -/
theorem a_change_is_told_if_and_only_if_made (dispatcher : Dispatcher) (requests : List Request)
    (event : Event) :
    let s := serveAll { dispatcher } requests
    let graph := (s.dispatch event).2.1.topology.graph
    (event.Numeric → ((s.dispatch event).1 = true ↔ ¬ s.topology.graph.Same graph)) ∧
      ((s.dispatch event).1 = false → graph = s.topology.graph) ∧
      (event.family = .announcement ∨ event.family = .sid ∨
          s.dispatcher.handles event.family = false →
        (s.dispatch event).1 = false) := by
  intro s graph
  have hkeyed : s.topology.graph.Keyed := serveAll_keyed Graph.keyed_empty requests
  refine ⟨fun hnumeric => ⟨dispatch_differs hkeyed hnumeric, fun hdiffers => ?_⟩,
    dispatch_unchanged, dispatch_quiet⟩
  rw [← Bool.not_eq_false]
  intro hquiet
  apply hdiffers
  rw [show graph = s.topology.graph from dispatch_unchanged hquiet]
  exact s.topology.graph.same_refl

/-- A normalized weight goes from zero to minus zero, which is no change, and
then to a half, which is one. -/
theorem a_change_of_sign_of_zero_is_not_told :
    let link := Fixtures.link "l" "r1" "r2"
    let s := serveAll {} [.event (.addLink link)]
    let signed := Event.updateLink { link with normalizedDelay := -0.0 }
    let raised := Event.updateLink { link with normalizedDelay := 0.5 }
    signed.Numeric ∧ raised.Numeric ∧
      s.topology.graph.Same (s.dispatch signed).2.1.topology.graph ∧
      ¬ s.topology.graph.Same (s.dispatch raised).2.1.topology.graph := by
  intro link s signed raised
  have hsigned : signed.Numeric := ⟨by decide +kernel, by decide +kernel, by decide +kernel,
    by decide +kernel⟩
  have hraised : raised.Numeric := ⟨by decide +kernel, by decide +kernel, by decide +kernel,
    by decide +kernel⟩
  have hquiet : (s.dispatch signed).1 = false := by decide +kernel
  have htold : (s.dispatch raised).1 = true := by decide +kernel
  have hlaw := fun event => a_change_is_told_if_and_only_if_made {} [.event (.addLink link)] event
  refine ⟨hsigned, hraised, ?_, ((hlaw raised).1 hraised).1 htold⟩
  rw [show (s.dispatch signed).2.1.topology.graph = s.topology.graph from (hlaw signed).2.1 hquiet]
  exact s.topology.graph.same_refl

end Sync

end TopologySync
