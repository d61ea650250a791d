-- Events applied to states that agree. Which weights are compared does not
-- matter: a merge looks at one weight at a time, and nothing else looks at
-- the weights at all.
import TopologySync.Proofs.Graph.Agreement
import TopologySync.Proofs.Reconcile.Outcomes

open Std

namespace TopologySync

/-! ## Weights, one by one -/

namespace Topology

/-- Merges one reported weight into what an edge knows of one kind. -/
def mergeKind (kind : WeightKind) (known : Option Float) (weight : WeightKind × Float) :
    Option Float :=
  if weight.1 = kind ∧ unpopulated weight.1 weight.2 = false ∧ known.any (· == weight.2) = false
  then some weight.2 else known

theorem getElem?_mergeInto (state : WeightUpdate × Weights) (weight : WeightKind × Float)
    (kind : WeightKind) :
    (mergeInto state weight).2[kind]? = mergeKind kind state.2[kind]? weight := by
  unfold mergeInto mergeKind
  by_cases hkind : weight.1 = kind
  · subst hkind
    by_cases hskip : unpopulated weight.1 weight.2 = true
    · simp [hskip]
    · by_cases hsame : state.2[weight.1]?.any (· == weight.2) = true
      · simp [hskip, hsame]
      · simp [hskip, hsame]
  · have hother : ∀ value, (state.2.insert weight.1 value)[kind]? = state.2[kind]? := by
      intro value
      simp [ExtTreeMap.getElem?_insert, hkind]
    simp only [hkind, false_and, if_false]
    split
    · rfl
    · split
      · rfl
      · exact hother weight.2

/-- What a merge makes of one weight depends on that weight alone. -/
theorem getElem?_mergeLink (edge : Edge) (link : Link) (kind : WeightKind) :
    (mergeLink edge link).2[kind]? = link.weights.foldl (mergeKind kind) edge.weights[kind]? := by
  have hfold : ∀ (rest : List (WeightKind × Float)) (state : WeightUpdate × Weights),
      (rest.foldl mergeInto state).2[kind]? = rest.foldl (mergeKind kind) state.2[kind]? := by
    intro rest
    induction rest with
    | nil => exact fun state => rfl
    | cons weight rest ih =>
      intro state
      rw [List.foldl_cons, ih, getElem?_mergeInto, List.foldl_cons]
  exact hfold link.weights ({}, edge.weights)

end Topology

/-! ## Agreement of states -/

/-- The same cache, and graphs that agree. -/
structure Topology.Agree (kinds : WeightKind → Prop) (t t' : Topology) : Prop where
  cache : t.cache = t'.cache
  graph : t.graph.Agree kinds t'.graph

/-- The same dispatcher with the same counts, and topologies that agree. -/
structure Sync.Agree (kinds : WeightKind → Prop) (s s' : Sync) : Prop where
  dispatcher : s.dispatcher = s'.dispatcher
  topology : s.topology.Agree kinds s'.topology

namespace Topology

variable {kinds : WeightKind → Prop} {t t' : Topology}

/-- The topology after a change, which a refusal leaves as it was. -/
def settle {α : Type} (t : Topology) (outcome : Except ReconcileError (α × Topology)) : Topology :=
  match outcome with
  | .ok (_, t) => t
  | .error _ => t

theorem settle_map {α β : Type} {f : α × Topology → β × Topology} (hf : ∀ x, (f x).2 = x.2)
    (t : Topology) (outcome : Except ReconcileError (α × Topology)) :
    t.settle (outcome.map f) = t.settle outcome := by
  rcases outcome with e | x
  · rfl
  · exact hf x

theorem agree_upsertNode (h : t.Agree kinds t') (node : Node) :
    (t.settle (t.upsertNode node)).Agree kinds (t'.settle (t'.upsertNode node)) := by
  rw [upsertNode_eq, upsertNode_eq]
  exact ⟨congrArg (·.storeNode node) h.cache, Graph.agree_describe h.graph node⟩

theorem agree_deleteNode (h : t.Agree kinds t') (key : String) :
    (t.settle (t.deleteNode key)).Agree kinds (t'.settle (t'.deleteNode key)) := by
  rw [deleteNode_eq, deleteNode_eq, ← h.cache, ← h.graph.nodes]
  rcases t.cache.nodes[key]? with _ | node
  · exact h
  · simp only
    split
    · exact ⟨rfl, Graph.agree_dropNode h.graph node.router⟩
    · exact ⟨rfl, h.graph⟩

theorem agree_linked (h : t.Agree kinds t') (link : Link) :
    (t.linked link).Agree kinds (t'.linked link) := by
  unfold linked
  rw [← h.cache]
  exact Graph.agree_link (Graph.agree_withNode (Graph.agree_withNode h.graph _) _) _

theorem agree_addLink (h : t.Agree kinds t') (link : Link) :
    (t.settle (t.addLink link)).Agree kinds (t'.settle (t'.addLink link)) := by
  rw [addLink_eq, addLink_eq]
  simp only [Graph.mem_edges_of_agree h.graph]
  split
  · exact h
  · rcases unpopulatedWeight? link with _ | kind
    · exact ⟨h.cache, agree_linked h link⟩
    · exact h

theorem agree_updateLink (h : t.Agree kinds t') (link : Link) :
    (t.settle (t.updateLink link)).Agree kinds (t'.settle (t'.updateLink link)) := by
  rw [updateLink_eq, updateLink_eq]
  rcases Graph.agree_edge h.graph link.key with
    ⟨hnone, hnone'⟩ | ⟨edge, edge', hedge, hedge', hagree⟩
  · rw [hnone, hnone']
    simp only [settle_map, implies_true]
    exact agree_addLink h link
  · rw [hedge, hedge']
    refine ⟨h.cache, Graph.agree_reweigh h.graph hagree link.key fun kind hkind => ?_⟩
    rw [getElem?_mergeLink, getElem?_mergeLink, hagree.weights kind hkind]

theorem agree_deleteLink (h : t.Agree kinds t') (key : String) :
    (t.settle (t.deleteLink key)).Agree kinds (t'.settle (t'.deleteLink key)) := by
  rw [deleteLink_eq, deleteLink_eq]
  rcases Graph.agree_edge h.graph key with
    ⟨hnone, hnone'⟩ | ⟨edge, edge', hedge, hedge', hagree⟩
  · rw [hnone, hnone']
    exact h
  · rw [hedge, hedge']
    exact ⟨h.cache, Graph.agree_unlink h.graph hagree⟩

end Topology

namespace Sync

variable {kinds : WeightKind → Prop} {s s' s'' : Sync}

theorem agree_refl (s : Sync) : s.Agree kinds s :=
  ⟨rfl, rfl, s.topology.graph.agree_refl⟩

theorem agree_symm (h : s.Agree kinds s') : s'.Agree kinds s :=
  ⟨h.dispatcher.symm, h.topology.cache.symm, Graph.agree_symm h.topology.graph⟩

theorem agree_trans (h : s.Agree kinds s') (h' : s'.Agree kinds s'') : s.Agree kinds s'' :=
  ⟨h.dispatcher.trans h'.dispatcher, h.topology.cache.trans h'.topology.cache,
    Graph.agree_trans h.topology.graph h'.topology.graph⟩

/-! ## One event -/

theorem onTopology_topology (s : Sync) (taken : Bool)
    (change : Topology → Except ReconcileError (Bool × Topology)) :
    (s.onTopology taken change).2 =
      if taken then { s with topology := s.topology.settle (change s.topology) } else s := by
  unfold onTopology
  split
  · rcases change s.topology with e | ⟨changed, t⟩ <;> rfl
  · rfl

theorem agree_onTopology (h : s.Agree kinds s') (taken : Bool)
    {change : Topology → Except ReconcileError (Bool × Topology)}
    (hchange : (s.topology.settle (change s.topology)).Agree kinds
      (s'.topology.settle (change s'.topology))) :
    (s.onTopology taken change).2.Agree kinds (s'.onTopology taken change).2 := by
  rw [onTopology_topology, onTopology_topology]
  split
  · exact ⟨h.dispatcher, hchange⟩
  · exact h

theorem agree_onAnnouncements (h : s.Agree kinds s')
    (change : Announcements → Except ReconcileError Unit × Announcements) :
    (s.onAnnouncements change).2.Agree kinds (s'.onAnnouncements change).2 := by
  unfold onAnnouncements
  rw [← h.dispatcher, ← h.topology.cache]
  rcases s.dispatcher.prefixes with _ | counts
  · exact h
  · exact ⟨rfl, rfl, h.topology.graph⟩

theorem agree_onCache (h : s.Agree kinds s') (taken : Bool) (change : Cache → Cache) :
    (s.onCache taken change).2.Agree kinds (s'.onCache taken change).2 :=
  agree_onTopology h taken ⟨congrArg change h.topology.cache, h.topology.graph⟩

theorem agree_apply (h : s.Agree kinds s') (event : Event) :
    (s.apply event).2.Agree kinds (s'.apply event).2 := by
  have htopology := h.topology
  unfold apply
  rw [← h.dispatcher]
  cases event with
  | addNode node => exact agree_onTopology h _ (Topology.agree_upsertNode htopology node)
  | updateNode node => exact agree_onTopology h _ (Topology.agree_upsertNode htopology node)
  | deleteNode key => exact agree_onTopology h _ (Topology.agree_deleteNode htopology key)
  | addLink link => exact agree_onTopology h _ (Topology.agree_addLink htopology link)
  | updateLink link =>
    apply agree_onTopology h
    simp only [Topology.settle_map, implies_true]
    exact Topology.agree_updateLink htopology link
  | deleteLink key => exact agree_onTopology h _ (Topology.agree_deleteLink htopology key)
  | addPrefix p => exact agree_onAnnouncements h _
  | deletePrefix key => exact agree_onAnnouncements h _
  | addSid sid => exact agree_onCache h _ _
  | deleteSid key => exact agree_onCache h _ _

theorem dispatch_state (s : Sync) (event : Event) :
    (s.dispatch event).2.1 =
      if s.dispatcher.handles event.family then (s.apply event).2 else s := by
  unfold dispatch
  split
  · rcases s.apply event with ⟨_ | _, s'⟩ <;> rfl
  · rfl

theorem dispatcher_onTopology (s : Sync) (taken : Bool)
    (change : Topology → Except ReconcileError (Bool × Topology)) :
    (s.onTopology taken change).2.dispatcher = s.dispatcher := by
  rw [onTopology_topology]
  split <;> rfl

/-- Who takes what is settled from the start. -/
theorem handles_dispatch (s : Sync) (event : Event) (family : Family) :
    (s.dispatch event).2.1.dispatcher.handles family = s.dispatcher.handles family := by
  have hcounts : ∀ change, (s.onAnnouncements change).2.dispatcher.handles family =
      s.dispatcher.handles family := by
    intro change
    unfold onAnnouncements
    rcases hcounts : s.dispatcher.prefixes with _ | counts
    · rfl
    · cases family <;> simp [Dispatcher.handles, hcounts]
  rw [dispatch_state]
  split
  · cases event with
    | addPrefix p => exact hcounts _
    | deletePrefix key => exact hcounts _
    | _ => exact congrArg (·.handles family) (dispatcher_onTopology s _ _)
  · rfl

/-- An event keeps agreement, also one that is refused. -/
theorem agree_dispatch (h : s.Agree kinds s') (event : Event) :
    (s.dispatch event).2.1.Agree kinds (s'.dispatch event).2.1 := by
  rw [dispatch_state, dispatch_state, ← h.dispatcher]
  split
  · exact agree_apply h event
  · exact h

/-! ## Events in turn -/

/-- The state after events, one by one and without a burst. -/
def dispatchAll (s : Sync) (events : List Event) : Sync :=
  events.foldl (fun s event => (s.dispatch event).2.1) s

theorem dispatchAll_append (s : Sync) (events more : List Event) :
    s.dispatchAll (events ++ more) = (s.dispatchAll events).dispatchAll more :=
  List.foldl_append

end Sync

end TopologySync
