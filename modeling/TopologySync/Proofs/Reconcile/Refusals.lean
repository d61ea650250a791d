-- What is refused, and why. Whatever a full dispatcher was asked before, an
-- event is refused for one of two reasons, which can be told beforehand, and
-- a refused event leaves nothing behind.
import TopologySync.Fixtures
import TopologySync.Proofs.Announcements.Counts
import TopologySync.Proofs.Reconcile.InPlace
import TopologySync.Proofs.Reconcile.Notice

open Std

namespace TopologySync

/-! ## Announcements under other records -/

/-- The same announcements, and the same client networks. -/
def Cache.SameAnnouncements (cache cache' : Cache) : Prop :=
  cache'.prefixes = cache.prefixes ∧ cache'.clientNetworks = cache.clientNetworks

theorem Announcements.Exact.of_same {a : Announcements} {cache : Cache} (h : a.Exact)
    (hsame : a.cache.SameAnnouncements cache) : Exact { a with cache } := by
  obtain ⟨hprefixes, hslots⟩ := hsame
  refine ⟨fun key p hp => h.keyed key p ?_, fun network => ?_⟩
  · rw [← hprefixes]
    exact hp
  · have hstanding : standing { a with cache } network = a.standing network := by
      simp only [standing, hprefixes, hslots]
    rw [hstanding]
    exact h.good network

theorem Cache.sameAnnouncements_removeNode (cache : Cache) (key : String) :
    cache.SameAnnouncements (cache.removeNode key).2 := by
  unfold removeNode
  split <;> exact ⟨rfl, rfl⟩

theorem Cache.sameAnnouncements_removeSid (cache : Cache) (key : String) :
    cache.SameAnnouncements (cache.removeSid key).2 := by
  unfold removeSid
  split <;> exact ⟨rfl, rfl⟩

/-! ## Nodes and links leave them alone -/

namespace Topology

theorem sameAnnouncements_upsertNodes (t : Topology) (nodes : List Node) :
    t.cache.SameAnnouncements (t.upsertNodes nodes).2.1.cache := by
  induction nodes generalizing t with
  | nil => exact ⟨rfl, rfl⟩
  | cons node rest ih =>
    unfold upsertNodes
    rw [upsertNode_eq]
    exact ih _

theorem cache_addLink (t : Topology) (link : Link) :
    (t.settle (t.addLink link)).cache = t.cache := by
  rw [addLink_eq]
  split
  · rfl
  · split <;> rfl

theorem cache_updateLink (t : Topology) (link : Link) :
    (t.settle (t.updateLink link)).cache = t.cache := by
  rw [updateLink_eq]
  split
  · simp only [settle_map, implies_true]
    exact t.cache_addLink link
  · rfl

theorem cache_addLinks (t : Topology) (links : List Link) :
    (t.addLinks links).2.1.cache = t.cache := by
  induction links generalizing t with
  | nil => rfl
  | cons link rest ih =>
    have hadd := t.cache_addLink link
    unfold addLinks
    rcases hmade : t.addLink link with e | ⟨changed, t'⟩
    · exact ih t
    · rw [hmade] at hadd
      exact (ih t').trans hadd

end Topology

/-! ## Full dispatchers -/

namespace Sync

/-- A dispatcher that takes every family, with what it keeps. -/
def full (a : Announcements) (graph : Graph) : Sync where
  dispatcher := { prefixes := some a.counts }
  topology := { cache := a.cache, graph }

/-- Every family is taken, and the announcements are counted exactly. -/
inductive Full : Sync → Prop where
  | intro {a : Announcements} (h : a.Exact) (graph : Graph) : Full (full a graph)

variable {s : Sync}

theorem full_new : Full {} :=
  .intro Announcements.exact_new .empty

theorem Full.handles (h : s.Full) (family : Family) : s.dispatcher.handles family = true := by
  obtain ⟨hexact, graph⟩ := h
  cases family <;> rfl

theorem Full.with_topology (h : s.Full) {t : Topology}
    (hsame : s.topology.cache.SameAnnouncements t.cache) : Full { s with topology := t } := by
  obtain ⟨hexact, graph⟩ := h
  exact .intro (hexact.of_same hsame) t.graph

theorem Full.onTopology (h : s.Full) (taken : Bool)
    {change : Topology → Except ReconcileError (Bool × Topology)}
    (hsame : s.topology.cache.SameAnnouncements
      (s.topology.settle (change s.topology)).cache) :
    (s.onTopology taken change).2.Full := by
  rw [onTopology_topology]
  split
  · exact h.with_topology hsame
  · exact h

theorem Full.apply (h : s.Full) (event : Event) : (s.apply event).2.Full := by
  cases event with
  | addNode node | updateNode node =>
    apply h.onTopology
    rw [Topology.upsertNode_eq]
    exact ⟨rfl, rfl⟩
  | deleteNode key =>
    apply h.onTopology
    rw [Topology.deleteNode_eq]
    split
    · exact ⟨rfl, rfl⟩
    · dsimp only
      split <;> exact s.topology.cache.sameAnnouncements_removeNode key
  | addLink link =>
    apply h.onTopology
    rw [Topology.cache_addLink]
    exact ⟨rfl, rfl⟩
  | updateLink link =>
    apply h.onTopology
    simp only [Topology.settle_map, implies_true, Topology.cache_updateLink]
    exact ⟨rfl, rfl⟩
  | deleteLink key =>
    apply h.onTopology
    rw [Topology.deleteLink_eq]
    split <;> exact ⟨rfl, rfl⟩
  | addPrefix p =>
    obtain ⟨hexact, graph⟩ := h
    exact .intro (Announcements.exact_apply hexact (.add p)) graph
  | deletePrefix key =>
    obtain ⟨hexact, graph⟩ := h
    exact .intro (Announcements.exact_apply hexact (.delete key)) graph
  | addSid sid => exact h.onTopology _ ⟨rfl, rfl⟩
  | deleteSid key => exact h.onTopology _ (s.topology.cache.sameAnnouncements_removeSid key)

theorem Full.dispatch (h : s.Full) (event : Event) : (s.dispatch event).2.1.Full := by
  rw [dispatch_state, if_pos (h.handles event.family)]
  exact h.apply event

theorem Full.loadNodes (h : s.Full) (nodes : List Node) : (s.loadNodes nodes).2.1.Full := by
  unfold Sync.loadNodes
  split
  · exact h.with_topology (s.topology.sameAnnouncements_upsertNodes nodes)
  · exact h

theorem Full.loadLinks (h : s.Full) (links : List Link) : (s.loadLinks links).2.1.Full := by
  apply h.with_topology
  dsimp only [Topology.loadLinks]
  rw [Topology.cache_addLinks]
  exact ⟨rfl, rfl⟩

theorem Full.loadPrefixes (h : s.Full) (prefixes : List Prefix) :
    (s.loadPrefixes prefixes).2.1.Full := by
  obtain @⟨a, hexact, graph⟩ := h
  have hload := a.perform_eq (.load prefixes)
  have hloaded := Announcements.exact_applyAll hexact (Announcements.Call.load prefixes).changes
  rw [← hload] at hloaded
  exact .intro hloaded graph

theorem Full.loadSids (h : s.Full) (sids : List Sid) : (s.loadSids sids).2.Full := by
  have hsame : s.topology.cache.SameAnnouncements (sids.foldl Cache.storeSid s.topology.cache) :=
    List.foldlRecOn sids _ ⟨rfl, rfl⟩ (fun _ hcache _ _ => hcache)
  unfold Sync.loadSids
  split
  · exact h.with_topology hsame
  · exact h

theorem Full.applySnapshot (h : s.Full) (snapshot : Snapshot) :
    (s.applySnapshot snapshot).2.1.Full :=
  (((h.loadNodes snapshot.nodes).loadLinks snapshot.links).loadPrefixes
    snapshot.prefixes).loadSids snapshot.sids

/-- Whatever a full dispatcher is asked, it stays one, and counts exactly. -/
theorem full_serveAll (requests : List Request) : (serveAll {} requests).Full := by
  refine List.foldlRecOn requests serve full_new (fun s h request _ => ?_)
  cases request with
  | event event => exact h.dispatch event
  | snapshot snapshot => exact h.applySnapshot snapshot

end Sync

/-! ## Why an event is refused -/

/-- The first raw weight of a link that is zero, in canonical order. -/
def Link.zeroWeight? (link : Link) : Option WeightKind :=
  WeightKind.all.find? (fun kind => !kind.isNormalized && link.weight kind == 0.0)

namespace Topology

variable {t : Topology} {link : Link} {e : ReconcileError}

/-- Why a link is refused, if it is. A link that has an edge never is. -/
def linkFault? (t : Topology) (link : Link) : Option ReconcileError :=
  if link.key ∈ t.graph.edges then none else link.zeroWeight?.map (.zeroWeight link.key)

theorem unpopulatedWeight?_eq (link : Link) : unpopulatedWeight? link = link.zeroWeight? := by
  unfold unpopulatedWeight? Link.zeroWeight? Link.weights
  rw [List.find?_map, Option.map_map]
  exact Option.map_id'

theorem addLink_of_fault (h : t.linkFault? link = some e) : t.addLink link = .error e := by
  unfold linkFault? at h
  split at h
  · cases h
  · rename_i hnew
    obtain ⟨kind, hkind, rfl⟩ := Option.map_eq_some_iff.1 h
    rw [addLink_eq, if_neg hnew, unpopulatedWeight?_eq, hkind]

theorem updateLink_of_fault (h : t.linkFault? link = some e) : t.updateLink link = .error e := by
  have hnew : t.graph.edges[link.key]? = none := by
    apply ExtTreeMap.getElem?_eq_none
    intro hmem
    simp [linkFault?, hmem] at h
  rw [updateLink_eq, hnew, addLink_of_fault h]
  rfl

theorem addLink_of_sound (h : t.linkFault? link = none) :
    ∃ changed t', t.addLink link = .ok (changed, t') := by
  rw [addLink_eq]
  unfold linkFault? at h
  split
  · exact ⟨false, t, rfl⟩
  · rename_i hnew
    rw [if_neg hnew, Option.map_eq_none_iff] at h
    rw [unpopulatedWeight?_eq, h]
    exact ⟨true, _, rfl⟩

theorem updateLink_of_sound (h : t.linkFault? link = none) :
    ∃ update t', t.updateLink link = .ok (update, t') := by
  rw [updateLink_eq]
  split
  · obtain ⟨changed, t', hadd⟩ := addLink_of_sound h
    rw [hadd]
    exact ⟨_, _, rfl⟩
  · exact ⟨_, _, rfl⟩

end Topology

namespace Sync

/-- Why an event is refused, if it is: a link without an edge has a raw weight
of zero, or an announcement to withdraw is unknown. -/
def fault? (s : Sync) : Event → Option ReconcileError
  | .addLink link | .updateLink link => s.topology.linkFault? link
  | .deletePrefix key =>
    if key ∈ s.topology.cache.prefixes then none else some (.unknownPrefix key)
  | _ => none

variable {s : Sync}

theorem onTopology_of_error {change : Topology → Except ReconcileError (Bool × Topology)}
    {e : ReconcileError} (h : change s.topology = .error e) {taken : Bool} (htaken : taken = true) :
    s.onTopology taken change = (.error e, s) := by
  simp [onTopology, h, htaken]

theorem onTopology_of_ok {change : Topology → Except ReconcileError (Bool × Topology)}
    (h : ∃ changed t, change s.topology = .ok (changed, t)) (taken : Bool) :
    ∃ changed, (s.onTopology taken change).1 = .ok changed := by
  obtain ⟨changed, t, hchange⟩ := h
  unfold onTopology
  rw [hchange]
  split <;> exact ⟨_, rfl⟩

/-- What is refused leaves everything as it was. -/
theorem Full.apply_of_fault (h : s.Full) {event : Event} {e : ReconcileError}
    (hfault : s.fault? event = some e) : s.apply event = (.error e, s) := by
  unfold Sync.apply
  cases event with
  | addLink link => exact onTopology_of_error (Topology.addLink_of_fault hfault) (h.handles .link)
  | updateLink link =>
    refine onTopology_of_error ?_ (h.handles .link)
    rw [Topology.updateLink_of_fault hfault]
    rfl
  | deletePrefix key =>
    obtain @⟨a, hexact, graph⟩ := h
    simp only [fault?] at hfault
    split at hfault
    · cases hfault
    · rename_i hunknown
      cases hfault
      have hdelete : a.delete key = (.error (.unknownPrefix key), a) :=
        Announcements.delete_unknown (ExtTreeMap.getElem?_eq_none hunknown)
      simp only [onAnnouncements, full, hdelete]
      rfl
  | _ => cases hfault

/-- What is not to be refused is not. -/
theorem Full.apply_of_sound (h : s.Full) {event : Event} (hfault : s.fault? event = none) :
    ∃ changed, (s.apply event).1 = .ok changed := by
  unfold Sync.apply
  cases event with
  | addNode node | updateNode node =>
    exact onTopology_of_ok ⟨_, _, Topology.upsertNode_eq _ node⟩ _
  | deleteNode key =>
    refine onTopology_of_ok ?_ _
    rw [Topology.deleteNode_eq]
    split
    · exact ⟨_, _, rfl⟩
    · dsimp only
      split <;> exact ⟨_, _, rfl⟩
  | addLink link => exact onTopology_of_ok (Topology.addLink_of_sound hfault) _
  | updateLink link =>
    obtain ⟨update, t, hupdate⟩ := Topology.updateLink_of_sound hfault
    exact onTopology_of_ok ⟨_, _, by rw [hupdate]; rfl⟩ _
  | deleteLink key =>
    refine onTopology_of_ok ?_ _
    rw [Topology.deleteLink_eq]
    split <;> exact ⟨_, _, rfl⟩
  | addPrefix p =>
    obtain @⟨a, hexact, graph⟩ := h
    have hadd : (a.add p).1 = .ok () := by rw [Announcements.add_eq hexact]
    simp only [onAnnouncements, full, hadd]
    exact ⟨false, rfl⟩
  | deletePrefix key =>
    obtain @⟨a, hexact, graph⟩ := h
    simp only [fault?] at hfault
    split at hfault
    · rename_i hknown
      obtain ⟨known, hknown⟩ := Maps.mem_iff_exists.1 hknown
      have hdelete : (a.delete key).1 = .ok () := (Announcements.delete_known hexact hknown).1
      simp only [onAnnouncements, full, hdelete]
      exact ⟨false, rfl⟩
    · cases hfault
  | addSid sid => exact onTopology_of_ok ⟨_, _, rfl⟩ _
  | deleteSid key => exact onTopology_of_ok ⟨_, _, rfl⟩ _

/-- An event is refused for one of two reasons, and under its own key. -/
theorem fault?_eq_some {event : Event} {e : ReconcileError} (h : s.fault? event = some e) :
    (∃ kind, e = .zeroWeight event.key kind) ∨ e = .unknownPrefix event.key := by
  cases event with
  | addLink link | updateLink link =>
    simp only [fault?, Topology.linkFault?] at h
    split at h
    · cases h
    · obtain ⟨kind, -, rfl⟩ := Option.map_eq_some_iff.1 h
      exact Or.inl ⟨kind, rfl⟩
  | deletePrefix key =>
    simp only [fault?] at h
    split at h
    · cases h
    · cases h
      exact Or.inr rfl
  | _ => cases h

/-- Whatever was asked before, an event is refused for one of two reasons, and
whenever there is one of them. A refused event leaves everything as it was, also
if its writes are made one by one. -/
theorem an_event_is_refused_for_two_reasons_only (requests : List Request) (event : Event) :
    let s := serveAll {} requests
    (∀ e, (s.apply event).1 = .error e ↔ s.fault? event = some e) ∧
      (∀ e, (s.apply event).1 = .error e →
        ((∃ kind, e = .zeroWeight event.key kind) ∨ e = .unknownPrefix event.key) ∧
          s.applyInPlace event = (.error e, s) ∧
          s.dispatch event = (false, s, [.event event.kind event.key e])) ∧
      s.applyInPlace event = s.apply event := by
  intro s
  have hfull : s.Full := full_serveAll requests
  have hkeyed : s.topology.graph.Keyed := serveAll_keyed Graph.keyed_empty requests
  have hfault : ∀ e, (s.apply event).1 = .error e ↔ s.fault? event = some e := by
    intro e
    constructor
    · intro hrefused
      rcases hnone : s.fault? event with _ | e'
      · obtain ⟨changed, hsound⟩ := hfull.apply_of_sound hnone
        rw [hsound] at hrefused
        cases hrefused
      · rw [hfull.apply_of_fault hnone] at hrefused
        cases hrefused
        rfl
    · intro hsome
      rw [hfull.apply_of_fault hsome]
  refine ⟨hfault, fun e hrefused => ?_, applyInPlace_eq hkeyed event⟩
  have hsome := (hfault e).1 hrefused
  have happly := hfull.apply_of_fault hsome
  refine ⟨fault?_eq_some hsome, by rw [applyInPlace_eq hkeyed, happly], ?_⟩
  simp only [dispatch, hfull.handles event.family, if_true, happly]

/-- A loop that lacks its delay is refused, and its router does not get into
the graph. With its edge there, the same telemetry is taken. -/
theorem a_refused_loop_leaves_no_placeholder :
    let link := { Fixtures.link "l" "r1" "r1" with delay := 0 }
    let s := serveAll {} [.snapshot { nodes := [Fixtures.node "r2"] }]
    let taken := serveAll {} [.event (.addLink (Fixtures.link "l" "r1" "r1"))]
    s.applyInPlace (.updateLink link) = (.error (.zeroWeight "l" .delay), s) ∧
      "r1" ∉ s.topology.graph.nodes ∧ ∀ e, (taken.apply (.updateLink link)).1 ≠ .error e := by
  intro link s taken
  have hlaw := fun requests => an_event_is_refused_for_two_reasons_only requests (.updateLink link)
  have hrefused : (s.apply (.updateLink link)).1 = .error (.zeroWeight "l" .delay) :=
    ((hlaw [.snapshot { nodes := [Fixtures.node "r2"] }]).1 _).2 (by decide +kernel)
  refine ⟨((hlaw _).2.1 _ hrefused).2.1, by decide +kernel, fun e he => ?_⟩
  have hfault := ((hlaw [.event (.addLink (Fixtures.link "l" "r1" "r1"))]).1 e).1 he
  have hnone : taken.fault? (.updateLink link) = none := by decide +kernel
  rw [hnone] at hfault
  cases hfault

end Sync

end TopologySync
