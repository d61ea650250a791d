-- The law of tolerance. Records that are added, each once, may come in any
-- order: a link before its routers, a router after its links, the second
-- announcer of a network before the first.
import TopologySync.Fixtures
import TopologySync.Proofs.Presence.Gaps
import TopologySync.Proofs.Reconcile.Refusals
import TopologySync.Proofs.Reconcile.Swaps

open Std

namespace TopologySync

/-! ## Additions -/

namespace Event

/-- The event adds a record. -/
def isAddition : Event → Bool
  | .addNode _ | .addLink _ | .addPrefix _ | .addSid _ => true
  | _ => false

/-- The records of two events differ in their keys, those of nodes also in
their routers and those of segment identifiers also in their slots. -/
def Apart : Event → Event → Prop
  | .addNode node, .addNode node' => node.key ≠ node'.key ∧ node.router ≠ node'.router
  | .addLink link, .addLink link' => link.key ≠ link'.key
  | .addPrefix p, .addPrefix p' => p.key ≠ p'.key
  | .addSid sid, .addSid sid' => sid.key ≠ sid'.key ∧
      ¬(sid.router = sid'.router ∧ sid.algorithm = sid'.algorithm)
  | _, _ => True

/-- Additions of records that are all apart. -/
structure Additions (events : List Event) : Prop where
  additions : ∀ event ∈ events, event.isAddition = true
  apart : events.Pairwise Apart

theorem Apart.symm {event event' : Event} (h : event.Apart event') : event'.Apart event := by
  cases event <;> cases event' <;> try trivial
  · exact ⟨h.1.symm, h.2.symm⟩
  · exact Ne.symm h
  · exact Ne.symm h
  · exact ⟨h.1.symm, fun hslot => h.2 ⟨hslot.1.symm, hslot.2.symm⟩⟩

theorem Additions.perm {events events' : List Event} (h : Additions events)
    (hperm : events.Perm events') : Additions events' where
  additions event hmem := h.additions event (hperm.mem_iff.2 hmem)
  apart := h.apart.perm hperm Apart.symm

theorem Additions.tail {event : Event} {rest : List Event} (h : Additions (event :: rest)) :
    Additions rest where
  additions other hmem := h.additions other (List.mem_cons_of_mem event hmem)
  apart := h.apart.tail

end Event

/-! ## One addition -/

namespace Announcements

/-- Nothing is known of the record that an event adds. -/
def New (a : Announcements) : Event → Prop
  | .addNode node => Topology.NewNode a.cache node
  | .addLink _ => True
  | .addPrefix p => a.cache.prefixes[p.key]? = none
  | .addSid sid => a.cache.sids[sid.key]? = none
  | _ => False

/-- What an addition comes to in the cache and in the counts. -/
def gain (a : Announcements) : Event → Announcements
  | .addNode node => { a with cache := a.cache.storeNode node }
  | .addPrefix p => a.record p
  | .addSid sid => { a with cache := a.cache.storeSid sid }
  | _ => a

end Announcements

/-- What an addition comes to in the graph. -/
def Graph.gain (graph : Graph) (cache : Cache) : Event → Graph
  | .addNode node => graph.describe node
  | .addLink link => Topology.joined cache graph link
  | _ => graph

namespace Announcements

variable {a : Announcements} {event event' : Event}

theorem new_gain (h : a.New event) (h' : a.New event') (hapart : event.Apart event') :
    (a.gain event).New event' := by
  cases event with
  | addNode node =>
    cases event' with
    | addNode node' => exact Topology.newNode_storeNode h h' hapart.1
    | _ => exact h'
  | addLink link => exact h'
  | addPrefix p =>
    obtain ⟨slots, hcache⟩ := a.record_cache p
    cases event' with
    | addPrefix p' =>
      have hother : (a.cache.prefixes.insert p.key p)[p'.key]? = a.cache.prefixes[p'.key]? := by
        simp [ExtTreeMap.getElem?_insert, show p.key ≠ p'.key from hapart]
      simp only [New, gain, hcache, hother]
      exact h'
    | addNode node | addSid sid =>
      simp only [New, gain, hcache]
      exact h'
    | _ => exact h'
  | addSid sid =>
    cases event' with
    | addSid sid' => exact Topology.newSid_storeSid h' hapart.1
    | _ => exact h'
  | _ => exact h.elim

theorem record_storeNode (a : Announcements) (p : Prefix) (node : Node) :
    record { a with cache := a.cache.storeNode node } p =
      { a.record p with cache := (a.record p).cache.storeNode node } := by
  unfold record
  split
  · rfl
  · dsimp only
    split <;> rfl

theorem record_storeSid (a : Announcements) (p : Prefix) (sid : Sid) :
    record { a with cache := a.cache.storeSid sid } p =
      { a.record p with cache := (a.record p).cache.storeSid sid } := by
  unfold record
  split
  · rfl
  · dsimp only
    split <;> rfl

theorem gain_comm (h : a.New event) (h' : a.New event') (hapart : event.Apart event') :
    (a.gain event).gain event' = (a.gain event').gain event := by
  cases event with
  | addNode node =>
    cases event' with
    | addNode node' =>
      exact congrArg (fun cache => { a with cache })
        (Topology.storeNode_comm h h' hapart.1 hapart.2)
    | addPrefix p => exact a.record_storeNode p node
    | _ => rfl
  | addLink link => cases event' <;> rfl
  | addPrefix p =>
    cases event' with
    | addNode node => exact (a.record_storeNode p node).symm
    | addPrefix p' => exact record_comm h h' hapart
    | addSid sid => exact (a.record_storeSid p sid).symm
    | _ => rfl
  | addSid sid =>
    cases event' with
    | addPrefix p => exact a.record_storeSid p sid
    | addSid sid' =>
      exact congrArg (fun cache => { a with cache })
        (Topology.storeSid_comm h h' hapart.1 hapart.2)
    | _ => rfl
  | _ => exact h.elim

theorem joined_record (a : Announcements) (p : Prefix) (graph : Graph) (link : Link) :
    Topology.joined (a.record p).cache graph link = Topology.joined a.cache graph link := by
  obtain ⟨slots, hcache⟩ := a.record_cache p
  rw [hcache]
  rfl

theorem graph_gain_comm (h : a.New event) (h' : a.New event') (hapart : event.Apart event')
    (graph : Graph) :
    (graph.gain a.cache event).gain (a.gain event).cache event' =
      (graph.gain a.cache event').gain (a.gain event').cache event := by
  cases event with
  | addNode node =>
    cases event' with
    | addNode node' => exact Topology.describe_comm graph hapart.2
    | addLink link => exact (Topology.describe_joined h graph link).symm
    | _ => rfl
  | addLink link =>
    cases event' with
    | addNode node => exact Topology.describe_joined h' graph link
    | addLink link' => exact Topology.joined_comm a.cache graph hapart
    | addPrefix p => exact (a.joined_record p graph link).symm
    | _ => rfl
  | addPrefix p =>
    cases event' with
    | addLink link => exact a.joined_record p graph link
    | _ => rfl
  | addSid sid => cases event' <;> rfl
  | _ => exact h.elim

end Announcements

namespace Sync

variable {a : Announcements} {event : Event}

theorem dispatch_new (h : a.New event) (graph : Graph) :
    ((full a graph).dispatch event).2.1 = full (a.gain event) (graph.gain a.cache event) := by
  have hhandles : (full a graph).dispatcher.handles event.family = true := by
    cases event.family <;> rfl
  rw [dispatch_state, if_pos hhandles]
  cases event with
  | addNode node =>
    rw [apply, onTopology_topology, Topology.upsertNode_eq]
    rfl
  | addLink link =>
    rw [apply, onTopology_topology]
    simp only [full, Topology.settle_addLink]
    rfl
  | addPrefix p =>
    have hadd : a.add p = (.ok (), a.record p) := by
      rw [Announcements.add, show a.cache.prefixes[p.key]? = none from h]
    simp only [apply, onAnnouncements, full, hadd]
    rfl
  | addSid sid => rfl
  | _ => exact h.elim

/-! ## Additions in turn -/

theorem dispatchAll_perm {events events' : List Event} (hperm : events.Perm events')
    (h : Event.Additions events) {a : Announcements} (hnew : ∀ event ∈ events, a.New event)
    (graph : Graph) :
    (full a graph).dispatchAll events = (full a graph).dispatchAll events' := by
  induction hperm generalizing a graph with
  | nil => rfl
  | @cons event rest rest' hperm ih =>
    have hfirst := hnew event List.mem_cons_self
    have hrest : ∀ other ∈ rest, (a.gain event).New other := fun other hmem =>
      Announcements.new_gain hfirst (hnew other (List.mem_cons_of_mem event hmem))
        (List.rel_of_pairwise_cons h.apart hmem)
    simp only [dispatchAll, List.foldl_cons, dispatch_new hfirst]
    exact ih h.tail hrest _
  | swap event event' rest =>
    have hlast := hnew event (List.mem_cons_of_mem event' List.mem_cons_self)
    have hfirst := hnew event' List.mem_cons_self
    have hapart : Event.Apart event' event := List.rel_of_pairwise_cons h.apart List.mem_cons_self
    have hlast' := Announcements.new_gain hfirst hlast hapart
    have hfirst' := Announcements.new_gain hlast hfirst hapart.symm
    simp only [dispatchAll, List.foldl_cons, dispatch_new hfirst, dispatch_new hlast,
      dispatch_new hlast', dispatch_new hfirst', Announcements.gain_comm hfirst hlast hapart,
      Announcements.graph_gain_comm hfirst hlast hapart]
  | @trans events between events' hperm hperm' ih ih' =>
    have hbetween : ∀ event ∈ between, a.New event := fun event hmem =>
      hnew event (hperm.mem_iff.2 hmem)
    rw [ih h hnew graph, ih' (h.perm hperm) hbetween graph]

variable {events events' : List Event}

theorem new_empty (h : Event.Additions events) : ∀ event ∈ events, Announcements.New {} event := by
  intro event hmem
  have haddition := h.additions event hmem
  cases event with
  | addNode node => exact ⟨rfl, fun router => by simp [Cache.empty]⟩
  | addLink link => trivial
  | addPrefix p => rfl
  | addSid sid => rfl
  | _ => cases haddition

/-- Additions of records that are apart come to the same in any order: the same
cache, the same counts, the same graph, and the same subgraphs with a rebuild. -/
theorem additions_may_come_in_any_order (h : Event.Additions events)
    (hperm : events.Perm events') :
    let s := reached events
    let s' := reached events'
    s.topology.cache = s'.topology.cache ∧ s.dispatcher = s'.dispatcher ∧
      s.topology.graph = s'.topology.graph ∧
      s.topology.graph.rebuild.subGraphs = s'.topology.graph.rebuild.subGraphs := by
  intro s s'
  have hsame : s = s' := dispatchAll_perm hperm h (new_empty h) .empty
  rw [hsame]
  exact ⟨rfl, rfl, rfl, rfl⟩

/-- Links before their routers, a refused link among them, and a network with
two announcers: the other way round it all comes to the same. -/
theorem links_may_come_before_their_routers :
    let networked := fun key router =>
      Event.addPrefix { key, router, address := "n::", length := 64 }
    let unmeasured := { Fixtures.link "l13" "r1" "r3" with delay := 0 }
    let events := [.addLink (Fixtures.link "l12" "r1" "r2"), .addLink unmeasured,
      .addNode (Fixtures.node "r1"), networked "p1" "r1", .addSid (Fixtures.sid "s1" "r1" "a"),
      networked "p2" "r2", .addNode (Fixtures.node "r2"), .addSid (Fixtures.sid "s2" "r2" "b")]
    let s := reached events.reverse
    (reached events).topology.graph = s.topology.graph ∧
      s.topology.graph.nodes.keys = ["r1", "r2"] ∧ s.topology.graph.edges.keys = ["l12"] ∧
      s.topology.cache.clientNetworks = ∅ := by
  intro networked unmeasured events s
  have hadditions : Event.Additions events := by
    refine ⟨by decide, ?_⟩
    simp [events, networked, unmeasured, Event.Apart, Fixtures.link, Fixtures.node, Fixtures.sid]
  have hsame := additions_may_come_in_any_order hadditions events.reverse_perm.symm
  exact ⟨hsame.2.2.1, by decide +kernel, by decide +kernel, by decide +kernel⟩

/-! ## What any order comes to -/

theorem perm_snoc {event : Event} (hmem : event ∈ events) :
    events.Perm (events.erase event ++ [event]) :=
  (List.perm_cons_erase hmem).trans (List.perm_append_singleton event (events.erase event)).symm

/-- An addition may as well be the last one. -/
theorem reached_last (h : Event.Additions events) {event : Event} (hmem : event ∈ events) :
    reached events = ((reached (events.erase event)).dispatch event).2.1 := by
  rw [← reached_snoc]
  exact dispatchAll_perm (perm_snoc hmem) h (new_empty h) .empty

theorem full_reached (events : List Event) : (reached events).Full :=
  List.foldlRecOn events _ full_new (fun _ h event _ => h.dispatch event)

/-- Every router is in the graph as its record describes it, also if a link
named it first. -/
theorem a_reported_router_is_described (h : Event.Additions events) {node : Node}
    (hmem : .addNode node ∈ events) :
    (reached events).topology.graph.nodes[node.router]? = some (Topology.graphNodeOf node) := by
  have hfull := full_reached (events.erase (.addNode node))
  have hnodes : (reached (events.erase (.addNode node))).dispatcher.nodes = true :=
    hfull.handles .node
  rw [reached_last h hmem, dispatch_state, if_pos (hfull.handles _), apply, onTopology_topology,
    if_pos hnodes, Topology.upsertNode_eq]
  simp only [Topology.settle]
  rw [Topology.getElem?_describe (keyed_reached _), if_pos rfl]

/-- A link that lacks telemetry leaves no trace. -/
theorem a_refused_link_leaves_no_trace (h : Event.Additions events) {link : Link}
    (hmem : .addLink link ∈ events) (hzero : link.zeroWeight? ≠ none) :
    reached events = reached (events.erase (.addLink link)) := by
  have hfull := full_reached (events.erase (.addLink link))
  have hlinks : (reached (events.erase (.addLink link))).dispatcher.links = true :=
    hfull.handles .link
  rw [reached_last h hmem, dispatch_state, if_pos (hfull.handles _), apply, onTopology_topology,
    if_pos hlinks, Topology.settle_addLink, Topology.joined, Topology.unpopulatedWeight?_eq,
    if_pos (Or.inr hzero)]

theorem prefixes_reached (h : Event.Additions events) {p : Prefix}
    (hmem : .addPrefix p ∈ events) :
    (reached events).topology.cache.prefixes[p.key]? = some p := by
  have hfull := full_reached (events.erase (.addPrefix p))
  rw [reached_last h hmem, dispatch_state, if_pos (hfull.handles _)]
  generalize reached (events.erase (.addPrefix p)) = s at hfull ⊢
  obtain @⟨a, hexact, graph⟩ := hfull
  have hadd : (a.add p).2.cache.prefixes = a.cache.prefixes.insert p.key p :=
    Announcements.apply_prefixes hexact (.add p)
  have hcache : ((full a graph).apply (.addPrefix p)).2.topology.cache = (a.add p).2.cache := rfl
  rw [hcache, hadd, ExtTreeMap.getElem?_insert_self]

/-- A network with two announcers is no client network, whichever came first. -/
theorem a_network_of_two_is_no_client_network (h : Event.Additions events) {p p' : Prefix}
    (hmem : .addPrefix p ∈ events) (hmem' : .addPrefix p' ∈ events) (hother : p ≠ p')
    (hhost : p.isHostRoute = false) (hnetwork : p'.network = p.network) :
    (reached events).topology.cache.clientNetworks[p.network]? = none := by
  have hfull := full_reached events
  have hknown := prefixes_reached h hmem
  have hknown' := prefixes_reached h hmem'
  generalize reached events = s at hfull hknown hknown' ⊢
  obtain @⟨a, hexact, graph⟩ := hfull
  rw [Option.eq_none_iff_forall_ne_some]
  intro holder hheld
  have hone := ((hexact.good p.network).held holder hheld).2
  have hspeaks : p.announces p.network = true := by simp [Prefix.announces, hhost]
  have hspeaks' : p'.announces p.network = true := by
    rwa [Prefix.announces_of_network hnetwork]
  have hkeys : p.key = p'.key := Maps.eq_of_mem_of_size_eq_one hone
    ((Announced.mem_announcers_of_known hknown _).2 hspeaks)
    ((Announced.mem_announcers_of_known hknown' _).2 hspeaks')
  rw [hkeys, hknown'] at hknown
  exact hother (Option.some.inj hknown).symm

end Sync

end TopologySync
