-- Feeds that do not meet. Nodes and links are one feed, announcements and
-- segment identifiers are two more, and each of them reads and writes a part
-- of the state of its own. What one feed leaves there is for no other to see.
import Mathlib.Logic.Function.Basic
import TopologySync.Fixtures
import TopologySync.Proofs.Reconcile.Agreement

open Std

namespace TopologySync

/-! ## Feeds -/

/-- What an event reports on. A link names its routers, so links and nodes
come in one feed. -/
inductive Feed where
  | network
  | announcements
  | sids
deriving DecidableEq

def Event.feed (event : Event) : Feed :=
  match event.family with
  | .node | .link => .network
  | .announcement => .announcements
  | .sid => .sids

/-- The feeds merged into one list: each event of it is the next one of its feed. -/
inductive Merge : (Feed → List Event) → List Event → Prop
  | nil : Merge (fun _ => []) []
  | cons {feeds : Feed → List Event} {event : Event} {rest events : List Event}
      (hnext : feeds event.feed = event :: rest)
      (hrest : Merge (Function.update feeds event.feed rest) events) :
      Merge feeds (event :: events)

/-- What was merged comes apart again, feed by feed. -/
theorem merge_iff {feeds : Feed → List Event} {events : List Event} :
    Merge feeds events ↔ ∀ feed, events.filter (·.feed = feed) = feeds feed := by
  induction events generalizing feeds with
  | nil =>
    constructor
    · rintro ⟨⟩ feed
      rfl
    · intro h
      have hnone : feeds = fun _ => [] := funext fun feed => (h feed).symm
      rw [hnone]
      exact .nil
  | cons event events ih =>
    constructor
    · rintro (_ | ⟨hnext, hrest⟩) feed
      have hleft := ih.1 hrest feed
      by_cases hfeed : event.feed = feed
      · subst hfeed
        rw [Function.update_self] at hleft
        simp [hleft, hnext]
      · rw [Function.update_of_ne (Ne.symm hfeed)] at hleft
        simp [hleft, hfeed]
    · intro h
      have hnext : feeds event.feed = event :: events.filter (·.feed = event.feed) := by
        simpa using (h event.feed).symm
      refine .cons hnext (ih.2 fun feed => ?_)
      by_cases hfeed : event.feed = feed
      · subst hfeed
        rw [Function.update_self]
      · rw [Function.update_of_ne (Ne.symm hfeed), ← h feed]
        simp [hfeed]

/-! ## Parts of the cache -/

namespace Cache

/-- The cache, but with the announcements of another one. -/
def withAnnouncements (cache other : Cache) : Cache :=
  { cache with prefixes := other.prefixes, clientNetworks := other.clientNetworks }

/-- The cache, but with the segment identifiers of another one. -/
def withSids (cache other : Cache) : Cache :=
  { cache with sids := other.sids, sidSlots := other.sidSlots }

/-- The cache, but with the nodes of another one. -/
def withNodes (cache other : Cache) : Cache :=
  { cache with nodes := other.nodes, nodeSlots := other.nodeSlots }

variable (cache other : Cache)

theorem storeSid_withSids (sid : Sid) :
    (cache.withSids other).storeSid sid = cache.withSids (other.storeSid sid) :=
  rfl

theorem removeSid_withSids (key : String) :
    ((cache.withSids other).removeSid key).2 = cache.withSids (other.removeSid key).2 := by
  simp only [removeSid, withSids]
  rcases other.sids[key]? with _ | sid <;> rfl

theorem removePrefix_withAnnouncements (key : String) :
    (cache.withAnnouncements other).removePrefix key =
      ((other.removePrefix key).1, cache.withAnnouncements (other.removePrefix key).2) := by
  simp only [removePrefix, withAnnouncements]
  rcases other.prefixes[key]? with _ | p <;> rfl

theorem removeNode_withNodes (key : String) :
    ((cache.withNodes other).removeNode key).2 = cache.withNodes (other.removeNode key).2 := by
  simp only [removeNode, withNodes]
  rcases other.nodes[key]? with _ | node <;> rfl

end Cache

/-! ## Announcements -/

namespace Announcements

/-- The announcements with their counts, in the cache of another. -/
def within (a : Announcements) (cache : Cache) : Announcements :=
  { a with cache := cache.withAnnouncements a.cache }

variable (a : Announcements) (cache : Cache)

theorem record_within (p : Prefix) : (a.within cache).record p = (a.record p).within cache := by
  by_cases hhost : p.isHostRoute = true
  · simp only [record, hhost, if_true]
    rfl
  · by_cases hfirst : a.counts.count p.network + 1 = 1
    · simp only [record, within, hhost, hfirst, if_true]
      rfl
    · simp only [record, within, hhost, hfirst, if_false]
      rfl

theorem refresh_within (p : Prefix) :
    (a.within cache).refresh p = (a.refresh p).within cache := by
  have hholder : (a.within cache).cache.clientNetwork? p.network =
      a.cache.clientNetwork? p.network := rfl
  simp only [refresh, hholder]
  split <;> rfl

theorem uncount_within (key network : String) :
    (a.within cache).uncount key network =
      ((a.uncount key network).1, (a.uncount key network).2.within cache) := by
  simp only [uncount, within]
  rcases a.counts[network]? with _ | count
  · rfl
  · dsimp only
    split <;> rfl

theorem delete_within (key : String) :
    (a.within cache).delete key = ((a.delete key).1, (a.delete key).2.within cache) := by
  have hremoved : (a.within cache).cache.removePrefix key =
      ((a.cache.removePrefix key).1, cache.withAnnouncements (a.cache.removePrefix key).2) :=
    cache.removePrefix_withAnnouncements a.cache key
  simp only [delete, hremoved]
  rcases a.cache.removePrefix key with ⟨_ | p, left⟩
  · rfl
  · dsimp only
    split
    · rfl
    · exact uncount_within { a with cache := left } cache key p.network

theorem add_within (p : Prefix) :
    (a.within cache).add p = ((a.add p).1, (a.add p).2.within cache) := by
  have hknown : (a.within cache).cache.prefixes[p.key]? = a.cache.prefixes[p.key]? := rfl
  simp only [add, hknown, delete_within, record_within, refresh_within]
  rcases a.cache.prefixes[p.key]? with _ | known
  · rfl
  · dsimp only
    split
    · rfl
    · rcases a.delete p.key with ⟨_ | _, left⟩
      · rfl
      · simp only [record_within]

end Announcements

/-! ## The network -/

namespace Topology

/-- The topology, but with the nodes and the graph of another one. -/
def withNetwork (t other : Topology) : Topology :=
  { cache := t.cache.withNodes other.cache, graph := other.graph }

/-- A change that reads and writes nodes and graph alone. -/
def OnNetwork {α : Type} (change : Topology → Except ReconcileError (α × Topology)) : Prop :=
  ∀ t other : Topology, (t.withNetwork other).settle (change (t.withNetwork other)) =
    t.withNetwork (other.settle (change other))

theorem upsertNode_onNetwork (node : Node) : OnNetwork (·.upsertNode node) := by
  intro t other
  simp only [upsertNode_eq]
  rfl

theorem deleteNode_onNetwork (key : String) : OnNetwork (·.deleteNode key) := by
  intro t other
  have hknown : (t.withNetwork other).cache.nodes[key]? = other.cache.nodes[key]? := rfl
  have hcache := t.cache.removeNode_withNodes other.cache key
  simp only [deleteNode_eq, hknown]
  rcases other.cache.nodes[key]? with _ | node
  · rfl
  · simp only [withNetwork, hcache]
    split <;> rfl

theorem addLink_onNetwork (link : Link) : OnNetwork (·.addLink link) := by
  intro t other
  have hknown : link.key ∈ (t.withNetwork other).graph.edges ↔ link.key ∈ other.graph.edges :=
    Iff.rfl
  simp only [addLink_eq, hknown]
  split
  · rfl
  · rcases unpopulatedWeight? link with _ | kind <;> rfl

theorem updateLink_onNetwork (link : Link) : OnNetwork (·.updateLink link) := by
  intro t other
  have hknown : (t.withNetwork other).graph.edges[link.key]? = other.graph.edges[link.key]? := rfl
  simp only [updateLink_eq, hknown]
  rcases other.graph.edges[link.key]? with _ | edge
  · simp only [settle_map, implies_true]
    exact addLink_onNetwork link t other
  · rfl

theorem deleteLink_onNetwork (key : String) : OnNetwork (·.deleteLink key) := by
  intro t other
  have hknown : (t.withNetwork other).graph.edges[key]? = other.graph.edges[key]? := rfl
  simp only [deleteLink_eq, hknown]
  rcases other.graph.edges[key]? with _ | edge <;> rfl

end Topology

/-! ## Parts of the state -/

namespace Sync

/-- The state, but with one part as another state has it: the records that a
feed reports on, what is derived from them, and whoever takes them. -/
def withPart (s : Sync) (feed : Feed) (other : Sync) : Sync :=
  match feed with
  | .network => {
      dispatcher := { s.dispatcher with
        nodes := other.dispatcher.nodes
        links := other.dispatcher.links }
      topology := s.topology.withNetwork other.topology }
  | .announcements => {
      dispatcher := { s.dispatcher with prefixes := other.dispatcher.prefixes }
      topology := { s.topology with
        cache := s.topology.cache.withAnnouncements other.topology.cache } }
  | .sids => {
      dispatcher := { s.dispatcher with sids := other.dispatcher.sids }
      topology := { s.topology with cache := s.topology.cache.withSids other.topology.cache } }

variable (s other : Sync)

@[simp]
theorem withPart_self (feed : Feed) : s.withPart feed s = s := by
  cases feed <;> rfl

/-- The parts lie apart. -/
theorem withPart_of_ne {feed feed' : Feed} (h : feed ≠ feed') (t : Sync) :
    t.withPart feed (s.withPart feed' other) = t.withPart feed s := by
  cases feed <;> cases feed' <;> first | rfl | exact absurd rfl h

theorem serviceSids_withPart (feed : Feed) :
    (s.withPart feed other).topology.cache.serviceSids = s.topology.cache.serviceSids := by
  cases feed <;> rfl

/-! ## One event -/

theorem onTopology_withPart {change : Topology → Except ReconcileError (Bool × Topology)}
    (h : Topology.OnNetwork change) (taken : Bool) :
    ((s.withPart .network other).onTopology taken change).2 =
      s.withPart .network (other.onTopology taken change).2 := by
  rw [onTopology_topology, onTopology_topology]
  split
  · have hchange := h s.topology other.topology
    simp only [withPart]
    rw [hchange]
  · rfl

theorem onAnnouncements_withPart
    {change : Announcements → Except ReconcileError Unit × Announcements}
    (h : ∀ (a : Announcements) (cache : Cache),
      change (a.within cache) = ((change a).1, (change a).2.within cache)) :
    ((s.withPart .announcements other).onAnnouncements change).2 =
      s.withPart .announcements (other.onAnnouncements change).2 := by
  unfold onAnnouncements
  rcases htaken : other.dispatcher.prefixes with _ | counts
  · simp only [withPart, htaken]
  · have hchange := h { counts, cache := other.topology.cache } s.topology.cache
    simp only [withPart, htaken]
    exact congrArg (fun outcome : Except ReconcileError Unit × Announcements => Sync.mk
      { s.dispatcher with prefixes := some outcome.2.counts }
      { s.topology with cache := outcome.2.cache }) hchange

theorem onCache_withPart {change : Cache → Cache}
    (h : ∀ cache other : Cache, change (cache.withSids other) = cache.withSids (change other))
    (taken : Bool) :
    ((s.withPart .sids other).onCache taken change).2 =
      s.withPart .sids (other.onCache taken change).2 := by
  unfold onCache
  rw [onTopology_topology, onTopology_topology]
  split
  · have hchange := h s.topology.cache other.topology.cache
    simp only [withPart, Topology.settle]
    rw [hchange]
  · rfl

/-- An event reads its own part of the state and writes to it, and to nothing else. -/
theorem dispatch_withPart (event : Event) :
    ((s.withPart event.feed other).dispatch event).2.1 =
      s.withPart event.feed (other.dispatch event).2.1 := by
  have hhandles : (s.withPart event.feed other).dispatcher.handles event.family =
      other.dispatcher.handles event.family := by
    cases event <;> rfl
  have happly : ((s.withPart event.feed other).apply event).2 =
      s.withPart event.feed (other.apply event).2 := by
    cases event with
    | addNode node | updateNode node =>
      exact s.onTopology_withPart other (Topology.upsertNode_onNetwork node) _
    | deleteNode key => exact s.onTopology_withPart other (Topology.deleteNode_onNetwork key) _
    | addLink link => exact s.onTopology_withPart other (Topology.addLink_onNetwork link) _
    | updateLink link =>
      refine s.onTopology_withPart other (fun t t' => ?_) _
      simp only [Topology.settle_map, implies_true]
      exact Topology.updateLink_onNetwork link t t'
    | deleteLink key => exact s.onTopology_withPart other (Topology.deleteLink_onNetwork key) _
    | addPrefix p => exact s.onAnnouncements_withPart other (fun a cache => a.add_within cache p)
    | deletePrefix key =>
      exact s.onAnnouncements_withPart other (fun a cache => a.delete_within cache key)
    | addSid sid =>
      exact s.onCache_withPart other (fun cache cache' => cache.storeSid_withSids cache' sid) _
    | deleteSid key =>
      exact s.onCache_withPart other (fun cache cache' => cache.removeSid_withSids cache' key) _
  rw [dispatch_state, dispatch_state, hhandles, happly]
  exact (apply_ite (s.withPart event.feed) _ _ _).symm

/-- An event leaves what it does not report on as it is. -/
theorem dispatch_eq_withPart (event : Event) :
    (s.dispatch event).2.1 = s.withPart event.feed (s.dispatch event).2.1 := by
  have h := s.dispatch_withPart s event
  rwa [withPart_self] at h

/-! ## Events in turn -/

/-- Both states have the same part: it makes no difference which of the two it is
taken from. -/
def Alike (feed : Feed) (s t : Sync) : Prop :=
  ∀ u : Sync, u.withPart feed s = u.withPart feed t

variable {s other}

theorem alike_dispatch {t : Sync} {event : Event} (h : Alike event.feed s t) :
    Alike event.feed (s.dispatch event).2.1 (t.dispatch event).2.1 := by
  intro u
  rw [← u.dispatch_withPart s, h u, u.dispatch_withPart t]

theorem alike_dispatch_of_ne {feed : Feed} {t : Sync} {event : Event} (h : Alike feed s t)
    (hfeed : feed ≠ event.feed) : Alike feed (s.dispatch event).2.1 t := by
  intro u
  rw [dispatch_eq_withPart, withPart_of_ne _ _ hfeed, h u]

/-- A part of the state comes out of the events of its feed, however many
others there are in between. -/
theorem alike_dispatchAll (feed : Feed) {t : Sync} (h : Alike feed s t) (events : List Event) :
    Alike feed (s.dispatchAll events) (t.dispatchAll (events.filter (·.feed = feed))) := by
  induction events generalizing s t with
  | nil => exact h
  | cons event rest ih =>
    by_cases hfeed : event.feed = feed
    · subst hfeed
      rw [List.filter_cons_of_pos (by simp)]
      exact ih (alike_dispatch h)
    · -- Only the side that takes all events takes this one.
      rw [List.filter_cons_of_neg (by simpa using hfeed)]
      exact ih (alike_dispatch_of_ne h (Ne.symm hfeed))

theorem serviceSids_dispatchAll (s : Sync) (events : List Event) :
    (s.dispatchAll events).topology.cache.serviceSids = s.topology.cache.serviceSids := by
  induction events generalizing s with
  | nil => rfl
  | cons event rest ih =>
    have hstep : (s.dispatch event).2.1.topology.cache.serviceSids =
        s.topology.cache.serviceSids := by
      rw [dispatch_eq_withPart, serviceSids_withPart]
    exact (ih _).trans hstep

/-- Beside the services, the three parts are the whole state. -/
theorem eq_of_alike {t : Sync} (h : ∀ feed, Alike feed s t)
    (hservices : s.topology.cache.serviceSids = t.topology.cache.serviceSids) : s = t := by
  have hparts : ((t.withPart .network s).withPart .announcements s).withPart .sids s = t := by
    rw [h .network t, withPart_self, h .announcements t, withPart_self, h .sids t, withPart_self]
  have hall : ((t.withPart .network s).withPart .announcements s).withPart .sids s =
      { s with topology := { s.topology with cache := { s.topology.cache with
          serviceSids := t.topology.cache.serviceSids } } } := rfl
  rw [← hparts, hall, ← hservices]

end Sync

/-- The feeds of events do not interfere, whatever the state is to begin with and
whatever is refused on the way. Each part of the state comes out as the events of
its own feed leave it, and services are never touched. So it does not matter how
the three feeds are merged into one. -/
theorem feeds_do_not_interfere (s : Sync) :
    (∀ events : List Event,
      let after := s.dispatchAll events
      let announced := s.dispatchAll (events.filter (·.feed = .announcements))
      let identified := s.dispatchAll (events.filter (·.feed = .sids))
      let linked := s.dispatchAll (events.filter (·.feed = .network))
      (after.topology.cache.prefixes = announced.topology.cache.prefixes ∧
        after.topology.cache.clientNetworks = announced.topology.cache.clientNetworks ∧
        after.dispatcher.prefixes = announced.dispatcher.prefixes) ∧
      (after.topology.cache.sids = identified.topology.cache.sids ∧
        after.topology.cache.sidSlots = identified.topology.cache.sidSlots) ∧
      (after.topology.cache.nodes = linked.topology.cache.nodes ∧
        after.topology.cache.nodeSlots = linked.topology.cache.nodeSlots ∧
        after.topology.graph = linked.topology.graph) ∧
      after.topology.cache.serviceSids = s.topology.cache.serviceSids) ∧
    ∀ (feeds : Feed → List Event) (events events' : List Event),
      Merge feeds events → Merge feeds events' → s.dispatchAll events = s.dispatchAll events' := by
  have halike : ∀ feed events, Sync.Alike feed (s.dispatchAll events)
      (s.dispatchAll (events.filter (·.feed = feed))) :=
    fun feed events => Sync.alike_dispatchAll feed (fun _ => rfl) events
  refine ⟨fun events => ?_, fun feeds events events' hmerge hmerge' => ?_⟩
  · have hannounced := halike .announcements events s
    have hidentified := halike .sids events s
    have hlinked := halike .network events s
    exact ⟨⟨congrArg (·.topology.cache.prefixes) hannounced,
        congrArg (·.topology.cache.clientNetworks) hannounced,
        congrArg (·.dispatcher.prefixes) hannounced⟩,
      ⟨congrArg (·.topology.cache.sids) hidentified,
        congrArg (·.topology.cache.sidSlots) hidentified⟩,
      ⟨congrArg (·.topology.cache.nodes) hlinked, congrArg (·.topology.cache.nodeSlots) hlinked,
        congrArg (·.topology.graph) hlinked⟩,
      s.serviceSids_dispatchAll events⟩
  · refine Sync.eq_of_alike (fun feed u => ?_) ?_
    · rw [halike feed events u, halike feed events' u, merge_iff.1 hmerge, merge_iff.1 hmerge']
    · rw [s.serviceSids_dispatchAll, s.serviceSids_dispatchAll]

/-- A node that goes and takes its link along, an announcement with a withdrawal that is
refused, and a segment identifier: first feed by feed, and then all mixed up. -/
theorem two_merges_end_alike :
    let network : List Event :=
      [.addNode (Fixtures.node "r1"), .addLink (Fixtures.link "l" "r1" "r2"),
        .deleteNode "node-r1"]
    let announcements : List Event :=
      [.addPrefix ⟨"p", "r1", "2001:db8::", 64⟩, .deletePrefix "q"]
    let sids : List Event := [.addSid (Fixtures.sid "s" "r1" "a")]
    let mixed : List Event :=
      [.addPrefix ⟨"p", "r1", "2001:db8::", 64⟩, .addNode (Fixtures.node "r1"),
        .addSid (Fixtures.sid "s" "r1" "a"), .addLink (Fixtures.link "l" "r1" "r2"),
        .deletePrefix "q", .deleteNode "node-r1"]
    let start : Sync := {}
    let after := start.dispatchAll mixed
    after = start.dispatchAll (network ++ announcements ++ sids) ∧
      after.topology.graph = (start.dispatchAll network).topology.graph ∧
      after.topology.cache.sidSlots = (start.dispatchAll sids).topology.cache.sidSlots ∧
      after.dispatcher.prefixes = (start.dispatchAll announcements).dispatcher.prefixes := by
  intro network announcements sids mixed start after
  let feeds : Feed → List Event
    | .network => network
    | .announcements => announcements
    | .sids => sids
  have hmixed : Merge feeds mixed := merge_iff.2 fun feed => by cases feed <;> rfl
  have hapart : Merge feeds (network ++ announcements ++ sids) :=
    merge_iff.2 fun feed => by cases feed <;> rfl
  obtain ⟨hparts, hmerges⟩ := feeds_do_not_interfere start
  obtain ⟨⟨-, -, hcounts⟩, ⟨-, hslots⟩, ⟨-, -, hgraph⟩, -⟩ := hparts mixed
  exact ⟨hmerges feeds _ _ hmixed hapart, hgraph, hslots, hcounts⟩

end TopologySync
