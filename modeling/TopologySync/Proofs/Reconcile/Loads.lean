-- Loads against events. A snapshot is loaded in bulk, family by family, with
-- loops and counters of its own and a rebuild in the midst of it, and comes
-- to the same as its records do that are reported one by one.
import TopologySync.Proofs.Reconcile.Refusals
import TopologySync.Proofs.Reconcile.Swaps

open Std

namespace TopologySync

/-! ## Nodes and links in bulk -/

/-- The link is for the edge of a key, and its telemetry is populated. -/
def Link.makes (key : String) (link : Link) : Bool :=
  link.key == key && link.zeroWeight?.isNone

namespace Topology

theorem upsertNodes_eq (t : Topology) (nodes : List Node) :
    (t.upsertNodes nodes).2.1 =
      { cache := nodes.foldl Cache.storeNode t.cache
        graph := nodes.foldl Graph.describe t.graph } := by
  induction nodes generalizing t with
  | nil => rfl
  | cons node rest ih => simp only [upsertNodes, upsertNode_eq, ih, List.foldl_cons]

theorem addLinks_eq (t : Topology) (links : List Link) :
    (t.addLinks links).2.1 = { t with graph := links.foldl (joined t.cache) t.graph } := by
  induction links generalizing t with
  | nil => rfl
  | cons link rest ih =>
    have hjoined : t.settle (t.addLink link) =
        { t with graph := joined t.cache t.graph link } :=
      settle_addLink t.cache t.graph link
    unfold addLinks
    rcases hmade : t.addLink link with e | ⟨changed, made⟩ <;> rw [hmade] at hjoined
    · have hgraph : t.graph = joined t.cache t.graph link := congrArg Topology.graph hjoined
      rw [List.foldl_cons, ← hgraph]
      exact ih t
    · have hnext : made = { t with graph := joined t.cache t.graph link } := hjoined
      subst hnext
      exact ih _

theorem getElem?_edges_joined (cache : Cache) (graph : Graph) (link : Link) (key : String) :
    (joined cache graph link).edges[key]? =
      graph.edges[key]?.or (if link.makes key then some (edgeOf link) else none) := by
  unfold joined Link.makes
  rw [unpopulatedWeight?_eq]
  by_cases hkey : link.key = key
  · subst hkey
    rcases hknown : graph.edges[link.key]? with _ | edge
    · have hnew : link.key ∉ graph.edges := by simp [Maps.mem_iff_exists, hknown]
      rcases hweight : link.zeroWeight? with _ | kind
      · simp [hnew, linked_eq, Graph.link, edgeOf]
      · simp [hnew]
    · have hthere : link.key ∈ graph.edges := Maps.mem_iff_exists.2 ⟨edge, hknown⟩
      rw [if_pos (Or.inl hthere), hknown, Option.some_or]
  · have hother : (linked { cache, graph } link).edges[key]? = graph.edges[key]? := by
      simp [linked_eq, Graph.link, withEndpoint, Graph.withNode, edgeOf,
        ExtTreeMap.getElem?_insert, hkey]
    split <;> simp [hkey, hother]

/-- An edge that was not there is made by the first link that may make it. -/
theorem getElem?_edges_joinAll (cache : Cache) (graph : Graph) (links : List Link)
    (key : String) :
    (links.foldl (joined cache) graph).edges[key]? =
      graph.edges[key]?.or ((links.find? (Link.makes key)).map edgeOf) := by
  induction links generalizing graph with
  | nil => simp
  | cons link rest ih =>
    rw [List.foldl_cons, ih, getElem?_edges_joined, Option.or_assoc, List.find?_cons]
    rcases hmakes : link.makes key with _ | _ <;> simp

end Topology

/-! ## Events in place of a snapshot -/

/-- The events that report the records of a snapshot one by one. A load leaves
host routes out. -/
def Snapshot.events (snapshot : Snapshot) : List Event :=
  snapshot.nodes.map .addNode ++ snapshot.links.map .addLink ++
    (snapshot.prefixes.filter (fun p => !p.isHostRoute)).map .addPrefix ++
    snapshot.sids.map .addSid

/-- An event that was dispatched, whether it told of a change of the graph, and
what was refused of it. -/
structure Turn where
  event : Event
  changed : Bool
  refusals : List Refusal

namespace Turn

def refused (turn : Turn) : Bool :=
  !turn.refusals.isEmpty

/-- The reasons that are noted. -/
def errors (turn : Turn) : List ReconcileError :=
  turn.refusals.filterMap Refusal.error?

end Turn

namespace Sync

/-! ## Events in turn -/

/-- What comes of events, one by one. -/
def turns (s : Sync) : List Event → List Turn
  | [] => []
  | event :: rest =>
    let (changed, next, refusals) := s.dispatch event
    { event, changed, refusals } :: next.turns rest

variable {s : Sync} {a : Announcements} {graph : Graph}

theorem turns_append (s : Sync) (events more : List Event) :
    s.turns (events ++ more) = s.turns events ++ (s.dispatchAll events).turns more := by
  induction events generalizing s with
  | nil => rfl
  | cons event rest ih =>
    simp only [List.cons_append, turns, ih]
    rfl

theorem length_turns (s : Sync) (events : List Event) :
    (s.turns events).length = events.length := by
  induction events generalizing s with
  | nil => rfl
  | cons event rest ih => exact congrArg (· + 1) (ih _)

theorem event_of_turn {events : List Event} {turn : Turn} (h : turn ∈ s.turns events) :
    turn.event ∈ events := by
  induction events generalizing s with
  | nil => cases h
  | cons event rest ih =>
    rcases List.mem_cons.1 h with rfl | hrest
    · exact List.mem_cons_self
    · exact List.mem_cons_of_mem _ (ih hrest)

/-- Turns of one family are all counted with another family, or none of them is. -/
theorem countP_turns {α : Type} (report : α → Event) (family : Family)
    (h : ∀ record, (report record).family = family) (records : List α) (other : Family)
    (counted : Turn → Bool) :
    (s.turns (records.map report)).countP
        (fun turn => turn.event.family = other && counted turn) =
      if family = other then (s.turns (records.map report)).countP counted else 0 := by
  have hfamily : ∀ turn ∈ s.turns (records.map report), turn.event.family = family := by
    intro turn hturn
    obtain ⟨record, -, hrecord⟩ := List.mem_map.1 (event_of_turn hturn)
    rw [← hrecord, h]
  split
  · rename_i hsame
    exact List.countP_congr fun turn hturn => by simp [hfamily turn hturn, hsame]
  · rename_i hother
    exact List.countP_eq_zero.2 fun turn hturn => by simp [hfamily turn hturn, hother]

/-! ## Loads that match their turns -/

/-- What a load came to: how many records it counted, and what it refused. -/
abbrev Load := Nat × Sync × List Refusal

/-- A load leaves the state that events leave, counts those that are to be counted,
and refuses what they are refused for. -/
structure Load.Matches (load : Load) (s : Sync) (events : List Event) (counted : Turn → Bool) :
    Prop where
  count : load.1 = (s.turns events).countP counted
  state : load.2.1 = s.dispatchAll events
  errors : load.2.2.filterMap Refusal.error? = (s.turns events).flatMap Turn.errors

/-- One more record in front of a load, with what comes of its event. -/
theorem Load.Matches.cons {load : Load} {next : Sync} {rest : List Event} {counted : Turn → Bool}
    (h : load.Matches next rest counted) {event : Event} {changed : Bool}
    {refusals : List Refusal} (noted : List Refusal)
    (hstep : s.dispatch event = (changed, next, refusals))
    (hnoted : noted.filterMap Refusal.error? = refusals.filterMap Refusal.error?) :
    Load.Matches (load.1 + (counted { event, changed, refusals }).toNat, load.2.1,
      noted ++ load.2.2) s (event :: rest) counted where
  count := by
    simp only [h.count, turns, hstep, List.countP_cons, Bool.toNat, Bool.cond_eq_ite]
  state := by
    simp only [h.state, dispatchAll, List.foldl_cons, hstep]
  errors := by
    rw [List.filterMap_append, h.errors, hnoted, turns, hstep, List.flatMap_cons]
    rfl

theorem Load.matches_nil (s : Sync) (counted : Turn → Bool) :
    Load.Matches (0, s, []) s [] counted where
  count := rfl
  state := rfl
  errors := rfl

/-! ## The four families -/

theorem matches_upsertNodes (h : s.dispatcher.nodes = true) (nodes : List Node) :
    Load.Matches ((s.topology.upsertNodes nodes).1,
      { s with topology := (s.topology.upsertNodes nodes).2.1 },
      (s.topology.upsertNodes nodes).2.2) s (nodes.map .addNode) (fun _ => true) := by
  induction nodes generalizing s with
  | nil => exact Load.matches_nil _ _
  | cons node rest ih =>
    obtain ⟨changed, made, hmade⟩ :
        ∃ changed made, s.topology.upsertNode node = .ok (changed, made) :=
      ⟨_, _, s.topology.upsertNode_eq node⟩
    have hstep : s.dispatch (.addNode node) = (changed, { s with topology := made }, []) := by
      simp [dispatch, Dispatcher.handles, Event.family, h, apply, onTopology, hmade]
    simp only [Topology.upsertNodes, hmade, List.map_cons]
    exact (ih (s := { s with topology := made }) h).cons [] hstep rfl

/-- The links of a load before the subgraphs are rebuilt. -/
theorem matches_addLinks (h : s.dispatcher.links = true) (links : List Link) :
    Load.Matches ((s.topology.addLinks links).1,
      { s with topology := (s.topology.addLinks links).2.1 }, (s.topology.addLinks links).2.2)
      s (links.map .addLink) Turn.changed := by
  induction links generalizing s with
  | nil => exact Load.matches_nil _ _
  | cons link rest ih =>
    rcases hmade : s.topology.addLink link with e | ⟨changed, made⟩
    · have hstep : s.dispatch (.addLink link) =
          (false, s, [.event .addLink link.key e]) := by
        simp [dispatch, Dispatcher.handles, Event.family, h, apply, onTopology, hmade, Event.kind,
          Event.key]
      simp only [Topology.addLinks, hmade, List.map_cons]
      exact (ih h).cons [.record .link link.key e] hstep rfl
    · have hstep : s.dispatch (.addLink link) = (changed, { s with topology := made }, []) := by
        simp [dispatch, Dispatcher.handles, Event.family, h, apply, onTopology, hmade]
      simp only [Topology.addLinks, hmade, List.map_cons]
      exact (ih (s := { s with topology := made }) h).cons [] hstep rfl

theorem matches_addEach (a : Announcements) (graph : Graph) (prefixes : List Prefix) :
    Load.Matches ((a.addEach prefixes).1, full (a.addEach prefixes).2.1 graph,
      (a.addEach prefixes).2.2) (full a graph) (prefixes.map .addPrefix)
      (fun turn => !turn.refused) := by
  induction prefixes generalizing a with
  | nil => exact Load.matches_nil _ _
  | cons p rest ih =>
    rcases hmade : a.add p with ⟨e | ⟨⟩, made⟩
    · have hstep : (full a graph).dispatch (.addPrefix p) =
          (false, full made graph, [.event .addPrefix p.key e]) := by
        simp only [dispatch, apply, onAnnouncements, full, hmade]
        rfl
      simp only [Announcements.addEach, hmade, List.map_cons]
      exact (ih made).cons [.record .announcement p.key e] hstep rfl
    · have hstep : (full a graph).dispatch (.addPrefix p) = (false, full made graph, []) := by
        simp only [dispatch, apply, onAnnouncements, full, hmade]
        rfl
      simp only [Announcements.addEach, hmade, List.map_cons]
      exact (ih made).cons [] hstep rfl

theorem matches_storeSids (a : Announcements) (graph : Graph) (sids : List Sid) :
    Load.Matches (sids.length,
      full { a with cache := sids.foldl Cache.storeSid a.cache } graph, [])
      (full a graph) (sids.map .addSid) (fun _ => true) := by
  induction sids generalizing a with
  | nil => exact Load.matches_nil _ _
  | cons sid rest ih =>
    have hstep : (full a graph).dispatch (.addSid sid) =
        (false, full { a with cache := a.cache.storeSid sid } graph, []) := rfl
    exact (ih { a with cache := a.cache.storeSid sid }).cons [] hstep rfl

/-! ## All of a snapshot -/

/-- The state with its subgraphs built anew. -/
def rebuilt (s : Sync) : Sync :=
  { s with topology := { s.topology with graph := s.topology.graph.rebuild } }

/-- A snapshot is four loads, one behind the other. Announcements and segment identifiers
leave the graph alone, so that it might as well be rebuilt last of all. -/
theorem applySnapshot_loads (a : Announcements) (graph : Graph) (snapshot : Snapshot) :
    ∃ nodes links prefixes sids : Load,
      nodes.Matches (full a graph) (snapshot.nodes.map .addNode) (fun _ => true) ∧
      links.Matches nodes.2.1 (snapshot.links.map .addLink) Turn.changed ∧
      prefixes.Matches links.2.1
        ((snapshot.prefixes.filter (fun p => !p.isHostRoute)).map .addPrefix)
        (fun turn => !turn.refused) ∧
      sids.Matches prefixes.2.1 (snapshot.sids.map .addSid) (fun _ => true) ∧ sids.2.2 = [] ∧
      (full a graph).applySnapshot snapshot =
        ({ nodes := nodes.1, links := links.1, prefixes := prefixes.1, sids := sids.1 },
          sids.2.1.rebuilt, nodes.2.2 ++ links.2.2 ++ prefixes.2.2) := by
  let stored := (full a graph).topology.upsertNodes snapshot.nodes
  let added := stored.2.1.addLinks snapshot.links
  let started : Announcements := { counts := a.counts, cache := added.2.1.cache }
  let made := started.addAll snapshot.prefixes
  exact ⟨_, _, _, _, matches_upsertNodes rfl snapshot.nodes,
    matches_addLinks (s := { full a graph with topology := stored.2.1 }) rfl snapshot.links,
    matches_addEach started added.2.1.graph _,
    matches_storeSids made.2.1 added.2.1.graph snapshot.sids, rfl, rfl⟩

/-- A snapshot leaves the state that its records leave when they are reported one by
one, with the subgraphs built anew. -/
theorem applySnapshot_state (a : Announcements) (graph : Graph) (snapshot : Snapshot) :
    ((full a graph).applySnapshot snapshot).2.1 =
      ((full a graph).dispatchAll snapshot.events).rebuilt := by
  obtain ⟨nodes, links, prefixes, sids, hnodes, hlinks, hprefixes, hsids, -, hload⟩ :=
    applySnapshot_loads a graph snapshot
  rw [hload, Snapshot.events, dispatchAll_append, dispatchAll_append, dispatchAll_append,
    ← hnodes.state, ← hlinks.state, ← hprefixes.state, ← hsids.state]

section Families

variable {snapshot : Snapshot} {stored joint announced : Sync}
  (hnodes : stored = s.dispatchAll (snapshot.nodes.map .addNode))
  (hlinks : joint = stored.dispatchAll (snapshot.links.map .addLink))
  (hprefixes : announced = joint.dispatchAll
    ((snapshot.prefixes.filter (fun p => !p.isHostRoute)).map .addPrefix))
include hnodes hlinks hprefixes

/-- The turns of a snapshot are those of its four families. -/
theorem turns_events :
    s.turns snapshot.events = s.turns (snapshot.nodes.map .addNode) ++
      stored.turns (snapshot.links.map .addLink) ++
      joint.turns ((snapshot.prefixes.filter (fun p => !p.isHostRoute)).map .addPrefix) ++
      announced.turns (snapshot.sids.map .addSid) := by
  subst hnodes hlinks hprefixes
  simp only [Snapshot.events, turns_append, dispatchAll_append]

/-- The turns of one family in a snapshot are counted among its own. -/
theorem countP_turns_events (family : Family) (counted : Turn → Bool) :
    (s.turns snapshot.events).countP (fun turn => turn.event.family = family && counted turn) =
      match family with
      | .node => (s.turns (snapshot.nodes.map .addNode)).countP counted
      | .link => (stored.turns (snapshot.links.map .addLink)).countP counted
      | .announcement => (joint.turns
          ((snapshot.prefixes.filter (fun p => !p.isHostRoute)).map .addPrefix)).countP counted
      | .sid => (announced.turns (snapshot.sids.map .addSid)).countP counted := by
  rw [turns_events hnodes hlinks hprefixes, List.countP_append, List.countP_append,
    List.countP_append, countP_turns .addNode .node (fun _ => rfl),
    countP_turns .addLink .link (fun _ => rfl),
    countP_turns .addPrefix .announcement (fun _ => rfl),
    countP_turns .addSid .sid (fun _ => rfl)]
  cases family <;> simp

end Families

/-- A snapshot leaves what its records leave when they are reported one by one, nodes first, then
links, announcements but for host routes, and segment identifiers, with the subgraphs rebuilt once.
Its summary counts all nodes and segment identifiers, the links that told of a change and the
announcements that were not refused. -/
theorem a_snapshot_comes_to_its_events (a : Announcements) (graph : Graph)
    (snapshot : Snapshot) :
    let s := full a graph
    let last := s.dispatchAll snapshot.events
    let turns := s.turns snapshot.events
    let (summary, loaded, refusals) := s.applySnapshot snapshot
    loaded.topology.cache = last.topology.cache ∧ loaded.dispatcher = last.dispatcher ∧
      loaded.topology.graph = last.topology.graph.rebuild ∧
      summary.links = turns.countP (fun turn => turn.event.family = .link && turn.changed) ∧
      summary.prefixes =
        turns.countP (fun turn => turn.event.family = .announcement && !turn.refused) ∧
      summary.nodes = snapshot.nodes.length ∧ summary.sids = snapshot.sids.length ∧
      refusals.filterMap Refusal.error? = turns.flatMap Turn.errors := by
  intro s last turns
  obtain ⟨nodes, links, prefixes, sids, hnodes, hlinks, hprefixes, hsids, hnone, hload⟩ :=
    applySnapshot_loads a graph snapshot
  have hstate : sids.2.1.rebuilt = last.rebuilt := by
    rw [← applySnapshot_state, hload]
  have hcounts := countP_turns_events hnodes.state hlinks.state hprefixes.state
  rw [hload, hstate]
  refine ⟨rfl, rfl, rfl, ?_, ?_, ?_, ?_, ?_⟩
  · exact hlinks.count.trans (hcounts .link Turn.changed).symm
  · exact hprefixes.count.trans (hcounts .announcement (fun turn => !turn.refused)).symm
  · simpa [length_turns] using hnodes.count
  · simpa [length_turns] using hsids.count
  · simp only [turns, s, turns_events hnodes.state hlinks.state hprefixes.state,
      List.flatMap_append, List.filterMap_append, ← hnodes.errors, ← hlinks.errors,
      ← hprefixes.errors, ← hsids.errors, hnone, List.filterMap_nil, List.append_nil]

/-! ## Edges that a snapshot makes -/

theorem edges_loadNodes (s : Sync) (nodes : List Node) :
    (s.loadNodes nodes).2.1.topology.graph.edges = s.topology.graph.edges := by
  unfold loadNodes
  split
  · dsimp only
    rw [Topology.upsertNodes_eq]
    exact List.foldlRecOn (motive := fun graph : Graph => graph.edges = s.topology.graph.edges)
      nodes _ rfl fun _ hgraph _ _ => hgraph
  · rfl

/-- A snapshot leaves the edges as they are and adds those that its links make. -/
theorem edges_applySnapshot (s : Sync) (snapshot : Snapshot) (key : String) :
    (s.applySnapshot snapshot).2.1.topology.graph.edges[key]? =
      s.topology.graph.edges[key]?.or
        (if s.dispatcher.links then (snapshot.links.find? (Link.makes key)).map Topology.edgeOf
        else none) := by
  have hnodes := s.edges_loadNodes snapshot.nodes
  have htaken : (s.loadNodes snapshot.nodes).2.1.dispatcher = s.dispatcher := by
    unfold loadNodes
    split <;> rfl
  unfold applySnapshot
  simp only [loadSids_graph, loadPrefixes_graph, loadLinks, Topology.loadLinks, htaken]
  generalize (s.loadNodes snapshot.nodes).2.1 = stored at hnodes ⊢
  rw [Topology.addLinks_eq]
  simp only [Graph.rebuild, Topology.getElem?_edges_joinAll, hnodes]
  split <;> simp

end Sync

end TopologySync
