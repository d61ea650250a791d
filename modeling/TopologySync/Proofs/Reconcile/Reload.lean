-- Snapshots that are loaded again. In the midst of the second load the state
-- may differ from what it was: slots are handed round, and routers go by the
-- names of older records for a while. When the load is over, all is as before.
import TopologySync.Proofs.Burst.Taken
import TopologySync.Proofs.Cache.Passes
import TopologySync.Proofs.Reconcile.Feeds
import TopologySync.Proofs.Reconcile.Operations
import TopologySync.Proofs.Reconcile.Swaps

open Std

namespace TopologySync

/-! ## Nodes -/

namespace Graph

/-- The router of a record as it is described by it. -/
def describedAs (node : Node) (known : Option GraphNode) : GraphNode :=
  { known.getD (.placeholder node.router) with name := node.name, algorithms := node.algorithms }

/-- A description leaves no trace of an older one. -/
theorem describedAs_again (node node' : Node) (known : Option GraphNode)
    (h : node.router = node'.router) :
    describedAs node (some (describedAs node' known)) = describedAs node known := by
  rcases known with _ | known
  · simp [describedAs, h]
  · rfl

theorem describeAll_eq (graph : Graph) (nodes : List Node) :
    nodes.foldl describe graph =
      { graph with nodes := Maps.writeAll Node.router describedAs graph.nodes nodes } := by
  induction nodes generalizing graph with
  | nil => rfl
  | cons node rest ih => exact ih (graph.describe node)

/-- Descriptions that are given again change nothing where the routers are as the
descriptions left them. -/
theorem describeAll_settled {nodes : List Node} {graph graph' : Graph}
    (h : ∀ node ∈ nodes,
      graph'.nodes[node.router]? = (nodes.foldl describe graph).nodes[node.router]?) :
    nodes.foldl describe graph' = graph' := by
  rw [describeAll_eq] at h ⊢
  rw [Maps.writeAll_settled describedAs_again h]

theorem mem_nodes_describeAll {nodes : List Node} {node : Node} (h : node ∈ nodes)
    (graph : Graph) : node.router ∈ (nodes.foldl describe graph).nodes := by
  rw [describeAll_eq, Maps.mem_iff_exists]
  rcases Maps.getElem?_writeAll Node.router describedAs describedAs_again nodes node.router with
    ⟨hnone, -⟩ | ⟨last, -, -, hpass⟩
  · exact absurd rfl (hnone node h)
  · exact ⟨_, hpass graph.nodes⟩

/-- Subgraphs are built from the nodes and edges alone. -/
theorem rebuild_of_agree {graph graph' : Graph} (h : graph.Agree (fun _ => True) graph') :
    graph.rebuild = { graph'.rebuild with generation := graph.generation + 1 } := by
  have hedges := edges_eq_of_agree h
  obtain ⟨hnodes, houtbound, hinbound, -⟩ := h
  obtain ⟨nodes, edges, outbound, inbound, subGraphs, generation⟩ := graph
  dsimp only at hnodes hedges houtbound hinbound
  subst hnodes hedges houtbound hinbound
  rfl

end Graph

/-! ## Links -/

namespace Topology

/-- A link that adds nothing: it has its edge, or it is refused one. -/
def Idle (graph : Graph) (link : Link) : Prop :=
  link.key ∈ graph.edges ∨ unpopulatedWeight? link ≠ none

theorem idle_joined {cache : Cache} {graph : Graph} {link : Link} (h : Idle graph link)
    (other : Link) : Idle (joined cache graph other) link := by
  rcases h with hedge | hweight
  · left
    unfold joined
    split
    · exact hedge
    · exact (mem_edges_linked cache graph other link.key).2 (Or.inr hedge)
  · exact Or.inr hweight

theorem idle_joined_self (cache : Cache) (graph : Graph) (link : Link) :
    Idle (joined cache graph link) link := by
  unfold joined
  split
  · assumption
  · exact Or.inl ((mem_edges_linked cache graph link link.key).2 (Or.inl rfl))

theorem idle_joinAll {links : List Link} (cache : Cache) (graph : Graph) :
    ∀ link ∈ links, Idle (links.foldl (joined cache) graph) link := by
  induction links generalizing graph with
  | nil => simp
  | cons first rest ih =>
    intro link hlink
    rcases List.mem_cons.1 hlink with rfl | hrest
    · exact List.foldlRecOn (motive := fun graph => Idle graph link) rest _
        (idle_joined_self cache graph link) fun _ hidle other _ => idle_joined hidle other
    · exact ih _ link hrest

theorem addLink_idle {t : Topology} {link : Link} (h : Idle t.graph link) :
    t.addLink link = .ok (false, t) ∨ ∃ e, t.addLink link = .error e := by
  rw [addLink_eq]
  split
  · exact Or.inl rfl
  · rename_i hnew
    obtain ⟨kind, hkind⟩ := Option.ne_none_iff_exists'.1 (h.resolve_left hnew)
    exact Or.inr ⟨.zeroWeight link.key kind, by rw [hkind]⟩

theorem added_idle {t : Topology} {links : List Link} (h : ∀ link ∈ links, Idle t.graph link) :
    (t.addLinks links).1 = 0 := by
  induction links with
  | nil => rfl
  | cons link rest ih =>
    rw [List.forall_mem_cons] at h
    unfold addLinks
    rcases addLink_idle h.1 with hmade | ⟨e, hmade⟩
    · rw [hmade]
      exact ih h.2
    · rw [hmade]
      exact ih h.2

theorem joinAll_idle {cache : Cache} {graph : Graph} {links : List Link}
    (h : ∀ link ∈ links, Idle graph link) : links.foldl (joined cache) graph = graph := by
  induction links with
  | nil => rfl
  | cons link rest ih =>
    rw [List.forall_mem_cons] at h
    rw [List.foldl_cons, show joined cache graph link = graph from if_pos h.1]
    exact ih h.2

/-- A link describes no router that is there. -/
theorem getElem?_joined {cache : Cache} {graph : Graph} {id : String} (h : id ∈ graph.nodes)
    (link : Link) : (joined cache graph link).nodes[id]? = graph.nodes[id]? := by
  have hendpoint : ∀ {graph : Graph} (router : String), id ∈ graph.nodes →
      (withEndpoint cache graph router).nodes[id]? = graph.nodes[id]? := by
    intro graph router hmem
    obtain ⟨known, hknown⟩ := Maps.mem_iff_exists.1 hmem
    rw [withEndpoint, Graph.getElem?_withNode, hknown]
    simp
  unfold joined
  split
  · rfl
  · rw [linked_eq, Graph.link, hendpoint link.target, hendpoint link.source h]
    simp [withEndpoint, Graph.mem_withNode, h]

theorem getElem?_joinAll {cache : Cache} {graph : Graph} {id : String} (h : id ∈ graph.nodes)
    (links : List Link) :
    (links.foldl (joined cache) graph).nodes[id]? = graph.nodes[id]? := by
  refine List.foldlRecOn
    (motive := fun joint : Graph => joint.nodes[id]? = graph.nodes[id]?) links _ rfl
    fun joint hjoint link _ => ?_
  have hmem : id ∈ joint.nodes := by
    rw [Maps.mem_iff_exists, hjoint]
    exact Maps.mem_iff_exists.1 h
  rw [getElem?_joined hmem, hjoint]

end Topology

/-! ## Announcements -/

namespace Announcements

variable {a : Announcements}

/-- An announcement that is stored already is added without effect. -/
theorem add_stored (h : a.Exact) {p : Prefix} (hp : a.cache.prefixes[p.key]? = some p) :
    a.add p = (.ok (), a) := by
  rw [add_eq h, hp]
  dsimp only
  rw [if_pos rfl, refresh_eq h, Cache.storePrefix, Maps.insert_self hp]

theorem addEach_stored (h : a.Exact) {prefixes : List Prefix}
    (hp : ∀ p ∈ prefixes, a.cache.prefixes[p.key]? = some p) :
    (a.addEach prefixes).2.1 = a := by
  induction prefixes with
  | nil => rfl
  | cons p rest ih =>
    rw [List.forall_mem_cons] at hp
    unfold addEach
    rw [add_stored h hp.1]
    exact ih hp.2

/-- Of announcements under different keys each one is stored. -/
theorem stored_addEach (h : a.Exact) {prefixes : List Prefix}
    (hkeys : (prefixes.map Prefix.key).Nodup) :
    ∀ p ∈ prefixes, (a.addEach prefixes).2.1.cache.prefixes[p.key]? = some p := by
  intro p hp
  have hloaded : (a.addEach prefixes).2.1.cache.prefixes =
      Maps.writeAll Prefix.key (fun p _ => p) a.cache.prefixes prefixes := by
    have hpass := prefixes_applyAll h (prefixes.map .add)
    rwa [← addEach_eq, List.foldl_map] at hpass
  rw [hloaded]
  rcases Maps.getElem?_writeAll Prefix.key (fun p _ => p) (fun _ _ _ _ => rfl) prefixes p.key with
    ⟨hnone, -⟩ | ⟨last, hlast, hkey, hpass⟩
  · exact absurd rfl (hnone p hp)
  · rw [hpass, List.inj_on_of_nodup_map hkeys hlast hp hkey]

end Announcements

/-! ## All of a snapshot -/

namespace Snapshot

theorem filter_map_feed {α : Type} (report : α → Event) (feed : Feed)
    (h : ∀ record, (report record).feed = feed) (records : List α) (other : Feed) :
    (records.map report).filter (·.feed = other) =
      if feed = other then records.map report else [] := by
  rw [List.filter_map]
  split
  · rename_i hsame
    simp [Function.comp_def, h, hsame]
  · rename_i hother
    simp [Function.comp_def, h, hother]

/-- The events of a snapshot, feed by feed. -/
theorem filter_events (snapshot : Snapshot) (feed : Feed) :
    snapshot.events.filter (·.feed = feed) = match feed with
      | .network => snapshot.nodes.map .addNode ++ snapshot.links.map .addLink
      | .announcements => (snapshot.prefixes.filter (fun p => !p.isHostRoute)).map .addPrefix
      | .sids => snapshot.sids.map .addSid := by
  rw [events, List.filter_append, List.filter_append, List.filter_append,
    filter_map_feed .addNode .network (fun _ => rfl),
    filter_map_feed .addLink .network (fun _ => rfl),
    filter_map_feed .addPrefix .announcements (fun _ => rfl),
    filter_map_feed .addSid .sids (fun _ => rfl)]
  cases feed <;> simp

end Snapshot

namespace Sync

variable {a : Announcements} {graph : Graph} {kinds : WeightKind → Prop} {s s' : Sync}

/-! ## Feed by feed -/

theorem dispatchAll_network (a : Announcements) (graph : Graph) (nodes : List Node)
    (links : List Link) :
    (full a graph).dispatchAll (nodes.map .addNode ++ links.map .addLink) =
      full { a with cache := nodes.foldl Cache.storeNode a.cache }
        (links.foldl (Topology.joined (nodes.foldl Cache.storeNode a.cache))
          (nodes.foldl Graph.describe graph)) := by
  have hnodes := (matches_upsertNodes (s := full a graph) rfl nodes).state
  have hlinks := (matches_addLinks
    (s := { full a graph with topology := ((full a graph).topology.upsertNodes nodes).2.1 })
    rfl links).state
  rw [dispatchAll_append, ← hnodes, ← hlinks]
  simp only [Topology.upsertNodes_eq, Topology.addLinks_eq]
  rfl

/-- Nodes and links that are reported again change nothing any more. Routers are as
they were described, and the links have their edges or never get them. -/
theorem network_again (h : a.cache.nodeTenancy.Sound) (nodes : List Node) (links : List Link) :
    let events := nodes.map .addNode ++ links.map .addLink
    ((full a graph).dispatchAll events).dispatchAll events = (full a graph).dispatchAll events := by
  intro events
  simp only [events, dispatchAll_network, Cache.storeNodes_again h]
  generalize nodes.foldl Cache.storeNode a.cache = cache
  have hdescribed : nodes.foldl Graph.describe
      (links.foldl (Topology.joined cache) (nodes.foldl Graph.describe graph)) =
        links.foldl (Topology.joined cache) (nodes.foldl Graph.describe graph) :=
    Graph.describeAll_settled fun node hnode =>
      Topology.getElem?_joinAll (Graph.mem_nodes_describeAll hnode graph) links
  rw [hdescribed, Topology.joinAll_idle (Topology.idle_joinAll cache _)]

theorem announcements_again (h : a.Exact) {prefixes : List Prefix}
    (hkeys : (prefixes.map Prefix.key).Nodup) :
    let events := prefixes.map .addPrefix
    ((full a graph).dispatchAll events).dispatchAll events = (full a graph).dispatchAll events := by
  intro events
  have hfirst : (full a graph).dispatchAll events = full (a.addEach prefixes).2.1 graph :=
    (matches_addEach a graph prefixes).state.symm
  have hexact : (a.addEach prefixes).2.1.Exact := by
    have hloaded := Announcements.exact_applyAll h (prefixes.map .add)
    rwa [← Announcements.addEach_eq] at hloaded
  have hsecond := (matches_addEach (a.addEach prefixes).2.1 graph prefixes).state
  rw [Announcements.addEach_stored hexact (Announcements.stored_addEach h hkeys)] at hsecond
  rw [hfirst]
  exact hsecond.symm

theorem sids_again (h : a.cache.sidTenancy.Sound) (htidy : a.cache.Tidy) (sids : List Sid) :
    let events := sids.map .addSid
    ((full a graph).dispatchAll events).dispatchAll events = (full a graph).dispatchAll events := by
  intro events
  have hpass : ∀ a : Announcements, (full a graph).dispatchAll events =
      full { a with cache := sids.foldl Cache.storeSid a.cache } graph :=
    fun a => (matches_storeSids a graph sids).state.symm
  rw [hpass, hpass, Cache.storeSids_again h htidy]

/-- The events of a snapshot that are reported again change nothing any more, since
those of each feed change nothing. -/
theorem dispatchAll_again (h : a.Exact) (hmade : a.cache.Made) {snapshot : Snapshot}
    (hkeys : (snapshot.prefixes.map Prefix.key).Nodup) :
    ((full a graph).dispatchAll snapshot.events).dispatchAll snapshot.events =
      (full a graph).dispatchAll snapshot.events := by
  obtain ⟨ops, hops⟩ := hmade
  have hsounds : a.cache.sidTenancy.Sound := hops ▸ Cache.sound_sidTenancy ops
  have hsoundn : a.cache.nodeTenancy.Sound := hops ▸ Cache.sound_nodeTenancy ops
  have htidy : a.cache.Tidy := hops ▸ Cache.tidy_after ops
  refine eq_of_alike (fun feed => ?_) (serviceSids_dispatchAll _ _)
  have hfirst := alike_dispatchAll feed (s := full a graph) (fun _ => rfl) snapshot.events
  have hsecond := alike_dispatchAll feed hfirst snapshot.events
  have hagain : ((full a graph).dispatchAll (snapshot.events.filter (·.feed = feed))).dispatchAll
      (snapshot.events.filter (·.feed = feed)) =
        (full a graph).dispatchAll (snapshot.events.filter (·.feed = feed)) := by
    rw [snapshot.filter_events]
    cases feed with
    | network => exact network_again hsoundn snapshot.nodes snapshot.links
    | announcements => exact announcements_again h (hkeys.sublist ((List.filter_sublist ..).map _))
    | sids => exact sids_again hsounds htidy snapshot.sids
  intro u
  rw [hsecond u, hagain, hfirst u]

/-- The links of a snapshot have their edges, or they are refused. -/
theorem idle_dispatchAll (a : Announcements) (graph : Graph) (snapshot : Snapshot) :
    ∀ link ∈ snapshot.links,
      Topology.Idle ((full a graph).dispatchAll snapshot.events).topology.graph link := by
  have halike := alike_dispatchAll .network (s := full a graph) (fun _ => rfl) snapshot.events
  have hgraph := congrArg (·.topology.graph) (halike (full a graph))
  simp only [withPart, Topology.withNetwork, snapshot.filter_events, dispatchAll_network] at hgraph
  rw [hgraph]
  exact Topology.idle_joinAll _ _

/-! ## The load itself -/

theorem agree_dispatchAll (h : s.Agree kinds s') (events : List Event) :
    (s.dispatchAll events).Agree kinds (s'.dispatchAll events) := by
  induction events generalizing s s' with
  | nil => exact h
  | cons event rest ih => exact ih (agree_dispatch h event)

theorem agree_rebuilt (s : Sync) : s.rebuilt.Agree kinds s :=
  ⟨rfl, rfl, s.topology.graph.agree_rebuild⟩

/-- States that agree are the same once they are rebuilt. -/
theorem rebuilt_of_agree (h : s.Agree (fun _ => True) s')
    (hgeneration : s.topology.graph.generation = s'.topology.graph.generation) :
    s.rebuilt = s'.rebuilt := by
  have hgraph : s.topology.graph.rebuild = s'.topology.graph.rebuild := by
    rw [Graph.rebuild_of_agree h.topology.graph, hgeneration]
    rfl
  simp only [rebuilt, h.dispatcher, h.topology.cache, hgraph]

/-- A snapshot whose events come to nothing has the subgraphs rebuilt, and no more. -/
theorem applySnapshot_of_agree (h : s.Full) {snapshot : Snapshot}
    (hagree : (s.dispatchAll snapshot.events).Agree (fun _ => True) s) :
    (s.applySnapshot snapshot).2.1 = s.rebuilt := by
  obtain @⟨a, -, graph⟩ := h
  rw [applySnapshot_state]
  exact rebuilt_of_agree hagree (generation_dispatchAll _ _)

theorem links_applySnapshot_idle (h : s.Full) {snapshot : Snapshot}
    (hidle : ∀ link ∈ snapshot.links, Topology.Idle s.topology.graph link) :
    (s.applySnapshot snapshot).1.links = 0 := by
  obtain @⟨a, -, graph⟩ := h
  have hcounted : ((full a graph).applySnapshot snapshot).1.links =
      (((full a graph).topology.upsertNodes snapshot.nodes).2.1.addLinks snapshot.links).1 :=
    rfl
  rw [hcounted, Topology.upsertNodes_eq, Topology.added_idle]
  rw [Graph.describeAll_eq]
  exact hidle

/-- A snapshot that is loaded twice in succession, whatever was applied before, leaves
the cache with its client networks, the counts, the nodes, the edges and the subgraphs as
the first load left them, and adds no link. The keys of its announcements have to differ.
For all other records it takes no such thing, and they may share routers and slots. -/
theorem a_snapshot_loaded_again_changes_nothing (requests : List Request) {snapshot : Snapshot}
    (hkeys : (snapshot.prefixes.map Prefix.key).Nodup) :
    let loaded := ((serveAll {} requests).applySnapshot snapshot).2.1
    let (summary, again, _) := loaded.applySnapshot snapshot
    again.dispatcher = loaded.dispatcher ∧ again.topology.cache = loaded.topology.cache ∧
      again.topology.graph = { loaded.topology.graph with
        generation := loaded.topology.graph.generation + 1 } ∧
      summary.links = 0 := by
  have hfull := full_serveAll requests
  have hmade : (serveAll {} requests).topology.cache.Made := made_serveAll .full requests
  generalize serveAll {} requests = s at hfull hmade ⊢
  obtain @⟨a, hexact, graph⟩ := hfull
  intro loaded
  have hloaded : loaded = ((full a graph).dispatchAll snapshot.events).rebuilt :=
    applySnapshot_state a graph snapshot
  have hfull : loaded.Full := Full.applySnapshot (.intro hexact graph) snapshot
  -- Events take no notice of subgraphs, so they come to nothing also after the rebuild.
  have hagree : (loaded.dispatchAll snapshot.events).Agree (fun _ => True) loaded := by
    have hagain : Agree (fun _ => True) _ _ := agree_dispatchAll
      (agree_rebuilt ((full a graph).dispatchAll snapshot.events)) snapshot.events
    rw [dispatchAll_again hexact hmade hkeys] at hagain
    rw [hloaded]
    exact agree_trans hagain (agree_symm (agree_rebuilt _))
  have hidle : ∀ link ∈ snapshot.links, Topology.Idle loaded.topology.graph link := by
    rw [hloaded]
    exact idle_dispatchAll a graph snapshot
  have hstate := applySnapshot_of_agree hfull hagree
  have hlinks := links_applySnapshot_idle hfull hidle
  generalize loaded.applySnapshot snapshot = again at hstate hlinks ⊢
  obtain ⟨summary, last, refusals⟩ := again
  dsimp only at hstate hlinks ⊢
  rw [hstate]
  refine ⟨rfl, rfl, ?_, hlinks⟩
  rw [hloaded]
  rfl

/-- Two nodes speak for one router, two segment identifiers take one slot, and two
announcements are of one network. -/
theorem records_that_share_are_loaded_again :
    let older := Fixtures.node "r1"
    let sid := Fixtures.sid "s1" "r1" "a"
    let p : Prefix := { key := "p1", router := "r1", address := "a::", length := 64 }
    let snapshot : Snapshot := {
      nodes := [older, { older with key := "newer", name := "other" }]
      links := [Fixtures.link "l1" "r1" "r2", { Fixtures.link "l2" "r2" "r1" with delay := 0 }]
      prefixes := [p, { p with key := "p2" }]
      sids := [sid, { sid with key := "s2" }] }
    let loaded := (applySnapshot {} snapshot).2.1
    (snapshot.prefixes.map Prefix.key).Nodup ∧
      loaded.topology.cache.nodeSlots[("r1" : String)]? = some "newer" ∧
      (loaded.applySnapshot snapshot).2.1.topology.cache = loaded.topology.cache ∧
      (loaded.applySnapshot snapshot).1 = { nodes := 2, links := 0, prefixes := 2, sids := 2 } := by
  intro older sid p snapshot loaded
  have hkeys : (snapshot.prefixes.map Prefix.key).Nodup := by decide +kernel
  have hcache : (loaded.applySnapshot snapshot).2.1.topology.cache = loaded.topology.cache := by
    -- The law is for any snapshot, so this one need not be evaluated for it.
    clear_value snapshot
    exact (a_snapshot_loaded_again_changes_nothing [] hkeys).2.1
  exact ⟨hkeys, by decide +kernel, hcache, by decide +kernel⟩

end Sync

end TopologySync
