-- Additions that may change places. Whatever records are added, of two that
-- do not name the same thing it makes no difference which comes first: not in
-- the cache, not in the graph and not in the counts.
import TopologySync.Proofs.Announcements.Counts
import TopologySync.Proofs.Graph.Incidence
import TopologySync.Proofs.Reconcile.Agreement
import TopologySync.Proofs.Reconcile.Outcomes

open Std

namespace TopologySync

namespace Groups

/-- Members may join in any order. -/
theorem add_comm (groups : Groups) (name member name' member' : String) :
    (groups.add name member).add name' member' = (groups.add name' member').add name member := by
  by_cases hname : name = name'
  · subst hname
    have hjoined : ∀ m m', (groups.add name m).add name m' =
        groups.insert name (((groups.members name).insert m).insert m') := by
      intro m m'
      simp [add, members, Maps.insert_insert]
    rw [hjoined, hjoined]
    congr 1
    apply ExtTreeSet.ext_mem
    intro m
    simp only [ExtTreeSet.mem_insert]
    exact or_left_comm
  · have hjoined : ∀ {n n' : String} (m m' : String), n ≠ n' → (groups.add n m).add n' m' =
        (groups.insert n ((groups.members n).insert m)).insert n'
          ((groups.members n').insert m') := by
      intro n n' m m' hne
      simp [add, members, ExtTreeMap.getElem?_insert, hne]
    rw [hjoined _ _ hname, hjoined _ _ (Ne.symm hname)]
    exact Maps.insert_comm _ _ _ hname

end Groups

/-! ## Links -/

namespace Topology

/-- The graph with a router that a link names. -/
def withEndpoint (cache : Cache) (graph : Graph) (router : String) : Graph :=
  graph.withNode (endpoint cache router)

/-- The graph after a link is added, refused or not. -/
def joined (cache : Cache) (graph : Graph) (link : Link) : Graph :=
  if link.key ∈ graph.edges ∨ unpopulatedWeight? link ≠ none then graph
  else linked { cache, graph } link

variable {cache cache' : Cache} {graph : Graph}

theorem settle_addLink (cache : Cache) (graph : Graph) (link : Link) :
    settle { cache, graph } (addLink { cache, graph } link) =
      { cache, graph := joined cache graph link } := by
  rw [addLink_eq]
  unfold joined
  by_cases hknown : link.key ∈ graph.edges
  · simp [hknown, settle]
  · rcases hweights : unpopulatedWeight? link with _ | kind <;> simp [hknown, settle]

theorem withEndpoint_comm (cache : Cache) (graph : Graph) (router router' : String) :
    withEndpoint cache (withEndpoint cache graph router) router' =
      withEndpoint cache (withEndpoint cache graph router') router := by
  have hsame : (endpoint cache router).id = (endpoint cache router').id →
      endpoint cache router = endpoint cache router' := by
    rw [endpoint_id, endpoint_id]
    exact congrArg (endpoint cache)
  simp only [withEndpoint, Graph.withNode, Maps.insertIfNew_comm _ hsame]

theorem link_comm (graph : Graph) {edge edge' : Edge} (h : edge.key ≠ edge'.key) :
    (graph.link edge).link edge' = (graph.link edge').link edge := by
  simp only [Graph.link, Maps.insert_comm graph.edges _ _ h,
    Groups.add_comm graph.outbound edge.source, Groups.add_comm graph.inbound edge.target]

/-- Nodes and edges are written apart. -/
theorem withEndpoint_link (cache : Cache) (graph : Graph) (edge : Edge) (router : String) :
    withEndpoint cache (graph.link edge) router = (withEndpoint cache graph router).link edge :=
  rfl

theorem linked_eq (cache : Cache) (graph : Graph) (link : Link) :
    linked { cache, graph } link =
      (withEndpoint cache (withEndpoint cache graph link.source) link.target).link (edgeOf link) :=
  rfl

theorem linked_comm (cache : Cache) (graph : Graph) {link link' : Link}
    (h : link.key ≠ link'.key) :
    linked { cache, graph := linked { cache, graph } link } link' =
      linked { cache, graph := linked { cache, graph } link' } link := by
  have hedges : (edgeOf link).key ≠ (edgeOf link').key := h
  simp only [linked_eq, withEndpoint_link]
  rw [link_comm _ hedges, withEndpoint_comm cache _ link.target link'.source,
    withEndpoint_comm cache _ link.source link'.source,
    withEndpoint_comm cache _ link.target link'.target,
    withEndpoint_comm cache _ link.source link'.target]

theorem mem_edges_linked (cache : Cache) (graph : Graph) (link : Link) (key : String) :
    key ∈ (linked { cache, graph } link).edges ↔ link.key = key ∨ key ∈ graph.edges := by
  simp [linked_eq, Graph.link, withEndpoint, Graph.withNode, edgeOf]

theorem mem_edges_joined {link : Link} {key : String} (h : link.key ≠ key) :
    key ∈ (joined cache graph link).edges ↔ key ∈ graph.edges := by
  unfold joined
  split
  · exact Iff.rfl
  · rw [mem_edges_linked]
    exact or_iff_right h

/-- Links under different keys do not get in each other's way, refused or not. -/
theorem joined_comm (cache : Cache) (graph : Graph) {link link' : Link}
    (h : link.key ≠ link'.key) :
    joined cache (joined cache graph link) link' =
      joined cache (joined cache graph link') link := by
  have hturn : ∀ {link link' : Link}, link.key ≠ link'.key →
      joined cache (joined cache graph link) link' =
        if link'.key ∈ graph.edges ∨ unpopulatedWeight? link' ≠ none then joined cache graph link
        else linked { cache, graph := joined cache graph link } link' := by
    intro link link' hne
    rw [joined]
    simp only [mem_edges_joined hne]
  rw [hturn h, hturn (Ne.symm h), joined, joined]
  by_cases hidle : link.key ∈ graph.edges ∨ unpopulatedWeight? link ≠ none
  · simp only [if_pos hidle]
  · by_cases hidle' : link'.key ∈ graph.edges ∨ unpopulatedWeight? link' ≠ none
    · simp only [if_pos hidle', if_neg hidle]
    · simp only [if_neg hidle', if_neg hidle]
      exact linked_comm cache graph h

/-! ## Nodes -/

/-- The record is new to the cache: its key is not there, and no router is
spoken for by it. -/
def NewNode (cache : Cache) (node : Node) : Prop :=
  cache.nodes[node.key]? = none ∧ ∀ router : String, cache.nodeSlots[router]? ≠ some node.key

theorem storeNode_new {node : Node} (h : NewNode cache node) :
    cache.storeNode node = { cache with
      nodes := cache.nodes.insert node.key node
      nodeSlots := cache.nodeSlots.insert node.router node.key } := by
  simp [Cache.storeNode, Cache.leaveRouter, h.1]

theorem newNode_storeNode {node node' : Node} (h : NewNode cache node)
    (h' : NewNode cache node') (hkey : node.key ≠ node'.key) :
    NewNode (cache.storeNode node) node' := by
  rw [storeNode_new h]
  refine ⟨?_, fun router => ?_⟩
  · simp [ExtTreeMap.getElem?_insert, hkey, h'.1]
  · rw [ExtTreeMap.getElem?_insert]
    split
    · simpa using hkey
    · exact h'.2 router

theorem storeNode_comm {node node' : Node} (h : NewNode cache node) (h' : NewNode cache node')
    (hkey : node.key ≠ node'.key) (hrouter : node.router ≠ node'.router) :
    (cache.storeNode node).storeNode node' = (cache.storeNode node').storeNode node := by
  rw [storeNode_new (newNode_storeNode h h' hkey), storeNode_new (newNode_storeNode h' h hkey.symm),
    storeNode_new h, storeNode_new h']
  simp only [Maps.insert_comm cache.nodes _ _ hkey, Maps.insert_comm cache.nodeSlots _ _ hrouter]

theorem describe_comm (graph : Graph) {node node' : Node} (h : node.router ≠ node'.router) :
    (graph.describe node).describe node' = (graph.describe node').describe node := by
  simp [Graph.describe, ExtTreeMap.getElem?_insert, h, Ne.symm h,
    Maps.insert_comm graph.nodes _ _ h]

/-! ## Nodes and links -/

theorem endpoint_storeNode {node : Node} (h : NewNode cache node) {router : String}
    (hrouter : node.router ≠ router) :
    endpoint (cache.storeNode node) router = endpoint cache router := by
  have hvoice : (cache.storeNode node).nodeOfRouter? router = cache.nodeOfRouter? router := by
    rw [storeNode_new h]
    simp only [Cache.nodeOfRouter?, ExtTreeMap.getElem?_insert, Std.compare_eq_iff_eq, hrouter,
      if_false]
    rcases hslot : cache.nodeSlots[router]? with _ | key
    · rfl
    · have hkey : node.key ≠ key := fun heq => h.2 router (by rw [hslot, heq])
      simp [hkey]
  unfold endpoint
  rw [hvoice]

/-- A router comes out as its record describes it, whether a link named it
before or after. -/
theorem describe_withEndpoint {node : Node} (h : NewNode cache node) (graph : Graph)
    (router : String) :
    (withEndpoint cache graph router).describe node =
      withEndpoint (cache.storeNode node) (graph.describe node) router := by
  by_cases hrouter : node.router = router
  · subst hrouter
    rcases hknown : graph.nodes[node.router]? with _ | known
    · have habsent : node.router ∉ graph.nodes := by simp [Maps.mem_iff_exists, hknown]
      simp [withEndpoint, Graph.describe, Graph.withNode, endpoint_id, hknown,
        Maps.insertIfNew_of_notMem _ habsent, Maps.insertIfNew_of_mem, Maps.insert_insert,
        GraphNode.placeholder]
    · have hthere : node.router ∈ graph.nodes := Maps.mem_iff_exists.2 ⟨known, hknown⟩
      simp [withEndpoint, Graph.describe, Graph.withNode, endpoint_id, Maps.insertIfNew_of_mem,
        hthere]
  · simp only [withEndpoint, endpoint_storeNode h hrouter, Graph.withNode, Graph.describe,
      endpoint_id, Maps.insertIfNew_insert_comm _ _ _ (Ne.symm hrouter),
      ExtTreeMap.getElem?_insertIfNew, Std.compare_eq_iff_eq, Ne.symm hrouter, false_and, if_false]

theorem describe_joined {node : Node} (h : NewNode cache node) (graph : Graph) (link : Link) :
    (joined cache graph link).describe node =
      joined (cache.storeNode node) (graph.describe node) link := by
  unfold joined
  rw [apply_ite (Graph.describe · node)]
  rw [linked_eq, linked_eq, ← describe_withEndpoint h, ← describe_withEndpoint h]
  rfl

/-! ## Segment identifiers -/

theorem take_comm (slots : SidSlots) {router router' : String} {algorithm algorithm' : UInt8}
    (key key' : String) (h : ¬(router = router' ∧ algorithm = algorithm')) :
    (slots.take router algorithm key).take router' algorithm' key' =
      (slots.take router' algorithm' key').take router algorithm key := by
  by_cases hrouter : router = router'
  · subst hrouter
    have halgorithm : algorithm ≠ algorithm' := fun heq => h ⟨rfl, heq⟩
    simp [SidSlots.take, SidSlots.ofRouter, Maps.insert_insert,
      Maps.insert_comm _ key key' halgorithm]
  · simp [SidSlots.take, SidSlots.ofRouter, ExtTreeMap.getElem?_insert, hrouter, Ne.symm hrouter,
      Maps.insert_comm slots _ _ hrouter]

theorem storeSid_new {sid : Sid} (h : cache.sids[sid.key]? = none) :
    cache.storeSid sid = { cache with
      sidSlots := cache.sidSlots.take sid.router sid.algorithm sid.key
      sids := cache.sids.insert sid.key sid } := by
  simp [Cache.storeSid, Cache.leaveSlot, h]

theorem newSid_storeSid {sid sid' : Sid} (h' : cache.sids[sid'.key]? = none)
    (hkey : sid.key ≠ sid'.key) : (cache.storeSid sid).sids[sid'.key]? = none := by
  simp [Cache.storeSid, ExtTreeMap.getElem?_insert, hkey, h']

theorem storeSid_comm {sid sid' : Sid} (h : cache.sids[sid.key]? = none)
    (h' : cache.sids[sid'.key]? = none) (hkey : sid.key ≠ sid'.key)
    (hslot : ¬(sid.router = sid'.router ∧ sid.algorithm = sid'.algorithm)) :
    (cache.storeSid sid).storeSid sid' = (cache.storeSid sid').storeSid sid := by
  rw [storeSid_new (newSid_storeSid h' hkey), storeSid_new (newSid_storeSid h hkey.symm),
    storeSid_new h, storeSid_new h']
  simp only [Maps.insert_comm cache.sids _ _ hkey, take_comm cache.sidSlots _ _ hslot]

end Topology

/-! ## Announcements -/

theorem Standing.enter_comm (s : Standing) {p p' : Prefix} (h : p.key ≠ p'.key) :
    (s.enter p).enter p' = (s.enter p').enter p := by
  simp [enter, Maps.insert_comm s.announcers _ _ h]

namespace Announcements

/-- Announcements with the same records stand the same if every network does. -/
theorem eq_of_standing {a a' : Announcements} (cache : Cache)
    (hcache : ∃ slots, a.cache = { cache with clientNetworks := slots })
    (hcache' : ∃ slots, a'.cache = { cache with clientNetworks := slots })
    (hstanding : ∀ network, a.standing network = a'.standing network) : a = a' := by
  have hcounts : a.counts = a'.counts :=
    ExtTreeMap.ext_getElem? fun network => congrArg Standing.count (hstanding network)
  have hslots : a.cache.clientNetworks = a'.cache.clientNetworks :=
    ExtTreeMap.ext_getElem? fun network => congrArg Standing.holder (hstanding network)
  obtain ⟨counts, _⟩ := a
  obtain ⟨counts', _⟩ := a'
  obtain ⟨slots, rfl⟩ := hcache
  obtain ⟨slots', rfl⟩ := hcache'
  cases hcounts
  cases hslots
  rfl

theorem record_cache (a : Announcements) (p : Prefix) :
    ∃ slots, (a.record p).cache = { a.cache with
      prefixes := a.cache.prefixes.insert p.key p, clientNetworks := slots } := by
  unfold record
  split
  · exact ⟨_, rfl⟩
  · dsimp only
    split <;> exact ⟨_, rfl⟩

theorem record_record_cache (a : Announcements) (p p' : Prefix) :
    ∃ slots, ((a.record p).record p').cache = { a.cache with
      prefixes := (a.cache.prefixes.insert p.key p).insert p'.key p'
      clientNetworks := slots } := by
  obtain ⟨slots, hcache⟩ := a.record_cache p
  obtain ⟨slots', hcache'⟩ := (a.record p).record_cache p'
  rw [hcache] at hcache'
  exact ⟨slots', hcache'⟩

/-- Of two announcements of a network it does not matter which comes first:
with the second one the status is gone. -/
theorem record_comm {a : Announcements} {p p' : Prefix} (hnew : a.cache.prefixes[p.key]? = none)
    (hnew' : a.cache.prefixes[p'.key]? = none) (h : p.key ≠ p'.key) :
    (a.record p).record p' = (a.record p').record p := by
  have hstill : ∀ {p p' : Prefix}, a.cache.prefixes[p'.key]? = none → p.key ≠ p'.key →
      (a.record p).cache.prefixes[p'.key]? = none := by
    intro p p' hnew hne
    simp [prefixes_record, ExtTreeMap.getElem?_insert, hne, hnew]
  apply eq_of_standing { a.cache with
    prefixes := (a.cache.prefixes.insert p.key p).insert p'.key p' } (a.record_record_cache p p')
  · rw [Maps.insert_comm _ _ _ h]
    exact a.record_record_cache p' p
  · intro network
    rw [standing_record (hstill hnew' h), standing_record (hstill hnew h.symm),
      standing_record hnew, standing_record hnew']
    by_cases hspeaks : p.announces network = true
    · by_cases hspeaks' : p'.announces network = true
      · simp only [hspeaks, hspeaks', if_true, Standing.enter_comm _ h]
      · simp [hspeaks, hspeaks']
    · simp [hspeaks]

end Announcements

end TopologySync
