-- The indices of nodes and of segment identifiers, against all that ever
-- happened to the cache. A slot names the record that took it last, unless
-- that record has left since: neither a removal nor a move of any other
-- record has a part in it.
import TopologySync.Cache.Basic
import TopologySync.Fixtures
import TopologySync.Proofs.Cache.Tenancy
import TopologySync.Proofs.Maps

open Std

namespace TopologySync

/-! ## Slots by router and algorithm -/

namespace SidSlots

/-- The key that holds a slot. -/
def holder (slots : SidSlots) (slot : String × UInt8) : Option String :=
  (slots.ofRouter slot.1)[slot.2]?

/-- No router is kept without a slot. -/
def Full (slots : SidSlots) : Prop :=
  ∀ (router : String) (own : ExtTreeMap UInt8 String), slots[router]? = some own → own ≠ ∅

variable {slots : SidSlots}

theorem holder_take (slots : SidSlots) (router : String) (algorithm : UInt8) (key : String)
    (slot : String × UInt8) :
    (slots.take router algorithm key).holder slot =
      if (router, algorithm) = slot then some key else slots.holder slot := by
  obtain ⟨router', algorithm'⟩ := slot
  by_cases hrouter : router = router'
  · subst hrouter
    simp [holder, take, ofRouter, ExtTreeMap.getElem?_insert]
  · simp [holder, take, ofRouter, ExtTreeMap.getElem?_insert, hrouter]

/-- What a router is left with when a key gives up a slot. -/
def left (slots : SidSlots) (router : String) (algorithm : UInt8) (key : String) :
    ExtTreeMap UInt8 String :=
  if (slots.ofRouter router)[algorithm]? = some key then (slots.ofRouter router).erase algorithm
  else slots.ofRouter router

theorem getElem?_release (slots : SidSlots) (router : String) (algorithm : UInt8) (key : String)
    (router' : String) :
    (slots.release router algorithm key)[router']? =
      if router = router' then
        if (slots.left router algorithm key).isEmpty then none
        else some (slots.left router algorithm key)
      else slots[router']? := by
  have hrelease : slots.release router algorithm key =
      if (slots.left router algorithm key).isEmpty then slots.erase router
      else slots.insert router (slots.left router algorithm key) := rfl
  rw [hrelease]
  split
  · simp [ExtTreeMap.getElem?_erase]
  · simp [ExtTreeMap.getElem?_insert]

theorem ofRouter_release (slots : SidSlots) (router : String) (algorithm : UInt8) (key : String)
    (router' : String) :
    (slots.release router algorithm key).ofRouter router' =
      if router = router' then slots.left router algorithm key else slots.ofRouter router' := by
  unfold ofRouter
  rw [getElem?_release]
  split
  · split
    · rename_i hempty
      exact (ExtTreeMap.isEmpty_iff.1 hempty).symm
    · rfl
  · rfl

theorem getElem?_left (slots : SidSlots) (router : String) (algorithm : UInt8) (key : String)
    (algorithm' : UInt8) :
    (slots.left router algorithm key)[algorithm']? =
      if algorithm = algorithm' ∧ (slots.ofRouter router)[algorithm']? = some key then none
      else (slots.ofRouter router)[algorithm']? := by
  unfold left
  by_cases halgorithm : algorithm = algorithm'
  · subst halgorithm
    split
    · rename_i hheld
      simp [hheld]
    · rename_i hheld
      simp [hheld]
  · split
    · simp [ExtTreeMap.getElem?_erase, halgorithm]
    · simp [halgorithm]

theorem holder_release (slots : SidSlots) (router : String) (algorithm : UInt8) (key : String)
    (slot : String × UInt8) :
    (slots.release router algorithm key).holder slot =
      if (router, algorithm) = slot ∧ slots.holder slot = some key then none
      else slots.holder slot := by
  obtain ⟨router', algorithm'⟩ := slot
  unfold holder
  rw [ofRouter_release]
  by_cases hrouter : router = router'
  · subst hrouter
    simp [getElem?_left]
  · simp [hrouter]

theorem full_take (h : slots.Full) (router : String) (algorithm : UInt8) (key : String) :
    (slots.take router algorithm key).Full := by
  intro router' own hown
  rw [take, ExtTreeMap.getElem?_insert] at hown
  split at hown
  · cases hown
    exact ExtTreeMap.insert_ne_empty
  · exact h router' own hown

theorem full_release (h : slots.Full) (router : String) (algorithm : UInt8) (key : String) :
    (slots.release router algorithm key).Full := by
  intro router' own hown
  rw [getElem?_release] at hown
  split at hown
  · split at hown
    · cases hown
    · rename_i hleft
      cases hown
      exact fun hempty => hleft (ExtTreeMap.isEmpty_iff.2 hempty)
  · exact h router' own hown

end SidSlots

namespace Cache

/-! ## Operations -/

/-- Whatever can be asked of the cache that may change it. -/
inductive Op where
  | storeNode (node : Node)
  | removeNode (key : String)
  | storeSid (sid : Sid)
  | removeSid (key : String)
  | storePrefix (announcement : Prefix)
  | storeClientNetwork (announcement : Prefix)
  | removePrefix (key : String)
  | removeClientNetwork (network : String)
  | storeServiceSid (service sid : String)
  | removeServiceSid (service sid : String)

def apply (cache : Cache) : Op → Cache
  | .storeNode node => cache.storeNode node
  | .removeNode key => (cache.removeNode key).2
  | .storeSid sid => cache.storeSid sid
  | .removeSid key => (cache.removeSid key).2
  | .storePrefix p => cache.storePrefix p
  | .storeClientNetwork p => cache.storeClientNetwork p
  | .removePrefix key => (cache.removePrefix key).2
  | .removeClientNetwork network => (cache.removeClientNetwork network).2
  | .storeServiceSid service sid => cache.storeServiceSid service sid
  | .removeServiceSid service sid => (cache.removeServiceSid service sid).2

def after (cache : Cache) (ops : List Op) : Cache :=
  ops.foldl apply cache

theorem after_snoc (cache : Cache) (ops : List Op) (op : Op) :
    cache.after (ops ++ [op]) = (cache.after ops).apply op :=
  List.foldl_append

/-- What an operation does to the slots of routers. -/
def Op.nodeMove : Op → Tenancy.Move String String
  | .storeNode node => .take node.key node.router
  | .removeNode key => .leave key
  | _ => .stay

/-- What an operation does to the slots of routers and algorithms. -/
def Op.sidMove : Op → Tenancy.Move String (String × UInt8)
  | .storeSid sid => .take sid.key (sid.router, sid.algorithm)
  | .removeSid key => .leave key
  | _ => .stay

/-! ## Moves -/

/-- The router of each node, and the node that speaks for each router. -/
def nodeTenancy (cache : Cache) : Tenancy String String :=
  .ofRecords cache.nodes (·.router) (cache.nodeSlots[·]?)

/-- The slot of each segment identifier, and who holds each slot. -/
def sidTenancy (cache : Cache) : Tenancy String (String × UInt8) :=
  .ofRecords cache.sids (fun sid => (sid.router, sid.algorithm)) cache.sidSlots.holder

variable (cache : Cache)

theorem nodeTenancy_storeNode (node : Node) :
    (cache.storeNode node).nodeTenancy =
      cache.nodeTenancy.step (.take node.key node.router) := by
  have hstays : (∀ previous, cache.nodes[node.key]? = some previous →
      previous.router = node.router) →
      ∀ router : String, (cache.leaveRouter node)[router]? = cache.nodeSlots[router]? := by
    intro hsame router
    unfold leaveRouter
    rcases hknown : cache.nodes[node.key]? with _ | previous
    · rfl
    · simp [hsame previous hknown]
  have hmoves : ∀ previous, cache.nodes[node.key]? = some previous →
      previous.router ≠ node.router → ∀ router : String, (cache.leaveRouter node)[router]? =
        if previous.router = router ∧ cache.nodeSlots[router]? = some node.key then none
        else cache.nodeSlots[router]? := by
    intro previous hknown hmoved router
    simp only [leaveRouter, hknown, hmoved, if_false]
    exact Slots.getElem?_release _ _ _ _
  refine Tenancy.ofRecords_store hstays hmoves fun router => ?_
  simp [storeNode, ExtTreeMap.getElem?_insert]

theorem nodeTenancy_removeNode (key : String) :
    (cache.removeNode key).2.nodeTenancy = cache.nodeTenancy.step (.leave key) := by
  unfold removeNode
  rcases hknown : cache.nodes[key]? with _ | node
  · exact (Tenancy.ofRecords_unknown hknown).symm
  · exact Tenancy.ofRecords_remove hknown fun router => Slots.getElem?_release _ _ _ _

theorem sidTenancy_storeSid (sid : Sid) :
    (cache.storeSid sid).sidTenancy =
      cache.sidTenancy.step (.take sid.key (sid.router, sid.algorithm)) := by
  have hstays : (∀ previous, cache.sids[sid.key]? = some previous →
      (previous.router, previous.algorithm) = (sid.router, sid.algorithm)) →
      ∀ slot, (cache.leaveSlot sid).holder slot = cache.sidSlots.holder slot := by
    intro hsame slot
    unfold leaveSlot
    rcases hknown : cache.sids[sid.key]? with _ | previous
    · rfl
    · simp [Prod.mk.inj (hsame previous hknown)]
  have hmoves : ∀ previous, cache.sids[sid.key]? = some previous →
      (previous.router, previous.algorithm) ≠ (sid.router, sid.algorithm) →
      ∀ slot, (cache.leaveSlot sid).holder slot =
        if (previous.router, previous.algorithm) = slot ∧
          cache.sidSlots.holder slot = some sid.key then none
        else cache.sidSlots.holder slot := by
    intro previous hknown hmoved slot
    simp only [ne_eq, Prod.mk.injEq] at hmoved
    simp only [leaveSlot, hknown, hmoved, if_false]
    exact SidSlots.holder_release _ _ _ _ _
  exact Tenancy.ofRecords_store hstays hmoves fun slot => SidSlots.holder_take _ _ _ _ _

theorem sidTenancy_removeSid (key : String) :
    (cache.removeSid key).2.sidTenancy = cache.sidTenancy.step (.leave key) := by
  unfold removeSid
  rcases hknown : cache.sids[key]? with _ | sid
  · exact (Tenancy.ofRecords_unknown hknown).symm
  · exact Tenancy.ofRecords_remove hknown fun slot => SidSlots.holder_release _ _ _ _ _

/-! ## Operations in turn -/

/-- An operation moves nodes as it says, or leaves them where they are. -/
theorem nodeTenancy_apply (op : Op) :
    (cache.apply op).nodeTenancy = cache.nodeTenancy.step op.nodeMove := by
  cases op with
  | storeNode node => exact cache.nodeTenancy_storeNode node
  | removeNode key => exact cache.nodeTenancy_removeNode key
  | removeSid key =>
    simp only [apply, removeSid]
    rcases cache.sids[key]? with _ | sid <;> rfl
  | removePrefix key =>
    simp only [apply, removePrefix]
    rcases cache.prefixes[key]? with _ | p <;> rfl
  | _ => rfl

theorem sidTenancy_apply (op : Op) :
    (cache.apply op).sidTenancy = cache.sidTenancy.step op.sidMove := by
  cases op with
  | storeSid sid => exact cache.sidTenancy_storeSid sid
  | removeSid key => exact cache.sidTenancy_removeSid key
  | removeNode key =>
    simp only [apply, removeNode]
    rcases cache.nodes[key]? with _ | node <;> rfl
  | removePrefix key =>
    simp only [apply, removePrefix]
    rcases cache.prefixes[key]? with _ | p <;> rfl
  | _ => rfl

theorem nodeTenancy_after (ops : List Op) :
    (empty.after ops).nodeTenancy = Tenancy.empty.after (ops.map Op.nodeMove) :=
  Tenancy.view_after nodeTenancy_apply empty ops

theorem sidTenancy_after (ops : List Op) :
    (empty.after ops).sidTenancy = Tenancy.empty.after (ops.map Op.sidMove) :=
  Tenancy.view_after sidTenancy_apply empty ops

/-! ## Well-formed caches -/

/-- Records stand under their own keys, and no router is kept without a slot. -/
structure Tidy (cache : Cache) : Prop where
  nodes : ∀ (key : String) (node : Node), cache.nodes[key]? = some node → node.key = key
  sids : ∀ (key : String) (sid : Sid), cache.sids[key]? = some sid → sid.key = key
  full : cache.sidSlots.Full

variable {cache}

theorem tidy_empty : empty.Tidy where
  nodes key node hnode := by simp [empty] at hnode
  sids key sid hsid := by simp [empty] at hsid
  full router own hown := by simp [empty] at hown

theorem full_leaveSlot (h : cache.sidSlots.Full) (sid : Sid) : (cache.leaveSlot sid).Full := by
  unfold leaveSlot
  rcases cache.sids[sid.key]? with _ | previous
  · exact h
  · dsimp only
    split
    · exact h
    · exact SidSlots.full_release h _ _ _

theorem tidy_apply (h : cache.Tidy) (op : Op) : (cache.apply op).Tidy := by
  cases op with
  | storeNode node => exact { h with nodes := Maps.own_key_insert h.nodes rfl }
  | removeNode key =>
    simp only [apply, removeNode]
    rcases cache.nodes[key]? with _ | node
    · exact h
    · exact { h with nodes := Maps.own_key_erase h.nodes key }
  | storeSid sid =>
    exact { h with
      sids := Maps.own_key_insert h.sids rfl
      full := SidSlots.full_take (full_leaveSlot h.full sid) _ _ _ }
  | removeSid key =>
    simp only [apply, removeSid]
    rcases cache.sids[key]? with _ | sid
    · exact h
    · exact { h with
        sids := Maps.own_key_erase h.sids key
        full := SidSlots.full_release h.full _ _ _ }
  | removePrefix key =>
    simp only [apply, removePrefix]
    rcases cache.prefixes[key]? with _ | p
    · exact h
    · exact { h with }
  | _ => exact { h with }

theorem tidy_after (ops : List Op) : (empty.after ops).Tidy :=
  ops.foldlRecOn (motive := Tidy) apply tidy_empty fun _ htidy op _ => tidy_apply htidy op

/-! ## What a slot tells -/

theorem sidKey?_after (ops : List Op) (router : String) (algorithm : UInt8) (key : String) :
    (empty.after ops).sidKey? router algorithm = some key ↔
      Tenancy.Holds (ops.map Op.sidMove) (router, algorithm) key := by
  rw [← Tenancy.holder_after, ← sidTenancy_after]
  exact Iff.rfl

theorem nodeSlots_after (ops : List Op) (router key : String) :
    (empty.after ops).nodeSlots[router]? = some key ↔
      Tenancy.Holds (ops.map Op.nodeMove) router key := by
  rw [← Tenancy.holder_after, ← nodeTenancy_after]
  exact Iff.rfl

theorem sound_sidTenancy (ops : List Op) : (empty.after ops).sidTenancy.Sound :=
  sidTenancy_after ops ▸ Tenancy.sound_after Tenancy.sound_empty _

theorem sound_nodeTenancy (ops : List Op) : (empty.after ops).nodeTenancy.Sound :=
  nodeTenancy_after ops ▸ Tenancy.sound_after Tenancy.sound_empty _

/-- A slot names a record of its own router and its own algorithm. -/
theorem sid_of_slot (ops : List Op) {router : String} {algorithm : UInt8} {key : String}
    (h : (empty.after ops).sidKey? router algorithm = some key) :
    ∃ sid, (empty.after ops).sids[key]? = some sid ∧ sid.key = key ∧ sid.router = router ∧
      sid.algorithm = algorithm := by
  have hholder : (empty.after ops).sidSlots.holder (router, algorithm) = some key := h
  obtain ⟨sid, hsid, hhome⟩ := Tenancy.record_of_holder (sound_sidTenancy ops) hholder
  obtain ⟨hrouter, halgorithm⟩ := Prod.mk.inj hhome
  exact ⟨sid, hsid, (tidy_after ops).sids key sid hsid, hrouter, halgorithm⟩

theorem node_of_slot (ops : List Op) {router key : String}
    (h : (empty.after ops).nodeSlots[router]? = some key) :
    ∃ node, (empty.after ops).nodes[key]? = some node ∧ node.key = key ∧
      node.router = router := by
  obtain ⟨node, hnode, hhome⟩ := Tenancy.record_of_holder (sound_nodeTenancy ops) h
  exact ⟨node, hnode, (tidy_after ops).nodes key node hnode, hhome⟩

/-! ## Segment identifiers of a router -/

theorem mem_sidsOfRouter {router : String} {sid : Sid} :
    sid ∈ cache.sidsOfRouter router ↔
      ∃ algorithm, cache.sidOfRouter? router algorithm = some sid := by
  simp only [sidsOfRouter, sidOfRouter?, List.mem_filterMap, Maps.mem_values, sidKey?,
    Option.bind_eq_bind, Option.bind_eq_some_iff]
  constructor
  · rintro ⟨key, ⟨algorithm, hslot⟩, hsid⟩
    exact ⟨algorithm, key, hslot, hsid⟩
  · rintro ⟨algorithm, key, hslot, hsid⟩
    exact ⟨key, ⟨algorithm, hslot⟩, hsid⟩

/-- Where slots name records of their own algorithm, the records come in the order
of their slots. -/
theorem sidsOfRouter_sorted {router : String}
    (h : ∀ algorithm sid, cache.sidOfRouter? router algorithm = some sid →
      sid.algorithm = algorithm) :
    (cache.sidsOfRouter router).Pairwise (·.algorithm < ·.algorithm) := by
  have hlist : cache.sidsOfRouter router =
      (cache.sidSlots.ofRouter router).toList.filterMap (fun slot => cache.sids[slot.2]?) := by
    rw [sidsOfRouter, Maps.values_eq_map_toList, List.filterMap_map]
    rfl
  have hslot : ∀ slot ∈ (cache.sidSlots.ofRouter router).toList, ∀ sid,
      cache.sids[slot.2]? = some sid → sid.algorithm = slot.1 := by
    intro slot hslot sid hsid
    have hkey := ExtTreeMap.mem_toList_iff_getElem?_eq_some.1 hslot
    refine h slot.1 sid ?_
    simp [sidOfRouter?, sidKey?, hkey, hsid]
  rw [hlist, List.pairwise_filterMap]
  refine ExtTreeMap.ordered_keys_toList.imp_of_mem fun hmem hmem' hlt sid hsid sid' hsid' => ?_
  rw [hslot _ hmem sid hsid, hslot _ hmem' sid' hsid']
  exact Std.compare_eq_lt.1 hlt

end Cache

/-- Whatever was asked of a cache, a slot of a router and an algorithm names a key if and only if
this key was stored for it last, and was neither removed nor stored elsewhere since. So it is with
the node that speaks for a router. The segment identifiers of a router are those in its slots. -/
theorem slots_tell_the_history (ops : List Cache.Op) :
    let cache := Cache.empty.after ops
    (∀ router algorithm key, cache.sidKey? router algorithm = some key ↔
      Tenancy.Holds (ops.map Cache.Op.sidMove) (router, algorithm) key) ∧
    (∀ router algorithm key, cache.sidKey? router algorithm = some key →
      ∃ sid, cache.sids[key]? = some sid ∧ sid.key = key ∧ sid.router = router ∧
        sid.algorithm = algorithm) ∧
    (∀ router key : String, cache.nodeSlots[router]? = some key ↔
      Tenancy.Holds (ops.map Cache.Op.nodeMove) router key) ∧
    (∀ router key : String, cache.nodeSlots[router]? = some key →
      ∃ node, cache.nodes[key]? = some node ∧ node.key = key ∧ node.router = router) ∧
    (∀ (router : String) (own : ExtTreeMap UInt8 String),
      cache.sidSlots[router]? = some own → own ≠ ∅) ∧
    ∀ router : String,
      (∀ sid, sid ∈ cache.sidsOfRouter router ↔
        ∃ algorithm, cache.sidOfRouter? router algorithm = some sid) ∧
      (cache.sidsOfRouter router).Pairwise (·.algorithm < ·.algorithm) := by
  intro cache
  refine ⟨Cache.sidKey?_after ops, fun router algorithm key => Cache.sid_of_slot ops,
    Cache.nodeSlots_after ops, fun router key => Cache.node_of_slot ops,
    (Cache.tidy_after ops).full,
    fun router => ⟨fun sid => Cache.mem_sidsOfRouter, Cache.sidsOfRouter_sorted ?_⟩⟩
  intro algorithm sid hfound
  obtain ⟨key, hkey, hknown⟩ := Option.bind_eq_some_iff.1 hfound
  obtain ⟨record, hrecord, -, -, halgorithm⟩ := Cache.sid_of_slot ops hkey
  rw [hknown] at hrecord
  cases hrecord
  exact halgorithm

/-- A segment identifier is taken over from, moves and goes, and a node is taken over
from and goes. The newer ones stay in their slots. -/
theorem newer_records_keep_their_slots :
    let older := Fixtures.sid "older" "r1" "a"
    let heir := { Fixtures.node "r1" with key := "heir" }
    let ops : List Cache.Op :=
      [.storeSid older, .storeSid (Fixtures.sid "newer" "r1" "b"),
        .storeSid { older with algorithm := 128 }, .removeSid "older",
        .storeNode (Fixtures.node "r1"), .storeNode heir, .removeNode "node-r1"]
    let cache := Cache.empty.after ops
    cache.sidKey? "r1" 0 = some "newer" ∧
      (∃ sid, cache.sids[("newer" : String)]? = some sid ∧ sid.key = "newer" ∧
        sid.router = "r1" ∧ sid.algorithm = 0) ∧
      cache.nodeSlots[("r1" : String)]? = some "heir" := by
  intro older heir ops cache
  obtain ⟨hsids, hrecord, hnodes, -⟩ := slots_tell_the_history ops
  have hnewer : cache.sidKey? "r1" 0 = some "newer" :=
    (hsids "r1" 0 "newer").2 ⟨[.take "older" ("r1", 0)],
      [.take "older" ("r1", 128), .leave "older", .stay, .stay, .stay], rfl,
      by simp, by simp, by simp⟩
  have hheir : cache.nodeSlots[("r1" : String)]? = some "heir" :=
    (hnodes "r1" "heir").2 ⟨[.stay, .stay, .stay, .stay, .take "node-r1" "r1"],
      [.leave "node-r1"], rfl, by simp, by simp, by simp⟩
  exact ⟨hnewer, hrecord "r1" 0 "newer" hnewer, hheir⟩

end TopologySync
