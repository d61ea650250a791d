-- Stores of one family in turn, made twice over. Records may take each other's
-- slots, so that the second pass hands the slots round once more, and still it
-- leaves the cache as the first one did.
import TopologySync.Proofs.Cache.Indices

open Std

namespace TopologySync

namespace SidSlots

theorem getElem?_of_full {slots : SidSlots} (h : slots.Full) (router : String) :
    slots[router]? =
      if (slots.ofRouter router).isEmpty then none else some (slots.ofRouter router) := by
  unfold ofRouter
  rcases hknown : slots[router]? with _ | own
  · rfl
  · have hsome : own.isEmpty = false := by
      rw [← Bool.not_eq_true, ExtTreeMap.isEmpty_iff]
      exact h router own hknown
    simp [hsome]

/-- Slots are the same if the same keys hold them, where no router is kept without one. -/
theorem eq_of_holder {slots slots' : SidSlots} (h : slots.Full) (h' : slots'.Full)
    (hholder : ∀ slot, slots.holder slot = slots'.holder slot) : slots = slots' := by
  apply ExtTreeMap.ext_getElem?
  intro router
  have hown : slots.ofRouter router = slots'.ofRouter router :=
    ExtTreeMap.ext_getElem? fun algorithm => hholder (router, algorithm)
  rw [getElem?_of_full h, getElem?_of_full h', hown]

end SidSlots

namespace Cache

variable {cache : Cache}

/-! ## Nodes -/

theorem nodes_storeNodes (cache : Cache) (nodes : List Node) :
    (nodes.foldl storeNode cache).nodes =
      Maps.writeAll Node.key (fun node _ => node) cache.nodes nodes := by
  induction nodes generalizing cache with
  | nil => rfl
  | cons node rest ih => exact ih (cache.storeNode node)

theorem storeNodes_frame (cache : Cache) (nodes : List Node) :
    nodes.foldl storeNode cache = { cache with
      nodes := (nodes.foldl storeNode cache).nodes
      nodeSlots := (nodes.foldl storeNode cache).nodeSlots } := by
  induction nodes generalizing cache with
  | nil => rfl
  | cons node rest ih => exact ih (cache.storeNode node)

theorem nodeTenancy_storeNodes (cache : Cache) (nodes : List Node) :
    (nodes.foldl storeNode cache).nodeTenancy =
      cache.nodeTenancy.after (nodes.map (fun node => .take node.key node.router)) :=
  Tenancy.view_after nodeTenancy_storeNode cache nodes

/-- Nodes that are stored again leave the cache as it is. -/
theorem storeNodes_again (hsound : cache.nodeTenancy.Sound) (nodes : List Node) :
    nodes.foldl storeNode (nodes.foldl storeNode cache) = nodes.foldl storeNode cache := by
  have hnodes : (nodes.foldl storeNode (nodes.foldl storeNode cache)).nodes =
      (nodes.foldl storeNode cache).nodes := by
    rw [nodes_storeNodes, nodes_storeNodes]
    exact Maps.writeAll_settled (fun _ _ _ _ => rfl) fun _ _ => rfl
  have hslots : (nodes.foldl storeNode (nodes.foldl storeNode cache)).nodeSlots =
      (nodes.foldl storeNode cache).nodeSlots := by
    apply ExtTreeMap.ext_getElem?
    intro router
    change (nodeTenancy _).holder router = (nodeTenancy _).holder router
    rw [nodeTenancy_storeNodes, nodeTenancy_storeNodes, Tenancy.holder_after_after hsound]
  rw [storeNodes_frame, hnodes, hslots]

/-! ## Segment identifiers -/

theorem sids_storeSids (cache : Cache) (sids : List Sid) :
    (sids.foldl storeSid cache).sids =
      Maps.writeAll Sid.key (fun sid _ => sid) cache.sids sids := by
  induction sids generalizing cache with
  | nil => rfl
  | cons sid rest ih => exact ih (cache.storeSid sid)

theorem storeSids_frame (cache : Cache) (sids : List Sid) :
    sids.foldl storeSid cache = { cache with
      sids := (sids.foldl storeSid cache).sids
      sidSlots := (sids.foldl storeSid cache).sidSlots } := by
  induction sids generalizing cache with
  | nil => rfl
  | cons sid rest ih => exact ih (cache.storeSid sid)

theorem sidTenancy_storeSids (cache : Cache) (sids : List Sid) :
    (sids.foldl storeSid cache).sidTenancy =
      cache.sidTenancy.after (sids.map (fun sid => .take sid.key (sid.router, sid.algorithm))) :=
  Tenancy.view_after sidTenancy_storeSid cache sids

theorem tidy_storeSids (h : cache.Tidy) (sids : List Sid) :
    (sids.foldl storeSid cache).Tidy :=
  List.foldlRecOn sids storeSid h fun _ htidy sid _ => tidy_apply htidy (.storeSid sid)

/-- Segment identifiers that are stored again leave the cache as it is. -/
theorem storeSids_again (hsound : cache.sidTenancy.Sound) (htidy : cache.Tidy)
    (sids : List Sid) :
    sids.foldl storeSid (sids.foldl storeSid cache) = sids.foldl storeSid cache := by
  have hsids : (sids.foldl storeSid (sids.foldl storeSid cache)).sids =
      (sids.foldl storeSid cache).sids := by
    rw [sids_storeSids, sids_storeSids]
    exact Maps.writeAll_settled (fun _ _ _ _ => rfl) fun _ _ => rfl
  have hslots : (sids.foldl storeSid (sids.foldl storeSid cache)).sidSlots =
      (sids.foldl storeSid cache).sidSlots := by
    have hfirst := tidy_storeSids htidy sids
    refine SidSlots.eq_of_holder (tidy_storeSids hfirst sids).full hfirst.full fun slot => ?_
    change (sidTenancy _).holder slot = (sidTenancy _).holder slot
    rw [sidTenancy_storeSids, sidTenancy_storeSids, Tenancy.holder_after_after hsound]
  rw [storeSids_frame, hsids, hslots]

end Cache

end TopologySync
