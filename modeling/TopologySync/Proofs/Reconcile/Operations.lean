-- What becomes of the cache. Whatever is applied, events or snapshots, the
-- cache goes from one of its operations to the next, so that all that holds
-- of operations on a cache holds of the cache that is kept.
import TopologySync.Proofs.Cache.Indices
import TopologySync.Proofs.Reconcile.Requests

namespace TopologySync

namespace Cache

/-- The cache is what operations made of an empty one. -/
def Made (cache : Cache) : Prop :=
  ∃ ops, cache = empty.after ops

variable {cache : Cache}

theorem made_empty : empty.Made :=
  ⟨[], rfl⟩

theorem made_apply (h : cache.Made) (op : Op) : (cache.apply op).Made := by
  obtain ⟨ops, rfl⟩ := h
  exact ⟨ops ++ [op], (after_snoc empty ops op).symm⟩

end Cache

/-! ## Announcements -/

namespace Announcements

variable {a : Announcements}

theorem made_record (h : a.cache.Made) (p : Prefix) : (a.record p).cache.Made := by
  unfold record
  split
  · exact Cache.made_apply h (.storePrefix p)
  · dsimp only
    split
    · exact Cache.made_apply h (.storeClientNetwork p)
    · exact Cache.made_apply (Cache.made_apply h (.removeClientNetwork p.network)) (.storePrefix p)

theorem made_refresh (h : a.cache.Made) (p : Prefix) : (a.refresh p).cache.Made := by
  unfold refresh
  dsimp only
  split
  · exact Cache.made_apply h (.storeClientNetwork p)
  · exact Cache.made_apply h (.storePrefix p)

theorem made_uncount (h : a.cache.Made) (key network : String) :
    (a.uncount key network).2.cache.Made := by
  unfold uncount
  split
  · exact h
  · split
    · exact h
    · exact Cache.made_apply h (.removeClientNetwork network)

theorem made_delete (h : a.cache.Made) (key : String) : (a.delete key).2.cache.Made := by
  have hremoved : (a.cache.removePrefix key).2.Made := Cache.made_apply h (.removePrefix key)
  unfold delete
  generalize a.cache.removePrefix key = removed at hremoved ⊢
  obtain ⟨_ | p, cache⟩ := removed
  · exact h
  · dsimp only
    split
    · exact hremoved
    · exact made_uncount hremoved key p.network

theorem made_add (h : a.cache.Made) (p : Prefix) : (a.add p).2.cache.Made := by
  have hdelete := made_delete h p.key
  unfold add
  rcases a.cache.prefixes[p.key]? with _ | known
  · exact made_record h p
  · dsimp only
    split
    · exact made_refresh h p
    · generalize a.delete p.key = deleted at hdelete ⊢
      obtain ⟨_ | ⟨⟩, left⟩ := deleted
      · exact hdelete
      · exact made_record hdelete p

end Announcements

/-! ## Events and snapshots -/

namespace Sync

variable {s : Sync}

theorem made_onTopology (h : s.topology.cache.Made) (taken : Bool)
    {change : Topology → Except ReconcileError (Bool × Topology)}
    (hchange : (s.topology.settle (change s.topology)).cache.Made) :
    (s.onTopology taken change).2.topology.cache.Made := by
  rw [onTopology_topology]
  split
  · exact hchange
  · exact h

theorem made_onAnnouncements (h : s.topology.cache.Made)
    {change : Announcements → Except ReconcileError Unit × Announcements}
    (hchange : ∀ a : Announcements, a.cache.Made → (change a).2.cache.Made) :
    (s.onAnnouncements change).2.topology.cache.Made := by
  unfold onAnnouncements
  rcases s.dispatcher.prefixes with _ | counts
  · exact h
  · exact hchange { counts, cache := s.topology.cache } h

theorem made_apply (h : s.topology.cache.Made) (event : Event) :
    (s.apply event).2.topology.cache.Made := by
  cases event with
  | addNode node | updateNode node =>
    apply made_onTopology h
    rw [Topology.upsertNode_eq]
    exact Cache.made_apply h (.storeNode node)
  | deleteNode key =>
    have hremoved : (s.topology.cache.removeNode key).2.Made := Cache.made_apply h (.removeNode key)
    apply made_onTopology h
    rw [Topology.deleteNode_eq]
    split
    · exact h
    · dsimp only
      split <;> exact hremoved
  | addLink link =>
    apply made_onTopology h
    rw [Topology.cache_addLink]
    exact h
  | updateLink link =>
    apply made_onTopology h
    simp only [Topology.settle_map, implies_true, Topology.cache_updateLink]
    exact h
  | deleteLink key =>
    apply made_onTopology h
    rw [Topology.deleteLink_eq]
    split <;> exact h
  | addPrefix p => exact made_onAnnouncements h fun _ ha => Announcements.made_add ha p
  | deletePrefix key => exact made_onAnnouncements h fun _ ha => Announcements.made_delete ha key
  | addSid sid => exact made_onTopology h _ (Cache.made_apply h (.storeSid sid))
  | deleteSid key => exact made_onTopology h _ (Cache.made_apply h (.removeSid key))

theorem made_dispatch (h : s.topology.cache.Made) (event : Event) :
    (s.dispatch event).2.1.topology.cache.Made := by
  rw [dispatch_state]
  split
  · exact made_apply h event
  · exact h

/-- Whatever a dispatcher is asked, its cache is what operations made of it. -/
theorem made_serveAll (dispatcher : Dispatcher) (requests : List Request) :
    (serveAll { dispatcher } requests).topology.cache.Made :=
  serveAll_keeps (P := fun s => s.topology.cache.Made) (fun _ event h => made_dispatch h event)
    (fun _ h => h) Cache.made_empty requests

end Sync

end TopologySync
