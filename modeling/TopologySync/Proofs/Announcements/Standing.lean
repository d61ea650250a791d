-- How one network stands: who announces it, what is counted for it and who
-- holds its status. Whatever is done to the announcements, to one network
-- it is an entry, a renewal, a withdrawal or nothing.
import TopologySync.Proofs.Announcements.Networks
import TopologySync.Reconcile.Prefix

open Std

namespace TopologySync

/-! ## One network -/

/-- What is known of one network. -/
structure Standing where
  announcers : Announced
  count : Option Nat
  /-- The key that makes it a client network. -/
  holder : Option String

namespace Standing

/-- A key announces the network anew. -/
def enter (s : Standing) (p : Prefix) : Standing where
  announcers := s.announcers.insert p.key p
  count := some (s.count.getD 0 + 1)
  holder := if s.count.getD 0 = 0 then some p.key else none

/-- A key that announces the network stores another record. -/
def renew (s : Standing) (p : Prefix) : Standing :=
  { s with announcers := s.announcers.insert p.key p }

/-- A key ceases to announce the network. -/
def leave (s : Standing) (key : String) : Standing where
  announcers := s.announcers.erase key
  count := s.count.bind (fun count => if 1 < count then some (count - 1) else none)
  holder := none

/-- What a change may come to for one network. -/
inductive Step (s : Standing) : Standing → Prop where
  | still : s.Step s
  | enter {p : Prefix} (h : p.key ∉ s.announcers) : s.Step (s.enter p)
  | renew {p : Prefix} (h : p.key ∈ s.announcers) : s.Step (s.renew p)
  | leave {key : String} (h : key ∈ s.announcers) : s.Step (s.leave key)

/-- The announcers are counted, and who holds the status is the only one. -/
structure Good (s : Standing) : Prop where
  counted : s.count = if s.announcers.size = 0 then none else some s.announcers.size
  held : ∀ key, s.holder = some key → key ∈ s.announcers ∧ s.announcers.size = 1

variable {s s' : Standing}

theorem Good.count_getD (h : s.Good) : s.count.getD 0 = s.announcers.size := by
  rw [h.counted]
  split
  · rename_i hnone
    exact hnone.symm
  · rfl

theorem good_enter (h : s.Good) {p : Prefix} (hnew : p.key ∉ s.announcers) :
    (s.enter p).Good := by
  have hsize := Maps.size_insert_of_notMem p hnew
  refine ⟨?_, fun key hkey => ?_⟩
  · simp [enter, h.count_getD, hsize]
  · simp only [enter, h.count_getD] at hkey ⊢
    split at hkey
    · rename_i hnone
      cases hkey
      exact ⟨ExtTreeMap.mem_insert_self, by rw [hsize, hnone]⟩
    · cases hkey

theorem good_renew (h : s.Good) {p : Prefix} (hold : p.key ∈ s.announcers) :
    (s.renew p).Good := by
  have hsize := Maps.size_insert_of_mem p hold
  refine ⟨?_, fun key hkey => ?_⟩
  · simp only [renew, hsize]
    exact h.counted
  · obtain ⟨hmem, hone⟩ := h.held key hkey
    exact ⟨ExtTreeMap.mem_insert.2 (Or.inr hmem), hsize.trans hone⟩

theorem good_leave (h : s.Good) {key : String} (hold : key ∈ s.announcers) :
    (s.leave key).Good := by
  have hsize := Maps.size_erase_of_mem hold
  have hpos := Maps.size_pos_of_mem hold
  refine ⟨?_, fun key hkey => by cases hkey⟩
  have hcount : s.count = some s.announcers.size := by
    rw [h.counted, if_neg (by omega)]
  simp only [leave, hcount, Option.bind_some, hsize]
  split
  · rw [if_neg (by omega)]
  · rw [if_pos (by omega)]

theorem good_step (h : s.Good) (hstep : s.Step s') : s'.Good := by
  cases hstep with
  | still => exact h
  | enter hnew => exact good_enter h hnew
  | renew hold => exact good_renew h hold
  | leave hold => exact good_leave h hold

end Standing

/-! ## What is done to the announcements -/

namespace Announcements

/-- How a network stands. -/
def standing (a : Announcements) (network : String) : Standing where
  announcers := Announced.announcers a.cache.prefixes network
  count := a.counts[network]?
  holder := a.cache.clientNetworks[network]?

/-- Every announcement is stored under its own key, and every network stands
as it should. -/
structure Exact (a : Announcements) : Prop where
  keyed : ∀ key (p : Prefix), a.cache.prefixes[key]? = some p → p.key = key
  good : ∀ network, (a.standing network).Good

theorem exact_new : Exact {} where
  keyed key p h := by simp [Cache.empty] at h
  good network := by
    have hnone : Announced.announcers Cache.empty.prefixes network = ∅ :=
      Announced.announcers_empty network
    exact ⟨by simp [standing, hnone], fun key hkey => by simp [standing, Cache.empty] at hkey⟩

variable {a : Announcements}

theorem standing_record {p : Prefix} (hnew : a.cache.prefixes[p.key]? = none) (network : String) :
    (a.record p).standing network =
      if p.announces network then (a.standing network).enter p else a.standing network := by
  have hout := Announced.notMem_announcers_of_unknown hnew network
  have hinsert := Announced.announcers_insert a.cache.prefixes network p
  rw [Maps.erase_of_notMem hout] at hinsert
  unfold record
  by_cases hhost : p.isHostRoute = true
  · have hsilent : p.announces network = false := by simp [Prefix.announces, hhost]
    simp [standing, Cache.storePrefix, hhost, hinsert, hsilent]
  · by_cases hnetwork : p.network = network
    · subst hnetwork
      have hspeaks : p.announces p.network = true := by simp [Prefix.announces, hhost]
      by_cases hfirst : a.counts[p.network]?.getD 0 = 0
      · simp [standing, Standing.enter, AnnouncementCounts.count, Cache.storeClientNetwork, hhost,
          hinsert, hspeaks, hfirst]
      · simp [standing, Standing.enter, AnnouncementCounts.count, Cache.storePrefix,
          Cache.removeClientNetwork, hhost, hinsert, hspeaks, hfirst]
    · have hsilent : p.announces network = false := by simp [Prefix.announces, hnetwork]
      simp only [hhost, Bool.false_eq_true, if_false]
      split <;> simp [standing, Cache.storePrefix, Cache.storeClientNetwork,
        Cache.removeClientNetwork, hinsert, hsilent, ExtTreeMap.getElem?_insert,
        ExtTreeMap.getElem?_erase, hnetwork]

/-- A refresh never moves the status: who holds it keeps it. -/
theorem refresh_eq (h : a.Exact) (p : Prefix) :
    a.refresh p = { a with cache := a.cache.storePrefix p } := by
  unfold refresh
  dsimp only
  split
  · rename_i hholds
    obtain ⟨holder, hholder, hkey⟩ := (Option.any_eq_true _ _).1 hholds
    obtain ⟨key, hslot, hstored⟩ := Option.bind_eq_some_iff.1 hholder
    have hown : key = p.key := by
      rw [← h.keyed key holder hstored]
      exact eq_of_beq hkey
    subst hown
    simp only [Cache.storeClientNetwork, Cache.storePrefix, Maps.insert_self hslot]
  · rfl

theorem standing_refresh (h : a.Exact) {p known : Prefix}
    (hknown : a.cache.prefixes[p.key]? = some known) (hsame : known.network = p.network)
    (network : String) :
    (a.refresh p).standing network =
      if p.announces network then (a.standing network).renew p else a.standing network := by
  have hinsert := Announced.announcers_insert a.cache.prefixes network p
  rw [refresh_eq h]
  by_cases hspeaks : p.announces network = true
  · simp [standing, Standing.renew, Cache.storePrefix, hinsert, hspeaks]
  · have hout : p.key ∉ Announced.announcers a.cache.prefixes network := by
      rw [Announced.mem_announcers_of_known hknown, Prefix.announces_of_network hsame]
      exact hspeaks
    rw [Maps.erase_of_notMem hout] at hinsert
    simp [standing, Cache.storePrefix, hinsert, hspeaks]

theorem release_other {slots : Slots} {slot key : String} (h : slots[slot]? ≠ some key) :
    slots.release slot key = slots :=
  if_neg h

theorem delete_unknown {key : String} (h : a.cache.prefixes[key]? = none) :
    a.delete key = (.error (.unknownPrefix key), a) := by
  simp [delete, Cache.removePrefix, h]

theorem delete_hostRoute (h : a.Exact) {key : String} {known : Prefix}
    (hknown : a.cache.prefixes[key]? = some known) (hhost : known.isHostRoute = true) :
    a.delete key = (.ok (),
      { a with cache := { a.cache with prefixes := a.cache.prefixes.erase key } }) := by
  have hslot : a.cache.clientNetworks[known.network]? ≠ some key := by
    intro hheld
    obtain ⟨hmem, -⟩ := (h.good known.network).held key hheld
    have hspeaks := (Announced.mem_announcers_of_known hknown _).1 hmem
    simp [Prefix.announces, hhost] at hspeaks
  simp [delete, Cache.removePrefix, hknown, hhost, release_other hslot]

/-- The count of a network is lowered, and its status is gone. -/
theorem delete_network (h : a.Exact) {key : String} {known : Prefix}
    (hknown : a.cache.prefixes[key]? = some known) (hcounts : known.isHostRoute = false) :
    ∃ counts slots, a.delete key = (.ok (), {
        counts, cache := { a.cache with
          prefixes := a.cache.prefixes.erase key, clientNetworks := slots } }) ∧
      ∀ network, counts[network]? = (if known.network = network then
          a.counts[network]?.bind (fun count => if 1 < count then some (count - 1) else none)
        else a.counts[network]?) ∧
        slots[network]? = if known.network = network then none
          else a.cache.clientNetworks[network]? := by
  have hmem : key ∈ Announced.announcers a.cache.prefixes known.network :=
    (Announced.mem_announcers_of_known hknown _).2 (by simp [Prefix.announces, hcounts])
  have hgood := h.good known.network
  have hpos := Maps.size_pos_of_mem hmem
  have hcount : a.counts[known.network]? =
      some (Announced.announcers a.cache.prefixes known.network).size :=
    hgood.counted.trans (if_neg (Nat.ne_of_gt hpos))
  generalize hn : (Announced.announcers a.cache.prefixes known.network).size = n at hcount
  by_cases hmany : 1 < n
  -- With others left no one holds the status, so that there is none to free.
  · have hslot : a.cache.clientNetworks[known.network]? = none := by
      rw [Option.eq_none_iff_forall_ne_some]
      intro holder hheld
      have hone := (hgood.held holder hheld).2
      simp only [standing, hn] at hone
      omega
    have hrelease : a.cache.clientNetworks.release known.network key = a.cache.clientNetworks :=
      release_other (by rw [hslot]; exact (Option.some_ne_none key).symm)
    refine ⟨a.counts.insert known.network (n - 1), a.cache.clientNetworks, ?_, fun network => ?_⟩
    · simp [delete, Cache.removePrefix, uncount, hknown, hcounts, hcount, hmany, hrelease]
    · by_cases hnetwork : known.network = network
      · subst hnetwork
        simp [hcount, hmany, hslot]
      · simp [ExtTreeMap.getElem?_insert, hnetwork]
  · refine ⟨a.counts.erase known.network,
      (a.cache.clientNetworks.release known.network key).erase known.network, ?_,
      fun network => ?_⟩
    · simp [delete, Cache.removePrefix, Cache.removeClientNetwork, uncount, hknown, hcounts,
        hcount, hmany]
    · by_cases hnetwork : known.network = network
      · subst hnetwork
        simp [hcount, hmany]
      · simp [ExtTreeMap.getElem?_erase, hnetwork, Slots.getElem?_release]

theorem delete_known (h : a.Exact) {key : String} {known : Prefix}
    (hknown : a.cache.prefixes[key]? = some known) :
    (a.delete key).1 = .ok () ∧ (a.delete key).2.cache.prefixes = a.cache.prefixes.erase key := by
  rcases hhost : known.isHostRoute with _ | _
  · obtain ⟨counts, slots, hdelete, -⟩ := delete_network h hknown hhost
    rw [hdelete]
    exact ⟨rfl, rfl⟩
  · rw [delete_hostRoute h hknown hhost]
    exact ⟨rfl, rfl⟩

theorem standing_delete (h : a.Exact) {key : String} {known : Prefix}
    (hknown : a.cache.prefixes[key]? = some known) (network : String) :
    (a.delete key).2.standing network =
      if known.announces network then (a.standing network).leave key
      else a.standing network := by
  have herase := Announced.announcers_erase a.cache.prefixes network key
  have hquiet : known.announces network = false →
      Announced.announcers (a.cache.prefixes.erase key) network =
        Announced.announcers a.cache.prefixes network := by
    intro hsilent
    rw [herase, Maps.erase_of_notMem]
    rw [Announced.mem_announcers_of_known hknown, hsilent]
    exact Bool.false_ne_true
  rcases hhost : known.isHostRoute with _ | _
  · obtain ⟨counts, slots, hdelete, hat⟩ := delete_network h hknown hhost
    obtain ⟨hcount, hslot⟩ := hat network
    rw [hdelete]
    by_cases hnetwork : known.network = network
    · have hspeaks : known.announces network = true := by
        simp [Prefix.announces, hhost, hnetwork]
      rw [if_pos hnetwork] at hcount hslot
      simp only [standing, Standing.leave, hspeaks, if_true, herase, hcount, hslot]
    · have hsilent : known.announces network = false := by
        simp [Prefix.announces, hnetwork]
      rw [if_neg hnetwork] at hcount hslot
      simp only [standing, hsilent, Bool.false_eq_true, if_false, hquiet hsilent, hcount, hslot]
  · have hsilent : known.announces network = false := by simp [Prefix.announces, hhost]
    rw [delete_hostRoute h hknown hhost]
    simp only [standing, hsilent, Bool.false_eq_true, if_false, hquiet hsilent]

end Announcements

end TopologySync
