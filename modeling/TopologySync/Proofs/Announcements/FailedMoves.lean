-- Announcements that fail to move. Counts and cache may have lost touch with each
-- other, as when two reconcilers share a cache. A key that is to announce another
-- network then fails at its first one, which nobody counted, and by that time it
-- is forgotten: the withdrawal comes before the look at the count.
import Mathlib.Control.Monad.Basic
import TopologySync.Reconcile.Prefix

open Std

namespace TopologySync.Announcements

variable {a left : Announcements} {key : String} {p known : Prefix}

/-! ## Withdrawals that fail -/

/-- An announcement whose network should have a count, and has none. -/
structure Uncounted (a : Announcements) (key : String) (known : Prefix) : Prop where
  announced : a.cache.prefixes[key]? = some known
  counts : known.isHostRoute = false
  missing : a.counts[known.network]? = none

/-- One announcement is forgotten, and the status of its network if its key held it.
All else is as it was. -/
structure Forgets (a : Announcements) (key : String) (known : Prefix) (left : Announcements) :
    Prop where
  counts : left.counts = a.counts
  prefixes : left.cache.prefixes = a.cache.prefixes.erase key
  clientNetworks : ∀ network, left.cache.clientNetworks[network]? =
    if known.network = network ∧ a.cache.clientNetworks[network]? = some key then none
    else a.cache.clientNetworks[network]?
  others : left.cache = { a.cache with
    prefixes := left.cache.prefixes, clientNetworks := left.cache.clientNetworks }

theorem forgets_removePrefix (h : a.cache.prefixes[key]? = some known) :
    (a.cache.removePrefix key).1 = some known ∧
      a.Forgets key known { a with cache := (a.cache.removePrefix key).2 } := by
  unfold Cache.removePrefix
  rw [h]
  exact ⟨rfl, rfl, rfl, fun network => Slots.getElem?_release _ _ _ network, rfl⟩

/-- A withdrawal of a known key fails if its network is not counted, and only then. -/
theorem delete_uncounted (h : a.Uncounted key known) :
    (a.delete key).1 = .error (.uncountedNetwork key known.network) ∧
      a.Forgets key known (a.delete key).2 := by
  obtain ⟨hremoved, hforgets⟩ := forgets_removePrefix h.announced
  unfold delete
  generalize a.cache.removePrefix key = removal at hremoved hforgets ⊢
  obtain ⟨removed, cache⟩ := removal
  cases hremoved
  simp only [uncount, h.counts, h.missing]
  exact ⟨rfl, hforgets⟩

theorem delete_counted (hknown : a.cache.prefixes[key]? = some known)
    (h : ¬ a.Uncounted key known) : (a.delete key).1 = .ok () := by
  have hremoved := (forgets_removePrefix hknown).1
  unfold delete
  generalize a.cache.removePrefix key = removal at hremoved ⊢
  obtain ⟨removed, cache⟩ := removal
  cases hremoved
  dsimp only
  rcases hhost : known.isHostRoute with _ | _
  · rcases hcount : a.counts[known.network]? with _ | count
    · exact absurd ⟨hknown, hhost, hcount⟩ h
    · simp only [Bool.false_eq_true, if_false, uncount, hcount]
      split <;> rfl
  · rfl

/-! ## Moves that fail -/

/-- A key announces another network than it is to announce, and cannot leave it. -/
def Stuck (a : Announcements) (p known : Prefix) : Prop :=
  a.Uncounted p.key known ∧ known.network ≠ p.network

theorem add_stuck (h : a.Stuck p known) : a.add p = a.delete p.key := by
  have hfailed := (delete_uncounted h.1).1
  unfold add
  rw [h.1.announced]
  dsimp only
  rw [if_neg h.2]
  generalize a.delete p.key = deletion at hfailed ⊢
  obtain ⟨outcome, left⟩ := deletion
  cases hfailed
  rfl

theorem add_not_stuck (h : ∀ known, ¬ a.Stuck p known) : (a.add p).1 = .ok () := by
  unfold add
  rcases hknown : a.cache.prefixes[p.key]? with _ | known
  · rfl
  · dsimp only
    split
    · rfl
    · rename_i hmoved
      have hleft := delete_counted hknown fun huncounted => h known ⟨huncounted, hmoved⟩
      generalize a.delete p.key = deletion at hleft ⊢
      obtain ⟨outcome, left⟩ := deletion
      cases hleft
      rfl

/-- An addition fails if and only if it is a move away from a network that should be counted
and is not. It then leaves every count, every other announcement and all else of the cache as
they were, and forgets the announcement that it was to move: the key announces neither network,
and the same addition made again goes through. -/
theorem a_failed_move_forgets_its_announcement (a : Announcements) (p : Prefix) :
    (∀ e, (a.add p).1 = .error e ↔
      ∃ known, a.Stuck p known ∧ e = .uncountedNetwork p.key known.network) ∧
    ∀ known, a.Stuck p known →
      a.Forgets p.key known (a.add p).2 ∧ p.key ∉ (a.add p).2.cache.prefixes ∧
      ((a.add p).2.add p).1 = .ok () := by
  have hstuck : ∀ known, a.Stuck p known →
      (a.add p).1 = .error (.uncountedNetwork p.key known.network) ∧
        a.Forgets p.key known (a.add p).2 := by
    intro known h
    rw [add_stuck h]
    exact delete_uncounted h.1
  refine ⟨fun e => ⟨fun hfailed => ?_, ?_⟩, fun known h => ?_⟩
  · by_cases h : ∃ known, a.Stuck p known
    · obtain ⟨known, h⟩ := h
      rw [(hstuck known h).1, Except.error.injEq] at hfailed
      exact ⟨known, h, hfailed.symm⟩
    · rw [add_not_stuck (not_exists.1 h)] at hfailed
      cases hfailed
  · rintro ⟨known, h, rfl⟩
    exact (hstuck known h).1
  · have hforgets := (hstuck known h).2
    have hgone : (a.add p).2.cache.prefixes[p.key]? = none := by
      rw [hforgets.prefixes, ExtTreeMap.getElem?_erase_self]
    refine ⟨hforgets, ?_, add_not_stuck fun _ hagain => ?_⟩
    · rw [← ExtTreeMap.isSome_getElem?_iff_mem, hgone]
      exact Bool.false_ne_true
    · rw [hagain.1.announced] at hgone
      cases hgone

/-- A key that was stored as a client network past the counts is to announce another network.
It fails, and then announces neither; at the second try it goes through. -/
theorem a_stray_client_network_is_forgotten :
    let home : Prefix := { key := "p1", router := "r1", address := "a::", length := 64 }
    let away := { home with address := "b::" }
    let a : Announcements := { cache := Cache.empty.storeClientNetwork home }
    a.Stuck away home ∧ (a.add away).1 = .error (.uncountedNetwork "p1" "a::/64") ∧
      (a.add away).2.cache.clientNetworks[("a::/64" : String)]? = none ∧
      "p1" ∉ (a.add away).2.cache.prefixes ∧ ((a.add away).2.add away).1 = .ok () := by
  intro home away a
  have hstuck : a.Stuck away home :=
    ⟨⟨by decide +kernel, by decide +kernel, by decide +kernel⟩, by decide +kernel⟩
  obtain ⟨hfails, hleaves⟩ := a_failed_move_forgets_its_announcement a away
  obtain ⟨hforgets, hgone, hagain⟩ := hleaves home hstuck
  refine ⟨hstuck, (hfails _).2 ⟨home, hstuck, ?_⟩, ?_, hgone, hagain⟩
  · decide +kernel
  · rw [hforgets.clientNetworks]
    decide +kernel

/-- A key is known, and an addition of it fails. The key is not known any more. -/
theorem a_failed_addition_loses_an_announcement :
    let home : Prefix := { key := "p1", router := "r1", address := "a::", length := 64 }
    let a : Announcements := { cache := Cache.empty.storePrefix home }
    let failed := a.add { home with address := "b::" }
    failed.1 = .error (.uncountedNetwork "p1" "a::/64") ∧
      a.cache.prefixes["p1"]? = some home ∧ failed.2.cache.prefixes["p1"]? = none ∧
      failed.2 ≠ a := by
  decide +kernel

end TopologySync.Announcements
