-- The law of history. Whether a network is a client network depends on all
-- that happened to it since it last had no announcement, and on nothing
-- before that.
import Mathlib.Data.List.Basic
import Mathlib.Data.List.Induction
import TopologySync.Proofs.Announcements.Counts

open Std

namespace TopologySync

/-! ## Who holds the status after a step -/

namespace Standing

variable {s s' : Standing}

theorem holder_kept (h : s.Good) (hmem : ∀ key, key ∈ s'.announcers ↔ key ∈ s.announcers)
    (hsize : s'.announcers.size = s.announcers.size) (hholder : s'.holder = s.holder)
    (key : String) :
    s'.holder = some key ↔ (key ∈ s'.announcers ∧ s'.announcers.size = 1) ∧
      (s.announcers.size = 0 ∨ s.holder.isSome = true) := by
  rw [hholder, hmem, hsize]
  constructor
  · intro hkey
    exact ⟨h.held key hkey, Or.inr (by rw [hkey]; rfl)⟩
  · rintro ⟨⟨hkey, hone⟩, hnone | hsome⟩
    · omega
    · obtain ⟨holder, hheld⟩ := Option.isSome_iff_exists.1 hsome
      rw [hheld, Maps.eq_of_mem_of_size_eq_one hone (h.held holder hheld).1 hkey]

/-- A sole announcer holds the status if there was none before or if the
status was held before. -/
theorem holder_step (h : s.Good) (hstep : s.Step s') (key : String) :
    s'.holder = some key ↔ (key ∈ s'.announcers ∧ s'.announcers.size = 1) ∧
      (s.announcers.size = 0 ∨ s.holder.isSome = true) := by
  cases hstep with
  | still => exact holder_kept h (fun _ => Iff.rfl) rfl rfl key
  | @enter p hnew =>
    have hsize := Maps.size_insert_of_notMem p hnew
    simp only [enter, h.count_getD, hsize]
    constructor
    · intro hkey
      split at hkey
      · rename_i hnone
        cases hkey
        exact ⟨⟨ExtTreeMap.mem_insert_self, by omega⟩, Or.inl hnone⟩
      · cases hkey
    · rintro ⟨⟨hkey, hone⟩, -⟩
      have hnone : s.announcers.size = 0 := by omega
      rw [if_pos hnone]
      rw [ExtTreeMap.mem_insert, Std.compare_eq_iff_eq] at hkey
      rcases hkey with rfl | hkey
      · rfl
      · exact absurd (Maps.size_pos_of_mem hkey) (by omega)
  | @renew p hold =>
    have hmem : ∀ key, key ∈ (s.renew p).announcers ↔ key ∈ s.announcers := by
      intro key
      simp only [renew, ExtTreeMap.mem_insert, Std.compare_eq_iff_eq]
      exact ⟨fun hkey => hkey.elim (fun heq => heq ▸ hold) id, Or.inr⟩
    exact holder_kept h hmem (Maps.size_insert_of_mem p hold) rfl key
  | @leave left hold =>
    have hsize := Maps.size_erase_of_mem hold
    simp only [leave, hsize, reduceCtorEq, false_iff]
    -- One is left of two, and of two none holds the status.
    rintro ⟨⟨-, hone⟩, hnone | hsome⟩
    · omega
    · obtain ⟨holder, hheld⟩ := Option.isSome_iff_exists.1 hsome
      have := (h.held holder hheld).2
      omega

end Standing

namespace Announcements

/-! ## What a history tells -/

/-- What is announced under each key after a history. -/
def live (history : List Change) : Announced :=
  history.foldl Change.on ∅

/-- The announcements of a network after a history, host routes not counted. -/
def liveOf (history : List Change) (network : String) : Announced :=
  (live history).announcers network

/-- The network had no announcement once, and after every change since then
it had exactly one. -/
def SingleSinceNone (history : List Change) (network : String) : Prop :=
  ∃ earlier later, history = earlier ++ later ∧ liveOf earlier network = ∅ ∧
    ∀ point, point ≠ [] → point <+: later → (liveOf (earlier ++ point) network).size = 1

theorem liveOf_nil (network : String) : liveOf [] network = ∅ :=
  Announced.announcers_empty network

theorem single_snoc {history : List Change} {c : Change} {network : String}
    (hone : (liveOf (history ++ [c]) network).size = 1) :
    SingleSinceNone (history ++ [c]) network ↔
      (liveOf history network).size = 0 ∨
        (liveOf history network).size = 1 ∧ SingleSinceNone history network := by
  constructor
  · rintro ⟨earlier, later, hsplit, hnone, hsince⟩
    rcases List.eq_nil_or_concat' later with rfl | ⟨before, last, rfl⟩
    · rw [List.append_nil] at hsplit
      rw [hsplit, hnone] at hone
      cases hone
    · rw [← List.append_assoc] at hsplit
      obtain ⟨rfl, -⟩ := List.append_inj' hsplit rfl
      by_cases hbefore : before = []
      · subst hbefore
        rw [List.append_nil, hnone]
        exact Or.inl rfl
      · have hpast : ∀ point, point ≠ [] → point <+: before →
            (liveOf (earlier ++ point) network).size = 1 := fun point hpoint hreached =>
          hsince point hpoint (hreached.trans (List.prefix_append before [last]))
        exact Or.inr ⟨hpast before hbefore List.prefix_rfl, earlier, before, rfl, hnone, hpast⟩
  · rintro (hnone | ⟨-, earlier, later, rfl, hnone, hsince⟩)
    · refine ⟨history, [c], rfl, ExtTreeMap.eq_empty_iff_size_eq_zero.2 hnone, ?_⟩
      intro point hpoint hreached
      rcases List.prefix_cons_iff.1 hreached with hnil | ⟨rest, rfl, hrest⟩
      · exact absurd hnil hpoint
      · rw [List.prefix_nil.1 hrest]
        exact hone
    · refine ⟨earlier, later ++ [c], List.append_assoc _ _ _, hnone, ?_⟩
      intro point hpoint hreached
      rcases List.prefix_concat_iff.1 hreached with rfl | hbefore
      · rw [← List.append_assoc]
        exact hone
      · exact hsince point hpoint hbefore

/-! ## What the announcements remember of it -/

/-- The announcements after a history. -/
def after (history : List Change) : Announcements :=
  (applyAll {} history).1

theorem after_snoc (history : List Change) (c : Change) :
    after (history ++ [c]) = (c.apply (after history)).2 := by
  simp [after, applyAll_append, applyAll]

theorem exact_after (history : List Change) : (after history).Exact :=
  exact_applyAll exact_new history

theorem prefixes_after (history : List Change) :
    (after history).cache.prefixes = live history :=
  prefixes_applyAll exact_new history

theorem announcers_after (history : List Change) (network : String) :
    ((after history).standing network).announcers = liveOf history network := by
  rw [standing, prefixes_after]
  rfl

theorem exists_mem_of_size_eq_one {known : Announced} (h : known.size = 1) :
    ∃ key, key ∈ known := by
  refine Classical.byContradiction fun hnone => ?_
  have hempty : known = ∅ :=
    ExtTreeMap.eq_empty_iff_forall_not_mem.2 fun key hkey => hnone ⟨key, hkey⟩
  rw [hempty] at h
  cases h

/-- The status is with the only announcement of a network that never had
two of them since it had none. -/
theorem holder_after (history : List Change) (network key : String) :
    ((after history).standing network).holder = some key ↔
      (key ∈ liveOf history network ∧ (liveOf history network).size = 1) ∧
        SingleSinceNone history network := by
  induction history using List.reverseRecOn generalizing key with
  | nil =>
    rw [liveOf_nil]
    simp [after, applyAll, standing, Cache.empty]
  | append_singleton history c ih =>
    have hstep := step_apply (exact_after history) c network
    rw [← after_snoc] at hstep
    rw [Standing.holder_step ((exact_after history).good network) hstep key,
      announcers_after, announcers_after]
    -- Both sides have one announcement now, and tell of the history before.
    refine and_congr_right fun hnow => ?_
    rw [single_snoc hnow.2]
    refine or_congr_right ?_
    rw [Option.isSome_iff_exists]
    constructor
    · rintro ⟨holder, hheld⟩
      obtain ⟨⟨-, hone⟩, hsingle⟩ := (ih holder).1 hheld
      exact ⟨hone, hsingle⟩
    · rintro ⟨hone, hsingle⟩
      obtain ⟨holder, hmem⟩ := exists_mem_of_size_eq_one hone
      exact ⟨holder, (ih holder).2 ⟨⟨hmem, hone⟩, hsingle⟩⟩

theorem getElem?_liveOf (history : List Change) (network key : String) (p : Prefix) :
    (liveOf history network)[key]? = some p ↔
      (after history).cache.prefixes[key]? = some p ∧ p.announces network = true := by
  rw [prefixes_after, liveOf, Announced.getElem?_announcers, Option.filter_eq_some_iff]

theorem clientNetwork_after (history : List Change) (network : String) (p : Prefix) :
    (after history).cache.clientNetwork? network = some p ↔
      (∃ key : String, (liveOf history network)[key]? = some p) ∧
        (liveOf history network).size = 1 ∧ SingleSinceNone history network := by
  constructor
  · intro hclient
    obtain ⟨key, hslot, hstored⟩ := Option.bind_eq_some_iff.1 hclient
    obtain ⟨⟨hmem, hone⟩, hsingle⟩ := (holder_after history network key).1 hslot
    obtain ⟨q, hq⟩ := Maps.mem_iff_exists.1 hmem
    have hstored' := ((getElem?_liveOf history network key q).1 hq).1
    rw [hstored] at hstored'
    cases hstored'
    exact ⟨⟨key, hq⟩, hone, hsingle⟩
  · rintro ⟨⟨key, hp⟩, hone, hsingle⟩
    have hmem : key ∈ liveOf history network := Maps.mem_iff_exists.2 ⟨p, hp⟩
    have hslot := (holder_after history network key).2 ⟨⟨hmem, hone⟩, hsingle⟩
    exact Option.bind_eq_some_iff.2 ⟨key, hslot, ((getElem?_liveOf history network key p).1 hp).1⟩

/-! ## Twice announced, and announced anew -/

/-- A network that was announced by several keys is not single again before
it had none. -/
theorem not_single_of_several {earlier later : List Change} {network : String}
    (hseveral : 2 ≤ (liveOf earlier network).size)
    (hsome : ∀ point, point <+: later → liveOf (earlier ++ point) network ≠ ∅) :
    ¬SingleSinceNone (earlier ++ later) network := by
  rintro ⟨none, since, hsplit, hnone, hsince⟩
  rcases List.append_eq_append_iff.1 hsplit with ⟨between, rfl, rfl⟩ | ⟨between, rfl, rfl⟩
  · exact hsome between (List.prefix_append between since) hnone
  · by_cases hbetween : between = []
    · rw [hbetween, List.append_nil, hnone] at hseveral
      exact absurd hseveral (by decide)
    · rw [hsince between hbetween (List.prefix_append between later)] at hseveral
      exact absurd hseveral (by decide)

theorem liveOf_add {history : List Change} {network : String} {p : Prefix}
    (hspeaks : p.announces network = true) :
    liveOf (history ++ [.add p]) network = (liveOf history network).insert p.key p := by
  have hinsert := (live history).announcers_insert network p
  rw [if_pos hspeaks] at hinsert
  rw [liveOf, live, List.foldl_append]
  exact hinsert

theorem single_of_first {history : List Change} {network : String} {p : Prefix}
    (hnone : liveOf history network = ∅) (hspeaks : p.announces network = true) :
    (liveOf (history ++ [.add p]) network).size = 1 ∧
      SingleSinceNone (history ++ [.add p]) network := by
  have hone : (liveOf (history ++ [.add p]) network).size = 1 := by
    rw [liveOf_add hspeaks, hnone, Maps.size_insert_of_notMem p ExtTreeMap.not_mem_empty]
    rfl
  exact ⟨hone, (single_snoc hone).2 (Or.inl (ExtTreeMap.eq_empty_iff_size_eq_zero.1 hnone))⟩

/-! ## The law -/

/-- At every point of every run a network is a client network if and only if
it has exactly one announcement, and had exactly one after every change since
it last had none. The announcement is the last record under its key. -/
theorem client_networks_follow_history (calls : List Call) (network : String) :
    let cache := (performAll {} calls).1.cache
    let history := calls.flatMap Call.changes
    (∀ p, cache.clientNetwork? network = some p ↔
        (∃ key : String, (liveOf history network)[key]? = some p) ∧
          (liveOf history network).size = 1 ∧ SingleSinceNone history network) ∧
      (∀ earlier later, history = earlier ++ later → 2 ≤ (liveOf earlier network).size →
        (∀ point, point <+: later → liveOf (earlier ++ point) network ≠ ∅) →
        cache.clientNetwork? network = none) ∧
      ∀ earlier p, history = earlier ++ [.add p] → liveOf earlier network = ∅ →
        p.announces network = true → cache.clientNetwork? network = some p := by
  intro cache history
  have hcache : cache = (after history).cache := by
    simp only [cache, performAll_eq]
    rfl
  rw [hcache]
  refine ⟨clientNetwork_after history network, ?_, ?_⟩
  · intro earlier later hsplit hseveral hsome
    rw [Option.eq_none_iff_forall_ne_some]
    intro p hclient
    have hsingle := ((clientNetwork_after history network p).1 hclient).2.2
    rw [hsplit] at hsingle
    exact not_single_of_several hseveral hsome hsingle
  · intro earlier p hsplit hnone hspeaks
    obtain ⟨hone, hsingle⟩ := single_of_first hnone hspeaks
    rw [clientNetwork_after, hsplit]
    refine ⟨⟨p.key, ?_⟩, hone, hsingle⟩
    rw [liveOf_add hspeaks]
    exact ExtTreeMap.getElem?_insert_self

/-- Two keys announce a network and both withdraw, then one comes back. With
one of them gone the network is still none. -/
theorem a_network_of_two_waits_for_both_withdrawals :
    let p : Prefix := { key := "a", router := "r1", address := "::", length := 64 }
    let q : Prefix := { key := "b", router := "r2", address := "::", length := 64 }
    let one : List Call := [.add p, .add q, .delete p.key]
    let anew : List Call := one ++ [.delete q.key, .load [p]]
    (performAll {} one).1.cache.clientNetwork? "::/64" = none ∧
      (performAll {} anew).1.cache.clientNetwork? "::/64" = some p := by
  intro p q one anew
  constructor
  · refine (client_networks_follow_history one "::/64").2.1 [.add p, .add q] [.delete p.key] rfl
      (by decide +kernel) fun point hpoint => ?_
    rcases List.prefix_cons_iff.1 hpoint with rfl | ⟨rest, rfl, hrest⟩
    · decide +kernel
    · rw [List.prefix_nil.1 hrest]
      decide +kernel
  · exact (client_networks_follow_history anew "::/64").2.2
      [.add p, .add q, .delete p.key, .delete q.key] p (by decide +kernel) (by decide +kernel)
      (by decide +kernel)

end Announcements

end TopologySync
