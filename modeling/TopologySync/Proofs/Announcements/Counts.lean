-- The law of counts. Whatever is asked of the announcements, in whatever
-- order, the count of each network is the number of its announcements, and
-- a client network has exactly one. To count by the text of a network is to
-- count by address and length.
import TopologySync.Proofs.Announcements.Standing

open Std

namespace TopologySync

namespace Announcements

variable {a : Announcements}

/-! ## One change -/

/-- An announcement is added or withdrawn. -/
inductive Change where
  | add (p : Prefix)
  | delete (key : String)
deriving DecidableEq

/-- Makes a change. -/
def Change.apply (a : Announcements) : Change → Except ReconcileError Unit × Announcements
  | .add p => a.add p
  | .delete key => a.delete key

/-- What a change makes of the announcements by key. -/
def Change.on (known : Announced) : Change → Announced
  | .add p => known.insert p.key p
  | .delete key => known.erase key

theorem prefixes_record (a : Announcements) (p : Prefix) :
    (a.record p).cache.prefixes = a.cache.prefixes.insert p.key p := by
  unfold record
  split
  · rfl
  · dsimp only
    split <;> rfl

/-- No announcement is refused. -/
theorem add_eq (h : a.Exact) (p : Prefix) :
    a.add p = (.ok (), match a.cache.prefixes[p.key]? with
      | none => a.record p
      | some known =>
        if known.network = p.network then a.refresh p else (a.delete p.key).2.record p) := by
  unfold add
  rcases hknown : a.cache.prefixes[p.key]? with _ | known
  · rfl
  · have hdelete := (delete_known h hknown).1
    dsimp only
    split
    · rfl
    · rcases hrest : a.delete p.key with ⟨outcome, left⟩
      rw [hrest] at hdelete
      cases hdelete
      rfl

theorem apply_prefixes (h : a.Exact) (c : Change) :
    (c.apply a).2.cache.prefixes = c.on a.cache.prefixes := by
  cases c with
  | add p =>
    simp only [Change.apply, Change.on, add_eq h]
    rcases hknown : a.cache.prefixes[p.key]? with _ | known
    · exact prefixes_record a p
    · dsimp only
      split
      · rw [refresh_eq h]
        rfl
      · rw [prefixes_record, (delete_known h hknown).2, Maps.insert_erase]
  | delete key =>
    simp only [Change.apply, Change.on]
    rcases hknown : a.cache.prefixes[key]? with _ | known
    · have hnone : key ∉ a.cache.prefixes := by simp [Maps.mem_iff_exists, hknown]
      rw [delete_unknown hknown, Maps.erase_of_notMem hnone]
    · exact (delete_known h hknown).2

theorem step_add (h : a.Exact) (p : Prefix) (network : String) :
    (a.standing network).Step ((a.add p).2.standing network) := by
  rw [add_eq h]
  rcases hknown : a.cache.prefixes[p.key]? with _ | known
  · simp only [standing_record hknown]
    split
    · exact .enter (Announced.notMem_announcers_of_unknown hknown network)
    · exact .still
  · have hmem := Announced.mem_announcers_of_known hknown network
    dsimp only
    split
    · rename_i hsame
      rw [standing_refresh h hknown hsame]
      split
      · rename_i hspeaks
        rw [← Prefix.announces_of_network hsame] at hspeaks
        exact .renew (hmem.2 hspeaks)
      · exact .still
    · rename_i hmoved
      have hnew : (a.delete p.key).2.cache.prefixes[p.key]? = none := by
        rw [(delete_known h hknown).2]
        simp
      rw [standing_record hnew, standing_delete h hknown]
      -- The key leaves one network and enters another one.
      by_cases hleaves : known.announces network = true
      · have hsilent : p.announces network = false := by
          have hnetwork := ((Prefix.announces_iff known network).1 hleaves).2
          simp [Prefix.announces, ← hnetwork, Ne.symm hmoved]
        rw [hsilent, hleaves]
        exact .leave (hmem.2 hleaves)
      · rw [if_neg hleaves]
        split
        · exact .enter (fun hentered => hleaves (hmem.1 hentered))
        · exact .still

theorem step_delete (h : a.Exact) (key network : String) :
    (a.standing network).Step ((a.delete key).2.standing network) := by
  rcases hknown : a.cache.prefixes[key]? with _ | known
  · rw [delete_unknown hknown]
    exact .still
  · rw [standing_delete h hknown]
    split
    · rename_i hspeaks
      exact .leave ((Announced.mem_announcers_of_known hknown network).2 hspeaks)
    · exact .still

/-- To each network a change is one step. -/
theorem step_apply (h : a.Exact) (c : Change) (network : String) :
    (a.standing network).Step ((c.apply a).2.standing network) := by
  cases c with
  | add p => exact step_add h p network
  | delete key => exact step_delete h key network

theorem exact_apply (h : a.Exact) (c : Change) : (c.apply a).2.Exact := by
  refine ⟨?_, fun network => Standing.good_step (h.good network) (step_apply h c network)⟩
  rw [apply_prefixes h]
  cases c with
  | add p => exact Maps.own_key_insert h.keyed rfl
  | delete key => exact Maps.own_key_erase h.keyed key

/-! ## Changes in turn -/

/-- What an outcome raises. -/
def raised : Except ReconcileError Unit → List ReconcileError
  | .ok () => []
  | .error e => [e]

/-- Makes changes in turn, and lists what they raise. -/
def applyAll (a : Announcements) : List Change → Announcements × List ReconcileError
  | [] => (a, [])
  | c :: rest =>
    let (outcome, a) := c.apply a
    let (a, errors) := a.applyAll rest
    (a, raised outcome ++ errors)

theorem applyAll_append (a : Announcements) (changes more : List Change) :
    a.applyAll (changes ++ more) =
      (((a.applyAll changes).1.applyAll more).1,
        (a.applyAll changes).2 ++ ((a.applyAll changes).1.applyAll more).2) := by
  induction changes generalizing a with
  | nil => rfl
  | cons c rest ih => simp only [List.cons_append, applyAll, ih, List.append_assoc]

theorem exact_applyAll (h : a.Exact) (changes : List Change) : (a.applyAll changes).1.Exact := by
  induction changes generalizing a with
  | nil => exact h
  | cons c rest ih => exact ih (exact_apply h c)

theorem prefixes_applyAll (h : a.Exact) (changes : List Change) :
    (a.applyAll changes).1.cache.prefixes =
      changes.foldl Change.on a.cache.prefixes := by
  induction changes generalizing a with
  | nil => rfl
  | cons c rest ih =>
    unfold applyAll
    rw [List.foldl_cons, ← apply_prefixes h c]
    exact ih (exact_apply h c)

/-- Nothing is raised but that a key is unknown. -/
theorem raised_apply (h : a.Exact) (c : Change) :
    ∀ e ∈ raised (c.apply a).1, ∃ key, e = .unknownPrefix key := by
  intro e he
  cases c with
  | add p => simp [Change.apply, add_eq h, raised] at he
  | delete key =>
    rcases hknown : a.cache.prefixes[key]? with _ | known
    · rw [Change.apply, delete_unknown hknown] at he
      exact ⟨key, List.mem_singleton.1 he⟩
    · rw [Change.apply, (delete_known h hknown).1] at he
      cases he

theorem raised_applyAll (h : a.Exact) (changes : List Change) :
    ∀ e ∈ (a.applyAll changes).2, ∃ key, e = .unknownPrefix key := by
  induction changes generalizing a with
  | nil => exact fun e he => by cases he
  | cons c rest ih =>
    intro e he
    rcases List.mem_append.1 he with hfirst | hrest
    · exact raised_apply h c e hfirst
    · exact ih (exact_apply h c) e hrest

/-! ## Calls in turn -/

/-- What is asked of the announcements. -/
inductive Call where
  | add (p : Prefix)
  | delete (key : String)
  /-- Announcements are added in bulk. -/
  | load (prefixes : List Prefix)
deriving DecidableEq

end Announcements

/-- The error that a refusal notes. -/
def Refusal.error? : Refusal → Option ReconcileError
  | .unhandled _ _ => none
  | .event _ _ e => some e
  | .record _ _ e => some e

namespace Announcements

/-- Does what is asked, and lists what it raises. -/
def Call.perform (a : Announcements) : Call → Announcements × List ReconcileError
  | .add p =>
    let (outcome, a) := a.add p
    (a, raised outcome)
  | .delete key =>
    let (outcome, a) := a.delete key
    (a, raised outcome)
  | .load prefixes =>
    let (_, a, refused) := a.addAll prefixes
    (a, refused.filterMap Refusal.error?)

/-- Does all that is asked in turn. -/
def performAll (a : Announcements) : List Call → Announcements × List ReconcileError
  | [] => (a, [])
  | call :: rest =>
    let (a, errors) := call.perform a
    let (a, more) := a.performAll rest
    (a, errors ++ more)

/-- The changes that a call comes to. A bulk load leaves host routes out. -/
def Call.changes : Call → List Change
  | .add p => [.add p]
  | .delete key => [.delete key]
  | .load prefixes => (prefixes.filter (fun p => !p.isHostRoute)).map .add

theorem addEach_eq (a : Announcements) (prefixes : List Prefix) :
    ((a.addEach prefixes).2.1, (a.addEach prefixes).2.2.filterMap Refusal.error?) =
      a.applyAll (prefixes.map .add) := by
  induction prefixes generalizing a with
  | nil => rfl
  | cons p rest ih =>
    rw [List.map_cons, applyAll, Change.apply]
    unfold addEach
    rcases a.add p with ⟨_ | _, left⟩
    · simp only [← ih]
      rfl
    · simp only [← ih]
      rfl

theorem perform_eq (a : Announcements) (call : Call) :
    call.perform a = a.applyAll call.changes := by
  cases call with
  | add p => simp [Call.perform, Call.changes, applyAll, Change.apply]
  | delete key => simp [Call.perform, Call.changes, applyAll, Change.apply]
  | load prefixes => exact addEach_eq a _

theorem performAll_eq (a : Announcements) (calls : List Call) :
    a.performAll calls = a.applyAll (calls.flatMap Call.changes) := by
  induction calls generalizing a with
  | nil => rfl
  | cons call rest ih =>
    rw [List.flatMap_cons, applyAll_append, ← perform_eq, ← ih]
    rfl

/-! ## The law -/

/-- After any calls the count of a network is the number of its announcements,
it is kept only for a network that has some, and a client network is held by
its only announcement. No withdrawal finds its network uncounted. -/
theorem counts_are_exact (calls : List Call) (network : String) :
    let a := (performAll {} calls).1
    let announcers := a.cache.prefixes.filter
      (fun _ p => !p.isHostRoute && p.network == network)
    a.counts.count network = announcers.size ∧
      (network ∈ a.counts ↔ 1 ≤ announcers.size) ∧
      (∀ key, a.cache.clientNetworks[network]? = some key →
        (∃ p, a.cache.prefixes[key]? = some p ∧ p.isHostRoute = false ∧ p.network = network) ∧
          a.counts.count network = 1) ∧
      ∀ key, .uncountedNetwork key network ∉ (performAll {} calls).2 := by
  intro a announcers
  have hexact : a.Exact := by
    simp only [a, performAll_eq]
    exact exact_applyAll exact_new _
  have hgood := hexact.good network
  have hcount : a.counts.count network = announcers.size := hgood.count_getD
  refine ⟨hcount, ?_, fun key hkey => ?_, fun key hmem => ?_⟩
  · have hentry : a.counts[network]? = if announcers.size = 0 then none else some announcers.size :=
      hgood.counted
    rw [Maps.mem_iff_exists, hentry]
    by_cases hnone : announcers.size = 0
    · simp [hnone]
    · simp [hnone]
      omega
  · obtain ⟨hmem, hone⟩ := hgood.held key hkey
    obtain ⟨p, hp, hspeaks⟩ := (Announced.mem_announcers _ _ _).1 hmem
    exact ⟨⟨p, hp, (Prefix.announces_iff p network).1 hspeaks⟩, hcount.trans hone⟩
  · rw [performAll_eq] at hmem
    obtain ⟨key', hkey'⟩ := raised_applyAll exact_new _ _ hmem
    cases hkey'

/-! ## By address and length -/

theorem exact_performAll (calls : List Call) : (performAll {} calls).1.Exact := by
  rw [performAll_eq]
  exact exact_applyAll exact_new _

/-- What is counted for the network of a record, by address and length. -/
theorem Exact.count_network {a : Announcements} (h : a.Exact) (p : Prefix) :
    a.counts.count p.network =
      if p.isHostRoute then 0
      else (a.cache.prefixes.filter
        (fun _ q => q.address == p.address && q.length == p.length)).size := by
  have hcount : a.counts.count p.network =
      (Announced.announcers a.cache.prefixes p.network).size :=
    (h.good p.network).count_getD
  rw [hcount, Announced.announcers_network]
  split
  · rfl
  · rfl

/-- The text of a network tells its address and its length, whatever the address holds. So whatever
shares a network agrees on being a host route, and after any calls a network is counted by its
address and its length, unless it is a host route. -/
theorem a_network_tells_its_address_and_length (p q : Prefix) :
    (p.network = q.network ↔ p.address = q.address ∧ p.length = q.length) ∧
      (p.network = q.network → p.isHostRoute = q.isHostRoute) ∧
      ∀ calls : List Call,
        let a := (performAll {} calls).1
        a.counts.count p.network =
          if p.isHostRoute then 0
          else (a.cache.prefixes.filter
            (fun _ r => r.address == p.address && r.length == p.length)).size := by
  refine ⟨Prefix.network_inj, Prefix.isHostRoute_of_network, fun calls => ?_⟩
  exact (exact_performAll calls).count_network p

/-- Two routers announce the address `::/12` at length 8, and one of them the
host route `::` at length 128. The texts differ by one slash, and only the
first is counted. -/
theorem an_address_with_a_slash_is_counted :
    let p : Prefix := { key := "a", router := "r1", address := "::/12", length := 8 }
    let q : Prefix := { key := "b", router := "r2", address := "::/12", length := 8 }
    let host : Prefix := { key := "c", router := "r2", address := "::", length := 128 }
    let a := (performAll {} [.add p, .add q, .add host]).1
    p.network = q.network ∧ p.isHostRoute = q.isHostRoute ∧ host.network ≠ p.network ∧
      a.counts.count p.network = 2 ∧ a.counts.count host.network = 0 := by
  intro p q host a
  obtain ⟨hpq, hroutes, hcount⟩ := a_network_tells_its_address_and_length p q
  obtain ⟨hhost, -, hnone⟩ := a_network_tells_its_address_and_length host p
  have hsame : p.network = q.network := hpq.2 ⟨rfl, rfl⟩
  refine ⟨hsame, hroutes hsame, fun h => ?_, (hcount _).trans ?_, (hnone _).trans ?_⟩
  · exact absurd (hhost.1 h).2 (by decide)
  · decide +kernel
  · rfl

end Announcements

end TopologySync
