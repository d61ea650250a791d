-- Requests by the events that they come to. Whoever takes which families, a
-- snapshot leaves what the events of its records leave, with a rebuild between
-- them, so that what events and rebuilds keep is kept by all requests.
import TopologySync.Proofs.Reconcile.Loads

open Std

namespace TopologySync.Sync

variable {s : Sync}

/-! ## Loads by their events -/

theorem dispatch_untaken {event : Event} (h : s.dispatcher.handles event.family = false) :
    (s.dispatch event).2.1 = s := by
  rw [dispatch_state, h]
  rfl

/-- Events of a family that no one takes change nothing. -/
theorem dispatchAll_untaken {α : Type} (report : α → Event) (family : Family)
    (hfamily : ∀ record, (report record).family = family)
    (h : s.dispatcher.handles family = false) (records : List α) :
    s.dispatchAll (records.map report) = s := by
  induction records with
  | nil => rfl
  | cons record rest ih =>
    have hstep : (s.dispatch (report record)).2.1 = s :=
      dispatch_untaken ((hfamily record).symm ▸ h)
    rw [List.map_cons, dispatchAll, List.foldl_cons, hstep]
    exact ih

theorem loadNodes_state (s : Sync) (nodes : List Node) :
    (s.loadNodes nodes).2.1 = s.dispatchAll (nodes.map .addNode) := by
  unfold loadNodes
  cases htaken : s.dispatcher.nodes with
  | true => exact (matches_upsertNodes htaken nodes).state
  | false => exact (dispatchAll_untaken .addNode .node (fun _ => rfl) htaken nodes).symm

theorem loadLinks_state (s : Sync) (links : List Link) :
    (s.loadLinks links).2.1 = (s.dispatchAll (links.map .addLink)).rebuilt := by
  unfold loadLinks
  cases htaken : s.dispatcher.links with
  | true => exact congrArg rebuilt (matches_addLinks htaken links).state
  | false =>
    exact congrArg rebuilt (dispatchAll_untaken .addLink .link (fun _ => rfl) htaken links).symm

/-- Announcements in turn, in the cache of a state that counts them. -/
theorem dispatchAll_addEach {counts : AnnouncementCounts}
    (h : s.dispatcher.prefixes = some counts) (prefixes : List Prefix) :
    let a := (Announcements.addEach { counts, cache := s.topology.cache } prefixes).2.1
    s.dispatchAll (prefixes.map .addPrefix) =
      { dispatcher := { s.dispatcher with prefixes := some a.counts }
        topology := { s.topology with cache := a.cache } } := by
  induction prefixes generalizing s counts with
  | nil =>
    obtain ⟨⟨nodes, links, taken, sids⟩, topology⟩ := s
    cases h
    rfl
  | cons p rest ih =>
    have htaken : s.dispatcher.handles .announcement = true := by simp [Dispatcher.handles, h]
    have hstep : (s.dispatch (.addPrefix p)).2.1 =
        { dispatcher := { s.dispatcher with
            prefixes := some (Announcements.add { counts, cache := s.topology.cache } p).2.counts }
          topology := { s.topology with
            cache := (Announcements.add { counts, cache := s.topology.cache } p).2.cache } } := by
      rw [dispatch_state, Event.family, htaken]
      simp [apply, onAnnouncements, h]
    simp only [List.map_cons, dispatchAll, List.foldl_cons, hstep]
    unfold Announcements.addEach
    rcases Announcements.add { counts, cache := s.topology.cache } p with ⟨_ | ⟨⟩, made⟩
    · exact ih rfl
    · exact ih rfl

theorem loadPrefixes_state (s : Sync) (prefixes : List Prefix) :
    (s.loadPrefixes prefixes).2.1 =
      s.dispatchAll ((prefixes.filter (fun p => !p.isHostRoute)).map .addPrefix) := by
  unfold loadPrefixes
  rcases htaken : s.dispatcher.prefixes with _ | counts
  · have hleft : s.dispatcher.handles .announcement = false := by simp [Dispatcher.handles, htaken]
    exact (dispatchAll_untaken .addPrefix .announcement (fun _ => rfl) hleft _).symm
  · exact (dispatchAll_addEach htaken _).symm

theorem loadSids_state (s : Sync) (sids : List Sid) :
    (s.loadSids sids).2 = s.dispatchAll (sids.map .addSid) := by
  cases htaken : s.dispatcher.sids with
  | true =>
    induction sids generalizing s with
    | nil => simp [loadSids, dispatchAll, htaken]
    | cons sid rest ih =>
      have hstep : (s.dispatch (.addSid sid)).2.1 =
          { s with topology := { s.topology with cache := s.topology.cache.storeSid sid } } := by
        rw [dispatch_state, Event.family, Dispatcher.handles, htaken]
        simp [apply, onCache, onTopology, htaken]
      have hrest := ih (s := (s.dispatch (.addSid sid)).2.1) (by rw [hstep]; exact htaken)
      rw [List.map_cons, dispatchAll, List.foldl_cons]
      refine Eq.trans ?_ hrest
      simp only [hstep, loadSids, htaken, List.foldl_cons, if_true]
  | false =>
    simp only [loadSids, htaken]
    exact (dispatchAll_untaken .addSid .sid (fun _ => rfl) htaken sids).symm

/-- A snapshot leaves what its records leave when they are reported one by one, with
the subgraphs rebuilt behind the links. -/
theorem applySnapshot_dispatched (s : Sync) (snapshot : Snapshot) :
    (s.applySnapshot snapshot).2.1 =
      ((((s.dispatchAll (snapshot.nodes.map .addNode)).dispatchAll
        (snapshot.links.map .addLink)).rebuilt.dispatchAll
        ((snapshot.prefixes.filter (fun p => !p.isHostRoute)).map .addPrefix)).dispatchAll
        (snapshot.sids.map .addSid)) := by
  rw [← loadNodes_state, ← loadLinks_state, ← loadPrefixes_state, ← loadSids_state]
  rfl

/-! ## What all requests keep -/

section Kept

variable {P : Sync → Prop} (hevent : ∀ s event, P s → P (s.dispatch event).2.1)
  (hrebuild : ∀ s, P s → P s.rebuilt)
include hevent

theorem dispatchAll_keeps (h : P s) (events : List Event) : P (s.dispatchAll events) :=
  List.foldlRecOn (motive := P) events _ h fun s h event _ => hevent s event h

include hrebuild

/-- What every event and every rebuild keeps is kept by every request. -/
theorem serveAll_keeps (h : P s) (requests : List Request) : P (s.serveAll requests) := by
  refine List.foldlRecOn (motive := P) requests serve h fun s h request _ => ?_
  have hevents : ∀ {s : Sync}, P s → ∀ events, P (s.dispatchAll events) :=
    fun h events => dispatchAll_keeps hevent h events
  cases request with
  | event event => exact hevent s event h
  | snapshot snapshot =>
    rw [serve, applySnapshot_dispatched]
    exact hevents (hevents (hrebuild _ (hevents (hevents h _) _)) _) _

end Kept

end TopologySync.Sync
