-- Where cache and graph fall apart. A router that the cache resolves is missing
-- from the graph for one reason only, and so is a router still described that
-- no record reports: each time since one event that is to blame.
import Mathlib.Data.List.Induction
import TopologySync.Fixtures
import TopologySync.Proofs.Presence.Events
import TopologySync.Proofs.Reconcile.Changes

open Std

namespace TopologySync

/-! ## Gaps of one router -/

/-- A graph node that tells more than that a link named it. -/
def GraphNode.Described (node : GraphNode) : Prop :=
  node.name ≠ "" ∨ node.algorithms ≠ ∅

namespace Presence

/-- A record speaks for the router, and the graph does not have it. -/
def Missing (p : Presence) : Prop :=
  p.voice.isSome ∧ p.shown = none

/-- No record reports the router, and the graph still describes it. -/
def Forgotten (p : Presence) : Prop :=
  p.reporters = ∅ ∧ ∃ shown, p.shown = some shown ∧ shown.Described

variable {p p' : Presence} {event : Event}

/-- Only a delete takes the graph node away, and it looks at the router of
the record alone, not at who speaks for it. -/
theorem missing_step (hstep : p.Step event p') (h : p'.Missing) :
    p.Missing ∨ ∃ key speaker, event = .deleteNode key ∧ key ∈ p.reporters ∧
      p.speaker = some speaker ∧ speaker ≠ key := by
  obtain ⟨hvoice, hshown⟩ := h
  cases hstep with
  | still => exact Or.inl ⟨hvoice, hshown⟩
  | report hevent hrouter => cases hshown
  | leave hevent hrouter hmem =>
    rw [voice_leave] at hvoice
    split at hvoice
    · cases hvoice
    · exact Or.inl ⟨hvoice, hshown⟩
  | @delete key hmem =>
    have hleft : (p.leave key).voice.isSome := hvoice
    rw [voice_leave] at hleft
    split at hleft
    · cases hleft
    · rename_i hother
      rcases hspeaker : p.speaker with _ | speaker
      · simp [voice, hspeaker] at hleft
      · refine Or.inr ⟨key, speaker, rfl, hmem, rfl, fun heq => hother ?_⟩
        rw [hspeaker, heq]
  | mention =>
    rw [mention, Option.or_eq_none_iff] at hshown
    cases hshown.2

/-- A description outlives its records only if the last of them moves away. -/
theorem forgotten_step (hstep : p.Step event p') (h : p'.Forgotten) :
    p.Forgotten ∨ ∃ node, event.reported? = some node ∧ node.router ≠ p.router ∧
      node.key ∈ p.reporters := by
  obtain ⟨hnone, shown, hshown, hdescribed⟩ := h
  cases hstep with
  | still => exact Or.inl ⟨hnone, shown, hshown, hdescribed⟩
  | @report _ node hevent hrouter =>
    have hmem : node.key ∈ p.reporters.insert node.key node := ExtTreeMap.mem_insert_self
    rw [show p.reporters.insert node.key node = ∅ from hnone] at hmem
    exact absurd hmem ExtTreeMap.not_mem_empty
  | leave hevent hrouter hmem => exact Or.inr ⟨_, hevent, hrouter, hmem⟩
  | delete hmem => cases hshown
  | mention =>
    rcases hknown : p.shown with _ | known
    · -- With no record left, a link can only make a placeholder.
      have hvoice : p.voice = none := by
        simp [voice, show p.reporters = ∅ from hnone]
      rw [mention, hknown] at hshown
      cases hshown
      simp [GraphNode.Described, likeness, hvoice, GraphNode.placeholder] at hdescribed
    · rw [mention, hknown] at hshown
      cases hshown
      exact Or.inl ⟨hnone, shown, hknown, hdescribed⟩

end Presence

/-! ## Events from nothing -/

namespace Sync

/-- What a full dispatcher makes of events, starting from nothing. -/
def reached (events : List Event) : Sync :=
  dispatchAll {} events

theorem reached_snoc (events : List Event) (event : Event) :
    reached (events ++ [event]) = ((reached events).dispatch event).2.1 :=
  dispatchAll_append {} events [event]

theorem keyed_reached (events : List Event) : (reached events).topology.graph.Keyed :=
  keyed_dispatchAll Graph.keyed_empty events

theorem good_reached (events : List Event) (router : String) :
    ((reached events).topology.presence router).Good := by
  induction events using List.reverseRecOn with
  | nil => exact Topology.good_empty router
  | append_singleton events event ih =>
    rw [reached_snoc]
    exact Presence.good_step ih (step_dispatch (keyed_reached events) ih event)

theorem step_reached (events : List Event) (event : Event) (router : String) :
    ((reached events).topology.presence router).Step event
      ((reached (events ++ [event])).topology.presence router) := by
  rw [reached_snoc]
  exact step_dispatch (keyed_reached events) (good_reached events router) event

/-- An event of a certain kind came, and ever since then something holds. -/
def Since (begins : Sync → Event → Prop) (holds : Sync → Prop) (events : List Event) : Prop :=
  ∃ before event after, events = before ++ event :: after ∧ begins (reached before) event ∧
    ∀ later, later <+: after → holds (reached (before ++ event :: later))

variable {begins : Sync → Event → Prop} {holds holds' : Sync → Prop} {events : List Event}

theorem Since.now (h : Since begins holds events) : holds (reached events) := by
  obtain ⟨before, event, after, rfl, -, hsince⟩ := h
  exact hsince after List.prefix_rfl

theorem Since.mono (h : Since begins holds events) (himp : ∀ s, holds s → holds' s) :
    Since begins holds' events := by
  obtain ⟨before, event, after, hsplit, hbegins, hsince⟩ := h
  exact ⟨before, event, after, hsplit, hbegins, fun later hlater => himp _ (hsince later hlater)⟩

/-- What holds now and did not at first has held since an event that began it,
if nothing else begins it. -/
theorem since_of_holds (hfirst : ¬ holds (reached []))
    (hstep : ∀ events event, holds (reached (events ++ [event])) →
      holds (reached events) ∨ begins (reached events) event)
    (h : holds (reached events)) : Since begins holds events := by
  induction events using List.reverseRecOn with
  | nil => exact absurd h hfirst
  | append_singleton events event ih =>
    rcases hstep events event h with hpast | hbegins
    · obtain ⟨before, first, after, rfl, hbegins, hsince⟩ := ih hpast
      refine ⟨before, first, after ++ [event], by simp, hbegins, fun later hlater => ?_⟩
      rcases List.prefix_concat_iff.1 hlater with rfl | hearlier
      · simpa using h
      · exact hsince later hearlier
    · refine ⟨events, event, [], rfl, hbegins, fun later hlater => ?_⟩
      rw [List.prefix_nil.1 hlater]
      exact h

/-! ## Routers that are missing -/

/-- A record of a router is deleted while another one speaks for the router. -/
def Evicts (router : String) (s : Sync) (event : Event) : Prop :=
  ∃ key node speaker, event = .deleteNode key ∧ s.topology.cache.nodes[key]? = some node ∧
    node.router = router ∧ s.topology.cache.nodeSlots[router]? = some speaker ∧ speaker ≠ key

theorem since_missing (router : String)
    (h : ((reached events).topology.presence router).Missing) :
    Since (Evicts router) (fun s => (s.topology.presence router).Missing) events := by
  refine since_of_holds ?_ (fun events event hmissing => ?_) h
  · rintro ⟨hvoice, -⟩
    cases hvoice
  · rcases Presence.missing_step (step_reached events event router) hmissing with
      hpast | ⟨key, speaker, hevent, hmem, hspeaker, hother⟩
    · exact Or.inl hpast
    · obtain ⟨node, hnode, hrouter⟩ := (Topology.mem_reporters _ router key).1 hmem
      exact Or.inr ⟨key, node, speaker, hevent, hnode, hrouter, hspeaker, hother⟩

/-- A router that the cache resolves is in the graph, as its record describes
it, unless a delete of another record of the router took it out and nothing
has put it back. -/
theorem a_resolved_router_is_in_the_graph_unless_evicted (events : List Event) {router : String}
    {node : Node} (h : (reached events).topology.cache.nodeOfRouter? router = some node) :
    (reached events).topology.graph.nodes[router]? =
        some { id := router, name := node.name, algorithms := node.algorithms } ↔
      ¬ Since (Evicts router) (fun s => router ∉ s.topology.graph.nodes) events := by
  have hgood := good_reached events router
  have hvoice : ((reached events).topology.presence router).voice = some node := by
    rw [← Topology.nodeOfRouter?_eq hgood, h]
  constructor
  · intro hshown hsince
    exact hsince.now (Maps.mem_iff_exists.2 ⟨_, hshown⟩)
  · intro hkept
    rcases hshown : (reached events).topology.graph.nodes[router]? with _ | shown
    · -- It would be missing, and so it would have been evicted.
      have hmissing : ((reached events).topology.presence router).Missing :=
        ⟨by rw [hvoice]; rfl, hshown⟩
      refine absurd ((since_missing router hmissing).mono fun s hgap => ?_) hkept
      rw [Maps.mem_iff_exists, show s.topology.graph.nodes[router]? = none from hgap.2]
      simp
    · rw [hgood.alike node shown hvoice hshown, Presence.likeness_of_voice hvoice]
      rfl

/-- The record that is left speaks for the router, but the router is gone, and
its edge with it. -/
theorem a_delete_takes_out_a_router_of_another_record :
    let heir := { Fixtures.node "r1" with key := "heir", name := "heir" }
    let s := reached [.addNode (Fixtures.node "r1"), .addNode heir,
      .addLink (Fixtures.link "l" "r1" "r2"), .deleteNode "node-r1"]
    s.topology.cache.nodeOfRouter? "r1" = some heir ∧
      s.topology.graph.nodes[("r1" : String)]? = none ∧
      s.topology.graph.edges[("l" : String)]? = none := by
  decide +kernel

/-- The router is back in the graph with the next report. -/
theorem a_report_puts_an_evicted_router_back :
    let heir := { Fixtures.node "r1" with key := "heir", name := "heir" }
    let events : List Event := [.addNode (Fixtures.node "r1"), .addNode heir,
      .deleteNode "node-r1", .updateNode heir]
    (reached events).topology.cache.nodeOfRouter? "r1" = some heir ∧
      ¬ Since (Evicts "r1") (fun s => "r1" ∉ s.topology.graph.nodes) events := by
  intro heir events
  have hheir : (reached events).topology.cache.nodeOfRouter? "r1" = some heir := by
    decide +kernel
  exact ⟨hheir, (a_resolved_router_is_in_the_graph_unless_evicted events hheir).1
    (by decide +kernel)⟩

/-! ## Routers that are forgotten -/

/-- A record of a router is stored anew for another router. -/
def Moves (router : String) (s : Sync) (event : Event) : Prop :=
  ∃ node previous, event.reported? = some node ∧ node.router ≠ router ∧
    s.topology.cache.nodes[node.key]? = some previous ∧ previous.router = router

/-- Some record is one of a router. -/
def Reports (router : String) (s : Sync) : Prop :=
  ∃ (key : String) (node : Node), s.topology.cache.nodes[key]? = some node ∧ node.router = router

theorem not_reports_iff (s : Sync) (router : String) :
    ¬ s.Reports router ↔ (s.topology.presence router).reporters = ∅ := by
  rw [ExtTreeMap.eq_empty_iff_forall_not_mem]
  simp only [Topology.mem_reporters, Reports, not_exists]

theorem since_forgotten (router : String)
    (h : ((reached events).topology.presence router).Forgotten) :
    Since (Moves router) (fun s => (s.topology.presence router).Forgotten) events := by
  refine since_of_holds ?_ (fun events event hforgotten => ?_) h
  · rintro ⟨-, shown, hshown, -⟩
    cases hshown
  · rcases Presence.forgotten_step (step_reached events event router) hforgotten with
      hpast | ⟨node, hevent, hrouter, hmem⟩
    · exact Or.inl hpast
    · obtain ⟨previous, hprevious, hhome⟩ := (Topology.mem_reporters _ router node.key).1 hmem
      exact Or.inr ⟨node, previous, hevent, hrouter, hprevious, hhome⟩

/-- A router that the graph describes has a record, unless its last one moved
to another router and none has come since. -/
theorem a_described_router_has_a_record_unless_moved (events : List Event) {router : String}
    {shown : GraphNode} (hshown : (reached events).topology.graph.nodes[router]? = some shown)
    (hdescribed : shown.Described) :
    (reached events).Reports router ↔
      ¬ Since (Moves router) (fun s => ¬ s.Reports router) events := by
  constructor
  · intro hreports hsince
    exact hsince.now hreports
  · intro hstays
    refine Classical.byContradiction fun hnone => hstays ?_
    have hforgotten : ((reached events).topology.presence router).Forgotten :=
      ⟨(not_reports_iff _ router).1 hnone, shown, hshown, hdescribed⟩
    exact (since_forgotten router hforgotten).mono fun s hgap => (not_reports_iff s router).2 hgap.1

/-- The router that a record has left keeps its name and its algorithms, also
in the subgraphs that are built next. -/
theorem a_router_outlives_its_only_record :
    let record := { Fixtures.node "r1" with algorithms := {128} }
    let s := reached [.addNode record, .updateNode { record with router := "r2" }]
    s.topology.graph.nodes[("r1" : String)]? = some (Topology.graphNodeOf record) ∧
      ¬ s.Reports "r1" ∧
      s.topology.graph.rebuild.subGraphs[(128 : UInt8)]?.any (·.nodes.contains "r1") = true := by
  intro record s
  refine ⟨by decide +kernel, ?_, by decide +kernel⟩
  rw [not_reports_iff]
  decide +kernel

/-- The next record of a router that was left counts as well as the first. -/
theorem a_router_that_was_left_is_taken_again :
    let record := { Fixtures.node "r1" with algorithms := {128} }
    let events : List Event := [.addNode record, .updateNode { record with router := "r2" },
      .addNode { record with key := "heir" }]
    (reached events).topology.graph.nodes[("r1" : String)]? = some (Topology.graphNodeOf record) ∧
      (Topology.graphNodeOf record).Described ∧
      ¬ Since (Moves "r1") (fun s => ¬ s.Reports "r1") events := by
  intro record events
  have hshown : (reached events).topology.graph.nodes[("r1" : String)]? =
      some (Topology.graphNodeOf record) := by
    decide +kernel
  have hdescribed : (Topology.graphNodeOf record).Described := Or.inl (by decide)
  have hreports : (reached events).Reports "r1" :=
    ⟨"heir", { record with key := "heir" }, by decide +kernel, rfl⟩
  exact ⟨hshown, hdescribed,
    (a_described_router_has_a_record_unless_moved events hshown hdescribed).1 hreports⟩

end Sync

end TopologySync
