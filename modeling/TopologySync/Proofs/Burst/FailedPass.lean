-- What a failed pass leaves behind. The end of the burst writes no weight, so
-- that an edge ends up with what the events of the burst wrote. An update with
-- raw telemetry writes zeros for the normalized weights.
import Mathlib.Data.List.Infix
import TopologySync.Fixtures
import TopologySync.Proofs.Burst.Freshness
import TopologySync.Proofs.Burst.Taken
import TopologySync.Proofs.Reconcile.Merge

open Std

namespace TopologySync

/-! ## Raw telemetry -/

/-- The link reports nothing normalized. -/
def Link.IsRaw (link : Link) : Prop :=
  ∀ kind : WeightKind, kind.isNormalized = true → link.weight kind = 0.0

namespace Event

/-- The link that an event carries. -/
def link? : Event → Option Link
  | .addLink link | .updateLink link => some link
  | _ => none

/-- The event updates the link of a key. -/
def updates (key : String) : Event → Bool
  | .updateLink link => link.key == key
  | _ => false

/-- What an event that is taken makes of the edge of a key. -/
def rewrite (key : String) (edge : Edge) : Event → Edge
  | .updateLink link =>
    if link.key = key then { edge with weights := (Topology.mergeLink edge link).2 } else edge
  | _ => edge

end Event

/-! ## Edges that stay -/

namespace Topology

variable {t : Topology} {key : String} {edge : Edge}

theorem edge_addLink (hedge : t.graph.edges[key]? = some edge) (link : Link) :
    (t.settle (t.addLink link)).graph.edges[key]? = some edge := by
  rw [addLink_eq]
  split
  · exact hedge
  · rename_i hnew
    split
    · exact hedge
    · have hother : link.key ≠ key := fun heq =>
        hnew (Maps.mem_iff_exists.2 ⟨edge, by rw [heq, hedge]⟩)
      simpa [settle, linked, Graph.link, Graph.withNode, edgeOf, ExtTreeMap.getElem?_insert, hother]
        using hedge

theorem edge_updateLink (hedge : t.graph.edges[key]? = some edge) (link : Link) :
    (t.settle (t.updateLink link)).graph.edges[key]? =
      some (Event.rewrite key edge (.updateLink link)) := by
  rw [updateLink_eq, Event.rewrite]
  by_cases hkey : link.key = key
  · subst hkey
    simp [hedge, settle, Graph.reweigh]
  · rw [if_neg hkey]
    rcases t.graph.edges[link.key]? with _ | known
    · simp only [settle_map, implies_true]
      exact edge_addLink hedge link
    · simpa [settle, Graph.reweigh, ExtTreeMap.getElem?_insert, hkey] using hedge

theorem thinned_deleteNode (t : Topology) (key : String) :
    t.graph.Thinned (t.settle (t.deleteNode key)).graph := by
  rw [deleteNode_eq]
  split
  · exact fun _ _ => rfl
  · dsimp only
    split
    · exact t.graph.thinned_dropNode _
    · exact fun _ _ => rfl

theorem thinned_deleteLink (t : Topology) (key : String) :
    t.graph.Thinned (t.settle (t.deleteLink key)).graph := by
  rw [deleteLink_eq]
  split
  · exact fun _ _ => rfl
  · exact t.graph.thinned_unlink _

end Topology

namespace Sync

variable {s : Sync} {key : String} {edge : Edge}

theorem graph_onAnnouncements (s : Sync)
    (change : Announcements → Except ReconcileError Unit × Announcements) :
    (s.onAnnouncements change).2.topology.graph = s.topology.graph := by
  unfold onAnnouncements
  rcases s.dispatcher.prefixes with _ | counts <;> rfl

theorem graph_onTopology (s : Sync) (taken : Bool)
    (change : Topology → Except ReconcileError (Bool × Topology)) :
    (s.onTopology taken change).2.topology.graph =
      if taken then (s.topology.settle (change s.topology)).graph else s.topology.graph := by
  rw [onTopology_topology]
  split <;> rfl

/-- An edge that stays is touched by nothing but an update. -/
theorem edge_apply (hedge : s.topology.graph.edges[key]? = some edge) {event : Event}
    (hupdate : ∀ link, event ≠ .updateLink link)
    (hstays : key ∈ (s.apply event).2.topology.graph.edges) :
    (s.apply event).2.topology.graph.edges[key]? = some edge := by
  have hthinned : ∀ {taken : Bool} {change : Topology → Except ReconcileError (Bool × Topology)},
      s.topology.graph.Thinned (s.topology.settle (change s.topology)).graph →
      key ∈ (s.onTopology taken change).2.topology.graph.edges →
      (s.onTopology taken change).2.topology.graph.edges[key]? = some edge := by
    intro taken change h
    rw [graph_onTopology, ← hedge]
    split
    · exact h key
    · exact fun _ => rfl
  cases event with
  | addNode node | updateNode node =>
    refine hthinned ?_ hstays
    rw [Topology.upsertNode_eq]
    exact fun _ _ => rfl
  | deleteNode k => exact hthinned (s.topology.thinned_deleteNode k) hstays
  | addLink link =>
    rw [apply, graph_onTopology]
    split
    · exact Topology.edge_addLink hedge link
    · exact hedge
  | updateLink link => exact absurd rfl (hupdate link)
  | deleteLink k => exact hthinned (s.topology.thinned_deleteLink k) hstays
  | addPrefix p =>
    rw [apply, graph_onAnnouncements]
    exact hedge
  | deletePrefix k =>
    rw [apply, graph_onAnnouncements]
    exact hedge
  | addSid sid => exact hthinned (fun _ _ => rfl) hstays
  | deleteSid k => exact hthinned (fun _ _ => rfl) hstays

/-- An edge that stays is as it was before an event, or as an update of its
link made it. -/
theorem edge_dispatch (hedge : s.topology.graph.edges[key]? = some edge) {event : Event}
    (hstays : key ∈ (s.dispatch event).2.1.topology.graph.edges) :
    (s.dispatch event).2.1.topology.graph.edges[key]? =
      some (if s.dispatcher.links then event.rewrite key edge else edge) := by
  rw [dispatch_state] at hstays ⊢
  by_cases hupdate : ∃ link, event = .updateLink link
  · obtain ⟨link, rfl⟩ := hupdate
    rcases hlinks : s.dispatcher.links with _ | _
    · rw [if_neg (by simp [Dispatcher.handles, Event.family, hlinks])]
      exact hedge
    · rw [if_pos (by simp [Dispatcher.handles, Event.family, hlinks]), apply, graph_onTopology,
        hlinks]
      simp only [Topology.settle_map, implies_true, if_true]
      exact Topology.edge_updateLink hedge link
  · have hsame : event.rewrite key edge = edge := by
      cases event with
      | updateLink link => exact absurd ⟨link, rfl⟩ hupdate
      | _ => rfl
    rw [hsame, ite_self]
    split at hstays
    · rename_i htaken
      rw [if_pos htaken]
      exact edge_apply hedge (fun link heq => hupdate ⟨link, heq⟩) hstays
    · rename_i hleft
      rw [if_neg hleft]
      exact hedge

end Sync

/-! ## Normalized weights -/

/-- What a reported zero makes of a weight. It is written, unless the edge has
a zero already. -/
def zeroed (known : Option Float) : Option Float :=
  if known.any (· == 0.0) then known else some 0.0

theorem zeroed_zeroed (known : Option Float) : zeroed (zeroed known) = zeroed known := by
  have hzero : (0.0 == (0.0 : Float)) = true := by decide +kernel
  by_cases hknown : known.any (· == 0.0) = true
  · simp [zeroed, hknown]
  · simp [zeroed, hknown, hzero]

namespace Event

/-- The event carries no normalized telemetry. -/
def IsRaw (event : Event) : Prop :=
  ∀ link, event.link? = some link → link.IsRaw

theorem getElem?_rewrite {event : Event} (hraw : event.IsRaw) (key : String) (edge : Edge)
    {kind : WeightKind} (hkind : kind.isNormalized = true) :
    (event.rewrite key edge).weights[kind]? =
      if event.updates key then zeroed edge.weights[kind]? else edge.weights[kind]? := by
  cases event with
  | updateLink link =>
    by_cases hkey : link.key = key
    · simp only [rewrite, updates, hkey, beq_self_eq_true, if_true]
      rw [Topology.getElem?_merged, Topology.rewrites, hraw link rfl kind hkind]
      unfold zeroed unpopulated
      rcases edge.weights[kind]?.any (· == 0.0) <;> simp [hkind]
    · simp [rewrite, updates, hkey]
  | _ => rfl

end Event

namespace Sync

variable {s : Sync} {key : String} {edge : Edge}

/-- Raw telemetry alone leaves the normalized weights of an edge that stays, or
turns them to zeros. -/
theorem edge_dispatchAll (hedge : s.topology.graph.edges[key]? = some edge) {events : List Event}
    (hraw : ∀ event ∈ events, event.IsRaw)
    (hstays : ∀ before, before <+: events →
      key ∈ (s.dispatchAll before).topology.graph.edges) :
    ∃ edge', (s.dispatchAll events).topology.graph.edges[key]? = some edge' ∧
      ∀ kind : WeightKind, kind.isNormalized = true → edge'.weights[kind]? =
        if s.dispatcher.links && events.any (Event.updates key) then zeroed edge.weights[kind]?
        else edge.weights[kind]? := by
  induction events generalizing s edge with
  | nil => exact ⟨edge, hedge, fun kind _ => by simp⟩
  | cons event rest ih =>
    have hnext := edge_dispatch hedge (hstays [event] ⟨rest, rfl⟩)
    obtain ⟨edge', hedge', hweights⟩ := ih hnext
      (fun other hmem => hraw other (List.mem_cons_of_mem event hmem))
      (fun before hbefore => hstays (event :: before) (List.cons_prefix_cons.2 ⟨rfl, hbefore⟩))
    refine ⟨edge', hedge', fun kind hkind => ?_⟩
    have hfirst := Event.getElem?_rewrite (hraw event List.mem_cons_self) key edge hkind
    have hlinks : (s.dispatch event).2.1.dispatcher.links = s.dispatcher.links :=
      s.handles_dispatch event .link
    rw [hweights kind hkind, hlinks, List.any_cons]
    rcases s.dispatcher.links with _ | _
    · simp
    · simp only [Bool.true_and, if_true, hfirst]
      by_cases hupdate : event.updates key = true
      · simp [hupdate, zeroed_zeroed]
      · simp [hupdate]

end Sync

/-! ## The end of the burst -/

namespace Processor

variable {ν : Type} [Normalizing ν]

/-- A pass that fails is reported, and writes nothing. -/
theorem finishBurst_failed (p : Processor ν) {normalizer : ν}
    (hnormalizer : p.normalizer = some normalizer) {e : NormalizeError}
    (hfailed : (p.graph.renormalize normalizer).1 = .error e) (events : Nat) :
    .normalizationFailed e ∈ (p.finishBurst events true).2 ∧
      (p.finishBurst events true).1.graph.edges = p.graph.edges := by
  rcases hpass : p.graph.renormalize normalizer with ⟨outcome, normalizer'⟩
  rw [hpass] at hfailed
  subst hfailed
  have hpass' : p.renormalize =
      ({ p with normalizer := some normalizer' }, [.normalizationFailed e]) := by
    simp only [renormalize, hnormalizer, hpass]
  simp only [finishBurst, hpass', if_true]
  exact ⟨List.mem_cons_self, rfl⟩

end Processor

/-- However the burst ends, the failed pass leaves the edges alone. -/
theorem Run.ended_failed {ν : Type} [Normalizing ν] {p : Processor ν} {normalizer : ν}
    (hnormalizer : p.normalizer = some normalizer) {events : List Event}
    (howes : (busy p events).owes = true) {e : NormalizeError}
    (hfailed : ((busy p events).processor.graph.renormalize normalizer).1 = .error e) :
    ∀ ended ∈ [(busy p events).expire, (busy p events).close],
      .normalizationFailed e ∈ ended.2 ∧
        ended.1.processor.graph.edges = (p.sync.dispatchAll events).topology.graph.edges := by
  have howed : p.sync.changes events = true := howes
  obtain ⟨hreported, hedges⟩ :=
    (busy p events).processor.finishBurst_failed hnormalizer hfailed events.length
  have hfinish : ∀ next, (busy p events).finish next =
      ({ processor := ((busy p events).processor.finishBurst events.length true).1, phase := next },
        ((busy p events).processor.finishBurst events.length true).2) := by
    intro next
    simp only [finish, busy, howed]
  intro ended hended
  simp only [List.mem_cons, List.not_mem_nil, or_false] at hended
  rcases hended with rfl | rfl
  · have hexpire : (busy p events).expire = (busy p events).finish .idle := rfl
    rw [hexpire, hfinish]
    exact ⟨hreported, hedges⟩
  · have hclose : (busy p events).close = (((busy p events).finish .ended).1,
        ((busy p events).finish .ended).2 ++ [.sourceClosed]) := rfl
    rw [hclose, hfinish]
    exact ⟨List.mem_append_left _ hreported, hedges⟩

/-- A burst of raw telemetry that ends with a failed pass leaves each edge that
stayed its normalized weights if no update named it, and zeros if one did. -/
theorem a_failed_pass_leaves_what_updates_wrote {ν : Type} [Normalizing ν] (p : Processor ν)
    (normalizer : ν) (hnormalizer : p.normalizer = some normalizer) (events : List Event)
    (hraw : ∀ event ∈ events, event.IsRaw) :
    let taken := (Run.receiveAll { processor := p } events).1
    ∀ e, taken.owes = true → (taken.processor.graph.renormalize normalizer).1 = .error e →
      ∀ (key : String) (edge : Edge), p.graph.edges[key]? = some edge →
        (∀ before, before <+: events → key ∈ (p.sync.dispatchAll before).topology.graph.edges) →
        ∀ ended ∈ [taken.expire, taken.close], .normalizationFailed e ∈ ended.2 ∧
          ∃ edge', ended.1.processor.graph.edges[key]? = some edge' ∧
            ∀ kind : WeightKind, kind.isNormalized = true →
              ((∀ event ∈ events, event.updates key = false) →
                edge'.weights[kind]? = edge.weights[kind]?) ∧
              (p.sync.dispatcher.links = true → (∃ event ∈ events, event.updates key = true) →
                edge'.weights[kind]? = zeroed edge.weights[kind]?) := by
  intro taken e howes hfailed key edge hedge hstays ended hended
  have hsome : events ≠ [] := by
    rintro rfl
    cases howes
  have htaken : taken = .busy p events := Run.receiveAll_idle p hsome
  rw [htaken] at howes hfailed hended
  obtain ⟨hreported, hedges⟩ := Run.ended_failed hnormalizer howes hfailed ended hended
  obtain ⟨edge', hedge', hweights⟩ := Sync.edge_dispatchAll hedge hraw hstays
  refine ⟨hreported, edge', by rw [hedges, hedge'], fun kind hkind => ⟨fun hnone => ?_, ?_⟩⟩
  · have hany : events.any (Event.updates key) = false := by simpa using hnone
    rw [hweights kind hkind, hany]
    simp
  · intro hlinks hupdate
    have hany : events.any (Event.updates key) = true := by simpa using hupdate
    rw [hweights kind hkind, hany, hlinks]
    simp

/-- The error of an outcome, if it is one. Errors can be compared even where
results cannot. -/
def failure? {ε α : Type} : Except ε α → Option ε
  | .ok _ => none
  | .error e => some e

theorem eq_error_of_failure? {ε α : Type} {outcome : Except ε α} {e : ε}
    (h : failure? outcome = some e) : outcome = .error e := by
  cases outcome with
  | ok result => cases h
  | error e' => rw [Option.some.inj h]

/-- A link with what is measured on it. -/
def Fixtures.measured (key source target : String) (delay jitter : UInt32) (packetLoss : Float) :
    Link :=
  { Fixtures.link key source target with delay, jitter, packetLoss }

/-- Two links that differ, normalized with the snapshot that they came in. -/
def Fixtures.uneven : Processor :=
  let links := [measured "l12" "r1" "r2" 500 20 0.5, measured "l21" "r2" "r1" 1500 60 1.5]
  let start : Processor := { normalizer := some (.new .robust) }
  start.afterLoad ({ links }, Normalizer.new .robust)

/-- One link comes to measure what the other does. -/
def Fixtures.levelling : List Event :=
  [.updateLink (measured "l21" "r2" "r1" 500 20 0.5)]

theorem Fixtures.isRaw_levelling : ∀ event ∈ levelling, event.IsRaw := by
  intro event hmem link hlink kind hkind
  rw [List.mem_singleton.1 hmem] at hlink
  cases hlink
  cases kind with
  | normalizedDelay | normalizedJitter | normalizedPacketLoss => rfl
  | _ => cases hkind

/-- With both links level the interquartile range is zero, and the pass fails.
The link that no update named keeps its weight, the other one has a zero. -/
theorem a_failed_pass_spares_the_other_link :
    let taken := (Run.receiveAll { processor := Fixtures.uneven } Fixtures.levelling).1
    let weight? := fun (p : Processor) (key : String) =>
      p.graph.edges[key]?.bind (·.weights[WeightKind.normalizedDelay]?)
    weight? Fixtures.uneven "l12" = some (-0.5) ∧
      weight? taken.expire.1.processor "l12" = some (-0.5) ∧
      weight? taken.expire.1.processor "l21" = zeroed (some 0.5) := by
  intro taken weight?
  have howes : taken.owes = true := by decide +kernel
  have hfailed : (taken.processor.graph.renormalize (Normalizer.new .robust)).1 =
      .error ⟨.delay, .degenerate .interquartileRange⟩ :=
    eq_error_of_failure? (by decide +kernel)
  have hstays : ∀ key ∈ ["l12", "l21"], ∀ before ∈ Fixtures.levelling.inits,
      key ∈ (Fixtures.uneven.sync.dispatchAll before).topology.graph.edges := by
    decide +kernel
  have hlaw := a_failed_pass_leaves_what_updates_wrote Fixtures.uneven (.new .robust)
    (by decide +kernel) Fixtures.levelling Fixtures.isRaw_levelling _ howes hfailed
  have hspared : weight? Fixtures.uneven "l12" = some (-0.5) := by decide +kernel
  have hnamed : weight? Fixtures.uneven "l21" = some 0.5 := by decide +kernel
  obtain ⟨edge, hedge, hweight⟩ := Option.bind_eq_some_iff.1 hspared
  obtain ⟨edge', hedge', hweight'⟩ := Option.bind_eq_some_iff.1 hnamed
  refine ⟨hspared, ?_, ?_⟩
  · obtain ⟨-, after, hafter, hweights⟩ := hlaw "l12" edge hedge
      (fun before hbefore => hstays "l12" (by decide) before ((List.mem_inits _ _).2 hbefore))
      taken.expire List.mem_cons_self
    simp only [weight?, hafter, Option.bind_some]
    rw [(hweights .normalizedDelay rfl).1 (by decide), hweight]
  · obtain ⟨-, after, hafter, hweights⟩ := hlaw "l21" edge' hedge'
      (fun before hbefore => hstays "l21" (by decide) before ((List.mem_inits _ _).2 hbefore))
      taken.expire List.mem_cons_self
    simp only [weight?, hafter, Option.bind_some]
    rw [(hweights .normalizedDelay rfl).2 (by decide +kernel) (by decide), hweight']

/-- The pass over the two links fails, and yet the weight that the graph had
before the burst is not the one that it has behind it. -/
theorem a_failed_pass_loses_a_normalized_weight :
    let taken := (Run.receiveAll { processor := Fixtures.uneven } Fixtures.levelling).1
    let weight? := fun (p : Processor) =>
      p.graph.edges["l21"]?.bind (·.weights[WeightKind.normalizedDelay]?)
    (∀ event ∈ Fixtures.levelling, event.IsRaw) ∧
      Fixtures.uneven.normalizer = some (.new .robust) ∧ taken.owes = true ∧
      (taken.processor.graph.renormalize (Normalizer.new .robust)).1 =
        .error ⟨.delay, .degenerate .interquartileRange⟩ ∧
      weight? Fixtures.uneven = some 0.5 ∧ weight? taken.expire.1.processor = some 0.0 := by
  intro taken weight?
  exact ⟨Fixtures.isRaw_levelling, by decide +kernel, by decide +kernel,
    eq_error_of_failure? (by decide +kernel), by decide +kernel, by decide +kernel⟩

end TopologySync
