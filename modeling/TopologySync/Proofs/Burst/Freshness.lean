-- The law of fresh subgraphs. Whenever the graph is free, its subgraphs
-- are those that its nodes and edges define: a burst that changed the
-- graph knows that it owes a rebuild, and pays before it lets go.
import TopologySync.Proofs.Burst.Moves
import TopologySync.Proofs.Burst.Passes
import TopologySync.Proofs.Graph.SubGraphs
import TopologySync.Proofs.Reconcile.Changes

open Std

namespace TopologySync

/-! ## Fresh subgraphs -/

/-- The subgraphs are current. Only a graph that was never rebuilt has none,
and such a graph is empty. -/
structure Graph.Fresh (graph : Graph) : Prop where
  current : graph.generation ≠ 0 → graph.Current
  untouched : graph.generation = 0 → graph.nodes = ∅ ∧ graph.edges = ∅ ∧ graph.subGraphs = ∅

namespace Graph

theorem fresh_empty : Fresh empty where
  current h := absurd rfl h
  untouched _ := ⟨rfl, rfl, rfl⟩

theorem fresh_rebuild {graph : Graph} (h : graph.Keyed) : graph.rebuild.Fresh where
  current _ := rebuild_current h
  untouched hnone := by simp [rebuild] at hnone

theorem keyed_normalizeEdge {graph : Graph} (h : graph.Keyed)
    (entry : String × Float × Float × Float) : (graph.normalizeEdge entry).Keyed := by
  refine ⟨h.nodes, ?_⟩
  intro key edge hedge
  simp only [normalizeEdge, ExtTreeMap.getElem?_modify] at hedge
  split at hedge
  · rename_i hkey
    obtain ⟨known, hknown, rfl⟩ := Option.map_eq_some_iff.1 hedge
    rw [← Std.compare_eq_iff_eq.1 hkey]
    exact h.edges entry.1 known hknown
  · exact h.edges key edge hedge

theorem keyed_normalizeEdges {graph : Graph} (h : graph.Keyed)
    (entries : List (String × Float × Float × Float)) : (graph.normalizeEdges entries).Keyed :=
  List.foldlRecOn _ _ h (fun _ h entry _ => keyed_normalizeEdge h entry)

end Graph

/-! ## The invariant of a run -/

namespace Run

variable {ν : Type}

/-- The open burst owes a rebuild. -/
def owes (run : Run ν) : Bool :=
  match run.phase with
  | .burst _ owed => owed
  | _ => false

/-- The subgraphs are fresh, or the open burst knows that they are not. -/
structure Honest (run : Run ν) : Prop where
  keyed : run.processor.graph.Keyed
  fresh : run.owes = false → run.processor.graph.Fresh

theorem owes_of_not_locked {run : Run ν} (h : run.isLocked = false) : run.owes = false := by
  unfold isLocked at h
  unfold owes
  split <;> simp_all

theorem honest_receive {run : Run ν} (h : run.Honest) (event : Event) :
    (run.receive event).1.Honest := by
  have hkeyed := Sync.dispatch_keyed h.keyed event
  have hquiet : (run.processor.sync.dispatch event).1 = false → run.owes = false →
      (run.processor.sync.dispatch event).2.1.topology.graph.Fresh := by
    intro hsame howes
    rw [Sync.dispatch_unchanged hsame]
    exact h.fresh howes
  unfold receive
  unfold owes at hquiet
  rcases hphase : run.phase with _ | ⟨events, owed⟩ | _
  · rw [hphase] at hquiet
    exact ⟨hkeyed, fun howes => hquiet (by simpa [owes] using howes) rfl⟩
  · rw [hphase] at hquiet
    refine ⟨hkeyed, fun howes => ?_⟩
    simp only [owes, Bool.or_eq_false_iff] at howes
    exact hquiet howes.2 howes.1
  · exact h

/-- However a burst ends, it ends with fresh subgraphs. -/
theorem honest_finish [Normalizing ν] {run : Run ν} (h : run.Honest) (next : Phase) :
    (run.finish next).1.Honest := by
  obtain ⟨hkeyed, hfresh⟩ := h
  unfold owes at hfresh
  unfold finish
  rcases hphase : run.phase with _ | ⟨events, owed⟩ | _
  · rw [hphase] at hfresh
    exact ⟨hkeyed, fun _ => hfresh rfl⟩
  · rw [hphase] at hfresh
    cases owed with
    | true =>
      obtain ⟨entries, hsync⟩ := run.processor.finishBurst_sync events
      have hrenewed := Graph.keyed_normalizeEdges hkeyed entries
      have hgraph : (run.processor.finishBurst events true).1.graph =
          (run.processor.graph.normalizeEdges entries).rebuild := by
        rw [Processor.graph, hsync]
        rfl
      refine ⟨?_, fun _ => ?_⟩
      · simp only [hgraph]
        exact Graph.keyed_rebuild hrenewed
      · simp only [hgraph]
        exact Graph.fresh_rebuild hrenewed
    | false => exact ⟨hkeyed, fun _ => hfresh rfl⟩
  · rw [hphase] at hfresh
    exact ⟨hkeyed, fun _ => hfresh rfl⟩

theorem honest_start {processor : Processor ν} (hkeyed : processor.graph.Keyed)
    (hfresh : processor.graph.Fresh) : Run.Honest { processor } :=
  ⟨hkeyed, fun _ => hfresh⟩

end Run

/-! ## Loads -/

namespace Processor

variable {ν μ : Type}

/-- Each load leaves the graph as it was or rebuilt. -/
theorem fresh_afterLoads [Normalizing μ] {p : Processor ν} (hkeyed : p.graph.Keyed)
    (hfresh : p.graph.Fresh) (loads : List (Snapshot × μ)) :
    (p.afterLoads loads).graph.Keyed ∧ (p.afterLoads loads).graph.Fresh := by
  unfold afterLoads
  apply List.foldlRecOn (motive := fun p : Processor ν => p.graph.Keyed ∧ p.graph.Fresh)
  · exact ⟨hkeyed, hfresh⟩
  · rintro p ⟨hkeyed, hfresh⟩ load -
    unfold graph at hkeyed hfresh ⊢
    rcases p.afterLoad_sync load with hsame | ⟨snapshot, happlied⟩
    · rw [hsame]
      exact ⟨hkeyed, hfresh⟩
    · obtain ⟨built, hbuilt, hgraph⟩ := Sync.applySnapshot_rebuilt hkeyed snapshot
      rw [happlied, hgraph]
      exact ⟨Graph.keyed_rebuild hbuilt, Graph.fresh_rebuild hbuilt⟩

end Processor

/-! ## The law -/

/-- A processor that starts with nothing, loads what snapshots it gets and
then takes events holds fresh subgraphs whenever it does not hold the lock. -/
theorem subgraphs_are_fresh_between_bursts {ν μ : Type} [Normalizing ν] [Normalizing μ]
    (holdTime : Nat) (dispatcher : Dispatcher) (normalizer : Option ν)
    (thresholds : Option ThresholdTracker) (loads : List (Snapshot × μ))
    (moves : List Channel.Move) (hquit : .quit ∉ moves) :
    let start : Processor ν := { holdTime, sync := { dispatcher }, normalizer, thresholds }
    let c := (Channel.new (start.afterLoads loads)).after moves
    c.run.isLocked = false → c.run.processor.graph.Fresh := by
  intro start c hfree
  have hloaded := start.fresh_afterLoads Graph.keyed_empty Graph.fresh_empty loads
  have hstart : (Channel.new (start.afterLoads loads)).run.Honest :=
    Run.honest_start hloaded.1 hloaded.2
  have hstep := Channel.run_step_keeps (Run.Honest : Run ν → Prop)
    (fun _ event h => Run.honest_receive h event) (fun _ next h => Run.honest_finish h next)
  have hhonest : c.run.Honest := Channel.keeps_after (·.run.Honest) hstep hstart hquit
  exact hhonest.fresh (Run.owes_of_not_locked hfree)

/-- One router comes with a snapshot and one with a burst, which the hold
time ends. The graph is rebuilt for each. -/
theorem subgraphs_are_fresh_after_a_load_and_a_burst :
    let loads : List (Snapshot × Normalizer) :=
      [({ nodes := [{ key := "a", router := "r1", algorithms := {128} }] }, .new .minMax)]
    let moves : List Channel.Move :=
      [.send (.addNode { key := "b", router := "r2" }), .take, .expire]
    let start : Processor := {}
    let c := (Channel.new (start.afterLoads loads)).after moves
    .quit ∉ moves ∧ c.run.isLocked = false ∧ c.run.processor.graph.generation = 2 ∧
      c.run.processor.graph.Fresh := by
  intro loads moves start c
  have hquit : .quit ∉ moves := by decide
  have hfree : c.run.isLocked = false := by decide +kernel
  have hrebuilt : c.run.processor.graph.generation = 2 := by decide +kernel
  exact ⟨hquit, hfree, hrebuilt,
    subgraphs_are_fresh_between_bursts 1000 {} none none loads moves hquit hfree⟩

end TopologySync
