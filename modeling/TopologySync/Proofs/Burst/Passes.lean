-- What the end of a burst does to cache and graph. A pass of a normalizer,
-- whatever it is, comes to a list of writes of normalized weights; besides
-- these writes there is only the rebuild of the subgraphs.
import TopologySync.Burst.Run

namespace TopologySync

/-! ## One pass -/

/-- Writes the normalized weights of edges in turn. -/
def Graph.normalizeEdges (graph : Graph) (entries : List (String × Float × Float × Float)) :
    Graph :=
  entries.foldl normalizeEdge graph

theorem Graph.renormalize_writes {ν : Type} [Normalizing ν] {graph renewed : Graph}
    {normalizer normalizer' : ν} {n : Nat}
    (h : graph.renormalize normalizer = (.ok (n, renewed), normalizer')) :
    ∃ entries, renewed = graph.normalizeEdges entries := by
  unfold renormalize at h
  dsimp only at h
  split at h
  · cases h
    exact ⟨[], rfl⟩
  · split at h
    · cases h
    · cases h
      exact ⟨_, rfl⟩

namespace Processor

variable {ν μ : Type}

theorem observe_sync (p : Processor ν) (raw : Series) : (p.observe raw).1.sync = p.sync := by
  unfold observe
  split
  · rfl
  · split <;> rfl

theorem renormalize_none [Normalizing ν] {p : Processor ν} (h : p.normalizer = none) :
    p.renormalize.1 = p := by
  unfold renormalize
  rw [h]

theorem renormalize_sync [Normalizing ν] (p : Processor ν) :
    ∃ entries, p.renormalize.1.sync = (p.withGraph (p.graph.normalizeEdges entries)).sync := by
  unfold renormalize
  rcases p.normalizer with _ | normalizer
  · exact ⟨[], rfl⟩
  · rcases hpass : p.graph.renormalize normalizer with ⟨e | ⟨n, renewed⟩, normalizer'⟩
    · exact ⟨[], by simp only [hpass]; rfl⟩
    · simp only [hpass]
      cases n with
      | zero => exact ⟨[], rfl⟩
      | succ n =>
        obtain ⟨entries, rfl⟩ := Graph.renormalize_writes hpass
        exact ⟨entries, by simp only [observe_sync]⟩

/-! ## The end of a burst -/

theorem finishBurst_sync [Normalizing ν] (p : Processor ν) (events : Nat) :
    ∃ entries, (p.finishBurst events true).1.sync =
      (p.withGraph (p.graph.normalizeEdges entries).rebuild).sync := by
  obtain ⟨entries, h⟩ := p.renormalize_sync
  refine ⟨entries, ?_⟩
  simp [finishBurst, withGraph, signal, graph, h]

theorem finishBurst_none [Normalizing ν] {p : Processor ν} (h : p.normalizer = none)
    (events : Nat) : (p.finishBurst events true).1 = (p.withGraph p.graph.rebuild).signal := by
  simp [finishBurst, renormalize_none h]

/-! ## Snapshots -/

theorem normalizeSnapshot_sync [Normalizing μ] {p p' : Processor ν}
    {snapshot snapshot' : Snapshot} {normalizer normalizer' : μ} {reports : List Report}
    (h : p.normalizeSnapshot snapshot normalizer = .ok (snapshot', normalizer', p', reports)) :
    p'.sync = p.sync := by
  unfold normalizeSnapshot at h
  split at h
  · cases h
    rfl
  · split at h
    · cases h
    · cases h
      exact p.observe_sync _

/-- A load applies a snapshot to cache and graph, or it leaves them alone. -/
theorem afterLoad_sync [Normalizing μ] (p : Processor ν) (load : Snapshot × μ) :
    (p.afterLoad load).sync = p.sync ∨
      ∃ snapshot, (p.afterLoad load).sync = (p.sync.applySnapshot snapshot).2.1 := by
  unfold afterLoad loadSnapshot
  rcases h : p.normalizeSnapshot load.1 load.2 with e | ⟨snapshot, normalizer, p', reports⟩
  · exact Or.inl rfl
  · exact Or.inr ⟨snapshot, by rw [← normalizeSnapshot_sync h]; rfl⟩

end Processor

end TopologySync
