-- The law of renewal. At the end of a burst the normalized weights are scaled
-- anew: keys and raw values go into lists of their own, some edges are passed
-- over, and what comes of the lists is written back by position. No edge gets
-- the values of its neighbour, and a pass that fails has written nothing.
import TopologySync.Proofs.Burst.Loads
import TopologySync.Proofs.Burst.Rows
import TopologySync.Proofs.Graph.Calls

open Std

namespace TopologySync

/-! ## Passes of a normalizer -/

namespace Normalizer

theorem pass_ok (normalizer : Normalizer) {raw normalized : Series}
    (h : raw.scale normalizer.strategy = .ok normalized) :
    Normalizing.normalizeSeries normalizer raw =
      (.ok { raw, normalized }, { normalizer with batch := { raw, normalized } }) := by
  simp only [Normalizing.normalizeSeries, normalizeSeries, h]
  rfl

theorem pass_error (normalizer : Normalizer) {raw : Series} {e : NormalizeError}
    (h : raw.scale normalizer.strategy = .error e) :
    Normalizing.normalizeSeries normalizer raw = (.error e, normalizer) := by
  simp only [Normalizing.normalizeSeries, normalizeSeries, h]
  rfl

/-- The normalizer after a pass over edges. Without edges there is no pass. -/
def keep (normalizer : Normalizer) (keys : List String) (batch : Batch) : Normalizer :=
  if keys = [] then normalizer else { normalizer with batch }

theorem strategy_keep (normalizer : Normalizer) (keys : List String) (batch : Batch) :
    (normalizer.keep keys batch).strategy = normalizer.strategy := by
  unfold keep
  split <;> rfl

theorem keep_keep (normalizer : Normalizer) (keys : List String) (batch : Batch) :
    (normalizer.keep keys batch).keep keys batch = normalizer.keep keys batch := by
  unfold keep
  split <;> rfl

end Normalizer

namespace Graph

variable {graph graph' : Graph}

/-! ## A renewal as it is made -/

/-- The keys of the edges that a pass takes in, and their values in lists beside them. -/
structure Gathered where
  keys : List String := []
  raw : Series := {}

/-- Takes in one edge. An edge that lacks a raw metric is passed over. -/
def gather (graph : Graph) (lists : Gathered) (key : String) : Gathered :=
  match graph.weight key .delay, graph.weight key .jitter, graph.weight key .packetLoss with
  | .ok delay, .ok jitter, .ok packetLoss => {
      keys := lists.keys ++ [key]
      raw := {
        delay := lists.raw.delay ++ [delay]
        jitter := lists.raw.jitter ++ [jitter]
        packetLoss := lists.raw.packetLoss ++ [packetLoss] } }
  | _, _, _ => lists

/-- Writes one weight of an edge. What the graph refuses is passed over. -/
def writeWeight (graph : Graph) (key : String) (kind : WeightKind) (value : Float) : Graph :=
  match graph.setWeight key kind value with
  | .ok next => next
  | .error _ => graph

/-- Writes the normalized weights of an edge, one by one. -/
def writeRow (graph : Graph) (entry : String × Float × Float × Float) : Graph :=
  Metric.all.foldl (fun graph metric =>
    graph.writeWeight entry.1 metric.normalized (metric.ofRow entry.2)) graph

/-- Steps of a renewal, up to the first that fails. What was written to the graph and to
the normalizer before stays. -/
abbrev Renewing (α : Type) :=
  ExceptT NormalizeError (StateM (Graph × Normalizer)) α

/-- Scales the values of one metric. -/
def scaleStep (raw : Series) (metric : Metric) : Renewing (List Float) := fun desk =>
  (raw.scaleMetric desk.2.strategy metric, desk)

/-- Keeps the batch, and then writes the rows of a scaled series to the edges of the keys. -/
def writeStep (lists : Gathered) (normalized : Series) : Renewing Nat := do
  modify fun (graph, normalizer) =>
    (graph, { normalizer with batch := { raw := lists.raw, normalized } })
  modify fun (graph, normalizer) =>
    ((lists.keys.zip normalized.rows).foldl writeRow graph, normalizer)
  return lists.keys.length

/-- Scales what was gathered metric by metric, if there is anything. -/
def passStep (lists : Gathered) : Renewing Nat := do
  if lists.keys.isEmpty then return 0
  else
    let delay ← scaleStep lists.raw .delay
    let jitter ← scaleStep lists.raw .jitter
    let packetLoss ← scaleStep lists.raw .packetLoss
    writeStep lists { delay, jitter, packetLoss }

/-- Renews the normalized weights step by step, and tells of how many edges. -/
def renewInPlace : Renewing Nat := do
  let (graph, _) ← get
  passStep (graph.edges.keys.foldl graph.gather {})

/-- A renewal that is made as a whole or not at all. -/
def renewAsWhole (graph : Graph) (normalizer : Normalizer) :
    Except NormalizeError Nat × Graph × Normalizer :=
  match graph.renormalize normalizer with
  | (.ok (n, renewed), normalizer) => (.ok n, renewed, normalizer)
  | (.error e, normalizer) => (.error e, graph, normalizer)

/-! ## Lists side by side -/

/-- The lists that entries are taken apart into. -/
def Gathered.ofEntries (entries : List (String × Float × Float × Float)) : Gathered where
  keys := entries.map Prod.fst
  raw := .ofRows (entries.map Prod.snd)

theorem gather_ofEntries {key : String} {edge : Edge} (h : graph.edges[key]? = some edge)
    (entries : List (String × Float × Float × Float)) :
    graph.gather (.ofEntries entries) key =
      .ofEntries (entries ++ (edge.rawMetrics?.map (key, ·)).toList) := by
  simp only [gather, weight_of_edge h, Edge.rawMetrics?]
  rcases edge.weights[WeightKind.delay]? with _ | delay
  · simp [bind]
  · rcases edge.weights[WeightKind.jitter]? with _ | jitter
    · simp [bind]
    · rcases edge.weights[WeightKind.packetLoss]? with _ | packetLoss
      · simp [bind]
      · simp [bind, pure, Gathered.ofEntries, Series.ofRows]

/-- However many edges are passed over, keys and values stay side by side. -/
theorem foldl_gather {rest : List (String × Edge)}
    (h : ∀ entry ∈ rest, graph.edges[entry.1]? = some entry.2)
    (entries : List (String × Float × Float × Float)) :
    (rest.map Prod.fst).foldl graph.gather (.ofEntries entries) = .ofEntries
      (entries ++ rest.filterMap (fun (key, edge) => edge.rawMetrics?.map (key, ·))) := by
  induction rest generalizing entries with
  | nil => simp
  | cons entry rest ih =>
    obtain ⟨key, edge⟩ := entry
    have hedge : graph.edges[key]? = some edge := h (key, edge) List.mem_cons_self
    have hrest := ih fun other hother => h other (List.mem_cons_of_mem _ hother)
    rw [List.map_cons, List.foldl_cons, gather_ofEntries hedge, hrest, List.append_assoc,
      List.filterMap_cons]
    rcases hrow : edge.rawMetrics? with _ | row <;> simp [hrow]

theorem gathered_eq (graph : Graph) :
    graph.edges.keys.foldl graph.gather {} = .ofEntries graph.measured := by
  have hknown : ∀ entry ∈ graph.edges.toList, graph.edges[entry.1]? = some entry.2 :=
    fun _ hentry => ExtTreeMap.mem_toList_iff_getElem?_eq_some.1 hentry
  have hall := foldl_gather hknown []
  rw [ExtTreeMap.map_fst_toList_eq_keys] at hall
  exact hall

/-! ## Writes in turn -/

theorem writeWeight_of_edge {key : String} {edge : Edge} (h : graph.edges[key]? = some edge)
    (kind : WeightKind) (value : Float) :
    graph.writeWeight key kind value = graph.reweigh edge key (edge.weights.insert kind value) := by
  simp only [writeWeight, setWeight, h, reweigh]

theorem writeWeight_of_notMem {key : String} (h : key ∉ graph.edges) (kind : WeightKind)
    (value : Float) : graph.writeWeight key kind value = graph := by
  simp only [writeWeight, setWeight, ExtTreeMap.getElem?_eq_none h]

theorem writeWeight_reweigh (graph : Graph) (edge : Edge) (key : String) (weights : Weights)
    (kind : WeightKind) (value : Float) :
    (graph.reweigh edge key weights).writeWeight key kind value =
      graph.reweigh edge key (weights.insert kind value) := by
  have hedge : (graph.reweigh edge key weights).edges[key]? = some { edge with weights } :=
    ExtTreeMap.getElem?_insert_self
  rw [writeWeight_of_edge hedge]
  simp only [reweigh, Maps.insert_insert]

/-- Written one by one, the weights of a row are the row. -/
theorem writeRow_eq (graph : Graph) (entry : String × Float × Float × Float) :
    graph.writeRow entry = graph.normalizeEdge entry := by
  obtain ⟨key, row⟩ := entry
  simp only [writeRow, Metric.all, List.foldl_cons, List.foldl_nil, normalizeEdge]
  by_cases hthere : key ∈ graph.edges
  · obtain ⟨edge, hedge⟩ := Maps.mem_iff_exists.1 hthere
    rw [writeWeight_of_edge hedge, writeWeight_reweigh, writeWeight_reweigh,
      Maps.modify_eq_insert _ hedge]
    rfl
  · simp only [writeWeight_of_notMem hthere, Maps.modify_of_notMem _ hthere]

theorem passStep_eq (graph : Graph) (normalizer : Normalizer) {lists : Gathered}
    (h : lists.keys ≠ []) :
    passStep lists (graph, normalizer) = match lists.raw.scale normalizer.strategy with
      | .ok normalized => (.ok lists.keys.length,
          graph.normalizeEdges (lists.keys.zip normalized.rows),
          { normalizer with batch := { raw := lists.raw, normalized } })
      | .error e => (.error e, graph, normalizer) := by
  have hstep : ∀ metric, scaleStep lists.raw metric (graph, normalizer) =
      (lists.raw.scaleMetric normalizer.strategy metric, graph, normalizer) :=
    fun _ => rfl
  have hwrite : writeRow = normalizeEdge := funext fun graph => funext graph.writeRow_eq
  rw [passStep, if_neg (by simpa using h)]
  refine (Series.scale_steps hstep (writeStep lists)).trans ?_
  unfold writeStep normalizeEdges
  rw [hwrite]
  rfl

/-! ## What comes of a renewal -/

variable {normalizer : Normalizer}

theorem measuredKeys_eq_nil : graph.measuredKeys = [] ↔ graph.measured = [] :=
  List.map_eq_nil_iff

theorem renewAsWhole_error (h : graph.measuredKeys ≠ []) {e : NormalizeError}
    (hscale : graph.measuredSeries.scale normalizer.strategy = .error e) :
    graph.renewAsWhole normalizer = (.error e, graph, normalizer) := by
  have hsome : graph.measured ≠ [] := mt measuredKeys_eq_nil.2 h
  have hpass := normalizer.pass_error hscale
  rw [measuredSeries] at hpass
  simp only [renewAsWhole, renormalize, List.isEmpty_iff, hsome, if_false, hpass]

theorem renewAsWhole_ok {scaled : Series}
    (hscale : graph.measuredKeys ≠ [] →
      graph.measuredSeries.scale normalizer.strategy = .ok scaled) :
    graph.renewAsWhole normalizer = (.ok graph.measuredKeys.length,
      graph.normalizeEdges (graph.measuredKeys.zip scaled.rows),
      normalizer.keep graph.measuredKeys { raw := graph.measuredSeries, normalized := scaled }) := by
  unfold Normalizer.keep
  by_cases hkeys : graph.measuredKeys = []
  · have hnone : graph.measured = [] := measuredKeys_eq_nil.1 hkeys
    simp only [renewAsWhole, renormalize, hkeys, hnone]
    rfl
  · have hsome : graph.measured ≠ [] := mt measuredKeys_eq_nil.2 hkeys
    have hpass := normalizer.pass_ok (hscale hkeys)
    rw [if_neg hkeys, measuredKeys, List.length_map]
    simp only [renewAsWhole, renormalize, List.isEmpty_iff, hsome, if_false]
    rw [← measuredSeries, hpass]
    rfl

/-- Made step by step, a renewal comes to the same as if it were made as a whole or not
at all. -/
theorem renewInPlace_eq (graph : Graph) (normalizer : Normalizer) :
    renewInPlace (graph, normalizer) = graph.renewAsWhole normalizer := by
  have hgathered : renewInPlace (graph, normalizer) =
      passStep (.ofEntries graph.measured) (graph, normalizer) := by
    rw [← gathered_eq]
    rfl
  have hlists : Gathered.ofEntries graph.measured =
      { keys := graph.measuredKeys, raw := graph.measuredSeries } := rfl
  rw [hgathered, hlists]
  by_cases hkeys : graph.measuredKeys = []
  · have hnothing : graph.measuredKeys ≠ [] →
        graph.measuredSeries.scale normalizer.strategy = .ok {} := absurd hkeys
    rw [renewAsWhole_ok hnothing, Normalizer.keep, if_pos hkeys, hkeys]
    rfl
  · rw [passStep_eq graph normalizer hkeys]
    rcases hscale : graph.measuredSeries.scale normalizer.strategy with e | scaled
    · exact (renewAsWhole_error hkeys hscale).symm
    · rw [renewAsWhole_ok (fun _ => hscale), Normalizer.keep, if_neg hkeys]

/-- What a renewal makes of a graph: it takes in the edges with all three raw metrics, in the
order of their keys, scales their values metric by metric, and writes to each of these edges
the values at its own position. All else of the graph is as it was. -/
structure Renewal (strategy : Strategy) (graph : Graph) (keys : List String) (raw scaled : Series)
    (renewed : Graph) : Prop where
  sorted : keys.Pairwise (· < ·)
  measured : ∀ key, key ∈ keys ↔
    ∀ metric : Metric, ∃ value, graph.weight key metric.raw = .ok value
  reported : ∀ metric : Metric, keys.map (graph.weight · metric.raw) = (raw.get metric).map .ok
  scales : keys ≠ [] → ∀ metric, strategy.scale (raw.get metric) = .ok (scaled.get metric)
  written : ∀ metric : Metric,
    keys.map (renewed.weight · metric.normalized) = (scaled.get metric).map .ok
  agree : renewed.Agree WeightKind.isRaw graph
  others : ∀ key ∉ keys, renewed.edges[key]? = graph.edges[key]?
  subGraphs : renewed.subGraphs = graph.subGraphs
  generation : renewed.generation = graph.generation

section Lengths

variable {scaled : Series}
  (hlength : ∀ metric, (scaled.get metric).length = graph.measuredKeys.length)
include hlength

theorem length_rows_scaled : scaled.rows.length = graph.measuredKeys.length := by
  rw [← hlength .delay, ← Series.map_rows hlength .delay, List.length_map]

theorem keys_zip_rows :
    (graph.measuredKeys.zip scaled.rows).map Prod.fst = graph.measuredKeys :=
  List.map_fst_zip (length_rows_scaled hlength).ge

theorem renewal_normalizeEdges {strategy : Strategy}
    (hscales : graph.measuredKeys ≠ [] → ∀ metric,
      strategy.scale (graph.measuredSeries.get metric) = .ok (scaled.get metric)) :
    Renewal strategy graph graph.measuredKeys graph.measuredSeries scaled
      (graph.normalizeEdges (graph.measuredKeys.zip scaled.rows)) := by
  have hcolumn := Series.map_rows hlength
  have hkeys := keys_zip_rows hlength
  have hvalues : (graph.measuredKeys.zip scaled.rows).map Prod.snd = scaled.rows :=
    List.map_snd_zip (length_rows_scaled hlength).le
  have hframe := graph.normalizeEdges_eq (graph.measuredKeys.zip scaled.rows)
  generalize graph.measuredKeys.zip scaled.rows = entries at hkeys hvalues hframe ⊢
  have hnodup : (entries.map Prod.fst).Nodup := hkeys ▸ graph.measuredKeys_nodup
  refine ⟨graph.measuredKeys_sorted, fun _ => mem_measuredKeys, graph.weight_measuredKeys, hscales,
    fun metric => ?_, graph.agree_normalizeEdges entries, fun key hkey => ?_,
    by rw [hframe], by rw [hframe]⟩
  · rw [← hcolumn, ← hkeys, ← hvalues, List.map_map, List.map_map, List.map_map]
    refine List.map_congr_left fun entry hentry => weight_normalizeEdges hnodup hentry ?_ metric
    exact mem_edges_of_measured (hkeys ▸ List.mem_map.2 ⟨entry, hentry, rfl⟩)
  · exact getElem?_normalizeEdges_of_notMem (hkeys ▸ hkey)

/-- A renewal that was made is made again to the same end. -/
theorem renewAsWhole_again {normalizer : Normalizer}
    (hscale : graph.measuredKeys ≠ [] →
      graph.measuredSeries.scale normalizer.strategy = .ok scaled) :
    let renewed := graph.normalizeEdges (graph.measuredKeys.zip scaled.rows)
    let normalizer' :=
      normalizer.keep graph.measuredKeys { raw := graph.measuredSeries, normalized := scaled }
    renewed.renewAsWhole normalizer' = (.ok graph.measuredKeys.length, renewed, normalizer') := by
  intro renewed normalizer'
  have hagree : renewed.Agree WeightKind.isRaw graph := graph.agree_normalizeEdges _
  have hkeys := measuredKeys_of_agree hagree
  have hseries := measuredSeries_of_agree hagree
  have hnodup : ((graph.measuredKeys.zip scaled.rows).map Prod.fst).Nodup := by
    rw [keys_zip_rows hlength]
    exact graph.measuredKeys_nodup
  have hagain : renewed.measuredKeys ≠ [] →
      renewed.measuredSeries.scale normalizer'.strategy = .ok scaled := by
    rw [hkeys, hseries, Normalizer.strategy_keep]
    exact hscale
  rw [renewAsWhole_ok hagain, hkeys, hseries, Normalizer.keep_keep]
  simp only [renewed, normalizer', normalizeEdges_again hnodup]

end Lengths

/-- A renewal fails, or all that it takes in can be scaled. -/
theorem renewAsWhole_cases (graph : Graph) (normalizer : Normalizer) :
    (∃ e, graph.renewAsWhole normalizer = (.error e, graph, normalizer)) ∨
      ∃ scaled, (graph.measuredKeys ≠ [] →
          graph.measuredSeries.scale normalizer.strategy = .ok scaled ∧ ∀ metric,
            normalizer.strategy.scale (graph.measuredSeries.get metric) =
              .ok (scaled.get metric)) ∧
        ∀ metric, (scaled.get metric).length = graph.measuredKeys.length := by
  by_cases hkeys : graph.measuredKeys = []
  · refine Or.inr ⟨{}, absurd hkeys, fun metric => ?_⟩
    rw [hkeys]
    cases metric <;> rfl
  · obtain ⟨e, -, hscale⟩ | ⟨-, scaled, hscale, hmetrics⟩ :=
      graph.measuredSeries.scale_eq normalizer.strategy
    · exact Or.inl ⟨e, renewAsWhole_error hkeys hscale⟩
    · refine Or.inr ⟨scaled, fun _ => ⟨hscale, hmetrics⟩, fun metric => ?_⟩
      rw [Strategy.length_scale (hmetrics metric), measuredSeries, Series.get_ofRows,
        List.length_map, List.length_map, measuredKeys, List.length_map]

/-- A renewal that fails leaves graph and normalizer as they were, although its steps would keep
whatever they had written before. One that goes through gives each edge its own values and
nothing else, keeps its batch, tells of how many edges it was, and changes nothing when it is
made once more. -/
theorem a_renewal_gives_each_edge_its_own_values (graph : Graph) (normalizer : Normalizer) :
    let (outcome, renewed, normalizer') := renewInPlace (graph, normalizer)
    (outcome, renewed, normalizer') = graph.renewAsWhole normalizer ∧
    (∀ e, outcome = .error e → renewed = graph ∧ normalizer' = normalizer) ∧
    ∀ n, outcome = .ok n → ∃ keys raw scaled,
      n = keys.length ∧ Renewal normalizer.strategy graph keys raw scaled renewed ∧
      normalizer' = normalizer.keep keys { raw, normalized := scaled } ∧
      renewInPlace (renewed, normalizer') = (.ok n, renewed, normalizer') := by
  rw [renewInPlace_eq]
  obtain ⟨e, hfailed⟩ | ⟨scaled, hscaled, hlength⟩ := graph.renewAsWhole_cases normalizer
  · rw [hfailed]
    exact ⟨rfl, fun _ _ => ⟨rfl, rfl⟩, nofun⟩
  · have hscale := fun hkeys => (hscaled hkeys).1
    rw [renewAsWhole_ok hscale]
    refine ⟨rfl, nofun, fun n hn => ?_⟩
    cases hn
    refine ⟨graph.measuredKeys, graph.measuredSeries, scaled, rfl,
      renewal_normalizeEdges hlength (fun hkeys => (hscaled hkeys).2), rfl, ?_⟩
    rw [renewInPlace_eq]
    exact renewAsWhole_again hlength hscale

/-- The edge in the middle lacks two metrics and is passed over, so that the last edge gets the
second value. As the jitters are equal, there is no deviation to scale by. -/
theorem an_edge_between_is_passed_over :
    let edge := fun key metrics =>
      Call.addEdge { key, source := "r", target := "r", weights := ExtTreeMap.ofList metrics }
    let graph := empty.afterCalls [.addNode { id := "r" },
      edge "l3" [(WeightKind.delay, 30), (.jitter, 5), (.packetLoss, 0.5)],
      edge "l2" [(WeightKind.delay, 99), (.normalizedDelay, 0.75)],
      edge "l1" [(WeightKind.delay, 10), (.jitter, 5), (.packetLoss, 0.5)]]
    let delays := fun graph : Graph =>
      graph.edges.values.map (fun edge => edge.weights[WeightKind.normalizedDelay]?)
    (∃ renewed normalizer, renewInPlace (graph, .new .minMax) = (.ok 2, renewed, normalizer) ∧
        delays renewed = [some 0, some 0.75, some 1] ∧
        renewInPlace (renewed, normalizer) = (.ok 2, renewed, normalizer)) ∧
      renewInPlace (graph, .new .zScore) =
        (.error ⟨.jitter, .degenerate .standardDeviation⟩, graph, .new .zScore) := by
  intro edge graph delays
  have hmade : (renewInPlace (graph, .new .minMax)).1 = .ok 2 := by decide +kernel
  have hdelays : delays (renewInPlace (graph, .new .minMax)).2.1 =
      [some 0, some 0.75, some 1] := by decide +kernel
  have hfailed : (renewInPlace (graph, .new .zScore)).1 =
      .error ⟨.jitter, .degenerate .standardDeviation⟩ := by decide +kernel
  have hrenewal := a_renewal_gives_each_edge_its_own_values graph (.new .minMax)
  have hfailure := a_renewal_gives_each_edge_its_own_values graph (.new .zScore)
  generalize renewInPlace (graph, .new .minMax) = renewal at hmade hdelays hrenewal ⊢
  generalize renewInPlace (graph, .new .zScore) = failure at hfailed hfailure ⊢
  obtain ⟨outcome, renewed, normalizer⟩ := renewal
  obtain ⟨outcome', graph', normalizer'⟩ := failure
  cases hmade
  cases hfailed
  obtain ⟨_, _, _, -, -, -, hagain⟩ := hrenewal.2.2 2 rfl
  obtain ⟨rfl, rfl⟩ := hfailure.2.1 _ rfl
  exact ⟨⟨renewed, normalizer, rfl, hdelays, hagain⟩, rfl⟩

end Graph

end TopologySync
