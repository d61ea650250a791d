-- Rows of metrics: the raw values of an edge in one row, and the row of scaled
-- values that is written back to it. The rows of a graph come in the order of
-- their keys, and each row that is written finds the edge of its own key.
import TopologySync.Proofs.Burst.Order

open Std

namespace TopologySync

/-! ## Metrics and weights -/

namespace Metric

/-- The weight that telemetry reports for a metric. -/
def raw : Metric → WeightKind
  | delay => .delay
  | jitter => .jitter
  | packetLoss => .packetLoss

/-- The weight that a pass writes for a metric. -/
def normalized : Metric → WeightKind
  | delay => .normalizedDelay
  | jitter => .normalizedJitter
  | packetLoss => .normalizedPacketLoss

/-- The value of a metric in a row. -/
def ofRow : Metric → Float × Float × Float → Float
  | delay, row => row.1
  | jitter, row => row.2.1
  | packetLoss, row => row.2.2

end Metric

theorem Series.get_ofRows (rows : List (Float × Float × Float)) (metric : Metric) :
    (ofRows rows).get metric = rows.map metric.ofRow := by
  cases metric <;> rfl

/-- Columns of one length go into rows and come out again. -/
theorem Series.map_rows {series : Series} {n : Nat}
    (h : ∀ metric, (series.get metric).length = n) (metric : Metric) :
    series.rows.map metric.ofRow = series.get metric := by
  have hdelay : series.delay.length = n := h .delay
  have hjitter : series.jitter.length = n := h .jitter
  have hloss : series.packetLoss.length = n := h .packetLoss
  have hpairs : series.rows.map Prod.snd = series.jitter.zip series.packetLoss :=
    List.map_snd_zip (by simp [hdelay, hjitter, hloss])
  cases metric with
  | delay => exact List.map_fst_zip (by simp [hdelay, hjitter, hloss])
  | jitter =>
    have hcolumn := congrArg (List.map Prod.fst) hpairs
    rw [List.map_map, List.map_fst_zip (by simp [hjitter, hloss])] at hcolumn
    exact hcolumn
  | packetLoss =>
    have hcolumn := congrArg (List.map Prod.snd) hpairs
    rw [List.map_map, List.map_snd_zip (by simp [hjitter, hloss])] at hcolumn
    exact hcolumn

namespace Edge

theorem rawMetrics?_eq_some {edge : Edge} {row : Float × Float × Float} :
    edge.rawMetrics? = some row ↔
      ∀ metric : Metric, edge.weights[metric.raw]? = some (metric.ofRow row) := by
  have hrows : edge.rawMetrics? = some row ↔
      edge.weights[WeightKind.delay]? = some row.1 ∧
        edge.weights[WeightKind.jitter]? = some row.2.1 ∧
        edge.weights[WeightKind.packetLoss]? = some row.2.2 := by
    obtain ⟨delay, jitter, packetLoss⟩ := row
    unfold rawMetrics?
    rcases edge.weights[WeightKind.delay]? with _ | _ <;>
      rcases edge.weights[WeightKind.jitter]? with _ | _ <;>
      rcases edge.weights[WeightKind.packetLoss]? with _ | _ <;> simp [bind, pure]
  rw [hrows]
  exact ⟨fun h metric => by cases metric <;> simp [Metric.raw, Metric.ofRow, h],
    fun h => ⟨h .delay, h .jitter, h .packetLoss⟩⟩

/-- A row takes the place of the normalized weights. -/
theorem getElem?_normalize (row : Float × Float × Float) (edge : Edge) (kind : WeightKind) :
    (edge.normalize row).weights[kind]? = match kind with
      | .normalizedDelay => some row.1
      | .normalizedJitter => some row.2.1
      | .normalizedPacketLoss => some row.2.2
      | kind => edge.weights[kind]? := by
  unfold normalize
  simp only [ExtTreeMap.getElem?_insert]
  cases kind <;> rfl

theorem normalize_normalize (row : Float × Float × Float) (edge : Edge) :
    (edge.normalize row).normalize row = edge.normalize row := by
  refine eq_of_agree ⟨rfl, rfl, rfl, fun kind _ => ?_⟩
  rw [getElem?_normalize]
  cases kind <;> simp only [getElem?_normalize]

end Edge

namespace Graph

variable {graph graph' : Graph}

theorem weight_of_edge {key : String} {edge : Edge} (h : graph.edges[key]? = some edge)
    (kind : WeightKind) :
    graph.weight key kind = match edge.weights[kind]? with
      | none => .error (.weightNotSet key kind)
      | some value => .ok value := by
  unfold weight allWeights
  rw [h]
  rfl

theorem weight_eq_ok {key : String} {kind : WeightKind} {value : Float} :
    graph.weight key kind = .ok value ↔
      ∃ edge, graph.edges[key]? = some edge ∧ edge.weights[kind]? = some value := by
  rcases hedge : graph.edges[key]? with _ | edge
  · simp [weight, allWeights, hedge, bind, Except.bind]
  · rw [weight_of_edge hedge]
    rcases hvalue : edge.weights[kind]? with _ | known <;> simp [hvalue]

theorem weight_of_agree {kinds : WeightKind → Prop} (h : graph.Agree kinds graph') (key : String)
    {kind : WeightKind} (hkind : kinds kind) : graph.weight key kind = graph'.weight key kind := by
  unfold weight allWeights
  rcases agree_edge h key with ⟨hnone, hnone'⟩ | ⟨edge, edge', hedge, hedge', hagree⟩
  · rw [hnone, hnone']
  · rw [hedge, hedge']
    simp only [bind, Except.bind, hagree.weights kind hkind]

/-! ## The rows of a graph -/

/-- The raw metrics of the edges that have all three of them. -/
def rawRows (graph : Graph) : ExtTreeMap String (Float × Float × Float) :=
  graph.edges.filterMap (fun _ edge => edge.rawMetrics?)

theorem measured_eq (graph : Graph) : graph.measured = graph.rawRows.toList := by
  rw [rawRows, ExtTreeMap.toList_filterMap]
  rfl

theorem getElem?_rawRows {key : String} {row : Float × Float × Float} :
    graph.rawRows[key]? = some row ↔
      ∀ metric : Metric, graph.weight key metric.raw = .ok (metric.ofRow row) := by
  rw [rawRows, ExtTreeMap.getElem?_filterMap', Option.bind_eq_some_iff]
  simp only [Edge.rawMetrics?_eq_some, weight_eq_ok]
  constructor
  · rintro ⟨edge, hedge, hrow⟩ metric
    exact ⟨edge, hedge, hrow metric⟩
  · intro h
    obtain ⟨edge, hedge, -⟩ := h .delay
    refine ⟨edge, hedge, fun metric => ?_⟩
    obtain ⟨edge', hedge', hvalue⟩ := h metric
    rw [hedge] at hedge'
    cases hedge'
    exact hvalue

theorem mem_rawRows {key : String} :
    key ∈ graph.rawRows ↔ ∀ metric : Metric, ∃ value, graph.weight key metric.raw = .ok value := by
  rw [Maps.mem_iff_exists]
  constructor
  · rintro ⟨row, hrow⟩ metric
    exact ⟨_, getElem?_rawRows.1 hrow metric⟩
  · intro h
    obtain ⟨delay, hdelay⟩ := h .delay
    obtain ⟨jitter, hjitter⟩ := h .jitter
    obtain ⟨packetLoss, hloss⟩ := h .packetLoss
    refine ⟨(delay, jitter, packetLoss), getElem?_rawRows.2 fun metric => ?_⟩
    cases metric <;> assumption

theorem rawRows_of_agree (h : graph.Agree WeightKind.isRaw graph') :
    graph.rawRows = graph'.rawRows := by
  have hraw : ∀ metric : Metric, metric.raw.isRaw := by
    intro metric
    cases metric <;> rfl
  apply ExtTreeMap.ext_getElem?
  intro key
  apply Option.ext
  intro row
  rw [getElem?_rawRows, getElem?_rawRows]
  simp only [weight_of_agree h key (hraw _)]

theorem measured_of_agree (h : graph.Agree WeightKind.isRaw graph') :
    graph.measured = graph'.measured := by
  rw [measured_eq, measured_eq, rawRows_of_agree h]

theorem mem_measured {entry : String × Float × Float × Float} :
    entry ∈ graph.measured ↔
      ∀ metric : Metric, graph.weight entry.1 metric.raw = .ok (metric.ofRow entry.2) := by
  rw [measured_eq, ← getElem?_rawRows]
  exact ExtTreeMap.mem_toList_iff_getElem?_eq_some

/-- The keys of the edges that a pass takes in. -/
def measuredKeys (graph : Graph) : List String :=
  graph.measured.map Prod.fst

/-- The values that a pass takes in. -/
def measuredSeries (graph : Graph) : Series :=
  .ofRows (graph.measured.map Prod.snd)

theorem measuredKeys_eq (graph : Graph) : graph.measuredKeys = graph.rawRows.keys := by
  rw [measuredKeys, measured_eq, ExtTreeMap.map_fst_toList_eq_keys]

theorem mem_measuredKeys {key : String} :
    key ∈ graph.measuredKeys ↔
      ∀ metric : Metric, ∃ value, graph.weight key metric.raw = .ok value := by
  rw [measuredKeys_eq, ExtTreeMap.mem_keys, mem_rawRows]

theorem measuredKeys_sorted (graph : Graph) : graph.measuredKeys.Pairwise (· < ·) := by
  rw [measuredKeys_eq]
  refine ExtTreeMap.ordered_keys.imp ?_
  intro key key' hlt
  exact compareOfLessAndEq_eq_lt.1 hlt

theorem measuredKeys_nodup (graph : Graph) : graph.measuredKeys.Nodup :=
  graph.measuredKeys_sorted.imp fun hlt heq => absurd (heq ▸ hlt) (String.lt_irrefl _)

theorem measuredKeys_of_agree (h : graph.Agree WeightKind.isRaw graph') :
    graph.measuredKeys = graph'.measuredKeys := by
  rw [measuredKeys, measuredKeys, measured_of_agree h]

theorem measuredSeries_of_agree (h : graph.Agree WeightKind.isRaw graph') :
    graph.measuredSeries = graph'.measuredSeries := by
  rw [measuredSeries, measuredSeries, measured_of_agree h]

theorem mem_edges_of_measured {key : String} (h : key ∈ graph.measuredKeys) :
    key ∈ graph.edges := by
  obtain ⟨value, hvalue⟩ := mem_measuredKeys.1 h .delay
  obtain ⟨edge, hedge, -⟩ := weight_eq_ok.1 hvalue
  exact Maps.mem_iff_exists.2 ⟨edge, hedge⟩

/-- The values are those of the keys, in their order. -/
theorem weight_measuredKeys (graph : Graph) (metric : Metric) :
    graph.measuredKeys.map (graph.weight · metric.raw) =
      (graph.measuredSeries.get metric).map .ok := by
  rw [measuredKeys, measuredSeries, Series.get_ofRows, List.map_map, List.map_map, List.map_map]
  exact List.map_congr_left fun entry hentry => mem_measured.1 hentry metric

/-! ## Rows that are written -/

variable {entries : List (String × Float × Float × Float)}

theorem getElem?_normalizeEdge (graph : Graph) (entry : String × Float × Float × Float)
    (key : String) :
    (graph.normalizeEdge entry).edges[key]? =
      if entry.1 = key then graph.edges[key]?.map (Edge.normalize entry.2)
      else graph.edges[key]? := by
  by_cases hkey : entry.1 = key
  · subst hkey
    simp [normalizeEdge]
  · simp [normalizeEdge, ExtTreeMap.getElem?_modify, hkey]

theorem getElem?_normalizeEdges_of_notMem {key : String} (h : key ∉ entries.map Prod.fst) :
    (graph.normalizeEdges entries).edges[key]? = graph.edges[key]? := by
  refine List.foldlRecOn (motive := fun left : Graph => left.edges[key]? = graph.edges[key]?)
    entries normalizeEdge rfl fun left hleft entry hentry => ?_
  have hother : entry.1 ≠ key := fun heq => h (List.mem_map.2 ⟨entry, hentry, heq⟩)
  rw [getElem?_normalizeEdge, if_neg hother, hleft]

/-- Of entries for different edges, each is written to its own edge. -/
theorem getElem?_normalizeEdges_of_mem (hnodup : (entries.map Prod.fst).Nodup)
    {entry : String × Float × Float × Float} (h : entry ∈ entries) :
    (graph.normalizeEdges entries).edges[entry.1]? =
      graph.edges[entry.1]?.map (Edge.normalize entry.2) := by
  induction entries generalizing graph with
  | nil => cases h
  | cons first rest ih =>
    obtain ⟨hfirst, hrest⟩ := List.nodup_cons.1 hnodup
    change ((graph.normalizeEdge first).normalizeEdges rest).edges[entry.1]? = _
    rcases List.mem_cons.1 h with rfl | hmem
    · rw [getElem?_normalizeEdges_of_notMem hfirst, getElem?_normalizeEdge, if_pos rfl]
    · have hother : first.1 ≠ entry.1 :=
        fun heq => hfirst (heq ▸ List.mem_map.2 ⟨entry, hmem, rfl⟩)
      rw [ih hrest hmem, getElem?_normalizeEdge, if_neg hother]

/-- Rows are written to the edges, and to nothing else of the graph. -/
theorem normalizeEdges_eq (graph : Graph) (entries : List (String × Float × Float × Float)) :
    graph.normalizeEdges entries =
      { graph with edges := (graph.normalizeEdges entries).edges } :=
  List.foldlRecOn (motive := fun left : Graph => left = { graph with edges := left.edges })
    entries normalizeEdge rfl fun left hleft entry _ => by rw [hleft]; rfl

theorem weight_normalizeEdges (hnodup : (entries.map Prod.fst).Nodup)
    {entry : String × Float × Float × Float} (h : entry ∈ entries)
    (hthere : entry.1 ∈ graph.edges) (metric : Metric) :
    (graph.normalizeEdges entries).weight entry.1 metric.normalized =
      .ok (metric.ofRow entry.2) := by
  obtain ⟨edge, hedge⟩ := Maps.mem_iff_exists.1 hthere
  refine weight_eq_ok.2 ⟨edge.normalize entry.2, ?_, ?_⟩
  · rw [getElem?_normalizeEdges_of_mem hnodup h, hedge, Option.map_some]
  · rw [Edge.getElem?_normalize]
    cases metric <;> rfl

/-- The same rows once more change nothing. -/
theorem normalizeEdges_again (hnodup : (entries.map Prod.fst).Nodup) :
    (graph.normalizeEdges entries).normalizeEdges entries = graph.normalizeEdges entries := by
  have hedges : ((graph.normalizeEdges entries).normalizeEdges entries).edges =
      (graph.normalizeEdges entries).edges := by
    apply ExtTreeMap.ext_getElem?
    intro key
    by_cases hkey : key ∈ entries.map Prod.fst
    · obtain ⟨entry, hentry, rfl⟩ := List.mem_map.1 hkey
      rw [getElem?_normalizeEdges_of_mem hnodup hentry,
        getElem?_normalizeEdges_of_mem hnodup hentry, Option.map_map]
      congr 1
      exact funext (Edge.normalize_normalize entry.2)
    · exact getElem?_normalizeEdges_of_notMem hkey
  rw [normalizeEdges_eq, hedges]

end Graph

end TopologySync
