-- The law of failed loads. A load that cannot scale the links of its snapshot
-- has written nothing by then: not to the processor, and not to the normalizer
-- that it was handed. One that can gives every edge that it makes the scaled
-- values of its own link, however many links are refused or come twice.
import TopologySync.Fixtures
import TopologySync.Proofs.Burst.Signals
import TopologySync.Proofs.Reconcile.InPlace
import TopologySync.Proofs.Reconcile.Loads

open Std

namespace TopologySync

/-! ## Scaling -/

namespace Series

/-- A series that is scaled has as many rows as its values come from. -/
theorem length_rows {strategy : Strategy} {links : List Link} {scaled : Series}
    (h : ∀ metric, strategy.scale ((ofLinks links).get metric) = .ok (scaled.get metric)) :
    scaled.rows.length = links.length := by
  have hlength : ∀ metric, (scaled.get metric).length = links.length := by
    intro metric
    rw [Strategy.length_scale (h metric), get_ofLinks, List.length_map]
  have hdelay : scaled.delay.length = links.length := hlength .delay
  have hjitter : scaled.jitter.length = links.length := hlength .jitter
  have hloss : scaled.packetLoss.length = links.length := hlength .packetLoss
  simp [rows, hdelay, hjitter, hloss]

/-- The first metric of a series that cannot be scaled, and why. -/
def fault? (strategy : Strategy) (raw : Series) : Option NormalizeError :=
  Metric.all.findSome? fun metric => match strategy.scale (raw.get metric) with
    | .ok _ => none
    | .error cause => some ⟨metric, cause⟩

variable {strategy : Strategy} {raw scaled : Series}

theorem scale_eq (strategy : Strategy) (raw : Series) :
    (∃ e, raw.fault? strategy = some e ∧ raw.scale strategy = .error e) ∨
      raw.fault? strategy = none ∧ ∃ scaled, raw.scale strategy = .ok scaled ∧
        ∀ metric, strategy.scale (raw.get metric) = .ok (scaled.get metric) := by
  unfold fault? scale scaleMetric Metric.all
  rcases hdelay : strategy.scale (raw.get .delay) with e | delay
  · exact Or.inl ⟨⟨.delay, e⟩, by simp [hdelay], by rfl⟩
  · rcases hjitter : strategy.scale (raw.get .jitter) with e | jitter
    · exact Or.inl ⟨⟨.jitter, e⟩, by simp [hdelay, hjitter], rfl⟩
    · rcases hloss : strategy.scale (raw.get .packetLoss) with e | packetLoss
      · exact Or.inl ⟨⟨.packetLoss, e⟩, by simp [hdelay, hjitter, hloss], rfl⟩
      · refine Or.inr ⟨by simp [hdelay, hjitter, hloss], ⟨delay, jitter, packetLoss⟩, rfl, ?_⟩
        intro metric
        cases metric <;> assumption

/-- Steps that scale metric by metric, and write nothing, scale the whole series. -/
theorem scale_steps {σ β : Type} {s : σ}
    {step : Metric → ExceptT NormalizeError (StateM σ) (List Float)}
    (hstep : ∀ metric, step metric s = (raw.scaleMetric strategy metric, s))
    (next : Series → ExceptT NormalizeError (StateM σ) β) :
    (do
      let delay ← step .delay
      let jitter ← step .jitter
      let packetLoss ← step .packetLoss
      next { delay, jitter, packetLoss } : ExceptT NormalizeError (StateM σ) β) s =
      match raw.scale strategy with
      | .ok scaled => next scaled s
      | .error e => (.error e, s) := by
  have hfirst : ∀ {metric outcome}, raw.scaleMetric strategy metric = outcome →
      step metric s = (outcome, s) :=
    fun houtcome => houtcome ▸ hstep _
  unfold scale
  rcases hdelay : raw.scaleMetric strategy .delay with e | delay
  · exact bind_of_error (hfirst hdelay)
  · refine (bind_of_ok (hfirst hdelay)).trans ?_
    rcases hjitter : raw.scaleMetric strategy .jitter with e | jitter
    · exact bind_of_error (hfirst hjitter)
    · refine (bind_of_ok (hfirst hjitter)).trans ?_
      rcases hloss : raw.scaleMetric strategy .packetLoss with e | loss
      · exact bind_of_error (hfirst hloss)
      · exact bind_of_ok (hfirst hloss)

end Series

/-! ## Links at their positions -/

/-- The link with the values that a scaled series has at a position. -/
def Link.scaledAt (link : Link) (scaled : Series) (i : Nat) : Option Link := do
  return { link with
    normalizedDelay := ← scaled.delay[i]?
    normalizedJitter := ← scaled.jitter[i]?
    normalizedPacketLoss := ← scaled.packetLoss[i]? }

/-- The edge that the links of a snapshot make for a key: the one of the first link
for it whose telemetry is populated, with the scaled values at the position of this link. -/
def Topology.madeEdge? (links : List Link) (scaled : Series) (key : String) : Option Edge := do
  let i ← links.findIdx? (Link.makes key)
  let link ← links[i]?
  return edgeOf (← link.scaledAt scaled i)

namespace Normalizer

/-- The links of a pass with their scaled values. -/
def written (links : List Link) (scaled : Series) : List Link :=
  links.zipWith writeRow scaled.rows

theorem getElem?_written (links : List Link) (scaled : Series) (i : Nat) :
    (written links scaled)[i]? = links[i]?.bind (·.scaledAt scaled i) := by
  unfold written Series.rows Link.scaledAt
  simp only [List.zip, List.getElem?_zipWith]
  rcases links[i]? with _ | link <;> rcases scaled.delay[i]? with _ | delay <;>
    rcases scaled.jitter[i]? with _ | jitter <;> rcases scaled.packetLoss[i]? with _ | loss <;> rfl

theorem weight_writeRow {kind : WeightKind} (h : kind.isNormalized = false) {link : Link}
    {row : Float × Float × Float} : (writeRow link row).weight kind = link.weight kind := by
  cases kind with
  | normalizedDelay | normalizedJitter | normalizedPacketLoss => cases h
  | _ => rfl

/-- Scaled values decide neither on the key of a link nor on its telemetry. -/
theorem makes_writeRow (link : Link) (row : Float × Float × Float) (key : String) :
    (writeRow link row).makes key = link.makes key := by
  have hweight : ∀ kind : WeightKind,
      (!kind.isNormalized && (writeRow link row).weight kind == 0.0) =
        (!kind.isNormalized && link.weight kind == 0.0) := by
    intro kind
    cases hkind : kind.isNormalized with
    | true => rw [Bool.not_true, Bool.false_and, Bool.false_and]
    | false => rw [weight_writeRow hkind]
  unfold Link.makes Link.zeroWeight?
  simp only [hweight]
  rfl

theorem findIdx?_zipWith_writeRow {links : List Link} {rows : List (Float × Float × Float)}
    (h : rows.length = links.length) (key : String) :
    (links.zipWith writeRow rows).findIdx? (Link.makes key) =
      links.findIdx? (Link.makes key) := by
  induction links generalizing rows with
  | nil => simp
  | cons link rest ih =>
    obtain ⟨row, rows, rfl⟩ := List.exists_cons_of_length_eq_add_one h
    rw [List.zipWith_cons_cons, List.findIdx?_cons, List.findIdx?_cons, makes_writeRow,
      ih (Nat.succ.inj h)]

/-- Written or not, the same link makes the edge of a key, if there is a row for each link. -/
theorem find?_written {links : List Link} {scaled : Series}
    (h : scaled.rows.length = links.length) (key : String) :
    ((written links scaled).find? (Link.makes key)).map Topology.edgeOf =
      Topology.madeEdge? links scaled key := by
  -- Rows go by position, so that the links before the one that counts matter as well.
  have hfirst : (written links scaled).findIdx? (Link.makes key) =
      links.findIdx? (Link.makes key) :=
    findIdx?_zipWith_writeRow h key
  rw [List.find?_eq_bind_findIdx?_getElem?, hfirst, Topology.madeEdge?]
  simp only [getElem?_written]
  rcases links.findIdx? (Link.makes key) with _ | i
  · rfl
  · simp only [bind, Option.bind_some]
    rcases links[i]? with _ | link
    · rfl
    · simp only [Option.bind_some]
      rcases link.scaledAt scaled i with _ | link <;> rfl

end Normalizer

/-! ## Loads as they are made -/

namespace Processor

/-- Steps of a load, up to the first that fails. What was written to the processor and
to the normalizer before stays. -/
abbrev Loading (ν α : Type) :=
  ExceptT NormalizeError (StateM (Processor ν × Normalizer)) α

variable {ν : Type}

/-- Scales the values of one metric. -/
def scaleStep (raw : Series) (metric : Metric) : Loading ν (List Float) := fun desk =>
  (raw.scaleMetric desk.2.strategy metric, desk)

/-- Scales metric by metric, keeps the batch, and then writes the scaled values on the links. -/
def passStep (links : List Link) : Loading ν (List Link) := do
  let raw := Series.ofLinks links
  let delay ← scaleStep raw .delay
  let jitter ← scaleStep raw .jitter
  let packetLoss ← scaleStep raw .packetLoss
  let normalized : Series := { delay, jitter, packetLoss }
  modify fun (p, normalizer) => (p, { normalizer with batch := { raw, normalized } })
  return links.zipWith Normalizer.writeRow normalized.rows

/-- Takes the last batch into the threshold windows. -/
def observeStep : Loading ν (List Report) := fun (p, normalizer) =>
  let (p, reports) := p.observe normalizer.batch.raw
  (.ok reports, p, normalizer)

/-- Normalizes the links of a snapshot, if there are any. -/
def normalizeStep (links : List Link) : Loading ν (List Link × List Report) := do
  if links.isEmpty then return (links, [])
  else
    let links ← passStep links
    return (links, ← observeStep)

/-- Loads the records of one family. -/
def familyStep (load : Sync → Nat × Sync × List Refusal) : Loading ν (Nat × List Refusal) :=
  fun (p, normalizer) =>
    let (count, sync, refused) := load p.sync
    (.ok (count, refused), { p with sync }, normalizer)

/-- Loads a snapshot step by step. -/
def loadInPlace (snapshot : Snapshot) : Loading ν (Summary × List Report) := do
  let (links, observed) ← normalizeStep snapshot.links
  let (nodes, refusedNodes) ← familyStep (·.loadNodes snapshot.nodes)
  let (links, refusedLinks) ← familyStep (·.loadLinks links)
  let (prefixes, refusedPrefixes) ← familyStep (·.loadPrefixes snapshot.prefixes)
  let (sids, _) ← familyStep fun s =>
    let (sids, s) := s.loadSids snapshot.sids
    (sids, s, [])
  modify fun (p, normalizer) => (p.signal, normalizer)
  let summary : Summary := { nodes, links, prefixes, sids }
  let refused := refusedNodes ++ refusedLinks ++ refusedPrefixes
  return (summary, observed ++ refused.map .refused ++
    [.snapshotLoaded summary (← get).2.strategy])

/-- A load that is made as a whole or not at all. -/
def loadAsWhole (p : Processor ν) (normalizer : Normalizer) (snapshot : Snapshot) :
    Except NormalizeError (Summary × List Report) × Processor ν × Normalizer :=
  match p.loadSnapshot snapshot normalizer with
  | .ok (summary, normalizer, p, reports) => (.ok (summary, reports), p, normalizer)
  | .error e => (.error e, p, normalizer)

theorem passStep_eq (p : Processor ν) (normalizer : Normalizer) (links : List Link) :
    passStep links (p, normalizer) = match normalizer.normalizeLinks links with
      | .ok (normalizer, links) => (.ok links, p, normalizer)
      | .error e => (.error e, p, normalizer) := by
  have hstep : ∀ metric : Metric,
      (scaleStep (.ofLinks links) metric : Loading ν _) (p, normalizer) =
        (Series.scaleMetric normalizer.strategy (.ofLinks links) metric, p, normalizer) :=
    fun _ => rfl
  let writeStep (normalized : Series) : Loading ν (List Link) := do
    modify fun (p, normalizer) =>
      (p, { normalizer with batch := { raw := .ofLinks links, normalized } })
    return links.zipWith Normalizer.writeRow normalized.rows
  refine (Series.scale_steps hstep writeStep).trans ?_
  unfold Normalizer.normalizeLinks Normalizer.normalizeSeries
  rcases (Series.ofLinks links).scale normalizer.strategy with e | scaled <;> rfl

theorem normalizeStep_eq (p : Processor ν) (normalizer : Normalizer) (snapshot : Snapshot) :
    normalizeStep snapshot.links (p, normalizer) =
      match p.normalizeSnapshot snapshot normalizer with
      | .ok (written, normalizer, p, reports) =>
        (.ok (written.links, reports), p, normalizer)
      | .error e => (.error e, p, normalizer) := by
  have hpass := passStep_eq p normalizer snapshot.links
  unfold normalizeStep normalizeSnapshot
  split
  · rfl
  · simp only [Normalizing.normalizeLinks]
    generalize normalizer.normalizeLinks snapshot.links = pass at hpass ⊢
    rcases pass with e | ⟨normalizer', links⟩
    · exact bind_of_error hpass
    · exact bind_of_ok hpass

/-- A pass writes to the links alone. -/
theorem records_normalizeSnapshot {p p' : Processor ν} {normalizer normalizer' : Normalizer}
    {snapshot written : Snapshot} {reports : List Report}
    (h : p.normalizeSnapshot snapshot normalizer = .ok (written, normalizer', p', reports)) :
    written = { snapshot with links := written.links } := by
  unfold normalizeSnapshot at h
  split at h
  · cases h
    rfl
  · split at h
    · cases h
    · cases h
      rfl

/-- Made step by step, a load comes to the same as if it were made as a whole or not
at all. -/
theorem loadInPlace_eq (p : Processor ν) (normalizer : Normalizer) (snapshot : Snapshot) :
    loadInPlace snapshot (p, normalizer) = p.loadAsWhole normalizer snapshot := by
  have hnormalized := normalizeStep_eq p normalizer snapshot
  unfold loadAsWhole loadSnapshot
  rcases hpass : p.normalizeSnapshot snapshot normalizer with
    e | ⟨written, normalizer', p', reports⟩
  · rw [hpass] at hnormalized
    exact bind_of_error hnormalized
  · rw [hpass] at hnormalized
    refine (bind_of_ok hnormalized).trans ?_
    rw [records_normalizeSnapshot hpass]
    rfl

/-! ## What comes of a load -/

variable {p : Processor ν} {normalizer : Normalizer} {snapshot : Snapshot}

theorem normalizeSnapshot_none (p : Processor ν) (normalizer : Normalizer)
    (h : snapshot.links = []) :
    p.normalizeSnapshot snapshot normalizer = .ok (snapshot, normalizer, p, []) := by
  simp [normalizeSnapshot, h]

theorem normalizeSnapshot_error (h : snapshot.links ≠ []) {e : NormalizeError}
    (hscale : (Series.ofLinks snapshot.links).scale normalizer.strategy = .error e) :
    p.normalizeSnapshot snapshot normalizer = .error e := by
  simp [normalizeSnapshot, h, Normalizing.normalizeLinks, Normalizer.normalizeLinks,
    Normalizer.normalizeSeries, hscale]

theorem normalizeSnapshot_ok (h : snapshot.links ≠ []) {scaled : Series}
    (hscale : (Series.ofLinks snapshot.links).scale normalizer.strategy = .ok scaled) :
    p.normalizeSnapshot snapshot normalizer =
      .ok ({ snapshot with links := Normalizer.written snapshot.links scaled },
        { normalizer with batch := ⟨Series.ofLinks snapshot.links, scaled⟩ },
        p.observe (Series.ofLinks snapshot.links)) := by
  simp [normalizeSnapshot, h, Normalizing.normalizeLinks, Normalizing.batch,
    Normalizer.normalizeLinks, Normalizer.normalizeSeries, Normalizer.written, hscale]

theorem loadAsWhole_error {e : NormalizeError}
    (h : p.normalizeSnapshot snapshot normalizer = .error e) :
    p.loadAsWhole normalizer snapshot = (.error e, p, normalizer) := by
  unfold loadAsWhole loadSnapshot
  rw [h]
  rfl

/-- Past its pass a load goes through, with a signal and an edge for each key that
a written link makes. -/
theorem loadAsWhole_ok {written : Snapshot} {normalizer' : Normalizer} {p' : Processor ν}
    {reports : List Report}
    (h : p.normalizeSnapshot snapshot normalizer = .ok (written, normalizer', p', reports)) :
    ∃ result loaded, p.loadAsWhole normalizer snapshot = (.ok result, loaded, normalizer') ∧
      loaded.signals = p.signals + 1 ∧
      ∀ key : String, loaded.graph.edges[key]? = p.graph.edges[key]?.or
        (if p.sync.dispatcher.links
          then (written.links.find? (Link.makes key)).map Topology.edgeOf else none) := by
  have hsync := normalizeSnapshot_sync h
  have hsignals := signals_normalizeSnapshot h
  unfold loadAsWhole loadSnapshot
  rw [h]
  refine ⟨_, _, rfl, congrArg (· + 1) hsignals, fun key => ?_⟩
  rw [hsync]
  exact p.sync.edges_applySnapshot written key

/-- A load either fails for its first metric that cannot be scaled, or goes through with
every metric scaled. -/
theorem loadAsWhole_cases (p : Processor ν) (normalizer : Normalizer) (snapshot : Snapshot) :
    let raw := Series.ofLinks snapshot.links
    (∃ e, snapshot.links ≠ [] ∧ raw.fault? normalizer.strategy = some e ∧
      p.loadAsWhole normalizer snapshot = (.error e, p, normalizer)) ∨
    (snapshot.links ≠ [] → raw.fault? normalizer.strategy = none) ∧
      ∃ result loaded normalizer',
        p.loadAsWhole normalizer snapshot = (.ok result, loaded, normalizer') ∧
        loaded.signals = p.signals + 1 ∧
        (snapshot.links ≠ [] → normalizer'.batch.raw = raw ∧ ∀ metric,
          normalizer.strategy.scale (raw.get metric) =
            .ok (normalizer'.batch.normalized.get metric)) ∧
        ∀ key : String, loaded.graph.edges[key]? = p.graph.edges[key]?.or
          (if p.sync.dispatcher.links
            then Topology.madeEdge? snapshot.links normalizer'.batch.normalized key
            else none) := by
  intro raw
  by_cases hlinks : snapshot.links = []
  · right
    obtain ⟨result, loaded, hload, hsignals, hedges⟩ :=
      loadAsWhole_ok (p.normalizeSnapshot_none normalizer hlinks)
    refine ⟨absurd hlinks, result, loaded, normalizer, hload, hsignals, absurd hlinks, ?_⟩
    intro key
    rw [hedges, hlinks]
    rfl
  · rcases raw.scale_eq normalizer.strategy with
      ⟨e, hfault, hscale⟩ | ⟨hfault, scaled, hscale, hmetrics⟩
    · exact Or.inl ⟨e, hlinks, hfault, loadAsWhole_error (normalizeSnapshot_error hlinks hscale)⟩
    · right
      have hpass := normalizeSnapshot_ok (p := p) hlinks hscale
      obtain ⟨result, loaded, hload, hsignals, hedges⟩ := loadAsWhole_ok hpass
      refine ⟨fun _ => hfault, result, loaded, _, hload, hsignals,
        fun _ => ⟨rfl, hmetrics⟩, ?_⟩
      intro key
      rw [hedges, Normalizer.find?_written (Series.length_rows hmetrics)]

end Processor

/-- Three links for one edge. The first is refused, and the third comes too late. -/
def Fixtures.contested : Snapshot :=
  { links := [{ Fixtures.link "l12" "r1" "r2" with delay := 0 },
      { Fixtures.link "l12" "r1" "r2" with delay := 500 },
      { Fixtures.link "l12" "r1" "r2" with delay := 1000 }] }

/-- The second link makes the edge, with the value at its own position. -/
example :
    let start : Processor := {}
    let loaded := start.afterLoad (Fixtures.contested, Normalizer.new .minMax)
    loaded.graph.edges["l12"]?.bind (·.weights[WeightKind.normalizedDelay]?) = some 0.5 := by
  decide +kernel

/-- The delays can be scaled by their spread, but the jitters are all the same. -/
example : (Series.ofLinks Fixtures.contested.links).fault? .zScore =
    some ⟨.jitter, .degenerate .standardDeviation⟩ := by
  decide +kernel

end TopologySync
