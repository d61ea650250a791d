-- The law of passes. The links are scaled metric by metric, and what comes of it is
-- written back by index, link by link. A pass that cannot scale a metric has written
-- nothing by then, one that can never looks past the end of a list, and a second
-- pass over what the first one left finds nothing to change.
import TopologySync.Proofs.Burst.Loads

open Std

namespace TopologySync

namespace Normalizer

/-! ## A pass as it is made -/

/-- Why a pass stops. -/
inductive Stop where
  | refused (error : NormalizeError)
  /-- There is no value at the index of a link. -/
  | outOfRange (i : Nat)
deriving DecidableEq

/-- Steps of a pass, up to the first that fails. What was written to the normalizer and
to the links before stays. -/
abbrev Passing (α : Type) :=
  ExceptT Stop (StateM (Normalizer × List Link)) α

/-- Scales the values of one metric. -/
def scaleStep (raw : Series) (metric : Metric) : Passing (List Float) := fun desk =>
  ((raw.scaleMetric desk.1.strategy metric).mapError .refused, desk)

/-- Scales metric by metric, and then keeps the batch. -/
def seriesStep (raw : Series) : Passing Series := do
  let delay ← scaleStep raw .delay
  let jitter ← scaleStep raw .jitter
  let packetLoss ← scaleStep raw .packetLoss
  let normalized : Series := { delay, jitter, packetLoss }
  modify fun (normalizer, links) => ({ normalizer with batch := { raw, normalized } }, links)
  return normalized

/-- Writes the values at an index on the link at this index. -/
def writeStep (scaled : Series) (i : Nat) : Passing Unit := fun (normalizer, links) =>
  match links[i]?.bind (·.scaledAt scaled i) with
  | some link => (.ok (), normalizer, links.set i link)
  | none => (.error (.outOfRange i), normalizer, links)

/-- Writes on the first links in turn. -/
def writeSteps (scaled : Series) : Nat → Passing Unit
  | 0 => return ()
  | n + 1 => do
    writeSteps scaled n
    writeStep scaled n

/-- Scales the values of the links, and then writes on one link after the other. -/
def linksStep : Passing Unit := do
  let (_, links) ← get
  let scaled ← seriesStep (.ofLinks links)
  writeSteps scaled links.length

variable {normalizer : Normalizer} {raw scaled : Series} {links : List Link} {e : NormalizeError}

/-! ## A pass as a whole -/

/-- A pass over raw values that is made as a whole or not at all. The links are not its concern. -/
def seriesAsWhole (normalizer : Normalizer) (raw : Series) (links : List Link) :
    Except Stop Series × Normalizer × List Link :=
  match normalizer.normalizeSeries raw with
  | .ok normalizer => (.ok normalizer.batch.normalized, normalizer, links)
  | .error e => (.error (.refused e), normalizer, links)

theorem seriesAsWhole_error (h : raw.scale normalizer.strategy = .error e) (links : List Link) :
    normalizer.seriesAsWhole raw links = (.error (.refused e), normalizer, links) := by
  unfold seriesAsWhole normalizeSeries
  rw [h]
  rfl

theorem seriesAsWhole_ok (h : raw.scale normalizer.strategy = .ok scaled) (links : List Link) :
    normalizer.seriesAsWhole raw links =
      (.ok scaled, { normalizer with batch := { raw, normalized := scaled } }, links) := by
  unfold seriesAsWhole normalizeSeries
  rw [h]
  rfl

theorem seriesAsWhole_again (h : raw.scale normalizer.strategy = .ok scaled) (links : List Link) :
    let normalizer' := { normalizer with batch := ⟨raw, scaled⟩ }
    normalizer'.seriesAsWhole raw links = (.ok scaled, normalizer', links) := by
  intro normalizer'
  have hagain : raw.scale normalizer'.strategy = .ok scaled := h
  exact seriesAsWhole_ok hagain links

/-- A pass over links that is made as a whole or not at all. -/
def passAsWhole (normalizer : Normalizer) (links : List Link) :
    Except Stop Unit × Normalizer × List Link :=
  match normalizer.normalizeLinks links with
  | .ok (normalizer, links) => (.ok (), normalizer, links)
  | .error e => (.error (.refused e), normalizer, links)

theorem passAsWhole_error (h : (Series.ofLinks links).scale normalizer.strategy = .error e) :
    normalizer.passAsWhole links = (.error (.refused e), normalizer, links) := by
  unfold passAsWhole normalizeLinks normalizeSeries
  rw [h]
  rfl

theorem passAsWhole_ok (h : (Series.ofLinks links).scale normalizer.strategy = .ok scaled) :
    normalizer.passAsWhole links = (.ok (),
      { normalizer with batch := { raw := .ofLinks links, normalized := scaled } },
      written links scaled) := by
  unfold passAsWhole normalizeLinks normalizeSeries
  rw [h]
  rfl

/-- What is written does not count for the next pass. -/
theorem ofLinks_written (h : scaled.rows.length = links.length) :
    Series.ofLinks (written links scaled) = .ofLinks links := by
  have hraw : ∀ {kind : WeightKind}, kind.isNormalized = false →
      (written links scaled).map (·.weight kind) = links.map (·.weight kind) := by
    intro kind hkind
    have hlinks : (links.zip scaled.rows).map Prod.fst = links := List.map_fst_zip h.ge
    conv_rhs => rw [← hlinks]
    simp only [written, List.zip, List.map_zipWith, weight_writeRow hkind]
  unfold Series.ofLinks
  rw [hraw rfl, hraw rfl, hraw rfl]

theorem zipWith_writeRow_again (links : List Link) (rows : List (Float × Float × Float)) :
    (links.zipWith writeRow rows).zipWith writeRow rows = links.zipWith writeRow rows := by
  induction links generalizing rows with
  | nil => rfl
  | cons link rest ih =>
    cases rows with
    | nil => rfl
    | cons row rows => rw [List.zipWith_cons_cons, List.zipWith_cons_cons, ih]; rfl

theorem passAsWhole_again (h : (Series.ofLinks links).scale normalizer.strategy = .ok scaled)
    (hrows : scaled.rows.length = links.length) :
    let normalizer' := { normalizer with batch := ⟨.ofLinks links, scaled⟩ }
    normalizer'.passAsWhole (written links scaled) =
      (.ok (), normalizer', written links scaled) := by
  intro normalizer'
  have hraw := ofLinks_written hrows
  have hagain : (Series.ofLinks (written links scaled)).scale normalizer'.strategy =
      .ok scaled := by
    rw [hraw]
    exact h
  rw [passAsWhole_ok hagain, hraw]
  simp only [written, zipWith_writeRow_again, normalizer']

/-! ## The steps put together -/

theorem seriesStep_eq (normalizer : Normalizer) (raw : Series) (links : List Link) :
    seriesStep raw (normalizer, links) = normalizer.seriesAsWhole raw links := by
  have hfirst : ∀ {metric outcome}, raw.scaleMetric normalizer.strategy metric = outcome →
      scaleStep raw metric (normalizer, links) = (outcome.mapError .refused, normalizer, links) :=
    fun houtcome => houtcome ▸ rfl
  unfold seriesStep seriesAsWhole normalizeSeries Series.scale
  rcases hdelay : raw.scaleMetric normalizer.strategy .delay with e | delay
  · exact bind_of_error (hfirst hdelay)
  · refine (bind_of_ok (hfirst hdelay)).trans ?_
    rcases hjitter : raw.scaleMetric normalizer.strategy .jitter with e | jitter
    · exact bind_of_error (hfirst hjitter)
    · refine (bind_of_ok (hfirst hjitter)).trans ?_
      rcases hloss : raw.scaleMetric normalizer.strategy .packetLoss with e | loss
      · exact bind_of_error (hfirst hloss)
      · exact bind_of_ok (hfirst hloss)

/-- After some steps the first links are written, and the others are as they were. -/
theorem writeSteps_eq (normalizer : Normalizer) (h : scaled.rows.length = links.length) {n : Nat}
    (hn : n ≤ links.length) :
    writeSteps scaled n (normalizer, links) =
      (.ok (), normalizer, (written links scaled).take n ++ links.drop n) := by
  have hwritten : (written links scaled).length = links.length := by simp [written, h]
  induction n with
  | zero => rfl
  | succ n ih =>
    refine (bind_of_ok (ih (by omega))).trans ?_
    have hnext : n < links.length := hn
    have hfront : ((written links scaled).take n).length = n := by
      rw [List.length_take]
      omega
    -- What stands at the index now is the link as it was, as no step before has come this far.
    have hlink : ((written links scaled).take n ++ links.drop n)[n]? = links[n]? := by
      rw [List.getElem?_append_right (by omega), List.getElem?_drop, hfront, Nat.sub_self,
        Nat.add_zero]
    have hvalues : links[n]?.bind (·.scaledAt scaled n) = some (written links scaled)[n] := by
      rw [← getElem?_written, List.getElem?_eq_getElem]
    simp only [writeStep, hlink, hvalues]
    rw [List.set_append_right _ _ (by omega), hfront, Nat.sub_self,
      List.drop_eq_getElem_cons hnext, List.set_cons_zero, List.take_succ_eq_append_getElem,
      List.append_assoc, List.singleton_append]

theorem linksStep_eq (normalizer : Normalizer) (links : List Link) :
    linksStep (normalizer, links) = normalizer.passAsWhole links := by
  have hread : linksStep (normalizer, links) =
      (seriesStep (.ofLinks links) >>= (writeSteps · links.length)) (normalizer, links) := rfl
  have hseries := seriesStep_eq normalizer (.ofLinks links) links
  obtain ⟨e, -, hscale⟩ | ⟨-, scaled, hscale, hmetrics⟩ :=
    (Series.ofLinks links).scale_eq normalizer.strategy
  · rw [seriesAsWhole_error hscale] at hseries
    rw [hread, passAsWhole_error hscale]
    exact bind_of_error hseries
  · have hrows := Series.length_rows hmetrics
    have hwritten : (written links scaled).length = links.length := by simp [written, hrows]
    rw [seriesAsWhole_ok hscale] at hseries
    rw [hread, passAsWhole_ok hscale]
    refine (bind_of_ok hseries).trans ((writeSteps_eq _ hrows le_rfl).trans ?_)
    rw [List.take_of_length_le hwritten.le, List.drop_length, List.append_nil]

/-! ## What comes of a pass -/

/-- What a pass over raw values leaves: a batch of these values and of their scalings, value
by value, and the strategy that there was. -/
structure Scales (normalizer : Normalizer) (raw : Series) (normalizer' : Normalizer) : Prop where
  strategy : normalizer'.strategy = normalizer.strategy
  reported : normalizer'.batch.raw = raw
  scaled : ∀ metric, normalizer.strategy.scale (raw.get metric) =
    .ok (normalizer'.batch.normalized.get metric)
  lengths : ∀ metric, (normalizer'.batch.normalized.get metric).length = (raw.get metric).length

theorem scales_of_metrics (h : ∀ metric,
    normalizer.strategy.scale (raw.get metric) = .ok (scaled.get metric)) :
    normalizer.Scales raw { normalizer with batch := { raw, normalized := scaled } } :=
  ⟨rfl, rfl, h, fun metric => Strategy.length_scale (h metric)⟩

/-- A pass over raw values, or over the values that links report, scales all three metrics or fails
for the first that cannot be scaled. If it fails, normalizer and links are as they were. If it goes
through, each link has the scaled values at its own index, and the same pass made again changes
nothing. -/
theorem a_pass_scales_all_or_nothing (normalizer : Normalizer) (raw : Series)
    (links : List Link) :
    (∀ metric, (Series.ofLinks links).get metric = links.map (·.reported metric)) ∧
    (let (outcome, normalizer', links') := seriesStep raw (normalizer, links);
      (outcome, normalizer', links') = normalizer.seriesAsWhole raw links ∧
      (∀ stop, outcome = .error stop ↔
        ∃ e, stop = .refused e ∧ raw.fault? normalizer.strategy = some e) ∧
      (∀ stop, outcome = .error stop → normalizer' = normalizer ∧ links' = links) ∧
      ∀ scaled, outcome = .ok scaled → normalizer.Scales raw normalizer' ∧
        scaled = normalizer'.batch.normalized ∧ links' = links ∧
        seriesStep raw (normalizer', links') = (.ok scaled, normalizer', links')) ∧
    (let (outcome, normalizer', links') := linksStep (normalizer, links);
      (outcome, normalizer', links') = normalizer.passAsWhole links ∧
      (∀ stop, outcome = .error stop ↔
        ∃ e, stop = .refused e ∧ (Series.ofLinks links).fault? normalizer.strategy = some e) ∧
      (∀ stop, outcome = .error stop → normalizer' = normalizer ∧ links' = links) ∧
      (outcome = .ok () → normalizer.Scales (.ofLinks links) normalizer' ∧
        links'.length = links.length ∧
        (∀ i : Nat, links'[i]? = links[i]?.bind (·.scaledAt normalizer'.batch.normalized i)) ∧
        linksStep (normalizer', links') = (.ok (), normalizer', links'))) := by
  refine ⟨Series.get_ofLinks links, ?_, ?_⟩
  · rw [seriesStep_eq]
    obtain ⟨e, hfault, hscale⟩ | ⟨hfault, scaled, hscale, hmetrics⟩ :=
      raw.scale_eq normalizer.strategy
    · rw [seriesAsWhole_error hscale]
      refine ⟨rfl, fun stop => ?_, fun _ _ => ⟨rfl, rfl⟩, nofun⟩
      simp [hfault, eq_comm]
    · rw [seriesAsWhole_ok hscale]
      refine ⟨rfl, fun stop => by simp [hfault], nofun, fun scaled' hscaled => ?_⟩
      cases hscaled
      refine ⟨scales_of_metrics hmetrics, rfl, rfl, ?_⟩
      rw [seriesStep_eq]
      exact seriesAsWhole_again hscale links
  · rw [linksStep_eq]
    obtain ⟨e, hfault, hscale⟩ | ⟨hfault, scaled, hscale, hmetrics⟩ :=
      (Series.ofLinks links).scale_eq normalizer.strategy
    · rw [passAsWhole_error hscale]
      refine ⟨rfl, fun stop => ?_, fun _ _ => ⟨rfl, rfl⟩, nofun⟩
      simp [hfault, eq_comm]
    · rw [passAsWhole_ok hscale]
      have hrows := Series.length_rows hmetrics
      refine ⟨rfl, fun stop => by simp [hfault], nofun, fun _ => ⟨scales_of_metrics hmetrics, ?_,
        getElem?_written links scaled, ?_⟩⟩
      · simp [written, hrows]
      · rw [linksStep_eq]
        exact passAsWhole_again hscale hrows

end Normalizer

end TopologySync
