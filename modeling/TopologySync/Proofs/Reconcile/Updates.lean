-- Updates of links, weight by weight. Each of the ten weights is kept, or it
-- becomes what the link reports, and the same report a second time finds
-- nothing left to do.
import TopologySync.Fixtures
import TopologySync.Proofs.Graph.Calls
import TopologySync.Proofs.Numbers
import TopologySync.Proofs.Reconcile.Changes
import TopologySync.Proofs.Reconcile.Merge

open Std

namespace TopologySync.Topology

variable {link : Link} {kind : WeightKind}

/-! ## One weight -/

/-- A weight that is not populated is kept. -/
theorem getElem?_merged_of_unpopulated (edge : Edge)
    (h : unpopulated kind (link.weight kind) = true) :
    (mergeLink edge link).2[kind]? = edge.weights[kind]? := by
  simp [getElem?_merged, rewrites, h]

/-- A weight that is populated is afterwards what the link reports. It may have been so
before, as a zero of the other sign. -/
theorem merged_eq (hnumeric : link.Numeric) (edge : Edge)
    (h : unpopulated kind (link.weight kind) = false) :
    ∃ value, (mergeLink edge link).2[kind]? = some value ∧ (value == link.weight kind) = true := by
  rw [getElem?_merged]
  by_cases hwritten : rewrites edge link kind = true
  · refine ⟨link.weight kind, if_pos hwritten, ?_⟩
    simpa using Link.isNaN_weight hnumeric kind
  · rw [if_neg hwritten]
    have hknown : edge.weights[kind]?.any (· == link.weight kind) = true := by
      simpa [rewrites, h] using hwritten
    exact (Option.any_eq_true _ _).1 hknown

/-! ## The same update again -/

/-- Nothing is left to write. -/
theorem rewrites_merged (hnumeric : link.Numeric) (edge : Edge) (kind : WeightKind) :
    rewrites { edge with weights := (mergeLink edge link).2 } link kind = false := by
  unfold rewrites
  rcases h : unpopulated kind (link.weight kind) with _ | _
  · obtain ⟨value, hvalue, hsame⟩ := merged_eq hnumeric edge h
    simp [hvalue, hsame]
  · rfl

theorem mergeLink_again (hnumeric : link.Numeric) (edge : Edge) :
    mergeLink { edge with weights := (mergeLink edge link).2 } link =
      ({ skipped := (mergeLink edge link).1.skipped }, (mergeLink edge link).2) := by
  have hnone : WeightKind.all.filter
      (rewrites { edge with weights := (mergeLink edge link).2 } link) = [] :=
    List.filter_eq_nil_iff.2 fun kind _ => by simp [rewrites_merged hnumeric]
  refine Prod.ext ?_ ?_
  · rw [mergeLink_update, mergeLink_update, hnone]
  · exact (foldl_mergeInto_unchanged link.weights _ ((changed_mergeLink _ link).trans hnone)).2

/-! ## The law -/

/-- An update of an edge is a merge of the weights, kind by kind. A raw weight that the link
reports as zero is skipped and keeps its value. Every other weight is then what the link
reports, and it is changed if it was not there or was another number. Nothing else is
touched, and the same update again skips the same weights and changes none. -/
theorem an_update_merges_weight_by_weight {t : Topology} {link : Link}
    (hnumeric : link.Numeric) {edge : Edge} (hedge : t.graph.edges[link.key]? = some edge) :
    let skips := fun kind : WeightKind => !kind.isNormalized && link.weight kind == 0.0
    let has := fun kind : WeightKind => edge.weights[kind]?.any (· == link.weight kind)
    let update : WeightUpdate := {
      changed := WeightKind.all.filter (fun kind => !skips kind && !has kind)
      skipped := WeightKind.all.filter skips }
    ∃ weights : Weights,
      let edges := t.graph.edges.insert link.key { edge with weights }
      let updated : Topology := { t with graph := { t.graph with edges } }
      t.updateLink link = .ok (update, updated) ∧
        (∀ kind, skips kind = true → weights[kind]? = edge.weights[kind]?) ∧
        (∀ kind, skips kind = false →
          ∃ value, weights[kind]? = some value ∧ (value == link.weight kind) = true) ∧
        updated.updateLink link = .ok ({ skipped := update.skipped }, updated) := by
  intro skips has update
  have hupdate : (mergeLink edge link).1 = update := mergeLink_update edge link
  refine ⟨(mergeLink edge link).2, ?_, fun kind => getElem?_merged_of_unpopulated edge,
    fun kind => merged_eq hnumeric edge, ?_⟩
  · simp only [updateLink_eq, hedge, hupdate, Graph.reweigh]
  · have hmerged := mergeLink_again hnumeric edge
    simp only [updateLink_eq, ExtTreeMap.getElem?_insert_self, hmerged, hupdate, Graph.reweigh,
      Maps.insert_insert]

/-- A link that reports no packet loss keeps the loss that is known. Its delay is known
already, and so is the normalized delay of zero, of which it reports the other sign. -/
theorem a_loss_of_zero_is_skipped :
    let weights : Weights := ExtTreeMap.ofList
      [(WeightKind.delay, 1000), (.packetLoss, 0.25), (.normalizedDelay, 0.0)]
    let edge : Edge := { key := "l", source := "a", target := "a", weights }
    let graph := Graph.empty.afterCalls [.addNode { id := "a" }, .addEdge edge]
    let link := { Fixtures.link "l" "a" "a" with packetLoss := 0.0, normalizedDelay := -0.0 }
    link.Numeric ∧ graph.edges[link.key]? = some edge ∧
      ∃ merged : Weights, ∃ updated : Topology,
        updateLink { graph } link = .ok ({
          changed := [.igpMetric, .jitter, .maxBandwidth, .availableBandwidth,
            .utilizedBandwidth, .normalizedJitter, .normalizedPacketLoss]
          skipped := [.packetLoss] }, updated) ∧
        updated.graph.edges = graph.edges.insert "l" { edge with weights := merged } ∧
        merged[WeightKind.packetLoss]? = some 0.25 ∧
        updated.updateLink link = .ok ({ skipped := [.packetLoss] }, updated) := by
  intro weights edge graph link
  have hnumeric : link.Numeric := ⟨by decide +kernel, by decide +kernel, by decide +kernel,
    by decide +kernel⟩
  have hedge : graph.edges[link.key]? = some edge := by decide +kernel
  obtain ⟨merged, hupdate, hskipped, -, hagain⟩ :=
    an_update_merges_weight_by_weight (t := { graph }) hnumeric hedge
  have hloss : merged[WeightKind.packetLoss]? = edge.weights[WeightKind.packetLoss]? :=
    hskipped .packetLoss (by decide +kernel)
  refine ⟨hnumeric, hedge, merged, _, hupdate.trans ?_, rfl, hloss.trans ?_, hagain.trans ?_⟩
  · exact congrArg (fun update => Except.ok (update, _)) (by decide +kernel)
  · decide +kernel
  · exact congrArg (fun update => Except.ok (update, _)) (by decide +kernel)

end TopologySync.Topology
