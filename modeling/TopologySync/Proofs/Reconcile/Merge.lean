-- What an update of a link writes. Each kind of weight is judged by itself:
-- it is written if it is populated and is not what the edge has, and the
-- update tells exactly which kinds those were.
import TopologySync.Proofs.Reconcile.Agreement

open Std

namespace TopologySync.Topology

/-- A merge writes a kind of weight. -/
def rewrites (edge : Edge) (link : Link) (kind : WeightKind) : Bool :=
  !unpopulated kind (link.weight kind) && !edge.weights[kind]?.any (· == link.weight kind)

theorem nodup_all : WeightKind.all.Nodup := by
  decide

/-- Of kinds that are listed once, a merge treats each once. -/
theorem foldl_mergeKind (link : Link) (kind : WeightKind) (known : Option Float)
    {kinds : List WeightKind} (h : kinds.Nodup) :
    (kinds.map (fun k => (k, link.weight k))).foldl (mergeKind kind) known =
      if kind ∈ kinds then mergeKind kind known (kind, link.weight kind) else known := by
  induction kinds generalizing known with
  | nil => rfl
  | cons k rest ih =>
    obtain ⟨hnew, hrest⟩ := List.nodup_cons.1 h
    rw [List.map_cons, List.foldl_cons, ih _ hrest]
    by_cases hk : k = kind
    · subst hk
      simp [hnew]
    · have hskip : mergeKind kind known (k, link.weight k) = known := by simp [mergeKind, hk]
      simp [hskip, Ne.symm hk]

theorem getElem?_merged (edge : Edge) (link : Link) (kind : WeightKind) :
    (mergeLink edge link).2[kind]? =
      if rewrites edge link kind then some (link.weight kind) else edge.weights[kind]? := by
  have hall := foldl_mergeKind link kind edge.weights[kind]? nodup_all
  rw [getElem?_mergeLink, Link.weights, hall, if_pos (WeightKind.mem_all kind)]
  simp [mergeKind, rewrites]

theorem changed_foldl_mergeInto (link : Link) (state : WeightUpdate × Weights)
    {kinds : List WeightKind} (h : kinds.Nodup) :
    ((kinds.map (fun k => (k, link.weight k))).foldl mergeInto state).1.changed =
      state.1.changed ++ kinds.filter (fun k =>
        !unpopulated k (link.weight k) && !state.2[k]?.any (· == link.weight k)) := by
  induction kinds generalizing state with
  | nil => simp
  | cons kind rest ih =>
    obtain ⟨hnew, hrest⟩ := List.nodup_cons.1 h
    -- The kinds behind this one are judged by the weights from before the merge.
    have hbehind : rest.filter (fun k => !unpopulated k (link.weight k) &&
          !(mergeInto state (kind, link.weight kind)).2[k]?.any (· == link.weight k)) =
        rest.filter (fun k =>
          !unpopulated k (link.weight k) && !state.2[k]?.any (· == link.weight k)) := by
      apply List.filter_congr
      intro k hk
      have hother : kind ≠ k := fun heq => hnew (heq ▸ hk)
      rw [getElem?_mergeInto]
      simp [mergeKind, hother]
    rw [List.map_cons, List.foldl_cons, ih _ hrest, hbehind, List.filter_cons]
    unfold mergeInto
    by_cases hskip : unpopulated kind (link.weight kind) = true
    · simp [hskip]
    · by_cases hsame : state.2[kind]?.any (· == link.weight kind) = true
      · simp [hskip, hsame]
      · simp [hskip, hsame]

/-- An update tells of the kinds that it writes, in canonical order. -/
theorem changed_mergeLink (edge : Edge) (link : Link) :
    (mergeLink edge link).1.changed = WeightKind.all.filter (rewrites edge link) :=
  changed_foldl_mergeInto link ({}, edge.weights) nodup_all

theorem created_foldl_mergeInto (weights : List (WeightKind × Float))
    (state : WeightUpdate × Weights) :
    (weights.foldl mergeInto state).1.created = state.1.created := by
  refine List.foldlRecOn (motive := fun s : WeightUpdate × Weights =>
    s.1.created = state.1.created) weights mergeInto rfl fun s h weight _ => ?_
  unfold mergeInto
  split
  · exact h
  · split <;> exact h

/-- What is not populated is skipped, whatever the edge has. -/
theorem skipped_foldl_mergeInto (weights : List (WeightKind × Float))
    (state : WeightUpdate × Weights) :
    (weights.foldl mergeInto state).1.skipped = state.1.skipped ++
      (weights.filter (fun weight => unpopulated weight.1 weight.2)).map Prod.fst := by
  induction weights generalizing state with
  | nil => simp
  | cons weight rest ih =>
    rw [List.foldl_cons, ih, List.filter_cons]
    unfold mergeInto
    by_cases hskip : unpopulated weight.1 weight.2 = true
    · simp [hskip]
    · simp only [hskip, Bool.false_eq_true, if_false]
      split <;> rfl

/-- What an update tells, kind by kind. -/
theorem mergeLink_update (edge : Edge) (link : Link) :
    (mergeLink edge link).1 = {
      changed := WeightKind.all.filter (rewrites edge link)
      skipped := WeightKind.all.filter (fun kind => unpopulated kind (link.weight kind)) } := by
  have hcreated : (mergeLink edge link).1.created = false := created_foldl_mergeInto _ _
  have hskipped : (mergeLink edge link).1.skipped =
      WeightKind.all.filter (fun kind => unpopulated kind (link.weight kind)) := by
    rw [mergeLink, skipped_foldl_mergeInto, Link.weights, List.filter_map, List.map_map]
    exact List.map_id _
  rw [← changed_mergeLink, ← hskipped, ← hcreated]

theorem graphChanged_mergeLink (edge : Edge) (link : Link) :
    (mergeLink edge link).1.graphChanged = true ↔ ∃ kind, rewrites edge link kind = true := by
  simp [mergeLink_update, WeightUpdate.graphChanged, List.filter_eq_nil_iff, WeightKind.mem_all]

end TopologySync.Topology
