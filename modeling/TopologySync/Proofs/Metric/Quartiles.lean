-- The law of quartiles. A sample is sorted in the total order of the doubles, in which no
-- two doubles share a place, so that its sorted values do not depend on the order in which
-- they came. What is read off them by index, from the whole list and from its halves, is
-- always there.
import TopologySync.Metric.Scaling
import TopologySync.Proofs.Metric.Places
import TopologySync.Proofs.Metric.Samples

namespace TopologySync

/-- The values of a list at some indices. -/
def pick {α : Type} (order : List Nat) (values : List α) : List α :=
  order.filterMap (values[·]?)

theorem pick_map {α β : Type} (f : α → β) (order : List Nat) (values : List α) :
    pick order (values.map f) = (pick order values).map f := by
  unfold pick
  rw [List.map_filterMap]
  simp only [List.getElem?_map]

theorem pick_range {α : Type} (values : List α) :
    pick (List.range values.length) values = values := by
  induction values with
  | nil => rfl
  | cons x rest ih =>
    unfold pick at ih ⊢
    rw [List.length_cons, List.range_succ_eq_map, List.filterMap_cons, List.filterMap_map]
    exact congrArg (x :: ·) ih

theorem pick_perm {α : Type} {order : List Nat} {values : List α}
    (h : order.Perm (List.range values.length)) : (pick order values).Perm values := by
  have hperm := h.filterMap (values[·]?)
  rwa [show (List.range values.length).filterMap (values[·]?) = values from
    pick_range values] at hperm

namespace Sample

variable {sorted sorted' : List Float} {s s' : Sample}

/-! ## Sorting -/

theorem insert_eq (x : Float) (sorted : List Float) :
    insert x sorted = sorted.orderedInsert (place · ≤ place ·) x := by
  induction sorted with
  | nil => rfl
  | cons y rest ih => rw [insert, ih, List.orderedInsert]

theorem pairwise_sort (values : List Float) : (sort values).Pairwise (place · ≤ place ·) := by
  have htotal : Std.Total fun x y : Float => place x ≤ place y := ⟨fun _ _ => le_total _ _⟩
  have htrans : IsTrans Float (place · ≤ place ·) := ⟨fun x y z => le_trans⟩
  induction values with
  | nil => exact .nil
  | cons x rest ih =>
    change (insert x (sort rest)).Pairwise _
    rw [insert_eq]
    exact ih.orderedInsert x _

/-- There is one way to sort. -/
theorem eq_of_pairwise (h : sorted.Pairwise (place · ≤ place ·))
    (h' : sorted'.Pairwise (place · ≤ place ·)) (hperm : sorted.Perm sorted') :
    sorted = sorted' := by
  refine List.Perm.eq_of_pairwise ?_ h h' hperm
  intro x y _ _ hxy hyx
  exact place_injective (le_antisymm hxy hyx)

theorem sort_of_perm {values values' : List Float} (h : values'.Perm values) :
    sort values' = sort values :=
  eq_of_pairwise (pairwise_sort values') (pairwise_sort values)
    ((sort_perm values').trans (h.trans (sort_perm values).symm))

theorem sort_of_pairwise (h : sorted.Pairwise (place · ≤ place ·)) : sort sorted = sorted :=
  eq_of_pairwise (pairwise_sort sorted) h (sort_perm sorted)

theorem before_sort (s : Sample) : (sort s.values).Pairwise Before := by
  refine (pairwise_sort s.values).imp_of_mem fun hx hy hplace => ?_
  exact before_of_place_le (s.isFinite_of_mem ((sort_perm s.values).subset hx))
    (s.isFinite_of_mem ((sort_perm s.values).subset hy)) hplace

/-! ## Reading by index -/

/-- The middle of a sorted list, read by index. Nothing comes of an index that is not in the
list. -/
def middleAt (sorted : List Float) : Option Float :=
  let half := sorted.length / 2
  if sorted.length % 2 = 0 then do
    guard (1 ≤ half)
    return ((← sorted[half - 1]?) + (← sorted[half]?)) / 2.0
  else sorted[half]?

/-- The part of a list between two indices, unless they are out of order or out of the list. -/
def slice (values : List Float) (first last : Nat) : Option (List Float) := do
  guard (first ≤ last ∧ last ≤ values.length)
  return (values.take last).drop first

/-- The quartiles of a sorted list, read by index from the list and from its halves. -/
def hingesAt (sorted : List Float) : Option Quartiles :=
  let n := sorted.length
  if n = 1 then do
    let x ← sorted[0]?
    return ⟨x, x, x⟩
  else do
    let lower ← slice sorted 0 (n / 2)
    let upper ← slice sorted (if n % 2 = 0 then n / 2 else n / 2 + 1) n
    return ⟨← middleAt lower, ← middleAt sorted, ← middleAt upper⟩

theorem middleAt_eq (h : 0 < sorted.length) : middleAt sorted = some (middle sorted h) := by
  unfold middleAt middle
  dsimp only
  split_ifs with heven
  · rw [List.getElem?_eq_getElem (by omega), List.getElem?_eq_getElem (by omega)]
    simp [guard, show 1 ≤ sorted.length / 2 by omega]
  · rw [List.getElem?_eq_getElem]

theorem slice_eq {values : List Float} {first last : Nat} (h : first ≤ last)
    (h' : last ≤ values.length) :
    slice values first last = some ((values.take last).drop first) := by
  unfold slice guard
  rw [if_pos ⟨h, h'⟩]
  rfl

theorem slice_lower (sorted : List Float) :
    slice sorted 0 (sorted.length / 2) = some (lowerHalf sorted) :=
  slice_eq (Nat.zero_le _) (by omega)

/-- The upper half starts behind the middle value, if there is one. -/
theorem slice_upper (sorted : List Float) :
    slice sorted (if sorted.length % 2 = 0 then sorted.length / 2 else sorted.length / 2 + 1)
      sorted.length = some (upperHalf sorted) := by
  have hstart : (if sorted.length % 2 = 0 then sorted.length / 2 else sorted.length / 2 + 1) =
      sorted.length - sorted.length / 2 := by
    split_ifs <;> omega
  rw [hstart, slice_eq (by omega) le_rfl, List.take_length]
  rfl

theorem hingesAt_eq (h : 0 < sorted.length) : hingesAt sorted = some (hinges sorted h) := by
  unfold hingesAt hinges
  dsimp only
  by_cases hsingle : sorted.length = 1
  · rw [if_pos hsingle, dif_pos hsingle, List.getElem?_eq_getElem h]
    rfl
  · have hhalf : 0 < sorted.length / 2 := by omega
    have hlower := length_lowerHalf sorted
    have hupper := length_upperHalf sorted
    rw [if_neg hsingle, dif_neg hsingle, slice_lower, slice_upper, middleAt_eq h]
    simp only [Option.bind_eq_bind, Option.bind_some]
    rw [middleAt_eq (hhalf.trans_eq hlower.symm), middleAt_eq (hhalf.trans_eq hupper.symm)]
    rfl

/-! ## Halves -/

/-- The middle value and the halves make up the sorted list. -/
theorem halves_append (sorted : List Float) :
    sorted = lowerHalf sorted ++
      (sorted.drop (sorted.length / 2)).take (sorted.length % 2) ++ upperHalf sorted := by
  have hupper : upperHalf sorted =
      (sorted.drop (sorted.length / 2)).drop (sorted.length % 2) := by
    rw [List.drop_drop]
    unfold upperHalf
    congr 1
    omega
  rw [hupper, List.append_assoc, List.take_append_drop]
  exact (List.take_append_drop _ sorted).symm

/-- A part of the sorted values that is not empty is a sample, and is sorted already. -/
theorem exists_part (s : Sample) {part : List Float} (h : part.Sublist (sort s.values))
    (hpos : 0 < part.length) :
    ∃ half : Sample, half.values = part ∧ half.median = middle part hpos := by
  have hsorted := sort_of_pairwise ((pairwise_sort s.values).sublist h)
  have hfinite : part.find? (fun x => !x.isFinite) = none := List.find?_eq_none.2 fun x hx => by
    rw [s.isFinite_of_mem ((sort_perm s.values).subset (h.subset hx))]
    decide
  refine ⟨⟨part, List.length_pos_iff.1 hpos, hfinite⟩, rfl, ?_⟩
  unfold median
  simp only [hsorted]

/-- The outer quartiles are the medians of the first and of the last half of the sorted values,
which leave out the middle one if there is one. -/
theorem quartiles_of_halves (s : Sample) (h : 2 ≤ s.values.length) :
    ∃ lower upper : Sample, ∃ between,
      sort s.values = lower.values ++ between ++ upper.values ∧
      lower.values.length = s.values.length / 2 ∧ upper.values.length = s.values.length / 2 ∧
      between.length = s.values.length % 2 ∧
      s.quartiles = ⟨lower.median, s.median, upper.median⟩ := by
  have hlength := length_sort s.values
  have hhalves := halves_append (sort s.values)
  have hlower := length_lowerHalf (sort s.values)
  have hupper := length_upperHalf (sort s.values)
  have hlowerPart : (lowerHalf (sort s.values)).Sublist (sort s.values) := List.take_sublist _ _
  have hupperPart : (upperHalf (sort s.values)).Sublist (sort s.values) := List.drop_sublist _ _
  rw [hlength] at hhalves hlower hupper
  obtain ⟨lower, hlowerValues, hlowerMedian⟩ := s.exists_part hlowerPart (by omega)
  obtain ⟨upper, hupperValues, hupperMedian⟩ := s.exists_part hupperPart (by omega)
  refine ⟨lower, upper, ((sort s.values).drop (s.values.length / 2)).take (s.values.length % 2),
    by rw [hlowerValues, hupperValues, ← hhalves], by rw [hlowerValues, hlower],
    by rw [hupperValues, hupper], ?_, ?_⟩
  · rw [List.length_take, List.length_drop]
    omega
  · rw [hlowerMedian, hupperMedian]
    unfold quartiles hinges
    rw [dif_neg (by omega)]
    rfl

/-- A single value is all three quartiles. -/
theorem quartiles_of_single (s : Sample) {x : Float} (h : s.values = [x]) :
    s.median = x ∧ s.quartiles = ⟨x, x, x⟩ := by
  have hsort : sort s.values = [x] := by
    rw [h]
    rfl
  unfold median quartiles
  simp only [hsort]
  exact ⟨by simp [middle], rfl⟩

/-! ## Order -/

theorem quartiles_eq_of_perm (h : s'.values.Perm s.values) :
    s'.median = s.median ∧ s'.quartiles = s.quartiles := by
  have hsort := sort_of_perm h
  unfold median quartiles
  simp only [hsort, and_self]

end Sample

namespace Strategy

theorem robust_pick {order : List Nat} {s s' : Sample}
    (hvalues : s'.values = pick order s.values) (hquartiles : s'.quartiles = s.quartiles) :
    robust.scaleSample s' = (robust.scaleSample s).map (pick order) := by
  unfold scaleSample
  dsimp only
  rw [hquartiles, hvalues]
  split_ifs
  · rfl
  · exact congrArg Except.ok (pick_map _ order s.values).symm

theorem robust_error {s : Sample} {e : StatError} (h : robust.scaleSample s = .error e) :
    e = .degenerate .interquartileRange := by
  unfold scaleSample at h
  dsimp only at h
  split_ifs at h
  cases h
  rfl

end Strategy

namespace Sample

/-- The values of a sample in another order have the same median and quartiles, to the bit, and
robust scaling gives the same values in that order, or the same error. No index that is read is out
of the sorted list. Of two values or more, the outer quartiles are the medians of the first and of
the last half, which share no place. -/
theorem quartiles_do_not_depend_on_the_order (s : Sample) (order : List Nat)
    (horder : order.Perm (List.range s.values.length)) :
    let sorted := sort s.values
    (∃ s', ofList (pick order s.values) = .ok s' ∧ s'.median = s.median ∧
      s'.quartiles = s.quartiles) ∧
    Strategy.robust.scale (pick order s.values) =
      (Strategy.robust.scale s.values).map (pick order) ∧
    (∀ scaled, Strategy.robust.scale s.values = .ok scaled →
      scaled.length = s.values.length) ∧
    (∀ e, Strategy.robust.scale s.values = .error e → e = .degenerate .interquartileRange) ∧
    sorted.Perm s.values ∧ sorted.Pairwise Before ∧
    middleAt sorted = some s.median ∧ hingesAt sorted = some s.quartiles ∧
    (∀ x, s.values = [x] → s.median = x ∧ s.quartiles = ⟨x, x, x⟩) ∧
    (2 ≤ s.values.length → 0 < s.values.length / 2 ∧
      ∃ lower upper : Sample, ∃ between,
        sorted = lower.values ++ between ++ upper.values ∧
        lower.values.length = s.values.length / 2 ∧ upper.values.length = s.values.length / 2 ∧
        between.length = s.values.length % 2 ∧
        s.quartiles = ⟨lower.median, s.median, upper.median⟩) := by
  intro sorted
  have hperm := pick_perm horder
  have hsome : pick order s.values ≠ [] := fun hnil => s.nonempty (by simpa [hnil] using hperm)
  have hfinite : (pick order s.values).find? (fun x => !x.isFinite) = none :=
    List.find?_eq_none.2 fun x hx => by
      rw [s.isFinite_of_mem (hperm.subset hx)]
      decide
  let s' : Sample := ⟨pick order s.values, hsome, hfinite⟩
  have hlist : ofList (pick order s.values) = .ok s' := ofList_values s'
  obtain ⟨hmedian, hquartiles⟩ : s'.median = s.median ∧ s'.quartiles = s.quartiles :=
    quartiles_eq_of_perm hperm
  refine ⟨⟨s', hlist, hmedian, hquartiles⟩, ?_, fun _ => Strategy.length_scale, fun e he => ?_,
    sort_perm s.values, s.before_sort, middleAt_eq s.sort_length_pos,
    hingesAt_eq s.sort_length_pos, fun x => s.quartiles_of_single,
    fun h => ⟨by omega, s.quartiles_of_halves h⟩⟩
  · unfold Strategy.scale
    rw [hlist, ofList_values]
    exact Strategy.robust_pick rfl hquartiles
  · unfold Strategy.scale at he
    rw [ofList_values] at he
    exact Strategy.robust_error he

/-- Four values in another order, both zeros among them. -/
theorem quartiles_of_two_zeros_in_another_order :
    [2, 0, 3, 1].Perm (List.range 4) ∧
      pick [2, 0, 3, 1] [0.0, 2.0, -0.0, 1.0] = ([-0.0, 0.0, 1.0, 2.0] : List Float) ∧
      Strategy.robust.scale [-0.0, 0.0, 1.0, 2.0] =
        (Strategy.robust.scale [0.0, 2.0, -0.0, 1.0]).map (pick [2, 0, 3, 1]) ∧
      ∃ s, ofList [-0.0, 0.0, 1.0, 2.0] = .ok s ∧ s.quartiles = ⟨0.0, 0.5, 1.5⟩ := by
  have horder : [2, 0, 3, 1].Perm (List.range 4) := by decide
  let s : Sample := ⟨[0.0, 2.0, -0.0, 1.0], by decide, by decide +kernel⟩
  have hpick : pick [2, 0, 3, 1] s.values = [-0.0, 0.0, 1.0, 2.0] := by decide +kernel
  have hquartiles : s.quartiles = ⟨0.0, 0.5, 1.5⟩ := by decide +kernel
  obtain ⟨⟨s', hlist, -, hsame⟩, hscale, -⟩ :=
    s.quartiles_do_not_depend_on_the_order [2, 0, 3, 1] horder
  rw [hpick] at hlist hscale
  exact ⟨horder, hpick, hscale, s', hlist, hsame.trans hquartiles⟩

end Sample

end TopologySync
