-- Scaling between two bounds. It ends in the unit interval unless the distance of the
-- bounds is too large for a double, for then a value at the upper bound is infinitely
-- far from the lower one, and infinity by infinity is no number.
import TopologySync.Metric.Scaling
import TopologySync.Proofs.Metric.Samples

open TopologySync.Doubles

namespace TopologySync.Strategy

variable {x lower upper : Float} {values : List Float}

/-- A double from zero to one. -/
def InUnit (y : Float) : Prop :=
  0.0 ≤ y ∧ y ≤ 1.0

/-! ## Clamping -/

theorem value_one : value 1.0 = 1 := by
  have hparts : value 1.0 = (2 ^ 52 : ℕ) * 2 ^ (-52 : ℤ) := rfl
  rw [hparts, natCast_two_pow, ← two_zpow_add]
  exact zpow_zero 2

theorem inUnit_iff (h : x.isNaN = false) : InUnit x ↔ 0 ≤ value x ∧ value x ≤ 1 := by
  unfold InUnit
  rw [le_iff rfl h, le_iff h rfl, value_one, Sample.value_zero]

theorem inUnit_zero : InUnit 0.0 := by
  rw [inUnit_iff rfl, Sample.value_zero]
  exact ⟨le_rfl, zero_le_one⟩

theorem inUnit_clamp (h : x.isNaN = false) : InUnit (clamp x) := by
  unfold clamp
  split_ifs with hlow hhigh
  · exact inUnit_zero
  · rw [inUnit_iff rfl, value_one]
    exact ⟨zero_le_one, le_rfl⟩
  · rw [lt_iff h rfl, Sample.value_zero] at hlow
    rw [gt_iff_lt, lt_iff rfl h, value_one] at hhigh
    rw [inUnit_iff h]
    exact ⟨not_lt.1 hlow, not_lt.1 hhigh⟩

theorem not_inUnit_clamp (h : x.isNaN = true) : ¬ InUnit (clamp x) := by
  unfold clamp
  rw [if_neg (not_lt_of_isNaN (.inl h)), if_neg (not_lt_of_isNaN (.inr h))]
  exact fun hunit => not_le_of_isNaN (.inr h) hunit.1

/-! ## Bounds -/

/-- A bound on either side that does not lie beyond every double of the other side. -/
structure Bounds (lower upper : Float) : Prop where
  lowerNumber : lower.isNaN = false
  upperNumber : upper.isNaN = false
  low : -limit < value lower
  high : value upper < limit

/-- The distance of two bounds is a number. If it is over zero, the bounds are finite. -/
theorem Bounds.range (h : Bounds lower upper) :
    (upper - lower).isNaN = false ∧ (value (upper - lower) ≤ 0 ∨
      lower.isFinite = true ∧ upper.isFinite = true) ∧
      (value upper ≤ value lower → value (upper - lower) ≤ 0) := by
  by_cases hfinite : upper.isFinite = true ∧ lower.isFinite = true
  · have hgives := gives_sub hfinite.1 hfinite.2
    refine ⟨hgives.number, .inr hfinite.symm, fun hle => ?_⟩
    rw [hgives.value, ← rounded_zero]
    exact rounded_mono (by linarith)
  · have hparts := parts_sub_of_bounds h.upperNumber h.lowerNumber h.high h.low hfinite
    have hneg : value (upper - lower) ≤ 0 := by
      rw [value_of_infinity hparts]
      exact (neg_neg_of_pos limit_pos).le
    exact ⟨number_of_infinity hparts, .inl hneg, fun _ => hneg⟩

theorem between_of_nonpos (h : Bounds lower upper) (hrange : value (upper - lower) ≤ 0) :
    between values lower upper = List.replicate values.length 0.0 := by
  have hle : upper - lower ≤ 0.0 := by
    rw [le_iff h.range.1 rfl]
    exact hrange
  unfold between
  rw [if_pos hle]

theorem between_of_pos (h : Bounds lower upper) (hrange : 0 < value (upper - lower)) :
    between values lower upper =
      values.map (fun x => clamp ((x - lower) / (upper - lower))) := by
  have hnot : ¬ upper - lower ≤ 0.0 := by
    rw [le_iff h.range.1 rfl]
    exact not_le.2 hrange
  unfold between
  rw [if_neg hnot]

/-- A batch without spread lies at the bottom. -/
theorem between_flat (h : Bounds lower upper) (hle : value upper ≤ value lower) :
    between values lower upper = List.replicate values.length 0.0 :=
  between_of_nonpos h (h.range.2.2 hle)

theorem number_div_of_pos {r : Float} (hx : x.isNaN = false) (hr : r.isFinite = true)
    (hpos : 0 < value r) : (x / r).isNaN = false := by
  rcases finite_or_infinity hx with hfinite | ⟨s, hs⟩
  · exact (gives_div hfinite hr hpos.ne').number
  · exact number_of_infinity (parts_div_infinity hs hr hpos)

/-- If some value reaches the upper bound, the scaled values lie in the unit interval if and only
if the distance of the bounds has not overflowed. -/
theorem between_inUnit_iff (hvalues : ∀ x ∈ values, x.isFinite = true) (h : Bounds lower upper)
    (hreach : ∃ x ∈ values, value upper ≤ value x) :
    (∀ y ∈ between values lower upper, InUnit y) ↔ upper - lower < Sample.infinity := by
  obtain ⟨hnumber, hfinite, -⟩ := h.range
  rw [lt_iff hnumber rfl, value_of_infinity Sample.parts_infinity]
  change _ ↔ value (upper - lower) < limit
  rcases le_or_gt (value (upper - lower)) 0 with hrange | hrange
  · rw [between_of_nonpos h hrange]
    refine iff_of_true (fun y hy => ?_) (hrange.trans_lt limit_pos)
    rw [List.eq_of_mem_replicate hy]
    exact inUnit_zero
  · obtain ⟨hlower, hupper⟩ := hfinite.resolve_left (not_le.2 hrange)
    rw [between_of_pos h hrange, List.forall_mem_map]
    refine ⟨fun hunit => ?_, fun hlt x hx => ?_⟩
    · by_contra hlarge
      obtain ⟨x, hx, hle⟩ := hreach
      have hdistance := gives_sub (hvalues x hx) hlower
      have hspread := gives_sub hupper hlower
      have hsize : ∀ {y : Float}, limit ≤ value y → value y = limit := fun hy =>
        le_antisymm ((le_abs_self _).trans (abs_value_le _)) hy
      have hvalue : limit ≤ value (x - lower) := by
        rw [hdistance.value]
        rw [hspread.value] at hlarge
        exact (not_lt.1 hlarge).trans (rounded_mono (by linarith))
      have hparts := infinity_of_value (s := .positive) hdistance.number (hsize hvalue)
      have hparts' := infinity_of_value (s := .positive) hnumber (hsize (not_lt.1 hlarge))
      refine not_inUnit_clamp ?_ (hunit x hx)
      rw [div_of_infinities hparts hparts']
      rfl
    · have hrangeFinite : (upper - lower).isFinite = true :=
        isFinite_iff.2 ⟨hnumber, by rwa [abs_of_pos hrange]⟩
      exact inUnit_clamp (number_div_of_pos (gives_sub (hvalues x hx) hlower).number
        hrangeFinite hrange)

end TopologySync.Strategy
