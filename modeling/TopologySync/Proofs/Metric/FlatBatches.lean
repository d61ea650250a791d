-- Batches of one value. They have no spread, but the standard deviation may come out
-- over zero, where the mean of a value with itself is rounded away from the value, and
-- the interquartile range as no number, where a value and itself are too large a sum.
import TopologySync.Proofs.Metric.Residues

open TopologySync.Doubles

namespace TopologySync.Strategy

variable {x y : Float} {n k : ℕ}

/-- A sample of one value, as often as is told. -/
def flat (n : ℕ) (x : Float) (hn : 1 ≤ n) (hx : x.isFinite = true) : Sample where
  values := List.replicate n x
  nonempty := by
    rw [ne_eq, List.replicate_eq_nil_iff]
    omega
  finite := by
    rw [List.find?_eq_none]
    intro y hy
    rw [List.eq_of_mem_replicate hy, hx]
    exact Bool.false_ne_true

section Flat

variable (hn : 1 ≤ n) (hx : x.isFinite = true)

theorem length_flat : (flat n x hn hx).values.length = n :=
  List.length_replicate

theorem min_flat : (flat n x hn hx).min = x :=
  List.eq_of_mem_replicate (flat n x hn hx).min_mem

theorem max_flat : (flat n x hn hx).max = x :=
  List.eq_of_mem_replicate (flat n x hn hx).max_mem

theorem minMax_flat :
    minMax.scaleSample (flat n x hn hx) = .ok (List.replicate n 0.0) := by
  have hle : value (flat n x hn hx).max ≤ value (flat n x hn hx).min := by
    rw [min_flat, max_flat]
  unfold scaleSample
  dsimp only
  rw [between_flat (bounds_extremes _) hle, length_flat]

theorem iqrMinMax_flat :
    iqrMinMax.scaleSample (flat n x hn hx) = .ok (List.replicate n 0.0) := by
  obtain ⟨hbounds, hlow, hhigh⟩ := bounds_fences (flat n x hn hx)
  rw [min_flat] at hlow
  rw [max_flat] at hhigh
  change Except.ok (between _ (fences (flat n x hn hx)).1 (fences (flat n x hn hx)).2) = _
  rw [between_flat hbounds (hhigh.trans hlow), length_flat]

/-! ## The interquartile range -/

theorem sort_flat : Sample.sort (List.replicate n x) = List.replicate n x :=
  List.perm_replicate.1 (Sample.sort_perm _)

theorem middle_flat {values : List Float} (h : 0 < values.length)
    (hflat : values = List.replicate k x) :
    Sample.middle values h = if k % 2 = 0 then (x + x) / 2.0 else x := by
  subst hflat
  unfold Sample.middle
  simp only [List.getElem_replicate, List.length_replicate]

/-- The outer quartiles are the value itself, or half of its double. -/
theorem hinges_flat {values : List Float} (h : 0 < values.length)
    (hflat : values = List.replicate n x) :
    (Sample.hinges values h).q1 = (Sample.hinges values h).q3 ∧
      (Sample.hinges values h).q1 = if n = 1 ∨ n / 2 % 2 = 1 then x else (x + x) / 2.0 := by
  have hlength : values.length = n := by rw [hflat, List.length_replicate]
  have hlower : Sample.lowerHalf values = List.replicate (n / 2) x := by
    unfold Sample.lowerHalf
    rw [hlength, hflat, List.take_replicate, Nat.min_eq_left (Nat.div_le_self n 2)]
  have hupper : Sample.upperHalf values = List.replicate (n / 2) x := by
    unfold Sample.upperHalf
    rw [hlength, hflat, List.drop_replicate]
    congr 1
    omega
  unfold Sample.hinges
  split_ifs with hsingle hcase hcase
  · subst hflat
    exact ⟨rfl, List.getElem_replicate _⟩
  · omega
  · dsimp only
    rw [middle_flat _ hlower, middle_flat _ hupper, if_neg (by omega)]
    exact ⟨rfl, rfl⟩
  · dsimp only
    rw [middle_flat _ hlower, middle_flat _ hupper, if_pos (by omega)]
    exact ⟨rfl, rfl⟩

theorem value_two : value 2.0 = 2 := by
  have hparts : value 2.0 = (2 ^ 52 : ℕ) * 2 ^ (-51 : ℤ) := rfl
  rw [hparts, natCast_two_pow, ← two_zpow_add]
  exact zpow_one 2

theorem finite_half : (y / 2.0).isFinite = true ↔ y.isFinite = true := by
  refine ⟨fun hhalf => (finite_of_div hhalf).1, fun hfinite => ?_⟩
  refine finite_div_of_one_le hfinite rfl ?_
  rw [value_two]
  exact one_le_two

theorem sub_self_of_finite (hy : y.isFinite = true) : (y - y == 0.0) = true := by
  have hgives := gives_sub hy hy
  rw [sub_self] at hgives
  exact hgives.beq_zero

theorem sub_self_of_infinite (hy : y.isNaN = false) (h : ¬ y.isFinite = true) :
    (y - y).isNaN = true := by
  obtain ⟨s, hs⟩ := (finite_or_infinity hy).resolve_left h
  exact isNaN_sub_infinities hs hs

/-- A flat batch has no robust scores, or scores that are no numbers if the quartiles are halves
of a double that overflowed. -/
theorem robust_flat :
    robust.scaleSample (flat n x hn hx) =
      if n = 1 ∨ n / 2 % 2 = 1 ∨ (x + x).isFinite then .error (.degenerate .interquartileRange)
      else .ok (List.replicate n (0.0 / 0.0)) := by
  obtain ⟨hsame, hq1⟩ := hinges_flat (flat n x hn hx).sort_length_pos sort_flat
  replace hq1 : (flat n x hn hx).quartiles.q1 = _ := hq1
  have hrange : (flat n x hn hx).quartiles.range =
      (flat n x hn hx).quartiles.q1 - (flat n x hn hx).quartiles.q1 :=
    congrArg (· - (flat n x hn hx).quartiles.q1) hsame.symm
  have hdouble := (gives_add hx hx).number
  have hhalf : ((x + x) / 2.0).isNaN = false :=
    number_div_of_pos hdouble rfl (by rw [value_two]; exact two_pos)
  unfold scaleSample
  dsimp only
  rw [hrange, hq1]
  by_cases hone : n = 1 ∨ n / 2 % 2 = 1
  · rw [if_pos hone, if_pos (sub_self_of_finite hx), if_pos (hone.imp_right .inl)]
  · rw [if_neg hone]
    by_cases hfinite : (x + x).isFinite = true
    · rw [if_pos (sub_self_of_finite (finite_half.2 hfinite)),
        if_pos (.inr (.inr hfinite))]
    · have hnan := sub_self_of_infinite hhalf (mt finite_half.1 hfinite)
      rw [beq_of_isNaN (.inl hnan), if_neg Bool.false_ne_true,
        if_neg (by rw [← or_assoc]; exact not_or.2 ⟨hone, hfinite⟩)]
      refine congrArg Except.ok ?_
      rw [show (flat n x hn hx).values = List.replicate n x from rfl, List.map_replicate,
        div_of_isNaN (.inr hnan)]
      rfl

/-! ## The standard deviation -/

theorem size_flat : (flat n x hn hx).size = Float.ofNat n :=
  congrArg Float.ofNat (length_flat hn hx)

theorem sub_mean_flat : x - (flat n x hn hx).mean = residue n x := by
  unfold Sample.mean
  rw [size_flat]
  rfl

theorem standardDeviation_flat : (flat n x hn hx).standardDeviation = spread n (residue n x) := by
  unfold Sample.standardDeviation
  dsimp only
  rw [size_flat, show (flat n x hn hx).values = List.replicate n x from rfl, List.map_replicate,
    sub_mean_flat]
  rfl

theorem zScore_flat :
    zScore.scaleSample (flat n x hn hx) =
      if spread n (residue n x) == 0.0 then .error (.degenerate .standardDeviation)
      else .ok (List.replicate n (residue n x / spread n (residue n x))) := by
  unfold scaleSample
  dsimp only
  rw [standardDeviation_flat, show (flat n x hn hx).values = List.replicate n x from rfl,
    List.map_replicate, sub_mean_flat]

end Flat

/-! ## Batches -/

/-- A batch of one value is scaled to zeros between its bounds. It has no robust scores unless an
average for a quartile overflows, and no standard scores if its mean is the value, or so close that
the square of what is left is zero. If it is not, all have one score: zero, about one, or none. -/
theorem a_flat_batch_is_rejected_unless_its_mean_is_rounded (hn : 1 ≤ n) (hx : x.isFinite = true) :
    minMax.scale (List.replicate n x) = .ok (List.replicate n 0.0) ∧
    iqrMinMax.scale (List.replicate n x) = .ok (List.replicate n 0.0) ∧
    robust.scale (List.replicate n x) =
      (if n = 1 ∨ n / 2 % 2 = 1 ∨ (x + x).isFinite then .error (.degenerate .interquartileRange)
      else .ok (List.replicate n (0.0 / 0.0))) ∧
    ((residue n x * residue n x == 0.0) = true →
      zScore.scale (List.replicate n x) = .error (.degenerate .standardDeviation)) ∧
    (∀ k e : ℤ, value x = k * 2 ^ e → -1074 ≤ e → n * |k| ≤ 2 ^ 53 → n * |value x| < limit →
      (residue n x * residue n x == 0.0) = true) ∧
    (n ≤ 2 ^ 53 → (residue n x * residue n x == 0.0) = false →
      ∃ y, zScore.scale (List.replicate n x) = .ok (List.replicate n y) ∧
        (y.isNaN = true ∨ (y == 0.0) = true ∨ 1 / 2 ≤ |value y| ∧ |value y| ≤ 2)) := by
  have hscale : ∀ strategy : Strategy,
      strategy.scale (List.replicate n x) = strategy.scaleSample (flat n x hn hx) :=
    fun strategy => scale_values strategy (flat n x hn hx)
  simp only [hscale]
  refine ⟨minMax_flat hn hx, iqrMinMax_flat hn hx, robust_flat hn hx, fun hzero => ?_,
    fun k e hvalue he hfew hlimit => square_of_zero
      (residue_of_few_digits hn hx hvalue he hfew hlimit), fun hfew hzero => ?_⟩
  · rw [zScore_flat, if_pos (spread_of_zero hn hzero)]
  · obtain ⟨hspread, hscore⟩ := spread_score hn hfew (residue_number hn hfew hx) hzero
    refine ⟨_, ?_, hscore⟩
    rw [zScore_flat, hspread, if_neg Bool.false_ne_true]

/-- Three tenths have a standard score each, and two ones have none. -/
theorem tenths_have_a_standard_score_and_ones_have_none :
    (∃ y, zScore.scale (List.replicate 3 0.1) = .ok (List.replicate 3 y) ∧
      (y.isNaN = true ∨ (y == 0.0) = true ∨ 1 / 2 ≤ |value y| ∧ |value y| ≤ 2)) ∧
    zScore.scale (List.replicate 2 1.0) = .error (.degenerate .standardDeviation) := by
  obtain ⟨-, -, -, -, -, htenths⟩ :=
    a_flat_batch_is_rejected_unless_its_mean_is_rounded (x := 0.1) (show 1 ≤ 3 by norm_num) rfl
  obtain ⟨-, -, -, hreject, hdigits, -⟩ :=
    a_flat_batch_is_rejected_unless_its_mean_is_rounded (x := 1.0) (show 1 ≤ 2 by norm_num) rfl
  have hone : value 1.0 = (1 : ℤ) * 2 ^ (0 : ℤ) := by
    rw [value_one, zpow_zero, Int.cast_one, mul_one]
  have hlimit : (2 : ℕ) * |value 1.0| < limit := by
    rw [value_one, abs_one, mul_one, Nat.cast_ofNat]
    exact (zpow_one (2 : ℝ)).symm.trans_lt (zpow_lt_zpow_right₀ one_lt_two (by norm_num))
  exact ⟨htenths (by norm_num) (by decide +kernel),
    hreject (hdigits 1 0 hone (by norm_num) (by norm_num) hlimit)⟩

/-- The mean of three tenths is above a tenth, so that each of them lies one standard deviation
below it. Four large values have a range that is no number. -/
theorem some_flat_batches_are_scored :
    zScore.scale [0.1, 0.1, 0.1] = .ok [-1.0, -1.0, -1.0] ∧
      robust.scale [1e308, 1e308, 1e308, 1e308] =
        .ok [0.0 / 0.0, 0.0 / 0.0, 0.0 / 0.0, 0.0 / 0.0] := by
  decide +kernel

end TopologySync.Strategy
