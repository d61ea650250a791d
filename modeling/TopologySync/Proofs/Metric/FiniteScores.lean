-- When scaled values are finite. Values of a sample may be so far apart that a
-- difference, a sum or a square of them is too large for a double. Which of these
-- does harm depends on the strategy.
import TopologySync.Proofs.Metric.Intervals

open TopologySync.Doubles

namespace TopologySync.Strategy

variable {s : Sample} {a b c r x : Float}

/-! ## Scores -/

theorem abs_lt_of_between {p q t m : ℝ} (hlow : p ≤ q) (hhigh : q ≤ t) (hp : |p| < m)
    (ht : |t| < m) : |q| < m :=
  abs_lt.2 ⟨(abs_lt.1 hp).1.trans_le hlow, hhigh.trans_lt (abs_lt.1 ht).2⟩

/-- A difference is finite if those of two values on either side are. -/
theorem finite_sub_between (ha : (a - c).isFinite = true) (hb : (b - c).isFinite = true)
    (hx : x.isFinite = true) (hlow : value a ≤ value x) (hhigh : value x ≤ value b) :
    (x - c).isFinite = true ∧ value (a - c) ≤ value (x - c) ∧ value (x - c) ≤ value (b - c) := by
  obtain ⟨hafin, hc⟩ := finite_of_sub ha
  have hbfin := (finite_of_sub hb).1
  have hvalue := (gives_sub hx hc).value
  have hleft : value (a - c) ≤ value (x - c) := by
    rw [hvalue, (gives_sub hafin hc).value]
    exact rounded_mono (by linarith)
  have hright : value (x - c) ≤ value (b - c) := by
    rw [hvalue, (gives_sub hbfin hc).value]
    exact rounded_mono (by linarith)
  exact ⟨isFinite_iff.2 ⟨(gives_sub hx hc).number, abs_lt_of_between hleft hright
    (isFinite_iff.1 ha).2 (isFinite_iff.1 hb).2⟩, hleft, hright⟩

/-- A quotient is finite if those of two values on either side are. -/
theorem finite_div_between (ha : (a / r).isFinite = true) (hb : (b / r).isFinite = true)
    (hr : (r == 0.0) = false) (hx : x.isFinite = true) (hlow : value a ≤ value x)
    (hhigh : value x ≤ value b) : (x / r).isFinite = true := by
  obtain ⟨hafin, hnumber⟩ := finite_of_div ha
  have hbfin := (finite_of_div hb).1
  rcases finite_or_infinity hnumber with hrfin | ⟨t, ht⟩
  · have hzero : value r ≠ 0 := by
      intro heq
      rw [← Sample.value_zero, ← beq_iff hnumber rfl, hr] at heq
      cases heq
    have hgives := gives_div hx hrfin hzero
    have hga := (gives_div hafin hrfin hzero).value
    have hgb := (gives_div hbfin hrfin hzero).value
    have hla := (isFinite_iff.1 ha).2
    have hlb := (isFinite_iff.1 hb).2
    rw [hga] at hla
    rw [hgb] at hlb
    refine hgives.isFinite ?_
    rcases hzero.lt_or_gt with hneg | hpos
    · exact abs_lt_of_between (rounded_mono (div_le_div_of_nonpos_of_le hneg.le hhigh))
        (rounded_mono (div_le_div_of_nonpos_of_le hneg.le hlow)) hlb hla
    · exact abs_lt_of_between (rounded_mono (div_le_div_of_nonneg_right hlow hpos.le))
        (rounded_mono (div_le_div_of_nonneg_right hhigh hpos.le)) hla hlb
  · exact (gives_div_infinity hx ht).zero.1

/-- All values of a sample have finite scores if and only if the extremes do. -/
theorem scores_finite_iff (s : Sample) (hr : (r == 0.0) = false) :
    (∀ y ∈ s.values.map (fun x => (x - c) / r), y.isFinite = true) ↔
      ((s.min - c) / r).isFinite = true ∧ ((s.max - c) / r).isFinite = true := by
  rw [List.forall_mem_map]
  refine ⟨fun h => ⟨h _ s.min_mem, h _ s.max_mem⟩, fun ⟨hmin, hmax⟩ x hx => ?_⟩
  obtain ⟨hfinite, hlow, hhigh⟩ := finite_sub_between (finite_of_div hmin).1
    (finite_of_div hmax).1 (s.isFinite_of_mem hx) (s.min_le hx) (s.le_max hx)
  exact finite_div_between hmin hmax hr hfinite hlow hhigh

/-! ## Standard scores -/

/-- A quotient is finite if the divisor is not too small for the dividend. -/
theorem finite_div_of_le (ha : a.isFinite = true) (hr : r.isFinite = true) (hpos : 0 < value r)
    (hle : |value a| ≤ 2 ^ (1023 : ℤ) * value r) : (a / r).isFinite = true := by
  have hquotient : |value a / value r| ≤ 2 ^ (1023 : ℤ) := by
    rw [abs_div, abs_of_pos hpos]
    exact (div_le_iff₀ hpos).2 hle
  exact (gives_div ha hr hpos.ne').isFinite_of_le (by norm_num) (by norm_num) hquotient

theorem two_zpow_le_sqrt {k : ℤ} (hk : -537 ≤ k) (hk' : k ≤ 1024) (ha : a.isFinite = true)
    (h : 2 ^ (k + k) ≤ value a) : 2 ^ k ≤ value a.sqrt := by
  rw [(gives_sqrt ha ((two_zpow_pos _).le.trans h)).value]
  refine two_zpow_le_rounded (by omega) hk' (Real.le_sqrt_of_sq_le ?_)
  rwa [sq, ← two_zpow_add]

theorem sqrt_le_two_zpow {k : ℤ} (hk : -1074 ≤ k) (hk' : k ≤ 1024) (ha : a.isFinite = true)
    (hnonneg : 0 ≤ value a) (h : value a ≤ 2 ^ (k + k)) : value a.sqrt ≤ 2 ^ k := by
  rw [(gives_sqrt ha hnonneg).value]
  refine rounded_le_two_zpow hk hk' (Real.sqrt_le_iff.2 ⟨(two_zpow_pos k).le, ?_⟩)
  rwa [sq, ← two_zpow_add]

/-- No root but that of zero is rounded to zero. -/
theorem sqrt_eq_zero_iff (ha : a.isNaN = false) (hnonneg : 0 ≤ value a) :
    (a.sqrt == 0.0) = true ↔ value a = 0 := by
  rcases finite_or_infinity ha with hfinite | ⟨t, ht⟩
  · have hroot := gives_sqrt hfinite hnonneg
    rw [beq_iff hroot.number rfl, Sample.value_zero]
    refine ⟨fun hzero => ?_, fun hzero => ?_⟩
    · by_contra hne
      have hpos : 2 ^ (-537 : ℤ) ≤ value a.sqrt :=
        two_zpow_le_sqrt (by norm_num) (by norm_num) hfinite
          (two_zpow_le_value (hnonneg.lt_of_ne' hne))
      rw [hzero] at hpos
      exact absurd hpos (not_le.2 (two_zpow_pos _))
    · rw [hroot.value, hzero, Real.sqrt_zero, rounded_zero]
  · obtain rfl := positive_of_nonneg ht hnonneg
    have hroot := parts_sqrt_infinity ht
    rw [beq_iff (number_of_infinity hroot) rfl, value_of_infinity hroot, value_of_infinity ht]
    rfl

section Deviation

variable (s) (hsize : s.size.isFinite = true)
  (hdeviations : ∀ x ∈ s.values, (x - s.mean).isFinite = true)

/-- The squares of the deviations from the mean. -/
def squares : List Float :=
  s.values.map (fun x => (x - s.mean) * (x - s.mean))

/-- The mean of the squares. -/
def variance : Float :=
  Sample.total (squares s) / s.size

theorem standardDeviation_eq : s.standardDeviation = (variance s).sqrt :=
  rfl

include hdeviations

theorem squares_nonneg : Sample.Nonneg (squares s) := by
  intro y hy
  obtain ⟨x, hx, rfl⟩ := List.mem_map.1 hy
  exact square_nonneg (number_of_finite (hdeviations x hx))

theorem rounded_square_le (hx : x ∈ s.values) :
    rounded (value (x - s.mean) * value (x - s.mean)) ≤ value (Sample.total (squares s)) := by
  have hfinite := hdeviations x hx
  rw [← (gives_mul hfinite hfinite).value]
  exact (Sample.total_nonneg (squares_nonneg s hdeviations)).2.2 _
    (List.mem_map_of_mem hx)

/-- A deviation whose square is too large for a double takes the total along. -/
theorem abs_deviation_lt (htotal : (Sample.total (squares s)).isFinite = true)
    (hx : x ∈ s.values) : |value (x - s.mean)| < 2 ^ (512 : ℤ) := by
  have hle := rounded_square_le s hdeviations hx
  have hlt := (abs_lt.1 (isFinite_iff.1 htotal).2).2
  by_contra hlarge
  have hsquare : limit ≤ value (x - s.mean) * value (x - s.mean) := by
    rw [← abs_mul_abs_self]
    calc limit = 2 ^ (512 : ℤ) * 2 ^ (512 : ℤ) := two_zpow_add 512 512
      _ ≤ _ := mul_self_le_mul_self (two_zpow_pos _).le (not_lt.1 hlarge)
  rw [rounded_of_limit_le hsquare] at hle
  linarith

/-- A large deviation makes the standard deviation a large one, whatever the size. -/
theorem le_variance (hvalue : value (variance s) =
      rounded (value (Sample.total (squares s)) / value s.size))
    (hx : x ∈ s.values) (hlarge : 2 ^ (480 : ℤ) ≤ |value (x - s.mean)|) :
    2 ^ (-64 : ℤ) ≤ value (variance s) := by
  have hsquare : 2 ^ (960 : ℤ) ≤ value (x - s.mean) * value (x - s.mean) := by
    rw [← abs_mul_abs_self]
    calc (2 : ℝ) ^ (960 : ℤ) = 2 ^ (480 : ℤ) * 2 ^ (480 : ℤ) := two_zpow_add 480 480
      _ ≤ _ := mul_self_le_mul_self (two_zpow_pos _).le hlarge
  have htotal : 2 ^ (960 : ℤ) ≤ value (Sample.total (squares s)) :=
    (two_zpow_le_rounded (by norm_num) (by norm_num) hsquare).trans
      (rounded_square_le s hdeviations hx)
  have hpos : 0 < value s.size := one_pos.trans_le s.one_le_size
  rw [hvalue]
  apply two_zpow_le_rounded (by norm_num) (by norm_num)
  calc (2 : ℝ) ^ (-64 : ℤ) = 2 ^ (960 : ℤ) / limit := (zpow_sub₀ two_ne_zero 960 1024)
    _ ≤ _ := div_le_div₀ ((two_zpow_pos _).le.trans htotal) htotal hpos
      ((le_abs_self _).trans (abs_value_le _))

include hsize

theorem variance_cases :
    parts (variance s) = .infinity .positive ∨
      (Sample.total (squares s)).isFinite = true ∧ (variance s).isFinite = true ∧
        value (variance s) = rounded (value (Sample.total (squares s)) / value s.size) := by
  obtain ⟨hnumber, hnonneg, -⟩ := Sample.total_nonneg (squares_nonneg s hdeviations)
  have hpos : 0 < value s.size := one_pos.trans_le s.one_le_size
  rcases finite_or_infinity hnumber with hfinite | ⟨t, ht⟩
  · exact .inr ⟨hfinite, finite_div_of_one_le hfinite hsize s.one_le_size,
      (gives_div hfinite hsize hpos.ne').value⟩
  · obtain rfl := positive_of_nonneg ht hnonneg
    exact .inl (parts_div_infinity ht hsize hpos)

/-- No value is further from the mean than a double can tell, in standard deviations. -/
theorem finite_standard_score (hzero : (s.standardDeviation == 0.0) = false) (hx : x ∈ s.values) :
    ((x - s.mean) / s.standardDeviation).isFinite = true := by
  have hfinite := hdeviations x hx
  have hnone : ∀ {t}, parts (variance s).sqrt = .infinity t →
      ((x - s.mean) / (variance s).sqrt).isFinite = true := fun ht =>
    (gives_div_infinity hfinite ht).zero.1
  rw [standardDeviation_eq] at hzero ⊢
  rcases variance_cases s hsize hdeviations with hinf | ⟨htotal, hvfin, hvalue⟩
  · exact hnone (parts_sqrt_infinity hinf)
  have hnonneg : 0 ≤ value (variance s) := by
    rw [hvalue]
    exact rounded_nonneg (div_nonneg (Sample.total_nonneg (squares_nonneg s hdeviations)).2.1
      (zero_le_one.trans s.one_le_size))
  have hpos : 0 < value (variance s) := by
    refine hnonneg.lt_of_ne' fun heq => ?_
    rw [(sqrt_eq_zero_iff (number_of_finite hvfin) hnonneg).2 heq] at hzero
    cases hzero
  rcases finite_or_infinity (gives_sqrt hvfin hnonneg).number with hrfin | ⟨t, ht⟩
  · have htiny : 2 ^ (-537 : ℤ) ≤ value (variance s).sqrt :=
      two_zpow_le_sqrt (by norm_num) (by norm_num) hvfin (two_zpow_le_value hpos)
    refine finite_div_of_le hfinite hrfin ((two_zpow_pos _).trans_le htiny) ?_
    rcases le_total |value (x - s.mean)| (2 ^ (480 : ℤ)) with hsmall | hlarge
    · calc |value (x - s.mean)| ≤ 2 ^ (1023 + -537 : ℤ) :=
            hsmall.trans (zpow_le_zpow_right₀ one_le_two (by norm_num))
        _ = 2 ^ (1023 : ℤ) * 2 ^ (-537 : ℤ) := two_zpow_add 1023 (-537)
        _ ≤ _ := mul_le_mul_of_nonneg_left htiny (two_zpow_pos _).le
    · have hdeviation : 2 ^ (-32 : ℤ) ≤ value (variance s).sqrt :=
        two_zpow_le_sqrt (by norm_num) (by norm_num) hvfin
          (le_variance s hdeviations hvalue hx hlarge)
      calc |value (x - s.mean)| ≤ 2 ^ (1023 + -32 : ℤ) :=
            (abs_deviation_lt s hdeviations htotal hx).le.trans
              (zpow_le_zpow_right₀ one_le_two (by norm_num))
        _ = 2 ^ (1023 : ℤ) * 2 ^ (-32 : ℤ) := two_zpow_add 1023 (-32)
        _ ≤ _ := mul_le_mul_of_nonneg_left hdeviation (two_zpow_pos _).le
  · exact hnone ht

end Deviation

/-- A sample without end has no standard deviation to speak of. -/
theorem size_finite (h : s.standardDeviation.isNaN = false)
    (hzero : (s.standardDeviation == 0.0) = false) : s.size.isFinite = true := by
  refine (finite_or_infinity s.gives_size.number).resolve_right fun ⟨t, ht⟩ => ?_
  have hinfinite := not_finite_of_infinity ht
  obtain ⟨-, -, hfinite⟩ := number_of_div (number_of_sqrt h)
  rw [hinfinite] at hfinite
  have hvariance : Gives (variance s) 0 :=
    gives_div_infinity (hfinite.resolve_right Bool.false_ne_true) ht
  obtain ⟨-, hvalue⟩ := hvariance.zero
  rw [standardDeviation_eq, (sqrt_eq_zero_iff hvariance.number hvalue.ge).2 hvalue] at hzero
  cases hzero

/-- The standard scores of a sample are finite if and only if its size is, and the deviations of
its extremes. -/
theorem standard_scores_finite_iff (s : Sample) (hzero : (s.standardDeviation == 0.0) = false) :
    (∀ y ∈ s.values.map (fun x => (x - s.mean) / s.standardDeviation), y.isFinite = true) ↔
      s.size.isFinite = true ∧ (s.min - s.mean).isFinite = true ∧
        (s.max - s.mean).isFinite = true := by
  rw [List.forall_mem_map]
  refine ⟨fun h => ?_, fun ⟨hsize, hmin, hmax⟩ x hx => ?_⟩
  · obtain ⟨hmin, hnumber⟩ := finite_of_div (h _ s.min_mem)
    exact ⟨size_finite hnumber hzero, hmin, (finite_of_div (h _ s.max_mem)).1⟩
  · refine finite_standard_score s hsize (fun y hy => ?_) hzero hx
    exact (finite_sub_between hmin hmax (s.isFinite_of_mem hy) (s.min_le hy) (s.le_max hy)).1

/-! ## Samples -/

theorem scale_values (strategy : Strategy) (s : Sample) :
    strategy.scale s.values = strategy.scaleSample s := by
  unfold scale
  rw [s.ofList_values]
  rfl

/-- The outer fences, pushed in to the extremes if they lie further out. -/
def fences (s : Sample) : Float × Float :=
  let q := s.quartiles
  (Sample.greater (q.q1 - fence * q.range) s.min, Sample.lesser (q.q3 + fence * q.range) s.max)

theorem bounds_extremes (s : Sample) : Bounds s.min s.max :=
  ⟨s.number_of_mem _ s.min_mem, s.number_of_mem _ s.max_mem,
    (abs_lt.1 (s.abs_value_lt s.min_mem)).1, (abs_lt.1 (s.abs_value_lt s.max_mem)).2⟩

theorem bounds_fences (s : Sample) :
    Bounds (fences s).1 (fences s).2 ∧ value s.min ≤ value (fences s).1 ∧
      value (fences s).2 ≤ value s.max := by
  obtain ⟨hmin, hmax, hlow, hhigh⟩ := bounds_extremes s
  obtain ⟨hlower, hle⟩ := Sample.le_greater (s.quartiles.q1 - fence * s.quartiles.range) hmin
  obtain ⟨hupper, hge⟩ := Sample.lesser_le (s.quartiles.q3 + fence * s.quartiles.range) hmax
  exact ⟨⟨hlower, hupper, hlow.trans_le hle, hge.trans_lt hhigh⟩, hle, hge⟩

/-- Values scaled between two bounds lie in the unit interval if and only if the distance of the
bounds is a double. The standard scores are finite if and only if the number of values and the
deviations of the extremes are, and the robust scores if and only if those of the extremes are. -/
theorem scaled_samples_are_finite_unless_they_overflow (s : Sample) :
    (∃ ys, minMax.scale s.values = .ok ys ∧ ys.length = s.values.length ∧
      ((∀ y ∈ ys, InUnit y) ↔ s.max - s.min < Sample.infinity)) ∧
    (∃ ys, iqrMinMax.scale s.values = .ok ys ∧ ys.length = s.values.length ∧
      ((∀ y ∈ ys, InUnit y) ↔ (fences s).2 - (fences s).1 < Sample.infinity)) ∧
    (∀ ys, zScore.scale s.values = .ok ys →
      ((∀ y ∈ ys, y.isFinite) ↔
        s.size.isFinite ∧ (s.min - s.mean).isFinite ∧ (s.max - s.mean).isFinite)) ∧
    (s.values.length ≤ 2 ^ 1023 → s.size.isFinite) ∧
    (∀ ys, robust.scale s.values = .ok ys →
      ((∀ y ∈ ys, y.isFinite) ↔
        ((s.min - s.quartiles.q2) / s.quartiles.range).isFinite ∧
          ((s.max - s.quartiles.q2) / s.quartiles.range).isFinite)) := by
  have hfinite : ∀ x ∈ s.values, x.isFinite = true := fun _ => s.isFinite_of_mem
  simp only [scale_values]
  refine ⟨⟨_, rfl, between_length _ _ _, ?_⟩, ⟨_, rfl, between_length _ _ _, ?_⟩, ?_,
    isFinite_ofNat, ?_⟩
  · exact between_inUnit_iff hfinite (bounds_extremes s) ⟨s.max, s.max_mem, le_rfl⟩
  · obtain ⟨hbounds, -, hle⟩ := bounds_fences s
    exact between_inUnit_iff hfinite hbounds ⟨s.max, s.max_mem, hle⟩
  · intro ys hys
    unfold scaleSample at hys
    dsimp only at hys
    split_ifs at hys with hzero
    cases hys
    exact standard_scores_finite_iff s (Bool.eq_false_iff.2 hzero)
  · intro ys hys
    unfold scaleSample at hys
    dsimp only at hys
    split_ifs at hys with hzero
    cases hys
    exact scores_finite_iff s (Bool.eq_false_iff.2 hzero)

/-- Two values so far apart that their distance overflows: the larger one is scaled to what is no
number. -/
theorem a_wide_range_is_scaled_to_no_number :
    minMax.scale [-1e308, 1e308] = .ok [0.0, 0.0 / 0.0] ∧ ¬ InUnit (0.0 / 0.0) := by
  refine ⟨by decide +kernel, fun h => ?_⟩
  exact not_le_of_isNaN (.inl rfl) h.2

end TopologySync.Strategy
