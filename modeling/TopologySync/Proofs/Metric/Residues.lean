-- The standard score of one value told many times. The mean of a value with itself may
-- be rounded away from it. What is left between the two is the deviation of every
-- value, and the standard deviation is about as large.
import TopologySync.Proofs.Metric.FiniteScores

open TopologySync.Doubles

namespace TopologySync.Strategy

variable {x y d : Float} {n : ℕ} {k e p : ℤ}

/-! ## Totals of one value -/

theorem total_snoc (values : List Float) (y : Float) :
    Sample.total (values ++ [y]) = Sample.total values + y :=
  List.foldl_append

theorem total_number {values : List Float} (h : ∀ x ∈ values, x.isFinite = true) :
    (Sample.total values).isNaN = false := by
  induction values using List.reverseRecOn with
  | nil => rfl
  | append_singleton values y ih =>
    rw [List.forall_mem_append, List.forall_mem_singleton] at h
    rw [total_snoc]
    exact number_add (ih h.1) h.2

/-- A value is summed exactly as long as the sum has no more digits than a mantissa. -/
theorem total_exact (hx : x.isFinite = true) (hvalue : value x = k * 2 ^ e) (he : -1074 ≤ e)
    (hfew : n * |k| ≤ 2 ^ 53) (hlimit : n * |value x| < limit) :
    (Sample.total (List.replicate n x)).isFinite = true ∧
      value (Sample.total (List.replicate n x)) = n * value x := by
  induction n with
  | zero =>
    rw [Nat.cast_zero, zero_mul]
    exact ⟨by rw [List.replicate_zero]; rfl, Sample.value_neg_zero⟩
  | succ n ih =>
    have hfewer : n * |k| ≤ 2 ^ 53 := by
      push_cast at hfew
      linarith [abs_nonneg k]
    have hless : n * |value x| < limit := by
      push_cast at hlimit
      linarith [abs_nonneg (value x)]
    obtain ⟨hfinite, htotal⟩ := ih hfewer hless
    have hgives := gives_add hfinite hx
    rw [show value (Sample.total (List.replicate n x)) + value x = (n + 1 : ℕ) * value x by
      rw [htotal, Nat.cast_succ, add_mul, one_mul]] at hgives
    have hsteps : Steps ((n + 1 : ℕ) * value x) ((n + 1 : ℕ) * k) e := by
      refine ⟨by rwa [abs_mul, Nat.abs_cast], he, ?_⟩
      rw [hvalue, Int.cast_mul, Int.cast_natCast, mul_assoc]
    rw [List.replicate_succ', total_snoc]
    exact hgives.exact hsteps (by rwa [abs_mul, Nat.abs_cast])

theorem nonneg_replicate (n : ℕ) (hy : y.isNaN = false) (hypos : 0 ≤ value y) :
    Sample.Nonneg (List.replicate n y) := fun z hz => by
  rw [List.eq_of_mem_replicate hz]
  exact ⟨hy, hypos⟩

/-- However a value is rounded when it is added to itself, the sum stays between those of the
powers of two next to the value, unless it overflows. -/
theorem total_bounds (hy : y.isNaN = false) (hp : -1074 ≤ p) (hlow : 2 ^ p ≤ value y)
    (hhigh : value y ≤ 2 ^ (p + 1)) (hn : n ≤ 2 ^ 53) :
    min ((n : ℝ) * 2 ^ p) limit ≤ value (Sample.total (List.replicate n y)) ∧
      value (Sample.total (List.replicate n y)) ≤ (n : ℝ) * 2 ^ (p + 1) := by
  have hypos : 0 ≤ value y := (two_zpow_pos p).le.trans hlow
  induction n with
  | zero =>
    rw [Nat.cast_zero, zero_mul, zero_mul, min_eq_left limit_pos.le]
    exact ⟨Sample.value_neg_zero.ge, Sample.value_neg_zero.le⟩
  | succ n ih =>
    obtain ⟨hge, hle⟩ := ih (by omega)
    obtain ⟨hnumber, hnonneg, -⟩ := Sample.total_nonneg (nonneg_replicate n hy hypos)
    have hnext : ((n + 1 : ℕ) : ℝ) = n + 1 := Nat.cast_succ n
    rw [List.replicate_succ', total_snoc, (gives_add_nonneg hnumber hnonneg hy hypos).value]
    -- Both sums are whole steps of their power of two, so that rounding passes neither.
    constructor
    · have hsteps := steps_mul_two_zpow hn hp
      rw [← hsteps.rounded_min (magnitude_pos n.succ_pos p).le]
      refine rounded_mono ?_
      calc min (((n + 1 : ℕ) : ℝ) * 2 ^ p) limit
          ≤ min ((n : ℝ) * 2 ^ p + 2 ^ p) (limit + 2 ^ p) := by
            rw [hnext, add_mul, one_mul]
            exact min_le_min_left _ (le_add_of_nonneg_right (two_zpow_pos p).le)
        _ = min ((n : ℝ) * 2 ^ p) limit + 2 ^ p := min_add_add_right _ _ _
        _ ≤ _ := add_le_add hge hlow
    · have hsteps := steps_mul_two_zpow hn (hp.trans (Int.le_add_one le_rfl))
      have hpos := (magnitude_pos n.succ_pos (p + 1)).le
      refine le_trans (rounded_mono ?_) ((hsteps.rounded hpos).trans_le (min_le_left _ _))
      rw [hnext, add_mul, one_mul]
      exact add_le_add hle hhigh

/-! ## Residues -/

/-- What is left of a value when its mean with itself is taken away, as often as is told. -/
def residue (n : ℕ) (x : Float) : Float :=
  x - Sample.total (List.replicate n x) / Float.ofNat n

theorem residue_number (hn : 1 ≤ n) (hfew : n ≤ 2 ^ 53) (hx : x.isFinite = true) :
    (residue n x).isNaN = false := by
  have htotal : (Sample.total (List.replicate n x)).isNaN = false :=
    total_number fun y hy => by rwa [List.eq_of_mem_replicate hy]
  have hmean := number_div_of_pos htotal ((gives_ofNat n).count hfew).1
    (one_pos.trans_le (one_le_ofNat hn))
  exact number_sub hx hmean

/-- A value leaves nothing as long as its sum has no more digits than a mantissa. -/
theorem residue_of_few_digits (hn : 1 ≤ n) (hx : x.isFinite = true) (hvalue : value x = k * 2 ^ e)
    (he : -1074 ≤ e) (hfew : n * |k| ≤ 2 ^ 53) (hlimit : n * |value x| < limit) :
    Gives (residue n x) 0 := by
  obtain ⟨htotal, hsum⟩ := total_exact hx hvalue he hfew hlimit
  have hne : value (Float.ofNat n) ≠ 0 := (one_pos.trans_le (one_le_ofNat hn)).ne'
  have hsize := gives_ofNat n
  have hmean : Gives (Sample.total (List.replicate n x) / Float.ofNat n) (value x) := by
    rcases eq_or_ne k 0 with rfl | hk
    · rw [Int.cast_zero, zero_mul] at hvalue
      rw [hvalue, mul_zero] at hsum
      rw [hvalue]
      exact gives_zero_div htotal hsum hsize.number hne
    · have hcount : (n : ℤ) ≤ n * |k| :=
        le_mul_of_one_le_right (Int.natCast_nonneg n) (Int.one_le_abs hk)
      obtain ⟨hfinite, hexact⟩ := hsize.count (by exact_mod_cast hcount.trans hfew)
      have hgives := gives_div htotal hfinite hne
      rw [hexact] at hne
      rwa [hsum, hexact, mul_div_cancel_left₀ _ hne] at hgives
  have hfinite : (Sample.total (List.replicate n x) / Float.ofNat n).isFinite = true := by
    refine hmean.isFinite ?_
    rw [rounded_value]
    exact (isFinite_iff.1 hx).2
  have hgives := gives_sub hx hfinite
  rwa [hmean.value, rounded_value, sub_self] at hgives

theorem square_of_zero (hd : Gives d 0) : (d * d == 0.0) = true := by
  obtain ⟨hfinite, hvalue⟩ := hd.zero
  have hgives := gives_mul hfinite hfinite
  rw [hvalue, mul_zero] at hgives
  exact hgives.beq_zero

/-! ## Squares -/

/-- A power of two next to the square of a deviation, half of which is not above the exact
square. -/
theorem exists_power_of_square (hd : d.isFinite = true) (hq : (d * d).isFinite = true)
    (hzero : (d * d == 0.0) = false) :
    ∃ p : ℤ, -1074 ≤ p ∧ p + 1 ≤ 1024 ∧ 2 ^ p ≤ value (d * d) ∧ value (d * d) ≤ 2 ^ (p + 1) ∧
      2 ^ (p - 1) ≤ value d * value d ∧ value d * value d < 2 ^ (p + 1) := by
  have hgives := gives_mul hd hd
  have hpos : 0 < value (d * d) := by
    refine (square_nonneg (number_of_finite hd)).2.lt_of_ne' fun heq => ?_
    rw [(beq_iff hgives.number rfl).2 (heq.trans Sample.value_zero.symm)] at hzero
    cases hzero
  have hlow : 2 ^ Int.log 2 (value (d * d)) ≤ value (d * d) := by
    exact_mod_cast Int.zpow_log_le_self one_lt_two hpos
  have hhigh : value (d * d) < 2 ^ (Int.log 2 (value (d * d)) + 1) := by
    exact_mod_cast Int.lt_zpow_succ_log_self one_lt_two (value (d * d))
  have hsmallest : -1074 ≤ Int.log 2 (value (d * d)) :=
    (Int.zpow_le_iff_le_log one_lt_two hpos).1 (by exact_mod_cast two_zpow_le_value hpos)
  have hlimit : (2 : ℝ) ^ Int.log 2 (value (d * d)) < 2 ^ (1024 : ℤ) :=
    hlow.trans_lt (abs_lt.1 (isFinite_iff.1 hq).2).2
  have hlargest : Int.log 2 (value (d * d)) < 1024 := (zpow_lt_zpow_iff_right₀ one_lt_two).1 hlimit
  generalize Int.log 2 (value (d * d)) = p at *
  refine ⟨p, hsmallest, hlargest, hlow, hhigh.le, ?_, ?_⟩
  · by_contra hless
    have hrounded := rounded_lt_two_zpow hsmallest (by omega) (mul_self_nonneg _) (not_le.1 hless)
    rw [← hgives.value] at hrounded
    exact absurd hlow (not_le.2 hrounded)
  · by_contra hmore
    have hrounded := two_zpow_le_rounded (by omega) (by omega) (not_lt.1 hmore)
    rw [← hgives.value] at hrounded
    exact absurd hhigh (not_lt.2 hrounded)

/-- A deviation is measured by a root of about its own size. -/
theorem score_bounds {v : Float} (hd : d.isFinite = true) (hv : v.isFinite = true)
    (hp : -1074 ≤ p) (hp' : p + 1 ≤ 1024) (hlow : 2 ^ p ≤ value v) (hhigh : value v ≤ 2 ^ (p + 1))
    (hge : 2 ^ (p - 1) ≤ value d * value d) (hlt : value d * value d < 2 ^ (p + 1)) :
    1 / 2 ≤ |value (d / v.sqrt)| ∧ |value (d / v.sqrt)| ≤ 2 := by
  have hnonneg : 0 ≤ value v := (two_zpow_pos p).le.trans hlow
  have hroot := gives_sqrt hv hnonneg
  have hrootLow : 2 ^ (p / 2) ≤ value v.sqrt :=
    two_zpow_le_sqrt (by omega) (by omega) hv
      ((zpow_le_zpow_right₀ one_le_two (by omega)).trans hlow)
  have hrootHigh : value v.sqrt ≤ 2 ^ (p / 2 + 1) :=
    sqrt_le_two_zpow (by omega) (by omega) hv hnonneg
      (hhigh.trans (zpow_le_zpow_right₀ one_le_two (by omega)))
  have hpos : 0 < value v.sqrt := (two_zpow_pos _).trans_le hrootLow
  have hfinite : v.sqrt.isFinite = true := by
    refine isFinite_iff.2 ⟨hroot.number, ?_⟩
    rw [abs_of_pos hpos]
    exact hrootHigh.trans_lt (zpow_lt_zpow_right₀ one_lt_two (by omega))
  have hrootLe : value v.sqrt ≤ 2 * |value d| := by
    have hsquare : value v ≤ (2 * |value d|) ^ 2 := by
      calc value v ≤ 2 ^ (2 + (p - 1)) := hhigh.trans_eq (by congr 1; omega)
        _ = 2 ^ (2 : ℤ) * 2 ^ (p - 1) := two_zpow_add 2 (p - 1)
        _ ≤ 2 ^ (2 : ℤ) * (value d * value d) :=
          mul_le_mul_of_nonneg_left hge (two_zpow_pos 2).le
        _ = (2 * |value d|) ^ 2 := by rw [mul_pow, sq_abs, sq (value d)]; norm_num
    rw [hroot.value]
    exact rounded_le_two_mul (Real.sqrt_le_iff.2 ⟨mul_nonneg zero_le_two (abs_nonneg _), hsquare⟩)
  have hdeviationLe : |value d| ≤ 2 * value v.sqrt := by
    have hpower : |value d| < 2 ^ (p / 2 + 1) := by
      refine abs_lt_of_sq_lt_sq ?_ (two_zpow_pos _).le
      rw [sq, sq, ← two_zpow_add]
      refine hlt.trans_le ?_
      exact zpow_le_zpow_right₀ one_le_two (by omega)
    calc |value d| ≤ 2 ^ (1 + p / 2) := hpower.le.trans_eq (by rw [add_comm])
      _ = 2 * 2 ^ (p / 2) := by rw [two_zpow_add, zpow_one]
      _ ≤ 2 * value v.sqrt := mul_le_mul_of_nonneg_left hrootLow zero_le_two
  have hscore : |value (d / v.sqrt)| = rounded (|value d| / value v.sqrt) := by
    rw [(gives_div hd hfinite hpos.ne').value, abs_rounded, abs_div, abs_of_pos hpos]
  rw [hscore]
  constructor
  · have hhalf : 2 ^ (-1 : ℤ) ≤ rounded (|value d| / value v.sqrt) := by
      refine two_zpow_le_rounded (by norm_num) (by norm_num) ((le_div_iff₀ hpos).2 ?_)
      rw [zpow_neg_one]
      linarith
    rwa [zpow_neg_one, ← one_div] at hhalf
  · have htwo : rounded (|value d| / value v.sqrt) ≤ 2 ^ (1 : ℤ) := by
      refine rounded_le_two_zpow (by norm_num) (by norm_num) ((div_le_iff₀ hpos).2 ?_)
      rwa [zpow_one]
    rwa [zpow_one] at htwo

/-! ## Spreads -/

/-- The standard deviation of values that all lie at one distance from their mean. -/
def spread (n : ℕ) (d : Float) : Float :=
  (Sample.total (List.replicate n (d * d)) / Float.ofNat n).sqrt

/-- There is no spread where the square of the distance is zero. -/
theorem spread_of_zero (hn : 1 ≤ n) (h : (d * d == 0.0) = true) : (spread n d == 0.0) = true := by
  have hnumber : (d * d).isNaN = false := Bool.eq_false_iff.2 fun hnan => by
    rw [beq_of_isNaN (.inl hnan)] at h
    cases h
  have hvalue : value (d * d) = 0 := (beq_iff hnumber rfl).1 h
  have hfinite := finite_of_value_zero hnumber hvalue
  obtain ⟨htotal, hsum⟩ : (Sample.total (List.replicate n (d * d))).isFinite = true ∧
      value (Sample.total (List.replicate n (d * d))) = n * value (d * d) := by
    refine total_exact hfinite (k := 0) (e := 0) ?_ (by norm_num) ?_ ?_
    · rw [hvalue, Int.cast_zero, zero_mul]
    · rw [abs_zero, mul_zero]
      norm_num
    · rw [hvalue, abs_zero, mul_zero]
      exact limit_pos
  rw [hvalue, mul_zero] at hsum
  have hmean := gives_zero_div htotal hsum (gives_ofNat n).number
    (one_pos.trans_le (one_le_ofNat hn)).ne'
  obtain ⟨-, hzero⟩ := hmean.zero
  exact (sqrt_eq_zero_iff hmean.number hzero.ge).2 hzero

/-- The mean of one square, told as often, is between the powers of two next to it. -/
theorem mean_square_bounds (hn : 1 ≤ n) (hfew : n ≤ 2 ^ 53) (hy : y.isNaN = false)
    (hp : -1074 ≤ p) (hp' : p + 1 ≤ 1024) (hlow : 2 ^ p ≤ value y) (hhigh : value y ≤ 2 ^ (p + 1))
    (htotal : (Sample.total (List.replicate n y)).isFinite = true) :
    (Sample.total (List.replicate n y) / Float.ofNat n).isFinite = true ∧
      2 ^ p ≤ value (Sample.total (List.replicate n y) / Float.ofNat n) ∧
      value (Sample.total (List.replicate n y) / Float.ofNat n) ≤ 2 ^ (p + 1) := by
  obtain ⟨hge, hle⟩ := total_bounds hy hp hlow hhigh hfew
  obtain ⟨hsize, hcount⟩ := (gives_ofNat n).count hfew
  have hone := one_le_ofNat hn
  have hpos : 0 < value (Float.ofNat n) := one_pos.trans_le hone
  have hgives := gives_div htotal hsize hpos.ne'
  have hlimit := (abs_lt.1 (isFinite_iff.1 htotal).2).2
  rw [min_le_iff, or_iff_left (not_le.2 hlimit)] at hge
  refine ⟨finite_div_of_one_le htotal hsize hone, ?_, ?_⟩
  · rw [hgives.value]
    refine two_zpow_le_rounded hp (by omega) ((le_div_iff₀' hpos).2 ?_)
    rwa [hcount]
  · rw [hgives.value]
    refine rounded_le_two_zpow (by omega) hp' ((div_le_iff₀' hpos).2 ?_)
    rwa [hcount]

/-- Where there is a spread, the distance measured by it is zero, about one, or no number. -/
theorem spread_score (hn : 1 ≤ n) (hfew : n ≤ 2 ^ 53) (hd : d.isNaN = false)
    (h : (d * d == 0.0) = false) :
    (spread n d == 0.0) = false ∧ ((d / spread n d).isNaN = true ∨
      (d / spread n d == 0.0) = true ∨
        1 / 2 ≤ |value (d / spread n d)| ∧ |value (d / spread n d)| ≤ 2) := by
  obtain ⟨hsquare, hnonneg⟩ := square_nonneg hd
  obtain ⟨hnumber, hpos, hlargest⟩ := Sample.total_nonneg (nonneg_replicate n hsquare hnonneg)
  obtain ⟨hsize, -⟩ := (gives_ofNat n).count hfew
  rcases finite_or_infinity hnumber with htotal | ⟨t, ht⟩
  · have hle := hlargest _ (List.mem_replicate.2 ⟨by omega, rfl⟩)
    have hfinite : (d * d).isFinite = true := by
      refine isFinite_iff.2 ⟨hsquare, ?_⟩
      rw [abs_of_nonneg hnonneg]
      exact hle.trans_lt (abs_lt.1 (isFinite_iff.1 htotal).2).2
    have hdfinite : d.isFinite = true := (finite_or_infinity hd).resolve_right fun ⟨s, hs⟩ => by
      rw [not_finite_of_infinity (parts_square_infinity hs)] at hfinite
      cases hfinite
    obtain ⟨p, hp, hp', hlow, hhigh, hge, hlt⟩ := exists_power_of_square hdfinite hfinite h
    obtain ⟨hmean, hmeanLow, hmeanHigh⟩ :=
      mean_square_bounds hn hfew hsquare hp hp' hlow hhigh htotal
    have hmeanPos := (two_zpow_pos p).trans_le hmeanLow
    refine ⟨Bool.eq_false_iff.2 fun hzero => ?_,
      .inr (.inr (score_bounds hdfinite hmean hp hp' hmeanLow hmeanHigh hge hlt))⟩
    exact hmeanPos.ne' ((sqrt_eq_zero_iff (number_of_finite hmean) hmeanPos.le).1 hzero)
  · obtain rfl := positive_of_nonneg ht hpos
    have hspread : parts (spread n d) = .infinity .positive :=
      parts_sqrt_infinity (parts_div_infinity ht hsize (one_pos.trans_le (one_le_ofNat hn)))
    refine ⟨Bool.eq_false_iff.2 fun hzero => ?_, ?_⟩
    · rw [beq_iff (number_of_infinity hspread) rfl, value_of_infinity hspread] at hzero
      exact limit_pos.ne' hzero
    · rcases finite_or_infinity hd with hfinite | ⟨s, hs⟩
      · exact .inr (.inl (gives_div_infinity hfinite hspread).beq_zero)
      · rw [div_of_infinities hs hspread]
        exact .inl rfl

end TopologySync.Strategy
