-- The arithmetic of doubles. Whatever is computed from finite doubles is the exact
-- result rounded once, as long as there is an exact result.
import TopologySync.Proofs.Doubles.Mantissas

open Float.Model (Format UnpackedFloat totalExponent)
open Float.Model.UnpackedFloat (Sign ExtendedMantissa Accuracy)

namespace TopologySync.Doubles

variable {x y : Float} {u v : UnpackedFloat} {q r : ℝ} {m n k : ℕ} {d e : ℤ}

/-! ## Sums and differences -/

theorem aligned_value (m : ℕ) {p : ℤ} (h : p ≤ e) :
    ((UnpackedFloat.decreaseExponent m e p).1 : ℝ) * 2 ^ p = m * 2 ^ e := by
  have hshift := shiftLeft_value m (e - p).toNat e
  rwa [show e - ((e - p).toNat : ℤ) = p by omega] at hshift

theorem apply_value (s : Sign) (n : ℕ) (a : ℝ) : (s.apply n : ℝ) * a = signed s (n * a) := by
  cases s <;> simp [Sign.apply, signed]

theorem gives_unpacked_add (hu : Sound u) (hv : Sound v) :
    Gives (.ofModel (.pack (UnpackedFloat.add Format.binary64 u v))) (amount u + amount v) := by
  obtain ⟨s, rfl⟩ | ⟨s, m, d, hm, rfl, -⟩ := hu.cases
  · obtain ⟨t, rfl⟩ | ⟨t, n, e, hn, rfl, -⟩ := hv.cases
    · rw [amount_zero, amount_zero, add_zero]
      cases s <;> cases t <;> exact gives_zero _
    · rw [amount_zero, zero_add]
      exact gives_amount hv
  · obtain ⟨t, rfl⟩ | ⟨t, n, e, hn, rfl, -⟩ := hv.cases
    · rw [amount_zero, add_zero]
      exact gives_amount hu
    · have hsum := gives_normalize
        (s.apply (UnpackedFloat.decreaseExponent m d (min d e)).1 +
          t.apply (UnpackedFloat.decreaseExponent n e (min d e)).1) (min d e) .positive
      rwa [Int.cast_add, add_mul, apply_value, apply_value, aligned_value m (min_le_left d e),
        aligned_value n (min_le_right d e)] at hsum

/-- The sum of finite doubles is the exact one rounded. -/
theorem gives_add (hx : x.isFinite = true) (hy : y.isFinite = true) :
    Gives (x + y) (value x + value y) :=
  gives_unpacked_add (sound_parts hx) (sound_parts hy)

theorem unpacked_sub_eq (u v : UnpackedFloat) :
    UnpackedFloat.sub Format.binary64 u v = UnpackedFloat.add Format.binary64 u v.neg := by
  cases u with
  | finite s m d hm =>
    cases v with
    | finite t n e hn =>
      have hneg : ∀ k : ℕ, (-t).apply k = -t.apply k := fun k => by
        cases t
        · exact (neg_neg _).symm
        · rfl
      simp only [UnpackedFloat.sub, UnpackedFloat.add, UnpackedFloat.neg, hneg, sub_eq_add_neg]
    | _ => rfl
  | _ => cases v <;> rfl

theorem Sound.neg (h : Sound v) : Sound v.neg := by
  obtain ⟨t, rfl⟩ | ⟨t, n, e, hn, rfl, hfits, hbound⟩ := h.cases
  · exact ⟨trivial, trivial, rfl⟩
  · exact ⟨hfits, hbound, rfl⟩

theorem signed_neg (s : Sign) (a : ℝ) : signed (-s) a = -signed s a := by
  cases s with
  | negative => exact (neg_neg a).symm
  | positive => rfl

theorem amount_neg (v : UnpackedFloat) : amount v.neg = -amount v := by
  cases v with
  | notANumber => exact neg_zero.symm
  | zero t => exact neg_zero.symm
  | infinity t => exact signed_neg t _
  | finite t n e hn => exact signed_neg t _

/-- The difference of finite doubles is the exact one rounded. -/
theorem gives_sub (hx : x.isFinite = true) (hy : y.isFinite = true) :
    Gives (x - y) (value x - value y) := by
  have hsum := gives_unpacked_add (sound_parts hx) (sound_parts hy).neg
  rwa [amount_neg, ← unpacked_sub_eq, ← sub_eq_add_neg] at hsum

/-! ## Products -/

theorem signed_mul (s t : Sign) (a b : ℝ) :
    signed (s * t) (a * b) = signed s a * signed t b := by
  cases s <;> cases t
  · exact (neg_mul_neg a b).symm
  · exact (neg_mul a b).symm
  · exact (mul_neg a b).symm
  · rfl

theorem signed_div (s t : Sign) (a b : ℝ) :
    signed (s / t) (a / b) = signed s a / signed t b := by
  cases s <;> cases t
  · exact (neg_div_neg_eq a b).symm
  · exact (neg_div b a).symm
  · exact (div_neg a).symm
  · rfl

theorem le_lastPlace (h : 2 ^ (52 + e) ≤ r) : e ≤ lastPlace r := by
  have hr : 0 < r := (two_zpow_pos _).trans_le h
  have hlog := (Int.zpow_le_iff_le_log one_lt_two hr).1 (by exact_mod_cast h)
  unfold lastPlace
  omega

/-- The product of two mantissas has digits enough, unless both are too small to fill theirs. -/
theorem product_le_lastPlace (hm : Fits m d) (hn : Fits n e) (hmpos : 0 < m) (hnpos : 0 < n) :
    d + e ≤ lastPlace ((m * n : ℕ) * 2 ^ (d + e)) := by
  have hplace : -1074 ≤ lastPlace ((m * n : ℕ) * 2 ^ (d + e)) := le_max_right _ _
  by_cases hfull : 2 ^ 52 ≤ m * n
  · apply le_lastPlace
    rw [two_zpow_add]
    exact mul_le_mul_of_nonneg_right (by exact_mod_cast hfull) (two_zpow_pos _).le
  · have hd : d = -1074 := hm.full.resolve_left fun h =>
      hfull (h.trans (Nat.le_mul_of_pos_right m hnpos))
    have he : e = -1074 := hn.full.resolve_left fun h =>
      hfull (h.trans (Nat.le_mul_of_pos_left n hmpos))
    omega

/-- The product of finite doubles is the exact one rounded. -/
theorem gives_mul (hx : x.isFinite = true) (hy : y.isFinite = true) :
    Gives (x * y) (value x * value y) := by
  change Gives (.ofModel (.pack (UnpackedFloat.mul Format.binary64 (parts x) (parts y))))
    (amount (parts x) * amount (parts y))
  obtain ⟨s, hu⟩ | ⟨s, m, d, hm, hu, hmfits, -⟩ := (sound_parts hx).cases
  · rw [hu, amount_zero, zero_mul]
    obtain ⟨t, hv⟩ | ⟨t, n, e, hn, hv, -⟩ := (sound_parts hy).cases <;> rw [hv] <;>
      exact gives_zero _
  · obtain ⟨t, hv⟩ | ⟨t, n, e, hn, hv, hnfits, -⟩ := (sound_parts hy).cases
    · rw [hu, hv, amount_zero, mul_zero]
      exact gives_zero _
    · have hvalue : (m * 2 ^ d * (n * 2 ^ e) : ℝ) = (m * n : ℕ) * 2 ^ (d + e) := by
        rw [two_zpow_add]
        push_cast
        ring
      have hpos := magnitude_pos (Nat.mul_pos hm hn) (d + e)
      have hrounds := rounds_roundWithAccuracy (s * t) (shows_exact (m * n)) rfl hpos
        (product_le_lastPlace hmfits hnfits hm hn)
      have hgives := gives_of_rounds hrounds hpos.le
      rw [← hvalue, signed_mul] at hgives
      rw [hu, hv]
      exact hgives

/-! ## Quotients -/

theorem floor_eq {k : ℕ} (h : (k : ℝ) ≤ 2 * q) (h' : 2 * q < k + 1) : ⌊2 * q⌋₊ = k :=
  (Nat.floor_eq_iff ((Nat.cast_nonneg k).trans h)).2 ⟨h, h'⟩

theorem shows_lt (h : (m : ℝ) < q) (h' : 2 * q < 2 * m + 1) :
    Shows (.ofMantissaAndAccuracy m (.inexact .lt)) q := by
  have hm : (0 : ℝ) ≤ m := Nat.cast_nonneg m
  have hfloor : ⌊2 * q⌋₊ = 2 * m := by
    apply floor_eq <;> push_cast <;> linarith
  refine ⟨by linarith, ?_, ?_, ?_⟩ <;> rw [hfloor]
  · exact (Nat.mul_div_cancel_left m two_pos).symm
  · simp [ExtendedMantissa.ofMantissaAndAccuracy]
  · refine iff_of_true rfl ?_
    push_cast
    linarith

theorem shows_eq (h : 2 * q = 2 * m + 1) : Shows (.ofMantissaAndAccuracy m (.inexact .eq)) q := by
  have hm : (0 : ℝ) ≤ m := Nat.cast_nonneg m
  have hfloor : ⌊2 * q⌋₊ = 2 * m + 1 := by
    apply floor_eq <;> push_cast <;> linarith
  refine ⟨by linarith, ?_, ?_, ?_⟩ <;> rw [hfloor]
  · exact (by omega : m = (2 * m + 1) / 2)
  · exact iff_of_true rfl (by omega)
  · refine iff_of_false Bool.false_ne_true (not_not.2 ?_)
    push_cast
    linarith

theorem shows_gt (h : 2 * m + 1 < 2 * q) (h' : q < m + 1) :
    Shows (.ofMantissaAndAccuracy m (.inexact .gt)) q := by
  have hm : (0 : ℝ) ≤ m := Nat.cast_nonneg m
  have hfloor : ⌊2 * q⌋₊ = 2 * m + 1 := by
    apply floor_eq <;> push_cast <;> linarith
  refine ⟨by linarith, ?_, ?_, ?_⟩ <;> rw [hfloor]
  · exact (by omega : m = (2 * m + 1) / 2)
  · exact iff_of_true rfl (by omega)
  · refine iff_of_true rfl ?_
    push_cast
    linarith

theorem shows_quotient (k : ℕ) (hn : 0 < n) :
    Shows (.ofMantissaAndAccuracy (k / n) (UnpackedFloat.accuracyOfFraction (k % n) n))
      (k / n : ℝ) := by
  have hpos : (0 : ℝ) < n := Nat.cast_pos.2 hn
  have hdigits : (k : ℝ) = n * (k / n : ℕ) + (k % n : ℕ) := by
    exact_mod_cast (Nat.div_add_mod k n).symm
  have hrest : ((k % n : ℕ) : ℝ) < n := Nat.cast_lt.2 (Nat.mod_lt k hn)
  have hquotient : (k / n : ℝ) = (k / n : ℕ) + (k % n : ℕ) / n := by
    rw [hdigits, add_div, mul_div_cancel_left₀ _ hpos.ne']
  rw [hquotient]
  unfold UnpackedFloat.accuracyOfFraction
  split_ifs with hzero
  · rw [hzero, Nat.cast_zero, zero_div, add_zero]
    exact shows_exact _
  have hfraction : (0 : ℝ) < (k % n : ℕ) / n := div_pos (Nat.cast_pos.2 (by omega)) hpos
  rcases lt_trichotomy (2 * (k % n)) n with hlt | heq | hgt
  · rw [compare_lt_iff_lt.2 hlt]
    have hhalf : 2 * ((k % n : ℕ) / n : ℝ) < 1 := by
      rw [← mul_div_assoc, div_lt_one hpos]
      exact_mod_cast hlt
    exact shows_lt (by linarith) (by linarith)
  · rw [compare_eq_iff_eq.2 heq]
    have hhalf : 2 * ((k % n : ℕ) / n : ℝ) = 1 := by
      rw [← mul_div_assoc, div_eq_one_iff_eq hpos.ne']
      exact_mod_cast heq
    exact shows_eq (by linarith)
  · rw [compare_gt_iff_gt.2 hgt]
    have hhalf : 1 < 2 * ((k % n : ℕ) / n : ℝ) := by
      rw [← mul_div_assoc, one_lt_div hpos]
      exact_mod_cast hgt
    have hone : ((k % n : ℕ) / n : ℝ) < 1 := (div_lt_one hpos).2 hrest
    exact shows_gt (by linarith) (by linarith)

/-- A quotient has digits enough, as its dividend is given as many as it needs for that. -/
theorem quotient_le_lastPlace (hm : 0 < m) (hn : 0 < n) {p : ℤ}
    (hp : p ≤ Format.binary64.targetExponent (totalExponent m d - totalExponent n e)) :
    p ≤ lastPlace ((m : ℝ) * 2 ^ d / (n * 2 ^ e)) := by
  have hpos := div_pos (magnitude_pos hm d) (magnitude_pos hn e)
  have hlog : (m.log2 + d - (n.log2 + 1 : ℕ) - e : ℤ) ≤
      Int.log 2 ((m : ℝ) * 2 ^ d / (n * 2 ^ e)) := by
    refine (Int.zpow_le_iff_le_log one_lt_two hpos).1 ?_
    rw [Nat.cast_ofNat, sub_sub, zpow_sub₀ two_ne_zero, two_zpow_add, two_zpow_add,
      ← natCast_two_pow, ← natCast_two_pow]
    refine div_le_div₀ (magnitude_pos hm d).le ?_ (magnitude_pos hn e) ?_
    · exact mul_le_mul_of_nonneg_right (Nat.cast_le.2 (Nat.log2_self_le hm.ne')) (two_zpow_pos d).le
    · exact mul_le_mul_of_nonneg_right (Nat.cast_le.2 Nat.lt_log2_self.le) (two_zpow_pos e).le
  rw [targetExponent_eq] at hp
  unfold totalExponent at hp
  unfold lastPlace
  push_cast at hlog
  omega

theorem rounds_divCore (s : Sign) (hm : 0 < m) (hn : 0 < n) :
    let core := UnpackedFloat.divCore Format.binary64 m d n e
    Rounds (UnpackedFloat.roundWithAccuracy Format.binary64 s core.1 core.2.1 core.2.2) s
      (m * 2 ^ d / (n * 2 ^ e)) := by
  have hpos := div_pos (magnitude_pos hm d) (magnitude_pos hn e)
  unfold UnpackedFloat.divCore
  dsimp only
  generalize htarget : min (d - e)
    (Format.binary64.targetExponent (totalExponent m d - totalExponent n e)) = p
  have hshift : d - e - ((d - e - p).toNat : ℤ) = p := by omega
  refine rounds_roundWithAccuracy s (shows_quotient (m <<< (d - e - p).toNat) hn) ?_ hpos
    (quotient_le_lastPlace hm hn (by omega))
  have hvalue := shiftLeft_value m (d - e - p).toNat (d - e)
  rw [hshift] at hvalue
  rw [div_mul_eq_mul_div, hvalue, zpow_sub₀ two_ne_zero, ← mul_div_assoc, div_div, mul_comm (2 ^ e)]

/-- The quotient of finite doubles is the exact one rounded, if there is one. -/
theorem gives_div (hx : x.isFinite = true) (hy : y.isFinite = true) (hzero : value y ≠ 0) :
    Gives (x / y) (value x / value y) := by
  change Gives (.ofModel (.pack (UnpackedFloat.div Format.binary64 (parts x) (parts y))))
    (amount (parts x) / amount (parts y))
  obtain ⟨t, hv⟩ | ⟨t, n, e, hn, hv, -⟩ := (sound_parts hy).cases
  · exact absurd (congrArg amount hv) hzero
  obtain ⟨s, hu⟩ | ⟨s, m, d, hm, hu, -⟩ := (sound_parts hx).cases
  · rw [hu, hv, amount_zero, zero_div]
    exact gives_zero _
  · have hpos := div_pos (magnitude_pos hm d) (magnitude_pos hn e)
    have hgives := gives_of_rounds (rounds_divCore (s / t) hm hn) hpos.le
    rw [signed_div] at hgives
    rw [hu, hv]
    exact hgives

/-! ## Square roots -/

theorem shows_root (k : ℕ) :
    Shows (.ofMantissaAndAccuracy (Nat.sqrt k) (if k - Nat.sqrt k * Nat.sqrt k = 0 then .exact
      else .inexact (if k - Nat.sqrt k * Nat.sqrt k ≤ Nat.sqrt k then .lt else .gt)))
      (√(k : ℝ)) := by
  have hle : Nat.sqrt k * Nat.sqrt k ≤ k := Nat.sqrt_le k
  have hlt : k < (Nat.sqrt k + 1) * (Nat.sqrt k + 1) := Nat.lt_succ_sqrt k
  generalize Nat.sqrt k = root at *
  obtain ⟨rest, rfl⟩ := Nat.exists_eq_add_of_le hle
  have hroot : (0 : ℝ) ≤ root := Nat.cast_nonneg root
  rw [Nat.add_sub_cancel_left]
  push_cast
  split_ifs with hzero hsmall
  · rw [hzero, Nat.cast_zero, add_zero, Real.sqrt_mul_self hroot]
    exact shows_exact root
  · have hpos : (0 : ℝ) < rest := Nat.cast_pos.2 (Nat.pos_of_ne_zero hzero)
    have hrest : (rest : ℝ) ≤ root := Nat.cast_le.2 hsmall
    apply shows_lt
    · exact Real.lt_sqrt_of_sq_lt (by linarith)
    · have hhalf : √(root * root + rest : ℝ) < root + 1 / 2 :=
        (Real.sqrt_lt' (by linarith)).2 (by linarith)
      linarith
  · have hrest : (root + 1 : ℝ) ≤ rest := by exact_mod_cast not_le.1 hsmall
    have hnext : (root * root + rest : ℝ) < (root + 1) * (root + 1) := by exact_mod_cast hlt
    apply shows_gt
    · have hhalf : root + 1 / 2 < √(root * root + rest : ℝ) :=
        Real.lt_sqrt_of_sq_lt (by linarith)
      linarith
    · exact (Real.sqrt_lt' (by linarith)).2 (by linarith)

/-- A root has digits enough, as its radicand is given as many as it needs for that. -/
theorem root_le_lastPlace (hm : 0 < m) {p : ℤ}
    (hp : p ≤ Format.binary64.targetExponent ((totalExponent m e + 1) / 2)) :
    p ≤ lastPlace (√((m : ℝ) * 2 ^ e)) := by
  have hpos := magnitude_pos hm e
  have hlog : (m.log2 + e) / 2 ≤ Int.log 2 (√((m : ℝ) * 2 ^ e)) := by
    refine (Int.zpow_le_iff_le_log one_lt_two (Real.sqrt_pos.2 hpos)).1 ?_
    rw [Nat.cast_ofNat]
    apply Real.le_sqrt_of_sq_le
    calc ((2 : ℝ) ^ ((m.log2 + e) / 2)) ^ 2 = 2 ^ ((m.log2 + e) / 2 + (m.log2 + e) / 2) := by
          rw [sq, ← two_zpow_add]
      _ ≤ 2 ^ (m.log2 + e) := zpow_le_zpow_right₀ one_le_two (by omega)
      _ = (2 ^ m.log2 : ℕ) * 2 ^ e := by rw [two_zpow_add, ← natCast_two_pow]
      _ ≤ m * 2 ^ e := mul_le_mul_of_nonneg_right
          (Nat.cast_le.2 (Nat.log2_self_le hm.ne')) (two_zpow_pos e).le
  rw [targetExponent_eq] at hp
  unfold totalExponent at hp
  unfold lastPlace
  omega

theorem rounds_sqrtCore (hm : 0 < m) :
    let core := UnpackedFloat.sqrtCore Format.binary64 m e
    Rounds (UnpackedFloat.roundWithAccuracy Format.binary64 .positive core.1 core.2.1 core.2.2)
      .positive (√((m : ℝ) * 2 ^ e)) := by
  have hpos := magnitude_pos hm e
  unfold UnpackedFloat.sqrtCore
  dsimp only
  generalize htarget : min (e.ediv 2)
    (Format.binary64.targetExponent ((totalExponent m e + 1).ediv 2)) = p
  replace htarget : min (e / 2)
    (Format.binary64.targetExponent ((totalExponent m e + 1) / 2)) = p := htarget
  have hshift : e - ((e - 2 * p).toNat : ℤ) = p + p := by omega
  refine rounds_roundWithAccuracy .positive (shows_root _) ?_ (Real.sqrt_pos.2 hpos)
    (root_le_lastPlace hm (by omega))
  have hvalue := shiftLeft_value m (e - 2 * p).toNat e
  rw [hshift, two_zpow_add] at hvalue
  rw [← hvalue, Real.sqrt_mul (Nat.cast_nonneg _), Real.sqrt_mul_self (two_zpow_pos p).le]

/-- The root of a finite double that is not negative is the exact one rounded. -/
theorem gives_sqrt (hx : x.isFinite = true) (hnonneg : 0 ≤ value x) :
    Gives x.sqrt √(value x) := by
  change Gives (.ofModel (.pack (UnpackedFloat.sqrt Format.binary64 (parts x))))
    (√(amount (parts x)))
  change 0 ≤ amount (parts x) at hnonneg
  obtain ⟨s, hu⟩ | ⟨s, m, e, hm, hu, -⟩ := (sound_parts hx).cases
  · rw [hu, amount_zero, Real.sqrt_zero]
    exact gives_zero s
  · have hpos := magnitude_pos hm e
    rw [hu] at hnonneg ⊢
    cases s with
    | negative =>
      simp only [amount, signed] at hnonneg
      linarith
    | positive => exact gives_of_rounds (rounds_sqrtCore hm) (Real.sqrt_nonneg _)

/-! ## Finite results -/

theorem Gives.isFinite (h : Gives x r) (hr : |rounded r| < limit) : x.isFinite = true :=
  isFinite_iff.2 ⟨h.number, by rwa [h.value]⟩

theorem Gives.isFinite_of_le (h : Gives x r) (he : -1074 ≤ e) (he' : e < 1024)
    (hr : |r| ≤ 2 ^ e) : x.isFinite = true :=
  h.isFinite (by rw [abs_rounded]; exact rounded_lt_limit he he' hr)

/-- What lies on the grid is given as it is. -/
theorem Gives.exact {k : ℤ} (h : Gives x r) (hr : Steps r k e) (hlimit : |r| < limit) :
    x.isFinite = true ∧ Doubles.value x = r := by
  have hvalue := h.value
  have hfinite := h.isFinite
  rw [rounded_of_steps hr hlimit.le] at hvalue hfinite
  exact ⟨hfinite hlimit, hvalue⟩

theorem finite_of_value_zero (h : x.isNaN = false) (hzero : value x = 0) : x.isFinite = true :=
  isFinite_iff.2 ⟨h, by rw [hzero, abs_zero]; exact limit_pos⟩

theorem Gives.zero (h : Gives x 0) : x.isFinite = true ∧ Doubles.value x = 0 :=
  have hvalue := h.value.trans rounded_zero
  ⟨finite_of_value_zero h.number hvalue, hvalue⟩

theorem Gives.beq_zero (h : Gives x 0) : (x == 0.0) = true :=
  (beq_iff h.number rfl).2 h.zero.2

theorem finite_div_of_one_le (hx : x.isFinite = true) (hy : y.isFinite = true)
    (hone : 1 ≤ value y) : (x / y).isFinite = true := by
  have hpos : 0 < value y := one_pos.trans_le hone
  refine (gives_div hx hy hpos.ne').isFinite ?_
  rw [abs_rounded, abs_div, abs_of_pos hpos]
  calc rounded (|value x| / value y) ≤ rounded |value x| :=
        rounded_mono (div_le_self (abs_nonneg _) hone)
    _ = |value x| := by rw [← abs_rounded, rounded_value]
    _ < limit := (isFinite_iff.1 hx).2

/-! ## Whole numbers -/

theorem gives_uint64 (k : UInt64) : Gives k.toFloat k.toNat := by
  have hgives := gives_normalize k.toNat 0 .positive
  rw [zpow_zero, mul_one, Int.cast_natCast] at hgives
  exact hgives

theorem Gives.count (h : Gives x n) (hn : n ≤ 2 ^ 53) :
    x.isFinite = true ∧ Doubles.value x = n := by
  have hsteps : Steps n n 0 :=
    ⟨by rw [Nat.abs_cast]; exact_mod_cast hn, by norm_num, by simp⟩
  refine h.exact hsteps ?_
  rw [Nat.abs_cast]
  calc (n : ℝ) ≤ 2 ^ (53 : ℤ) := by exact_mod_cast hn
    _ < limit := zpow_lt_zpow_right₀ one_lt_two (by norm_num)

theorem natCast_le_lastPlace (hn : 0 < n) : -52 ≤ lastPlace n := by
  apply le_lastPlace
  rw [show (52 + -52 : ℤ) = 0 from rfl, zpow_zero]
  exact_mod_cast hn

/-! ## Decimal numbers -/

theorem gives_ofNat_uint64 (hn : n < UInt64.size) : Gives (UInt64.ofNat n).toFloat n := by
  have hgives := gives_uint64 (UInt64.ofNat n)
  rwa [UInt64.toNat_ofNat_of_lt' hn] at hgives

theorem count_uint64 (hn : n ≤ 2 ^ 53) :
    (UInt64.ofNat n).toFloat.isFinite = true ∧ value (UInt64.ofNat n).toFloat = n :=
  (gives_ofNat_uint64 (hn.trans_lt (by decide))).count hn

/-- The powers of ten that are looked up are doubles, as powers of five times powers of two. -/
theorem lookedUp_exact (hk : k < 23) :
    Float.exactlyRepresentablePowersOfTen[k].isFinite = true ∧
      value Float.exactlyRepresentablePowersOfTen[k] = 10 ^ k := by
  have hentries : ∀ k : Fin 23, Float.exactlyRepresentablePowersOfTen[k.1] =
      (UInt64.ofNat (5 ^ k.1)).toFloat * (UInt64.ofNat (2 ^ k.1)).toFloat := by
    decide +kernel
  have hfives : 5 ^ k ≤ 2 ^ 53 :=
    (Nat.pow_le_pow_right (by decide) (Nat.le_of_lt_succ hk)).trans (by decide : 5 ^ 22 ≤ 2 ^ 53)
  have htwos : 2 ^ k ≤ 2 ^ 53 := Nat.pow_le_pow_right (by decide) (by omega)
  obtain ⟨hfive, hfiveValue⟩ := count_uint64 hfives
  obtain ⟨htwo, htwoValue⟩ := count_uint64 htwos
  have hproduct := gives_mul hfive htwo
  rw [hfiveValue, htwoValue, ← Nat.cast_mul, ← mul_pow, Nat.cast_pow,
    ← hentries ⟨k, hk⟩] at hproduct
  have hsteps : Steps (10 ^ k) (5 ^ k : ℕ) k := by
    refine ⟨by rw [Nat.abs_cast]; exact_mod_cast hfives, by omega, ?_⟩
    rw [Int.cast_natCast, zpow_natCast, Nat.cast_pow, Nat.cast_ofNat, ← mul_pow]
    norm_num
  refine hproduct.exact hsteps ?_
  rw [abs_of_pos (by positivity)]
  calc ((5 * 2 : ℕ) : ℝ) ^ k ≤ 10 ^ 22 := by
        exact_mod_cast Nat.pow_le_pow_right (by decide) (Nat.le_of_lt_succ hk)
    _ < 2 ^ 1024 := by exact_mod_cast (by decide +kernel : 10 ^ 22 < 2 ^ 1024)
    _ = limit := (zpow_natCast 2 1024).symm

theorem ofScientific_of_few (hn : n < 2 ^ 53) (hk : k < 23) :
    Float.ofScientific n false k =
      n.toUInt64.toFloat * Float.exactlyRepresentablePowersOfTen[k] :=
  dif_pos ⟨hn, Nat.le_of_lt_succ hk⟩

theorem ofScientific_of_many (h : ¬ (n < 2 ^ 53 ∧ k ≤ 22)) :
    Float.ofScientific n false k =
      .ofModel (.pack (UnpackedFloat.ofScientific Format.binary64 n k)) :=
  dif_neg h

theorem gives_unpacked_ofScientific (n : ℕ) (hk : k ≤ 2048) :
    Gives (.ofModel (.pack (UnpackedFloat.ofScientific Format.binary64 n k)))
      (n * 10 ^ k : ℕ) := by
  have hpower : (2 : ℤ) ^ Format.binary64.exponentBits = 2048 := rfl
  by_cases hzero : n = 0
  · rw [hzero, zero_mul, Nat.cast_zero]
    exact gives_zero .positive
  have hpos : 0 < n * 10 ^ k := Nat.mul_pos (by omega) (Nat.pow_pos (by decide))
  have hvalue : (((n <<< 53) * 10 ^ k : ℕ) : ℝ) * 2 ^ (-53 + 0 : ℤ) = (n * 10 ^ k : ℕ) := by
    have hshift := shiftLeft_value (n * 10 ^ k) 53 0
    rw [zpow_zero, mul_one] at hshift
    rw [← hshift, Nat.shiftLeft_eq, Nat.shiftLeft_eq, mul_right_comm]
    rfl
  have hrounds := rounds_roundWithAccuracy .positive (shows_exact _) hvalue (Nat.cast_pos.2 hpos)
    (by have := natCast_le_lastPlace hpos; omega)
  unfold UnpackedFloat.ofScientific
  rw [dif_neg hzero, if_neg (by omega), if_neg (by omega), if_pos (by omega)]
  exact gives_of_rounds hrounds (Nat.cast_nonneg _)

/-- A decimal number without a fraction is the exact one rounded. -/
theorem gives_ofScientific (n : ℕ) (hk : k ≤ 2048) :
    Gives (Float.ofScientific n false k) (n * 10 ^ k : ℕ) := by
  by_cases hfew : n < 2 ^ 53 ∧ k ≤ 22
  · obtain ⟨hfinite, hvalue⟩ := count_uint64 hfew.1.le
    have hlookedUp : k < 23 := Nat.lt_succ_of_le hfew.2
    obtain ⟨htenFinite, hten⟩ := lookedUp_exact hlookedUp
    have hproduct := gives_mul hfinite htenFinite
    rw [hvalue, hten] at hproduct
    rw [ofScientific_of_few hfew.1 hlookedUp, Nat.cast_mul, Nat.cast_pow]
    exact hproduct
  · rw [ofScientific_of_many hfew]
    exact gives_unpacked_ofScientific n hk

/-- A whole number as a double is the exact one rounded. -/
theorem gives_ofNat (n : ℕ) : Gives (Float.ofNat n) n := by
  have hgives := gives_ofScientific n (Nat.zero_le 2048)
  rwa [pow_zero, mul_one] at hgives

theorem one_le_ofNat (hn : 1 ≤ n) : 1 ≤ value (Float.ofNat n) := by
  rw [(gives_ofNat n).value]
  exact one_le_rounded (Nat.one_le_cast.2 hn)

theorem isFinite_ofNat (hn : n ≤ 2 ^ 1023) : (Float.ofNat n).isFinite = true := by
  have hsmall : |(n : ℝ)| ≤ 2 ^ (1023 : ℤ) := by
    rw [Nat.abs_cast]
    exact_mod_cast hn
  exact (gives_ofNat n).isFinite_of_le (by norm_num) (by norm_num) hsmall

end TopologySync.Doubles
