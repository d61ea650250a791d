-- Mantissas that are cut to the digits of a double. A number is kept as its first
-- digits, one digit more and whether anything comes after, which is all that rounding
-- needs. What is packed in the end is the number rounded.
import TopologySync.Proofs.Doubles.Values

open Float.Model (Format UnpackedFloat totalExponent)
open Float.Model.UnpackedFloat (Sign ExtendedMantissa Accuracy)

namespace TopologySync.Doubles

variable {q r : ℝ} {m : ℕ} {e : ℤ}

/-! ## Extended mantissas -/

/-- An extended mantissa has the whole part of a number, its next binary digit, and whether
anything comes after that. -/
structure Shows (em : ExtendedMantissa) (q : ℝ) : Prop where
  nonneg : 0 ≤ q
  mantissa : em.mantissa = ⌊2 * q⌋₊ / 2
  roundBit : em.roundBit = true ↔ ⌊2 * q⌋₊ % 2 = 1
  stickyBit : em.stickyBit = true ↔ (⌊2 * q⌋₊ : ℝ) ≠ 2 * q

theorem Shows.roundedMantissa {em : ExtendedMantissa} (h : Shows em q) :
    em.roundedMantissa = nearest q := by
  obtain ⟨m, half, rest⟩ := em
  obtain ⟨-, rfl, hhalf, hrest⟩ := h
  unfold nearest
  cases half <;> cases rest <;>
    simp_all [ExtendedMantissa.roundedMantissa, ExtendedMantissa.accuracy,
      Accuracy.roundToNearestEven]

theorem Shows.shiftRightOne {em : ExtendedMantissa} (h : Shows em q) :
    Shows em.shiftRightOne (q / 2) := by
  obtain ⟨hnonneg, hmantissa, hhalf, hrest⟩ := h
  have hfloor : ⌊2 * (q / 2)⌋₊ = ⌊2 * q⌋₊ / 2 := by
    rw [← Nat.floor_div_natCast]
    congr 1
    push_cast
    ring
  have hexact : (⌊2 * q⌋₊ : ℝ) ≤ 2 * q := Nat.floor_le (by linarith)
  have hdigits : (⌊2 * q⌋₊ : ℝ) = 2 * (⌊2 * q⌋₊ / 2 : ℕ) + (⌊2 * q⌋₊ % 2 : ℕ) := by
    exact_mod_cast (Nat.div_add_mod _ 2).symm
  refine ⟨by linarith, ?_, ?_, ?_⟩
  · simp only [ExtendedMantissa.shiftRightOne, hmantissa, hfloor]
  · simp only [ExtendedMantissa.shiftRightOne, hmantissa, hfloor, bne_iff_ne]
    omega
  · simp only [ExtendedMantissa.shiftRightOne, Bool.or_eq_true, hhalf, hrest, hfloor]
    constructor
    · rintro h heven
      have hwhole : ((⌊2 * q⌋₊ % 2 : ℕ) : ℝ) = 0 :=
        le_antisymm (by linarith) (Nat.cast_nonneg _)
      rcases h with h | h
      · rw [h] at hwhole
        norm_num at hwhole
      · exact h (by linarith)
    · intro h
      by_contra hneither
      rw [not_or, not_not] at hneither
      obtain ⟨heven, hq⟩ := hneither
      refine h ?_
      rw [Nat.mod_two_ne_one.1 heven] at hdigits
      push_cast at hdigits
      linarith

theorem Shows.shiftRight {em : ExtendedMantissa} (h : Shows em q) (n : ℕ) :
    Shows (em >>> n) (q / 2 ^ n) := by
  change Shows (n.repeat ExtendedMantissa.shiftRightOne em) _
  induction n with
  | zero => rwa [pow_zero, div_one]
  | succ n ih =>
    rw [pow_succ, ← div_div]
    exact ih.shiftRightOne

theorem Shows.whole {em : ExtendedMantissa} (h : Shows em q) :
    (em.mantissa : ℝ) ≤ q ∧ q < em.mantissa + 1 := by
  have hfloor : em.mantissa = ⌊q⌋₊ := by
    rw [h.mantissa, ← Nat.floor_div_natCast]
    congr 1
    push_cast
    ring
  rw [hfloor]
  exact ⟨Nat.floor_le h.nonneg, Nat.lt_floor_add_one q⟩

theorem mantissa_ofMantissaAndAccuracy (m : ℕ) (acc : Accuracy) :
    (ExtendedMantissa.ofMantissaAndAccuracy m acc).mantissa = m := by
  rcases acc with _ | _ | _ | _ <;> rfl

theorem shows_exact (m : ℕ) : Shows (.ofMantissaAndAccuracy m .exact) m := by
  have hfloor : ⌊2 * (m : ℝ)⌋₊ = 2 * m := by exact_mod_cast Nat.floor_natCast (2 * m)
  constructor <;> simp [hfloor, ExtendedMantissa.ofMantissaAndAccuracy]

/-! ## Rounding a mantissa -/

theorem targetExponent_eq (t : ℤ) : Format.binary64.targetExponent t = max (t - 53) (-1074) :=
  rfl

/-- The exponent that is aimed at is the one of the last place, if there are digits enough. -/
theorem targetExponent_lastPlace (hm : (m : ℝ) ≤ q ∧ q < m + 1) (hr : 0 < q * 2 ^ e)
    (he : m = 0 → e ≤ lastPlace (q * 2 ^ e)) :
    Format.binary64.targetExponent (totalExponent m e) = lastPlace (q * 2 ^ e) := by
  obtain ⟨hle, hlt⟩ := hm
  have hpos := two_zpow_pos e
  rw [targetExponent_eq]
  unfold lastPlace totalExponent at *
  rcases Nat.eq_zero_or_pos m with rfl | hm
  · replace he := he rfl
    have hlog : Int.log 2 (q * 2 ^ e) < e := by
      refine (Int.lt_zpow_iff_log_lt one_lt_two hr).1 ?_
      rw [Nat.cast_ofNat]
      refine mul_lt_of_lt_one_left hpos ?_
      rwa [Nat.cast_zero, zero_add] at hlt
    rw [Nat.log2_zero]
    omega
  · have hlog : Int.log 2 (q * 2 ^ e) = m.log2 + e := by
      have hlow : ((2 : ℕ) : ℝ) ^ (m.log2 + e : ℤ) ≤ q * 2 ^ e := by
        rw [Nat.cast_ofNat, two_zpow_add, ← natCast_two_pow]
        refine mul_le_mul_of_nonneg_right (le_trans ?_ hle) hpos.le
        exact_mod_cast Nat.log2_self_le hm.ne'
      have hhigh : q * 2 ^ e < ((2 : ℕ) : ℝ) ^ (m.log2 + e + 1 : ℤ) := by
        have hnext : ((m.log2 + e + 1 : ℤ)) = ((m.log2 + 1 : ℕ) : ℤ) + e := by
          push_cast
          ring
        rw [Nat.cast_ofNat, hnext, two_zpow_add, ← natCast_two_pow]
        refine mul_lt_mul_of_pos_right (hlt.trans_le ?_) hpos
        exact_mod_cast Nat.lt_log2_self
      have hge := (Int.zpow_le_iff_le_log one_lt_two hr).1 hlow
      have hlt := (Int.lt_zpow_iff_log_lt one_lt_two hr).1 hhigh
      omega
    omega

/-- A mantissa that has been rounded up to one digit too many loses a zero. -/
theorem shift_rounded {n : ℕ} {p : ℤ} (hn : n ≤ 2 ^ 53) (hp : -1074 ≤ p) :
    UnpackedFloat.shiftToTargetExponent Format.binary64 n p .exact =
      if n < 2 ^ 53 then (⟨n, false, false⟩, p) else (⟨2 ^ 52, false, false⟩, p + 1) := by
  unfold UnpackedFloat.shiftToTargetExponent UnpackedFloat.shiftToExponent
  rw [targetExponent_eq]
  unfold totalExponent
  dsimp only
  split_ifs with hfew
  · have hlog : n.log2 ≤ 52 := by
      rcases eq_or_ne n 0 with rfl | hn
      · exact Nat.zero_le _
      · exact Nat.le_of_lt_succ ((Nat.log2_lt hn).2 hfew)
    have hnone : (max (n.log2 + 1 + p - 53 : ℤ) (-1074) - p).toNat = 0 := by omega
    rw [hnone, Nat.cast_zero, add_zero]
    rfl
  · obtain rfl : n = 2 ^ 53 := by omega
    have hone : (max ((2 ^ 53 : ℕ).log2 + 1 + p - 53 : ℤ) (-1074) - p).toNat = 1 := by
      rw [Nat.log2_two_pow]
      omega
    rw [hone]
    rfl

/-- An unpacked double is what a positive number is rounded to, with a sign. -/
structure Rounds (u : UnpackedFloat) (s : Sign) (r : ℝ) : Prop where
  fitting : Fitting u
  finite : u.isFinite = true
  amount : amount u = signed s (onGrid r)

theorem rounds_mantissa {s : Sign} {n : ℕ} (hr : 0 < r)
    (hn : n = nearest (r / 2 ^ lastPlace r)) :
    let shifted := UnpackedFloat.shiftToTargetExponent Format.binary64 n (lastPlace r) .exact
    Rounds (if h : shifted.1.mantissa = 0 then .zero s
      else .finite s shifted.1.mantissa shifted.2 (Nat.pos_of_ne_zero h)) s r := by
  have hgrid : onGrid r = n * 2 ^ lastPlace r := by rw [hn]; rfl
  have hfew : n ≤ 2 ^ 53 := hn.trans_le (nearest_le_grid hr.le)
  have hcoarse : -1074 ≤ lastPlace r := le_max_right _ _
  have hfull : -1074 < lastPlace r → 2 ^ 52 ≤ n := fun h => (grid_le_nearest hr h).trans_eq hn.symm
  intro shifted
  have hshifted : shifted = _ := shift_rounded hfew hcoarse
  rw [hshifted]
  rcases hfew.lt_or_eq with hlt | heq
  · rw [if_pos hlt]
    dsimp only
    split_ifs with hzero
    · refine ⟨trivial, rfl, ?_⟩
      rw [hgrid, hzero]
      cases s <;> simp [Doubles.amount, signed]
    · exact ⟨⟨hlt, hcoarse, by have := hfull; omega⟩, rfl, by rw [hgrid]; rfl⟩
  · rw [if_neg (by omega)]
    refine ⟨⟨by norm_num, by omega, .inl le_rfl⟩, rfl, ?_⟩
    have hvalue : ((2 ^ 52 : ℕ) : ℝ) * 2 ^ (lastPlace r + 1) = n * 2 ^ lastPlace r := by
      rw [heq, two_zpow_add, zpow_one]
      push_cast
      ring
    rw [hgrid, ← hvalue]
    rfl

/-- A mantissa with digits enough is rounded to the grid. -/
theorem rounds_roundWithAccuracy (s : Sign) {acc : Accuracy}
    (h : Shows (.ofMantissaAndAccuracy m acc) q) (hr : q * 2 ^ e = r) (hpos : 0 < r)
    (he : e ≤ lastPlace r) :
    Rounds (UnpackedFloat.roundWithAccuracy Format.binary64 s m e acc) s r := by
  have hwhole := h.whole
  rw [mantissa_ofMantissaAndAccuracy] at hwhole
  have htarget : Format.binary64.targetExponent (totalExponent m e) = lastPlace r := by
    subst hr
    exact targetExponent_lastPlace hwhole hpos fun _ => he
  have hplace : e + ((lastPlace r - e).toNat : ℤ) = lastPlace r := by omega
  have hscaled : q / 2 ^ (lastPlace r - e).toNat = r / 2 ^ lastPlace r := by
    have hsplit : (2 : ℝ) ^ lastPlace r = 2 ^ e * 2 ^ (lastPlace r - e).toNat := by
      rw [← zpow_natCast, ← two_zpow_add, hplace]
    rw [hsplit, ← hr, mul_comm q, mul_div_mul_left _ _ (two_zpow_pos e).ne']
  have hshows := (h.shiftRight (lastPlace r - e).toNat).roundedMantissa
  rw [hscaled] at hshows
  have hrounds := rounds_mantissa (s := s) hpos hshows
  unfold UnpackedFloat.roundWithAccuracy
  have hfirst : UnpackedFloat.shiftToTargetExponent Format.binary64 m e acc =
      (ExtendedMantissa.ofMantissaAndAccuracy m acc >>> (lastPlace r - e).toNat, lastPlace r) := by
    unfold UnpackedFloat.shiftToTargetExponent UnpackedFloat.shiftToExponent
    rw [htarget]
    dsimp only
    rw [hplace]
  rw [hfirst]
  exact hrounds

theorem shiftLeft_value (m k : ℕ) (e : ℤ) : ((m <<< k : ℕ) : ℝ) * 2 ^ (e - k) = m * 2 ^ e := by
  rw [Nat.shiftLeft_eq, Nat.cast_mul, natCast_two_pow, mul_assoc, ← two_zpow_add]
  congr 2
  omega

theorem rounds_round (s : Sign) (hm : 0 < m) (e : ℤ) :
    Rounds (UnpackedFloat.round Format.binary64 s m e) s (m * 2 ^ e) := by
  have htarget : Format.binary64.targetExponent (totalExponent m e) = lastPlace (m * 2 ^ e) :=
    targetExponent_lastPlace ⟨le_rfl, lt_add_one _⟩ (magnitude_pos hm e) (by omega)
  unfold UnpackedFloat.round UnpackedFloat.decreaseExponent
  rw [htarget]
  exact rounds_roundWithAccuracy s (shows_exact _) (shiftLeft_value _ _ _) (magnitude_pos hm e)
    (by omega)

/-! ## Results -/

theorem rounded_signed (s : Sign) (r : ℝ) : rounded (signed s r) = signed s (rounded r) := by
  cases s with
  | positive => rfl
  | negative => exact rounded_neg r

theorem signed_inj {s t : Sign} {a b : ℝ} (ha : 0 < a) (hb : 0 ≤ b)
    (h : signed s a = signed t b) : s = t ∧ a = b := by
  cases s <;> cases t <;> simp only [signed] at h
  · exact ⟨rfl, neg_inj.1 h⟩
  · linarith
  · linarith
  · exact ⟨rfl, h⟩

theorem gives_of_rounds {u : UnpackedFloat} {s : Sign} (h : Rounds u s r) (hr : 0 ≤ r) :
    Gives (.ofModel (.pack u)) (signed s r) := by
  obtain ⟨hfit, hfinite, hamount⟩ := h
  have hgrid := onGrid_nonneg r
  suffices hcapped : (capped u).isNaN = false ∧
      amount (capped u) = signed s (min (onGrid r) limit) by
    rw [← parts_pack hfit, ← rounded_of_nonneg hr, ← rounded_signed] at hcapped
    exact ⟨hcapped.1, hcapped.2⟩
  cases u with
  | notANumber => cases hfinite
  | infinity t => cases hfinite
  | zero t =>
    refine ⟨rfl, ?_⟩
    have hzero : onGrid r = 0 := by
      rw [← abs_of_nonneg hgrid, ← abs_signed s, ← hamount]
      exact abs_zero
    rw [hzero] at hamount ⊢
    rw [min_eq_left limit_pos.le, ← hamount]
    rfl
  | finite t m e hm =>
    obtain ⟨rfl, hvalue⟩ := signed_inj (magnitude_pos hm e) hgrid hamount
    rw [← hvalue]
    unfold capped
    dsimp only
    split_ifs with hle
    · rw [min_eq_left ((magnitude_lt_limit hfit).2 hle).le]
      exact ⟨rfl, rfl⟩
    · rw [min_eq_right (not_lt.1 fun hlt => hle ((magnitude_lt_limit hfit).1 hlt))]
      exact ⟨rfl, rfl⟩

theorem gives_zero (s : Sign) : Gives (.ofModel (.pack (.zero s))) 0 := by
  have h : Rounds (.zero s) .positive 0 := ⟨trivial, rfl, onGrid_zero.symm⟩
  exact gives_of_rounds h le_rfl

theorem gives_normalize (n e : ℤ) (z : Sign) :
    Gives (.ofModel (.pack (UnpackedFloat.normalize Format.binary64 n e z))) (n * 2 ^ e) := by
  unfold UnpackedFloat.normalize
  rcases lt_trichotomy n 0 with hn | rfl | hn
  · rw [compare_lt_iff_lt.2 hn]
    have hcast : (((-n).toNat : ℕ) : ℝ) = -n := by
      exact_mod_cast Int.toNat_of_nonneg (by omega : 0 ≤ -n)
    have hrounds := gives_of_rounds (rounds_round .negative (by omega : 0 < (-n).toNat) e)
      (magnitude_pos (by omega) e).le
    rw [hcast] at hrounds
    simpa only [signed, neg_mul, neg_neg] using hrounds
  · rw [Int.cast_zero, zero_mul]
    exact gives_zero z
  · rw [compare_gt_iff_gt.2 hn]
    have hcast : ((n.toNat : ℕ) : ℝ) = n := by exact_mod_cast Int.toNat_of_nonneg hn.le
    have hrounds := gives_of_rounds (rounds_round .positive (by omega : 0 < n.toNat) e)
      (magnitude_pos (by omega) e).le
    rwa [hcast] at hrounds

theorem gives_amount {u : UnpackedFloat} (h : Sound u) :
    Gives (.ofModel (.pack u)) (amount u) := by
  obtain ⟨hfit, hbound, hfinite⟩ := h
  have hcapped : capped u = u := by
    cases u with
    | finite s m e h => exact if_pos hbound
    | _ => rfl
  obtain ⟨k, e, hsteps⟩ := exists_steps_amount hfit
  have hparts := parts_pack hfit
  rw [hcapped] at hparts
  refine ⟨?_, ?_⟩
  · change (parts _).isNaN = false
    rw [hparts]
    cases u with
    | notANumber => cases hfinite
    | _ => rfl
  · unfold value
    rw [hparts, rounded_of_steps hsteps (abs_amount_le hfit hbound)]

end TopologySync.Doubles
