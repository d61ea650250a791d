-- Numbers that are no JSON. A numeral stands for the digits of it that fit 64 bits and a power of
-- ten, and each of the two is rounded to a double. It has no value if and only if their product
-- is rounded to the limit of the doubles.
import TopologySync.Proofs.Doubles.Infinities
import TopologySync.Proofs.Json.Numerals

open TopologySync.Doubles

namespace TopologySync.Json

namespace Numeral

/-! ## Significand and power -/

/-- The number that digits make behind another one. -/
def followed (m : ℕ) (ds : List ℕ) : ℕ :=
  ds.foldl (fun m d => m * 10 + d) m

/-- How many of the digits can follow a number in 64 bits. -/
def fitting (m : ℕ) (ds : List ℕ) : ℕ :=
  Nat.findGreatest (fun k => followed m (ds.take k) < UInt64.size) ds.length

/-- The digits behind the point. -/
def decimals (n : Numeral) : List ℕ :=
  n.fraction.getD []

/-- The digits of the whole part, as far as they fit 64 bits. -/
def leading (n : Numeral) : ℕ :=
  followed 0 (n.whole.take (fitting 0 n.whole))

/-- These digits with those behind the point, as far as they fit 64 bits together. -/
def significand (n : Numeral) : ℕ :=
  followed n.leading (n.decimals.take (fitting n.leading n.decimals))

/-- The exponent as it is written. -/
def writtenExponent (n : Numeral) : ℤ :=
  match n.exponent with
  | none => 0
  | some (negative, ds) => if negative then -(followed 0 ds) else followed 0 ds

/-- The power of ten that goes with the significand. A digit of the whole part that does not fit
raises it, and a digit behind the point lowers it if it fits. -/
def power (n : Numeral) : ℤ :=
  (n.whole.length - fitting 0 n.whole : ℕ) - fitting n.leading n.decimals + n.writtenExponent

/-- A number and a power of ten, each of them rounded, have a product that is rounded to the
limit. -/
def Exceeds (m : ℕ) (e : ℤ) : Prop :=
  limit ≤ rounded (rounded m * rounded (10 ^ e))

/-- The numeral is past the doubles. An exponent that does not fit 32 bits counts for itself,
however many digits there are. -/
def Overflows (n : Numeral) : Prop :=
  if |n.writtenExponent| < 2 ^ 31 then Exceeds n.significand n.power
  else 0 < n.writtenExponent ∧ n.significand ≠ 0

variable {n : Numeral} {m k : ℕ} {d : ℕ} {ds : List ℕ} {e : ℤ} {problem : Problem}

/-! ## Digits that fit -/

theorem le_followed (m : ℕ) (ds : List ℕ) : m ≤ followed m ds := by
  induction ds generalizing m with
  | nil => exact le_rfl
  | cons d ds ih => exact le_trans (by omega) (ih (m * 10 + d))

theorem followed_fitting (hm : m < UInt64.size) (ds : List ℕ) :
    followed m (ds.take (fitting m ds)) < UInt64.size :=
  Nat.findGreatest_spec (P := fun k => followed m (ds.take k) < UInt64.size) (Nat.zero_le _) hm

theorem fitting_le (m : ℕ) (ds : List ℕ) : fitting m ds ≤ ds.length :=
  Nat.findGreatest_le _

theorem fitting_cons (h : m * 10 + d < UInt64.size) :
    fitting m (d :: ds) = fitting (m * 10 + d) ds + 1 := by
  refine Nat.findGreatest_eq_iff.2 ⟨Nat.succ_le_succ (fitting_le _ _), fun _ => ?_, ?_⟩
  · exact followed_fitting h ds
  · rintro (_ | k) hk hlength
    · omega
    · exact Nat.findGreatest_is_greatest (P := fun k => followed (m * 10 + d) (ds.take k) < _)
        (Nat.lt_of_succ_lt_succ hk) (Nat.le_of_succ_le_succ hlength)

theorem fitting_cons_of_le (h : UInt64.size ≤ m * 10 + d) : fitting m (d :: ds) = 0 := by
  refine Nat.findGreatest_eq_zero_iff.2 fun k hk _ hfits => ?_
  obtain ⟨k, rfl⟩ := Nat.exists_eq_succ_of_ne_zero hk.ne'
  exact absurd (h.trans (le_followed _ (ds.take k))) (not_le.2 hfits)

/-- The digits that are taken in are those that fit. -/
theorem absorb_eq (hm : m < UInt64.size) (ds : List ℕ) :
    absorb m ds = (followed m (ds.take (fitting m ds)), ds.length - fitting m ds) := by
  induction ds generalizing m with
  | nil => rfl
  | cons d ds ih =>
    rw [absorb]
    split_ifs with hd
    · rw [ih hd, fitting_cons hd, List.length_cons, Nat.succ_sub_succ]
      rfl
    · rw [fitting_cons_of_le (not_lt.1 hd)]
      rfl

theorem absorb_whole (n : Numeral) :
    absorb 0 n.whole = (n.leading, n.whole.length - fitting 0 n.whole) :=
  absorb_eq (by decide) n.whole

theorem leading_lt (n : Numeral) : n.leading < UInt64.size :=
  followed_fitting (by decide) n.whole

theorem absorb_decimals (n : Numeral) :
    absorb n.leading n.decimals =
      (n.significand, n.decimals.length - fitting n.leading n.decimals) :=
  absorb_eq n.leading_lt n.decimals

theorem significand_lt (n : Numeral) : n.significand < UInt64.size :=
  followed_fitting n.leading_lt n.decimals

/-! ## Significands as doubles -/

theorem natCast_le_two_zpow (hm : m < UInt64.size) : (m : ℝ) ≤ 2 ^ (64 : ℤ) := by
  exact_mod_cast hm.le

theorem finite_significand (hm : m < UInt64.size) :
    (UInt64.ofNat m).toFloat.isFinite = true ∧
      Doubles.value (UInt64.ofNat m).toFloat = rounded m := by
  have hgives := gives_ofNat_uint64 hm
  have hsmall : |(m : ℝ)| ≤ 2 ^ (64 : ℤ) := by
    rw [Nat.abs_cast]
    exact natCast_le_two_zpow hm
  exact ⟨hgives.isFinite_of_le (by norm_num) (by norm_num) hsmall, hgives.value⟩

theorem one_le_rounded_natCast (hm : m ≠ 0) : 1 ≤ rounded m :=
  one_le_rounded (Nat.one_le_cast.2 (Nat.one_le_iff_ne_zero.2 hm))

theorem significand_beq_zero_iff (hm : m < UInt64.size) :
    ((UInt64.ofNat m).toFloat == 0.0) = true ↔ m = 0 := by
  obtain ⟨hfinite, hvalue⟩ := finite_significand hm
  have hzero : Doubles.value 0.0 = 0 := rfl
  rw [beq_iff (number_of_finite hfinite) rfl, hvalue, hzero]
  refine ⟨fun hrounded => ?_, fun hm => by rw [hm, Nat.cast_zero, rounded_zero]⟩
  by_contra hne
  exact (one_pos.trans_le (one_le_rounded_natCast hne)).ne' hrounded

/-! ## Powers of ten as doubles -/

/-- The greatest power of ten that is looked up stays below the last step under the limit. -/
theorem rounded_greatestPower_lt : rounded (10 ^ greatestPower) < limit := by
  have hsteps : Steps ((2 ^ 53 - 1 : ℕ) * 2 ^ (971 : ℤ)) (2 ^ 53 - 1 : ℕ) 971 :=
    steps_mul_two_zpow (by decide) (by decide)
  have hpower : 10 ^ greatestPower ≤ (2 ^ 53 - 1) * 2 ^ 971 := by decide +kernel
  have hlast : (2 ^ 53 - 1) * 2 ^ 971 < 2 ^ 1024 := by decide +kernel
  calc rounded (10 ^ greatestPower) ≤ rounded ((2 ^ 53 - 1 : ℕ) * 2 ^ (971 : ℤ)) :=
        rounded_mono (by exact_mod_cast hpower)
    _ ≤ (2 ^ 53 - 1 : ℕ) * 2 ^ (971 : ℤ) := by
        rw [hsteps.rounded (by positivity)]
        exact min_le_left _ _
    _ < limit := by
        unfold limit
        exact_mod_cast hlast

theorem finite_powerOfTen (hk : k ≤ greatestPower) :
    (powerOfTen k).isFinite = true ∧ Doubles.value (powerOfTen k) = rounded (10 ^ k) := by
  have hgives := gives_ofScientific 1 (hk.trans (by decide : 308 ≤ 2048))
  rw [one_mul, Nat.cast_pow, Nat.cast_ofNat] at hgives
  refine ⟨hgives.isFinite ?_, hgives.value⟩
  rw [abs_of_nonneg (rounded_nonneg (by positivity))]
  refine (rounded_mono ?_).trans_lt rounded_greatestPower_lt
  exact pow_le_pow_right₀ (by norm_num) hk

theorem limit_le_ten_pow (hk : greatestPower < k) : limit ≤ 10 ^ k := by
  have hpower : 2 ^ 1024 ≤ 10 ^ 309 := by decide +kernel
  calc limit = 2 ^ 1024 := zpow_natCast 2 1024
    _ ≤ 10 ^ 309 := by exact_mod_cast hpower
    _ ≤ 10 ^ k := pow_le_pow_right₀ (by norm_num) hk

/-! ## Products -/

/-- The powers of ten past the greatest are rounded to the limit, and spare nothing but zero. -/
theorem exceeds_iff_of_large (hk : greatestPower < k) : Exceeds m k ↔ m ≠ 0 := by
  have hpower : rounded (10 ^ (k : ℤ)) = limit := by
    rw [zpow_natCast]
    exact rounded_of_limit_le (limit_le_ten_pow hk)
  unfold Exceeds
  rw [hpower]
  refine ⟨?_, fun hm => ?_⟩
  · rintro hlimit rfl
    rw [Nat.cast_zero, rounded_zero, zero_mul, rounded_zero] at hlimit
    exact absurd hlimit (not_le.2 limit_pos)
  · have hproduct := le_mul_of_one_le_left limit_pos.le (one_le_rounded_natCast hm)
    exact (rounded_of_limit_le hproduct).ge

/-- Without a power above one there is no product too large. -/
theorem not_exceeds (hm : m < UInt64.size) (he : e ≤ 0) : ¬ Exceeds m e := by
  have hpower : rounded (10 ^ e) ≤ 1 :=
    rounded_le_one (zpow_le_one_of_nonpos₀ (by norm_num) he)
  have hproduct : rounded m * rounded (10 ^ e) ≤ 2 ^ (64 : ℤ) :=
    calc rounded m * rounded (10 ^ e) ≤ rounded m :=
          mul_le_of_le_one_right (rounded_nonneg (Nat.cast_nonneg m)) hpower
      _ ≤ 2 ^ (64 : ℤ) := rounded_le_two_zpow (by norm_num) (by norm_num) (natCast_le_two_zpow hm)
  exact not_le.2 (rounded_lt_limit (by norm_num) (by norm_num) hproduct)

theorem isInf_product_iff (hm : m < UInt64.size) (hk : k ≤ greatestPower) :
    ((UInt64.ofNat m).toFloat * powerOfTen k).isInf = true ↔ Exceeds m k := by
  obtain ⟨hfinite, hvalue⟩ := finite_significand hm
  obtain ⟨htenFinite, hten⟩ := finite_powerOfTen hk
  have hproduct := gives_mul hfinite htenFinite
  rw [hvalue, hten] at hproduct
  have hnonneg : 0 ≤ rounded m * rounded (10 ^ k) :=
    mul_nonneg (rounded_nonneg (Nat.cast_nonneg m)) (rounded_nonneg (by positivity))
  unfold Exceeds
  rw [hproduct.isInf_iff hnonneg, zpow_natCast]

theorem shiftUp_eq_error_iff (hm : m < UInt64.size) :
    shiftUp (UInt64.ofNat m).toFloat k = .error problem ↔ problem = .malformed ∧ Exceeds m k := by
  unfold shiftUp
  by_cases hk : k ≤ greatestPower
  · rw [if_pos hk, ← isInf_product_iff hm hk]
    dsimp only
    split_ifs with hinf
    · simp [hinf, eq_comm]
    · simp [hinf]
  · rw [if_neg hk, exceeds_iff_of_large (not_le.1 hk), ne_eq, ← significand_beq_zero_iff hm]
    split_ifs with hzero
    · simp [hzero]
    · simp [hzero, eq_comm]

theorem shift_eq_error_iff (hm : m < UInt64.size) :
    shift m e = .error problem ↔ problem = .malformed ∧ Exceeds m e := by
  cases e with
  | ofNat k => exact shiftUp_eq_error_iff hm
  | negSucc k => simp [shift, not_exceeds hm (Int.negSucc_lt_zero k).le]

/-! ## Numerals -/

theorem writtenExponent_none (h : n.exponent = none) : n.writtenExponent = 0 := by
  unfold writtenExponent
  rw [h]

theorem writtenExponent_some {negative : Bool} (h : n.exponent = some (negative, ds)) :
    n.writtenExponent = if negative then -(followed 0 ds : ℤ) else followed 0 ds := by
  unfold writtenExponent
  rw [h]

theorem abs_writtenExponent_lt_iff {negative : Bool} (h : n.exponent = some (negative, ds)) :
    |n.writtenExponent| < 2 ^ 31 ↔ followed 0 ds ≤ exponentLimit := by
  have hlimit : exponentLimit = 2 ^ 31 - 1 := by decide
  rw [writtenExponent_some h, hlimit]
  cases negative <;> simp <;> omega

/-- A numeral is converted to a double unless it overflows. -/
theorem magnitude_eq_error_iff :
    n.magnitude = .error problem ↔ problem = .malformed ∧ n.Overflows := by
  have hdecimals : n.fraction.getD [] = n.decimals := rfl
  unfold magnitude Overflows power
  simp only [absorb_whole, hdecimals, absorb_decimals, Nat.sub_sub_self (fitting_le _ _)]
  rcases hexponent : n.exponent with _ | ⟨negative, ds⟩
  · rw [writtenExponent_none hexponent, if_pos (by decide), add_zero]
    exact shift_eq_error_iff n.significand_lt
  · simp only [abs_writtenExponent_lt_iff hexponent]
    change (if followed 0 ds ≤ exponentLimit then _ else _) = _ ↔ _
    by_cases hlimit : followed 0 ds ≤ exponentLimit
    · rw [if_pos hlimit, if_pos hlimit, writtenExponent_some hexponent,
        shift_eq_error_iff n.significand_lt]
      cases negative <;> rfl
    · have hpos : 0 < followed 0 ds := Nat.zero_lt_of_lt (not_le.1 hlimit)
      rw [if_neg hlimit, if_neg hlimit, writtenExponent_some hexponent]
      cases negative
      · by_cases hzero : n.significand = 0
        · simp [hzero]
        · simp [hzero, hpos, eq_comm]
      · simp

/-- A whole number that fits 64 bits does not overflow. -/
theorem not_overflows_of_whole (hwhole : n.isWhole = true)
    (hfits : fitting 0 n.whole = n.whole.length) : ¬ n.Overflows := by
  obtain ⟨hfraction, hexponent⟩ : n.fraction = none ∧ n.exponent = none := by
    simpa [isWhole] using hwhole
  have hwritten := writtenExponent_none hexponent
  have hpower : n.power = 0 := by
    unfold power decimals
    rw [hfraction, hwritten, hfits, Nat.sub_self]
    rfl
  unfold Overflows
  rw [hwritten, hpower, if_pos (by decide)]
  exact not_exceeds n.significand_lt le_rfl

/-- A numeral has a value unless it overflows. -/
theorem value_eq_error_iff : n.value = .error problem ↔ problem = .malformed ∧ n.Overflows := by
  have hmap : ∀ f : Float → Number,
      n.magnitude.map f = .error problem ↔ n.magnitude = .error problem := by
    intro f
    cases n.magnitude <;> simp [Except.map]
  unfold value
  rw [absorb_whole]
  split
  next m hall =>
    have hfits : fitting 0 n.whole = n.whole.length :=
      le_antisymm (fitting_le 0 n.whole) (Nat.sub_eq_zero_iff_le.1 (Prod.ext_iff.1 hall).2)
    by_cases hwhole : n.isWhole
    · rw [if_pos hwhole]
      split_ifs <;> simp [not_overflows_of_whole hwhole hfits]
    · rw [if_neg hwhole, hmap, magnitude_eq_error_iff]
  next => rw [hmap, magnitude_eq_error_iff]

end Numeral

/-! ## Documents -/

/-- A number whose numeral overflows. -/
def Overflows (json : Json) : Prop :=
  ∃ n : Numeral, n.Overflows ∧ json = ofNumeral n

theorem Overflows.eq {json : Json} (h : json.Overflows) :
    json = .number (.error .malformed) none := by
  obtain ⟨n, hn, rfl⟩ := h
  rw [ofNumeral, Numeral.value_eq_error_iff.2 ⟨rfl, hn⟩]

theorem overflows_ofNumeral {n : Numeral} : (ofNumeral n).Overflows ↔ n.Overflows := by
  refine ⟨fun h => ?_, fun h => ⟨n, h, rfl⟩⟩
  have hvalue : n.value = .error .malformed := by
    injection h.eq
  exact (Numeral.value_eq_error_iff.1 hvalue).2

end TopologySync.Json
