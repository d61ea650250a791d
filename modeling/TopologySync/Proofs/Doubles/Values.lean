-- The real numbers that doubles stand for. Infinity stands for the limit, so that
-- doubles that are numbers are in order as their values are.
import Mathlib
import TopologySync.Proofs.Doubles.Rounding

open Float.Model (Format UnpackedFloat)
open Float.Model.UnpackedFloat (Sign)

namespace TopologySync.Doubles

variable {u v : UnpackedFloat} {x y : Float}

/-! ## Unpacked doubles -/

/-- A mantissa that fills its 53 digits, or has the smallest exponent. -/
structure Fits (m : ℕ) (e : ℤ) : Prop where
  few : m < 2 ^ 53
  coarse : -1074 ≤ e
  full : 2 ^ 52 ≤ m ∨ e = -1074

/-- The mantissa fits if there is one. -/
def Fitting : UnpackedFloat → Prop
  | .finite _ m e _ => Fits m e
  | _ => True

/-- The exponent is one that a double can have. -/
def Bounded : UnpackedFloat → Prop
  | .finite _ _ e _ => e ≤ 971
  | _ => True

/-- What is too large for a double becomes infinite. -/
def capped : UnpackedFloat → UnpackedFloat
  | .finite s m e h => if e ≤ 971 then .finite s m e h else .infinity s
  | u => u

/-! ## Packing -/

section Packing

variable (s : Sign) {m : ℕ} {e : ℤ}

theorem toNat_leading (m : BitVec 52) : (1#1 ++ m).toNat = 2 ^ 52 + m.toNat := by
  rw [BitVec.toNat_append, ← Nat.shiftLeft_add_eq_or_of_lt m.isLt]
  rfl

theorem unpack_infinity :
    UnpackedFloat.unpack Format.binary64 (UnpackedFloat.packedInfinity Format.binary64 s) =
      .infinity s := by
  cases s <;> rfl

theorem unpack_normal {e : BitVec 11} (m : BitVec 52) (hlarge : e ≠ -1#11) (hsmall : e ≠ 0#11) :
    UnpackedFloat.unpack Format.binary64 (UnpackedFloat.packComponents Format.binary64 s e m) =
      .finite s (2 ^ 52 + m.toNat) (e.toNat - 1075) (by omega) := by
  unfold UnpackedFloat.unpack
  simp only [UnpackedFloat.unpackExponent_packComponents,
    UnpackedFloat.unpackMantissa_packComponents, UnpackedFloat.unpackSign_packComponents,
    Sign.ofBitVec_toBitVec, toNat_leading, if_neg hlarge, if_neg hsmall]
  rfl

theorem unpack_subnormal {m : BitVec 52} (h : 0 < m.toNat) :
    UnpackedFloat.unpack Format.binary64 (UnpackedFloat.packComponents Format.binary64 s 0#11 m) =
      .finite s m.toNat (-1074) h := by
  have hm : m ≠ 0#52 := by
    rintro rfl
    exact absurd h (by decide)
  unfold UnpackedFloat.unpack
  simp only [UnpackedFloat.unpackExponent_packComponents,
    UnpackedFloat.unpackMantissa_packComponents, UnpackedFloat.unpackSign_packComponents,
    Sign.ofBitVec_toBitVec, if_pos, dif_neg hm]
  rfl

theorem biased (e : ℤ) :
    (e + (Format.binary64.exponentBias : ℤ) + (52 : ℕ)).toNat = (e + 1075).toNat := by
  change (e + 1023 + 52).toNat = _
  omega

theorem pack_large (hpos : 0 < m) (h : 971 < e) :
    UnpackedFloat.pack Format.binary64 (.finite s m e hpos) =
      UnpackedFloat.packedInfinity Format.binary64 s := by
  unfold UnpackedFloat.pack
  simp only [biased]
  exact if_pos (by omega)

theorem pack_normal (hpos : 0 < m) (hcoarse : -1074 ≤ e) (h : e ≤ 971) (hlog : m.log2 = 52) :
    UnpackedFloat.pack Format.binary64 (.finite s m e hpos) =
      UnpackedFloat.packComponents Format.binary64 s (.ofNat 11 (e + 1075).toNat)
        (.ofNat 52 m) := by
  unfold UnpackedFloat.pack
  simp only [biased]
  rw [if_neg (by omega), if_pos (by rw [hlog]; rfl)]

theorem pack_subnormal (hpos : 0 < m) (hlog : m.log2 < 52) :
    UnpackedFloat.pack Format.binary64 (.finite s m (-1074) hpos) =
      UnpackedFloat.packComponents Format.binary64 s 0#11 (.ofNat 52 m) := by
  unfold UnpackedFloat.pack
  simp only [biased]
  rw [if_neg (by decide), if_neg]
  change m.log2 + 1 ≠ 53
  omega

/-- Packing keeps a mantissa that fits, unless the exponent is too large. -/
theorem unpack_pack_finite (h : Fits m e) (hpos : 0 < m) :
    UnpackedFloat.unpack Format.binary64 (UnpackedFloat.pack Format.binary64 (.finite s m e hpos)) =
      capped (.finite s m e hpos) := by
  obtain ⟨hfew, hcoarse, hfull⟩ := h
  unfold capped
  dsimp only
  split_ifs with hlarge
  · by_cases hnormal : 2 ^ 52 ≤ m
    · have he : (BitVec.ofNat 11 (e + 1075).toNat).toNat = (e + 1075).toNat := by
        rw [BitVec.toNat_ofNat]
        omega
      rw [pack_normal s hpos hcoarse hlarge ((Nat.log2_eq_iff hpos.ne').2 ⟨hnormal, hfew⟩),
        unpack_normal s]
      · congr 1
        · rw [BitVec.toNat_ofNat]
          omega
        · omega
      · rw [ne_eq, ← BitVec.toNat_inj, he, show (-1#11).toNat = 2047 from rfl]
        omega
      · rw [ne_eq, ← BitVec.toNat_inj, he, BitVec.toNat_ofNat]
        omega
    · obtain rfl : e = -1074 := hfull.resolve_left hnormal
      have hm : (BitVec.ofNat 52 m).toNat = m := by
        rw [BitVec.toNat_ofNat]
        omega
      rw [pack_subnormal s hpos ((Nat.log2_lt hpos.ne').2 (not_le.1 hnormal)),
        unpack_subnormal s (by omega)]
      congr 1
  · rw [pack_large s hpos (not_le.1 hlarge), unpack_infinity]

theorem unpack_pack (h : Fitting u) :
    UnpackedFloat.unpack Format.binary64 (UnpackedFloat.pack Format.binary64 u) = capped u := by
  cases u with
  | notANumber => rfl
  | infinity s => exact unpack_infinity s
  | zero s => exact UnpackedFloat.unpack_packedZero
  | finite s m e hpos => exact unpack_pack_finite s h hpos

/-- What a double is unpacked to fits, and its exponent is not too large. -/
theorem unpack_fits (bits : BitVec 64) :
    Fitting (UnpackedFloat.unpack Format.binary64 bits) ∧
      Bounded (UnpackedFloat.unpack Format.binary64 bits) := by
  have hm := (@UnpackedFloat.unpackMantissa Format.binary64 bits).isLt
  have he := (@UnpackedFloat.unpackExponent Format.binary64 bits).isLt
  have hbias : (Format.binary64.exponentBias : ℤ) = 1023 := rfl
  unfold UnpackedFloat.unpack
  dsimp only at hm he ⊢
  split_ifs with hlarge hzero hsmall hzero
  · exact ⟨trivial, trivial⟩
  · exact ⟨trivial, trivial⟩
  · exact ⟨trivial, trivial⟩
  · rw [hsmall, BitVec.toNat_ofNat, hbias]
    exact ⟨⟨by omega, by omega, .inr (by omega)⟩, by unfold Bounded; omega⟩
  · rw [← BitVec.toNat_inj] at hlarge hsmall
    replace hlarge : (@UnpackedFloat.unpackExponent Format.binary64 bits).toNat ≠ 2047 := hlarge
    replace hsmall : (@UnpackedFloat.unpackExponent Format.binary64 bits).toNat ≠ 0 := hsmall
    rw [hbias]
    refine ⟨⟨?_, by omega, .inl ?_⟩, by unfold Bounded; omega⟩ <;> rw [toNat_leading] <;> omega

end Packing

/-! ## Order -/

section Order

variable {m n : ℕ} {d e : ℤ}

theorem magnitude_lt (h : Fits m d) (h' : Fits n e) (hlt : d < e) :
    (m : ℝ) * 2 ^ d < n * 2 ^ e := by
  have hm : (m : ℝ) < 2 ^ (53 : ℤ) := by exact_mod_cast h.few
  have hn : 2 ^ (52 : ℤ) ≤ (n : ℝ) := by
    exact_mod_cast h'.full.resolve_right (by have := h.coarse; omega)
  calc (m : ℝ) * 2 ^ d < 2 ^ (53 : ℤ) * 2 ^ d := mul_lt_mul_of_pos_right hm (two_zpow_pos d)
    _ = 2 ^ (53 + d) := (two_zpow_add 53 d).symm
    _ ≤ 2 ^ (52 + e) := zpow_le_zpow_right₀ one_le_two (by omega)
    _ = 2 ^ (52 : ℤ) * 2 ^ e := two_zpow_add 52 e
    _ ≤ n * 2 ^ e := mul_le_mul_of_nonneg_right hn (two_zpow_pos e).le

theorem magnitude_pos (hpos : 0 < m) (e : ℤ) : (0 : ℝ) < m * 2 ^ e :=
  mul_pos (Nat.cast_pos.2 hpos) (two_zpow_pos e)

theorem limit_eq : limit = (2 ^ 52 : ℕ) * 2 ^ (972 : ℤ) := by
  rw [natCast_two_pow, ← two_zpow_add]
  rfl

/-- A mantissa that fits is under the limit if its exponent is not too large, and only then. -/
theorem magnitude_lt_limit (h : Fits m e) : (m : ℝ) * 2 ^ e < limit ↔ e ≤ 971 := by
  have hlimit : Fits (2 ^ 52) 972 := ⟨by omega, by omega, .inl le_rfl⟩
  rw [limit_eq]
  refine ⟨fun hlt => ?_, fun hle => magnitude_lt h hlimit (by omega)⟩
  by_contra hlarge
  refine absurd hlt (not_lt.2 ?_)
  have hm : (2 ^ 52 : ℕ) ≤ m := h.full.resolve_right (by omega)
  exact mul_le_mul (by exact_mod_cast hm) (zpow_le_zpow_right₀ one_le_two (by omega))
    (two_zpow_pos _).le (Nat.cast_nonneg m)

/-- The order of two real numbers. -/
inductive Tells (r s : ℝ) : Option Ordering → Prop
  | lt (h : r < s) : Tells r s (some .lt)
  | eq (h : r = s) : Tells r s (some .eq)
  | gt (h : s < r) : Tells r s (some .gt)

theorem Tells.swap {r s : ℝ} {o : Ordering} (h : Tells r s (some o)) :
    Tells (-r) (-s) (some o.swap) := by
  cases h with
  | lt h => exact .gt (neg_lt_neg h)
  | eq h => exact .eq (congrArg _ h)
  | gt h => exact .lt (neg_lt_neg h)

theorem tells_magnitudes (h : Fits m d) (h' : Fits n e) :
    Tells (m * 2 ^ d) (n * 2 ^ e) (some ((compare d e).then (compare m n))) := by
  rcases lt_trichotomy d e with hlt | rfl | hgt
  · rw [compare_lt_iff_lt.2 hlt]
    exact .lt (magnitude_lt h h' hlt)
  · rw [compare_eq_iff_eq.2 rfl, Ordering.eq_then]
    have hpos := two_zpow_pos d
    rcases lt_trichotomy m n with hlt | rfl | hgt
    · rw [compare_lt_iff_lt.2 hlt]
      exact .lt (mul_lt_mul_of_pos_right (Nat.cast_lt.2 hlt) hpos)
    · rw [compare_eq_iff_eq.2 rfl]
      exact .eq rfl
    · rw [compare_gt_iff_gt.2 hgt]
      exact .gt (mul_lt_mul_of_pos_right (Nat.cast_lt.2 hgt) hpos)
  · rw [compare_gt_iff_gt.2 hgt]
    exact .gt (magnitude_lt h' h hgt)

/-- The order of two numbers with signs, from that of their sizes. -/
def signedOrder (o : Ordering) : Sign → Sign → Ordering
  | .positive, .positive => o
  | .negative, .negative => o.swap
  | .positive, .negative => .gt
  | .negative, .positive => .lt

theorem Tells.signed {r r' : ℝ} {o : Ordering} (h : Tells r r' (some o)) (hr : 0 < r)
    (hr' : 0 < r') (s t : Sign) :
    Tells (signed s r) (signed t r') (some (signedOrder o s t)) := by
  match s, t with
  | .positive, .positive => exact h
  | .negative, .negative => exact h.swap
  | .positive, .negative => exact .gt ((neg_neg_of_pos hr').trans hr)
  | .negative, .positive => exact .lt ((neg_neg_of_pos hr).trans hr')

/-- Unpacked doubles are compared as what they stand for. -/
theorem tells_amounts (hu : Fitting u) (hu' : Bounded u) (hv : Fitting v) (hv' : Bounded v)
    (hunum : u.isNaN = false) (hvnum : v.isNaN = false) :
    Tells (amount u) (amount v) (u.compare v) := by
  cases u with
  | notANumber => cases hunum
  | infinity s =>
    cases v with
    | notANumber => cases hvnum
    | infinity t =>
      have htells := (Tells.eq (rfl : limit = limit)).signed limit_pos limit_pos s t
      cases s <;> cases t <;> exact htells
    | zero t =>
      cases s with
      | positive => exact .gt limit_pos
      | negative => exact .lt (neg_neg_of_pos limit_pos)
    | finite t n e hn =>
      have hlt := (magnitude_lt_limit hv).2 hv'
      have htells := (Tells.gt hlt).signed limit_pos (magnitude_pos hn e) s t
      cases s <;> cases t <;> exact htells
  | zero s =>
    cases v with
    | notANumber => cases hvnum
    | infinity t =>
      cases t with
      | positive => exact .lt limit_pos
      | negative => exact .gt (neg_neg_of_pos limit_pos)
    | zero t => exact .eq rfl
    | finite t n e hn =>
      cases t with
      | positive => exact .lt (magnitude_pos hn e)
      | negative => exact .gt (neg_neg_of_pos (magnitude_pos hn e))
  | finite s m d hm =>
    cases v with
    | notANumber => cases hvnum
    | infinity t =>
      have hlt := (magnitude_lt_limit hu).2 hu'
      have htells := (Tells.lt hlt).signed (magnitude_pos hm d) limit_pos s t
      cases s <;> cases t <;> exact htells
    | zero t =>
      cases s with
      | positive => exact .gt (magnitude_pos hm d)
      | negative => exact .lt (neg_neg_of_pos (magnitude_pos hm d))
    | finite t n e hn =>
      have htells := (tells_magnitudes hu hv).signed (magnitude_pos hm d) (magnitude_pos hn e) s t
      cases s <;> cases t <;> exact htells

end Order

/-! ## Doubles -/

/-- The unpacked form of a double. -/
def parts (x : Float) : UnpackedFloat :=
  x.toModel.unpack

/-- What a double stands for. -/
noncomputable def value (x : Float) : ℝ :=
  amount (parts x)

theorem fitting_parts (x : Float) : Fitting (parts x) :=
  (unpack_fits _).1

theorem bounded_parts (x : Float) : Bounded (parts x) :=
  (unpack_fits _).2

theorem parts_pack (h : Fitting u) : parts (.ofModel (.pack u)) = capped u :=
  unpack_pack h

theorem add_unpacked (x y : Float) :
    x + y = .ofModel (.pack (UnpackedFloat.add Format.binary64 (parts x) (parts y))) :=
  rfl

theorem sub_unpacked (x y : Float) :
    x - y = .ofModel (.pack (UnpackedFloat.sub Format.binary64 (parts x) (parts y))) :=
  rfl

theorem mul_unpacked (x y : Float) :
    x * y = .ofModel (.pack (UnpackedFloat.mul Format.binary64 (parts x) (parts y))) :=
  rfl

theorem div_unpacked (x y : Float) :
    x / y = .ofModel (.pack (UnpackedFloat.div Format.binary64 (parts x) (parts y))) :=
  rfl

theorem sqrt_unpacked (x : Float) :
    x.sqrt = .ofModel (.pack (UnpackedFloat.sqrt Format.binary64 (parts x))) :=
  rfl

theorem tells_values (hx : x.isNaN = false) (hy : y.isNaN = false) :
    Tells (value x) (value y) ((parts x).compare (parts y)) :=
  tells_amounts (fitting_parts x) (bounded_parts x) (fitting_parts y) (bounded_parts y) hx hy

theorem lt_iff (hx : x.isNaN = false) (hy : y.isNaN = false) : x < y ↔ value x < value y := by
  have hlt : x < y ↔ ((parts x).compare (parts y) == some .lt) = true := decide_eq_true_iff
  have htells := tells_values hx hy
  rw [hlt]
  generalize (parts x).compare (parts y) = told at htells ⊢
  cases htells with
  | lt h => simp [h]
  | eq h => simp [h]
  | gt h => simp [h.le]

theorem le_iff (hx : x.isNaN = false) (hy : y.isNaN = false) : x ≤ y ↔ value x ≤ value y := by
  have hle : x ≤ y ↔ ((parts x).compare (parts y)).any (·.isLE) = true := decide_eq_true_iff
  have htells := tells_values hx hy
  rw [hle]
  generalize (parts x).compare (parts y) = told at htells ⊢
  cases htells with
  | lt h => simp [h.le]
  | eq h => simp [h]
  | gt h => simp [h]

theorem beq_iff (hx : x.isNaN = false) (hy : y.isNaN = false) :
    (x == y) = true ↔ value x = value y := by
  have hbeq : (x == y) = true ↔ ((parts x).compare (parts y) == some .eq) = true := Iff.rfl
  have htells := tells_values hx hy
  rw [hbeq]
  generalize (parts x).compare (parts y) = told at htells ⊢
  cases htells with
  | lt h => simp [h.ne]
  | eq h => simp [h]
  | gt h => simp [h.ne']

theorem parts_of_isNaN (h : x.isNaN = true) : parts x = .notANumber :=
  UnpackedFloat.isNaN_iff.1 h

theorem compare_of_isNaN (h : x.isNaN = true ∨ y.isNaN = true) :
    (parts x).compare (parts y) = none := by
  rcases h with h | h <;> rw [parts_of_isNaN h]
  · rfl
  · cases parts x <;> rfl

/-- Nothing compares with what is no number. -/
theorem not_lt_of_isNaN (h : x.isNaN = true ∨ y.isNaN = true) : ¬ x < y := by
  have hlt : x < y ↔ ((parts x).compare (parts y) == some .lt) = true := decide_eq_true_iff
  rw [hlt, compare_of_isNaN h]
  exact Bool.false_ne_true

theorem not_le_of_isNaN (h : x.isNaN = true ∨ y.isNaN = true) : ¬ x ≤ y := by
  have hle : x ≤ y ↔ ((parts x).compare (parts y)).any (·.isLE) = true := decide_eq_true_iff
  rw [hle, compare_of_isNaN h]
  exact Bool.false_ne_true

theorem beq_of_isNaN (h : x.isNaN = true ∨ y.isNaN = true) : (x == y) = false := by
  have hbeq : (x == y) = ((parts x).compare (parts y) == some .eq) := rfl
  rw [hbeq, compare_of_isNaN h]
  rfl

/-! ## Size -/

theorem abs_signed (s : Sign) (r : ℝ) : |signed s r| = |r| := by
  cases s with
  | positive => rfl
  | negative => exact abs_neg r

theorem Steps.signed {r : ℝ} {k e : ℤ} (h : Steps r k e) (s : Sign) :
    ∃ k, Steps (signed s r) k e := by
  cases s with
  | positive => exact ⟨k, h⟩
  | negative => exact ⟨-k, h.neg⟩

theorem exists_steps_amount (hu : Fitting u) : ∃ k e, Steps (amount u) k e := by
  have hzero : Steps 0 0 0 := ⟨by norm_num, by norm_num, by norm_num⟩
  cases u with
  | notANumber => exact ⟨0, 0, hzero⟩
  | infinity s =>
    have hlimit : Steps limit 1 1024 := steps_two_zpow (by norm_num)
    exact (hlimit.signed s).imp fun _ h => ⟨1024, h⟩
  | zero s => exact ⟨0, 0, hzero⟩
  | finite s m e h =>
    have hm : Steps (m * 2 ^ e) m e :=
      ⟨by rw [Nat.abs_cast]; exact_mod_cast hu.few.le, hu.coarse, by rw [Int.cast_natCast]⟩
    exact (hm.signed s).imp fun _ h => ⟨e, h⟩

theorem abs_amount_le (hu : Fitting u) (hu' : Bounded u) : |amount u| ≤ limit := by
  cases u with
  | notANumber => exact abs_zero.trans_le limit_pos.le
  | infinity s => exact (abs_signed s limit).trans_le (abs_of_pos limit_pos).le
  | zero s => exact abs_zero.trans_le limit_pos.le
  | finite s m e h =>
    refine (abs_signed s _).trans_le ?_
    rw [abs_of_pos (magnitude_pos h e)]
    exact ((magnitude_lt_limit hu).2 hu').le

/-- What is a double already is not changed by rounding. -/
theorem rounded_value (x : Float) : rounded (value x) = value x := by
  obtain ⟨k, e, h⟩ := exists_steps_amount (fitting_parts x)
  exact rounded_of_steps h (abs_amount_le (fitting_parts x) (bounded_parts x))

/-- Twice a double is one too, or too large, so that rounding does not pass it. -/
theorem rounded_le_two_mul {r : ℝ} (h : r ≤ 2 * |value x|) : rounded r ≤ 2 * |value x| := by
  obtain ⟨k, e, hsteps⟩ := exists_steps_amount (fitting_parts x)
  calc rounded r ≤ rounded (2 * |value x|) := rounded_mono h
    _ = min (2 * |value x|) limit :=
      hsteps.abs.double.rounded (mul_nonneg zero_le_two (abs_nonneg _))
    _ ≤ 2 * |value x| := min_le_left _ _

theorem abs_value_le (x : Float) : |value x| ≤ limit :=
  abs_amount_le (fitting_parts x) (bounded_parts x)

/-- There is a smallest double over zero. -/
theorem two_zpow_le_value (h : 0 < value x) : 2 ^ (-1074 : ℤ) ≤ value x := by
  obtain ⟨k, e, -, hcoarse, hvalue⟩ := exists_steps_amount (fitting_parts x)
  change value x = k * 2 ^ e at hvalue
  rw [hvalue] at h ⊢
  have hk : (0 : ℝ) < k := pos_of_mul_pos_left h (two_zpow_pos e).le
  have hone : (1 : ℝ) ≤ k := by exact_mod_cast Int.cast_pos.1 hk
  calc (2 : ℝ) ^ (-1074 : ℤ) ≤ 2 ^ e := zpow_le_zpow_right₀ one_le_two hcoarse
    _ ≤ k * 2 ^ e := le_mul_of_one_le_left (two_zpow_pos e).le hone

/-- A double is finite if it is a number within the limit. -/
theorem isFinite_iff : x.isFinite = true ↔ x.isNaN = false ∧ |value x| < limit := by
  have hfits := fitting_parts x
  have hbound := bounded_parts x
  change (parts x).isFinite = true ↔ (parts x).isNaN = false ∧ |amount (parts x)| < limit
  generalize parts x = u at hfits hbound ⊢
  cases u with
  | notANumber => simp [UnpackedFloat.isFinite, UnpackedFloat.isNaN]
  | infinity s => simp [UnpackedFloat.isFinite, amount, abs_signed, abs_of_pos limit_pos]
  | zero s => simp [UnpackedFloat.isFinite, UnpackedFloat.isNaN, amount, limit_pos]
  | finite s m e h =>
    simp [UnpackedFloat.isFinite, UnpackedFloat.isNaN, amount, abs_signed,
      abs_of_pos (magnitude_pos h e), (magnitude_lt_limit hfits).2 hbound]

/-- An unpacked double is finite, and as doubles are. -/
structure Sound (u : UnpackedFloat) : Prop where
  fitting : Fitting u
  bounded : Bounded u
  finite : u.isFinite = true

theorem sound_parts (h : x.isFinite = true) : Sound (parts x) :=
  ⟨fitting_parts x, bounded_parts x, h⟩

theorem Sound.cases (h : Sound u) :
    (∃ s, u = .zero s) ∨ ∃ s m e hm, u = .finite s m e hm ∧ Fits m e ∧ e ≤ 971 := by
  cases u with
  | notANumber => cases h.finite
  | infinity s => cases h.finite
  | zero s => exact .inl ⟨s, rfl⟩
  | finite s m e hm => exact .inr ⟨s, m, e, hm, rfl, h.fitting, h.bounded⟩

theorem amount_zero (s : Sign) : amount (.zero s) = 0 :=
  rfl

/-- A double is the number that a real number is rounded to. -/
structure Gives (x : Float) (r : ℝ) : Prop where
  number : x.isNaN = false
  value : value x = rounded r

end TopologySync.Doubles
