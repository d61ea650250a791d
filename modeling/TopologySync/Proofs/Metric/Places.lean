-- The total order of the doubles. The bits of a double without its sign count the
-- doubles from zero up to its size, so that finite doubles have their places in the order
-- of their values. The two zeros are the only ones of one value, and negative zero comes
-- first.
import TopologySync.Metric.Sample
import TopologySync.Proofs.Doubles.Infinities

open Float.Model (Format UnpackedFloat)
open Float.Model.UnpackedFloat (Sign)
open TopologySync.Doubles

namespace TopologySync.Sample

variable {x y : Float} {m n : ℕ} {d e : ℤ}

/-! ## Bits -/

/-- No two doubles have one place. -/
theorem place_injective : Function.Injective place := by
  intro x y h
  have hx := x.toBits.toNat_lt
  have hy := y.toBits.toNat_lt
  have hsize : UInt64.size = 2 ^ 64 := rfl
  unfold place at h
  dsimp only at h
  rw [← Float.toBits_inj, ← UInt64.toNat_inj]
  split_ifs at h <;> omega

theorem toNat_packComponents (s : Sign) (e : BitVec 11) (m : BitVec 52) :
    (UnpackedFloat.packComponents Format.binary64 s e m).toNat =
      s.toBitVec.toNat * 2 ^ 63 + (e.toNat * 2 ^ 52 + m.toNat) := by
  change (s.toBitVec ++ e ++ m).toNat = _
  rw [BitVec.toNat_append, BitVec.toNat_append, ← Nat.shiftLeft_add_eq_or_of_lt e.isLt,
    ← Nat.shiftLeft_add_eq_or_of_lt m.isLt, Nat.shiftLeft_eq, Nat.shiftLeft_eq]
  omega

/-- The bits are those of the unpacked form. -/
theorem toBits_parts (x : Float) :
    x.toBits.toNat = (UnpackedFloat.pack Format.binary64 (parts x)).toNat := by
  have hvalid := UnpackedFloat.pack_unpack_of_valid x.toModel.valid
  exact congrArg BitVec.toNat hvalid.symm

/-- The number of doubles from zero up to a magnitude. -/
def rank (m : ℕ) (e : ℤ) : ℤ :=
  (e + 1074) * 2 ^ 52 + m

/-- The place of a number with a sign, from that of its size. -/
def signedPlace : Sign → ℤ → ℤ
  | .positive, k => k
  | .negative, k => -1 - k

theorem place_zero {s : Sign} (h : parts x = .zero s) : place x = signedPlace s 0 := by
  have hbits := toBits_parts x
  rw [h] at hbits
  unfold place
  rw [hbits]
  cases s <;> rfl

theorem place_of_bits {s : Sign} {k : ℕ} (hk : k < 2 ^ 63)
    (h : x.toBits.toNat = s.toBitVec.toNat * 2 ^ 63 + k) : place x = signedPlace s k := by
  unfold place signedPlace
  rw [h]
  have hsize : UInt64.size = 2 ^ 64 := rfl
  cases s with
  | positive =>
    have hzero : Sign.positive.toBitVec.toNat = 0 := rfl
    dsimp only
    rw [if_pos (by omega)]
    omega
  | negative =>
    have hone : Sign.negative.toBitVec.toNat = 1 := rfl
    dsimp only
    rw [if_neg (by omega)]
    omega

theorem place_finite {s : Sign} {hm : 0 < m} (h : parts x = .finite s m e hm) :
    place x = signedPlace s (rank m e) := by
  have hbits := toBits_parts x
  have hfits := fitting_parts x
  have hbound := bounded_parts x
  rw [h] at hbits hfits hbound
  obtain ⟨hfew, hcoarse, hfull⟩ : Fits m e := hfits
  have hlarge : e ≤ 971 := hbound
  obtain ⟨k, hk⟩ : ∃ k : ℕ, rank m e = k := Int.eq_ofNat_of_zero_le (by unfold rank; omega)
  rw [hk]
  unfold rank at hk
  refine place_of_bits (by omega) (hbits.trans ?_)
  by_cases hnormal : 2 ^ 52 ≤ m
  · rw [pack_normal s hm hcoarse hlarge ((Nat.log2_eq_iff hm.ne').2 ⟨hnormal, hfew⟩),
      toNat_packComponents, BitVec.toNat_ofNat, BitVec.toNat_ofNat]
    omega
  · obtain rfl : e = -1074 := hfull.resolve_left hnormal
    rw [pack_subnormal s hm ((Nat.log2_lt hm.ne').2 (not_le.1 hnormal)), toNat_packComponents,
      BitVec.toNat_ofNat, BitVec.toNat_ofNat]
    omega

/-! ## Order -/

/-- A finite double has a sign and a size that fits, which is zero for both zeros. -/
theorem exists_size (h : x.isFinite = true) :
    ∃ s m e, Fits m e ∧ value x = signed s (m * 2 ^ e) ∧ place x = signedPlace s (rank m e) := by
  obtain ⟨s, hs⟩ | ⟨s, m, e, hm, hs, hfits, -⟩ := (sound_parts h).cases
  · have hzero : value x = 0 := by
      unfold value
      rw [hs, amount_zero]
    refine ⟨s, 0, -1074, ⟨by norm_num, le_rfl, .inr rfl⟩, ?_, place_zero hs⟩
    rw [hzero, Nat.cast_zero, zero_mul]
    cases s with
    | positive => rfl
    | negative => exact neg_zero.symm
  · refine ⟨s, m, e, hfits, ?_, place_finite hs⟩
    unfold value
    rw [hs]
    rfl

theorem rank_lt (h : Fits m d) (h' : Fits n e) (hlt : (m : ℝ) * 2 ^ d < n * 2 ^ e) :
    rank m d < rank n e := by
  have hfew := h.few
  have hfull := h'.full
  have hcoarse := h.coarse
  unfold rank
  rcases lt_trichotomy d e with hde | rfl | hed
  · omega
  · have hmn : m < n := by
      exact_mod_cast lt_of_mul_lt_mul_right hlt (two_zpow_pos d).le
    omega
  · exact absurd hlt (magnitude_lt h' h hed).not_gt

/-- Doubles have their places in the order of their values. -/
theorem place_lt_of_value_lt (hx : x.isFinite = true) (hy : y.isFinite = true)
    (h : value x < value y) : place x < place y := by
  obtain ⟨s, m, d, hfits, hvalue, hplace⟩ := exists_size hx
  obtain ⟨t, n, e, hfits', hvalue', hplace'⟩ := exists_size hy
  have hcoarse := hfits.coarse
  have hcoarse' := hfits'.coarse
  have hpos : (0 : ℝ) ≤ m * 2 ^ d := mul_nonneg (Nat.cast_nonneg m) (two_zpow_pos d).le
  have hpos' : (0 : ℝ) ≤ n * 2 ^ e := mul_nonneg (Nat.cast_nonneg n) (two_zpow_pos e).le
  rw [hvalue, hvalue'] at h
  rw [hplace, hplace']
  match s, t with
  | .positive, .positive => exact rank_lt hfits hfits' h
  | .negative, .negative => exact sub_lt_sub_left (rank_lt hfits' hfits (neg_lt_neg_iff.1 h)) _
  | .positive, .negative => exact absurd h (not_lt.2 ((neg_nonpos.2 hpos').trans hpos))
  | .negative, .positive =>
    change -1 - rank m d < rank n e
    unfold rank
    omega

/-- A double comes before another one in the total order, or is the same. -/
def Before (x y : Float) : Prop :=
  x < y ∨ x = y ∨ x = -0.0 ∧ y = 0.0

theorem before_of_place_le (hx : x.isFinite = true) (hy : y.isFinite = true)
    (h : place x ≤ place y) : Before x y := by
  have hnumber := number_of_finite hx
  have hnumber' := number_of_finite hy
  rcases lt_trichotomy (value x) (value y) with hlt | heq | hgt
  · exact .inl ((lt_iff hnumber hnumber').2 hlt)
  · -- Doubles of one value are the same, or the two zeros.
    obtain ⟨-, -, hsame | ⟨hzero, hneg⟩ | hzeros⟩ :=
      Float.beq_iff_ne_nan_and_eq.1 ((beq_iff hnumber hnumber').2 heq)
    · exact .inr (.inl hsame)
    · rw [hzero, hneg] at h
      exact absurd h (by decide)
    · exact .inr (.inr hzeros)
  · exact absurd (place_lt_of_value_lt hy hx hgt) (not_lt.2 h)

end TopologySync.Sample
