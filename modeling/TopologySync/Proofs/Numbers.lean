-- Which doubles are numbers. A whole number never becomes NaN, so that only
-- a reported fraction can fail to be a number.
import Mathlib
import TopologySync.Event

open Float.Model (Format UnpackedFloat)

namespace TopologySync

/-! ## Doubles -/

namespace Numbers

theorem isNaN_unpack {format : Format} {bits : BitVec format.numBits}
    (h : UnpackedFloat.unpackExponent bits = -1#_ → UnpackedFloat.unpackMantissa bits = 0#_) :
    (UnpackedFloat.unpack format bits).isNaN = false := by
  unfold UnpackedFloat.unpack
  by_cases hfull : UnpackedFloat.unpackExponent bits = -1#_
  · simp [hfull, h hfull, UnpackedFloat.isNaN]
  · simp only [hfull, if_false]
    split
    · split <;> rfl
    · rfl

theorem isNaN_unpack_pack (format : Format) {x : UnpackedFloat} (h : x.isNaN = false) :
    (UnpackedFloat.unpack format (UnpackedFloat.pack format x)).isNaN = false := by
  have hbits := format.he
  apply isNaN_unpack
  fun_cases UnpackedFloat.pack with
  | case1 => cases h
  | case2 sign => simp [UnpackedFloat.packedInfinity]
  | case3 sign => simp [UnpackedFloat.packedZero]
  | case4 sign mantissa exponent hpos biased hbig => simp [UnpackedFloat.packedInfinity]
  | case5 sign mantissa exponent hpos bits biased hsmall hnormal =>
    -- The largest exponent is kept for infinity and NaN.
    have hmod : biased % 2 ^ format.exponentBits = biased := Nat.mod_eq_of_lt (by omega)
    intro hfull
    rw [UnpackedFloat.unpackExponent_packComponents, BitVec.neg_one_eq_allOnes, ← BitVec.toNat_inj,
      BitVec.toNat_ofNat, BitVec.toNat_allOnes, hmod] at hfull
    omega
  | case6 sign mantissa exponent hpos bits biased hsmall hsubnormal =>
    simp [Nat.ne_of_gt hbits]

theorem isNaN_round (format : Format) (sign : UnpackedFloat.Sign) (mantissa : Nat)
    (exponent : Int) : (UnpackedFloat.round format sign mantissa exponent).isNaN = false := by
  unfold UnpackedFloat.round UnpackedFloat.roundWithAccuracy
  dsimp only
  split <;> rfl

theorem isNaN_ofNat (format : Format) (n : Nat) : (UnpackedFloat.ofNat format n).isNaN = false := by
  unfold UnpackedFloat.ofNat UnpackedFloat.ofInt UnpackedFloat.normalize
  split
  · exact isNaN_round _ _ _ _
  · rfl
  · exact isNaN_round _ _ _ _

theorem isNaN_uint32 (n : UInt32) : n.toFloat.isNaN = false :=
  isNaN_unpack_pack _ (isNaN_ofNat _ _)

theorem isNaN_uint64 (n : UInt64) : n.toFloat.isNaN = false :=
  isNaN_unpack_pack _ (isNaN_ofNat _ _)

end Numbers

/-! ## Reports -/

/-- The fractions that a link reports are numbers. -/
structure Link.Numeric (link : Link) : Prop where
  packetLoss : link.packetLoss.isNaN = false
  normalizedDelay : link.normalizedDelay.isNaN = false
  normalizedJitter : link.normalizedJitter.isNaN = false
  normalizedPacketLoss : link.normalizedPacketLoss.isNaN = false

/-- The fractions that an event carries are numbers. -/
def Event.Numeric : Event → Prop
  | addLink link | updateLink link => link.Numeric
  | _ => True

theorem Link.isNaN_weight {link : Link} (h : link.Numeric) (kind : WeightKind) :
    (link.weight kind).isNaN = false := by
  cases kind with
  | igpMetric => exact Numbers.isNaN_uint32 _
  | delay => exact Numbers.isNaN_uint32 _
  | jitter => exact Numbers.isNaN_uint32 _
  | maxBandwidth => exact Numbers.isNaN_uint64 _
  | availableBandwidth => exact Numbers.isNaN_uint64 _
  | utilizedBandwidth => exact Numbers.isNaN_uint64 _
  | packetLoss => exact h.packetLoss
  | normalizedDelay => exact h.normalizedDelay
  | normalizedJitter => exact h.normalizedJitter
  | normalizedPacketLoss => exact h.normalizedPacketLoss

end TopologySync
