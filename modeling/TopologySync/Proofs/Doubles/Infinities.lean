-- The arithmetic of doubles past the finite ones. What overflowed never becomes finite
-- again, unless something finite is divided by it.
import TopologySync.Proofs.Doubles.Arithmetic

open Float.Model (Format UnpackedFloat)
open Float.Model.UnpackedFloat (Sign)

namespace TopologySync.Doubles

variable {x y : Float} {u v : UnpackedFloat} {s t : Sign} {r : ℝ}

/-! ## Kinds of doubles -/

theorem parts_infinity (s : Sign) : parts (.ofModel (.pack (.infinity s))) = .infinity s :=
  parts_pack trivial

theorem parts_notANumber : parts (.ofModel (.pack .notANumber)) = .notANumber :=
  parts_pack trivial

theorem number_of_finite (h : x.isFinite = true) : x.isNaN = false :=
  (isFinite_iff.1 h).1

theorem not_finite_of_infinity (h : parts x = .infinity s) : x.isFinite = false := by
  change (parts x).isFinite = false
  rw [h]
  rfl

theorem number_of_infinity (h : parts x = .infinity s) : x.isNaN = false := by
  change (parts x).isNaN = false
  rw [h]
  rfl

theorem value_of_infinity (h : parts x = .infinity s) : value x = signed s limit := by
  unfold value
  rw [h]
  rfl

/-- A number is finite or infinite. -/
theorem finite_or_infinity (h : x.isNaN = false) :
    x.isFinite = true ∨ ∃ s, parts x = .infinity s := by
  change (parts x).isNaN = false at h
  change (parts x).isFinite = true ∨ _
  generalize parts x = u at h ⊢
  cases u with
  | notANumber => cases h
  | infinity s => exact .inr ⟨s, rfl⟩
  | zero s => exact .inl rfl
  | finite s m e hm => exact .inl rfl

theorem infinity_of_value (h : x.isNaN = false) (hs : value x = signed s limit) :
    parts x = .infinity s := by
  have hlimit := limit_pos
  rcases finite_or_infinity h with hfinite | ⟨t, ht⟩
  · have hlt := (isFinite_iff.1 hfinite).2
    rw [hs, abs_signed, abs_of_pos hlimit] at hlt
    exact absurd hlt (lt_irrefl _)
  · rw [value_of_infinity ht] at hs
    rw [ht, (signed_inj hlimit hlimit.le hs).1]

theorem isInf_of_infinity (h : parts x = .infinity s) : x.isInf = true := by
  change (parts x).isInf = true
  rw [h]
  rfl

theorem not_isInf_of_finite (h : x.isFinite = true) : ¬ x.isInf = true := by
  change (parts x).isFinite = true at h
  change ¬ (parts x).isInf = true
  generalize parts x = u at h ⊢
  cases u with
  | infinity s => cases h
  | _ => exact Bool.false_ne_true

/-- A result that is not negative is infinite if it is rounded to the limit, and only then. -/
theorem Gives.isInf_iff (h : Gives x r) (hr : 0 ≤ r) : x.isInf = true ↔ limit ≤ rounded r := by
  rcases finite_or_infinity h.number with hfinite | ⟨s, hs⟩
  · have hlt := (isFinite_iff.1 hfinite).2
    rw [h.value, abs_of_nonneg (rounded_nonneg hr)] at hlt
    exact iff_of_false (not_isInf_of_finite hfinite) (not_le.2 hlt)
  · have hvalue := congrArg abs (h.value.symm.trans (value_of_infinity hs))
    rw [abs_of_nonneg (rounded_nonneg hr), abs_signed, abs_of_pos limit_pos] at hvalue
    exact iff_of_true (isInf_of_infinity hs) hvalue.ge

theorem not_finite_packed (h : u.isFinite = false) :
    ¬ (Float.ofModel (.pack u)).isFinite = true := by
  change ¬ (parts _).isFinite = true
  cases u with
  | notANumber => rw [parts_notANumber]; exact Bool.false_ne_true
  | infinity s => rw [parts_infinity]; exact Bool.false_ne_true
  | zero s => cases h
  | finite s m e hm => cases h

/-! ## Differences -/

theorem unpacked_sub_not_finite (h : u.isFinite = false ∨ v.isFinite = false) :
    (UnpackedFloat.sub Format.binary64 u v).isFinite = false := by
  cases u with
  | notANumber => rfl
  | infinity s =>
    cases v with
    | infinity t => cases s <;> cases t <;> rfl
    | _ => rfl
  | zero s =>
    cases v with
    | zero t => simp [UnpackedFloat.isFinite] at h
    | finite t n e hn => simp [UnpackedFloat.isFinite] at h
    | _ => rfl
  | finite s m d hm =>
    cases v with
    | zero t => simp [UnpackedFloat.isFinite] at h
    | finite t n e hn => simp [UnpackedFloat.isFinite] at h
    | _ => rfl

/-- A difference is finite only if both terms are. -/
theorem finite_of_sub (h : (x - y).isFinite = true) : x.isFinite = true ∧ y.isFinite = true := by
  by_contra hnot
  rw [not_and_or, Bool.not_eq_true, Bool.not_eq_true] at hnot
  exact not_finite_packed (unpacked_sub_not_finite hnot) h

theorem parts_sub_infinity (hx : parts x = .infinity s) (hy : y.isFinite = true) :
    parts (x - y) = .infinity s := by
  rw [sub_unpacked, hx]
  obtain ⟨t, hv⟩ | ⟨t, n, e, hn, hv, -⟩ := (sound_parts hy).cases <;> rw [hv] <;>
    exact parts_infinity s

theorem parts_sub_of_infinity (hx : x.isFinite = true) (hy : parts y = .infinity t) :
    parts (x - y) = .infinity (-t) := by
  rw [sub_unpacked, hy]
  obtain ⟨s, hu⟩ | ⟨s, m, d, hm, hu, -⟩ := (sound_parts hx).cases <;> rw [hu] <;>
    exact parts_infinity (-t)

theorem isNaN_sub_infinities (hx : parts x = .infinity s) (hy : parts y = .infinity s) :
    (x - y).isNaN = true := by
  rw [sub_unpacked, hx, hy]
  cases s <;> rfl

/-- What is under the limit less what is over its opposite is minus infinity, unless both are
finite. -/
theorem parts_sub_of_bounds (hx : x.isNaN = false) (hy : y.isNaN = false)
    (hhigh : value x < limit) (hlow : -limit < value y)
    (h : ¬ (x.isFinite = true ∧ y.isFinite = true)) : parts (x - y) = .infinity .negative := by
  have hxneg : ∀ s, parts x = .infinity s → s = .negative := fun s hs => by
    rw [value_of_infinity hs] at hhigh
    cases s with
    | negative => rfl
    | positive => exact absurd hhigh (lt_irrefl _)
  have hypos : ∀ t, parts y = .infinity t → t = .positive := fun t ht => by
    rw [value_of_infinity ht] at hlow
    cases t with
    | negative => exact absurd hlow (lt_irrefl _)
    | positive => rfl
  rcases finite_or_infinity hx with hxfin | ⟨s, hs⟩
  · rcases finite_or_infinity hy with hyfin | ⟨t, ht⟩
    · exact absurd ⟨hxfin, hyfin⟩ h
    · obtain rfl := hypos t ht
      exact parts_sub_of_infinity hxfin ht
  · obtain rfl := hxneg s hs
    rcases finite_or_infinity hy with hyfin | ⟨t, ht⟩
    · exact parts_sub_infinity hs hyfin
    · obtain rfl := hypos t ht
      rw [sub_unpacked, hs, ht]
      rfl

/-- A number less what is finite is a number, and the other way round. -/
theorem number_sub (hx : x.isFinite = true) (hy : y.isNaN = false) : (x - y).isNaN = false := by
  rcases finite_or_infinity hy with hfinite | ⟨t, ht⟩
  · exact (gives_sub hx hfinite).number
  · exact number_of_infinity (parts_sub_of_infinity hx ht)

/-! ## Sums -/

theorem parts_add_infinity (hx : parts x = .infinity s) (hy : y.isFinite = true) :
    parts (x + y) = .infinity s := by
  rw [add_unpacked, hx]
  obtain ⟨t, hv⟩ | ⟨t, n, e, hn, hv, -⟩ := (sound_parts hy).cases <;> rw [hv] <;>
    exact parts_infinity s

/-- A number and what is finite make a number. -/
theorem number_add (hx : x.isNaN = false) (hy : y.isFinite = true) : (x + y).isNaN = false := by
  rcases finite_or_infinity hx with hfinite | ⟨s, hs⟩
  · exact (gives_add hfinite hy).number
  · exact number_of_infinity (parts_add_infinity hs hy)

theorem positive_of_nonneg (hs : parts x = .infinity s) (h : 0 ≤ value x) : s = .positive := by
  rw [value_of_infinity hs] at h
  cases s with
  | positive => rfl
  | negative => exact absurd h (not_le.2 (neg_neg_of_pos limit_pos))

/-- The sum of numbers that are not negative is the exact one rounded. -/
theorem gives_add_nonneg (hx : x.isNaN = false) (hxpos : 0 ≤ value x) (hy : y.isNaN = false)
    (hypos : 0 ≤ value y) : Gives (x + y) (value x + value y) := by
  have hinfinity : parts (x + y) = .infinity .positive → limit ≤ value x + value y →
      Gives (x + y) (value x + value y) := fun hparts hlimit =>
    ⟨number_of_infinity hparts, (value_of_infinity hparts).trans (rounded_of_limit_le hlimit).symm⟩
  rcases finite_or_infinity hx with hxfin | ⟨s, hs⟩
  · rcases finite_or_infinity hy with hyfin | ⟨t, ht⟩
    · exact gives_add hxfin hyfin
    · obtain rfl := positive_of_nonneg ht hypos
      refine hinfinity ?_ ?_
      · rw [add_unpacked, ht]
        obtain ⟨s, hu⟩ | ⟨s, m, d, hm, hu, -⟩ := (sound_parts hxfin).cases <;> rw [hu] <;>
          exact parts_infinity .positive
      · rw [value_of_infinity ht]
        exact le_add_of_nonneg_left hxpos
  · obtain rfl := positive_of_nonneg hs hxpos
    refine hinfinity ?_ ?_
    · rcases finite_or_infinity hy with hyfin | ⟨t, ht⟩
      · exact parts_add_infinity hs hyfin
      · rw [add_unpacked, hs, ht, positive_of_nonneg ht hypos]
        exact parts_infinity .positive
    · rw [value_of_infinity hs]
      exact le_add_of_nonneg_right hypos

/-! ## Squares -/

theorem parts_square_infinity (hx : parts x = .infinity s) :
    parts (x * x) = .infinity .positive := by
  rw [mul_unpacked, hx]
  cases s <;> exact parts_infinity .positive

/-- A square is not negative. -/
theorem square_nonneg (hx : x.isNaN = false) :
    (x * x).isNaN = false ∧ 0 ≤ value (x * x) := by
  rcases finite_or_infinity hx with hfinite | ⟨s, hs⟩
  · have hgives := gives_mul hfinite hfinite
    exact ⟨hgives.number, hgives.value ▸ rounded_nonneg (mul_self_nonneg _)⟩
  · have hparts := parts_square_infinity hs
    exact ⟨number_of_infinity hparts, (value_of_infinity hparts).ge.trans' limit_pos.le⟩

/-! ## Quotients -/

theorem unpacked_div_not_finite (h : u.isFinite = false ∨ v.isNaN = true) :
    (UnpackedFloat.div Format.binary64 u v).isFinite = false := by
  cases u with
  | notANumber => rfl
  | infinity s => cases v <;> rfl
  | zero s =>
    cases v with
    | notANumber => rfl
    | _ => simp [UnpackedFloat.isFinite, UnpackedFloat.isNaN] at h
  | finite s m d hm =>
    cases v with
    | notANumber => rfl
    | _ => simp [UnpackedFloat.isFinite, UnpackedFloat.isNaN] at h

/-- A quotient is finite only if the dividend is, and the divisor is a number. -/
theorem finite_of_div (h : (x / y).isFinite = true) : x.isFinite = true ∧ y.isNaN = false := by
  by_contra hnot
  rw [not_and_or, Bool.not_eq_true, Bool.not_eq_false] at hnot
  exact not_finite_packed (unpacked_div_not_finite hnot) h

/-- What is finite is nothing beside what is infinite. -/
theorem gives_div_infinity (hx : x.isFinite = true) (hy : parts y = .infinity t) :
    Gives (x / y) 0 := by
  rw [div_unpacked, hy]
  obtain ⟨s, hu⟩ | ⟨s, m, e, hm, hu, -⟩ := (sound_parts hx).cases <;> rw [hu] <;>
    exact gives_zero _

/-- Nothing stays so when divided by anything but nothing. -/
theorem gives_zero_div (hx : x.isFinite = true) (hzero : value x = 0) (hy : y.isNaN = false)
    (hne : value y ≠ 0) : Gives (x / y) 0 := by
  rcases finite_or_infinity hy with hfinite | ⟨t, ht⟩
  · have hgives := gives_div hx hfinite hne
    rwa [hzero, zero_div] at hgives
  · exact gives_div_infinity hx ht

/-- What is infinite stays so when divided by what is finite. -/
theorem parts_div_infinity (hx : parts x = .infinity s) (hy : y.isFinite = true)
    (hpos : 0 < value y) : parts (x / y) = .infinity s := by
  change 0 < amount (parts y) at hpos
  rw [div_unpacked, hx]
  obtain ⟨t, hv⟩ | ⟨t, n, e, hn, hv, -⟩ := (sound_parts hy).cases
  · rw [hv] at hpos
    exact absurd hpos (lt_irrefl _)
  · rw [hv] at hpos ⊢
    cases t with
    | negative => exact absurd hpos (not_lt.2 (neg_nonpos.2 (magnitude_pos hn e).le))
    | positive => cases s <;> exact parts_infinity _

theorem div_of_isNaN (h : x.isNaN = true ∨ y.isNaN = true) :
    x / y = .ofModel (.pack .notANumber) := by
  rw [div_unpacked]
  rcases h with h | h <;> rw [parts_of_isNaN h]
  · rfl
  · cases parts x <;> rfl

theorem div_of_infinities (hx : parts x = .infinity s) (hy : parts y = .infinity t) :
    x / y = .ofModel (.pack .notANumber) := by
  rw [div_unpacked, hx, hy]
  rfl

/-- A quotient is a number only if both terms are, and not both are infinite. -/
theorem number_of_div (h : (x / y).isNaN = false) :
    x.isNaN = false ∧ y.isNaN = false ∧ (x.isFinite = true ∨ y.isFinite = true) := by
  have hquotient : x / y ≠ .ofModel (.pack .notANumber) := by
    intro heq
    rw [heq] at h
    cases h
  have hx : x.isNaN = false := Bool.eq_false_iff.2 fun hnan =>
    hquotient (div_of_isNaN (.inl hnan))
  have hy : y.isNaN = false := Bool.eq_false_iff.2 fun hnan =>
    hquotient (div_of_isNaN (.inr hnan))
  refine ⟨hx, hy, ?_⟩
  rcases finite_or_infinity hx with hfinite | ⟨s, hs⟩
  · exact .inl hfinite
  · exact .inr ((finite_or_infinity hy).resolve_right fun ⟨t, ht⟩ =>
      hquotient (div_of_infinities hs ht))

/-! ## Square roots -/

theorem number_of_sqrt (h : x.sqrt.isNaN = false) : x.isNaN = false := by
  refine Bool.eq_false_iff.2 fun hnan => ?_
  rw [sqrt_unpacked, parts_of_isNaN hnan] at h
  cases h

theorem parts_sqrt_infinity (hx : parts x = .infinity .positive) :
    parts x.sqrt = .infinity .positive := by
  rw [sqrt_unpacked, hx]
  exact parts_infinity .positive

end TopologySync.Doubles
