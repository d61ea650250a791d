-- What rounding adds to a number. It is nothing where the number is a double already,
-- and no more than half of the last place otherwise. Sums by what rounding adds to
-- them, and with which sign they come to nothing.
import TopologySync.Proofs.Doubles.Infinities

open Float.Model (Format UnpackedFloat)
open Float.Model.UnpackedFloat (Sign)

namespace TopologySync.Doubles

variable {q r : ℝ} {x y : Float} {u v : UnpackedFloat} {k p e : ℤ}

/-! ## The nearest numbers -/

theorem abs_nearest_sub_le (hq : 0 ≤ q) : |(nearest q : ℝ) - q| ≤ 1 / 2 := by
  have hle : (⌊2 * q⌋₊ : ℝ) ≤ 2 * q := Nat.floor_le (by linarith)
  have hlt : 2 * q < ⌊2 * q⌋₊ + 1 := Nat.lt_floor_add_one (2 * q)
  have hdigits : (⌊2 * q⌋₊ : ℝ) = 2 * (⌊2 * q⌋₊ / 2 : ℕ) + (⌊2 * q⌋₊ % 2 : ℕ) := by
    exact_mod_cast (Nat.div_add_mod ⌊2 * q⌋₊ 2).symm
  unfold nearest
  dsimp only
  split_ifs with heven htie
  · rw [heven, Nat.cast_zero, add_zero] at hdigits
    rw [abs_le]
    constructor <;> linarith
  · have hodd : ⌊2 * q⌋₊ % 2 = 1 := by omega
    have hlast : (⌊2 * q⌋₊ / 2 % 2 : ℕ) = 0 ∨ (⌊2 * q⌋₊ / 2 % 2 : ℕ) = 1 := by omega
    rw [hodd, Nat.cast_one] at hdigits
    rw [abs_le]
    rcases hlast with hlast | hlast <;> rw [hlast] <;> push_cast <;> constructor <;> linarith
  · have hodd : ⌊2 * q⌋₊ % 2 = 1 := by omega
    rw [hodd, Nat.cast_one] at hdigits
    rw [abs_le]
    push_cast
    constructor <;> linarith

theorem abs_onGrid_sub_le (hr : 0 ≤ r) : |onGrid r - r| ≤ 2 ^ (lastPlace r - 1) := by
  have hpos := two_zpow_pos (lastPlace r)
  have hsplit : onGrid r - r =
      (nearest (r / 2 ^ lastPlace r) - r / 2 ^ lastPlace r) * 2 ^ lastPlace r := by
    unfold onGrid
    rw [sub_mul, div_mul_cancel₀ _ hpos.ne']
  rw [hsplit, abs_mul, abs_of_pos hpos, zpow_sub_one₀ two_ne_zero, mul_comm, ← one_div]
  exact mul_le_mul_of_nonneg_left (abs_nearest_sub_le (div_nonneg hr hpos.le)) hpos.le

/-! ## Slips -/

/-- What rounding adds to a real number. -/
noncomputable def slip (r : ℝ) : ℝ :=
  rounded r - r

theorem add_slip (r : ℝ) : r + slip r = rounded r :=
  add_sub_cancel r _

theorem slip_neg (r : ℝ) : slip (-r) = -slip r := by
  unfold slip
  rw [rounded_neg]
  ring

theorem slip_value (x : Float) : slip (value x) = 0 :=
  sub_eq_zero.2 (rounded_value x)

/-- A number of no more than a power of two is moved by no more than half of the place that is 53
binary digits behind it. -/
theorem abs_slip_le (hp : -1021 ≤ p) (hp' : p ≤ 1024) (h : |r| ≤ 2 ^ p) :
    |slip r| ≤ 2 ^ (p - 54) := by
  have hsame : ∀ {r : ℝ}, 0 < r → r ≤ 2 ^ p → |slip r| ≤ 2 ^ (p - 54) := by
    intro r hr hle
    rcases hle.eq_or_lt with rfl | hlt
    · rw [slip, rounded_two_zpow (by omega) hp', sub_self, abs_zero]
      exact (two_zpow_pos _).le
    · have hlog : Int.log 2 r < p :=
        (Int.lt_zpow_iff_log_lt one_lt_two hr).1 (by exact_mod_cast hlt)
      have hplace : lastPlace r ≤ p - 53 := by
        unfold lastPlace
        omega
      have hgrid : onGrid r ≤ limit :=
        calc onGrid r ≤ onGrid (2 ^ p) := onGrid_mono hr.le hle
          _ = 2 ^ p := onGrid_of_steps (steps_two_zpow (by omega)) (two_zpow_pos p).le
          _ ≤ limit := zpow_le_zpow_right₀ one_le_two hp'
      rw [slip, rounded_of_nonneg hr.le, min_eq_left hgrid]
      exact (abs_onGrid_sub_le hr.le).trans (zpow_le_zpow_right₀ one_le_two (by omega))
  rcases lt_trichotomy r 0 with hneg | rfl | hpos
  · rw [abs_of_neg hneg] at h
    have hmirror := hsame (neg_pos.2 hneg) h
    rwa [slip_neg, abs_neg] at hmirror
  · rw [slip, rounded_zero, sub_zero, abs_zero]
    exact (two_zpow_pos _).le
  · rw [abs_of_pos hpos] at h
    exact hsame hpos h

/-! ## Sums -/

theorem unpacked_add_eq (u v : UnpackedFloat) :
    UnpackedFloat.add Format.binary64 u v = UnpackedFloat.sub Format.binary64 u v.neg := by
  have hneg : v.neg.neg = v := by
    cases v with
    | notANumber => rfl
    | infinity t => cases t <;> rfl
    | zero t => cases t <;> rfl
    | finite t n e hn => cases t <;> rfl
  rw [unpacked_sub_eq, hneg]

theorem unpacked_add_not_finite (h : u.isFinite = false ∨ v.isFinite = false) :
    (UnpackedFloat.add Format.binary64 u v).isFinite = false := by
  have hneg : v.neg.isFinite = v.isFinite := by
    cases v <;> rfl
  rw [unpacked_add_eq]
  exact unpacked_sub_not_finite (by rwa [hneg])

/-- A sum is finite only if both terms are. -/
theorem finite_of_add (h : (x + y).isFinite = true) : x.isFinite = true ∧ y.isFinite = true := by
  by_contra hnot
  rw [not_and_or, Bool.not_eq_true, Bool.not_eq_true] at hnot
  exact not_finite_packed (unpacked_add_not_finite hnot) h

/-- A finite sum is the exact one and what rounding adds to it. -/
theorem value_add (h : (x + y).isFinite = true) :
    value (x + y) = value x + value y + slip (value x + value y) := by
  obtain ⟨hx, hy⟩ := finite_of_add h
  rw [add_slip, (gives_add hx hy).value]

/-- A finite difference is the exact one and what rounding adds to it. -/
theorem value_sub (h : (x - y).isFinite = true) :
    value (x - y) = value x - value y + slip (value x - value y) := by
  obtain ⟨hx, hy⟩ := finite_of_sub h
  rw [add_slip, (gives_sub hx hy).value]

/-! ## Negative zero -/

theorem parts_pack_ne (h : Sound u) (hne : u ≠ .zero .negative) :
    parts (.ofModel (.pack u)) ≠ .zero .negative := by
  rw [parts_pack h.fitting]
  obtain ⟨s, rfl⟩ | ⟨s, m, e, hm, rfl, -, he⟩ := h.cases
  · exact hne
  · rw [capped, if_pos he]
    exact UnpackedFloat.noConfusion

/-- What comes out as nothing is not negative. -/
theorem normalize_ne (k : ℤ) (hp : -1074 ≤ p) (hp' : p ≤ 1024) :
    parts (.ofModel (.pack (UnpackedFloat.normalize Format.binary64 k p .positive))) ≠
      .zero .negative := by
  rcases eq_or_ne k 0 with rfl | hk
  · exact parts_pack_ne (u := .zero .positive) ⟨trivial, trivial, rfl⟩ nofun
  · intro hzero
    have hvalue := (gives_normalize k p .positive).value
    have hone : (1 : ℝ) ≤ |(k : ℝ)| := by exact_mod_cast Int.one_le_abs hk
    have hlarge : (2 : ℝ) ^ p ≤ rounded |k * 2 ^ p| := by
      refine two_zpow_le_rounded hp hp' ?_
      rw [abs_mul, abs_of_pos (two_zpow_pos p)]
      exact le_mul_of_one_le_left (two_zpow_pos p).le hone
    rw [← abs_rounded, ← hvalue, value, hzero, amount_zero, abs_zero] at hlarge
    exact absurd (two_zpow_pos p) (not_lt.2 hlarge)

theorem unpacked_add_ne (hu : Sound u) (hv : Sound v) (hne : u ≠ .zero .negative) :
    parts (.ofModel (.pack (UnpackedFloat.add Format.binary64 u v))) ≠ .zero .negative := by
  have hu' := hu
  have hv' := hv
  obtain ⟨s, rfl⟩ | ⟨s, m, d, hm, rfl, hmfits, hd⟩ := hu.cases
  · obtain ⟨t, rfl⟩ | ⟨t, n, e, hn, rfl, -⟩ := hv.cases
    · cases s with
      | negative => exact absurd rfl hne
      | positive => cases t <;> exact parts_pack_ne hu' hne
    · exact parts_pack_ne hv' UnpackedFloat.noConfusion
  · obtain ⟨t, rfl⟩ | ⟨t, n, e, hn, rfl, hnfits, -⟩ := hv.cases
    · exact parts_pack_ne hu' hne
    · have hm := hmfits.coarse
      have hn := hnfits.coarse
      exact normalize_ne _ (by omega) (by omega)

/-- A sum is negative zero only if its first term is. -/
theorem parts_add_ne (hx : x.isFinite = true) (hy : y.isFinite = true)
    (hne : parts x ≠ .zero .negative) : parts (x + y) ≠ .zero .negative :=
  unpacked_add_ne (sound_parts hx) (sound_parts hy) hne

/-- A difference is negative zero only if its first term is. -/
theorem parts_sub_ne (hx : x.isFinite = true) (hy : y.isFinite = true)
    (hne : parts x ≠ .zero .negative) : parts (x - y) ≠ .zero .negative := by
  rw [sub_unpacked, unpacked_sub_eq]
  exact unpacked_add_ne (sound_parts hx) (sound_parts hy).neg hne

/-- A value that is not negative zero has one double. -/
theorem eq_of_value (hx : x.isFinite = true) (hy : y.isFinite = true)
    (hxne : parts x ≠ .zero .negative) (hyne : parts y ≠ .zero .negative)
    (h : value x = value y) : x = y := by
  have hbeq := (beq_iff (number_of_finite hx) (number_of_finite hy)).2 h
  obtain ⟨-, -, heq | ⟨-, hzero⟩ | ⟨hzero, -⟩⟩ := Float.beq_iff_ne_nan_and_eq.1 hbeq
  · exact heq
  · rw [hzero] at hyne
    exact absurd rfl hyne
  · rw [hzero] at hxne
    exact absurd rfl hxne

end TopologySync.Doubles
