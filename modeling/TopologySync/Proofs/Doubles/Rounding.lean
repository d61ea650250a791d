-- Rounding of real numbers to the nearest double, with a half going to the even
-- neighbour. The doubles lie on a grid that is as fine as the place of the leading
-- digit allows, and what lies past the largest of them is taken to the limit.
import Mathlib.Algebra.Order.Archimedean.Real.Basic
import Mathlib.Data.Int.Log
import Mathlib.Tactic.Linarith
import Mathlib.Tactic.Positivity
import Mathlib.Tactic.Ring
import Mathlib.Tactic.NormNum

open Float.Model (UnpackedFloat)
open Float.Model.UnpackedFloat (Sign)

namespace TopologySync.Doubles

variable {q r s : ℝ}

/-! ## Whole numbers -/

/-- The nearest whole number, the even one if two are as near. -/
noncomputable def nearest (q : ℝ) : ℕ :=
  let halves := ⌊2 * q⌋₊
  if halves % 2 = 0 then halves / 2
  else if halves = 2 * q then halves / 2 + halves / 2 % 2
  else halves / 2 + 1

theorem nearest_natCast (k : ℕ) : nearest k = k := by
  have hhalves : ⌊2 * (k : ℝ)⌋₊ = 2 * k := by exact_mod_cast Nat.floor_natCast (R := ℝ) (2 * k)
  unfold nearest
  simp only [hhalves]
  rw [if_pos (Nat.mul_mod_right 2 k), Nat.mul_div_cancel_left k two_pos]

theorem half_le_nearest (q : ℝ) : ⌊2 * q⌋₊ / 2 ≤ nearest q := by
  unfold nearest
  dsimp only
  split_ifs <;> omega

theorem nearest_le_half (q : ℝ) : nearest q ≤ (⌊2 * q⌋₊ + 1) / 2 := by
  unfold nearest
  dsimp only
  split_ifs <;> omega

theorem nearest_mono (hq : 0 ≤ q) (h : q ≤ r) : nearest q ≤ nearest r := by
  have hhalves : ⌊2 * q⌋₊ ≤ ⌊2 * r⌋₊ := Nat.floor_le_floor (by linarith)
  rcases hhalves.lt_or_eq with hlt | heq
  · calc nearest q ≤ (⌊2 * q⌋₊ + 1) / 2 := nearest_le_half q
      _ ≤ ⌊2 * r⌋₊ / 2 := Nat.div_le_div_right hlt
      _ ≤ nearest r := half_le_nearest r
  · -- If the larger one is halfway, the smaller one is too.
    have htie : (⌊2 * r⌋₊ : ℝ) = 2 * r → (⌊2 * r⌋₊ : ℝ) = 2 * q := by
      intro hr
      have hfloor : (⌊2 * q⌋₊ : ℝ) ≤ 2 * q := Nat.floor_le (by linarith)
      rw [heq] at hfloor
      linarith
    unfold nearest
    dsimp only
    rw [heq]
    split_ifs with heven hq hr hr
    · exact le_rfl
    · exact le_rfl
    · omega
    · exact absurd (htie hr) hq
    · exact le_rfl

theorem le_nearest {k : ℕ} (h : (k : ℝ) ≤ q) : k ≤ nearest q :=
  (nearest_natCast k).ge.trans (nearest_mono (Nat.cast_nonneg k) h)

theorem nearest_le {k : ℕ} (hq : 0 ≤ q) (h : q ≤ k) : nearest q ≤ k :=
  (nearest_mono hq h).trans (nearest_natCast k).le

theorem nearest_of_lt_half (h : q < 1 / 2) : nearest q = 0 := by
  have hhalves : ⌊2 * q⌋₊ = 0 := Nat.floor_eq_zero.2 (by linarith)
  unfold nearest
  simp only [hhalves]
  rfl

/-! ## The grid -/

/-- The exponent of the last place of a double near a number. -/
noncomputable def lastPlace (r : ℝ) : ℤ :=
  max (Int.log 2 r - 52) (-1074)

/-- The number on the grid that is nearest to one that is not negative. -/
noncomputable def onGrid (r : ℝ) : ℝ :=
  nearest (r / 2 ^ lastPlace r) * 2 ^ lastPlace r

theorem two_zpow_pos (e : ℤ) : (0 : ℝ) < 2 ^ e :=
  zpow_pos two_pos e

theorem two_zpow_add (d e : ℤ) : (2 : ℝ) ^ (d + e) = 2 ^ d * 2 ^ e :=
  zpow_add₀ two_ne_zero d e

theorem natCast_two_pow (n : ℕ) : ((2 ^ n : ℕ) : ℝ) = 2 ^ (n : ℤ) := by
  rw [Nat.cast_pow, Nat.cast_ofNat, zpow_natCast]

theorem lastPlace_mono (hr : 0 < r) (h : r ≤ s) : lastPlace r ≤ lastPlace s :=
  max_le_max_right _ (Int.sub_le_sub_right (Int.log_mono_right hr h) 52)

/-- A number has fewer than 54 digits in front of its last place. -/
theorem lt_lastPlace (r : ℝ) : r < 2 ^ (53 + lastPlace r) := by
  have hlog : r < ((2 : ℕ) : ℝ) ^ (Int.log 2 r + 1) := Int.lt_zpow_succ_log_self one_lt_two r
  refine lt_of_lt_of_le (by exact_mod_cast hlog) (zpow_le_zpow_right₀ one_le_two ?_)
  unfold lastPlace
  omega

/-- It has 53 of them unless it is too small for that. -/
theorem lastPlace_le (hr : 0 < r) (h : -1074 < lastPlace r) : 2 ^ (52 + lastPlace r) ≤ r := by
  have hlog : ((2 : ℕ) : ℝ) ^ Int.log 2 r ≤ r := Int.zpow_log_le_self one_lt_two hr
  have hplace : 52 + lastPlace r = Int.log 2 r := by
    unfold lastPlace at h ⊢
    omega
  rw [hplace]
  exact_mod_cast hlog

theorem nearest_le_grid (hr : 0 ≤ r) : nearest (r / 2 ^ lastPlace r) ≤ 2 ^ 53 := by
  have hpos := two_zpow_pos (lastPlace r)
  refine nearest_le (div_nonneg hr hpos.le) ((div_le_iff₀ hpos).2 ?_)
  rw [natCast_two_pow, ← two_zpow_add]
  exact (lt_lastPlace r).le

theorem grid_le_nearest (hr : 0 < r) (h : -1074 < lastPlace r) :
    2 ^ 52 ≤ nearest (r / 2 ^ lastPlace r) := by
  refine le_nearest ((le_div_iff₀ (two_zpow_pos _)).2 ?_)
  rw [natCast_two_pow, ← two_zpow_add]
  exact lastPlace_le hr h

theorem onGrid_zero : onGrid 0 = 0 := by
  unfold onGrid
  rw [zero_div, ← Nat.cast_zero, nearest_natCast, Nat.cast_zero, zero_mul]

theorem onGrid_nonneg (r : ℝ) : 0 ≤ onGrid r :=
  mul_nonneg (Nat.cast_nonneg _) (two_zpow_pos _).le

theorem onGrid_mono (hr : 0 ≤ r) (h : r ≤ s) : onGrid r ≤ onGrid s := by
  rcases hr.eq_or_lt with rfl | hr
  · rw [onGrid_zero]
    exact onGrid_nonneg s
  rcases (lastPlace_mono hr h).eq_or_lt with hplace | hplace
  · unfold onGrid
    rw [hplace]
    have hpos := two_zpow_pos (lastPlace s)
    refine mul_le_mul_of_nonneg_right ?_ hpos.le
    exact_mod_cast nearest_mono (div_nonneg hr.le hpos.le) (div_le_div_of_nonneg_right h hpos.le)
  · -- Between the two there is a power of two, where the grid becomes coarser.
    have hfloor : -1074 ≤ lastPlace r := le_max_right _ _
    calc onGrid r ≤ 2 ^ (53 : ℤ) * 2 ^ lastPlace r := by
          refine mul_le_mul_of_nonneg_right ?_ (two_zpow_pos _).le
          exact_mod_cast nearest_le_grid hr.le
      _ = 2 ^ (53 + lastPlace r) := (two_zpow_add _ _).symm
      _ ≤ 2 ^ (52 + lastPlace s) := zpow_le_zpow_right₀ one_le_two (by omega)
      _ = 2 ^ (52 : ℤ) * 2 ^ lastPlace s := two_zpow_add _ _
      _ ≤ onGrid s := by
          refine mul_le_mul_of_nonneg_right ?_ (two_zpow_pos _).le
          exact_mod_cast grid_le_nearest (hr.trans_le h) (by omega)

/-- A whole number of steps of some power of two, none too small and not too many. -/
structure Steps (r : ℝ) (k : ℤ) (e : ℤ) : Prop where
  few : |k| ≤ 2 ^ 53
  coarse : -1074 ≤ e
  value : r = k * 2 ^ e

/-- The steps are whole steps of the grid too, as no fewer than 2 ^ 53 of them reach a place where
the grid is coarser than they are. -/
theorem Steps.grid {k e : ℤ} (h : Steps r k e) (hr : 0 < r) : ∃ n : ℕ, r = n * 2 ^ lastPlace r := by
  obtain ⟨hfew, hcoarse, hvalue⟩ := h
  have hk : 0 < k := by
    rw [hvalue] at hr
    exact_mod_cast pos_of_mul_pos_left hr (two_zpow_pos e).le
  lift k to ℕ using hk.le
  rw [Nat.abs_cast] at hfew
  rcases le_or_gt (lastPlace r) e with hplace | hplace
  · have hsplit : ((e - lastPlace r).toNat : ℤ) + lastPlace r = e := by omega
    refine ⟨k * 2 ^ (e - lastPlace r).toNat, ?_⟩
    rw [Nat.cast_mul, natCast_two_pow, mul_assoc, ← two_zpow_add, hsplit]
    exact hvalue
  · have hge : 2 ^ (52 + lastPlace r) ≤ r := lastPlace_le hr (by omega)
    have hle : r ≤ 2 ^ (53 + e) := by
      rw [hvalue, two_zpow_add]
      exact mul_le_mul_of_nonneg_right (by exact_mod_cast hfew) (two_zpow_pos e).le
    have hsame : 52 + lastPlace r = 53 + e := by
      have := (zpow_le_zpow_iff_right₀ one_lt_two).1 (hge.trans hle)
      omega
    refine ⟨2 ^ 52, ?_⟩
    rw [natCast_two_pow, ← two_zpow_add]
    exact le_antisymm (hle.trans_eq (by rw [← hsame]; rfl)) hge

theorem onGrid_of_steps {k e : ℤ} (h : Steps r k e) (hr : 0 ≤ r) : onGrid r = r := by
  rcases hr.eq_or_lt with rfl | hr
  · exact onGrid_zero
  obtain ⟨n, hn⟩ := h.grid hr
  have hdiv : r / 2 ^ lastPlace r = n := (div_eq_iff (two_zpow_pos _).ne').2 hn
  unfold onGrid
  rw [hdiv, nearest_natCast]
  exact hn.symm

/-! ## Amounts -/

/-- The first power of two that is too large for a double. -/
noncomputable def limit : ℝ := 2 ^ (1024 : ℤ)

/-- A number with a sign. -/
def signed : Sign → ℝ → ℝ
  | .positive, r => r
  | .negative, r => -r

/-- What an unpacked double stands for, which is zero if it is no number. -/
noncomputable def amount : UnpackedFloat → ℝ
  | .notANumber => 0
  | .infinity s => signed s limit
  | .zero _ => 0
  | .finite s m e _ => signed s (m * 2 ^ e)

/-! ## Rounding -/

/-- A real number rounded to a double. What is too large for one comes to the limit. -/
noncomputable def rounded (r : ℝ) : ℝ :=
  if 0 ≤ r then min (onGrid r) limit else -min (onGrid (-r)) limit

theorem limit_pos : 0 < limit :=
  two_zpow_pos 1024

theorem rounded_of_nonneg (hr : 0 ≤ r) : rounded r = min (onGrid r) limit :=
  if_pos hr

theorem rounded_neg (r : ℝ) : rounded (-r) = -rounded r := by
  unfold rounded
  rcases lt_trichotomy r 0 with hr | rfl | hr
  · rw [if_pos (by linarith), if_neg (by linarith), neg_neg]
  · simp only [neg_zero, le_refl, if_true, onGrid_zero, min_eq_left limit_pos.le]
  · rw [if_neg (by linarith), if_pos hr.le, neg_neg]

theorem rounded_nonneg (hr : 0 ≤ r) : 0 ≤ rounded r := by
  rw [rounded_of_nonneg hr]
  exact le_min (onGrid_nonneg r) limit_pos.le

theorem rounded_mono (h : r ≤ s) : rounded r ≤ rounded s := by
  have hsame : ∀ {r s : ℝ}, 0 ≤ r → r ≤ s → rounded r ≤ rounded s := by
    intro r s hr h
    rw [rounded_of_nonneg hr, rounded_of_nonneg (hr.trans h)]
    exact min_le_min_right _ (onGrid_mono hr h)
  rcases le_total 0 r with hr | hr
  · exact hsame hr h
  rcases le_total 0 s with hs | hs
  · have hneg := rounded_nonneg (neg_nonneg.2 hr)
    rw [rounded_neg] at hneg
    linarith [rounded_nonneg hs]
  · have hneg := hsame (neg_nonneg.2 hs) (neg_le_neg h)
    rw [rounded_neg, rounded_neg] at hneg
    linarith

theorem abs_rounded (r : ℝ) : |rounded r| = rounded |r| := by
  rcases le_total 0 r with hr | hr
  · rw [abs_of_nonneg hr, abs_of_nonneg (rounded_nonneg hr)]
  · rw [abs_of_nonpos hr, rounded_neg, abs_of_nonpos]
    have hneg := rounded_nonneg (neg_nonneg.2 hr)
    rw [rounded_neg] at hneg
    linarith

theorem abs_rounded_le (r : ℝ) : |rounded r| ≤ limit := by
  rw [abs_rounded, rounded_of_nonneg (abs_nonneg r)]
  exact min_le_right _ _

theorem Steps.neg {k e : ℤ} (h : Steps r k e) : Steps (-r) (-k) e :=
  ⟨by rw [abs_neg]; exact h.few, h.coarse, by rw [h.value]; push_cast; ring⟩

theorem Steps.abs {k e : ℤ} (h : Steps r k e) : Steps |r| |k| e :=
  ⟨by rw [abs_abs]; exact h.few, h.coarse,
    by rw [h.value, abs_mul, abs_of_pos (two_zpow_pos e), Int.cast_abs]⟩

theorem Steps.double {k e : ℤ} (h : Steps r k e) : Steps (2 * r) k (e + 1) :=
  ⟨h.few, h.coarse.trans (Int.le_add_one le_rfl),
    by rw [h.value, zpow_add_one₀ two_ne_zero]; ring⟩

theorem rounded_of_steps {k e : ℤ} (h : Steps r k e) (hr : |r| ≤ limit) : rounded r = r := by
  have hsame : ∀ {r : ℝ} {k : ℤ}, Steps r k e → |r| ≤ limit → 0 ≤ r → rounded r = r := by
    intro r k h hlimit hr
    rw [rounded_of_nonneg hr, onGrid_of_steps h hr, min_eq_left ((le_abs_self r).trans hlimit)]
  rcases le_total 0 r with hpos | hneg
  · exact hsame h hr hpos
  · have := hsame h.neg (by rwa [abs_neg]) (neg_nonneg.2 hneg)
    rwa [rounded_neg, neg_inj] at this

theorem rounded_zero : rounded 0 = 0 := by
  rw [rounded_of_nonneg le_rfl, onGrid_zero, min_eq_left limit_pos.le]

/-- A number on the grid is not rounded up, and is rounded down to the limit at most. -/
theorem Steps.rounded {k e : ℤ} (h : Steps r k e) (hr : 0 ≤ r) : rounded r = min r limit := by
  rw [rounded_of_nonneg hr, onGrid_of_steps h hr]

theorem steps_mul_two_zpow {k : ℕ} {e : ℤ} (hk : k ≤ 2 ^ 53) (he : -1074 ≤ e) :
    Steps (k * 2 ^ e) k e :=
  ⟨by rw [Nat.abs_cast]; exact_mod_cast hk, he, by rw [Int.cast_natCast]⟩

theorem steps_two_zpow {e : ℤ} (h : -1074 ≤ e) : Steps (2 ^ e) 1 e :=
  ⟨by norm_num, h, by rw [Int.cast_one, one_mul]⟩

/-- The powers of two that are doubles, and the limit. -/
theorem rounded_two_zpow {e : ℤ} (h : -1074 ≤ e) (h' : e ≤ 1024) :
    rounded (2 ^ e) = 2 ^ e := by
  refine rounded_of_steps (steps_two_zpow h) ?_
  rw [abs_of_pos (two_zpow_pos e)]
  exact zpow_le_zpow_right₀ one_le_two h'

theorem two_zpow_le_rounded {e : ℤ} (h : -1074 ≤ e) (h' : e ≤ 1024) (hr : 2 ^ e ≤ r) :
    2 ^ e ≤ rounded r :=
  (rounded_two_zpow h h').ge.trans (rounded_mono hr)

theorem rounded_le_two_zpow {e : ℤ} (h : -1074 ≤ e) (h' : e ≤ 1024) (hr : r ≤ 2 ^ e) :
    rounded r ≤ 2 ^ e :=
  (rounded_mono hr).trans (rounded_two_zpow h h').le

theorem rounded_lt_limit {e : ℤ} (h : -1074 ≤ e) (h' : e < 1024) (hr : r ≤ 2 ^ e) :
    rounded r < limit :=
  (rounded_le_two_zpow h h'.le hr).trans_lt (zpow_lt_zpow_right₀ one_lt_two h')

theorem rounded_one : rounded 1 = 1 := by
  rw [← zpow_zero (2 : ℝ)]
  exact rounded_two_zpow (by norm_num) (by norm_num)

theorem one_le_rounded (hr : 1 ≤ r) : 1 ≤ rounded r :=
  rounded_one.ge.trans (rounded_mono hr)

theorem rounded_le_one (hr : r ≤ 1) : rounded r ≤ 1 :=
  (rounded_mono hr).trans rounded_one.le

/-- Less than half of the smallest double is nothing. -/
theorem rounded_of_tiny (hr : 0 ≤ r) (h : r < 2 ^ (-1075 : ℤ)) : rounded r = 0 := by
  rcases hr.eq_or_lt with rfl | hpos
  · exact rounded_zero
  have hlog : Int.log 2 r < -1075 :=
    (Int.lt_zpow_iff_log_lt one_lt_two hpos).1 (by exact_mod_cast h)
  have hplace : lastPlace r = -1074 := by
    unfold lastPlace
    omega
  have hhalf : r / 2 ^ (-1074 : ℤ) < 1 / 2 := by
    rw [div_lt_iff₀ (two_zpow_pos _)]
    calc r < 2 ^ (-1 + -1074 : ℤ) := h
      _ = 1 / 2 * 2 ^ (-1074 : ℤ) := by rw [two_zpow_add, zpow_neg_one, one_div]
  rw [rounded_of_nonneg hr]
  unfold onGrid
  rw [hplace, nearest_of_lt_half hhalf, Nat.cast_zero, zero_mul, min_eq_left limit_pos.le]

/-- What is not even half of a power of two is not rounded up to it. -/
theorem rounded_lt_two_zpow {e : ℤ} (h : -1074 ≤ e) (h' : e ≤ 1024) (hr : 0 ≤ r)
    (hlt : r < 2 ^ (e - 1)) : rounded r < 2 ^ e := by
  rcases h.eq_or_lt with rfl | hlarge
  · rw [rounded_of_tiny hr hlt]
    exact two_zpow_pos _
  · calc rounded r ≤ 2 ^ (e - 1) := rounded_le_two_zpow (by omega) (by omega) hlt.le
      _ < 2 ^ e := zpow_lt_zpow_right₀ one_lt_two (by omega)

theorem rounded_of_limit_le (h : limit ≤ r) : rounded r = limit :=
  le_antisymm ((le_abs_self _).trans (abs_rounded_le r))
    (two_zpow_le_rounded (by norm_num) le_rfl h)

theorem Steps.rounded_min {k e : ℤ} (h : Steps r k e) (hr : 0 ≤ r) :
    Doubles.rounded (min r limit) = min r limit := by
  rcases le_total r limit with hle | hle
  · rw [min_eq_left hle, h.rounded hr, min_eq_left hle]
  · rw [min_eq_right hle, rounded_of_limit_le le_rfl]

end TopologySync.Doubles
