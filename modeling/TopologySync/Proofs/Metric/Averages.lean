-- The law of averages. The running sum of a window is the exact sum of what it holds and
-- whatever rounding has added to it since the window was empty. Nothing takes that out
-- again, so an average remembers it long after the values that caused it have left.
import TopologySync.Proofs.Doubles.Slips
import TopologySync.Proofs.Metric.Held

open TopologySync.Doubles

namespace TopologySync

/-- The exact sum of some values. -/
noncomputable def exactSum (values : List Float) : ℝ :=
  (values.map value).sum

theorem exactSum_nil : exactSum [] = 0 :=
  rfl

theorem exactSum_cons (x : Float) (rest : List Float) :
    exactSum (x :: rest) = value x + exactSum rest :=
  List.sum_cons

theorem exactSum_append (before after : List Float) :
    exactSum (before ++ after) = exactSum before + exactSum after := by
  unfold exactSum
  rw [List.map_append, List.sum_append]

theorem exactSum_singleton (x : Float) : exactSum [x] = value x :=
  List.sum_singleton

/-- There is a finite double for a number. -/
def IsDouble (r : ℝ) : Prop :=
  ∃ y : Float, y.isFinite = true ∧ value y = r

theorem isDouble_of_steps {r : ℝ} {k e : ℤ} (h : Steps r k e) (hr : |r| < limit) : IsDouble r := by
  have hgives := gives_normalize k e .positive
  rw [← h.value] at hgives
  exact ⟨_, hgives.exact h hr⟩

theorem isDouble_zero : IsDouble 0 :=
  ⟨0.0, rfl, rfl⟩

theorem IsDouble.slip {r : ℝ} (h : IsDouble r) : Doubles.slip r = 0 := by
  obtain ⟨y, -, rfl⟩ := h
  exact slip_value y

theorem IsDouble.abs_lt {r : ℝ} (h : IsDouble r) : |r| < limit := by
  obtain ⟨y, hy, rfl⟩ := h
  exact (isFinite_iff.1 hy).2

/-- What is given for a double is finite. -/
theorem IsDouble.finite {x : Float} {r : ℝ} (h : IsDouble r) (hx : Gives x r) :
    x.isFinite = true := by
  refine hx.isFinite ?_
  rw [← add_slip, h.slip, add_zero]
  exact h.abs_lt

/-- What holds of the sum of every run of neighbours that is no longer than a window. -/
def RunSums (P : ℝ → Prop) (capacity : Nat) (values : List Float) : Prop :=
  ∀ run, run <:+: values → run.length ≤ capacity → P (exactSum run)

/-- A value of its own is a double. -/
theorem runSums_of_one {capacity : Nat} {values : List Float} (hcapacity : capacity ≤ 1)
    (h : ∀ x ∈ values, x.isFinite = true) : RunSums IsDouble capacity values := by
  intro run hrun hlength
  cases run with
  | nil => exact isDouble_zero
  | cons x rest =>
    have hrest : rest = [] := by
      rw [List.length_cons] at hlength
      exact List.length_eq_zero_iff.1 (by omega)
    subst hrest
    exact ⟨x, h x (hrun.subset (List.mem_singleton_self x)), (exactSum_singleton x).symm⟩

/-- Values that are told in steps of one power of two have a sum that is told in them too, and not
in too many if there are not too many of them in the values. -/
theorem exists_steps_exactSum {capacity : Nat} {e : ℤ} {values : List Float}
    (h : ∀ x ∈ values, ∃ k : ℤ, value x = k * 2 ^ e ∧ capacity * |k| ≤ 2 ^ 53) :
    ∃ k : ℤ, exactSum values = k * 2 ^ e ∧ capacity * |k| ≤ values.length * 2 ^ 53 := by
  induction values with
  | nil => exact ⟨0, by simp [exactSum], by simp⟩
  | cons x rest ih =>
    obtain ⟨⟨i, hx, hi⟩, hrest⟩ := List.forall_mem_cons.1 h
    obtain ⟨j, hsum, hj⟩ := ih hrest
    refine ⟨i + j, ?_, ?_⟩
    · rw [exactSum_cons, hx, hsum, Int.cast_add, add_mul]
    · have habs : (capacity : ℤ) * |i + j| ≤ capacity * |i| + capacity * |j| := by
        rw [← mul_add]
        exact mul_le_mul_of_nonneg_left (abs_add_le i j) (Int.natCast_nonneg capacity)
      rw [List.length_cons]
      push_cast
      linarith

/-- Sums of few digits are doubles. -/
theorem runSums_of_digits {capacity : Nat} {e : ℤ} {values : List Float} (he : -1074 ≤ e)
    (he' : e ≤ 970) (h : ∀ x ∈ values, ∃ k : ℤ, value x = k * 2 ^ e ∧ capacity * |k| ≤ 2 ^ 53) :
    RunSums IsDouble capacity values := by
  intro run hrun hlength
  obtain ⟨k, hsum, hk⟩ := exists_steps_exactSum fun x hx => h x (hrun.subset hx)
  have hfew : |k| ≤ 2 ^ 53 := by
    rcases capacity.eq_zero_or_pos with rfl | hpos
    · have hnil : run = [] := List.length_eq_zero_iff.1 (by omega)
      rw [hnil, exactSum_nil, eq_comm, mul_eq_zero, or_iff_left (two_zpow_pos e).ne'] at hsum
      rw [Int.cast_eq_zero.1 hsum, abs_zero]
      norm_num
    · have hle : (capacity : ℤ) * |k| ≤ capacity * 2 ^ 53 := by
        refine hk.trans (mul_le_mul_of_nonneg_right ?_ (by norm_num))
        exact_mod_cast hlength
      exact le_of_mul_le_mul_left hle (by exact_mod_cast hpos)
  refine isDouble_of_steps ⟨hfew, he, hsum⟩ ?_
  have hfew' : |(k : ℝ)| ≤ 2 ^ (53 : ℤ) := by exact_mod_cast hfew
  rw [hsum, abs_mul, abs_of_pos (two_zpow_pos e)]
  calc |(k : ℝ)| * 2 ^ e ≤ 2 ^ (53 : ℤ) * 2 ^ e :=
        mul_le_mul_of_nonneg_right hfew' (two_zpow_pos e).le
    _ = 2 ^ (53 + e) := (two_zpow_add 53 e).symm
    _ < limit := zpow_lt_zpow_right₀ one_lt_two (by omega)

namespace RollingWindow

variable {window : RollingWindow} {x : Float} {pushed : List Float}

/-! ## The running sum -/

/-- The running sum without the value that goes. -/
def keptSum (window : RollingWindow) : Float :=
  match window.evicted? with
  | some old => window.sum - old
  | none => window.sum

theorem sum_push (window : RollingWindow) (x : Float) :
    (window.push x).sum = window.keptSum + x :=
  rfl

/-- What rounding adds to the running sum when the oldest value goes. -/
noncomputable def keptSlip (window : RollingWindow) : ℝ :=
  match window.evicted? with
  | some old => Doubles.slip (value window.sum - value old)
  | none => 0

/-- What rounding adds to the running sum when a value is taken in. -/
noncomputable def slip (window : RollingWindow) (x : Float) : ℝ :=
  window.keptSlip + Doubles.slip (value window.keptSum + value x)

/-- What rounding has added by the end of a sequence of pushes. -/
noncomputable def drift (window : RollingWindow) : List Float → ℝ
  | [] => 0
  | x :: rest => window.slip x + (window.push x).drift rest

/-- How far the running sum is from the exact one. -/
noncomputable def error (window : RollingWindow) : ℝ :=
  value window.sum - exactSum window.values

theorem sum_new (capacity : Nat) : (new capacity).sum = 0.0 :=
  rfl

theorem error_new (capacity : Nat) : (new capacity).error = 0 := by
  change value 0.0 - exactSum [] = 0
  rw [exactSum_nil, sub_zero]
  rfl

theorem exactSum_evicted (window : RollingWindow) :
    exactSum window.evicted?.toList + exactSum window.kept = exactSum window.values := by
  rw [← exactSum_append, evicted_append_kept]

theorem exactSum_push (window : RollingWindow) (x : Float) :
    exactSum (window.push x).values = exactSum window.kept + value x := by
  rw [← exactSum_singleton, ← exactSum_append]
  rfl

/-- Taking the oldest value out rounds what is left once, or does nothing. -/
theorem keptSum_cases (window : RollingWindow) :
    (window.evicted? = none ∧ window.keptSum = window.sum ∧ window.keptSlip = 0 ∧
      value window.sum = exactSum window.kept + window.error) ∨
    ∃ old ∈ window.values, window.keptSum = window.sum - old ∧
      value window.sum - value old = exactSum window.kept + window.error ∧
      window.keptSlip = Doubles.slip (exactSum window.kept + window.error) := by
  have herror : window.error = value window.sum - exactSum window.values := rfl
  have hsplit := window.exactSum_evicted
  cases hevicted : window.evicted? with
  | none =>
    rw [hevicted, Option.toList_none, exactSum_nil] at hsplit
    refine .inl ⟨rfl, ?_, ?_, by linarith⟩
    · unfold keptSum
      rw [hevicted]
    · unfold keptSlip
      rw [hevicted]
  | some old =>
    rw [hevicted, Option.toList_some, exactSum_singleton] at hsplit
    have hdifference :
        value window.sum - value old = exactSum window.kept + window.error := by linarith
    refine .inr ⟨old, mem_of_evicted hevicted, ?_, hdifference, ?_⟩
    · unfold keptSum
      rw [hevicted]
    · unfold keptSlip
      simp only [hevicted, hdifference]

theorem finite_of_keptSum (h : window.keptSum.isFinite = true) : window.sum.isFinite = true := by
  obtain ⟨-, hsum, -⟩ | ⟨old, -, hsum, -⟩ := window.keptSum_cases <;> rw [hsum] at h
  · exact h
  · exact (finite_of_sub h).1

theorem value_keptSum (h : window.keptSum.isFinite = true) :
    value window.keptSum = exactSum window.kept + window.error + window.keptSlip := by
  obtain ⟨-, hsum, hslip, hvalue⟩ | ⟨old, -, hsum, hvalue, hslip⟩ := window.keptSum_cases
  · rw [hsum, hslip, hvalue, add_zero]
  · rw [hsum] at h ⊢
    rw [value_sub h, hvalue, hslip]

theorem finite_of_push (h : (window.push x).sum.isFinite = true) : window.sum.isFinite = true :=
  finite_of_keptSum (finite_of_add h).1

/-- What overflowed stays so. -/
theorem finite_of_pushAll (h : (window.pushAll pushed).sum.isFinite = true) :
    window.sum.isFinite = true := by
  induction pushed generalizing window with
  | nil => exact h
  | cons x rest ih => exact finite_of_push (ih h)

/-- What the new running sum is rounded from. -/
theorem keptSum_add (h : window.keptSum.isFinite = true) (x : Float) :
    value window.keptSum + value x =
      exactSum (window.push x).values + window.error + window.keptSlip := by
  rw [value_keptSum h, exactSum_push]
  ring

/-- The running sum is off by what it was off before, and by what rounding adds. -/
theorem error_push (h : (window.push x).sum.isFinite = true) :
    (window.push x).error = window.error + window.slip x := by
  have hsum := value_add (x := window.keptSum) (y := x) h
  have hadd := keptSum_add (finite_of_add h).1 x
  unfold slip
  rw [error, sum_push, hsum, hadd]
  ring

theorem error_pushAll (h : (window.pushAll pushed).sum.isFinite = true) :
    (window.pushAll pushed).error = window.error + window.drift pushed := by
  induction pushed generalizing window with
  | nil => exact (add_zero _).symm
  | cons x rest ih =>
    rw [pushAll_cons, ih h, error_push (finite_of_pushAll h), drift, add_assoc]

/-- The average is the one of the values held, as far as the running sum is their sum. -/
theorem average_eq (hsome : window.values ≠ []) (hroom : window.capacity ≤ 2 ^ 1023)
    (hfinite : window.sum.isFinite = true) :
    ∃ average, window.average? = some average ∧ average.isFinite = true ∧
      value average =
        rounded ((exactSum window.values + window.error) / rounded window.values.length) := by
  have hfits := window.fits
  have hsize := gives_ofNat window.values.length
  have hcount := isFinite_ofNat (hfits.trans hroom)
  have hone := one_le_ofNat (List.length_pos_iff.2 hsome)
  have hempty : window.values.isEmpty = false := by simpa using hsome
  refine ⟨window.sum / Float.ofNat window.values.length, ?_,
    finite_div_of_one_le hfinite hcount hone, ?_⟩
  · unfold average?
    rw [hempty]
    rfl
  · rw [(gives_div hfinite hcount (by linarith)).value, hsize.value, error, add_sub_cancel]

/-- An average is finite only if the running sum is. -/
theorem finite_of_average {average : Float} (h : window.average? = some average)
    (hfinite : average.isFinite = true) : window.sum.isFinite = true := by
  unfold average? at h
  split at h
  · cases h
  · cases h
    exact (finite_of_div hfinite).1

/-- Where what is left is rounded without overflow, the sum without the oldest value is finite, and
what rounding adds to it is as small as it is there. -/
theorem keptSum_rounds {P : ℝ → Prop} (hfinite : window.sum.isFinite = true)
    (hvalues : ∀ y ∈ window.values, y.isFinite = true) (hzero : P 0)
    (h : ∀ {y}, Gives y (exactSum window.kept + window.error) →
      y.isFinite = true ∧ P (Doubles.slip (exactSum window.kept + window.error))) :
    window.keptSum.isFinite = true ∧ P window.keptSlip := by
  obtain ⟨-, hsum, hslip, -⟩ | ⟨old, hold, hsum, hvalue, hslip⟩ := window.keptSum_cases
  · rw [hsum, hslip]
    exact ⟨hfinite, hzero⟩
  · have hgives := gives_sub hfinite (hvalues old hold)
    rw [hvalue, ← hsum] at hgives
    rw [hslip]
    exact h hgives

/-! ## Sums without rounding -/

/-- A push adds nothing if the sums on the way are doubles. -/
theorem push_exact (hfinite : window.sum.isFinite = true) (herror : window.error = 0)
    (hvalues : ∀ y ∈ window.values, y.isFinite = true) (hx : x.isFinite = true)
    (hkept : IsDouble (exactSum window.kept))
    (hnext : IsDouble (exactSum (window.push x).values)) :
    (window.push x).sum.isFinite = true ∧ window.slip x = 0 := by
  rw [← add_zero (exactSum window.kept), ← herror] at hkept
  obtain ⟨hkeptFinite, hkeptSlip⟩ : window.keptSum.isFinite = true ∧ window.keptSlip = 0 := by
    have hrounds := keptSum_rounds (P := (· = 0)) hfinite hvalues rfl
    exact hrounds fun hgives => ⟨hkept.finite hgives, hkept.slip⟩
  have hgives := gives_add hkeptFinite hx
  have hadd := keptSum_add hkeptFinite x
  rw [herror, hkeptSlip, add_zero, add_zero] at hadd
  rw [hadd] at hgives
  refine ⟨hnext.finite hgives, ?_⟩
  unfold slip
  rw [hkeptSlip, hadd, hnext.slip, add_zero]

/-- A window holds neighbours. -/
theorem push_append_suffix (window : RollingWindow) (x : Float) (rest : List Float) :
    (window.push x).values ++ rest <:+ window.values ++ x :: rest := by
  refine ⟨window.evicted?.toList, ?_⟩
  rw [← window.evicted_append_kept]
  simp [push]

/-- What holds of the sums of neighbours holds of the sums that a push goes through. -/
theorem runSums_push {P : ℝ → Prop} {rest : List Float}
    (h : RunSums P window.capacity (window.values ++ x :: rest)) :
    P (exactSum window.kept) ∧ P (exactSum (window.push x).values) ∧
      RunSums P (window.push x).capacity ((window.push x).values ++ rest) := by
  have hsuffix := window.push_append_suffix x rest
  refine ⟨h _ ?_ window.length_kept_lt.le, h _ ?_ (window.push x).fits,
    fun run hrun hlength => h run (hrun.trans hsuffix.isInfix) hlength⟩
  · rw [← evicted_append_kept]
    exact ⟨window.evicted?.toList, x :: rest, rfl⟩
  · exact (List.prefix_append _ rest).isInfix.trans hsuffix.isInfix

/-- Nothing is added as long as all neighbours that the window may hold have sums that are
doubles. -/
theorem pushAll_exact (hfinite : window.sum.isFinite = true) (herror : window.error = 0)
    (hvalues : ∀ y ∈ window.values ++ pushed, y.isFinite = true)
    (hsums : RunSums IsDouble window.capacity (window.values ++ pushed)) :
    (window.pushAll pushed).sum.isFinite = true ∧ window.drift pushed = 0 := by
  induction pushed generalizing window with
  | nil => exact ⟨hfinite, rfl⟩
  | cons x rest ih =>
    have hsuffix := window.push_append_suffix x rest
    obtain ⟨hkept, hnext, hrest⟩ := runSums_push hsums
    obtain ⟨hpush, hslip⟩ := push_exact hfinite herror
      (fun y hy => hvalues y (List.mem_append_left _ hy)) (hvalues x (by simp)) hkept hnext
    have herror' : (window.push x).error = 0 := by
      rw [error_push hpush, herror, hslip, add_zero]
    obtain ⟨hsum, hdrift⟩ := ih hpush herror' (fun y hy => hvalues y (hsuffix.subset hy)) hrest
    refine ⟨hsum, ?_⟩
    rw [drift, hslip, hdrift, add_zero]

/-! ## Sums of a limited size -/

section Limited

variable {w : ℤ} {n : ℕ}

/-- What rounding adds on the way to a sum of a limited size. -/
theorem finite_of_bounded {y : Float} {r : ℝ} (hw : -1022 ≤ w) (hw' : w ≤ 1022) (h : Gives y r)
    (hr : |r| ≤ 2 ^ (w + 1)) : y.isFinite = true ∧ |Doubles.slip r| ≤ 2 ^ (w - 53) :=
  ⟨h.isFinite_of_le (by omega) (by omega) hr,
    (abs_slip_le (by omega) (by omega) hr).trans_eq (by congr 1; omega)⟩

/-- As long as there were not too many pushes, what they added is no more than the limit. -/
theorem few_slips (hn : n ≤ 2 ^ 52) : (n : ℝ) * 2 ^ (w - 52) ≤ 2 ^ w := by
  have hfew : (n : ℝ) ≤ 2 ^ (52 : ℤ) := by exact_mod_cast hn
  calc (n : ℝ) * 2 ^ (w - 52) ≤ 2 ^ (52 : ℤ) * 2 ^ (w - 52) :=
        mul_le_mul_of_nonneg_right hfew (two_zpow_pos _).le
    _ = 2 ^ w := by rw [← two_zpow_add]; congr 1; omega

theorem push_limited (hw : -1022 ≤ w) (hw' : w ≤ 1022) (hn : n + 1 ≤ 2 ^ 52)
    (hfinite : window.sum.isFinite = true) (herror : |window.error| ≤ n * 2 ^ (w - 52))
    (hvalues : ∀ y ∈ window.values, y.isFinite = true) (hx : x.isFinite = true)
    (hkept : |exactSum window.kept| ≤ 2 ^ w)
    (hnext : |exactSum (window.push x).values| ≤ 2 ^ w) :
    (window.push x).sum.isFinite = true ∧ |window.slip x| ≤ 2 ^ (w - 52) := by
  have hdouble : (2 : ℝ) ^ (w + 1) = 2 ^ w + 2 ^ w := by
    rw [zpow_add_one₀ two_ne_zero]
    ring
  have hhalves : (2 : ℝ) ^ (w - 52) = 2 ^ (w - 53) + 2 ^ (w - 53) := by
    rw [show w - 52 = w - 53 + 1 by omega, zpow_add_one₀ two_ne_zero]
    ring
  have hpos := two_zpow_pos (w - 53)
  have hfew := few_slips (w := w) hn
  push_cast at hfew
  obtain ⟨hkeptFinite, hkeptSlip⟩ :
      window.keptSum.isFinite = true ∧ |window.keptSlip| ≤ 2 ^ (w - 53) := by
    have habs := abs_add_le (exactSum window.kept) window.error
    have hrounds := keptSum_rounds (P := (|·| ≤ 2 ^ (w - 53))) hfinite hvalues
    refine hrounds (abs_zero.trans_le hpos.le) fun hgives => ?_
    exact finite_of_bounded hw hw' hgives (by linarith)
  have hgives := gives_add hkeptFinite hx
  have hadd := keptSum_add hkeptFinite x
  have habs := abs_add_three (exactSum (window.push x).values) window.error window.keptSlip
  rw [hadd] at hgives
  obtain ⟨hpush, hslip⟩ := finite_of_bounded hw hw' hgives (by linarith)
  refine ⟨hpush, ?_⟩
  have hsum := abs_add_le window.keptSlip (Doubles.slip (value window.keptSum + value x))
  rw [hadd] at hsum
  unfold slip
  rw [hadd]
  linarith

/-- As long as the sums of neighbours are limited, each push adds no more than two roundings of
such a sum do. -/
theorem pushAll_limited (hw : -1022 ≤ w) (hw' : w ≤ 1022) (hn : n + pushed.length ≤ 2 ^ 52)
    (hfinite : window.sum.isFinite = true) (herror : |window.error| ≤ n * 2 ^ (w - 52))
    (hvalues : ∀ y ∈ window.values ++ pushed, y.isFinite = true)
    (hsums : RunSums (|·| ≤ 2 ^ w) window.capacity (window.values ++ pushed)) :
    (window.pushAll pushed).sum.isFinite = true ∧
      |window.drift pushed| ≤ pushed.length * 2 ^ (w - 52) := by
  induction pushed generalizing window n with
  | nil =>
    refine ⟨hfinite, ?_⟩
    rw [drift, abs_zero, List.length_nil, Nat.cast_zero, zero_mul]
  | cons x rest ih =>
    rw [List.length_cons] at hn
    have hsuffix := window.push_append_suffix x rest
    obtain ⟨hkept, hnext, hrest⟩ := runSums_push hsums
    obtain ⟨hpush, hslip⟩ := push_limited hw hw' (by omega) hfinite herror
      (fun y hy => hvalues y (List.mem_append_left _ hy)) (hvalues x (by simp)) hkept hnext
    have herror' : |(window.push x).error| ≤ (n + 1 : ℕ) * 2 ^ (w - 52) := by
      rw [error_push hpush, Nat.cast_succ, add_mul, one_mul]
      exact (abs_add_le _ _).trans (add_le_add herror hslip)
    obtain ⟨hsum, hdrift⟩ :=
      ih (by omega) hpush herror' (fun y hy => hvalues y (hsuffix.subset hy)) hrest
    refine ⟨hsum, ?_⟩
    rw [drift, List.length_cons, Nat.cast_succ, add_mul, one_mul, add_comm]
    exact (abs_add_le _ _).trans (add_le_add hdrift hslip)

end Limited

/-! ## Two histories -/

/-- The running sum is never negative zero. -/
theorem sum_push_ne (h : (window.push x).sum.isFinite = true)
    (hne : parts window.sum ≠ .zero .negative) :
    parts (window.push x).sum ≠ .zero .negative := by
  obtain ⟨hkept, hx⟩ : window.keptSum.isFinite = true ∧ x.isFinite = true := finite_of_add h
  refine parts_add_ne hkept hx ?_
  change parts window.keptSum ≠ _
  obtain ⟨-, hsum, -⟩ | ⟨old, -, hsum, -⟩ := window.keptSum_cases <;> rw [hsum] at hkept ⊢
  · exact hne
  · obtain ⟨hfinite, hold⟩ := finite_of_sub hkept
    exact parts_sub_ne hfinite hold hne

theorem sum_pushAll_ne (h : (window.pushAll pushed).sum.isFinite = true)
    (hne : parts window.sum ≠ .zero .negative) :
    parts (window.pushAll pushed).sum ≠ .zero .negative := by
  induction pushed generalizing window with
  | nil => exact hne
  | cons x rest ih => exact ih h (sum_push_ne (finite_of_pushAll h) hne)

/-- Windows that hold the same after the same drift have the same running sum, and so the same
average. -/
theorem average_of_drift {capacity : Nat} {pushed' : List Float}
    (h : ((new capacity).pushAll pushed).sum.isFinite = true)
    (h' : ((new capacity).pushAll pushed').sum.isFinite = true)
    (hvalues : ((new capacity).pushAll pushed').values = ((new capacity).pushAll pushed).values)
    (hdrift : (new capacity).drift pushed' = (new capacity).drift pushed) :
    ((new capacity).pushAll pushed').average? = ((new capacity).pushAll pushed).average? := by
  have herror := error_pushAll h
  have herror' := error_pushAll h'
  rw [hdrift, ← herror, error, error, hvalues, sub_left_inj] at herror'
  have hnew : parts (new capacity).sum ≠ .zero .negative := by
    rw [sum_new, show parts 0.0 = .zero .positive from rfl]
    nofun
  have hsum := eq_of_value h' h (sum_pushAll_ne h' hnew) (sum_pushAll_ne h hnew) herror'
  unfold average?
  rw [hvalues, hsum]

/-! ## The law -/

theorem finite_new (capacity : Nat) : (new capacity).sum.isFinite = true := by
  rw [sum_new]
  rfl

/-- A finite running sum is off by the drift, and so is what the average is rounded from. -/
theorem average_pushAll (capacity : UInt64) (hsome : pushed ≠ [])
    (hfinite : ((new capacity.toNat).pushAll pushed).sum.isFinite = true) :
    let window := (new capacity.toNat).pushAll pushed
    ∃ average, window.average? = some average ∧ average.isFinite = true ∧
      value average = rounded
        ((exactSum window.values + (new capacity.toNat).drift pushed) /
          rounded window.values.length) := by
  intro window
  have hcapacity : window.capacity = max capacity.toNat 1 := capacity_pushAll _ pushed
  have hlength : window.values.length = min (max capacity.toNat 1) pushed.length := by
    unfold window
    rw [values_new_pushAll, length_rtake]
  have hheld : window.values ≠ [] := by
    have hpos := List.length_pos_iff.2 hsome
    exact List.length_pos_iff.1 (by omega)
  have hroom : window.capacity ≤ 2 ^ 1023 := by
    have hlt := capacity.toNat_lt
    rw [hcapacity]
    omega
  have herror : window.error = (new capacity.toNat).drift pushed := by
    have herror := error_pushAll hfinite
    rwa [error_new, zero_add] at herror
  rw [← herror]
  exact average_eq hheld hroom hfinite

/-- A window holds the last values that came. Its average is the mean of them but for a drift, which
is all that rounding has added on the way, and there is none after an overflow. If the sums of
neighbours are doubles, nothing is added, and if they are limited, the drift is. -/
theorem an_average_is_the_mean_but_for_what_rounding_added (capacity : UInt64)
    (pushed : List Float) (hpushed : ∀ x ∈ pushed, x.isFinite = true) :
    ((new capacity.toNat).pushAll pushed).values = pushed.rtake (max capacity.toNat 1) ∧
    let room := max capacity.toNat 1
    let drift := (new capacity.toNat).drift
    let window := (new capacity.toNat).pushAll pushed
    (pushed ≠ [] → window.sum.isFinite = true →
      ∃ average, window.average? = some average ∧ average.isFinite = true ∧
        value average =
          rounded ((exactSum window.values + drift pushed) / rounded window.values.length)) ∧
    (window.sum.isFinite = false → ∀ later average,
      (window.pushAll later).average? = some average → average.isFinite = false) ∧
    (RunSums IsDouble room pushed → window.sum.isFinite = true ∧ drift pushed = 0) ∧
    (room = 1 → RunSums IsDouble room pushed) ∧
    (∀ e : ℤ, -1074 ≤ e → e ≤ 970 →
      (∀ x ∈ pushed, ∃ k : ℤ, value x = k * 2 ^ e ∧ room * |k| ≤ 2 ^ 53) →
      RunSums IsDouble room pushed) ∧
    (∀ w : ℤ, -1022 ≤ w → w ≤ 1022 → pushed.length ≤ 2 ^ 52 →
      RunSums (|·| ≤ 2 ^ w) room pushed →
      window.sum.isFinite = true ∧ |drift pushed| ≤ pushed.length * 2 ^ (w - 52)) ∧
    ∀ pushed', let window' := (new capacity.toNat).pushAll pushed'
      window'.values = window.values → window.sum.isFinite = true →
      window'.sum.isFinite = true → drift pushed' = drift pushed →
      window'.average? = window.average? := by
  refine ⟨values_new_pushAll capacity.toNat pushed, ?_⟩
  intro room drift window
  have hempty := finite_new capacity.toNat
  have herror := error_new capacity.toNat
  refine ⟨fun hsome hfinite => average_pushAll capacity hsome hfinite,
    fun hinfinite later average haverage => ?_,
    fun hsums => pushAll_exact hempty herror hpushed hsums,
    fun hone => runSums_of_one hone.le hpushed,
    fun e he he' hdigits => runSums_of_digits he he' hdigits,
    fun w hw hw' hn hsums => ?_, ?_⟩
  · rw [Bool.eq_false_iff] at hinfinite ⊢
    intro hfinite
    exact hinfinite (finite_of_pushAll (finite_of_average haverage hfinite))
  · refine pushAll_limited (n := 0) hw hw' (by omega) hempty ?_ hpushed hsums
    rw [herror, abs_zero, Nat.cast_zero, zero_mul]
  · intro pushed' window' hsame hfinite hfinite' hdrift
    exact average_of_drift hfinite hfinite' hsame hdrift

/-- The first of three whole numbers leaves a window for two, and leaves nothing behind. -/
theorem the_mean_of_one_and_two :
    ((new 2).pushAll [5, 1, 2]).values = [1, 2] ∧
      ∃ average, ((new 2).pushAll [5, 1, 2]).average? = some average ∧ value average = 3 / 2 := by
  have hwhole : ∀ n : ℕ, n ≤ 5 → value (Float.ofNat n) = n := fun n hn =>
    ((gives_ofNat n).count (by omega)).2
  have hvalues : ((new 2).pushAll [5, 1, 2]).values = [1, 2] := by decide +kernel
  obtain ⟨-, haverage, -, hexact, -, hdigits, -, -⟩ :=
    an_average_is_the_mean_but_for_what_rounding_added 2 [5, 1, 2] (by decide +kernel)
  have hfew : ∀ x ∈ ([5, 1, 2] : List Float), ∃ k : ℤ,
      value x = k * 2 ^ (0 : ℤ) ∧ (max (2 : UInt64).toNat 1 : ℕ) * |k| ≤ 2 ^ 53 := by
    simp only [List.forall_mem_cons, List.not_mem_nil, false_implies, implies_true, and_true,
      zpow_zero, mul_one]
    exact ⟨⟨5, hwhole 5 le_rfl, by decide⟩, ⟨1, hwhole 1 (by omega), by decide⟩,
      ⟨2, hwhole 2 (by omega), by decide⟩⟩
  obtain ⟨hfinite, hdrift⟩ := hexact (hdigits 0 (by omega) (by omega) hfew)
  obtain ⟨average, hsome, -, hmean⟩ := haverage (List.cons_ne_nil _ _) hfinite
  refine ⟨hvalues, average, hsome, ?_⟩
  have hsum : exactSum [1, 2] = 3 := by
    rw [exactSum_cons, exactSum_singleton]
    exact (congrArg₂ (· + ·) (hwhole 1 (by omega)) (hwhole 2 (by omega))).trans (by norm_num)
  have htwo : rounded ((2 : ℕ) : ℝ) = 2 := by
    have h := hwhole 2 (by omega)
    rw [(gives_ofNat 2).value] at h
    exact_mod_cast h
  have hhalves : rounded (3 / 2) = 3 / 2 := by
    have hsteps : Steps (3 / 2) 3 (-1) := ⟨by norm_num, by norm_num, by norm_num⟩
    have hlimit : (2 : ℝ) ^ (1 : ℤ) ≤ limit := zpow_le_zpow_right₀ one_le_two (by norm_num)
    refine rounded_of_steps hsteps (le_trans ?_ hlimit)
    norm_num
  have hlist : ((new (2 : UInt64).toNat).pushAll [5, 1, 2]).values = [1, 2] := hvalues
  rw [hlist, hdrift, hsum, add_zero] at hmean
  rw [hmean, show ([1, 2] : List Float).length = 2 from rfl, htwo, hhalves]

/-- A large value that has left a window for two still halves its average, and two that overflowed
together leave an average that is not finite. -/
theorem a_large_value_is_remembered :
    ((new 2).pushAll [1e17, 1.0, 2.0]).values = ((new 2).pushAll [1.0, 2.0]).values ∧
      ((new 2).pushAll [1e17, 1.0, 2.0]).average? = some 1.0 ∧
      ((new 2).pushAll [1.0, 2.0]).average? = some 1.5 ∧
      ((new 2).pushAll [1e308, 1e308, 1.0, 2.0]).average? = some Sample.infinity := by
  decide +kernel

end RollingWindow

end TopologySync
