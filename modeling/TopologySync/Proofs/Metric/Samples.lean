-- The statistics of a sample as numbers. The extremes are values of the sample, and
-- a total of values that are not negative is no smaller than any of them, however
-- it is rounded on the way.
import TopologySync.Metric.Sample
import TopologySync.Proofs.Doubles.Infinities

open TopologySync.Doubles

namespace TopologySync.Sample

variable {s : Sample} {x y : Float} {values : List Float}

/-! ## Values -/

theorem isFinite_of_mem (s : Sample) (h : x ∈ s.values) : x.isFinite = true := by
  have hnone := List.find?_eq_none.1 s.finite x h
  simpa using hnone

theorem ofList_values (s : Sample) : ofList s.values = .ok s := by
  unfold ofList
  rw [dif_neg s.nonempty]
  split
  · next bad hbad =>
    rw [s.finite] at hbad
    cases hbad
  · rfl

theorem length_pos (s : Sample) : 0 < s.values.length :=
  List.length_pos_iff.2 s.nonempty

theorem parts_infinity : parts infinity = .infinity .positive :=
  rfl

theorem parts_neg_infinity : parts (-infinity) = .infinity .negative :=
  rfl

theorem value_zero : value 0.0 = 0 :=
  rfl

theorem value_neg_zero : value (-0.0) = 0 :=
  rfl

/-! ## Extremes -/

/-- One of two numbers is taken, and is no further in an order than the other. -/
def Takes (r : ℝ → ℝ → Prop) (pick : Float → Float → Float) : Prop :=
  ∀ {a b}, a.isNaN = false → b.isNaN = false →
    pick a b = a ∧ r (value a) (value b) ∨ pick a b = b ∧ r (value b) (value a)

theorem lesser_eq (hx : x.isNaN = false) (hy : y.isNaN = false) :
    lesser x y = if value y < value x then y else x := by
  simp only [lesser, hx, lt_iff hy hx, Bool.false_eq_true, false_or]

theorem greater_eq (hx : x.isNaN = false) (hy : y.isNaN = false) :
    greater x y = if value x < value y then y else x := by
  simp only [greater, hx, lt_iff hx hy, Bool.false_eq_true, false_or]

theorem takes_lesser : Takes (· ≤ ·) lesser := fun {a b} ha hb => by
  rw [lesser_eq ha hb]
  split_ifs with h
  · exact .inr ⟨rfl, h.le⟩
  · exact .inl ⟨rfl, not_lt.1 h⟩

theorem takes_greater : Takes (· ≥ ·) greater := fun {a b} ha hb => by
  rw [greater_eq ha hb]
  split_ifs with h
  · exact .inr ⟨rfl, h.le⟩
  · exact .inl ⟨rfl, not_lt.1 h⟩

/-- A number is no larger than the larger of anything and itself. -/
theorem le_greater (x : Float) (hy : y.isNaN = false) :
    (greater x y).isNaN = false ∧ value y ≤ value (greater x y) := by
  rcases hx : x.isNaN with _ | _
  · rcases takes_greater hx hy with ⟨heq, hle⟩ | ⟨heq, -⟩ <;> rw [heq]
    · exact ⟨hx, hle⟩
    · exact ⟨hy, le_rfl⟩
  · rw [show greater x y = y from if_pos (.inl hx)]
    exact ⟨hy, le_rfl⟩

theorem lesser_le (x : Float) (hy : y.isNaN = false) :
    (lesser x y).isNaN = false ∧ value (lesser x y) ≤ value y := by
  rcases hx : x.isNaN with _ | _
  · rcases takes_lesser hx hy with ⟨heq, hle⟩ | ⟨heq, -⟩ <;> rw [heq]
    · exact ⟨hx, hle⟩
    · exact ⟨hy, le_rfl⟩
  · rw [show lesser x y = y from if_pos (.inl hx)]
    exact ⟨hy, le_rfl⟩

/-- Taking one after the other comes to one that no other is before. -/
theorem foldl_takes {r : ℝ → ℝ → Prop} [IsPreorder ℝ r] {pick : Float → Float → Float}
    (h : Takes r pick) (hvalues : ∀ x ∈ values, x.isNaN = false) {first : Float}
    (hfirst : first.isNaN = false) :
    values.foldl pick first ∈ first :: values ∧
      ∀ x ∈ first :: values, r (value (values.foldl pick first)) (value x) := by
  induction values generalizing first with
  | nil =>
    refine ⟨List.mem_singleton_self first, fun x hx => ?_⟩
    rw [List.mem_singleton.1 hx]
    exact refl_of r _
  | cons y rest ih =>
    obtain ⟨hy, hrest⟩ := List.forall_mem_cons.1 hvalues
    rw [List.foldl_cons]
    rcases h hfirst hy with ⟨heq, hbefore⟩ | ⟨heq, hbefore⟩ <;> rw [heq]
    · obtain ⟨hmem, hall⟩ := ih hrest hfirst
      rw [List.forall_mem_cons] at hall
      refine ⟨List.cons_subset_cons first (List.subset_cons_self y rest) hmem, ?_⟩
      rw [List.forall_mem_cons, List.forall_mem_cons]
      exact ⟨hall.1, trans_of r hall.1 hbefore, hall.2⟩
    · obtain ⟨hmem, hall⟩ := ih hrest hy
      refine ⟨List.mem_cons_of_mem _ hmem, ?_⟩
      rw [List.forall_mem_cons]
      exact ⟨trans_of r (hall y List.mem_cons_self) hbefore, hall⟩

theorem number_of_mem (s : Sample) : ∀ x ∈ s.values, x.isNaN = false := fun _ hx =>
  number_of_finite (s.isFinite_of_mem hx)

theorem abs_value_lt (s : Sample) (h : x ∈ s.values) : |value x| < limit :=
  (isFinite_iff.1 (s.isFinite_of_mem h)).2

theorem min_le (s : Sample) (h : x ∈ s.values) : value s.min ≤ value x :=
  (foldl_takes takes_lesser s.number_of_mem (number_of_infinity parts_infinity)).2 x
    (List.mem_cons_of_mem _ h)

theorem le_max (s : Sample) (h : x ∈ s.values) : value x ≤ value s.max :=
  (foldl_takes takes_greater s.number_of_mem (number_of_infinity parts_neg_infinity)).2 x
    (List.mem_cons_of_mem _ h)

theorem min_mem (s : Sample) : s.min ∈ s.values := by
  obtain ⟨x, hx⟩ := List.exists_mem_of_ne_nil _ s.nonempty
  have hmem := (foldl_takes takes_lesser s.number_of_mem (number_of_infinity parts_infinity)).1
  refine (List.mem_cons.1 hmem).resolve_left fun (heq : s.min = infinity) => ?_
  have hle := s.min_le hx
  rw [heq, value_of_infinity parts_infinity] at hle
  exact absurd hle (not_le.2 (abs_lt.1 (s.abs_value_lt hx)).2)

theorem max_mem (s : Sample) : s.max ∈ s.values := by
  obtain ⟨x, hx⟩ := List.exists_mem_of_ne_nil _ s.nonempty
  have hmem := (foldl_takes takes_greater s.number_of_mem
    (number_of_infinity parts_neg_infinity)).1
  refine (List.mem_cons.1 hmem).resolve_left fun (heq : s.max = -infinity) => ?_
  have hle := s.le_max hx
  rw [heq, value_of_infinity parts_neg_infinity] at hle
  exact absurd hle (not_le.2 (abs_lt.1 (s.abs_value_lt hx)).1)

/-! ## Totals -/

/-- Numbers that are not negative, infinite ones among them. -/
def Nonneg (values : List Float) : Prop :=
  ∀ x ∈ values, x.isNaN = false ∧ 0 ≤ value x

theorem foldl_add_nonneg (h : Nonneg values) {first : Float} (hfirst : first.isNaN = false)
    (hpos : 0 ≤ value first) :
    (values.foldl (· + ·) first).isNaN = false ∧
      ∀ x ∈ first :: values, value x ≤ value (values.foldl (· + ·) first) := by
  induction values generalizing first with
  | nil => exact ⟨hfirst, fun x hx => by rw [List.mem_singleton.1 hx]; rfl⟩
  | cons y rest ih =>
    obtain ⟨⟨hy, hypos⟩, hrest⟩ := List.forall_mem_cons.1 h
    have hsum := gives_add_nonneg hfirst hpos hy hypos
    have hleft : value first ≤ value (first + y) := by
      rw [hsum.value]
      exact (rounded_value first).ge.trans (rounded_mono (le_add_of_nonneg_right hypos))
    have hright : value y ≤ value (first + y) := by
      rw [hsum.value]
      exact (rounded_value y).ge.trans (rounded_mono (le_add_of_nonneg_left hpos))
    obtain ⟨hnumber, hle⟩ := ih hrest hsum.number (hpos.trans hleft)
    have hlast := hle _ List.mem_cons_self
    rw [List.foldl_cons, List.forall_mem_cons, List.forall_mem_cons]
    exact ⟨hnumber, hleft.trans hlast, hright.trans hlast,
      fun x hx => hle x (List.mem_cons_of_mem _ hx)⟩

/-- A total of numbers that are not negative is one, and is no smaller than any of them. -/
theorem total_nonneg (h : Nonneg values) :
    (total values).isNaN = false ∧ 0 ≤ value (total values) ∧
      ∀ x ∈ values, value x ≤ value (total values) := by
  obtain ⟨hnumber, hle⟩ := foldl_add_nonneg h (rfl : (-0.0 : Float).isNaN = false) value_neg_zero.ge
  rw [List.forall_mem_cons, value_neg_zero] at hle
  exact ⟨hnumber, hle⟩

theorem gives_size (s : Sample) : Gives s.size s.values.length :=
  gives_ofNat _

theorem one_le_size (s : Sample) : 1 ≤ value s.size :=
  one_le_ofNat s.length_pos

end TopologySync.Sample
