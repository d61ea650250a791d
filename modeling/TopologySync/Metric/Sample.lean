-- Statistics of a sample: a list of finite values with at least one of
-- them. All sums run from left to right.
import TopologySync.Metric.Basic

namespace TopologySync

/-- A list of finite values, not empty. -/
structure Sample where
  values : List Float
  nonempty : values ≠ []
  finite : values.find? (fun x => !x.isFinite) = none

namespace Sample

/-- Takes a list as a sample, or tells why it is none. -/
def ofList (values : List Float) : Except StatError Sample :=
  if nonempty : values = [] then .error (.insufficient 1 0)
  else match finite : values.find? (fun x => !x.isFinite) with
    | some bad => .error (.nonFinite bad)
    | none => .ok ⟨values, nonempty, finite⟩

theorem values_ofList {values : List Float} {s : Sample} (h : ofList values = .ok s) :
    s.values = values := by
  unfold ofList at h
  split at h
  · cases h
  · split at h
    · cases h
    · cases h
      rfl

/-- The number of values as a double. -/
def size (s : Sample) : Float :=
  Float.ofNat s.values.length

/-! ## Range, mean and deviation -/

/-- The smaller of two numbers. What is no number is passed over. -/
def lesser (a b : Float) : Float :=
  if a.isNaN ∨ b < a then b else a

/-- The larger of two numbers. What is no number is passed over. -/
def greater (a b : Float) : Float :=
  if a.isNaN ∨ a < b then b else a

def infinity : Float := 1.0 / 0.0

def min (s : Sample) : Float :=
  s.values.foldl lesser infinity

def max (s : Sample) : Float :=
  s.values.foldl greater (-infinity)

/-- The sum of a list, which starts from negative zero so that it is
negative zero if all values are. -/
def total (values : List Float) : Float :=
  values.foldl (· + ·) (-0.0)

def mean (s : Sample) : Float :=
  total s.values / s.size

/-- The deviation of a whole population. -/
def standardDeviation (s : Sample) : Float :=
  let center := s.mean
  (total (s.values.map (fun x => (x - center) * (x - center))) / s.size).sqrt

/-! ## Median and quartiles -/

/-- The place of a double in the total order of IEEE 754, in which
negative zero comes before zero. -/
def place (x : Float) : Int :=
  let bits := x.toBits.toNat
  if bits < UInt64.size / 2 then bits else UInt64.size / 2 - 1 - bits

/-- Puts a value before the first one that is not smaller. -/
def insert (x : Float) : List Float → List Float
  | [] => [x]
  | y :: rest => if place x ≤ place y then x :: y :: rest else y :: insert x rest

/-- The values in their total order. -/
def sort (values : List Float) : List Float :=
  values.foldr insert []

theorem insert_perm (x : Float) (values : List Float) : (insert x values).Perm (x :: values) := by
  induction values with
  | nil => exact .refl _
  | cons y rest ih =>
    unfold insert
    split
    · exact .refl _
    · exact .trans (.cons y ih) (.swap x y rest)

theorem sort_perm (values : List Float) : (sort values).Perm values := by
  induction values with
  | nil => exact .refl _
  | cons x rest ih => exact .trans (insert_perm x (sort rest)) (.cons x ih)

/-- The middle value of a sorted list, or halfway between the middle two. -/
def middle (sorted : List Float) (h : 0 < sorted.length) : Float :=
  have below : sorted.length / 2 - 1 < sorted.length := by omega
  have half : sorted.length / 2 < sorted.length := by omega
  if sorted.length % 2 = 0 then
    (sorted[sorted.length / 2 - 1] + sorted[sorted.length / 2]) / 2.0
  else sorted[sorted.length / 2]

theorem length_sort (values : List Float) : (sort values).length = values.length :=
  (sort_perm values).length_eq

theorem sort_length_pos (s : Sample) : 0 < (sort s.values).length := by
  rw [length_sort]
  exact List.length_pos_iff.2 s.nonempty

def median (s : Sample) : Float :=
  middle (sort s.values) s.sort_length_pos

/-- The three values that cut a sample into quarters. -/
structure Quartiles where
  q1 : Float
  q2 : Float
  q3 : Float
deriving DecidableEq

/-- The distance between the outer quartiles. -/
def Quartiles.range (q : Quartiles) : Float :=
  q.q3 - q.q1

/-- The lower half of a list, without the middle value. -/
def lowerHalf (sorted : List Float) : List Float :=
  sorted.take (sorted.length / 2)

/-- The upper half of a list, without the middle value. -/
def upperHalf (sorted : List Float) : List Float :=
  sorted.drop (sorted.length - sorted.length / 2)

theorem length_lowerHalf (sorted : List Float) :
    (lowerHalf sorted).length = sorted.length / 2 := by
  unfold lowerHalf
  rw [List.length_take]
  omega

theorem length_upperHalf (sorted : List Float) :
    (upperHalf sorted).length = sorted.length / 2 := by
  unfold upperHalf
  rw [List.length_drop]
  omega

/-- The quartiles of a sorted list as hinges: the outer two are the
medians of the two halves. A single value is all three. -/
def hinges (sorted : List Float) (h : 0 < sorted.length) : Quartiles :=
  if single : sorted.length = 1 then
    ⟨sorted[0], sorted[0], sorted[0]⟩
  else
    ⟨middle (lowerHalf sorted) (by rw [length_lowerHalf]; omega),
      middle sorted h,
      middle (upperHalf sorted) (by rw [length_upperHalf]; omega)⟩

def quartiles (s : Sample) : Quartiles :=
  hinges (sort s.values) s.sort_length_pos

end Sample

/-- The range of a metric in one batch: its outer quartiles and its extremes. -/
structure Thresholds where
  q1 : Float
  q3 : Float
  min : Float
  max : Float
deriving DecidableEq

/-- The thresholds of a list of values. -/
def Thresholds.ofValues (values : List Float) : Except StatError Thresholds := do
  let s ← Sample.ofList values
  let q := s.quartiles
  return ⟨q.q1, q.q3, s.min, s.max⟩

end TopologySync
