-- The shortest decimal of a double. Of the decimals that are read back as
-- the double it has the fewest digits, and of those it is the nearest one.
namespace TopologySync

/-- A whole number times a power of ten. -/
structure Decimal where
  digits : Nat
  exponent : Int
deriving DecidableEq, Repr

/-! ## What is read back as a double -/

/-- A positive double with the range of numbers that are rounded to it. The
three numbers count in units of a power of two. -/
structure RoundingRange where
  lower : Nat
  value : Nat
  upper : Nat
  exponent : Int
  /-- The ends of the range are rounded to the double as well. -/
  closed : Bool
deriving DecidableEq, Repr

/-- The range of a double without its sign. The unit is a quarter of the
distance to the next double; the one before a power of two is only half as
far away. An end of the range goes to the double with the even significand. -/
def RoundingRange.ofDouble (x : Float) : RoundingRange :=
  let bits := x.toBits.toNat
  let fraction := bits % Nat.pow 2 52
  let power := bits / Nat.pow 2 52 % Nat.pow 2 11
  let significand := if power = 0 then fraction else Nat.pow 2 52 + fraction
  { lower := 4 * significand - (if fraction = 0 ∧ 1 < power then 1 else 2)
    value := 4 * significand
    upper := 4 * significand + 2
    exponent := (max power 1 : Nat) - 1077
    closed := significand % 2 == 0 }

/-! ## Grids of decimals -/

namespace Decimal

/-- The decimal of a grid that stands for the double of a range: the nearest
one in the range, and of two the larger. A grid holds the multiples of a
power of ten. -/
def onGrid? (range : RoundingRange) (power : Int) : Option Decimal :=
  let step := Nat.pow 10 power.toNat * Nat.pow 2 (-range.exponent).toNat
  let scale := Nat.pow 2 range.exponent.toNat * Nat.pow 10 (-power).toNat
  let inRange (n : Nat) : Bool :=
    if range.closed then range.lower * scale ≤ n * step ∧ n * step ≤ range.upper * scale
    else range.lower * scale < n * step ∧ n * step < range.upper * scale
  let below := range.value * scale / step
  let nearer := if 2 * (range.value * scale) < (2 * below + 1) * step then below else below + 1
  let further := 2 * below + 1 - nearer
  if inRange nearer then some ⟨nearer, power⟩
  else if inRange further then some ⟨further, power⟩
  else none

/-- A power of ten above the numbers of a range. -/
def powerAbove (range : RoundingRange) : Int :=
  (Nat.log2 range.upper + 1 + range.exponent) * 1233 / 4096 + 1

/-- No double needs more grids than this, from the first power above it. -/
def gridCount : Nat := 20

/-- The decimal of the coarsest grid that has one. -/
def ofRange (range : RoundingRange) : Decimal :=
  let grids := (List.range gridCount).map (fun i => powerAbove range - (i : Nat))
  (grids.findSome? (onGrid? range)).getD ⟨0, 0⟩

/-- The shortest decimal of a double without its sign. -/
def shortest (x : Float) : Decimal :=
  ofRange (.ofDouble x)

end Decimal

end TopologySync
