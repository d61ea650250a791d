-- Decimals as texts: with a point, or with an exponent where the point
-- would stand too far away.
import TopologySync.Decimal.Shortest

namespace TopologySync

namespace Decimal

/-- The digits of a decimal. -/
def digitChars (d : Decimal) : List Char :=
  Nat.toDigits 10 d.digits

/-- A decimal with a point, at least one digit before it and one after it. -/
def positional (d : Decimal) : String :=
  if 0 ≤ d.exponent then
    String.ofList (d.digitChars ++ List.replicate d.exponent.toNat '0') ++ ".0"
  else
    let places := (-d.exponent).toNat
    let digits := List.replicate (places + 1 - d.digitChars.length) '0' ++ d.digitChars
    let whole := digits.length - places
    String.ofList (digits.take whole ++ '.' :: digits.drop whole)

/-- A decimal with one digit before the point, and an exponent. A point with
nothing behind it is left out. -/
def scientific (d : Decimal) : String :=
  let point := if d.digitChars.length = 1 then "" else "."
  let exponent := d.exponent + (d.digitChars.length - 1 : Nat)
  let sign := if exponent < 0 then "-" else ""
  String.ofList (d.digitChars.take 1) ++ point ++ String.ofList (d.digitChars.drop 1) ++ "e"
    ++ sign ++ String.ofList (Nat.toDigits 10 exponent.natAbs)

/-- The smallest double above zero that is written with a point. -/
def leastPositional : Float := 1.0e-4

/-- The smallest double that is too large to be written with a point. -/
def leastScientific : Float := 1.0e16

/-- A double without its sign. -/
def magnitudeText (x : Float) : String :=
  if x.isInf then "inf"
  else if x == 0.0 then "0.0"
  else if x < leastPositional ∨ leastScientific ≤ x then (shortest x).scientific
  else (shortest x).positional

/-- A double as the shortest text that is read back as it. -/
def ofDouble (x : Float) : String :=
  if x.isNaN then "NaN"
  else if UInt64.size / 2 ≤ x.toBits.toNat then "-" ++ magnitudeText x.abs
  else magnitudeText x

end Decimal

end TopologySync
