-- Numbers. A numeral is first taken apart into its digits, then valued.
-- Digits count as long as they fit 64 bits; the rest of the whole part
-- only shifts the exponent, and the rest of the fraction is dropped.
import TopologySync.Json.Byte

namespace TopologySync.Json

/-- The parts of a number as it is written. -/
structure Numeral where
  negative : Bool
  whole : List Nat
  fraction : Option (List Nat) := none
  /-- Whether the exponent is negative, and its digits. -/
  exponent : Option (Bool × List Nat) := none
deriving DecidableEq, Repr

namespace Numeral

/-! ## Taking a numeral apart -/

/-- The digits at the head of a text, and what follows them. -/
def digits (s : Bytes) : List Nat × Bytes :=
  ((s.takeWhile Byte.isDigit).map Byte.digitValue, s.dropWhile Byte.isDigit)

/-- At least one digit is due. -/
def someDigits (s : Bytes) : Except Problem (List Nat × Bytes) :=
  match digits s with
  | ([], []) => .error .truncated
  | ([], _) => .error .malformed
  | found => .ok found

/-- The whole part has no leading zero. -/
def readWhole (s : Bytes) : Except Problem (List Nat × Bytes) := do
  let (found, rest) ← someDigits s
  match found with
  | 0 :: _ :: _ => .error .malformed
  | _ => .ok (found, rest)

def readFraction (s : Bytes) : Except Problem (Option (List Nat) × Bytes) :=
  match s with
  | [] => .ok (none, [])
  | b :: r =>
    if b = Byte.point then (someDigits r).map (fun (found, rest) => (some found, rest))
    else .ok (none, s)

def readSign (s : Bytes) : Bool × Bytes :=
  match s with
  | [] => (false, [])
  | b :: r =>
    if b = Byte.minus then (true, r) else if b = Byte.plus then (false, r) else (false, s)

def readExponent (s : Bytes) : Except Problem (Option (Bool × List Nat) × Bytes) :=
  match s with
  | [] => .ok (none, [])
  | b :: r =>
    if Byte.isExponentMark b then
      let (negative, r) := readSign r
      (someDigits r).map (fun (found, rest) => (some (negative, found), rest))
    else .ok (none, s)

def readMinus (s : Bytes) : Bool × Bytes :=
  match s with
  | [] => (false, [])
  | b :: r => if b = Byte.minus then (true, r) else (false, s)

/-- The numeral at the head of a text, and what follows it. -/
def read (s : Bytes) : Except Problem (Numeral × Bytes) := do
  let (negative, s) := readMinus s
  let (whole, s) ← readWhole s
  let (fraction, s) ← readFraction s
  let (exponent, s) ← readExponent s
  return ({ negative, whole, fraction, exponent }, s)

/-! ## What follows a numeral -/

theorem someDigits_length {s rest : Bytes} {ds : List Nat}
    (h : someDigits s = .ok (ds, rest)) : rest.length ≤ s.length := by
  unfold someDigits digits at h
  split at h
  · cases h
  · cases h
  · cases h
    exact (List.dropWhile_suffix _).length_le

theorem readWhole_length {s rest : Bytes} {ds : List Nat}
    (h : readWhole s = .ok (ds, rest)) : rest.length ≤ s.length := by
  unfold readWhole at h
  cases hs : someDigits s with
  | error p => rw [hs] at h; cases h
  | ok found =>
    obtain ⟨ds', rest'⟩ := found
    rw [hs] at h
    simp only [bind, Except.bind] at h
    split at h
    · cases h
    · cases h
      exact someDigits_length hs

theorem readFraction_length {s rest : Bytes} {ds : Option (List Nat)}
    (h : readFraction s = .ok (ds, rest)) : rest.length ≤ s.length := by
  unfold readFraction at h
  split at h
  · cases h; exact Nat.le_refl _
  · split at h
    · next b r _ =>
      cases hs : someDigits r with
      | error p => rw [hs] at h; cases h
      | ok found =>
        rw [hs] at h
        cases h
        exact Nat.le_succ_of_le (someDigits_length hs)
    · cases h; exact Nat.le_refl _

theorem readSign_length (s : Bytes) : (readSign s).2.length ≤ s.length := by
  unfold readSign
  split
  · exact Nat.le_refl _
  · split
    · exact Nat.le_succ _
    · split
      · exact Nat.le_succ _
      · exact Nat.le_refl _

theorem readExponent_length {s rest : Bytes} {ds : Option (Bool × List Nat)}
    (h : readExponent s = .ok (ds, rest)) : rest.length ≤ s.length := by
  unfold readExponent at h
  split at h
  · cases h; exact Nat.le_refl _
  · split at h
    · next b r _ =>
      simp only at h
      cases hs : someDigits (readSign r).2 with
      | error p => rw [hs] at h; cases h
      | ok found =>
        rw [hs] at h
        cases h
        exact Nat.le_succ_of_le
          (Nat.le_trans (someDigits_length hs) (readSign_length r))
    · cases h; exact Nat.le_refl _

theorem readMinus_length (s : Bytes) : (readMinus s).2.length ≤ s.length := by
  unfold readMinus
  split
  · exact Nat.le_refl _
  · split
    · exact Nat.le_succ _
    · exact Nat.le_refl _

/-- What follows a numeral is no longer than the text. -/
theorem read_length {s rest : Bytes} {n : Numeral} (h : read s = .ok (n, rest)) :
    rest.length ≤ s.length := by
  unfold read at h
  have hm := readMinus_length s
  cases hw : readWhole (readMinus s).2 with
  | error p => simp only [hw, bind, Except.bind] at h; cases h
  | ok w =>
    cases hf : readFraction w.2 with
    | error p => simp only [hw, hf, bind, Except.bind] at h; cases h
    | ok f =>
      cases he : readExponent f.2 with
      | error p => simp only [hw, hf, he, bind, Except.bind] at h; cases h
      | ok e =>
        simp only [hw, hf, he, bind, Except.bind] at h
        cases h
        have := readWhole_length hw
        have := readFraction_length hf
        have := readExponent_length he
        omega

/-! ## Its value -/

/-- Takes digits into a significand as long as it fits 64 bits, and
counts the digits that are left. -/
def absorb (significand : Nat) : List Nat → Nat × Nat
  | [] => (significand, 0)
  | d :: ds =>
    if significand * 10 + d < UInt64.size then absorb (significand * 10 + d) ds
    else (significand, ds.length + 1)

/-- The greatest power of ten that a double holds. -/
def greatestPower : Nat := 308

/-- The double nearest to a power of ten. -/
def powerOfTen (k : Nat) : Float :=
  Float.ofScientific 1 false k

/-- A product that overflows is no JSON. -/
def shiftUp (x : Float) (k : Nat) : Except Problem Float :=
  if k ≤ greatestPower then
    let y := x * powerOfTen k
    if y.isInf then .error .malformed else .ok y
  else if x == 0.0 then .ok x
  else .error .malformed

/-- A number too small for a double comes out as zero. -/
def shiftDown (x : Float) (k : Nat) : Float :=
  if k ≤ greatestPower then x / powerOfTen k
  else if x == 0.0 then x
  else shiftDown (x / powerOfTen greatestPower) (k - greatestPower)
termination_by k
decreasing_by simp [greatestPower] at *; omega

/-- A significand times a power of ten. -/
def shift (significand : Nat) (exponent : Int) : Except Problem Float :=
  let x := (UInt64.ofNat significand).toFloat
  match exponent with
  | .ofNat k => shiftUp x k
  | .negSucc k => .ok (shiftDown x (k + 1))

/-- The largest exponent that is still computed with. -/
def exponentLimit : Nat := UInt32.size / 2 - 1

/-- The number read as a double, before its sign. -/
def magnitude (n : Numeral) : Except Problem Float :=
  let (high, dropped) := absorb 0 n.whole
  let (significand, unused) := absorb high (n.fraction.getD [])
  let start : Int := dropped - ((n.fraction.getD []).length - unused : Nat)
  match n.exponent with
  | none => shift significand start
  | some (negative, ds) =>
    let e := ds.foldl (fun e d => e * 10 + d) 0
    if e ≤ exponentLimit then shift significand (if negative then start - e else start + e)
    else if significand ≠ 0 ∧ ¬negative then .error .malformed
    else .ok 0.0

/-- The number is written without point and exponent. -/
def isWhole (n : Numeral) : Bool :=
  n.fraction.isNone && n.exponent.isNone

def signed (negative : Bool) (x : Float) : Float :=
  if negative then -x else x

/-- The number a numeral stands for. Zero with a sign, and whole numbers
that do not fit 64 bits, are doubles. -/
def value (n : Numeral) : Except Problem Number :=
  match absorb 0 n.whole with
  | (magnitude, 0) =>
    if n.isWhole then
      if ¬n.negative then .ok (.natural (.ofNat magnitude))
      else if 0 < magnitude ∧ magnitude ≤ UInt64.size / 2 then .ok (.negative (.ofInt (-magnitude)))
      else .ok (.real (-(UInt64.ofNat magnitude).toFloat))
    else n.magnitude.map (fun x => .real (signed n.negative x))
  | _ => n.magnitude.map (fun x => .real (signed n.negative x))

end Numeral

end TopologySync.Json
