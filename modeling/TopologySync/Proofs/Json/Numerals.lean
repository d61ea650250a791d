-- Reading numbers. A numeral is taken apart as it was put together, as long as nothing behind
-- it goes on with it, and the digits of a whole number stand for this number.
import TopologySync.Proofs.Json.Layout
import TopologySync.Proofs.Json.Utf8

namespace TopologySync.Json

namespace Numeral

/-! ## Digits -/

/-- The byte of a digit. -/
def digitByte (d : Nat) : UInt8 :=
  Byte.zero + UInt8.ofNat d

theorem isDigit_digitByte {d : Nat} (h : d < 10) :
    Byte.isDigit (digitByte d) = true ∧ Byte.digitValue (digitByte d) = d := by
  have hall : ∀ d < 10, Byte.isDigit (digitByte d) = true ∧ Byte.digitValue (digitByte d) = d := by
    decide
  exact hall d h

theorem utf8EncodeChar_digitChar {d : Nat} (h : d < 10) :
    String.utf8EncodeChar d.digitChar = [digitByte d] := by
  have hall : ∀ d < 10, String.utf8EncodeChar (Nat.digitChar d) = [digitByte d] := by decide
  exact hall d h

theorem utf8_digits {ds : List Nat} (h : ∀ d ∈ ds, d < 10) :
    utf8 (ds.map Nat.digitChar) = ds.map digitByte := by
  induction ds with
  | nil => rfl
  | cons d ds ih =>
    obtain ⟨hd, hds⟩ := List.forall_mem_cons.1 h
    rw [List.map_cons, utf8_cons, utf8EncodeChar_digitChar hd, ih hds]
    rfl

/-- Written digits start with the byte of a digit. -/
theorem utf8_head {ds : List Nat} {cs : List Char} (h : IsDigits ds cs) :
    ∃ d r, d < 10 ∧ utf8 cs = digitByte d :: r := by
  obtain ⟨hsome, hsmall, rfl⟩ := h
  obtain ⟨d, ds, rfl⟩ := List.exists_cons_of_ne_nil hsome
  exact ⟨d, ds.map digitByte, hsmall d List.mem_cons_self, utf8_digits hsmall⟩

/-- No byte of the kind stands at the head of a text. -/
def Heads (p : UInt8 → Bool) (rest : Bytes) : Prop :=
  ∀ b ∈ rest.head?, p b = false

theorem digits_written {ds : List Nat} {rest : Bytes} (hsmall : ∀ d ∈ ds, d < 10)
    (hrest : Heads Byte.isDigit rest) : digits (ds.map digitByte ++ rest) = (ds, rest) := by
  have hrest : rest.takeWhile Byte.isDigit = [] ∧ rest.dropWhile Byte.isDigit = rest := by
    cases rest with
    | nil => exact ⟨rfl, rfl⟩
    | cons b rest => simp [hrest b rfl]
  induction ds with
  | nil => simp [digits, hrest]
  | cons d ds ih =>
    obtain ⟨hd, hds⟩ := List.forall_mem_cons.1 hsmall
    obtain ⟨hdigit, hvalue⟩ := isDigit_digitByte hd
    have ih := ih hds
    simp only [digits, Prod.mk.injEq] at ih
    simp [digits, hdigit, hvalue, ih]

theorem someDigits_written {ds : List Nat} {cs : List Char} (h : IsDigits ds cs) {rest : Bytes}
    (hrest : Heads Byte.isDigit rest) : someDigits (utf8 cs ++ rest) = .ok (ds, rest) := by
  obtain ⟨hsome, hsmall, rfl⟩ := h
  rw [utf8_digits hsmall, someDigits, digits_written hsmall hrest]
  cases ds with
  | nil => exact absurd rfl hsome
  | cons d ds => rfl

/-! ## The parts of a numeral -/

variable {rest : Bytes}

/-- What stands here does not go on with a numeral. -/
structure Stops (rest : Bytes) : Prop where
  digit : Heads Byte.isDigit rest
  point : Heads (· == Byte.point) rest
  mark : Heads Byte.isExponentMark rest

theorem stops_cons {b : UInt8} (hdigit : Byte.isDigit b = false) (hpoint : b ≠ Byte.point)
    (hmark : Byte.isExponentMark b = false) (rest : Bytes) : Stops (b :: rest) := by
  constructor <;> rintro _ ⟨⟩
  · exact hdigit
  · exact beq_eq_false_iff_ne.2 hpoint
  · exact hmark

theorem readWhole_written {ds : List Nat} {cs : List Char} (h : IsDigits ds cs)
    (hzero : ds.head? = some 0 → ds = [0]) (hrest : Heads Byte.isDigit rest) :
    readWhole (utf8 cs ++ rest) = .ok (ds, rest) := by
  rw [readWhole, someDigits_written h hrest]
  simp only [bind, Except.bind]
  split
  next d more => simpa using hzero rfl
  next => rfl

theorem readFraction_written {fraction : Option (List Nat)} {cs : List Char}
    (h : FractionLayout fraction cs) (hdigit : Heads Byte.isDigit rest)
    (hpoint : Heads (· == Byte.point) rest) :
    readFraction (utf8 cs ++ rest) = .ok (fraction, rest) := by
  cases h with
  | none =>
    cases rest with
    | nil => rfl
    | cons b rest =>
      have hb : b ≠ Byte.point := by simpa using hpoint b rfl
      simp [readFraction, hb]
  | some h =>
    rw [utf8_ascii (by decide), List.cons_append, readFraction,
      if_pos (show UInt8.ofNat '.'.toNat = Byte.point by decide), someDigits_written h hdigit]
    rfl

theorem readSign_written {negative : Bool} {sign cs : List Char} {ds : List Nat}
    (hsign : SignLayout negative sign) (h : IsDigits ds cs) :
    readSign (utf8 (sign ++ cs) ++ rest) = (negative, utf8 cs ++ rest) := by
  cases hsign with
  | none =>
    have hall : ∀ d < 10, digitByte d ≠ Byte.minus ∧ digitByte d ≠ Byte.plus := by decide
    obtain ⟨d, r, hd, hcs⟩ := utf8_head h
    rw [List.nil_append, hcs]
    simp [readSign, hall d hd]
  | plus =>
    rw [List.cons_append, utf8_ascii (by decide)]
    rfl
  | minus =>
    rw [List.cons_append, utf8_ascii (by decide)]
    rfl

theorem readExponent_written {exponent : Option (Bool × List Nat)} {cs : List Char}
    (h : ExponentLayout exponent cs) (hrest : Stops rest) :
    readExponent (utf8 cs ++ rest) = .ok (exponent, rest) := by
  cases h with
  | none =>
    cases rest with
    | nil => rfl
    | cons b rest => simp [readExponent, hrest.mark b rfl]
  | @some mark negative ds sign cs hmark hsign h =>
    have hbyte : utf8 (mark :: (sign ++ cs)) = UInt8.ofNat mark.toNat :: utf8 (sign ++ cs) ∧
        Byte.isExponentMark (UInt8.ofNat mark.toNat) = true := by
      rcases hmark with rfl | rfl <;> exact ⟨utf8_ascii (by decide) _, by decide⟩
    rw [hbyte.1, List.cons_append, readExponent, if_pos hbyte.2, readSign_written hsign h]
    simp only [someDigits_written h hrest.digit]
    rfl

theorem readMinus_written {negative : Bool} {whole more : List Char} {ds : List Nat}
    (h : IsDigits ds whole) :
    readMinus (utf8 ((if negative then ['-'] else []) ++ (whole ++ more)) ++ rest) =
      (negative, utf8 (whole ++ more) ++ rest) := by
  cases negative with
  | true =>
    rw [if_pos rfl, List.cons_append, utf8_ascii (by decide)]
    rfl
  | false =>
    have hall : ∀ d < 10, digitByte d ≠ Byte.minus := by decide
    obtain ⟨d, r, hd, hwhole⟩ := utf8_head h
    rw [if_neg (by decide), List.nil_append, utf8_append, hwhole]
    simp [readMinus, hall d hd]

theorem exponent_heads {exponent : Option (Bool × List Nat)} {cs : List Char}
    (h : ExponentLayout exponent cs) (hrest : Stops rest) :
    Heads Byte.isDigit (utf8 cs ++ rest) ∧ Heads (· == Byte.point) (utf8 cs ++ rest) := by
  cases h with
  | none => exact ⟨hrest.digit, hrest.point⟩
  | some hmark _ _ =>
    rcases hmark with rfl | rfl <;>
      · rw [utf8_ascii (by decide)]
        constructor <;> rintro b ⟨⟩ <;> decide

theorem fraction_heads {fraction : Option (List Nat)} {cs : List Char}
    (h : FractionLayout fraction cs) (hrest : Heads Byte.isDigit rest) :
    Heads Byte.isDigit (utf8 cs ++ rest) := by
  cases h with
  | none => exact hrest
  | some _ =>
    rw [utf8_ascii (by decide)]
    rintro b ⟨⟩
    decide

/-- A numeral is read as the parts that it was written from. -/
theorem read_written {n : Numeral} {cs : List Char} (h : NumeralLayout n cs)
    (hrest : Stops rest) : read (utf8 cs ++ rest) = .ok (n, rest) := by
  cases h with
  | parts hwhole hzero hfraction hexponent =>
  obtain ⟨hdigit, hpoint⟩ := exponent_heads hexponent hrest
  rw [read, readMinus_written hwhole, utf8_append, List.append_assoc, utf8_append,
    List.append_assoc]
  simp only [readWhole_written hwhole hzero (fraction_heads hfraction hdigit),
    readFraction_written hfraction hdigit hpoint, readExponent_written hexponent hrest, bind,
    Except.bind]
  rfl

/-! ## Values -/

theorem absorb_append {m n : Nat} {ds : List Nat} (h : absorb m ds = (n, 0)) (es : List Nat) :
    absorb m (ds ++ es) = absorb n es := by
  induction ds generalizing m with
  | nil =>
    cases h
    rfl
  | cons d ds ih =>
    rw [absorb] at h
    rw [List.cons_append, absorb]
    split at h
    · rw [if_pos ‹_›, ih h]
    · cases h

/-- The digits of a whole number that fits 64 bits. -/
theorem toDigits_digits (k : Nat) :
    ∃ ds, IsDigits ds (Nat.toDigits 10 k) ∧ (ds.head? = some 0 → ds = [0] ∧ k = 0) ∧
      (k < UInt64.size → absorb 0 ds = (k, 0)) := by
  induction k using Nat.strongRecOn with
  | ind k ih =>
    rw [Nat.toDigits_eq_if (by decide)]
    split
    next hsmall =>
      refine ⟨[k], ⟨by simp, by simpa using hsmall, rfl⟩, by simp, fun h => ?_⟩
      simp [absorb, h]
    next hlarge =>
      obtain ⟨ds, ⟨hsome, hsmall, hwritten⟩, hzero, habsorb⟩ := ih (k / 10) (by omega)
      refine ⟨ds ++ [k % 10], ⟨by simp, ?_, by simp [hwritten]⟩, ?_, fun h => ?_⟩
      · intro d hd
        rcases List.mem_append.1 hd with hd | hd
        · exact hsmall d hd
        · rw [List.mem_singleton.1 hd]
          exact Nat.mod_lt _ (by decide)
      · intro hhead
        have hhead : ds.head? = some 0 := by
          cases ds with
          | nil => exact absurd rfl hsome
          | cons d ds => simpa using hhead
        have := (hzero hhead).2
        omega
      · have hk : k / 10 * 10 + k % 10 = k := Nat.div_add_mod' k 10
        rw [absorb_append (habsorb (by omega)), absorb, hk, if_pos h, absorb]

/-- The digits of a whole number are a numeral for it. -/
theorem natural_written (k : UInt64) :
    ∃ n, NumeralLayout n (Nat.toDigits 10 k.toNat) ∧ n.value = .ok (.natural k) := by
  obtain ⟨ds, hdigits, hzero, habsorb⟩ := toDigits_digits k.toNat
  refine ⟨{ negative := false, whole := ds }, ?_, ?_⟩
  · simpa using NumeralLayout.parts (n := { negative := false, whole := ds }) hdigits
      (fun h => (hzero h).1) .none .none
  · have habsorb := habsorb k.toNat_lt
    simp [value, habsorb, isWhole]

end Numeral

/-- A whole number in decimal digits. -/
theorem decimal_eq (k : Nat) : decimal k = utf8 (Nat.toDigits 10 k) := by
  induction k using Nat.strongRecOn with
  | ind k ih =>
    rw [decimal, Nat.toDigits_eq_if (by decide)]
    split
    next hsmall =>
      rw [utf8_cons, Numeral.utf8EncodeChar_digitChar hsmall]
      rfl
    next hlarge =>
      rw [ih (k / 10) (by omega), utf8_append, utf8_cons,
        Numeral.utf8EncodeChar_digitChar (Nat.mod_lt k (by decide))]
      rfl

end TopologySync.Json
