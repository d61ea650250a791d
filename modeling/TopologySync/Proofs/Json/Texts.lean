-- Reading texts. However the characters of a text are written, the pieces that it is cut into
-- join to the bytes of these characters.
import TopologySync.Proofs.Json.Layout
import TopologySync.Proofs.Json.Utf8

namespace TopologySync.Json

namespace Piece

/-! ## Cutting -/

/-- The byte stands for itself inside a text. -/
def IsPlain (b : UInt8) : Prop :=
  b ≠ Byte.quote ∧ b ≠ Byte.backslash ∧ Byte.isControl b = false

theorem scan_byte {b : UInt8} (h : IsPlain b) (rest : Bytes) :
    scan (b :: rest) = (scan rest).map (byte b :: ·) id := by
  obtain ⟨hquote, hslash, hcontrol⟩ := h
  rw [scan.eq_def]
  simp [hquote, hslash, hcontrol]

theorem scan_bytes {bs : Bytes} (h : ∀ b ∈ bs, IsPlain b) (rest : Bytes) :
    scan (bs ++ rest) = (scan rest).map (bs.map byte ++ ·) id := by
  induction bs with
  | nil => rfl
  | cons b bs ih =>
    obtain ⟨hb, hbs⟩ := List.forall_mem_cons.1 h
    rw [List.cons_append, scan_byte hb, ih hbs]
    rfl

theorem scan_short {e b : UInt8} (hlong : e ≠ longEscape) (h : ofEscape? e = some b)
    (rest : Bytes) : scan (Byte.backslash :: e :: rest) = (scan rest).map (byte b :: ·) id := by
  rw [scan.eq_def]
  simp [hlong, h, show Byte.backslash ≠ Byte.quote by decide]

theorem scan_long {h₁ h₂ h₃ h₄ : UInt8} {code : Nat} (h : unitOf? h₁ h₂ h₃ h₄ = some code)
    (rest : Bytes) :
    scan (Byte.backslash :: longEscape :: h₁ :: h₂ :: h₃ :: h₄ :: rest) =
      (scan rest).map (unit code :: ·) id := by
  rw [scan.eq_def]
  simp [h, show Byte.backslash ≠ Byte.quote by decide]

theorem scan_end (rest : Bytes) : scan (Byte.quote :: rest) = ([], .ok rest) := by
  rw [scan.eq_def]
  simp

/-! ## Joining -/

variable {cut : Problem}

theorem join_bytes (bs : Bytes) (more : List Piece) :
    join cut (bs.map byte ++ more) = (join cut more).map (bs ++ ·) := by
  induction bs with
  | nil =>
    rw [List.map_nil, List.nil_append]
    cases join cut more <;> rfl
  | cons b bs ih =>
    rw [List.map_cons, List.cons_append, join, ih]
    cases join cut more <;> rfl

theorem join_unit {code : Nat} (hhigh : isHigh code = false) (hlow : isLow code = false)
    (more : List Piece) :
    join cut (unit code :: more) =
      (join cut more).map (String.utf8EncodeChar (Char.ofNat code) ++ ·) := by
  rcases more with _ | ⟨_ | _, more⟩ <;> simp [join, hhigh, hlow, Except.map]

theorem join_pair {high low : Nat} (hhigh : isHigh high = true) (hlow : isLow low = true)
    (more : List Piece) :
    join cut (unit high :: unit low :: more) =
      (join cut more).map (String.utf8EncodeChar (joined high low) ++ ·) := by
  simp [join, hhigh, hlow]

/-! ## Characters -/

/-- The layout of a character is cut into pieces that join to its bytes. -/
structure Tells (written : List Char) (c : Char) (pieces : List Piece) : Prop where
  scan : ∀ rest, scan (utf8 written ++ rest) = (scan rest).map (pieces ++ ·) id
  join : ∀ cut more,
    join cut (pieces ++ more) = (join cut more).map (String.utf8EncodeChar c ++ ·)

/-- The bytes of a character that needs no escape stand for themselves. -/
theorem isPlain_of_mem {c : Char} (hshown : 0x20 ≤ c.toNat) (hquote : c ≠ '"') (hslash : c ≠ '\\') :
    ∀ b ∈ String.utf8EncodeChar c, IsPlain b := by
  intro b hb
  by_cases hascii : c.toNat < 0x80
  · rw [utf8EncodeChar_ascii hascii, List.mem_singleton] at hb
    subst hb
    have hbyte : (UInt8.ofNat c.toNat).toNat = c.toNat := by simp; omega
    refine ⟨?_, ?_, ?_⟩
    · exact fun h => hquote (Char.toNat_inj.1 (hbyte ▸ congrArg UInt8.toNat h))
    · exact fun h => hslash (Char.toNat_inj.1 (hbyte ▸ congrArg UInt8.toNat h))
    · simpa [Byte.isControl, UInt8.le_iff_toNat_le, hbyte] using hshown
  · have hb := le_of_mem_utf8EncodeChar (Nat.le_of_not_lt hascii) b hb
    rw [UInt8.le_iff_toNat_le] at hb
    refine ⟨?_, ?_, ?_⟩
    · rintro rfl
      exact absurd hb (by decide)
    · rintro rfl
      exact absurd hb (by decide)
    · simp only [Byte.isControl, decide_eq_false_iff_not, UInt8.not_lt, UInt8.le_iff_toNat_le]
      exact Nat.le_trans (by decide) hb

theorem tells_plain {c : Char} (hshown : 0x20 ≤ c.toNat) (hquote : c ≠ '"') (hslash : c ≠ '\\') :
    Tells [c] c ((String.utf8EncodeChar c).map byte) := by
  refine ⟨fun rest => ?_, fun cut more => join_bytes _ more⟩
  rw [utf8_cons, utf8_nil, List.append_nil]
  exact scan_bytes (isPlain_of_mem hshown hquote hslash) rest

theorem tells_short {letter c : Char} (h : (letter, c) ∈ shortEscapes) :
    Tells ['\\', letter] c ((String.utf8EncodeChar c).map byte) := by
  have hall : ∀ escape ∈ shortEscapes,
      utf8 ['\\', escape.1] = [Byte.backslash, UInt8.ofNat escape.1.toNat] ∧
      UInt8.ofNat escape.1.toNat ≠ longEscape ∧
      String.utf8EncodeChar escape.2 = [UInt8.ofNat escape.2.toNat] ∧
      ofEscape? (UInt8.ofNat escape.1.toNat) = some (UInt8.ofNat escape.2.toNat) := by decide
  obtain ⟨hwritten, hletter, hc, hescape⟩ := hall _ h
  refine ⟨fun rest => ?_, fun cut more => join_bytes _ more⟩
  rw [hwritten, hc]
  exact scan_short hletter hescape rest

theorem hexValue_of_isHexDigit {n : Nat} {c : Char} (h : IsHexDigit n c) :
    String.utf8EncodeChar c = [UInt8.ofNat c.toNat] ∧
      Byte.hexValue? (UInt8.ofNat c.toNat) = some n := by
  have hlower : ∀ n < 16, String.utf8EncodeChar n.digitChar = [UInt8.ofNat n.digitChar.toNat] ∧
      Byte.hexValue? (UInt8.ofNat n.digitChar.toNat) = some n := by decide
  have hupper : ∀ n < 16,
      String.utf8EncodeChar n.digitChar.toUpper = [UInt8.ofNat n.digitChar.toUpper.toNat] ∧
        Byte.hexValue? (UInt8.ofNat n.digitChar.toUpper.toNat) = some n := by decide
  obtain ⟨hn, rfl | rfl⟩ := h
  · exact hlower n hn
  · exact hupper n hn

theorem scan_longEscape {code : Nat} {cs : List Char} (h : LongEscape code cs) (rest : Bytes) :
    scan (utf8 cs ++ rest) = (scan rest).map (unit code :: ·) id := by
  obtain ⟨h₁, h₂, h₃, h₄⟩ := h
  obtain ⟨hbyte₁, hvalue₁⟩ := hexValue_of_isHexDigit h₁
  obtain ⟨hbyte₂, hvalue₂⟩ := hexValue_of_isHexDigit h₂
  obtain ⟨hbyte₃, hvalue₃⟩ := hexValue_of_isHexDigit h₃
  obtain ⟨hbyte₄, hvalue₄⟩ := hexValue_of_isHexDigit h₄
  simp only [utf8_cons, utf8_nil, hbyte₁, hbyte₂, hbyte₃, hbyte₄]
  refine scan_long ?_ rest
  simp [unitOf?, hvalue₁, hvalue₂, hvalue₃, hvalue₄]

/-- No character is a surrogate. -/
theorem toNat_valid (c : Char) :
    c.toNat < 0xD800 ∨ 0xDFFF < c.toNat ∧ c.toNat < 0x110000 :=
  c.valid

theorem tells_long {c : Char} {cs : List Char} (h : LongEscape c.toNat cs) :
    Tells cs c [unit c.toNat] := by
  have hvalid := toNat_valid c
  refine ⟨scan_longEscape h, fun cut more => ?_⟩
  have hhigh : isHigh c.toNat = false := by
    unfold isHigh
    grind
  have hlow : isLow c.toNat = false := by
    unfold isLow
    grind
  rw [List.singleton_append, join_unit hhigh hlow, Char.ofNat_toNat]

theorem tells_pair {c : Char} {high low : List Char} (h : 0x10000 ≤ c.toNat)
    (hhigh : LongEscape (0xD800 + (c.toNat - 0x10000) / 0x400) high)
    (hlow : LongEscape (0xDC00 + (c.toNat - 0x10000) % 0x400) low) :
    Tells (high ++ low) c [unit (0xD800 + (c.toNat - 0x10000) / 0x400),
      unit (0xDC00 + (c.toNat - 0x10000) % 0x400)] := by
  have hvalid := toNat_valid c
  refine ⟨fun rest => ?_, fun cut more => ?_⟩
  · rw [utf8_append, List.append_assoc, scan_longEscape hhigh, scan_longEscape hlow]
    rfl
  · have hisHigh : isHigh (0xD800 + (c.toNat - 0x10000) / 0x400) = true := by
      simp [isHigh]
      omega
    have hisLow : isLow (0xDC00 + (c.toNat - 0x10000) % 0x400) = true := by
      simp [isLow]
      omega
    have hjoined : joined (0xD800 + (c.toNat - 0x10000) / 0x400)
        (0xDC00 + (c.toNat - 0x10000) % 0x400) = c := by
      have hcode : (0xD800 + (c.toNat - 0x10000) / 0x400 - 0xD800) * 0x400 +
          (0xDC00 + (c.toNat - 0x10000) % 0x400 - 0xDC00) + 0x10000 = c.toNat := by omega
      rw [joined, hcode, Char.ofNat_toNat]
    rw [List.cons_append, List.singleton_append, join_pair hisHigh hisLow, hjoined]

theorem tells_spelling {c : Char} {written : List Char} (h : Spelling c written) :
    ∃ pieces, Tells written c pieces := by
  cases h with
  | plain hshown hquote hslash => exact ⟨_, tells_plain hshown hquote hslash⟩
  | short h => exact ⟨_, tells_short h⟩
  | long h => exact ⟨_, tells_long h⟩
  | pair h hhigh hlow => exact ⟨_, tells_pair h hhigh hlow⟩

/-- A text is cut at its closing quote, and its pieces join to its bytes. -/
theorem scan_spells {cs written : List Char} (h : Spells cs written) (rest : Bytes) :
    ∃ pieces, scan (utf8 written ++ Byte.quote :: rest) = (pieces, .ok rest) ∧
      join .malformed pieces = .ok (utf8 cs) := by
  induction h with
  | nil => exact ⟨[], scan_end rest, rfl⟩
  | @cons c cs first more hfirst _ ih =>
    obtain ⟨pieces, hscan, hjoin⟩ := ih
    obtain ⟨head, htells⟩ := tells_spelling hfirst
    refine ⟨head ++ pieces, ?_, ?_⟩
    · rw [utf8_append, List.append_assoc, htells.scan, hscan]
      rfl
    · rw [htells.join, hjoin, utf8_cons]
      rfl

/-- A text is read as the characters that it spells. -/
theorem content_scan {s : String} {written : List Char} (h : Spells s.toList written)
    (rest : Bytes) :
    content (scan (utf8 written ++ Byte.quote :: rest)) = .ok s ∧
      (scan (utf8 written ++ Byte.quote :: rest)).2 = .ok rest := by
  obtain ⟨pieces, hscan, hjoin⟩ := scan_spells h rest
  rw [hscan]
  refine ⟨?_, rfl⟩
  rw [content, hjoin]
  show decode (utf8 s.toList) = .ok s
  rw [decode_utf8, String.ofList_toList]

end Piece

end TopologySync.Json
