-- Writing values. What is written of a scalar is a layout of it, and so is what is put
-- together from layouts with the marks between them.
import TopologySync.Proofs.Json.Numerals
import TopologySync.Proofs.Json.Texts

namespace TopologySync.Json

/-! ## Texts -/

/-- The character is written with a short escape. -/
def IsShort (c : Char) : Prop :=
  ∃ escaped ∈ shortEscapes, escaped.1 ≠ '/' ∧ escaped.2 = c

instance (c : Char) : Decidable (IsShort c) :=
  inferInstanceAs (Decidable (∃ escaped ∈ shortEscapes, escaped.1 ≠ '/' ∧ escaped.2 = c))

theorem escape_short : ∀ escaped ∈ shortEscapes, escaped.1 ≠ '/' →
    (String.utf8EncodeChar escaped.2).flatMap escape = utf8 ['\\', escaped.1] := by
  decide

/-- Other control characters are written with two hexadecimal digits. -/
theorem escape_control : ∀ n < 0x20, ¬IsShort (Char.ofNat n) →
    (String.utf8EncodeChar (Char.ofNat n)).flatMap escape =
      utf8 ['\\', 'u', '0', '0', (n / 16).digitChar, (n % 16).digitChar] := by
  decide

/-- All other bytes stand as they are. -/
theorem escape_plain {b : UInt8} (h : Piece.IsPlain b) : escape b = [b] := by
  obtain ⟨hquote, hslash, hcontrol⟩ := h
  have hall : ∀ c ∈ [0x08, 0x09, 0x0a, 0x0c, 0x0d], b ≠ c := by
    rintro c hc rfl
    simp only [List.mem_cons, List.not_mem_nil, or_false] at hc
    rcases hc with rfl | rfl | rfl | rfl | rfl <;> cases hcontrol
  rw [Byte.quote] at hquote
  rw [Byte.backslash] at hslash
  simp only [List.forall_mem_cons] at hall
  simp [escape, hquote, hslash, hcontrol, hall]

theorem flatMap_escape {bs : Bytes} (h : ∀ b ∈ bs, Piece.IsPlain b) : bs.flatMap escape = bs := by
  induction bs with
  | nil => rfl
  | cons b bs ih =>
    obtain ⟨hb, hbs⟩ := List.forall_mem_cons.1 h
    rw [List.flatMap_cons, escape_plain hb, ih hbs]
    rfl

/-- The bytes of a character are written as a spelling of it. -/
theorem escape_spelling (c : Char) :
    ∃ written, Spelling c written ∧
      (String.utf8EncodeChar c).flatMap escape = utf8 written := by
  by_cases hshort : IsShort c
  · obtain ⟨⟨letter, _⟩, hmem, hletter, rfl⟩ := hshort
    exact ⟨_, .short hmem, escape_short _ hmem hletter⟩
  by_cases hcontrol : c.toNat < 0x20
  · have hescape := escape_control c.toNat hcontrol (by rwa [Char.ofNat_toNat])
    rw [Char.ofNat_toNat] at hescape
    refine ⟨_, .long ?_, hescape⟩
    have hdigits := LongEscape.digits (show IsHexDigit 0 '0' by decide)
      (show IsHexDigit 0 '0' by decide)
      (show IsHexDigit (c.toNat / 16) (c.toNat / 16).digitChar from ⟨by omega, Or.inl rfl⟩)
      (show IsHexDigit (c.toNat % 16) (c.toNat % 16).digitChar from ⟨by omega, Or.inl rfl⟩)
    have hcode : ((0 * 16 + 0) * 16 + c.toNat / 16) * 16 + c.toNat % 16 = c.toNat := by omega
    rwa [hcode] at hdigits
  · have hshown := Nat.le_of_not_lt hcontrol
    have hquote : c ≠ '"' := by
      rintro rfl
      exact hshort (by decide)
    have hslash : c ≠ '\\' := by
      rintro rfl
      exact hshort (by decide)
    refine ⟨[c], .plain hshown hquote hslash, ?_⟩
    rw [flatMap_escape (Piece.isPlain_of_mem hshown hquote hslash), utf8_cons, utf8_nil,
      List.append_nil]

/-- The bytes of characters are written as these characters may be spelled. -/
theorem escape_spells (cs : List Char) :
    ∃ written, Spells cs written ∧ (utf8 cs).flatMap escape = utf8 written := by
  induction cs with
  | nil => exact ⟨[], .nil, rfl⟩
  | cons c cs ih =>
    obtain ⟨rest, hrest, hescaped⟩ := ih
    obtain ⟨first, hfirst, hescape⟩ := escape_spelling c
    refine ⟨first ++ rest, .cons hfirst hrest, ?_⟩
    rw [utf8_cons, List.flatMap_append, hescape, hescaped, utf8_append]

/-! ## Values -/

/-- The bytes are a layout of a part of a document. -/
def Writes (part : Part) (bytes : Bytes) : Prop :=
  ∃ cs, Layout part cs ∧ bytes = utf8 cs

theorem writes_text (s : String) : Writes (.value (ofText s)) (quoted s) := by
  obtain ⟨written, hwritten, hescaped⟩ := escape_spells s.toList
  refine ⟨_, .text hwritten, ?_⟩
  rw [quoted, bytesOf_eq, hescaped, utf8_cons, utf8_append]
  rfl

theorem writes_natural (k : UInt64) : Writes (.value (ofNatural k)) (decimal k.toNat) :=
  ⟨_, .natural k, decimal_eq k.toNat⟩

variable {json : Json} {value rest : Bytes}

/-- Blanks may stand in front of a value. -/
theorem Writes.indented (h : Writes (.value json) value) {blanks : String}
    (hblanks : Blanks blanks.toList) : Writes (.value json) (bytesOf blanks ++ value) := by
  obtain ⟨cs, hlayout, rfl⟩ := h
  refine ⟨_, @Layout.blanks _ _ _ [] hblanks hlayout nofun, ?_⟩
  rw [bytesOf_eq, utf8_append, List.append_nil]

/-- Blanks may stand behind a value. -/
theorem Writes.trailed (h : Writes (.value json) value) {blanks : String}
    (hblanks : Blanks blanks.toList) : Writes (.value json) (value ++ bytesOf blanks) := by
  obtain ⟨cs, hlayout, rfl⟩ := h
  refine ⟨_, @Layout.blanks _ [] _ _ nofun hlayout hblanks, ?_⟩
  rw [bytesOf_eq, List.nil_append, utf8_append]

theorem Writes.member {name : String} {key : Bytes} (hkey : Writes (.value (ofText name)) key)
    (h : Writes (.value json) value) :
    Writes (.members [(name, json)]) (key ++ Byte.colon :: value) := by
  obtain ⟨ks, hkey, rfl⟩ := hkey
  obtain ⟨cs, hlayout, rfl⟩ := h
  exact ⟨_, .member hkey hlayout, by rw [utf8_append, utf8_cons]; rfl⟩

theorem Writes.members {name : String} {members : List (String × Json)} {key : Bytes}
    (hkey : Writes (.value (ofText name)) key) (h : Writes (.value json) value)
    (hrest : Writes (.members members) rest) :
    Writes (.members ((name, json) :: members))
      (key ++ Byte.colon :: (value ++ Byte.comma :: rest)) := by
  obtain ⟨ks, hkey, rfl⟩ := hkey
  obtain ⟨cs, hlayout, rfl⟩ := h
  obtain ⟨ds, hmore, rfl⟩ := hrest
  refine ⟨_, .members hkey hlayout hmore, ?_⟩
  rw [utf8_append, utf8_cons, utf8_append, utf8_cons]
  rfl

theorem Writes.object {members : List (String × Json)} (h : Writes (.members members) value) :
    Writes (.value (ofMembers members)) (Byte.openObject :: (value ++ [Byte.closeObject])) := by
  obtain ⟨cs, hlayout, rfl⟩ := h
  exact ⟨_, .object hlayout, by rw [utf8_cons, utf8_append]; rfl⟩

end TopologySync.Json
