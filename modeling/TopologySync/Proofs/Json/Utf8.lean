-- Texts as the bytes of a document. Every character has its own bytes, so what holds of the
-- characters of a text one by one holds of its bytes.
import TopologySync.Json.Text
import TopologySync.Json.Writer

namespace TopologySync.Json

/-- The bytes of characters. -/
def utf8 (cs : List Char) : Bytes :=
  cs.flatMap String.utf8EncodeChar

@[simp]
theorem utf8_nil : utf8 [] = [] :=
  rfl

theorem utf8_cons (c : Char) (cs : List Char) :
    utf8 (c :: cs) = String.utf8EncodeChar c ++ utf8 cs :=
  List.flatMap_cons

theorem utf8_append (cs ds : List Char) : utf8 (cs ++ ds) = utf8 cs ++ utf8 ds :=
  List.flatMap_append

theorem bytesOf_eq (s : String) : bytesOf s = utf8 s.toList := by
  have h : s.toUTF8 = (String.ofList s.toList).toByteArray := by rw [String.ofList_toList]; rfl
  rw [bytesOf, h]
  show (List.utf8Encode s.toList).data.toList = _
  rw [List.utf8Encode]
  simp [utf8]

theorem decode_utf8 (cs : List Char) : Piece.decode (utf8 cs) = .ok (String.ofList cs) := by
  have hvalid : (utf8 cs).toByteArray.IsValidUTF8 := ByteArray.isValidUTF8_utf8Encode
  rw [Piece.decode, String.fromUTF8?, dif_pos hvalid]
  rfl

/-- An ASCII character is one byte. -/
theorem utf8EncodeChar_ascii {c : Char} (h : c.toNat < 0x80) :
    String.utf8EncodeChar c = [UInt8.ofNat c.toNat] := by
  rw [String.utf8EncodeChar, if_pos (show c.val.toNat ≤ 0x7f from Nat.le_of_lt_succ h)]
  rfl

theorem utf8_ascii {c : Char} (h : c.toNat < 0x80) (cs : List Char) :
    utf8 (c :: cs) = UInt8.ofNat c.toNat :: utf8 cs := by
  rw [utf8_cons, utf8EncodeChar_ascii h]
  rfl

/-- All bytes of other characters lie beyond ASCII. -/
theorem le_of_mem_utf8EncodeChar {c : Char} (h : 0x80 ≤ c.toNat) :
    ∀ b ∈ String.utf8EncodeChar c, 0x80 ≤ b := by
  intro b hb
  have hbeyond : ¬c.val.toNat ≤ 0x7f := Nat.not_le.2 h
  rw [UInt8.le_iff_toNat_le]
  unfold String.utf8EncodeChar at hb
  simp only [if_neg hbeyond] at hb
  split at hb
  · simp only [List.mem_cons, List.not_mem_nil, or_false] at hb
    rcases hb with rfl | rfl <;> simp <;> omega
  split at hb
  · simp only [List.mem_cons, List.not_mem_nil, or_false] at hb
    rcases hb with rfl | rfl | rfl <;> simp <;> omega
  · simp only [List.mem_cons, List.not_mem_nil, or_false] at hb
    rcases hb with rfl | rfl | rfl | rfl <;> simp <;> omega

end TopologySync.Json
