-- Texts. The body of a text is first cut into pieces up to its closing
-- quote, then the pieces are joined into characters. One who only passes
-- over a text does the first part alone.
import TopologySync.Json.Byte

namespace TopologySync.Json

/-- A byte of a text as it stands or by its short escape, or the UTF-16
unit of a long escape. -/
inductive Piece where
  | byte (b : UInt8)
  | unit (code : Nat)
deriving DecidableEq, Repr

namespace Piece

/-! ## Cutting a text into pieces -/

/-- The byte a short escape stands for. -/
def ofEscape? (b : UInt8) : Option UInt8 :=
  if b = 0x22 ∨ b = 0x5c ∨ b = 0x2f then some b
  else if b = 0x62 then some 0x08
  else if b = 0x66 then some 0x0c
  else if b = 0x6e then some 0x0a
  else if b = 0x72 then some 0x0d
  else if b = 0x74 then some 0x09
  else none

/-- The letter that starts a long escape. -/
def longEscape : UInt8 := 0x75

/-- The unit that four hexadecimal digits write. -/
def unitOf? (a b c d : UInt8) : Option Nat := do
  return (((← Byte.hexValue? a) * 16 + (← Byte.hexValue? b)) * 16 + (← Byte.hexValue? c)) * 16
    + (← Byte.hexValue? d)

/-- The pieces of a text up to its closing quote, and what follows the quote. -/
def scan : Bytes → List Piece × Except Problem Bytes
  | [] => ([], .error .truncated)
  | b :: rest =>
    if b = Byte.quote then ([], .ok rest)
    else if b = Byte.backslash then
      match rest with
      | [] => ([], .error .truncated)
      | e :: rest =>
        if e = longEscape then
          match rest with
          | h₁ :: h₂ :: h₃ :: h₄ :: rest => match unitOf? h₁ h₂ h₃ h₄ with
            | none => ([], .error .malformed)
            | some code => (scan rest).map (unit code :: ·) id
          | _ => ([], .error .truncated)
        else match ofEscape? e with
          | none => ([], .error .malformed)
          | some c => (scan rest).map (byte c :: ·) id
    else if Byte.isControl b then ([], .error .malformed)
    else (scan rest).map (byte b :: ·) id

/-- What follows a text is shorter than the text. -/
theorem scan_shorter {s rest : Bytes} (h : (scan s).2 = .ok rest) : rest.length < s.length := by
  fun_induction scan s with
  | case1 | case3 | case4 | case6 | case7 | case9 => cases h
  | case2 => cases h; simp
  | case5 _ _ _ _ _ _ _ _ ih | case8 _ _ _ _ _ _ ih | case10 _ _ _ _ _ ih =>
    have := ih h
    simp only [List.length_cons]
    omega

/-! ## Joining pieces -/

/-- The units that only begin a character. -/
def isHigh (code : Nat) : Bool :=
  0xD800 ≤ code && code < 0xDC00

/-- The units that only end a character. -/
def isLow (code : Nat) : Bool :=
  0xDC00 ≤ code && code < 0xE000

/-- The character that a high and a low unit make. -/
def joined (high low : Nat) : Char :=
  Char.ofNat ((high - 0xD800) * 0x400 + (low - 0xDC00) + 0x10000)

/-- The bytes that pieces stand for. A high unit needs a low one right
after it; `cut` is the problem if the text breaks off before that. -/
def join (cut : Problem) : List Piece → Except Problem Bytes
  | [] => .ok []
  | byte b :: rest => (join cut rest).map (b :: ·)
  | [unit code] =>
    if isHigh code then .error cut
    else if isLow code then .error .malformed
    else .ok (String.utf8EncodeChar (Char.ofNat code))
  | unit code :: unit next :: rest =>
    if isHigh code then
      if isLow next then
        (join cut rest).map (String.utf8EncodeChar (joined code next) ++ ·)
      else .error .malformed
    else if isLow code then .error .malformed
    else (join cut (unit next :: rest)).map (String.utf8EncodeChar (Char.ofNat code) ++ ·)
  | unit code :: byte b :: rest =>
    if isHigh code ∨ isLow code then .error .malformed
    else (join cut (byte b :: rest)).map (String.utf8EncodeChar (Char.ofNat code) ++ ·)

/-- The characters that bytes encode. -/
def decode (bytes : Bytes) : Except Problem String :=
  match String.fromUTF8? bytes.toByteArray with
  | some decoded => .ok decoded
  | none => .error .malformed

/-- What a scanned text says. Its encoding is checked last. -/
def content : List Piece × Except Problem Bytes → Except Problem String
  | (pieces, .error problem) => do
    let _ ← join problem pieces
    .error problem
  | (pieces, .ok _) => join .malformed pieces >>= decode

end Piece

end TopologySync.Json
