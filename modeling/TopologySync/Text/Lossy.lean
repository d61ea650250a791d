-- Showing bytes as a text even if they encode none: every broken
-- sequence, as long as it could have gone on, becomes one replacement
-- character.
import TopologySync.Json.Basic

namespace TopologySync.Text

/-- What stands for a broken sequence. -/
def replacement : Char := '\ufffd'

/-- A lead byte: how many bytes its character has, and the range of the
second one, which leaves out overlong forms and surrogates. -/
def lead? (b : UInt8) : Option (Nat × UInt8 × UInt8) :=
  if 0xc2 ≤ b ∧ b ≤ 0xdf then some (2, 0x80, 0xbf)
  else if b = 0xe0 then some (3, 0xa0, 0xbf)
  else if b = 0xed then some (3, 0x80, 0x9f)
  else if 0xe1 ≤ b ∧ b ≤ 0xef then some (3, 0x80, 0xbf)
  else if b = 0xf0 then some (4, 0x90, 0xbf)
  else if 0xf1 ≤ b ∧ b ≤ 0xf3 then some (4, 0x80, 0xbf)
  else if b = 0xf4 then some (4, 0x80, 0x8f)
  else none

def isContinuation (b : UInt8) : Bool :=
  0x80 ≤ b && b ≤ 0xbf

/-- The six bits that a continuation byte adds. -/
def low (b : UInt8) : Nat :=
  b.toNat % 64

/-- The characters that bytes encode, with replacements. -/
def lossyChars : Bytes → List Char
  | [] => []
  | b :: rest =>
    if b < 0x80 then Char.ofNat b.toNat :: lossyChars rest
    else match lead? b, rest with
      | none, rest => replacement :: lossyChars rest
      | some _, [] => [replacement]
      | some (width, first, last), c :: rest =>
        if ¬(first ≤ c ∧ c ≤ last) then replacement :: lossyChars (c :: rest)
        else if width = 2 then Char.ofNat (b.toNat % 32 * 64 + low c) :: lossyChars rest
        else match rest with
          | [] => [replacement]
          | d :: rest =>
            if ¬isContinuation d then replacement :: lossyChars (d :: rest)
            else if width = 3 then
              Char.ofNat ((b.toNat % 16 * 64 + low c) * 64 + low d) :: lossyChars rest
            else match rest with
              | [] => [replacement]
              | e :: rest =>
                if ¬isContinuation e then replacement :: lossyChars (e :: rest)
                else Char.ofNat (((b.toNat % 8 * 64 + low c) * 64 + low d) * 64 + low e) ::
                  lossyChars rest

/-- Bytes as a text, with replacements. -/
def lossy (bytes : Bytes) : String :=
  String.ofList (lossyChars bytes)

end TopologySync.Text
