-- Writing scalars of a document: decimal numbers, and texts with the
-- escapes they need. Everything else of a text stands as it is.
import TopologySync.Json.Byte

namespace TopologySync.Json

/-- The bytes of a text. -/
def bytesOf (s : String) : Bytes :=
  s.toUTF8.data.toList

/-- A number in decimal digits. -/
def decimal (n : Nat) : Bytes :=
  if n < 10 then [Byte.zero + UInt8.ofNat n]
  else decimal (n / 10) ++ [Byte.zero + UInt8.ofNat (n % 10)]
termination_by n
decreasing_by omega

/-- A hexadecimal digit, in lower case. -/
def hexDigit (n : Nat) : UInt8 :=
  if n < 10 then 0x30 + UInt8.ofNat n else 0x61 + UInt8.ofNat (n - 10)

/-- A byte of a text as it is written. Only quotes, backslashes and
control characters are escaped, by a short escape if there is one. -/
def escape (b : UInt8) : Bytes :=
  if b = 0x22 ∨ b = 0x5c then [Byte.backslash, b]
  else if b = 0x08 then [Byte.backslash, 0x62]
  else if b = 0x09 then [Byte.backslash, 0x74]
  else if b = 0x0a then [Byte.backslash, 0x6e]
  else if b = 0x0c then [Byte.backslash, 0x66]
  else if b = 0x0d then [Byte.backslash, 0x72]
  else if Byte.isControl b then
    [Byte.backslash, 0x75, 0x30, 0x30, hexDigit (b.toNat / 16), hexDigit (b.toNat % 16)]
  else [b]

/-- A text in quotes. -/
def quoted (s : String) : Bytes :=
  Byte.quote :: (bytesOf s).flatMap escape ++ [Byte.quote]

end TopologySync.Json
