-- The bytes that carry meaning in JSON, and the classes they fall into.
-- Every one of them is ASCII, so a text can be read byte by byte.
import TopologySync.Json.Basic

namespace TopologySync.Json.Byte

def quote : UInt8 := 0x22
def backslash : UInt8 := 0x5c
def comma : UInt8 := 0x2c
def colon : UInt8 := 0x3a
def openList : UInt8 := 0x5b
def closeList : UInt8 := 0x5d
def openObject : UInt8 := 0x7b
def closeObject : UInt8 := 0x7d
def minus : UInt8 := 0x2d
def plus : UInt8 := 0x2b
def point : UInt8 := 0x2e
def zero : UInt8 := 0x30

/-- The four bytes that may stand between the parts of a value. -/
def isBlank (b : UInt8) : Bool :=
  b == 0x20 || b == 0x0a || b == 0x09 || b == 0x0d

def isDigit (b : UInt8) : Bool :=
  0x30 ≤ b && b ≤ 0x39

/-- A text may hold no byte of this class unescaped. -/
def isControl (b : UInt8) : Bool :=
  b < 0x20

/-- Either case of the letter that starts an exponent. -/
def isExponentMark (b : UInt8) : Bool :=
  b == 0x65 || b == 0x45

/-- The value of a decimal digit. -/
def digitValue (b : UInt8) : Nat :=
  (b - 0x30).toNat

/-- The value of a hexadecimal digit, of either case. -/
def hexValue? (b : UInt8) : Option Nat :=
  if isDigit b then some (digitValue b)
  else if 0x61 ≤ b && b ≤ 0x66 then some (b - 0x61 + 10).toNat
  else if 0x41 ≤ b && b ≤ 0x46 then some (b - 0x41 + 10).toNat
  else none

end TopologySync.Json.Byte
