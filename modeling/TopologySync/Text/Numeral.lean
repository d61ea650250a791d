-- Numbers as a person types them.
namespace TopologySync.Text

/-- The number that digits stand for. -/
def valueOf (digits : List Char) : Nat :=
  digits.foldl (fun n c => n * 10 + (c.toNat - '0'.toNat)) 0

/-- A number without its plus sign. -/
def withoutPlus : List Char → List Char
  | '+' :: rest => rest
  | cs => cs

/-- The number that a text stands for: digits, with or without a plus sign. -/
def natural? (cs : List Char) : Option Nat :=
  let digits := withoutPlus cs
  if digits.isEmpty ∨ ¬digits.all Char.isDigit then none else some (valueOf digits)

/-- A number without its sign. -/
def withoutSign : List Char → List Char
  | '+' :: rest => rest
  | '-' :: rest => rest
  | cs => cs

/-- Digits behind the mark of an exponent, or nothing. -/
def isExponent : List Char → Bool
  | [] => true
  | mark :: rest =>
    let digits := withoutSign rest
    (mark == 'e' || mark == 'E') && !digits.isEmpty && digits.all Char.isDigit

/-- A decimal number: digits with or without a sign, a point and an exponent.
The words for what lies beyond all numbers are taken as well. -/
def isDecimal (cs : List Char) : Bool :=
  let body := withoutSign cs
  let whole := body.takeWhile Char.isDigit
  let (places, rest) := match body.drop whole.length with
    | '.' :: rest => (rest.takeWhile Char.isDigit, rest.dropWhile Char.isDigit)
    | rest => ([], rest)
  String.ofList (body.map Char.toLower) ∈ ["inf", "infinity", "nan"]
    || ((!whole.isEmpty || !places.isEmpty) && isExponent rest)

end TopologySync.Text
