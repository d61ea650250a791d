-- The least parts of a written pattern: the flags that are set for a stretch
-- of it, and the characters that a backslash starts. What needs tables of
-- letters of all scripts is no pattern.
import TopologySync.Pattern.Basic
import TopologySync.Text.Blank

namespace TopologySync.Pattern

/-! ## Flags -/

/-- How a stretch of a pattern is read. -/
structure Flags where
  /-- Letters stand for either case. -/
  anyCase : Bool := false
  /-- Anchors are about lines instead of the text. -/
  lines : Bool := false
  /-- A dot stands for a line break as well. -/
  dotAll : Bool := false
  /-- What is preferred of a repetition is swapped. -/
  swapped : Bool := false
  /-- Characters are those of all scripts. -/
  unicode : Bool := true
  /-- Lines also end at carriage returns. -/
  returns : Bool := false
  /-- Blanks and comments are passed over. -/
  spaced : Bool := false
deriving DecidableEq, Repr

namespace Flags

/-- Sets the flag of a letter. -/
def set? (flags : Flags) (value : Bool) : Char → Option Flags
  | 'i' => some { flags with anyCase := value }
  | 'm' => some { flags with lines := value }
  | 's' => some { flags with dotAll := value }
  | 'U' => some { flags with swapped := value }
  | 'u' => some { flags with unicode := value }
  | 'R' => some { flags with returns := value }
  | 'x' => some { flags with spaced := value }
  | _ => none

/-- Takes letters of flags in turn, up to the parenthesis or the colon behind
them. Flags behind a minus sign are cleared, and no letter comes twice. -/
def read (flags : Flags) (seen : List Char) : List Char → Option (Flags × List Char × List Char)
  | [] => none
  | c :: rest =>
    if c = ')' ∨ c = ':' then
      if seen.head? = some '-' then none else some (flags, seen, c :: rest)
    else if seen.contains c then none
    else if c = '-' then flags.read ('-' :: seen) rest
    else do (← flags.set? (!seen.contains '-') c).read (c :: seen) rest

/-- What is left of a pattern behind blanks and comments, if those are passed
over. A comment goes on to the end of its line. -/
def skip (flags : Flags) (text : List Char) : List Char :=
  if flags.spaced then go false text else text
where
  go : Bool → List Char → List Char
    | _, [] => []
    | true, c :: rest => go (c != '\n') rest
    | false, c :: rest =>
      if Text.isBlank c then go false rest
      else if c = '#' then go true rest
      else c :: rest

/-- The characters that one character stands for. -/
def setOf? (flags : Flags) (c : Char) : Option CharSet :=
  if ¬flags.anyCase then some (.single c)
  else if flags.unicode then none
  else some (.eitherCase (.single c))

/-- The characters that a dot stands for. -/
def dot? (flags : Flags) : Option CharSet :=
  if ¬flags.unicode then none
  else if flags.dotAll then some .all
  else if flags.returns then some (.complement (.union (.single '\r') (.single '\n')))
  else some (.complement (.single '\n'))

def start (flags : Flags) : Anchor :=
  if flags.lines then .lineStart flags.returns else .textStart

def stop (flags : Flags) : Anchor :=
  if flags.lines then .lineEnd flags.returns else .textEnd

end Flags

/-! ## Characters behind a backslash -/

/-- What a backslash and the characters behind it stand for. -/
inductive Atom where
  | char (c : Char)
  | set (set : CharSet)
  | anchor (condition : Anchor)
deriving DecidableEq, Repr

/-- The value of a hexadecimal digit, of either case. -/
def hexValue? (c : Char) : Option Nat :=
  if c.isDigit then some (c.toNat - '0'.toNat)
  else if 'a' ≤ c ∧ c ≤ 'f' then some (c.toNat - 'a'.toNat + 10)
  else if 'A' ≤ c ∧ c ≤ 'F' then some (c.toNat - 'A'.toNat + 10)
  else none

namespace Atom

/-- Takes hexadecimal digits, as many as are due. -/
def readHex (flags : Flags) : Nat → Nat → List Char → Option (Nat × List Char)
  | 0, value, text => some (value, text)
  | due + 1, value, c :: rest => do
    readHex flags due (value * 16 + (← hexValue? c)) (flags.skip rest)
  | _ + 1, _, [] => none

/-- Takes the number of a character, of so many digits. -/
def readNumber (flags : Flags) (digits : Nat) (text : List Char) :
    Option (Atom × List Char) := do
  let (value, rest) ← readHex flags digits 0 (flags.skip text)
  if ¬value.isValidChar then none
  else if digits = 2 ∧ ¬flags.unicode ∧ 0x7f < value then none
  else return (.char (Char.ofNat value), rest)

/-- A mark that may stand behind a backslash for itself. -/
def isMark (c : Char) : Bool :=
  c.val < 0x80 && !c.isAlphanum

/-- The atom that a single character behind a backslash makes. -/
def ofLetter? (flags : Flags) (c : Char) : Option Atom :=
  let bytewise (atom : Atom) := if flags.unicode then none else some atom
  match c with
  | 'a' => some (.char '\x07')
  | 'f' => some (.char '\x0c')
  | 'n' => some (.char '\n')
  | 'r' => some (.char '\r')
  | 't' => some (.char '\t')
  | 'v' => some (.char '\x0b')
  | 'A' => some (.anchor .textStart)
  | 'z' => some (.anchor .textEnd)
  | 'b' => bytewise (.anchor .wordEdge)
  | 'B' => bytewise (.anchor .noWordEdge)
  | '<' => bytewise (.anchor .wordStart)
  | '>' => bytewise (.anchor .wordEnd)
  | 'd' => bytewise (.set .digits)
  | 's' => bytewise (.set .blanks)
  | 'w' => bytewise (.set .wordChars)
  | c => if isMark c then some (.char c) else none

/-- Takes what stands behind a backslash. -/
def read (flags : Flags) : List Char → Option (Atom × List Char)
  | 'x' :: rest => readNumber flags 2 rest
  | 'u' :: rest => readNumber flags 4 rest
  | 'U' :: rest => readNumber flags 8 rest
  | c :: rest => (ofLetter? flags c).map (·, rest)
  | [] => none

end Atom

end TopologySync.Pattern
