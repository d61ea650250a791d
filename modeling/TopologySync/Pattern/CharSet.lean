-- Sets of characters: ranges, and what is made of them. The sets that have
-- a name hold ASCII characters only.
namespace TopologySync

/-- A set of characters. -/
inductive CharSet where
  | none
  | range (first last : Char)
  | union (a b : CharSet)
  | intersection (a b : CharSet)
  | complement (a : CharSet)
  /-- The characters of a set, and each ASCII letter of it in the other case too. -/
  | eitherCase (a : CharSet)
deriving DecidableEq, Repr

namespace CharSet

/-- An ASCII letter in the other case. -/
def swapCase (c : Char) : Char :=
  if c.isUpper then c.toLower else c.toUpper

def contains : CharSet → Char → Bool
  | none, _ => false
  | range first last, c => first ≤ c && c ≤ last
  | union a b, c => a.contains c || b.contains c
  | intersection a b, c => a.contains c && b.contains c
  | complement a, c => !a.contains c
  | eitherCase a, c => a.contains c || a.contains (swapCase c)

/-- All characters. -/
def all : CharSet := complement none

/-- One character. -/
def single (c : Char) : CharSet := range c c

def difference (a b : CharSet) : CharSet :=
  intersection a (complement b)

def symmetricDifference (a b : CharSet) : CharSet :=
  union (difference a b) (difference b a)

def ofRanges (ranges : List (Char × Char)) : CharSet :=
  ranges.foldr (fun (first, last) set => union (range first last) set) none

/-- The set holds a character beyond ASCII. It is for sets that are made of
ASCII characters: those hold all characters beyond ASCII or none. -/
def leavesAscii (set : CharSet) : Bool :=
  set.contains '\x80'

/-! ## Sets with a name -/

def digits : CharSet := range '0' '9'

def blanks : CharSet := ofRanges [('\t', '\r'), (' ', ' ')]

/-- The characters of words: letters, digits and the underscore. -/
def wordChars : CharSet :=
  ofRanges [('0', '9'), ('A', 'Z'), ('_', '_'), ('a', 'z')]

/-- The set with a given name. -/
def named? : String → Option CharSet
  | "alnum" => some (ofRanges [('0', '9'), ('A', 'Z'), ('a', 'z')])
  | "alpha" => some (ofRanges [('A', 'Z'), ('a', 'z')])
  | "ascii" => some (range '\x00' '\x7f')
  | "blank" => some (ofRanges [('\t', '\t'), (' ', ' ')])
  | "cntrl" => some (ofRanges [('\x00', '\x1f'), ('\x7f', '\x7f')])
  | "digit" => some digits
  | "graph" => some (range '!' '~')
  | "lower" => some (range 'a' 'z')
  | "print" => some (range ' ' '~')
  | "punct" => some (ofRanges [('!', '/'), (':', '@'), ('[', '\x60'), ('\x7b', '~')])
  | "space" => some blanks
  | "upper" => some (range 'A' 'Z')
  | "word" => some wordChars
  | "xdigit" => some (ofRanges [('0', '9'), ('A', 'F'), ('a', 'f')])
  | _ => Option.none

end CharSet

end TopologySync
