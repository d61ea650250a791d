-- Patterns of texts, and the places in a text that they are about. A pattern
-- may match in several ways, and the ways are in an order of preference.
import TopologySync.Pattern.CharSet

namespace TopologySync

/-- A place in a text: the character in front of it, and the text behind it. -/
structure Place where
  before : Option Char
  rest : List Char
deriving DecidableEq, Repr

/-- A condition on a place. -/
inductive Anchor where
  | textStart
  | textEnd
  /-- A line starts here. With `returns`, lines also end at carriage returns. -/
  | lineStart (returns : Bool)
  | lineEnd (returns : Bool)
  /-- A word starts or ends here. -/
  | wordEdge
  | noWordEdge
  | wordStart
  | wordEnd
deriving DecidableEq, Repr

namespace Anchor

/-- A character of a word stands here. -/
def isWord (c : Option Char) : Bool :=
  c.any CharSet.wordChars.contains

def holds (anchor : Anchor) (place : Place) : Bool :=
  let before := place.before
  let after := place.rest.head?
  match anchor with
  | textStart => before.isNone
  | textEnd => after.isNone
  | lineStart false => before.all (· == '\n')
  | lineStart true => before.all (fun c => c == '\n' || (c == '\r' && after != some '\n'))
  | lineEnd false => after.all (· == '\n')
  | lineEnd true => after.all (fun c => c == '\r' || (c == '\n' && before != some '\r'))
  | wordEdge => isWord before != isWord after
  | noWordEdge => isWord before == isWord after
  | wordStart => !isWord before && isWord after
  | wordEnd => isWord before && !isWord after

end Anchor

/-- A pattern. Of two ways to match, the first one that is written is preferred. -/
inductive Pattern where
  /-- Nothing, at any place. -/
  | empty
  /-- One character of a set. -/
  | one (set : CharSet)
  | anchor (condition : Anchor)
  | sequence (first second : Pattern)
  | either (first second : Pattern)
  /-- A pattern once or more, preferably as often as can be if `greedy`. -/
  | repeated (body : Pattern) (greedy : Bool)
  /-- A pattern any number of times, or what may follow the first time. -/
  | further (body : Pattern) (greedy : Bool)
deriving DecidableEq, Repr

namespace Pattern

/-- A pattern, or nothing. -/
def optional (body : Pattern) (greedy : Bool) : Pattern :=
  if greedy then either body empty else either empty body

/-- The pattern matches without a character, on some condition at least. -/
def isNullable : Pattern → Bool
  | empty | anchor _ | further _ _ => true
  | one _ => false
  | sequence first second => first.isNullable && second.isNullable
  | either first second => first.isNullable || second.isNullable
  | repeated body _ => body.isNullable

/-- A pattern any number of times. If it may match nothing, none at all is
another choice than to end after some. -/
def anyNumber (body : Pattern) (greedy : Bool) : Pattern :=
  if body.isNullable then optional (repeated body greedy) greedy else further body greedy

/-- Patterns one after the other. -/
def sequenceOf (patterns : List Pattern) : Pattern :=
  patterns.foldr sequence empty

/-- A match at any place, preferably at the first one. -/
def anywhere (pattern : Pattern) : Pattern :=
  sequence (anyNumber (one .all) false) pattern

end Pattern

end TopologySync
