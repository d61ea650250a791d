-- Sets of characters between brackets: members, ranges, named sets and sets
-- within sets, with operators between them.
import TopologySync.Pattern.Atom
import TopologySync.Pattern.Nesting

namespace TopologySync.Pattern

/-- An operator between two sets. -/
inductive SetOperator where
  | intersection
  | difference
  | symmetricDifference
deriving DecidableEq, Repr

def SetOperator.apply : SetOperator → CharSet → CharSet → CharSet
  | intersection => .intersection
  | difference => .difference
  | symmetricDifference => .symmetricDifference

/-- A bracket that is not closed yet. -/
structure Bracket where
  negated : Bool
  /-- What stands in front of the last operator. -/
  left : Option (Nested CharSet × SetOperator) := none
  /-- The members since then, the last one first. -/
  members : List (Nested CharSet) := []
deriving DecidableEq, Repr

namespace Bracket

def add (bracket : Bracket) (set : Nested CharSet) : Bracket :=
  { bracket with members := set :: bracket.members }

/-- The members as one set. -/
def joined (bracket : Bracket) : Nested CharSet where
  content := bracket.members.foldr (fun set others => .union others set.content) .none
  depth := Nested.joinedDepth (bracket.members.map (·.depth))

/-- The letters of a set in either case, if they stand for both. -/
def folded (flags : Flags) (set : CharSet) : CharSet :=
  if flags.anyCase then .eitherCase set else set

/-- The set up to here. Operators are taken from left to right. -/
def value (bracket : Bracket) (flags : Flags) : Nested CharSet :=
  let right := bracket.joined
  match bracket.left with
  | none => right
  | some (left, operator) => {
      content := operator.apply (folded flags left.content) (folded flags right.content)
      depth := Nested.joinedDepth [left.depth, right.depth] }

/-- Takes an operator. -/
def operate (bracket : Bracket) (flags : Flags) (operator : SetOperator) : Bracket :=
  { bracket with left := some (bracket.value flags, operator), members := [] }

/-- A set or its complement. Beyond ASCII a set must be one of characters. -/
def signed? (flags : Flags) (negated : Bool) (set : CharSet) : Option CharSet :=
  let set := folded flags set
  let set := if negated then .complement set else set
  if ¬flags.unicode ∧ set.leavesAscii then none else some set

def close? (bracket : Bracket) (flags : Flags) : Option (Nested CharSet) :=
  let set := bracket.value flags
  (signed? flags bracket.negated set.content).map set.around

/-! ## Members -/

/-- A character may be a member. Both cases of a letter are known in ASCII
only, and so are the characters of a set of bytes. -/
def admits (flags : Flags) (c : Char) : Bool :=
  if flags.unicode then !flags.anyCase else c.val < 0x80

/-- Takes one character, or what a backslash starts. -/
def readAtom (flags : Flags) : List Char → Option (Atom × List Char)
  | '\\' :: rest => Atom.read flags rest
  | c :: rest => some (.char c, rest)
  | [] => none

/-- An atom as a member. -/
def memberOf? (flags : Flags) : Atom → Option CharSet
  | .char c => if admits flags c then some (.single c) else none
  | .set set => some set
  | .anchor _ => none

/-- Two atoms as the ends of a range. -/
def rangeOf? (flags : Flags) : Atom → Atom → Option CharSet
  | .char first, .char last =>
    if admits flags first ∧ admits flags last ∧ first ≤ last then some (.range first last)
    else none
  | _, _ => none

/-- The next character that stands behind a dash. Blanks are passed over, and
the mark of a comment is, but the comment is looked into. -/
def behindDash? (flags : Flags) (text : List Char) : Option Char :=
  if flags.spaced then
    match text.dropWhile Text.isBlank with
    | '#' :: comment => (comment.dropWhile Text.isBlank).head?
    | rest => rest.head?
  else text.head?

/-- Takes a member or a range. A dash in front of another dash or of the end
of the bracket makes no range. -/
def readMember (flags : Flags) (text : List Char) : Option (CharSet × List Char) := do
  let (first, rest) ← readAtom flags text
  match flags.skip rest with
  | '-' :: after =>
    let behind := behindDash? flags after
    if behind = some ']' ∨ behind = some '-' then
      return (← memberOf? flags first, '-' :: after)
    else
      let (last, rest) ← readAtom flags (flags.skip after)
      return (← rangeOf? flags first last, rest)
  | rest => return (← memberOf? flags first, rest)

/-- Takes a named set between colons, without the bracket in front of it. -/
def readNamed (text : List Char) : Option (Bool × CharSet × List Char) :=
  match text with
  | ':' :: rest =>
    let negated := rest.head? = some '^'
    let rest := if negated then rest.drop 1 else rest
    let name := rest.takeWhile (· ≠ ':')
    match rest.drop name.length with
    | ':' :: ']' :: rest =>
      (CharSet.named? (String.ofList name)).map (fun set => (negated, set, rest))
    | _ => none
  | _ => none

/-! ## Reading to the end -/

/-- Counts the dashes at the start of a bracket, which are members each. -/
def countDashes (flags : Flags) (found : Nat) (comment : Bool) : List Char → Nat × List Char
  | [] => (found, [])
  | c :: rest =>
    if comment then countDashes flags found (c != '\n') rest
    else if c = '-' then countDashes flags (found + 1) false rest
    else if flags.spaced ∧ Text.isBlank c then countDashes flags found false rest
    else if flags.spaced ∧ c = '#' then countDashes flags found true rest
    else (found, c :: rest)

/-- Takes the start of a bracket. A closing bracket that comes first is a member. -/
def start? (flags : Flags) (text : List Char) : Option (Bracket × List Char) := do
  let text := flags.skip text
  let negated := text.head? = some '^'
  let (dashes, rest) := countDashes flags 0 false (if negated then text.drop 1 else text)
  if 0 < dashes then
    let dash ← memberOf? flags (.char '-')
    return ({ negated, members := List.replicate dashes { content := dash } }, rest)
  match rest with
  | ']' :: rest =>
    return ({ negated, members := [{ content := ← memberOf? flags (.char ']') }] }, rest)
  | rest => return ({ negated }, rest)

/-- Reads on in a bracket, inside other ones, to the end of the outermost. -/
def readOn (flags : Flags) : Nat → Bracket → List Bracket → List Char →
    Option (Nested CharSet × List Char)
  | 0, _, _, _ => none
  | fuel + 1, bracket, outer, text =>
    match flags.skip text with
    | [] => none
    | '[' :: rest =>
      match readNamed rest with
      | some (negated, set, rest) => do
        if flags.unicode ∧ flags.anyCase then none
        else readOn flags fuel (bracket.add { content := ← signed? flags negated set }) outer rest
      | none => do
        let (inner, rest) ← start? flags rest
        readOn flags fuel inner (bracket :: outer) rest
    | ']' :: rest => do
      let set ← bracket.close? flags
      match outer with
      | [] => return (set, rest)
      | around :: outer => readOn flags fuel (around.add set) outer rest
    | '&' :: '&' :: rest => readOn flags fuel (bracket.operate flags .intersection) outer rest
    | '-' :: '-' :: rest => readOn flags fuel (bracket.operate flags .difference) outer rest
    | '~' :: '~' :: rest =>
      readOn flags fuel (bracket.operate flags .symmetricDifference) outer rest
    | text => do
      let (set, rest) ← readMember flags text
      readOn flags fuel (bracket.add { content := set }) outer rest

/-- Takes a set, without the bracket in front of it. Each step takes a
character, so the length of the text bounds the steps. -/
def read (flags : Flags) (text : List Char) : Option (Nested CharSet × List Char) := do
  let (bracket, rest) ← start? flags text
  readOn flags (rest.length + 1) bracket [] rest

end Bracket

end TopologySync.Pattern
