-- Written patterns. A text is read from left to right, with the groups that
-- are not closed yet around the place that is read. What is nested too deep
-- is no pattern.
import TopologySync.Pattern.Brackets
import TopologySync.Text.Alphanumeric

namespace TopologySync.Pattern

/-- A group that is not closed yet. -/
structure Group where
  /-- The flags for what is read next. -/
  flags : Flags := {}
  /-- The branches that are read, the last one first. -/
  branches : List (Nested Pattern) := []
  /-- The parts of the branch that is being read, the last one first. A flag
  that was set in between is `none`. -/
  parts : List (Option (Nested Pattern)) := []
deriving DecidableEq

namespace Group

def add (group : Group) (part : Nested Pattern) : Group :=
  { group with parts := some part :: group.parts }

/-- The branch that is being read, as it is. A flag is a part of it, too. -/
def branch (group : Group) : Nested Pattern where
  content := sequenceOf (group.parts.reverse.filterMap (·.map (·.content)))
  depth := Nested.joinedDepth (group.parts.map (fun part => (part.map (·.depth)).getD 0))

/-- Starts another branch. -/
def fork (group : Group) : Group :=
  { group with branches := group.branch :: group.branches, parts := [] }

/-- All branches of the group. -/
def value (group : Group) : Nested Pattern where
  content := group.branches.foldl (fun later earlier => .either earlier.content later)
    group.branch.content
  depth := Nested.joinedDepth ((group.branch :: group.branches).map (·.depth))

/-- Puts a repetition in the place of the last part, which may not be missing. -/
def repeatLast (group : Group) (repetition : Pattern → Pattern) : Option Group :=
  match group.parts with
  | some part :: parts =>
    some { group with parts := some (part.around (repetition part.content)) :: parts }
  | _ => none

end Group

/-- A written pattern up to a place. -/
structure Draft where
  group : Group := {}
  /-- The groups around it, the innermost first. -/
  outer : List Group := []
  /-- The names that groups have. -/
  names : List (List Char) := []
deriving DecidableEq

namespace Draft

def add (draft : Draft) (part : Nested Pattern) : Draft :=
  { draft with group := draft.group.add part }

/-- Adds a part that holds no other one. -/
def addPlain (draft : Draft) (part : Pattern) : Draft :=
  draft.add { content := part }

/-! ## Groups -/

/-- Opens a group. -/
def enter (draft : Draft) (flags : Flags) : Draft :=
  { draft with group := { flags }, outer := draft.group :: draft.outer }

/-- Closes a group. The flags from before it are set again. -/
def leave (draft : Draft) : Option Draft :=
  match draft.outer with
  | [] => none
  | around :: outer =>
    let inner := draft.group.value
    some { draft with group := around.add (inner.around inner.content), outer }

/-- A name of a group starts with a letter or an underscore. -/
def isName : List Char → Bool
  | [] => false
  | first :: rest =>
    (first == '_' || Text.isLetter first)
      && rest.all (fun c => Text.isAlphanumeric c || c ∈ ['_', '.', '[', ']'])

/-- Opens a group with a name. No two groups have the same one. -/
def enterNamed (draft : Draft) (text : List Char) : Option (Draft × List Char) :=
  let name := text.takeWhile (· ≠ '>')
  match text.drop name.length with
  | '>' :: rest =>
    if isName name ∧ name ∉ draft.names then
      some ({ draft with names := name :: draft.names }.enter draft.group.flags, rest)
    else none
  | _ => none

/-- Sets flags for the rest of the group or, behind a colon, for a new one. -/
def setFlags (draft : Draft) (text : List Char) : Option (Draft × List Char) := do
  let (flags, seen, rest) ← draft.group.flags.read [] text
  match rest with
  | ':' :: rest => return (draft.enter flags, rest)
  | _ =>
    if seen.isEmpty then none
    else return ({ draft with group := { draft.group with
      flags, parts := none :: draft.group.parts } }, rest.drop 1)

/-- Takes what follows an opening parenthesis. -/
def open? (draft : Draft) (text : List Char) : Option (Draft × List Char) :=
  match draft.group.flags.skip text with
  | '?' :: 'P' :: '<' :: rest => draft.enterNamed rest
  | '?' :: '<' :: rest => draft.enterNamed rest
  | '?' :: rest => draft.setFlags rest
  | rest => some (draft.enter draft.group.flags, rest)

/-! ## Reading to the end -/

/-- Repeats the last part. A question mark behind the sign swaps what is preferred. -/
def repeatLast (draft : Draft) (sign : Bool → Pattern → Pattern) (text : List Char) :
    Option (Draft × List Char) := do
  let lazily := text.head? = some '?'
  let greedy := lazily == draft.group.flags.swapped
  let group ← draft.group.repeatLast (sign greedy)
  return ({ draft with group }, if lazily then text.drop 1 else text)

/-- Takes an atom as a part. -/
def addAtom? (draft : Draft) : Atom → Option Draft
  | .char c => (draft.group.flags.setOf? c).map (fun set => draft.addPlain (.one set))
  | .set set => some (draft.addPlain (.one set))
  | .anchor condition => some (draft.addPlain (.anchor condition))

/-- Takes the next part of a text. Counted repetitions are not taken. -/
def step (draft : Draft) : List Char → Option (Draft × List Char)
  | [] => none
  | c :: rest =>
    let flags := draft.group.flags
    match c with
    | '(' => draft.open? rest
    | ')' => draft.leave.map (·, rest)
    | '|' => some ({ draft with group := draft.group.fork }, rest)
    | '?' => draft.repeatLast (fun greedy body => optional body greedy) rest
    | '*' => draft.repeatLast (fun greedy body => anyNumber body greedy) rest
    | '+' => draft.repeatLast (fun greedy body => repeated body greedy) rest
    | '\x7b' => none
    | '[' => do
      let (set, rest) ← Bracket.read flags rest
      return (draft.add { set with content := .one set.content }, rest)
    | '.' => flags.dot?.map (fun set => (draft.addPlain (.one set), rest))
    | '^' => some (draft.addPlain (.anchor flags.start), rest)
    | '$' => some (draft.addPlain (.anchor flags.stop), rest)
    | '\\' => do
      let (atom, rest) ← Atom.read flags rest
      return (← draft.addAtom? atom, rest)
    | c => (draft.addAtom? (.char c)).map (·, rest)

/-- Reads on to the end of a text, where all groups are closed. -/
def readOn : Nat → Draft → List Char → Option (Nested Pattern)
  | 0, _, _ => none
  | fuel + 1, draft, text =>
    match draft.group.flags.skip text with
    | [] => if draft.outer.isEmpty then some draft.group.value else none
    | text => do
      let (draft, rest) ← draft.step text
      readOn fuel draft rest

end Draft

/-- The pattern that a text stands for, if it stands for one. Each step takes
a character, so the length of the text bounds the steps. -/
def ofText? (text : String) : Option Pattern := do
  let pattern ← Draft.readOn (text.length + 1) {} text.toList
  if pattern.depth ≤ deepest then some pattern.content else none

end TopologySync.Pattern
