-- How deep the parts of a written pattern stand in one another. A part is
-- kept with its depth while the pattern is read, and what is too deep is no
-- pattern.

namespace TopologySync.Pattern

/-- The deepest that a written pattern may be. -/
def deepest : Nat := 250

/-- What a part of a written pattern stands for, and how deep the part is. A
part that holds no other one is not deep at all. -/
structure Nested (α : Type) where
  content : α
  depth : Nat := 0
deriving DecidableEq, Repr

namespace Nested

/-- The depth of parts that are joined. One part alone is not joined to anything. -/
def joinedDepth : List Nat → Nat
  | [] => 0
  | [depth] => depth
  | depths => depths.foldl max 0 + 1

/-- A part that holds this one, with another content. -/
def around {α β : Type} (part : Nested α) (content : β) : Nested β :=
  { content, depth := part.depth + 1 }

end Nested

end TopologySync.Pattern
