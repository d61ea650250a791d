-- What stands in a JSON text, read from left to right as far as it can
-- be read. A text that breaks off or goes wrong still has a value: the
-- fault sits at the place where it was met, so that whoever reads the
-- value meets the first problem of the text first.

namespace TopologySync

/-- The bytes of a document or a stream. -/
abbrev Bytes := List UInt8

namespace Json

/-- Why a text does not read as a value. -/
inductive Problem where
  /-- It is no JSON. -/
  | malformed
  /-- It is JSON of another shape. -/
  | mistyped
  /-- It ends too early. -/
  | truncated
deriving DecidableEq, Repr

/-- A number as it is written: whole numbers that fit 64 bits stay whole. -/
inductive Number where
  | natural (value : UInt64)
  | negative (value : Int64)
  | real (value : Float)
deriving DecidableEq

/-- The nearest double to a number. -/
def Number.toFloat : Number → Float
  | natural value => value.toFloat
  | negative value => value.toFloat
  | real value => value

end Json

/-- A JSON value as it stands in a text. `stop` tells how reading ended
inside the value; after `some` problem nothing more was read. A scalar
also tells what a reader who wants its content gets, which may fail
where one who only passes over it goes on. -/
inductive Json where
  /-- No value begins here. -/
  | missing (problem : Json.Problem)
  /-- One of the words `null`, `true` and `false`, or the start of one. -/
  | word (content : Except Json.Problem (Option Bool))
  | number (content : Except Json.Problem Json.Number) (stop : Option Json.Problem)
  | text (content : Except Json.Problem String) (stop : Option Json.Problem)
  | list (items : List Json) (stop : Option Json.Problem)
  /-- The members in the order of the text, each key as it stands there. -/
  | object (members : List (Json × Json)) (stop : Option Json.Problem)

namespace Json

/-- The problem that ended the reading of a value, for one who passes over it. -/
def stop? : Json → Option Problem
  | missing problem => some problem
  | word content => match content with
    | .ok _ => none
    | .error problem => some problem
  | number _ stop | text _ stop | list _ stop | object _ stop => stop

/-- The problem met by a reader who wants a value of another type. The
content of a scalar is read before its type is seen to be wrong. -/
def misfit : Json → Problem
  | missing problem => problem
  | word (.error problem) | number (.error problem) _ | text (.error problem) _ => problem
  | word (.ok _) | number (.ok _) _ | text (.ok _) _ | list _ _ | object _ _ => .mistyped

/-- The name a member goes by: a key is a text. -/
def keyName : Json → Except Problem String
  | text content _ => content
  | missing problem => .error problem
  | _ => .error .malformed

/-- The problem that ended the reading of a key, for one who passes over it. -/
def keyStop? : Json → Option Problem
  | text _ stop => stop
  | missing problem => some problem
  | _ => some .malformed

end Json

end TopologySync
