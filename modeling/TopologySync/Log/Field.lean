-- The fields of a span, and what a directive asks for in one: that it is
-- there, and perhaps that it has a value.
import TopologySync.Pattern.Chart
import TopologySync.Pattern.Reader
import TopologySync.Text.Numeral

namespace TopologySync.Log

/-- The value of a field. -/
inductive FieldValue where
  | count (n : Nat)
  /-- A value that is known by its text. -/
  | text (content : String)
deriving DecidableEq, Repr

/-- A value that is asked for. -/
inductive WantedValue where
  | count (n : Nat)
  /-- A truth value, or a number that is no count. No field has one. -/
  | scalar (content : String)
  /-- A pattern for the texts of values, as it is written. -/
  | pattern (content : String) (shape : Pattern)
deriving DecidableEq, Repr

namespace WantedValue

/-- The value that a text asks for. What is neither a number nor a truth
value must be a pattern. -/
def ofText? (content : String) : Option WantedValue :=
  let other := content ∈ ["true", "false"] || Text.isDecimal content.toList
  match Text.natural? content.toList with
  | some n => some (if n < UInt64.size then .count n else .scalar content)
  | none =>
    if other then some (.scalar content)
    else (Pattern.ofText? content).map (.pattern content)

/-- A value is the one that is asked for. A count is no text, so no pattern
is for it. -/
def isMetBy : WantedValue → FieldValue → Bool
  | count n, .count m => n == m
  | pattern _ shape, .text content => shape.fits content
  | _, _ => false

end WantedValue

/-- A field that a directive asks for. -/
structure FieldDemand where
  name : String
  /-- The value it shall have, if that matters. -/
  value : Option WantedValue
deriving DecidableEq, Repr

namespace FieldDemand

/-- The demand that a text makes: a name, or a name and a value with an equals
sign between them. What follows another equals sign is passed over. -/
def ofText? (text : String) : Option FieldDemand :=
  match text.splitOn "=" with
  | name :: value :: _ => (WantedValue.ofText? value).map (fun value => ⟨name, some value⟩)
  | _ => some ⟨text, none⟩

/-- A value is asked for as well. -/
def isValued (demand : FieldDemand) : Bool :=
  demand.value.isSome

/-- One of the fields is what is asked for. -/
def isMetBy (demand : FieldDemand) (fields : List (String × FieldValue)) : Bool :=
  fields.any (fun (name, value) =>
    name == demand.name && demand.value.all (fun wanted => wanted.isMetBy value))

end FieldDemand

end TopologySync.Log
