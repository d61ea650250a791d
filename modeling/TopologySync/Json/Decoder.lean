-- Decoding a value into a type of the domain. A decoder meets the parts
-- of a value in the order of the text, so the first problem wins.
import TopologySync.Json.Basic

namespace TopologySync.Json

/-- A way to take a value for a member of a type. -/
abbrev Decoder (α : Type) := Json → Except Problem α

namespace Decoder

/-! ## Scalars -/

def text : Decoder String
  | .text content _ => content
  | other => .error other.misfit

/-- A whole number below a limit. -/
def natural (limit : Nat) : Decoder Nat
  | .number (.ok (.natural value)) _ =>
    if value.toNat < limit then .ok value.toNat else .error .mistyped
  | other => .error other.misfit

def uint8 : Decoder UInt8 :=
  fun json => (natural UInt8.size json).map UInt8.ofNat

def uint32 : Decoder UInt32 :=
  fun json => (natural UInt32.size json).map UInt32.ofNat

def uint64 : Decoder UInt64 :=
  fun json => (natural UInt64.size json).map UInt64.ofNat

/-- Any number is a double. -/
def double : Decoder Float
  | .number (.ok value) _ => .ok value.toFloat
  | other => .error other.misfit

def null : Decoder Unit
  | .word (.ok none) => .ok ()
  | other => .error other.misfit

/-! ## Lists and choices -/

/-- The end of a list or an object, which is met after its parts. -/
def close (stop : Option Problem) : Except Problem Unit :=
  match stop with
  | some problem => .error problem
  | none => .ok ()

def listOf {α : Type} (item : Decoder α) : Decoder (List α)
  | .list items stop => do
    let decoded ← items.mapM item
    close stop
    return decoded
  | other => .error other.misfit

/-- The spelling of one of several names. -/
def spelling {α : Type} (ofName? : String → Option α) : Decoder α :=
  fun json => do
    match ofName? (← text json) with
    | some value => .ok value
    | none => .error .mistyped

/-- One of several names, written as a text, or as the only key of an
object with `null` beside it. -/
def choice {α : Type} (ofName? : String → Option α) : Decoder α
  | .text content stop => spelling ofName? (.text content stop)
  | .object ((key, value) :: more) stop => do
    let some chosen := ofName? (← key.keyName) | throw .mistyped
    null value
    if ¬more.isEmpty then throw .malformed
    close stop
    return chosen
  | .object [] (some problem) | .missing problem => .error problem
  | _ => .error .malformed

end Decoder

/-! ## Records -/

/-- A field of a record: its name, how its value reads, and what it is if left out. -/
structure Field (α : Type) where
  name : String
  value : Decoder α
  default? : Option α

namespace Field

def required {α : Type} (name : String) (value : Decoder α) : Field α :=
  ⟨name, value, none⟩

def optional {α : Type} (name : String) (value : Decoder α) (default : α) : Field α :=
  ⟨name, value, some default⟩

/-- The value of a field from what stands for it. -/
def fill {α : Type} (field : Field α) : Option Json → Except Problem α
  | some json => field.value json
  | none => match field.default? with
    | some default => .ok default
    | none => .error .mistyped

end Field

/-- A function of several arguments. -/
def Arrow : List Type → Type → Type
  | [], β => β
  | α :: αs, β => α → Arrow αs β

/-- The fields of a record, in the order of its list form. -/
inductive Fields : List Type → Type 1 where
  | nil : Fields []
  | cons {α : Type} {αs : List Type} (first : Field α) (rest : Fields αs) : Fields (α :: αs)

namespace Fields

/-- The name of each field, with a check of its value. -/
def checks {αs : List Type} : Fields αs → List (String × (Json → Except Problem Unit))
  | nil => []
  | cons first rest =>
    (first.name, fun json => (first.value json).map (fun _ => ())) :: rest.checks

/-- The record from what stands for each field. -/
def fill {αs : List Type} {β : Type} :
    Fields αs → Arrow αs β → List (Option Json) → Except Problem β
  | nil, made, _ => .ok made
  | cons first rest, make, slots => do
    rest.fill (make (← first.fill (slots.headD none))) slots.tail

/-- Checks the members of an object in turn. No field comes twice, and
members of other names are passed over. -/
def checkMembers (checks : List (String × (Json → Except Problem Unit))) :
    List String → List (Json × Json) → Except Problem Unit
  | _, [] => .ok ()
  | seen, (key, value) :: rest => do
    let name ← key.keyName
    match checks.lookup name with
    | none =>
      Decoder.close value.stop?
      checkMembers checks seen rest
    | some check =>
      if seen.contains name then throw .mistyped
      check value
      checkMembers checks (name :: seen) rest

/-- The member of a given name. -/
def find? (members : List (Json × Json)) (name : String) : Option Json :=
  (members.find? (fun member => member.1.keyName.toOption == some name)).map Prod.snd

/-- Checks the items of a list form in turn. What is left out stands at
the end, and more items than fields are no record. -/
def checkItems : List (String × (Json → Except Problem Unit)) → List Json → Except Problem Unit
  | _, [] => .ok ()
  | [], _ :: _ => .error .malformed
  | (_, check) :: checks, item :: items => do
    check item
    checkItems checks items

/-- What stands for each field: a member of its name, or the item in its place. -/
def slots (checks : List (String × (Json → Except Problem Unit))) :
    Json → Except Problem (List (Option Json))
  | .object members stop => do
    checkMembers checks [] members
    Decoder.close stop
    return checks.map (fun check => find? members check.1)
  | .list items stop => do
    checkItems checks items
    Decoder.close stop
    return items.map some
  | other => .error other.misfit

end Fields

/-- Decodes a record, written as an object or as the list of its fields. -/
def Decoder.record {αs : List Type} {β : Type} (fields : Fields αs) (make : Arrow αs β) :
    Decoder β :=
  fun json => do fields.fill make (← Fields.slots fields.checks json)

end TopologySync.Json
