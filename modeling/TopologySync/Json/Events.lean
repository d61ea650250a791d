-- How events are written in JSON: the members of the record, and beside
-- them, anywhere, a member `type` that tells the kind. An event is one
-- line of a stream, so all of it must be sound before it is looked into.
import TopologySync.Json.Records
import TopologySync.Event

namespace TopologySync

/-! ## Sound values -/

namespace Json

/-- The first problem of a value for one who takes it whole. Lists and
objects lie within each other at most `depth` deep. -/
def flaw? : Nat → Json → Option Problem
  | _, missing problem => some problem
  | _, word (.error problem) | _, number (.error problem) _ | _, text (.error problem) _ =>
    some problem
  | _, word (.ok _) => none
  | _, number (.ok _) stop | _, text (.ok _) stop => stop
  | 0, list _ _ | 0, object _ _ => some .malformed
  | depth + 1, list items stop => (items.findSome? (flaw? depth)).or stop
  | depth + 1, object members stop =>
    (members.findSome? (fun (key, value) => match key.keyName with
      | .error problem => some problem
      | .ok _ => flaw? depth value)).or stop

/-- How deep the lists and objects of an event may lie within each other. -/
def depthLimit : Nat := 127

/-- Passes a value that is sound as a whole. -/
def sound (depth : Nat) (json : Json) : Except Problem Unit :=
  match json.flaw? depth with
  | some problem => .error problem
  | none => .ok ()

end Json

/-! ## Events -/

namespace Event

open Json (Decoder Problem)

/-- The member that tells the kind of an event. -/
def tagName : String := "type"

/-- The kind that a tag names. -/
def tag : Decoder Kind :=
  Decoder.spelling Kind.ofName?

/-- A delete carries only its key. -/
def keyDecoder : Decoder String :=
  Decoder.record (.cons (.required "key" Decoder.text) .nil) id

/-- The event of a kind that carries a given record. -/
def ofPayload : Kind → Decoder Event
  | .addNode => fun json => (Node.decoder json).map addNode
  | .updateNode => fun json => (Node.decoder json).map updateNode
  | .deleteNode => fun json => (keyDecoder json).map deleteNode
  | .addLink => fun json => (Link.decoder json).map addLink
  | .updateLink => fun json => (Link.decoder json).map updateLink
  | .deleteLink => fun json => (keyDecoder json).map deleteLink
  | .addPrefix => fun json => (Prefix.decoder json).map addPrefix
  | .deletePrefix => fun json => (keyDecoder json).map deletePrefix
  | .addSid => fun json => (Sid.decoder json).map addSid
  | .deleteSid => fun json => (keyDecoder json).map deleteSid

/-- Reads the members of an event in turn: the tag at once, the others as
sound values that are kept for later. -/
def splitMembers (kind : Option Kind) :
    List (Json × Json) → Except Problem (Option Kind × List (Json × Json))
  | [] => .ok (kind, [])
  | (key, value) :: rest => do
    if (← key.keyName) = tagName then
      if kind.isSome then throw .mistyped
      splitMembers (some (← tag value)) rest
    else
      Json.sound (Json.depthLimit - 1) value
      let (kind, others) ← splitMembers kind rest
      return (kind, (key, value) :: others)

/-- The record of a sound event can only be of a wrong type. -/
def ofSoundPayload (kind : Option Kind) (payload : Json) : Except Problem Event :=
  match kind with
  | none => .error .mistyped
  | some kind => (ofPayload kind payload).mapError (fun _ => .mistyped)

/-- An event, written as an object or as the list of its tag and fields. -/
def decoder : Decoder Event
  | .object members stop => do
    let (kind, others) ← splitMembers none members
    Decoder.close stop
    ofSoundPayload kind (.object others none)
  | .list [] stop => do
    Decoder.close stop
    throw .mistyped
  | .list (first :: rest) stop => do
    let kind ← tag first
    Json.sound Json.depthLimit (.list rest stop)
    ofSoundPayload (some kind) (.list rest none)
  | other => .error other.misfit

end Event

end TopologySync
