-- One change of the network, as the telemetry source reports it. Adds
-- and updates carry the whole record, deletes only its key.
import TopologySync.Record

namespace TopologySync

/-- The family of records an event belongs to. -/
inductive Family where
  | node
  | link
  | announcement
  | sid
deriving DecidableEq, Repr

/-- The word for a family in messages. -/
def Family.name : Family → String
  | node => "node"
  | link => "link"
  | announcement => "prefix"
  | sid => "sid"

/-- One reported change. -/
inductive Event where
  | addNode (node : Node)
  | updateNode (node : Node)
  | deleteNode (key : String)
  | addLink (link : Link)
  | updateLink (link : Link)
  | deleteLink (key : String)
  | addPrefix (announcement : Prefix)
  | deletePrefix (key : String)
  | addSid (sid : Sid)
  | deleteSid (key : String)
deriving DecidableEq

namespace Event

/-- The key of the record an event is about. -/
def key : Event → String
  | addNode node | updateNode node => node.key
  | addLink link | updateLink link => link.key
  | addPrefix announcement => announcement.key
  | addSid sid => sid.key
  | deleteNode key | deleteLink key | deletePrefix key | deleteSid key => key

/-- The family of an event. -/
def family : Event → Family
  | addNode _ | updateNode _ | deleteNode _ => .node
  | addLink _ | updateLink _ | deleteLink _ => .link
  | addPrefix _ | deletePrefix _ => .announcement
  | addSid _ | deleteSid _ => .sid

/-- The kind of an event: what happened, to which family. -/
inductive Kind where
  | addNode
  | updateNode
  | deleteNode
  | addLink
  | updateLink
  | deleteLink
  | addPrefix
  | deletePrefix
  | addSid
  | deleteSid
deriving DecidableEq, Repr

/-- The ten kinds of event. -/
def Kind.all : List Kind :=
  [.addNode, .updateNode, .deleteNode, .addLink, .updateLink, .deleteLink, .addPrefix,
    .deletePrefix, .addSid, .deleteSid]

/-- The spelling of a kind of event. -/
def Kind.name : Kind → String
  | addNode => "add_node"
  | updateNode => "update_node"
  | deleteNode => "delete_node"
  | addLink => "add_link"
  | updateLink => "update_link"
  | deleteLink => "delete_link"
  | addPrefix => "add_prefix"
  | deletePrefix => "delete_prefix"
  | addSid => "add_sid"
  | deleteSid => "delete_sid"

/-- The kind of event with a given spelling. -/
def Kind.ofName? (text : String) : Option Kind :=
  Kind.all.find? (fun kind => kind.name == text)

/-- What kind of event this is. -/
def kind : Event → Kind
  | addNode _ => .addNode
  | updateNode _ => .updateNode
  | deleteNode _ => .deleteNode
  | addLink _ => .addLink
  | updateLink _ => .updateLink
  | deleteLink _ => .deleteLink
  | addPrefix _ => .addPrefix
  | deletePrefix _ => .deletePrefix
  | addSid _ => .addSid
  | deleteSid _ => .deleteSid

end Event

end TopologySync
