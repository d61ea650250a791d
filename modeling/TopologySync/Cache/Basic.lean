-- The lookup cache: every record by its key, and beside it the indices
-- by router, by network and by service. A slot of an index names the
-- record that took it last; removing a record frees the slots it holds.
import TopologySync.Groups
import TopologySync.Record

namespace TopologySync

/-- An index: the key that holds each slot. -/
abbrev Slots := Std.ExtTreeMap String String

namespace Slots

/-- Frees a slot if a key holds it. -/
def release (slots : Slots) (slot key : String) : Slots :=
  if slots[slot]? = some key then slots.erase slot else slots

theorem getElem?_release (slots : Slots) (slot key other : String) :
    (slots.release slot key)[other]? =
      if slot = other ∧ slots[other]? = some key then none else slots[other]? := by
  unfold release
  by_cases hslot : slot = other
  · subst hslot
    split
    · rename_i hholder
      simp [hholder]
    · rename_i hholder
      simp [hholder]
  · split
    · simp [Std.ExtTreeMap.getElem?_erase, hslot]
    · simp [hslot]

end Slots

/-- The keys of the segment identifiers of each router, by algorithm. -/
abbrev SidSlots := Std.ExtTreeMap String (Std.ExtTreeMap UInt8 String)

namespace SidSlots

/-- The slots of one router; a router that is not there has none. -/
def ofRouter (slots : SidSlots) (router : String) : Std.ExtTreeMap UInt8 String :=
  slots[router]?.getD ∅

def take (slots : SidSlots) (router : String) (algorithm : UInt8) (key : String) : SidSlots :=
  slots.insert router ((slots.ofRouter router).insert algorithm key)

/-- Frees a slot if a key holds it, and drops a router with its last slot. -/
def release (slots : SidSlots) (router : String) (algorithm : UInt8) (key : String) : SidSlots :=
  let own := slots.ofRouter router
  let left := if own[algorithm]? = some key then own.erase algorithm else own
  if left.isEmpty then slots.erase router else slots.insert router left

end SidSlots

/-- Everything known about the network, ready for lookup. -/
structure Cache where
  nodes : Std.ExtTreeMap String Node := ∅
  /-- The node that speaks for each router. -/
  nodeSlots : Slots := ∅
  sids : Std.ExtTreeMap String Sid := ∅
  sidSlots : SidSlots := ∅
  /-- Every announcement, of a client network or not. -/
  prefixes : Std.ExtTreeMap String Prefix := ∅
  /-- The single announcement of each client network. -/
  clientNetworks : Slots := ∅
  serviceSids : Groups := ∅
deriving DecidableEq

namespace Cache

def empty : Cache := {}

/-! ## Nodes -/

/-- Frees the slot of a node that moves to another router. -/
def leaveRouter (cache : Cache) (node : Node) : Slots :=
  match cache.nodes[node.key]? with
  | none => cache.nodeSlots
  | some previous =>
    if previous.router = node.router then cache.nodeSlots
    else cache.nodeSlots.release previous.router node.key

/-- Stores a node, which then speaks for its router. -/
def storeNode (cache : Cache) (node : Node) : Cache :=
  { cache with
    nodeSlots := (cache.leaveRouter node).insert node.router node.key
    nodes := cache.nodes.insert node.key node }

/-- Removes a node and frees its slot. -/
def removeNode (cache : Cache) (key : String) : Option Node × Cache :=
  match cache.nodes[key]? with
  | none => (none, cache)
  | some node =>
    (some node, { cache with
      nodes := cache.nodes.erase key
      nodeSlots := cache.nodeSlots.release node.router key })

/-- The node that speaks for a router. -/
def nodeOfRouter? (cache : Cache) (router : String) : Option Node := do
  cache.nodes[← cache.nodeSlots[router]?]?

/-! ## Segment identifiers -/

/-- Frees the slot of a segment identifier that moves to another one. -/
def leaveSlot (cache : Cache) (sid : Sid) : SidSlots :=
  match cache.sids[sid.key]? with
  | none => cache.sidSlots
  | some previous =>
    if previous.router = sid.router ∧ previous.algorithm = sid.algorithm then cache.sidSlots
    else cache.sidSlots.release previous.router previous.algorithm sid.key

/-- Stores a segment identifier, which takes the slot of its router and algorithm. -/
def storeSid (cache : Cache) (sid : Sid) : Cache :=
  { cache with
    sidSlots := (cache.leaveSlot sid).take sid.router sid.algorithm sid.key
    sids := cache.sids.insert sid.key sid }

/-- Removes a segment identifier and frees its slot. -/
def removeSid (cache : Cache) (key : String) : Option Sid × Cache :=
  match cache.sids[key]? with
  | none => (none, cache)
  | some sid =>
    (some sid, { cache with
      sids := cache.sids.erase key
      sidSlots := cache.sidSlots.release sid.router sid.algorithm key })

/-- The key that holds the slot of a router and an algorithm. -/
def sidKey? (cache : Cache) (router : String) (algorithm : UInt8) : Option String :=
  (cache.sidSlots.ofRouter router)[algorithm]?

def sidOfRouter? (cache : Cache) (router : String) (algorithm : UInt8) : Option Sid := do
  cache.sids[← cache.sidKey? router algorithm]?

/-- The segment identifiers of a router, by algorithm. -/
def sidsOfRouter (cache : Cache) (router : String) : List Sid :=
  (cache.sidSlots.ofRouter router).values.filterMap (fun key => cache.sids[key]?)

/-! ## Announcements and client networks -/

/-- Stores an announcement without making its network a client network. -/
def storePrefix (cache : Cache) (p : Prefix) : Cache :=
  { cache with prefixes := cache.prefixes.insert p.key p }

/-- Stores an announcement as the one of a client network. -/
def storeClientNetwork (cache : Cache) (p : Prefix) : Cache :=
  { cache with
    clientNetworks := cache.clientNetworks.insert p.network p.key
    prefixes := cache.prefixes.insert p.key p }

/-- Removes an announcement; its network is no client network if the
announcement made it one. -/
def removePrefix (cache : Cache) (key : String) : Option Prefix × Cache :=
  match cache.prefixes[key]? with
  | none => (none, cache)
  | some p =>
    (some p, { cache with
      prefixes := cache.prefixes.erase key
      clientNetworks := cache.clientNetworks.release p.network key })

/-- Takes the status of a client network away, and returns who held it. -/
def removeClientNetwork (cache : Cache) (network : String) : Option String × Cache :=
  (cache.clientNetworks[network]?,
    { cache with clientNetworks := cache.clientNetworks.erase network })

/-- The announcement of a client network. -/
def clientNetwork? (cache : Cache) (network : String) : Option Prefix := do
  cache.prefixes[← cache.clientNetworks[network]?]?

/-- The announcements of all client networks. -/
def clientPrefixes (cache : Cache) : List Prefix :=
  cache.clientNetworks.values.filterMap (fun key => cache.prefixes[key]?)

/-! ## Services -/

def storeServiceSid (cache : Cache) (service sid : String) : Cache :=
  { cache with serviceSids := cache.serviceSids.add service sid }

/-- Whether a segment identifier serves a service. -/
def isServiceSid (cache : Cache) (service sid : String) : Bool :=
  (cache.serviceSids.members service).contains sid

/-- Takes a segment identifier off a service, and returns whether it served it. -/
def removeServiceSid (cache : Cache) (service sid : String) : Bool × Cache :=
  (cache.isServiceSid service sid,
    { cache with serviceSids := cache.serviceSids.remove service sid })

end Cache

end TopologySync
