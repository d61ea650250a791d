-- Events and snapshots go to those who take their family. An event that
-- is refused is noted and changes no more than its refusal did.
import TopologySync.Reconcile.Link
import TopologySync.Reconcile.Node
import TopologySync.Reconcile.Prefix

namespace TopologySync

/-- The families that are taken. Whoever takes announcements counts them. -/
structure Dispatcher where
  nodes : Bool := true
  links : Bool := true
  prefixes : Option AnnouncementCounts := some ∅
  sids : Bool := true
deriving DecidableEq

namespace Dispatcher

/-- A dispatcher that takes every family. -/
def full : Dispatcher := {}

/-- A dispatcher that takes the given families. -/
def ofFamilies (families : List Family) : Dispatcher where
  nodes := families.contains .node
  links := families.contains .link
  prefixes := if families.contains .announcement then some ∅ else none
  sids := families.contains .sid

def handles (dispatcher : Dispatcher) : Family → Bool
  | .node => dispatcher.nodes
  | .link => dispatcher.links
  | .announcement => dispatcher.prefixes.isSome
  | .sid => dispatcher.sids

end Dispatcher

/-- How many records of a snapshot were applied. -/
structure Summary where
  nodes : Nat := 0
  links : Nat := 0
  prefixes : Nat := 0
  sids : Nat := 0
deriving DecidableEq, Repr

/-- A dispatcher with the topology that it keeps. -/
structure Sync where
  dispatcher : Dispatcher := .full
  topology : Topology := {}
deriving DecidableEq

namespace Sync

/-! ## One event -/

/-- Applies a change to the announcements. They are not part of the graph,
so the graph never changes. -/
def onAnnouncements (s : Sync)
    (change : Announcements → Except ReconcileError Unit × Announcements) :
    Except ReconcileError Bool × Sync :=
  match s.dispatcher.prefixes with
  | none => (.ok false, s)
  | some counts =>
    let (outcome, a) := change { counts, cache := s.topology.cache }
    (outcome.map (fun _ => false), {
      dispatcher := { s.dispatcher with prefixes := some a.counts }
      topology := { s.topology with cache := a.cache } })

/-- Applies a change to the topology, as a whole or not at all. -/
def onTopology (s : Sync) (taken : Bool)
    (change : Topology → Except ReconcileError (Bool × Topology)) :
    Except ReconcileError Bool × Sync :=
  if taken then
    match change s.topology with
    | .ok (changed, topology) => (.ok changed, { s with topology })
    | .error e => (.error e, s)
  else (.ok false, s)

/-- Applies a change to the cache alone. -/
def onCache (s : Sync) (taken : Bool) (change : Cache → Cache) :
    Except ReconcileError Bool × Sync :=
  s.onTopology taken (fun t => .ok (false, { t with cache := change t.cache }))

/-- Applies an event, and tells whether the graph changed. -/
def apply (s : Sync) : Event → Except ReconcileError Bool × Sync
  | .addNode node | .updateNode node => s.onTopology s.dispatcher.nodes (·.upsertNode node)
  | .deleteNode key => s.onTopology s.dispatcher.nodes (·.deleteNode key)
  | .addLink link => s.onTopology s.dispatcher.links (·.addLink link)
  | .updateLink link => s.onTopology s.dispatcher.links (fun t =>
      (t.updateLink link).map (fun (update, t) => (update.graphChanged, t)))
  | .deleteLink key => s.onTopology s.dispatcher.links (·.deleteLink key)
  | .addPrefix p => s.onAnnouncements (·.add p)
  | .deletePrefix key => s.onAnnouncements (·.delete key)
  | .addSid sid => s.onCache s.dispatcher.sids (·.storeSid sid)
  | .deleteSid key => s.onCache s.dispatcher.sids (fun cache => (cache.removeSid key).2)

/-- Applies an event if someone takes it. A refused event counts as one
that did not change the graph. -/
def dispatch (s : Sync) (event : Event) : Bool × Sync × List Refusal :=
  if s.dispatcher.handles event.family then
    match s.apply event with
    | (.ok changed, s) => (changed, s, [])
    | (.error e, s) => (false, s, [.event event.kind event.key e])
  else (false, s, [.unhandled event.family event.key])

/-! ## Snapshots -/

def loadNodes (s : Sync) (nodes : List Node) : Nat × Sync × List Refusal :=
  if s.dispatcher.nodes then
    let (stored, topology, refused) := s.topology.upsertNodes nodes
    (stored, { s with topology }, refused)
  else (0, s, [])

/-- Adds the links of a snapshot. The subgraphs are rebuilt once, also if
no one takes links. -/
def loadLinks (s : Sync) (links : List Link) : Nat × Sync × List Refusal :=
  let taken := if s.dispatcher.links then links else []
  let (added, topology, refused) := s.topology.loadLinks taken
  (added, { s with topology }, refused)

def loadPrefixes (s : Sync) (prefixes : List Prefix) : Nat × Sync × List Refusal :=
  match s.dispatcher.prefixes with
  | none => (0, s, [])
  | some counts =>
    let (added, a, refused) := Announcements.addAll { counts, cache := s.topology.cache } prefixes
    (added, {
      dispatcher := { s.dispatcher with prefixes := some a.counts }
      topology := { s.topology with cache := a.cache } }, refused)

def loadSids (s : Sync) (sids : List Sid) : Nat × Sync :=
  if s.dispatcher.sids then
    let cache := sids.foldl Cache.storeSid s.topology.cache
    (sids.length, { s with topology := { s.topology with cache } })
  else (0, s)

/-- Applies a snapshot: nodes, links, announcements, segment identifiers. -/
def applySnapshot (s : Sync) (snapshot : Snapshot) : Summary × Sync × List Refusal :=
  let (nodes, s, refusedNodes) := s.loadNodes snapshot.nodes
  let (links, s, refusedLinks) := s.loadLinks snapshot.links
  let (prefixes, s, refusedPrefixes) := s.loadPrefixes snapshot.prefixes
  let (sids, s) := s.loadSids snapshot.sids
  ({ nodes, links, prefixes, sids }, s, refusedNodes ++ refusedLinks ++ refusedPrefixes)

end Sync

end TopologySync
