-- Links: the edges of the graph and their ten weights. A raw weight of
-- zero means that its telemetry is not populated yet.
import TopologySync.Reconcile.Error

namespace TopologySync

/-- A raw weight of zero is not populated. Normalized weights may be zero. -/
def unpopulated (kind : WeightKind) (value : Float) : Bool :=
  !kind.isNormalized && value == 0.0

namespace Topology

/-! ## Adding -/

/-- The graph node for a router that a link names: as the cache knows it,
or a placeholder. -/
def endpoint (cache : Cache) (router : String) : GraphNode :=
  match cache.nodeOfRouter? router with
  | none => .placeholder router
  | some node => { id := router, name := node.name, algorithms := node.algorithms }

/-- Makes sure that the graph has a router. -/
def ensureNode (cache : Cache) (router : String) (graph : Graph) : Except GraphError Graph :=
  if router ∈ graph.nodes then .ok graph
  else graph.addNode (endpoint cache router)

/-- The edge for a link. -/
def edgeOf (link : Link) : Edge where
  key := link.key
  source := link.source
  target := link.target
  weights := Std.ExtTreeMap.ofList link.weights

/-- The first weight of a link that is not populated. -/
def unpopulatedWeight? (link : Link) : Option WeightKind :=
  (link.weights.find? (fun (kind, value) => unpopulated kind value)).map Prod.fst

/-- Adds the edge for a link with its endpoints. An edge that is there is
left as it is. Tells whether the graph changed. -/
def addLink (t : Topology) (link : Link) : Except ReconcileError (Bool × Topology) :=
  if link.key ∈ t.graph.edges then .ok (false, t)
  else match unpopulatedWeight? link with
    | some kind => .error (.zeroWeight link.key kind)
    | none => do
      let graph ← (do
        let graph ← ensureNode t.cache link.source t.graph
        let graph ← ensureNode t.cache link.target graph
        graph.addEdge (edgeOf link)).mapError .graph
      return (true, { t with graph })

/-- Adds the links of a snapshot in turn, and tells how many edges are new
and which links were refused. -/
def addLinks (t : Topology) : List Link → Nat × Topology × List Refusal
  | [] => (0, t, [])
  | link :: rest => match t.addLink link with
    | .ok (changed, t) =>
      let (added, t, refused) := t.addLinks rest
      (added + changed.toNat, t, refused)
    | .error e =>
      let (added, t, refused) := t.addLinks rest
      (added, t, .record .link link.key e :: refused)

/-- Adds the links of a snapshot, and then rebuilds the subgraphs once. -/
def loadLinks (t : Topology) (links : List Link) : Nat × Topology × List Refusal :=
  let (added, t, refused) := t.addLinks links
  (added, { t with graph := t.graph.rebuild }, refused)

end Topology

/-! ## Updating -/

/-- What an update of a link came to. -/
structure WeightUpdate where
  /-- The edge was not there and was added. -/
  created : Bool := false
  /-- The weights that were written. -/
  changed : List WeightKind := []
  /-- The weights that are not populated and keep their value. -/
  skipped : List WeightKind := []
deriving DecidableEq

def WeightUpdate.graphChanged (update : WeightUpdate) : Bool :=
  update.created || !update.changed.isEmpty

namespace Topology

/-- Merges one weight into an edge: it is written if it is populated and
differs from what the edge has. -/
def mergeWeight (key : String) (state : WeightUpdate × Graph) (weight : WeightKind × Float) :
    Except GraphError (WeightUpdate × Graph) :=
  let (update, graph) := state
  let (kind, value) := weight
  if unpopulated kind value then
    .ok ({ update with skipped := update.skipped ++ [kind] }, graph)
  else
    let unchanged := match graph.weight key kind with
      | .ok old => old == value
      | .error _ => false
    if unchanged then .ok (update, graph)
    else do
      let graph ← graph.setWeight key kind value
      return ({ update with changed := update.changed ++ [kind] }, graph)

/-- Merges the weights of a link into its edge, or adds the edge. -/
def updateLink (t : Topology) (link : Link) : Except ReconcileError (WeightUpdate × Topology) :=
  if link.key ∈ t.graph.edges then do
    let (update, graph) ← (link.weights.foldlM (mergeWeight link.key) ({}, t.graph)).mapError .graph
    return (update, { t with graph })
  else do
    let (created, t) ← t.addLink link
    return ({ created }, t)

/-! ## Deleting -/

/-- Deletes the edge of a link. Tells whether it was there. -/
def deleteLink (t : Topology) (key : String) : Except ReconcileError (Bool × Topology) :=
  if key ∈ t.graph.edges then do
    let (_, graph) ← (t.graph.deleteEdge key).mapError .graph
    return (true, { t with graph })
  else .ok (false, t)

end Topology

end TopologySync
