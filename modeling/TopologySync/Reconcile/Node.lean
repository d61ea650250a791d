-- Nodes: the cache keeps them by key, the graph by router.
import TopologySync.Reconcile.Error

namespace TopologySync.Topology

/-- The graph node that a record describes. -/
def graphNodeOf (node : Node) : GraphNode :=
  { id := node.router, name := node.name, algorithms := node.algorithms }

/-- The graph has the node with another description, or not at all. -/
def differsFrom (node : Node) : Option GraphNode → Bool
  | none => true
  | some existing => existing.name ≠ node.name || existing.algorithms ≠ node.algorithms

/-- Adds or updates a node. A router that the graph has is described in
place, also one that only a link had named. Tells whether the graph changed. -/
def upsertNode (t : Topology) (node : Node) : Except ReconcileError (Bool × Topology) := do
  let existing := t.graph.nodes[node.router]?
  let graph ← match existing with
    | some _ => .ok (t.graph.describeNode node.router node.name node.algorithms)
    | none => (t.graph.addNode (graphNodeOf node)).mapError .graph
  return (differsFrom node existing, { cache := t.cache.storeNode node, graph })

/-- Adds the nodes of a snapshot in turn, and tells how many were stored
and which were refused. -/
def upsertNodes (t : Topology) : List Node → Nat × Topology × List Refusal
  | [] => (0, t, [])
  | node :: rest => match t.upsertNode node with
    | .ok (_, t) =>
      let (stored, t, refused) := t.upsertNodes rest
      (stored + 1, t, refused)
    | .error e =>
      let (stored, t, refused) := t.upsertNodes rest
      (stored, t, .record .node node.key e :: refused)

/-- Deletes a node by its key, and its router from the graph. Tells
whether the graph changed. -/
def deleteNode (t : Topology) (key : String) : Except ReconcileError (Bool × Topology) :=
  match t.cache.removeNode key with
  | (none, _) => .ok (false, t)
  | (some node, cache) =>
    if node.router ∈ t.graph.nodes then do
      let (_, graph) ← (t.graph.deleteNode node.router).mapError .graph
      return (true, { cache, graph })
    else .ok (false, { t with cache })

end TopologySync.Topology
