-- The weighted directed graph that path computation reads: nodes by
-- router, edges by link, and one subgraph for each flexible algorithm as
-- of the last rebuild.
import TopologySync.Groups
import TopologySync.Weight

namespace TopologySync

/-- A router in the graph. -/
structure GraphNode where
  id : String
  name : String := ""
  algorithms : Std.ExtTreeSet UInt8 := ∅
deriving DecidableEq

/-- A router that only a link has named yet. -/
def GraphNode.placeholder (id : String) : GraphNode :=
  { id }

/-- A directed edge with its weights. -/
structure Edge where
  key : String
  source : String
  target : String
  weights : Weights
deriving DecidableEq

/-- The part of the graph that takes part in one algorithm. -/
structure SubGraph where
  algorithm : UInt8
  nodes : Std.ExtTreeSet String
  edges : Std.ExtTreeSet String
deriving DecidableEq

/-- Why the graph refuses a request. -/
inductive GraphError where
  | nodeNotFound (id : String)
  | edgeNotFound (key : String)
  | nodeExists (id : String)
  | edgeExists (key : String)
  | missingEndpoint (edge node : String)
  | weightNotSet (key : String) (kind : WeightKind)
deriving DecidableEq

def GraphError.message : GraphError → String
  | nodeNotFound id => "node " ++ id ++ " not found"
  | edgeNotFound key => "edge " ++ key ++ " not found"
  | nodeExists id => "node " ++ id ++ " already exists"
  | edgeExists key => "edge " ++ key ++ " already exists"
  | missingEndpoint edge node => "edge " ++ edge ++ " references missing node " ++ node
  | weightNotSet key kind => "edge " ++ key ++ " has no " ++ kind.name ++ " weight"

/-- The nodes and edges, the edges that leave and enter each node, and the
subgraphs with the number of their rebuilds. -/
structure Graph where
  nodes : Std.ExtTreeMap String GraphNode := ∅
  edges : Std.ExtTreeMap String Edge := ∅
  outbound : Groups := ∅
  inbound : Groups := ∅
  subGraphs : Std.ExtTreeMap UInt8 SubGraph := ∅
  generation : Nat := 0
deriving DecidableEq

namespace Graph

/-- A graph without nodes, never rebuilt. -/
def empty : Graph := {}

/-! ## Nodes -/

/-- Adds a node that is not there yet. -/
def addNode (graph : Graph) (node : GraphNode) : Except GraphError Graph :=
  if node.id ∈ graph.nodes then .error (.nodeExists node.id)
  else .ok { graph with nodes := graph.nodes.insert node.id node }

/-- Writes the name and the algorithms of a node in place. -/
def describeNode (graph : Graph) (id name : String) (algorithms : Std.ExtTreeSet UInt8) : Graph :=
  { graph with nodes := graph.nodes.modify id (fun node => { node with name, algorithms }) }

/-! ## Edges -/

/-- Enters an edge into both indices. -/
def link (graph : Graph) (edge : Edge) : Graph :=
  { graph with
    edges := graph.edges.insert edge.key edge
    outbound := graph.outbound.add edge.source edge.key
    inbound := graph.inbound.add edge.target edge.key }

/-- Takes an edge out of the graph and of both indices. -/
def unlink (graph : Graph) (edge : Edge) : Graph :=
  { graph with
    edges := graph.edges.erase edge.key
    outbound := graph.outbound.remove edge.source edge.key
    inbound := graph.inbound.remove edge.target edge.key }

/-- Adds an edge that is not there yet between nodes that are. -/
def addEdge (graph : Graph) (edge : Edge) : Except GraphError Graph :=
  if edge.key ∈ graph.edges then .error (.edgeExists edge.key)
  else if edge.source ∉ graph.nodes then .error (.missingEndpoint edge.key edge.source)
  else if edge.target ∉ graph.nodes then .error (.missingEndpoint edge.key edge.target)
  else .ok (graph.link edge)

/-- Deletes an edge and returns it. -/
def deleteEdge (graph : Graph) (key : String) : Except GraphError (Edge × Graph) :=
  match graph.edges[key]? with
  | none => .error (.edgeNotFound key)
  | some edge => .ok (edge, graph.unlink edge)

/-- Takes the edge of a key out, if there is one. -/
def dropEdge (graph : Graph) (key : String) : Graph :=
  match graph.edges[key]? with
  | none => graph
  | some edge => graph.unlink edge

/-- The keys of the edges that leave or enter a node. -/
def incident (graph : Graph) (id : String) : Std.ExtTreeSet String :=
  (graph.outbound.members id).insertMany (graph.inbound.members id).toList

/-- Deletes a node with its incident edges and returns it. -/
def deleteNode (graph : Graph) (id : String) : Except GraphError (GraphNode × Graph) :=
  match graph.nodes[id]? with
  | none => .error (.nodeNotFound id)
  | some node =>
    let bare := { graph with nodes := graph.nodes.erase id }
    .ok (node, (graph.incident id).toList.foldl dropEdge bare)

/-- The edges that leave a node, by key. -/
def edgesFrom (graph : Graph) (id : String) : List Edge :=
  (graph.outbound.members id).toList.filterMap (fun key => graph.edges[key]?)

/-! ## Weights -/

/-- All weights of an edge. -/
def allWeights (graph : Graph) (key : String) : Except GraphError Weights :=
  match graph.edges[key]? with
  | none => .error (.edgeNotFound key)
  | some edge => .ok edge.weights

/-- One weight of an edge. -/
def weight (graph : Graph) (key : String) (kind : WeightKind) : Except GraphError Float := do
  match (← graph.allWeights key)[kind]? with
  | none => .error (.weightNotSet key kind)
  | some value => .ok value

/-- Writes one weight of an edge. -/
def setWeight (graph : Graph) (key : String) (kind : WeightKind) (value : Float) :
    Except GraphError Graph :=
  match graph.edges[key]? with
  | none => .error (.edgeNotFound key)
  | some edge =>
    let edge := { edge with weights := edge.weights.insert kind value }
    .ok { graph with edges := graph.edges.insert key edge }

/-! ## Subgraphs -/

/-- The shortest path algorithm, which every router takes part in. -/
def shortestPath : UInt8 := 0

/-- A node takes part in the algorithms it lists, and in the shortest path. -/
def takesPart (algorithm : UInt8) (node : GraphNode) : Bool :=
  algorithm == shortestPath || node.algorithms.contains algorithm

/-- The algorithms that some node lists, and the shortest path. -/
def algorithms (graph : Graph) : Std.ExtTreeSet UInt8 :=
  (Std.ExtTreeSet.ofList (graph.nodes.values.flatMap (fun node => node.algorithms.toList))).insert
    shortestPath

/-- The nodes that take part in an algorithm, with the edges between them. -/
def subGraphFor (graph : Graph) (algorithm : UInt8) : SubGraph :=
  let nodes := Std.ExtTreeSet.ofList
    ((graph.nodes.values.filter (takesPart algorithm)).map GraphNode.id)
  let inside := fun edge : Edge => nodes.contains edge.source && nodes.contains edge.target
  { algorithm
    nodes
    edges := Std.ExtTreeSet.ofList ((graph.edges.values.filter inside).map Edge.key) }

/-- Builds all subgraphs anew. -/
def rebuild (graph : Graph) : Graph :=
  { graph with
    subGraphs := Std.ExtTreeMap.ofList
      (graph.algorithms.toList.map (fun algorithm => (algorithm, graph.subGraphFor algorithm)))
    generation := graph.generation + 1 }

end Graph

end TopologySync
