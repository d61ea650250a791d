-- Changes as they are made: one call of the graph after the other, each of
-- which stays made if a later one is refused. Where every record stands under
-- its own key, a change that is refused has written nothing.
import TopologySync.Proofs.Graph.Calls
import TopologySync.Proofs.Reconcile.Changes

open Std

namespace TopologySync

/-! ## Steps in turn -/

section Steps

variable {ε σ α β : Type} {s s' : σ}

/-- A step that does not fail hands on what it wrote. -/
theorem bind_of_ok {step : ExceptT ε (StateM σ) α} {next : α → ExceptT ε (StateM σ) β} {a : α}
    (h : step s = (.ok a, s')) : (step >>= next) s = next a s' := by
  simp only [bind, ExceptT.bind, ExceptT.mk, StateT.bind, h]
  rfl

theorem bind_of_error {step : ExceptT ε (StateM σ) α} {next : α → ExceptT ε (StateM σ) β} {e : ε}
    (h : step s = (.error e, s')) : (step >>= next) s = (.error e, s') := by
  simp only [bind, ExceptT.bind, ExceptT.mk, StateT.bind, h]
  rfl

end Steps

namespace Topology

/-! ## Writing -/

/-- Steps that write to a topology, up to the first that is refused. What was
written before stays. -/
abbrev Writing (α : Type) :=
  ExceptT ReconcileError (StateM Topology) α

/-- Calls the graph. -/
def call (c : Graph.Call) : Writing Unit := fun t =>
  let (refusal, graph) := t.graph.inPlace c
  (match refusal with
    | none => .ok ()
    | some e => .error (.graph e), { t with graph })

/-- Changes the cache, which refuses nothing. -/
def keep (change : Cache → Cache) : Writing Unit :=
  modify fun t => { t with cache := change t.cache }

/-- Describes a router in place or enters it, and then stores the record. -/
def writeNode (node : Node) : Writing Bool := do
  let existing := (← get).graph.nodes[node.router]?
  match existing with
  | some _ => call (.describeNode node.router node.name node.algorithms)
  | none => call (.addNode (graphNodeOf node))
  keep (·.storeNode node)
  return differsFrom node existing

/-- Takes a record out of the cache, and then its router out of the graph. -/
def takeNode (key : String) : Writing Bool := do
  match ((← get).cache.removeNode key).1 with
  | none => return false
  | some node =>
    keep (fun cache => (cache.removeNode key).2)
    if node.router ∈ (← get).graph.nodes then
      call (.deleteNode node.router)
      return true
    else return false

/-- Enters a router that the graph does not have. -/
def writeEndpoint (router : String) : Writing Unit := do
  let t ← get
  if router ∈ t.graph.nodes then return ()
  else call (.addNode (endpoint t.cache router))

/-- Enters the endpoints of a link, one after the other, and then its edge. -/
def writeLink (link : Link) : Writing Bool := do
  if link.key ∈ (← get).graph.edges then return false
  else match unpopulatedWeight? link with
    | some kind => throw (.zeroWeight link.key kind)
    | none =>
      writeEndpoint link.source
      writeEndpoint link.target
      call (.addEdge (edgeOf link))
      return true

/-- Writes one weight of a link, if it is populated and new. -/
def writeWeight (key : String) (update : WeightUpdate) (weight : WeightKind × Float) :
    Writing WeightUpdate := do
  let (kind, value) := weight
  if unpopulated kind value then return { update with skipped := update.skipped ++ [kind] }
  else
    let unchanged := match (← get).graph.weight key kind with
      | .ok old => old == value
      | .error _ => false
    if unchanged then return update
    else
      call (.setWeight key kind value)
      return { update with changed := update.changed ++ [kind] }

/-- Writes the weights of a link in turn, or its edge. -/
def writeWeights (link : Link) : Writing WeightUpdate := do
  if link.key ∈ (← get).graph.edges then link.weights.foldlM (writeWeight link.key) {}
  else
    let created ← writeLink link
    return { created }

/-- Takes the edge of a link out. -/
def takeLink (key : String) : Writing Bool := do
  if key ∈ (← get).graph.edges then
    call (.deleteEdge key)
    return true
  else return false

/-! ## Steps that succeed -/

variable {α β : Type} {t t' : Topology} {graph made : Graph}

theorem get_bind (next : Topology → Writing β) (t : Topology) : (get >>= next) t = next t t :=
  rfl

theorem keep_bind (change : Cache → Cache) (next : Unit → Writing β) (t : Topology) :
    (keep change >>= next) t = next () { t with cache := change t.cache } :=
  rfl

theorem call_of_ok (h : graph.Keyed) {c : Graph.Call} (hc : graph.outcome c = .ok made)
    (cache : Cache) : call c { cache, graph } = (.ok (), { cache, graph := made }) := by
  simp only [call, Graph.inPlace_eq h, hc, Graph.settled]

theorem call_bind (h : graph.Keyed) {c : Graph.Call} (hc : graph.outcome c = .ok made)
    (next : Unit → Writing β) (cache : Cache) :
    (call c >>= next) { cache, graph } = next () { cache, graph := made } :=
  bind_of_ok (call_of_ok h hc cache)

theorem outcome_addNode {node : GraphNode} (h : node.id ∉ graph.nodes) :
    graph.outcome (.addNode node) = .ok (graph.withNode node) :=
  Graph.addNode_eq h

theorem outcome_describeNode {node : Node} (h : node.router ∈ graph.nodes) :
    graph.outcome (.describeNode node.router node.name node.algorithms) =
      .ok (graph.describe node) := by
  obtain ⟨known, hknown⟩ := Maps.mem_iff_exists.1 h
  simp only [Graph.outcome, Graph.describeNode, Graph.describe, Maps.modify_eq_insert _ hknown,
    hknown, Option.getD_some]

theorem outcome_deleteNode {id : String} (h : id ∈ graph.nodes) :
    graph.outcome (.deleteNode id) = .ok (graph.dropNode id) := by
  obtain ⟨known, hknown⟩ := Maps.mem_iff_exists.1 h
  simp only [Graph.outcome, Graph.deleteNode, hknown]
  rfl

theorem outcome_deleteEdge {key : String} {edge : Edge} (h : graph.edges[key]? = some edge) :
    graph.outcome (.deleteEdge key) = .ok (graph.unlink edge) := by
  simp only [Graph.outcome, Graph.deleteEdge, h]
  rfl

/-! ## Nodes -/

/-- A change that is made as a whole or not at all. -/
def asWhole (t : Topology) : Except ReconcileError (α × Topology) →
    Except ReconcileError α × Topology
  | .ok (a, t') => (.ok a, t')
  | .error e => (.error e, t)

theorem writeNode_eq (h : t.graph.Keyed) (node : Node) :
    writeNode node t = t.asWhole (t.upsertNode node) := by
  rw [upsertNode_eq]
  unfold writeNode
  rw [get_bind]
  rcases hknown : t.graph.nodes[node.router]? with _ | known
  · have hnew : (graphNodeOf node).id ∉ t.graph.nodes := by
      simp [Maps.mem_iff_exists, graphNodeOf, hknown]
    have hdescribed : t.graph.withNode (graphNodeOf node) = t.graph.describe node := by
      rw [Graph.withNode, Maps.insertIfNew_of_notMem _ hnew]
      simp only [Graph.describe, hknown]
      rfl
    dsimp only
    rw [call_bind h (outcome_addNode hnew), keep_bind, hdescribed]
    rfl
  · dsimp only
    rw [call_bind h (outcome_describeNode (Maps.mem_iff_exists.2 ⟨known, hknown⟩)), keep_bind]
    rfl

theorem takeNode_eq (h : t.graph.Keyed) (key : String) :
    takeNode key t = t.asWhole (t.deleteNode key) := by
  have hremoved : (t.cache.removeNode key).1 = t.cache.nodes[key]? := by
    unfold Cache.removeNode
    split <;> simp [*]
  rw [deleteNode_eq]
  unfold takeNode
  rw [get_bind, hremoved]
  rcases t.cache.nodes[key]? with _ | node
  · rfl
  · dsimp only
    rw [keep_bind, get_bind]
    dsimp only
    by_cases hthere : node.router ∈ t.graph.nodes
    · rw [if_pos hthere, if_pos hthere, call_bind h (outcome_deleteNode hthere)]
      rfl
    · rw [if_neg hthere, if_neg hthere]
      rfl

/-! ## Links -/

theorem writeEndpoint_eq (h : graph.Keyed) (cache : Cache) (router : String) :
    writeEndpoint router { cache, graph } =
      (.ok (), { cache, graph := graph.withNode (endpoint cache router) }) := by
  unfold writeEndpoint
  rw [get_bind]
  by_cases hthere : router ∈ graph.nodes
  · have hsame : graph.withNode (endpoint cache router) = graph := by
      rw [Graph.withNode, endpoint_id, Maps.insertIfNew_of_mem _ hthere]
    rw [if_pos hthere, hsame]
    rfl
  · have hnew : (endpoint cache router).id ∉ graph.nodes := by rwa [endpoint_id]
    rw [if_neg hthere]
    exact call_of_ok h (outcome_addNode hnew) cache

theorem writeLink_eq (h : t.graph.Keyed) (link : Link) :
    writeLink link t = t.asWhole (t.addLink link) := by
  rw [addLink_eq]
  unfold writeLink
  rw [get_bind]
  by_cases hthere : link.key ∈ t.graph.edges
  · rw [if_pos hthere, if_pos hthere]
    rfl
  · rw [if_neg hthere, if_neg hthere]
    rcases unpopulatedWeight? link with _ | kind
    · have hsource := Graph.keyed_withNode h (endpoint t.cache link.source)
      have htarget := Graph.keyed_withNode hsource (endpoint t.cache link.target)
      have hedge : Graph.outcome _ (.addEdge (edgeOf link)) = .ok (t.linked link) :=
        addEdge_linked hthere
      dsimp only
      rw [bind_of_ok (writeEndpoint_eq h t.cache link.source),
        bind_of_ok (writeEndpoint_eq hsource t.cache link.target), call_bind htarget hedge]
      rfl
    · rfl

/-- A weight is written or left, and no write is refused. -/
theorem writeWeight_eq (h : graph.Keyed) {key : String} {edge : Edge}
    (hedge : graph.edges[key]? = some edge) (cache : Cache) (update : WeightUpdate)
    (weight : WeightKind × Float) :
    writeWeight key update weight { cache, graph } =
      let merged := mergeInto (update, edge.weights) weight
      (.ok merged.1, { cache, graph := graph.reweigh edge key merged.2 }) := by
  obtain ⟨kind, value⟩ := weight
  have hsame : graph.reweigh edge key edge.weights = graph := by
    simp [Graph.reweigh, Maps.insert_self hedge]
  have hset : graph.outcome (.setWeight key kind value) =
      .ok (graph.reweigh edge key (edge.weights.insert kind value)) := by
    simp only [Graph.outcome, Graph.setWeight, hedge, Graph.reweigh]
  have hknown : (match graph.weight key kind with
      | .ok old => old == value
      | .error _ => false) = edge.weights[kind]?.any (· == value) := by
    simp only [Graph.weight, Graph.allWeights, hedge, bind, Except.bind]
    rcases edge.weights[kind]? with _ | old <;> rfl
  unfold writeWeight mergeInto
  dsimp only
  split
  · rw [hsame]
    rfl
  · rw [get_bind]
    dsimp only
    rw [hknown]
    split
    · rw [hsame]
      rfl
    · rw [call_bind h hset]
      rfl

theorem foldlM_writeWeight (h : graph.Keyed) {key : String} {edge : Edge}
    (hedge : graph.edges[key]? = some edge) (cache : Cache) (update : WeightUpdate)
    (weights : List (WeightKind × Float)) :
    weights.foldlM (writeWeight key) update { cache, graph } =
      let merged := weights.foldl mergeInto (update, edge.weights)
      (.ok merged.1, { cache, graph := graph.reweigh edge key merged.2 }) := by
  induction weights generalizing graph edge update with
  | nil =>
    simp only [List.foldl_nil, Graph.reweigh, Maps.insert_self hedge]
    rfl
  | cons weight rest ih =>
    rw [List.foldlM_cons, bind_of_ok (writeWeight_eq h hedge cache update weight), List.foldl_cons]
    rcases mergeInto (update, edge.weights) weight with ⟨update, merged⟩
    have hnext : (graph.reweigh edge key merged).edges[key]? =
        some { edge with weights := merged } := by
      simp [Graph.reweigh]
    rw [ih (Graph.keyed_reweigh h hedge merged) hnext update]
    simp [Graph.reweigh, Maps.insert_insert]

theorem writeWeights_eq (h : t.graph.Keyed) (link : Link) :
    writeWeights link t = t.asWhole (t.updateLink link) := by
  rw [updateLink_eq]
  unfold writeWeights
  rw [get_bind]
  rcases hedge : t.graph.edges[link.key]? with _ | edge
  · have hnew : link.key ∉ t.graph.edges := by simp [Maps.mem_iff_exists, hedge]
    rw [if_neg hnew]
    have hwrite := writeLink_eq h link
    rcases hadd : t.addLink link with e | ⟨created, t'⟩
    · rw [hadd] at hwrite
      exact bind_of_error hwrite
    · rw [hadd] at hwrite
      exact bind_of_ok hwrite
  · rw [if_pos (Maps.mem_iff_exists.2 ⟨edge, hedge⟩)]
    exact foldlM_writeWeight h hedge t.cache {} link.weights

theorem takeLink_eq (h : t.graph.Keyed) (key : String) :
    takeLink key t = t.asWhole (t.deleteLink key) := by
  rw [deleteLink_eq]
  unfold takeLink
  rw [get_bind]
  rcases hedge : t.graph.edges[key]? with _ | edge
  · have hnew : key ∉ t.graph.edges := by simp [Maps.mem_iff_exists, hedge]
    rw [if_neg hnew]
    rfl
  · rw [if_pos (Maps.mem_iff_exists.2 ⟨edge, hedge⟩), call_bind h (outcome_deleteEdge hedge)]
    rfl

end Topology

/-! ## One event -/

namespace Sync

/-- Writes to the topology, if someone takes the event. -/
def write (s : Sync) (taken : Bool) (steps : Topology.Writing Bool) :
    Except ReconcileError Bool × Sync :=
  if taken then
    let (outcome, topology) := steps s.topology
    (outcome, { s with topology })
  else (.ok false, s)

/-- Applies an event step by step. Announcements and segment identifiers never
touch the graph. -/
def applyInPlace (s : Sync) : Event → Except ReconcileError Bool × Sync
  | .addNode node | .updateNode node => s.write s.dispatcher.nodes (Topology.writeNode node)
  | .deleteNode key => s.write s.dispatcher.nodes (Topology.takeNode key)
  | .addLink link => s.write s.dispatcher.links (Topology.writeLink link)
  | .updateLink link => s.write s.dispatcher.links (do
      return (← Topology.writeWeights link).graphChanged)
  | .deleteLink key => s.write s.dispatcher.links (Topology.takeLink key)
  | event => s.apply event

variable {s : Sync}

theorem write_eq {steps : Topology.Writing Bool}
    {change : Topology → Except ReconcileError (Bool × Topology)}
    (h : steps s.topology = s.topology.asWhole (change s.topology)) (taken : Bool) :
    s.write taken steps = s.onTopology taken change := by
  unfold write onTopology
  rw [h]
  rcases change s.topology with e | ⟨changed, t⟩ <;> rfl

/-- Applied step by step, an event comes to the same as if it were applied as
a whole or not at all. -/
theorem applyInPlace_eq (h : s.topology.graph.Keyed) (event : Event) :
    s.applyInPlace event = s.apply event := by
  unfold applyInPlace apply
  cases event with
  | addNode node | updateNode node => exact write_eq (Topology.writeNode_eq h node) _
  | deleteNode key => exact write_eq (Topology.takeNode_eq h key) _
  | addLink link => exact write_eq (Topology.writeLink_eq h link) _
  | updateLink link =>
    apply write_eq
    have hwrite := Topology.writeWeights_eq h link
    rcases hupdate : s.topology.updateLink link with e | ⟨update, t⟩
    · rw [hupdate] at hwrite
      exact bind_of_error hwrite
    · rw [hupdate] at hwrite
      exact bind_of_ok hwrite
  | deleteLink key => exact write_eq (Topology.takeLink_eq h key) _
  | addPrefix | deletePrefix | addSid | deleteSid => rfl

end Sync

end TopologySync
