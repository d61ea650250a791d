-- The law of order. However the hold time, the end of the channel or a
-- request to quit fall among the events, each event that a run receives is
-- applied once and in its turn, and bursts leave no trace but normalized
-- weights and subgraphs.
import TopologySync.Proofs.Burst.Moves
import TopologySync.Proofs.Burst.Passes
import TopologySync.Proofs.Reconcile.Agreement

open Std

namespace TopologySync

/-! ## Passes spare the raw weights -/

theorem Edge.agree_normalize (row : Float × Float × Float) (edge : Edge) :
    (edge.normalize row).Agree WeightKind.isRaw edge := by
  refine ⟨rfl, rfl, rfl, fun kind hkind => ?_⟩
  cases kind with
  | normalizedDelay => cases hkind
  | normalizedJitter => cases hkind
  | normalizedPacketLoss => cases hkind
  | _ => simp [normalize, ExtTreeMap.getElem?_insert]

namespace Graph

theorem agree_normalizeEdge (graph : Graph) (entry : String × Float × Float × Float) :
    (graph.normalizeEdge entry).Agree WeightKind.isRaw graph := by
  refine ⟨rfl, rfl, rfl, fun key => ?_⟩
  simp only [normalizeEdge, ExtTreeMap.getElem?_modify]
  split
  · rename_i hkey
    rw [Std.compare_eq_iff_eq.1 hkey]
    rcases graph.edges[key]? with _ | edge
    · exact .none
    · exact .some (edge.agree_normalize entry.2)
  · exact graph.agree_refl.edges key

theorem agree_normalizeEdges (graph : Graph) (entries : List (String × Float × Float × Float)) :
    (graph.normalizeEdges entries).Agree WeightKind.isRaw graph :=
  List.foldlRecOn (motive := (Agree WeightKind.isRaw · graph)) _ _ graph.agree_refl
    (fun _ h entry _ => agree_trans (agree_normalizeEdge _ entry) h)

theorem agree_mono {kinds kinds' : WeightKind → Prop} {graph graph' : Graph}
    (hkinds : ∀ kind, kinds' kind → kinds kind) (h : graph.Agree kinds graph') :
    graph.Agree kinds' graph' := by
  refine ⟨h.nodes, h.outbound, h.inbound, fun key => ?_⟩
  rcases agree_edge h key with ⟨hnone, hnone'⟩ | ⟨edge, edge', hedge, hedge', hagree⟩
  · rw [hnone, hnone']
    exact .none
  · rw [hedge, hedge']
    exact .some ⟨hagree.key, hagree.source, hagree.target,
      fun kind hkind => hagree.weights kind (hkinds kind hkind)⟩

end Graph

namespace Processor

variable {ν : Type} {kinds : WeightKind → Prop}

/-- Only events write the weights that are compared. -/
def Spares (kinds : WeightKind → Prop) (p : Processor ν) : Prop :=
  p.normalizer = none ∨ ∀ kind, kinds kind → kind.isRaw

theorem spares_finishBurst [Normalizing ν] {p : Processor ν} (h : p.Spares kinds) (events : Nat)
    (owed : Bool) : (p.finishBurst events owed).1.Spares kinds := by
  rcases h with hnone | hraw
  · cases owed with
    | false => exact Or.inl hnone
    | true =>
      rw [finishBurst_none hnone]
      exact Or.inl hnone
  · exact Or.inr hraw

/-- The end of a burst leaves alone what is compared. -/
theorem agree_finishBurst [Normalizing ν] {p : Processor ν} (h : p.Spares kinds) (events : Nat)
    (owed : Bool) : (p.finishBurst events owed).1.sync.Agree kinds p.sync := by
  cases owed with
  | false => exact p.sync.agree_refl
  | true =>
    rcases h with hnone | hraw
    · rw [finishBurst_none hnone]
      exact ⟨rfl, rfl, p.graph.agree_rebuild⟩
    · obtain ⟨entries, hsync⟩ := p.finishBurst_sync events
      rw [hsync]
      refine ⟨rfl, rfl, Graph.agree_trans (Graph.agree_rebuild _) ?_⟩
      exact Graph.agree_mono hraw (p.graph.agree_normalizeEdges entries)

end Processor

/-! ## What a run stands at -/

namespace Run

variable {ν : Type} {kinds : WeightKind → Prop}

/-- The run holds a state, as far as it is compared, and only events lead on. -/
structure Stands (kinds : WeightKind → Prop) (run : Run ν) (s : Sync) : Prop where
  agree : run.processor.sync.Agree kinds s
  spared : run.processor.Spares kinds

theorem stands_start {processor : Processor ν} (h : processor.Spares kinds) :
    Run.Stands kinds { processor } processor.sync :=
  ⟨processor.sync.agree_refl, h⟩

theorem stands_receive {run : Run ν} {s : Sync} (h : run.Stands kinds s)
    (hopen : run.hasEnded = false) (event : Event) :
    (run.receive event).1.Stands kinds (s.dispatch event).2.1 := by
  have hagree := Sync.agree_dispatch h.agree event
  unfold receive
  rcases hphase : run.phase with _ | ⟨events, owed⟩ | _
  · exact ⟨hagree, h.spared⟩
  · exact ⟨hagree, h.spared⟩
  · simp [hasEnded, hphase] at hopen

theorem stands_finish [Normalizing ν] {run : Run ν} {s : Sync} (h : run.Stands kinds s)
    (next : Phase) : (run.finish next).1.Stands kinds s := by
  unfold finish
  split
  · exact ⟨Sync.agree_trans (Processor.agree_finishBurst h.spared _ _) h.agree,
      Processor.spares_finishBurst h.spared _ _⟩
  · exact ⟨h.agree, h.spared⟩

theorem stands_quit {run : Run ν} {s : Sync} (h : run.Stands kinds s) :
    run.quit.1.Stands kinds s := by
  unfold quit
  split
  · exact h
  · exact ⟨h.agree, h.spared⟩

end Run

namespace Channel

variable {ν : Type} [Normalizing ν] {kinds : WeightKind → Prop}

/-- A move applies the event that it hands over, if it hands over one. -/
theorem stands_step {c : Channel ν} {s : Sync} (h : c.run.Stands kinds s) (move : Move) :
    (c.step move).run.Stands kinds (s.dispatchAll (c.hands move)) := by
  cases move with
  | send event =>
    simp only [step]
    split <;> exact h
  | close => exact h
  | take =>
    rcases hended : c.run.hasEnded with _ | _
    · simp only [step, hands, hended, Bool.false_eq_true, if_false]
      unfold take
      rcases c.queue with _ | ⟨event, rest⟩
      · simp only
        split
        · exact Run.keeps_close (Run.Stands kinds · s) (Run.stands_finish h) h
        · exact h
      · exact Run.stands_receive h hended event
    · simp only [step, hands, hended, if_true]
      exact h
  | expire => exact Run.keeps_expire (Run.Stands kinds · s) (Run.stands_finish h) h
  | quit => exact Run.stands_quit h

theorem stands_after {c : Channel ν} {s : Sync} (h : c.run.Stands kinds s) (moves : List Move) :
    (c.after moves).run.Stands kinds (s.dispatchAll (c.received moves)) := by
  induction moves generalizing c s with
  | nil => exact h
  | cons move rest ih =>
    unfold received
    rw [Sync.dispatchAll_append]
    exact ih (stands_step h move)

/-! ## What is sent and what is received -/

theorem queue_step (c : Channel ν) (move : Move) :
    c.queue ++ c.sends move = c.hands move ++ (c.step move).queue := by
  cases move with
  | send event =>
    simp only [sends, hands, step]
    split <;> simp
  | take =>
    rcases hended : c.run.hasEnded with _ | _
    · simp only [sends, hands, step, hended, Bool.false_eq_true, if_false]
      unfold take
      rcases hqueue : c.queue with _ | ⟨event, rest⟩
      · simp only
        split <;> simp [hqueue]
      · simp
    · simp [sends, hands, step, hended]
  | _ => simp [sends, hands, step]

/-- What is sent is received first come, first served. -/
theorem queue_after (c : Channel ν) (moves : List Move) :
    c.queue ++ c.sent moves = c.received moves ++ (c.after moves).queue := by
  induction moves generalizing c with
  | nil => simp [sent, received, after]
  | cons move rest ih =>
    unfold sent received after
    rw [← List.append_assoc, queue_step, List.append_assoc, ih, List.append_assoc]

/-- Only a request to quit ends a run that has events left. -/
theorem drained_step (c : Channel ν) (move : Move) (h : c.run.hasEnded = true → c.queue = [])
    (hquit : move ≠ .quit) :
    (c.step move).run.hasEnded = true → (c.step move).queue = [] := by
  cases move with
  | send event =>
    simp only [step]
    split
    · rename_i hopen
      intro hended
      simp only at hended
      simp [isOpen, hended] at hopen
    · exact h
  | close => exact h
  | take =>
    rcases hended : c.run.hasEnded with _ | _
    · simp only [step, hended, Bool.false_eq_true, if_false]
      unfold take
      rcases hqueue : c.queue with _ | ⟨event, rest⟩
      · simp only
        split
        · exact fun _ => rfl
        · exact fun _ => hqueue
      · intro hafter
        simp [Run.hasEnded_receive, hended] at hafter
    · simp only [step, hended, if_true]
      exact fun _ => h hended
  | expire =>
    simp only [step, Run.hasEnded_expire]
    exact h
  | quit => exact absurd rfl hquit

end Channel

/-! ## The law -/

/-- Whatever the timing, a run comes to what the events that it receives come
to one by one, but for normalized weights if there is a normalizer. It receives
what was sent, first come, first served, and all of it unless it is told to
quit. -/
theorem each_event_is_applied_once_and_in_its_turn {ν : Type} [Normalizing ν] (p : Processor ν)
    (moves : List Channel.Move) :
    let start := Channel.new p
    let left := (start.after moves).run.processor.sync
    let inTurn := p.sync.dispatchAll (start.received moves)
    left.Agree WeightKind.isRaw inTurn ∧
      (p.normalizer = none → left.topology.graph.edges = inTurn.topology.graph.edges) ∧
      start.sent moves = start.received moves ++ (start.after moves).queue ∧
      (.quit ∉ moves → (start.after moves).run.hasEnded = true →
        start.received moves = start.sent moves) ∧
      ∀ moves', start.received moves' = start.received moves →
        let left' := (start.after moves').run.processor.sync
        left.Agree WeightKind.isRaw left' ∧
          (p.normalizer = none → left.topology.graph.edges = left'.topology.graph.edges) := by
  intro start left inTurn
  have hsent : start.sent moves = start.received moves ++ (start.after moves).queue :=
    start.queue_after moves
  have hraw : ∀ moves', (start.after moves').run.Stands WeightKind.isRaw
      (p.sync.dispatchAll (start.received moves')) :=
    Channel.stands_after (Run.stands_start (Or.inr fun _ h => h))
  have hall : p.normalizer = none → ∀ moves', (start.after moves').run.Stands (fun _ => True)
      (p.sync.dispatchAll (start.received moves')) :=
    fun hnone => Channel.stands_after (Run.stands_start (Or.inl hnone))
  refine ⟨(hraw moves).agree, fun hnone => ?_, hsent, fun hquit hended => ?_,
    fun moves' hsame => ⟨?_, fun hnone => ?_⟩⟩
  · exact Graph.edges_eq_of_agree (hall hnone moves).agree.topology.graph
  · have hdrained : (start.after moves).run.hasEnded = true → (start.after moves).queue = [] :=
      Channel.keeps_after _ Channel.drained_step (fun hnew => by cases hnew) hquit
    have hqueue := hdrained hended
    rw [hsent, hqueue, List.append_nil]
  · have hagree' := (hraw moves').agree
    rw [hsame] at hagree'
    exact Sync.agree_trans (hraw moves).agree (Sync.agree_symm hagree')
  · have hagree' := (hall hnone moves').agree
    rw [hsame] at hagree'
    exact Graph.edges_eq_of_agree
      (Sync.agree_trans (hall hnone moves).agree (Sync.agree_symm hagree')).topology.graph

/-- Two events in two bursts, and the same two in one. -/
theorem two_bursts_come_to_the_same_as_one :
    let p : Processor := {}
    let node : Event := .addNode { key := "a", router := "r1" }
    let announcement : Event :=
      .addPrefix { key := "p", router := "r1", address := "::", length := 64 }
    let two : List Channel.Move :=
      [.send node, .take, .expire, .send announcement, .take, .close, .take]
    let one : List Channel.Move := [.send node, .send announcement, .take, .take, .expire]
    p.normalizer = none ∧ .quit ∉ two ∧ ((Channel.new p).after two).run.hasEnded = true ∧
      (Channel.new p).received one = (Channel.new p).received two ∧
      (Channel.new p).received two = [node, announcement] ∧
      (Channel.new p).received two = (Channel.new p).sent two ∧
      ((Channel.new p).after two).run.processor.sync.Agree WeightKind.isRaw
        ((Channel.new p).after one).run.processor.sync ∧
      ((Channel.new p).after two).run.processor.sync.topology.graph.edges =
        ((Channel.new p).after one).run.processor.sync.topology.graph.edges := by
  intro p node announcement two one
  have hquit : .quit ∉ two := by decide
  have hended : ((Channel.new p).after two).run.hasEnded = true := by decide +kernel
  have hsame : (Channel.new p).received one = (Channel.new p).received two := by decide +kernel
  have hboth : (Channel.new p).received two = [node, announcement] := by decide +kernel
  obtain ⟨-, -, -, hsent, htimings⟩ := each_event_is_applied_once_and_in_its_turn p two
  obtain ⟨hagree, hedges⟩ := htimings one hsame
  exact ⟨rfl, hquit, hended, hsame, hboth, hsent hquit hended, hagree, hedges rfl⟩

end TopologySync
