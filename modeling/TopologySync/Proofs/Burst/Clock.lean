-- A run against the clock. Between two bursts a run rests, whatever time it
-- is; in a burst each event sets the deadline anew, and once the clock has
-- come to the deadline the burst is over.
import TopologySync.Burst.Timeline
import TopologySync.Proofs.Burst.Taken

open Std

namespace TopologySync

/-- An event that comes at a moment, in milliseconds from the start. -/
structure Arrival where
  moment : Nat
  event : Event

/-! ## The end of a burst -/

namespace Processor

variable {ν : Type} [Normalizing ν]

/-- How often the subgraphs were rebuilt, and how often that was signalled. -/
def tally (p : Processor ν) : Nat × Nat :=
  (p.graph.generation, p.signals)

/-- What a burst makes of a processor, its end included. -/
def afterBurst (p : Processor ν) (events : List Event) : Processor ν :=
  ({ p with sync := p.sync.dispatchAll events }.finishBurst events.length
    (p.sync.changes events)).1

omit [Normalizing ν] in
theorem observe_keeps (p : Processor ν) (raw : Series) :
    (p.observe raw).1.holdTime = p.holdTime ∧ (p.observe raw).1.signals = p.signals := by
  unfold observe
  split
  · exact ⟨rfl, rfl⟩
  · split <;> exact ⟨rfl, rfl⟩

theorem renormalize_keeps (p : Processor ν) :
    p.renormalize.1.holdTime = p.holdTime ∧ p.renormalize.1.signals = p.signals := by
  unfold renormalize
  split
  · exact ⟨rfl, rfl⟩
  · split
    · exact ⟨rfl, rfl⟩
    · exact ⟨rfl, rfl⟩
    · exact observe_keeps _ _

theorem holdTime_afterBurst (p : Processor ν) (events : List Event) :
    (p.afterBurst events).holdTime = p.holdTime := by
  unfold afterBurst finishBurst
  split
  · exact (renormalize_keeps _).1
  · rfl

theorem generation_normalizeEdges (graph : Graph)
    (entries : List (String × Float × Float × Float)) :
    (graph.normalizeEdges entries).generation = graph.generation :=
  List.foldlRecOn (motive := fun g : Graph => g.generation = graph.generation) _ _ rfl
    (fun _ h _ _ => h)

/-- A burst that changed the graph ends with a pass over the edges and a rebuild,
and no other one does. -/
theorem graph_afterBurst (p : Processor ν) (events : List Event) :
    let taken := (p.sync.dispatchAll events).topology.graph
    p.sync.changes events = false ∧ (p.afterBurst events).graph = taken ∨
      p.sync.changes events = true ∧
        ∃ entries, (p.afterBurst events).graph = (taken.normalizeEdges entries).rebuild := by
  intro taken
  unfold afterBurst
  rcases p.sync.changes events with _ | _
  · exact Or.inl ⟨rfl, rfl⟩
  · obtain ⟨entries, hsync⟩ :=
      finishBurst_sync { p with sync := p.sync.dispatchAll events } events.length
    exact Or.inr ⟨rfl, entries, congrArg (·.topology.graph) hsync⟩

/-- The end of a burst makes the rebuild that it owes and signals it once. If it
owes none, it does neither. -/
theorem tally_finishBurst (p : Processor ν) (events : Nat) (owed : Bool) :
    (p.finishBurst events owed).1.tally =
      (p.graph.generation + owed.toNat, p.signals + owed.toNat) := by
  cases owed with
  | false => rfl
  | true =>
    obtain ⟨entries, hsync⟩ := p.finishBurst_sync events
    have hgraph : (p.finishBurst events true).1.graph = (p.graph.normalizeEdges entries).rebuild :=
      congrArg (·.topology.graph) hsync
    have hgeneration : (p.finishBurst events true).1.graph.generation =
        p.graph.generation + 1 := by
      rw [hgraph, Graph.rebuild, generation_normalizeEdges]
    have hsignals : (p.finishBurst events true).1.signals = p.signals + 1 :=
      congrArg (· + 1) p.renormalize_keeps.2
    exact Prod.ext hgeneration hsignals

theorem tally_afterBurst (p : Processor ν) (events : List Event) :
    let owed := (p.sync.changes events).toNat
    (p.afterBurst events).tally = (p.graph.generation + owed, p.signals + owed) := by
  have htaken := p.sync.generation_dispatchAll events
  unfold afterBurst
  rw [tally_finishBurst, graph, htaken]
  rfl

end Processor

/-! ## Rest and work -/

namespace Timeline

variable {ν : Type} [Normalizing ν]

/-- Lets time pass until a moment. -/
def passTo (t : Timeline ν) (moment : Nat) : Timeline ν :=
  (t.sleep (moment - t.now)).1

/-- Takes an event at its moment. -/
def meet (t : Timeline ν) (a : Arrival) : Timeline ν :=
  (((t.passTo a.moment).enqueue [a.event]).settle).1

/-- Takes events in turn, each at its moment. -/
def meetAll (t : Timeline ν) (arrivals : List Arrival) : Timeline ν :=
  arrivals.foldl meet t

omit [Normalizing ν] in
/-- A run between two bursts. -/
def resting (p : Processor ν) (now deadline : Nat) : Timeline ν :=
  { run := { processor := p }, now, deadline, started := true }

/-- A run in the middle of a burst. -/
def occupied (p : Processor ν) (events : List Event) (now deadline : Nat) : Timeline ν :=
  { run := .busy p events, now, deadline, started := true }

variable {p : Processor ν} {events : List Event} {now deadline moment : Nat}

/-! ## Nothing to take -/

theorem settle_resting (p : Processor ν) (now deadline : Nat) :
    (resting p now deadline).settle.1 = resting p now deadline := by
  simp [settle, resting, isRunning, Run.hasEnded, drain, expire, Run.expire, Run.isLocked]

theorem settle_occupied (h : now < deadline) :
    (occupied p events now deadline).settle.1 = occupied p events now deadline := by
  simp [settle, occupied, isRunning, Run.hasEnded, Run.busy, drain, expire, Nat.not_le.2 h]

/-- The deadline has come, and the burst is over. -/
theorem settle_overdue (h : deadline ≤ now) :
    (occupied p events now deadline).settle.1 = resting (p.afterBurst events) now deadline := by
  simp [settle, occupied, isRunning, Run.hasEnded, Run.busy, drain, expire, h, Run.expire,
    Run.isLocked, Run.finish, resting, Processor.afterBurst]

theorem start_new (p : Processor ν) : (Timeline.new p).start.1 = resting p 0 0 :=
  settle_resting p 0 0

theorem passTo_resting (h : now ≤ moment) :
    (resting p now deadline).passTo moment = resting p moment deadline := by
  have hpass : (resting p now deadline).passTo moment =
      (resting p (now + (moment - now)) deadline).settle.1 := rfl
  rw [hpass, Nat.add_sub_of_le h, settle_resting]

theorem passTo_occupied (h : now ≤ moment) (hearly : moment < deadline) :
    (occupied p events now deadline).passTo moment = occupied p events moment deadline := by
  have hpass : (occupied p events now deadline).passTo moment =
      (occupied p events (now + (moment - now)) deadline).settle.1 := rfl
  rw [hpass, Nat.add_sub_of_le h, settle_occupied hearly]

theorem passTo_overdue (h : now ≤ moment) (hlate : deadline ≤ moment) :
    (occupied p events now deadline).passTo moment =
      resting (p.afterBurst events) moment deadline := by
  have hpass : (occupied p events now deadline).passTo moment =
      (occupied p events (now + (moment - now)) deadline).settle.1 := rfl
  rw [hpass, Nat.add_sub_of_le h, settle_overdue hlate]

/-! ## One event -/

/-- What waits in the queue is taken, and sets the deadline. -/
theorem settle_queue (run : Run ν) (hopen : run.hasEnded = false)
    (hhold : 0 < run.processor.holdTime) {queue : List Event} (hqueue : queue ≠ [])
    (now deadline : Nat) :
    (Timeline.settle { run, now, deadline, queue, started := true }).1 =
      { run := (run.receiveAll queue).1, now, deadline := now + run.processor.holdTime,
        started := true } := by
  have hlater : ¬ now + run.processor.holdTime ≤ now := by omega
  simp [settle, isRunning, drain, expire, processor, hopen, hqueue, hlater]

/-- An event opens a burst, if the run rests when it comes. -/
theorem meet_resting (hhold : 0 < p.holdTime) {t : Timeline ν} {a : Arrival}
    (h : t.passTo a.moment = resting p a.moment deadline) :
    t.meet a = occupied p [a.event] a.moment (a.moment + p.holdTime) := by
  have hsome : [a.event] ≠ [] := List.cons_ne_nil _ _
  have hsettle := settle_queue { processor := p } rfl hhold hsome a.moment deadline
  rw [Run.receiveAll_idle p hsome] at hsettle
  unfold meet
  rw [h]
  exact hsettle

/-- An event goes to the open burst, and its end moves on. -/
theorem meet_occupied (hhold : 0 < p.holdTime) {a : Arrival} (h : now ≤ a.moment)
    (hearly : a.moment < deadline) :
    (occupied p events now deadline).meet a =
      occupied p (events ++ [a.event]) a.moment (a.moment + p.holdTime) := by
  have hsome : [a.event] ≠ [] := List.cons_ne_nil _ _
  have hsettle := settle_queue (.busy p events) rfl hhold hsome a.moment deadline
  rw [Run.receiveAll_busy] at hsettle
  unfold meet
  rw [passTo_occupied h hearly]
  exact hsettle

/-! ## No more events -/

theorem close_resting (p : Processor ν) (now deadline : Nat) :
    (resting p now deadline).close.settle.1.run = { processor := p, phase := .ended } := by
  simp [settle, resting, close, isRunning, Run.hasEnded, drain, Run.close, Run.finish]

/-- The end of the channel ends the burst before its time. -/
theorem close_occupied (p : Processor ν) (events : List Event) (now deadline : Nat) :
    (occupied p events now deadline).close.settle.1.run =
      { processor := p.afterBurst events, phase := .ended } := by
  simp [settle, occupied, close, isRunning, Run.hasEnded, Run.busy, drain, Run.close, Run.finish,
    Processor.afterBurst]

end Timeline

end TopologySync
