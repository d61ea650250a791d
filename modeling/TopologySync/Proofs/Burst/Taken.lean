-- What an open burst has come to. Its events are applied one by one, and it
-- knows how many they were and whether one of them changed the graph; nothing
-- else happens before its end.
import TopologySync.Proofs.Burst.Passes
import TopologySync.Proofs.Graph.Incidence
import TopologySync.Proofs.Reconcile.Changes

open Std

namespace TopologySync

/-! ## Events in turn -/

namespace Sync

/-- One of the events tells of a change of the graph, each in its turn. -/
def changes (s : Sync) : List Event → Bool
  | [] => false
  | event :: rest => (s.dispatch event).1 || (s.dispatch event).2.1.changes rest

theorem changes_snoc (s : Sync) (events : List Event) (event : Event) :
    s.changes (events ++ [event]) =
      (s.changes events || ((s.dispatchAll events).dispatch event).1) := by
  induction events generalizing s with
  | nil => simp [changes, dispatchAll]
  | cons first rest ih =>
    rw [List.cons_append, changes, ih, changes, Bool.or_assoc]
    rfl

theorem dispatchAll_snoc (s : Sync) (events : List Event) (event : Event) :
    s.dispatchAll (events ++ [event]) = ((s.dispatchAll events).dispatch event).2.1 :=
  s.dispatchAll_append events [event]

end Sync

/-- No edit of an event rebuilds the subgraphs. -/
theorem Topology.Change.generation {t : Topology} {changed : Bool} {graph : Graph}
    (h : t.Change changed graph) : graph.generation = t.graph.generation := by
  cases h with
  | dropNode h => exact (Graph.sameButEdges_dropEdges _ _).generation
  | _ => rfl

theorem Sync.generation_dispatchAll (s : Sync) (events : List Event) :
    (s.dispatchAll events).topology.graph.generation = s.topology.graph.generation := by
  induction events generalizing s with
  | nil => rfl
  | cons event rest ih => exact (ih _).trans (s.dispatch_change event).generation

/-! ## The open burst -/

namespace Run

variable {ν : Type}

/-- A run in the middle of a burst that has had some events. -/
def busy (p : Processor ν) (events : List Event) : Run ν where
  processor := { p with sync := p.sync.dispatchAll events }
  phase := .burst events.length (p.sync.changes events)

theorem receive_idle (p : Processor ν) (event : Event) :
    (Run.receive { processor := p } event).1 = busy p [event] := by
  simp [receive, busy, Sync.changes, Sync.dispatchAll]

theorem receive_busy (p : Processor ν) (events : List Event) (event : Event) :
    ((busy p events).receive event).1 = busy p (events ++ [event]) := by
  simp [receive, busy, Sync.changes_snoc, Sync.dispatchAll_snoc]

theorem receiveAll_cons (run : Run ν) (event : Event) (rest : List Event) :
    (run.receiveAll (event :: rest)).1 = ((run.receive event).1.receiveAll rest).1 :=
  rfl

theorem receiveAll_busy (p : Processor ν) (events more : List Event) :
    ((busy p events).receiveAll more).1 = busy p (events ++ more) := by
  induction more generalizing events with
  | nil => simp [receiveAll]
  | cons event rest ih =>
    rw [receiveAll_cons, receive_busy, ih, List.append_assoc]
    rfl

theorem receiveAll_idle (p : Processor ν) {events : List Event} (h : events ≠ []) :
    (Run.receiveAll { processor := p } events).1 = busy p events := by
  cases events with
  | nil => exact absurd rfl h
  | cons event rest =>
    rw [receiveAll_cons, receive_idle, receiveAll_busy]
    rfl

end Run

end TopologySync
