-- How one router is present: which records report it, which of them speaks
-- for it, and how the graph shows it. As long as a record speaks for a router,
-- the graph shows what that record says, or does not show the router at all.
import Std.Data.ExtTreeMap
import TopologySync.Event
import TopologySync.Reconcile.Node

open Std

namespace TopologySync

/-! ## One router -/

/-- The record that an event stores. -/
def Event.reported? : Event → Option Node
  | addNode node | updateNode node => some node
  | _ => none

/-- What is known of one router. -/
@[ext]
structure Presence where
  router : String
  /-- The records of the router, by key. -/
  reporters : ExtTreeMap String Node
  /-- The key of the record that speaks for it. -/
  speaker : Option String
  /-- How the graph shows it. -/
  shown : Option GraphNode

namespace Presence

/-- The record that speaks for the router. -/
def voice (p : Presence) : Option Node :=
  p.speaker.bind (fun key => p.reporters[key]?)

/-- The graph node that the router should have. -/
def likeness (p : Presence) : GraphNode :=
  match p.voice with
  | none => .placeholder p.router
  | some node => { id := p.router, name := node.name, algorithms := node.algorithms }

/-- A record reports the router. -/
def report (p : Presence) (node : Node) : Presence :=
  { p with
    reporters := p.reporters.insert node.key node
    speaker := some node.key
    shown := some (Topology.graphNodeOf node) }

/-- A record ceases to report the router. -/
def leave (p : Presence) (key : String) : Presence :=
  { p with
    reporters := p.reporters.erase key
    speaker := if p.speaker = some key then none else p.speaker }

/-- A record of the router is deleted, and with it the node in the graph. -/
def delete (p : Presence) (key : String) : Presence :=
  { p.leave key with shown := none }

/-- A link names the router. -/
def mention (p : Presence) : Presence :=
  { p with shown := p.shown.or (some p.likeness) }

/-- What an event may come to for one router. -/
inductive Step (p : Presence) : Event → Presence → Prop where
  | still {event : Event} : p.Step event p
  | report {event : Event} {node : Node} (hevent : event.reported? = some node)
    (hrouter : node.router = p.router) : p.Step event (p.report node)
  | leave {event : Event} {node : Node} (hevent : event.reported? = some node)
    (hrouter : node.router ≠ p.router) (hmem : node.key ∈ p.reporters) :
    p.Step event (p.leave node.key)
  | delete {key : String} (hmem : key ∈ p.reporters) : p.Step (.deleteNode key) (p.delete key)
  | mention {event : Event} : p.Step event p.mention

/-- A record of the router speaks for it, if any does, and a graph node that
is there shows what that record says. -/
structure Good (p : Presence) : Prop where
  own : ∀ (key : String) node, p.reporters[key]? = some node → node.router = p.router
  speaks : ∀ key, p.speaker = some key → key ∈ p.reporters
  alike : ∀ node shown, p.voice = some node → p.shown = some shown → shown = p.likeness

variable {p p' : Presence}

theorem voice_report (p : Presence) (node : Node) : (p.report node).voice = some node := by
  simp [voice, report]

/-- Whoever goes, the record that speaks is either that one or still there. -/
theorem voice_leave (p : Presence) (key : String) :
    (p.leave key).voice = if p.speaker = some key then none else p.voice := by
  unfold voice leave
  dsimp only
  split
  · rfl
  · rename_i hother
    rcases hspeaker : p.speaker with _ | speaker
    · rfl
    · have hkey : key ≠ speaker := fun heq => hother (by rw [hspeaker, heq])
      simp [ExtTreeMap.getElem?_erase, hkey]

theorem likeness_of_voice {node : Node} (h : p.voice = some node) :
    p.likeness = { id := p.router, name := node.name, algorithms := node.algorithms } := by
  simp [likeness, h]

/-! ## Who speaks is shown -/

theorem good_report (h : p.Good) {node : Node} (hrouter : node.router = p.router) :
    (p.report node).Good where
  own key record hrecord := by
    rw [report, ExtTreeMap.getElem?_insert] at hrecord
    split at hrecord
    · cases hrecord
      exact hrouter
    · exact h.own key record hrecord
  speaks key hkey := by
    cases hkey
    exact ExtTreeMap.mem_insert_self
  alike record shown _ hshown := by
    cases hshown
    rw [likeness_of_voice (voice_report p node), Topology.graphNodeOf, hrouter]
    rfl

theorem good_leave (h : p.Good) (key : String) : (p.leave key).Good where
  own k record hrecord := by
    rw [leave, ExtTreeMap.getElem?_erase] at hrecord
    split at hrecord
    · cases hrecord
    · exact h.own k record hrecord
  speaks k hk := by
    simp only [leave] at hk
    split at hk
    · cases hk
    · rename_i hother
      have hkey : key ≠ k := fun heq => hother (by rw [hk, heq])
      exact ExtTreeMap.mem_erase.2 ⟨by simpa using hkey, h.speaks k hk⟩
  alike record shown hrecord hshown := by
    have hvoice := hrecord
    rw [voice_leave] at hvoice
    split at hvoice
    · cases hvoice
    · rw [likeness_of_voice hrecord]
      exact (h.alike record shown hvoice hshown).trans (likeness_of_voice hvoice)

theorem good_delete (h : p.Good) (key : String) : (p.delete key).Good where
  own := (good_leave h key).own
  speaks := (good_leave h key).speaks
  alike record shown _ hshown := by cases hshown

theorem good_mention (h : p.Good) : p.mention.Good where
  own := h.own
  speaks := h.speaks
  alike record shown hrecord hshown := by
    rcases hknown : p.shown with _ | known
    · rw [mention, hknown] at hshown
      cases hshown
      rfl
    · rw [mention, hknown] at hshown
      cases hshown
      exact h.alike record shown hrecord hknown

theorem good_step {event : Event} (h : p.Good) (hstep : p.Step event p') : p'.Good := by
  cases hstep with
  | still => exact h
  | report hevent hrouter => exact good_report h hrouter
  | leave hevent hrouter hmem => exact good_leave h _
  | delete hmem => exact good_delete h _
  | mention => exact good_mention h

end Presence

end TopologySync
