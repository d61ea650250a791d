-- The law of quiet. Bursts are the longest runs of events with gaps shorter
-- than the hold time: each is held from its first event to the hold time after
-- its last, and rebuilds and signals once if it changed the graph.
import Mathlib.Data.List.SplitBy
import TopologySync.Fixtures
import TopologySync.Proofs.Burst.Clock
import TopologySync.Proofs.Burst.Freshness
import TopologySync.Proofs.Reconcile.Notice

open Std

namespace TopologySync

/-! ## Arrivals and their bursts -/

/-- The later of two events comes before the hold time of the earlier is over. -/
def Arrival.within (hold : Nat) (a b : Arrival) : Bool :=
  b.moment < a.moment + hold

theorem Arrival.within_iff {hold : Nat} {a b : Arrival} :
    a.within hold b = true ↔ b.moment < a.moment + hold :=
  decide_eq_true_iff

theorem Arrival.not_within_iff {hold : Nat} {a b : Arrival} :
    a.within hold b = false ↔ a.moment + hold ≤ b.moment :=
  decide_eq_false_iff_not.trans Nat.not_lt

/-- Arrivals in the order of their moments, cut wherever it is quiet for the
hold time. -/
def burstsOf (hold : Nat) (arrivals : List Arrival) : List (List Arrival) :=
  arrivals.splitBy (Arrival.within hold)

/-- Arrivals in the order of their moments. -/
def InOrder (arrivals : List Arrival) : Prop :=
  arrivals.Pairwise (fun a b => a.moment ≤ b.moment)

theorem InOrder.le_last {arrivals : List Arrival} (h : InOrder arrivals) (hsome : arrivals ≠ [])
    {a : Arrival} (hmem : a ∈ arrivals) : a.moment ≤ (arrivals.getLast hsome).moment := by
  rw [← List.dropLast_append_getLast hsome] at h hmem
  rcases List.mem_append.1 hmem with hearlier | hlast
  · exact (List.pairwise_append.1 h).2.2 a hearlier _ (List.mem_singleton_self _)
  · rw [List.mem_singleton.1 hlast]

/-- A moment parts what came by then from what comes later. -/
theorem InOrder.part {arrivals : List Arrival} (h : InOrder arrivals) (m : Nat) :
    ∃ later, arrivals = arrivals.filter (·.moment ≤ m) ++ later ∧ ∀ a ∈ later, m < a.moment := by
  induction arrivals with
  | nil => exact ⟨[], rfl, fun a hmem => by cases hmem⟩
  | cons first rest ih =>
    obtain ⟨hfirst, hrest⟩ := List.pairwise_cons.1 h
    by_cases hcame : first.moment ≤ m
    · obtain ⟨later, hsplit, hlater⟩ := ih hrest
      refine ⟨later, ?_, hlater⟩
      rw [List.filter_cons_of_pos (by simpa using hcame), List.cons_append, ← hsplit]
    · have hlater : ∀ a ∈ first :: rest, m < a.moment := by
        intro a hmem
        rcases List.mem_cons.1 hmem with rfl | hmem
        · omega
        · have := hfirst a hmem
          omega
      have hnone : (first :: rest).filter (·.moment ≤ m) = [] :=
        List.filter_eq_nil_iff.2 fun a hmem => by simpa using hlater a hmem
      exact ⟨first :: rest, by rw [hnone, List.nil_append], hlater⟩

/-- The part of a burst that came by a moment is a burst of its own, and it is
still open as long as the whole one is. -/
theorem open_part {hold m : Nat} {first : Arrival} {rest : List Arrival}
    (horder : InOrder (first :: rest))
    (hchain : (first :: rest).IsChain (fun a b => a.within hold b))
    (hfirst : first.moment ≤ m)
    (hlast : m < ((first :: rest).getLast (List.cons_ne_nil _ _)).moment + hold) :
    ∃ tail, (first :: rest).filter (·.moment ≤ m) = first :: tail ∧ InOrder (first :: tail) ∧
      (first :: tail).IsChain (fun a b => a.within hold b) ∧
      let last := (first :: tail).getLast (List.cons_ne_nil _ _)
      last.moment ≤ m ∧ m < last.moment + hold := by
  have hcame : (first :: rest).filter (·.moment ≤ m) = first :: rest.filter (·.moment ≤ m) :=
    List.filter_cons_of_pos (by simpa using hfirst)
  obtain ⟨later, hsplit, hlater⟩ := horder.part m
  have hpast : ∀ a ∈ (first :: rest).filter (·.moment ≤ m), a.moment ≤ m := fun a hmem => by
    simpa using List.of_mem_filter hmem
  rw [hcame] at hsplit hpast
  generalize rest.filter (·.moment ≤ m) = tail at hcame hsplit hpast
  have horder' := horder
  have hchain' := hchain
  rw [InOrder, hsplit] at horder'
  rw [hsplit] at hchain'
  refine ⟨tail, hcame, (List.pairwise_append.1 horder').1, hchain'.left_of_append,
    hpast _ (List.getLast_mem _), ?_⟩
  rcases later with _ | ⟨next, others⟩
  · simp only [hsplit, List.append_nil] at hlast
    exact hlast
  · have hwithin := hchain'.rel_getLast_head_of_append (List.cons_ne_nil first tail)
      (List.cons_ne_nil next others)
    exact Nat.lt_trans (hlater next List.mem_cons_self) (Arrival.within_iff.1 hwithin)

/-- Bursts that come one after the other once a moment is reached, and the
moment when the last of them is over. -/
inductive Spaced (hold : Nat) : Nat → List (List Arrival) → Nat → Prop where
  | nil (free : Nat) : Spaced hold free [] free
  | cons {free freed : Nat} {first : Arrival} {rest : List Arrival} {bursts : List (List Arrival)}
    (hfree : free ≤ first.moment) (horder : InOrder (first :: rest))
    (hchain : (first :: rest).IsChain (fun a b => a.within hold b))
    (hbursts : Spaced hold (((first :: rest).getLast (List.cons_ne_nil _ _)).moment + hold)
      bursts freed) :
    Spaced hold free ((first :: rest) :: bursts) freed

namespace Spaced

variable {hold free freed : Nat} {bursts before after : List (List Arrival)}

/-- The cuts are where it is quiet. -/
theorem of_cuts (hnil : [] ∉ bursts)
    (hchains : ∀ burst ∈ bursts, burst.IsChain (fun a b => a.within hold b))
    (hcuts : bursts.IsChain (fun a b =>
      ∃ ha hb, Arrival.within hold (a.getLast ha) (b.head hb) = false))
    (horder : InOrder bursts.flatten)
    (hfree : ∀ first ∈ bursts.flatten.head?, free ≤ first.moment) :
    ∃ freed, Spaced hold free bursts freed := by
  induction bursts generalizing free with
  | nil => exact ⟨free, .nil free⟩
  | cons burst bursts ih =>
    rcases burst with _ | ⟨first, rest⟩
    · exact absurd List.mem_cons_self hnil
    · rw [List.flatten_cons, InOrder, List.pairwise_append] at horder
      have hnil' : [] ∉ bursts := fun hmem => hnil (List.mem_cons_of_mem _ hmem)
      have hnext : ∀ next ∈ bursts.flatten.head?,
          ((first :: rest).getLast (List.cons_ne_nil _ _)).moment + hold ≤ next.moment := by
        intro next hnext
        rcases bursts with _ | ⟨_ | ⟨next', others⟩, bursts⟩
        · cases hnext
        · exact absurd List.mem_cons_self hnil'
        · cases hnext
          obtain ⟨_, _, hquiet⟩ := (List.isChain_cons_cons.1 hcuts).1
          exact Arrival.not_within_iff.1 hquiet
      obtain ⟨freed, hbursts⟩ := ih hnil'
        (fun burst hmem => hchains burst (List.mem_cons_of_mem _ hmem)) hcuts.tail horder.2.1 hnext
      exact ⟨freed, .cons (hfree first rfl) horder.1 (hchains _ List.mem_cons_self) hbursts⟩

theorem split {burst : List Arrival}
    (h : Spaced hold free (before ++ burst :: after) freed) :
    ∃ between, Spaced hold free before between ∧ Spaced hold between (burst :: after) freed := by
  induction before generalizing free with
  | nil => exact ⟨free, .nil free, h⟩
  | cons earlier before ih =>
    cases h with
    | cons hfree horder hchain hbursts =>
      obtain ⟨between, hbefore, hafter⟩ := ih hbursts
      exact ⟨between, .cons hfree horder hchain hbefore, hafter⟩

theorem inOrder {burst : List Arrival}
    (h : Spaced hold free (before ++ burst :: after) freed) : InOrder burst := by
  obtain ⟨between, hbefore, hburst⟩ := h.split
  cases hburst with
  | cons hfree horder hchain hafter => exact horder

theorem le_freed (h : Spaced hold free bursts freed) : free ≤ freed := by
  induction h with
  | nil => exact Nat.le_refl _
  | cons hfree horder hchain hbursts ih =>
    have hlast := horder.le_last (List.cons_ne_nil _ _) List.mem_cons_self
    omega

/-- Whatever comes, comes once the moment is reached, and is over in the end. -/
theorem moments (h : Spaced hold free bursts freed) :
    ∀ a ∈ bursts.flatten, free ≤ a.moment ∧ a.moment + hold ≤ freed := by
  induction h with
  | nil => exact fun a hmem => by cases hmem
  | @cons free freed first rest bursts hfree horder hchain hbursts ih =>
    intro a hmem
    have hfreed := hbursts.le_freed
    have hfirst := horder.le_last (List.cons_ne_nil first rest) List.mem_cons_self
    rcases List.mem_append.1 hmem with hburst | hlater
    · have hlast := horder.le_last (List.cons_ne_nil first rest) hburst
      have hearliest : first.moment ≤ a.moment := by
        rcases List.mem_cons.1 hburst with rfl | hrest
        · exact Nat.le_refl _
        · exact (List.pairwise_cons.1 horder).1 a hrest
      omega
    · have hbounds := ih a hlater
      omega

end Spaced

/-! ## A run over bursts -/

namespace Timeline

variable {ν : Type} [Normalizing ν] {p : Processor ν} {t : Timeline ν}

theorem meetAll_append (t : Timeline ν) (arrivals more : List Arrival) :
    t.meetAll (arrivals ++ more) = (t.meetAll arrivals).meetAll more :=
  List.foldl_append

/-- Events with short gaps all go to the open burst. -/
theorem meetAll_occupied (hhold : 0 < p.holdTime) {a : Arrival} {rest : List Arrival}
    (horder : InOrder (a :: rest)) (hchain : (a :: rest).IsChain (fun a b => a.within p.holdTime b))
    (events : List Event) :
    (occupied p events a.moment (a.moment + p.holdTime)).meetAll rest =
      let last := (a :: rest).getLast (List.cons_ne_nil _ _)
      occupied p (events ++ rest.map Arrival.event) last.moment (last.moment + p.holdTime) := by
  induction rest generalizing a events with
  | nil => simp [meetAll]
  | cons b rest ih =>
    obtain ⟨hwithin, hchain⟩ := List.isChain_cons_cons.1 hchain
    obtain ⟨hfirst, horder⟩ := List.pairwise_cons.1 horder
    rw [meetAll, List.foldl_cons,
      meet_occupied hhold (hfirst b List.mem_cons_self) (Arrival.within_iff.1 hwithin)]
    refine (ih horder hchain _).trans ?_
    simp

/-- A burst that opens while the run rests. -/
theorem meetAll_burst (hhold : 0 < p.holdTime) {first : Arrival} {rest : List Arrival}
    {deadline : Nat} (hready : t.passTo first.moment = resting p first.moment deadline)
    (horder : InOrder (first :: rest))
    (hchain : (first :: rest).IsChain (fun a b => a.within p.holdTime b)) :
    t.meetAll (first :: rest) =
      let last := (first :: rest).getLast (List.cons_ne_nil _ _)
      occupied p ((first :: rest).map Arrival.event) last.moment (last.moment + p.holdTime) := by
  rw [meetAll, List.foldl_cons, meet_resting hhold hready]
  exact meetAll_occupied hhold horder hchain [first.event]

end Timeline

/-- What bursts make of a processor, one after the other. -/
def Processor.afterBursts {ν : Type} [Normalizing ν] (p : Processor ν)
    (bursts : List (List Arrival)) : Processor ν :=
  bursts.foldl (fun p burst => p.afterBurst (burst.map Arrival.event)) p

theorem Processor.holdTime_afterBursts {ν : Type} [Normalizing ν] (p : Processor ν)
    (bursts : List (List Arrival)) : (p.afterBursts bursts).holdTime = p.holdTime :=
  List.foldlRecOn (motive := fun q : Processor ν => q.holdTime = p.holdTime) _ _ rfl
    (fun q h _ _ => (q.holdTime_afterBurst _).trans h)

namespace Timeline

variable {ν : Type} [Normalizing ν]

/-- After each burst the run rests until the next one. -/
theorem meetAll_spaced {hold free freed : Nat} {bursts : List (List Arrival)}
    (h : Spaced hold free bursts freed) (hhold : 0 < hold) {p : Processor ν}
    (hp : p.holdTime = hold) {t : Timeline ν}
    (hready : ∀ m, free ≤ m → ∃ deadline, t.passTo m = resting p m deadline) :
    ∀ m, freed ≤ m → ∃ deadline,
      (t.meetAll bursts.flatten).passTo m = resting (p.afterBursts bursts) m deadline := by
  induction h generalizing p t with
  | nil => exact hready
  | @cons free freed first rest bursts hfree horder hchain hbursts ih =>
    subst hp
    obtain ⟨deadline, hrest⟩ := hready first.moment hfree
    have hburst := meetAll_burst hhold hrest horder hchain
    rw [List.flatten_cons, meetAll_append, hburst]
    refine ih (p.holdTime_afterBurst _) (fun m hm => ⟨_, passTo_overdue ?_ hm⟩)
    omega

end Timeline

/-! ## Bursts that change the graph -/

/-- Events tell of a change if and only if one of them, in its turn, made one. -/
theorem Sync.changes_iff {s : Sync} (hkeyed : s.topology.graph.Keyed) {events : List Event}
    (hnumeric : ∀ event ∈ events, event.Numeric) :
    s.changes events = true ↔ ∃ before event after, events = before ++ event :: after ∧
      ¬ (s.dispatchAll before).topology.graph.Same
        (s.dispatchAll (before ++ [event])).topology.graph := by
  induction events generalizing s with
  | nil => simp [changes]
  | cons first rest ih =>
    have hfirst : (s.dispatch first).1 = true ↔
        ¬ s.topology.graph.Same (s.dispatch first).2.1.topology.graph := by
      refine ⟨dispatch_differs hkeyed (hnumeric first List.mem_cons_self), fun hdiffers => ?_⟩
      by_contra hquiet
      rw [dispatch_unchanged (Bool.eq_false_of_not_eq_true hquiet)] at hdiffers
      exact hdiffers s.topology.graph.same_refl
    rw [changes, Bool.or_eq_true, hfirst, ih (dispatch_keyed hkeyed first)
      (fun event hmem => hnumeric event (List.mem_cons_of_mem first hmem))]
    constructor
    · rintro (hdiffers | ⟨before, event, after, rfl, hdiffers⟩)
      · exact ⟨[], first, rest, rfl, hdiffers⟩
      · exact ⟨first :: before, event, after, rfl, hdiffers⟩
    · rintro ⟨before, event, after, hsplit, hdiffers⟩
      cases before with
      | nil =>
        cases hsplit
        exact Or.inl hdiffers
      | cons other before =>
        cases hsplit
        exact Or.inr ⟨before, event, after, rfl, hdiffers⟩

theorem Processor.keyed_afterBursts {ν : Type} [Normalizing ν] {p : Processor ν}
    (h : p.graph.Keyed) (bursts : List (List Arrival)) : (p.afterBursts bursts).graph.Keyed := by
  refine List.foldlRecOn (motive := fun q : Processor ν => q.graph.Keyed) _ _ h ?_
  intro q hq burst _
  have htaken := Sync.keyed_dispatchAll hq (burst.map Arrival.event)
  rcases q.graph_afterBurst (burst.map Arrival.event) with ⟨_, hgraph⟩ | ⟨_, entries, hgraph⟩
  · rw [hgraph]
    exact htaken
  · rw [hgraph]
    exact Graph.keyed_rebuild (Graph.keyed_normalizeEdges htaken entries)

/-! ## The run at a moment -/

namespace Processor

variable {ν : Type} [Normalizing ν]

/-- The run of a processor at a moment, with all that came by then. -/
def stateAt (p : Processor ν) (arrivals : List Arrival) (m : Nat) : Timeline ν :=
  ((Timeline.new p).start.1.meetAll (arrivals.filter (·.moment ≤ m))).passTo m

/-- The run after the channel is closed at a moment. -/
def closedAt (p : Processor ν) (arrivals : List Arrival) (m : Nat) : Timeline ν :=
  (p.stateAt arrivals m).close.settle.1

variable {p : Processor ν} {arrivals : List Arrival} {m : Nat}

theorem stateAt_early (h : ∀ a ∈ arrivals, m < a.moment) :
    p.stateAt arrivals m = Timeline.resting p m 0 := by
  have hnone : arrivals.filter (·.moment ≤ m) = [] :=
    List.filter_eq_nil_iff.2 fun a hmem => by simpa using h a hmem
  rw [stateAt, hnone, Timeline.start_new]
  exact Timeline.passTo_resting (Nat.zero_le m)

variable {between freed : Nat} {before after : List (List Arrival)} {first : Arrival}
  {rest : List Arrival}

/-- Behind earlier bursts the run rests until the next one. -/
theorem ready_behind (hhold : 0 < p.holdTime) (h : Spaced p.holdTime 0 before between) :
    ∀ m, between ≤ m → ∃ deadline, ((Timeline.new p).start.1.meetAll before.flatten).passTo m =
      Timeline.resting (p.afterBursts before) m deadline := by
  apply Timeline.meetAll_spaced h hhold rfl
  intro m _
  rw [Timeline.start_new]
  exact ⟨0, Timeline.passTo_resting (Nat.zero_le m)⟩

/-- What came by a moment that no later burst has reached. -/
theorem stateAt_eq {burst : List Arrival} (hbefore : ∀ a ∈ before.flatten, a.moment ≤ m)
    (hafter : ∀ a ∈ after.flatten, m < a.moment) :
    p.stateAt (before ++ burst :: after).flatten m =
      (((Timeline.new p).start.1.meetAll before.flatten).meetAll
        (burst.filter (·.moment ≤ m))).passTo m := by
  have hall : before.flatten.filter (·.moment ≤ m) = before.flatten :=
    List.filter_eq_self.2 fun a hmem => by simpa using hbefore a hmem
  have hnone : after.flatten.filter (·.moment ≤ m) = [] :=
    List.filter_eq_nil_iff.2 fun a hmem => by simpa using hafter a hmem
  rw [stateAt, List.flatten_append, List.flatten_cons, List.filter_append, List.filter_append,
    hall, hnone, List.append_nil, Timeline.meetAll_append]

/-- While a burst is open, the run has what came of it so far. -/
theorem stateAt_during (hhold : 0 < p.holdTime)
    (h : Spaced p.holdTime 0 (before ++ (first :: rest) :: after) freed)
    (hfirst : first.moment ≤ m)
    (hlast : m < ((first :: rest).getLast (List.cons_ne_nil _ _)).moment + p.holdTime) :
    ∃ deadline, p.stateAt (before ++ (first :: rest) :: after).flatten m =
      Timeline.occupied (p.afterBursts before)
        (((first :: rest).filter (·.moment ≤ m)).map Arrival.event) m deadline := by
  obtain ⟨between, hbefore, hburst⟩ := h.split
  cases hburst with
  | cons hfree horder hchain hafter =>
    have hpast : ∀ a ∈ before.flatten, a.moment ≤ m := fun a hmem => by
      have := (hbefore.moments a hmem).2
      omega
    have hfuture : ∀ a ∈ after.flatten, m < a.moment := fun a hmem => by
      have := (hafter.moments a hmem).1
      omega
    rw [stateAt_eq hpast hfuture]
    obtain ⟨deadline, hready⟩ := ready_behind hhold hbefore first.moment hfree
    obtain ⟨tail, hcame, horder', hchain', hpast', hopen⟩ := open_part horder hchain hfirst hlast
    rw [← p.holdTime_afterBursts before] at hhold hchain' hopen
    rw [hcame, Timeline.meetAll_burst hhold hready horder' hchain']
    exact ⟨_, Timeline.passTo_occupied hpast' hopen⟩

/-- With the hold time over, the burst has ended. -/
theorem stateAt_between (hhold : 0 < p.holdTime)
    (h : Spaced p.holdTime 0 (before ++ (first :: rest) :: after) freed)
    (hlast : ((first :: rest).getLast (List.cons_ne_nil _ _)).moment + p.holdTime ≤ m)
    (hnext : ∀ a ∈ after.flatten, m < a.moment) :
    ∃ deadline, p.stateAt (before ++ (first :: rest) :: after).flatten m =
      Timeline.resting ((p.afterBursts before).afterBurst ((first :: rest).map Arrival.event)) m
        deadline := by
  obtain ⟨between, hbefore, hburst⟩ := h.split
  cases hburst with
  | cons hfree horder hchain hafter =>
    have hpast : ∀ a ∈ first :: rest, a.moment ≤ m := fun a hmem => by
      have := horder.le_last (List.cons_ne_nil first rest) hmem
      omega
    have hearlier : ∀ a ∈ before.flatten, a.moment ≤ m := fun a hmem => by
      have := (hbefore.moments a hmem).2
      have := hpast first List.mem_cons_self
      omega
    have hall : (first :: rest).filter (·.moment ≤ m) = first :: rest :=
      List.filter_eq_self.2 fun a hmem => by simpa using hpast a hmem
    obtain ⟨deadline, hready⟩ := ready_behind hhold hbefore first.moment hfree
    rw [← p.holdTime_afterBursts before] at hhold hchain hlast
    rw [stateAt_eq hearlier hnext, hall, Timeline.meetAll_burst hhold hready horder hchain]
    exact ⟨_, Timeline.passTo_overdue (hpast _ (List.getLast_mem _)) hlast⟩

omit [Normalizing ν] in
theorem tally_busy (p : Processor ν) (events : List Event) :
    (Run.busy p events).processor.tally = p.tally :=
  congrArg (·, p.signals) (p.sync.generation_dispatchAll events)

/-- What a run does about one burst, which finds a processor as it is at the
start and has other arrivals behind it. -/
structure Serves (p : Processor ν) (arrivals : List Arrival) (start : Processor ν)
    (burst behind : List Arrival) : Prop where
  /-- From the first event on, cache and graph are held until the hold time
  after the last one, and nothing is rebuilt or signalled. -/
  held : ∀ first ∈ burst.head?, ∀ last ∈ burst.getLast?, ∀ m, first.moment ≤ m →
    m < last.moment + p.holdTime →
      let run := (p.stateAt arrivals m).run
      run = .busy start ((burst.filter (·.moment ≤ m)).map Arrival.event) ∧
        run.isLocked = true ∧ run.processor.tally = start.tally
  /-- Then they are free until the next event. If the burst changed the graph,
  there was one rebuild and one signal, and otherwise there was none. -/
  released : ∀ last ∈ burst.getLast?, ∀ m, last.moment + p.holdTime ≤ m →
    (∀ a ∈ behind, m < a.moment) →
      let run := (p.stateAt arrivals m).run
      let owed := (start.sync.changes (burst.map Arrival.event)).toNat
      run = { processor := start.afterBurst (burst.map Arrival.event) } ∧ run.isLocked = false ∧
        run.processor.tally = (start.graph.generation + owed, start.signals + owed)
  /-- The same is due if the channel is closed behind the last event. -/
  flushed : behind = [] → ∀ last ∈ burst.getLast?, ∀ m, last.moment ≤ m →
    let run := (p.closedAt arrivals m).run
    let owed := (start.sync.changes (burst.map Arrival.event)).toNat
    run = { processor := start.afterBurst (burst.map Arrival.event), phase := .ended } ∧
      run.isLocked = false ∧
      run.processor.tally = (start.graph.generation + owed, start.signals + owed)
  /-- A burst of numbers changed the graph if and only if one of its events left
  other nodes or edges behind. -/
  owing : p.graph.Keyed → (∀ a ∈ burst, a.event.Numeric) →
    (start.sync.changes (burst.map Arrival.event) = true ↔
      ∃ done event rest, burst.map Arrival.event = done ++ event :: rest ∧
        ¬ (start.sync.dispatchAll done).topology.graph.Same
          (start.sync.dispatchAll (done ++ [event])).topology.graph)

theorem serves_of_spaced (hhold : 0 < p.holdTime)
    (h : Spaced p.holdTime 0 (before ++ (first :: rest) :: after) freed) :
    p.Serves (before ++ (first :: rest) :: after).flatten (p.afterBursts before) (first :: rest)
      after.flatten where
  held first' hfirst last hlast m hm hopen := by
    cases hfirst
    rw [List.getLast?_eq_some_getLast (List.cons_ne_nil _ _)] at hlast
    cases hlast
    obtain ⟨deadline, hstate⟩ := stateAt_during hhold h hm hopen
    simp only [hstate]
    exact ⟨rfl, rfl, tally_busy _ _⟩
  released last hlast m hover hnext := by
    rw [List.getLast?_eq_some_getLast (List.cons_ne_nil _ _)] at hlast
    cases hlast
    obtain ⟨deadline, hstate⟩ := stateAt_between hhold h hover hnext
    simp only [hstate]
    exact ⟨rfl, rfl, tally_afterBurst _ _⟩
  flushed hnone last hlast m hm := by
    rw [List.getLast?_eq_some_getLast (List.cons_ne_nil _ _)] at hlast
    cases hlast
    have hpast : ∀ a ∈ first :: rest, a.moment ≤ m := fun a hmem =>
      Nat.le_trans (h.inOrder.le_last (List.cons_ne_nil first rest) hmem) hm
    have hend : (p.closedAt (before ++ (first :: rest) :: after).flatten m).run =
        { processor := (p.afterBursts before).afterBurst ((first :: rest).map Arrival.event),
          phase := .ended } := by
      unfold closedAt
      by_cases hover : ((first :: rest).getLast (List.cons_ne_nil _ _)).moment + p.holdTime ≤ m
      · obtain ⟨deadline, hstate⟩ := stateAt_between hhold h hover (by simp [hnone])
        rw [hstate, Timeline.close_resting]
      · have hall : (first :: rest).filter (·.moment ≤ m) = first :: rest :=
          List.filter_eq_self.2 fun a hmem => by simpa using hpast a hmem
        obtain ⟨deadline, hstate⟩ := stateAt_during hhold h (hpast first List.mem_cons_self)
          (Nat.not_le.1 hover)
        rw [hstate, hall, Timeline.close_occupied]
    refine ⟨hend, ?_, ?_⟩
    · rw [hend]
      rfl
    · rw [hend]
      exact tally_afterBurst _ _
  owing hkeyed hnumeric :=
    Sync.changes_iff (keyed_afterBursts hkeyed before) (by simpa using hnumeric)

end Processor

theorem spaced_burstsOf {arrivals : List Arrival} (h : InOrder arrivals) (hold : Nat) :
    ∃ freed, Spaced hold 0 (burstsOf hold arrivals) freed :=
  Spaced.of_cuts (List.nil_notMem_splitBy _ _) (fun _ => List.isChain_of_mem_splitBy)
    (List.isChain_getLast_head_splitBy _ _) (by rwa [burstsOf, List.flatten_splitBy])
    (fun _ _ => Nat.zero_le _)

/-- Bursts are the longest runs of events with gaps shorter than the hold time,
and each of them is served on its own. Before the first event nothing is held. -/
theorem bursts_are_the_runs_between_quiet {ν : Type} [Normalizing ν] (p : Processor ν)
    (hhold : 0 < p.holdTime) (arrivals : List Arrival) (horder : InOrder arrivals) :
    let bursts := burstsOf p.holdTime arrivals
    (bursts.flatten = arrivals ∧
      (∀ burst ∈ bursts, burst ≠ [] ∧
        burst.IsChain (fun a b => b.moment < a.moment + p.holdTime)) ∧
      bursts.IsChain (fun burst burst' => ∃ h h',
        (burst.getLast h).moment + p.holdTime ≤ (burst'.head h').moment)) ∧
    (∀ m, (∀ a ∈ arrivals, m < a.moment) → (p.stateAt arrivals m).run = { processor := p }) ∧
    ∀ before burst after, bursts = before ++ burst :: after →
      p.Serves arrivals (p.afterBursts before) burst after.flatten := by
  intro bursts
  have hflatten : bursts.flatten = arrivals := List.flatten_splitBy _ _
  refine ⟨⟨hflatten, fun burst hmem => ?_, ?_⟩, fun m hearly => ?_,
    fun before burst after hsplit => ?_⟩
  · refine ⟨List.ne_nil_of_mem_splitBy hmem, ?_⟩
    exact (List.isChain_of_mem_splitBy hmem).imp fun a b => Arrival.within_iff.1
  · refine (List.isChain_getLast_head_splitBy _ _).imp ?_
    rintro burst burst' ⟨h, h', hcut⟩
    exact ⟨h, h', Arrival.not_within_iff.1 hcut⟩
  · rw [Processor.stateAt_early hearly]
    rfl
  · obtain ⟨freed, hspaced⟩ := spaced_burstsOf horder p.holdTime
    have hmem : burst ∈ bursts := by
      rw [hsplit]
      exact List.mem_append_right _ List.mem_cons_self
    obtain ⟨first, rest, rfl⟩ := List.exists_cons_of_ne_nil (List.ne_nil_of_mem_splitBy hmem)
    rw [← hflatten, hsplit]
    apply Processor.serves_of_spaced hhold
    rw [← hsplit]
    exact hspaced

/-- An event that leaves the graph alone keeps a burst open as well. The burst
behind it changes nothing, and nothing is rebuilt for it. -/
theorem a_burst_without_a_change_rebuilds_nothing :
    let p : Processor := { holdTime := 100 }
    let arrivals : List Arrival := [⟨10, .addNode (Fixtures.node "r1")⟩,
      ⟨60, .addSid (Fixtures.sid "s" "r1" "a")⟩, ⟨300, .deleteSid "s"⟩]
    ((p.stateAt arrivals 159).run.isLocked = true ∧
        (p.stateAt arrivals 159).run.processor.tally = (0, 0)) ∧
      ((p.stateAt arrivals 160).run.isLocked = false ∧
        (p.stateAt arrivals 160).run.processor.tally = (1, 1)) ∧
      ((p.stateAt arrivals 399).run.isLocked = true ∧
        (p.stateAt arrivals 399).run.processor.tally = (1, 1)) ∧
      ((p.stateAt arrivals 400).run.isLocked = false ∧
        (p.stateAt arrivals 400).run.processor.tally = (1, 1)) ∧
      (p.closedAt arrivals 350).run.processor.tally = (1, 1) := by
  intro p arrivals
  have horder : InOrder arrivals := by simp [arrivals, InOrder]
  obtain ⟨-, -, hserves⟩ := bursts_are_the_runs_between_quiet p (by decide) arrivals horder
  let first := [arrivals[0], arrivals[1]]
  let between := p.afterBurst (first.map Arrival.event)
  have hfirst : p.Serves arrivals p first [arrivals[2]] := hserves [] first [[arrivals[2]]] rfl
  have hsecond : p.Serves arrivals between [arrivals[2]] [] := hserves [first] [arrivals[2]] [] rfl
  have howes : p.sync.changes (first.map Arrival.event) = true := by decide +kernel
  have hspares : between.sync.changes ([arrivals[2]].map Arrival.event) = false := by decide +kernel
  have hbetween : between.tally = (1, 1) := by
    rw [p.tally_afterBurst, howes]
    rfl
  have hopened := hfirst.held arrivals[0] rfl arrivals[1] rfl 159 (by decide) (by decide)
  have hrebuilt := hfirst.released arrivals[1] rfl 160 (by decide) (by simp [arrivals])
  have hreopened := hsecond.held arrivals[2] rfl arrivals[2] rfl 399 (by decide) (by decide)
  have hspared := hsecond.released arrivals[2] rfl 400 (by decide) (by simp)
  have hflushed := hsecond.flushed rfl arrivals[2] rfl 350 (by decide)
  rw [howes] at hrebuilt
  simp only [hspares, Bool.toNat_false, Nat.add_zero] at hspared hflushed
  exact ⟨hopened.2, hrebuilt.2, ⟨hreopened.2.1, hreopened.2.2.trans hbetween⟩,
    ⟨hspared.2.1, hspared.2.2.trans hbetween⟩, hflushed.2.2.trans hbetween⟩

end TopologySync
