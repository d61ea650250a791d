-- The law of signals. Each rebuild of the subgraphs is signalled once, and
-- nothing else is. A load that goes through makes one rebuild, and so does the
-- end of a burst that owes one; all other moves make none.
import TopologySync.Fixtures
import TopologySync.Proofs.Burst.Clock
import TopologySync.Proofs.Burst.Freshness

open Std

namespace TopologySync

/-! ## Rebuilds and signals in step -/

namespace Processor

variable {ν μ : Type} {p q r : Processor ν} {m n : Nat}

/-- A processor has made a number of rebuilds since it was another one, and as
many signals. -/
structure Ahead (q p : Processor ν) (n : Nat) : Prop where
  rebuilt : q.graph.generation = p.graph.generation + n
  signalled : q.signals = p.signals + n

theorem ahead_of_tally (h : q.tally = (p.graph.generation + n, p.signals + n)) : q.Ahead p n :=
  ⟨congrArg Prod.fst h, congrArg Prod.snd h⟩

theorem ahead_refl (p : Processor ν) : p.Ahead p 0 :=
  ⟨rfl, rfl⟩

theorem ahead_trans (h : q.Ahead p m) (h' : r.Ahead q n) : r.Ahead p (m + n) where
  rebuilt := by rw [h'.rebuilt, h.rebuilt, Nat.add_assoc]
  signalled := by rw [h'.signalled, h.signalled, Nat.add_assoc]

end Processor

/-! ## Loads -/

/-- A snapshot rebuilds the subgraphs once, whoever takes its records. -/
theorem Sync.generation_applySnapshot (s : Sync) (snapshot : Snapshot) :
    (s.applySnapshot snapshot).2.1.topology.graph.generation =
      s.topology.graph.generation + 1 := by
  have hstable : Topology.Stable (fun graph => graph.generation = s.topology.graph.generation) :=
    fun _ _ _ hchange h => hchange.generation.trans h
  obtain ⟨graph, hsame, hgraph⟩ := applySnapshot_keeps hstable rfl snapshot
  rw [hgraph, Graph.rebuild, hsame]

namespace Processor

variable {ν μ : Type} [Normalizing μ]

/-- The load goes through. -/
def admits (p : Processor ν) (load : Snapshot × μ) : Bool :=
  (p.loadSnapshot load.1 load.2).toBool

theorem afterLoad_of_failed {p : Processor ν} {load : Snapshot × μ} (h : p.admits load = false) :
    p.afterLoad load = p := by
  unfold admits at h
  unfold afterLoad
  rcases hload : p.loadSnapshot load.1 load.2 with e | made
  · rfl
  · rw [hload] at h
    cases h

/-- How many of the loads go through, each in its turn. -/
def admitted (p : Processor ν) : List (Snapshot × μ) → Nat
  | [] => 0
  | load :: rest => (p.admits load).toNat + (p.afterLoad load).admitted rest

theorem signals_normalizeSnapshot {p p' : Processor ν} {snapshot snapshot' : Snapshot}
    {normalizer normalizer' : μ} {reports : List Report}
    (h : p.normalizeSnapshot snapshot normalizer = .ok (snapshot', normalizer', p', reports)) :
    p'.signals = p.signals := by
  unfold normalizeSnapshot at h
  split at h
  · cases h
    rfl
  · split at h
    · cases h
    · cases h
      exact (p.observe_keeps _).2

/-- A load that goes through makes a rebuild and a signal, and one that fails
makes neither. -/
theorem ahead_afterLoad (p : Processor ν) (load : Snapshot × μ) :
    (p.afterLoad load).Ahead p (p.admits load).toNat := by
  unfold afterLoad admits loadSnapshot
  rcases h : p.normalizeSnapshot load.1 load.2 with e | ⟨snapshot, normalizer, p', reports⟩
  · exact p.ahead_refl
  · have hsync := normalizeSnapshot_sync h
    have hsignals := signals_normalizeSnapshot h
    refine ⟨?_, congrArg (· + 1) hsignals⟩
    have happlied := p'.sync.generation_applySnapshot snapshot
    rw [hsync] at happlied
    simp only [bind, Except.bind, hsync]
    exact happlied

theorem ahead_afterLoads (p : Processor ν) (loads : List (Snapshot × μ)) :
    (p.afterLoads loads).Ahead p (p.admitted loads) := by
  induction loads generalizing p with
  | nil => exact p.ahead_refl
  | cons load rest ih => exact ahead_trans (p.ahead_afterLoad load) (ih (p.afterLoad load))

end Processor

/-! ## Moves -/

namespace Run

variable {ν : Type} [Normalizing ν]

theorem ahead_finish (run : Run ν) (next : Phase) :
    (run.finish next).1.processor.Ahead run.processor run.owes.toNat := by
  unfold finish owes
  rcases run.phase with _ | ⟨events, owed⟩ | _
  · exact run.processor.ahead_refl
  · exact Processor.ahead_of_tally (run.processor.tally_finishBurst events owed)
  · exact run.processor.ahead_refl

theorem ahead_expire (run : Run ν) :
    run.expire.1.processor.Ahead run.processor run.owes.toNat := by
  unfold expire
  rcases hlocked : run.isLocked with _ | _
  · rw [owes_of_not_locked hlocked]
    exact run.processor.ahead_refl
  · exact run.ahead_finish .idle

omit [Normalizing ν] in
theorem not_owes_of_ended {run : Run ν} (h : run.hasEnded = true) : run.owes = false := by
  have hphase : run.phase = .ended := eq_of_beq h
  rw [owes, hphase]

theorem ahead_close (run : Run ν) :
    run.close.1.processor.Ahead run.processor run.owes.toNat := by
  unfold close
  rcases hended : run.hasEnded with _ | _
  · exact run.ahead_finish .ended
  · rw [not_owes_of_ended hended]
    exact run.processor.ahead_refl

omit [Normalizing ν] in
/-- An event rebuilds nothing, whatever it changes. -/
theorem ahead_receive (run : Run ν) (event : Event) :
    (run.receive event).1.processor.Ahead run.processor 0 := by
  have hsame := (run.processor.sync.dispatch_change event).generation
  unfold receive
  rcases run.phase with _ | ⟨events, owed⟩ | _
  · exact ⟨hsame, rfl⟩
  · exact ⟨hsame, rfl⟩
  · exact run.processor.ahead_refl

omit [Normalizing ν] in
theorem processor_quit (run : Run ν) : run.quit.1.processor = run.processor := by
  unfold quit
  split <;> rfl

omit [Normalizing ν] in
theorem hasEnded_quit (run : Run ν) : run.quit.1.hasEnded = true := by
  unfold quit
  split
  · assumption
  · rfl

end Run

namespace Channel

variable {ν : Type} [Normalizing ν]

/-- The move ends a burst that owes a rebuild. -/
def pays (c : Channel ν) : Move → Bool
  | .expire => c.run.owes
  | .take => c.queue.isEmpty && c.closed && c.run.owes
  | _ => false

/-- How many of the moves end a burst that owes a rebuild, each in its turn. -/
def payments (c : Channel ν) : List Move → Nat
  | [] => 0
  | move :: rest => (c.pays move).toNat + (c.step move).payments rest

theorem ahead_take (c : Channel ν) :
    c.take.run.processor.Ahead c.run.processor (c.pays .take).toNat := by
  unfold take pays
  rcases c.queue with _ | ⟨event, rest⟩
  · rcases c.closed with _ | _
    · exact c.run.processor.ahead_refl
    · exact c.run.ahead_close
  · exact c.run.ahead_receive event

/-- A move makes a rebuild and a signal if it ends a burst that owes them, and
otherwise it makes neither. -/
theorem ahead_step (c : Channel ν) (move : Move) :
    (c.step move).run.processor.Ahead c.run.processor (c.pays move).toNat := by
  cases move with
  | send event =>
    simp only [step]
    split <;> exact c.run.processor.ahead_refl
  | close => exact c.run.processor.ahead_refl
  | take =>
    simp only [step]
    rcases hended : c.run.hasEnded with _ | _
    · exact c.ahead_take
    · simp only [pays, Run.not_owes_of_ended hended, Bool.and_false]
      exact c.run.processor.ahead_refl
  | expire => exact c.run.ahead_expire
  | quit =>
    simp only [step, Run.processor_quit]
    exact c.run.processor.ahead_refl

theorem ahead_after (c : Channel ν) (moves : List Move) :
    (c.after moves).run.processor.Ahead c.run.processor (c.payments moves) := by
  induction moves generalizing c with
  | nil => exact c.run.processor.ahead_refl
  | cons move rest ih => exact Processor.ahead_trans (c.ahead_step move) (ih (c.step move))

/-- Once a run has ended, its processor stays as it is. -/
theorem processor_after_of_ended {c : Channel ν} (h : c.run.hasEnded = true)
    (moves : List Move) : (c.after moves).run.processor = c.run.processor := by
  induction moves generalizing c with
  | nil => rfl
  | cons move rest ih =>
    have hphase : c.run.phase = .ended := eq_of_beq h
    have hstays : (c.step move).run = c.run := by
      cases move with
      | send event =>
        simp only [step]
        split <;> rfl
      | close => rfl
      | take => simp only [step, h, if_true]
      | expire => simp [step, Run.expire, Run.isLocked, hphase]
      | quit => simp [step, Run.quit, h]
    rw [after, ih (by rw [hstays, h]), hstays]

end Channel

/-! ## The law -/

/-- At every moment a processor has signalled as often as it has rebuilt the
subgraphs: once for each load that went through, and once for each burst that
came to its end and owed a rebuild. After a request to quit there is no more of
either. -/
theorem each_rebuild_is_signalled_once {ν μ : Type} [Normalizing ν] [Normalizing μ]
    (p : Processor ν) (loads : List (Snapshot × μ)) (moves : List Channel.Move) :
    let loaded := p.afterLoads loads
    let start := Channel.new loaded
    let c := start.after moves
    let paid := p.admitted loads + start.payments moves
    c.run.processor.graph.generation = p.graph.generation + paid ∧
      c.run.processor.signals = p.signals + paid ∧
      (∀ load : Snapshot × μ, loaded.admits load = false →
        p.afterLoads (loads ++ [load]) = loaded) ∧
      (c.run.owes = false → ∀ move, (c.step move).run.processor.tally = c.run.processor.tally) ∧
      ∀ more, ((c.step .quit).after more).run.processor = c.run.processor := by
  intro loaded start c paid
  have hpaid : c.run.processor.Ahead p paid :=
    Processor.ahead_trans (p.ahead_afterLoads loads) (start.ahead_after moves)
  refine ⟨hpaid.rebuilt, hpaid.signalled, fun load hfailed => ?_, fun howes move => ?_,
    fun more => ?_⟩
  · have hlast : p.afterLoads (loads ++ [load]) = loaded.afterLoad load := List.foldl_append
    rw [hlast]
    exact Processor.afterLoad_of_failed hfailed
  · have hnone : c.pays move = false := by
      unfold Channel.pays
      split <;> simp [howes]
    have hstep := c.ahead_step move
    rw [hnone] at hstep
    exact Prod.ext hstep.rebuilt hstep.signalled
  · rw [Channel.processor_after_of_ended (Run.hasEnded_quit c.run) more]
    exact c.run.processor_quit

/-- Of two loads the first fails, for a single link has no spread. Of three bursts
the first changes the graph, the second does not, and the third would, but the
run is told to quit before its end. -/
theorem a_load_and_a_burst_are_signalled :
    let p : Processor := {}
    let snapshot : Snapshot := { links := [Fixtures.link "l" "r1" "r2"] }
    let failing : Snapshot × Normalizer := (snapshot, .new .robust)
    let passing : Snapshot × Normalizer := (snapshot, .new .minMax)
    let bursts : List Channel.Move :=
      [.send (.addNode (Fixtures.node "r1")), .take, .expire,
        .send (.addSid (Fixtures.sid "s" "r1" "a")), .take, .expire,
        .send (.deleteLink "l"), .take]
    let loaded := p.afterLoads [passing]
    let c := (Channel.new loaded).after bursts
    c.run.processor.tally = (2, 2) ∧ c.run.isLocked = true ∧
      p.afterLoads [passing, failing] = loaded ∧
      ((c.step .quit).after [.take, .expire]).run.processor.tally = (2, 2) := by
  intro p snapshot failing passing bursts loaded c
  have hpaid : p.admitted [passing] + (Channel.new loaded).payments bursts = 2 := by
    decide +kernel
  have hlocked : c.run.isLocked = true := by decide +kernel
  have hrefused : loaded.admits failing = false := by decide +kernel
  have hc : (Channel.new (p.afterLoads [passing])).after bursts = c := rfl
  obtain ⟨hrebuilt, hsignalled, hfailed, -, hquit⟩ :=
    each_rebuild_is_signalled_once p [passing] bursts
  rw [hc, hpaid] at hrebuilt hsignalled
  rw [hc] at hquit
  clear_value c
  have htally : c.run.processor.tally = (2, 2) := Prod.ext hrebuilt hsignalled
  refine ⟨htally, hlocked, hfailed failing hrefused, ?_⟩
  rw [hquit]
  exact htally

end TopologySync
