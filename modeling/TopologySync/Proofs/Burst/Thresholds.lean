-- The law of thresholds. Whatever a strategy can scale also has thresholds, so
-- that the tracker takes in the raw values of each pass that goes through, and
-- is never told of a batch that has none.
import TopologySync.Proofs.Burst.Loads
import TopologySync.Proofs.Metric.Windows

open Std

namespace TopologySync

/-! ## What can be scaled has thresholds -/

/-- Every strategy looks at the values before it scales them. -/
theorem Strategy.sample_of_scale {strategy : Strategy} {values scaled : List Float}
    (h : strategy.scale values = .ok scaled) : ∃ s, Sample.ofList values = .ok s := by
  unfold scale at h
  rcases hsample : Sample.ofList values with e | s
  · rw [hsample] at h
    cases h
  · exact ⟨s, rfl⟩

namespace Series

/-- All metrics of the series can be scaled. -/
def canScale (strategy : Strategy) (raw : Series) : Bool :=
  (raw.scale strategy).toBool

/-- What a pass over a series hands to the thresholds: the series, if there is
something in it and the pass goes through. -/
def passed (strategy : Strategy) (raw : Series) : List Series :=
  if raw.length ≠ 0 ∧ raw.canScale strategy then [raw] else []

variable {strategy : Strategy} {raw scaled : Series}

theorem passed_of_empty (h : raw.length = 0) : raw.passed strategy = [] :=
  if_neg (fun hpassed => hpassed.1 h)

theorem passed_of_error {e : NormalizeError} (h : raw.scale strategy = .error e) :
    raw.passed strategy = [] :=
  if_neg (fun hpassed => by simp [canScale, h, Except.toBool] at hpassed)

theorem passed_of_ok (hfull : raw.length ≠ 0) (h : raw.scale strategy = .ok scaled) :
    raw.passed strategy = [raw] :=
  if_pos ⟨hfull, by rw [canScale, h]; rfl⟩

/-- A series that can be scaled can be taken in by every tracker. -/
theorem observe_of_scale (h : raw.scale strategy = .ok scaled) (tracker : ThresholdTracker) :
    ∃ tracker', tracker.observe raw = .ok tracker' := by
  apply ThresholdTracker.observe_ok
  intro metric
  obtain ⟨e, -, herror⟩ | ⟨-, series, -, hmetrics⟩ := scale_eq strategy raw
  · rw [h] at herror
    cases herror
  · exact Strategy.sample_of_scale (hmetrics metric)

end Series

/-! ## Steps of a processor -/

/-- The report says that a batch has no thresholds. -/
def Report.isOutage : Report → Bool
  | thresholdsUnavailable _ => true
  | _ => false

namespace Processor

/-- What a step makes of a processor, and what is told on the way: the tracker has
taken in some batches, and no outage is told. -/
structure Tracks (p q : Processor) (reports : List Report) (batches : List Series) : Prop where
  taken : ∀ tracker, p.thresholds = some tracker →
    ∃ tracker', tracker.observeAll batches = .ok tracker' ∧ q.thresholds = some tracker'
  silent : ∀ report ∈ reports, report.isOutage = false

variable {p q r : Processor} {reports more : List Report} {batches later : List Series}

/-- A step that leaves the tracker alone may tell anything but an outage. -/
theorem tracks_of_same (h : q.thresholds = p.thresholds)
    (hsilent : ∀ report ∈ reports, report.isOutage = false) : p.Tracks q reports [] where
  taken tracker htracker := ⟨tracker, rfl, h.trans htracker⟩
  silent := hsilent

theorem tracks_refl (p : Processor) : p.Tracks p [] [] :=
  tracks_of_same rfl (fun _ h => by cases h)

/-- Telling one thing more, other than an outage, is no step of its own. -/
theorem tracks_tell (report : Report) (h : p.Tracks q reports batches)
    (hsame : r.thresholds = q.thresholds) (hreport : report.isOutage = false) :
    p.Tracks r (reports ++ [report]) batches where
  taken tracker htracker := by
    obtain ⟨tracker', hobserved, hq⟩ := h.taken tracker htracker
    exact ⟨tracker', hobserved, hsame.trans hq⟩
  silent known hknown := by
    rcases List.mem_append.1 hknown with hfirst | hlast
    · exact h.silent known hfirst
    · rw [List.mem_singleton.1 hlast]
      exact hreport

theorem tracks_trans (h : p.Tracks q reports batches) (h' : q.Tracks r more later) :
    p.Tracks r (reports ++ more) (batches ++ later) where
  taken tracker htracker := by
    obtain ⟨next, hnext, hq⟩ := h.taken tracker htracker
    obtain ⟨last, hlast, hr⟩ := h'.taken next hq
    exact ⟨last, (ThresholdTracker.observeAll_append hnext).trans hlast, hr⟩
  silent report hreport := by
    rcases List.mem_append.1 hreport with hfirst | hsecond
    · exact h.silent report hfirst
    · exact h'.silent report hsecond

theorem refused_silent (refused : List Refusal) :
    ∀ report ∈ refused.map Report.refused, report.isOutage = false := by
  intro report hreport
  obtain ⟨refusal, -, rfl⟩ := List.mem_map.1 hreport
  rfl

/-- A pass that went through is observed, whoever made it. -/
theorem tracks_observe {strategy : Strategy} {raw scaled : Series}
    (h : raw.scale strategy = .ok scaled) (p : Processor) :
    p.Tracks (p.observe raw).1 (p.observe raw).2 [raw] := by
  unfold observe
  rcases hthresholds : p.thresholds with _ | tracker
  · refine ⟨fun tracker htracker => ?_, fun _ hreport => by cases hreport⟩
    rw [hthresholds] at htracker
    cases htracker
  · obtain ⟨tracker', hobserve⟩ := Series.observe_of_scale h tracker
    simp only [hobserve]
    refine ⟨fun known hknown => ⟨tracker', ?_, rfl⟩, fun _ hreport => by cases hreport⟩
    rw [hthresholds] at hknown
    cases hknown
    rw [ThresholdTracker.observeAll, hobserve]
    rfl

/-! ## Loads -/

/-- The batches that a load has observed: the raw values of its links, if it has any and
they can be scaled. -/
def loadBatches (load : Snapshot × Normalizer) : List Series :=
  (Series.ofLinks load.1.links).passed load.2.strategy

/-- What a load tells. -/
def loadTold (p : Processor) (load : Snapshot × Normalizer) : List Report :=
  match p.loadSnapshot load.1 load.2 with
  | .ok (_, _, _, reports) => reports
  | .error _ => []

/-- What loads tell in turn. -/
def loadsTold (p : Processor) : List (Snapshot × Normalizer) → List Report
  | [] => []
  | load :: rest => p.loadTold load ++ (p.afterLoad load).loadsTold rest

theorem length_ofLinks (links : List Link) : (Series.ofLinks links).length = links.length :=
  List.length_map _

/-- A load without links has nothing to observe, one whose links cannot be scaled goes
no further, and any other has its links observed. -/
theorem normalizeSnapshot_cases (p : Processor) (load : Snapshot × Normalizer) :
    (loadBatches load = [] ∧ ∃ e, p.normalizeSnapshot load.1 load.2 = .error e) ∨
      ∃ snapshot normalizer q reports,
        p.normalizeSnapshot load.1 load.2 = .ok (snapshot, normalizer, q, reports) ∧
          p.Tracks q reports (loadBatches load) := by
  obtain ⟨snapshot, normalizer⟩ := load
  have hlength := length_ofLinks snapshot.links
  unfold loadBatches
  by_cases hlinks : snapshot.links = []
  · refine Or.inr ⟨_, _, _, _, normalizeSnapshot_none p normalizer hlinks, ?_⟩
    rw [Series.passed_of_empty (by rw [hlength, hlinks]; rfl)]
    exact p.tracks_refl
  · have hfull : (Series.ofLinks snapshot.links).length ≠ 0 := by
      rw [hlength]
      exact mt List.length_eq_zero_iff.1 hlinks
    rcases hscale : (Series.ofLinks snapshot.links).scale normalizer.strategy with e | scaled
    · rw [Series.passed_of_error hscale]
      exact Or.inl ⟨rfl, e, normalizeSnapshot_error hlinks hscale⟩
    · rw [Series.passed_of_ok hfull hscale]
      exact Or.inr ⟨_, _, _, _, normalizeSnapshot_ok hlinks hscale, tracks_observe hscale p⟩

theorem tracks_afterLoad (p : Processor) (load : Snapshot × Normalizer) :
    p.Tracks (p.afterLoad load) (p.loadTold load) (loadBatches load) := by
  unfold afterLoad loadTold loadSnapshot
  obtain ⟨hnone, e, herror⟩ | ⟨snapshot, normalizer, q, reports, hok, htracks⟩ :=
    p.normalizeSnapshot_cases load
  · rw [herror, hnone]
    exact p.tracks_refl
  · rw [hok]
    have happlied := tracks_trans htracks
      (tracks_of_same rfl (refused_silent (q.sync.applySnapshot snapshot).2.2))
    rw [List.append_nil] at happlied
    exact tracks_tell (.snapshotLoaded _ _) happlied rfl rfl

theorem tracks_afterLoads (p : Processor) (loads : List (Snapshot × Normalizer)) :
    p.Tracks (p.afterLoads loads) (p.loadsTold loads) (loads.flatMap loadBatches) := by
  induction loads generalizing p with
  | nil => exact p.tracks_refl
  | cons load rest ih => exact tracks_trans (p.tracks_afterLoad load) (ih (p.afterLoad load))

/-! ## Bursts -/

/-- The batches that the end of a burst has observed, if it owes a rebuild: the raw values of all
edges that have them, if there are any and they can be scaled. -/
def passBatches (p : Processor) : List Series :=
  match p.normalizer with
  | some normalizer => (Series.ofRows (p.graph.measured.map Prod.snd)).passed normalizer.strategy
  | none => []

theorem length_ofRows (rows : List (Float × Float × Float)) :
    (Series.ofRows rows).length = rows.length :=
  List.length_map _

theorem tracks_renormalize (p : Processor) :
    p.Tracks p.renormalize.1 p.renormalize.2 p.passBatches := by
  unfold renormalize passBatches
  rcases hnormalizer : p.normalizer with _ | normalizer
  · exact p.tracks_refl
  rcases hmeasured : p.graph.measured with _ | ⟨entry, rest⟩
  · simp only [Graph.renormalize, hmeasured, List.isEmpty_nil, if_true]
    rw [Series.passed_of_empty rfl]
    exact tracks_of_same rfl (fun _ h => by cases h)
  · simp only [Graph.renormalize, hmeasured, List.isEmpty_cons, Bool.false_eq_true, if_false,
      Normalizing.normalizeSeries, Normalizer.normalizeSeries]
    have hfull : (Series.ofRows ((entry :: rest).map Prod.snd)).length ≠ 0 := by
      simp [length_ofRows]
    rcases hscale : (Series.ofRows ((entry :: rest).map Prod.snd)).scale normalizer.strategy with
      e | scaled
    · rw [Series.passed_of_error hscale]
      exact tracks_tell (.normalizationFailed e) p.tracks_refl rfl rfl
    · rw [Series.passed_of_ok hfull hscale]
      let entries := ((entry :: rest).map Prod.fst).zip scaled.rows
      let renewed : Processor := { p.withGraph (p.graph.normalizeEdges entries) with
        normalizer := some
          { normalizer with batch := ⟨.ofRows ((entry :: rest).map Prod.snd), scaled⟩ } }
      have hrenewed : p.Tracks renewed [] [] := tracks_of_same rfl (fun _ h => by cases h)
      exact tracks_trans hrenewed (tracks_observe hscale renewed)

theorem tracks_finishBurst (p : Processor) (events : Nat) (owed : Bool) :
    p.Tracks (p.finishBurst events owed).1 (p.finishBurst events owed).2
      (if owed then p.passBatches else []) := by
  unfold finishBurst
  cases owed with
  | false => exact tracks_tell (.burstComplete _ _) p.tracks_refl rfl rfl
  | true => exact tracks_tell (.burstComplete _ _) p.tracks_renormalize rfl rfl

end Processor

/-! ## Moves -/

namespace Run

/-- The batches that the end of the open burst has observed. -/
def passBatches (run : Run) : List Series :=
  if run.owes then run.processor.passBatches else []

theorem tracks_finish (run : Run) (next : Phase) :
    run.processor.Tracks (run.finish next).1.processor (run.finish next).2 run.passBatches := by
  unfold finish passBatches owes
  rcases run.phase with _ | ⟨events, owed⟩ | _
  · exact run.processor.tracks_refl
  · exact run.processor.tracks_finishBurst events owed
  · exact run.processor.tracks_refl

theorem tracks_expire (run : Run) :
    run.processor.Tracks run.expire.1.processor run.expire.2 run.passBatches := by
  unfold expire
  rcases hlocked : run.isLocked with _ | _
  · rw [passBatches, owes_of_not_locked hlocked]
    exact run.processor.tracks_refl
  · exact run.tracks_finish .idle

theorem tracks_close (run : Run) :
    run.processor.Tracks run.close.1.processor run.close.2 run.passBatches := by
  unfold close
  rcases hended : run.hasEnded with _ | _
  · exact Processor.tracks_tell .sourceClosed (run.tracks_finish .ended) rfl rfl
  · rw [passBatches, not_owes_of_ended hended]
    exact run.processor.tracks_refl

theorem tracks_receive (run : Run) (event : Event) :
    run.processor.Tracks (run.receive event).1.processor (run.receive event).2 [] := by
  unfold receive
  rcases run.phase with _ | ⟨events, owed⟩ | _
  · exact Processor.tracks_of_same rfl (Processor.refused_silent _)
  · exact Processor.tracks_of_same rfl (Processor.refused_silent _)
  · exact run.processor.tracks_refl

theorem tracks_quit (run : Run) :
    run.processor.Tracks run.quit.1.processor run.quit.2 [] := by
  unfold quit
  split
  · exact run.processor.tracks_refl
  · exact Processor.tracks_tell .quit run.processor.tracks_refl rfl rfl

end Run

namespace Channel

/-- What a move tells. -/
def tells (c : Channel) : Move → List Report
  | .take => if c.run.hasEnded then [] else match c.queue with
    | event :: _ => (c.run.receive event).2
    | [] => if c.closed then c.run.close.2 else []
  | .expire => c.run.expire.2
  | .quit => c.run.quit.2
  | .send _ | .close => []

/-- What moves tell in turn. -/
def told (c : Channel) : List Move → List Report
  | [] => []
  | move :: rest => c.tells move ++ (c.step move).told rest

/-- The batches that a move has observed: those of the burst that it ends. -/
def moveBatches (c : Channel) (move : Move) : List Series :=
  if c.pays move then c.run.processor.passBatches else []

/-- The batches that moves have observed, in their turn. -/
def batches (c : Channel) : List Move → List Series
  | [] => []
  | move :: rest => c.moveBatches move ++ (c.step move).batches rest

theorem tracks_take (c : Channel) (h : c.run.hasEnded = false) :
    c.run.processor.Tracks c.take.run.processor (c.tells .take) (c.moveBatches .take) := by
  unfold take tells moveBatches pays
  rw [h]
  rcases c.queue with _ | ⟨event, rest⟩
  · rcases c.closed with _ | _
    · exact c.run.processor.tracks_refl
    · exact c.run.tracks_close
  · exact c.run.tracks_receive event

/-- A move observes what the burst that it ends hands over, and nothing else. -/
theorem tracks_step (c : Channel) (move : Move) :
    c.run.processor.Tracks (c.step move).run.processor (c.tells move) (c.moveBatches move) := by
  cases move with
  | send event =>
    simp only [step]
    split <;> exact c.run.processor.tracks_refl
  | close => exact c.run.processor.tracks_refl
  | take =>
    simp only [step]
    rcases hended : c.run.hasEnded with _ | _
    · exact c.tracks_take hended
    · simp only [moveBatches, tells, pays, hended, Run.not_owes_of_ended hended, Bool.and_false]
      exact c.run.processor.tracks_refl
  | expire => exact c.run.tracks_expire
  | quit => exact c.run.tracks_quit

theorem tracks_after (c : Channel) (moves : List Move) :
    c.run.processor.Tracks (c.after moves).run.processor (c.told moves) (c.batches moves) := by
  induction moves generalizing c with
  | nil => exact c.run.processor.tracks_refl
  | cons move rest ih => exact Processor.tracks_trans (c.tracks_step move) (ih (c.step move))

end Channel

/-! ## The law -/

/-- A load without links makes no pass, and a single link has no spread. Of the two bursts
the second changes nothing. -/
example :
    let snapshot : Snapshot := { links := [Fixtures.link "l" "r1" "r2"] }
    let loads : List (Snapshot × Normalizer) :=
      [({}, .new .minMax), (snapshot, .new .robust), (snapshot, .new .minMax)]
    let moves : List Channel.Move :=
      [.send (.addNode (Fixtures.node "r1")), .take, .expire,
        .send (.addSid (Fixtures.sid "s" "r1" "a")), .take, .expire]
    let start : Processor := { normalizer := some (.new .minMax) }
    (loads.flatMap Processor.loadBatches).length = 1 ∧
      ((Channel.new (start.afterLoads loads)).batches moves).length = 1 := by
  decide +kernel

end TopologySync
