-- Windows in lockstep. A batch first has its thresholds computed, metric by metric, and
-- is then pushed on twelve windows in turn. If a metric has no thresholds, the batch has
-- been pushed on none of them, so that all twelve hold the same batches: the last ones
-- that had all their thresholds.
import TopologySync.Proofs.Metric.Held
import TopologySync.Proofs.Reconcile.InPlace

namespace TopologySync

/-! ## Twelve windows -/

/-- One of the four thresholds of a metric. -/
inductive Threshold where
  | q1
  | q3
  | min
  | max
deriving DecidableEq, Repr

/-- Four things, one for each threshold. -/
def Threshold.pick {α : Type} (q1 q3 min max : α) : Threshold → α
  | .q1 => q1
  | .q3 => q3
  | .min => min
  | .max => max

def Thresholds.get (t : Thresholds) : Threshold → Float :=
  Threshold.pick t.q1 t.q3 t.min t.max

/-- A threshold of a metric in a batch, if there is one. -/
def Series.threshold (raw : Series) (metric : Metric) (threshold : Threshold) :
    Except StatError Float :=
  (Thresholds.ofValues (raw.get metric)).map (·.get threshold)

namespace ThresholdWindows

def get (windows : ThresholdWindows) : Threshold → RollingWindow :=
  Threshold.pick windows.q1 windows.q3 windows.min windows.max

def set (windows : ThresholdWindows) (window : RollingWindow) : Threshold → ThresholdWindows
  | .q1 => { windows with q1 := window }
  | .q3 => { windows with q3 := window }
  | .min => { windows with min := window }
  | .max => { windows with max := window }

theorem get_observe (windows : ThresholdWindows) (t : Thresholds) (threshold : Threshold) :
    (windows.observe t).get threshold = (windows.get threshold).push (t.get threshold) := by
  cases threshold <;> rfl

end ThresholdWindows

namespace ThresholdTracker

/-- The window for a threshold of a metric. -/
def window (tracker : ThresholdTracker) (metric : Metric) (threshold : Threshold) :
    RollingWindow :=
  (tracker.windows metric).get threshold

def setWindows (tracker : ThresholdTracker) (windows : ThresholdWindows) :
    Metric → ThresholdTracker
  | .delay => { tracker with delay := windows }
  | .jitter => { tracker with jitter := windows }
  | .packetLoss => { tracker with packetLoss := windows }

/-! ## A batch as it is taken in -/

/-- Steps that take a batch in, up to the first that fails. What was pushed before stays. -/
abbrev Observing (α : Type) :=
  ExceptT StatError (StateM ThresholdTracker) α

/-- Computes the thresholds of a metric. -/
def thresholdsStep (raw : Series) (metric : Metric) : Observing Thresholds := fun tracker =>
  (Thresholds.ofValues (raw.get metric), tracker)

/-- Pushes a value on one window, and gives the value that goes for it. -/
def pushStep (metric : Metric) (threshold : Threshold) (x : Float) : Observing (Option Float) :=
  fun tracker =>
    let window := tracker.window metric threshold
    (.ok window.evicted?,
      tracker.setWindows ((tracker.windows metric).set (window.push x) threshold) metric)

/-- Pushes the thresholds of a metric on its windows in turn. -/
def metricStep (metric : Metric) (t : Thresholds) : Observing (Threshold → Option Float) := do
  let q1 ← pushStep metric .q1 t.q1
  let q3 ← pushStep metric .q3 t.q3
  let min ← pushStep metric .min t.min
  let max ← pushStep metric .max t.max
  return Threshold.pick q1 q3 min max

/-- Three things, one for each metric. -/
def byMetric {α : Type} (delay jitter packetLoss : α) : Metric → α
  | .delay => delay
  | .jitter => jitter
  | .packetLoss => packetLoss

/-- Computes all thresholds, and then pushes them metric by metric. -/
def batchStep (raw : Series) : Observing (Metric → Threshold → Option Float) := do
  let delay ← thresholdsStep raw .delay
  let jitter ← thresholdsStep raw .jitter
  let packetLoss ← thresholdsStep raw .packetLoss
  let delays ← metricStep .delay delay
  let jitters ← metricStep .jitter jitter
  let losses ← metricStep .packetLoss packetLoss
  return byMetric delays jitters losses

/-- Takes in batches in turn, and goes on after those that fail. -/
def batchSteps (tracker : ThresholdTracker) : List Series → ThresholdTracker
  | [] => tracker
  | raw :: rest => (batchStep raw tracker).2.batchSteps rest

end ThresholdTracker

/-! ## A batch as a whole -/

/-- Why a batch has not all its thresholds: what is wrong with the first metric without any. -/
def Series.flaw? (raw : Series) : Option StatError :=
  Metric.all.findSome? fun metric => match Thresholds.ofValues (raw.get metric) with
    | .ok _ => none
    | .error e => some e

theorem Series.exists_flaw_iff (raw : Series) :
    (∃ e, raw.flaw? = some e) ↔ ∃ metric e, Thresholds.ofValues (raw.get metric) = .error e := by
  unfold flaw?
  constructor
  · rintro ⟨e, he⟩
    obtain ⟨metric, -, hmetric⟩ := List.exists_of_findSome?_eq_some he
    refine ⟨metric, e, ?_⟩
    split at hmetric
    · cases hmetric
    · next e' he' =>
      cases hmetric
      exact he'
  · rintro ⟨metric, e, he⟩
    refine Option.isSome_iff_exists.1 (List.findSome?_isSome_iff.2 ⟨metric, ?_, ?_⟩)
    · cases metric <;> decide
    · rw [he]
      rfl

namespace ThresholdTracker

/-- A batch is pushed on every window, or has a flaw. -/
theorem observe_cases (tracker : ThresholdTracker) (raw : Series) :
    (∃ e, raw.flaw? = some e ∧ tracker.observe raw = .error e) ∨
      raw.flaw? = none ∧ ∃ tracker', tracker.observe raw = .ok tracker' ∧
        ∀ metric threshold, ∃ x, raw.threshold metric threshold = .ok x ∧
          tracker'.window metric threshold = (tracker.window metric threshold).push x := by
  unfold Series.flaw? observe Metric.all
  rcases hdelay : Thresholds.ofValues raw.delay with e | delay
  · exact .inl ⟨e, by simp [Series.get, hdelay], rfl⟩
  rcases hjitter : Thresholds.ofValues raw.jitter with e | jitter
  · exact .inl ⟨e, by simp [Series.get, hdelay, hjitter], rfl⟩
  rcases hloss : Thresholds.ofValues raw.packetLoss with e | packetLoss
  · exact .inl ⟨e, by simp [Series.get, hdelay, hjitter, hloss], rfl⟩
  refine .inr ⟨by simp [Series.get, hdelay, hjitter, hloss], _, rfl, fun metric threshold => ?_⟩
  have hthreshold : ∀ {t}, Thresholds.ofValues (raw.get metric) = .ok t →
      raw.threshold metric threshold = .ok (t.get threshold) := fun ht => by
    rw [Series.threshold, ht]
    rfl
  cases metric with
  | delay => exact ⟨_, hthreshold hdelay, ThresholdWindows.get_observe _ _ threshold⟩
  | jitter => exact ⟨_, hthreshold hjitter, ThresholdWindows.get_observe _ _ threshold⟩
  | packetLoss => exact ⟨_, hthreshold hloss, ThresholdWindows.get_observe _ _ threshold⟩

/-- The values that the next batch would push out. -/
def evictions (tracker : ThresholdTracker) (metric : Metric) (threshold : Threshold) :
    Option Float :=
  (tracker.window metric threshold).evicted?

theorem metricStep_eq (metric : Metric) (t : Thresholds) (tracker : ThresholdTracker) :
    metricStep metric t tracker = (.ok (tracker.evictions metric),
      tracker.setWindows ((tracker.windows metric).observe t) metric) := by
  have hevicted : tracker.evictions metric = Threshold.pick (tracker.windows metric).q1.evicted?
      (tracker.windows metric).q3.evicted? (tracker.windows metric).min.evicted?
      (tracker.windows metric).max.evicted? := by
    funext threshold
    cases threshold <;> rfl
  rw [hevicted]
  cases metric <;> rfl

/-- A batch is taken in as a whole or not at all. -/
theorem batchStep_eq (raw : Series) (tracker : ThresholdTracker) :
    batchStep raw tracker = match tracker.observe raw with
      | .ok tracker' => (.ok tracker.evictions, tracker')
      | .error e => (.error e, tracker) := by
  have hfirst : ∀ metric {outcome}, Thresholds.ofValues (raw.get metric) = outcome →
      thresholdsStep raw metric tracker = (outcome, tracker) :=
    fun _ _ houtcome => houtcome ▸ rfl
  unfold batchStep observe
  rcases hdelay : Thresholds.ofValues raw.delay with e | delay
  · exact bind_of_error (hfirst .delay hdelay)
  · refine (bind_of_ok (hfirst .delay hdelay)).trans ?_
    rcases hjitter : Thresholds.ofValues raw.jitter with e | jitter
    · exact bind_of_error (hfirst .jitter hjitter)
    · refine (bind_of_ok (hfirst .jitter hjitter)).trans ?_
      rcases hloss : Thresholds.ofValues raw.packetLoss with e | packetLoss
      · exact bind_of_error (hfirst .packetLoss hloss)
      · refine (bind_of_ok (hfirst .packetLoss hloss)).trans ?_
        refine (bind_of_ok (metricStep_eq _ _ _)).trans ((bind_of_ok (metricStep_eq _ _ _)).trans
          ((bind_of_ok (metricStep_eq _ _ _)).trans ?_))
        have hevicted : tracker.evictions = byMetric (tracker.evictions .delay)
            (tracker.evictions .jitter) (tracker.evictions .packetLoss) := by
          funext metric
          cases metric <;> rfl
        rw [hevicted]
        rfl

/-! ## Batches in turn -/

/-- Each window takes in what belongs to it from the batches without a flaw, and nothing else. -/
theorem batchSteps_pushes (tracker : ThresholdTracker) (batches : List Series) (metric : Metric)
    (threshold : Threshold) :
    ∃ pushed, pushed.map .ok =
        (batches.filter (·.flaw?.isNone)).map (·.threshold metric threshold) ∧
      (tracker.batchSteps batches).window metric threshold =
        (tracker.window metric threshold).pushAll pushed := by
  induction batches generalizing tracker with
  | nil => exact ⟨[], rfl, rfl⟩
  | cons raw rest ih =>
    rw [batchSteps, batchStep_eq]
    obtain ⟨e, hflaw, hobserve⟩ | ⟨hflaw, next, hobserve, hpushes⟩ := tracker.observe_cases raw
    · rw [hobserve, List.filter_cons_of_neg (by simp [hflaw])]
      exact ih tracker
    · obtain ⟨x, hx, hpush⟩ := hpushes metric threshold
      obtain ⟨pushed, hpushed, hrest⟩ := ih next
      rw [hobserve, List.filter_cons_of_pos (by simp [hflaw])]
      refine ⟨x :: pushed, ?_, ?_⟩
      · rw [List.map_cons, List.map_cons, hpushed, hx]
      · rw [RollingWindow.pushAll_cons, ← hpush, ← hrest]

theorem window_new (capacity : Nat) (metric : Metric) (threshold : Threshold) :
    (new capacity).window metric threshold = .new capacity := by
  cases metric <;> cases threshold <;> rfl

/-- Each window holds its threshold of the last batches without a flaw. -/
theorem window_batchSteps (capacity : Nat) (batches : List Series) (metric : Metric)
    (threshold : Threshold) :
    let room := max capacity 1
    let taken := batches.filter (·.flaw?.isNone)
    let window := ((new capacity).batchSteps batches).window metric threshold
    window.capacity = room ∧ window.values.length = min room taken.length ∧
      window.values.map .ok = (taken.rtake room).map (·.threshold metric threshold) := by
  intro room taken window
  obtain ⟨pushed, hpushed, hwindow⟩ := batchSteps_pushes (new capacity) batches metric threshold
  have hlength := congrArg List.length hpushed
  rw [List.length_map, List.length_map] at hlength
  have heq : window = (RollingWindow.new capacity).pushAll pushed := by
    rw [← window_new capacity metric threshold]
    exact hwindow
  have hvalues : window.values = pushed.rtake room := by
    rw [heq]
    exact RollingWindow.values_new_pushAll capacity pushed
  refine ⟨?_, ?_, ?_⟩
  · rw [heq]
    exact RollingWindow.capacity_pushAll _ pushed
  · rw [hvalues, length_rtake, hlength]
  · rw [hvalues, map_rtake, map_rtake, hpushed]

end ThresholdTracker

end TopologySync
