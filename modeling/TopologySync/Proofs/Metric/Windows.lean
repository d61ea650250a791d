-- How much the windows of a tracker hold. A batch whose values are finite has
-- thresholds, and each batch that is taken in makes every window longer by one,
-- up to its capacity.
import TopologySync.Metric.Window

namespace TopologySync

/-! ## One window -/

/-- A window grows by the value that it takes in, until it is full. -/
theorem RollingWindow.length_push (window : RollingWindow) (value : Float) :
    (window.push value).values.length = min window.capacity (window.values.length + 1) := by
  have hroom := window.room
  have hfits := window.fits
  simp only [push, List.length_append, List.length_singleton, kept, isFull, beq_iff_eq]
  split
  · rw [List.length_tail]
    omega
  · omega

/-- The four windows of a metric. -/
def ThresholdWindows.all (windows : ThresholdWindows) : List RollingWindow :=
  [windows.q1, windows.q3, windows.min, windows.max]

/-! ## Batches in turn -/

namespace ThresholdTracker

/-- All windows of the tracker have the capacity, and hold what a number of batches
has left in them. -/
def Holds (tracker : ThresholdTracker) (capacity n : Nat) : Prop :=
  ∀ metric, ∀ window ∈ (tracker.windows metric).all,
    window.capacity = capacity ∧ window.values.length = min capacity n

/-- Takes in batches in turn. The first one without thresholds ends it. -/
def observeAll (tracker : ThresholdTracker) : List Series → Except StatError ThresholdTracker
  | [] => .ok tracker
  | raw :: rest => do (← tracker.observe raw).observeAll rest

variable {tracker tracker' : ThresholdTracker} {capacity n : Nat} {raw : Series}

theorem observeAll_append {before after : List Series}
    (h : tracker.observeAll before = .ok tracker') :
    tracker.observeAll (before ++ after) = tracker'.observeAll after := by
  induction before generalizing tracker with
  | nil =>
    cases h
    rfl
  | cons raw rest ih =>
    unfold observeAll at h
    rcases hfirst : tracker.observe raw with e | next
    · rw [hfirst] at h
      cases h
    · rw [hfirst] at h
      rw [List.cons_append, observeAll, hfirst]
      exact ih h

/-- A batch is taken in if all its values are finite, and no metric is without any. -/
theorem observe_ok (h : ∀ metric, ∃ s, Sample.ofList (raw.get metric) = .ok s)
    (tracker : ThresholdTracker) : ∃ tracker', tracker.observe raw = .ok tracker' := by
  obtain ⟨delay, hdelay⟩ : ∃ s, Sample.ofList raw.delay = .ok s := h .delay
  obtain ⟨jitter, hjitter⟩ : ∃ s, Sample.ofList raw.jitter = .ok s := h .jitter
  obtain ⟨loss, hloss⟩ : ∃ s, Sample.ofList raw.packetLoss = .ok s := h .packetLoss
  unfold observe Thresholds.ofValues
  rw [hdelay, hjitter, hloss]
  exact ⟨_, rfl⟩

theorem holds_new (capacity : Nat) : (new capacity).Holds (max capacity 1) 0 := by
  intro metric window hwindow
  have hempty : window = .new capacity := by
    cases metric <;>
      simpa [windows, new, ThresholdWindows.new, ThresholdWindows.all] using hwindow
  subst hempty
  exact ⟨rfl, (Nat.min_zero _).symm⟩

/-- What is taken in reaches each window of each metric once. -/
theorem observe_pushes (h : tracker.observe raw = .ok tracker') (metric : Metric)
    {window' : RollingWindow} (hwindow : window' ∈ (tracker'.windows metric).all) :
    ∃ window ∈ (tracker.windows metric).all, ∃ value, window' = window.push value := by
  unfold observe at h
  rcases hdelay : Thresholds.ofValues raw.delay with e | delay
  · rw [hdelay] at h
    cases h
  rcases hjitter : Thresholds.ofValues raw.jitter with e | jitter
  · rw [hdelay, hjitter] at h
    cases h
  rcases hloss : Thresholds.ofValues raw.packetLoss with e | loss
  · rw [hdelay, hjitter, hloss] at h
    cases h
  rw [hdelay, hjitter, hloss] at h
  cases h
  have hobserved : ∀ (windows : ThresholdWindows) (t : Thresholds),
      window' ∈ (windows.observe t).all →
        ∃ window ∈ windows.all, ∃ value, window' = window.push value := by
    intro windows t hmem
    simp only [ThresholdWindows.all, ThresholdWindows.observe, List.mem_cons, List.not_mem_nil,
      or_false] at hmem ⊢
    rcases hmem with rfl | rfl | rfl | rfl
    · exact ⟨windows.q1, by simp, t.q1, rfl⟩
    · exact ⟨windows.q3, by simp, t.q3, rfl⟩
    · exact ⟨windows.min, by simp, t.min, rfl⟩
    · exact ⟨windows.max, by simp, t.max, rfl⟩
  cases metric with
  | delay => exact hobserved tracker.delay delay hwindow
  | jitter => exact hobserved tracker.jitter jitter hwindow
  | packetLoss => exact hobserved tracker.packetLoss loss hwindow

theorem holds_observe (h : tracker.Holds capacity n)
    (hobserve : tracker.observe raw = .ok tracker') : tracker'.Holds capacity (n + 1) := by
  intro metric window' hwindow'
  obtain ⟨window, hwindow, value, rfl⟩ := observe_pushes hobserve metric hwindow'
  obtain ⟨hcapacity, hlength⟩ := h metric window hwindow
  refine ⟨hcapacity, ?_⟩
  rw [window.length_push, hcapacity, hlength]
  omega

theorem holds_observeAll {batches : List Series} (h : tracker.Holds capacity n)
    (hobserve : tracker.observeAll batches = .ok tracker') :
    tracker'.Holds capacity (n + batches.length) := by
  induction batches generalizing tracker n with
  | nil =>
    cases hobserve
    exact h
  | cons raw rest ih =>
    unfold observeAll at hobserve
    rcases hfirst : tracker.observe raw with e | next
    · rw [hfirst] at hobserve
      cases hobserve
    · rw [hfirst] at hobserve
      rw [List.length_cons, Nat.add_comm rest.length 1, ← Nat.add_assoc]
      exact ih (holds_observe h hfirst) hobserve

end ThresholdTracker

end TopologySync
