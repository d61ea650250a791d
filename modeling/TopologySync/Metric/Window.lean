-- Rolling windows over the thresholds of past batches. One batch may be
-- far off; the average of the last ones is steadier.
import TopologySync.Metric.Normalizer

namespace TopologySync

/-- The last values of a sequence, oldest first, with their running sum. -/
structure RollingWindow where
  capacity : Nat
  values : List Float
  sum : Float
  room : 0 < capacity
  fits : values.length ≤ capacity
deriving DecidableEq

namespace RollingWindow

/-- An empty window. It has room for one value at least. -/
def new (capacity : Nat) : RollingWindow where
  capacity := max capacity 1
  values := []
  sum := 0.0
  room := by omega
  fits := Nat.zero_le _

def isFull (window : RollingWindow) : Bool :=
  window.values.length == window.capacity

/-- The value that the next one takes the place of. -/
def evicted? (window : RollingWindow) : Option Float :=
  if window.isFull then window.values.head? else none

/-- The values that stay when the next one comes. -/
def kept (window : RollingWindow) : List Float :=
  if window.isFull then window.values.tail else window.values

theorem length_kept_lt (window : RollingWindow) : window.kept.length < window.capacity := by
  have room := window.room
  have fits := window.fits
  unfold kept isFull
  split
  · rw [List.length_tail]
    omega
  · next h =>
    simp only [beq_iff_eq] at h
    omega

/-- Takes a value in, and the oldest one out if there is no room. The sum
follows by a difference and an addition. -/
def push (window : RollingWindow) (value : Float) : RollingWindow where
  capacity := window.capacity
  values := window.kept ++ [value]
  sum := (match window.evicted? with
    | some old => window.sum - old
    | none => window.sum) + value
  room := window.room
  fits := by
    rw [List.length_append]
    exact window.length_kept_lt

/-- The average by the running sum. -/
def average? (window : RollingWindow) : Option Float :=
  if window.values.isEmpty then none
  else some (window.sum / Float.ofNat window.values.length)

end RollingWindow

/-! ## Thresholds -/

/-- A rolling window for each of the four thresholds. -/
structure ThresholdWindows where
  q1 : RollingWindow
  q3 : RollingWindow
  min : RollingWindow
  max : RollingWindow
deriving DecidableEq

namespace ThresholdWindows

def new (capacity : Nat) : ThresholdWindows :=
  ⟨.new capacity, .new capacity, .new capacity, .new capacity⟩

/-- Takes in the thresholds of one batch. -/
def observe (windows : ThresholdWindows) (t : Thresholds) : ThresholdWindows where
  q1 := windows.q1.push t.q1
  q3 := windows.q3.push t.q3
  min := windows.min.push t.min
  max := windows.max.push t.max

/-- The average of each threshold. -/
def averages? (windows : ThresholdWindows) : Option Thresholds := do
  return ⟨← windows.q1.average?, ← windows.q3.average?, ← windows.min.average?,
    ← windows.max.average?⟩

/-- The number of batches in the windows. -/
def length (windows : ThresholdWindows) : Nat :=
  windows.q1.values.length

end ThresholdWindows

/-- The threshold windows of every metric. -/
structure ThresholdTracker where
  delay : ThresholdWindows
  jitter : ThresholdWindows
  packetLoss : ThresholdWindows
deriving DecidableEq

namespace ThresholdTracker

def new (capacity : Nat) : ThresholdTracker :=
  ⟨.new capacity, .new capacity, .new capacity⟩

/-- The windows of one metric. -/
def windows (tracker : ThresholdTracker) : Metric → ThresholdWindows
  | .delay => tracker.delay
  | .jitter => tracker.jitter
  | .packetLoss => tracker.packetLoss

/-- Takes in the thresholds of the raw values of one batch: of all metrics
or of none. -/
def observe (tracker : ThresholdTracker) (raw : Series) : Except StatError ThresholdTracker := do
  let delay ← Thresholds.ofValues raw.delay
  let jitter ← Thresholds.ofValues raw.jitter
  let packetLoss ← Thresholds.ofValues raw.packetLoss
  return {
    delay := tracker.delay.observe delay
    jitter := tracker.jitter.observe jitter
    packetLoss := tracker.packetLoss.observe packetLoss }

/-- The average thresholds of one metric. -/
def smoothed? (tracker : ThresholdTracker) (metric : Metric) : Option Thresholds :=
  (tracker.windows metric).averages?

end ThresholdTracker

end TopologySync
