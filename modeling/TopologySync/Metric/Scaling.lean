-- The four ways to make the values of a metric comparable.
import TopologySync.Metric.Sample

namespace TopologySync

/-- How the values of a metric are scaled. -/
inductive Strategy where
  /-- Onto the unit interval, between the extremes. -/
  | minMax
  /-- The same, with the extremes pulled in to the outer fences. -/
  | iqrMinMax
  /-- Distance from the mean in standard deviations. -/
  | zScore
  /-- Distance from the median in interquartile ranges. -/
  | robust
deriving DecidableEq, Repr, Inhabited

namespace Strategy

def all : List Strategy := [minMax, iqrMinMax, zScore, robust]

/-- The spelling of a strategy in settings and messages. -/
def name : Strategy → String
  | minMax => "min_max"
  | iqrMinMax => "iqr_min_max"
  | zScore => "z_score"
  | robust => "robust"

/-- The strategy with a given spelling. The standard score has a second one. -/
def ofName? (text : String) : Option Strategy :=
  if text = "standard" then some zScore else all.find? (fun strategy => strategy.name == text)

/-- What is said of a spelling that names no strategy. -/
def unknownMessage (text : String) : String :=
  "unknown normalization strategy \x60" ++ text ++
    "\x60 (expected min_max, iqr_min_max, z_score or robust)"

/-! ## Scaling -/

/-- How far the fences stand from the quartiles, in interquartile ranges. -/
def fence : Float := 1.5

/-- The nearest number of the unit interval. -/
def clamp (x : Float) : Float :=
  if x < 0.0 then 0.0 else if x > 1.0 then 1.0 else x

/-- The place of each value between two bounds. A batch without spread
lies at the bottom. -/
def between (values : List Float) (lower upper : Float) : List Float :=
  let range := upper - lower
  if range ≤ 0.0 then List.replicate values.length 0.0
  else values.map (fun x => clamp ((x - lower) / range))

/-- Scales a sample as a whole. -/
def scaleSample (strategy : Strategy) (s : Sample) : Except StatError (List Float) :=
  match strategy with
  | minMax => .ok (between s.values s.min s.max)
  | iqrMinMax =>
    let q := s.quartiles
    let reach := fence * q.range
    .ok (between s.values (Sample.greater (q.q1 - reach) s.min)
      (Sample.lesser (q.q3 + reach) s.max))
  | zScore =>
    let deviation := s.standardDeviation
    if deviation == 0.0 then .error (.degenerate .standardDeviation)
    else .ok (s.values.map (fun x => (x - s.mean) / deviation))
  | robust =>
    let q := s.quartiles
    if q.range == 0.0 then .error (.degenerate .interquartileRange)
    else .ok (s.values.map (fun x => (x - q.q2) / q.range))

/-- Scales a list of values as a whole. -/
def scale (strategy : Strategy) (values : List Float) : Except StatError (List Float) :=
  Sample.ofList values >>= strategy.scaleSample

theorem between_length (values : List Float) (lower upper : Float) :
    (between values lower upper).length = values.length := by
  unfold between
  dsimp only
  split
  · exact List.length_replicate
  · exact List.length_map _

/-- Every strategy gives as many values as it takes. -/
theorem length_scale {strategy : Strategy} {values scaled : List Float}
    (h : strategy.scale values = .ok scaled) : scaled.length = values.length := by
  unfold scale at h
  cases hsample : Sample.ofList values with
  | error e =>
    rw [hsample] at h
    cases h
  | ok s =>
    rw [hsample] at h
    rw [← Sample.values_ofList hsample]
    cases strategy with
    | minMax | iqrMinMax =>
      cases h
      exact between_length _ _ _
    | zScore | robust =>
      simp only [bind, Except.bind, scaleSample] at h
      split at h
      · cases h
      · cases h
        exact List.length_map _

end Strategy

end TopologySync
