-- The three link metrics that are normalized, and why a statistic of
-- their values may not exist.
import TopologySync.Record

namespace TopologySync

/-- A link metric with a normalized counterpart. -/
inductive Metric where
  | delay
  | jitter
  | packetLoss
deriving DecidableEq, Repr

namespace Metric

/-- The metrics in processing order. -/
def all : List Metric := [delay, jitter, packetLoss]

/-- The words for a metric in messages. -/
def name : Metric → String
  | delay => "delay"
  | jitter => "jitter"
  | packetLoss => "packet loss"

end Metric

/-- A measure of spread that scaling divides by. -/
inductive Spread where
  | standardDeviation
  | interquartileRange
deriving DecidableEq, Repr

def Spread.name : Spread → String
  | standardDeviation => "standard deviation"
  | interquartileRange => "interquartile range"

/-- Why a statistic does not exist. -/
inductive StatError where
  /-- There are too few values. -/
  | insufficient (needed got : Nat)
  /-- A value is no finite number. -/
  | nonFinite (value : Float)
  /-- All values are so close that the spread comes out as zero. -/
  | degenerate (spread : Spread)
deriving DecidableEq

namespace StatError

/-- The word for a value that is no finite number. -/
def nonFiniteName (value : Float) : String :=
  if value.isNaN then "NaN" else if value < 0.0 then "-inf" else "inf"

def message : StatError → String
  | insufficient needed got => s!"need at least {needed} values, got {got}"
  | nonFinite value => "non-finite input value " ++ nonFiniteName value
  | degenerate spread => spread.name ++ " is zero"

end StatError

/-- A metric whose values could not be normalized. -/
structure NormalizeError where
  metric : Metric
  cause : StatError
deriving DecidableEq

def NormalizeError.message (e : NormalizeError) : String :=
  "cannot normalize " ++ e.metric.name ++ ": " ++ e.cause.message

end TopologySync
