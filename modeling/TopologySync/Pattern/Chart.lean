-- Charts of patterns. A pattern is laid out in numbered spots, and each spot
-- leads to others by their numbers. All ways through a chart are taken side
-- by side through a text, which fits if the preferred one goes on to its end.
import Std.Data.ExtTreeSet
import TopologySync.Pattern.Basic

namespace TopologySync.Pattern

/-- What is asked for at a spot of a chart, and where it leads. -/
inductive Spot where
  /-- The end of the pattern. -/
  | finish
  /-- One character of a set. -/
  | take (set : CharSet) (next : Nat)
  | check (condition : Anchor) (next : Nat)
  /-- Either of two spots, preferably the first one. -/
  | fork (first second : Nat)
deriving DecidableEq, Repr

/-- Spots by their numbers. The first one is the end of the pattern. -/
abbrev Chart := Array Spot

namespace Chart

/-! ## Laying out a pattern -/

/-- The spot that leads back into a repetition, or on. -/
def turn (again next : Nat) (greedy : Bool) : Spot :=
  if greedy then .fork again next else .fork next again

/-- Lays out a pattern in front of the spot that comes next. The number of the
spot where it starts comes first. -/
def lay : Pattern → Nat → Chart → Nat × Chart
  | .empty, next, chart => (next, chart)
  | .one set, next, chart => (chart.size, chart.push (.take set next))
  | .anchor condition, next, chart => (chart.size, chart.push (.check condition next))
  | .sequence first second, next, chart =>
    let (middle, chart) := lay second next chart
    lay first middle chart
  | .either first second, next, chart =>
    let (second, chart) := lay second next chart
    let (first, chart) := lay first next chart
    (chart.size, chart.push (.fork first second))
  | .repeated body greedy, next, chart =>
    let back := chart.size
    let (start, chart) := lay body back (chart.push .finish)
    (start, chart.setIfInBounds back (turn start next greedy))
  | .further body greedy, next, chart =>
    let back := chart.size
    let (start, chart) := lay body back (chart.push .finish)
    (back, chart.setIfInBounds back (turn start next greedy))

/-- A pattern from its start to the end. -/
def ofPattern (pattern : Pattern) : Nat × Chart :=
  lay pattern 0 #[.finish]

/-! ## Ways through a chart -/

/-- Where a spot leads without another character, the preferred spot first. -/
def branches (place : Place) : Spot → List Nat
  | .check condition next => if condition.holds place then [next] else []
  | .fork first second => [first, second]
  | .take _ _ | .finish => []

/-- Where a spot leads with the next character. -/
def behind? (c : Char) : Spot → Option Nat
  | .take set next => if set.contains c then some next else none
  | _ => none

/-- Takes spots on without another character, in their order. A spot that is
known is not taken again, so a repetition of nothing comes to an end. -/
def explore (chart : Chart) (place : Place) : Nat → List Nat → Std.ExtTreeSet Nat → List Nat
  | 0, _, _ => []
  | _, [], _ => []
  | fuel + 1, spot :: others, known =>
    if spot ∈ known then explore chart place fuel others known
    else
      let nearer := (chart[spot]?.map (branches place)).getD []
      spot :: explore chart place fuel (nearer ++ others) (known.insert spot)

/-- All that spots lead to at a place. Each spot is taken once and leads to at
most two others, which bounds the steps. -/
def reach (chart : Chart) (place : Place) (spots : List Nat) : List Nat :=
  explore chart place (spots.length + 2 * chart.size + 1) spots ∅

/-- What spots lead to behind the next character. The end of the pattern is
preferred to the spots that come after it. -/
def step (chart : Chart) (spots : List Nat) (c : Char) (rest : List Char) : List Nat :=
  chart.reach ⟨some c, rest⟩
    ((spots.takeWhile (· ≠ 0)).filterMap (fun spot => chart[spot]?.bind (behind? c)))

/-- What spots lead to at the end of a text. -/
def last (chart : Chart) (spots : List Nat) : List Char → List Nat
  | [] => spots
  | c :: rest => chart.last (chart.step spots c rest) rest

end Chart

/-! ## Texts that fit -/

/-- The preferred match goes on to the end of the text. -/
def fits (pattern : Pattern) (text : String) : Bool :=
  let (start, chart) := Chart.ofPattern pattern.anywhere
  let cs := text.toList
  0 ∈ chart.last (chart.reach ⟨none, cs⟩ [start]) cs

example : (sequence (one (.single '2')) (repeated (one .all) true)).fits "1234" = true := by
  decide +kernel

example : (one (.single '2')).fits "1234" = false := by decide +kernel

end TopologySync.Pattern
