import OptionResearch.HermiteCell
import OptionResearch.PartialEffects
import OptionResearch.PythonValues
import OptionResearch.SortedSearch

/-!
# Evaluating a volatility smile

`SmileEvaluator.evaluate` of `implied_volatility/construction.py`, over an ordered field. Between
two neighbouring nodes it is one cubic in the position within the cell, with slopes that have the
direction of the cell and are not too steep, so that it never leaves the range of the two nodes.
-/

namespace OptionResearch

open HermiteCell SortedSearch

inductive InterpolationMethod where
  | linear
  | monotoneCubic
  | splineInterface
  deriving DecidableEq, Repr

inductive ExtrapolationPolicy where
  | none
  | flat
  | linear
  deriving DecidableEq, Repr

/-- What an evaluation reads of a `SmileBuildConfig`. -/
structure SmileBuildConfig where
  interpolation : InterpolationMethod := .linear
  extrapolation : ExtrapolationPolicy := .none

/-- What an evaluation reads of a node. -/
structure SmileNode (K : Type) where
  x : K
  impliedVolatility : K

structure SmileBuildResult (K : Type) where
  nodes : List (SmileNode K)

structure SmileEvaluator (K : Type) where
  smile : SmileBuildResult K
  config : SmileBuildConfig

variable {K : Type} [Field K] [LinearOrder K]

/-- `_linear`. -/
def linear (x0 y0 x1 y1 x : K) : K :=
  if x1 = x0 then y0
  else
    let w := (x - x0) / (x1 - x0)
    y0 + w * (y1 - y0)

/-- `_harmonic_mean_if_same_sign`. -/
def harmonicMeanIfSameSign (a b : K) : K :=
  if a = 0 ∨ b = 0 ∨ decide (0 < a) ≠ decide (0 < b) then 0 else 2.0 * a * b / (a + b)

/-- The least width that a neighbouring cell counts with. -/
def leastWidth : K := 1e-12

/-- `_monotone_cubic`. -/
def monotoneCubic (xs ys : List K) (x : K) : Except Exc K := do
  let idx : Int := min (max (bisectLeft xs x : Int) 1) (xs.length - 1)
  let x0 ← listItem xs (idx - 1)
  let x1 ← listItem xs idx
  let y0 ← listItem ys (idx - 1)
  let y1 ← listItem ys idx
  let h := x1 - x0
  if h = 0 then return y0
  else
    let m := (y1 - y0) / h
    let m0 ← slopeBefore xs ys idx m
    let m1 ← slopeAfter xs ys idx m
    let d0 := harmonicMeanIfSameSign m0 m
    let d1 := harmonicMeanIfSameSign m m1
    let t := (x - x0) / h
    let h00 := 2.0 * t ^ 3 - 3.0 * t ^ 2 + 1
    let h10 := t ^ 3 - 2.0 * t ^ 2 + t
    let h01 := -2.0 * t ^ 3 + 3.0 * t ^ 2
    let h11 := t ^ 3 - t ^ 2
    return h00 * y0 + h10 * h * d0 + h01 * y1 + h11 * h * d1
where
  /-- The slope of the cell before, if there is one. -/
  slopeBefore (xs ys : List K) (idx : Int) (m : K) : Except Exc K := do
    if 0 ≤ idx - 2 then
      return ((← listItem ys (idx - 1)) - (← listItem ys (idx - 2))) /
        max ((← listItem xs (idx - 1)) - (← listItem xs (idx - 2))) leastWidth
    else return m
  /-- The slope of the cell after, if there is one. -/
  slopeAfter (xs ys : List K) (idx : Int) (m : K) : Except Exc K := do
    if idx + 1 < xs.length then
      return ((← listItem ys (idx + 1)) - (← listItem ys idx)) /
        max ((← listItem xs (idx + 1)) - (← listItem xs idx)) leastWidth
    else return m

namespace SmileEvaluator

variable (evaluator : SmileEvaluator K)

/-- The value beyond the nodes. -/
def extrapolate (xs ys : List K) (x first : K) : Except Exc (Option K) := do
  match evaluator.config.extrapolation with
  | .none => return none
  | .flat => if x < first then return some (← listItem ys 0) else return some (← listItem ys (-1))
  | .linear =>
    if x < first then
      return some (linear (← listItem xs 0) (← listItem ys 0) (← listItem xs 1) (← listItem ys 1) x)
    else
      return some (linear (← listItem xs (-2)) (← listItem ys (-2)) (← listItem xs (-1))
        (← listItem ys (-1)) x)

/-- The value within the nodes. -/
def interpolate (xs ys : List K) (x : K) : Except Exc (Option K) := do
  let idx := bisectLeft xs x
  if idx = 0 then return some (← listItem ys 0)
  else if xs.length ≤ idx then return some (← listItem ys (-1))
  else if evaluator.config.interpolation = .monotoneCubic ∧ 3 ≤ xs.length then
    return some (← monotoneCubic xs ys x)
  else
    return some (linear (← listItem xs ((idx : Int) - 1)) (← listItem ys ((idx : Int) - 1))
      (← listItem xs idx) (← listItem ys idx) x)

def evaluate (x : K) : Except Exc (Option K) := do
  let points := evaluator.smile.nodes
  if points.isEmpty then return none
  else
    let xs := points.map (·.x)
    let ys := points.map (·.impliedVolatility)
    let first ← listItem xs 0
    let last ← listItem xs (-1)
    if x < first ∨ last < x then evaluator.extrapolate xs ys x first
    else evaluator.interpolate xs ys x

end SmileEvaluator

end OptionResearch
