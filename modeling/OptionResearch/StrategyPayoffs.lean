import OptionResearch.OptionPayoff
import OptionResearch.StableSort
import OptionResearch.TemplateStorage

/-!
# Payoffs at expiry

`StrategyPayoffAnalyzer` of `strategy_library.py`: the payoff of the selected legs at each price of
a grid, and what is read off these points. Arithmetic is exact, and `round(value, 8)` is given as
`round8`, so that exact values can be left as they are.
-/

namespace OptionResearch.StrategyLibrary

open OptionPayoff (intrinsic)

inductive PayoffTag where
  | credit
  | debit
  | even
  deriving DecidableEq, Repr

/-- What the analyzer reads of a selected leg. -/
structure StrategySelectedLeg where
  legKind : LegKind
  direction : LegDirection
  quantity : Int
  strike : Option ℚ
  premium : Option ℚ
  multiplier : Int
  delta : Option ℚ := none
  impliedVolatility : Option ℚ := none
  deriving DecidableEq

structure PayoffPoint where
  underlyingPrice : ℚ
  payoff : ℚ
  deriving DecidableEq, Repr

/-- A summary; `-inf` is the least value of a loss and `inf` the greatest one of a risk. -/
structure StrategyPayoffSummary where
  points : List PayoffPoint
  maximumProfit : Option ℚ
  maximumLoss : Option (WithBot ℚ)
  breakevens : List ℚ
  definedRisk : Bool
  capitalAtRisk : Option (WithTop ℚ)
  creditOrDebit : PayoffTag
  intrinsicValue : Option ℚ
  extrinsicValue : Option ℚ
  slopeRegions : List String
  discontinuities : List ℚ
  residualExposure : List (String × ℚ)
  assignmentSensitive : Bool
  dividendSensitive : Bool
  warnings : List String

namespace StrategySelectedLeg

variable (leg : StrategySelectedLeg)

/-- `leg.leg_kind in {LegKind.CALL, LegKind.PUT}`. -/
def isOption : Bool := leg.legKind = .call || leg.legKind = .put

def sign : ℚ := if leg.direction = .buy then 1 else -1

/-- `max(1, leg.multiplier)`. -/
def mult : ℚ := (max 1 leg.multiplier : Int)

/-- What the leg adds to `_payoff_at_price`. -/
def payoff (price : ℚ) : ℚ :=
  match leg.legKind with
  | .call => leg.sign * leg.quantity * leg.mult *
      (intrinsic .call price (leg.strike.getD 0) - leg.premium.getD 0)
  | .put => leg.sign * leg.quantity * leg.mult *
      (intrinsic .put price (leg.strike.getD 0) - leg.premium.getD 0)
  | .stock => leg.sign * leg.quantity * (price - leg.premium.getD 0)
  | .cash => leg.sign * leg.quantity * leg.premium.getD 0

end StrategySelectedLeg

variable (selectedLegs : List StrategySelectedLeg) (round8 : ℚ → ℚ)

/-- `_payoff_at_price`. -/
def payoffAtPrice (price : ℚ) : ℚ := (selectedLegs.map fun leg => leg.payoff price).sum

/-- What a point and its successor add to `_breakeven_points`. -/
def breakevenOf (left right : PayoffPoint) : Option ℚ :=
  if left.payoff = 0 then some left.underlyingPrice
  else if left.payoff < 0 ∧ 0 < right.payoff ∨ 0 < left.payoff ∧ right.payoff < 0 then
    let span := right.underlyingPrice - left.underlyingPrice
    if span = 0 then none
    else
      let ratio := |left.payoff| / (|left.payoff| + |right.payoff|)
      some (round8 (left.underlyingPrice + span * ratio))
  else none

/-- `tuple(sorted(set(values)))`. -/
def sortedSet (values : List ℚ) : List ℚ := StableSort.sortBy id values.dedup

/-- `_breakeven_points`. -/
def breakevenPoints (points : List PayoffPoint) : List ℚ :=
  sortedSet ((points.zip points.tail).filterMap fun pair => breakevenOf round8 pair.1 pair.2)

/-- `_credit_or_debit`. -/
def creditOrDebit : PayoffTag :=
  let net := selectedLegs.foldl (fun net leg =>
    let premium := leg.premium.getD 0
    let qty : ℚ := leg.quantity * leg.mult
    if leg.direction = .buy then net - premium * qty else net + premium * qty) 0
  if |net| < 1e-9 then .even else if 0 < net then .credit else .debit

/-- `_intrinsic_total`, with the strike for the spot. -/
def intrinsicTotal : Option ℚ := do
  let values ← (selectedLegs.filter (·.isOption)).mapM fun leg => do
    let strike ← leg.strike
    let spot := strike
    let value := if leg.legKind = .call then intrinsic .call spot strike
      else intrinsic .put spot strike
    return leg.sign * value * (leg.quantity : ℚ) * leg.mult
  if values.isEmpty then return 0 else return round8 values.sum

/-- `_extrinsic_total`. -/
def extrinsicTotal : Option ℚ := do
  let values ← (selectedLegs.filter (·.isOption)).mapM fun leg => do
    let premium ← leg.premium
    return leg.sign * premium * (leg.quantity : ℚ) * leg.mult
  if values.isEmpty then return 0 else return round8 values.sum

/-- `_slope_regions`. -/
def slopeRegions (points : List PayoffPoint) : List String :=
  let labels := (points.zip points.tail).map fun pair =>
    let slope := pair.2.payoff - pair.1.payoff
    if 0 < slope then "increasing" else if slope < 0 then "decreasing" else "flat"
  labels.foldl (fun compressed label =>
    if compressed.getLast? = some label then compressed else compressed ++ [label]) []

/-- `round(mean(values), 8)` of values that are not empty. -/
def roundedMean (values : List ℚ) : ℚ := round8 (values.sum / values.length)

/-- The points of the summary. -/
def payoffPoints (priceGrid : List ℚ) : List PayoffPoint :=
  (StableSort.sortBy id priceGrid).map fun price =>
    { underlyingPrice := price, payoff := round8 (payoffAtPrice selectedLegs price) }

/-- `StrategyPayoffAnalyzer.summarize`. -/
def summarize (template : StrategyTemplate) (priceGrid : List ℚ) : StrategyPayoffSummary :=
  if selectedLegs.isEmpty then
    { points := []
      maximumProfit := none
      maximumLoss := none
      breakevens := []
      definedRisk := false
      capitalAtRisk := none
      creditOrDebit := .even
      intrinsicValue := none
      extrinsicValue := none
      slopeRegions := []
      discontinuities := []
      residualExposure := []
      assignmentSensitive := false
      dividendSensitive := false
      warnings := ["no_legs_selected"] }
  else
    let options := selectedLegs.filter (·.isOption)
    let points := payoffPoints selectedLegs round8 priceGrid
    let payoffs : List ℚ := points.map (·.payoff)
    let unbounded := payoffs.max?.any fun profit => decide (1e9 < profit)
    let maxLoss := payoffs.min?.map fun loss : ℚ =>
      if loss < -1e9 then (⊥ : WithBot ℚ) else loss
    let intrinsicValue := intrinsicTotal selectedLegs round8
    let extrinsicValue := extrinsicTotal selectedLegs round8
    { points
      maximumProfit := if unbounded then none else payoffs.max?
      maximumLoss := if unbounded then none else maxLoss
      breakevens := breakevenPoints round8 points
      definedRisk := template.riskClassification.definedRisk
      capitalAtRisk := maxLoss.map fun
        | ⊥ => ⊤
        | (loss : ℚ) => (|min 0 loss| : ℚ)
      creditOrDebit := creditOrDebit selectedLegs
      intrinsicValue
      extrinsicValue
      slopeRegions := slopeRegions points
      discontinuities := sortedSet (options.filterMap (·.strike))
      residualExposure :=
        [("delta_proxy", roundedMean round8 (selectedLegs.map fun leg => leg.delta.getD 0)),
          ("vega_proxy",
            roundedMean round8 (selectedLegs.map fun leg => leg.impliedVolatility.getD 0))]
      assignmentSensitive :=
        template.riskClassification.assignmentSensitivity ∈ [.medium, .high, .unbounded]
      dividendSensitive :=
        template.riskClassification.dividendSensitivity ∈ [.medium, .high, .unbounded]
      warnings :=
        (if options.any fun leg => leg.premium.isNone then ["missing_option_premium_data"]
          else []) ++
        (if options.any fun leg => leg.strike.isNone then ["missing_option_strike_data"]
          else []) ++
        (if intrinsicValue.isNone || extrinsicValue.isNone then
          ["intrinsic_extrinsic_unavailable"] else []) }

end OptionResearch.StrategyLibrary
