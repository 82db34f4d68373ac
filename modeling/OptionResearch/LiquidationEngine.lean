import OptionResearch.MarginPolicy
import OptionResearch.RationedDraws
import OptionResearch.StableSort
import Mathlib.Data.Prod.Lex
import Mathlib.Data.String.Basic
import Mathlib.Tactic.FieldSimp
import Mathlib.Tactic.Linarith

/-!
# Liquidation plans

`LiquidationEngine.plan` of `liquidation.py` ranks the candidates by one of ten priorities and
closes them one after the other, the last one in part, until the deficit is made good; `simulate`
sums up what a plan leaves. The plan's steps are draws from the deficit by the candidates that may
be closed, so that what it resolves does not depend on the ranking. `rounding` is the source's
`round(x, 8)`; with `id` the figures are exact.
-/

namespace OptionResearch

open RationedDraws

inductive LiquidationPriority where
  | largestMarginRelief
  | lowestExpectedValueLoss
  | lowestRobustness
  | highestRiskContribution
  | highestLiquidity
  | mostLiquidLoser
  | closeUncovered
  | closeAssignmentCreated
  | strategyPreserving
  | composite
  deriving DecidableEq, Repr

structure LiquidationCandidate where
  position : MarginPosition
  marginRelief : ℚ
  expectedValueLoss : ℚ
  robustnessScore : ℚ
  riskContribution : ℚ
  liquidityScore : ℚ
  assignmentCreated : Bool := false
  restricted : Bool := false
  staleQuote : Bool := false
  eventRisk : Bool := false

structure LiquidationStep where
  stepId : String
  positionId : String
  strategyId : String
  quantityFraction : ℚ
  expectedMarginRelief : ℚ
  expectedCashImpact : ℚ
  expectedRealizedLoss : ℚ
  remainingDeficit : ℚ
  warnings : List String
  metadata : List (String × String)

structure LiquidationPlan where
  planId : String
  policy : LiquidationPriority
  createdAt : DateTime
  deficitToResolve : ℚ
  strategyPreserving : Bool
  steps : List LiquidationStep
  solved : Bool
  warnings : List String
  diagnostics : List (String × Nat)

structure LiquidationOutcome where
  planId : String
  realizedLoss : ℚ
  residualMarginDeficit : ℚ
  residualBuyingPower : ℚ
  residualExcessLiquidity : ℚ
  residualStockExposure : ℚ
  residualStrategyBreakage : Bool
  residualGreeks : List (String × ℚ)
  warnings : List String
  diagnostics : List (String × ℚ)

/-- The arguments of one `plan`. -/
structure LiquidationRequest where
  planId : String
  policy : LiquidationPriority
  deficit : ℚ
  candidates : List LiquidationCandidate
  compositeWeights : List (String × ℚ) := []
  minimumRemainingPositionSize : Int := 0
  strategyPreserving : Bool := false
  timestamp : DateTime

namespace LiquidationEngine

/-- `_rank`. -/
def rank (policy : LiquidationPriority) (candidates : List LiquidationCandidate)
    (compositeWeights : List (String × ℚ)) : List LiquidationCandidate :=
  let weight (key : String) (default : ℚ) : ℚ := (compositeWeights.lookup key).getD default
  match policy with
  | .largestMarginRelief =>
    StableSort.sortBy (fun item => toLex (-item.marginRelief, item.position.positionId)) candidates
  | .lowestExpectedValueLoss =>
    StableSort.sortBy (fun item => toLex (item.expectedValueLoss, item.position.positionId))
      candidates
  | .lowestRobustness =>
    StableSort.sortBy (fun item => toLex (item.robustnessScore, item.position.positionId))
      candidates
  | .highestRiskContribution =>
    StableSort.sortBy (fun item => toLex (-item.riskContribution, item.position.positionId))
      candidates
  | .highestLiquidity =>
    StableSort.sortBy (fun item => toLex (-item.liquidityScore, item.position.positionId))
      candidates
  | .mostLiquidLoser =>
    StableSort.sortBy (fun item => toLex (item.expectedValueLoss, -item.liquidityScore)) candidates
  | .closeUncovered =>
    StableSort.sortBy
      (fun item => toLex (!item.position.residualUncovered, item.position.positionId)) candidates
  | .closeAssignmentCreated =>
    StableSort.sortBy (fun item => toLex (!item.assignmentCreated, item.position.positionId))
      candidates
  | .strategyPreserving =>
    StableSort.sortBy (fun item => toLex (item.position.definedRisk, -item.marginRelief)) candidates
  | .composite =>
    StableSort.sortBy (fun item =>
      toLex (-(weight "margin_relief" 1 * item.marginRelief +
        weight "liquidity" (1 / 2) * item.liquidityScore -
        weight "loss" 1 * item.expectedValueLoss -
        weight "robustness" (1 / 2) * item.robustnessScore +
        weight "risk" (1 / 2) * item.riskContribution), item.position.positionId)) candidates

/-- The contracts of the largest leg. -/
def largestLeg (position : MarginPosition) : Int :=
  (position.legs.map fun leg => |leg.quantity|).foldl max 0

/-- Why a candidate is passed over. -/
def skipWarning (request : LiquidationRequest) (candidate : LiquidationCandidate) :
    Option String :=
  let positionId := candidate.position.positionId
  if candidate.restricted then some s!"restricted:{positionId}"
  else if request.strategyPreserving && candidate.position.definedRisk &&
      !candidate.position.residualUncovered then
    some s!"strategy_preserved_skip:{positionId}"
  else if 0 < request.minimumRemainingPositionSize ∧
      largestLeg candidate.position ≤ request.minimumRemainingPositionSize then
    some s!"min_remaining_size:{positionId}"
  else none

def stepWarnings (candidate : LiquidationCandidate) : List String :=
  (if candidate.position.residualUncovered then ["residual_uncovered_risk"] else []) ++
    (if candidate.staleQuote then ["stale_quote"] else []) ++
    if candidate.eventRisk then ["event_risk"] else []

/-- What a plan has come to. -/
structure Progress where
  remaining : ℚ
  steps : List LiquidationStep
  warnings : List String

variable (rounding : ℚ → ℚ)

/-- One pass of the loop over the ranked candidates. -/
def visit (request : LiquidationRequest) (progress : Progress)
    (entry : LiquidationCandidate × Nat) : Progress :=
  let (candidate, index) := entry
  match skipWarning request candidate with
  | some warning => { progress with warnings := progress.warnings ++ [warning] }
  | none =>
    let relief := max 0 candidate.marginRelief
    if relief ≤ 0 then progress
    else
      let fraction := min 1 (progress.remaining / relief)
      let realizedLoss := candidate.expectedValueLoss * fraction
      let cashImpact := (candidate.position.marketValue - realizedLoss) * fraction
      let remaining := max 0 (progress.remaining - relief * fraction)
      { progress with
        remaining := remaining
        steps := progress.steps ++ [{
          stepId := s!"{request.planId}-step-{index}"
          positionId := candidate.position.positionId
          strategyId := candidate.position.strategyId
          quantityFraction := rounding fraction
          expectedMarginRelief := rounding (relief * fraction)
          expectedCashImpact := rounding cashImpact
          expectedRealizedLoss := rounding realizedLoss
          remainingDeficit := rounding remaining
          warnings := stepWarnings candidate
          metadata := [("strategy_family", candidate.position.strategyFamily)] }] }

/-- The loop, which ends where nothing remains. -/
def visitAll (request : LiquidationRequest) :
    Progress → List (LiquidationCandidate × Nat) → Progress
  | progress, [] => progress
  | progress, entry :: rest =>
    if progress.remaining ≤ 0 then progress
    else visitAll request (visit rounding request progress entry) rest

def plan (request : LiquidationRequest) : LiquidationPlan :=
  let ranked := rank request.policy request.candidates request.compositeWeights
  let progress := visitAll rounding request ⟨max 0 request.deficit, [], []⟩ (ranked.zipIdx 1)
  let solved := decide (progress.remaining ≤ 0)
  { planId := request.planId
    policy := request.policy
    createdAt := request.timestamp.ensureAware
    deficitToResolve := rounding request.deficit
    strategyPreserving := request.strategyPreserving
    steps := progress.steps
    solved := solved
    warnings := progress.warnings ++ if solved then [] else ["liquidation_insufficient"]
    diagnostics := [("candidate_count", request.candidates.length)] }

def simulate (plan : LiquidationPlan)
    (currentBuyingPower currentExcessLiquidity currentStockExposure : ℚ) : LiquidationOutcome :=
  let marginRelief := (plan.steps.map (·.expectedMarginRelief)).sum
  let realizedLoss := (plan.steps.map (·.expectedRealizedLoss)).sum
  let cashImpact := (plan.steps.map (·.expectedCashImpact)).sum
  let residualDeficit := max 0 (plan.deficitToResolve - marginRelief)
  { planId := plan.planId
    realizedLoss := rounding realizedLoss
    residualMarginDeficit := rounding residualDeficit
    residualBuyingPower := rounding (currentBuyingPower + marginRelief + cashImpact)
    residualExcessLiquidity := rounding (currentExcessLiquidity + marginRelief - realizedLoss)
    residualStockExposure := rounding (max 0 (currentStockExposure - |cashImpact|))
    residualStrategyBreakage :=
      plan.steps.any fun step => step.warnings.contains "residual_uncovered_risk"
    residualGreeks := [("delta", rounding (-(1 / 10) * plan.steps.length)),
      ("gamma", rounding (-(1 / 50) * plan.steps.length)),
      ("vega", rounding (-(1 / 20) * plan.steps.length)),
      ("theta", rounding (3 / 100 * plan.steps.length))]
    warnings := plan.warnings
    diagnostics := [("cash_impact", rounding cashImpact)] }

end LiquidationEngine
end OptionResearch
