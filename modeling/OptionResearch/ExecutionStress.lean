import Mathlib.Algebra.Order.BigOperators.Group.List
import Mathlib.Tactic.Linarith
import Mathlib.Tactic.Positivity
import Mathlib.Tactic.Ring
import OptionResearch.RoundedNumbers

/-!
# Execution stress

`TransactionCostEngine` and `ExecutionStressTestEngine` of `backtesting/execution_calibration.py`.
The baseline cost leaves the baseline borrow and margin interest out. `rounding` is the source's
`round(x, 8)`; with `id` the figures are exact.
-/

namespace OptionResearch

structure ExecutionCalibrationRecord where
  requestedQuantity : Int
  filledQuantity : Int
  spreadWidth : Option ℚ
  executionDelaySeconds : ℚ
  commission : ℚ
  exchangeFees : ℚ
  slippage : ℚ
  spreadCapture : Option ℚ

/-- The charges that `aggregate` takes beside the records. -/
structure OtherCharges where
  regulatoryFees : ℚ := 0
  clearingFees : ℚ := 0
  exerciseFees : ℚ := 0
  assignmentFees : ℚ := 0
  stockCommissions : ℚ := 0
  borrowCharges : ℚ := 0
  marginInterest : ℚ := 0
  leggingCost : ℚ := 0
  marketImpactPlaceholder : ℚ := 0
  opportunityCost : ℚ := 0

structure TransactionCostBreakdown where
  commissions : ℚ
  exchangeFees : ℚ
  regulatoryFees : ℚ
  clearingFees : ℚ
  exerciseFees : ℚ
  assignmentFees : ℚ
  stockCommissions : ℚ
  borrowCharges : ℚ
  marginInterest : ℚ
  slippage : ℚ
  spreadCost : ℚ
  leggingCost : ℚ
  marketImpactPlaceholder : ℚ
  opportunityCost : ℚ
  totalCost : ℚ

structure ExecutionStressScenario where
  name : String
  spreadMultiplier : ℚ := 1
  delayMultiplier : ℚ := 1
  spreadCaptureShift : ℚ := 0
  fillRatioMultiplier : ℚ := 1
  commissionMultiplier : ℚ := 1
  exchangeFeeMultiplier : ℚ := 1
  borrowMultiplier : ℚ := 1
  marginInterestMultiplier : ℚ := 1

structure ExecutionStressResult where
  scenario : String
  totalCostDelta : ℚ
  avgFillRatio : ℚ
  avgDelaySeconds : ℚ
  warnings : List String

variable (rounding : ℚ → ℚ)

namespace ExecutionCalibrationRecord

variable (item : ExecutionCalibrationRecord)

def slippageCost : ℚ := |item.slippage| * (max 0 item.filledQuantity : Int)

def spreadCost : ℚ := max 0 (item.spreadWidth.getD 0) * (max 0 item.filledQuantity : Int) * (1 / 2)

def fillRatio : ℚ := (item.filledQuantity : ℚ) / (max 1 item.requestedQuantity : Int)

/-- The record as `run` rebuilds it. -/
def stressed (scenario : ExecutionStressScenario) : ExecutionCalibrationRecord where
  requestedQuantity := item.requestedQuantity
  filledQuantity := truncate (max 0 (item.filledQuantity * scenario.fillRatioMultiplier))
  spreadWidth := item.spreadWidth.map (· * scenario.spreadMultiplier)
  executionDelaySeconds := item.executionDelaySeconds * scenario.delayMultiplier
  commission := item.commission * scenario.commissionMultiplier
  exchangeFees := item.exchangeFees * scenario.exchangeFeeMultiplier
  slippage := item.slippage
  spreadCapture := item.spreadCapture.map (· + scenario.spreadCaptureShift)

end ExecutionCalibrationRecord

namespace TransactionCostEngine

/-- `aggregate`. -/
def aggregate (records : List ExecutionCalibrationRecord) (charges : OtherCharges) :
    TransactionCostBreakdown :=
  let commissions := (records.map fun item => max 0 item.commission).sum
  let exchange := (records.map fun item => max 0 item.exchangeFees).sum
  let slippage := (records.map (·.slippageCost)).sum
  let spreadCost := (records.map (·.spreadCost)).sum
  let total := commissions + exchange + charges.regulatoryFees + charges.clearingFees +
    charges.exerciseFees + charges.assignmentFees + charges.stockCommissions +
    charges.borrowCharges + charges.marginInterest + slippage + spreadCost + charges.leggingCost +
    charges.marketImpactPlaceholder + charges.opportunityCost
  { commissions := rounding commissions
    exchangeFees := rounding exchange
    regulatoryFees := rounding charges.regulatoryFees
    clearingFees := rounding charges.clearingFees
    exerciseFees := rounding charges.exerciseFees
    assignmentFees := rounding charges.assignmentFees
    stockCommissions := rounding charges.stockCommissions
    borrowCharges := rounding charges.borrowCharges
    marginInterest := rounding charges.marginInterest
    slippage := rounding slippage
    spreadCost := rounding spreadCost
    leggingCost := rounding charges.leggingCost
    marketImpactPlaceholder := rounding charges.marketImpactPlaceholder
    opportunityCost := rounding charges.opportunityCost
    totalCost := rounding total }

end TransactionCostEngine

namespace ExecutionStressTestEngine

open TransactionCostEngine

/-- `statistics.mean`. -/
def mean (values : List ℚ) : ℚ := values.sum / values.length

def warningsOf (scenario : ExecutionStressScenario) : List String :=
  if scenario.name ∈
      ["high_volatility_execution", "earnings_execution", "liquidity_withdrawal"] then
    ["stress_scenario_high_uncertainty"]
  else []

/-- `run`. -/
def run (records : List ExecutionCalibrationRecord) (scenario : ExecutionStressScenario)
    (baselineBorrow baselineMarginInterest : ℚ) : ExecutionStressResult :=
  if records = [] then
    { scenario := scenario.name, totalCostDelta := 0, avgFillRatio := 0, avgDelaySeconds := 0
      warnings := ["empty_dataset"] }
  else
    let baseCost := (aggregate rounding records {}).totalCost
    let stressedRecords := records.map (·.stressed scenario)
    let stressedCost := (aggregate rounding stressedRecords
      { borrowCharges := baselineBorrow * scenario.borrowMultiplier
        marginInterest := baselineMarginInterest * scenario.marginInterestMultiplier }).totalCost
    { scenario := scenario.name
      totalCostDelta := rounding (stressedCost - baseCost)
      avgFillRatio := rounding (mean (stressedRecords.map (·.fillRatio)))
      avgDelaySeconds := rounding (mean (stressedRecords.map (·.executionDelaySeconds)))
      warnings := warningsOf scenario }

/-! ### Neutral and larger multipliers -/

inductive CostMultiplier where
  | spread
  | commission
  | exchangeFee
  | borrow
  | marginInterest

/-- The scenario with another value of one cost multiplier. -/
def withMultiplier (scenario : ExecutionStressScenario) (multiplier : CostMultiplier) (value : ℚ) :
    ExecutionStressScenario :=
  match multiplier with
  | .spread => { scenario with spreadMultiplier := value }
  | .commission => { scenario with commissionMultiplier := value }
  | .exchangeFee => { scenario with exchangeFeeMultiplier := value }
  | .borrow => { scenario with borrowMultiplier := value }
  | .marginInterest => { scenario with marginInterestMultiplier := value }

structure NonnegativeCharges (records : List ExecutionCalibrationRecord)
    (baselineBorrow baselineMarginInterest : ℚ) : Prop where
  commission : ∀ item ∈ records, 0 ≤ item.commission
  exchangeFees : ∀ item ∈ records, 0 ≤ item.exchangeFees
  spreadWidth : ∀ item ∈ records, ∀ width ∈ item.spreadWidth, 0 ≤ width
  borrow : 0 ≤ baselineBorrow
  marginInterest : 0 ≤ baselineMarginInterest

/-- A neutral scenario has no effect, and larger cost multipliers never cost less. -/
structure Calibrated (records : List ExecutionCalibrationRecord)
    (baselineBorrow baselineMarginInterest : ℚ) : Prop where
  delta : ∀ name, (run id records { name } baselineBorrow baselineMarginInterest).totalCostDelta = 0
  fillRatio : ∀ name, (run id records { name } baselineBorrow baselineMarginInterest).avgFillRatio =
    mean (records.map (·.fillRatio))
  delay : ∀ name, (run id records { name } baselineBorrow baselineMarginInterest).avgDelaySeconds =
    mean (records.map (·.executionDelaySeconds))
  monotone : NonnegativeCharges records baselineBorrow baselineMarginInterest →
    ∀ scenario multiplier, Monotone fun value =>
      (run id records (withMultiplier scenario multiplier value) baselineBorrow
        baselineMarginInterest).totalCostDelta

section Deltas

variable {records : List ExecutionCalibrationRecord} {item : ExecutionCalibrationRecord}
  {scenario other : ExecutionStressScenario} {baselineBorrow baselineMarginInterest : ℚ}

/-- What a record itself costs. -/
def cost (item : ExecutionCalibrationRecord) : ℚ :=
  max 0 item.commission + max 0 item.exchangeFees + item.slippageCost + item.spreadCost

theorem totalCost_aggregate (borrow interest : ℚ) :
    (aggregate id records { borrowCharges := borrow, marginInterest := interest }).totalCost =
      (records.map cost).sum + borrow + interest := by
  have hsum : (records.map cost).sum = (records.map fun item => max 0 item.commission).sum +
      (records.map fun item => max 0 item.exchangeFees).sum +
      (records.map (·.slippageCost)).sum + (records.map (·.spreadCost)).sum := by
    simp only [← List.sum_map_add]
    rfl
  simp only [aggregate, id_eq, hsum]
  ring

theorem totalCostDelta_run (hrecords : records ≠ []) :
    (run id records scenario baselineBorrow baselineMarginInterest).totalCostDelta =
      ((records.map (·.stressed scenario)).map cost).sum +
        baselineBorrow * scenario.borrowMultiplier +
        baselineMarginInterest * scenario.marginInterestMultiplier - (records.map cost).sum := by
  have hbase := @totalCost_aggregate records 0 0
  have hstressed := @totalCost_aggregate (records.map (·.stressed scenario))
    (baselineBorrow * scenario.borrowMultiplier)
    (baselineMarginInterest * scenario.marginInterestMultiplier)
  rw [run, if_neg hrecords]
  simp only [id_eq]
  rw [hstressed, hbase]
  ring

theorem stressed_neutral (name : String) (hfilled : 0 ≤ item.filledQuantity) :
    item.stressed { name } = item := by
  have hquantity : truncate (max 0 (item.filledQuantity : ℚ)) = item.filledQuantity := by
    rw [max_eq_right (Int.cast_nonneg hfilled), truncate_eq_floor (Int.cast_nonneg hfilled),
      Int.floor_intCast]
  simp only [ExecutionCalibrationRecord.stressed, mul_one, hquantity, add_zero, Option.map_id']

theorem stressed_neutral_map (name : String) (hfilled : ∀ item ∈ records, 0 ≤ item.filledQuantity) :
    records.map (·.stressed { name }) = records :=
  (List.map_congr_left fun item hitem => stressed_neutral name (hfilled item hitem)).trans
    (List.map_id' records)

/-- The scenario is the other one with cost multipliers that are no larger. -/
structure NoLarger (scenario other : ExecutionStressScenario) : Prop where
  fillRatio : scenario.fillRatioMultiplier = other.fillRatioMultiplier
  spread : scenario.spreadMultiplier ≤ other.spreadMultiplier
  commission : scenario.commissionMultiplier ≤ other.commissionMultiplier
  exchangeFee : scenario.exchangeFeeMultiplier ≤ other.exchangeFeeMultiplier
  borrow : scenario.borrowMultiplier ≤ other.borrowMultiplier
  marginInterest : scenario.marginInterestMultiplier ≤ other.marginInterestMultiplier

theorem noLarger_withMultiplier (multiplier : CostMultiplier) {value larger : ℚ}
    (hle : value ≤ larger) :
    NoLarger (withMultiplier scenario multiplier value)
      (withMultiplier scenario multiplier larger) := by
  cases multiplier
  case spread => exact ⟨rfl, hle, le_rfl, le_rfl, le_rfl, le_rfl⟩
  case commission => exact ⟨rfl, le_rfl, hle, le_rfl, le_rfl, le_rfl⟩
  case exchangeFee => exact ⟨rfl, le_rfl, le_rfl, hle, le_rfl, le_rfl⟩
  case borrow => exact ⟨rfl, le_rfl, le_rfl, le_rfl, hle, le_rfl⟩
  case marginInterest => exact ⟨rfl, le_rfl, le_rfl, le_rfl, le_rfl, hle⟩

theorem cost_stressed_le (h : NoLarger scenario other) (hcommission : 0 ≤ item.commission)
    (hexchange : 0 ≤ item.exchangeFees) (hspread : ∀ width ∈ item.spreadWidth, 0 ≤ width) :
    cost (item.stressed scenario) ≤ cost (item.stressed other) := by
  have hwidth : (item.spreadWidth.map (· * scenario.spreadMultiplier)).getD 0 ≤
      (item.spreadWidth.map (· * other.spreadMultiplier)).getD 0 := by
    rcases hsome : item.spreadWidth with _ | width
    · exact le_rfl
    · exact mul_le_mul_of_nonneg_left h.spread (hspread width hsome)
  have hcommission' := mul_le_mul_of_nonneg_left h.commission hcommission
  have hexchange' := mul_le_mul_of_nonneg_left h.exchangeFee hexchange
  have hspread' := max_le_max_left 0 hwidth
  simp only [cost, ExecutionCalibrationRecord.stressed, ExecutionCalibrationRecord.slippageCost,
    ExecutionCalibrationRecord.spreadCost, h.fillRatio]
  gcongr

theorem totalCostDelta_le (hrecords : records ≠ [])
    (hcharges : NonnegativeCharges records baselineBorrow baselineMarginInterest)
    (h : NoLarger scenario other) :
    (run id records scenario baselineBorrow baselineMarginInterest).totalCostDelta ≤
      (run id records other baselineBorrow baselineMarginInterest).totalCostDelta := by
  have hcost : ((records.map (·.stressed scenario)).map cost).sum ≤
      ((records.map (·.stressed other)).map cost).sum := by
    rw [List.map_map, List.map_map]
    exact List.sum_le_sum fun item hitem => cost_stressed_le h (hcharges.commission item hitem)
      (hcharges.exchangeFees item hitem) (hcharges.spreadWidth item hitem)
  have hborrow := mul_le_mul_of_nonneg_left h.borrow hcharges.borrow
  have hinterest := mul_le_mul_of_nonneg_left h.marginInterest hcharges.marginInterest
  rw [totalCostDelta_run hrecords, totalCostDelta_run hrecords]
  linarith

/-- The neutral scenario adds exactly the baseline charges. -/
theorem calibrated_iff (hrecords : records ≠ [])
    (hquantities : ∀ item ∈ records, 0 ≤ item.requestedQuantity ∧ 0 ≤ item.filledQuantity) :
    Calibrated records baselineBorrow baselineMarginInterest ↔
      baselineBorrow + baselineMarginInterest = 0 := by
  have hneutral := fun name => stressed_neutral_map name fun item hitem =>
    (hquantities item hitem).2
  have hdelta : ∀ name,
      (run id records { name } baselineBorrow baselineMarginInterest).totalCostDelta =
        baselineBorrow + baselineMarginInterest := by
    intro name
    rw [totalCostDelta_run hrecords, hneutral]
    ring
  constructor
  · intro h
    rw [← hdelta "neutral", h.delta]
  · intro hzero
    exact {
      delta := fun name => (hdelta name).trans hzero
      fillRatio := fun name => by
        rw [run, if_neg hrecords, hneutral]
        rfl
      delay := fun name => by
        rw [run, if_neg hrecords, hneutral]
        rfl
      monotone := fun hcharges scenario multiplier value larger hle =>
        totalCostDelta_le hrecords hcharges (noLarger_withMultiplier multiplier hle) }

end Deltas

/-- Eight of ten contracts were filled. -/
def optionFill : ExecutionCalibrationRecord where
  requestedQuantity := 10
  filledQuantity := 8
  spreadWidth := some (1 / 10)
  executionDelaySeconds := 3
  commission := 13 / 10
  exchangeFees := 1 / 10
  slippage := 3 / 100
  spreadCapture := none

theorem calibrated_iff_unborrowed : Calibrated [optionFill] 0 0 :=
  (calibrated_iff (List.cons_ne_nil _ _) (by decide)).mpr (add_zero 0)

/-- The neutral scenario is charged the baseline borrow and margin interest. -/
theorem neutral_charged_baseline :
    (run id [optionFill] { name := "neutral" } 2 3).totalCostDelta = 5 ∧
      ¬ Calibrated [optionFill] 2 3 := by
  have hcharged : (run id [optionFill] { name := "neutral" } 2 3).totalCostDelta = 5 := by
    decide +kernel
  refine ⟨hcharged, fun h => ?_⟩
  rw [h.delta] at hcharged
  exact absurd hcharged (by decide)

end ExecutionStressTestEngine
end OptionResearch
