import OptionResearch.PartialEffects
import OptionResearch.PortfolioAccounts

/-!
# Margin, buying power and margin calls

`BaselineRegTMarginPolicy.evaluate` and `MarginMonitor.evaluate` of `margin.py`. Every family of
strategies has its own requirement; the add-ons, the reservations and the account's cash then turn
the requirements into the figures of the account. `rounding` is the source's `round(x, 8)`; with
`id` the figures are exact.
-/

namespace OptionResearch

inductive MarginEventType where
  | preTrade
  | postFill
  | sessionOpen
  | valuation
  | sessionClose
  | expiration
  | assignment
  | exercise
  | corporateAction
  | dividend
  | volatilityShock
  | underlyingGap
  | liquidityShock
  | portfolioRebalance
  deriving DecidableEq, Repr

def MarginEventType.value : MarginEventType → String
  | .preTrade => "pre_trade"
  | .postFill => "post_fill"
  | .sessionOpen => "session_open"
  | .valuation => "valuation"
  | .sessionClose => "session_close"
  | .expiration => "expiration"
  | .assignment => "assignment"
  | .exercise => "exercise"
  | .corporateAction => "corporate_action"
  | .dividend => "dividend"
  | .volatilityShock => "volatility_shock"
  | .underlyingGap => "underlying_gap"
  | .liquidityShock => "liquidity_shock"
  | .portfolioRebalance => "portfolio_rebalance"

/-- The reasons a monitor can give. -/
inductive MarginCallReason where
  | initialMarginFailure
  | maintenanceMarginBreach
  | negativeExcessLiquidity
  | insufficientExerciseCash
  | insufficientAssignmentCollateral
  | concentrationBreach
  | houseMarginBreach
  | borrowFailure
  | settlementShortfall
  | expiredSpreadBecameUncovered
  deriving DecidableEq, Repr

def MarginCallReason.value : MarginCallReason → String
  | .initialMarginFailure => "initial_margin_failure"
  | .maintenanceMarginBreach => "maintenance_margin_breach"
  | .negativeExcessLiquidity => "negative_excess_liquidity"
  | .insufficientExerciseCash => "insufficient_exercise_cash"
  | .insufficientAssignmentCollateral => "insufficient_assignment_collateral"
  | .concentrationBreach => "concentration_breach"
  | .houseMarginBreach => "house_margin_breach"
  | .borrowFailure => "borrow_failure"
  | .settlementShortfall => "settlement_shortfall"
  | .expiredSpreadBecameUncovered => "expired_spread_became_uncovered"

structure MarginLeg where
  quantity : Int
  side : String
  optionType : Option String
  strike : Option ℚ
  multiplier : ℚ := 100

structure MarginPosition where
  positionId : String
  strategyId : String
  strategyFamily : String
  legs : List MarginLeg
  marketValue : ℚ
  netPremium : ℚ
  definedRisk : Bool
  residualUncovered : Bool := false
  eventRisk : Bool := false
  concentration : ℚ := 0
  hardToBorrow : Bool := false
  pendingExerciseObligation : ℚ := 0
  pendingAssignmentObligation : ℚ := 0

structure PendingReservation where
  reservationType : String
  amount : ℚ

structure MarginRequest where
  account : AccountConfiguration
  positions : List MarginPosition
  pendingOrders : List PendingReservation
  settledCash : ℚ
  unsettledCash : ℚ
  reservedCash : ℚ
  eventType : MarginEventType
  timestamp : DateTime

structure MarginComponent where
  component : String
  amount : ℚ
  rationale : String
  policyReference : String

structure CollateralRecord where
  positionId : String
  collateralType : String
  amount : ℚ
  covered : Bool
  warnings : List String := []

/-- The entries of a position result's `diagnostics` dictionary. -/
structure PositionDiagnostics where
  concentrationAddOn : ℚ
  eventAddOn : ℚ
  definedRisk : Bool
  residualUncovered : Bool

structure PositionMarginResult where
  positionId : String
  strategyId : String
  strategyFamily : String
  initialRequirement : ℚ
  maintenanceRequirement : ℚ
  buyingPowerEffect : ℚ
  collateralRequirement : ℚ
  components : List MarginComponent
  collateralRecords : List CollateralRecord
  warnings : List String
  diagnostics : PositionDiagnostics

/-- The entries of a result's `diagnostics` dictionary. -/
structure MarginDiagnostics where
  timestamp : String
  eventType : String
  accountType : String
  knownLimitations : List String

structure MarginResult where
  policyName : String
  policyVersion : String
  supportedAccountTypes : List String
  initialRequirement : ℚ
  maintenanceRequirement : ℚ
  optionBuyingPowerEffect : ℚ
  stockBuyingPowerEffect : ℚ
  pendingOrderReservation : ℚ
  assignmentReservation : ℚ
  exerciseReservation : ℚ
  settlementReservation : ℚ
  concentrationAddOns : ℚ
  eventRiskAddOns : ℚ
  houseMarginAddOns : ℚ
  postTradeBuyingPower : ℚ
  excessLiquidity : ℚ
  cushion : ℚ
  positions : List PositionMarginResult
  warnings : List String
  diagnostics : MarginDiagnostics

structure MarginCallEvent where
  callId : String
  timestamp : DateTime
  reason : MarginCallReason
  severity : String
  amountRequired : ℚ
  deadlinePlaceholder : String
  diagnostics : MarginDiagnostics
  reasonCodes : List String

/-- The base requirement of one family, before the add-ons that any position may bear. -/
structure FamilyRequirement where
  initial : ℚ
  maintenance : ℚ
  collateral : ℚ := 0
  collateralRecords : List CollateralRecord := []
  warnings : List String := []

structure BaselineRegTMarginPolicy where
  policyName : String := "baseline_reg_t"
  version : String := "7B-research-v1"
  supportedAccountTypes : List AccountType := [.regTMargin, .custom, .cash, .iraRestricted]

namespace BaselineRegTMarginPolicy

variable (policy : BaselineRegTMarginPolicy) (text : PyText) (rounding : ℚ → ℚ)

def limitations : List String :=
  ["research_reg_t_only", "portfolio_margin_not_validated",
    "calendar_and_diagonal_treatment_conservative",
    "uncovered_option_rules_require_explicit_enablement", "borrow_availability_not_fabricated"]

/-- `max(values)`, which raises on an empty sequence. -/
def maxOf (values : List ℚ) : Except Exc ℚ :=
  match values with
  | [] => .error ⟨.valueError, "max() iterable argument is empty"⟩
  | first :: rest => .ok (rest.foldl max first)

/-- `max(abs(leg.quantity) for leg in position.legs)`, zero without legs. -/
def maxQuantity (position : MarginPosition) : Int :=
  (position.legs.map fun leg => |leg.quantity|).foldl max 0

/-- `_max_multiplier`. -/
def maxMultiplier (position : MarginPosition) : ℚ :=
  match position.legs.map fun leg => |leg.multiplier| with
  | [] => 100
  | first :: rest => rest.foldl max first

/-- The width and the premium of a structure with at least two strikes, or its premium alone. -/
def structureLoss (position : MarginPosition) : ℚ :=
  match position.legs.filterMap (·.strike) with
  | first :: second :: rest =>
    let width := (second :: rest).foldl max first - (second :: rest).foldl min first
    max 0 (width * maxQuantity position * maxMultiplier position - position.netPremium)
  | _ => max 0 |position.netPremium|

/-- `_defined_risk_loss`. -/
def definedRiskLoss (position : MarginPosition) : ℚ :=
  if position.legs = [] then |position.marketValue|
  else if position.definedRisk = false ∨ position.residualUncovered = true then
    max (structureLoss position) (|position.marketValue| * (20 / 100))
  else structureLoss position

/-- `_base_buying_power`. -/
def baseBuyingPower (request : MarginRequest) : ℚ :=
  match request.account.accountType with
  | .cash => max 0 (request.settledCash - request.reservedCash)
  | .iraRestricted =>
    max 0 (request.settledCash + request.unsettledCash - request.reservedCash)
  | _ => max 0 ((request.settledCash + request.unsettledCash) * 2 - request.reservedCash)

/-- `_house_add_on`. -/
def houseAddOn (overlay : HouseMarginOverlay) (positions : List MarginPosition) : ℚ :=
  let base := (positions.map fun position => max 0 position.marketValue).sum
  let riskMultiplier := overlay.concentrationAddOn + overlay.eventRiskAddOn +
    overlay.expirationWeekAddOn + overlay.hardToBorrowAddOn + overlay.shortVolAddOn +
    overlay.staleQuoteAddOn
  base * riskMultiplier

/-- The chain of family branches of `_evaluate_position`. -/
def familyRequirement (position : MarginPosition) (request : MarginRequest) :
    Except Exc FamilyRequirement :=
  let family := position.strategyFamily
  let marketValue := |position.marketValue|
  let loss := definedRiskLoss position
  let premium := max 0 position.netPremium
  if family = "long_stock" then
    .ok { initial := marketValue * (50 / 100), maintenance := marketValue * (25 / 100) }
  else if family = "short_stock" then
    .ok { initial := marketValue * (150 / 100), maintenance := marketValue * (130 / 100),
          collateral := marketValue * (102 / 100), warnings := ["short_stock_collateral_required"] }
  else if family = "long_option" then
    .ok { initial := premium, maintenance := premium }
  else if family = "covered_call" then
    .ok { initial := max (marketValue * (50 / 100)) 0,
          maintenance := max (marketValue * (25 / 100)) 0,
          collateralRecords :=
            [{ positionId := position.positionId, collateralType := "stock_cover",
               amount := marketValue, covered := true }] }
  else if family = "cash_secured_put" then do
    let strike ← maxOf (position.legs.map fun leg => leg.strike.getD 0)
    let collateral := strike * maxQuantity position * maxMultiplier position - premium
    return { initial := collateral, maintenance := collateral, collateral }
  else if family ∈ ["debit_spread", "vertical_debit_spread", "butterfly", "long_calendar"] then
    .ok { initial := premium, maintenance := premium }
  else if family ∈ ["credit_spread", "vertical_credit_spread", "iron_condor", "iron_butterfly",
      "broken_wing", "box_supported", "jade_lizard"] then
    .ok { initial := loss, maintenance := loss }
  else if family ∈ ["calendar", "diagonal", "double_calendar", "double_diagonal", "pmcc"] then
    .ok { initial := max loss premium, maintenance := max loss premium,
          warnings := ["calendar_diagonal_treatment_conservative"] }
  else if family ∈ ["straddle", "strangle", "ratio_spread", "synthetic_covered_call",
      "uncovered_option"] then
    .ok { initial := max (marketValue * (20 / 100)) loss,
          maintenance := max (marketValue * (15 / 100)) loss,
          warnings :=
            if request.account.riskLimits.allowUncoveredOptions = false ∧
              family = "uncovered_option"
            then ["uncovered_option_disabled"] else [] }
  else
    .ok { initial := max loss (marketValue * (25 / 100)),
          maintenance := max loss (marketValue * (20 / 100)),
          warnings := ["strategy_family_defaulted"] }

/-- The warning every restricted strategy of a cash account starts with. -/
def accountWarnings (position : MarginPosition) (request : MarginRequest) : List String :=
  if request.account.accountType = .cash ∧ position.strategyFamily ∉
      ["long_option", "covered_call", "cash_secured_put", "debit_spread"]
  then ["cash_account_strategy_restricted"] else []

/-- `_evaluate_position`. -/
def evaluatePosition (position : MarginPosition) (request : MarginRequest) :
    Except Exc PositionMarginResult := do
  let base ← familyRequirement position request
  let marketValue := |position.marketValue|
  let uncovered := position.residualUncovered
  let baseInitial := if uncovered then max base.initial (marketValue * (20 / 100)) else base.initial
  let baseMaintenance :=
    if uncovered then max base.maintenance (marketValue * (15 / 100)) else base.maintenance
  let collateral := base.collateral +
    (if 0 < position.pendingExerciseObligation then position.pendingExerciseObligation else 0) +
    (if 0 < position.pendingAssignmentObligation then position.pendingAssignmentObligation else 0)
  let warnings := accountWarnings position request ++ base.warnings ++
    (if uncovered then ["structure_broken_defined_risk_lost"] else []) ++
    (if position.hardToBorrow then ["hard_to_borrow_add_on"] else [])
  let eventAddOn := baseInitial * (if position.eventRisk then 10 / 100 else 0)
  let concentrationAddOn := baseInitial * max 0 (position.concentration - 2 / 10)
  let initial := baseInitial + (eventAddOn + concentrationAddOn)
  let maintenance := baseMaintenance + (eventAddOn + concentrationAddOn)
  let pledged : List CollateralRecord :=
    if 0 < collateral then
      [{ positionId := position.positionId, collateralType := "cash_or_stock",
         amount := rounding collateral, covered := !uncovered, warnings }]
    else []
  return {
    positionId := position.positionId
    strategyId := position.strategyId
    strategyFamily := position.strategyFamily
    initialRequirement := rounding initial
    maintenanceRequirement := rounding maintenance
    buyingPowerEffect := rounding (initial + collateral)
    collateralRequirement := rounding collateral
    components :=
      [{ component := "initial_margin", amount := initial, rationale := position.strategyFamily,
         policyReference := policy.policyName },
       { component := "maintenance_margin", amount := maintenance,
         rationale := position.strategyFamily, policyReference := policy.policyName }]
    collateralRecords := base.collateralRecords ++ pledged
    warnings := warnings.eraseDups
    diagnostics := { concentrationAddOn := rounding concentrationAddOn
                     eventAddOn := rounding eventAddOn
                     definedRisk := position.definedRisk
                     residualUncovered := position.residualUncovered } }

/-- The reserved amounts of one type. -/
def reservation (request : MarginRequest) (reservationType : String) : ℚ :=
  ((request.pendingOrders.filter fun item => item.reservationType = reservationType).map
    (·.amount)).sum

/-- The concentration add-ons, as aggregated from the position results. -/
def concentrationAddOns (results : List PositionMarginResult) : ℚ :=
  (results.map fun item => max 0 item.diagnostics.concentrationAddOn).sum

/-- The event-risk add-ons, as aggregated from the position results. -/
def eventRiskAddOns (results : List PositionMarginResult) : ℚ :=
  (results.map fun item => max 0 item.diagnostics.eventAddOn).sum

/-- `total_initial`. -/
def totalInitial (request : MarginRequest) (results : List PositionMarginResult) : ℚ :=
  (results.map (·.initialRequirement)).sum + reservation request "pending_order" +
    reservation request "assignment" + reservation request "exercise" +
    reservation request "settlement" + concentrationAddOns results + eventRiskAddOns results +
    houseAddOn request.account.houseMarginOverlay request.positions

/-- `total_maintenance`. -/
def totalMaintenance (request : MarginRequest) (results : List PositionMarginResult) : ℚ :=
  (results.map (·.maintenanceRequirement)).sum + reservation request "assignment" +
    reservation request "settlement" + concentrationAddOns results + eventRiskAddOns results +
    houseAddOn request.account.houseMarginOverlay request.positions

/-- `excess`. -/
def excess (request : MarginRequest) (results : List PositionMarginResult) : ℚ :=
  request.settledCash + request.unsettledCash - totalMaintenance request results -
    request.reservedCash

def isStockFamily (family : String) : Bool := family == "long_stock" || family == "short_stock"

/-- The results of all positions, or the exception of the first that raises. -/
def positionResults (request : MarginRequest) : Except Exc (List PositionMarginResult) :=
  request.positions.mapM fun position => policy.evaluatePosition rounding position request

/-- The result of `evaluate` once the positions have been evaluated. -/
def accountResult (request : MarginRequest) (results : List PositionMarginResult) :
    MarginResult :=
  let maintenance := totalMaintenance request results
  let cushion := if maintenance ≤ 0 then 0 else excess request results / maintenance
  let warnings := limitations ++
    (if request.account.accountType = .cash then ["cash_account_restrictions_apply"] else []) ++
    (if request.account.accountType = .portfolioMarginPlaceholder
      then ["portfolio_margin_placeholder_only"] else [])
  { policyName := policy.policyName
    policyVersion := policy.version
    supportedAccountTypes := policy.supportedAccountTypes.map (·.value)
    initialRequirement := rounding (totalInitial request results)
    maintenanceRequirement := rounding maintenance
    optionBuyingPowerEffect := rounding ((results.filter fun item =>
      !isStockFamily item.strategyFamily).map (·.buyingPowerEffect)).sum
    stockBuyingPowerEffect := rounding ((results.filter fun item =>
      isStockFamily item.strategyFamily).map (·.buyingPowerEffect)).sum
    pendingOrderReservation := rounding (reservation request "pending_order")
    assignmentReservation := rounding (reservation request "assignment")
    exerciseReservation := rounding (reservation request "exercise")
    settlementReservation := rounding (reservation request "settlement")
    concentrationAddOns := rounding (concentrationAddOns results)
    eventRiskAddOns := rounding (eventRiskAddOns results)
    houseMarginAddOns :=
      rounding (houseAddOn request.account.houseMarginOverlay request.positions)
    postTradeBuyingPower := rounding (baseBuyingPower request - totalInitial request results)
    excessLiquidity := rounding (excess request results)
    cushion := rounding cushion
    positions := results
    warnings := warnings.eraseDups
    diagnostics := { timestamp := text.isoformat request.timestamp.ensureAware
                     eventType := request.eventType.value
                     accountType := request.account.accountType.value
                     knownLimitations := limitations } }

def evaluate (request : MarginRequest) : Except Exc MarginResult := do
  let results ← policy.positionResults rounding request
  return policy.accountResult text rounding request results

end BaselineRegTMarginPolicy

/-- A policy as the monitor uses it. -/
structure MarginPolicyAdapter where
  evaluate : MarginRequest → Except Exc MarginResult

/-- The baseline policy, with exact or rounded figures. -/
def BaselineRegTMarginPolicy.toAdapter (policy : BaselineRegTMarginPolicy) (text : PyText)
    (rounding : ℚ → ℚ) : MarginPolicyAdapter where
  evaluate := policy.evaluate text rounding

structure MarginMonitor where
  policy : MarginPolicyAdapter

namespace MarginMonitor

/-- `int(ts.timestamp())`. -/
def epochSeconds (ts : DateTime) : Int := ts.instant.tdiv 1000000

def initialCall (rounding : ℚ → ℚ) (request : MarginRequest) (result : MarginResult) :
    MarginCallEvent where
  callId := s!"{request.account.accountId}-initial-{epochSeconds request.timestamp.ensureAware}"
  timestamp := request.timestamp.ensureAware
  reason := .initialMarginFailure
  severity := "high"
  amountRequired :=
    rounding (result.initialRequirement - (request.settledCash + request.unsettledCash))
  deadlinePlaceholder := "immediate"
  diagnostics := result.diagnostics
  reasonCodes := ["initial_requirement_exceeds_cash"]

def maintenanceCall (rounding : ℚ → ℚ) (request : MarginRequest) (result : MarginResult) :
    MarginCallEvent where
  callId := s!"{request.account.accountId}-maintenance-{epochSeconds request.timestamp.ensureAware}"
  timestamp := request.timestamp.ensureAware
  reason := .maintenanceMarginBreach
  severity := if result.excessLiquidity < 0 then "critical" else "high"
  amountRequired := rounding |result.excessLiquidity|
  deadlinePlaceholder := "next_session_open"
  diagnostics := result.diagnostics
  reasonCodes := ["excess_liquidity_breach"]

def borrowCall (request : MarginRequest) (result : MarginResult) : MarginCallEvent where
  callId := s!"{request.account.accountId}-borrow-{epochSeconds request.timestamp.ensureAware}"
  timestamp := request.timestamp.ensureAware
  reason := .borrowFailure
  severity := "medium"
  amountRequired := 0
  deadlinePlaceholder := "monitor"
  diagnostics := result.diagnostics
  reasonCodes := ["hard_to_borrow"]

/-- The calls a result raises. -/
def calls (rounding : ℚ → ℚ) (request : MarginRequest) (result : MarginResult) :
    List MarginCallEvent :=
  (if request.settledCash + request.unsettledCash < result.initialRequirement
    then [initialCall rounding request result] else []) ++
  (if result.excessLiquidity < request.account.riskLimits.minimumExcessLiquidity
    then [maintenanceCall rounding request result] else []) ++
  (if result.positions.any fun item => decide ("hard_to_borrow_add_on" ∈ item.warnings)
    then [borrowCall request result] else [])

def evaluate (monitor : MarginMonitor) (rounding : ℚ → ℚ) (request : MarginRequest) :
    Except Exc (MarginResult × List MarginCallEvent) := do
  let result ← monitor.policy.evaluate request
  return (result, calls rounding request result)

end MarginMonitor
end OptionResearch
