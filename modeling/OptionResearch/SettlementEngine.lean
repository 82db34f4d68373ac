import OptionResearch.OptionPayoff
import OptionResearch.PythonValues

/-!
# Exercise, assignment, expiration and settlement

The decisions and the postings of `settlement.py`, and the order in which `process_expiration` of
`execution.py` takes them. Amounts are exact. A contract is whatever its
metadata says: anything but `call` is settled as a put, anything but `cash` by delivery.
-/

namespace OptionResearch

open OptionPayoff

structure ExpirationProcessingResult where
  status : String
  intrinsicValue : ℚ
  inTheMoney : Bool
  cashSettled : Bool
  physicallySettled : Bool
  diagnostics : Payload

structure ExerciseDecision where
  decision : String
  rationale : String
  diagnostics : Payload

structure AssignmentDecision where
  decision : String
  partialAssignment : Bool
  assignmentQuantity : Int
  rationale : String
  diagnostics : Payload

structure SettlementPosting where
  postingType : String
  amount : ℚ
  quantity : Int
  metadata : Payload := []

/-- The one entry of the source's `residual_exposure` dictionary. -/
structure ResidualExposure where
  contracts : Int

structure SettlementResult where
  postings : List SettlementPosting
  realizedPnl : ℚ
  stockPositionChange : Int
  costBasisChange : ℚ
  residualExposure : ResidualExposure
  reconciled : Bool
  diagnostics : Payload

structure DividendSettlement where
  amount : ℚ
  direction : String
  exDate : DateTime
  recordDate : Option DateTime
  payableDate : Option DateTime
  specialDividend : Bool
  diagnostics : Payload

structure PinRiskDiagnostic where
  atRisk : Bool
  withinBand : Bool
  warningCodes : List String
  diagnostics : Payload

/-- The arguments of one call of `settle`. -/
structure SettleCall where
  timestamp : DateTime
  contractMetadata : Payload
  underlyingPrice : ℚ
  strike : ℚ
  quantity : Int
  multiplier : ℚ
  isLong : Bool
  expiration : ExpirationProcessingResult
  exercise : Option ExerciseDecision
  assignment : Option AssignmentDecision
  fees : ℚ

/-- The settlement engine with the texts it labels things with and the random source it draws an
assignment from: `firstDraw seed` is the first `random()` of `Random(seed)`. -/
structure SettlementEngine where
  text : PyText
  firstDraw : Int → ℚ

namespace SettlementEngine

variable (engine : SettlementEngine)

/-- `str(contract_metadata.get("option_type", "call"))`. -/
def optionType (contractMetadata : Payload) : String :=
  engine.text.str (contractMetadata.get "option_type" (.str "call"))

/-- `str(contract_metadata.get("settlement_type", "physical"))`. -/
def settlementType (contractMetadata : Payload) : String :=
  engine.text.str (contractMetadata.get "settlement_type" (.str "physical"))

/-- The intrinsic value for each share, which three methods of the source recompute. -/
def intrinsicPer (cp : String) (underlyingPrice strike : ℚ) : ℚ :=
  if cp = "call" then max 0 (underlyingPrice - strike) else max 0 (strike - underlyingPrice)

def expirationDecision (timestamp : DateTime) (contractMetadata : Payload)
    (underlyingPrice strike : ℚ) (quantity : Int) (exerciseThreshold pinRiskBand : ℚ) :
    ExpirationProcessingResult :=
  let cp := engine.optionType contractMetadata
  let settlementType := engine.settlementType contractMetadata
  let intrinsic := intrinsicPer cp underlyingPrice strike
  let inTheMoney := decide (max 0 exerciseThreshold ≤ intrinsic)
  { status := if inTheMoney then "itm" else "otm"
    intrinsicValue := intrinsic * max 1 quantity
    inTheMoney
    cashSettled := settlementType == "cash"
    physicallySettled := settlementType != "cash"
    diagnostics := [("timestamp", .str (engine.text.isoformat timestamp.ensureAware)),
      ("pin_risk_band", .float pinRiskBand)] }

def longExerciseDecision (timestamp : DateTime) (contractMetadata : Payload)
    (underlyingPrice strike : ℚ) (quantity : Int) (remainingExtrinsic transactionCosts : ℚ)
    (dividendAmount : Option ℚ) (interestRate exerciseThreshold : ℚ) : ExerciseDecision :=
  let expiration := engine.expirationDecision timestamp contractMetadata underlyingPrice strike
    quantity exerciseThreshold 0
  let intrinsic := expiration.intrinsicValue
  let dividendValue := max 0 (dividendAmount.getD 0)
  let carry := max 0 interestRate * strike * max 1 quantity / 365
  let economicEdge := intrinsic + dividendValue - remainingExtrinsic - transactionCosts - carry
  let diagnostics := [("economic_edge", .float economicEdge)]
  if !expiration.inTheMoney then
    { decision := "abandon", rationale := "out_of_the_money", diagnostics }
  else if 0 < economicEdge then
    { decision := "exercise", rationale := "intrinsic_exceeds_costs", diagnostics }
  else if intrinsic * (2 / 10) < remainingExtrinsic then
    { decision := "sell_to_close_preferred", rationale := "extrinsic_value_remaining", diagnostics }
  else
    { decision := "unsupported_or_ambiguous", rationale := "insufficient_economic_signal",
      diagnostics }

/-- The score that decides whether a short option is assigned. -/
def assignmentRisk (cp : String) (underlyingPrice strike remainingExtrinsic dividend : ℚ) : ℚ :=
  let intrinsic := intrinsicPer cp underlyingPrice strike
  intrinsic - max 0 remainingExtrinsic +
    (if cp = "call" ∧ 0 < dividend ∧ remainingExtrinsic < dividend then dividend else 0) +
    (if cp = "put" ∧ strike * (1 / 10) < intrinsic then 1 else 0)

def shortAssignmentDecision (timestamp : DateTime) (contractMetadata : Payload)
    (underlyingPrice strike : ℚ) (quantity : Int) (remainingExtrinsic : ℚ)
    (dividendAmount : Option ℚ) (seededPolicy : Option Int) : AssignmentDecision :=
  let cp := engine.optionType contractMetadata
  let risk := assignmentRisk cp underlyingPrice strike remainingExtrinsic (dividendAmount.getD 0)
  let partialRatio : ℚ := if engine.firstDraw (seededPolicy.getD 0) < 1 / 2 then 1 / 2 else 1
  let assignQty := truncate (max 0 quantity * partialRatio)
  let diagnostics := [("risk_score", .float risk),
    ("timestamp", .str (engine.text.isoformat timestamp.ensureAware))]
  if risk ≤ 0 then
    { decision := "no_assignment", partialAssignment := false, assignmentQuantity := 0,
      rationale := "low_assignment_risk", diagnostics }
  else
    { decision := "assign", partialAssignment := decide (0 < assignQty ∧ assignQty < quantity),
      assignmentQuantity := assignQty, rationale := "economic_assignment_risk", diagnostics }

/-- `should_settle`. -/
def shouldSettle (call : SettleCall) : Bool :=
  call.expiration.inTheMoney &&
    ((call.exercise.any fun exercise => exercise.decision == "exercise") ||
      (call.assignment.any fun assignment => assignment.decision == "assign") ||
      (call.exercise.isNone && call.assignment.isNone))

/-- `settle_qty`: an assignment settles its own quantity. -/
def settleQty (call : SettleCall) : Int :=
  match call.assignment with
  | some assignment => assignment.assignmentQuantity
  | none => max 0 call.quantity

/-- `signed`. -/
def signed (isLong : Bool) : Int := if isLong then 1 else -1

/-- `stock_change` of a settlement that settles. -/
def stockChange (call : SettleCall) : Int :=
  if engine.settlementType call.contractMetadata = "cash" then 0
  else
    let shares := truncate (settleQty call * call.multiplier)
    if engine.optionType call.contractMetadata = "call" then shares * signed call.isLong
    else -shares * signed call.isLong

/-- The postings of a settlement that settles, the fee posting left out. -/
def transferPostings (call : SettleCall) : List SettlementPosting :=
  let cp := engine.optionType call.contractMetadata
  if engine.settlementType call.contractMetadata = "cash" then
    let cashIntrinsic := intrinsicPer cp call.underlyingPrice call.strike *
      (max 0 call.quantity : Int) * call.multiplier
    [{ postingType := "cash_settlement", amount := cashIntrinsic * signed call.isLong,
       quantity := settleQty call }]
  else
    let shares := truncate (settleQty call * call.multiplier)
    let strikeCash := if cp = "call" then -call.strike * shares * signed call.isLong
      else call.strike * shares * signed call.isLong
    [{ postingType := "stock_position_change", amount := 0, quantity := engine.stockChange call },
     { postingType := "strike_cash_movement", amount := strikeCash, quantity := settleQty call }]

/-- The result where nothing settles. -/
def worthlessResult (call : SettleCall) : SettlementResult where
  postings := [{ postingType := "expiration_worthless", amount := 0,
                 quantity := max 0 call.quantity,
                 metadata := [("timestamp",
                   .str (engine.text.isoformat call.timestamp.ensureAware))] }]
  realizedPnl := 0
  stockPositionChange := 0
  costBasisChange := 0
  residualExposure := { contracts := max 0 call.quantity }
  reconciled := true
  diagnostics := [("status", .str "worthless_or_abandoned")]

/-- The postings of a settlement that settles. -/
def settledPostings (call : SettleCall) : List SettlementPosting :=
  engine.transferPostings call ++
    [{ postingType := "fees", amount := -|call.fees|, quantity := settleQty call }]

/-- The result of a settlement that settles. -/
def settledResult (call : SettleCall) : SettlementResult :=
  let realized := ((engine.settledPostings call).map (·.amount)).sum
  let residualContracts := max 0 (max 0 call.quantity - settleQty call)
  { postings := engine.settledPostings call
    realizedPnl := realized
    stockPositionChange := engine.stockChange call
    costBasisChange := realized
    residualExposure := { contracts := residualContracts }
    reconciled := decide (0 ≤ residualContracts)
    diagnostics := [("settlement_type", .str (engine.settlementType call.contractMetadata))] }

def settle (call : SettleCall) : SettlementResult :=
  if shouldSettle call then engine.settledResult call else engine.worthlessResult call

def dividendSettlement (timestamp : DateTime) (shares : Int) (dividendAmount : ℚ)
    (specialDividend : Bool) (recordDate payableDate : Option DateTime)
    (alreadyAdjusted : Bool) : DividendSettlement where
  amount := if alreadyAdjusted then 0 else shares * dividendAmount
  direction := if alreadyAdjusted then "none" else if 0 ≤ shares then "credit" else "debit"
  exDate := timestamp.ensureAware
  recordDate := recordDate.map DateTime.ensureAware
  payableDate := payableDate.map DateTime.ensureAware
  specialDividend := specialDividend
  diagnostics := [("already_adjusted", .bool alreadyAdjusted)]

def pinRisk (timestamp : DateTime) (underlyingPrice strike pinRiskBand : ℚ)
    (hasPartialAssignment settlementComplete : Bool) : PinRiskDiagnostic :=
  let gap := |underlyingPrice - strike|
  let within := decide (gap ≤ max 0 pinRiskBand)
  let codes := (if within then ["near_strike_expiration", "after_hours_move_uncertain"] else []) ++
    (if hasPartialAssignment then ["partial_assignment_possible"] else []) ++
    (if settlementComplete then [] else ["incomplete_settlement_data"])
  { atRisk := !codes.isEmpty
    withinBand := within
    warningCodes := codes
    diagnostics := [("timestamp", .str (engine.text.isoformat timestamp.ensureAware)),
      ("gap", .float gap)] }

end SettlementEngine

/-- The arguments of one call of `process_expiration`. -/
structure ExpirationCall where
  timestamp : DateTime
  contractMetadata : Payload
  underlyingPrice : ℚ
  strike : ℚ
  quantity : Int
  multiplier : ℚ
  remainingExtrinsic : ℚ
  fees : ℚ
  dividendAmount : Option ℚ
  interestRate : ℚ
  isLong : Bool
  exerciseThreshold : ℚ
  pinRiskBand : ℚ
  seededAssignment : Option Int

structure ExpirationOutcome where
  expiration : ExpirationProcessingResult
  exercise : Option ExerciseDecision
  assignment : Option AssignmentDecision
  settlement : SettlementResult
  pinRisk : PinRiskDiagnostic

structure ExerciseAssignmentOrchestrator where
  settlementEngine : SettlementEngine

namespace ExerciseAssignmentOrchestrator

variable (orchestrator : ExerciseAssignmentOrchestrator)

/-- The settlement `process_expiration` asks for: a long position brings its exercise decision, a
short one its assignment. -/
def settleCall (call : ExpirationCall) : SettleCall where
  timestamp := call.timestamp
  contractMetadata := call.contractMetadata
  underlyingPrice := call.underlyingPrice
  strike := call.strike
  quantity := call.quantity
  multiplier := call.multiplier
  isLong := call.isLong
  expiration := orchestrator.settlementEngine.expirationDecision call.timestamp
    call.contractMetadata call.underlyingPrice call.strike call.quantity call.exerciseThreshold
    call.pinRiskBand
  exercise := if call.isLong then
      some (orchestrator.settlementEngine.longExerciseDecision call.timestamp call.contractMetadata
        call.underlyingPrice call.strike call.quantity call.remainingExtrinsic call.fees
        call.dividendAmount call.interestRate call.exerciseThreshold)
    else none
  assignment := if call.isLong then none
    else some (orchestrator.settlementEngine.shortAssignmentDecision call.timestamp
      call.contractMetadata call.underlyingPrice call.strike call.quantity call.remainingExtrinsic
      call.dividendAmount call.seededAssignment)
  fees := call.fees

def processExpiration (call : ExpirationCall) : ExpirationOutcome :=
  let settling := orchestrator.settleCall call
  let settlement := orchestrator.settlementEngine.settle settling
  { expiration := settling.expiration
    exercise := settling.exercise
    assignment := settling.assignment
    settlement
    pinRisk := orchestrator.settlementEngine.pinRisk call.timestamp call.underlyingPrice call.strike
      call.pinRiskBand (settling.assignment.any fun assignment => assignment.partialAssignment)
      settlement.reconciled }

end ExerciseAssignmentOrchestrator
end OptionResearch
