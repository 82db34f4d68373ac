import Mathlib.Tactic.Linarith
import Mathlib.Tactic.NormNum
import OptionResearch.SettlementEngine

/-!
# What a settlement transfers

The cash postings of a settlement, with the shares delivered marked at the underlying price. By
delivery that is the exercise value of the quantity settled; in cash it is the intrinsic value of
the whole quantity, whatever part of it was assigned. A long holder loses by it only where the
expiration calls a worthless option in the money, which it does when the threshold is not positive.
-/

namespace OptionResearch

open OptionPayoff

/-- The cash a settlement moves, fees left out. -/
def SettlementResult.cashTransferred (result : SettlementResult) : ℚ :=
  ((result.postings.filter fun posting => posting.postingType != "fees").map (·.amount)).sum

/-- The cash moved and the shares delivered, marked at this price. -/
def SettlementResult.transferred (result : SettlementResult) (price : ℚ) : ℚ :=
  result.cashTransferred + result.stockPositionChange * price

namespace SettlementEngine

variable (engine : SettlementEngine)

/-- The right an option type stands for in the source's branches. -/
def rightOf (cp : String) : Right := if cp = "call" then .call else .put

theorem intrinsicPer_eq_intrinsic (cp : String) (underlyingPrice strike : ℚ) :
    intrinsicPer cp underlyingPrice strike = intrinsic (rightOf cp) underlyingPrice strike := by
  unfold intrinsicPer rightOf
  split_ifs <;> rfl

/-- Intrinsic value for each share of a call's contract. -/
def callIntrinsic (call : SettleCall) : ℚ :=
  intrinsicPer (engine.optionType call.contractMetadata) call.underlyingPrice call.strike

/-- Exercise value for each share of a call's contract, gain or loss. -/
def callExercise (call : SettleCall) : ℚ :=
  exerciseValue (rightOf (engine.optionType call.contractMetadata)) call.underlyingPrice call.strike

theorem callIntrinsic_eq (call : SettleCall) : engine.callIntrinsic call = intrinsic
    (rightOf (engine.optionType call.contractMetadata)) call.underlyingPrice call.strike :=
  intrinsicPer_eq_intrinsic _ _ _

theorem settle_eq_worthlessResult {call : SettleCall} (h : shouldSettle call = false) :
    engine.settle call = engine.worthlessResult call := if_neg (by rw [h]; decide)

theorem settle_eq_settledResult {call : SettleCall} (h : shouldSettle call = true) :
    engine.settle call = engine.settledResult call := if_pos h

theorem cashTransferred_worthlessResult (call : SettleCall) :
    (engine.worthlessResult call).cashTransferred = 0 := List.sum_singleton

/-- The fee posting is the one left out. -/
theorem cashTransferred_settledResult (call : SettleCall) :
    (engine.settledResult call).cashTransferred =
      ((engine.transferPostings call).map (·.amount)).sum := by
  have htransfers : ∀ posting ∈ engine.transferPostings call, posting.postingType ≠ "fees" := by
    intro posting hposting
    unfold transferPostings at hposting
    dsimp only at hposting
    split_ifs at hposting
    · obtain rfl := List.mem_singleton.mp hposting
      exact (by decide : "cash_settlement" ≠ "fees")
    all_goals
      rcases List.mem_cons.mp hposting with rfl | hposting
      · exact (by decide : "stock_position_change" ≠ "fees")
      · obtain rfl := List.mem_singleton.mp hposting
        exact (by decide : "strike_cash_movement" ≠ "fees")
  unfold SettlementResult.cashTransferred settledResult settledPostings
  dsimp only
  have hkept : ∀ posting ∈ engine.transferPostings call,
      (posting.postingType != "fees") = true := by
    intro posting h
    exact bne_iff_ne.mpr (htransfers posting h)
  rw [List.filter_append, List.filter_eq_self.mpr hkept]
  simp

/-- Cash settlement pays the intrinsic value of the whole quantity. -/
theorem transferred_cash {call : SettleCall}
    (hcash : engine.settlementType call.contractMetadata = "cash") (price : ℚ) :
    (engine.settledResult call).transferred price = engine.callIntrinsic call *
      (max 0 call.quantity : Int) * call.multiplier * signed call.isLong := by
  have hstock : (engine.settledResult call).stockPositionChange = 0 := if_pos hcash
  rw [SettlementResult.transferred, cashTransferred_settledResult, hstock, transferPostings,
    if_pos hcash, Int.cast_zero, zero_mul, add_zero]
  exact List.sum_singleton

/-- Physical settlement is worth the exercise of the shares settled. -/
theorem transferred_physical {call : SettleCall}
    (hphysical : engine.settlementType call.contractMetadata ≠ "cash") :
    (engine.settledResult call).transferred call.underlyingPrice =
      truncate (settleQty call * call.multiplier) * engine.callExercise call *
        signed call.isLong := by
  have hvalue := delivery_value (rightOf (engine.optionType call.contractMetadata))
    (truncate (settleQty call * call.multiplier) : ℚ) call.underlyingPrice call.strike
  have hstock : (engine.settledResult call).stockPositionChange = engine.stockChange call := rfl
  rw [SettlementResult.transferred, cashTransferred_settledResult, hstock, callExercise, ← hvalue,
    transferPostings, stockChange]
  dsimp only
  rw [if_neg hphysical, if_neg hphysical]
  by_cases hcall : engine.optionType call.contractMetadata = "call"
  · rw [if_pos hcall, if_pos hcall, rightOf, if_pos hcall]
    simp only [List.map_cons, List.map_nil, List.sum_cons, List.sum_nil, delivery, Int.cast_mul]
    ring
  · rw [if_neg hcall, if_neg hcall, rightOf, if_neg hcall]
    simp only [List.map_cons, List.map_nil, List.sum_cons, List.sum_nil, delivery, Int.cast_mul,
      Int.cast_neg]
    ring

/-! ### Conservation of value -/

/-- The same call with physical settlement. -/
def physicalCall (call : SettleCall) : SettleCall :=
  { call with contractMetadata :=
      PyValue.setItem call.contractMetadata ("settlement_type", .str "physical") }

/-- What a settlement of the quantity `settleQty` should move: the residual is the rest, the
transfer is the intrinsic value of the part settled, and delivery transfers the same. -/
structure ConservesValue (call : SettleCall) : Prop where
  residual : settleQty call + (engine.settle call).residualExposure.contracts = call.quantity
  value : (engine.settle call).transferred call.underlyingPrice =
    signed call.isLong * engine.callIntrinsic call * settleQty call * call.multiplier
  physical : (engine.settle call).transferred call.underlyingPrice =
    (engine.settle (physicalCall call)).transferred call.underlyingPrice

variable {engine}

theorem settlementType_physicalCall (call : SettleCall) :
    engine.settlementType (physicalCall call).contractMetadata ≠ "cash" := by
  have hget : (physicalCall call).contractMetadata.get "settlement_type" (.str "physical") =
      .str "physical" := by
    rw [physicalCall, Payload.get_setItem, if_pos rfl]
  rw [settlementType, hget]
  exact (by decide : "physical" ≠ "cash")

theorem optionType_physicalCall (call : SettleCall) :
    engine.optionType (physicalCall call).contractMetadata =
      engine.optionType call.contractMetadata := by
  rw [optionType, physicalCall, Payload.get_setItem, if_neg (by decide), optionType]

/-- With a whole multiplier, delivering an option in the money transfers the intrinsic value of the
part settled. -/
theorem transferred_physical_whole {call : SettleCall} {m : ℕ} (hm : call.multiplier = m)
    (hitm : 0 < engine.callIntrinsic call)
    (hphysical : engine.settlementType call.contractMetadata ≠ "cash") :
    (engine.settledResult call).transferred call.underlyingPrice =
      signed call.isLong * engine.callIntrinsic call * settleQty call * call.multiplier := by
  have hshares : truncate (settleQty call * call.multiplier) = settleQty call * m := by
    rw [hm, show (settleQty call * (m : ℚ)) = ((settleQty call * m : Int) : ℚ) by push_cast; rfl,
      truncate_intCast]
  have hvalue : engine.callExercise call = engine.callIntrinsic call := by
    rw [callIntrinsic_eq] at hitm ⊢
    exact (intrinsic_eq_exerciseValue hitm).symm
  rw [engine.transferred_physical hphysical, hshares, hvalue, hm]
  push_cast
  ring

theorem settleQty_eq_quantity_iff {call : SettleCall} (hq : 0 ≤ call.quantity) :
    settleQty call = call.quantity ↔
      ∀ assignment, call.assignment = some assignment →
        assignment.assignmentQuantity = call.quantity := by
  unfold settleQty
  cases call.assignment with
  | none => exact iff_of_true (max_eq_right hq) fun _ h => nomatch h
  | some assignment =>
    constructor
    · rintro h _ ⟨⟩
      exact h
    · exact fun h => h assignment rfl

theorem settleQty_le_quantity {call : SettleCall} (hq : 0 ≤ call.quantity)
    (hassigned : ∀ assignment, call.assignment = some assignment →
      0 ≤ assignment.assignmentQuantity ∧ assignment.assignmentQuantity ≤ call.quantity) :
    settleQty call ≤ call.quantity := by
  unfold settleQty
  rcases hassignment : call.assignment with _ | assignment
  · exact (max_eq_right hq).le
  · exact (hassigned assignment hassignment).2

/-- What is not settled is left. -/
theorem residual_settledResult {call : SettleCall} (hq : 0 ≤ call.quantity)
    (hle : settleQty call ≤ call.quantity) :
    settleQty call + (engine.settledResult call).residualExposure.contracts = call.quantity := by
  change settleQty call + max 0 (max 0 call.quantity - settleQty call) = call.quantity
  omega

/-- Whatever its settlement type, the call settled by delivery transfers the intrinsic value of
the part settled. -/
theorem transferred_physicalCall {call : SettleCall} {m : ℕ} (hm : call.multiplier = m)
    (hitm : 0 < engine.callIntrinsic call) (hsettles : shouldSettle call = true) :
    (engine.settle (physicalCall call)).transferred call.underlyingPrice =
      signed call.isLong * engine.callIntrinsic call * settleQty call * call.multiplier := by
  have hsame : engine.callIntrinsic (physicalCall call) = engine.callIntrinsic call := by
    rw [callIntrinsic, optionType_physicalCall]
    rfl
  have hitm' : 0 < engine.callIntrinsic (physicalCall call) := by rwa [hsame]
  have hwhole : (physicalCall call).multiplier = m := hm
  have hvalue := transferred_physical_whole hwhole hitm' (settlementType_physicalCall call)
  have hsettled : engine.settle (physicalCall call) = engine.settledResult (physicalCall call) :=
    settle_eq_settledResult engine hsettles
  rw [hsame] at hvalue
  rw [hsettled]
  exact hvalue

/-- The cash paid for the whole quantity is that of the part settled where the part is the whole,
or where nothing is paid. -/
theorem transferred_cash_eq_iff {call : SettleCall} (hq : 0 ≤ call.quantity)
    (hitm : 0 < engine.callIntrinsic call)
    (hcash : engine.settlementType call.contractMetadata = "cash") (price : ℚ) :
    (engine.settledResult call).transferred price =
        signed call.isLong * engine.callIntrinsic call * settleQty call * call.multiplier ↔
      settleQty call = call.quantity ∨ call.multiplier = 0 := by
  have hsigned : (signed call.isLong : ℚ) ≠ 0 := by
    cases call.isLong with
    | false => decide
    | true => decide
  rw [engine.transferred_cash hcash, max_eq_right hq]
  constructor
  · intro h
    have hproduct : (signed call.isLong * engine.callIntrinsic call) *
        ((call.quantity - settleQty call) * call.multiplier) = 0 := by linarith
    rcases mul_eq_zero.mp hproduct with hzero | hzero
    · exact absurd hzero (mul_ne_zero hsigned hitm.ne')
    · rcases mul_eq_zero.mp hzero with hzero | hzero
      · left
        have hcast : (call.quantity : ℚ) = settleQty call := by linarith
        exact_mod_cast hcast.symm
      · exact Or.inr hzero
  · rintro (hall | hzero)
    · rw [hall]
      ring
    · rw [hzero]
      ring

/-- A settlement that settles conserves value exactly when it is not a cash settlement of an
assignment of part of a position with a multiplier. -/
theorem conservesValue_iff {call : SettleCall} {m : ℕ} (hm : call.multiplier = m)
    (hq : 0 ≤ call.quantity) (hitm : 0 < engine.callIntrinsic call)
    (hassigned : ∀ assignment, call.assignment = some assignment →
      0 ≤ assignment.assignmentQuantity ∧ assignment.assignmentQuantity ≤ call.quantity)
    (hsettles : shouldSettle call = true) :
    engine.ConservesValue call ↔
      (engine.settlementType call.contractMetadata = "cash" →
        (∀ assignment, call.assignment = some assignment →
          assignment.assignmentQuantity = call.quantity) ∨ call.multiplier = 0) := by
  have hresidual : settleQty call + (engine.settle call).residualExposure.contracts =
      call.quantity := by
    rw [settle_eq_settledResult engine hsettles]
    exact residual_settledResult hq (settleQty_le_quantity hq hassigned)
  have hphysical := transferred_physicalCall hm hitm hsettles
  have hiff : engine.ConservesValue call ↔
      (engine.settle call).transferred call.underlyingPrice =
        signed call.isLong * engine.callIntrinsic call * settleQty call * call.multiplier :=
    ⟨fun h => h.value, fun h => ⟨hresidual, h, h.trans hphysical.symm⟩⟩
  rw [hiff, ← settleQty_eq_quantity_iff hq, settle_eq_settledResult engine hsettles]
  by_cases hcash : engine.settlementType call.contractMetadata = "cash"
  · rw [transferred_cash_eq_iff hq hitm hcash, imp_iff_right hcash]
  · exact iff_of_true (transferred_physical_whole hm hitm hcash) fun h => absurd h hcash

/-- A settlement engine for small runs. -/
def plainSettlement : SettlementEngine where
  text := plainText
  firstDraw _ := 1 / 4

/-- Two short calls struck at 100, five in the money, with `assigned` of them assigned. -/
def assignedCall (settlement : String) (assigned : Int) : SettleCall where
  timestamp := { wall := 0, utcoffset := some 0 }
  contractMetadata := [("option_type", .str "call"), ("settlement_type", .str settlement)]
  underlyingPrice := 105
  strike := 100
  quantity := 2
  multiplier := 100
  isLong := false
  expiration := plainSettlement.expirationDecision { wall := 0, utcoffset := some 0 }
    [("option_type", .str "call"), ("settlement_type", .str settlement)] 105 100 2 (1 / 100) 0
  exercise := none
  assignment := some { decision := "assign", partialAssignment := decide (assigned < 2),
                       assignmentQuantity := assigned, rationale := "economic_assignment_risk",
                       diagnostics := [] }
  fees := 0

theorem callIntrinsic_assignedCall (settlement : String) (assigned : Int) :
    plainSettlement.callIntrinsic (assignedCall settlement assigned) = 5 := by
  change max (0 : ℚ) (105 - 100) = 5
  norm_num

theorem shouldSettle_assignedCall (settlement : String) (assigned : Int) :
    shouldSettle (assignedCall settlement assigned) = true := by
  have hitm : (assignedCall settlement assigned).expiration.inTheMoney = true := by
    change decide (max (0 : ℚ) (1 / 100) ≤ max 0 (105 - 100)) = true
    norm_num
  rw [shouldSettle, hitm]
  rfl

theorem conservesValue_iff_fully :
    plainSettlement.ConservesValue (assignedCall "cash" 2) := by
  have hmultiplier : (assignedCall "cash" 2).multiplier = (100 : ℕ) := by norm_num [assignedCall]
  have hitm : 0 < plainSettlement.callIntrinsic (assignedCall "cash" 2) := by
    rw [callIntrinsic_assignedCall]
    norm_num
  refine (conservesValue_iff hmultiplier (by decide) hitm ?_ (shouldSettle_assignedCall _ _)).mpr ?_
  · rintro _ ⟨⟩
    exact ⟨by decide, le_refl _⟩
  · rintro -
    left
    rintro _ ⟨⟩
    rfl

/-- One of two short calls is assigned and settled in cash: twice the value moves. -/
theorem not_conservesValue :
    shouldSettle (assignedCall "cash" 1) = true ∧
      ¬ plainSettlement.ConservesValue (assignedCall "cash" 1) := by
  refine ⟨shouldSettle_assignedCall _ _, fun h => ?_⟩
  have hvalue := h.value
  rw [settle_eq_settledResult _ (shouldSettle_assignedCall _ _), transferred_cash _ rfl,
    callIntrinsic_assignedCall] at hvalue
  have hmoved : (5 : ℚ) * 2 * 100 * -1 = -1 * 5 * 1 * 100 := hvalue
  norm_num at hmoved

/-! ### Expiration as it is orchestrated -/

/-- An assignment takes some part of the position, and never more. -/
theorem assignmentQuantity_bounds (timestamp : DateTime) (contractMetadata : Payload)
    (underlyingPrice strike : ℚ) {quantity : Int} (hq : 0 ≤ quantity) (remainingExtrinsic : ℚ)
    (dividendAmount : Option ℚ) (seededPolicy : Option Int) :
    0 ≤ (engine.shortAssignmentDecision timestamp contractMetadata underlyingPrice strike quantity
        remainingExtrinsic dividendAmount seededPolicy).assignmentQuantity ∧
      (engine.shortAssignmentDecision timestamp contractMetadata underlyingPrice strike quantity
        remainingExtrinsic dividendAmount seededPolicy).assignmentQuantity ≤ quantity := by
  have hcast : (0 : ℚ) ≤ quantity := by exact_mod_cast hq
  have hratio (ratio : ℚ) (h₀ : 0 ≤ ratio) (h₁ : ratio ≤ 1) :
      0 ≤ truncate ((max 0 quantity : Int) * ratio) ∧
        truncate ((max 0 quantity : Int) * ratio) ≤ quantity := by
    rw [max_eq_right hq]
    exact ⟨truncate_nonneg (mul_nonneg hcast h₀),
      truncate_le (mul_nonneg hcast h₀) (mul_le_of_le_one_right hcast h₁)⟩
  simp only [shortAssignmentDecision]
  by_cases hrisk : assignmentRisk (engine.optionType contractMetadata) underlyingPrice strike
      remainingExtrinsic (dividendAmount.getD 0) ≤ 0
  · simp only [if_pos hrisk]
    exact ⟨le_refl 0, hq⟩
  · simp only [if_neg hrisk]
    split_ifs
    · exact hratio (1 / 2) (by norm_num) (by norm_num)
    · exact hratio 1 (by norm_num) (by norm_num)

/-- Every contract of an orchestrated expiration is either settled or left over. -/
theorem contracts_processExpiration (orchestrator : ExerciseAssignmentOrchestrator)
    {call : ExpirationCall} (hq : 0 ≤ call.quantity) :
    (if shouldSettle (orchestrator.settleCall call) then settleQty (orchestrator.settleCall call)
        else 0) +
      (orchestrator.processExpiration call).settlement.residualExposure.contracts =
        call.quantity := by
  have hassigned : ∀ assignment, (orchestrator.settleCall call).assignment = some assignment →
      0 ≤ assignment.assignmentQuantity ∧ assignment.assignmentQuantity ≤ call.quantity := by
    intro assignment h
    simp only [ExerciseAssignmentOrchestrator.settleCall] at h
    cases hlong : call.isLong with
    | true =>
      rw [hlong, if_pos rfl] at h
      cases h
    | false =>
      rw [hlong, if_neg (by decide)] at h
      cases h
      exact assignmentQuantity_bounds _ _ _ _ hq _ _ _
  simp only [ExerciseAssignmentOrchestrator.processExpiration]
  cases hsettles : shouldSettle (orchestrator.settleCall call) with
  | false =>
    rw [settle_eq_worthlessResult _ hsettles, if_neg (by decide), zero_add]
    exact max_eq_right hq
  | true =>
    rw [settle_eq_settledResult _ hsettles, if_pos rfl]
    exact residual_settledResult hq (settleQty_le_quantity hq hassigned)

/-! ### Expiry of a long position -/

/-- A contract at expiry, with what the exercise decision weighs. -/
structure Expiry where
  timestamp : DateTime
  contractMetadata : Payload
  underlyingPrice : ℚ
  strike : ℚ
  quantity : Int
  multiplier : ℚ
  exerciseThreshold : ℚ
  pinRiskBand : ℚ
  remainingExtrinsic : ℚ
  transactionCosts : ℚ
  dividendAmount : Option ℚ
  interestRate : ℚ

variable (engine)

def expiryDecision (x : Expiry) : ExpirationProcessingResult :=
  engine.expirationDecision x.timestamp x.contractMetadata x.underlyingPrice x.strike x.quantity
    x.exerciseThreshold x.pinRiskBand

/-- The expiration decision fed into `settle` for a long position without fees, with the exercise
decision (`decided`) or with no decision. -/
def expiryCall (x : Expiry) (decided : Bool) : SettleCall where
  timestamp := x.timestamp
  contractMetadata := x.contractMetadata
  underlyingPrice := x.underlyingPrice
  strike := x.strike
  quantity := x.quantity
  multiplier := x.multiplier
  isLong := true
  expiration := engine.expiryDecision x
  exercise := if decided then some (engine.longExerciseDecision x.timestamp x.contractMetadata
    x.underlyingPrice x.strike x.quantity x.remainingExtrinsic x.transactionCosts x.dividendAmount
    x.interestRate x.exerciseThreshold) else none
  assignment := none
  fees := 0

/-- Intrinsic value for each share at expiry. -/
def expiryIntrinsic (x : Expiry) : ℚ :=
  intrinsicPer (engine.optionType x.contractMetadata) x.underlyingPrice x.strike

/-- The holder never pays, and a worthless option expires. -/
structure NeverHarmsHolder (x : Expiry) : Prop where
  value : ∀ decided,
    0 ≤ (engine.settle (engine.expiryCall x decided)).transferred x.underlyingPrice
  worthless : engine.expiryIntrinsic x = 0 → (engine.expiryDecision x).status = "otm" ∧
    ∀ decided, (engine.settle (engine.expiryCall x decided)).stockPositionChange = 0

theorem expiryIntrinsic_nonneg (x : Expiry) : 0 ≤ engine.expiryIntrinsic x := by
  rw [expiryIntrinsic, intrinsicPer_eq_intrinsic]
  exact intrinsic_nonneg _ _ _

variable {engine}

/-- The moneyness test at the boundary: a worthless option is out of the money exactly under a
positive threshold. -/
theorem inTheMoney_of_worthless {x : Expiry} (h : engine.expiryIntrinsic x = 0) :
    (engine.expiryDecision x).inTheMoney = false ↔ 0 < x.exerciseThreshold := by
  have htest : (engine.expiryDecision x).inTheMoney =
      decide (max 0 x.exerciseThreshold ≤ engine.expiryIntrinsic x) := rfl
  rw [htest, h, decide_eq_false_iff_not, not_le, lt_max_iff]
  exact or_iff_right (lt_irrefl 0)

theorem status_expiryDecision (x : Expiry) :
    (engine.expiryDecision x).status = "otm" ↔ (engine.expiryDecision x).inTheMoney = false := by
  have hstatus : (engine.expiryDecision x).status =
      if (engine.expiryDecision x).inTheMoney then "itm" else "otm" := rfl
  rw [hstatus]
  cases (engine.expiryDecision x).inTheMoney with
  | false => exact iff_of_true rfl rfl
  | true => exact iff_of_false (by decide) (by decide)

/-- An option in the money is settled for what it is worth. -/
theorem transferred_nonneg {x : Expiry} (hm : 0 ≤ x.multiplier)
    (hitm : 0 < engine.expiryIntrinsic x) (decided : Bool) :
    0 ≤ (engine.settledResult (engine.expiryCall x decided)).transferred x.underlyingPrice := by
  have hquantity : (0 : ℚ) ≤ (max 0 x.quantity : Int) := by exact_mod_cast le_max_left 0 x.quantity
  by_cases hcash : engine.settlementType x.contractMetadata = "cash"
  · have hcall : engine.settlementType (engine.expiryCall x decided).contractMetadata = "cash" :=
      hcash
    have hvalue := engine.transferred_cash hcall x.underlyingPrice
    rw [hvalue]
    change 0 ≤ engine.expiryIntrinsic x * (max 0 x.quantity : Int) * x.multiplier * (1 : Int)
    rw [Int.cast_one, mul_one]
    exact mul_nonneg (mul_nonneg hitm.le hquantity) hm
  · have hcall : engine.settlementType (engine.expiryCall x decided).contractMetadata ≠ "cash" :=
      hcash
    have hvalue := engine.transferred_physical hcall
    have hworth : engine.callExercise (engine.expiryCall x decided) = engine.expiryIntrinsic x := by
      rw [expiryIntrinsic, intrinsicPer_eq_intrinsic] at hitm ⊢
      exact (intrinsic_eq_exerciseValue hitm).symm
    rw [hworth] at hvalue
    rw [show x.underlyingPrice = (engine.expiryCall x decided).underlyingPrice from rfl, hvalue]
    change (0 : ℚ) ≤ truncate ((max 0 x.quantity : Int) * x.multiplier) *
      engine.expiryIntrinsic x * (1 : Int)
    rw [Int.cast_one, mul_one]
    have hshares : (0 : ℚ) ≤ truncate ((max 0 x.quantity : Int) * x.multiplier) := by
      exact_mod_cast truncate_nonneg (mul_nonneg hquantity hm)
    exact mul_nonneg hshares hitm.le

/-- Expiry never harms the holder exactly when the threshold is positive or the option is worth
something. -/
theorem neverHarmsHolder_iff {x : Expiry} (hm : 0 ≤ x.multiplier) :
    engine.NeverHarmsHolder x ↔ 0 < x.exerciseThreshold ∨ 0 < engine.expiryIntrinsic x := by
  have hidle (h : (engine.expiryDecision x).inTheMoney = false) (decided : Bool) :
      shouldSettle (engine.expiryCall x decided) = false := by
    change ((engine.expiryDecision x).inTheMoney && _) = false
    rw [h, Bool.false_and]
  constructor
  · intro h
    rcases (expiryIntrinsic_nonneg engine x).eq_or_lt with hzero | hpos
    · left
      have hotm := (h.worthless hzero.symm).1
      exact (inTheMoney_of_worthless hzero.symm).mp ((status_expiryDecision x).mp hotm)
    · exact Or.inr hpos
  · intro h
    refine ⟨fun decided => ?_, fun hzero => ?_⟩
    · cases hsettles : shouldSettle (engine.expiryCall x decided) with
      | false =>
        rw [settle_eq_worthlessResult engine hsettles, SettlementResult.transferred,
          cashTransferred_worthlessResult]
        change (0 : ℚ) ≤ 0 + (0 : Int) * x.underlyingPrice
        rw [Int.cast_zero, zero_mul, add_zero]
      | true =>
        rw [settle_eq_settledResult engine hsettles]
        rcases (expiryIntrinsic_nonneg engine x).eq_or_lt with hzero | hpos
        · have hthreshold := h.resolve_right (by rw [← hzero]; exact lt_irrefl 0)
          have hotm := (inTheMoney_of_worthless hzero.symm).mpr hthreshold
          rw [hidle hotm decided] at hsettles
          cases hsettles
        · exact transferred_nonneg hm hpos decided
    · have hthreshold := h.resolve_right (by rw [hzero]; exact lt_irrefl 0)
      have hotm := (inTheMoney_of_worthless hzero).mpr hthreshold
      refine ⟨(status_expiryDecision x).mpr hotm, fun decided => ?_⟩
      rw [settle_eq_worthlessResult engine (hidle hotm decided)]
      rfl

/-- A long call struck at 100 that ends at 90. -/
def worthlessCall (exerciseThreshold : ℚ) : Expiry where
  timestamp := { wall := 0, utcoffset := some 0 }
  contractMetadata := []
  underlyingPrice := 90
  strike := 100
  quantity := 1
  multiplier := 100
  exerciseThreshold := exerciseThreshold
  pinRiskBand := 0
  remainingExtrinsic := 0
  transactionCosts := 0
  dividendAmount := none
  interestRate := 0

theorem neverHarmsHolder_iff_threshold :
    plainSettlement.NeverHarmsHolder (worthlessCall (1 / 100)) :=
  (neverHarmsHolder_iff (by norm_num [worthlessCall])).mpr
    (Or.inl (by norm_num [worthlessCall]))

/-- With the threshold at zero the worthless call is exercised: a hundred shares at the strike. -/
theorem not_neverHarmsHolder : ¬ plainSettlement.NeverHarmsHolder (worthlessCall 0) := by
  intro h
  have hzero : plainSettlement.expiryIntrinsic (worthlessCall 0) = 0 := by
    change max (0 : ℚ) (90 - 100) = 0
    norm_num
  have hotm := (status_expiryDecision _).mp (h.worthless hzero).1
  exact lt_irrefl 0 ((inTheMoney_of_worthless hzero).mp hotm)

end SettlementEngine
end OptionResearch
