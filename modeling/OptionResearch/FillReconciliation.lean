import OptionResearch.ResearchFills
import Mathlib.Algebra.Order.BigOperators.Group.List

/-!
# Two reconciliations of multi-leg fills

`MultiLegExecutionCoordinator.execute` of `execution.py` fills the legs of a strategy and reports
how the fills stand against a minimum ratio and a timeout; `reconcile_partial_fills` of
`orchestration.py` reports the same of fills it is given. On the same fills and the same elapsed
time they differ in one case: after the timeout, with the minimum reached and a leg incomplete, only
the first still offers a retry.
-/

namespace OptionResearch

structure FillAttempt where
  request : ExecutionRequest
  selection : QuoteSelectionResult
  fill : FillModelResult
  fees : List FeeItem
  leggingRiskGreeks : List (String × ℚ)
  residualExposure : List (String × ℚ)
  warnings : List String

structure MultiLegExecutionResult where
  strategyId : String
  positionId : String
  requestCount : Nat
  fills : List FillAttempt
  filledRatio : ℚ
  cancelled : Bool
  timedOut : Bool
  retryEligible : Bool
  residualRisk : List (String × ℚ)

structure MultiLegExecutionCoordinator where
  quoteSelector : QuoteSelector
  fillEngine : ResearchFillModelEngine

/-- The arguments of one `execute`. -/
structure ExecuteCall where
  requests : List ExecutionRequest
  quotesByContract : List (String × List Payload)
  quotePolicy : QuoteSelectionPolicy
  legPriority : List String
  minimumAggregateFillRatio : ℚ
  timeoutSeconds : ℚ
  startedAt : DateTime
  now : DateTime
  maximumLeggingExposure : ℚ

namespace MultiLegExecutionCoordinator

variable (text : PyText) (coordinator : MultiLegExecutionCoordinator) (call : ExecuteCall)

/-- `_priority`: the position among the priorities, and after them for a leg that has none. -/
def priority (legPriority : List String) (legId : String) : Nat := legPriority.idxOf legId

def requestKey (request : ExecutionRequest) : ℕ ×ₗ ℤ ×ₗ String :=
  toLex (priority call.legPriority request.legId,
    toLex (request.requestedTimestamp.instant, request.legId))

/-- Two requests of one priority are compared by their timestamps. -/
def Comparable : Prop :=
  ∀ a ∈ call.requests, ∀ b ∈ call.requests,
    priority call.legPriority a.legId = priority call.legPriority b.legId →
      a.requestedTimestamp.utcoffset.isSome = b.requestedTimestamp.utcoffset.isSome

instance : Decidable (Comparable call) := inferInstanceAs (Decidable (∀ a ∈ call.requests, _))

def ordered : Except Exc (List ExecutionRequest) :=
  if Comparable call then .ok (StableSort.sortBy (requestKey call) call.requests)
  else .error ⟨.typeError, "can't compare offset-naive and offset-aware datetimes"⟩

/-- `_legging_greeks`. -/
def leggingGreeks (fill : FillModelResult) : List (String × ℚ) :=
  [("delta", fill.filledQuantity * (1 / 20)), ("gamma", fill.filledQuantity * (1 / 100)),
    ("vega", fill.filledQuantity * (3 / 100))]

/-- One leg: its quote, its fill and its fees. -/
def attempt (request : ExecutionRequest) : Except Exc FillAttempt := do
  let quotes := (call.quotesByContract.lookup request.contractIdentifier).getD []
  let delaySeconds ← text.float (request.executionDelayPolicy.get "seconds" (.float 0))
  let selection ← coordinator.quoteSelector.select text request.requestedTimestamp quotes
    call.quotePolicy delaySeconds
  let fill ← coordinator.fillEngine.fill text
    { request := request
      quote := selection.selectedQuote
      diagnostics := selection
      policyName := text.str (request.fillModelPolicy.get "name" (.str "midpoint")) }
  let feeItems ← ItemizedFeeModel.calculate text
    { request := request
      filledQuantity := fill.filledQuantity
      fillPrice := fill.fillPrice }
  return {
    request := request
    selection := selection
    fill := fill
    fees := feeItems
    leggingRiskGreeks := leggingGreeks fill
    residualExposure := [("remaining_contracts", fill.remainingQuantity),
      ("unfilled_notional", fill.remainingQuantity * fill.fillPrice.getD 0)]
    warnings := fill.warnings }

def unfilledNotional (attempts : List FillAttempt) : ℚ :=
  (attempts.map fun item => (item.fill.remainingQuantity : ℚ) * item.fill.fillPrice.getD 0).sum

/-- `_aggregate_residual`. -/
def aggregateResidual (attempts : List FillAttempt) : List (String × ℚ) :=
  [("unfilled_contracts", (attempts.map fun item => item.fill.remainingQuantity).sum),
    ("unfilled_notional", unfilledNotional attempts)]

def execute : Except Exc MultiLegExecutionResult := do
  let ordered ← ordered call
  let totalQty := max 1 (ordered.map fun req => max 0 req.quantity).sum
  let attempts ← ordered.mapM (coordinator.attempt text call)
  let filledQty := (attempts.map fun item => item.fill.filledQuantity).sum
  let ratio : ℚ := filledQty / totalQty
  let elapsed := max 0 (call.now.secondsSince call.startedAt)
  let timedOut := decide (call.timeoutSeconds ≤ elapsed)
  let cancelled := timedOut && decide (ratio < call.minimumAggregateFillRatio)
  let retryEligible := decide (ratio < 1) && !cancelled
  return {
    strategyId := match ordered.head? with
      | some first => first.strategyId
      | none => ""
    positionId := match ordered.head? with
      | some first => first.positionId
      | none => ""
    requestCount := ordered.length
    fills := attempts
    filledRatio := ratio
    cancelled := cancelled
    timedOut := timedOut
    retryEligible := retryEligible
    residualRisk := aggregateResidual attempts ++
      if call.maximumLeggingExposure < unfilledNotional attempts then
        [("max_legging_exposure_breached", 1)]
      else [] }

end MultiLegExecutionCoordinator

/-- The fields of a `LegFillSnapshot` that reconciliation reads. -/
structure LegFillSnapshot where
  legLabel : String
  originalQuantity : Int
  filledQuantity : Int
  remainingQuantity : Int

structure FillReconciliationEvent where
  timestamp : DateTime
  strategyInstanceId : String
  positionInstanceId : String
  filledLegs : List String
  residualLegs : List String
  strategyFillRatio : ℚ
  retryEligible : Bool
  timedOut : Bool
  cancelled : Bool
  failureEscalated : Bool

namespace MultiLegOrchestrator

def reconcilePartialFills (timestamp : DateTime) (strategyInstanceId positionInstanceId : String)
    (legFills : List LegFillSnapshot) (minimumFillRatio timeoutSeconds elapsedSeconds : ℚ)
    (cancellationOnIncompleteFill : Bool) : FillReconciliationEvent :=
  let total := (legFills.map fun item => max 0 item.originalQuantity).sum
  let filled := (legFills.map fun item => max 0 item.filledQuantity).sum
  let ratio : ℚ := if total ≠ 0 then filled / total else 0
  let timedOut := decide (timeoutSeconds ≤ elapsedSeconds)
  let cancelled :=
    cancellationOnIncompleteFill && decide (ratio < minimumFillRatio) && timedOut
  { timestamp := timestamp.ensureAware
    strategyInstanceId := strategyInstanceId
    positionInstanceId := positionInstanceId
    filledLegs := (legFills.filter fun item => 0 < item.filledQuantity).map (·.legLabel)
    residualLegs := (legFills.filter fun item => 0 < item.remainingQuantity).map (·.legLabel)
    strategyFillRatio := ratio
    retryEligible := decide (ratio < 1) && !cancelled && !timedOut
    timedOut := timedOut
    cancelled := cancelled
    failureEscalated := timedOut && decide (ratio < minimumFillRatio) }

end MultiLegOrchestrator

/-- What is requested and what is filled of each leg. -/
abbrev Quantities := List (Int × Int)

namespace Quantities

def requested (legs : Quantities) : Int := (legs.map fun leg => max 0 leg.1).sum

def filled (legs : Quantities) : Int := (legs.map Prod.snd).sum

/-- The filled part of what is requested. -/
def fillRatio (legs : Quantities) : ℚ := legs.filled / max 1 legs.requested

/-- Fills are within what is requested. -/
def Within (legs : Quantities) : Prop := ∀ leg ∈ legs, 0 ≤ leg.2 ∧ leg.2 ≤ max 0 leg.1

variable {legs others : Quantities}

theorem filled_bounds (h : legs.Within) : 0 ≤ legs.filled ∧ legs.filled ≤ legs.requested := by
  constructor
  · apply List.sum_nonneg
    intro quantity hquantity
    obtain ⟨leg, hleg, rfl⟩ := List.mem_map.mp hquantity
    exact (h leg hleg).1
  · exact List.sum_le_sum fun leg hleg => (h leg hleg).2

theorem fillRatio_perm (h : legs.Perm others) : legs.fillRatio = others.fillRatio := by
  rw [fillRatio, fillRatio, filled, filled, requested, requested, (h.map Prod.snd).sum_eq,
    (h.map fun leg => max 0 leg.1).sum_eq]

/-- Nothing requested is nothing filled, so that the two ways to avoid a division by zero agree. -/
theorem fillRatio_eq (h : legs.Within) :
    legs.fillRatio = if legs.requested ≠ 0 then (legs.filled : ℚ) / legs.requested else 0 := by
  obtain ⟨hnonneg, hle⟩ := filled_bounds h
  rw [fillRatio]
  split_ifs with hzero
  · rw [max_eq_right (by omega)]
  · have hnone : legs.filled = 0 := by omega
    rw [hnone, Int.cast_zero, zero_div]

end Quantities

def FillAttempt.quantities (attempt : FillAttempt) : Int × Int :=
  (attempt.request.quantity, attempt.fill.filledQuantity)

def LegFillSnapshot.quantities (item : LegFillSnapshot) : Int × Int :=
  (item.originalQuantity, item.filledQuantity)

namespace MultiLegOrchestrator

/-- The ratio that is reported for fills within what is requested. -/
theorem strategyFillRatio_eq {timestamp : DateTime} {strategyInstanceId positionInstanceId : String}
    {legFills : List LegFillSnapshot} {minimumFillRatio timeoutSeconds elapsedSeconds : ℚ}
    {cancellation : Bool}
    (h : Quantities.Within (legFills.map LegFillSnapshot.quantities)) :
    (reconcilePartialFills timestamp strategyInstanceId positionInstanceId legFills
        minimumFillRatio timeoutSeconds elapsedSeconds cancellation).strategyFillRatio =
      Quantities.fillRatio (legFills.map LegFillSnapshot.quantities) := by
  have hfilled : (legFills.map fun item => max 0 item.filledQuantity).sum =
      Quantities.filled (legFills.map LegFillSnapshot.quantities) := by
    rw [Quantities.filled, List.map_map]
    congr 1
    apply List.map_congr_left
    intro item hitem
    exact max_eq_right (h _ (List.mem_map_of_mem hitem)).1
  have hrequested : (legFills.map fun item => max 0 item.originalQuantity).sum =
      Quantities.requested (legFills.map LegFillSnapshot.quantities) := by
    rw [Quantities.requested, List.map_map]
    rfl
  rw [Quantities.fillRatio_eq h, ← hfilled, ← hrequested]
  rfl

end MultiLegOrchestrator

namespace MultiLegExecutionCoordinator

variable {text : PyText} {coordinator : MultiLegExecutionCoordinator} {call : ExecuteCall}
  {request : ExecutionRequest} {attempt : FillAttempt} {attempts : List FillAttempt}
  {result : MultiLegExecutionResult}

/-- An attempt is of its request and fills no more than that asks for. -/
theorem attempt_spec (h : coordinator.attempt text call request = .ok attempt) :
    attempt.request = request ∧ 0 ≤ attempt.fill.filledQuantity ∧
      attempt.fill.filledQuantity ≤ max 0 request.quantity := by
  obtain ⟨delaySeconds, -, h⟩ := except_bind_eq_ok.mp h
  obtain ⟨selection, -, h⟩ := except_bind_eq_ok.mp h
  obtain ⟨fill, hfill, h⟩ := except_bind_eq_ok.mp h
  obtain ⟨feeItems, -, h⟩ := except_bind_eq_ok.mp h
  cases h
  exact ⟨rfl, ResearchFillModelEngine.fill_bounds hfill⟩

theorem within_quantities (h : call.requests.mapM (coordinator.attempt text call) = .ok attempts) :
    Quantities.Within (attempts.map FillAttempt.quantities) := by
  intro leg hleg
  obtain ⟨attempt, hattempt, rfl⟩ := List.mem_map.mp hleg
  obtain ⟨request, -, hrequest⟩ := (mapM_eq_ok_mem h).2 attempt hattempt
  obtain ⟨rfl, hbounds⟩ := attempt_spec hrequest
  exact hbounds

/-- What `execute` reports of the fills its requests produce. -/
theorem execute_spec (hattempts : call.requests.mapM (coordinator.attempt text call) = .ok attempts)
    (h : coordinator.execute text call = .ok result) :
    result.filledRatio = Quantities.fillRatio (attempts.map FillAttempt.quantities) ∧
      result.timedOut = decide (call.timeoutSeconds ≤
        max 0 (call.now.secondsSince call.startedAt)) ∧
      result.cancelled =
        (result.timedOut && decide (result.filledRatio < call.minimumAggregateFillRatio)) ∧
      result.retryEligible = (decide (result.filledRatio < 1) && !result.cancelled) := by
  obtain ⟨ordered, hordered, h⟩ := except_bind_eq_ok.mp h
  obtain ⟨sorted, hsorted, h⟩ := except_bind_eq_ok.mp h
  cases h
  refine ⟨?_, rfl, rfl, rfl⟩
  have hperm : call.requests.Perm ordered := by
    rw [MultiLegExecutionCoordinator.ordered] at hordered
    split_ifs at hordered
    cases hordered
    exact StableSort.sortBy_perm.symm
  obtain ⟨sorted', hsorted', hresults⟩ := mapM_eq_ok_perm hperm hattempts
  obtain rfl : sorted' = sorted := Except.ok.inj (hsorted'.symm.trans hsorted)
  have hrequests : ordered.map (fun req => max 0 req.quantity) =
      sorted'.map fun attempt => max 0 attempt.request.quantity :=
    (map_eq_of_mapM_eq_ok hsorted fun request attempt hattempt => by
      rw [(attempt_spec hattempt).1]).symm
  rw [Quantities.fillRatio_perm (hresults.map FillAttempt.quantities), Quantities.fillRatio,
    Quantities.filled, Quantities.requested, List.map_map, List.map_map, hrequests]
  rfl

end MultiLegExecutionCoordinator

/-- The two reports of one set of fills agree. -/
structure ReportsAgree (result : MultiLegExecutionResult) (event : FillReconciliationEvent) :
    Prop where
  fillRatio : result.filledRatio = event.strategyFillRatio
  timedOut : result.timedOut = event.timedOut
  cancelled : result.cancelled = event.cancelled
  retryEligible : result.retryEligible = event.retryEligible

/-- The reports agree exactly when it is not the case that the timeout has passed with the minimum
reached and the fill incomplete. -/
theorem reportsAgree_iff (text : PyText) (coordinator : MultiLegExecutionCoordinator)
    (call : ExecuteCall) {attempts : List FillAttempt} {result : MultiLegExecutionResult}
    {legFills : List LegFillSnapshot} (timestamp : DateTime)
    (strategyInstanceId positionInstanceId : String)
    (hattempts : call.requests.mapM (coordinator.attempt text call) = .ok attempts)
    (hresult : coordinator.execute text call = .ok result)
    (hfed : (legFills.map LegFillSnapshot.quantities).Perm
      (attempts.map FillAttempt.quantities)) :
    ReportsAgree result
        (MultiLegOrchestrator.reconcilePartialFills timestamp strategyInstanceId positionInstanceId
          legFills call.minimumAggregateFillRatio call.timeoutSeconds
          (max 0 (call.now.secondsSince call.startedAt)) true) ↔
      ¬ (call.timeoutSeconds ≤ max 0 (call.now.secondsSince call.startedAt) ∧
        call.minimumAggregateFillRatio ≤
          Quantities.fillRatio (attempts.map FillAttempt.quantities) ∧
        Quantities.fillRatio (attempts.map FillAttempt.quantities) < 1) := by
  obtain ⟨hratio, htimedOut, hcancelled, hretry⟩ :=
    MultiLegExecutionCoordinator.execute_spec hattempts hresult
  have hwithin : Quantities.Within (legFills.map LegFillSnapshot.quantities) := fun leg hleg =>
    MultiLegExecutionCoordinator.within_quantities hattempts leg (hfed.mem_iff.mp hleg)
  generalize hevent : MultiLegOrchestrator.reconcilePartialFills timestamp strategyInstanceId
    positionInstanceId legFills call.minimumAggregateFillRatio call.timeoutSeconds
    (max 0 (call.now.secondsSince call.startedAt)) true = event
  have heventRatio : event.strategyFillRatio =
      Quantities.fillRatio (attempts.map FillAttempt.quantities) := by
    rw [← hevent, MultiLegOrchestrator.strategyFillRatio_eq hwithin,
      Quantities.fillRatio_perm hfed]
  have heventTimedOut : event.timedOut = decide (call.timeoutSeconds ≤
      max 0 (call.now.secondsSince call.startedAt)) := by rw [← hevent]; rfl
  have heventCancelled : event.cancelled =
      (decide (event.strategyFillRatio < call.minimumAggregateFillRatio) && event.timedOut) := by
    rw [← hevent]
    rfl
  have heventRetry : event.retryEligible =
      (decide (event.strategyFillRatio < 1) && !event.cancelled && !event.timedOut) := by
    rw [← hevent]
    rfl
  rw [heventTimedOut] at heventCancelled heventRetry
  rw [htimedOut] at hcancelled
  rw [heventRatio] at heventCancelled heventRetry
  rw [hratio] at hcancelled hretry
  have hsame : result.cancelled = event.cancelled := by
    rw [hcancelled, heventCancelled, Bool.and_comm]
  constructor
  · rintro ⟨-, -, -, hagree⟩ ⟨htimeout, hminimum, hincomplete⟩
    -- After the timeout the minimum keeps the fills from being cancelled.
    rw [hretry, heventRetry, ← hsame, hcancelled] at hagree
    simp [htimeout, hincomplete, not_lt.mpr hminimum] at hagree
  · intro hnot
    refine ⟨hratio.trans heventRatio.symm, htimedOut.trans heventTimedOut.symm, hsame, ?_⟩
    rw [hretry, heventRetry, ← hsame, hcancelled]
    by_cases htimeout : call.timeoutSeconds ≤ max 0 (call.now.secondsSince call.startedAt)
    · by_cases hminimum : call.minimumAggregateFillRatio ≤
          Quantities.fillRatio (attempts.map FillAttempt.quantities)
      · have hcomplete : ¬ Quantities.fillRatio (attempts.map FillAttempt.quantities) < 1 :=
          fun hincomplete => hnot ⟨htimeout, hminimum, hincomplete⟩
        simp [hcomplete]
      · simp [htimeout, not_le.mp hminimum]
    · simp [htimeout]

/-- Two contracts are asked for and one is filled, half a second before the timeout or after it. -/
def halfFilled (elapsedMicroseconds : Int) : ExecuteCall where
  requests := [{
    strategyId := "s"
    positionId := "p"
    legId := "L1"
    contractIdentifier := "C1"
    side := .buy
    quantity := 2
    requestedTimestamp := ⟨0, some 0⟩
    executionDelayPolicy := []
    fillModelPolicy := [("fill_ratio", .float (1 / 2))]
    slippagePolicy := []
    commissionPolicy := []
    exchangeFeePolicy := []
    minimumFillQuantity := 0
    allOrNoneResearch := false }]
  quotesByContract := [("C1", [[("timestamp", .datetime ⟨0, some 0⟩), ("bid", .float 1),
    ("ask", .float 1)]])]
  quotePolicy := { mode := "nearest_prior", priceSelection := .midpoint }
  legPriority := ["L1"]
  minimumAggregateFillRatio := 1 / 2
  timeoutSeconds := 1
  startedAt := ⟨0, some 0⟩
  now := ⟨elapsedMicroseconds, some 0⟩
  maximumLeggingExposure := 100

theorem reportsAgree_halfFilled : ∃ attempts result,
    (halfFilled 500000).requests.mapM
        (MultiLegExecutionCoordinator.attempt plainText ⟨{}, {}⟩ (halfFilled 500000)) =
          .ok attempts ∧
      MultiLegExecutionCoordinator.execute plainText ⟨{}, {}⟩ (halfFilled 500000) = .ok result ∧
      [(2, 1)] = attempts.map FillAttempt.quantities ∧
      ReportsAgree result (MultiLegOrchestrator.reconcilePartialFills ⟨0, some 0⟩ "s" "p"
        [⟨"L1", 2, 1, 1⟩] (1 / 2) 1
        (max 0 ((halfFilled 500000).now.secondsSince (halfFilled 500000).startedAt)) true) := by
  refine ⟨_, _, rfl, rfl, by decide +kernel, ?_⟩
  refine (reportsAgree_iff plainText ⟨{}, {}⟩ (halfFilled 500000) ⟨0, some 0⟩ "s" "p" rfl rfl
    ?_).mpr ?_
  · decide +kernel
  · decide +kernel

theorem reports_disagree : ∃ result,
    MultiLegExecutionCoordinator.execute plainText ⟨{}, {}⟩ (halfFilled 1500000) = .ok result ∧
      result.fills.map FillAttempt.quantities = [(2, 1)] ∧
      ¬ ReportsAgree result (MultiLegOrchestrator.reconcilePartialFills ⟨0, some 0⟩ "s" "p"
        [⟨"L1", 2, 1, 1⟩] (1 / 2) 1
        (max 0 ((halfFilled 1500000).now.secondsSince (halfFilled 1500000).startedAt)) true) := by
  refine ⟨_, rfl, by decide +kernel, fun h => absurd h.retryEligible ?_⟩
  decide +kernel

end OptionResearch
