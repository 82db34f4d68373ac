import OptionResearch.NoLookAheadGuard
import OptionResearch.EquityCurve

/-!
# The historical event loop

`BacktestingEngine.run` and its handlers, over the pair of the engine's own state and whatever the
strategy and the lookup keep between calls. The handlers mutate the engine state in the source's
order, so an exception leaves exactly the prefix of updates that had been made.
-/

namespace OptionResearch

structure BacktestEngineState where
  openPositions : List (PyObject PositionState) := []
  closedPositions : List PositionState := []
  cashBalance : ℚ := 0
  reservedCapital : ℚ := 0
  realizedPnl : ℚ := 0
  unrealizedPnl : ℚ := 0
  accruedFees : ℚ := 0
  dividends : ℚ := 0
  warnings : List BacktestWarning := []
  failedEvents : List FailedEvent := []
  eventLedger : List LedgerRecord := []
  tradeLedger : List LedgerRecord := []
  cashHistory : List CashLedgerEntry := []
  positionHistory : List (PyObject PositionState) := []
  snapshots : List PortfolioSnapshot := []
  greeksHistory : List (DateTime × PortfolioGreeks) := []
  exposureHistory : List (DateTime × PortfolioExposure) := []

namespace BacktestEngineState

variable (s : BacktestEngineState)

/-- `state.trade_ledger.append(row)`. -/
def appendTrade (row : LedgerRecord) : BacktestEngineState :=
  { s with tradeLedger := s.tradeLedger ++ [row] }

/-- `state.event_ledger.append(row)`. -/
def appendEvent (row : LedgerRecord) : BacktestEngineState :=
  { s with eventLedger := s.eventLedger ++ [row] }

/-- `state.open_positions = (*state.open_positions, position)`. -/
def addOpen (position : PyObject PositionState) : BacktestEngineState :=
  { s with openPositions := s.openPositions ++ [position] }

/-- `state.open_positions = tuple(refreshed)`. -/
def replaceOpen (refreshed : List (PyObject PositionState)) : BacktestEngineState :=
  { s with openPositions := refreshed }

/-- The two assignments that end the lifecycle loop. -/
def commitLifecycle (updated : List (PyObject PositionState)) (newlyClosed : List PositionState) :
    BacktestEngineState :=
  { s with openPositions := updated, closedPositions := s.closedPositions ++ newlyClosed }

/-- The three appends of a `VALUATION` event. -/
def recordValuation (context : EventContext) : BacktestEngineState :=
  { s with
    snapshots := s.snapshots ++ [context.portfolioSnapshot]
    greeksHistory := s.greeksHistory ++
      [(context.event.timestamp, context.portfolioSnapshot.portfolioGreeks)]
    exposureHistory := s.exposureHistory ++
      [(context.event.timestamp, context.portfolioSnapshot.portfolioExposure)] }

/-- `state.position_history.extend(state.open_positions)`. -/
def recordPositions : BacktestEngineState :=
  { s with positionHistory := s.positionHistory ++ s.openPositions }

/-- `state.failed_events.append(failure)`. -/
def appendFailure (failure : FailedEvent) : BacktestEngineState :=
  { s with failedEvents := s.failedEvents ++ [failure] }

/-- `state.warnings.append(warning)`. -/
def appendWarning (warning : BacktestWarning) : BacktestEngineState :=
  { s with warnings := s.warnings ++ [warning] }

end BacktestEngineState

/-- A method of the engine: it may raise, and works on the engine state beside the environment
`σ` of the strategy and the lookup. -/
abbrev EngineM (σ : Type) := Effect (BacktestEngineState × σ) Exc

/-- The `information_lookup` argument of `run`. -/
abbrev InformationLookup (σ : Type) := DateTime → Callback σ PyValue

structure BacktestingEngine where
  guard : NoLookAheadGuard
  text : PyText

/-- What the callbacks decide about one open position. -/
inductive PositionOutcome where
  | kept (marked : PyObject PositionState)
  | closed (position : PositionState) (row : LedgerRecord)

def aggregateLegGreeks (total : PortfolioGreeks) (leg : PositionLegState) : PortfolioGreeks where
  delta := total.delta + leg.delta.getD 0 * leg.quantity
  gamma := total.gamma + leg.gamma.getD 0 * leg.quantity
  theta := total.theta + leg.theta.getD 0 * leg.quantity
  vega := total.vega + leg.vega.getD 0 * leg.quantity
  rho := total.rho + leg.rho.getD 0 * leg.quantity

/-- `_aggregate_greeks`. -/
def aggregateGreeks (positions : List (PyObject PositionState)) : Except Exc PortfolioGreeks :=
  positions.foldlM (fun total position => do
    let legs ← position.attr "legs" (·.legs)
    return legs.foldl aggregateLegGreeks total) ⟨0, 0, 0, 0, 0⟩

/-- The source's floor on the capital it divides by. -/
def capitalUtilization (s : BacktestEngineState) : ℚ :=
  s.reservedCapital / max (1 / 1000000000) (s.cashBalance + s.reservedCapital)

namespace BacktestingEngine

variable {σ : Type} (engine : BacktestingEngine) (strategy : StrategyObject σ)
  (configuration : BacktestConfiguration) (lookup : Option (InformationLookup σ))

/-- A callback runs on the environment only. -/
def callback {α : Type} (m : Callback σ α) : EngineM σ α := Effect.onSnd m

def update (f : BacktestEngineState → BacktestEngineState) : EngineM σ Unit :=
  modify fun p => (f p.1, p.2)

def readState : EngineM σ BacktestEngineState := return (← get).1

/-- `_ledger`. -/
def ledger (event : DeterministicEvent) (strategyId : String) (positionId : Option String)
    (recordType reasonCode : String) (payload : Payload) (softwareVersion : Option String) :
    LedgerRecord where
  timestamp := event.timestamp
  strategyId := strategyId
  positionId := positionId
  recordType := recordType
  reasonCode := reasonCode
  sequenceNumber := event.sequenceNumber
  payload := payload
  manifestReference := event.payload.get "manifest" .none
  softwareVersion := softwareVersion
  rowChecksum := engine.text.sha256
    s!"{event.eventId}|{recordType}|{reasonCode}|{engine.text.sortedItems payload}"

/-- The audit of one record a lookup returned. -/
def auditItem (event : DeterministicEvent) (item : PyValue) : Except Exc InformationSetAudit := do
  let entries ← item.asDict
  let observedTs := (entries.get "observed_timestamp" .none).datetime?
  observedTs.elim (.ok ()) (engine.guard.assertVisible engine.text event.timestamp)
  let asOfPolicy ← AsOfPolicy.parse
    (engine.text.str (entries.get "as_of_policy" (.str AsOfPolicy.nearestPrior.value)))
  let metadata ← (entries.get "metadata" (.dict [])).toDict
  engine.guard.auditLookup engine.text
    (engine.text.str (entries.get "lookup_key" (.str "unknown"))) event.timestamp observedTs
    asOfPolicy (entries.get "source_manifest" .none) (entries.get "source_ref" .none)
    (engine.text.str (entries.get "reason_code" (.str "lookup"))) metadata

/-- `_information_set`. -/
def informationSet (event : DeterministicEvent) : Callback σ (List InformationSetAudit) :=
  match lookup with
  | none => Effect.raising do
      let audit ← engine.guard.auditLookup engine.text "event_payload" event.timestamp
        (some event.timestamp) .exact (event.payload.get "manifest" .none)
        (event.payload.get "source_ref" .none) "event_time_snapshot"
        [("event_type", .str event.eventType.value)]
      return [audit]
  | some lookup => do
      let payload ← lookup event.timestamp
      Effect.raising do
        let items ← payload.iter
        items.mapM (engine.auditItem event)

/-- `_snapshot`. -/
def snapshot (state : BacktestEngineState) (timestamp : DateTime) :
    Except Exc PortfolioSnapshot := do
  let totalGreeks ← aggregateGreeks state.openPositions
  return { timestamp, cashBalance := state.cashBalance, reservedCapital := state.reservedCapital,
           realizedPnl := state.realizedPnl, unrealizedPnl := state.unrealizedPnl,
           accruedFees := state.accruedFees, dividends := state.dividends,
           portfolioGreeks := totalGreeks,
           portfolioExposure := { notional := state.reservedCapital },
           capitalUtilization := capitalUtilization state }

/-- The `position_open` row, with the attributes it reads in the source's order. -/
def openRow (context : EventContext) (decision : PyObject LifecycleDecision)
    (position : PyObject PositionState) : Except Exc LedgerRecord := do
  let positionId ← position.attr "position_id" (·.positionId)
  let reasonCode ← decision.attr "reason_code" (·.reasonCode)
  let metadata ← decision.attr "metadata" (·.metadata)
  return engine.ledger context.event strategy.strategyId (some positionId) "position_open"
    reasonCode [("metadata", .dict metadata)] none

/-- The entry half of `_handle_lifecycle`. The position is stored before its ledger row exists. -/
def handleEntry (context : EventContext) : EngineM σ Unit := do
  let decision ← callback (strategy.evaluateEntry context)
  let shouldOpen ← Effect.raising (decision.attr "should_open" (·.shouldOpen))
  if shouldOpen then
    match ← callback (strategy.createPosition context) with
    | none => throw ⟨.strategyLifecycleError,
        "strategy returned should_open without creating a position"⟩
    | some position =>
      update (·.addOpen position)
      let row ← Effect.raising (engine.openRow strategy context decision position)
      update (·.appendTrade row)

/-- The closed copy of a marked position. -/
def closePosition (event : DeterministicEvent) (marked : PyObject PositionState) :
    Except Exc PositionState := do
  let positionId ← marked.attr "position_id" (·.positionId)
  let strategyId ← marked.attr "strategy_id" (·.strategyId)
  let openedAt ← marked.attr "opened_at" (·.openedAt)
  let legs ← marked.attr "legs" (·.legs)
  let realizedPnl ← marked.attr "realized_pnl" (·.realizedPnl)
  let metadata ← marked.attr "metadata" (·.metadata)
  return { positionId, strategyId, lifecycleStatus := .closed, openedAt,
           closedAt := some event.timestamp, legs, realizedPnl, unrealizedPnl := 0, metadata }

/-- `management.should_close or exit_decision.should_close`. -/
def shouldClose (management exitDecision : PyObject LifecycleDecision) : Except Exc Bool := do
  if ← management.attr "should_close" (·.shouldClose) then return true
  else exitDecision.attr "should_close" (·.shouldClose)

/-- The branch of the lifecycle loop, up to the ledger append: every attribute it reads. -/
def positionOutcome (context : EventContext) (marked : PyObject PositionState)
    (management exitDecision rollDecision : PyObject LifecycleDecision) :
    Except Exc PositionOutcome := do
  if ← shouldClose management exitDecision then
    let closed ← closePosition context.event marked
    let reasonCode ← exitDecision.attr "reason_code" (·.reasonCode)
    let managementReason ← management.attr "reason_code" (·.reasonCode)
    let shouldRoll ← rollDecision.attr "should_roll" (·.shouldRoll)
    return .closed closed (engine.ledger context.event strategy.strategyId (some closed.positionId)
      "position_close" reasonCode
      [("management_reason", .str managementReason), ("roll_eligible", .bool shouldRoll)] none)
  else return .kept marked

/-- One iteration of the lifecycle loop up to the ledger append. -/
def evaluatePosition (context : EventContext) (position : PyObject PositionState) :
    Callback σ PositionOutcome := do
  let marked ← strategy.markPosition context position
  let management ← strategy.evaluateManagementRules context marked
  let exitDecision ← strategy.evaluateExit context marked
  let rollDecision ← strategy.evaluateRollEligibility context marked
  Effect.raising (engine.positionOutcome strategy context marked management exitDecision
    rollDecision)

/-- The loop over the open positions: the positions kept, and those newly closed. -/
def managePositions (context : EventContext) : List (PyObject PositionState) →
    EngineM σ (List (PyObject PositionState) × List PositionState)
  | [] => return ([], [])
  | position :: rest => do
    match ← callback (engine.evaluatePosition strategy context position) with
    | .kept marked =>
      let (updated, newlyClosed) ← managePositions context rest
      return (marked :: updated, newlyClosed)
    | .closed closed row =>
      update (·.appendTrade row)
      let (updated, newlyClosed) ← managePositions context rest
      return (updated, closed :: newlyClosed)

/-- `_handle_lifecycle`: the positions are replaced only once the whole loop is over. -/
def handleLifecycle (context : EventContext) : EngineM σ Unit := do
  engine.handleEntry strategy context
  let state ← readState
  let (updated, newlyClosed) ← engine.managePositions strategy context state.openPositions
  update (·.commitLifecycle updated newlyClosed)

/-- The row `_handle_expiration` writes for one position; `legs` are the processed position's. -/
def expirationRow (context : EventContext) (positionId : String) (legs : List PositionLegState) :
    LedgerRecord :=
  engine.ledger context.event strategy.strategyId (some positionId) "expiration"
    "expiration_processing"
    [("exercise_style", .list (legs.map fun leg => leg.exerciseStyle.elim .none .str)),
      ("settlement_pending", .bool true)] none

/-- The loop of `_handle_expiration`. -/
def refreshPositions (context : EventContext) : List (PyObject PositionState) →
    EngineM σ (List (PyObject PositionState))
  | [] => return []
  | position :: rest => do
    let processed ← callback (strategy.processExpiration context position)
    let positionId ← Effect.raising (position.attr "position_id" (·.positionId))
    let legs ← Effect.raising (processed.attr "legs" (·.legs))
    update (·.appendEvent (engine.expirationRow strategy context positionId legs))
    return processed :: (← refreshPositions context rest)

/-- `_handle_expiration`. -/
def handleExpiration (context : EventContext) : EngineM σ Unit := do
  let state ← readState
  let refreshed ← engine.refreshPositions strategy context state.openPositions
  update (·.replaceOpen refreshed)

/-- `_handle_corporate_action`. -/
def handleCorporateAction (context : EventContext) : EngineM σ Unit :=
  update (·.appendEvent (engine.ledger context.event strategy.strategyId none "corporate_action"
    "applied" [("raw", .dict context.event.payload)] none))

/-- The `VALUATION` branch of `_process_event`. -/
def handleValuation (context : EventContext) : EngineM σ Unit :=
  update (·.recordValuation context)

/-- The `RISK_EVENT` branch of `_process_event`. -/
def handleRiskEvent (context : EventContext) : EngineM σ Unit :=
  update (·.appendWarning { timestamp := context.event.timestamp
                            strategyId := strategy.strategyId
                            positionId := none
                            reasonCode := "risk_event"
                            message := "risk event processed"
                            metadata := context.event.payload })

/-- The dispatch of `_process_event` on the event type. -/
def dispatch (context : EventContext) : EngineM σ Unit :=
  match context.event.eventType with
  | .lifecycleEvaluation | .entryEvaluation | .managementEvaluation | .exitEvaluation
  | .rollEvaluation | .fillEvent => engine.handleLifecycle strategy context
  | .valuation => handleValuation context
  | .optionExpiration => engine.handleExpiration strategy context
  | .corporateAction => engine.handleCorporateAction strategy context
  | .riskEvent => handleRiskEvent strategy context
  | _ => pure ()

/-- The row every event leaves once its information set and snapshot exist. -/
def eventRow (event : DeterministicEvent) : LedgerRecord :=
  engine.ledger event strategy.strategyId none "event" event.eventType.value event.payload
    (some configuration.softwareGitCommit)

/-- The context handed to every callback of one event. -/
def eventContext (event : DeterministicEvent) (informationSet : List InformationSetAudit)
    (state : BacktestEngineState) (portfolioSnapshot : PortfolioSnapshot) : EventContext :=
  { event, informationSet, openPositions := state.openPositions, portfolioSnapshot }

/-- `_process_event`. -/
def processEvent (event : DeterministicEvent) : EngineM σ Unit := do
  let informationSet ← callback (engine.informationSet lookup event)
  let state ← readState
  let snapshot ← Effect.raising (snapshot state event.timestamp)
  update (·.appendEvent (engine.eventRow strategy configuration event))
  engine.dispatch strategy (eventContext event informationSet state snapshot)
  update (·.recordPositions)

def failedEvent (event : DeterministicEvent) (exc : Exc) : FailedEvent where
  eventId := event.eventId
  timestamp := event.timestamp
  eventType := event.eventType
  reasonCode := "event_failure"
  message := exc.message
  recoverable := true

def failureRow (event : DeterministicEvent) (exc : Exc) : LedgerRecord :=
  engine.ledger event strategy.strategyId none "failure" "event_failure"
    [("error", .str exc.message)] (some configuration.softwareGitCommit)

/-- The `except` branch of `run`. -/
def recordFailure (event : DeterministicEvent) (exc : Exc) : EngineM σ Unit := do
  update (·.appendFailure (failedEvent event exc))
  update (·.appendEvent (engine.failureRow strategy configuration event exc))

/-- One turn of the event loop of `run`. -/
def runEvent (event : DeterministicEvent) : EngineM σ Unit :=
  tryCatch (engine.processEvent strategy configuration lookup event)
    (engine.recordFailure strategy configuration event)

/-- The event loop of `run`. -/
def runEvents : List DeterministicEvent → EngineM σ Unit
  | [] => return ()
  | event :: rest => do
    engine.runEvent strategy configuration lookup event
    runEvents rest

def equityCurve (state : BacktestEngineState) : List (DateTime × ℚ) :=
  state.snapshots.map fun item =>
    (item.timestamp, item.cashBalance + item.realizedPnl + item.unrealizedPnl)

/-- `_build_result`. -/
def buildResult (state : BacktestEngineState) : Except Exc BacktestRunResult := do
  let equityCurve := equityCurve state
  let returns := EquityCurve.returns equityCurve
  let winners := returns.filter (0 < ·)
  let losers := returns.filter (· < 0)
  let timeUnderWaterDays ← EquityCurve.timeUnderWater equityCurve
  return {
    configuration
    status := if state.failedEvents = [] then .completed else .failed
    tradeLedger := state.tradeLedger
    eventLedger := state.eventLedger
    equityCurve
    cashHistory := state.cashHistory
    positionHistory := state.positionHistory ++ state.closedPositions.map PositionState.toObject
    greeksHistory := state.greeksHistory
    exposureHistory := state.exposureHistory
    realizedPnl := state.realizedPnl
    unrealizedPnl := state.unrealizedPnl
    totalReturn := returns.getLastD 0
    maximumDrawdown := EquityCurve.maxDrawdown equityCurve
    expectedShortfall := EquityCurve.expectedShortfall returns
    winRate := if returns = [] then 0 else winners.length / returns.length
    profitFactor := if losers = [] then none else some (winners.sum / |losers.sum|)
    averageWinner := EquityCurve.averageOrZero winners
    averageLoser := EquityCurve.averageOrZero losers
    timeUnderWaterDays
    capitalUtilization := capitalUtilization state
    warnings := state.warnings
    failedEvents := state.failedEvents
    reproducibility := {
      eventOrdering := "timestamp_priority_sequence"
      informationSetPolicy := "no_look_ahead"
      lookupPolicies := [("default", "nearest_prior")]
      datasetManifests := configuration.datasetManifests
      softwareGitCommit := configuration.softwareGitCommit
      schemaVersion := configuration.schemaVersion
      deterministicSeed := configuration.randomSeed } }

/-- The state a run starts from. -/
def initialState : BacktestEngineState :=
  { cashBalance := configuration.initialCapital, reservedCapital := configuration.reserveCash }

/-- `run`, from the state `initialState` builds. -/
def run (events : List DeterministicEvent) : EngineM σ BacktestRunResult := do
  callback (strategy.initializeStrategy configuration)
  engine.runEvents strategy configuration lookup events
  let state ← readState
  let result ← Effect.raising (buildResult configuration state)
  callback (strategy.finalize result)
  return result

end BacktestingEngine
end OptionResearch
