import OptionResearch.InsertionDict
import OptionResearch.PartialEffects
import OptionResearch.PythonValues

/-!
# Typed contracts of the backtesting foundation

The records of `models.py` with the fields the modelled services read or write. A
`StrategyObject` is what the engine is really handed: an object whose callbacks may raise, may
keep state of their own, and may return anything. A `StrategyLifecycle` is the protocol as
annotated, every callback returning an instance of its annotated class.
-/

namespace OptionResearch

inductive EventType where
  | sessionOpen
  | intraday
  | quote
  | underlyingPrice
  | volatilitySurface
  | earnings
  | dividend
  | corporateAction
  | optionExpiration
  | entryEvaluation
  | managementEvaluation
  | exitEvaluation
  | rollEvaluation
  | fillEvent
  | riskEvent
  | earningsAnnouncement
  | earningsDateRevision
  | exDividendDate
  | dividendAnnouncement
  | dividendRevision
  | specialDividend
  | stockSplit
  | reverseSplit
  | symbolChange
  | merger
  | spinOff
  | contractAdjustment
  | liquidityDeterioration
  | staleDataThresholdBreach
  | marketHalt
  | tradingResumption
  | pendingAssignmentOrExercise
  | portfolioArbitrationDecision
  | endOfBacktest
  | lifecycleEvaluation
  | valuation
  | sessionClose
  deriving DecidableEq, Repr

def EventType.value : EventType → String
  | .sessionOpen => "session_open"
  | .intraday => "intraday"
  | .quote => "quote"
  | .underlyingPrice => "underlying_price"
  | .volatilitySurface => "volatility_surface"
  | .earnings => "earnings"
  | .dividend => "dividend"
  | .corporateAction => "corporate_action"
  | .optionExpiration => "option_expiration"
  | .entryEvaluation => "entry_evaluation"
  | .managementEvaluation => "management_evaluation"
  | .exitEvaluation => "exit_evaluation"
  | .rollEvaluation => "roll_evaluation"
  | .fillEvent => "fill_event"
  | .riskEvent => "risk_event"
  | .earningsAnnouncement => "earnings_announcement"
  | .earningsDateRevision => "earnings_date_revision"
  | .exDividendDate => "ex_dividend_date"
  | .dividendAnnouncement => "dividend_announcement"
  | .dividendRevision => "dividend_revision"
  | .specialDividend => "special_dividend"
  | .stockSplit => "stock_split"
  | .reverseSplit => "reverse_split"
  | .symbolChange => "symbol_change"
  | .merger => "merger"
  | .spinOff => "spin_off"
  | .contractAdjustment => "contract_adjustment"
  | .liquidityDeterioration => "liquidity_deterioration"
  | .staleDataThresholdBreach => "stale_data_threshold_breach"
  | .marketHalt => "market_halt"
  | .tradingResumption => "trading_resumption"
  | .pendingAssignmentOrExercise => "pending_assignment_or_exercise"
  | .portfolioArbitrationDecision => "portfolio_arbitration_decision"
  | .endOfBacktest => "end_of_backtest"
  | .lifecycleEvaluation => "lifecycle_evaluation"
  | .valuation => "valuation"
  | .sessionClose => "session_close"

inductive BacktestStatus where
  | pending
  | running
  | completed
  | failed
  deriving DecidableEq, Repr

def BacktestStatus.value : BacktestStatus → String
  | .pending => "pending"
  | .running => "running"
  | .completed => "completed"
  | .failed => "failed"

inductive AsOfPolicy where
  | exact
  | nearestPrior
  deriving DecidableEq, Repr

def AsOfPolicy.value : AsOfPolicy → String
  | .exact => "exact"
  | .nearestPrior => "nearest_prior"

inductive LifecycleStatus where
  | initialized
  | open
  | managing
  | exitPending
  | expired
  | closed
  | failed
  deriving DecidableEq, Repr

def LifecycleStatus.value : LifecycleStatus → String
  | .initialized => "initialized"
  | .open => "open"
  | .managing => "managing"
  | .exitPending => "exit_pending"
  | .expired => "expired"
  | .closed => "closed"
  | .failed => "failed"

/-- `AsOfPolicy(text)`. -/
def AsOfPolicy.parse (text : String) : Except Exc AsOfPolicy :=
  if text = AsOfPolicy.exact.value then .ok .exact
  else if text = AsOfPolicy.nearestPrior.value then .ok .nearestPrior
  else .error ⟨.valueError, s!"'{text}' is not a valid AsOfPolicy"⟩

structure InformationSetAudit where
  lookupKey : String
  requestedTimestamp : DateTime
  observedTimestamp : Option DateTime
  asOfPolicy : AsOfPolicy
  sourceManifest : PyValue
  sourceRef : PyValue
  reasonCode : String
  metadata : Payload

inductive DuplicateEventPolicy where
  | keepFirst
  | keepLast
  | keepAll
  | raise
  deriving DecidableEq, Repr

inductive MissingSessionPolicy where
  | skip
  | raise
  deriving DecidableEq, Repr

structure EventClockConfig where
  duplicateEventPolicy : DuplicateEventPolicy := .keepFirst
  missingSessionPolicy : MissingSessionPolicy := .skip
  eventPriorities : InsertionDict EventType Int := .empty

structure TradingSession where
  tradeDate : Date
  openTimestamp : DateTime
  closeTimestamp : DateTime
  isTradingDay : Bool := true

structure ClockEvent where
  timestamp : DateTime
  eventType : EventType
  priority : Int
  sequenceHint : Int := 0
  payload : Payload := []

structure DeterministicEvent where
  eventId : String
  timestamp : DateTime
  eventType : EventType
  priority : Int
  sequenceNumber : Int
  payload : Payload

structure BacktestConfiguration where
  datasetManifests : List String
  initialCapital : ℚ
  reserveCash : ℚ
  randomSeed : Option Int
  softwareGitCommit : String
  schemaVersion : String

structure PositionLegState where
  quantity : Int
  exerciseStyle : Option String
  delta : Option ℚ
  gamma : Option ℚ
  theta : Option ℚ
  vega : Option ℚ
  rho : Option ℚ

structure PositionState where
  positionId : String
  strategyId : String
  lifecycleStatus : LifecycleStatus
  openedAt : DateTime
  closedAt : Option DateTime
  legs : List PositionLegState
  realizedPnl : ℚ
  unrealizedPnl : ℚ
  metadata : Payload

/-- The five entries of the source's `portfolio_greeks` dictionary. -/
structure PortfolioGreeks where
  delta : ℚ
  gamma : ℚ
  theta : ℚ
  vega : ℚ
  rho : ℚ

/-- The one entry of the source's `portfolio_exposure` dictionary. -/
structure PortfolioExposure where
  notional : ℚ

structure PortfolioSnapshot where
  timestamp : DateTime
  cashBalance : ℚ
  reservedCapital : ℚ
  realizedPnl : ℚ
  unrealizedPnl : ℚ
  accruedFees : ℚ
  dividends : ℚ
  portfolioGreeks : PortfolioGreeks
  portfolioExposure : PortfolioExposure
  capitalUtilization : ℚ

structure CashLedgerEntry where
  timestamp : DateTime
  amount : ℚ
  balanceAfter : ℚ
  reasonCode : String
  strategyId : String
  positionId : Option String

structure LedgerRecord where
  timestamp : DateTime
  strategyId : String
  positionId : Option String
  recordType : String
  reasonCode : String
  sequenceNumber : Int
  payload : Payload
  manifestReference : PyValue
  softwareVersion : Option String
  rowChecksum : String

structure BacktestWarning where
  timestamp : DateTime
  strategyId : String
  positionId : Option String
  reasonCode : String
  message : String
  metadata : Payload

structure FailedEvent where
  eventId : String
  timestamp : DateTime
  eventType : EventType
  reasonCode : String
  message : String
  recoverable : Bool

structure ReproducibilityMetadata where
  eventOrdering : String
  informationSetPolicy : String
  lookupPolicies : List (String × String)
  datasetManifests : List String
  softwareGitCommit : String
  schemaVersion : String
  deterministicSeed : Option Int

structure BacktestRunResult where
  configuration : BacktestConfiguration
  status : BacktestStatus
  tradeLedger : List LedgerRecord
  eventLedger : List LedgerRecord
  equityCurve : List (DateTime × ℚ)
  cashHistory : List CashLedgerEntry
  positionHistory : List (PyObject PositionState)
  greeksHistory : List (DateTime × PortfolioGreeks)
  exposureHistory : List (DateTime × PortfolioExposure)
  realizedPnl : ℚ
  unrealizedPnl : ℚ
  totalReturn : ℚ
  maximumDrawdown : ℚ
  expectedShortfall : ℚ
  winRate : ℚ
  /-- `none` is the source's infinity. -/
  profitFactor : Option ℚ
  averageWinner : ℚ
  averageLoser : ℚ
  timeUnderWaterDays : ℚ
  capitalUtilization : ℚ
  warnings : List BacktestWarning
  failedEvents : List FailedEvent
  reproducibility : ReproducibilityMetadata

structure LifecycleDecision where
  shouldOpen : Bool := false
  shouldClose : Bool := false
  shouldRoll : Bool := false
  reasonCode : String := "none"
  metadata : Payload := []

structure EventContext where
  event : DeterministicEvent
  informationSet : List InformationSetAudit
  openPositions : List (PyObject PositionState)
  portfolioSnapshot : PortfolioSnapshot

/-- A callback of the strategy: it may raise, and `σ` is whatever it keeps between calls. -/
abbrev Callback (σ : Type) := Effect σ Exc

/-- The strategy the engine is handed. `createPosition` may return `None`; every other result is
an object that may lack any of the attributes the engine reads. -/
structure StrategyObject (σ : Type) where
  strategyId : String
  initializeStrategy : BacktestConfiguration → Callback σ Unit
  evaluateEntry : EventContext → Callback σ (PyObject LifecycleDecision)
  createPosition : EventContext → Callback σ (Option (PyObject PositionState))
  markPosition : EventContext → PyObject PositionState → Callback σ (PyObject PositionState)
  evaluateManagementRules :
    EventContext → PyObject PositionState → Callback σ (PyObject LifecycleDecision)
  evaluateExit : EventContext → PyObject PositionState → Callback σ (PyObject LifecycleDecision)
  evaluateRollEligibility :
    EventContext → PyObject PositionState → Callback σ (PyObject LifecycleDecision)
  processExpiration : EventContext → PyObject PositionState → Callback σ (PyObject PositionState)
  finalize : BacktestRunResult → Callback σ Unit

/-- The protocol as annotated. -/
structure StrategyLifecycle (σ : Type) where
  strategyId : String
  initializeStrategy : BacktestConfiguration → Callback σ Unit
  evaluateEntry : EventContext → Callback σ LifecycleDecision
  createPosition : EventContext → Callback σ (Option PositionState)
  markPosition : EventContext → PositionState → Callback σ PositionState
  evaluateManagementRules : EventContext → PositionState → Callback σ LifecycleDecision
  evaluateExit : EventContext → PositionState → Callback σ LifecycleDecision
  evaluateRollEligibility : EventContext → PositionState → Callback σ LifecycleDecision
  processExpiration : EventContext → PositionState → Callback σ PositionState
  finalize : BacktestRunResult → Callback σ Unit

def PositionState.toObject (position : PositionState) : PyObject PositionState :=
  .ofInstance "PositionState" position

def LifecycleDecision.toObject (decision : LifecycleDecision) : PyObject LifecycleDecision :=
  .ofInstance "LifecycleDecision" decision

/-- A strategy that keeps to the annotations, as the engine sees it. -/
def StrategyLifecycle.toObject {σ : Type} (strategy : StrategyLifecycle σ) : StrategyObject σ where
  strategyId := strategy.strategyId
  initializeStrategy := strategy.initializeStrategy
  evaluateEntry context := return (← strategy.evaluateEntry context).toObject
  createPosition context := return (← strategy.createPosition context).map PositionState.toObject
  markPosition context position := return (← strategy.markPosition context position.value).toObject
  evaluateManagementRules context position :=
    return (← strategy.evaluateManagementRules context position.value).toObject
  evaluateExit context position := return (← strategy.evaluateExit context position.value).toObject
  evaluateRollEligibility context position :=
    return (← strategy.evaluateRollEligibility context position.value).toObject
  processExpiration context position :=
    return (← strategy.processExpiration context position.value).toObject
  finalize := strategy.finalize

end OptionResearch
