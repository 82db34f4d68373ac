import OptionResearch.ClosedFormModels
import OptionResearch.VolatilitySolvers

/-!
# The checks before a volatility is solved for

Requests and configurations of the volatility engine, with `select_market_price` and
`validate_request` of `implied_volatility/validation.py`. A request without an exercise style or an
underlying type is none of the type here.
-/

namespace OptionResearch

inductive PricingModelName where
  | blackScholes
  | black76
  | binomialTree
  | coxRossRubinstein
  | baroneAdesiWhaley
  | bjerksundStensland
  deriving DecidableEq, Repr

inductive MarketPriceSource where
  | bid
  | ask
  | mid
  | last
  | mark
  deriving DecidableEq, Repr

inductive QuotePolicy where
  | strict
  | clipToBounds
  deriving DecidableEq, Repr

inductive QuoteIssuePolicy where
  | reject
  | warn
  | clip
  deriving DecidableEq, Repr

inductive BatchParallelismMode where
  | serial
  | threaded
  | vectorizedHook
  deriving DecidableEq, Repr

/-- The classes of `implied_volatility/exceptions.py`. -/
inductive ImpliedVolatilityErrorKind where
  | base
  | validation
  | convergence
  | unsupportedContract
  | invalidMarketPrice
  deriving DecidableEq, Repr

/-- An error of the module itself, or of what it calls. -/
inductive SolveError where
  | own (kind : ImpliedVolatilityErrorKind) (message : String)
  | other (error : Exc)
  deriving DecidableEq, Repr

structure ImpliedVolatilityRequest (K : Type) where
  marketPrice : K
  pricingRequest : ContractRequest K
  modelName : Option PricingModelName := none
  marketPriceSource : MarketPriceSource := .mark
  quotePolicy : QuotePolicy := .strict
  bid : Option K := none
  ask : Option K := none
  last : Option K := none
  markPrice : Option K := none
  quoteIsStale : Bool := false

/-- A configuration with what Newton's method reads. -/
structure NewtonConfig (K : Type) [Field K] extends SolverConfig K where
  newtonMaxIterations : Option Int := none
  initialGuess : K := 0.2
  finiteDifferenceBump : K := 1e-4
  minVega : K := 1e-10
  maxStalledIterations : Int := 4

/-- A configuration with what the engine and its checks read. -/
structure EngineConfig (K : Type) [Field K] extends NewtonConfig K where
  fallbackSequence : List SolverMethod := [.newtonRaphson, .bisection, .brent]
  useBrentInterfaceOnFailure : Bool := true
  raiseOnFailure : Bool := false
  crossedMarketPolicy : QuoteIssuePolicy := .reject
  zeroBidPolicy : QuoteIssuePolicy := .warn
  staleQuotePolicy : QuoteIssuePolicy := .warn
  missingAskPolicy : QuoteIssuePolicy := .reject
  wideSpreadPolicy : QuoteIssuePolicy := .warn
  outOfBoundsPricePolicy : QuoteIssuePolicy := .reject
  maxRelativeSpread : K := 0.2
  batchParallelism : Int := 1
  batchParallelismMode : BatchParallelismMode := .serial

structure ValidationDiagnostics (K : Type) where
  marketPrice : K
  intrinsicLowerBound : K
  theoreticalUpperBound : K

def FailureReason.value : FailureReason → String
  | .none => "none"
  | .belowIntrinsic => "below_intrinsic"
  | .aboveTheoreticalBound => "above_theoretical_bound"
  | .expiredOption => "expired_option"
  | .missingContractMetadata => "missing_contract_metadata"
  | .invalidInput => "invalid_input"
  | .invalidDividendData => "invalid_dividend_data"
  | .unsupportedPricingModel => "unsupported_pricing_model"
  | .noBracketedSolution => "no_bracketed_solution"
  | .lowVega => "low_vega"
  | .outOfBoundsUpdate => "out_of_bounds_update"
  | .stalled => "stalled"
  | .numericalInstability => "numerical_instability"

/-- `raise ImpliedVolatilityValidationError(message)`. -/
def invalid {α : Type} (message : String) : Except SolveError α :=
  .error (.own .validation message)

/-- `if bad: raise ImpliedVolatilityValidationError(message)`. -/
def rejectIf (bad : Prop) [Decidable bad] (message : String) : Except SolveError Unit :=
  if bad then invalid message else .ok ()

theorem rejectIf_bind {α : Type} {bad : Prop} [Decidable bad] {message : String} (h : ¬ bad)
    (f : Unit → Except SolveError α) : (rejectIf bad message >>= f) = f () := by
  rw [rejectIf, if_neg h]
  rfl

variable {K : Type} [Field K] [LinearOrder K]

/-! ### The price -/

namespace ImpliedVolatilityRequest

variable (request : ImpliedVolatilityRequest K)

/-- The quote of the source, or the market price. -/
def sourcePrice : K :=
  (match request.marketPriceSource with
    | .bid => request.bid
    | .ask => request.ask
    | .last => request.last
    | .mark => request.markPrice
    | .mid => match request.bid, request.ask with
      | some bid, some ask => some (0.5 * (bid + ask))
      | _, _ => none).getD request.marketPrice

end ImpliedVolatilityRequest

/-- The checks of a quote with both sides. -/
def checkQuote (request : ImpliedVolatilityRequest K) (config : EngineConfig K)
    (bid ask selected : K) : Except SolveError (K × List String) := do
  let crossed : Prop := ask < bid
  rejectIf (crossed ∧ (request.quotePolicy = .strict ∨ config.crossedMarketPolicy = .reject))
    "crossed market is not allowed under strict policy"
  let selected := if crossed ∧ config.crossedMarketPolicy = .clip then
      min (max selected (min bid ask)) (max bid ask)
    else selected
  let wide : Prop :=
    max 1e-12 (config.maxRelativeSpread * max (max ask bid) 1e-12) < ask - bid
  rejectIf (wide ∧ config.wideSpreadPolicy = .reject) "wide bid/ask spread rejected by policy"
  rejectIf (bid = 0 ∧ config.zeroBidPolicy = .reject) "zero bid rejected by policy"
  return (selected,
    (if crossed then ["crossed market detected"] else []) ++
    (if wide then ["wide bid/ask spread"] else []) ++
    if bid = 0 then ["zero bid quote"] else [])

def selectMarketPrice (request : ImpliedVolatilityRequest K) (config : EngineConfig K) :
    Except SolveError (K × List String) := do
  let (selected, warnings) ← match request.bid, request.ask with
    | some bid, some ask => checkQuote request config bid ask request.sourcePrice
    | _, _ => pure (request.sourcePrice, [])
  let missing := request.ask.isNone && request.marketPriceSource == .ask
  rejectIf (missing ∧ config.missingAskPolicy = .reject) "missing ask quote for ask source"
  rejectIf (request.quoteIsStale = true ∧ config.staleQuotePolicy = .reject)
    "stale quote rejected by policy"
  return (selected, warnings ++
    (if missing then ["missing ask quote"] else []) ++
    if request.quoteIsStale then ["stale quote flag enabled"] else [])

/-! ### The bounds -/

/-- `_validate_model_contract_compatibility`. -/
def validateModelContractCompatibility (request : ContractRequest K) (model : PricingModelName) :
    Except SolveError Unit :=
  let unsupported : Bool := match model with
    | .blackScholes =>
      request.exerciseStyle != .european || request.underlyingType == .futures
    | .black76 => request.exerciseStyle != .european || request.underlyingType != .futures
    | .coxRossRubinstein | .binomialTree =>
      request.underlyingType != .equity && request.underlyingType != .etf
    | .baroneAdesiWhaley | .bjerksundStensland => false
  rejectIf unsupported FailureReason.unsupportedPricingModel.value

/-- `_theoretical_upper_bound`. -/
def theoreticalUpperBound (math : PricingMath K) (request : ContractRequest K)
    (model : PricingModelName) (t : K) : K :=
  let discountedStrike := request.strike * discountFactor math request.riskFreeRate t
  if model = .black76 then
    let futuresLevel := request.futuresPrice.getD
      (request.spot * math.exp ((request.riskFreeRate - request.dividendYield) * t))
    match request.optionType with
    | .call => discountFactor math request.riskFreeRate t * futuresLevel * request.multiplier
    | .put => discountedStrike * request.multiplier
  else
    match request.exerciseStyle, request.optionType with
    | .american, .call => request.spot * request.multiplier
    | .american, .put => request.strike * request.multiplier
    | .european, .call =>
      request.spot * discountFactor math request.dividendYield t * request.multiplier
    | .european, .put => discountedStrike * request.multiplier

/-- The price within its bounds. -/
def boundMarketPrice (policy : QuoteIssuePolicy) (price intrinsic upper : K) :
    Except SolveError K := do
  rejectIf (price < intrinsic ∧ policy ≠ .clip) FailureReason.belowIntrinsic.value
  let bounded := if price < intrinsic then intrinsic else price
  rejectIf (upper < bounded ∧ policy ≠ .clip) FailureReason.aboveTheoreticalBound.value
  let bounded := if upper < bounded then upper else bounded
  rejectIf (bounded < intrinsic) FailureReason.belowIntrinsic.value
  rejectIf (upper < bounded) FailureReason.aboveTheoreticalBound.value
  return bounded

def validateConfig (config : EngineConfig K) : Except SolveError Unit := do
  rejectIf (config.volLowerBound ≤ 0) "vol_lower_bound must be positive"
  rejectIf (config.volUpperBound ≤ config.volLowerBound)
    "vol_upper_bound must be greater than vol_lower_bound"
  rejectIf (config.priceTolerance ≤ 0) "price_tolerance must be positive"
  rejectIf (config.volatilityTolerance ≤ 0) "volatility_tolerance must be positive"
  rejectIf (config.batchParallelism ≤ 0) "batch_parallelism must be positive"
  rejectIf (config.maxRelativeSpread ≤ 0) "max_relative_spread must be positive"

def validateDividend (valuationDate : OrdinalDate) (dividend : DiscreteDividend K) :
    Except SolveError Unit := do
  rejectIf (dividend.amount ≤ 0) FailureReason.invalidDividendData.value
  rejectIf (dividend.exDividendDate < valuationDate) FailureReason.invalidDividendData.value

def validateTerms (request : ContractRequest K) (t : K) : Except SolveError Unit := do
  rejectIf (t < 0) FailureReason.invalidInput.value
  rejectIf (t = 0) FailureReason.expiredOption.value
  rejectIf (request.spot ≤ 0 ∨ request.strike ≤ 0) FailureReason.invalidInput.value
  forM request.discreteDividends (validateDividend request.valuationDate)
  rejectIf (request.multiplier ≤ 0) FailureReason.invalidInput.value

def validateRequest (math : PricingMath K) (request : ImpliedVolatilityRequest K)
    (config : EngineConfig K) (model : PricingModelName) :
    Except SolveError (ValidationDiagnostics K) := do
  let contract := request.pricingRequest
  validateConfig config
  validateModelContractCompatibility contract model
  let t : K := yearFraction contract.valuationDate contract.expiry
  validateTerms contract t
  let (marketPrice, _) ← selectMarketPrice request config
  rejectIf (marketPrice ≤ 0) "market price must be positive"
  let intrinsic := intrinsicValue contract.spot contract.strike contract.optionType *
    contract.multiplier
  let upper := theoreticalUpperBound math contract model t
  return { marketPrice :=
             ← boundMarketPrice config.outOfBoundsPricePolicy marketPrice intrinsic upper
           intrinsicLowerBound := intrinsic
           theoreticalUpperBound := upper }

/-! ### What passes the checks -/

/-- What is asked of a configuration. -/
structure EngineConfig.Valid (config : EngineConfig K) : Prop where
  volLowerBound : 0 < config.volLowerBound
  bounds : config.volLowerBound < config.volUpperBound
  priceTolerance : 0 < config.priceTolerance
  volatilityTolerance : 0 < config.volatilityTolerance
  batchParallelism : 0 < config.batchParallelism
  maxRelativeSpread : 0 < config.maxRelativeSpread

/-- What is asked of the terms of a contract. -/
structure ContractRequest.Valid (request : ContractRequest K) : Prop where
  time : (0 : K) < yearFraction request.valuationDate request.expiry
  spot : 0 < request.spot
  strike : 0 < request.strike
  dividends : ∀ dividend ∈ request.discreteDividends,
    0 < dividend.amount ∧ request.valuationDate ≤ dividend.exDividendDate
  multiplier : 0 < request.multiplier

theorem validateConfig_eq_ok {config : EngineConfig K} (h : config.Valid) :
    validateConfig config = .ok () := by
  unfold validateConfig
  rw [rejectIf_bind (not_le.mpr h.volLowerBound), rejectIf_bind (not_le.mpr h.bounds),
    rejectIf_bind (not_le.mpr h.priceTolerance), rejectIf_bind (not_le.mpr h.volatilityTolerance),
    rejectIf_bind (not_le.mpr h.batchParallelism)]
  exact if_neg (not_le.mpr h.maxRelativeSpread)

theorem validateTerms_eq_ok {request : ContractRequest K} (h : request.Valid) :
    validateTerms request (yearFraction request.valuationDate request.expiry) = .ok () := by
  have hdividends : ∀ dividends : List (DiscreteDividend K), (∀ dividend ∈ dividends,
      0 < dividend.amount ∧ request.valuationDate ≤ dividend.exDividendDate) →
      forM dividends (validateDividend request.valuationDate) = .ok () := by
    intro dividends hall
    induction dividends with
    | nil => rfl
    | cons dividend rest ih =>
        have hfirst := hall dividend List.mem_cons_self
        have haccepted : validateDividend request.valuationDate dividend = .ok () := by
          rw [validateDividend, rejectIf_bind (not_le.mpr hfirst.1)]
          exact if_neg (OrdinalDate.lt_iff.not.mpr (not_lt.mpr (OrdinalDate.le_iff.mp hfirst.2)))
        rw [List.forM_cons, haccepted]
        exact ih fun other hother => hall other (List.mem_cons_of_mem _ hother)
  unfold validateTerms
  rw [rejectIf_bind (not_lt.mpr h.time.le), rejectIf_bind h.time.ne',
    rejectIf_bind (not_or.mpr ⟨not_le.mpr h.spot, not_le.mpr h.strike⟩),
    hdividends _ h.dividends]
  exact if_neg (not_le.mpr h.multiplier)

omit [Field K] in
/-- Without clipping a price at or above its lower bound is accepted as it is, or is above the
upper one. -/
theorem boundMarketPrice_eq {policy : QuoteIssuePolicy} (hpolicy : policy ≠ .clip)
    {price intrinsic upper : K} (h : intrinsic ≤ price) :
    boundMarketPrice policy price intrinsic upper =
      if price ≤ upper then .ok price else invalid FailureReason.aboveTheoreticalBound.value := by
  have hlower : ¬ (price < intrinsic ∧ policy ≠ .clip) := fun hlow => not_lt.mpr h hlow.1
  unfold boundMarketPrice
  rw [rejectIf_bind hlower]
  simp only [if_neg (not_lt.mpr h)]
  by_cases hupper : price ≤ upper
  · have haccepted : ¬ (upper < price ∧ policy ≠ .clip) := fun hhigh => not_lt.mpr hupper hhigh.1
    rw [rejectIf_bind haccepted]
    simp only [if_neg (not_lt.mpr hupper), if_pos hupper]
    rw [rejectIf_bind (not_lt.mpr h), rejectIf_bind (not_lt.mpr hupper)]
    rfl
  · rw [if_neg hupper, rejectIf, if_pos ⟨not_le.mp hupper, hpolicy⟩]
    rfl

end OptionResearch
