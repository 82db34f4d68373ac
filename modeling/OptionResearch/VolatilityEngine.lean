import OptionResearch.NewtonRaphson

/-!
# The implied-volatility engine

`ImpliedVolatilityEngine` of `implied_volatility/engine.py`: the loop over the fallback methods, a
single solve, and a batch of them. The prices of the models, their capabilities, the diagnostics of
tree models and an injected Brent solver are given.
-/

namespace OptionResearch

variable {K : Type}

structure ConvergenceDiagnostics (K : Type) where
  methodAttemptOrder : List SolverMethod
  attemptedMethods : List SolverMethod
  methodFailureReasons : List FailureReason
  bracketLowerPriceError : Option K := none
  bracketUpperPriceError : Option K := none
  stableBracketFound : Bool := false

/-- What is found out about the resolution of a tree at a volatility. -/
structure TreeDiagnostics where
  metadata : Payload
  warnings : List String

/-- A result with what the engine adds to that of a solver. -/
structure EngineResult (K : Type) extends ImpliedVolatilityResult K where
  pricingModelUsed : Option PricingModelName
  convergenceDiagnostics : Option (ConvergenceDiagnostics K)
  priceSource : MarketPriceSource
  capabilities : Payload
  validation : Option (ValidationDiagnostics K) := none
  treeDiagnostics : Option TreeDiagnostics := none

/-- An injected solver, for an objective between two bounds: its root, its iterations, whether it
converged, and its residual. -/
abbrev BrentSolver (K : Type) := (K → Option K) → K → K → K → Int → Except Exc (K × Int × Bool × K)

/-- An engine. A price is none where it is not finite; a router's refusal is its message. -/
structure ImpliedVolatilityEngine (K : Type) where
  route : ContractRequest K → Except String PricingModelName
  price : ContractRequest K → PricingModelName → Except Exc (Option K)
  capabilities : PricingModelName → Payload
  treeDiagnostics : ContractRequest K → PricingModelName → K → Except Exc TreeDiagnostics
  brentSolver : Option (BrentSolver K) := none
  math : PricingMath K

/-- `_reason_from_message`, for messages of ASCII characters. -/
def reasonFromMessage (message : String) : FailureReason :=
  let stripped := ((message.toList.dropWhile Char.isWhitespace).reverse.dropWhile
    Char.isWhitespace).reverse
  let text := String.ofList (stripped.map Char.toLower)
  ([.belowIntrinsic, .aboveTheoreticalBound, .expiredOption, .missingContractMetadata,
    .invalidInput, .invalidDividendData, .unsupportedPricingModel,
    .noBracketedSolution].find? fun reason : FailureReason => reason.value = text).getD
      .invalidInput

/-- The outcome that goes with a reason for not solving at all. -/
def outcomeOf (reason : FailureReason) : SolverOutcome :=
  if reason = .belowIntrinsic ∨ reason = .aboveTheoreticalBound then .invalidMarketPrice
  else .unsupportedContract

namespace ImpliedVolatilityEngine

variable [Field K]

/-- `_failure_result`. -/
def failureResult (engine : ImpliedVolatilityEngine K) (config : EngineConfig K)
    (request : ImpliedVolatilityRequest K) (modelName : Option PricingModelName)
    (reason : FailureReason) (message : String) (outcome : SolverOutcome)
    (warnings : List String) (diagnostics : Option (ConvergenceDiagnostics K)) :
    EngineResult K where
  impliedVolatility := none
  method := .none
  iterations := config.maxIterations
  converged := false
  residual := ⊤
  finalPricingError := none
  outcome
  failureReason := reason
  lowerBound := config.volLowerBound
  upperBound := config.volUpperBound
  calculationMetadata := []
  warnings := warnings ++ [message]
  pricingModelUsed := modelName
  convergenceDiagnostics := diagnostics
  priceSource := request.marketPriceSource
  capabilities := match modelName with
    | some modelName => engine.capabilities modelName
    | none => []

variable [LinearOrder K]

/-! ### The fallback loop -/

/-- `_brent_interface`. -/
def brentInterface (brentSolver : Option (BrentSolver K)) (objective : K → Option K)
    (config : EngineConfig K) : Except Exc (ImpliedVolatilityResult K) := do
  let hybrid := SolverRun.result <$>
    (Effect.exec (solveBrentHybrid objective config.toSolverConfig) []).1
  match brentSolver with
  | none => hybrid
  | some solve =>
    let (root, iterations, converged, residual) ← solve objective config.volLowerBound
      config.volUpperBound config.priceTolerance
      (config.brentMaxIterations.getD config.maxIterations)
    if converged then
      return .found .brent "brent_interface" iterations root residual .success
        config.volLowerBound config.volUpperBound
    else if config.useBrentInterfaceOnFailure then hybrid
    else
      return .failed .brent "brent_interface" iterations residual (some residual) .stalled
        config.volLowerBound config.volUpperBound "brent solver did not converge"

/-- The method's result, and none where there is nothing to attempt. -/
def attempt (brentSolver : Option (BrentSolver K)) (objective : K → Option K)
    (config : EngineConfig K) : SolverMethod → Except Exc (Option (ImpliedVolatilityResult K))
  | .newtonRaphson =>
    some <$> (Effect.exec (solveNewtonRaphson objective config.toNewtonConfig) []).1
  | .bisection =>
    (fun run => some run.result) <$>
      (Effect.exec (solveBisection objective config.toSolverConfig) []).1
  | .brent => some <$> brentInterface brentSolver objective config
  | .none => .ok none

/-- What the loop has written down. -/
structure FallbackTrace where
  attemptedMethods : List SolverMethod := []
  failureReasons : List FailureReason := []
  solverWarnings : List String := []
  lastFailureReason : FailureReason := .stalled

/-- The loop over the methods, up to the first result that is converged. -/
def fallbackLoop (brentSolver : Option (BrentSolver K)) (objective : K → Option K)
    (config : EngineConfig K) :
    List SolverMethod → FallbackTrace →
      Except Exc (Option (ImpliedVolatilityResult K) × FallbackTrace)
  | [], trace => .ok (none, trace)
  | method :: rest, trace => do
    let trace := { trace with attemptedMethods := trace.attemptedMethods ++ [method] }
    match ← attempt brentSolver objective config method with
    | none => fallbackLoop brentSolver objective config rest trace
    | some attempted =>
      if attempted.converged then return (some attempted, trace)
      else
        fallbackLoop brentSolver objective config rest
          { trace with
            failureReasons := trace.failureReasons ++ [attempted.failureReason]
            solverWarnings := trace.solverWarnings ++ attempted.warnings
            lastFailureReason := attempted.failureReason }

/-! ### A single solve -/

variable (engine : ImpliedVolatilityEngine K) (config : EngineConfig K)
  (request : ImpliedVolatilityRequest K)

/-- The price of the model at a volatility less the target, and none where it is not finite. -/
def objective (model : PricingModelName) (targetPrice volatility : K) : Except Exc (Option K) := do
  let price ← engine.price { request.pricingRequest with volatility } model
  return price.map (· - targetPrice)

/-- What the engine makes of a converged result. -/
def convergedResult (model : PricingModelName) (diagnostics : ValidationDiagnostics K)
    (fLow fHigh : K) (attempted : ImpliedVolatilityResult K) (trace : FallbackTrace) :
    Except Exc (EngineResult K) := do
  let treeDiagnostics ← match model, attempted.impliedVolatility with
    | .coxRossRubinstein, some volatility | .binomialTree, some volatility =>
      some <$> engine.treeDiagnostics request.pricingRequest model volatility
    | _, _ => pure none
  return { attempted with
    converged := true
    outcome :=
      if attempted.residual.map (|·|) ≤ config.priceTolerance then .success else .approximate
    failureReason := .none
    lowerBound := config.volLowerBound
    upperBound := config.volUpperBound
    warnings := trace.solverWarnings ++ (treeDiagnostics.elim [] TreeDiagnostics.warnings) ++
      attempted.warnings
    pricingModelUsed := some model
    convergenceDiagnostics := some
      { methodAttemptOrder := config.fallbackSequence
        attemptedMethods := trace.attemptedMethods
        methodFailureReasons := trace.failureReasons
        bracketLowerPriceError := some fLow
        bracketUpperPriceError := some fHigh
        stableBracketFound := decide (fLow * fHigh ≤ 0) }
    priceSource := request.marketPriceSource
    capabilities := engine.capabilities model
    validation := some diagnostics
    treeDiagnostics }

/-- The part of a solve after the checks. -/
def solveBracketed (model : PricingModelName) (diagnostics : ValidationDiagnostics K)
    (quoteWarnings : List String) : Except SolveError (EngineResult K) :=
  let objective := engine.objective request model diagnostics.marketPrice
  let failure := engine.failureResult config request (some model)
  match objective config.volLowerBound, objective config.volUpperBound with
  | .ok (some fLow), .ok (some fHigh) =>
    if 0 < fLow * fHigh then
      .ok (failure .noBracketedSolution "no bracketed root within configured volatility bounds"
        .nonConvergence quoteWarnings (some
          { methodAttemptOrder := config.fallbackSequence
            attemptedMethods := []
            methodFailureReasons := [.noBracketedSolution]
            bracketLowerPriceError := some fLow
            bracketUpperPriceError := some fHigh }))
    else
      let finite := fun volatility => match objective volatility with
        | .ok value => value
        | .error _ => none
      match fallbackLoop engine.brentSolver finite config config.fallbackSequence
          { solverWarnings := quoteWarnings } with
      | .error error => .error (.other error)
      | .ok (some attempted, trace) =>
        match engine.convergedResult config request model diagnostics fLow fHigh attempted
          trace with
        | .ok result => .ok result
        | .error error => .error (.other error)
      | .ok (none, trace) =>
        let message := "implied-volatility solver did not converge"
        if config.raiseOnFailure then .error (.own .convergence message)
        else
          .ok (failure trace.lastFailureReason message .nonConvergence trace.solverWarnings (some
            { methodAttemptOrder := config.fallbackSequence
              attemptedMethods := trace.attemptedMethods
              methodFailureReasons := trace.failureReasons
              bracketLowerPriceError := some fLow
              bracketUpperPriceError := some fHigh
              stableBracketFound := decide (fLow * fHigh ≤ 0) }))
  | .ok _, .ok _ =>
    .ok (failure .numericalInstability "objective function produced non-finite values"
      .nonConvergence quoteWarnings none)
  | _, _ =>
    .ok (failure .numericalInstability "objective function failed inside configured bounds"
      .nonConvergence quoteWarnings none)

def solve : Except SolveError (EngineResult K) :=
  match selectMarketPrice request config with
  | .error (.own _ message) =>
    let reason := reasonFromMessage message
    .ok (engine.failureResult config request request.modelName reason message (outcomeOf reason) []
      none)
  | .error error => .error error
  | .ok (_, quoteWarnings) =>
    match request.modelName.elim (engine.route request.pricingRequest) .ok with
    | .error message =>
      .ok (engine.failureResult config request request.modelName .unsupportedPricingModel message
        .unsupportedContract [] none)
    | .ok model =>
      match validateRequest engine.math request config model with
      | .error (.own kind message) =>
        let reason := reasonFromMessage message
        if config.raiseOnFailure then
          if reason = .unsupportedPricingModel then .error (.own .unsupportedContract message)
          else if outcomeOf reason = .invalidMarketPrice then
            .error (.own .invalidMarketPrice message)
          else .error (.own kind message)
        else
          .ok (engine.failureResult config request (some model) reason message (outcomeOf reason)
            quoteWarnings none)
      | .error error => .error error
      | .ok diagnostics => engine.solveBracketed config request model diagnostics quoteWarnings

/-! ### A batch -/

/-- `_solve_with_batch_error_capture`, for any way to solve. -/
def solveWithBatchErrorCapture
    (solve : ImpliedVolatilityRequest K → Except SolveError (EngineResult K)) :
    Except SolveError (EngineResult K) :=
  match solve request with
  | .error (.own .validation message) | .error (.own .invalidMarketPrice message)
  | .error (.own .unsupportedContract message) =>
    let reason := reasonFromMessage message
    .ok (engine.failureResult config request request.modelName reason message (outcomeOf reason) []
      none)
  | outcome => outcome

/-- The metadata of a batch. -/
structure BatchMetadata where
  batchSize : ℕ
  deterministicOrdering : Bool := false
  parallelismHook : Option BatchParallelismMode := none
  configuredParallelism : Option Int := none

structure ImpliedVolatilityBatchResult (K : Type) where
  results : List (EngineResult K)
  calculationMetadata : BatchMetadata

/-- `ordered_results[idx] = outcome` for one outcome after the other. -/
def assignResults : ℕ → List (Except SolveError (EngineResult K)) → List (EngineResult K) →
    Except SolveError (List (EngineResult K))
  | _, [], orderedResults => .ok orderedResults
  | idx, outcome :: rest, orderedResults => do
    assignResults (idx + 1) rest (orderedResults.set idx (← outcome))

/-- The loop that solves one request after the other. -/
def solveSerially (solve : ImpliedVolatilityRequest K → Except SolveError (EngineResult K)) :
    ℕ → List (ImpliedVolatilityRequest K) → List (EngineResult K) →
      Except SolveError (List (EngineResult K))
  | _, [], orderedResults => .ok orderedResults
  | idx, request :: rest, orderedResults => do
    let result ← engine.solveWithBatchErrorCapture config request solve
    solveSerially solve (idx + 1) rest (orderedResults.set idx result)

/-- `solve_batch`, for any way to solve a single request. The workers of a pool share nothing, so
each future holds what the request gives alone. -/
def solveBatch (solve : ImpliedVolatilityRequest K → Except SolveError (EngineResult K))
    (requests : List (ImpliedVolatilityRequest K)) :
    Except SolveError (ImpliedVolatilityBatchResult K) := do
  if requests.isEmpty then return { results := [], calculationMetadata := { batchSize := 0 } }
  let orderedResults := requests.map fun request =>
    engine.failureResult config request request.modelName .invalidInput "uninitialized"
      .nonConvergence [] none
  let results ←
    if config.batchParallelismMode = .threaded ∧ 1 < config.batchParallelism ∧
        1 < requests.length then
      let futures := requests.map fun request =>
        engine.solveWithBatchErrorCapture config request solve
      assignResults 0 futures orderedResults
    else engine.solveSerially config solve 0 requests orderedResults
  return { results
           calculationMetadata :=
             { batchSize := requests.length
               deterministicOrdering := true
               parallelismHook := some config.batchParallelismMode
               configuredParallelism := some config.batchParallelism } }

end ImpliedVolatilityEngine
end OptionResearch
