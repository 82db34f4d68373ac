import OptionResearch.BinomialTree
import OptionResearch.InsertionDict
import OptionResearch.WalkForward

/-!
# Model simulation

`ModelProbabilityEngine` of `research/probability.py` walks a spot price over the monitored days and
values a strategy at each. Every monitored day advances the price by one day of time, however many
days after the last one it is.
-/

namespace OptionResearch

/-- `math.exp`, `math.sqrt` of numbers that are not negative, and `NormalDist().inv_cdf`. -/
structure SimulationMath (K : Type) where
  exp : K → K
  sqrt : K → K
  invCdf : K → Except Exc K

structure ModelSimulationConfig (K : Type) where
  horizonDays : Int := 30
  pathCount : Int := 500
  seed : Int := 7
  drift : K
  baseVolatility : K
  riskFreeRate : K
  dividendYield : K
  initialSpot : K
  targetProfit : K
  lossThreshold : K
  monitoringDays : List Int := []
  volatilityTermStructure : Option (InsertionDict Int K) := none

structure StrategyLeg (K : Type) where
  expiration : OrdinalDate
  strike : K
  optionType : OptionType
  quantity : K
  metadata : Payload := []

structure ModelPathOutcome (K : Type) where
  pathId : ℕ
  finalPnl : K
  touchedTarget : Bool
  breachedLoss : Bool
  expiredProfitable : Bool
  touchedProfitable : Bool
  selectedModels : List String

structure ProbabilityResult (K : Type) where
  probabilityType : String
  probability : K
  sampleSize : ℕ
  inclusionCount : ℕ
  exclusionCount : ℕ
  confidenceInterval : K × K
  successes : ℕ

structure ModelProbabilityReport (K : Type) where
  probabilityOfProfit : ProbabilityResult K
  targetProfitProbability : ProbabilityResult K
  lossBreachProbability : ProbabilityResult K
  touchProbability : ProbabilityResult K
  expirationProfitabilityProbability : ProbabilityResult K
  outcomes : List (ModelPathOutcome K)
  seed : Int
  pathCount : Int
  horizonDays : Int
  monitoringDays : List Int

/-- A monitored day of a path, with its spot price. -/
structure PathPoint (K : Type) where
  day : Int
  spot : K

namespace ModelSimulationConfig

variable {K : Type} (config : ModelSimulationConfig K)

/-- `config.monitoring_days or tuple(range(1, config.horizon_days + 1))`. -/
def schedule : List Int :=
  if config.monitoringDays = [] then
    (List.range config.horizonDays.toNat).map fun k : ℕ => (k : Int) + 1
  else config.monitoringDays

/-- `_term_vol`. -/
def termVol (day : Int) : K :=
  match config.volatilityTermStructure with
  | none => config.baseVolatility
  | some buckets =>
    match ((buckets.entries.map Prod.fst).filter (· ≤ day)).max? with
    | none => config.baseVolatility
    | some key => (buckets.get? key).getD config.baseVolatility

end ModelSimulationConfig

namespace ModelProbabilityEngine

def modelSimulationError (message : String) : Exc := ⟨.other "ModelSimulationError", message⟩

variable {K : Type} [Field K] [LinearOrder K] (math : SimulationMath K)
  (config : ModelSimulationConfig K)

section Path

/-- The spot price a day on, with a draw of `rng.gauss(0.0, 1.0)`. -/
def advance (day : Int) (shock spot : K) : K :=
  let dt : K := 1 / 365.0
  let vol := config.termVol day
  spot * math.exp ((config.drift - 0.5 * vol ^ 2) * dt + vol * math.sqrt dt * shock)

/-- The loop over the monitored days, which draws for each day up to the horizon. -/
def walk (draws : ℕ → K) (spot : K) : List Int → List (PathPoint K)
  | [] => []
  | day :: rest =>
    if config.horizonDays < day then walk draws spot rest
    else
      let spot := advance math config day (draws 0) spot
      ⟨day, spot⟩ :: walk (fun n => draws (n + 1)) spot rest

/-- The points of a path. -/
def path (draws : ℕ → K) : List (PathPoint K) :=
  walk math config draws config.initialSpot config.schedule

end Path

-- the option value and the selected model of the request that is built for a leg
variable (priceLeg : StrategyLeg K → K → OrdinalDate → ModelSimulationConfig K →
    Except Exc (K × String))
  (confidenceLevel : K) (legs : List (StrategyLeg K)) (asOf : OrdinalDate)

/-- `_strategy_pnl`, for one leg. -/
def legPnl (spot : K) (valuationDate : OrdinalDate) (leg : StrategyLeg K) :
    Except Exc (K × String) :=
  if leg.expiration < valuationDate then
    .ok (intrinsicValue spot leg.strike leg.optionType * leg.quantity, "intrinsic_after_expiry")
  else do
    let (optionValue, selectedModel) ← priceLeg leg spot valuationDate config
    return (optionValue * leg.quantity, selectedModel)

/-- `_strategy_pnl`, on a day of a path. -/
def strategyPnl (point : PathPoint K) : Except Exc (K × List String) := do
  let valuationDate ← asOf.addDays point.day
  let values ← legs.mapM (legPnl config priceLeg point.spot valuationDate)
  return ((values.map Prod.fst).sum, values.map Prod.snd)

def outcomeOf (pathId : ℕ) (points : List (PathPoint K)) : Except Exc (ModelPathOutcome K) := do
  let daily ← points.mapM (strategyPnl config priceLeg legs asOf)
  let dailyPnls := daily.map Prod.fst
  match dailyPnls.getLast?, dailyPnls.max?, dailyPnls.min? with
  | some finalPnl, some highest, some lowest =>
    return {
      pathId
      finalPnl
      touchedTarget := config.targetProfit ≤ highest
      breachedLoss := lowest ≤ -config.lossThreshold
      expiredProfitable := 0 < finalPnl
      touchedProfitable := 0 < highest
      selectedModels := daily.flatMap Prod.snd }
  | _, _, _ => .error (modelSimulationError "monitoring_days produced no path points")

/-- The loop over the paths, which draw from one stream. -/
def outcomesOf (draws : ℕ → K) : List ℕ → Except Exc (List (ModelPathOutcome K))
  | [] => .ok []
  | pathId :: rest => do
    let points := path math config draws
    let outcome ← outcomeOf config priceLeg legs asOf pathId points
    return outcome :: (← outcomesOf (fun n => draws (n + points.length)) rest)

/-- `_wilson_interval`, of a sample that is not empty. -/
def wilsonInterval (successes sampleSize : ℕ) : Except Exc (K × K) := do
  if sampleSize = 0 then return (0, 0)
  let z ← math.invCdf (0.5 + confidenceLevel / 2.0)
  let size : K := sampleSize
  let pHat : K := successes / size
  let denom := 1 + z ^ 2 / size
  let centre := pHat + z ^ 2 / (2.0 * size)
  let half := z * math.sqrt (pHat * (1 - pHat) / size + z ^ 2 / (4.0 * size ^ 2))
  return (max 0 ((centre - half) / denom), min 1 ((centre + half) / denom))

/-- `build`. -/
def build (name : String) (predicate : List Bool) : Except Exc (ProbabilityResult K) := do
  let sampleSize := predicate.length
  let successes := predicate.countP id
  return {
    probabilityType := name
    probability := (successes : K) / sampleSize
    sampleSize
    inclusionCount := sampleSize
    exclusionCount := 0
    confidenceInterval := ← wilsonInterval math confidenceLevel successes sampleSize
    successes }

/-- `evaluate`; `gauss seed` are the draws of `Random(seed)`. -/
def evaluate (gauss : Int → ℕ → K) : Except Exc (ModelProbabilityReport K) := do
  if config.pathCount ≤ 0 then .error (modelSimulationError "path_count must be positive")
  if config.horizonDays ≤ 0 then .error (modelSimulationError "horizon_days must be positive")
  let outcomes ← outcomesOf math config priceLeg legs asOf (gauss config.seed)
    (List.range config.pathCount.toNat)
  let build := build math confidenceLevel
  return {
    probabilityOfProfit := ← build "model_probability_of_profit"
      (outcomes.map fun item => decide (0 < item.finalPnl))
    targetProfitProbability := ← build "model_target_profit_probability"
      (outcomes.map (·.touchedTarget))
    lossBreachProbability := ← build "model_loss_threshold_breach_probability"
      (outcomes.map (·.breachedLoss))
    touchProbability := ← build "model_touch_probability" (outcomes.map (·.touchedProfitable))
    expirationProfitabilityProbability := ← build "model_expiration_profitability_probability"
      (outcomes.map (·.expiredProfitable))
    outcomes
    seed := config.seed
    pathCount := config.pathCount
    horizonDays := config.horizonDays
    monitoringDays := config.schedule }

end ModelProbabilityEngine
end OptionResearch
