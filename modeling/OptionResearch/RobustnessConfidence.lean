import Mathlib.Algebra.Order.Field.Basic
import Mathlib.Algebra.Order.Ring.Unbundled.Rat
import Mathlib.Data.List.Basic

/-!
# Robustness confidence

`RobustnessEngine` of `research/institutional.py` averages the metrics that are present, the
probability of overfitting and the complexity penalty among them, into a confidence score.
-/

namespace OptionResearch

/-- The arguments of `RobustnessEngine.evaluate`. -/
structure RobustnessInputs (K : Type) where
  parameterScores : List K := []
  cpcvSharpes : List K := []
  walkForwardScores : List K := []
  regimeScores : List K := []
  earningsScores : List K := []
  liquidityScores : List K := []
  stressSurvival : List Bool := []
  complexity : Option K := none

structure RobustnessReport (K : Type) where
  metrics : List (String × Option K)
  missingInputs : List String
  sampleSizes : List (String × ℕ)

/-- `math.sqrt` and `math.log`, of numbers that are not negative and that are positive. -/
structure RobustnessMath (K : Type) where
  sqrt : K → K
  log : K → K

namespace RobustnessEngine

variable {K : Type} [Field K] [LinearOrder K] (math : RobustnessMath K)

/-- `_mean`. -/
def mean (values : List K) : K := if values = [] then 0 else values.sum / values.length

/-- `_ratio`. -/
def ratio (numerator denominator : K) : K := if denominator = 0 then 0 else numerator / denominator

/-- `_stability`. -/
def stability (values : List K) : Option K :=
  if values = [] then none else some (ratio (mean values) (mean (values.map (|·|))))

/-- The mean of scores that are given. -/
def summary (values : List K) : Option K := if values = [] then none else some (mean values)

/-- The probability of backtest overfitting. -/
def pbo (cpcvSharpes : List K) : Option K :=
  if cpcvSharpes = [] then none
  else some (ratio (cpcvSharpes.countP fun score => score ≤ 0) cpcvSharpes.length)

/-- What the number of trials takes off a Sharpe ratio. -/
def deflation (trials : ℕ) : K :=
  math.sqrt (2.0 * math.log (max 1 trials : ℕ)) / math.sqrt (max 1 trials : ℕ)

def deflatedSharpe (cpcvSharpes : List K) : Option K :=
  if cpcvSharpes = [] then none else some (mean cpcvSharpes - deflation math cpcvSharpes.length)

def survivability (stressSurvival : List Bool) : Option K :=
  if stressSurvival = [] then none
  else some (ratio (stressSurvival.countP id) stressSurvival.length)

def overfittingScore (pbo complexity : Option K) : Option K :=
  let present := [pbo, complexity].filterMap id
  if present = [] then none else some (mean present)

variable (inputs : RobustnessInputs K)

/-- The metrics, in the order in which they are listed, before the confidence score. -/
def metrics : List (String × Option K) :=
  [("parameter_neighbourhood_stability", stability inputs.parameterScores),
    ("cpcv_summary", summary inputs.cpcvSharpes),
    ("pbo", pbo inputs.cpcvSharpes),
    ("deflated_sharpe", deflatedSharpe math inputs.cpcvSharpes),
    ("walk_forward_summary", summary inputs.walkForwardScores),
    ("temporal_stability", stability inputs.walkForwardScores),
    ("volatility_regime_stability", stability inputs.regimeScores),
    ("earnings_robustness", summary inputs.earningsScores),
    ("liquidity_robustness", summary inputs.liquidityScores),
    ("stress_survivability", survivability inputs.stressSurvival),
    ("complexity_penalty", inputs.complexity),
    ("overfitting_score", overfittingScore (pbo inputs.cpcvSharpes) inputs.complexity)]

/-- The metrics that are present; exact ones are finite. -/
def present : List K := (metrics math inputs).filterMap Prod.snd

def confidenceScore : Option K :=
  if present math inputs = [] then none else some (mean (present math inputs))

/-- `evaluate`. -/
def evaluate : RobustnessReport K :=
  let metrics := metrics math inputs ++ [("confidence_score", confidenceScore math inputs)]
  { metrics
    missingInputs := (metrics.filter fun entry => entry.2.isNone).map Prod.fst
    sampleSizes := [("parameter", inputs.parameterScores.length),
      ("cpcv", inputs.cpcvSharpes.length), ("walk_forward", inputs.walkForwardScores.length)] }

end RobustnessEngine

/-- `report.metrics[name]`. -/
def RobustnessReport.metric {K : Type} (report : RobustnessReport K) (name : String) : Option K :=
  (report.metrics.lookup name).join

namespace RobustnessEngine

variable {K : Type} [Field K] [LinearOrder K] (math : RobustnessMath K)

theorem metric_confidence (inputs : RobustnessInputs K) :
    (evaluate math inputs).metric "confidence_score" = confidenceScore math inputs := rfl

end RobustnessEngine
end OptionResearch
