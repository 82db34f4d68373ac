import OptionResearch.InsertionDict
import OptionResearch.KeyedGroups
import OptionResearch.PriceValidation
import OptionResearch.StableSort
import Mathlib.Data.String.Basic

/-!
# The Greeks engine

`greeks/engine.py`: the analytic Greeks of Black-Scholes, one request at a time and in arrays, those
of Black-76, the numerical ones of the American models, and what the engine makes of them for
batches and portfolios. A request for Greeks has the fields of one for a price. Numbers are exact,
and `none` is the `math.nan` of a Greek that a model leaves out.
-/

namespace OptionResearch

def PricingModelName.value : PricingModelName → String
  | .blackScholes => "black_scholes"
  | .black76 => "black_76"
  | .binomialTree => "binomial_tree"
  | .coxRossRubinstein => "cox_ross_rubinstein"
  | .baroneAdesiWhaley => "barone_adesi_whaley"
  | .bjerksundStensland => "bjerksund_stensland"

inductive GreekWarningCode where
  | numericalInstability
  | degenerateInput
  | unsupportedGreek
  deriving DecidableEq, Repr

inductive GreekWarningSeverity where
  | info
  | warning
  deriving DecidableEq, Repr

structure GreekWarning where
  code : GreekWarningCode
  message : String
  severity : GreekWarningSeverity
  greek : Option String := none
  deriving DecidableEq

structure FiniteDifferenceBumps (K : Type) where
  spotBump : K
  volatilityBump : K
  rateBump : K
  dayBump : Int

/-- The `calculation_metadata` of Greeks. -/
inductive GreeksMetadata (K : Type) where
  | empty
  | degenerate (model reason : String)
  | contract (model : String) (optionType : OptionType) (exerciseStyle : ExerciseStyle)
  | firstOrder (model greeksMethod : String) (bumps : Option (FiniteDifferenceBumps K))
  | aggregate (aggregate : String)

structure GreeksResult (K : Type) where
  delta : K
  gamma : K
  theta : K
  vega : K
  rho : K
  vanna : Option K
  vomma : Option K
  charm : Option K
  color : Option K
  speed : Option K
  zomma : Option K
  ultima : Option K
  timeToExpiry : K
  supportedGreeks : List String
  unsupportedGreeks : List String
  calculationMetadata : GreeksMetadata K
  warnings : List GreekWarning

def firstOrderNames : List String := ["delta", "gamma", "theta", "vega", "rho"]

def higherOrderNames : List String :=
  ["vanna", "vomma", "charm", "color", "speed", "zomma", "ultima"]

/-- `GreeksValidationError(message)`. -/
def greeksValidationError (message : String) : Exc := ⟨.other "GreeksValidationError", message⟩

variable {K : Type} [Field K] [LinearOrder K]

namespace GreeksResult

/-- `_zero_result`. -/
def zero (timeToExpiry : K) (metadata : GreeksMetadata K) (warnings : List GreekWarning) :
    GreeksResult K where
  delta := 0
  gamma := 0
  theta := 0
  vega := 0
  rho := 0
  vanna := some 0
  vomma := some 0
  charm := some 0
  color := some 0
  speed := some 0
  zomma := some 0
  ultima := some 0
  timeToExpiry
  supportedGreeks := firstOrderNames ++ higherOrderNames
  unsupportedGreeks := []
  calculationMetadata := metadata
  warnings

/-- `_unsupported_higher_order_result`. -/
def unsupportedHigherOrder (delta gamma theta vega rho timeToExpiry : K)
    (metadata : GreeksMetadata K) (warnings : List GreekWarning) : GreeksResult K where
  delta
  gamma
  theta
  vega
  rho
  vanna := none
  vomma := none
  charm := none
  color := none
  speed := none
  zomma := none
  ultima := none
  timeToExpiry
  supportedGreeks := firstOrderNames
  unsupportedGreeks := higherOrderNames
  calculationMetadata := metadata
  warnings := warnings ++ higherOrderNames.map fun greekName =>
    { code := .unsupportedGreek
      message := s!"{greekName} is not available for this model; " ++
        "only first-order Greeks are provided"
      severity := .info
      greek := some greekName }

/-- `_scale_result`. -/
def scale (result : GreeksResult K) (scale : K) : GreeksResult K :=
  { result with
    delta := result.delta * scale
    gamma := result.gamma * scale
    theta := result.theta * scale
    vega := result.vega * scale
    rho := result.rho * scale
    vanna := result.vanna.map (· * scale)
    vomma := result.vomma.map (· * scale)
    charm := result.charm.map (· * scale)
    color := result.color.map (· * scale)
    speed := result.speed.map (· * scale)
    zomma := result.zomma.map (· * scale)
    ultima := result.ultima.map (· * scale) }

/-- `_add_results`. -/
def add (left right : GreeksResult K) : GreeksResult K where
  delta := left.delta + right.delta
  gamma := left.gamma + right.gamma
  theta := left.theta + right.theta
  vega := left.vega + right.vega
  rho := left.rho + right.rho
  vanna := Option.map₂ (· + ·) left.vanna right.vanna
  vomma := Option.map₂ (· + ·) left.vomma right.vomma
  charm := Option.map₂ (· + ·) left.charm right.charm
  color := Option.map₂ (· + ·) left.color right.color
  speed := Option.map₂ (· + ·) left.speed right.speed
  zomma := Option.map₂ (· + ·) left.zomma right.zomma
  ultima := Option.map₂ (· + ·) left.ultima right.ultima
  timeToExpiry := max left.timeToExpiry right.timeToExpiry
  supportedGreeks := StableSort.sortBy id
    (left.supportedGreeks.filter (· ∈ right.supportedGreeks)).dedup
  unsupportedGreeks := StableSort.sortBy id
    (left.unsupportedGreeks ++ right.unsupportedGreeks).dedup
  calculationMetadata := .aggregate "sum"
  warnings := left.warnings ++ right.warnings

end GreeksResult

/-! ### Black-Scholes -/

structure BlackScholesTerms (K : Type) where
  t : K
  sqrtT : K
  sigmaSqrtT : K
  d1 : K
  d2 : K
  pdfD1 : K
  cdfD1 : K
  cdfD2 : K
  dfR : K
  dfQ : K

/-- Standard normal probability density function. -/
def standardNormalPdf (math : ClosedFormMath K) (x : K) : Except Exc K := do
  divide (math.exp (-0.5 * x * x)) (← math.sqrt (2.0 * math.pi))

/-- `math.sqrt(t) if t > 0.0 else 0.0`. -/
def sqrtOrZero (math : ClosedFormMath K) (t : K) : Except Exc K :=
  if 0 < t then math.sqrt t else .ok 0

/-- The terms of `build_black_scholes_terms` at a time to expiry. -/
def blackScholesTermsAt (math : ClosedFormMath K) (request : ContractRequest K) (t : K) :
    Except Exc (BlackScholesTerms K) := do
  let sqrtT ← sqrtOrZero math t
  let sigmaSqrtT := request.volatility * sqrtT
  if t ≤ 0 ∨ request.volatility ≤ 0 then
    return { t, sqrtT, sigmaSqrtT, d1 := 0, d2 := 0, pdfD1 := 0, cdfD1 := 0.5, cdfD2 := 0.5
             dfR := discountFactor math.toPricingMath request.riskFreeRate (max t 0)
             dfQ := discountFactor math.toPricingMath request.dividendYield (max t 0) }
  else
    let logMoneyness ← math.log (← divide request.spot request.strike)
    let d1 ← divide (logMoneyness +
      (request.riskFreeRate - request.dividendYield + 0.5 * request.volatility ^ 2) * t) sigmaSqrtT
    let d2 := d1 - sigmaSqrtT
    let pdfD1 ← standardNormalPdf math d1
    return { t, sqrtT, sigmaSqrtT, d1, d2, pdfD1
             cdfD1 := math.standardNormalCdf d1
             cdfD2 := math.standardNormalCdf d2
             dfR := discountFactor math.toPricingMath request.riskFreeRate t
             dfQ := discountFactor math.toPricingMath request.dividendYield t }

namespace BlackScholesGreeksModel

def modelName : String := "black_scholes"

/-- What a request without time or volatility left has. -/
def degenerate (t : K) : GreeksResult K :=
  .zero (max t 0) (.degenerate modelName "degenerate_time_or_volatility")
    [{ code := .degenerateInput
       message := "degenerate time-to-expiry or volatility; returning zero Greeks"
       severity := .warning }]

def expiryWarnings (t : K) : List GreekWarning :=
  if t ≤ 2.0 / 365.0 then
    [{ code := .numericalInstability
       message := "near-zero time-to-expiry may produce unstable higher-order Greeks"
       severity := .warning }]
  else []

/-- The Greeks of the terms. No divisor is zero, since there is time and volatility left. -/
def greeksOf (math : ClosedFormMath K) (request : ContractRequest K)
    (terms : BlackScholesTerms K) : GreeksResult K :=
  let decay := -request.spot * terms.dfQ * terms.pdfD1 * request.volatility / (2.0 * terms.sqrtT)
  let delta := match request.optionType with
    | .call => terms.dfQ * terms.cdfD1
    | .put => terms.dfQ * (terms.cdfD1 - 1)
  let gamma := terms.dfQ * terms.pdfD1 / (request.spot * terms.sigmaSqrtT)
  let thetaYear := match request.optionType with
    | .call => decay - request.riskFreeRate * request.strike * terms.dfR * terms.cdfD2 +
        request.dividendYield * request.spot * terms.dfQ * terms.cdfD1
    | .put =>
      decay + request.riskFreeRate * request.strike * terms.dfR *
          math.standardNormalCdf (-terms.d2) -
        request.dividendYield * request.spot * terms.dfQ * math.standardNormalCdf (-terms.d1)
  let vega := request.spot * terms.dfQ * terms.pdfD1 * terms.sqrtT
  let rho := match request.optionType with
    | .call => request.strike * terms.t * terms.dfR * terms.cdfD2
    | .put => -request.strike * terms.t * terms.dfR * math.standardNormalCdf (-terms.d2)
  let vanna := -terms.dfQ * terms.pdfD1 * terms.d2 / request.volatility
  let vomma := vega * terms.d1 * terms.d2 / request.volatility
  let carry := 2.0 * (request.riskFreeRate - request.dividendYield) * terms.t -
    terms.d2 * terms.sigmaSqrtT
  let commonCharmTerm := terms.dfQ * terms.pdfD1 * carry / (2.0 * terms.t * terms.sigmaSqrtT)
  let charm := match request.optionType with
    | .call => request.dividendYield * terms.dfQ * terms.cdfD1 - commonCharmTerm
    | .put =>
      -request.dividendYield * terms.dfQ * math.standardNormalCdf (-terms.d1) - commonCharmTerm
  let color := -terms.dfQ * terms.pdfD1 / (2.0 * request.spot * terms.t * terms.sigmaSqrtT) *
    (2.0 * request.dividendYield * terms.t + 1 + carry * terms.d1 / terms.sigmaSqrtT)
  let speed := -gamma / request.spot * (terms.d1 / terms.sigmaSqrtT + 1)
  let zomma := gamma * (terms.d1 * terms.d2 - 1) / request.volatility
  let ultima := -vega * (terms.d1 * terms.d2 * (1 - terms.d1 * terms.d2) + terms.d1 ^ 2 +
    terms.d2 ^ 2) / request.volatility ^ 2
  let scale := request.multiplier
  { delta := delta * scale
    gamma := gamma * scale
    theta := thetaYear / 365.0 * scale
    vega := vega * scale
    rho := rho * scale
    vanna := some (vanna * scale)
    vomma := some (vomma * scale)
    charm := some (charm * scale)
    color := some (color * scale)
    speed := some (speed * scale)
    zomma := some (zomma * scale)
    ultima := some (ultima * scale)
    timeToExpiry := terms.t
    supportedGreeks := firstOrderNames ++ higherOrderNames
    unsupportedGreeks := []
    calculationMetadata := .contract modelName request.optionType request.exerciseStyle
    warnings := expiryWarnings terms.t }

/-- `calculate` at a time to expiry. -/
def calculateAt (math : ClosedFormMath K) (request : ContractRequest K) (t : K) :
    Except Exc (GreeksResult K) := do
  let terms ← blackScholesTermsAt math request t
  if terms.t ≤ 0 ∨ request.volatility ≤ 0 then return degenerate terms.t
  else return greeksOf math request terms

def calculate (math : ClosedFormMath K) (request : ContractRequest K) :
    Except Exc (GreeksResult K) :=
  calculateAt math request (yearFraction request.valuationDate request.expiry)

end BlackScholesGreeksModel

/-- The functions of `numpy`, which do not raise. -/
structure ArrayMath (K : Type) where
  exp : K → K
  log : K → K
  sqrt : K → K
  /-- `math.sqrt(2.0 * math.pi)`. -/
  sqrtTwoPi : K
  normCdf : K → K

namespace BlackScholesGreeksModel

/-- An entry of the array that is zero where the mask is not set. -/
def masked (mask : Prop) [Decidable mask] (value : K) : K := if mask then value else 0

/-- One entry of the arrays of `calculate_batch`; their operations work entry by entry. -/
def batchEntry (arrays : ArrayMath K) (request : ContractRequest K) : GreeksResult K :=
  let spot := request.spot
  let strike := request.strike
  let volatility := request.volatility
  let rate := request.riskFreeRate
  let dividend := request.dividendYield
  let t : K := yearFraction request.valuationDate request.expiry
  let sqrtT := arrays.sqrt (max t 0)
  let sigmaSqrtT := volatility * sqrtT
  let validMask := 0 < t ∧ 0 < volatility ∧ 0 < sigmaSqrtT
  let d1 := masked validMask ((arrays.log (spot / strike) +
    (rate - dividend + 0.5 * volatility ^ 2) * t) / sigmaSqrtT)
  let d2 := masked validMask (d1 - sigmaSqrtT)
  let pdfD1 := arrays.exp (-0.5 * d1 ^ 2) / arrays.sqrtTwoPi
  let cdfD1 := arrays.normCdf d1
  let cdfD2 := arrays.normCdf d2
  let dfQ := arrays.exp (-dividend * max t 0)
  let dfR := arrays.exp (-rate * max t 0)
  let delta := match request.optionType with
    | .call => dfQ * cdfD1
    | .put => dfQ * (cdfD1 - 1)
  let gamma := masked validMask (dfQ * pdfD1 / (spot * sigmaSqrtT))
  let decay := -spot * dfQ * pdfD1 * volatility / (2.0 * max sqrtT 1e-12)
  let theta := (match request.optionType with
    | .call => decay - rate * strike * dfR * cdfD2 + dividend * spot * dfQ * cdfD1
    | .put => decay + rate * strike * dfR * arrays.normCdf (-d2) -
        dividend * spot * dfQ * arrays.normCdf (-d1)) / 365.0
  let vega := spot * dfQ * pdfD1 * sqrtT
  let rho := match request.optionType with
    | .call => strike * t * dfR * cdfD2
    | .put => -strike * t * dfR * arrays.normCdf (-d2)
  let vanna := masked validMask (-dfQ * pdfD1 * d2 / volatility)
  let vomma := masked validMask (vega * d1 * d2 / volatility)
  let common := masked validMask (dfQ * pdfD1 *
    (2.0 * (rate - dividend) * t - d2 * sigmaSqrtT) / (2.0 * t * sigmaSqrtT))
  let charm := match request.optionType with
    | .call => dividend * dfQ * cdfD1 - common
    | .put => -dividend * dfQ * arrays.normCdf (-d1) - common
  let color := masked validMask (-dfQ * pdfD1 / (2.0 * spot * t * sigmaSqrtT) *
    (2.0 * dividend * t + 1 +
      (2.0 * (rate - dividend) * t - d2 * sigmaSqrtT) * d1 / sigmaSqrtT))
  let speed := masked validMask (-gamma / spot * (d1 / sigmaSqrtT + 1))
  let zomma := masked validMask (gamma * (d1 * d2 - 1) / volatility)
  let ultima := masked validMask
    (-vega * (d1 * d2 * (1 - d1 * d2) + d1 ^ 2 + d2 ^ 2) / volatility ^ 2)
  let scale := request.multiplier
  if ¬ validMask then degenerate t
  else
    { delta := delta * scale
      gamma := gamma * scale
      theta := theta * scale
      vega := vega * scale
      rho := rho * scale
      vanna := some (vanna * scale)
      vomma := some (vomma * scale)
      charm := some (charm * scale)
      color := some (color * scale)
      speed := some (speed * scale)
      zomma := some (zomma * scale)
      ultima := some (ultima * scale)
      timeToExpiry := t
      supportedGreeks := firstOrderNames ++ higherOrderNames
      unsupportedGreeks := []
      calculationMetadata := .contract modelName request.optionType request.exerciseStyle
      warnings := expiryWarnings t }

def calculateBatch (arrays : ArrayMath K) (requests : List (ContractRequest K)) :
    List (GreeksResult K) :=
  requests.map (batchEntry arrays)

end BlackScholesGreeksModel

/-! ### Black-76 -/

namespace Black76GreeksModel

def modelName : String := "black_76"

def black76Price (math : ClosedFormMath K) (request : ContractRequest K) (forward t : K) :
    Except Exc K := do
  let discount := math.exp (-request.riskFreeRate * t)
  let sigmaSqrtT := request.volatility * (← math.sqrt t)
  let logMoneyness ← math.log (← divide forward request.strike)
  let d1 ← divide (logMoneyness + 0.5 * request.volatility ^ 2 * t) sigmaSqrtT
  let d2 := d1 - sigmaSqrtT
  match request.optionType with
  | .call =>
    return discount * (forward * math.standardNormalCdf d1 -
      request.strike * math.standardNormalCdf d2)
  | .put =>
    return discount * (request.strike * math.standardNormalCdf (-d2) -
      forward * math.standardNormalCdf (-d1))

/-- The body of `calculate` with time and volatility left. -/
def calculateFrom (math : ClosedFormMath K) (request : ContractRequest K) (t : K) :
    Except Exc (GreeksResult K) := do
  let forward := request.futuresPrice.getD
    (request.spot * math.exp ((request.riskFreeRate - request.dividendYield) * t))
  let warnings : List GreekWarning := if request.futuresPrice.isNone then
      [{ code := .numericalInstability
         message := "futures_price missing; using forward proxy from spot for Black-76 Greeks"
         severity := .info }]
    else []
  let sigmaSqrtT := request.volatility * (← math.sqrt t)
  let logMoneyness ← math.log (← divide forward request.strike)
  let d1 ← divide (logMoneyness + 0.5 * request.volatility ^ 2 * t) sigmaSqrtT
  let discount := math.exp (-request.riskFreeRate * t)
  let pdfD1 ← divide (math.exp (-0.5 * d1 * d1)) (← math.sqrt (2.0 * math.pi))
  let delta := match request.optionType with
    | .call => discount * math.standardNormalCdf d1
    | .put => -discount * math.standardNormalCdf (-d1)
  let gamma ← divide (discount * pdfD1) (forward * request.volatility * (← math.sqrt t))
  let vega := discount * forward * pdfD1 * (← math.sqrt t)
  let value ← black76Price math request forward t
  let decay ← divide (-discount * forward * pdfD1 * request.volatility) (2.0 * (← math.sqrt t))
  let theta := (decay + request.riskFreeRate * value) / 365.0
  let rho := -t * value
  return .unsupportedHigherOrder (delta * request.multiplier) (gamma * request.multiplier)
    (theta * request.multiplier) (vega * request.multiplier) (rho * request.multiplier) t
    (.firstOrder modelName "analytic" none) warnings

def calculate (math : ClosedFormMath K) (request : ContractRequest K) :
    Except Exc (GreeksResult K) :=
  let t : K := yearFraction request.valuationDate request.expiry
  if t ≤ 0 ∨ request.volatility ≤ 0 then
    .ok (.unsupportedHigherOrder 0 0 0 0 0 (max t 0) (.firstOrder modelName "analytic" none)
      [{ code := .degenerateInput
         message := "degenerate time-to-expiry or volatility for Black-76 Greeks"
         severity := .warning }])
  else calculateFrom math request t

end Black76GreeksModel

/-! ### American models -/

namespace AmericanNumericalGreeksModel

/-- `bump_request_date`; the terms that it does not pass on have their defaults. -/
def bumpRequestDate (request : ContractRequest K) (daysForward : Int) :
    Except Exc (ContractRequest K) := do
  let valuationDate ← request.valuationDate.addDays daysForward
  return {
    spot := request.spot
    strike := request.strike
    expiry := request.expiry
    volatility := request.volatility
    riskFreeRate := request.riskFreeRate
    dividendYield := request.dividendYield
    optionType := request.optionType
    exerciseStyle := request.exerciseStyle
    multiplier := request.multiplier
    valuationDate := valuationDate }

/-- `calculate`, by the prices of the model. -/
def calculate (modelName : PricingModelName) (price : ContractRequest K → Except Exc K)
    (request : ContractRequest K) : Except Exc (GreeksResult K) := do
  let t : K := yearFraction request.valuationDate request.expiry
  if t ≤ 0 then
    return .unsupportedHigherOrder 0 0 0 0 0 0 (.firstOrder modelName.value "numerical_fd" none)
      [{ code := .degenerateInput
         message := "expired contract for numerical American Greeks"
         severity := .warning }]
  else
    let spotBump := max 1e-4 (request.spot * 1e-3)
    let volBump := max 1e-4 (max request.volatility 1e-4 * 1e-2)
    let rateBump : K := 1e-4
    let dayBump : Int := 1
    let base ← price request
    let upSpot ← price { request with spot := request.spot + spotBump }
    let downSpot ← price { request with spot := max (request.spot - spotBump) 1e-9 }
    let upVol ← price { request with volatility := request.volatility + volBump }
    let downVol ← price { request with volatility := max (request.volatility - volBump) 1e-9 }
    let upRate ← price { request with riskFreeRate := request.riskFreeRate + rateBump }
    let downRate ← price { request with riskFreeRate := request.riskFreeRate - rateBump }
    let laterVal ← price (← bumpRequestDate request dayBump)
    return .unsupportedHigherOrder ((upSpot - downSpot) / (2.0 * spotBump))
      ((upSpot - 2.0 * base + downSpot) / spotBump ^ 2) ((laterVal - base) / (dayBump : K))
      ((upVol - downVol) / (2.0 * volBump)) ((upRate - downRate) / (2.0 * rateBump)) t
      (.firstOrder modelName.value "numerical_fd"
        (some ⟨spotBump, volBump, rateBump, dayBump⟩)) []

end AmericanNumericalGreeksModel

/-! ### The engine -/

/-- The interface of `greeks/interfaces.py`; by default a batch is calculated one request after the
other. -/
structure GreeksModel (K : Type) where
  supportedStyles : List ExerciseStyle
  calculate : ContractRequest K → Except Exc (GreeksResult K)
  calculateBatch : List (ContractRequest K) → Except Exc (List (GreeksResult K)) :=
    List.mapM calculate

def ExerciseStyle.value : ExerciseStyle → String
  | .european => "european"
  | .american => "american"

def UnderlyingType.value : UnderlyingType → String
  | .equity => "equity"
  | .etf => "etf"
  | .index => "index"
  | .futures => "futures"

structure PricingRouterConfig where
  europeanSpotModel : PricingModelName := .blackScholes
  europeanFuturesModel : PricingModelName := .black76
  americanEquityEtfModel : PricingModelName := .coxRossRubinstein

/-- The model that `PricingModelRouter.route` decides for. -/
def PricingRouterConfig.route (config : PricingRouterConfig) (request : ContractRequest K) :
    Except Exc PricingModelName :=
  match request.exerciseStyle, request.underlyingType with
  | .european, .futures => .ok config.europeanFuturesModel
  | .european, _ => .ok config.europeanSpotModel
  | .american, .equity | .american, .etf => .ok config.americanEquityEtfModel
  | .american, underlyingType =>
    .error ⟨.other "PricingValidationError",
      "unsupported American contract metadata for routing: underlying_type=" ++
        underlyingType.value⟩

/-- An engine with its pricing engine: the policy of its router, and `price(...).option_value`. -/
structure GreeksEngine (K : Type) where
  math : ClosedFormMath K
  arrays : ArrayMath K
  price : PricingModelName → ContractRequest K → Except Exc K
  routerConfig : PricingRouterConfig := {}

structure PositionLeg (K : Type) where
  request : ContractRequest K
  quantity : K
  modelName : PricingModelName := .blackScholes

structure PortfolioGreeksResult (K : Type) where
  total : GreeksResult K
  perLeg : List (GreeksResult K)

namespace GreeksEngine

variable (engine : GreeksEngine K)

/-- `_models`. -/
def models : PricingModelName → GreeksModel K
  | .blackScholes =>
    { supportedStyles := [.european]
      calculate := BlackScholesGreeksModel.calculate engine.math
      calculateBatch := fun requests =>
        .ok (BlackScholesGreeksModel.calculateBatch engine.arrays requests) }
  | .black76 =>
    { supportedStyles := [.european]
      calculate := Black76GreeksModel.calculate engine.math }
  | modelName =>
    { supportedStyles := [.american]
      calculate := AmericanNumericalGreeksModel.calculate modelName (engine.price modelName) }

def validateRequest (request : ContractRequest K) : Except Exc Unit :=
  if request.spot ≤ 0 then .error (greeksValidationError "invalid spot: spot must be positive")
  else if request.strike ≤ 0 then
    .error (greeksValidationError "invalid strike: strike must be positive")
  else if request.volatility < 0 then
    .error (greeksValidationError "negative volatility is not allowed")
  else if request.multiplier ≤ 0 then
    .error (greeksValidationError "invalid multiplier: multiplier must be positive")
  else if request.expiry < request.valuationDate then
    .error (greeksValidationError "negative expiry is not allowed")
  else .ok ()

/-- The check of the exercise style against the model. -/
def assertSupported (modelName : PricingModelName) (request : ContractRequest K) :
    Except Exc Unit :=
  if request.exerciseStyle ∉ (engine.models modelName).supportedStyles then
    .error ⟨.other "UnsupportedOptionStyleError", "Greeks model " ++ modelName.value ++
      " does not support " ++ request.exerciseStyle.value⟩
  else .ok ()

/-- The model that is asked for, or else the router's. -/
def selectModel (request : ContractRequest K) : Option PricingModelName →
    Except Exc PricingModelName
  | some modelName => .ok modelName
  | none => engine.routerConfig.route request

def calculate (request : ContractRequest K) (modelName : Option PricingModelName) :
    Except Exc (GreeksResult K) := do
  validateRequest request
  let selectedModel ← engine.selectModel request modelName
  engine.assertSupported selectedModel request
  (engine.models selectedModel).calculate request

/-- The pass of the loop over the groups: the results of a group go to the indices of its
requests. -/
def routeGroup (routedResults : InsertionDict ℕ (GreeksResult K))
    (group : PricingModelName × List (ℕ × ContractRequest K)) :
    Except Exc (InsertionDict ℕ (GreeksResult K)) := do
  let batchResults ← (engine.models group.1).calculateBatch (group.2.map Prod.snd)
  if batchResults.length = group.2.length then
    return (group.2.zip batchResults).foldl
      (fun routed entry => routed.set entry.1.1 entry.2) routedResults
  else .error ⟨.valueError, "zip() arguments differ in length"⟩

/-- `routed_results[idx]`. -/
def routedResult (routedResults : InsertionDict ℕ (GreeksResult K)) (idx : ℕ) :
    Except Exc (GreeksResult K) :=
  match routedResults.get? idx with
  | some result => .ok result
  | none => .error ⟨.other "KeyError", toString idx⟩

/-- A request with its index, under the model that it is routed to. -/
def routed (entry : ContractRequest K × ℕ) :
    Except Exc (PricingModelName × (ℕ × ContractRequest K)) := do
  validateRequest entry.1
  let selectedModel ← engine.routerConfig.route entry.1
  return (selectedModel, entry.2, entry.1)

def calculateBatch (requests : List (ContractRequest K)) (modelName : Option PricingModelName) :
    Except Exc (List (GreeksResult K)) :=
  match modelName with
  | some modelName => do
    requests.forM fun request => do
      validateRequest request
      engine.assertSupported modelName request
    (engine.models modelName).calculateBatch requests
  | none => do
    let entries ← requests.zipIdx.mapM engine.routed
    let routedResults ← (KeyedGroups.groups entries).foldlM engine.routeGroup .empty
    (List.range requests.length).mapM (routedResult routedResults)

def calculatePortfolio (legs : List (PositionLeg K)) : Except Exc (PortfolioGreeksResult K) := do
  let perLeg ← legs.mapM fun leg => do
    let legResult ← engine.calculate leg.request (some leg.modelName)
    return legResult.scale leg.quantity
  return { total := perLeg.foldl GreeksResult.add (.zero 0 .empty []), perLeg }

end GreeksEngine

end OptionResearch
