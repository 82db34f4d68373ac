import OptionResearch.BinomialTree

/-!
# The closed-form models of the pricing engine

`BlackScholesModel.price` and `Black76Model.price` of `pricing/engine.py`. The functions of `math`
and the normal distribution function are given.
-/

namespace OptionResearch

inductive UnderlyingType where
  | equity
  | etf
  | index
  | futures
  deriving DecidableEq, Repr

/-- A request with the terms that a tree does not read. -/
structure ContractRequest (K : Type) extends PricingRequest K where
  underlyingType : UnderlyingType := .equity
  futuresPrice : Option K := none

/-- The functions of `math`, `math.pi`, and `standard_normal_cdf`. -/
structure ClosedFormMath (K : Type) extends PricingMath K where
  log : K → Except Exc K
  pi : K
  standardNormalCdf : K → K

structure FirstOrderGreeks (K : Type) where
  delta : K
  gamma : K
  theta : K
  vega : K
  rho : K

/-- The `calculation_metadata` of a closed-form price. -/
inductive ClosedFormCalculation (K : Type) where
  | expiry (model calculation : String)
  | spot (model : String) (optionType : OptionType)
  | futures (model : String) (futuresPrice : K) (firstOrderGreeks : FirstOrderGreeks K)

structure ClosedFormResult (K : Type) where
  optionValue : K
  intrinsicValue : K
  extrinsicValue : K
  timeToExpiry : K
  calculationMetadata : ClosedFormCalculation K
  warnings : List String := []

variable {K : Type} [Field K] [LinearOrder K]

namespace BlackScholesModel

def modelName : String := "black_scholes"

def dividendWarnings (request : ContractRequest K) : List String :=
  if request.discreteDividends.isEmpty then []
  else
    ("discrete dividends detected; Black-Scholes uses continuous dividend yield "
      ++ "approximation only") ::
      if request.discreteDividends.any fun div => div.dividendType = .special then
        ["special-dividend uncertainty may impact valuation"]
      else []

/-- The value before the lower bound is enforced. -/
def formula (math : ClosedFormMath K) (request : ContractRequest K) (t : K) : Except Exc K := do
  let dfR := discountFactor math.toPricingMath request.riskFreeRate t
  let dfQ := discountFactor math.toPricingMath request.dividendYield t
  if request.volatility = 0 then
    return intrinsicValue (request.spot * dfQ) (request.strike * dfR) request.optionType
  else
    let sigmaSqrtT := request.volatility * (← math.sqrt t)
    let logMoneyness ← math.log (← divide request.spot request.strike)
    let d1 ← divide (logMoneyness +
      (request.riskFreeRate - request.dividendYield + 0.5 * request.volatility ^ 2) * t) sigmaSqrtT
    let d2 := d1 - sigmaSqrtT
    match request.optionType with
    | .call =>
      return request.spot * dfQ * math.standardNormalCdf d1 -
        request.strike * dfR * math.standardNormalCdf d2
    | .put =>
      return request.strike * dfR * math.standardNormalCdf (-d2) -
        request.spot * dfQ * math.standardNormalCdf (-d1)

def price (math : ClosedFormMath K) (request : ContractRequest K) :
    Except Exc (ClosedFormResult K) := do
  let t : K := yearFraction request.valuationDate request.expiry
  let intrinsic := intrinsicValue request.spot request.strike request.optionType
  let warnings := dividendWarnings request
  if t = 0 then
    return { optionValue := intrinsic * request.multiplier
             intrinsicValue := intrinsic * request.multiplier
             extrinsicValue := 0
             timeToExpiry := t
             calculationMetadata := .expiry modelName "intrinsic_at_expiry"
             warnings := warnings ++ ["option has reached expiry; returning intrinsic value"] }
  else
    let value := max (← formula math request t) intrinsic
    return { optionValue := value * request.multiplier
             intrinsicValue := intrinsic * request.multiplier
             extrinsicValue := max (value - intrinsic) 0 * request.multiplier
             timeToExpiry := t
             calculationMetadata := .spot modelName request.optionType
             warnings }

end BlackScholesModel

namespace Black76Model

def modelName : String := "black_76"

/-- The futures price, from the cost of carry where the request has none. -/
def forward (math : ClosedFormMath K) (request : ContractRequest K) (t : K) : K :=
  request.futuresPrice.getD
    (request.spot * math.exp ((request.riskFreeRate - request.dividendYield) * max t 0))

/-- The value with `d1`. -/
def formula (math : ClosedFormMath K) (request : ContractRequest K)
    (t forward discount intrinsic : K) : Except Exc (K × K) := do
  if request.volatility = 0 then return (intrinsic, 0)
  else
    let sigmaSqrtT := request.volatility * (← math.sqrt t)
    let logMoneyness ← math.log (← divide forward request.strike)
    let d1 ← divide (logMoneyness + 0.5 * request.volatility ^ 2 * t) sigmaSqrtT
    let d2 := d1 - sigmaSqrtT
    match request.optionType with
    | .call =>
      return (discount * (forward * math.standardNormalCdf d1 -
        request.strike * math.standardNormalCdf d2), d1)
    | .put =>
      return (discount * (request.strike * math.standardNormalCdf (-d2) -
        forward * math.standardNormalCdf (-d1)), d1)

def greeks (math : ClosedFormMath K) (request : ContractRequest K)
    (t forward discount value d1 : K) : Except Exc (FirstOrderGreeks K) := do
  let pdfD1 ← divide (math.exp (-0.5 * d1 * d1)) (← math.sqrt (2.0 * math.pi))
  let delta := match request.optionType with
    | .call => discount * math.standardNormalCdf d1
    | .put => -discount * math.standardNormalCdf (-d1)
  let gamma ←
    if 0 < request.volatility then
      divide (discount * pdfD1) (forward * request.volatility * (← math.sqrt t))
    else pure 0
  let vega := discount * forward * pdfD1 * (← math.sqrt t)
  let decay ← divide (-discount * forward * pdfD1 * request.volatility) (2.0 * (← math.sqrt t))
  return { delta := delta * request.multiplier
           gamma := gamma * request.multiplier
           theta := (decay + request.riskFreeRate * value) / 365.0 * request.multiplier
           vega := vega * request.multiplier
           rho := -t * value * request.multiplier }

def price (math : ClosedFormMath K) (request : ContractRequest K) :
    Except Exc (ClosedFormResult K) := do
  let t : K := yearFraction request.valuationDate request.expiry
  let warnings := if request.futuresPrice.isNone then
      ["futures_price not provided; using cost-of-carry forward proxy from spot"]
    else []
  let forward := forward math request t
  let discount := discountFactor math.toPricingMath request.riskFreeRate (max t 0)
  let intrinsic := discount * intrinsicValue forward request.strike request.optionType
  if t = 0 then
    return { optionValue := intrinsic * request.multiplier
             intrinsicValue := intrinsic * request.multiplier
             extrinsicValue := 0
             timeToExpiry := t
             calculationMetadata := .expiry modelName "expiry"
             warnings }
  else
    let (value, d1) ← formula math request t forward discount intrinsic
    let firstOrderGreeks ← greeks math request t forward discount value d1
    return { optionValue := value * request.multiplier
             intrinsicValue := intrinsic * request.multiplier
             extrinsicValue := max (value - intrinsic) 0 * request.multiplier
             timeToExpiry := t
             calculationMetadata := .futures modelName forward firstOrderGreeks
             warnings }

end Black76Model

end OptionResearch
