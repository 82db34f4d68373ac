import Mathlib.Algebra.Order.Group.Abs
import Mathlib.Order.WithBot
import OptionResearch.CountedLoop
import OptionResearch.PythonValues
import OptionResearch.SignChange

/-!
# Solvers that bracket a volatility

`solve_bisection` and `solve_brent_hybrid` of `implied_volatility/numerical_methods.py`. Numbers are
of an ordered field. An objective is given where it is finite and nothing is raised, and the points
that it is evaluated at are written down. A run hands out the two points with their values that its
passes start from, along with its result.
-/

namespace OptionResearch

open SignChange

inductive SolverMethod where
  | newtonRaphson
  | bisection
  | brent
  | none
  deriving DecidableEq, Repr

inductive SolverOutcome where
  | success
  | approximate
  | invalidMarketPrice
  | nonConvergence
  | unsupportedContract
  deriving DecidableEq, Repr

inductive FailureReason where
  | none
  | belowIntrinsic
  | aboveTheoreticalBound
  | expiredOption
  | missingContractMetadata
  | invalidInput
  | invalidDividendData
  | unsupportedPricingModel
  | noBracketedSolution
  | lowVega
  | outOfBoundsUpdate
  | stalled
  | numericalInstability
  deriving DecidableEq, Repr

/-- What the two solvers read of a configuration. -/
structure SolverConfig (K : Type) [Field K] where
  priceTolerance : K := 1e-8
  volatilityTolerance : K := 1e-8
  maxIterations : Int := 100
  bisectionMaxIterations : Option Int := none
  brentMaxIterations : Option Int := none
  volLowerBound : K := 1e-6
  volUpperBound : K := 5.0

/-- The result of a solver; `float("inf")` is the residual where there is none. -/
structure ImpliedVolatilityResult (K : Type) where
  impliedVolatility : Option K
  method : SolverMethod
  iterations : Int
  converged : Bool
  residual : WithTop K
  finalPricingError : Option K
  outcome : SolverOutcome
  failureReason : FailureReason
  lowerBound : K
  upperBound : K
  calculationMetadata : Payload
  warnings : List String := []

/-- A result, and for each pass of the loop the points evaluated so far and the two it starts
from. -/
structure SolverRun (K : Type) where
  result : ImpliedVolatilityResult K
  passes : List (List K × Bracket K)

/-- `range(1, max_iterations + 1)`. -/
def iterations (maxIterations : Int) : List Int :=
  (List.range maxIterations.toNat).map fun i => (i : Int) + 1

/-- `math.copysign(x, y)`. -/
def copysign {K : Type} [AddGroup K] [LinearOrder K] (x y : K) : K :=
  if 0 ≤ y then |x| else -|x|

variable {K : Type}

/-- What `_evaluate_objective` makes of the value. -/
def evaluation : Option K → Option K × FailureReason
  | none => (none, .numericalInstability)
  | some value => (some value, .none)

def evaluateObjective (objective : K → Option K) (volatility : K) :
    Effect (List K) Exc (Option K × FailureReason) := do
  modify (· ++ [volatility])
  return evaluation (objective volatility)

/-- The first reason that is one. -/
def firstReason (reason other : FailureReason) : FailureReason :=
  if reason ≠ .none then reason else other

namespace ImpliedVolatilityResult

/-- The results without a volatility. -/
def failed (method : SolverMethod) (solver : String) (iterations : Int) (residual : WithTop K)
    (finalPricingError : Option K) (failureReason : FailureReason) (lowerBound upperBound : K)
    (warning : String) : ImpliedVolatilityResult K where
  impliedVolatility := none
  method
  iterations
  converged := false
  residual
  finalPricingError
  outcome := .nonConvergence
  failureReason
  lowerBound
  upperBound
  calculationMetadata := [("solver", .str solver)]
  warnings := [warning]

/-- The results with a volatility. -/
def found (method : SolverMethod) (solver : String) (iterations : Int) (volatility residual : K)
    (outcome : SolverOutcome) (lowerBound upperBound : K) : ImpliedVolatilityResult K where
  impliedVolatility := some volatility
  method
  iterations
  converged := true
  residual
  finalPricingError := some residual
  outcome
  failureReason := .none
  lowerBound
  upperBound
  calculationMetadata := [("solver", .str solver)]

end ImpliedVolatilityResult

open ImpliedVolatilityResult

variable [Field K] [LinearOrder K] (objective : K → Option K) (config : SolverConfig K)

/-! ### Bisection -/

structure BisectionState (K : Type) where
  low : K
  high : K
  fLow : K
  fHigh : K
  fMid : K

def BisectionState.bracket (state : BisectionState K) : Bracket K :=
  ⟨state.low, state.fLow, state.high, state.fHigh⟩

/-- One pass of the loop. -/
def bisectionPass (iteration : Int) (state : BisectionState K) :
    Effect (List K) Exc (Pass (BisectionState K) (ImpliedVolatilityResult K)) := do
  let mid := 0.5 * (state.low + state.high)
  let (maybeMid, reasonMid) ← evaluateObjective objective mid
  match maybeMid with
  | none =>
    return .left (failed .bisection "bisection" iteration ⊤ none reasonMid state.low state.high
      "bisection objective became unstable")
  | some fMid =>
    if |fMid| ≤ config.priceTolerance ∨ |state.high - state.low| ≤ config.volatilityTolerance then
      return .left (found .bisection "bisection" iteration mid fMid
        (if |fMid| ≤ config.priceTolerance then .success else .approximate)
        config.volLowerBound config.volUpperBound)
    else if state.fLow * fMid < 0 then
      return .again { state with high := mid, fHigh := fMid, fMid }
    else return .again { state with low := mid, fLow := fMid, fMid }

def solveBisection : Effect (List K) Exc (SolverRun K) := do
  let maxIterations := config.bisectionMaxIterations.getD config.maxIterations
  let low := config.volLowerBound
  let high := config.volUpperBound
  let (maybeLow, reasonLow) ← evaluateObjective objective low
  let (maybeHigh, reasonHigh) ← evaluateObjective objective high
  match maybeLow, maybeHigh with
  | some fLow, some fHigh =>
    if fLow = 0 then
      return ⟨found .bisection "bisection" 0 low 0 .success low high, []⟩
    else if 0 < fLow * fHigh then
      return ⟨failed .bisection "bisection" 0 (min |fLow| |fHigh| : K) (some (min |fLow| |fHigh|))
        .noBracketedSolution low high "bisection root not bracketed", []⟩
    else
      let (result, visited) ← CountedLoop.run (bisectionPass objective config)
        (fun state => failed .bisection "bisection" maxIterations state.fMid (some state.fMid)
          .stalled config.volLowerBound config.volUpperBound "bisection did not converge")
        (iterations maxIterations) { low, high, fLow, fHigh, fMid := fLow }
      return ⟨result, visited.map fun entry => (entry.1, entry.2.bracket)⟩
  | _, _ =>
    return ⟨failed .bisection "bisection" 0 ⊤ none (firstReason reasonLow reasonHigh) low high
      "bisection encountered unstable objective", []⟩

/-! ### Brent's method -/

structure BrentState (K : Type) where
  a : K
  b : K
  c : K
  d : K
  e : K
  fa : K
  fb : K
  fc : K

namespace BrentState

variable (state : BrentState K) (tol midpoint : K)

/-- Where `a` and `b` are on the same side, `c` is on the other one. -/
def rebracketed : BrentState K :=
  if 0 < state.fa * state.fb then
    { state with
      a := state.c
      fa := state.fc
      d := state.b - state.c
      e := state.b - state.c }
  else state

/-- `b` is the better of the two points. -/
def ordered : BrentState K :=
  if |state.fa| < |state.fb| then
    { state with
      c := state.b
      b := state.a
      a := state.b
      fc := state.fb
      fb := state.fa
      fa := state.fb }
  else state

/-- The two ends that a pass of the loop works with. -/
def bracket : Bracket K :=
  ⟨state.rebracketed.a, state.rebracketed.fa, state.rebracketed.b, state.rebracketed.fb⟩

/-- `p` and `q` by the secant or by inverse quadratic interpolation. -/
def interpolated : Except Exc (K × K) := do
  let s ← divide state.fb state.fc
  if state.a = state.c then
    return (2.0 * midpoint * s, 1.0 - s)
  else
    let q ← divide state.fc state.fa
    let r ← divide state.fb state.fa
    return (s * (2.0 * midpoint * q * (q - r) - (state.b - state.c) * (r - 1.0)),
      (q - 1.0) * (r - 1.0) * (s - 1.0))

/-- `p` without its sign, which goes to `q`. -/
def signed (step : K × K) : K × K :=
  if 0 < step.1 then (step.1, -step.2) else (-step.1, step.2)

/-- The next `d` and `e`. -/
def steps : Except Exc (K × K) := do
  if tol ≤ |state.e| ∧ |state.fb| < |state.fc| then
    let step ← state.interpolated midpoint
    let (p, q) := signed step
    if 2.0 * p < min (3.0 * midpoint * q - |tol * q|) |state.e * q| then
      return (← divide p q, state.d)
    else return (midpoint, midpoint)
  else return (midpoint, midpoint)

/-- The next `b`. -/
def moved (d : K) : K :=
  if tol < |d| then state.b + d else state.b + copysign tol midpoint

end BrentState

/-- One pass of the loop. -/
def brentPass (iteration : Int) (state : BrentState K) :
    Effect (List K) Exc (Pass (BrentState K) (ImpliedVolatilityResult K)) := do
  if |state.fb| ≤ config.priceTolerance then
    return .left (found .brent "brent_hybrid" iteration state.b state.fb .success
      config.volLowerBound config.volUpperBound)
  else
    let state := state.rebracketed.ordered
    let tol := 0.5 * config.volatilityTolerance
    let midpoint := 0.5 * (state.a - state.b)
    if |midpoint| ≤ tol then
      return .left { found .brent "brent_hybrid" iteration state.b state.fb .approximate
          config.volLowerBound config.volUpperBound with
        calculationMetadata := [("solver", .str "brent_hybrid"), ("approximate", .bool true)]
        warnings := ["brent hybrid satisfied volatility tolerance"] }
    else
      let (d, e) ← Effect.raising (state.steps tol midpoint)
      let b := state.moved tol midpoint d
      let (maybeFb, reasonB) ← evaluateObjective objective b
      match maybeFb with
      | none =>
        return .left (failed .brent "brent_hybrid" iteration ⊤ none reasonB config.volLowerBound
          config.volUpperBound "brent hybrid objective became unstable")
      | some fb => return .again { state with b, c := state.b, d, e, fb, fc := state.fb }

/-- The better of the two ends is `b` at first, and the other one is `a` and `c`. -/
def brentStart (a b fa fb : K) : BrentState K :=
  if |fa| < |fb| then
    { a := b, b := a, c := b, d := a - b, e := a - b, fa := fb, fb := fa, fc := fb }
  else { a, b, c := a, d := b - a, e := b - a, fa, fb, fc := fa }

def solveBrentHybrid : Effect (List K) Exc (SolverRun K) := do
  let maxIterations := config.brentMaxIterations.getD config.maxIterations
  let a := config.volLowerBound
  let b := config.volUpperBound
  let (maybeA, reasonA) ← evaluateObjective objective a
  let (maybeB, reasonB) ← evaluateObjective objective b
  match maybeA, maybeB with
  | some fa, some fb =>
    if 0 < fa * fb then
      return ⟨failed .brent "brent_hybrid" 0 (min |fa| |fb| : K) (some (min |fa| |fb|))
        .noBracketedSolution a b "brent hybrid root not bracketed", []⟩
    else
      let (result, visited) ← CountedLoop.run (brentPass objective config)
        (fun state => failed .brent "brent_hybrid" maxIterations state.fb (some state.fb)
          .stalled config.volLowerBound config.volUpperBound "brent hybrid did not converge")
        (iterations maxIterations) (brentStart a b fa fb)
      return ⟨result, visited.map fun entry => (entry.1, entry.2.bracket)⟩
  | _, _ =>
    return ⟨failed .brent "brent_hybrid" 0 ⊤ none (firstReason reasonA reasonB) a b
      "brent hybrid encountered unstable objective", []⟩

end OptionResearch
