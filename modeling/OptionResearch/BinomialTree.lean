import OptionResearch.OptionPayoff
import OptionResearch.PartialEffects
import OptionResearch.RecombiningTree
import OptionResearch.WalkForward
import Mathlib.Algebra.Order.Field.Basic

/-!
# The binomial tree of the pricing engine

`_crr_tree_value` of `pricing/engine.py` and the model that prices with it. Numbers are of an
ordered field, and `math.exp` and `math.sqrt` are given. The lists of node values that the loops
pass on are the layers of a recombining tree.
-/

namespace OptionResearch

open OptionPayoff RecombiningTree

abbrev OptionType := Right

inductive ExerciseStyle where
  | european
  | american
  deriving DecidableEq, Repr

inductive DividendType where
  | ordinary
  | special
  deriving DecidableEq, Repr

structure DiscreteDividend (K : Type) where
  exDividendDate : OrdinalDate
  amount : K
  dividendType : DividendType := .ordinary

/-- What a tree model reads of a request. -/
structure PricingRequest (K : Type) where
  spot : K
  strike : K
  expiry : OrdinalDate
  volatility : K
  riskFreeRate : K
  dividendYield : K
  optionType : OptionType
  exerciseStyle : ExerciseStyle
  multiplier : K
  valuationDate : OrdinalDate
  discreteDividends : List (DiscreteDividend K) := []
  treeSteps : Int := 400

/-- `math.exp`, and `math.sqrt` with its error. -/
structure PricingMath (K : Type) where
  exp : K → K
  sqrt : K → Except Exc K

/-- The factors of one period of a tree. -/
structure Lattice (K : Type) where
  up : K
  down : K
  prob : K
  discount : K

variable {K : Type} [Field K] [LinearOrder K]

/-- ACT/365 year fraction between dates. -/
def yearFraction (startDate endDate : OrdinalDate) : K :=
  ((endDate.toordinal - startDate.toordinal : Int) : K) / 365

def discountFactor (math : PricingMath K) (rate t : K) : K := math.exp (-rate * t)

/-- Intrinsic value for call or put. -/
def intrinsicValue (spot strike : K) : OptionType → K
  | .call => max (spot - strike) 0
  | .put => max (strike - spot) 0

namespace PricingRequest

variable (request : PricingRequest K)

/-- `sign`. -/
def sign : K :=
  match request.optionType with
  | .call => 1
  | .put => -1

/-- What exercising at a spot is worth. -/
def immediate (spot : K) : K := max (request.sign * (spot - request.strike)) 0

end PricingRequest

namespace Lattice

variable (lattice : Lattice K) (request : PricingRequest K) (adjustedSpot : K)

def nodeSpot (step node : ℕ) : K :=
  adjustedSpot * lattice.up ^ node * lattice.down ^ (step - node)

def continuation (low high : K) : K :=
  lattice.discount * (lattice.prob * high + (1 - lattice.prob) * low)

/-- The body of the loop over the nodes of a step: the value, and whether it was exercised early. -/
def node (step node : ℕ) (low high : K) : K × Bool :=
  let continuation := lattice.continuation low high
  match request.exerciseStyle with
  | .american =>
    let immediate := request.immediate (lattice.nodeSpot adjustedSpot step node)
    (max continuation immediate, decide (continuation < immediate))
  | .european => (continuation, false)

/-- The loop over the steps, from the last one down; the layer at hand is that after it. -/
def rollBack : ℕ → List K → ℕ → List K × ℕ
  | 0, values, earlyExerciseNodes => (values, earlyExerciseNodes)
  | step + 1, values, earlyExerciseNodes =>
    let layer := adjacent (lattice.node request adjustedSpot step) 0 values
    rollBack step (layer.map Prod.fst) (earlyExerciseNodes + layer.countP Prod.snd)

/-- The tree, its terminal layer first. -/
def treeValue (steps : Int) : Except Exc (K × ℕ) :=
  let terminal := (List.range (steps + 1).toNat).map fun node =>
    request.immediate (lattice.nodeSpot adjustedSpot steps.toNat node)
  match lattice.rollBack request adjustedSpot steps.toNat terminal 0 with
  | (value :: _, earlyExerciseNodes) => .ok (value, earlyExerciseNodes)
  | ([], _) => .error ⟨.other "IndexError", "list index out of range"⟩

end Lattice

section Models

variable (math : PricingMath K) (request : PricingRequest K) (adjustedSpot : K)

/-- The factors of a period of `dt` years. -/
def latticeOf (dt sqrtDt : K) : Except Exc (Lattice K) := do
  let up := math.exp (request.volatility * sqrtDt)
  let down ← divide 1 up
  let growth := math.exp ((request.riskFreeRate - request.dividendYield) * dt)
  let prob ← divide (growth - down) (up - down)
  return { up, down, prob := min (max prob 0) 1, discount := math.exp (-request.riskFreeRate * dt) }

/-- The value without volatility. -/
def certainValue (t : K) : K × ℕ :=
  let driftedSpot :=
    adjustedSpot * math.exp ((request.riskFreeRate - request.dividendYield) * t)
  let value := discountFactor math request.riskFreeRate t *
    intrinsicValue driftedSpot request.strike request.optionType
  match request.exerciseStyle with
  | .american => (max value (intrinsicValue adjustedSpot request.strike request.optionType), 1)
  | .european => (value, 0)

def crrTreeValue (stepsOverride : Option Int) : Except Exc (K × ℕ) := do
  let steps := stepsOverride.getD request.treeSteps
  let t := yearFraction request.valuationDate request.expiry
  let dt ← divide t (steps : K)
  let sqrtDt ← math.sqrt dt
  if request.volatility = 0 then return certainValue math request adjustedSpot t
  else
    let lattice ← latticeOf math request dt sqrtDt
    lattice.treeValue request adjustedSpot steps

/-- `_present_value_dividends`. -/
def presentValueDividends : K :=
  (request.discreteDividends.filterMap fun dividend =>
    let tDiv : K := yearFraction request.valuationDate dividend.exDividendDate
    if request.expiry < dividend.exDividendDate then none
    else if tDiv < 0 then none
    else some (dividend.amount * discountFactor math request.riskFreeRate tDiv)).sum

end Models

/-- The `calculation_metadata` of a tree price. -/
inductive TreeCalculation (K : Type) where
  | expiry (model : String)
  | tree (model : String) (treeSteps : Int) (convergenceGap : K) (earlyExerciseNodes : ℕ)

structure PricingResult (K : Type) where
  optionValue : K
  intrinsicValue : K
  extrinsicValue : K
  timeToExpiry : K
  calculationMetadata : TreeCalculation K
  warnings : List String

/-- `CoxRossRubinsteinModel`, and `BinomialTreeModel` under its own name. -/
structure CoxRossRubinsteinModel where
  modelName : String := "cox_ross_rubinstein"

namespace CoxRossRubinsteinModel

/-- `MIN_POSITIVE_PRICE`. -/
def minPositivePrice : K := 1e-12

def adjustedSpot (math : PricingMath K) (request : PricingRequest K) : K × List String :=
  if request.discreteDividends.isEmpty then (request.spot, [])
  else
    (max (request.spot - presentValueDividends math request) minPositivePrice,
      "CRR using present-value discrete-dividend spot adjustment approximation" ::
        if request.discreteDividends.any fun div => div.dividendType = .special then
          ["special-dividend uncertainty may impact early-exercise economics"]
        else [])

def price (model : CoxRossRubinsteinModel) (math : PricingMath K) (request : PricingRequest K) :
    Except Exc (PricingResult K) := do
  let t : K := yearFraction request.valuationDate request.expiry
  let intrinsic := intrinsicValue request.spot request.strike request.optionType
  if t = 0 then
    return { optionValue := intrinsic * request.multiplier
             intrinsicValue := intrinsic * request.multiplier
             extrinsicValue := 0
             timeToExpiry := t
             calculationMetadata := .expiry model.modelName
             warnings := [] }
  else
    let adjusted := adjustedSpot math request
    let (value, earlyExerciseNodes) ← crrTreeValue math request adjusted.1 none
    let boundValue := max value intrinsic
    let (altValue, _) ← crrTreeValue math request adjusted.1 (some (request.treeSteps * 2))
    let convergenceGap := |altValue - value|
    return { optionValue := boundValue * request.multiplier
             intrinsicValue := intrinsic * request.multiplier
             extrinsicValue := max (boundValue - intrinsic) 0 * request.multiplier
             timeToExpiry := t
             calculationMetadata :=
               .tree model.modelName request.treeSteps convergenceGap earlyExerciseNodes
             warnings := adjusted.2 ++
               (if boundValue ≠ value then ["intrinsic lower-bound enforcement applied"]
                else []) ++
               if max (1 / 1000) (1 / 1000 * max |value| 1) < convergenceGap then
                 ["insufficient tree resolution detected; increase tree_steps for tighter "
                   ++ "convergence"]
               else [] }

end CoxRossRubinsteinModel

/-! ### The values of the layers -/

namespace Lattice

variable (lattice : Lattice K) (request : PricingRequest K) (adjustedSpot : K)

/-- The value of a node from those that follow it. -/
def rule (step node : ℕ) (low high : K) : K :=
  (lattice.node request adjustedSpot step node low high).1

def leaf (steps node : ℕ) : K := request.immediate (lattice.nodeSpot adjustedSpot steps node)

/-- The values of the nodes of a step. -/
def row (steps step : ℕ) : List K :=
  (List.range' 0 (step + 1)).map
    (nodeValue (lattice.rule request adjustedSpot) (lattice.leaf request adjustedSpot steps)
      (steps - step) step)

/-- The nodes of a step with what became of them. -/
def outcomes (steps step : ℕ) : List (K × Bool) :=
  adjacent (lattice.node request adjustedSpot step) 0 (lattice.row request adjustedSpot steps
    (step + 1))

/-- The value at the root of a tree of so many steps. -/
def rootValue (steps : ℕ) : K :=
  nodeValue (lattice.rule request adjustedSpot) (lattice.leaf request adjustedSpot steps) steps 0 0

/-- The nodes of the first steps that are exercised early. -/
def earlyNodes (steps step : ℕ) : ℕ :=
  ((List.range step).map fun j =>
    (lattice.outcomes request adjustedSpot steps j).countP Prod.snd).sum

variable {lattice request adjustedSpot} {steps step : ℕ}

theorem outcomes_eq : lattice.outcomes request adjustedSpot steps step =
    (List.range' 0 (step + 1)).map fun node =>
      lattice.node request adjustedSpot step node
        (nodeValue (lattice.rule request adjustedSpot) (lattice.leaf request adjustedSpot steps)
          (steps - (step + 1)) (step + 1) node)
        (nodeValue (lattice.rule request adjustedSpot) (lattice.leaf request adjustedSpot steps)
          (steps - (step + 1)) (step + 1) (node + 1)) := by
  rw [outcomes, row, adjacent_map]

theorem map_fst_outcomes (h : step < steps) :
    (lattice.outcomes request adjustedSpot steps step).map Prod.fst =
      lattice.row request adjustedSpot steps step := by
  rw [outcomes_eq, List.map_map, row]
  refine List.map_congr_left fun node _ => ?_
  rw [nodeValue_of_lt h]
  rfl

/-- The loop over the steps goes through the rows of the tree. -/
theorem rollBack_row (h : step ≤ steps) (early : ℕ) :
    lattice.rollBack request adjustedSpot step (lattice.row request adjustedSpot steps step) early =
      (lattice.row request adjustedSpot steps 0,
        early + lattice.earlyNodes request adjustedSpot steps step) := by
  induction step generalizing early with
  | zero => rfl
  | succ step ih =>
      have hlayer : (lattice.outcomes request adjustedSpot steps step).map Prod.fst =
          lattice.row request adjustedSpot steps step := map_fst_outcomes (Nat.lt_of_succ_le h)
      rw [rollBack]
      change lattice.rollBack request adjustedSpot step
        ((lattice.outcomes request adjustedSpot steps step).map Prod.fst) _ = _
      rw [hlayer, ih (Nat.le_of_succ_le h), earlyNodes, earlyNodes, List.range_succ,
        List.map_append, List.sum_append, List.map_singleton, List.sum_singleton, Nat.add_assoc,
        Nat.add_comm (List.countP _ _)]
      rfl

/-- The tree has the value of its root. -/
theorem treeValue_eq : lattice.treeValue request adjustedSpot steps =
    .ok (lattice.rootValue request adjustedSpot steps,
      lattice.earlyNodes request adjustedSpot steps steps) := by
  have hterminal : ((List.range ((steps : Int) + 1).toNat).map fun node =>
      request.immediate (lattice.nodeSpot adjustedSpot (steps : Int).toNat node)) =
        lattice.row request adjustedSpot steps steps := by
    rw [row, Nat.sub_self, ← List.range_eq_range']
    rfl
  rw [treeValue, hterminal, Int.toNat_natCast, rollBack_row le_rfl, Nat.zero_add]
  rfl

end Lattice

end OptionResearch
