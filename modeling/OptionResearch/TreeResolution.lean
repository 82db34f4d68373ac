import Mathlib.Algebra.Order.Field.Basic
import Mathlib.Order.WithBot
import Mathlib.Tactic.NormNum
import OptionResearch.BinomialTree
import OptionResearch.PartialEffects

/-!
# Tree resolution

`TreeResolutionPolicy` of `implied_volatility/tree_policy.py` prices a request with more and more
steps. `row.price_change or float("inf")` takes a price that has not changed for a missing one.
-/

namespace OptionResearch

/-- The fields of `SolverConfig` that the policy reads. -/
structure TreeStepConfig (K : Type) where
  treeStepStart : Int := 200
  treeStepMax : Int := 1600
  treeStepSchedule : List Int := [1, 2, 4, 8]
  treePriceConvergenceThreshold : K
  treeIvConvergenceThreshold : K
  treeGreekStabilityThreshold : K

/-- What is priced with a step count. -/
structure TreeQuote (K : Type) where
  treeSteps : Int
  price : K
  delta : K
  gamma : K
  deriving DecidableEq

structure TreeStepDiagnostic (K : Type) extends TreeQuote K where
  priceChange : Option K := none
  deltaChange : Option K := none
  gammaChange : Option K := none
  ivChangeProxy : Option K := none

structure TreeStepPolicyResult (K : Type) where
  selectedTreeSteps : Int
  converged : Bool
  diagnostics : List (TreeStepDiagnostic K)
  warnings : List String

namespace TreeResolutionPolicy

variable {K : Type} [Field K] [LinearOrder K]

-- `self.pricing_engine.price(request, model_name=model_name).option_value`
variable (price : PricingRequest K → Except Exc K)

/-- `_with_params`. -/
def withParams (request : PricingRequest K) (impliedVolatility : K) (treeSteps : Int)
    (spotShift : K) : PricingRequest K :=
  { request with
    spot := max (request.spot + spotShift) (1 / 100000000)
    volatility := impliedVolatility
    treeSteps }

/-- `_price_and_greeks`. -/
def priceAndGreeks (request : PricingRequest K) (impliedVolatility : K) (treeSteps : Int) :
    Except Exc (TreeQuote K) := do
  let center := withParams request impliedVolatility treeSteps 0
  let up := withParams request impliedVolatility treeSteps 0.5
  let down := withParams request impliedVolatility treeSteps (-0.5)
  let centerPrice ← price center
  let upPrice ← price up
  let downPrice ← price down
  return {
    treeSteps
    price := centerPrice
    delta := (upPrice - downPrice) / max (up.spot - down.spot) (1 / 100000000)
    gamma := (upPrice - 2.0 * centerPrice + downPrice) / max (0.5 ^ 2) (1 / 100000000) }

/-- `_vega_proxy`. -/
def vegaProxy (price impliedVolatility : K) : K :=
  max |price| 1 * max impliedVolatility (1 / 10000)

def stepCounts (config : TreeStepConfig K) (request : PricingRequest K) : List Int :=
  let baseSteps := max config.treeStepStart request.treeSteps
  let steps := (config.treeStepSchedule.map fun multiplier => baseSteps * max multiplier 1).filter
    (· ≤ config.treeStepMax)
  if steps = [] then [min baseSteps config.treeStepMax] else steps

/-- The change of the price, as a change of the volatility. -/
def ivChange (impliedVolatility : K) (prev quote : TreeQuote K) : K :=
  |quote.price - prev.price| / max |vegaProxy quote.price impliedVolatility| (1 / 100000000)

/-- The body of the loop over the step counts; `prev` is the row before. -/
def rowOf (impliedVolatility : K) (prev : Option (TreeStepDiagnostic K)) (quote : TreeQuote K) :
    TreeStepDiagnostic K :=
  match prev with
  | none => { quote with }
  | some prev => { quote with
      priceChange := some |quote.price - prev.price|
      deltaChange := some |quote.delta - prev.delta|
      gammaChange := some |quote.gamma - prev.gamma|
      ivChangeProxy := some (ivChange impliedVolatility prev.toTreeQuote quote) }

def diagnose (impliedVolatility : K) (prev : Option (TreeStepDiagnostic K)) :
    List (TreeQuote K) → List (TreeStepDiagnostic K)
  | [] => []
  | quote :: rest =>
    let row := rowOf impliedVolatility prev quote
    row :: diagnose impliedVolatility (some row) rest

/-- `change or float("inf")`. -/
def orInf (change : Option K) : WithTop K :=
  match change with
  | some change => if change = 0 then ⊤ else change
  | none => ⊤

def accepted (config : TreeStepConfig K) (row : TreeStepDiagnostic K) : Bool :=
  decide (orInf row.priceChange ≤ config.treePriceConvergenceThreshold) &&
    decide (orInf row.ivChangeProxy ≤ config.treeIvConvergenceThreshold) &&
      decide (max (row.deltaChange.getD 0) (row.gammaChange.getD 0) ≤
        config.treeGreekStabilityThreshold)

/-- `evaluate`. -/
def evaluate (request : PricingRequest K) (impliedVolatility : K) (config : TreeStepConfig K) :
    Except Exc (TreeStepPolicyResult K) := do
  let quotes ← (stepCounts config request).mapM (priceAndGreeks price request impliedVolatility)
  let diagnostics := diagnose impliedVolatility none quotes
  match diagnostics.getLast? with
  | none => .error ⟨.other "IndexError", "list index out of range"⟩
  | some last =>
    let found := diagnostics.tail.find? (accepted config)
    return {
      selectedTreeSteps := (found.getD last).treeSteps
      converged := found.isSome
      diagnostics
      warnings := if found.isSome then [] else
        ["tree resolution did not converge within configured escalation bounds"] }

/-! ### Stable rows -/

/-- A row and the one before differ by no more than the thresholds. -/
def Stable (config : TreeStepConfig K) (impliedVolatility : K) (prev quote : TreeQuote K) : Prop :=
  |quote.price - prev.price| ≤ config.treePriceConvergenceThreshold ∧
    ivChange impliedVolatility prev quote ≤ config.treeIvConvergenceThreshold ∧
    |quote.delta - prev.delta| ≤ config.treeGreekStabilityThreshold ∧
    |quote.gamma - prev.gamma| ≤ config.treeGreekStabilityThreshold

instance (config : TreeStepConfig K) (impliedVolatility : K) (prev quote : TreeQuote K) :
    Decidable (Stable config impliedVolatility prev quote) :=
  inferInstanceAs (Decidable (_ ∧ _ ∧ _ ∧ _))

/-- The first row that is stable against the one before. -/
def firstStable (config : TreeStepConfig K) (impliedVolatility : K) (quotes : List (TreeQuote K)) :
    Option (TreeQuote K) :=
  ((quotes.zip quotes.tail).find? fun pair =>
    Stable config impliedVolatility pair.1 pair.2).map Prod.snd

/-- The first that is stable and has another price. -/
def firstMoving (config : TreeStepConfig K) (impliedVolatility : K) (quotes : List (TreeQuote K)) :
    Option (TreeQuote K) :=
  ((quotes.zip quotes.tail).find? fun pair =>
    Stable config impliedVolatility pair.1 pair.2 ∧ pair.2.price ≠ pair.1.price).map Prod.snd

/-- The first stable row is selected, or else the last one. -/
structure SelectsFirst (config : TreeStepConfig K) (impliedVolatility : K)
    (quotes : List (TreeQuote K)) (result : TreeStepPolicyResult K) : Prop where
  evaluated : result.diagnostics.map (·.toTreeQuote) = quotes
  bounded : ∀ row ∈ result.diagnostics, row.treeSteps ≤ config.treeStepMax
  converged : result.converged = true ↔
    ∃ pair ∈ quotes.zip quotes.tail, Stable config impliedVolatility pair.1 pair.2
  selected : ((firstStable config impliedVolatility quotes).or quotes.getLast?).map (·.treeSteps) =
    some result.selectedTreeSteps

section Rows

variable {price : PricingRequest K → Except Exc K} {request : PricingRequest K}
  {impliedVolatility : K} {config : TreeStepConfig K} {quotes : List (TreeQuote K)}
  {quote : TreeQuote K} {prev : TreeStepDiagnostic K}

theorem orInf_le_iff {change threshold : K} :
    orInf (some change) ≤ (threshold : WithTop K) ↔ change ≠ 0 ∧ change ≤ threshold := by
  rw [orInf]
  split_ifs with hzero
  · exact iff_of_false (by simp) fun h => h.1 hzero
  · rw [WithTop.coe_le_coe, and_iff_right hzero]

omit [Field K] [LinearOrder K] in
theorem stepCounts_le {steps : Int} (h : steps ∈ stepCounts config request) :
    steps ≤ config.treeStepMax := by
  rw [stepCounts] at h
  split_ifs at h
  · rw [List.mem_singleton.mp h]
    exact min_le_right _ _
  · exact of_decide_eq_true (List.mem_filter.mp h).2

omit [Field K] [LinearOrder K] in
theorem stepCounts_ne_nil : stepCounts config request ≠ [] := by
  rw [stepCounts]
  split_ifs with hnil
  · exact List.cons_ne_nil _ _
  · exact hnil

theorem toTreeQuote_rowOf (before : Option (TreeStepDiagnostic K)) :
    (rowOf impliedVolatility before quote).toTreeQuote = quote := by
  cases before <;> rfl

theorem map_toTreeQuote_diagnose (before : Option (TreeStepDiagnostic K)) :
    (diagnose impliedVolatility before quotes).map (·.toTreeQuote) = quotes := by
  induction quotes generalizing before with
  | nil => rfl
  | cons quote rest ih =>
    rw [diagnose, List.map_cons, toTreeQuote_rowOf, ih]

theorem quotes_spec
    (hquotes : (stepCounts config request).mapM
      (priceAndGreeks price request impliedVolatility) = .ok quotes) :
    quotes ≠ [] ∧ ∀ quote ∈ quotes, quote.treeSteps ≤ config.treeStepMax := by
  have hsteps : quotes.map (·.treeSteps) = (stepCounts config request).map id := by
    refine map_eq_of_mapM_eq_ok hquotes fun steps quote hquote => ?_
    obtain ⟨_, -, hquote⟩ := except_bind_eq_ok.mp hquote
    obtain ⟨_, -, hquote⟩ := except_bind_eq_ok.mp hquote
    obtain ⟨_, -, hquote⟩ := except_bind_eq_ok.mp hquote
    cases hquote
    rfl
  rw [List.map_id] at hsteps
  constructor
  · rintro rfl
    exact stepCounts_ne_nil hsteps.symm
  · intro quote hquote
    exact stepCounts_le (hsteps ▸ List.mem_map_of_mem hquote)

variable [IsStrictOrderedRing K]

theorem ivChange_eq_zero_iff {first second : TreeQuote K} :
    ivChange impliedVolatility first second = 0 ↔ second.price = first.price := by
  have hpos : (0 : K) < max |vegaProxy second.price impliedVolatility| (1 / 100000000) :=
    lt_max_of_lt_right (by norm_num)
  rw [ivChange, div_eq_zero_iff, or_iff_left hpos.ne', abs_eq_zero, sub_eq_zero]

theorem accepted_rowOf_iff :
    accepted config (rowOf impliedVolatility (some prev) quote) = true ↔
      Stable config impliedVolatility prev.toTreeQuote quote ∧ quote.price ≠ prev.price := by
  simp only [accepted, rowOf, Bool.and_eq_true, decide_eq_true_eq, orInf_le_iff, Option.getD_some,
    max_le_iff, ne_eq, abs_eq_zero, sub_eq_zero, ivChange_eq_zero_iff, Stable]
  tauto

/-- A row is accepted where it is stable and its price has changed. -/
theorem find?_diagnose :
    ((diagnose impliedVolatility (some prev) quotes).find? (accepted config)).map (·.toTreeQuote) =
      firstMoving config impliedVolatility (prev.toTreeQuote :: quotes) := by
  induction quotes generalizing prev with
  | nil => rfl
  | cons quote rest ih =>
    unfold firstMoving at ih ⊢
    rw [diagnose, List.find?_cons, List.tail_cons, List.zip_cons_cons, List.find?_cons]
    by_cases hmoving : Stable config impliedVolatility prev.toTreeQuote quote ∧
        quote.price ≠ prev.price
    · rw [accepted_rowOf_iff.mpr hmoving, decide_eq_true hmoving]
      exact congrArg some (toTreeQuote_rowOf _)
    · rw [Bool.eq_false_iff.mpr (mt accepted_rowOf_iff.mp hmoving), decide_eq_false hmoving]
      have hrest := @ih (rowOf impliedVolatility (some prev) quote)
      rwa [toTreeQuote_rowOf] at hrest

theorem map_eq_map_iff_or {α β : Type} {f : α → β} {first second : Option α} (last : Option α) :
    first.map f = second.map f ↔ (first.isSome ↔ second.isSome) ∧
      (first.or last).map f = (second.or last).map f := by
  cases first <;> cases second <;> simp

/-- An evaluation whose requests are all priced returns; what it selects is the first stable row
whose price has changed. -/
theorem evaluate_eq_ok
    (hquotes : (stepCounts config request).mapM
      (priceAndGreeks price request impliedVolatility) = .ok quotes) :
    ∃ result, evaluate price request impliedVolatility config = .ok result ∧
      result.diagnostics.map (·.toTreeQuote) = quotes ∧
      result.converged = (firstMoving config impliedVolatility quotes).isSome ∧
      ((firstMoving config impliedVolatility quotes).or quotes.getLast?).map (·.treeSteps) =
        some result.selectedTreeSteps := by
  obtain ⟨hne, -⟩ := quotes_spec hquotes
  have hrows := @map_toTreeQuote_diagnose _ _ _ impliedVolatility quotes none
  have hfound : ((diagnose impliedVolatility none quotes).tail.find? (accepted config)).map
      (·.toTreeQuote) = firstMoving config impliedVolatility quotes := by
    cases quotes with
    | nil => exact absurd rfl hne
    | cons quote rest => exact find?_diagnose
  have hlast : (diagnose impliedVolatility none quotes).getLast?.map (·.toTreeQuote) =
      quotes.getLast? := by
    rw [← List.getLast?_map, hrows]
  obtain ⟨last, hsome⟩ : ∃ last, (diagnose impliedVolatility none quotes).getLast? = some last := by
    refine Option.isSome_iff_exists.mp (List.getLast?_isSome.mpr fun hnil => hne ?_)
    rw [← hrows, hnil, List.map_nil]
  rw [evaluate, hquotes, except_ok_bind]
  simp only [hsome]
  refine ⟨_, rfl, hrows, ?_, ?_⟩
  · rw [← hfound, Option.isSome_map]
  · rw [← hfound, ← hlast, hsome]
    cases (diagnose impliedVolatility none quotes).tail.find? (accepted config) <;> rfl

/-- The rows whose price has not changed are never accepted. -/
theorem evaluate_selectsFirst_iff
    (hquotes : (stepCounts config request).mapM
      (priceAndGreeks price request impliedVolatility) = .ok quotes) :
    (∃ result, evaluate price request impliedVolatility config = .ok result ∧
        SelectsFirst config impliedVolatility quotes result) ↔
      (firstStable config impliedVolatility quotes).map (·.treeSteps) =
        (firstMoving config impliedVolatility quotes).map (·.treeSteps) := by
  obtain ⟨result, hresult, hevaluated, hconverged, hselected⟩ := evaluate_eq_ok hquotes
  obtain ⟨-, hbounded⟩ := quotes_spec hquotes
  have hstable : (firstStable config impliedVolatility quotes).isSome ↔
      ∃ pair ∈ quotes.zip quotes.tail, Stable config impliedVolatility pair.1 pair.2 := by
    rw [firstStable, Option.isSome_map, List.find?_isSome]
    simp only [decide_eq_true_eq]
  have hiff : (∃ result, evaluate price request impliedVolatility config = .ok result ∧
      SelectsFirst config impliedVolatility quotes result) ↔
        SelectsFirst config impliedVolatility quotes result := by
    rw [hresult]
    constructor
    · rintro ⟨other, hother, h⟩
      rwa [Except.ok.inj hother]
    · exact fun h => ⟨result, rfl, h⟩
  rw [hiff, map_eq_map_iff_or quotes.getLast?]
  constructor
  · intro h
    exact ⟨by rw [hstable, ← h.converged, hconverged], h.selected.trans hselected.symm⟩
  · rintro ⟨hsome, hsteps⟩
    refine ⟨hevaluated, fun row hrow => ?_, by rw [hconverged, ← hsome, hstable],
      hsteps.trans hselected⟩
    exact hbounded row.toTreeQuote (hevaluated ▸ List.mem_map_of_mem hrow)

end Rows

/-- A call in the money. -/
def callInMoney : PricingRequest ℚ where
  spot := 100
  strike := 90
  expiry := ⟨738200, by decide, by decide⟩
  volatility := 1 / 4
  riskFreeRate := 0
  dividendYield := 0
  optionType := .call
  exerciseStyle := .american
  multiplier := 100
  valuationDate := ⟨738000, by decide, by decide⟩
  treeSteps := 200

def defaultConfig : TreeStepConfig ℚ where
  treePriceConvergenceThreshold := 1 / 1000
  treeIvConvergenceThreshold := 1 / 10000
  treeGreekStabilityThreshold := 1 / 200

/-- A price that comes closer to the intrinsic value with more steps. -/
def settlingPrice (request : PricingRequest ℚ) : Except Exc ℚ :=
  .ok (max (request.spot - request.strike) 0 + 1 / request.treeSteps ^ 2)

def settlingQuotes : List (TreeQuote ℚ) :=
  [200, 400, 800, 1600].map fun steps => ⟨steps, 10 + 1 / steps ^ 2, 1, 0⟩

theorem evaluate_selectsFirst_iff_settling :
    ∃ result, evaluate settlingPrice callInMoney (1 / 4) defaultConfig = .ok result ∧
      SelectsFirst defaultConfig (1 / 4) settlingQuotes result :=
  (evaluate_selectsFirst_iff (by decide +kernel)).mpr (by decide +kernel)

/-- The intrinsic value, whatever the steps. -/
def intrinsicPrice (request : PricingRequest ℚ) : Except Exc ℚ :=
  .ok (max (request.spot - request.strike) 0)

def intrinsicQuotes : List (TreeQuote ℚ) := [200, 400, 800, 1600].map fun steps => ⟨steps, 10, 1, 0⟩

/-- A price that never changes does not converge. -/
theorem constant_price_unconverged :
    (stepCounts defaultConfig callInMoney).mapM
          (priceAndGreeks intrinsicPrice callInMoney (1 / 4)) =
        .ok intrinsicQuotes ∧
      ¬ ∃ result, evaluate intrinsicPrice callInMoney (1 / 4) defaultConfig = .ok result ∧
        SelectsFirst defaultConfig (1 / 4) intrinsicQuotes result := by
  refine ⟨by decide +kernel, ?_⟩
  rintro ⟨result, hrun, h⟩
  have hunconverged : (evaluate intrinsicPrice callInMoney (1 / 4) defaultConfig).toOption.map
      (·.converged) = some false := by decide +kernel
  have hconverged : result.converged = true := h.converged.mpr (by decide +kernel)
  rw [hrun, Except.toOption, Option.map_some, hconverged] at hunconverged
  exact absurd hunconverged (by decide)

end TreeResolutionPolicy
end OptionResearch
