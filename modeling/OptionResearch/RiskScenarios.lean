import Mathlib.Algebra.BigOperators.Ring.List
import Mathlib.Tactic.Linarith
import Mathlib.Tactic.NormNum
import Mathlib.Tactic.Ring
import OptionResearch.InsertionDict
import OptionResearch.PartialEffects
import OptionResearch.PythonValues
import OptionResearch.StableSort

/-!
# Risk scenarios

`DeterministicRiskScenarioEngine` of `portfolio/risk_lab.py`. An instrument's margin moves with the
change of the market's margin level, the margin of its strategy with the level itself.
-/

namespace OptionResearch

inductive RiskShockType where
  | absolute
  | percentage
  | relative
  | stdDev
  | percentile
  | curveShift
  | curveTwist
  | nodeSpecific
  | regimeTransition
  | deterministicTransform
  deriving DecidableEq, Repr

structure RiskShock where
  factorId : String
  shockType : RiskShockType
  magnitude : ℚ
  ordering : Int

structure RiskScenarioDefinition where
  shocks : List RiskShock

structure Greeks where
  delta : ℚ
  gamma : ℚ
  theta : ℚ
  vega : ℚ
  rho : ℚ
  deriving DecidableEq

structure RiskInstrumentSnapshot where
  instrumentId : String
  value : ℚ
  greeks : Greeks
  marginRequirement : ℚ
  exerciseStyle : String
  pricingModel : String

structure RiskStrategySnapshot where
  strategyId : String
  instruments : List RiskInstrumentSnapshot

structure ScenarioDiagnostics where
  status : String
  shockedMargin : ℚ

structure InstrumentScenarioResult where
  instrumentId : String
  originalValue : ℚ
  shockedValue : ℚ
  valueChange : ℚ
  originalGreeks : Greeks
  shockedGreeks : Greeks
  modelUsed : String
  convergenceDiagnostics : ScenarioDiagnostics
  qualityWarnings : List String

structure StrategyScenarioResult where
  strategyId : String
  instrumentResults : List InstrumentScenarioResult
  pnlImpact : ℚ
  greeksImpact : Greeks
  marginImpact : ℚ
  buyingPowerImpact : ℚ
  assignmentRiskChange : ℚ
  exerciseRiskChange : ℚ
  dividendRiskChange : ℚ
  liquidityImpact : ℚ
  managementPolicyTriggers : List String
  rollEligibilityChanges : List String
  netDelta : ℚ

/-- A market state. -/
abbrev MarketState := InsertionDict String ℚ

/-- `market.get(factor, 0.0)`. -/
def MarketState.level (market : MarketState) (factor : String) : ℚ := (market.get? factor).getD 0

namespace RiskShock

def apply (stdDevProxy : ℚ) (shock : RiskShock) (current : ℚ) : ℚ :=
  match shock.shockType with
  | .percentage | .relative => current * (1 + shock.magnitude)
  | .stdDev => current + shock.magnitude * stdDevProxy
  | .absolute | .curveShift | .curveTwist | .nodeSpecific => current + shock.magnitude
  | .regimeTransition | .deterministicTransform => shock.magnitude
  | .percentile => current

end RiskShock

namespace DeterministicRiskScenarioEngine

variable (stdDevProxy : ℚ)

/-- `apply_market_shocks`. A percentile shock writes the level that the factor has. -/
def applyMarketShocks (marketState : MarketState) (scenario : RiskScenarioDefinition) :
    MarketState :=
  (StableSort.sortBy (·.ordering) scenario.shocks).foldl
    (fun out shock => out.set shock.factorId (shock.apply stdDevProxy (out.level shock.factorId)))
    marketState

-- `str.lower`
variable (lower : String → String)

/-- A combination that `reprice_instrument` turns down. -/
def SilentlyPriced (instrument : RiskInstrumentSnapshot) : Prop :=
  lower instrument.exerciseStyle = "american" ∧ lower instrument.pricingModel = "black_scholes"

instance (instrument : RiskInstrumentSnapshot) : Decidable (SilentlyPriced lower instrument) :=
  inferInstanceAs (Decidable (_ ∧ _))

/-- The change of a factor's level. -/
def moved (marketBefore marketAfter : MarketState) (factor : String) : ℚ :=
  marketAfter.level factor - marketBefore.level factor

section Instrument

variable (instrument : RiskInstrumentSnapshot) (marketBefore marketAfter : MarketState)

def shockedValue : ℚ :=
  let moved := moved marketBefore marketAfter
  let greeks := instrument.greeks
  let linear := greeks.delta * moved "underlying_spot" + greeks.vega * moved "implied_volatility" +
    greeks.rho * moved "interest_rates"
  let convex := 1 / 2 * greeks.gamma * moved "underlying_spot" ^ 2
  let decay := greeks.theta * moved "time_passage"
  instrument.value + linear + convex + decay

def shockedMargin : ℚ :=
  max (instrument.marginRequirement * (1 + moved marketBefore marketAfter "margin_requirement")) 0

def shockedGreeks : Greeks where
  delta := instrument.greeks.delta * (1 + moved marketBefore marketAfter "underlying_spot")
  gamma := instrument.greeks.gamma
  theta := instrument.greeks.theta
  vega := instrument.greeks.vega * (1 + moved marketBefore marketAfter "implied_volatility")
  rho := instrument.greeks.rho * (1 + moved marketBefore marketAfter "interest_rates")

def qualityWarnings : List String :=
  (if lower instrument.exerciseStyle = "american" ∧ lower instrument.pricingModel = "black_76" then
    ["american option repriced with configured american-compatible fallback"] else []) ++
  (if (marketAfter.get? "liquidity").getD 1 < 3 / 10 then
    ["liquidity support is weak for this scenario"] else [])

/-- What `reprice_instrument` returns where it does not raise. -/
def repriced : InstrumentScenarioResult where
  instrumentId := instrument.instrumentId
  originalValue := instrument.value
  shockedValue := shockedValue instrument marketBefore marketAfter
  valueChange := shockedValue instrument marketBefore marketAfter - instrument.value
  originalGreeks := instrument.greeks
  shockedGreeks := shockedGreeks instrument marketBefore marketAfter
  modelUsed := instrument.pricingModel
  convergenceDiagnostics :=
    { status := "deterministic"
      shockedMargin := shockedMargin instrument marketBefore marketAfter }
  qualityWarnings := qualityWarnings lower instrument marketAfter

/-- `reprice_instrument`. -/
def repriceInstrument : Except Exc InstrumentScenarioResult :=
  if SilentlyPriced lower instrument then
    .error ⟨.valueError, "american options cannot be silently priced with black-scholes"⟩
  else .ok (repriced lower instrument marketBefore marketAfter)

end Instrument

/-- What the shocks add to a Greek of the instruments. -/
def greekImpact (results : List InstrumentScenarioResult) (greek : Greeks → ℚ) : ℚ :=
  (results.map fun item => greek item.shockedGreeks - greek item.originalGreeks).sum

/-- What `run_strategy` reports of its instruments' results. -/
def strategyResult (strategy : RiskStrategySnapshot) (marketBefore marketAfter : MarketState)
    (instrumentResults : List InstrumentScenarioResult) : StrategyScenarioResult :=
  let marginBefore := (strategy.instruments.map (·.marginRequirement)).sum
  let marginAfter := marginBefore * (1 + marketAfter.level "margin_requirement")
  { strategyId := strategy.strategyId
    instrumentResults
    pnlImpact := (instrumentResults.map (·.valueChange)).sum
    greeksImpact :=
      { delta := greekImpact instrumentResults (·.delta)
        gamma := greekImpact instrumentResults (·.gamma)
        theta := greekImpact instrumentResults (·.theta)
        vega := greekImpact instrumentResults (·.vega)
        rho := greekImpact instrumentResults (·.rho) }
    marginImpact := marginAfter - marginBefore
    buyingPowerImpact := -(marginAfter - marginBefore)
    assignmentRiskChange := max (marketAfter.level "underlying_spot") 0 * (1 / 100)
    exerciseRiskChange := max (marketAfter.level "time_passage") 0 * (1 / 100)
    dividendRiskChange := |moved marketBefore marketAfter "dividend_yield"|
    liquidityImpact := moved marketBefore marketAfter "liquidity"
    managementPolicyTriggers := ["risk_recheck"]
    rollEligibilityChanges := ["recompute_roll_eligibility"]
    netDelta := (instrumentResults.map (·.shockedGreeks.delta)).sum }

/-- What is reported where no instrument is turned down. -/
def shocked (strategy : RiskStrategySnapshot) (marketBefore marketAfter : MarketState) :
    StrategyScenarioResult :=
  strategyResult strategy marketBefore marketAfter
    (strategy.instruments.map fun item => repriced lower item marketBefore marketAfter)

/-- `run_strategy`. -/
def runStrategy (strategy : RiskStrategySnapshot) (scenario : RiskScenarioDefinition)
    (marketBefore : MarketState) : Except Exc StrategyScenarioResult := do
  let marketAfter := applyMarketShocks stdDevProxy marketBefore scenario
  let instrumentResults ← strategy.instruments.mapM fun item =>
    repriceInstrument lower item marketBefore marketAfter
  return strategyResult strategy marketBefore marketAfter instrumentResults

/-! ### Instruments and their strategy -/

/-- Nothing has changed. -/
structure Unchanged (result : StrategyScenarioResult) : Prop where
  pnl : result.pnlImpact = 0
  greeks : result.greeksImpact = ⟨0, 0, 0, 0, 0⟩
  margin : result.marginImpact = 0
  assignment : result.assignmentRiskChange = 0
  exercise : result.exerciseRiskChange = 0
  dividend : result.dividendRiskChange = 0
  liquidity : result.liquidityImpact = 0

/-- The margin of the strategy moves as the margins of its instruments do, and a scenario without
shocks changes nothing. -/
structure Consistent (strategy : RiskStrategySnapshot) (scenario : RiskScenarioDefinition)
    (result : StrategyScenarioResult) : Prop where
  margin : result.marginImpact =
    (result.instrumentResults.map (·.convergenceDiagnostics.shockedMargin)).sum -
      (strategy.instruments.map (·.marginRequirement)).sum
  neutral : scenario.shocks = [] → Unchanged result

variable {stdDevProxy : ℚ} {lower : String → String} {strategy : RiskStrategySnapshot}
  {scenario : RiskScenarioDefinition} {market marketAfter : MarketState}
  {result : StrategyScenarioResult} {instrument : RiskInstrumentSnapshot}

theorem repriceInstrument_eq_ok_iff {report : InstrumentScenarioResult} :
    repriceInstrument lower instrument market marketAfter = .ok report ↔
      ¬ SilentlyPriced lower instrument ∧
        report = repriced lower instrument market marketAfter := by
  rw [repriceInstrument]
  split_ifs with hpriced
  · exact iff_of_false (fun h => nomatch h) (fun h => h.1 hpriced)
  · rw [Except.ok.injEq]
    exact ⟨fun h => ⟨hpriced, h.symm⟩, fun h => h.2.symm⟩

/-- A strategy is run unless it has an instrument that is turned down. -/
theorem runStrategy_eq_ok_iff :
    runStrategy stdDevProxy lower strategy scenario market = .ok result ↔
      (∀ item ∈ strategy.instruments, ¬ SilentlyPriced lower item) ∧
        result = shocked lower strategy market (applyMarketShocks stdDevProxy market scenario) := by
  constructor
  · intro hrun
    obtain ⟨results, hresults, hrun⟩ := except_bind_eq_ok.mp hrun
    cases hrun
    refine ⟨fun item hitem => ?_, ?_⟩
    · obtain ⟨report, -, hreport⟩ := (mapM_eq_ok_mem hresults).1 item hitem
      exact (repriceInstrument_eq_ok_iff.mp hreport).1
    · have hmap := map_eq_of_mapM_eq_ok (g := id) hresults fun item report hreport =>
        (repriceInstrument_eq_ok_iff.mp hreport).2
      rw [shocked, ← hmap, List.map_id]
  · rintro ⟨hpriced, rfl⟩
    refine except_bind_eq_ok.mpr ⟨_, mapM_eq_ok_map fun item hitem => ?_, rfl⟩
    exact repriceInstrument_eq_ok_iff.mpr ⟨hpriced item hitem, rfl⟩

@[simp] theorem moved_self (factor : String) : moved market market factor = 0 := sub_self _

theorem applyMarketShocks_nil (h : scenario.shocks = []) :
    applyMarketShocks stdDevProxy market scenario = market := by
  rw [applyMarketShocks, h]
  rfl

/-- The margins of the instruments move with the change of the level. -/
theorem sum_shockedMargin (hmargins : ∀ item ∈ strategy.instruments, 0 ≤ item.marginRequirement)
    (hlevel : market.level "margin_requirement" - 1 ≤ marketAfter.level "margin_requirement") :
    (strategy.instruments.map fun item => shockedMargin item market marketAfter).sum =
      (strategy.instruments.map (·.marginRequirement)).sum *
        (1 + moved market marketAfter "margin_requirement") := by
  rw [← List.sum_map_mul_right]
  refine congrArg List.sum (List.map_congr_left fun item hitem => max_eq_left ?_)
  refine mul_nonneg (hmargins item hitem) ?_
  rw [moved]
  linarith

theorem repriced_unchanged :
    (repriced lower instrument market market).valueChange = 0 ∧
      (repriced lower instrument market market).shockedGreeks =
        (repriced lower instrument market market).originalGreeks := by
  constructor
  · simp only [repriced, shockedValue, moved_self]
    ring
  · simp only [repriced, shockedGreeks, moved_self, add_zero, mul_one]

theorem max_zero_mul_eq_zero_iff (x : ℚ) : max x 0 * (1 / 100) = 0 ↔ x ≤ 0 := by
  rw [mul_eq_zero, or_iff_left (by norm_num), max_eq_right_iff]

/-- What a strategy reports where the market stays as it is. -/
theorem shocked_unchanged_iff :
    Unchanged (shocked lower strategy market market) ↔
      ((strategy.instruments.map (·.marginRequirement)).sum = 0 ∨
        market.level "margin_requirement" = 0) ∧
      market.level "underlying_spot" ≤ 0 ∧ market.level "time_passage" ≤ 0 := by
  have hmargin : (shocked lower strategy market market).marginImpact =
      (strategy.instruments.map (·.marginRequirement)).sum * market.level "margin_requirement" := by
    simp only [shocked, strategyResult]
    ring
  constructor
  · intro h
    exact ⟨mul_eq_zero.mp (hmargin ▸ h.margin), (max_zero_mul_eq_zero_iff _).mp h.assignment,
      (max_zero_mul_eq_zero_iff _).mp h.exercise⟩
  · rintro ⟨hzero, hspot, htime⟩
    have hgreek : ∀ greek : Greeks → ℚ, greekImpact (strategy.instruments.map fun item =>
        repriced lower item market market) greek = 0 := by
      intro greek
      refine List.sum_eq_zero fun figure hfigure => ?_
      rw [List.map_map] at hfigure
      obtain ⟨item, -, rfl⟩ := List.mem_map.mp hfigure
      simp only [Function.comp_apply, repriced_unchanged.2, sub_self]
    exact {
      pnl := by
        refine List.sum_eq_zero fun figure hfigure => ?_
        rw [List.map_map] at hfigure
        obtain ⟨item, -, rfl⟩ := List.mem_map.mp hfigure
        exact repriced_unchanged.1
      greeks := by simp only [shocked, strategyResult, hgreek]
      margin := hmargin.trans (mul_eq_zero.mpr hzero)
      assignment := (max_zero_mul_eq_zero_iff _).mpr hspot
      exercise := (max_zero_mul_eq_zero_iff _).mpr htime
      dividend := by simp only [shocked, strategyResult, moved_self, abs_zero]
      liquidity := moved_self _ }

theorem marginImpact_agrees_iff
    (hmargins : ∀ item ∈ strategy.instruments, 0 ≤ item.marginRequirement)
    (hlevel : market.level "margin_requirement" - 1 ≤ marketAfter.level "margin_requirement") :
    (shocked lower strategy market marketAfter).marginImpact =
        ((shocked lower strategy market marketAfter).instrumentResults.map
          (·.convergenceDiagnostics.shockedMargin)).sum -
            (strategy.instruments.map (·.marginRequirement)).sum ↔
      (strategy.instruments.map (·.marginRequirement)).sum = 0 ∨
        market.level "margin_requirement" = 0 := by
  have hsum := sum_shockedMargin hmargins hlevel
  simp only [shocked, strategyResult, List.map_map, Function.comp_def, repriced, hsum, moved]
  rw [← mul_eq_zero, ← sub_eq_zero]
  ring_nf

/-- The claim fails wherever there is margin in a market that has a margin level, and without shocks
also where there is a spot price or time has passed. -/
theorem runStrategy_consistent_iff
    (hmargins : ∀ item ∈ strategy.instruments, 0 ≤ item.marginRequirement)
    (hlevel : market.level "margin_requirement" - 1 ≤
      (applyMarketShocks stdDevProxy market scenario).level "margin_requirement")
    (hrun : runStrategy stdDevProxy lower strategy scenario market = .ok result) :
    Consistent strategy scenario result ↔
      ((strategy.instruments.map (·.marginRequirement)).sum = 0 ∨
        market.level "margin_requirement" = 0) ∧
      (scenario.shocks = [] →
        market.level "underlying_spot" ≤ 0 ∧ market.level "time_passage" ≤ 0) := by
  obtain ⟨-, rfl⟩ := runStrategy_eq_ok_iff.mp hrun
  have hmargin := @marginImpact_agrees_iff lower _ _ _ hmargins hlevel
  constructor
  · intro h
    refine ⟨hmargin.mp h.margin, fun hnil => ?_⟩
    have hunchanged := h.neutral hnil
    rw [applyMarketShocks_nil hnil] at hunchanged
    exact (shocked_unchanged_iff.mp hunchanged).2
  · rintro ⟨hzero, hneutral⟩
    refine ⟨hmargin.mpr hzero, fun hnil => ?_⟩
    rw [applyMarketShocks_nil hnil]
    exact shocked_unchanged_iff.mpr ⟨hzero, hneutral hnil⟩

/-- One contract with a margin of 100. -/
def shortPut : RiskStrategySnapshot where
  strategyId := "put"
  instruments := [{
    instrumentId := "SPY-P", value := -3, greeks := ⟨1 / 4, 1 / 100, 1 / 50, 1 / 5, 0⟩
    marginRequirement := 100, exerciseStyle := "european", pricingModel := "black_scholes" }]

def marginMarket (level : ℚ) : MarketState := .ofEntries [("margin_requirement", level)]

def marginShock (magnitude : ℚ) : RiskScenarioDefinition where
  shocks := [⟨"margin_requirement", .absolute, magnitude, 1⟩]

/-- Where the market has no margin level yet, the strategy moves as its instrument. -/
theorem runStrategy_consistent_iff_shortPut :
    ∃ result, runStrategy (1 / 10) String.toLower shortPut (marginShock (3 / 10)) (marginMarket 0) =
        .ok result ∧ Consistent shortPut (marginShock (3 / 10)) result := by
  obtain ⟨result, hrun⟩ : ∃ result,
      runStrategy (1 / 10) String.toLower shortPut (marginShock (3 / 10)) (marginMarket 0) =
        .ok result := ⟨_, runStrategy_eq_ok_iff.mpr ⟨by decide +kernel, rfl⟩⟩
  refine ⟨result, hrun,
    (runStrategy_consistent_iff (by decide +kernel) (by decide +kernel) hrun).mpr
      ⟨.inr (by decide +kernel), fun hnil => ?_⟩⟩
  cases hnil

/-- A market whose margin level stays at a half is said to change the margin. -/
theorem unshocked_margin_moves :
    ∃ result, runStrategy (1 / 10) String.toLower shortPut ⟨[]⟩ (marginMarket (1 / 2)) =
        .ok result ∧ result.marginImpact = 50 ∧ ¬ Consistent shortPut ⟨[]⟩ result := by
  obtain ⟨result, hrun⟩ : ∃ result,
      runStrategy (1 / 10) String.toLower shortPut ⟨[]⟩ (marginMarket (1 / 2)) = .ok result :=
    ⟨_, runStrategy_eq_ok_iff.mpr ⟨by decide +kernel, rfl⟩⟩
  have hmargin : result.marginImpact = 50 := by
    rw [(runStrategy_eq_ok_iff.mp hrun).2]
    decide +kernel
  refine ⟨result, hrun, hmargin, fun h => ?_⟩
  rw [(h.neutral rfl).margin] at hmargin
  exact absurd hmargin (by decide)

end DeterministicRiskScenarioEngine
end OptionResearch
