import OptionResearch.PartitionedSums
import OptionResearch.PortfolioConstraints

/-!
# Concentration limits

`ExposureAggregator.aggregate_portfolio_exposure` of `exposures.py` adds up the weights of the
allocations by symbol, by sector and by family. The limits on these weights are compared with the
weight of one allocation at a time.
-/

namespace OptionResearch.Portfolio

/-- What `aggregate_portfolio_exposure` returns. -/
structure PortfolioExposure where
  totals : List (String × ℚ)
  categories : List (String × InsertionDict String ℚ)

namespace ExposureAggregator

open PortfolioConstraintEngine (weighted)

/-- The weights of the positions, by a field of their exposures. -/
def bucketsOf (field : CandidateExposure → String) (positions : List Position) :
    InsertionDict String ℚ :=
  .totalsBy (fun position => field position.1.exposure) (·.2.weight) positions

def totalsOf (positions : List Position) : List (String × ℚ) :=
  [("delta", weighted (·.exposure.delta) positions),
    ("gamma", weighted (·.exposure.gamma) positions),
    ("theta", weighted (·.exposure.theta) positions),
    ("vega", weighted (·.exposure.vega) positions),
    ("rho", weighted (·.exposure.rho) positions),
    ("vanna", weighted (·.exposure.vanna.getD 0) positions),
    ("charm", weighted (·.exposure.charm.getD 0) positions),
    ("event_exposure", weighted (·.exposure.eventExposure) positions),
    ("earnings_exposure", weighted (·.exposure.earningsExposure) positions),
    ("capital_requirement", weighted (·.exposure.capitalRequirement) positions),
    ("expected_shortfall", weighted (·.exposure.expectedShortfall) positions),
    ("maximum_drawdown", weighted (·.exposure.maximumDrawdown) positions),
    ("liquidity_score", weighted (·.exposure.liquidityScore) positions),
    ("model_risk_score", weighted (·.exposure.modelRiskScore) positions)]

def categoriesOf (positions : List Position) : List (String × InsertionDict String ℚ) :=
  [("symbol", bucketsOf (·.symbol) positions),
    ("sector", bucketsOf (·.sector) positions),
    ("strategy_family", bucketsOf (·.strategyFamily) positions),
    ("expiration_bucket", bucketsOf (·.expirationBucket) positions),
    ("volatility_regime", bucketsOf (·.volatilityRegime) positions),
    ("term_structure_regime", bucketsOf (·.termStructureRegime) positions)]

def aggregatePortfolioExposure (candidates : List CandidateInput)
    (allocations : List PortfolioAllocation) : Except Exc PortfolioExposure := do
  let positions ← positionsOf candidates allocations
  return ⟨totalsOf positions, categoriesOf positions⟩

end ExposureAggregator

/-! ### The weights of the groups -/

/-- What a concentration limit groups the allocations by. -/
inductive Grouping where
  | symbol
  | sector
  | family
  deriving DecidableEq, Repr

namespace Grouping

def metricKey : Grouping → String
  | .symbol => "portfolio_symbol_weight"
  | .sector => "portfolio_sector_weight"
  | .family => "portfolio_family_weight"

def category : Grouping → String
  | .symbol => "symbol"
  | .sector => "sector"
  | .family => "strategy_family"

def field : Grouping → CandidateExposure → String
  | .symbol => (·.symbol)
  | .sector => (·.sector)
  | .family => (·.strategyFamily)

/-- `exposure["categories"][category].get(group)`. -/
def weightIn (grouping : Grouping) (exposure : PortfolioExposure) (group : String) : Option ℚ := do
  let bucket ← exposure.categories.lookup grouping.category
  bucket.get? group

/-- The weight of the allocations of the candidates of a group. -/
def groupWeight (grouping : Grouping) (candidates : List CandidateInput)
    (allocations : List PortfolioAllocation) (group : String) : ℚ :=
  ((allocations.filter fun allocation => ((byId candidates).get? allocation.candidateId).any
    fun candidate => grouping.field candidate.exposure = group).map (·.weight)).sum

end Grouping

variable {text : PyText} {candidates : List CandidateInput}
  {allocations : List PortfolioAllocation} {positions : List Position} {grouping : Grouping}
  {constraint : ConstraintDefinition}

open ExposureAggregator

theorem lookup_categoriesOf (grouping : Grouping) (positions : List Position) :
    (categoriesOf positions).lookup grouping.category =
      some (bucketsOf grouping.field positions) := by
  cases grouping <;> rfl

theorem totalOf_positions (hpositions : positionsOf candidates allocations = .ok positions)
    (group : String) :
    totalOf (fun position => grouping.field position.1.exposure) (fun position : Position =>
      position.2.weight) positions group = grouping.groupWeight candidates allocations group := by
  have hgroup : ∀ position ∈ positions,
      (decide (grouping.field position.1.exposure = group)) =
        ((byId candidates).get? position.2.candidateId).any
          fun candidate => grouping.field candidate.exposure = group := by
    intro position hposition
    obtain ⟨allocation, -, hof⟩ := (mapM_eq_ok_mem hpositions).2 position hposition
    obtain ⟨hfound, rfl⟩ := positionOf_eq_ok.mp hof
    rw [hfound, Option.any_some]
  rw [totalOf, List.filter_congr hgroup, Grouping.groupWeight,
    ← allocations_of_positions hpositions, List.filter_map, List.map_map]
  rfl

/-- The exposure of the portfolio has the weight of every group of an allocation. -/
theorem weightIn_aggregate (hpositions : positionsOf candidates allocations = .ok positions)
    (grouping : Grouping) (group : String) :
    grouping.weightIn ⟨totalsOf positions, categoriesOf positions⟩ group =
      if group ∈ positions.map fun position => grouping.field position.1.exposure
      then some (grouping.groupWeight candidates allocations group) else none := by
  rw [Grouping.weightIn, lookup_categoriesOf, ← totalOf_positions hpositions]
  exact InsertionDict.get?_totalsBy

/-- A group that no allocation is of has no weight. -/
theorem groupWeight_eq_zero (hpositions : positionsOf candidates allocations = .ok positions)
    {group : String} (h : group ∉ positions.map fun position =>
      grouping.field position.1.exposure) :
    grouping.groupWeight candidates allocations group = 0 := by
  rw [← totalOf_positions hpositions, totalOf_eq_zero h]

/-! ### What a limit reports -/

namespace PortfolioConstraintEngine

theorem observedOf_candidateMetrics_grouping (hkey : constraint.metricKey = grouping.metricKey)
    (position : Position) :
    observedOf (candidateMetrics position) constraint = position.2.weight := by
  rw [observedOf, hkey]
  cases grouping <;> rfl

/-- The portfolio has no weight of a group among its metrics. -/
theorem observedOf_portfolioMetrics_grouping (hkey : constraint.metricKey = grouping.metricKey)
    (positions : List Position) : observedOf (portfolioMetrics positions) constraint = 0 := by
  rw [observedOf, hkey]
  cases grouping <;> rfl

theorem isPrefixOf_grouping (hkey : constraint.metricKey = grouping.metricKey) :
    "portfolio_".toList.isPrefixOf constraint.metricKey.toList = true := by
  rw [hkey]
  cases grouping <;> decide

theorem filterMap_judge_eq_nil_iff (metrics : List (String × ℚ)) (candidateId : Option String) :
    [constraint].filterMap (judge text metrics candidateId) = [] ↔
      compare (observedOf metrics constraint) constraint.operator constraint.threshold = true := by
  rw [← List.map_eq_nil_iff (f := Prod.fst), map_fst_judge]
  split_ifs with hpassed
  · exact iff_of_true rfl hpassed
  · exact iff_of_false id hpassed

/-- A constraint reports nothing if every allocation passes it and so does the portfolio. -/
theorem failures_eq_nil_iff
    (hscan : "portfolio_".toList.isPrefixOf constraint.metricKey.toList = true) :
    failures text positions [constraint] = [] ↔
      (∀ position ∈ positions, compare (observedOf (candidateMetrics position) constraint)
        constraint.operator constraint.threshold = true) ∧
      compare (observedOf (portfolioMetrics positions) constraint) constraint.operator
        constraint.threshold = true := by
  rw [failures_singleton text positions hscan, List.append_eq_nil_iff, List.flatMap_eq_nil_iff,
    filterMap_judge_eq_nil_iff]
  simp only [filterMap_judge_eq_nil_iff]

theorem exists_reports_iff (hpositions : positionsOf candidates allocations = .ok positions) :
    (∃ reported, Reports text candidates allocations constraint reported ∧ reported ≠ []) ↔
      failures text positions [constraint] ≠ [] := by
  have hreports := reports_failures text hpositions constraint
  constructor
  · rintro ⟨reported, hreported, hsome⟩ hnone
    rw [hnone] at hreports
    exact hsome (hreported.perm hreports).eq_nil
  · intro hsome
    exact ⟨_, hreports, fun hnone => hsome (List.map_eq_nil_iff.mp hnone)⟩

/-- A limit is reported if it is negative or one allocation alone is over it. -/
theorem limit_reported_iff (hpositions : positionsOf candidates allocations = .ok positions)
    (hkey : constraint.metricKey = grouping.metricKey) (hoperator : constraint.operator = "<=") :
    (∃ reported, Reports text candidates allocations constraint reported ∧ reported ≠ []) ↔
      constraint.threshold < 0 ∨
        ∃ allocation ∈ allocations, constraint.threshold < allocation.weight := by
  have hcompare : ∀ observed : ℚ,
      compare observed constraint.operator constraint.threshold = true ↔
        observed ≤ constraint.threshold := by
    intro observed
    rw [hoperator]
    exact decide_eq_true_iff
  rw [exists_reports_iff hpositions, Ne, failures_eq_nil_iff (isPrefixOf_grouping hkey),
    observedOf_portfolioMetrics_grouping hkey, ← allocations_of_positions hpositions]
  simp only [observedOf_candidateMetrics_grouping hkey, hcompare, not_and_or, not_le, not_forall,
    List.mem_map, exists_exists_and_eq_and, exists_prop]
  exact or_comm

/-- A group whose weight in the exposure of the portfolio is over the limit is reported. -/
def LimitSeen (text : PyText) (grouping : Grouping) (candidates : List CandidateInput)
    (allocations : List PortfolioAllocation) (constraint : ConstraintDefinition) : Prop :=
  ∀ exposure, aggregatePortfolioExposure candidates allocations = .ok exposure →
    ∀ group weight, grouping.weightIn exposure group = some weight →
      constraint.threshold < weight →
        ∃ reported, Reports text candidates allocations constraint reported ∧ reported ≠ []

/-- A limit sees a group only if it is negative or one allocation alone is over it. -/
theorem limitSeen_iff (text : PyText) (grouping : Grouping) (candidates : List CandidateInput)
    (allocations : List PortfolioAllocation) (constraint : ConstraintDefinition)
    (hkey : constraint.metricKey = grouping.metricKey) (hoperator : constraint.operator = "<=") :
    LimitSeen text grouping candidates allocations constraint ↔
      (Listed candidates allocations →
        (∃ group, constraint.threshold < grouping.groupWeight candidates allocations group) →
          constraint.threshold < 0 ∨
            ∃ allocation ∈ allocations, constraint.threshold < allocation.weight) := by
  constructor
  · rintro hseen hlisted ⟨group, hover⟩
    obtain ⟨positions, hpositions⟩ := exists_positions_iff.mpr hlisted
    rcases lt_or_ge constraint.threshold 0 with hnegative | hlimit
    · exact .inl hnegative
    · have hgroup : group ∈ positions.map fun position => grouping.field position.1.exposure := by
        by_contra hnone
        rw [groupWeight_eq_zero hpositions hnone] at hover
        exact absurd hover hlimit.not_gt
      have hweight := weightIn_aggregate hpositions grouping group
      rw [if_pos hgroup] at hweight
      exact (limit_reported_iff hpositions hkey hoperator).mp
        (hseen _ (except_bind_eq_ok.mpr ⟨positions, hpositions, rfl⟩) group _ hweight hover)
  · rintro h exposure hexposure group weight hweight hover
    obtain ⟨positions, hpositions, hexposure⟩ := except_bind_eq_ok.mp hexposure
    obtain rfl := Except.ok.inj hexposure
    rw [weightIn_aggregate hpositions] at hweight
    split_ifs at hweight
    obtain rfl := Option.some.inj hweight
    exact (limit_reported_iff hpositions hkey hoperator).mpr
      (h (exists_positions_iff.mp ⟨positions, hpositions⟩) ⟨group, hover⟩)

open PositionSizer (unitCandidate)

def symbolLimit : ConstraintDefinition where
  name := "symbol"
  metricKey := "portfolio_symbol_weight"
  operator := "<="
  threshold := 1 / 2
  severity := .hard

theorem limitSeen_iff_single :
    LimitSeen plainText .symbol [unitCandidate "a" 1 1] [⟨"a", 3 / 5, 60, 1, 1⟩] symbolLimit :=
  (limitSeen_iff plainText .symbol [unitCandidate "a" 1 1] [⟨"a", 3 / 5, 60, 1, 1⟩] symbolLimit
    rfl rfl).mpr fun _ _ => .inr ⟨_, List.mem_cons_self, by decide +kernel⟩

/-- Two allocations of three tenths each, in one symbol, under a limit of one half. -/
theorem split_symbol_unseen : ¬ ∀ (text : PyText) (grouping : Grouping)
    (candidates : List CandidateInput) (allocations : List PortfolioAllocation)
    (constraint : ConstraintDefinition), constraint.metricKey = grouping.metricKey →
      constraint.operator = "<=" →
        LimitSeen text grouping candidates allocations constraint := by
  intro h
  have hpositions : positionsOf [unitCandidate "a" 1 1, unitCandidate "b" 1 1]
      [⟨"a", 3 / 10, 30, 1, 1⟩, ⟨"b", 3 / 10, 30, 1, 1⟩] =
        .ok [(unitCandidate "a" 1 1, ⟨"a", 3 / 10, 30, 1, 1⟩),
          (unitCandidate "b" 1 1, ⟨"b", 3 / 10, 30, 1, 1⟩)] := rfl
  have hseen := h plainText .symbol _ _ symbolLimit rfl rfl _
    (except_bind_eq_ok.mpr ⟨_, hpositions, rfl⟩) "SPY" (3 / 5) (by decide +kernel)
    (by decide +kernel)
  exact (exists_reports_iff hpositions).mp hseen (by decide +kernel)

end PortfolioConstraintEngine
end OptionResearch.Portfolio
