import OptionResearch.PartialEffects
import OptionResearch.PositionSizer
import Mathlib.Data.List.Perm.Basic

/-!
# Portfolio constraints

`PortfolioConstraintEngine.evaluate` of `constraints.py` compares the metrics of every allocation
and those of the portfolio with the constraints. What a constraint reports does not depend on the
other ones. A constraint on a metric of the portfolio is compared with every allocation too, which
has no such metric, and reads it there as zero.
-/

namespace OptionResearch.Portfolio

variable (text : PyText)

/-- A candidate with its allocation. -/
abbrev Position := CandidateInput × PortfolioAllocation

/-- `{item.candidate_id: item for item in candidates}`. -/
def byId (candidates : List CandidateInput) : InsertionDict String CandidateInput :=
  InsertionDict.ofEntries (candidates.map fun item => (item.candidateId, item))

/-- An allocation with its candidate, `by_id[allocation.candidate_id]`. -/
def positionOf (candidates : List CandidateInput) (allocation : PortfolioAllocation) :
    Except Exc Position :=
  match (byId candidates).get? allocation.candidateId with
  | some candidate => .ok (candidate, allocation)
  | none => .error ⟨.other "KeyError", s!"'{allocation.candidateId}'"⟩

def positionsOf (candidates : List CandidateInput) (allocations : List PortfolioAllocation) :
    Except Exc (List Position) :=
  allocations.mapM (positionOf candidates)

namespace PortfolioConstraintEngine

/-- `_compare`; an operator that is none of these passes nothing. -/
def compare (observed : ℚ) (operator : String) (threshold : ℚ) : Bool :=
  if operator = "<=" then observed ≤ threshold
  else if operator = "<" then observed < threshold
  else if operator = ">=" then threshold ≤ observed
  else if operator = ">" then threshold < observed
  else if operator = "==" then observed = threshold
  else false

/-- `_candidate_metrics`. -/
def candidateMetrics (position : Position) : List (String × ℚ) :=
  let (candidate, allocation) := position
  [("allocation_weight", allocation.weight),
    ("allocation_capital", allocation.capital),
    ("liquidity", candidate.exposure.liquidityScore),
    ("robustness_score", candidate.validation.robustnessScore),
    ("portfolio_symbol_weight", allocation.weight),
    ("portfolio_sector_weight", allocation.weight),
    ("portfolio_family_weight", allocation.weight),
    ("portfolio_cluster_weight", allocation.weight),
    ("delta", candidate.exposure.delta * allocation.weight),
    ("gamma", candidate.exposure.gamma * allocation.weight),
    ("vega", candidate.exposure.vega * allocation.weight),
    ("theta", candidate.exposure.theta * allocation.weight),
    ("expected_shortfall", candidate.stats.expectedShortfall * allocation.weight),
    ("maximum_drawdown", candidate.stats.maximumDrawdown * allocation.weight),
    ("capital_usage", candidate.exposure.capitalRequirement * allocation.weight),
    ("earnings_exposure", candidate.exposure.earningsExposure * allocation.weight),
    ("short_vol_exposure", max 0 (-candidate.exposure.vega) * allocation.weight),
    ("long_vol_exposure", max 0 candidate.exposure.vega * allocation.weight),
    ("term_structure_exposure", |candidate.exposure.eventExposure| * allocation.weight),
    ("event_concentration", candidate.exposure.eventExposure * allocation.weight),
    ("position_count", 1),
    ("contract_count", allocation.contracts)]

/-- What the positions come to in a figure, by weight. -/
def weighted (figure : CandidateInput → ℚ) (positions : List Position) : ℚ :=
  (positions.map fun position => figure position.1 * position.2.weight).sum

/-- `_portfolio_metrics`. -/
def portfolioMetrics (positions : List Position) : List (String × ℚ) :=
  [("portfolio_delta", weighted (·.exposure.delta) positions),
    ("portfolio_gamma", weighted (·.exposure.gamma) positions),
    ("portfolio_vega", weighted (·.exposure.vega) positions),
    ("portfolio_theta", weighted (·.exposure.theta) positions),
    ("portfolio_expected_shortfall", weighted (·.stats.expectedShortfall) positions),
    ("portfolio_maximum_drawdown", weighted (·.stats.maximumDrawdown) positions),
    ("portfolio_capital_usage", weighted (·.exposure.capitalRequirement) positions),
    ("portfolio_minimum_liquidity", weighted (·.exposure.liquidityScore) positions),
    ("portfolio_position_count", positions.length),
    ("portfolio_cash_reserve", max 0 (1 - (positions.map (·.2.weight)).sum))]

/-- `metrics.get(metric_key, 0.0)`. -/
def observedOf (metrics : List (String × ℚ)) (constraint : ConstraintDefinition) : ℚ :=
  (metrics.lookup constraint.metricKey).getD 0

def violation (constraint : ConstraintDefinition) (observed : ℚ) (candidateId : Option String) :
    ConstraintViolation where
  name := constraint.name
  severity := constraint.severity
  observed := observed
  threshold := constraint.threshold
  passed := false
  reason := s!"{constraint.metricKey} {constraint.operator} " ++
    text.str (.float constraint.threshold)
  candidateId := candidateId

/-- What a failure of a constraint adds to the penalty. -/
def charge (constraint : ConstraintDefinition) : ℚ :=
  if constraint.severity = .soft then constraint.penalty else 0

/-- One comparison: a failure is reported and charged. -/
def judge (metrics : List (String × ℚ)) (candidateId : Option String)
    (constraint : ConstraintDefinition) : Option (ConstraintViolation × ℚ) :=
  let observed := observedOf metrics constraint
  if compare observed constraint.operator constraint.threshold then none
  else some (violation text constraint observed candidateId, charge constraint)

/-- The failures of every allocation, then those of the portfolio. -/
def failures (positions : List Position) (constraints : List ConstraintDefinition) :
    List (ConstraintViolation × ℚ) :=
  (positions.flatMap fun position => constraints.filterMap
      (judge text (candidateMetrics position) (some position.1.candidateId))) ++
    (constraints.filter fun constraint =>
      "portfolio_".toList.isPrefixOf constraint.metricKey.toList).filterMap
        (judge text (portfolioMetrics positions) none)

def evaluate (candidates : List CandidateInput) (allocations : List PortfolioAllocation)
    (hardConstraints softConstraints : List ConstraintDefinition) :
    Except Exc (List ConstraintViolation × ℚ) := do
  let positions ← positionsOf candidates allocations
  let failed := failures text positions (hardConstraints ++ softConstraints)
  return (failed.map Prod.fst, (failed.map Prod.snd).sum)

end PortfolioConstraintEngine

/-! ### The candidates of the allocations -/

variable {text} {candidates : List CandidateInput} {allocations : List PortfolioAllocation}
  {positions : List Position}

theorem get?_byId_isSome_iff (candidates : List CandidateInput) (candidateId : String) :
    ((byId candidates).get? candidateId).isSome = true ↔
      candidateId ∈ candidates.map (·.candidateId) := by
  have hkeys : (candidates.map fun item => (item.candidateId, item)).map Prod.fst =
      candidates.map (·.candidateId) := by
    rw [List.map_map]
    rfl
  rw [Option.isSome_iff_exists, ← hkeys, ← mem_keys_latestBy, List.mem_map]
  constructor
  · rintro ⟨candidate, hcandidate⟩
    exact ⟨_, (InsertionDict.get?_ofEntries_iff _).mp hcandidate, rfl⟩
  · rintro ⟨⟨_, candidate⟩, hmem, rfl⟩
    exact ⟨candidate, (InsertionDict.get?_ofEntries_iff _).mpr hmem⟩

/-- Every allocation is of one of the candidates. -/
def Listed (candidates : List CandidateInput) (allocations : List PortfolioAllocation) : Prop :=
  ∀ allocation ∈ allocations, allocation.candidateId ∈ candidates.map (·.candidateId)

theorem positionOf_eq_ok {allocation : PortfolioAllocation} {position : Position} :
    positionOf candidates allocation = .ok position ↔
      (byId candidates).get? allocation.candidateId = some position.1 ∧
        position.2 = allocation := by
  obtain ⟨candidate, other⟩ := position
  rw [positionOf]
  cases (byId candidates).get? allocation.candidateId with
  | none =>
    constructor
    · exact fun h => nomatch h
    · rintro ⟨h, -⟩
      exact nomatch h
  | some found =>
    constructor
    · intro h
      obtain ⟨rfl, rfl⟩ := Prod.mk.inj (Except.ok.inj h)
      exact ⟨rfl, rfl⟩
    · rintro ⟨hfound, rfl⟩
      rw [Option.some.inj hfound]

theorem exists_positions_iff :
    (∃ positions, positionsOf candidates allocations = .ok positions) ↔
      Listed candidates allocations := by
  constructor
  · rintro ⟨positions, hpositions⟩ allocation hallocation
    obtain ⟨position, -, hposition⟩ := (mapM_eq_ok_mem hpositions).1 allocation hallocation
    rw [← get?_byId_isSome_iff, (positionOf_eq_ok.mp hposition).1]
    rfl
  · intro hlisted
    apply exists_mapM_eq_ok
    intro allocation hallocation
    obtain ⟨candidate, hcandidate⟩ := Option.isSome_iff_exists.mp
      ((get?_byId_isSome_iff candidates _).mpr (hlisted allocation hallocation))
    exact ⟨(candidate, allocation), positionOf_eq_ok.mpr ⟨hcandidate, rfl⟩⟩

theorem allocations_of_positions (h : positionsOf candidates allocations = .ok positions) :
    positions.map Prod.snd = allocations := by
  have hmap := map_eq_of_mapM_eq_ok (h := id) h fun _ _ hposition =>
    (positionOf_eq_ok.mp hposition).2
  rwa [List.map_id] at hmap

/-! ### What one constraint reports -/

namespace PortfolioConstraintEngine

variable {constraint : ConstraintDefinition} {constraints others : List ConstraintDefinition}

theorem failures_perm (text : PyText) (positions : List Position) (h : constraints.Perm others) :
    (failures text positions constraints).Perm (failures text positions others) :=
  (List.Perm.flatMap_left _ fun _ _ => h.filterMap _).append ((h.filter _).filterMap _)

/-- A further constraint reports what it reports alone. -/
theorem failures_cons (positions : List Position) (constraint : ConstraintDefinition)
    (constraints : List ConstraintDefinition) :
    (failures text positions (constraint :: constraints)).Perm
      (failures text positions [constraint] ++ failures text positions constraints) := by
  have hsplit : ∀ f : ConstraintDefinition → Option (ConstraintViolation × ℚ),
      (constraint :: constraints).filterMap f =
        [constraint].filterMap f ++ constraints.filterMap f := fun f => by
    rw [← List.filterMap_append, List.singleton_append]
  have hfilter : ∀ p : ConstraintDefinition → Bool, (constraint :: constraints).filter p =
      [constraint].filter p ++ constraints.filter p := fun p => by
    rw [← List.filter_append, List.singleton_append]
  simp only [failures, hsplit, hfilter, List.filterMap_append]
  refine ((List.flatMap_append_perm _ _ _).symm.append_right _).trans ?_
  rw [List.append_assoc, List.append_assoc]
  refine List.Perm.append_left _ ?_
  rw [← List.append_assoc, ← List.append_assoc]
  exact List.perm_append_comm.append_right _

theorem charge_of_judge {metrics : List (String × ℚ)} {candidateId : Option String}
    {failure : ConstraintViolation × ℚ}
    (h : judge text metrics candidateId constraint = some failure) :
    failure.2 = charge constraint := by
  rw [judge] at h
  split_ifs at h
  exact (congrArg Prod.snd (Option.some.inj h)).symm

/-- A failure of a constraint is charged its penalty. -/
theorem charge_of_failure {failure : ConstraintViolation × ℚ}
    (h : failure ∈ failures text positions [constraint]) : failure.2 = charge constraint := by
  rcases List.mem_append.mp h with h | h
  · obtain ⟨position, -, h⟩ := List.mem_flatMap.mp h
    obtain ⟨other, hother, h⟩ := List.mem_filterMap.mp h
    rw [List.mem_singleton.mp hother] at h
    exact charge_of_judge h
  · obtain ⟨other, hother, h⟩ := List.mem_filterMap.mp h
    rw [List.mem_singleton.mp (List.mem_of_mem_filter hother)] at h
    exact charge_of_judge h

theorem sum_charges (text : PyText) (positions : List Position)
    (constraint : ConstraintDefinition) :
    ((failures text positions [constraint]).map Prod.snd).sum =
      charge constraint * (failures text positions [constraint]).length := by
  have hcharges : (failures text positions [constraint]).map Prod.snd =
      List.replicate (failures text positions [constraint]).length (charge constraint) :=
    List.eq_replicate_iff.mpr
      ⟨List.length_map _, List.forall_mem_map.mpr fun _ => charge_of_failure⟩
  rw [hcharges, List.sum_replicate, nsmul_eq_mul, mul_comm]

theorem evaluate_eq_ok (text : PyText) (hpositions : positionsOf candidates allocations =
      .ok positions) (hard soft : List ConstraintDefinition) :
    evaluate text candidates allocations hard soft =
      .ok ((failures text positions (hard ++ soft)).map Prod.fst,
        ((failures text positions (hard ++ soft)).map Prod.snd).sum) :=
  except_bind_eq_ok.mpr ⟨positions, hpositions, rfl⟩

/-- A constraint reports some violations if they, and its charge for each of them, are what an
evaluation with it has more than one without it, whatever the other constraints. -/
def Reports (text : PyText) (candidates : List CandidateInput)
    (allocations : List PortfolioAllocation) (constraint : ConstraintDefinition)
    (reported : List ConstraintViolation) : Prop :=
  ∀ hard soft hard' soft', (hard' ++ soft').Perm (constraint :: (hard ++ soft)) →
    ∃ violations penalty violations' penalty',
      evaluate text candidates allocations hard soft = .ok (violations, penalty) ∧
        evaluate text candidates allocations hard' soft' = .ok (violations', penalty') ∧
        violations'.Perm (reported ++ violations) ∧
        penalty' = penalty + charge constraint * reported.length

theorem reports_failures (text : PyText)
    (hpositions : positionsOf candidates allocations = .ok positions)
    (constraint : ConstraintDefinition) :
    Reports text candidates allocations constraint
      ((failures text positions [constraint]).map Prod.fst) := by
  intro hard soft hard' soft' hperm
  have hfailures := (failures_perm text positions hperm).trans
    (failures_cons positions constraint (hard ++ soft))
  refine ⟨_, _, _, _, evaluate_eq_ok text hpositions hard soft,
    evaluate_eq_ok text hpositions hard' soft', ?_, ?_⟩
  · rw [← List.map_append]
    exact hfailures.map _
  · rw [(hfailures.map Prod.snd).sum_eq, List.map_append, List.sum_append, sum_charges,
      List.length_map, add_comm]

/-- What a constraint reports is determined up to its order. -/
theorem Reports.perm {reported reported' : List ConstraintViolation}
    (h : Reports text candidates allocations constraint reported)
    (h' : Reports text candidates allocations constraint reported') :
    reported.Perm reported' := by
  obtain ⟨violations, penalty, all, total, hwithout, hwith, hperm, -⟩ :=
    h [] [] [constraint] [] (.refl _)
  obtain ⟨violations', penalty', all', total', hwithout', hwith', hperm', -⟩ :=
    h' [] [] [constraint] [] (.refl _)
  obtain ⟨rfl, -⟩ := Prod.mk.inj (Except.ok.inj (hwithout.symm.trans hwithout'))
  obtain ⟨rfl, -⟩ := Prod.mk.inj (Except.ok.inj (hwith.symm.trans hwith'))
  exact (List.perm_append_right_iff violations).mp (hperm.symm.trans hperm')

theorem listed_of_reports {reported : List ConstraintViolation}
    (h : Reports text candidates allocations constraint reported) :
    Listed candidates allocations := by
  obtain ⟨violations, penalty, -, -, hwithout, -⟩ := h [] [] [constraint] [] (.refl _)
  obtain ⟨positions, hpositions, -⟩ := except_bind_eq_ok.mp hwithout
  exact exists_positions_iff.mp ⟨positions, hpositions⟩

/-! ### Metrics of the portfolio -/

/-- The metrics that `_portfolio_metrics` computes. -/
def portfolioKeys : List String := (portfolioMetrics []).map Prod.fst

/-- The value of a metric for the portfolio. -/
def portfolioValue (candidates : List CandidateInput) (allocations : List PortfolioAllocation)
    (key : String) : Except Exc ℚ := do
  let positions ← positionsOf candidates allocations
  return ((portfolioMetrics positions).lookup key).getD 0

/-- The one violation that the portfolio may be reported for. -/
def portfolioViolations (text : PyText) (constraint : ConstraintDefinition) (value : ℚ) :
    List ConstraintViolation :=
  if compare value constraint.operator constraint.threshold then []
  else [violation text constraint value none]

/-- An allocation has no metric of the portfolio. -/
theorem observedOf_candidateMetrics (hkey : constraint.metricKey ∈ portfolioKeys)
    (position : Position) : observedOf (candidateMetrics position) constraint = 0 := by
  simp only [portfolioKeys, portfolioMetrics, List.map_cons, List.map_nil, List.mem_cons,
    List.not_mem_nil, or_false] at hkey
  rcases hkey with h | h | h | h | h | h | h | h | h | h <;> rw [observedOf, h] <;> rfl

theorem isPrefixOf_of_portfolioKeys (hkey : constraint.metricKey ∈ portfolioKeys) :
    "portfolio_".toList.isPrefixOf constraint.metricKey.toList = true := by
  simp only [portfolioKeys, portfolioMetrics, List.map_cons, List.map_nil, List.mem_cons,
    List.not_mem_nil, or_false] at hkey
  rcases hkey with h | h | h | h | h | h | h | h | h | h <;> rw [h] <;> decide

/-- A constraint on the portfolio is judged on every allocation and on the portfolio. -/
theorem failures_singleton (text : PyText) (positions : List Position)
    (hscan : "portfolio_".toList.isPrefixOf constraint.metricKey.toList = true) :
    failures text positions [constraint] =
      (positions.flatMap fun position => [constraint].filterMap
        (judge text (candidateMetrics position) (some position.1.candidateId))) ++
      [constraint].filterMap (judge text (portfolioMetrics positions) none) := by
  rw [failures, List.filter_singleton, hscan, cond_true]

theorem map_fst_judge (metrics : List (String × ℚ)) (candidateId : Option String) :
    ([constraint].filterMap (judge text metrics candidateId)).map Prod.fst =
      if compare (observedOf metrics constraint) constraint.operator constraint.threshold then []
      else [violation text constraint (observedOf metrics constraint) candidateId] := by
  rw [List.filterMap_cons, judge]
  split_ifs <;> rfl

/-- What a constraint on a metric of the portfolio reports: every allocation, if zero fails it, and
the portfolio. -/
theorem failures_of_portfolioKeys (hkey : constraint.metricKey ∈ portfolioKeys)
    (positions : List Position) :
    (failures text positions [constraint]).map Prod.fst =
      (positions.flatMap fun position =>
        if compare 0 constraint.operator constraint.threshold then []
        else [violation text constraint 0 (some position.1.candidateId)]) ++
      portfolioViolations text constraint
        (((portfolioMetrics positions).lookup constraint.metricKey).getD 0) := by
  rw [failures_singleton text positions (isPrefixOf_of_portfolioKeys hkey), List.map_append,
    List.map_flatMap, map_fst_judge]
  simp only [map_fst_judge, observedOf_candidateMetrics hkey]
  rfl

/-- A constraint on a metric of the portfolio is judged on the portfolio alone if nothing is
allocated or zero passes it. -/
theorem judged_on_portfolio_iff (text : PyText) (candidates : List CandidateInput)
    (allocations : List PortfolioAllocation) (constraint : ConstraintDefinition)
    (hkey : constraint.metricKey ∈ portfolioKeys) :
    (∃ value, portfolioValue candidates allocations constraint.metricKey = .ok value ∧
        Reports text candidates allocations constraint
          (portfolioViolations text constraint value)) ↔
      Listed candidates allocations ∧
        (allocations = [] ∨ compare 0 constraint.operator constraint.threshold = true) := by
  constructor
  · rintro ⟨value, hvalue, hreports⟩
    refine ⟨listed_of_reports hreports, ?_⟩
    obtain ⟨positions, hpositions, hvalue⟩ := except_bind_eq_ok.mp hvalue
    obtain rfl := Except.ok.inj hvalue
    have hperm := (reports_failures text hpositions constraint).perm hreports
    rw [failures_of_portfolioKeys hkey] at hperm
    have hlength := hperm.length_eq
    rw [List.length_append, Nat.add_eq_right, List.length_eq_zero_iff] at hlength
    rw [List.flatMap_eq_nil_iff] at hlength
    rw [← allocations_of_positions hpositions, List.map_eq_nil_iff]
    by_contra hnot
    rw [not_or] at hnot
    obtain ⟨position, hposition⟩ := List.exists_mem_of_ne_nil _ hnot.1
    have hnone := hlength position hposition
    rw [if_neg hnot.2] at hnone
    exact nomatch hnone
  · rintro ⟨hlisted, hzero⟩
    obtain ⟨positions, hpositions⟩ := exists_positions_iff.mpr hlisted
    refine ⟨_, except_bind_eq_ok.mpr ⟨positions, hpositions, rfl⟩, ?_⟩
    have hreports := reports_failures text hpositions constraint
    rw [failures_of_portfolioKeys hkey] at hreports
    have hnone : (positions.flatMap fun position =>
        if compare 0 constraint.operator constraint.threshold then []
        else [violation text constraint 0 (some position.1.candidateId)]) = [] := by
      rw [List.flatMap_eq_nil_iff]
      intro position hposition
      rcases hzero with rfl | hzero
      · rw [List.map_eq_nil_iff.mp (allocations_of_positions hpositions)] at hposition
        exact absurd hposition List.not_mem_nil
      · rw [if_pos hzero]
    rwa [hnone, List.nil_append] at hreports

open PositionSizer (unitCandidate)

def deltaLimit : ConstraintDefinition where
  name := "delta"
  metricKey := "portfolio_delta"
  operator := "<="
  threshold := 3 / 10
  severity := .soft

theorem judged_on_portfolio_iff_deltaLimit : ∃ value,
    portfolioValue [unitCandidate "a" 1 1] [⟨"a", 1 / 2, 50, 1, 1⟩] "portfolio_delta" = .ok value ∧
      Reports plainText [unitCandidate "a" 1 1] [⟨"a", 1 / 2, 50, 1, 1⟩] deltaLimit
        (portfolioViolations plainText deltaLimit value) :=
  (judged_on_portfolio_iff plainText [unitCandidate "a" 1 1] [⟨"a", 1 / 2, 50, 1, 1⟩] deltaLimit
    (by decide)).mpr ⟨by simp [Listed, unitCandidate], .inr (by decide +kernel)⟩

def cashReserve : ConstraintDefinition where
  name := "reserve"
  metricKey := "portfolio_cash_reserve"
  operator := ">="
  threshold := 1 / 10
  severity := .hard

/-- Half of the capital is in reserve, where a tenth is asked for; the allocation is reported. -/
theorem reserve_read_as_zero : ¬ ∀ (text : PyText) (candidates : List CandidateInput)
    (allocations : List PortfolioAllocation) (constraint : ConstraintDefinition) (value : ℚ),
    constraint.metricKey ∈ portfolioKeys →
      portfolioValue candidates allocations constraint.metricKey = .ok value →
        Reports text candidates allocations constraint
          (portfolioViolations text constraint value) := by
  intro h
  have hpositions : positionsOf [unitCandidate "a" 1 1] [⟨"a", 1 / 2, 50, 1, 1⟩] =
      .ok [(unitCandidate "a" 1 1, ⟨"a", 1 / 2, 50, 1, 1⟩)] := rfl
  have hnone := h plainText [unitCandidate "a" 1 1] [⟨"a", 1 / 2, 50, 1, 1⟩] cashReserve (1 / 2)
    (by decide) (except_bind_eq_ok.mpr ⟨_, hpositions, by decide +kernel⟩)
  have hlength := ((reports_failures plainText hpositions cashReserve).perm hnone).length_eq
  revert hlength
  decide +kernel

end PortfolioConstraintEngine
end OptionResearch.Portfolio
