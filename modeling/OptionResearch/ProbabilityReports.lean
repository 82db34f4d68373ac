import Mathlib.Analysis.Real.Sqrt
import OptionResearch.CalendarTime
import OptionResearch.StableSort

/-!
# Probability reports

`_wilson_interval`, the reports of `ModelProbabilityEngine` and `HistoricalProbabilityEngine` of
`research/probability.py`.

The interval about a frequency has exactly the probabilities from which the frequency is not further
than the quantile allows in standard errors. So it has the frequency, lies between 0 and 1 and moves
up with the frequency.
-/

namespace OptionResearch

/-- Where a parabola is not positive: between its roots. -/
theorem quadratic_nonpos_iff {a b c x : ℝ} (ha : 0 < a) (hdiscriminant : 0 ≤ b ^ 2 - a * c) :
    a * x ^ 2 - 2 * b * x + c ≤ 0 ↔
      (b - √(b ^ 2 - a * c)) / a ≤ x ∧ x ≤ (b + √(b ^ 2 - a * c)) / a := by
  have hsquare : a * (a * x ^ 2 - 2 * b * x + c) = (a * x - b) ^ 2 - (b ^ 2 - a * c) := by ring
  calc a * x ^ 2 - 2 * b * x + c ≤ 0 ↔ a * (a * x ^ 2 - 2 * b * x + c) ≤ a * 0 :=
        (mul_le_mul_iff_right₀ ha).symm
    _ ↔ (a * x - b) ^ 2 ≤ b ^ 2 - a * c := by rw [hsquare, mul_zero, sub_nonpos]
    _ ↔ |a * x - b| ≤ √(b ^ 2 - a * c) := by
        rw [Real.le_sqrt (abs_nonneg _) hdiscriminant, sq_abs]
    _ ↔ (b - √(b ^ 2 - a * c)) / a ≤ x ∧ x ≤ (b + √(b ^ 2 - a * c)) / a := by
        rw [abs_le, div_le_iff₀ ha, le_div_iff₀ ha]
        constructor
        · intro h
          constructor <;> linarith [h.1, h.2]
        · intro h
          constructor <;> linarith [h.1, h.2]

namespace ModelProbabilityEngine

variable {invCdf : ℝ → Except Exc ℝ} {confidenceLevel x z : ℝ} {successes more sampleSize : ℕ}
  {interval upper : ℝ × ℝ}

/-- The frequency of the sample is within `z` standard errors of the probability. -/
def WithinScore (z : ℝ) (successes sampleSize : ℕ) (x : ℝ) : Prop :=
  ((successes : ℝ) / sampleSize - x) ^ 2 ≤ z ^ 2 * (x * (1 - x) / sampleSize)

/-- The interval has the probabilities that the score test does not reject. -/
def Encloses (z : ℝ) (successes sampleSize : ℕ) (interval : ℝ × ℝ) : Prop :=
  ∀ x, interval.1 ≤ x ∧ x ≤ interval.2 ↔ WithinScore z successes sampleSize x

theorem frequency_nonneg (successes sampleSize : ℕ) : (0 : ℝ) ≤ successes / sampleSize := by
  positivity

/-- A frequency of a sample. -/
structure IsSample (successes sampleSize : ℕ) : Prop where
  pos : 0 < sampleSize
  le : successes ≤ sampleSize

namespace IsSample

variable (h : IsSample successes sampleSize)
include h

theorem size_pos : (0 : ℝ) < sampleSize := Nat.cast_pos.mpr h.pos

theorem frequency_le_one : (successes : ℝ) / sampleSize ≤ 1 :=
  (div_le_one h.size_pos).mpr (Nat.cast_le.mpr h.le)

theorem withinScore_frequency : WithinScore z successes sampleSize (successes / sampleSize) := by
  have hrest : 0 ≤ 1 - (successes : ℝ) / sampleSize := sub_nonneg.mpr h.frequency_le_one
  rw [WithinScore, sub_self, zero_pow two_ne_zero]
  positivity

theorem withinScore_bounds (hwithin : WithinScore z successes sampleSize x) : 0 ≤ x ∧ x ≤ 1 := by
  have hlow := frequency_nonneg successes sampleSize
  have hhigh := h.frequency_le_one
  rw [WithinScore] at hwithin
  have hscaled : 0 ≤ x * (1 - x) ∨ (successes : ℝ) / sampleSize = x := by
    by_contra hnot
    rw [not_or, not_le] at hnot
    have hright : z ^ 2 * (x * (1 - x) / sampleSize) ≤ 0 :=
      mul_nonpos_of_nonneg_of_nonpos (sq_nonneg z)
        (div_nonpos_of_nonpos_of_nonneg hnot.1.le h.size_pos.le)
    have hzero := pow_eq_zero_iff two_ne_zero |>.mp
      (le_antisymm (hwithin.trans hright) (sq_nonneg _))
    exact hnot.2 (sub_eq_zero.mp hzero)
  rcases hscaled with hproduct | rfl
  · constructor <;> nlinarith
  · exact ⟨hlow, hhigh⟩

end IsSample

/-- The roots that `_wilson_interval` takes are those of the score test. -/
theorem withinScore_iff (h : IsSample successes sampleSize) (hz : 0 ≤ z) :
    let size : ℝ := sampleSize
    let pHat : ℝ := successes / size
    let denom := 1 + z ^ 2 / size
    let centre := pHat + z ^ 2 / (2 * size)
    let half := z * √(pHat * (1 - pHat) / size + z ^ 2 / (4 * size ^ 2))
    WithinScore z successes sampleSize x ↔
      (centre - half) / denom ≤ x ∧ x ≤ (centre + half) / denom := by
  intro size pHat denom centre half
  have hsize : 0 < size := h.size_pos
  have hdenom : 0 < denom := by positivity
  have hspread : 0 ≤ pHat * (1 - pHat) / size + z ^ 2 / (4 * size ^ 2) := by
    have hrest : 0 ≤ 1 - pHat := sub_nonneg.mpr h.frequency_le_one
    positivity
  have hdiscriminant : centre ^ 2 - denom * pHat ^ 2 =
      z ^ 2 * (pHat * (1 - pHat) / size + z ^ 2 / (4 * size ^ 2)) := by
    simp only [centre, denom]
    field_simp
    ring
  have hhalf : √(centre ^ 2 - denom * pHat ^ 2) = half := by
    rw [hdiscriminant, Real.sqrt_mul (sq_nonneg z), Real.sqrt_sq hz]
  have hwithin : WithinScore z successes sampleSize x ↔
      denom * x ^ 2 - 2 * centre * x + pHat ^ 2 ≤ 0 := by
    have hdifference : denom * x ^ 2 - 2 * centre * x + pHat ^ 2 =
        (pHat - x) ^ 2 - z ^ 2 * (x * (1 - x) / size) := by
      simp only [centre, denom]
      field_simp
      ring
    rw [hdifference, sub_nonpos]
    rfl
  rw [hwithin, quadratic_nonpos_iff hdenom (hdiscriminant ▸ by positivity), hhalf]

theorem Encloses.frequency_mem (h : Encloses z successes sampleSize interval)
    (hsample : IsSample successes sampleSize) :
    interval.1 ≤ (successes : ℝ) / sampleSize ∧ (successes : ℝ) / sampleSize ≤ interval.2 :=
  (h _).mpr hsample.withinScore_frequency

theorem Encloses.bounds (h : Encloses z successes sampleSize interval)
    (hsample : IsSample successes sampleSize) : 0 ≤ interval.1 ∧ interval.2 ≤ 1 := by
  obtain ⟨hlow, hhigh⟩ := h.frequency_mem hsample
  have hends : interval.1 ≤ interval.2 := hlow.trans hhigh
  exact ⟨(hsample.withinScore_bounds ((h _).mp ⟨le_rfl, hends⟩)).1,
    (hsample.withinScore_bounds ((h _).mp ⟨hends, le_rfl⟩)).2⟩

/-- More successes move both ends of the interval up. -/
theorem Encloses.mono (h : Encloses z successes sampleSize interval)
    (hupper : Encloses z more sampleSize upper) (hle : successes ≤ more)
    (hmore : IsSample more sampleSize) :
    interval.1 ≤ upper.1 ∧ interval.2 ≤ upper.2 := by
  have hsample : IsSample successes sampleSize := ⟨hmore.pos, hle.trans hmore.le⟩
  have hfrequency : (successes : ℝ) / sampleSize ≤ more / sampleSize := by gcongr
  obtain ⟨hlow, hhigh⟩ := h.frequency_mem hsample
  obtain ⟨hlow', hhigh'⟩ := hupper.frequency_mem hmore
  constructor
  · by_contra hlt
    rw [not_le] at hlt
    -- the lower end of the upper interval is nearer to the lower frequency
    have hwithin : WithinScore z more sampleSize upper.1 :=
      (hupper _).mp ⟨le_rfl, hlow'.trans hhigh'⟩
    have hnear : WithinScore z successes sampleSize upper.1 := by
      rw [WithinScore] at hwithin ⊢
      nlinarith
    exact absurd ((h _).mpr hnear).1 hlt.not_ge
  · by_contra hlt
    rw [not_le] at hlt
    have hwithin : WithinScore z successes sampleSize interval.2 :=
      (h _).mp ⟨hlow.trans hhigh, le_rfl⟩
    have hnear : WithinScore z more sampleSize interval.2 := by
      rw [WithinScore] at hwithin ⊢
      nlinarith
    exact absurd ((hupper _).mpr hnear).2 hlt.not_ge

/-- `_wilson_interval` has exactly the probabilities from which the frequency is at most as many
standard errors away as the quantile says. -/
theorem wilsonInterval_encloses (hpos : 0 < sampleSize) (hle : successes ≤ sampleSize)
    (hquantile : invCdf (0.5 + confidenceLevel / 2.0) = .ok z) (hz : 0 ≤ z) :
    ∃ interval, wilsonInterval (realSimulation invCdf) confidenceLevel successes sampleSize =
        .ok interval ∧ Encloses z successes sampleSize interval := by
  have hsample : IsSample successes sampleSize := ⟨hpos, hle⟩
  have htwo : (2.0 : ℝ) = 2 := by norm_num
  have hfour : (4.0 : ℝ) = 4 := by norm_num
  rw [wilsonInterval, if_neg hpos.ne']
  dsimp only [realSimulation]
  rw [hquantile, htwo, hfour]
  refine ⟨_, rfl, fun x => ?_⟩
  have hscore := withinScore_iff (x := x) hsample hz
  dsimp only at hscore
  rw [max_le_iff, le_min_iff]
  constructor
  · intro hx
    exact hscore.mpr ⟨hx.1.2, hx.2.2⟩
  · intro hwithin
    obtain ⟨hlow, hhigh⟩ := hsample.withinScore_bounds hwithin
    have hx := hscore.mp hwithin
    exact ⟨⟨hlow, hx.1⟩, hhigh, hx.2⟩

/-- The quantile at the median. -/
def median : ℝ → Except Exc ℝ := fun _ => .ok 0

theorem wilsonInterval_encloses_quarter :
    ∃ interval, wilsonInterval (realSimulation median) 0 1 4 = .ok interval ∧
      Encloses 0 1 4 interval :=
  wilsonInterval_encloses (by decide) (by decide) rfl le_rfl

/-! ### Figures of a report -/

/-- A frequency of the sample with its interval. -/
structure Coherent (z : ℝ) (sampleSize : ℕ) (result : ProbabilityResult ℝ) : Prop where
  sampleSize_eq : result.sampleSize = sampleSize
  sample : IsSample result.successes sampleSize
  probability_eq : result.probability = (result.successes : ℝ) / sampleSize
  encloses : Encloses z result.successes sampleSize result.confidenceInterval

/-- The estimate is in its interval, which has probabilities only. -/
def Estimates (result : ProbabilityResult ℝ) : Prop :=
  0 ≤ result.confidenceInterval.1 ∧ result.confidenceInterval.1 ≤ result.probability ∧
    result.probability ≤ result.confidenceInterval.2 ∧ result.confidenceInterval.2 ≤ 1

/-- The one estimate and the ends of its interval are at most those of the other. -/
def AtMost (result other : ProbabilityResult ℝ) : Prop :=
  result.probability ≤ other.probability ∧
    result.confidenceInterval.1 ≤ other.confidenceInterval.1 ∧
    result.confidenceInterval.2 ≤ other.confidenceInterval.2

variable {result other : ProbabilityResult ℝ}

theorem Coherent.estimates (h : Coherent z sampleSize result) : Estimates result := by
  obtain ⟨hlow, hhigh⟩ := h.encloses.frequency_mem h.sample
  obtain ⟨hzero, hone⟩ := h.encloses.bounds h.sample
  rw [← h.probability_eq] at hlow hhigh
  exact ⟨hzero, hlow, hhigh, hone⟩

theorem Coherent.atMost (h : Coherent z sampleSize result) (hother : Coherent z sampleSize other)
    (hle : result.successes ≤ other.successes) : AtMost result other := by
  obtain ⟨hlow, hhigh⟩ := h.encloses.mono hother.encloses hle hother.sample
  refine ⟨?_, hlow, hhigh⟩
  rw [h.probability_eq, hother.probability_eq]
  gcongr

/-- The quantiles of the normal distribution above the median are not negative. -/
def UpperQuantiles (invCdf : ℝ → Except Exc ℝ) : Prop :=
  ∀ p z, 0.5 ≤ p → invCdf p = .ok z → 0 ≤ z

theorem upperQuantiles_median : UpperQuantiles median := by
  rintro p z _ ⟨⟩
  exact le_rfl

theorem exists_encloses (hquantiles : UpperQuantiles invCdf) (hlevel : 0 ≤ confidenceLevel)
    (hsample : IsSample successes sampleSize)
    (hrun : wilsonInterval (realSimulation invCdf) confidenceLevel successes sampleSize =
      .ok interval) :
    ∃ z, invCdf (0.5 + confidenceLevel / 2.0) = .ok z ∧
      Encloses z successes sampleSize interval := by
  cases hquantile : invCdf (0.5 + confidenceLevel / 2.0) with
  | error e =>
    rw [wilsonInterval, if_neg hsample.pos.ne'] at hrun
    dsimp only [realSimulation] at hrun
    rw [hquantile] at hrun
    cases hrun
  | ok z =>
    have hz : 0 ≤ z := by
      apply hquantiles _ _ _ hquantile
      have hhalf : 0 ≤ confidenceLevel / 2.0 := by positivity
      linarith
    obtain ⟨interval', hrun', hencloses⟩ :=
      wilsonInterval_encloses hsample.pos hsample.le hquantile hz
    rw [hrun'] at hrun
    cases hrun
    exact ⟨z, rfl, hencloses⟩

theorem countP_map_id {α : Type} (p : α → Bool) (items : List α) :
    (items.map p).countP id = items.countP p := by
  rw [List.countP_map]
  rfl

section Figures

variable {α : Type} {items : List α} {p q : α → Bool} {name name' : String}

theorem build_coherent (hquantiles : UpperQuantiles invCdf) (hlevel : 0 ≤ confidenceLevel)
    (hitems : items ≠ [])
    (hrun : build (realSimulation invCdf) confidenceLevel name (items.map p) = .ok result) :
    ∃ z, invCdf (0.5 + confidenceLevel / 2.0) = .ok z ∧
      Coherent z items.length result ∧ result.successes = items.countP p := by
  have hsample : IsSample (items.countP p) items.length :=
    ⟨List.length_pos_iff.mpr hitems, List.countP_le_length⟩
  rw [build, countP_map_id, List.length_map] at hrun
  obtain ⟨interval, hinterval, hrun⟩ := except_bind_eq_ok.mp hrun
  cases hrun
  obtain ⟨z, hquantile, hencloses⟩ := exists_encloses hquantiles hlevel hsample hinterval
  exact ⟨z, hquantile, ⟨rfl, hsample, rfl, hencloses⟩, rfl⟩

theorem build_estimates (hquantiles : UpperQuantiles invCdf) (hlevel : 0 ≤ confidenceLevel)
    (hitems : items ≠ [])
    (hrun : build (realSimulation invCdf) confidenceLevel name (items.map p) = .ok result) :
    result.sampleSize = items.length ∧ Estimates result := by
  obtain ⟨z, -, hcoherent, -⟩ := build_coherent hquantiles hlevel hitems hrun
  exact ⟨hcoherent.sampleSize_eq, hcoherent.estimates⟩

/-- Figures of one sample are ordered as what they count. -/
theorem build_atMost (hquantiles : UpperQuantiles invCdf) (hlevel : 0 ≤ confidenceLevel)
    (hitems : items ≠ [])
    (hrun : build (realSimulation invCdf) confidenceLevel name (items.map p) = .ok result)
    (hother : build (realSimulation invCdf) confidenceLevel name' (items.map q) = .ok other)
    (himplies : ∀ item ∈ items, p item = true → q item = true) : AtMost result other := by
  obtain ⟨z, hz, hcoherent, hcount⟩ := build_coherent hquantiles hlevel hitems hrun
  obtain ⟨z', hz', hcoherent', hcount'⟩ := build_coherent hquantiles hlevel hitems hother
  obtain rfl : z = z' := Except.ok.inj (hz.symm.trans hz')
  apply hcoherent.atMost hcoherent'
  rw [hcount, hcount']
  exact List.countP_mono_left himplies

end Figures

/-! ### Simulated paths -/

/-- What the flags of a path say about its values. -/
structure Flagged (config : ModelSimulationConfig ℝ) (outcome : ModelPathOutcome ℝ) : Prop where
  expired : outcome.expiredProfitable = decide (0 < outcome.finalPnl)
  touched_of_final : 0 < outcome.finalPnl → outcome.touchedProfitable = true
  touched_of_target :
    0 < config.targetProfit → outcome.touchedTarget = true → outcome.touchedProfitable = true

variable {config : ModelSimulationConfig ℝ} {legs : List (StrategyLeg ℝ)} {asOf : OrdinalDate}
  {priceLeg : StrategyLeg ℝ → ℝ → OrdinalDate → ModelSimulationConfig ℝ → Except Exc (ℝ × String)}

theorem outcomeOf_flagged {pathId : ℕ} {points : List (PathPoint ℝ)}
    {outcome : ModelPathOutcome ℝ}
    (h : outcomeOf config priceLeg legs asOf pathId points = .ok outcome) :
    Flagged config outcome := by
  obtain ⟨daily, -, h⟩ := except_bind_eq_ok.mp h
  dsimp only at h
  split at h
  case h_1 finalPnl highest lowest hfinal hhighest hlowest =>
    cases h
    have hle : finalPnl ≤ highest :=
      (List.max?_eq_some_iff.mp hhighest).2 finalPnl (List.mem_of_getLast? hfinal)
    refine ⟨rfl, fun hpos => ?_, fun htarget htouched => ?_⟩
    · exact decide_eq_true (hpos.trans_le hle)
    · exact decide_eq_true (htarget.trans_le (of_decide_eq_true htouched))
  case h_2 => cases h

theorem outcomesOf_flagged {ids : List ℕ} {draws : ℕ → ℝ} {outcomes : List (ModelPathOutcome ℝ)}
    (h : outcomesOf (realSimulation invCdf) config priceLeg legs asOf draws ids = .ok outcomes) :
    outcomes.length = ids.length ∧ ∀ outcome ∈ outcomes, Flagged config outcome := by
  induction ids generalizing draws outcomes with
  | nil =>
    cases h
    exact ⟨rfl, fun outcome hmem => absurd hmem List.not_mem_nil⟩
  | cons pathId rest ih =>
    obtain ⟨outcome, houtcome, h⟩ := except_bind_eq_ok.mp h
    obtain ⟨others, hothers, h⟩ := except_bind_eq_ok.mp h
    cases h
    obtain ⟨hlength, hflagged⟩ := ih hothers
    refine ⟨by rw [List.length_cons, List.length_cons, hlength], fun outcome' hmem => ?_⟩
    rcases List.mem_cons.mp hmem with rfl | hmem
    · exact outcomeOf_flagged houtcome
    · exact hflagged outcome' hmem

/-- What a report says: its figures are frequencies of all the paths with their intervals, and fit
to each other. -/
structure CoherentReport (config : ModelSimulationConfig ℝ) (report : ModelProbabilityReport ℝ) :
    Prop where
  outcomes : (report.outcomes.length : Int) = config.pathCount
  sampled : ∀ result ∈ [report.probabilityOfProfit, report.targetProfitProbability,
    report.lossBreachProbability, report.touchProbability,
    report.expirationProfitabilityProbability],
    result.sampleSize = report.outcomes.length ∧ Estimates result
  profit_atMost_touch : AtMost report.probabilityOfProfit report.touchProbability
  profit_atMost_expiration :
    AtMost report.probabilityOfProfit report.expirationProfitabilityProbability
  expiration_atMost_profit :
    AtMost report.expirationProfitabilityProbability report.probabilityOfProfit
  target_atMost_touch :
    0 < config.targetProfit → AtMost report.targetProfitProbability report.touchProbability

/-- A path of one day without legs. -/
noncomputable def dayConfig : ModelSimulationConfig ℝ where
  horizonDays := 1
  pathCount := 1
  drift := 0
  baseVolatility := 0.2
  riskFreeRate := 0.03
  dividendYield := 0
  initialSpot := 100.0
  targetProfit := 1
  lossThreshold := 1

end ModelProbabilityEngine

/-! ### Historical outcomes -/

structure HistoricalOutcomeRecord (T K : Type) where
  asOf : T
  manifestId : Int
  regimeLabel : String
  qualityScore : K
  pnl : K
  touchedTarget : Bool
  breachedLoss : Bool
  expiredProfitable : Bool
  earlyExitProfitable : Bool

/-- A `ProbabilityResult` of historical outcomes. -/
structure HistoricalProbability (T K : Type) extends ProbabilityResult K where
  dateRange : Option (T × T)
  datasetManifests : List Int
  regimeFilters : List String
  qualityFilter : Option K
  warnings : List String
  failures : ℕ

structure HistoricalProbabilityReport (T K : Type) where
  probabilityOfProfit : HistoricalProbability T K
  targetProfitProbability : HistoricalProbability T K
  stopLossProbability : HistoricalProbability T K
  touchProbability : HistoricalProbability T K
  expirationProfitabilityProbability : HistoricalProbability T K
  earlyExitProfitabilityProbability : HistoricalProbability T K

structure HistoricalProbabilityEngine (K : Type) where
  minSampleSize : Int := 25
  confidenceLevel : K
  strictSparseSamples : Bool := false

/-- The filters of `evaluate`. -/
structure OutcomeFilters (T K : Type) where
  asOf : T
  regimeFilters : List String := []
  qualityFloor : Option K := none

/-- What the filters leave, and how many outcomes they exclude. -/
structure FilteredOutcomes (T K : Type) where
  filtered : List (HistoricalOutcomeRecord T K)
  excluded : ℕ

namespace HistoricalProbabilityEngine

section

variable {T K : Type} [LinearOrder T] [LinearOrder K]

/-- The outcome passes the filters. -/
def includes (filters : OutcomeFilters T K) (row : HistoricalOutcomeRecord T K) : Bool :=
  if filters.asOf < row.asOf then false
  else if filters.regimeFilters ≠ [] ∧ row.regimeLabel ∉ filters.regimeFilters then false
  else
    match filters.qualityFloor with
    | some qualityFloor => !decide (row.qualityScore < qualityFloor)
    | none => true

/-- The loop over the outcomes. -/
def filterOutcomes (filters : OutcomeFilters T K) (outcomes : List (HistoricalOutcomeRecord T K)) :
    FilteredOutcomes T K where
  filtered := outcomes.filter (includes filters)
  excluded := outcomes.countP fun row => !includes filters row

variable [Field K] (math : SimulationMath K) (engine : HistoricalProbabilityEngine K)
  (filters : OutcomeFilters T K)

def researchValidationError (message : String) : Exc := ⟨.other "ResearchValidationError", message⟩

def sparseSampleWarningError (sampleSize : ℕ) (minSampleSize : Int) : Exc :=
  ⟨.other "SparseSampleWarningError",
    s!"sample_size={sampleSize} below minimum={minSampleSize}"⟩

/-- `build`; the frequency and its interval are those of `ModelProbabilityEngine`. -/
def build (rows : FilteredOutcomes T K) (name : String) (predicate : List Bool) :
    Except Exc (HistoricalProbability T K) := do
  let dates := rows.filtered.map (·.asOf)
  let figure ← ModelProbabilityEngine.build math engine.confidenceLevel name predicate
  let sparse := (figure.sampleSize : Int) < engine.minSampleSize
  if sparse ∧ engine.strictSparseSamples then
    .error (sparseSampleWarningError figure.sampleSize engine.minSampleSize)
  else return {
    figure with
    inclusionCount := rows.filtered.length
    exclusionCount := rows.excluded
    dateRange := do return (← dates.min?, ← dates.max?)
    datasetManifests := StableSort.sortBy id (rows.filtered.map (·.manifestId)).dedup
    regimeFilters := filters.regimeFilters
    qualityFilter := filters.qualityFloor
    warnings :=
      if sparse then ["sparse sample size may reduce reliability of estimated probability"] else []
    failures := figure.sampleSize - figure.successes }

/-- The report of the outcomes that are left. -/
def reportOf (rows : FilteredOutcomes T K) : Except Exc (HistoricalProbabilityReport T K) := do
  let build := build math engine filters rows
  return {
    probabilityOfProfit := ← build "historical_probability_of_profit"
      (rows.filtered.map fun row => decide (0 < row.pnl))
    targetProfitProbability := ← build "historical_target_profit_probability"
      (rows.filtered.map (·.touchedTarget))
    stopLossProbability := ← build "historical_stop_loss_probability"
      (rows.filtered.map (·.breachedLoss))
    touchProbability := ← build "historical_touch_probability"
      (rows.filtered.map fun row => row.touchedTarget || decide (0 < row.pnl))
    expirationProfitabilityProbability := ←
      build "historical_expiration_profitability_probability"
        (rows.filtered.map (·.expiredProfitable))
    earlyExitProfitabilityProbability := ←
      build "historical_early_exit_profitability_probability"
        (rows.filtered.map (·.earlyExitProfitable)) }

def evaluate (outcomes : List (HistoricalOutcomeRecord T K)) :
    Except Exc (HistoricalProbabilityReport T K) :=
  if outcomes.isEmpty then
    .error (researchValidationError "historical outcomes cannot be empty")
  else
    let rows := filterOutcomes filters outcomes
    if rows.filtered.isEmpty then
      .error (researchValidationError "no outcomes remain after no-look-ahead and filters")
    else reportOf math engine filters rows

end

/-! ### Outcomes that are not known yet -/

section Known

variable {T K : Type} [LinearOrder T] [LinearOrder K]

/-- The report with another number of excluded outcomes. -/
def withExclusions (excluded : ℕ) (report : HistoricalProbabilityReport T K) :
    HistoricalProbabilityReport T K where
  probabilityOfProfit := { report.probabilityOfProfit with exclusionCount := excluded }
  targetProfitProbability := { report.targetProfitProbability with exclusionCount := excluded }
  stopLossProbability := { report.stopLossProbability with exclusionCount := excluded }
  touchProbability := { report.touchProbability with exclusionCount := excluded }
  expirationProfitabilityProbability :=
    { report.expirationProfitabilityProbability with exclusionCount := excluded }
  earlyExitProfitabilityProbability :=
    { report.earlyExitProfitabilityProbability with exclusionCount := excluded }

/-- The outcomes that are known at the time of the report. -/
def known (filters : OutcomeFilters T K) (outcomes : List (HistoricalOutcomeRecord T K)) :
    List (HistoricalOutcomeRecord T K) :=
  outcomes.filter fun row => decide (row.asOf ≤ filters.asOf)

variable {filters : OutcomeFilters T K} {rows others : FilteredOutcomes T K}
  {outcomes : List (HistoricalOutcomeRecord T K)} {predicate predicate' : List Bool}

theorem filter_known (outcomes : List (HistoricalOutcomeRecord T K)) :
    (known filters outcomes).filter (includes filters) = outcomes.filter (includes filters) := by
  rw [known, List.filter_filter]
  apply List.filter_congr
  intro row _
  by_cases hlate : filters.asOf < row.asOf
  · rw [includes, if_pos hlate, Bool.false_and]
  · rw [decide_eq_true (not_lt.mp hlate), Bool.and_true]

theorem min?_eq_of_perm {times times' : List T} (h : times.Perm times') :
    times.min? = times'.min? := by
  apply Option.ext
  intro first
  rw [List.min?_eq_some_iff, List.min?_eq_some_iff, h.mem_iff]
  simp only [h.mem_iff]

theorem max?_eq_of_perm {times times' : List T} (h : times.Perm times') :
    times.max? = times'.max? := by
  apply Option.ext
  intro last
  rw [List.max?_eq_some_iff, List.max?_eq_some_iff, h.mem_iff]
  simp only [h.mem_iff]

variable [Field K] {math : SimulationMath K} {engine : HistoricalProbabilityEngine K}

theorem build_of_perm {name : String} (hrows : rows.filtered.Perm others.filtered)
    (hpredicate : predicate.Perm predicate') :
    build math engine filters others name predicate' =
      (fun figure => { figure with exclusionCount := others.excluded }) <$>
        build math engine filters rows name predicate := by
  have hfigure : ModelProbabilityEngine.build math engine.confidenceLevel name predicate' =
      ModelProbabilityEngine.build math engine.confidenceLevel name predicate := by
    rw [ModelProbabilityEngine.build, ModelProbabilityEngine.build, hpredicate.length_eq,
      hpredicate.countP_eq]
  have hmanifests : StableSort.sortBy id (others.filtered.map (·.manifestId)).dedup =
      StableSort.sortBy id (rows.filtered.map (·.manifestId)).dedup :=
    StableSort.sortBy_eq_of_perm (fun a _ b _ h => h) (hrows.symm.map _).dedup
  rw [build, build, hfigure, hmanifests, hrows.length_eq, min?_eq_of_perm (hrows.map _),
    max?_eq_of_perm (hrows.map _)]
  cases ModelProbabilityEngine.build math engine.confidenceLevel name predicate with
  | error e => rfl
  | ok figure =>
    by_cases hsparse : (figure.sampleSize : Int) < engine.minSampleSize ∧
      engine.strictSparseSamples = true
    · change (if _ then _ else _) = _ <$> (if _ then _ else _)
      rw [if_pos hsparse, if_pos hsparse]
      rfl
    · change (if _ then _ else _) = _ <$> (if _ then _ else _)
      rw [if_neg hsparse, if_neg hsparse]
      rfl

theorem reportOf_of_perm (hrows : rows.filtered.Perm others.filtered) :
    reportOf math engine filters others =
      withExclusions others.excluded <$> reportOf math engine filters rows := by
  have hbuild : ∀ (name : String) (p : HistoricalOutcomeRecord T K → Bool),
      build math engine filters others name (others.filtered.map p) =
        (fun figure => { figure with exclusionCount := others.excluded }) <$>
          build math engine filters rows name (rows.filtered.map p) :=
    fun name p => build_of_perm hrows (hrows.map p)
  simp only [reportOf, hbuild, bind_map_left, map_bind, map_pure]
  rfl

theorem evaluate_of_ne_nil (h : outcomes ≠ []) :
    evaluate math engine filters outcomes =
      if (filterOutcomes filters outcomes).filtered.isEmpty then
        .error (researchValidationError "no outcomes remain after no-look-ahead and filters")
      else reportOf math engine filters (filterOutcomes filters outcomes) :=
  if_neg (by simpa using h)

/-- The report does not depend on outcomes that are not known yet, nor on the order of the others;
what it says of them is how many outcomes it leaves out. -/
theorem evaluate_known {outcomes' : List (HistoricalOutcomeRecord T K)}
    (hknown : (known filters outcomes).Perm (known filters outcomes')) (hne : outcomes ≠ [])
    (hne' : outcomes' ≠ []) :
    evaluate math engine filters outcomes' =
      withExclusions (outcomes'.countP fun row => !includes filters row) <$>
        evaluate math engine filters outcomes := by
  have hrows : (outcomes.filter (includes filters)).Perm
      (outcomes'.filter (includes filters)) := by
    rw [← filter_known outcomes, ← filter_known outcomes']
    exact hknown.filter _
  rw [evaluate_of_ne_nil hne, evaluate_of_ne_nil hne', filterOutcomes, filterOutcomes]
  dsimp only
  rw [hrows.isEmpty_eq]
  split_ifs
  · rfl
  · exact reportOf_of_perm hrows

/-- An outcome of a day. -/
def plainOutcome (asOf : Int) : HistoricalOutcomeRecord Int ℚ :=
  ⟨asOf, 1, "calm", 1, 1, true, false, true, false⟩

theorem evaluate_known_later :
    let math : SimulationMath ℚ := ⟨id, id, fun _ => .ok 0⟩
    let filters : OutcomeFilters Int ℚ := { asOf := 3 }
    let outcomes := [plainOutcome 1, plainOutcome 2]
    let outcomes' := [plainOutcome 4, plainOutcome 2, plainOutcome 1]
    evaluate math { confidenceLevel := 0 } filters outcomes' =
      withExclusions (outcomes'.countP fun row => !includes filters row) <$>
        evaluate math { confidenceLevel := 0 } filters outcomes :=
  evaluate_known (List.Perm.swap _ _ _) (List.cons_ne_nil _ _) (List.cons_ne_nil _ _)

end Known

/-! ### Figures of the report -/

section Coherence

open ModelProbabilityEngine (realSimulation Estimates AtMost UpperQuantiles build_estimates
  build_atMost)

variable {T : Type} [LinearOrder T] {invCdf : ℝ → Except Exc ℝ}
  {engine : HistoricalProbabilityEngine ℝ} {filters : OutcomeFilters T ℝ}
  {rows : FilteredOutcomes T ℝ} {outcomes : List (HistoricalOutcomeRecord T ℝ)}
  {report : HistoricalProbabilityReport T ℝ} {figure other : HistoricalProbability T ℝ}
  {p q : HistoricalOutcomeRecord T ℝ → Bool} {name name' : String}

def figures (report : HistoricalProbabilityReport T ℝ) : List (HistoricalProbability T ℝ) :=
  [report.probabilityOfProfit, report.targetProfitProbability, report.stopLossProbability,
    report.touchProbability, report.expirationProfitabilityProbability,
    report.earlyExitProfitabilityProbability]

/-- The figure estimates over all the outcomes that are left, and accounts for the others. -/
structure Accounted (engine : HistoricalProbabilityEngine ℝ) (rows : FilteredOutcomes T ℝ)
    (figure : HistoricalProbability T ℝ) : Prop where
  estimates : Estimates figure.toProbabilityResult
  sampleSize_eq : figure.sampleSize = rows.filtered.length
  inclusionCount_eq : figure.inclusionCount = rows.filtered.length
  exclusionCount_eq : figure.exclusionCount = rows.excluded
  strict : engine.strictSparseSamples = true → engine.minSampleSize ≤ figure.sampleSize

/-- The frequency that a figure is built of. -/
theorem exists_frequency
    (hrun : build (realSimulation invCdf) engine filters rows name (rows.filtered.map p) =
      .ok figure) :
    ∃ base, ModelProbabilityEngine.build (realSimulation invCdf) engine.confidenceLevel name
        (rows.filtered.map p) = .ok base ∧
      figure.toProbabilityResult =
        { base with inclusionCount := rows.filtered.length, exclusionCount := rows.excluded } ∧
      (engine.strictSparseSamples = true → engine.minSampleSize ≤ base.sampleSize) := by
  obtain ⟨base, hbase, hrun⟩ := except_bind_eq_ok.mp hrun
  by_cases hsparse : (base.sampleSize : Int) < engine.minSampleSize ∧
    engine.strictSparseSamples = true
  · cases (if_pos hsparse).symm.trans hrun
  · cases (if_neg hsparse).symm.trans hrun
    refine ⟨base, hbase, rfl, fun hstrict => ?_⟩
    by_contra hlt
    exact hsparse ⟨not_le.mp hlt, hstrict⟩

theorem build_accounted (hquantiles : UpperQuantiles invCdf) (hlevel : 0 ≤ engine.confidenceLevel)
    (hne : rows.filtered ≠ [])
    (hrun : build (realSimulation invCdf) engine filters rows name (rows.filtered.map p) =
      .ok figure) : Accounted engine rows figure := by
  obtain ⟨base, hbase, hfigure, hstrict⟩ := exists_frequency hrun
  obtain ⟨hsize, hestimates⟩ := build_estimates hquantiles hlevel hne hbase
  refine ⟨?_, ?_, ?_, ?_, ?_⟩ <;> rw [hfigure]
  · exact hestimates
  · exact hsize
  · exact hstrict

theorem figure_atMost (hquantiles : UpperQuantiles invCdf) (hlevel : 0 ≤ engine.confidenceLevel)
    (hne : rows.filtered ≠ [])
    (hrun : build (realSimulation invCdf) engine filters rows name (rows.filtered.map p) =
      .ok figure)
    (hother : build (realSimulation invCdf) engine filters rows name' (rows.filtered.map q) =
      .ok other) (himplies : ∀ row ∈ rows.filtered, p row = true → q row = true) :
    AtMost figure.toProbabilityResult other.toProbabilityResult := by
  obtain ⟨base, hbase, hfigure, -⟩ := exists_frequency hrun
  obtain ⟨base', hbase', hfigure', -⟩ := exists_frequency hother
  have hatMost := build_atMost hquantiles hlevel hne hbase hbase' himplies
  rw [hfigure, hfigure']
  exact hatMost

end Coherence

end HistoricalProbabilityEngine
end OptionResearch
