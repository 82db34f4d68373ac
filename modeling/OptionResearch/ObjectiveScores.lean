import OptionResearch.OptimizationEngine
import Mathlib.Algebra.Order.Field.Basic
import Mathlib.Algebra.Order.BigOperators.Group.List
import Mathlib.Tactic.Linarith

/-!
# What a score is made of

Where evaluations have distinct ids, normalization gives each its own figure for every objective,
the metric itself or its place between the least and the greatest one, which keeps the order of the
metrics. The score is the weighted mean of the figures, so that an evaluation that dominates another
scores more.
-/

namespace OptionResearch

open CandidateEvaluation

variable {objective : ObjectiveDefinition} {objectives : List ObjectiveDefinition}
  {evaluations : List CandidateEvaluation} {evaluation other : CandidateEvaluation}

namespace ObjectiveDefinition

theorem signed_lt_iff {value better : ℚ} :
    objective.signed value < objective.signed better ↔ objective.prefers better value := by
  unfold signed prefers
  cases objective.direction with
  | maximize => exact Iff.rfl
  | minimize => exact neg_lt_neg_iff

end ObjectiveDefinition

namespace ObjectiveEngine

/-! ### Scaling -/

variable {metricKey : String} {metric better : ℚ}

theorem mem_reported (hmem : evaluation ∈ evaluations)
    (hmetric : evaluation.metric metricKey = some metric) :
    metric ∈ reported evaluations metricKey :=
  List.mem_filterMap.mpr ⟨evaluation, hmem, hmetric⟩

/-- Between two different values that are reported there is a width. -/
theorem width_pos (hmetric : metric ∈ reported evaluations metricKey)
    (hbetter : better ∈ reported evaluations metricKey) (hlt : metric < better) :
    0 < (reported evaluations metricKey).max?.getD 0 -
      (reported evaluations metricKey).min?.getD 0 := by
  obtain ⟨least, hleast⟩ : ∃ least, (reported evaluations metricKey).min? = some least :=
    Option.isSome_iff_exists.mp (List.isSome_min?_of_mem hmetric)
  obtain ⟨greatest, hgreatest⟩ :
      ∃ greatest, (reported evaluations metricKey).max? = some greatest :=
    Option.isSome_iff_exists.mp (List.isSome_max?_of_mem hmetric)
  have hmin : least ≤ metric := (List.min?_eq_some_iff.mp hleast).2 metric hmetric
  have hmax : better ≤ greatest := (List.max?_eq_some_iff.mp hgreatest).2 better hbetter
  rw [hleast, hgreatest, Option.getD_some, Option.getD_some]
  linarith

theorem scaled_lt (hmetric : metric ∈ reported evaluations metricKey)
    (hbetter : better ∈ reported evaluations metricKey) (hlt : metric < better) :
    scaled evaluations metricKey (some metric) < scaled evaluations metricKey (some better) := by
  have hwidth := width_pos hmetric hbetter hlt
  simp only [scaled]
  rw [if_neg (not_le.mpr hwidth), if_neg (not_le.mpr hwidth)]
  exact div_lt_div_of_pos_right (by linarith) hwidth

/-- Scaling keeps which of two reported values is preferred. -/
theorem prefers_scaled (hmetric : metric ∈ reported evaluations metricKey)
    (hbetter : better ∈ reported evaluations metricKey) (h : objective.prefers better metric) :
    objective.prefers (scaled evaluations metricKey (some better))
      (scaled evaluations metricKey (some metric)) := by
  unfold ObjectiveDefinition.prefers at h ⊢
  cases hdirection : objective.direction with
  | maximize =>
    rw [hdirection] at h
    exact scaled_lt hmetric hbetter h
  | minimize =>
    rw [hdirection] at h
    exact scaled_lt hbetter hmetric h

theorem not_prefers_scaled (hmetric : metric ∈ reported evaluations metricKey)
    (hbetter : better ∈ reported evaluations metricKey) (h : ¬ objective.prefers metric better) :
    ¬ objective.prefers (scaled evaluations metricKey (some metric))
      (scaled evaluations metricKey (some better)) := by
  by_cases heq : metric = better
  · rw [heq]
    exact fun hself => ParetoEngine.prefers_asymm hself hself
  · have hprefers : objective.prefers better metric := by
      unfold ObjectiveDefinition.prefers at h ⊢
      cases hdirection : objective.direction with
      | maximize =>
        rw [hdirection] at h
        exact lt_of_le_of_ne (not_lt.mp h) heq
      | minimize =>
        rw [hdirection] at h
        exact lt_of_le_of_ne (not_lt.mp h) (Ne.symm heq)
    exact ParetoEngine.prefers_asymm (prefers_scaled hmetric hbetter hprefers)

/-! ### Normalized metrics -/

/-- `normalized.get(candidate_id, {}).get(metric_key)`. -/
def place (normalized : NormalizedMetrics) (candidateId metricKey : String) : Option ℚ :=
  ((normalized.get? candidateId).getD .empty).get? metricKey

theorem place_enter (normalized : NormalizedMetrics) (candidateId metricKey : String) (value : ℚ)
    (otherId otherKey : String) :
    place (enter normalized candidateId metricKey value) otherId otherKey =
      if otherId = candidateId ∧ otherKey = metricKey then some value
      else place normalized otherId otherKey := by
  rw [place, enter, InsertionDict.get?_set]
  by_cases hid : otherId = candidateId
  · rw [if_pos hid, Option.getD_some, InsertionDict.get?_set, hid]
    by_cases hkey : otherKey = metricKey
    · rw [if_pos hkey, if_pos ⟨rfl, hkey⟩]
    · rw [if_neg hkey, if_neg fun h => hkey h.2, place]
  · rw [if_neg hid, if_neg fun h => hid h.1, place]

/-- Entering a figure for each evaluation leaves the places of other candidates and metrics. -/
theorem place_foldl_enter_of_not_mem {figure : CandidateEvaluation → ℚ}
    {listed : List CandidateEvaluation}
    (normalized : NormalizedMetrics) {candidateId otherKey : String}
    (h : candidateId ∉ listed.map CandidateEvaluation.candidateId ∨ otherKey ≠ metricKey) :
    place (listed.foldl (fun normalized item =>
        enter normalized item.candidateId metricKey (figure item)) normalized)
        candidateId otherKey =
      place normalized candidateId otherKey := by
  induction listed generalizing normalized with
  | nil => rfl
  | cons item rest ih =>
    rw [List.foldl_cons, ih, place_enter, if_neg]
    · rintro ⟨rfl, rfl⟩
      rcases h with h | h
      · exact h (List.mem_map_of_mem List.mem_cons_self)
      · exact h rfl
    · exact h.imp_left fun hnot hmem => hnot (List.mem_cons_of_mem _ hmem)

theorem place_foldl_enter {figure : CandidateEvaluation → ℚ} {listed : List CandidateEvaluation}
    (hids : (listed.map CandidateEvaluation.candidateId).Nodup) (normalized : NormalizedMetrics)
    (hmem : evaluation ∈ listed) :
    place (listed.foldl (fun normalized item =>
        enter normalized item.candidateId metricKey (figure item)) normalized)
      evaluation.candidateId metricKey = some (figure evaluation) := by
  induction listed generalizing normalized with
  | nil => exact absurd hmem List.not_mem_nil
  | cons item rest ih =>
    rw [List.map_cons, List.nodup_cons] at hids
    rw [List.foldl_cons]
    rcases List.mem_cons.mp hmem with rfl | hrest
    · rw [place_foldl_enter_of_not_mem _ (.inl hids.1), place_enter, if_pos ⟨rfl, rfl⟩]
    · exact ih hids.2 _ hrest

/-- The figure of a metric that the policy gives an evaluation that reports it. -/
def figureOf (policy : NormalizationPolicy) (evaluations : List CandidateEvaluation)
    (evaluation : CandidateEvaluation) (metricKey : String) : ℚ :=
  match policy with
  | .none => (evaluation.metric metricKey).getD 0
  | .minMax => scaled evaluations metricKey (evaluation.metric metricKey)

theorem get?_foldl_set_of_not_mem {listed : List CandidateEvaluation}
    (normalized : NormalizedMetrics) {candidateId : String}
    (h : candidateId ∉ listed.map CandidateEvaluation.candidateId) :
    (listed.foldl (fun normalized item =>
        normalized.set item.candidateId item.objectiveMetrics) normalized).get? candidateId =
      normalized.get? candidateId := by
  induction listed generalizing normalized with
  | nil => rfl
  | cons item rest ih =>
    rw [List.map_cons, List.mem_cons, not_or] at h
    rw [List.foldl_cons, ih _ h.2, InsertionDict.get?_set, if_neg h.1]

theorem get?_foldl_set {listed : List CandidateEvaluation}
    (hids : (listed.map CandidateEvaluation.candidateId).Nodup) (normalized : NormalizedMetrics)
    (hmem : evaluation ∈ listed) :
    (listed.foldl (fun normalized item =>
        normalized.set item.candidateId item.objectiveMetrics) normalized).get?
      evaluation.candidateId = some evaluation.objectiveMetrics := by
  induction listed generalizing normalized with
  | nil => exact absurd hmem List.not_mem_nil
  | cons item rest ih =>
    rw [List.map_cons, List.nodup_cons] at hids
    rw [List.foldl_cons]
    rcases List.mem_cons.mp hmem with rfl | hrest
    · rw [get?_foldl_set_of_not_mem _ hids.1, InsertionDict.get?_set, if_pos rfl]
    · exact ih hids.2 _ hrest

theorem place_minMax (hids : (evaluations.map CandidateEvaluation.candidateId).Nodup)
    (hmem : evaluation ∈ evaluations) (hobjective : objective ∈ objectives) :
    place (normalizeMetrics evaluations objectives .minMax) evaluation.candidateId
        objective.metricKey =
      some (scaled evaluations objective.metricKey (evaluation.metric objective.metricKey)) := by
  rw [normalizeMetrics]
  induction objectives using List.reverseRecOn with
  | nil => exact absurd hobjective List.not_mem_nil
  | append_singleton earlier last ih =>
    rw [List.foldl_append, List.foldl_cons, List.foldl_nil]
    by_cases hkey : objective.metricKey = last.metricKey
    · rw [hkey]
      exact place_foldl_enter hids _ hmem
    · rw [place_foldl_enter_of_not_mem _ (.inr hkey)]
      apply ih
      rcases List.mem_append.mp hobjective with hearlier | hlast
      · exact hearlier
      · obtain rfl := List.mem_singleton.mp hlast
        exact absurd rfl hkey

/-- Every evaluation gets its own figures. -/
theorem place_normalizeMetrics {policy : NormalizationPolicy}
    (hids : (evaluations.map CandidateEvaluation.candidateId).Nodup)
    (hmem : evaluation ∈ evaluations) (hobjective : objective ∈ objectives)
    (hreports : (evaluation.metric objective.metricKey).isSome) :
    place (normalizeMetrics evaluations objectives policy) evaluation.candidateId
        objective.metricKey =
      some (figureOf policy evaluations evaluation objective.metricKey) := by
  cases policy with
  | minMax => exact place_minMax hids hmem hobjective
  | none =>
    obtain ⟨metric, hmetric⟩ := Option.isSome_iff_exists.mp hreports
    rw [place, normalizeMetrics, get?_foldl_set hids _ hmem, Option.getD_some, figureOf, hmetric]
    exact hmetric

/-- Figures keep which of two reported values is preferred. -/
theorem signed_figureOf_lt_iff {policy : NormalizationPolicy} (hmem : evaluation ∈ evaluations)
    (hother : other ∈ evaluations) (hmetric : evaluation.metric objective.metricKey = some metric)
    (hbetter : other.metric objective.metricKey = some better) :
    objective.signed (figureOf policy evaluations evaluation objective.metricKey) <
        objective.signed (figureOf policy evaluations other objective.metricKey) ↔
      objective.signed metric < objective.signed better := by
  rw [ObjectiveDefinition.signed_lt_iff, ObjectiveDefinition.signed_lt_iff]
  cases policy with
  | none => rw [figureOf, figureOf, hmetric, hbetter, Option.getD_some, Option.getD_some]
  | minMax =>
    rw [figureOf, figureOf, hmetric, hbetter]
    have hin := mem_reported hmem hmetric
    have hin' := mem_reported hother hbetter
    exact ⟨fun h => by_contra fun hnot => not_prefers_scaled hin' hin hnot h,
      prefers_scaled hin hin'⟩

/-! ### Scores -/

variable {normalizedMetrics : InsertionDict String ℚ}

theorem resolveMetric_of_get? {value : ℚ}
    (h : normalizedMetrics.get? objective.metricKey = some value) :
    resolveMetric normalizedMetrics objective = some value := by
  rw [resolveMetric, h]

/-- The weighted sum of the figures, signed. -/
def weightedSum (objectives : List ObjectiveDefinition) (figure : String → ℚ) : ℚ :=
  (objectives.map fun objective => objective.signed (figure objective.metricKey) *
    objective.weight).sum

def weightSum (objectives : List ObjectiveDefinition) : ℚ := (objectives.map (·.weight)).sum

theorem weigh_eq {figure : String → ℚ}
    (h : ∀ objective ∈ objectives,
      normalizedMetrics.get? objective.metricKey = some (figure objective.metricKey))
    (weightedTotal totalWeight : ℚ) :
    weigh normalizedMetrics objectives weightedTotal totalWeight =
      some (weightedTotal + weightedSum objectives figure, totalWeight + weightSum objectives) := by
  induction objectives generalizing weightedTotal totalWeight with
  | nil => simp [weigh, weightedSum, weightSum]
  | cons objective rest ih =>
    obtain ⟨hfirst, hrest⟩ := List.forall_mem_cons.mp h
    rw [weigh, resolveMetric_of_get? hfirst]
    dsimp only
    rw [ih hrest]
    simp only [weightedSum, weightSum, List.map_cons, List.sum_cons, add_assoc]

/-- With all metrics in place, the score is the weighted mean of the figures less the penalty. -/
theorem weightedScore_eq {figure : String → ℚ}
    (h : ∀ objective ∈ objectives,
      normalizedMetrics.get? objective.metricKey = some (figure objective.metricKey))
    (softPenalty : ℚ) :
    weightedScore objectives normalizedMetrics softPenalty =
      if weightSum objectives ≤ 0 then none
      else some (weightedSum objectives figure / weightSum objectives - softPenalty) := by
  rw [weightedScore, weigh_eq h, zero_add, zero_add]

/-- A dominating evaluation has the greater weighted sum. -/
theorem weightedSum_lt (policy : NormalizationPolicy)
    (hweights : ∀ objective ∈ objectives, 0 < objective.weight)
    (hmem : evaluation ∈ evaluations) (hother : other ∈ evaluations)
    (hreports : ∀ objective ∈ objectives, (evaluation.metric objective.metricKey).isSome)
    (hreports' : ∀ objective ∈ objectives, (other.metric objective.metricKey).isSome)
    (h : ParetoEngine.dominates objectives other evaluation = true) :
    weightedSum objectives (figureOf policy evaluations evaluation) <
      weightedSum objectives (figureOf policy evaluations other) := by
  obtain ⟨hworse, best, hbest, hbetter⟩ := ParetoEngine.dominates_iff.mp h
  apply List.sum_lt_sum
  · intro objective hobjective
    obtain ⟨metric, hmetric⟩ := Option.isSome_iff_exists.mp (hreports objective hobjective)
    obtain ⟨metric', hmetric'⟩ := Option.isSome_iff_exists.mp (hreports' objective hobjective)
    have hnot : ¬ objective.prefers metric metric' := fun hprefers =>
      hworse objective hobjective ⟨metric, metric', hmetric, hmetric', hprefers⟩
    apply mul_le_mul_of_nonneg_right ?_ (hweights objective hobjective).le
    rw [← not_lt, signed_figureOf_lt_iff hother hmem hmetric' hmetric,
      ObjectiveDefinition.signed_lt_iff]
    exact hnot
  · obtain ⟨metric', metric, hmetric', hmetric, hprefers⟩ := hbetter
    refine ⟨best, hbest, mul_lt_mul_of_pos_right ?_ (hweights best hbest)⟩
    rw [signed_figureOf_lt_iff hmem hother hmetric hmetric', ObjectiveDefinition.signed_lt_iff]
    exact hprefers

end ObjectiveEngine

namespace OptimizationEngine

variable {normalized : ObjectiveEngine.NormalizedMetrics} {useLexicographic : Bool}

@[simp] theorem status_scoreEvaluation :
    (scoreEvaluation objectives normalized useLexicographic evaluation).status =
      evaluation.status := by
  rw [scoreEvaluation]
  split_ifs <;> rfl

@[simp] theorem candidateId_scoreEvaluation :
    (scoreEvaluation objectives normalized useLexicographic evaluation).candidateId =
      evaluation.candidateId := by
  rw [scoreEvaluation]
  split_ifs <;> rfl

@[simp] theorem metric_scoreEvaluation (metricKey : String) :
    (scoreEvaluation objectives normalized useLexicographic evaluation).metric metricKey =
      evaluation.metric metricKey := by
  rw [scoreEvaluation]
  split_ifs <;> rfl

theorem dominates_scoreEvaluation :
    ParetoEngine.dominates objectives
        (scoreEvaluation objectives normalized useLexicographic evaluation)
        (scoreEvaluation objectives normalized useLexicographic other) =
      ParetoEngine.dominates objectives evaluation other := by
  rw [Bool.eq_iff_iff, ParetoEngine.dominates_iff, ParetoEngine.dominates_iff]
  simp only [Better, metric_scoreEvaluation]

theorem mem_contenders : evaluation ∈ contenders evaluations ↔
    evaluation ∈ evaluations ∧ evaluation.status = .succeeded ∧ evaluation.score.isSome := by
  rw [contenders, List.mem_filter, Bool.and_eq_true, isSucceeded, beq_iff_eq]

end OptimizationEngine
end OptionResearch
