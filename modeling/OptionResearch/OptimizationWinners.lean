import OptionResearch.ObjectiveScores

/-!
# Which evaluations win

What `OptimizationEngine.run` returns for evaluators that report every objective: the scored
succeeded evaluations compete by their weighted scores. Where no penalty interferes the best one
lies on the Pareto front. The lexicographic mode competes by the weighted scores, too, so that it
ranks by the declared priorities exactly where the scores already do.
-/

namespace OptionResearch.OptimizationEngine

open CandidateEvaluation CandidateEvaluationService ObjectiveEngine

variable {text : OptimizerText} {engine : OptimizationEngine} {problem : OptimizationProblem}
  {evaluator : EvaluatorFn} {mode : String} {maxWorkers : Int} {useLexicographic : Bool}
  {policy : NormalizationPolicy} {result : OptimizationResult} {candidates : List Candidate}
  {objectives : List ObjectiveDefinition} {evaluations : List CandidateEvaluation}
  {evaluation other winner : CandidateEvaluation}

/-- Every succeeded evaluation of the evaluator reports every objective. -/
def ReportsObjectives (text : OptimizerText) (evaluator : EvaluatorFn)
    (problem : OptimizationProblem) : Prop :=
  ∀ candidate,
    (evaluateCandidate text evaluator problem candidate).status =
      .succeeded →
    ∀ objective ∈ problem.objectives,
      ((evaluateCandidate text evaluator problem candidate).metric
        objective.metricKey).isSome

/-- No succeeded evaluation of the evaluator incurs a soft penalty. -/
def NoSoftPenalty (text : OptimizerText) (evaluator : EvaluatorFn)
    (problem : OptimizationProblem) : Prop :=
  ∀ candidate,
    (evaluateCandidate text evaluator problem candidate).status =
      .succeeded →
    ConstraintEngine.totalSoftPenalty
      (evaluateCandidate text evaluator problem
        candidate).constraintResults = 0

/-! ### Runs -/

theorem evaluateCandidates_eq_ok
    (h : evaluateCandidates text problem evaluator candidates mode maxWorkers = .ok evaluations) :
    evaluations = evaluateAll text evaluator problem candidates := by
  rw [evaluateCandidates] at h
  split_ifs at h
  · exact (Except.ok.inj h).symm
  · exact (Except.ok.inj h).symm

/-- A run that returns ranks the evaluations of the candidates that were generated. -/
theorem run_eq_ok
    (h : run text engine problem evaluator mode maxWorkers useLexicographic policy = .ok result) :
    ∃ candidates, engine.parameterGenerator.generateExhaustive text.toPyText
        problem.parameterSpace = .ok candidates ∧
      result = resultOf problem candidates (evaluateAll text evaluator problem candidates) mode
        useLexicographic policy := by
  obtain ⟨candidates, hgenerate, h⟩ := except_bind_eq_ok.mp h
  obtain ⟨evaluations, hevaluate, h⟩ := except_bind_eq_ok.mp h
  obtain rfl := evaluateCandidates_eq_ok hevaluate
  exact ⟨candidates, hgenerate, (Except.ok.inj h).symm⟩

/-- A serial run returns where candidates can be generated. -/
theorem run_serial (hgenerate : engine.parameterGenerator.generateExhaustive text.toPyText
    problem.parameterSpace = .ok candidates) :
    run text engine problem evaluator "serial" maxWorkers useLexicographic policy =
      .ok (resultOf problem candidates (evaluateAll text evaluator problem candidates) "serial"
        useLexicographic policy) := by
  rw [run, hgenerate]
  rfl

theorem evaluateAll_nodup
    (h : engine.parameterGenerator.generateExhaustive text.toPyText problem.parameterSpace =
      .ok candidates) :
    ((evaluateAll text evaluator problem candidates).map
      CandidateEvaluation.candidateId).Nodup := by
  rw [candidateId_evaluateAll]
  exact (ParameterSpaceGenerator.generateExhaustive_numbered h).1

/-! ### Scored evaluations -/

/-- The evaluations have ids of their own, and the succeeded ones report every objective. -/
structure FullyReported (objectives : List ObjectiveDefinition)
    (evaluations : List CandidateEvaluation) : Prop where
  ids_nodup : (evaluations.map CandidateEvaluation.candidateId).Nodup
  reports : ∀ evaluation ∈ evaluations.filter isSucceeded, ∀ objective ∈ objectives,
    (evaluation.metric objective.metricKey).isSome

theorem fullyReported
    (hgenerate : engine.parameterGenerator.generateExhaustive text.toPyText
      problem.parameterSpace = .ok candidates)
    (h : ReportsObjectives text evaluator problem) :
    FullyReported problem.objectives (evaluateAll text evaluator problem candidates) := by
  refine ⟨evaluateAll_nodup hgenerate, fun evaluation hmem => ?_⟩
  obtain ⟨hmem, hsucceeded⟩ := List.mem_filter.mp hmem
  obtain ⟨candidate, _, rfl⟩ := List.mem_map.mp hmem
  exact h candidate (beq_iff_eq.mp hsucceeded)

/-- The evaluation with its score. -/
def scored (objectives : List ObjectiveDefinition) (evaluations : List CandidateEvaluation)
    (useLexicographic : Bool) (policy : NormalizationPolicy) :
    CandidateEvaluation → CandidateEvaluation :=
  scoreEvaluation objectives
    (normalizeMetrics (evaluations.filter isSucceeded) objectives policy) useLexicographic

/-- The weighted mean of the figures less the penalty. -/
def merit (policy : NormalizationPolicy) (objectives : List ObjectiveDefinition)
    (evaluations : List CandidateEvaluation) (evaluation : CandidateEvaluation) : ℚ :=
  weightedSum objectives (figureOf policy (evaluations.filter isSucceeded) evaluation) /
      weightSum objectives -
    ConstraintEngine.totalSoftPenalty evaluation.constraintResults

theorem FullyReported.figure (h : FullyReported objectives evaluations)
    (hmem : evaluation ∈ evaluations.filter isSucceeded) :
    ∀ objective ∈ objectives,
      (((normalizeMetrics (evaluations.filter isSucceeded) objectives policy).get?
        evaluation.candidateId).getD .empty).get? objective.metricKey =
          some (figureOf policy (evaluations.filter isSucceeded) evaluation
            objective.metricKey) := by
  intro objective hobjective
  exact place_normalizeMetrics (h.ids_nodup.sublist (List.filter_sublist.map _)) hmem hobjective
    (h.reports evaluation hmem objective hobjective)

variable (useLexicographic policy) in
theorem FullyReported.score_scored (h : FullyReported objectives evaluations)
    (hmem : evaluation ∈ evaluations.filter isSucceeded) :
    (scored objectives evaluations useLexicographic policy evaluation).score =
      if weightSum objectives ≤ 0 then none
      else some (merit policy objectives evaluations evaluation) := by
  have hstatus : evaluation.status = .succeeded := beq_iff_eq.mp (List.mem_filter.mp hmem).2
  rw [scored, scoreEvaluation, if_neg (by rw [hstatus]; decide)]
  exact weightedScore_eq (h.figure hmem) _

variable (useLexicographic policy) in
/-- With a positive sum of weights, the score of a succeeded evaluation is its merit. -/
theorem FullyReported.score_eq_merit (h : FullyReported objectives evaluations)
    (hmem : evaluation ∈ evaluations.filter isSucceeded) (hweights : 0 < weightSum objectives) :
    (scored objectives evaluations useLexicographic policy evaluation).score =
      some (merit policy objectives evaluations evaluation) := by
  rw [h.score_scored useLexicographic policy hmem, if_neg (not_le.mpr hweights)]

/-- Without one there are no scores. -/
theorem FullyReported.weightSum_pos (h : FullyReported objectives evaluations)
    (hmem : evaluation ∈ evaluations.filter isSucceeded)
    (hscore : (scored objectives evaluations useLexicographic policy evaluation).score.isSome) :
    0 < weightSum objectives := by
  by_contra hnot
  rw [h.score_scored useLexicographic policy hmem, if_pos (not_lt.mp hnot)] at hscore
  cases hscore

/-- The evaluations that `run` lists. -/
def rescored (objectives : List ObjectiveDefinition) (evaluations : List CandidateEvaluation)
    (useLexicographic : Bool) (policy : NormalizationPolicy) : List CandidateEvaluation :=
  assignScores evaluations objectives
    (normalizeMetrics (evaluations.filter isSucceeded) objectives policy) useLexicographic

/-- Scoring changes no status. -/
theorem countStatus_rescored (status : CandidateStatus) :
    countStatus (rescored objectives evaluations useLexicographic policy) status =
      countStatus evaluations status := by
  rw [countStatus, rescored, assignScores, StableSort.sortBy_perm.countP_eq, List.countP_map,
    countStatus]
  apply List.countP_congr
  intro evaluation _
  rw [Function.comp_apply, status_scoreEvaluation]

theorem mem_succeeded_rescored :
    winner ∈ rescored objectives evaluations useLexicographic policy ∧
        winner.status = .succeeded ↔
      ∃ evaluation ∈ evaluations.filter isSucceeded,
        scored objectives evaluations useLexicographic policy evaluation = winner := by
  rw [rescored, assignScores, StableSort.mem_sortBy, List.mem_map]
  constructor
  · rintro ⟨⟨evaluation, hmem, rfl⟩, hstatus⟩
    rw [status_scoreEvaluation] at hstatus
    exact ⟨evaluation, List.mem_filter.mpr ⟨hmem, beq_iff_eq.mpr hstatus⟩, rfl⟩
  · rintro ⟨evaluation, hmem, rfl⟩
    obtain ⟨hmem, hstatus⟩ := List.mem_filter.mp hmem
    refine ⟨⟨evaluation, hmem, rfl⟩, ?_⟩
    rw [scored, status_scoreEvaluation]
    exact beq_iff_eq.mp hstatus

theorem mem_contenders_rescored :
    winner ∈ contenders (rescored objectives evaluations useLexicographic policy) ↔
      ∃ evaluation ∈ evaluations.filter isSucceeded,
        (scored objectives evaluations useLexicographic policy evaluation).score.isSome ∧
          scored objectives evaluations useLexicographic policy evaluation = winner := by
  rw [mem_contenders, ← and_assoc, mem_succeeded_rescored]
  constructor
  · rintro ⟨⟨evaluation, hmem, rfl⟩, hscore⟩
    exact ⟨evaluation, hmem, hscore, rfl⟩
  · rintro ⟨evaluation, hmem, hscore, rfl⟩
    exact ⟨⟨evaluation, hmem, rfl⟩, hscore⟩

/-! ### Small problems -/

/-- The problem of choosing one of two sides. -/
def sidesProblem (objectives : List ObjectiveDefinition) : OptimizationProblem where
  problemId := "sides"
  parameterSpace := { parameters := [.categorical "side" ["long", "short"]] }
  objectives
  constraints := []
  randomSeed := none
  softwareGitCommit := ""
  datasetManifests := []

/-- An evaluator that reports one list of metrics for the first candidate, and another for others.
-/
def metricsEvaluator (first others : Payload) : EvaluatorFn := fun _ candidate =>
  .ok (.dict [("objective_metrics",
    .dict (if candidate.candidateId = "cand-0000001" then first else others))])

def carryAndVega : List ObjectiveDefinition :=
  [ParetoEngine.maximizing "carry", ParetoEngine.maximizing "vega"]

def plainEngine : OptimizationEngine where
  parameterGenerator := {}

theorem evaluateCandidate_metricsEvaluator {first others : Payload} {candidate : Candidate} :
    evaluateCandidate text (metricsEvaluator first others)
        (sidesProblem objectives) candidate =
      { candidate
        objectiveMetrics := numericMetrics
          (if candidate.candidateId = "cand-0000001" then first else others)
        constraintResults := []
        warnings := []
        lifecycleOutcomes := []
        regimeMetadata := []
        calibrationMetadata := []
        dataQualityMetrics := []
        sampleSize := 0
        status := .succeeded
        failureReason := none
        reproducibilityMetadata := [] } := rfl

theorem reportsObjectives_metricsEvaluator {first others : Payload}
    (h : ∀ objective ∈ objectives,
      ((numericMetrics first).get? objective.metricKey).isSome ∧
        ((numericMetrics others).get? objective.metricKey).isSome) :
    ReportsObjectives text (metricsEvaluator first others) (sidesProblem objectives) := by
  intro candidate _ objective hobjective
  obtain ⟨hfirst, hothers⟩ := h objective hobjective
  rw [evaluateCandidate_metricsEvaluator, CandidateEvaluation.metric]
  dsimp only
  split_ifs
  · exact hfirst
  · exact hothers

/-! ### The best score -/

variable (policy) in
/-- Without penalties, an evaluation that dominates another has the greater merit. -/
theorem FullyReported.merit_lt (h : FullyReported objectives evaluations)
    (hweights : ∀ objective ∈ objectives, 0 < objective.weight)
    (hpenalty : ∀ evaluation ∈ evaluations.filter isSucceeded,
      ConstraintEngine.totalSoftPenalty evaluation.constraintResults = 0)
    (hpos : 0 < weightSum objectives) (hmem : evaluation ∈ evaluations.filter isSucceeded)
    (hother : other ∈ evaluations.filter isSucceeded)
    (hdominates : ParetoEngine.dominates objectives other evaluation = true) :
    merit policy objectives evaluations evaluation < merit policy objectives evaluations other := by
  have hsum := weightedSum_lt policy hweights hmem hother (h.reports evaluation hmem)
    (h.reports other hother) hdominates
  rw [merit, merit, hpenalty evaluation hmem, hpenalty other hother, sub_zero, sub_zero]
  exact div_lt_div_of_pos_right hsum hpos

/-- Among fully reported evaluations without penalties, nothing dominates the best score. -/
theorem FullyReported.winner_mem_front (h : FullyReported objectives evaluations)
    (hweights : ∀ objective ∈ objectives, 0 < objective.weight)
    (hpenalty : ∀ evaluation ∈ evaluations.filter isSucceeded,
      ConstraintEngine.totalSoftPenalty evaluation.constraintResults = 0)
    (hwinner : (selectWinners
      (rescored objectives evaluations useLexicographic policy)).head? = some winner) :
    winner ∈ (ParetoEngine.extractFront
      (rescored objectives evaluations useLexicographic policy) objectives).front := by
  rw [selectWinners, List.head?_take, if_neg (by decide)] at hwinner
  obtain ⟨hcontender, hbest⟩ := StableSort.head?_sortBy hwinner
  have hlisted := mem_contenders.mp hcontender
  apply ParetoEngine.mem_front_of_unbeaten
  · exact ParetoEngine.mem_nonFailed.mpr ⟨hlisted.1, hlisted.2.1⟩
  rintro rival hrival hdominates
  obtain ⟨evaluation, hmem, hscore, rfl⟩ := mem_contenders_rescored.mp hcontender
  obtain ⟨other, hother, rfl⟩ := mem_succeeded_rescored.mp (ParetoEngine.mem_nonFailed.mp hrival)
  have hpos := h.weightSum_pos hmem hscore
  have hscore := h.score_eq_merit useLexicographic policy hmem hpos
  have hscore' := h.score_eq_merit useLexicographic policy hother hpos
  -- the rival competes, too, and its score is greater
  have hrank := hbest _ (mem_contenders_rescored.mpr ⟨other, hother, by rw [hscore']; rfl, rfl⟩)
  have hlt := h.merit_lt policy hweights hpenalty hpos hmem hother
    (dominates_scoreEvaluation.symm.trans hdominates)
  rw [winnerKey, winnerKey, hscore, hscore', Prod.Lex.toLex_le_toLex] at hrank
  rcases hrank with hrank | ⟨heq, _⟩
  · exact hlt.asymm (neg_lt_neg_iff.mp hrank)
  · exact hlt.ne (neg_injective heq)

/-- The best weighted score is Pareto optimal: where all objectives weigh something, every objective
is reported and no penalty is incurred, the first winner belongs to the front. -/
theorem run_firstWinner_mem_paretoFront
    (hweights : ∀ objective ∈ problem.objectives, 0 < objective.weight)
    (hreports : ReportsObjectives text evaluator problem)
    (hpenalty : NoSoftPenalty text evaluator problem)
    (hrun : run text engine problem evaluator mode maxWorkers false .minMax = .ok result)
    (hwinner : result.winners.head? = some winner) : winner ∈ result.paretoFront := by
  obtain ⟨candidates, hgenerate, rfl⟩ := run_eq_ok hrun
  apply (fullyReported hgenerate hreports).winner_mem_front hweights ?_ hwinner
  intro evaluation hmem
  obtain ⟨hmem, hsucceeded⟩ := List.mem_filter.mp hmem
  obtain ⟨candidate, _, rfl⟩ := List.mem_map.mp hmem
  exact hpenalty candidate (beq_iff_eq.mp hsucceeded)

theorem run_firstWinner_mem_paretoFront_sides :
    ∃ result winner, run plainOptimizerText plainEngine
        (sidesProblem carryAndVega)
        (metricsEvaluator [("carry", .int 1), ("vega", .int 1)]
          [("carry", .int 2), ("vega", .int 1)]) "serial" 4 false .minMax = .ok result ∧
      result.winners.head? = some winner ∧ winner ∈ result.paretoFront := by
  obtain ⟨result, hrun, hsome⟩ : ∃ result, run plainOptimizerText plainEngine
      (sidesProblem carryAndVega)
      (metricsEvaluator [("carry", .int 1), ("vega", .int 1)]
        [("carry", .int 2), ("vega", .int 1)]) "serial" 4 false .minMax = .ok result ∧
      result.winners.head?.isSome := ⟨_, rfl, by decide +kernel⟩
  obtain ⟨winner, hwinner⟩ := Option.isSome_iff_exists.mp hsome
  refine ⟨result, winner, hrun, hwinner, ?_⟩
  refine run_firstWinner_mem_paretoFront ?_ ?_ (fun _ _ => rfl) hrun hwinner
  · decide
  · exact reportsObjectives_metricsEvaluator (by decide)

/-! ### The lexicographic mode -/

/-- No later winner and no succeeded evaluation that is left out has the greater tuple. -/
structure RankedLexicographically (result : OptimizationResult) : Prop where
  not_later : result.winners.Pairwise fun earlier later =>
    ¬ earlier.lexicographicTuple < later.lexicographicTuple
  not_omitted : ∀ omitted ∈ result.evaluations, omitted.status = .succeeded →
    omitted ∉ result.winners →
      ∀ winner ∈ result.winners, ¬ winner.lexicographicTuple < omitted.lexicographicTuple

/-- The metrics in the order of the objectives, signed. -/
def signedMetrics (objectives : List ObjectiveDefinition) (evaluation : CandidateEvaluation) :
    List ℚ :=
  objectives.map fun objective => objective.signed ((evaluation.metric objective.metricKey).getD 0)

/-- The order by merit, and by id among equals. -/
def meritKey (policy : NormalizationPolicy) (objectives : List ObjectiveDefinition)
    (evaluations : List CandidateEvaluation) (evaluation : CandidateEvaluation) : ℚ ×ₗ String :=
  toLex (-(merit policy objectives evaluations evaluation), evaluation.candidateId)

/-- Whatever is better by the declared priorities than one of the ten with the most merit, also
comes before it by merit. -/
def PrioritiesDecide (policy : NormalizationPolicy) (objectives : List ObjectiveDefinition)
    (evaluations : List CandidateEvaluation) : Prop :=
  ∀ item ∈ evaluations.filter isSucceeded, ∀ other ∈ evaluations.filter isSucceeded,
    signedMetrics objectives item < signedMetrics objectives other →
    (evaluations.filter isSucceeded).countP
        (meritKey policy objectives evaluations · < meritKey policy objectives evaluations item) <
      10 →
    meritKey policy objectives evaluations other < meritKey policy objectives evaluations item

theorem map_lt_map_iff {α : Type*} {items : List α} {f g f' g' : α → ℚ}
    (hlt : ∀ a ∈ items, f a < g a ↔ f' a < g' a) (hgt : ∀ a ∈ items, g a < f a ↔ g' a < f' a) :
    items.map f < items.map g ↔ items.map f' < items.map g' := by
  induction items with
  | nil => rfl
  | cons a rest ih =>
    obtain ⟨hlt, hlt'⟩ := List.forall_mem_cons.mp hlt
    obtain ⟨hgt, hgt'⟩ := List.forall_mem_cons.mp hgt
    have heq : f a = g a ↔ f' a = g' a := by
      rw [eq_iff_le_not_lt, eq_iff_le_not_lt, ← not_lt, ← not_lt, hlt, hgt]
    rw [List.map_cons, List.map_cons, List.map_cons, List.map_cons, List.cons_lt_cons_iff,
      List.cons_lt_cons_iff, hlt, heq, ih hlt' hgt']

theorem lexicographicTuple_eq {normalizedMetrics : InsertionDict String ℚ} {figure : String → ℚ}
    (h : ∀ objective ∈ objectives,
      normalizedMetrics.get? objective.metricKey = some (figure objective.metricKey)) :
    ObjectiveEngine.lexicographicTuple objectives normalizedMetrics =
      some (objectives.map fun objective => objective.signed (figure objective.metricKey)) := by
  rw [ObjectiveEngine.lexicographicTuple]
  induction objectives with
  | nil => rfl
  | cons objective rest ih =>
    obtain ⟨hfirst, hrest⟩ := List.forall_mem_cons.mp h
    rw [List.mapM_cons, resolveMetric_of_get? hfirst, ih hrest]
    rfl

theorem FullyReported.lexicographicTuple_scored (h : FullyReported objectives evaluations)
    (hmem : evaluation ∈ evaluations.filter isSucceeded) :
    (scored objectives evaluations true policy evaluation).lexicographicTuple =
      objectives.map fun objective => objective.signed
        (figureOf policy (evaluations.filter isSucceeded) evaluation objective.metricKey) := by
  have hstatus : evaluation.status = .succeeded := beq_iff_eq.mp (List.mem_filter.mp hmem).2
  rw [scored, scoreEvaluation, if_neg (by rw [hstatus]; decide)]
  dsimp only
  rw [if_pos rfl, lexicographicTuple_eq (h.figure hmem), Option.getD_some]

/-- Normalized or not, the tuples compare as the metrics do. -/
theorem FullyReported.lexicographicTuple_lt_iff (h : FullyReported objectives evaluations)
    (hmem : evaluation ∈ evaluations.filter isSucceeded)
    (hother : other ∈ evaluations.filter isSucceeded) :
    (scored objectives evaluations true policy evaluation).lexicographicTuple <
        (scored objectives evaluations true policy other).lexicographicTuple ↔
      signedMetrics objectives evaluation < signedMetrics objectives other := by
  rw [h.lexicographicTuple_scored hmem, h.lexicographicTuple_scored hother, signedMetrics,
    signedMetrics]
  apply map_lt_map_iff
  · intro objective hobjective
    obtain ⟨metric, hmetric⟩ :=
      Option.isSome_iff_exists.mp (h.reports evaluation hmem objective hobjective)
    obtain ⟨metric', hmetric'⟩ :=
      Option.isSome_iff_exists.mp (h.reports other hother objective hobjective)
    rw [hmetric, hmetric']
    exact signed_figureOf_lt_iff hmem hother hmetric hmetric'
  · intro objective hobjective
    obtain ⟨metric, hmetric⟩ :=
      Option.isSome_iff_exists.mp (h.reports evaluation hmem objective hobjective)
    obtain ⟨metric', hmetric'⟩ :=
      Option.isSome_iff_exists.mp (h.reports other hother objective hobjective)
    rw [hmetric, hmetric']
    exact signed_figureOf_lt_iff hother hmem hmetric' hmetric

theorem FullyReported.winnerKey_scored (h : FullyReported objectives evaluations)
    (hpos : 0 < weightSum objectives) (hmem : evaluation ∈ evaluations.filter isSucceeded) :
    winnerKey (scored objectives evaluations useLexicographic policy evaluation) =
      meritKey policy objectives evaluations evaluation := by
  rw [winnerKey, h.score_eq_merit useLexicographic policy hmem hpos, scored,
    candidateId_scoreEvaluation]
  rfl

/-- With a positive sum of weights, all succeeded evaluations compete. -/
theorem FullyReported.contenders_perm (h : FullyReported objectives evaluations)
    (hpos : 0 < weightSum objectives) :
    (contenders (rescored objectives evaluations useLexicographic policy)).Perm
      ((evaluations.filter isSucceeded).map
        (scored objectives evaluations useLexicographic policy)) := by
  have hfilter : (evaluations.map (scored objectives evaluations useLexicographic policy)).filter
      (fun item => item.isSucceeded && item.score.isSome) =
      (evaluations.filter isSucceeded).map
        (scored objectives evaluations useLexicographic policy) := by
    rw [List.filter_map]
    apply congrArg
    apply List.filter_congr
    intro evaluation hmem
    rw [Function.comp_apply, isSucceeded, isSucceeded, scored, status_scoreEvaluation]
    cases hsucceeded : evaluation.status == .succeeded with
    | false => rfl
    | true =>
      have hscore := h.score_eq_merit useLexicographic policy
        (List.mem_filter.mpr ⟨hmem, hsucceeded⟩) hpos
      rw [scored] at hscore
      rw [hscore]
      rfl
  rw [← hfilter]
  exact StableSort.sortBy_perm.filter _

theorem FullyReported.winnerKeys_nodup (h : FullyReported objectives evaluations) :
    ((contenders (rescored objectives evaluations useLexicographic policy)).map
      winnerKey).Nodup := by
  have hscored : (evaluations.map (scored objectives evaluations useLexicographic policy)).map
      CandidateEvaluation.candidateId = evaluations.map CandidateEvaluation.candidateId := by
    rw [List.map_map]
    exact List.map_congr_left fun _ _ => candidateId_scoreEvaluation
  have hids : ((rescored objectives evaluations useLexicographic policy).map
      CandidateEvaluation.candidateId).Nodup := by
    apply (StableSort.sortBy_perm.map CandidateEvaluation.candidateId).nodup_iff.mpr
    exact hscored ▸ h.ids_nodup
  apply List.Nodup.of_map fun key : ℚ ×ₗ String => (ofLex key).2
  rw [List.map_map]
  exact hids.sublist (List.filter_sublist.map _)

/-- The winners are ranked by the declared priorities exactly where these decide the merits. -/
theorem FullyReported.ranked_iff (h : FullyReported objectives evaluations)
    (hpos : 0 < weightSum objectives) :
    ((selectWinners (rescored objectives evaluations true policy)).Pairwise (fun earlier later =>
        ¬ earlier.lexicographicTuple < later.lexicographicTuple) ∧
      ∀ omitted ∈ contenders (rescored objectives evaluations true policy),
        omitted ∉ selectWinners (rescored objectives evaluations true policy) →
          ∀ winner ∈ selectWinners (rescored objectives evaluations true policy),
            ¬ winner.lexicographicTuple < omitted.lexicographicTuple) ↔
      PrioritiesDecide policy objectives evaluations := by
  refine (StableSort.take_sortBy_unbeaten_iff h.winnerKeys_nodup
    fun item => lt_irrefl item.lexicographicTuple).trans ?_
  have hperm : (contenders (rescored objectives evaluations true policy)).Perm _ :=
    h.contenders_perm hpos
  have hall : ∀ P : CandidateEvaluation → Prop,
      (∀ item ∈ contenders (rescored objectives evaluations true policy), P item) ↔
        ∀ item ∈ evaluations.filter isSucceeded,
          P (scored objectives evaluations true policy item) := by
    intro P
    refine Iff.trans ?_ List.forall_mem_map
    exact forall_congr' fun item => by rw [hperm.mem_iff]
  rw [hall, PrioritiesDecide]
  refine forall₂_congr fun item hitem => ?_
  rw [hall]
  refine forall₂_congr fun other hother => ?_
  have hcount : (evaluations.filter isSucceeded).countP
      ((winnerKey · < winnerKey (scored objectives evaluations true policy item)) ∘
        scored objectives evaluations true policy) =
      (evaluations.filter isSucceeded).countP
        (meritKey policy objectives evaluations · <
          meritKey policy objectives evaluations item) := by
    apply List.countP_congr
    intro rival hrival
    rw [Function.comp_apply, h.winnerKey_scored hpos hitem, h.winnerKey_scored hpos hrival]
  rw [h.lexicographicTuple_lt_iff hitem hother, hperm.countP_eq, List.countP_map, hcount,
    h.winnerKey_scored hpos hitem, h.winnerKey_scored hpos hother]

/-- The lexicographic mode ranks by the declared priorities exactly where these decide the merits,
or where the weights have no positive sum and nothing can win. -/
theorem run_rankedLexicographically_iff
    (hreports : ReportsObjectives text evaluator problem)
    (hgenerate : engine.parameterGenerator.generateExhaustive text.toPyText
      problem.parameterSpace = .ok candidates)
    (hrun : run text engine problem evaluator mode maxWorkers true policy = .ok result) :
    RankedLexicographically result ↔
      (0 < weightSum problem.objectives →
        PrioritiesDecide policy problem.objectives
          (evaluateAll text evaluator problem candidates)) := by
  obtain ⟨generated, hgenerated, rfl⟩ := run_eq_ok hrun
  obtain rfl := Except.ok.inj (hgenerate.symm.trans hgenerated)
  have h := fullyReported hgenerate hreports
  by_cases hpos : 0 < weightSum problem.objectives
  · rw [← h.ranked_iff hpos]
    constructor
    · intro hranked _
      refine ⟨hranked.not_later, fun omitted hmem => ?_⟩
      obtain ⟨hmem, hstatus, _⟩ := mem_contenders.mp hmem
      exact hranked.not_omitted omitted hmem hstatus
    · intro hranked
      obtain ⟨hlater, homitted⟩ := hranked hpos
      refine ⟨hlater, fun omitted hmem hstatus => homitted omitted ?_⟩
      obtain ⟨evaluation, hevaluation, rfl⟩ := mem_succeeded_rescored.mp ⟨hmem, hstatus⟩
      exact mem_contenders_rescored.mpr ⟨evaluation, hevaluation,
        by rw [h.score_eq_merit true policy hevaluation hpos]; rfl, rfl⟩
  · refine iff_of_true ?_ fun h => absurd h hpos
    have hnone : (resultOf problem candidates (evaluateAll text evaluator problem candidates) mode
        true policy).winners = [] := by
      apply List.eq_nil_iff_forall_not_mem.mpr
      intro winner hmem
      obtain ⟨evaluation, hevaluation, hscore, _⟩ :=
        mem_contenders_rescored.mp (StableSort.mem_sortBy.mp (List.mem_of_mem_take hmem))
      exact hpos (h.weightSum_pos hevaluation hscore)
    constructor
    · rw [hnone]
      exact List.Pairwise.nil
    · intro omitted _ _ _ winner hwinner
      rw [hnone] at hwinner
      exact absurd hwinner List.not_mem_nil

/-- Both objectives prefer the second side. -/
def agreeingEvaluator : EvaluatorFn :=
  metricsEvaluator [("carry", .int 1), ("vega", .int 1)] [("carry", .int 2), ("vega", .int 2)]

theorem run_rankedLexicographically_agreeing :
    ∃ result, run plainOptimizerText plainEngine (sidesProblem carryAndVega) agreeingEvaluator
        "serial" 4 true .minMax = .ok result ∧
      RankedLexicographically result := by
  obtain ⟨candidates, hgenerate, hdecide⟩ : ∃ candidates,
      plainEngine.parameterGenerator.generateExhaustive plainOptimizerText.toPyText
        (sidesProblem carryAndVega).parameterSpace = .ok candidates ∧
      PrioritiesDecide .minMax carryAndVega
        (evaluateAll plainOptimizerText agreeingEvaluator (sidesProblem carryAndVega)
          candidates) := by
    refine ⟨_, rfl, ?_⟩
    unfold PrioritiesDecide
    decide +kernel
  obtain ⟨result, hrun⟩ : ∃ result, run plainOptimizerText plainEngine (sidesProblem carryAndVega)
      agreeingEvaluator "serial" 4 true .minMax = .ok result := ⟨_, rfl⟩
  refine ⟨result, hrun, (run_rankedLexicographically_iff ?_ hgenerate hrun).mpr fun _ => hdecide⟩
  exact reportsObjectives_metricsEvaluator (by decide)

/-- The second objective weighs more, and the declared priority of the first one is lost. -/
theorem run_rankedLexicographically_heavyVega :
    ¬ ∀ (text : OptimizerText) (engine : OptimizationEngine) (problem : OptimizationProblem)
        (evaluator : EvaluatorFn) (mode : String) (maxWorkers : Int) (policy : NormalizationPolicy)
        (result : OptimizationResult), ReportsObjectives text evaluator problem →
        run text engine problem evaluator mode maxWorkers true policy = .ok result →
        RankedLexicographically result := by
  intro h
  have hranked := h plainOptimizerText plainEngine
    (sidesProblem [ParetoEngine.maximizing "carry",
      { ParetoEngine.maximizing "vega" with weight := 2 }])
    (metricsEvaluator [("carry", .int 2), ("vega", .int 1)] [("carry", .int 1), ("vega", .int 2)])
    "serial" 4 .minMax _ (reportsObjectives_metricsEvaluator (by decide)) rfl
  exact absurd hranked.not_later (by decide +kernel)

end OptionResearch.OptimizationEngine
