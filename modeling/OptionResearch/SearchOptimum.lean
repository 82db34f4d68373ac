import OptionResearch.GeneticSearch
import OptionResearch.OptimizationWinners

/-!
# What a search returns

Every adapter returns the first of its evaluations by the objective's metric, the greatest one,
whatever the direction of the objective and whatever became of the candidate.
-/

namespace OptionResearch

open CandidateEvaluation CandidateEvaluationService SingleObjectiveSearchAdapter

variable {objective : ObjectiveDefinition} {evaluations : List CandidateEvaluation}
  {evaluation other : CandidateEvaluation} {result : OptimizationResult}

namespace CandidateEvaluation

/-- The first reports a better value than the second, which may report none. -/
def Outdoes (objective : ObjectiveDefinition) (left right : CandidateEvaluation) : Prop :=
  ∃ value, left.metric objective.metricKey = some value ∧
    ∀ other, right.metric objective.metricKey = some other → objective.prefers value other

end CandidateEvaluation

/-- Where something succeeded, the winner did, and nothing that succeeded outdoes it. -/
def ValidOptimum (objective : ObjectiveDefinition) (result : OptimizationResult) : Prop :=
  (∃ evaluation ∈ result.evaluations, evaluation.status = .succeeded) →
    ∃ winner, result.winners = [winner] ∧ winner.status = .succeeded ∧
      ∀ evaluation ∈ result.evaluations, evaluation.status = .succeeded →
        ¬ Outdoes objective evaluation winner

/-- Where something succeeded, some such evaluation ranks before all failed and rejected ones, and
the greatest value is the best one: it is to be maximized, or no other one is reported. -/
def GreatestIsBest (objective : ObjectiveDefinition) (evaluations : List CandidateEvaluation) :
    Prop :=
  (∃ evaluation ∈ evaluations, evaluation.status = .succeeded) →
    (∃ first ∈ evaluations, first.status = .succeeded ∧
      ∀ other ∈ evaluations, other.status ≠ .succeeded →
        metricKey objective.metricKey first < metricKey objective.metricKey other) ∧
    (objective.direction = .maximize ∨
      ∀ left ∈ evaluations, left.status = .succeeded →
        ∀ right ∈ evaluations, right.status = .succeeded →
          ∀ value, left.metric objective.metricKey = some value →
            ∀ other, right.metric objective.metricKey = some other → value = other)

namespace SingleObjectiveSearchAdapter

/-- What ranks no later than an evaluation that reports, reports no less. -/
theorem metric_of_metricKey_le {key : String} {value : ℚ}
    (hle : metricKey key evaluation ≤ metricKey key other)
    (hvalue : other.metric key = some value) :
    ∃ best, evaluation.metric key = some best ∧ value ≤ best := by
  have hfirst : negated (evaluation.metric key) ≤ negated (other.metric key) := by
    rcases Prod.Lex.toLex_le_toLex.mp hle with hlt | ⟨heq, _⟩
    · exact hlt.le
    · exact heq.le
  rw [hvalue] at hfirst
  cases hbest : evaluation.metric key with
  | none =>
    rw [hbest] at hfirst
    exact absurd hfirst (not_le.mpr (WithTop.coe_lt_top _))
  | some best =>
    rw [hbest] at hfirst
    exact ⟨best, rfl, neg_le_neg_iff.mp (WithTop.coe_le_coe.mp hfirst)⟩

theorem candidateId_of_metricKey_eq {key : String}
    (h : metricKey key evaluation = metricKey key other) :
    evaluation.candidateId = other.candidateId := congrArg (fun k => (ofLex k).2) h

/-- In a ranking by the metric, the evaluation to be maximized that comes first is not outdone. -/
theorem not_outdoes_of_maximize (hmaximize : objective.direction = .maximize)
    (hle : metricKey objective.metricKey evaluation ≤ metricKey objective.metricKey other) :
    ¬ Outdoes objective other evaluation := by
  rintro ⟨value, hvalue, hprefers⟩
  obtain ⟨best, hmetric, hbest⟩ := metric_of_metricKey_le hle hvalue
  have hbetter := hprefers best hmetric
  rw [ObjectiveDefinition.prefers, hmaximize] at hbetter
  exact absurd hbest (not_le.mpr hbetter)

/-- The one to be minimized that comes first is not outdone only by its own value. -/
theorem metric_eq_of_not_outdoes {value : ℚ} (hminimize : objective.direction = .minimize)
    (hle : metricKey objective.metricKey evaluation ≤ metricKey objective.metricKey other)
    (hnot : ¬ Outdoes objective other evaluation)
    (hvalue : other.metric objective.metricKey = some value) :
    evaluation.metric objective.metricKey = some value := by
  obtain ⟨best, hmetric, hbest⟩ := metric_of_metricKey_le hle hvalue
  have hge : ¬ value < best := by
    intro hlt
    refine hnot ⟨value, hvalue, fun reported hreported => ?_⟩
    obtain rfl := Option.some.inj (hmetric.symm.trans hreported)
    rw [ObjectiveDefinition.prefers, hminimize]
    exact hlt
  rw [hmetric, le_antisymm hbest (not_lt.mp hge)]

section ResultOf

variable {problem : OptimizationProblem} {ordering : List Candidate} {diagnostics : Payload}
  {seed : Option Int}

theorem mem_evaluations_resultOf :
    evaluation ∈ (resultOf problem objective ordering evaluations diagnostics seed).evaluations ↔
      evaluation ∈ evaluations := StableSort.mem_sortBy

/-- The winner comes first by the metric. -/
theorem winner_resultOf
    (h : (resultOf problem objective ordering evaluations diagnostics seed).winners =
      [evaluation]) :
    evaluation ∈ evaluations ∧ ∀ other ∈ evaluations,
      metricKey objective.metricKey evaluation ≤ metricKey objective.metricKey other := by
  have hhead := congrArg List.head? h
  dsimp only [resultOf] at hhead
  rw [List.head?_take, if_neg Nat.one_ne_zero] at hhead
  exact StableSort.head?_sortBy hhead

theorem exists_winner_resultOf (h : evaluation ∈ evaluations) : ∃ winner,
    (resultOf problem objective ordering evaluations diagnostics seed).winners = [winner] := by
  have hranked : evaluation ∈
      (resultOf problem objective ordering evaluations diagnostics seed).evaluations :=
    mem_evaluations_resultOf.mpr h
  obtain ⟨winner, rest, hcons⟩ := List.exists_cons_of_ne_nil (List.ne_nil_of_mem hranked)
  exact ⟨winner, congrArg (List.take 1) hcons⟩

theorem greatestIsBest_of_validOptimum
    (hids : ∀ left ∈ evaluations, ∀ right ∈ evaluations,
      left.candidateId = right.candidateId → left = right)
    (h : ValidOptimum objective
      (resultOf problem objective ordering evaluations diagnostics seed)) :
    GreatestIsBest objective evaluations := by
  rintro ⟨evaluation, hevaluation, hsucceeded⟩
  obtain ⟨winner, hwinner, hstatus, hbest⟩ :=
    h ⟨evaluation, mem_evaluations_resultOf.mpr hevaluation, hsucceeded⟩
  obtain ⟨hin, hfirst⟩ := winner_resultOf hwinner
  refine ⟨⟨winner, hin, hstatus, fun other hother hnot => ?_⟩, ?_⟩
  · apply lt_of_le_of_ne (hfirst other hother)
    intro heq
    exact hnot (hids winner hin other hother (candidateId_of_metricKey_eq heq) ▸ hstatus)
  · cases hdirection : objective.direction with
    | maximize => exact .inl rfl
    | minimize =>
      -- nothing is smaller than the winner's value, and nothing is greater
      have hall : ∀ item ∈ evaluations, item.status = .succeeded → ∀ value,
          item.metric objective.metricKey = some value →
            winner.metric objective.metricKey = some value := fun item hitem hitem' _ hvalue =>
        metric_eq_of_not_outdoes hdirection (hfirst item hitem)
          (hbest item (mem_evaluations_resultOf.mpr hitem) hitem') hvalue
      right
      intro left hleft hleft' right hright hright' value hvalue value' hvalue'
      exact Option.some.inj ((hall left hleft hleft' value hvalue).symm.trans
        (hall right hright hright' value' hvalue'))

theorem validOptimum_of_greatestIsBest (h : GreatestIsBest objective evaluations) :
    ValidOptimum objective
      (resultOf problem objective ordering evaluations diagnostics seed) := by
  rintro ⟨evaluation, hevaluation, hsucceeded⟩
  obtain ⟨⟨first, hfirst, hfirst', hbefore⟩, hgreatest⟩ :=
    h ⟨evaluation, mem_evaluations_resultOf.mp hevaluation, hsucceeded⟩
  obtain ⟨winner, hwinner⟩ := exists_winner_resultOf (mem_evaluations_resultOf.mp hevaluation)
  obtain ⟨hin, hleast⟩ := winner_resultOf hwinner
  have hstatus : winner.status = .succeeded := by
    by_contra hnot
    exact absurd (hleast first hfirst) (not_le.mpr (hbefore winner hin hnot))
  refine ⟨winner, hwinner, hstatus, fun item hitem hitem' => ?_⟩
  have hitem := mem_evaluations_resultOf.mp hitem
  rcases hgreatest with hmaximize | hequal
  · exact not_outdoes_of_maximize hmaximize (hleast item hitem)
  · rintro ⟨value, hvalue, hprefers⟩
    obtain ⟨best, hmetric, _⟩ := metric_of_metricKey_le (hleast item hitem) hvalue
    have hbetter := hprefers best hmetric
    rw [hequal item hitem hitem' winner hin hstatus value hvalue best hmetric] at hbetter
    exact ParetoEngine.prefers_asymm hbetter hbetter

/-- The first evaluation by the metric is a valid optimum exactly where the greatest value is best.
-/
theorem resultOf_validOptimum_iff
    (hids : ∀ left ∈ evaluations, ∀ right ∈ evaluations,
      left.candidateId = right.candidateId → left = right) :
    ValidOptimum objective (resultOf problem objective ordering evaluations diagnostics seed) ↔
      GreatestIsBest objective evaluations :=
  ⟨greatestIsBest_of_validOptimum hids, validOptimum_of_greatestIsBest⟩

end ResultOf

theorem prepare_eq_ok {runtime : SearchRuntime} {adapter : SingleObjectiveSearchAdapter}
    {problem : OptimizationProblem} {prepared : ObjectiveDefinition × List Candidate}
    (h : adapter.prepare runtime problem = .ok prepared) :
    problem.objectives = [prepared.1] ∧
      adapter.parameterGenerator.generateExhaustive runtime.toPyText problem.parameterSpace =
        .ok prepared.2 := by
  obtain ⟨_, _, h⟩ := except_bind_eq_ok.mp h
  obtain ⟨objective, hobjective, h⟩ := except_bind_eq_ok.mp h
  obtain ⟨candidates, hgenerate, h⟩ := except_bind_eq_ok.mp h
  cases h
  rw [singleObjectiveKey] at hobjective
  split at hobjective
  · rename_i hobjectives
    cases hobjective
    exact ⟨hobjectives, hgenerate⟩
  · cases hobjective

end SingleObjectiveSearchAdapter

/-- The adapters that are registered. -/
inductive SearchAdapter where
  | bayesian (adapter : BayesianOptimizationAdapter)
  | tpe (adapter : TreeStructuredParzenEstimatorAdapter)
  | genetic (adapter : GeneticOptimizationAdapter)

namespace SearchAdapter

def base : SearchAdapter → SingleObjectiveSearchAdapter
  | bayesian adapter => adapter.toSingleObjectiveSearchAdapter
  | tpe adapter => adapter.toSingleObjectiveSearchAdapter
  | genetic adapter => adapter.toSingleObjectiveSearchAdapter

variable (runtime : SearchRuntime) (adapter : SearchAdapter) (problem : OptimizationProblem)
  (evaluator : EvaluatorFn) (maxIterations : Int) (seed : Option Int)

def optimize : Except Exc OptimizationResult :=
  match adapter with
  | bayesian adapter => adapter.optimize runtime problem evaluator maxIterations seed
  | tpe adapter => adapter.optimize runtime problem evaluator maxIterations seed
  | genetic adapter => adapter.optimize runtime problem evaluator maxIterations seed

/-- The candidates that are evaluated, in their order. -/
def evaluatedCandidates (candidates : List Candidate) : List Candidate :=
  match adapter with
  | bayesian _ => BayesianOptimizationAdapter.initialDesign candidates maxIterations
  | tpe _ =>
    upTo (TreeStructuredParzenEstimatorAdapter.rankByDensity runtime candidates problem seed)
      maxIterations
  | genetic adapter =>
    (List.range maxIterations.toNat).flatMap (adapter.populationAt runtime problem evaluator
      (adapter.initializePopulation candidates maxIterations))

variable {runtime adapter problem evaluator maxIterations seed} {candidates : List Candidate}

/-- A run that returns ranks the evaluations of these candidates. -/
theorem optimize_eq_ok
    (h : adapter.optimize runtime problem evaluator maxIterations seed = .ok result) :
    ∃ objective candidates ordering diagnostics, problem.objectives = [objective] ∧
      adapter.base.parameterGenerator.generateExhaustive runtime.toPyText problem.parameterSpace =
        .ok candidates ∧
      result = resultOf problem objective ordering
        (evaluateAll runtime.toOptimizerText evaluator problem
          (adapter.evaluatedCandidates runtime problem evaluator maxIterations seed candidates))
        diagnostics seed := by
  cases adapter with
  | bayesian adapter =>
    obtain ⟨⟨objective, candidates⟩, hprepare, h⟩ := except_bind_eq_ok.mp h
    obtain ⟨hobjective, hgenerate⟩ := prepare_eq_ok hprepare
    dsimp only at h
    split_ifs at h
    exact ⟨objective, candidates, _, _, hobjective, hgenerate, (Except.ok.inj h).symm⟩
  | tpe adapter =>
    obtain ⟨⟨objective, candidates⟩, hprepare, h⟩ := except_bind_eq_ok.mp h
    obtain ⟨hobjective, hgenerate⟩ := prepare_eq_ok hprepare
    exact ⟨objective, candidates, _, _, hobjective, hgenerate, (Except.ok.inj h).symm⟩
  | genetic adapter =>
    obtain ⟨⟨objective, candidates⟩, hprepare, h⟩ := except_bind_eq_ok.mp h
    obtain ⟨hobjective, hgenerate⟩ := prepare_eq_ok hprepare
    dsimp only at h
    have hhistory := GeneticOptimizationAdapter.evolve_snd runtime adapter problem evaluator
      maxIterations.toNat (adapter.initializePopulation candidates maxIterations) []
    rcases hevolve : adapter.evolve runtime problem evaluator maxIterations.toNat
      (adapter.initializePopulation candidates maxIterations) [] with ⟨population, history⟩
    rw [hevolve] at h hhistory
    rw [List.nil_append] at hhistory
    obtain rfl : history = _ := hhistory
    exact ⟨objective, candidates, _, _, hobjective, hgenerate, (Except.ok.inj h).symm⟩

/-- Evaluations of a run with one id are one evaluation. -/
theorem evaluatedCandidates_eq_of_id
    (hgenerate : adapter.base.parameterGenerator.generateExhaustive runtime.toPyText
      problem.parameterSpace = .ok candidates) :
    ∀ left ∈ adapter.evaluatedCandidates runtime problem evaluator maxIterations seed candidates,
      ∀ right ∈ adapter.evaluatedCandidates runtime problem evaluator maxIterations seed candidates,
        left.candidateId = right.candidateId → left = right := by
  have hnodup := (ParameterSpaceGenerator.generateExhaustive_numbered hgenerate).1
  intro left hleft right hright hid
  cases adapter with
  | bayesian adapter =>
    exact List.inj_on_of_nodup_map hnodup (upTo_sublist.mem hleft) (upTo_sublist.mem hright) hid
  | tpe adapter =>
    exact List.inj_on_of_nodup_map hnodup (StableSort.mem_sortBy.mp (upTo_sublist.mem hleft))
      (StableSort.mem_sortBy.mp (upTo_sublist.mem hright)) hid
  | genetic adapter =>
    have hdescends : ∀ candidate ∈ evaluatedCandidates runtime (.genetic adapter) problem evaluator
        maxIterations seed candidates,
        GeneticOptimizationAdapter.Descends problem.parameterSpace candidates candidate := by
      intro candidate hmem
      obtain ⟨generation, _, hmem⟩ := List.mem_flatMap.mp hmem
      exact GeneticOptimizationAdapter.descends_populationAt
        (fun _ hinitial => upTo_sublist.mem hinitial) generation candidate hmem
    exact GeneticOptimizationAdapter.descends_eq_of_id hgenerate (hdescends left hleft)
      (hdescends right hright) hid

/-- A search returns a valid optimum exactly where the greatest value is the best one among what it
evaluates. -/
theorem optimize_validOptimum_iff (hobjective : problem.objectives = [objective])
    (hgenerate : adapter.base.parameterGenerator.generateExhaustive runtime.toPyText
      problem.parameterSpace = .ok candidates)
    (hrun : adapter.optimize runtime problem evaluator maxIterations seed = .ok result) :
    ValidOptimum objective result ↔
      GreatestIsBest objective (evaluateAll runtime.toOptimizerText evaluator problem
        (adapter.evaluatedCandidates runtime problem evaluator maxIterations seed
          candidates)) := by
  obtain ⟨objective', candidates', ordering, diagnostics, hobjective', hgenerate', rfl⟩ :=
    optimize_eq_ok hrun
  obtain rfl := (List.cons.inj (hobjective.symm.trans hobjective')).1
  obtain rfl := Except.ok.inj (hgenerate.symm.trans hgenerate')
  apply resultOf_validOptimum_iff
  intro left hleft right hright hid
  obtain ⟨candidate, hcandidate, rfl⟩ := List.mem_map.mp hleft
  obtain ⟨candidate', hcandidate', rfl⟩ := List.mem_map.mp hright
  rw [candidateId_evaluateCandidate, candidateId_evaluateCandidate] at hid
  rw [evaluatedCandidates_eq_of_id hgenerate candidate hcandidate candidate' hcandidate' hid]

/-! ### Small searches -/

def plainRuntime : SearchRuntime where
  toOptimizerText := plainOptimizerText
  hasSpec _ := false
  hash _ _ _ _ := 0

def minimizing (metricKey : String) : ObjectiveDefinition :=
  { name := metricKey, metricKey, direction := .minimize }

/-- The second side carries more. -/
def carryEvaluator : EvaluatorFn :=
  OptimizationEngine.metricsEvaluator [("carry", .int 1)] [("carry", .int 2)]

theorem optimize_validOptimum_maximizing :
    ∃ result, (bayesian {}).optimize plainRuntime
        (OptimizationEngine.sidesProblem [ParetoEngine.maximizing "carry"]) carryEvaluator 2 none =
          .ok result ∧
      ValidOptimum (ParetoEngine.maximizing "carry") result := by
  obtain ⟨candidates, hgenerate, hgreatest⟩ : ∃ candidates,
      (bayesian {}).base.parameterGenerator.generateExhaustive plainRuntime.toPyText
        (OptimizationEngine.sidesProblem [ParetoEngine.maximizing "carry"]).parameterSpace =
          .ok candidates ∧
      GreatestIsBest (ParetoEngine.maximizing "carry")
        (evaluateAll plainRuntime.toOptimizerText carryEvaluator
          (OptimizationEngine.sidesProblem [ParetoEngine.maximizing "carry"])
          ((bayesian {}).evaluatedCandidates plainRuntime
            (OptimizationEngine.sidesProblem [ParetoEngine.maximizing "carry"]) carryEvaluator 2
            none
            candidates)) := by
    refine ⟨_, rfl, ?_⟩
    unfold GreatestIsBest
    decide +kernel
  obtain ⟨result, hrun⟩ : ∃ result, (bayesian {}).optimize plainRuntime
      (OptimizationEngine.sidesProblem [ParetoEngine.maximizing "carry"]) carryEvaluator 2 none =
        .ok result := ⟨_, rfl⟩
  exact ⟨result, hrun, (optimize_validOptimum_iff rfl hgenerate hrun).mpr hgreatest⟩

/-- The winner of a minimization is the greatest value. -/
theorem optimize_validOptimum_minimizing :
    ¬ ∀ (adapter : SearchAdapter) (runtime : SearchRuntime) (problem : OptimizationProblem)
        (evaluator : EvaluatorFn) (maxIterations : Int) (seed : Option Int)
        (objective : ObjectiveDefinition) (result : OptimizationResult),
        problem.objectives = [objective] →
        adapter.optimize runtime problem evaluator maxIterations seed = .ok result →
        ValidOptimum objective result := by
  intro h
  obtain ⟨result, hrun, hwrong⟩ : ∃ result, (bayesian {}).optimize plainRuntime
      (OptimizationEngine.sidesProblem [minimizing "carry"]) carryEvaluator 2 none = .ok result ∧
      ∀ winner ∈ result.winners, ∃ evaluation ∈ result.evaluations,
        evaluation.status = .succeeded ∧ evaluation.metric "carry" = some 1 ∧
          winner.metric "carry" = some 2 := ⟨_, rfl, by decide +kernel⟩
  have hsome : ∃ evaluation ∈ result.evaluations, evaluation.status = .succeeded := by
    obtain rfl := Except.ok.inj hrun
    exact ⟨_, List.mem_cons_self, rfl⟩
  obtain ⟨winner, hwinner, _, hbest⟩ := h _ _ _ _ _ _ (minimizing "carry") result rfl hrun hsome
  obtain ⟨evaluation, hmem, hsucceeded, hone, htwo⟩ :=
    hwrong winner (by rw [hwinner]; exact List.mem_singleton_self winner)
  refine hbest evaluation hmem hsucceeded ⟨1, hone, fun other hother => ?_⟩
  obtain rfl := Option.some.inj (htwo.symm.trans hother)
  decide

end SearchAdapter
end OptionResearch
