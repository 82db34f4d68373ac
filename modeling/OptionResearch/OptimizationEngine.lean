import OptionResearch.CandidateEvaluation
import OptionResearch.ParameterSpaces
import OptionResearch.ParetoFront
import Mathlib.Data.List.Lex

/-!
# The optimization engine

`ObjectiveEngine` of `objectives.py` and `OptimizationEngine.run` of `engine.py`: the succeeded
evaluations are normalized per objective, every evaluation is scored, the first by score are the
winners and the undominated ones the front.
-/

namespace OptionResearch

/-- The value with its sign turned so that more is better. -/
def ObjectiveDefinition.signed (objective : ObjectiveDefinition) (value : ℚ) : ℚ :=
  match objective.direction with
  | .maximize => value
  | .minimize => -value

namespace ObjectiveEngine

/-- Metrics by candidate id and metric key. -/
abbrev NormalizedMetrics := InsertionDict String (InsertionDict String ℚ)

/-- The values that the evaluations report for a metric. -/
def reported (evaluations : List CandidateEvaluation) (metricKey : String) : List ℚ :=
  evaluations.filterMap (·.metric metricKey)

/-- The place of a metric between the least and the greatest one reported. -/
def scaled (evaluations : List CandidateEvaluation) (metricKey : String) : Option ℚ → ℚ
  | none => 0
  | some metric =>
    let metricMin := (reported evaluations metricKey).min?.getD 0
    let width := (reported evaluations metricKey).max?.getD 0 - metricMin
    if width ≤ 0 then 0 else (metric - metricMin) / width

/-- `normalized[candidate_id][metric_key] = value`, with an empty row by default. -/
def enter (normalized : NormalizedMetrics) (candidateId metricKey : String) (value : ℚ) :
    NormalizedMetrics :=
  normalized.set candidateId (((normalized.get? candidateId).getD .empty).set metricKey value)

def normalizeMetrics (evaluations : List CandidateEvaluation)
    (objectives : List ObjectiveDefinition) : NormalizationPolicy → NormalizedMetrics
  | .none => evaluations.foldl (fun normalized evaluation =>
      normalized.set evaluation.candidateId evaluation.objectiveMetrics) .empty
  | .minMax => objectives.foldl (fun normalized objective =>
      evaluations.foldl (fun normalized evaluation =>
        enter normalized evaluation.candidateId objective.metricKey
          (scaled evaluations objective.metricKey (evaluation.metric objective.metricKey)))
        normalized) .empty

def resolveMetric (normalizedMetrics : InsertionDict String ℚ) (objective : ObjectiveDefinition) :
    Option ℚ :=
  match normalizedMetrics.get? objective.metricKey with
  | some metric => some metric
  | none =>
    match objective.missingMetricPolicy with
    | .zero => some 0
    | .ignore => some 0
    | .fail => none

/-- The loop of `weighted_score`: `weighted_total` and `total_weight`. -/
def weigh (normalizedMetrics : InsertionDict String ℚ) :
    List ObjectiveDefinition → ℚ → ℚ → Option (ℚ × ℚ)
  | [], weightedTotal, totalWeight => some (weightedTotal, totalWeight)
  | objective :: rest, weightedTotal, totalWeight =>
    match resolveMetric normalizedMetrics objective with
    | none => none
    | some value => weigh normalizedMetrics rest
        (weightedTotal + objective.signed value * objective.weight) (totalWeight + objective.weight)

def weightedScore (objectives : List ObjectiveDefinition)
    (normalizedMetrics : InsertionDict String ℚ) (softPenalty : ℚ) : Option ℚ :=
  match weigh normalizedMetrics objectives 0 0 with
  | none => none
  | some (weightedTotal, totalWeight) =>
    if totalWeight ≤ 0 then none else some (weightedTotal / totalWeight - softPenalty)

def lexicographicTuple (objectives : List ObjectiveDefinition)
    (normalizedMetrics : InsertionDict String ℚ) : Option (List ℚ) :=
  objectives.mapM fun objective =>
    (resolveMetric normalizedMetrics objective).map objective.signed

end ObjectiveEngine

structure OptimizationEngine where
  parameterGenerator : ParameterSpaceGenerator

namespace OptimizationEngine

open CandidateEvaluation

variable (text : OptimizerText) (engine : OptimizationEngine) (problem : OptimizationProblem)
  (evaluator : EvaluatorFn)

/-- A thread pool maps in the order of submission, so that its evaluations are the serial ones. -/
def evaluateCandidates (candidates : List Candidate) (executionMode : String)
    (maxWorkers : Int) : Except Exc (List CandidateEvaluation) :=
  let evaluations := CandidateEvaluationService.evaluateAll text evaluator problem candidates
  if executionMode = "serial" then .ok evaluations
  else if executionMode = "thread_pool" then
    if maxWorkers ≤ 0 then .error ⟨.valueError, "max_workers must be greater than 0"⟩
    else .ok evaluations
  else .error ⟨.valueError, s!"unsupported execution mode '{executionMode}'"⟩

/-- The copy of an evaluation with its score; a failed one stays as it is. -/
def scoreEvaluation (objectives : List ObjectiveDefinition)
    (normalized : ObjectiveEngine.NormalizedMetrics) (useLexicographic : Bool)
    (evaluation : CandidateEvaluation) : CandidateEvaluation :=
  if evaluation.status = .failed then evaluation
  else
    let normalizedMetrics := (normalized.get? evaluation.candidateId).getD .empty
    { evaluation with
      score := ObjectiveEngine.weightedScore objectives normalizedMetrics
        (ConstraintEngine.totalSoftPenalty evaluation.constraintResults)
      lexicographicTuple :=
        if useLexicographic then
          (ObjectiveEngine.lexicographicTuple objectives normalizedMetrics).getD []
        else [] }

/-- The order in which `_assign_scores` lists the evaluations. -/
def scoreKey (evaluation : CandidateEvaluation) : WithTop ℚ ×ₗ List ℚ ×ₗ String :=
  toLex (negated evaluation.score,
    toLex (evaluation.lexicographicTuple.map (- ·), evaluation.candidateId))

def assignScores (evaluations : List CandidateEvaluation) (objectives : List ObjectiveDefinition)
    (normalized : ObjectiveEngine.NormalizedMetrics) (useLexicographic : Bool) :
    List CandidateEvaluation :=
  StableSort.sortBy scoreKey
    (evaluations.map (scoreEvaluation objectives normalized useLexicographic))

/-- The order of the winners. -/
def winnerKey (evaluation : CandidateEvaluation) : ℚ ×ₗ String :=
  toLex (-(evaluation.score.getD 0), evaluation.candidateId)

/-- The evaluations that may win. -/
def contenders (evaluations : List CandidateEvaluation) : List CandidateEvaluation :=
  evaluations.filter fun item => item.isSucceeded && item.score.isSome

def selectWinners (evaluations : List CandidateEvaluation) : List CandidateEvaluation :=
  (StableSort.sortBy winnerKey (contenders evaluations)).take 10

def countStatus (evaluations : List CandidateEvaluation) (status : CandidateStatus) : Nat :=
  evaluations.countP (·.status == status)

/-- What `run` makes of the evaluations. -/
def resultOf (candidates : List Candidate) (evaluations : List CandidateEvaluation)
    (executionMode : String) (useLexicographic : Bool) (policy : NormalizationPolicy) :
    OptimizationResult :=
  let normalized := ObjectiveEngine.normalizeMetrics (evaluations.filter isSucceeded)
    problem.objectives policy
  let rescored := assignScores evaluations problem.objectives normalized useLexicographic
  { problem
    candidateOrdering := candidates.map (·.candidateId)
    evaluations := rescored
    winners := selectWinners rescored
    paretoFront := (ParetoEngine.extractFront rescored problem.objectives).front
    diagnostics :=
      [("candidate_count", .int candidates.length), ("evaluation_count", .int rescored.length),
        ("succeeded", .int (countStatus rescored .succeeded)),
        ("rejected", .int (countStatus rescored .rejected)),
        ("failed", .int (countStatus rescored .failed)),
        ("execution_mode", .str executionMode), ("normalization_policy", .str policy.value)]
    randomSeed := problem.randomSeed }

def run (executionMode : String) (maxWorkers : Int) (useLexicographic : Bool)
    (policy : NormalizationPolicy) : Except Exc OptimizationResult := do
  let candidates ← engine.parameterGenerator.generateExhaustive text.toPyText
    problem.parameterSpace
  let evaluations ← evaluateCandidates text problem evaluator candidates executionMode maxWorkers
  return resultOf problem candidates evaluations executionMode useLexicographic policy

end OptimizationEngine
end OptionResearch
