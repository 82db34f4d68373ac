import OptionResearch.OptimizationModels
import OptionResearch.PartialEffects

/-!
# Evaluating candidates

`ConstraintEngine` of `constraints.py` and `CandidateEvaluationService` of `evaluation.py`. Whatever
an evaluator raises or returns, its candidate gets an evaluation: what raises makes it failed, and a
hard constraint that does not hold makes it rejected.
-/

namespace OptionResearch

variable (text : OptimizerText)

/-- `int(value)`. -/
def OptimizerText.int : PyValue → Except Exc Int
  | .bool b => .ok (if b then 1 else 0)
  | .int n => .ok n
  | .float q => .ok (truncate q)
  | .str s => match text.parseInt s with
    | some n => .ok n
    | none => .error
        ⟨.valueError, s!"invalid literal for int() with base 10: {text.repr (.str s)}"⟩
  | value => .error ⟨.typeError,
      "int() argument must be a string, a bytes-like object or a real " ++
      s!"number, not '{value.typeName}'"⟩

/-! ### Constraints -/

namespace ConstraintEngine

def compare (observed : ℚ) (operator : String) (threshold : ℚ) : Except Exc Bool :=
  if operator = ">=" then .ok (decide (threshold ≤ observed))
  else if operator = ">" then .ok (decide (threshold < observed))
  else if operator = "<=" then .ok (decide (observed ≤ threshold))
  else if operator = "<" then .ok (decide (observed < threshold))
  else if operator = "==" then .ok (decide (observed = threshold))
  else .error
    ⟨.other "ConstraintEvaluationError", s!"unsupported constraint operator '{operator}'"⟩

def reason (definition : ConstraintDefinition) (observed : ℚ) : String :=
  s!"constraint '{definition.name}' failed: " ++
    s!"{definition.metricKey} {definition.operator} {text.repr (.float definition.threshold)} " ++
    s!"(observed={text.repr (.float observed)})"

/-- The penalty of a constraint that does not hold. -/
def penaltyOf (definition : ConstraintDefinition) : ℚ :=
  if definition.severity = .soft then definition.penalty else 0

/-- The result of one constraint. -/
def evaluateOne (metrics : InsertionDict String ℚ) (definition : ConstraintDefinition) :
    Except Exc ConstraintResult :=
  match metrics.get? definition.metricKey with
  | none =>
    .ok {
      name := definition.name
      severity := definition.severity
      passed := false
      observedValue := none
      threshold := some definition.threshold
      reason := some s!"missing metric '{definition.metricKey}'"
      penalty := penaltyOf definition }
  | some observed => do
    let passed ← compare observed definition.operator definition.threshold
    return {
      name := definition.name
      severity := definition.severity
      passed
      observedValue := some observed
      threshold := some definition.threshold
      reason := if passed then none else some (reason text definition observed)
      penalty := if passed then 0 else penaltyOf definition }

def evaluate (definitions : List ConstraintDefinition) (metrics : InsertionDict String ℚ) :
    Except Exc (List ConstraintResult) := definitions.mapM (evaluateOne text metrics)

def hasHardFailure (results : List ConstraintResult) : Bool :=
  results.any fun item => !item.passed && item.severity == .hard

def totalSoftPenalty (results : List ConstraintResult) : ℚ :=
  ((results.filter fun item => !item.passed).map (·.penalty)).sum

end ConstraintEngine

/-! ### Evaluations -/

namespace CandidateEvaluationService

/-- The numeric metrics. -/
def numericMetrics (metrics : Payload) : InsertionDict String ℚ :=
  metrics.foldl (fun dict entry =>
    match entry.2.number? with
    | some value => dict.set entry.1 value
    | none => dict) .empty

/-- The evaluation that a payload gives, or what reading it raises. -/
def evaluatePayload (candidate : Candidate) (constraints : List ConstraintDefinition)
    (payload : PyValue) : Except Exc CandidateEvaluation := do
  let payload ← payload.asDict
  match payload.get "objective_metrics" .none with
  | .dict metrics => do
    let objectiveMetrics := numericMetrics metrics
    let constraintResults ← ConstraintEngine.evaluate text constraints objectiveMetrics
    let warnings ← (payload.get "warnings" (.tuple [])).iter
    let lifecycleOutcomes ← (payload.get "lifecycle_outcomes" (.dict [])).toDict
    let regimeMetadata ← (payload.get "regime_metadata" (.dict [])).toDict
    let calibrationMetadata ← (payload.get "calibration_metadata" (.dict [])).toDict
    let dataQuality ← (payload.get "data_quality_metrics" (.dict [])).toDict
    let dataQualityMetrics ← dataQuality.mapM fun entry => do
      return (entry.1, ← text.float entry.2)
    let sampleSize ← text.int (payload.get "sample_size" (.int 0))
    let reproducibilityMetadata ← (payload.get "reproducibility_metadata" (.dict [])).toDict
    return {
      candidate, objectiveMetrics, constraintResults
      warnings := warnings.map text.str
      lifecycleOutcomes, regimeMetadata, calibrationMetadata, dataQualityMetrics, sampleSize
      status := if ConstraintEngine.hasHardFailure constraintResults then .rejected else .succeeded
      failureReason := none
      reproducibilityMetadata }
  | _ =>
    .error ⟨.other "CandidateEvaluationError", "evaluator must return objective_metrics dict"⟩

/-- The evaluation of a candidate for which `e` was raised. -/
def failedEvaluation (problem : OptimizationProblem) (candidate : Candidate) (e : Exc) :
    CandidateEvaluation where
  candidate
  objectiveMetrics := .empty
  constraintResults := []
  warnings := [s!"candidate failed: {e.message}"]
  lifecycleOutcomes := []
  regimeMetadata := []
  calibrationMetadata := []
  dataQualityMetrics := []
  sampleSize := 0
  status := .failed
  failureReason := some e.message
  reproducibilityMetadata :=
    [("problem_id", .str problem.problemId), ("candidate_id", .str candidate.candidateId)]

def evaluateCandidate (evaluator : EvaluatorFn) (problem : OptimizationProblem)
    (candidate : Candidate) : CandidateEvaluation :=
  match evaluator problem candidate >>= evaluatePayload text candidate problem.constraints with
  | .ok evaluation => evaluation
  | .error e => failedEvaluation problem candidate e

/-- One evaluation for each candidate. -/
def evaluateAll (evaluator : EvaluatorFn) (problem : OptimizationProblem)
    (candidates : List Candidate) : List CandidateEvaluation :=
  candidates.map (evaluateCandidate text evaluator problem)

variable {text} {evaluator : EvaluatorFn} {problem : OptimizationProblem} {candidate : Candidate}

theorem evaluatePayload_candidate {constraints : List ConstraintDefinition} {payload : PyValue}
    {evaluation : CandidateEvaluation}
    (h : evaluatePayload text candidate constraints payload = .ok evaluation) :
    evaluation.candidate = candidate := by
  obtain ⟨entries, _, h⟩ := except_bind_eq_ok.mp h
  split at h
  · obtain ⟨_, _, h⟩ := except_bind_eq_ok.mp h
    obtain ⟨_, _, h⟩ := except_bind_eq_ok.mp h
    obtain ⟨_, _, h⟩ := except_bind_eq_ok.mp h
    obtain ⟨_, _, h⟩ := except_bind_eq_ok.mp h
    obtain ⟨_, _, h⟩ := except_bind_eq_ok.mp h
    obtain ⟨_, _, h⟩ := except_bind_eq_ok.mp h
    obtain ⟨_, _, h⟩ := except_bind_eq_ok.mp h
    obtain ⟨_, _, h⟩ := except_bind_eq_ok.mp h
    obtain ⟨_, _, h⟩ := except_bind_eq_ok.mp h
    cases h
    rfl
  · cases h

/-- An evaluation is one of the candidate it was made for. -/
@[simp] theorem evaluateCandidate_candidate :
    (evaluateCandidate text evaluator problem candidate).candidate = candidate := by
  rw [evaluateCandidate]
  split
  · rename_i evaluation h
    obtain ⟨payload, _, hpayload⟩ := except_bind_eq_ok.mp h
    exact evaluatePayload_candidate hpayload
  · rfl

@[simp] theorem candidateId_evaluateCandidate :
    (evaluateCandidate text evaluator problem candidate).candidateId = candidate.candidateId :=
  congrArg Candidate.candidateId evaluateCandidate_candidate

theorem candidateId_evaluateAll {candidates : List Candidate} :
    (evaluateAll text evaluator problem candidates).map CandidateEvaluation.candidateId =
      candidates.map (·.candidateId) := by
  rw [evaluateAll, List.map_map]
  exact List.map_congr_left fun _ _ => candidateId_evaluateCandidate

end CandidateEvaluationService
end OptionResearch
