import OptionResearch.InsertionDict
import OptionResearch.PythonValues

/-!
# Typed contracts of the optimizer

The records of `optimization/models.py` with the fields the modelled services read or write. Metrics
and weights are exact rationals, and a clock's readings are left out.
-/

namespace OptionResearch

inductive ObjectiveDirection where
  | maximize
  | minimize
  deriving DecidableEq, Repr

inductive CandidateStatus where
  | succeeded
  | failed
  | rejected
  deriving DecidableEq, Repr

def CandidateStatus.value : CandidateStatus → String
  | .succeeded => "succeeded"
  | .failed => "failed"
  | .rejected => "rejected"

inductive ConstraintSeverity where
  | hard
  | soft
  deriving DecidableEq, Repr

inductive MissingMetricPolicy where
  | fail
  | zero
  | ignore
  deriving DecidableEq, Repr

inductive NormalizationPolicy where
  | none
  | minMax
  deriving DecidableEq, Repr

def NormalizationPolicy.value : NormalizationPolicy → String
  | .none => "none"
  | .minMax => "min_max"

/-- A value of a parameter: `float | int | str | bool`. -/
inductive ParameterValue where
  | float (q : ℚ)
  | int (n : Int)
  | str (s : String)
  | bool (b : Bool)
  deriving DecidableEq

namespace ParameterValue

def toPyValue : ParameterValue → PyValue
  | .float q => .float q
  | .int n => .int n
  | .str s => .str s
  | .bool b => .bool b

/-- The number that a numeric value is; a `bool` is one, too. -/
def number? : ParameterValue → Option ℚ
  | .float q => some q
  | .int n => some n
  | .bool b => some (if b then 1 else 0)
  | .str _ => none

/-- `value == other`: numbers compare by value, whatever their types. -/
def equals (value other : ParameterValue) : Bool :=
  match value.number?, other.number? with
  | some q, some r => q == r
  | none, none => value == other
  | _, _ => false

end ParameterValue

/-- The parameters of a candidate, by name. -/
abbrev Parameters := InsertionDict String ParameterValue

inductive ParameterDefinition where
  | integerRange (name : String) (minimum maximum : Int) (step : Int)
  | floatRange (name : String) (minimum maximum step : ℚ) (precision : Int)
  | categorical (name : String) (choices : List String)
  | boolean (name : String)
  | orderedDiscrete (name : String) (values : List ParameterValue)

def ParameterDefinition.name : ParameterDefinition → String
  | .integerRange name _ _ _ => name
  | .floatRange name _ _ _ _ => name
  | .categorical name _ => name
  | .boolean name => name
  | .orderedDiscrete name _ => name

structure ConditionalParameterRule where
  parameter : String
  dependsOn : String
  allowedValues : List ParameterValue

structure DependentParameterRule where
  leftParameter : String
  operator : String
  rightParameter : String

structure ForbiddenParameterCombination where
  values : List (String × ParameterValue)
  reason : String

structure ParameterSpace where
  parameters : List ParameterDefinition
  conditionals : List ConditionalParameterRule := []
  dependencies : List DependentParameterRule := []
  forbiddenCombinations : List ForbiddenParameterCombination := []
  /-- The names of the custom rules. -/
  customRules : List String := []
  maxCandidates : Option Int := none

structure ObjectiveDefinition where
  name : String
  metricKey : String
  direction : ObjectiveDirection
  weight : ℚ := 1
  missingMetricPolicy : MissingMetricPolicy := .fail

structure ConstraintDefinition where
  name : String
  severity : ConstraintSeverity
  metricKey : String
  operator : String
  threshold : ℚ
  penalty : ℚ := 0

structure Candidate where
  candidateId : String
  parameters : Parameters

structure ConstraintResult where
  name : String
  severity : ConstraintSeverity
  passed : Bool
  observedValue : Option ℚ
  threshold : Option ℚ
  reason : Option String := none
  penalty : ℚ := 0

structure CandidateEvaluation where
  candidate : Candidate
  objectiveMetrics : InsertionDict String ℚ
  constraintResults : List ConstraintResult
  warnings : List String
  lifecycleOutcomes : Payload
  regimeMetadata : Payload
  calibrationMetadata : Payload
  dataQualityMetrics : List (String × ℚ)
  sampleSize : Int
  status : CandidateStatus
  failureReason : Option String
  reproducibilityMetadata : Payload
  score : Option ℚ := none
  lexicographicTuple : List ℚ := []
  dominatedBy : List String := []

namespace CandidateEvaluation

def candidateId (evaluation : CandidateEvaluation) : String := evaluation.candidate.candidateId

/-- `evaluation.objective_metrics.get(key)`. -/
def metric (evaluation : CandidateEvaluation) (key : String) : Option ℚ :=
  evaluation.objectiveMetrics.get? key

end CandidateEvaluation

structure OptimizationProblem where
  problemId : String
  parameterSpace : ParameterSpace
  objectives : List ObjectiveDefinition
  constraints : List ConstraintDefinition
  randomSeed : Option Int
  softwareGitCommit : String
  datasetManifests : List Int

structure ParetoFrontResult where
  front : List CandidateEvaluation
  dominated : List CandidateEvaluation

structure OptimizationResult where
  problem : OptimizationProblem
  candidateOrdering : List String
  evaluations : List CandidateEvaluation
  winners : List CandidateEvaluation
  paretoFront : List CandidateEvaluation
  diagnostics : Payload
  randomSeed : Option Int

/-- An evaluator: it may raise, and return anything. -/
abbrev EvaluatorFn := OptimizationProblem → Candidate → Except Exc PyValue

/-- The texts of the optimizer. `parseInt` reads a numeral back, `none` where `int` raises; the
digests label problems, candidates and evaluations. -/
structure OptimizerText extends PyText where
  parseInt : String → Option Int
  problemChecksum : OptimizationProblem → String
  candidateInputChecksum : OptimizationProblem → String → String
  candidateResultChecksum : CandidateEvaluation → String

/-- Texts for small runs of the optimizer. -/
def plainOptimizerText : OptimizerText where
  toPyText := plainText
  parseInt _ := none
  problemChecksum _ := ""
  candidateInputChecksum _ := id
  candidateResultChecksum evaluation := evaluation.candidateId

end OptionResearch
