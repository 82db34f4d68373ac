import OptionResearch.OptimizationEngine
import Mathlib.Algebra.BigOperators.Group.List.Basic

/-!
# Search adapters

The single-objective adapters of `adapters.py`. A Bayesian and a TPE search evaluate some of the
generated candidates once; a genetic search evaluates a population again and again, and from each
one makes the next. All rank what they evaluated by the objective's metric.
-/

namespace OptionResearch

/-- What the adapters use besides texts: which backends `importlib` finds, and the built-in `hash`.
-/
structure SearchRuntime extends OptimizerText where
  hasSpec : String → Bool
  hash : String → ParameterValue → Option Int → String → Int

structure OptimizerAdapter where
  name : String
  requiredDependencies : List String := []
  backend : String := "builtin"

structure SingleObjectiveSearchAdapter extends OptimizerAdapter where
  parameterGenerator : ParameterSpaceGenerator := {}

structure BayesianOptimizationAdapter extends SingleObjectiveSearchAdapter where
  name := "bayesian"

structure TreeStructuredParzenEstimatorAdapter extends SingleObjectiveSearchAdapter where
  name := "tpe"

structure GeneticOptimizationAdapter extends SingleObjectiveSearchAdapter where
  name := "genetic"
  populationSize : Int := 20
  elitism : Int := 2

/-- `items[:stop]`, where a negative `stop` counts from the end. -/
def upTo {α : Type*} (items : List α) (stop : Int) : List α :=
  if 0 ≤ stop then items.take stop.toNat else items.take (items.length - stop.natAbs)

variable (runtime : SearchRuntime)

namespace OptimizerAdapter

def ensureBackendAvailable (adapter : OptimizerAdapter) : Except Exc Unit :=
  if adapter.backend = "builtin" ∨ runtime.hasSpec adapter.backend then .ok ()
  else .error ⟨.other "OptimizerDependencyUnavailableError",
    s!"{adapter.name} backend '{adapter.backend}' is not available; " ++
      s!"required_dependencies={runtime.repr (.tuple (adapter.requiredDependencies.map .str))}"⟩

end OptimizerAdapter

namespace SingleObjectiveSearchAdapter

open CandidateEvaluation CandidateEvaluationService

/-- `_single_objective_key`. -/
def singleObjectiveKey (adapter : SingleObjectiveSearchAdapter) (problem : OptimizationProblem) :
    Except Exc ObjectiveDefinition :=
  match problem.objectives with
  | [objective] => .ok objective
  | _ => .error ⟨.other "OptimizationValidationError",
      s!"{adapter.name} supports single-objective optimization initially"⟩

/-- What every adapter does first. -/
def prepare (adapter : SingleObjectiveSearchAdapter) (problem : OptimizationProblem) :
    Except Exc (ObjectiveDefinition × List Candidate) := do
  adapter.ensureBackendAvailable runtime
  let objective ← adapter.singleObjectiveKey problem
  let candidates ← adapter.parameterGenerator.generateExhaustive runtime.toPyText
    problem.parameterSpace
  return (objective, candidates)

/-- The order by a metric, the greatest one first and absent ones last. -/
def metricKey (key : String) (evaluation : CandidateEvaluation) : WithTop ℚ ×ₗ String :=
  toLex (negated (evaluation.metric key), evaluation.candidateId)

/-- `_rank_trials`, which every adapter repeats. -/
def rankTrials (evaluations : List CandidateEvaluation) (objective : ObjectiveDefinition) :
    List CandidateEvaluation := StableSort.sortBy (metricKey objective.metricKey) evaluations

/-- The result for ranked evaluations. -/
def resultOf (problem : OptimizationProblem) (objective : ObjectiveDefinition)
    (ordering : List Candidate) (evaluations : List CandidateEvaluation) (diagnostics : Payload)
    (seed : Option Int) : OptimizationResult :=
  let ranked := rankTrials evaluations objective
  { problem
    candidateOrdering := ordering.map (·.candidateId)
    evaluations := ranked
    winners := ranked.take 1
    paretoFront := (ParetoEngine.extractFront ranked [objective]).front
    diagnostics
    randomSeed := seed }

end SingleObjectiveSearchAdapter

open CandidateEvaluationService SingleObjectiveSearchAdapter

namespace BayesianOptimizationAdapter

/-- `_initial_design`; the low-discrepancy design of no points that it makes first is dropped. -/
def initialDesign (candidates : List Candidate) (maxIterations : Int) : List Candidate :=
  upTo candidates maxIterations

def optimize (adapter : BayesianOptimizationAdapter) (problem : OptimizationProblem)
    (evaluator : EvaluatorFn) (maxIterations : Int) (seed : Option Int) :
    Except Exc OptimizationResult := do
  let (objective, candidates) ← adapter.prepare runtime problem
  if candidates.isEmpty then
    .error ⟨.other "OptimizationValidationError", "no candidates available"⟩
  else
    let selected := initialDesign candidates maxIterations
    let evaluations := evaluateAll runtime.toOptimizerText evaluator problem selected
    return resultOf problem objective selected evaluations
      [("optimizer", .str adapter.name), ("history_length", .int evaluations.length)] seed

end BayesianOptimizationAdapter

namespace TreeStructuredParzenEstimatorAdapter

/-- The score of one candidate. -/
def density (problem : OptimizationProblem) (seed : Option Int) (candidate : Candidate) : ℚ :=
  (candidate.parameters.entries.map fun entry =>
    (((runtime.hash entry.1 entry.2 seed problem.problemId).natAbs % 1000 : Nat) : ℚ) / 1000).sum

/-- `_rank_by_density`; no two candidates have one id, so that `score_map` holds the candidates' own
scores. -/
def rankByDensity (candidates : List Candidate) (problem : OptimizationProblem)
    (seed : Option Int) : List Candidate :=
  StableSort.sortBy (fun candidate : Candidate =>
    (toLex (-(density runtime problem seed candidate), candidate.candidateId) : ℚ ×ₗ String))
    candidates

def optimize (adapter : TreeStructuredParzenEstimatorAdapter) (problem : OptimizationProblem)
    (evaluator : EvaluatorFn) (maxIterations : Int) (seed : Option Int) :
    Except Exc OptimizationResult := do
  let (objective, candidates) ← adapter.prepare runtime problem
  let selected := upTo (rankByDensity runtime candidates problem seed) maxIterations
  let evaluations := evaluateAll runtime.toOptimizerText evaluator problem selected
  return resultOf problem objective selected evaluations [("optimizer", .str adapter.name)] seed

end TreeStructuredParzenEstimatorAdapter

namespace GeneticOptimizationAdapter

def initializePopulation (adapter : GeneticOptimizationAdapter) (candidates : List Candidate)
    (maxIterations : Int) : List Candidate :=
  upTo candidates (min (min adapter.populationSize candidates.length) maxIterations)

/-- The parameters with the next value of one parameter, where its values are ordered. -/
def rotate (parameters : Parameters) : ParameterDefinition → Parameters
  | .orderedDiscrete name values =>
    let index := ((parameters.get? name).bind fun current =>
      values.findIdx? (·.equals current)).getD 0
    match values[(index + 1) % values.length]? with
    | none => parameters
    | some value => parameters.set name value
  | _ => parameters

def mutateCandidate (space : ParameterSpace) (candidate : Candidate) : Candidate where
  candidateId := "mut-" ++ candidate.candidateId
  parameters := space.parameters.foldl rotate candidate.parameters

/-- The loop of `_next_generation`, with the number of places left. -/
def fill (space : ParameterSpace) (mutationPool : List Candidate) :
    Nat → List Candidate → List Candidate
  | 0, nextPopulation => nextPopulation
  | missing + 1, nextPopulation =>
    match mutationPool[nextPopulation.length % mutationPool.length]? with
    | none => nextPopulation
    | some parent =>
      fill space mutationPool missing (nextPopulation ++ [mutateCandidate space parent])

def elites (adapter : GeneticOptimizationAdapter) (evaluated : List CandidateEvaluation) :
    List Candidate :=
  (upTo (StableSort.sortBy (metricKey "expected_value") evaluated) adapter.elitism).map
    (·.candidate)

def nextGeneration (adapter : GeneticOptimizationAdapter) (population : List Candidate)
    (evaluated : List CandidateEvaluation) (space : ParameterSpace) : List Candidate :=
  let elites := adapter.elites evaluated
  upTo (fill space population (adapter.populationSize - elites.length).toNat elites)
    adapter.populationSize

/-- The loop of `optimize` over so many generations. -/
def evolve (adapter : GeneticOptimizationAdapter) (problem : OptimizationProblem)
    (evaluator : EvaluatorFn) :
    Nat → List Candidate → List CandidateEvaluation → List Candidate × List CandidateEvaluation
  | 0, population, history => (population, history)
  | generations + 1, population, history =>
    let evaluated := evaluateAll runtime.toOptimizerText evaluator problem population
    evolve adapter problem evaluator generations
      (adapter.nextGeneration population evaluated problem.parameterSpace) (history ++ evaluated)

def optimize (adapter : GeneticOptimizationAdapter) (problem : OptimizationProblem)
    (evaluator : EvaluatorFn) (maxIterations : Int) (seed : Option Int) :
    Except Exc OptimizationResult := do
  let (objective, candidates) ← adapter.prepare runtime problem
  let (population, history) := adapter.evolve runtime problem evaluator maxIterations.toNat
    (adapter.initializePopulation candidates maxIterations) []
  return resultOf problem objective population history
    [("optimizer", .str adapter.name), ("generations", .int maxIterations)] seed

end GeneticOptimizationAdapter
end OptionResearch
