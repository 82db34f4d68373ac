import OptionResearch.ParameterEquality
import OptionResearch.ParameterGrid
import OptionResearch.SearchOptimum

/-!
# What a genetic search keeps

A mutation rotates every ordered parameter to its next value and asks no rule, so that the
candidates stay in the space where rotating does. Elites are chosen by expected value, so that a
best candidate survives where few enough have more of it.
-/

namespace OptionResearch

open CandidateEvaluation CandidateEvaluationService SingleObjectiveSearchAdapter

/-- The parameters are those of a generated candidate. -/
def Feasible (candidates : List Candidate) (parameters : Parameters) : Prop :=
  ∃ generated ∈ candidates, SameParameters generated.parameters parameters

namespace GeneticOptimizationAdapter

variable {runtime : SearchRuntime} {adapter : GeneticOptimizationAdapter}
  {problem : OptimizationProblem} {evaluator : EvaluatorFn} {maxIterations : Int}
  {seed : Option Int} {space : ParameterSpace} {objective : ObjectiveDefinition}
  {candidates population initial : List Candidate} {candidate other : Candidate}
  {evaluations : List CandidateEvaluation} {result : OptimizationResult}
  {parameters others : Parameters}

/-! ### The feasible space -/

/-- Mutating a generated candidate gives parameters of a generated one. -/
def RotationClosed (space : ParameterSpace) (candidates : List Candidate) : Prop :=
  ∀ candidate ∈ candidates, Feasible candidates (mutateCandidate space candidate).parameters

/-- Equal parameters rotate alike. -/
theorem sameParameters_rotate (h : SameParameters parameters others)
    (definition : ParameterDefinition) :
    SameParameters (rotate parameters definition) (rotate others definition) := by
  cases definition with
  | orderedDiscrete name values =>
    have hindex : ((parameters.get? name).bind fun current =>
          values.findIdx? (·.equals current)) =
        (others.get? name).bind fun current => values.findIdx? (·.equals current) := by
      have hname := h name
      cases hleft : parameters.get? name with
      | none =>
        rw [hleft] at hname
        rw [Option.map_eq_none_iff.mp hname.symm]
      | some current =>
        rw [hleft] at hname
        obtain ⟨current', hright, hcanonical⟩ := Option.map_eq_some_iff.mp hname.symm
        rw [hright, Option.bind_some, Option.bind_some]
        apply congrArg (values.findIdx? ·)
        funext value
        rw [Bool.eq_iff_iff, ParameterValue.equals_iff, ParameterValue.equals_iff, hcanonical]
    rw [rotate, rotate, hindex]
    split
    · exact h
    · intro other
      rw [InsertionDict.get?_set, InsertionDict.get?_set]
      split_ifs
      · rfl
      · exact h other
  | _ => exact h

theorem sameParameters_mutateCandidate (h : SameParameters candidate.parameters other.parameters) :
    SameParameters (mutateCandidate space candidate).parameters
      (mutateCandidate space other).parameters := by
  have hfold : ∀ (definitions : List ParameterDefinition) (left right : Parameters),
      SameParameters left right →
        SameParameters (definitions.foldl rotate left) (definitions.foldl rotate right) := by
    intro definitions
    induction definitions with
    | nil => exact fun _ _ hsame => hsame
    | cons definition rest ih =>
      exact fun left right hsame => ih _ _ (sameParameters_rotate hsame definition)
  exact hfold _ _ _ h

/-- In a space that is closed under rotation, mutants of feasible candidates are feasible. -/
theorem RotationClosed.feasible_mutateCandidate (hclosed : RotationClosed space candidates)
    (h : Feasible candidates candidate.parameters) :
    Feasible candidates (mutateCandidate space candidate).parameters := by
  obtain ⟨generated, hgenerated, hsame⟩ := h
  obtain ⟨next, hnext, hrotated⟩ := hclosed generated hgenerated
  exact ⟨next, hnext, fun name =>
    (hrotated name).trans (sameParameters_mutateCandidate hsame name)⟩

/-- So are all populations of a run that begins with generated candidates. -/
theorem RotationClosed.feasible_populationAt
    (hclosed : RotationClosed problem.parameterSpace candidates)
    (hinitial : ∀ candidate ∈ initial, candidate ∈ candidates) (generation : Nat) :
    ∀ candidate ∈ adapter.populationAt runtime problem evaluator initial generation,
      Feasible candidates candidate.parameters := by
  apply populationAt_invariant
  · exact fun candidate hmem => ⟨candidate, hinitial candidate hmem, fun _ => rfl⟩
  · exact fun candidate hfeasible => hclosed.feasible_mutateCandidate hfeasible

/-- Where no parameter has ordered values, mutation changes ids only. -/
theorem rotationClosed_of_unordered
    (h : ∀ name values, ParameterDefinition.orderedDiscrete name values ∉ space.parameters) :
    RotationClosed space candidates := by
  have hfold : ∀ (definitions : List ParameterDefinition) (parameters : Parameters),
      (∀ name values, ParameterDefinition.orderedDiscrete name values ∉ definitions) →
        definitions.foldl rotate parameters = parameters := by
    intro definitions
    induction definitions with
    | nil => exact fun _ _ => rfl
    | cons definition rest ih =>
      intro parameters hnot
      have hfirst : rotate parameters definition = parameters := by
        cases definition with
        | orderedDiscrete name values => exact absurd List.mem_cons_self (hnot name values)
        | _ => rfl
      rw [List.foldl_cons, hfirst]
      exact ih parameters fun name values hmem => hnot name values (List.mem_cons_of_mem _ hmem)
  intro candidate hmem
  refine ⟨candidate, hmem, fun name => ?_⟩
  rw [mutateCandidate, hfold _ _ h]

theorem inGrid_rotate (hnames : (space.parameters.map (·.name)).Nodup)
    (h : ParameterSpaceGenerator.InGrid space parameters) {definition : ParameterDefinition}
    (hmem : definition ∈ space.parameters) :
    ParameterSpaceGenerator.InGrid space (rotate parameters definition) := by
  cases definition with
  | orderedDiscrete name values =>
    rw [rotate]
    split
    · exact h
    · rename_i value hvalue
      obtain ⟨choice, hchoice, hget⟩ := h
      refine ⟨Function.update choice name value, fun definition hdefinition => ?_, fun other => ?_⟩
      · by_cases hname : definition.name = name
        · obtain rfl := List.inj_on_of_nodup_map hnames hdefinition hmem hname
          rw [hname, Function.update_self]
          exact List.mem_of_getElem? hvalue
        · rw [Function.update_of_ne hname]
          exact hchoice definition hdefinition
      · rw [InsertionDict.get?_set]
        by_cases hname : other = name
        · have hlisted : name ∈ space.parameters.map (·.name) := List.mem_map_of_mem hmem
          rw [if_pos hname, hname, if_pos hlisted, Function.update_self]
        · rw [if_neg hname, hget, Function.update_of_ne hname]
  | _ => exact h

/-- Where no rule takes anything out, the next values are in the grid, too. -/
theorem rotationClosed_of_ruleFree {generator : ParameterSpaceGenerator} {text : PyText}
    (hfree : ParameterSpaceGenerator.RuleFree space)
    (hgenerate : generator.generateExhaustive text space = .ok candidates) :
    RotationClosed space candidates := by
  obtain ⟨_, hvalid, _⟩ := except_bind_eq_ok.mp hgenerate
  have hnames := ParameterSpaceGenerator.names_nodup_of_validate hvalid
  obtain ⟨hgrid, hall⟩ := ParameterSpaceGenerator.generateExhaustive_grid hfree hgenerate
  have hfold : ∀ definitions : List ParameterDefinition,
      (∀ definition ∈ definitions, definition ∈ space.parameters) →
        ∀ parameters, ParameterSpaceGenerator.InGrid space parameters →
          ParameterSpaceGenerator.InGrid space (definitions.foldl rotate parameters) := by
    intro definitions
    induction definitions with
    | nil => exact fun _ _ h => h
    | cons definition rest ih =>
      intro hlisted parameters h
      obtain ⟨hfirst, hrest⟩ := List.forall_mem_cons.mp hlisted
      exact ih hrest _ (inGrid_rotate hnames h hfirst)
  intro candidate hmem
  obtain ⟨next, hnext, hsame⟩ := hall _ (hfold _ (fun _ h => h) _ (hgrid candidate hmem))
  refine ⟨next, hnext, fun name => ?_⟩
  rw [hsame name]
  rfl

/-! ### The best candidate -/

/-- A succeeded evaluation that no other one outdoes. -/
def BestSucceeded (objective : ObjectiveDefinition) (evaluations : List CandidateEvaluation)
    (best : CandidateEvaluation) : Prop :=
  best ∈ evaluations ∧ best.status = .succeeded ∧
    ∀ other ∈ evaluations, other.status = .succeeded → ¬ Outdoes objective other best

/-- Where something succeeded, the candidate of a best evaluation is in the next population. -/
def KeepsBest (objective : ObjectiveDefinition) (evaluations : List CandidateEvaluation)
    (next : List Candidate) : Prop :=
  (∃ evaluation ∈ evaluations, evaluation.status = .succeeded) →
    ∃ best, BestSucceeded objective evaluations best ∧ best.candidate ∈ next

/-- Where something succeeded, fewer evaluations than elites fit in come before a best one by
expected value. -/
def BestAmongElites (adapter : GeneticOptimizationAdapter) (objective : ObjectiveDefinition)
    (evaluations : List CandidateEvaluation) : Prop :=
  (∃ evaluation ∈ evaluations, evaluation.status = .succeeded) →
    ∃ best, BestSucceeded objective evaluations best ∧
      (evaluations.countP
        (metricKey "expected_value" · < metricKey "expected_value" best) : Int) <
          min adapter.elitism adapter.populationSize

/-- An evaluation with so few before it shares its id with an elite. -/
theorem exists_mem_nextGeneration {evaluation : CandidateEvaluation}
    (hmem : evaluation ∈ evaluations)
    (hcount : (evaluations.countP
      (metricKey "expected_value" · < metricKey "expected_value" evaluation) : Int) <
        min adapter.elitism adapter.populationSize) :
    ∃ elite ∈ evaluations, elite.candidateId = evaluation.candidateId ∧
      elite.candidate ∈ adapter.nextGeneration population evaluations space := by
  have helitism : 0 ≤ adapter.elitism := by omega
  have hsize : 0 ≤ adapter.populationSize := by omega
  let ranked := StableSort.sortBy (metricKey "expected_value") evaluations
  have hcount' : ranked.countP
      (metricKey "expected_value" · < metricKey "expected_value" evaluation) <
        min adapter.populationSize.toNat adapter.elitism.toNat := by
    rw [StableSort.sortBy_perm.countP_eq]
    omega
  obtain ⟨elite, helite, hkey⟩ := (StableSort.exists_mem_take_iff (StableSort.sortBy_sorted _ _)
    (StableSort.mem_sortBy.mpr hmem)).mpr hcount'
  refine ⟨elite, StableSort.mem_sortBy.mp (List.mem_of_mem_take helite),
    candidateId_of_metricKey_eq hkey, ?_⟩
  obtain ⟨mutated, hfill, _, _⟩ := fill_spec space population
    (adapter.populationSize - (adapter.elites evaluations).length).toNat
    (adapter.elites evaluations)
  rw [nextGeneration, hfill, upTo_of_nonneg hsize, List.take_append]
  apply List.mem_append_left
  rw [elites, upTo_of_nonneg helitism, ← List.map_take, List.take_take]
  exact List.mem_map_of_mem helite

/-- A population whose best evaluation is among the elites keeps a best candidate. -/
theorem keepsBest_advance
    (hids : ∀ left ∈ population, ∀ right ∈ population,
      left.candidateId = right.candidateId → left = right)
    (h : adapter.BestAmongElites objective
      (evaluateAll runtime.toOptimizerText evaluator problem population)) :
    KeepsBest objective (evaluateAll runtime.toOptimizerText evaluator problem population)
      (adapter.advance runtime problem evaluator population) := by
  intro hsome
  obtain ⟨best, hbest, hcount⟩ := h hsome
  obtain ⟨elite, helite, hid, hnext⟩ := exists_mem_nextGeneration hbest.1 hcount
  refine ⟨best, hbest, ?_⟩
  obtain ⟨candidate, hcandidate, rfl⟩ := List.mem_map.mp helite
  obtain ⟨candidate', hcandidate', rfl⟩ := List.mem_map.mp hbest.1
  rw [candidateId_evaluateCandidate, candidateId_evaluateCandidate] at hid
  rw [← hids candidate hcandidate candidate' hcandidate' hid]
  exact hnext

/-- The evaluations of one generation. -/
def evaluatedAt (adapter : GeneticOptimizationAdapter) (runtime : SearchRuntime)
    (problem : OptimizationProblem) (evaluator : EvaluatorFn) (initial : List Candidate)
    (generation : Nat) : List CandidateEvaluation :=
  evaluateAll runtime.toOptimizerText evaluator problem
    (adapter.populationAt runtime problem evaluator initial generation)

/-- A run in a space that is closed under rotation evaluates feasible candidates only, and every
generation whose best evaluation is among the elites hands its candidate on. -/
theorem optimize_feasible_and_keepsBest
    (hgenerate : adapter.parameterGenerator.generateExhaustive runtime.toPyText
      problem.parameterSpace = .ok candidates)
    (hrun : adapter.optimize runtime problem evaluator maxIterations seed = .ok result)
    (hclosed : RotationClosed problem.parameterSpace candidates) :
    (∀ evaluation ∈ result.evaluations, Feasible candidates evaluation.candidate.parameters) ∧
      ∀ generation < maxIterations.toNat,
        adapter.BestAmongElites objective
            (adapter.evaluatedAt runtime problem evaluator
              (adapter.initializePopulation candidates maxIterations) generation) →
          KeepsBest objective
            (adapter.evaluatedAt runtime problem evaluator
              (adapter.initializePopulation candidates maxIterations) generation)
            (adapter.populationAt runtime problem evaluator
              (adapter.initializePopulation candidates maxIterations) (generation + 1)) := by
  have hinitial : ∀ candidate ∈ adapter.initializePopulation candidates maxIterations,
      candidate ∈ candidates := fun _ hmem => upTo_sublist.mem hmem
  constructor
  · have hsearch : (SearchAdapter.genetic adapter).optimize runtime problem evaluator
        maxIterations seed = .ok result := hrun
    obtain ⟨_, candidates', ordering, diagnostics, _, hgenerate', rfl⟩ :=
      SearchAdapter.optimize_eq_ok hsearch
    obtain rfl := Except.ok.inj (hgenerate.symm.trans hgenerate')
    intro evaluation hmem
    obtain ⟨candidate, hcandidate, rfl⟩ := List.mem_map.mp (StableSort.mem_sortBy.mp hmem)
    obtain ⟨generation, _, hcandidate⟩ := List.mem_flatMap.mp hcandidate
    rw [evaluateCandidate_candidate]
    exact hclosed.feasible_populationAt hinitial generation candidate hcandidate
  · intro generation _ hbest
    rw [populationAt_succ]
    apply keepsBest_advance ?_ hbest
    intro left hleft right hright hid
    exact descends_eq_of_id hgenerate (descends_populationAt hinitial generation left hleft)
      (descends_populationAt hinitial generation right hright) hid

/-- The second side has more of the expected value. -/
def valueEvaluator : EvaluatorFn :=
  OptimizationEngine.metricsEvaluator [("expected_value", .int 1)] [("expected_value", .int 2)]

def valueProblem : OptimizationProblem :=
  OptimizationEngine.sidesProblem [ParetoEngine.maximizing "expected_value"]

/-- An elitist search over populations of two. -/
def pairAdapter : GeneticOptimizationAdapter where
  populationSize := 2
  elitism := 1

theorem optimize_feasible_and_keepsBest_sides :
    ∃ candidates result, pairAdapter.optimize SearchAdapter.plainRuntime valueProblem valueEvaluator
        2 none = .ok result ∧
      (∀ evaluation ∈ result.evaluations, Feasible candidates evaluation.candidate.parameters) ∧
      KeepsBest (ParetoEngine.maximizing "expected_value")
        (pairAdapter.evaluatedAt SearchAdapter.plainRuntime valueProblem valueEvaluator
          (pairAdapter.initializePopulation candidates 2) 0)
        (pairAdapter.populationAt SearchAdapter.plainRuntime valueProblem valueEvaluator
          (pairAdapter.initializePopulation candidates 2) 1) := by
  obtain ⟨candidates, result, hgenerate, hrun, best, hmem, hsucceeded, hbest, hcount⟩ :
      ∃ candidates result,
        pairAdapter.parameterGenerator.generateExhaustive SearchAdapter.plainRuntime.toPyText
          valueProblem.parameterSpace = .ok candidates ∧
        pairAdapter.optimize SearchAdapter.plainRuntime valueProblem valueEvaluator 2 none =
          .ok result ∧
        ∃ best ∈ pairAdapter.evaluatedAt SearchAdapter.plainRuntime valueProblem valueEvaluator
            (pairAdapter.initializePopulation candidates 2) 0,
          best.status = .succeeded ∧
          (∀ other ∈ pairAdapter.evaluatedAt SearchAdapter.plainRuntime valueProblem valueEvaluator
              (pairAdapter.initializePopulation candidates 2) 0,
            other.status = .succeeded →
              ¬ Outdoes (ParetoEngine.maximizing "expected_value") other best) ∧
          ((pairAdapter.evaluatedAt SearchAdapter.plainRuntime valueProblem valueEvaluator
              (pairAdapter.initializePopulation candidates 2) 0).countP
            (metricKey "expected_value" · < metricKey "expected_value" best) : Int) <
              min pairAdapter.elitism pairAdapter.populationSize := by
    refine ⟨_, _, rfl, rfl, ?_⟩
    unfold Outdoes
    decide +kernel
  have hclosed : RotationClosed valueProblem.parameterSpace candidates :=
    rotationClosed_of_unordered fun _ _ hordered => by
      rcases List.mem_singleton.mp hordered with ⟨⟩
  obtain ⟨hfeasible, hkeeps⟩ := optimize_feasible_and_keepsBest hgenerate hrun hclosed
  exact ⟨candidates, result, hrun, hfeasible,
    hkeeps 0 (by decide) fun _ => ⟨best, ⟨hmem, hsucceeded, hbest⟩, hcount⟩⟩

/-- The problem of choosing a window, of which the longest is forbidden. -/
def windowsProblem : OptimizationProblem :=
  { OptimizationEngine.sidesProblem [ParetoEngine.maximizing "sharpe"] with
    parameterSpace :=
      { parameters := [.orderedDiscrete "window" [.int 1, .int 2, .int 3]]
        forbiddenCombinations := [⟨[("window", .int 3)], "too long"⟩] } }

/-- The second window has the greater ratio. -/
def sharpeEvaluator : EvaluatorFn :=
  OptimizationEngine.metricsEvaluator [("sharpe", .int 1)] [("sharpe", .int 2)]

/-- The elite of two windows is the first one, as none reports an expected value, and the best
window is rotated to the one that is forbidden. -/
theorem optimize_feasible_and_keepsBest_windows :
    ∃ candidates result,
      pairAdapter.parameterGenerator.generateExhaustive SearchAdapter.plainRuntime.toPyText
        windowsProblem.parameterSpace = .ok candidates ∧
      pairAdapter.optimize SearchAdapter.plainRuntime windowsProblem sharpeEvaluator 2 none =
        .ok result ∧
      (¬ ∀ evaluation ∈ result.evaluations,
        Feasible candidates evaluation.candidate.parameters) ∧
      1 ≤ pairAdapter.elitism ∧
      ¬ KeepsBest (ParetoEngine.maximizing "sharpe")
        (pairAdapter.evaluatedAt SearchAdapter.plainRuntime windowsProblem sharpeEvaluator
          (pairAdapter.initializePopulation candidates 2) 0)
        (pairAdapter.populationAt SearchAdapter.plainRuntime windowsProblem sharpeEvaluator
          (pairAdapter.initializePopulation candidates 2) 1) := by
  obtain ⟨candidates, result, hgenerate, hrun, hforbidden, hsome, hlost⟩ :
      ∃ candidates result,
        pairAdapter.parameterGenerator.generateExhaustive SearchAdapter.plainRuntime.toPyText
          windowsProblem.parameterSpace = .ok candidates ∧
        pairAdapter.optimize SearchAdapter.plainRuntime windowsProblem sharpeEvaluator 2 none =
          .ok result ∧
        (∃ evaluation ∈ result.evaluations, ∀ generated ∈ candidates,
          (generated.parameters.get? "window").map ParameterValue.canonical ≠
            (evaluation.candidate.parameters.get? "window").map ParameterValue.canonical) ∧
        (∃ evaluation ∈ pairAdapter.evaluatedAt SearchAdapter.plainRuntime windowsProblem
            sharpeEvaluator (pairAdapter.initializePopulation candidates 2) 0,
          evaluation.status = .succeeded) ∧
        ∀ best ∈ pairAdapter.evaluatedAt SearchAdapter.plainRuntime windowsProblem sharpeEvaluator
            (pairAdapter.initializePopulation candidates 2) 0,
          (∀ other ∈ pairAdapter.evaluatedAt SearchAdapter.plainRuntime windowsProblem
              sharpeEvaluator (pairAdapter.initializePopulation candidates 2) 0,
            other.status = .succeeded →
              ¬ Outdoes (ParetoEngine.maximizing "sharpe") other best) →
          ∀ candidate ∈ pairAdapter.populationAt SearchAdapter.plainRuntime windowsProblem
              sharpeEvaluator (pairAdapter.initializePopulation candidates 2) 1,
            best.candidateId ≠ candidate.candidateId := by
    refine ⟨_, _, rfl, rfl, by decide +kernel, by decide +kernel, ?_⟩
    unfold Outdoes
    decide +kernel
  refine ⟨candidates, result, hgenerate, hrun, ?_, by decide, ?_⟩
  · intro h
    obtain ⟨evaluation, hmem, hnone⟩ := hforbidden
    obtain ⟨generated, hgenerated, hsame⟩ := h evaluation hmem
    exact hnone generated hgenerated (hsame "window")
  · intro h
    obtain ⟨best, ⟨hmem, _, hbest⟩, hkept⟩ := h hsome
    exact hlost best hmem hbest best.candidate hkept rfl

end GeneticOptimizationAdapter
end OptionResearch
