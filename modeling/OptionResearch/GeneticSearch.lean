import OptionResearch.SearchAdapters

/-!
# Generations of a genetic search

What one generation hands to the next: elites, which are candidates of the population, and mutated
parents. So everything that is evaluated descends from a generated candidate by mutation alone.
-/

namespace OptionResearch

open CandidateEvaluation CandidateEvaluationService SingleObjectiveSearchAdapter

theorem upTo_sublist {α : Type*} {items : List α} {stop : Int} :
    (upTo items stop).Sublist items := by
  rw [upTo]
  split_ifs
  · exact List.take_sublist _ _
  · exact List.take_sublist _ _

theorem upTo_of_nonneg {α : Type*} {items : List α} {stop : Int} (h : 0 ≤ stop) :
    upTo items stop = items.take stop.toNat := if_pos h

namespace GeneticOptimizationAdapter

variable {runtime : SearchRuntime} {adapter : GeneticOptimizationAdapter}
  {problem : OptimizationProblem} {evaluator : EvaluatorFn} {space : ParameterSpace}
  {candidates population initial : List Candidate} {candidate other : Candidate}

/-! ### One generation -/

theorem mem_elites {evaluated : List CandidateEvaluation}
    (h : candidate ∈ adapter.elites evaluated) :
    ∃ evaluation ∈ evaluated, evaluation.candidate = candidate := by
  obtain ⟨evaluation, hmem, rfl⟩ := List.mem_map.mp h
  exact ⟨evaluation, StableSort.mem_sortBy.mp (upTo_sublist.mem hmem), rfl⟩

variable (space) in
/-- The places are filled behind what is there, with mutated parents. -/
theorem fill_spec (pool : List Candidate) (missing : Nat) (next : List Candidate) :
    ∃ mutated, fill space pool missing next = next ++ mutated ∧ mutated.length ≤ missing ∧
      ∀ candidate ∈ mutated, ∃ parent ∈ pool, mutateCandidate space parent = candidate := by
  induction missing generalizing next with
  | zero => exact ⟨[], (List.append_nil next).symm, le_rfl, fun _ h => absurd h List.not_mem_nil⟩
  | succ missing ih =>
    rw [fill]
    cases hparent : pool[next.length % pool.length]? with
    | none =>
      exact ⟨[], (List.append_nil next).symm, Nat.zero_le _, fun _ h => absurd h List.not_mem_nil⟩
    | some parent =>
      obtain ⟨mutated, hfill, hlength, hmutated⟩ := ih (next ++ [mutateCandidate space parent])
      refine ⟨mutateCandidate space parent :: mutated, ?_, Nat.succ_le_succ hlength, ?_⟩
      · dsimp only
        rw [hfill, List.append_assoc, List.singleton_append]
      · intro candidate hmem
        rcases List.mem_cons.mp hmem with rfl | hrest
        · exact ⟨parent, List.mem_of_getElem? hparent, rfl⟩
        · exact hmutated candidate hrest

/-- A candidate of the next generation is an old one, or a mutated old one. -/
theorem mem_nextGeneration {evaluated : List CandidateEvaluation}
    (h : candidate ∈ adapter.nextGeneration population evaluated space) :
    (∃ evaluation ∈ evaluated, evaluation.candidate = candidate) ∨
      ∃ parent ∈ population, mutateCandidate space parent = candidate := by
  have hmem := upTo_sublist.mem h
  obtain ⟨mutated, hfill, _, hmutated⟩ := fill_spec space population
    (adapter.populationSize - (adapter.elites evaluated).length).toNat (adapter.elites evaluated)
  rw [hfill] at hmem
  rcases List.mem_append.mp hmem with helite | hnew
  · exact .inl (mem_elites helite)
  · exact .inr (hmutated candidate hnew)

/-! ### Runs -/

/-- The next population of a run. -/
def advance (adapter : GeneticOptimizationAdapter) (runtime : SearchRuntime)
    (problem : OptimizationProblem) (evaluator : EvaluatorFn) (population : List Candidate) :
    List Candidate :=
  adapter.nextGeneration population
    (evaluateAll runtime.toOptimizerText evaluator problem population) problem.parameterSpace

/-- The population after so many generations. -/
def populationAt (adapter : GeneticOptimizationAdapter) (runtime : SearchRuntime)
    (problem : OptimizationProblem) (evaluator : EvaluatorFn) (initial : List Candidate)
    (generation : Nat) : List Candidate :=
  (adapter.advance runtime problem evaluator)^[generation] initial

theorem populationAt_succ (generation : Nat) :
    adapter.populationAt runtime problem evaluator initial (generation + 1) =
      adapter.advance runtime problem evaluator
        (adapter.populationAt runtime problem evaluator initial generation) :=
  Function.iterate_succ_apply' _ _ _

theorem mem_advance (h : candidate ∈ adapter.advance runtime problem evaluator population) :
    candidate ∈ population ∨
      ∃ parent ∈ population, mutateCandidate problem.parameterSpace parent = candidate := by
  rcases mem_nextGeneration h with ⟨evaluation, hmem, rfl⟩ | hmutated
  · obtain ⟨kept, hkept, rfl⟩ := List.mem_map.mp hmem
    rw [evaluateCandidate_candidate]
    exact .inl hkept
  · exact .inr hmutated

/-- What holds of a first population and is kept by mutation holds of every population. -/
theorem populationAt_invariant {P : Candidate → Prop}
    (hinitial : ∀ candidate ∈ initial, P candidate)
    (hmutate : ∀ candidate, P candidate → P (mutateCandidate problem.parameterSpace candidate))
    (generation : Nat) :
    ∀ candidate ∈ adapter.populationAt runtime problem evaluator initial generation,
      P candidate := by
  induction generation with
  | zero => exact hinitial
  | succ generation ih =>
    intro candidate hmem
    rw [populationAt_succ] at hmem
    rcases mem_advance hmem with hkept | ⟨parent, hparent, rfl⟩
    · exact ih candidate hkept
    · exact hmutate parent (ih parent hparent)

variable (runtime adapter problem evaluator) in
/-- The history of a run: its populations, evaluated. -/
theorem evolve_snd (generations : Nat) (population : List Candidate)
    (history : List CandidateEvaluation) :
    (adapter.evolve runtime problem evaluator generations population history).2 =
      history ++ evaluateAll runtime.toOptimizerText evaluator problem
        ((List.range generations).flatMap
          (adapter.populationAt runtime problem evaluator population)) := by
  induction generations generalizing population history with
  | zero => exact (List.append_nil history).symm
  | succ generations ih =>
    rw [evolve, ih, List.range_succ_eq_map, List.flatMap_cons, List.flatMap_map, List.append_assoc]
    apply congrArg (history ++ ·)
    exact (List.map_append).symm

/-! ### Descendants of generated candidates -/

/-- A candidate that some mutations make of a generated one. -/
def Descends (space : ParameterSpace) (candidates : List Candidate) (candidate : Candidate) :
    Prop :=
  ∃ mutations, ∃ origin ∈ candidates, (mutateCandidate space)^[mutations] origin = candidate

theorem descends_populationAt (hinitial : ∀ candidate ∈ initial, candidate ∈ candidates)
    (generation : Nat) :
    ∀ candidate ∈ adapter.populationAt runtime problem evaluator initial generation,
      Descends problem.parameterSpace candidates candidate := by
  apply populationAt_invariant
  · exact fun candidate hmem => ⟨0, candidate, hinitial candidate hmem, rfl⟩
  · rintro _ ⟨mutations, origin, hmem, rfl⟩
    exact ⟨mutations + 1, origin, hmem, Function.iterate_succ_apply' _ _ _⟩

theorem generated_ne_mutated {index : Nat} {id : String} :
    ParameterSpaceGenerator.candidateId index ≠ "mut-" ++ id := by
  intro h
  have hchars := congrArg String.toList h
  rw [ParameterSpaceGenerator.candidateId, String.toList_append, String.toList_append] at hchars
  exact absurd (List.cons.inj hchars).1 (by decide)

/-- Descendants of generated candidates with one id are one candidate. -/
theorem descends_eq_of_id {generator : ParameterSpaceGenerator} {text : PyText}
    (hgenerate : generator.generateExhaustive text space = .ok candidates)
    (hcandidate : Descends space candidates candidate) (hother : Descends space candidates other)
    (hid : candidate.candidateId = other.candidateId) : candidate = other := by
  obtain ⟨mutations, origin, horigin, rfl⟩ := hcandidate
  obtain ⟨mutations', origin', horigin', rfl⟩ := hother
  obtain ⟨hnodup, hnumbered⟩ := ParameterSpaceGenerator.generateExhaustive_numbered hgenerate
  -- each mutation puts the same text in front of the id, and no generated id begins with it
  induction mutations generalizing mutations' with
  | zero =>
    cases mutations' with
    | zero => exact List.inj_on_of_nodup_map hnodup horigin horigin' hid
    | succ mutations' =>
      obtain ⟨index, hindex⟩ := hnumbered origin horigin
      rw [Function.iterate_succ_apply', Function.iterate_zero_apply, hindex] at hid
      exact absurd hid generated_ne_mutated
  | succ mutations ih =>
    cases mutations' with
    | zero =>
      obtain ⟨index, hindex⟩ := hnumbered origin' horigin'
      rw [Function.iterate_succ_apply', Function.iterate_zero_apply, hindex] at hid
      exact absurd hid.symm generated_ne_mutated
    | succ mutations' =>
      rw [Function.iterate_succ_apply', Function.iterate_succ_apply'] at hid ⊢
      rw [ih mutations' ((String.append_right_inj "mut-").mp hid)]

end GeneticOptimizationAdapter
end OptionResearch
