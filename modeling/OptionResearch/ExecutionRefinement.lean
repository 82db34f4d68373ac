import OptionResearch.ExecutionAdapters

/-!
# Pools against serial execution

The process pool brings the payloads back in the order of the candidates, whatever the order of
completion. Its evaluations are the serial ones, but a worker that raises takes the run down, and
the counts are of payloads: they agree with the serial ones exactly where everything succeeds.
-/

namespace OptionResearch

open CandidateEvaluation CandidateEvaluationService

/-- What a caller reads of a bundle: evaluations, winners, front, and the three counts. -/
structure ExecutionOutcome where
  evaluations : List CandidateEvaluation
  winners : List CandidateEvaluation
  paretoFront : List CandidateEvaluation
  completedCount : Nat
  failedCount : Nat
  rejectedCount : Nat

def ExecutionResultBundle.outcome (bundle : ExecutionResultBundle) : ExecutionOutcome where
  evaluations := bundle.result.evaluations
  winners := bundle.result.winners
  paretoFront := bundle.result.paretoFront
  completedCount := bundle.diagnostics.completedCount
  failedCount := bundle.diagnostics.failedCount
  rejectedCount := bundle.diagnostics.rejectedCount

variable {text : OptimizerText} {engine : OptimizationEngine} {problem : OptimizationProblem}
  {evaluator : EvaluatorFn} {candidates : List Candidate} {candidate : Candidate}

/-- An evaluation succeeds only where the evaluator returns a dictionary. -/
theorem CandidateEvaluationService.exists_payload_of_succeeded
    (h : (evaluateCandidate text evaluator problem candidate).status = .succeeded) :
    ∃ payload, evaluator problem candidate = .ok (.dict payload) := by
  rw [evaluateCandidate] at h
  split at h
  · rename_i evaluation hevaluation
    obtain ⟨value, hvalue, hpayload⟩ := except_bind_eq_ok.mp hevaluation
    obtain ⟨payload, hdict, _⟩ := except_bind_eq_ok.mp hpayload
    cases value with
    | dict entries => exact ⟨entries, hvalue⟩
    | _ => cases hdict
  · cases h

/-! ### Threads -/

/-- A pool of threads evaluates and counts as a serial run does. -/
theorem ThreadPoolExecutionAdapter.outcome_eq_serial {threads : ThreadPoolExecutionAdapter}
    (hworkers : 0 < threads.maxWorkers) :
    (threads.run text engine problem evaluator).map ExecutionResultBundle.outcome =
      (SerialExecutionAdapter.run text engine problem evaluator).map
        ExecutionResultBundle.outcome := by
  rw [ThreadPoolExecutionAdapter.run, SerialExecutionAdapter.run, OptimizationEngine.run,
    OptimizationEngine.run]
  cases engine.parameterGenerator.generateExhaustive text.toPyText problem.parameterSpace with
  | error e => rfl
  | ok candidates =>
    dsimp only [bind, Except.bind]
    have hthreads : OptimizationEngine.evaluateCandidates text problem evaluator candidates
        ExecutionMode.threadPool.value threads.maxWorkers =
          .ok (evaluateAll text evaluator problem candidates) := by
      rw [OptimizationEngine.evaluateCandidates, if_neg (by decide), if_pos (by decide),
        if_neg (not_le.mpr hworkers)]
    rw [hthreads]
    rfl

namespace ProcessPoolExecutionAdapter

variable {pool : ProcessPool} {adapter : ProcessPoolExecutionAdapter} {payloads : List Payload}
  {status : String}

/-! ### Payloads -/

/-- What the worker returns, where it does. -/
def workerPayload (text : OptimizerText) (problem : OptimizationProblem) (evaluator : EvaluatorFn)
    (candidate : Candidate) : Payload :=
  (processWorker text problem candidate evaluator).toOption.getD []

variable (candidates) in
theorem map_fst_tasks : (tasks candidates).map Prod.fst = List.range candidates.length := by
  rw [tasks, List.map_map, List.range_eq_range']
  exact List.zipIdx_map_snd 0 candidates

variable (candidates) in
theorem map_snd_tasks : (tasks candidates).map Prod.snd = candidates := by
  rw [tasks, List.map_map]
  exact List.zipIdx_map_fst 0 candidates

/-- Results that come in any order are put in the order of the tasks. -/
theorem sortBy_completed {β : Type} {g : Candidate → β} {completed : List (Nat × Candidate)}
    (h : completed.Perm (tasks candidates)) :
    (StableSort.sortBy Prod.fst (completed.map fun task => (task.1, g task.2))).map Prod.snd =
      candidates.map g := by
  have hperm := h.map fun task => (task.1, g task.2)
  have hfst : ((tasks candidates).map fun task => (task.1, g task.2)).map Prod.fst =
      List.range candidates.length := by
    rw [List.map_map, ← map_fst_tasks candidates]
    rfl
  have hnodup : ((completed.map fun task => (task.1, g task.2)).map Prod.fst).Nodup := by
    rw [(hperm.map Prod.fst).nodup_iff, hfst]
    exact List.nodup_range
  have hsorted : StableSort.SortedBy Prod.fst
      ((tasks candidates).map fun task => (task.1, g task.2)) := by
    have hrange : (((tasks candidates).map fun task => (task.1, g task.2)).map Prod.fst).Pairwise
        (· ≤ ·) := by
      rw [hfst]
      exact List.pairwise_le_range
    exact List.pairwise_map.mp hrange
  rw [StableSort.sortBy_eq_of_perm ?_ hperm, StableSort.sortBy_eq_self hsorted, List.map_map]
  · conv_rhs => rw [← map_snd_tasks candidates, List.map_map]
    rfl
  · exact fun a ha b hb hab => List.inj_on_of_nodup_map hnodup ha hb hab

/-- Where all workers return, the payloads come in the order of the candidates. -/
theorem orderedPayloads_of_returning
    (h : ∀ candidate ∈ candidates, ∃ payload,
      processWorker text problem candidate evaluator = .ok payload) :
    orderedPayloads text pool problem evaluator candidates =
      .ok (candidates.map (workerPayload text problem evaluator)) := by
  have hworker : ∀ task ∈ pool.completed (tasks candidates),
      (do return (task.1, ← processWorker text problem task.2 evaluator) :
        Except Exc (Nat × Payload)) =
        .ok (task.1, workerPayload text problem evaluator task.2) := by
    intro task htask
    have hmem : task.2 ∈ candidates := by
      rw [← map_snd_tasks candidates]
      exact List.mem_map_of_mem ((pool.completed_perm _).mem_iff.mp htask)
    obtain ⟨payload, hpayload⟩ := h task.2 hmem
    rw [workerPayload, hpayload]
    rfl
  rw [orderedPayloads, mapM_eq_ok_map hworker]
  exact congrArg Except.ok (sortBy_completed (pool.completed_perm _))

/-- Whatever the order of completion, the payloads are those of the candidates in their order. -/
theorem orderedPayloads_eq_ok_iff :
    orderedPayloads text pool problem evaluator candidates = .ok payloads ↔
      (∀ candidate ∈ candidates, ∃ payload,
          processWorker text problem candidate evaluator = .ok payload) ∧
        payloads = candidates.map (workerPayload text problem evaluator) := by
  constructor
  · intro h
    have hreturns : ∀ candidate ∈ candidates, ∃ payload,
        processWorker text problem candidate evaluator = .ok payload := by
      obtain ⟨results, hresults, _⟩ := except_bind_eq_ok.mp h
      intro candidate hmem
      rw [← map_snd_tasks candidates] at hmem
      obtain ⟨task, htask, rfl⟩ := List.mem_map.mp hmem
      obtain ⟨result, _, hresult⟩ := (mapM_eq_ok_mem hresults).1 task
        ((pool.completed_perm _).mem_iff.mpr htask)
      obtain ⟨payload, hpayload, _⟩ := except_bind_eq_ok.mp hresult
      exact ⟨payload, hpayload⟩
    exact ⟨hreturns, Except.ok.inj (h.symm.trans (orderedPayloads_of_returning hreturns))⟩
  · rintro ⟨hreturns, rfl⟩
    exact orderedPayloads_of_returning hreturns

/-- A worker keeps the status that the evaluator's payload names. -/
theorem hasStatus_of_processWorker {payload : Payload}
    (h : processWorker text problem candidate evaluator = .ok payload) :
    ∃ value returned, evaluator problem candidate = .ok value ∧ value.toDict = .ok returned ∧
      ∀ status, hasStatus status payload = hasStatus status returned := by
  obtain ⟨value, hvalue, h⟩ := except_bind_eq_ok.mp h
  obtain ⟨returned, hreturned, h⟩ := except_bind_eq_ok.mp h
  obtain rfl := Except.ok.inj h
  refine ⟨value, returned, hvalue, hreturned, fun status => ?_⟩
  rw [hasStatus, hasStatus, Payload.get_setItem, if_neg (by decide), Payload.get_setItem,
    if_neg (by decide)]

theorem exists_processWorker_of_dict {returned : Payload}
    (h : evaluator problem candidate = .ok (.dict returned)) :
    ∃ payload, processWorker text problem candidate evaluator = .ok payload := by
  rw [processWorker, h]
  exact ⟨_, rfl⟩

/-! ### Counts -/

/-- The evaluation succeeds, and the payload does not call itself failed or rejected. -/
def SucceedsPlainly (text : OptimizerText) (evaluator : EvaluatorFn) (problem : OptimizationProblem)
    (candidate : Candidate) : Prop :=
  (evaluateCandidate text evaluator problem candidate).status = .succeeded ∧
    ∀ payload, evaluator problem candidate = .ok (.dict payload) →
      hasStatus "failed" payload = false ∧ hasStatus "rejected" payload = false

theorem countStatus_eq_length_iff :
    OptimizationEngine.countStatus (evaluateAll text evaluator problem candidates) .succeeded =
        candidates.length ↔
      ∀ candidate ∈ candidates,
        (evaluateCandidate text evaluator problem candidate).status = .succeeded := by
  rw [OptimizationEngine.countStatus, evaluateAll, List.countP_map, List.countP_eq_length]
  exact forall₂_congr fun candidate _ => beq_iff_eq

/-- Where everything succeeds, nothing is counted under another status. -/
theorem countStatus_eq_zero {status : CandidateStatus} (hstatus : status ≠ .succeeded)
    (h : ∀ candidate ∈ candidates,
      (evaluateCandidate text evaluator problem candidate).status = .succeeded) :
    OptimizationEngine.countStatus (evaluateAll text evaluator problem candidates) status = 0 := by
  rw [OptimizationEngine.countStatus, evaluateAll, List.countP_map, List.countP_eq_zero]
  intro candidate hmem
  rw [Function.comp_apply, h candidate hmem, beq_iff_eq]
  exact fun heq => hstatus heq.symm

theorem countP_workerPayload_eq_zero_iff :
    (candidates.map (workerPayload text problem evaluator)).countP (hasStatus status) = 0 ↔
      ∀ candidate ∈ candidates,
        hasStatus status (workerPayload text problem evaluator candidate) = false := by
  rw [List.countP_map, List.countP_eq_zero]
  exact forall₂_congr fun candidate _ => Bool.eq_false_iff.symm

/-- The status that a worker's payload names is that of the evaluator's one. -/
theorem hasStatus_workerPayload {payload returned : Payload}
    (h : processWorker text problem candidate evaluator = .ok payload)
    (hreturned : evaluator problem candidate = .ok (.dict returned)) :
    hasStatus status (workerPayload text problem evaluator candidate) =
      hasStatus status returned := by
  obtain ⟨value, returned', hvalue, hdict, hstatus⟩ := hasStatus_of_processWorker h
  obtain rfl := Except.ok.inj (hreturned.symm.trans hvalue)
  obtain rfl := Except.ok.inj hdict
  rw [workerPayload, h]
  exact hstatus status

/-- The counts of payloads agree with those of evaluations. -/
structure SameCounts (candidates : List Candidate) (evaluations : List CandidateEvaluation)
    (payloads : List Payload) : Prop where
  completed : candidates.length = OptimizationEngine.countStatus evaluations .succeeded
  failed : payloads.countP (hasStatus "failed") =
    OptimizationEngine.countStatus evaluations .failed
  rejected : payloads.countP (hasStatus "rejected") =
    OptimizationEngine.countStatus evaluations .rejected

/-- Where the workers return, they are counted as the evaluations are exactly where all succeed. -/
theorem sameCounts_iff
    (h : ∀ candidate ∈ candidates, ∃ payload,
      processWorker text problem candidate evaluator = .ok payload) :
    SameCounts candidates (evaluateAll text evaluator problem candidates)
        (candidates.map (workerPayload text problem evaluator)) ↔
      ∀ candidate ∈ candidates, SucceedsPlainly text evaluator problem candidate := by
  constructor
  · rintro ⟨hcompleted, hfailed, hrejected⟩
    have hall := countStatus_eq_length_iff.mp hcompleted.symm
    rw [countStatus_eq_zero (by decide) hall, countP_workerPayload_eq_zero_iff] at hfailed hrejected
    intro candidate hmem
    obtain ⟨payload, hworker⟩ := h candidate hmem
    refine ⟨hall candidate hmem, fun returned hreturned => ?_⟩
    rw [← hasStatus_workerPayload hworker hreturned, ← hasStatus_workerPayload hworker hreturned]
    exact ⟨hfailed candidate hmem, hrejected candidate hmem⟩
  · intro hplain
    have hall : ∀ candidate ∈ candidates,
        (evaluateCandidate text evaluator problem candidate).status = .succeeded :=
      fun candidate hmem => (hplain candidate hmem).1
    have hnone : ∀ candidate ∈ candidates,
        hasStatus "failed" (workerPayload text problem evaluator candidate) = false ∧
          hasStatus "rejected" (workerPayload text problem evaluator candidate) = false := by
      intro candidate hmem
      obtain ⟨payload, hworker⟩ := h candidate hmem
      obtain ⟨returned, hreturned⟩ := exists_payload_of_succeeded (hall candidate hmem)
      rw [hasStatus_workerPayload hworker hreturned, hasStatus_workerPayload hworker hreturned]
      exact (hplain candidate hmem).2 returned hreturned
    refine ⟨(countStatus_eq_length_iff.mpr hall).symm, ?_, ?_⟩
    · rw [countStatus_eq_zero (by decide) hall, countP_workerPayload_eq_zero_iff]
      exact fun candidate hmem => (hnone candidate hmem).1
    · rw [countStatus_eq_zero (by decide) hall, countP_workerPayload_eq_zero_iff]
      exact fun candidate hmem => (hnone candidate hmem).2

/-! ### Runs -/

/-- The result of a serial run. -/
def serialResult (text : OptimizerText) (evaluator : EvaluatorFn) (problem : OptimizationProblem)
    (candidates : List Candidate) : OptimizationResult :=
  OptimizationEngine.resultOf problem candidates (evaluateAll text evaluator problem candidates)
    "serial" false .minMax

theorem serial_run_eq (hgenerate : engine.parameterGenerator.generateExhaustive text.toPyText
    problem.parameterSpace = .ok candidates) :
    SerialExecutionAdapter.run text engine problem evaluator =
      .ok ⟨serialResult text evaluator problem candidates,
        SerialExecutionAdapter.diagnostics text problem
          (serialResult text evaluator problem candidates) .serial⟩ := by
  rw [SerialExecutionAdapter.run, ExecutionMode.value, OptimizationEngine.run_serial hgenerate]
  rfl

/-- After its workers, the process pool runs serially. -/
theorem run_eq (hserializable : pool.dumps problem evaluator = .ok ())
    (hgenerate : engine.parameterGenerator.generateExhaustive text.toPyText
      problem.parameterSpace = .ok candidates) (hworkers : 0 < adapter.maxWorkers) :
    run text pool adapter engine problem evaluator = do
      let payloads ← orderedPayloads text pool problem evaluator candidates
      return ⟨serialResult text evaluator problem candidates,
        diagnostics text adapter problem candidates
          (serialResult text evaluator problem candidates) payloads⟩ := by
  rw [run, ensureSerializable, hserializable, hgenerate]
  dsimp only [bind, Except.bind]
  rw [if_neg (not_le.mpr hworkers), ExecutionMode.value, OptimizationEngine.run_serial hgenerate]
  rfl

/-- The outcomes agree exactly where the counts do. -/
theorem outcome_eq_iff {payloads : List Payload} (hlength : payloads.length = candidates.length) :
    (ExecutionResultBundle.mk (serialResult text evaluator problem candidates)
        (diagnostics text adapter problem candidates
          (serialResult text evaluator problem candidates) payloads)).outcome =
      (ExecutionResultBundle.mk (serialResult text evaluator problem candidates)
        (SerialExecutionAdapter.diagnostics text problem
          (serialResult text evaluator problem candidates) .serial)).outcome ↔
      SameCounts candidates (evaluateAll text evaluator problem candidates) payloads := by
  have hcount : ∀ status, OptimizationEngine.countStatus
      (serialResult text evaluator problem candidates).evaluations status =
        OptimizationEngine.countStatus (evaluateAll text evaluator problem candidates) status :=
    fun status => OptimizationEngine.countStatus_rescored status
  rw [ExecutionOutcome.mk.injEq]
  dsimp only [ExecutionResultBundle.outcome, diagnostics, SerialExecutionAdapter.diagnostics]
  rw [hcount, hcount, hcount, hlength]
  constructor
  · rintro ⟨_, _, _, hcompleted, hfailed, hrejected⟩
    exact ⟨hcompleted, hfailed, hrejected⟩
  · rintro ⟨hcompleted, hfailed, hrejected⟩
    exact ⟨rfl, rfl, rfl, hcompleted, hfailed, hrejected⟩

/-- A process pool refines serial execution exactly where it has workers and every candidate
succeeds plainly: a worker that raises takes the whole run down, and rejected or failed evaluations
are counted as completed. -/
theorem run_outcome_eq_serial_iff (hserializable : pool.dumps problem evaluator = .ok ()) :
    (run text pool adapter engine problem evaluator).map ExecutionResultBundle.outcome =
        (SerialExecutionAdapter.run text engine problem evaluator).map
          ExecutionResultBundle.outcome ↔
      ∀ candidates, engine.parameterGenerator.generateExhaustive text.toPyText
          problem.parameterSpace = .ok candidates →
        0 < adapter.maxWorkers ∧
          ∀ candidate ∈ candidates, SucceedsPlainly text evaluator problem candidate := by
  cases hgenerate : engine.parameterGenerator.generateExhaustive text.toPyText
      problem.parameterSpace with
  | error e =>
    refine iff_of_true ?_ fun _ h => nomatch h
    rw [run, ensureSerializable, hserializable, SerialExecutionAdapter.run,
      OptimizationEngine.run, hgenerate]
    rfl
  | ok candidates =>
    rw [serial_run_eq hgenerate]
    constructor
    · rintro h _ ⟨⟩
      have hworkers : 0 < adapter.maxWorkers := by
        by_contra hnot
        rw [run, ensureSerializable, hserializable, hgenerate] at h
        dsimp only [bind, Except.bind] at h
        rw [if_pos (not_lt.mp hnot)] at h
        cases h
      rw [run_eq hserializable hgenerate hworkers] at h
      cases hpayloads : orderedPayloads text pool problem evaluator candidates with
      | error e =>
        rw [hpayloads] at h
        cases h
      | ok payloads =>
        rw [hpayloads] at h
        obtain ⟨hreturns, rfl⟩ := orderedPayloads_eq_ok_iff.mp hpayloads
        have hcounts := (outcome_eq_iff (List.length_map _)).mp (Except.ok.inj h)
        exact ⟨hworkers, (sameCounts_iff hreturns).mp hcounts⟩
    · intro h
      obtain ⟨hworkers, hplain⟩ := h candidates rfl
      have hreturns : ∀ candidate ∈ candidates, ∃ payload,
          processWorker text problem candidate evaluator = .ok payload := by
        intro candidate hmem
        obtain ⟨returned, hreturned⟩ := exists_payload_of_succeeded (hplain candidate hmem).1
        exact exists_processWorker_of_dict hreturned
      rw [run_eq hserializable hgenerate hworkers, orderedPayloads_of_returning hreturns]
      have hcounts := (sameCounts_iff hreturns).mpr hplain
      exact congrArg Except.ok ((outcome_eq_iff (List.length_map _)).mpr hcounts)

/-! ### Small runs -/

/-- A pool whose workers finish last to first. -/
def lastFirst : ProcessPool where
  dumps _ _ := .ok ()
  completed := List.reverse
  completed_perm := List.reverse_perm

theorem run_outcome_eq_serial_sides :
    (run plainOptimizerText lastFirst {} OptimizationEngine.plainEngine
        (OptimizationEngine.sidesProblem OptimizationEngine.carryAndVega)
        OptimizationEngine.agreeingEvaluator).map ExecutionResultBundle.outcome =
      (SerialExecutionAdapter.run plainOptimizerText OptimizationEngine.plainEngine
        (OptimizationEngine.sidesProblem OptimizationEngine.carryAndVega)
        OptimizationEngine.agreeingEvaluator).map ExecutionResultBundle.outcome := by
  refine (run_outcome_eq_serial_iff rfl).mpr fun candidates _ =>
    ⟨by decide, fun candidate _ => ⟨rfl, fun payload hpayload => ?_⟩⟩
  obtain rfl : _ = payload := PyValue.dict.inj (Except.ok.inj hpayload)
  exact ⟨rfl, rfl⟩

/-- An evaluator that raises for all candidates but the first. -/
def raisingEvaluator : EvaluatorFn := fun _ candidate =>
  if candidate.candidateId = "cand-0000001" then
    .ok (.dict [("objective_metrics", .dict [("carry", .int 1)])])
  else .error ⟨.valueError, "no quotes"⟩

/-- One worker raises and so does the run, which serially returns. -/
theorem run_outcome_eq_serial_raising :
    ¬ ∀ (text : OptimizerText) (pool : ProcessPool) (adapter : ProcessPoolExecutionAdapter)
        (engine : OptimizationEngine) (problem : OptimizationProblem) (evaluator : EvaluatorFn),
        pool.dumps problem evaluator = .ok () →
        (run text pool adapter engine problem evaluator).map ExecutionResultBundle.outcome =
          (SerialExecutionAdapter.run text engine problem evaluator).map
            ExecutionResultBundle.outcome := by
  intro h
  have heq := h plainOptimizerText lastFirst {} OptimizationEngine.plainEngine
    (OptimizationEngine.sidesProblem [ParetoEngine.maximizing "carry"]) raisingEvaluator rfl
  exact absurd (congrArg (fun outcome => outcome.toOption.isSome) heq) (by decide +kernel)

end ProcessPoolExecutionAdapter
end OptionResearch
