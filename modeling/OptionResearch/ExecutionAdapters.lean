import OptionResearch.OptimizationWinners

/-!
# Execution adapters

`execution.py` with the checksum reconciliation of `checksums.py`. A serial and a thread-pool
adapter count the statuses of the evaluations. The process-pool adapter sends every candidate to a
worker first, in whose payloads it counts, and then evaluates serially.
-/

namespace OptionResearch

open CandidateEvaluation CandidateEvaluationService

inductive ExecutionMode where
  | serial
  | threadPool
  | processPool
  | distributed
  deriving DecidableEq, Repr

def ExecutionMode.value : ExecutionMode → String
  | .serial => "serial"
  | .threadPool => "thread_pool"
  | .processPool => "process_pool"
  | .distributed => "distributed"

structure ReproducibilityChecksumBundle where
  runChecksum : String
  candidateInputChecksums : List String
  candidateResultChecksums : List String
  softwareGitCommit : String
  datasetManifestIds : List Int
  missingCandidateIds : List String
  duplicateCandidateIds : List String
  reorderedCandidateIds : List String
  reconciled : Bool
  failureReason : Option String

structure ExecutionDiagnostics where
  executionMode : ExecutionMode
  candidateCount : Nat
  completedCount : Nat
  failedCount : Nat
  rejectedCount : Nat
  checksumBundle : ReproducibilityChecksumBundle
  metadata : Payload

structure ExecutionResultBundle where
  result : OptimizationResult
  diagnostics : ExecutionDiagnostics

variable (text : OptimizerText)

def reconcileChecksums (problem : OptimizationProblem) (result : OptimizationResult)
    (expectedCandidateIds : List String) : ReproducibilityChecksumBundle :=
  let resultById : InsertionDict String CandidateEvaluation :=
    result.evaluations.foldl (fun dict item => dict.set item.candidateId item) .empty
  let missing := expectedCandidateIds.filter fun candidateId => !resultById.contains candidateId
  let reordered := ((result.candidateOrdering.zip expectedCandidateIds).filter fun pair =>
    pair.1 != pair.2).map Prod.fst
  let reconciled := missing.isEmpty && reordered.isEmpty
  { runChecksum := text.problemChecksum problem
    candidateInputChecksums := expectedCandidateIds.map (text.candidateInputChecksum problem)
    candidateResultChecksums := expectedCandidateIds.filterMap fun candidateId =>
      (resultById.get? candidateId).map text.candidateResultChecksum
    softwareGitCommit := problem.softwareGitCommit
    datasetManifestIds := problem.datasetManifests
    missingCandidateIds := missing
    duplicateCandidateIds := []
    reorderedCandidateIds := reordered
    reconciled
    failureReason := if reconciled then none else some "reconciliation failed" }

/-! ### Serial and threaded execution -/

namespace SerialExecutionAdapter

/-- `_diagnostics`. -/
def diagnostics (problem : OptimizationProblem) (result : OptimizationResult)
    (executionMode : ExecutionMode) : ExecutionDiagnostics where
  executionMode
  candidateCount := result.candidateOrdering.length
  completedCount := OptimizationEngine.countStatus result.evaluations .succeeded
  failedCount := OptimizationEngine.countStatus result.evaluations .failed
  rejectedCount := OptimizationEngine.countStatus result.evaluations .rejected
  checksumBundle := reconcileChecksums text problem result result.candidateOrdering
  metadata := [("optimizer", .str "serial")]

def run (engine : OptimizationEngine) (problem : OptimizationProblem) (evaluator : EvaluatorFn) :
    Except Exc ExecutionResultBundle := do
  let result ← engine.run text problem evaluator ExecutionMode.serial.value 4 false .minMax
  return { result, diagnostics := diagnostics text problem result .serial }

end SerialExecutionAdapter

structure ThreadPoolExecutionAdapter where
  maxWorkers : Int := 4

def ThreadPoolExecutionAdapter.run (adapter : ThreadPoolExecutionAdapter)
    (engine : OptimizationEngine) (problem : OptimizationProblem) (evaluator : EvaluatorFn) :
    Except Exc ExecutionResultBundle := do
  let result ← engine.run text problem evaluator ExecutionMode.threadPool.value adapter.maxWorkers
    false .minMax
  return {
    result
    diagnostics := SerialExecutionAdapter.diagnostics text problem result .threadPool }

/-! ### Execution in processes -/

/-- What `pickle` and a pool of processes do: pickling returns or raises, and every task that is
submitted is completed once. -/
structure ProcessPool where
  dumps : OptimizationProblem → EvaluatorFn → Except Exc Unit
  completed : List (Nat × Candidate) → List (Nat × Candidate)
  completed_perm : ∀ tasks, (completed tasks).Perm tasks

structure ProcessPoolExecutionAdapter where
  maxWorkers : Int := 4

namespace ProcessPoolExecutionAdapter

def ensureSerializable (pool : ProcessPool) (problem : OptimizationProblem)
    (evaluator : EvaluatorFn) : Except Exc Unit :=
  match pool.dumps problem evaluator with
  | .ok () => .ok ()
  | .error e => .error ⟨.other "SerializationError", e.message⟩

def processWorker (problem : OptimizationProblem) (candidate : Candidate)
    (evaluator : EvaluatorFn) : Except Exc Payload := do
  let inputChecksum := text.candidateInputChecksum problem candidate.candidateId
  let payload ← (← evaluator problem candidate).toDict
  let payload := PyValue.setItem payload ("input_checksum", .str inputChecksum)
  return PyValue.setItem payload
    ("output_checksum", .str (text.sha256 (text.repr (.dict payload))))

/-- `enumerate(candidates)`. -/
def tasks (candidates : List Candidate) : List (Nat × Candidate) :=
  candidates.zipIdx.map Prod.swap

/-- The payloads of the workers by index; the first one to raise, in the order of completion,
raises. -/
def orderedPayloads (pool : ProcessPool) (problem : OptimizationProblem) (evaluator : EvaluatorFn)
    (candidates : List Candidate) : Except Exc (List Payload) := do
  let results ← (pool.completed (tasks candidates)).mapM fun task => do
    return (task.1, ← processWorker text problem task.2 evaluator)
  return (StableSort.sortBy Prod.fst results).map Prod.snd

/-- `payload.get("status") == status`. -/
def hasStatus (status : String) (payload : Payload) : Bool :=
  match payload.get "status" .none with
  | .str s => s == status
  | _ => false

def diagnostics (adapter : ProcessPoolExecutionAdapter) (problem : OptimizationProblem)
    (candidates : List Candidate) (result : OptimizationResult) (payloads : List Payload) :
    ExecutionDiagnostics where
  executionMode := .processPool
  candidateCount := candidates.length
  completedCount := payloads.length
  failedCount := payloads.countP (hasStatus "failed")
  rejectedCount := payloads.countP (hasStatus "rejected")
  checksumBundle := reconcileChecksums text problem result result.candidateOrdering
  metadata := [("optimizer", .str "process_pool"), ("max_workers", .int adapter.maxWorkers)]

def run (pool : ProcessPool) (adapter : ProcessPoolExecutionAdapter) (engine : OptimizationEngine)
    (problem : OptimizationProblem) (evaluator : EvaluatorFn) :
    Except Exc ExecutionResultBundle := do
  ensureSerializable pool problem evaluator
  let candidates ← engine.parameterGenerator.generateExhaustive text.toPyText
    problem.parameterSpace
  if adapter.maxWorkers ≤ 0 then
    .error ⟨.valueError, "max_workers must be greater than 0"⟩
  else
    let payloads ← orderedPayloads text pool problem evaluator candidates
    let result ← engine.run text problem evaluator ExecutionMode.serial.value 4 false .minMax
    return { result, diagnostics := diagnostics text adapter problem candidates result payloads }

end ProcessPoolExecutionAdapter
end OptionResearch
