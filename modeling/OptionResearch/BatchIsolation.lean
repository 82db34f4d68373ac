import OptionResearch.VolatilityEngine

/-!
# Batches of implied volatilities

Each request of a batch gets what its own solve gives, or a failure in its place where that raises
an error which is caught. An error of a search without convergence is not, and takes the batch with
it. Whether the requests are solved one after the other or in a pool makes no difference.
-/

namespace OptionResearch.ImpliedVolatilityEngine

variable {K : Type} [Field K]

/-- The errors that are caught at the boundary of a request. -/
def Captured : SolveError → Prop
  | .own .validation _ | .own .invalidMarketPrice _ | .own .unsupportedContract _ => True
  | _ => False

/-- A solve raises what is not caught. -/
def Escapes (outcome : Except SolveError (EngineResult K)) : Prop :=
  ∃ error, outcome = .error error ∧ ¬ Captured error

/-- What a request is answered with: the result of its solve, or one without convergence where this
raises. -/
def Answers (solve : ImpliedVolatilityRequest K → Except SolveError (EngineResult K))
    (request : ImpliedVolatilityRequest K) (result : EngineResult K) : Prop :=
  match solve request with
  | .ok solved => result = solved
  | .error _ => result.converged = false

variable {engine : ImpliedVolatilityEngine K} {config : EngineConfig K}
  {solve : ImpliedVolatilityRequest K → Except SolveError (EngineResult K)}

theorem capture_of_escapes {request : ImpliedVolatilityRequest K} (h : Escapes (solve request)) :
    ∃ error, engine.solveWithBatchErrorCapture config request solve = .error error := by
  obtain ⟨error, herror, hcaptured⟩ := h
  refine ⟨error, ?_⟩
  rw [solveWithBatchErrorCapture, herror]
  cases error with
  | other error => rfl
  | own kind message =>
      cases kind with
      | base => rfl
      | convergence => rfl
      | validation => exact absurd trivial hcaptured
      | unsupportedContract => exact absurd trivial hcaptured
      | invalidMarketPrice => exact absurd trivial hcaptured

theorem capture_of_not_escapes {request : ImpliedVolatilityRequest K}
    (h : ¬ Escapes (solve request)) :
    ∃ result, engine.solveWithBatchErrorCapture config request solve = .ok result ∧
      Answers solve request result := by
  unfold solveWithBatchErrorCapture Answers
  cases hsolve : solve request with
  | ok result => exact ⟨result, rfl, rfl⟩
  | error error =>
      cases error with
      | other error => exact absurd ⟨_, hsolve, id⟩ h
      | own kind message =>
          cases kind with
          | base => exact absurd ⟨_, hsolve, id⟩ h
          | convergence => exact absurd ⟨_, hsolve, id⟩ h
          | validation => exact ⟨_, rfl, rfl⟩
          | unsupportedContract => exact ⟨_, rfl, rfl⟩
          | invalidMarketPrice => exact ⟨_, rfl, rfl⟩

/-! ### The loop over the results -/

omit [Field K] in
/-- Results that are all there replace what the list held at first. -/
theorem assignResults_eq_ok (results : List (EngineResult K)) {done pending : List (EngineResult K)}
    (h : pending.length = results.length) :
    assignResults done.length (results.map .ok) (done ++ pending) = .ok (done ++ results) := by
  induction results generalizing done pending with
  | nil =>
      rw [List.eq_nil_of_length_eq_zero h]
      rfl
  | cons result rest ih =>
      obtain ⟨first, pending, rfl⟩ := List.exists_cons_of_length_eq_add_one h
      have hset : (done ++ first :: pending).set done.length result =
          (done ++ [result]) ++ pending := by simp
      have hlength : (done ++ [result]).length = done.length + 1 := by simp
      rw [List.map_cons, assignResults]
      change assignResults (done.length + 1) _
        ((done ++ first :: pending).set done.length result) = _
      rw [hset, ← hlength, ih (Nat.succ.inj h), List.append_assoc]
      rfl

omit [Field K] in
/-- An outcome that is an error ends the loop. -/
theorem exists_assignResults_error {outcomes : List (Except SolveError (EngineResult K))}
    {error : SolveError} (h : .error error ∈ outcomes) (idx : ℕ)
    (orderedResults : List (EngineResult K)) :
    ∃ other, assignResults idx outcomes orderedResults = .error other := by
  induction outcomes generalizing idx orderedResults with
  | nil => cases h
  | cons outcome rest ih =>
      rw [assignResults]
      cases outcome with
      | error other => exact ⟨other, rfl⟩
      | ok result =>
          rcases List.mem_cons.mp h with hfirst | hrest
          · cases hfirst
          · exact ih hrest (idx + 1) (orderedResults.set idx result)

/-- One request after the other gives what the pool gives. -/
theorem solveSerially_eq (requests : List (ImpliedVolatilityRequest K)) (idx : ℕ)
    (orderedResults : List (EngineResult K)) :
    engine.solveSerially config solve idx requests orderedResults =
      assignResults idx
        (requests.map fun request => engine.solveWithBatchErrorCapture config request solve)
        orderedResults := by
  induction requests generalizing idx orderedResults with
  | nil => rfl
  | cons request rest ih =>
      rw [solveSerially, List.map_cons, assignResults]
      exact bind_congr fun result => ih (idx + 1) (orderedResults.set idx result)

/-- Where nothing escapes, each request is answered. -/
theorem exists_answers {requests : List (ImpliedVolatilityRequest K)}
    (h : ∀ request ∈ requests, ¬ Escapes (solve request)) :
    ∃ results, (requests.map fun request =>
        engine.solveWithBatchErrorCapture config request solve) = results.map .ok ∧
      List.Forall₂ (Answers solve) requests results := by
  induction requests with
  | nil => exact ⟨[], rfl, .nil⟩
  | cons request rest ih =>
      obtain ⟨result, hresult, hanswers⟩ :=
        @capture_of_not_escapes _ _ engine config _ _ (h request List.mem_cons_self)
      obtain ⟨results, hresults, hall⟩ := ih fun r hr => h r (List.mem_cons_of_mem _ hr)
      refine ⟨result :: results, ?_, .cons hanswers hall⟩
      rw [List.map_cons, List.map_cons, hresult, hresults]

/-- A batch that is not empty puts the outcomes that are caught in the place of results that are
still pending, one after the other or from a pool. -/
theorem exists_solveBatch_eq {requests : List (ImpliedVolatilityRequest K)}
    (hsome : requests ≠ []) :
    ∃ (pending : List (EngineResult K)) (metadata : BatchMetadata),
      pending.length = requests.length ∧
      engine.solveBatch config solve requests =
        (assignResults 0
          (requests.map fun request => engine.solveWithBatchErrorCapture config request solve)
          pending).map fun results => ⟨results, metadata⟩ := by
  have hempty : ¬ requests.isEmpty = true := List.isEmpty_iff.not.mpr hsome
  rw [solveBatch, if_neg hempty]
  simp only [solveSerially_eq, ite_self]
  exact ⟨_, _, List.length_map _, rfl⟩

/-- A batch returns with an answer for each request in its place, exactly where no solve raises an
error that is not caught. -/
theorem solveBatch_answers_iff (engine : ImpliedVolatilityEngine K) (config : EngineConfig K)
    (solve : ImpliedVolatilityRequest K → Except SolveError (EngineResult K))
    (requests : List (ImpliedVolatilityRequest K)) :
    (∃ batch, engine.solveBatch config solve requests = .ok batch ∧
        List.Forall₂ (Answers solve) requests batch.results) ↔
      ∀ request ∈ requests, ¬ Escapes (solve request) := by
  constructor
  · rintro ⟨batch, hreturns, -⟩ request hrequest hescapes
    obtain ⟨error, herror⟩ := @capture_of_escapes _ _ engine config _ _ hescapes
    have hmem : .error error ∈ requests.map fun request =>
        engine.solveWithBatchErrorCapture config request solve :=
      List.mem_map.mpr ⟨request, hrequest, herror⟩
    obtain ⟨pending, metadata, -, hbatch⟩ := @exists_solveBatch_eq _ _ engine config solve _
      (List.ne_nil_of_mem hrequest)
    obtain ⟨other, hother⟩ := exists_assignResults_error hmem 0 pending
    rw [hbatch, hother] at hreturns
    cases hreturns
  · intro hcaught
    by_cases hsome : requests = []
    · exact hsome ▸ ⟨_, rfl, .nil⟩
    · obtain ⟨pending, metadata, hlength, hbatch⟩ :=
        @exists_solveBatch_eq _ _ engine config solve _ hsome
      obtain ⟨results, hresults, hanswers⟩ := @exists_answers _ _ engine config _ _ hcaught
      have hassigned := @assignResults_eq_ok _ results [] pending
        (hlength.trans hanswers.length_eq)
      rw [hbatch, hresults]
      exact ⟨_, congrArg (Except.map _) hassigned, hanswers⟩

/-- An engine whose model prices an option at a hundred times its volatility. -/
def linearEngine : ImpliedVolatilityEngine ℚ where
  route _ := .ok .blackScholes
  price request _ := .ok (some (100 * request.volatility))
  capabilities _ := []
  treeDiagnostics _ _ _ := .ok ⟨[], []⟩
  math := { exp := fun _ => 1, sqrt := .ok }

/-- A call at the money, some time before it ends. -/
def atTheMoney (price : ℚ) : ImpliedVolatilityRequest ℚ where
  marketPrice := price
  pricingRequest :=
    { spot := 100
      strike := 100
      expiry := ⟨368, by decide, by decide⟩
      volatility := 0
      riskFreeRate := 0
      dividendYield := 0
      optionType := .call
      exerciseStyle := .european
      multiplier := 1
      valuationDate := ⟨3, by decide, by decide⟩ }

/-- No iterations, and an error where nothing converges. -/
def strictConfig : EngineConfig ℚ := { maxIterations := 0, raiseOnFailure := true }

/-- The first request alone would be answered as above its bound, but the second one's search takes
the batch with it. -/
theorem solveBatch_strictConfig_raises :
    ¬ ∃ batch, linearEngine.solveBatch strictConfig (linearEngine.solve strictConfig)
        [atTheMoney 200, atTheMoney 20] = .ok batch ∧
      List.Forall₂ (Answers (linearEngine.solve strictConfig)) [atTheMoney 200, atTheMoney 20]
        batch.results := by
  have hraises : (linearEngine.solveBatch strictConfig (linearEngine.solve strictConfig)
      [atTheMoney 200, atTheMoney 20]).toOption.isNone = true := by
    decide +kernel
  rintro ⟨batch, hbatch, -⟩
  rw [hbatch] at hraises
  cases hraises

end OptionResearch.ImpliedVolatilityEngine
