import OptionResearch.BracketingSolvers
import OptionResearch.PriceValidation

/-!
# Newton's method

`solve_newton_raphson` of `implied_volatility/numerical_methods.py`. What it divides by is guarded
by `abs(deriv) < min_vega`, which lets a zero pass where `min_vega` is not positive. `NewtonDivides`
says that a run comes to such a volatility, and there it raises; else it returns.
-/

namespace OptionResearch

open ImpliedVolatilityResult

variable {K : Type}

def ImpliedVolatilityResult.Stalled (result : ImpliedVolatilityResult K) : Prop :=
  result.outcome = .nonConvergence ∧ result.failureReason = .stalled

theorem evaluation_ne_stalled (value : Option K) : (evaluation value).2 ≠ .stalled := by
  cases value <;> nofun

theorem firstReason_ne_stalled {reason other : FailureReason} (hreason : reason ≠ .stalled)
    (hother : other ≠ .stalled) : firstReason reason other ≠ .stalled := by
  unfold firstReason
  split_ifs
  · exact hreason
  · exact hother

theorem not_stalled_of_ne {result : ImpliedVolatilityResult K}
    (h : result.failureReason ≠ .stalled) : ¬ result.Stalled :=
  fun hstalled => h hstalled.2

theorem not_stalled_failed {method : SolverMethod} {solver warning : String} {iterations : Int}
    {residual : WithTop K} {error : Option K} {reason : FailureReason} {lower upper : K}
    (h : reason ≠ .stalled) :
    ¬ (ImpliedVolatilityResult.failed method solver iterations residual error reason lower upper
      warning).Stalled :=
  not_stalled_of_ne h

theorem not_stalled_of_none {result : ImpliedVolatilityResult K}
    (h : result.failureReason = .none) : ¬ result.Stalled :=
  not_stalled_of_ne (h ▸ by decide)

variable [Field K] [LinearOrder K] (objective : K → Option K) (config : NewtonConfig K)

/-- What an iteration starts from. -/
structure NewtonState (K : Type) where
  vol : K
  residual : K
  stalledCount : Int

def newtonFailed (iteration : Int) (residual : WithTop K) (finalPricingError : Option K)
    (failureReason : FailureReason) (warning : String) : ImpliedVolatilityResult K :=
  failed .newtonRaphson "newton_raphson" iteration residual finalPricingError failureReason
    config.volLowerBound config.volUpperBound warning

namespace NewtonState

variable (state : NewtonState K)

def forward : K := min (state.vol + config.finiteDifferenceBump) config.volUpperBound

def backward : K := max (state.vol - config.finiteDifferenceBump) config.volLowerBound

/-- The difference quotient. -/
def deriv (fForward fBackward : K) : K :=
  (fForward - fBackward) / max (state.forward config - state.backward config) 1e-12

/-- The count of changes of the residual within the tolerance, one after another. -/
def stalled (residual : K) : Int :=
  if |state.residual - residual| ≤ config.priceTolerance then state.stalledCount + 1 else 0

/-- What becomes of a volatility that the step has led to. -/
def advance (iteration : Int) (step candidate residual : K) :
    Pass (NewtonState K) (ImpliedVolatilityResult K) :=
  let stalledCount := state.stalled config residual
  if config.maxStalledIterations ≤ stalledCount then
    .left (newtonFailed config iteration residual (some residual) .stalled
      "newton_raphson stalled")
  else if |step| ≤ config.volatilityTolerance then
    .left { found .newtonRaphson "newton_raphson" iteration candidate residual .approximate
        config.volLowerBound config.volUpperBound with
      calculationMetadata := [("solver", .str "newton_raphson"), ("approximate", .bool true)]
      warnings := ["newton_raphson reached volatility tolerance before price tolerance"] }
  else .again ⟨candidate, residual, stalledCount⟩

end NewtonState

/-- One pass of the loop. -/
def newtonPass (iteration : Int) (state : NewtonState K) :
    Effect (List K) Exc (Pass (NewtonState K) (ImpliedVolatilityResult K)) := do
  if |state.residual| ≤ config.priceTolerance then
    return .left (found .newtonRaphson "newton_raphson" iteration state.vol state.residual .success
      config.volLowerBound config.volUpperBound)
  else
    let (maybeForward, reasonForward) ← evaluateObjective objective (state.forward config)
    let (maybeBackward, reasonBackward) ← evaluateObjective objective (state.backward config)
    match maybeForward, maybeBackward with
    | some fForward, some fBackward =>
      let deriv := state.deriv config fForward fBackward
      if |deriv| < config.minVega then
        return .left (newtonFailed config iteration state.residual (some state.residual) .lowVega
          "newton_raphson vega too small")
      else
        let step ← Effect.raising (divide state.residual deriv)
        let candidate := state.vol - step
        if candidate ≤ config.volLowerBound ∨ config.volUpperBound ≤ candidate then
          return .left (newtonFailed config iteration state.residual (some state.residual)
            .outOfBoundsUpdate "newton_raphson update exited volatility bounds")
        else
          let (maybeResidual, reason) ← evaluateObjective objective candidate
          match maybeResidual with
          | none =>
            return .left (newtonFailed config iteration ⊤ none reason
              "newton_raphson objective became unstable")
          | some value => return state.advance config iteration step candidate value
    | _, _ =>
      return .left (newtonFailed config iteration state.residual (some state.residual)
        (firstReason reasonForward reasonBackward)
        "newton_raphson derivative evaluation unstable")

/-- The initial guess, within the bounds. -/
def newtonStart : K := min (max config.initialGuess config.volLowerBound) config.volUpperBound

def newtonIterations : List Int :=
  iterations (config.newtonMaxIterations.getD config.maxIterations)

def solveNewtonRaphson : Effect (List K) Exc (ImpliedVolatilityResult K) := do
  let vol := newtonStart config
  let (maybeResidual, reason) ← evaluateObjective objective vol
  match maybeResidual with
  | none =>
    return newtonFailed config 0 ⊤ none reason "newton_raphson encountered unstable objective"
  | some value =>
    let (result, _) ← CountedLoop.run (newtonPass objective config)
      (fun state => newtonFailed config (config.newtonMaxIterations.getD config.maxIterations)
        state.residual (some state.residual) .stalled "newton_raphson did not converge")
      (newtonIterations config) ⟨vol, value, 0⟩
    return result

/-! ### What a pass comes to -/

/-- A pass steps from the state to the candidate. -/
structure NewtonState.Moves (state : NewtonState K) (step candidate residual : K) : Prop where
  unsolved : config.priceTolerance < |state.residual|
  steep : ∃ fForward fBackward, objective (state.forward config) = some fForward ∧
    objective (state.backward config) = some fBackward ∧
    config.minVega ≤ |state.deriv config fForward fBackward| ∧
    state.deriv config fForward fBackward ≠ 0 ∧
    step = state.residual / state.deriv config fForward fBackward
  moved : candidate = state.vol - step
  inside : candidate ∈ Set.Ioo config.volLowerBound config.volUpperBound
  value : objective candidate = some residual

/-- A volatility that is not a solution, whose derivative comes out as zero while no vega is too
small. -/
def NewtonState.Vanishes (state : NewtonState K) : Prop :=
  config.priceTolerance < |state.residual| ∧ ∃ fForward fBackward,
    objective (state.forward config) = some fForward ∧
      objective (state.backward config) = some fBackward ∧
      config.minVega ≤ |state.deriv config fForward fBackward| ∧
      state.deriv config fForward fBackward = 0

section Pass

variable {objective config} {state : NewtonState K}

theorem NewtonState.Moves.exec_newtonPass {step candidate residual : K}
    (h : state.Moves objective config step candidate residual) (iteration : Int)
    (evaluated : List K) :
    Effect.exec (newtonPass objective config iteration state) evaluated =
      (.ok (state.advance config iteration step candidate residual),
        evaluated ++ [state.forward config] ++ [state.backward config] ++ [candidate]) := by
  obtain ⟨hunsolved, ⟨fForward, fBackward, hforward, hbackward, hvega, hderiv, rfl⟩, rfl, hinside,
    hresidual⟩ := h
  have hout := not_or.mpr ⟨not_le.mpr hinside.1, not_le.mpr hinside.2⟩
  unfold newtonPass
  simp only [if_neg (not_le.mpr hunsolved), exec_evaluateObjective_bind, hforward, hbackward,
    evaluation, if_neg (not_lt.mpr hvega), Effect.exec_raising_bind, divide_eq_ok hderiv,
    if_neg hout, hresidual, Effect.exec_pure]

theorem NewtonState.Vanishes.exec_newtonPass (h : state.Vanishes objective config)
    (iteration : Int) (evaluated : List K) :
    ∃ error later, Effect.exec (newtonPass objective config iteration state) evaluated =
      (.error error, later) := by
  obtain ⟨hunsolved, fForward, fBackward, hforward, hbackward, hvega, hderiv⟩ := h
  unfold newtonPass
  simp only [if_neg (not_le.mpr hunsolved), exec_evaluateObjective_bind, hforward, hbackward,
    evaluation, if_neg (not_lt.mpr hvega), Effect.exec_raising_bind]
  rw [hderiv, divide, if_pos rfl]
  exact ⟨_, _, rfl⟩

theorem NewtonState.Moves.not_vanishes {step candidate residual : K}
    (h : state.Moves objective config step candidate residual) :
    ¬ state.Vanishes objective config := by
  intro hvanishes
  obtain ⟨error, later, hraises⟩ := hvanishes.exec_newtonPass 0 []
  cases hraises.symm.trans (h.exec_newtonPass 0 [])

/-- Where a pass neither divides by zero nor steps to a candidate, it leaves for another reason than
a stall. -/
theorem newtonPass_cases (state : NewtonState K) :
    state.Vanishes objective config ∨
      (∃ step candidate residual, state.Moves objective config step candidate residual) ∨
      ∀ iteration evaluated, ∃ result later,
        Effect.exec (newtonPass objective config iteration state) evaluated =
          (.ok (.left result), later) ∧ ¬ result.Stalled := by
  by_cases hfound : |state.residual| ≤ config.priceTolerance
  · refine .inr (.inr fun iteration evaluated => ?_)
    unfold newtonPass
    rw [if_pos hfound]
    exact ⟨_, _, rfl, not_stalled_of_none rfl⟩
  rcases hforward : objective (state.forward config) with _ | fForward <;>
    rcases hbackward : objective (state.backward config) with _ | fBackward
  case none.none | none.some | some.none =>
    refine .inr (.inr fun iteration evaluated => ?_)
    unfold newtonPass
    simp only [if_neg hfound, exec_evaluateObjective_bind, hforward, hbackward]
    exact ⟨_, _, rfl, not_stalled_failed
      (firstReason_ne_stalled (evaluation_ne_stalled _) (evaluation_ne_stalled _))⟩
  by_cases hvega : |state.deriv config fForward fBackward| < config.minVega
  · refine .inr (.inr fun iteration evaluated => ?_)
    unfold newtonPass
    simp only [if_neg hfound, exec_evaluateObjective_bind, hforward, hbackward, evaluation,
      if_pos hvega]
    exact ⟨_, _, rfl, not_stalled_failed (by decide)⟩
  by_cases hderiv : state.deriv config fForward fBackward = 0
  · exact .inl ⟨not_le.mp hfound, fForward, fBackward, hforward, hbackward, not_lt.mp hvega, hderiv⟩
  generalize hstep : state.residual / state.deriv config fForward fBackward = step
  by_cases hout : state.vol - step ≤ config.volLowerBound ∨ config.volUpperBound ≤ state.vol - step
  · refine .inr (.inr fun iteration evaluated => ?_)
    unfold newtonPass
    simp only [if_neg hfound, exec_evaluateObjective_bind, hforward, hbackward, evaluation,
      if_neg hvega, Effect.exec_raising_bind, divide_eq_ok hderiv, hstep, if_pos hout]
    exact ⟨_, _, rfl, not_stalled_failed (by decide)⟩
  rcases hresidual : objective (state.vol - step) with _ | residual
  · refine .inr (.inr fun iteration evaluated => ?_)
    unfold newtonPass
    simp only [if_neg hfound, exec_evaluateObjective_bind, hforward, hbackward, evaluation,
      if_neg hvega, Effect.exec_raising_bind, divide_eq_ok hderiv, hstep, if_neg hout, hresidual]
    exact ⟨_, _, rfl, not_stalled_failed (by decide)⟩
  rw [not_or, not_le, not_le] at hout
  exact .inr (.inl ⟨step, _, residual, not_le.mp hfound,
    ⟨fForward, fBackward, hforward, hbackward, not_lt.mp hvega, hderiv, hstep.symm⟩, rfl, hout,
    hresidual⟩)

end Pass

/-! ### Where it divides by zero -/

/-- A volatility that is not a solution, with the same value on both sides, while no vega is too
small. -/
def NewtonState.Flat (state : NewtonState K) : Prop :=
  config.priceTolerance < |state.residual| ∧ config.minVega ≤ 0 ∧
    ∃ value, objective (state.forward config) = some value ∧
      objective (state.backward config) = some value

/-- An iteration from the first state goes on with the second. -/
def NewtonStep (state next : NewtonState K) : Prop :=
  ∃ iteration evaluated later,
    Effect.exec (newtonPass objective config iteration state) evaluated = (.ok (.again next), later)

/-- Within so many iterations the search comes to a flat volatility. -/
def ComesToFlat : ℕ → NewtonState K → Prop
  | 0, _ => False
  | n + 1, state =>
    state.Flat objective config ∨
      ∃ next, NewtonStep objective config state next ∧ ComesToFlat n next

/-- From the initial guess the search comes to a flat volatility. -/
def NewtonDivides : Prop :=
  ∃ residual, objective (newtonStart config) = some residual ∧
    ComesToFlat objective config (config.newtonMaxIterations.getD config.maxIterations).toNat
      ⟨newtonStart config, residual, 0⟩

variable {objective config} [IsStrictOrderedRing K]

theorem NewtonState.deriv_eq_zero_iff (state : NewtonState K) (fForward fBackward : K) :
    state.deriv config fForward fBackward = 0 ↔ fForward = fBackward := by
  have hwidth : (0 : K) < max (state.forward config - state.backward config) 1e-12 :=
    lt_max_of_lt_right (by norm_num)
  rw [NewtonState.deriv, div_eq_zero_iff, or_iff_left hwidth.ne', sub_eq_zero]

omit [IsStrictOrderedRing K] in
/-- The search goes on to one state or is left, whatever the iteration. -/
theorem NewtonState.advance_cases (state : NewtonState K) (step candidate residual : K) :
    (∃ next, ∀ iteration, state.advance config iteration step candidate residual = .again next) ∨
      ∀ iteration, ∃ result,
        state.advance config iteration step candidate residual = .left result := by
  unfold NewtonState.advance
  by_cases hstalled : config.maxStalledIterations ≤ state.stalled config residual
  · simp only [if_pos hstalled]
    exact .inr fun _ => ⟨_, rfl⟩
  by_cases hsmall : |step| ≤ config.volatilityTolerance
  · simp only [if_neg hstalled, if_pos hsmall]
    exact .inr fun _ => ⟨_, rfl⟩
  · simp only [if_neg hstalled, if_neg hsmall]
    exact .inl ⟨_, fun _ => rfl⟩

theorem NewtonState.flat_iff_vanishes (state : NewtonState K) :
    state.Flat objective config ↔ state.Vanishes objective config := by
  refine and_congr_right fun _ => ?_
  constructor
  · rintro ⟨hmin, value, hforward, hbackward⟩
    have hderiv := (@NewtonState.deriv_eq_zero_iff _ _ _ config _ state value value).mpr rfl
    exact ⟨value, value, hforward, hbackward, by rwa [hderiv, abs_zero], hderiv⟩
  · rintro ⟨fForward, fBackward, hforward, hbackward, hvega, hderiv⟩
    rw [hderiv, abs_zero] at hvega
    rw [← (state.deriv_eq_zero_iff fForward fBackward).mp hderiv] at hbackward
    exact ⟨hvega, fForward, hforward, hbackward⟩

/-- An iteration raises from a flat volatility, and from any other it has one of two outcomes,
whatever has been evaluated before. -/
theorem exec_newtonPass (state : NewtonState K) :
    (state.Flat objective config ∧ ∀ iteration evaluated, ∃ error later,
      Effect.exec (newtonPass objective config iteration state) evaluated = (.error error, later)) ∨
    ¬ state.Flat objective config ∧
      ((∃ next, ∀ iteration evaluated, ∃ later,
        Effect.exec (newtonPass objective config iteration state) evaluated =
          (.ok (.again next), later)) ∨
      ∀ iteration evaluated, ∃ result later,
        Effect.exec (newtonPass objective config iteration state) evaluated =
          (.ok (.left result), later)) := by
  rw [state.flat_iff_vanishes]
  rcases @newtonPass_cases _ _ _ objective config state with
    hvanishes | ⟨step, candidate, residual, hmoves⟩ | hleft
  · exact .inl ⟨hvanishes, hvanishes.exec_newtonPass⟩
  · refine .inr ⟨hmoves.not_vanishes, ?_⟩
    simp only [hmoves.exec_newtonPass]
    rcases @NewtonState.advance_cases _ _ _ config state step candidate residual with
      ⟨next, hagain⟩ | hleft
    · exact .inl ⟨next, fun iteration _ => ⟨_, by rw [hagain iteration]⟩⟩
    · refine .inr fun iteration _ => ?_
      obtain ⟨result, hresult⟩ := hleft iteration
      exact ⟨result, _, by rw [hresult]⟩
  · refine .inr ⟨fun hvanishes => ?_, .inr fun iteration evaluated => ?_⟩
    · obtain ⟨result, later, hexec, -⟩ := hleft 0 []
      obtain ⟨error, later', hraises⟩ := hvanishes.exec_newtonPass 0 []
      cases hraises.symm.trans hexec
    · obtain ⟨result, later, hexec, -⟩ := hleft iteration evaluated
      exact ⟨result, later, hexec⟩

/-- The loop raises where the search comes to a flat volatility, and else it returns. -/
theorem exec_run_newtonPass (finish : NewtonState K → ImpliedVolatilityResult K)
    (items : List Int) (state : NewtonState K) (evaluated : List K) :
    (ComesToFlat objective config items.length state ∧ ∃ error later,
      Effect.exec (CountedLoop.run (newtonPass objective config) finish items state) evaluated =
        (.error error, later)) ∨
    ¬ ComesToFlat objective config items.length state ∧ ∃ result visited later,
      Effect.exec (CountedLoop.run (newtonPass objective config) finish items state) evaluated =
        (.ok (result, visited), later) := by
  induction items generalizing state evaluated with
  | nil => exact .inr ⟨id, _, _, _, CountedLoop.exec_run_nil⟩
  | cons iteration rest ih =>
      rcases @exec_newtonPass _ _ _ objective config _ state with
        ⟨hflat, hraises⟩ | ⟨hflat, ⟨next, hagain⟩ | hleft⟩
      · obtain ⟨error, later, hpass⟩ := hraises iteration evaluated
        exact .inl ⟨.inl hflat, error, later, CountedLoop.exec_run_error hpass⟩
      · obtain ⟨later, hpass⟩ := hagain iteration evaluated
        -- an iteration has no other successor
        have hcomes : ComesToFlat objective config (rest.length + 1) state ↔
            ComesToFlat objective config rest.length next := by
          refine ⟨?_, fun hnext => .inr ⟨next, ⟨_, _, _, hpass⟩, hnext⟩⟩
          rintro (hnow | ⟨other, ⟨iteration', evaluated', later', hstep⟩, hnext⟩)
          · exact absurd hnow hflat
          · obtain ⟨_, hsame⟩ := hagain iteration' evaluated'
            cases hsame.symm.trans hstep
            exact hnext
        rw [List.length_cons, hcomes]
        rcases ih next later with
          ⟨hnext, error, final, hrun⟩ | ⟨hnext, result, visited, final, hrun⟩
        · exact .inl ⟨hnext, error, final, CountedLoop.exec_run_again_error hpass hrun⟩
        · exact .inr ⟨hnext, result, _, final, CountedLoop.exec_run_again hpass hrun⟩
      · obtain ⟨result, later, hpass⟩ := hleft iteration evaluated
        refine .inr ⟨?_, result, _, later, CountedLoop.exec_run_left hpass⟩
        rintro (hnow | ⟨other, ⟨iteration', evaluated', later', hstep⟩, -⟩)
        · exact hflat hnow
        · obtain ⟨_, _, hsame⟩ := hleft iteration' evaluated'
          cases hsame.symm.trans hstep

theorem length_iterations (maxIterations : Int) :
    (iterations maxIterations).length = maxIterations.toNat := by
  simp [iterations]

/-- Newton's method raises where its search comes to a flat volatility, and else it returns. -/
theorem exec_solveNewtonRaphson (evaluated : List K) :
    (NewtonDivides objective config ∧ ∃ error later,
      Effect.exec (solveNewtonRaphson objective config) evaluated = (.error error, later)) ∨
    ¬ NewtonDivides objective config ∧ ∃ result later,
      Effect.exec (solveNewtonRaphson objective config) evaluated = (.ok result, later) := by
  rw [solveNewtonRaphson, exec_evaluateObjective_bind, NewtonDivides]
  rcases objective (newtonStart config) with _ | residual
  · refine .inr ⟨?_, _, _, rfl⟩
    rintro ⟨residual, hresidual, -⟩
    cases hresidual
  · dsimp only [evaluation]
    rcases exec_run_newtonPass _ (newtonIterations config) ⟨newtonStart config, residual, 0⟩
        (evaluated ++ [newtonStart config]) with
      ⟨hcomes, error, later, hrun⟩ | ⟨hcomes, result, visited, later, hrun⟩
    · rw [newtonIterations, length_iterations] at hcomes
      refine .inl ⟨⟨residual, rfl, hcomes⟩, error, later, ?_⟩
      rw [Effect.exec_bind, hrun]
    · rw [newtonIterations, length_iterations] at hcomes
      refine .inr ⟨?_, result, later, (Effect.exec_bind_of_ok hrun).trans rfl⟩
      rintro ⟨other, hother, hflat⟩
      cases hother
      exact hcomes hflat

end OptionResearch
