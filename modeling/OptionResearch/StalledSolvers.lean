import OptionResearch.NewtonRaphson

/-!
# Solvers that report a stall

`solve_newton_raphson` and `solve_brent_hybrid` of `implied_volatility/numerical_methods.py` look at
the residual of a volatility at the start of the next pass. A volatility that solves the equation is
reported as stalled where no pass follows: the step to it is the last one, or Newton's method counts
it as the last change that it allows to be small.
-/

namespace OptionResearch

open CountedLoop ImpliedVolatilityResult

variable {K : Type}

variable [Field K] [LinearOrder K] (objective : K → Option K)

/-- The residual is the one of the volatility, and it is beyond the tolerance. -/
def ImpliedVolatilityResult.UnsolvedAt (priceTolerance iterate : K)
    (result : ImpliedVolatilityResult K) : Prop :=
  ∃ residual : K, objective iterate = some residual ∧ result.residual = residual ∧
    priceTolerance < |residual|

/-! ### Newton's method -/

section Newton

variable (config : NewtonConfig K)

/-- Where Newton's method reports a stall, the last volatility that it evaluated is no solution. -/
def NewtonStallsUnsolved : Prop :=
  ∀ evaluated result later,
    Effect.exec (solveNewtonRaphson objective config) evaluated = (.ok result, later) →
    result.Stalled → ∃ iterate ∈ later.getLast?,
      result.UnsolvedAt objective config.priceTolerance iterate

/-- The pass from the first state is followed by one from the second. -/
def NewtonState.GoesOn (state next : NewtonState K) : Prop :=
  ∃ step candidate residual, state.Moves objective config step candidate residual ∧
    state.stalled config residual < config.maxStalledIterations ∧
    config.volatilityTolerance < |step| ∧
    next = ⟨candidate, residual, state.stalled config residual⟩

/-- After each step to a solution comes a pass that sees it, or the step itself is within the
tolerance of volatilities. -/
structure NewtonSeesSolved (passes : ℕ) : Prop where
  start : passes = 0 → ∀ residual, objective (newtonStart config) = some residual →
    config.priceTolerance < |residual|
  step : ∀ initial n state step candidate residual,
    objective (newtonStart config) = some initial → n < passes →
    Leads (NewtonState.GoesOn objective config) n ⟨newtonStart config, initial, 0⟩ state →
    state.Moves objective config step candidate residual →
    |residual| ≤ config.priceTolerance →
    state.stalled config residual < config.maxStalledIterations ∧
      (config.volatilityTolerance < |step| → n + 1 < passes)

end Newton

/-! ### Brent's method -/

section Brent

variable (config : SolverConfig K)

/-- Where Brent's method reports a stall, the last volatility that it came to is no solution. -/
def BrentStallsUnsolved : Prop :=
  ∀ evaluated run later,
    Effect.exec (solveBrentHybrid objective config) evaluated = (.ok run, later) →
    run.result.Stalled → ∃ pass ∈ run.passes.getLast?,
      run.result.UnsolvedAt objective config.priceTolerance pass.2.right

/-- The pass from the first state is followed by one from the second. -/
def BrentState.GoesOn (state next : BrentState K) : Prop :=
  config.priceTolerance < |state.fb| ∧
    let ends := state.rebracketed.ordered
    let tol := 0.5 * config.volatilityTolerance
    let midpoint := 0.5 * (ends.a - ends.b)
    tol < |midpoint| ∧ ∃ d e fb, ends.steps tol midpoint = .ok (d, e) ∧
      objective (ends.moved tol midpoint d) = some fb ∧
      next = { ends with b := ends.moved tol midpoint d, c := ends.b, d, e, fb, fc := ends.fb }

/-- After each step to a solution comes a pass that sees it. -/
structure BrentSeesSolved (passes : ℕ) : Prop where
  start : passes = 0 → ∀ fa fb, objective config.volLowerBound = some fa →
    objective config.volUpperBound = some fb → fa * fb ≤ 0 →
    config.priceTolerance < |(brentStart config.volLowerBound config.volUpperBound fa fb).fb|
  step : ∀ fa fb n state next, objective config.volLowerBound = some fa →
    objective config.volUpperBound = some fb → fa * fb ≤ 0 → n < passes →
    Leads (BrentState.GoesOn objective config) n
      (brentStart config.volLowerBound config.volUpperBound fa fb) state →
    state.GoesOn objective config next → |next.fb| ≤ config.priceTolerance → n + 1 < passes

end Brent

/-! ### What a pass comes to -/

variable {objective}

section Newton

variable {config : NewtonConfig K} {state : NewtonState K} {iteration : Int} {evaluated : List K}

/-- A pass that returns has stepped to a candidate, or it leaves for another reason than a stall. -/
theorem cases_of_exec_newtonPass {pass : Pass (NewtonState K) (ImpliedVolatilityResult K)}
    {later : List K}
    (h : Effect.exec (newtonPass objective config iteration state) evaluated = (.ok pass, later)) :
    (∃ step candidate residual, state.Moves objective config step candidate residual ∧
      pass = state.advance config iteration step candidate residual ∧
      later.getLast? = some candidate) ∨
    ∃ result, pass = .left result ∧ ¬ result.Stalled := by
  rcases @newtonPass_cases _ _ _ objective config state with
    hvanishes | ⟨step, candidate, residual, hmoves⟩ | hleft
  · obtain ⟨error, later', hraises⟩ := hvanishes.exec_newtonPass iteration evaluated
    cases hraises.symm.trans h
  · cases (hmoves.exec_newtonPass iteration evaluated).symm.trans h
    exact .inl ⟨step, candidate, residual, hmoves, rfl, List.getLast?_concat⟩
  · obtain ⟨result, later', hexec, hstalled⟩ := hleft iteration evaluated
    cases hexec.symm.trans h
    exact .inr ⟨result, rfl, hstalled⟩

/-- What holds of a state along with what has been evaluated. -/
def NewtonState.Inv (objective : K → Option K) (evaluated : List K) (state : NewtonState K) :
    Prop :=
  evaluated.getLast? = some state.vol ∧ objective state.vol = some state.residual

theorem NewtonState.GoesOn.exec_newtonPass {next : NewtonState K}
    (h : state.GoesOn objective config next) (iteration : Int) (evaluated : List K) :
    ∃ later, Effect.exec (newtonPass objective config iteration state) evaluated =
      (.ok (.again next), later) := by
  obtain ⟨step, candidate, residual, hmoves, hstalled, hstep, rfl⟩ := h
  rw [hmoves.exec_newtonPass, NewtonState.advance, if_neg (not_le.mpr hstalled),
    if_neg (not_le.mpr hstep)]
  exact ⟨_, rfl⟩

/-- A pass that another one follows went on. -/
theorem goesOn_of_exec_newtonPass {next : NewtonState K} {later : List K}
    (h : Effect.exec (newtonPass objective config iteration state) evaluated =
      (.ok (.again next), later)) :
    next.Inv objective later ∧ state.GoesOn objective config next := by
  rcases cases_of_exec_newtonPass h with ⟨step, candidate, residual, hmoves, hadvance, hlast⟩ |
    ⟨result, hleft, -⟩
  · unfold NewtonState.advance at hadvance
    dsimp only at hadvance
    split_ifs at hadvance with hstalled hstep
    cases hadvance
    exact ⟨⟨hlast, hmoves.value⟩,
      step, candidate, residual, hmoves, not_le.mp hstalled, not_le.mp hstep, rfl⟩
  · cases hleft

/-- A pass that leaves with a stall has stepped to a candidate for the last time. -/
theorem stalled_of_exec_newtonPass {result : ImpliedVolatilityResult K} {later : List K}
    (h : Effect.exec (newtonPass objective config iteration state) evaluated =
      (.ok (.left result), later))
    (hresult : result.Stalled) :
    ∃ step candidate residual, state.Moves objective config step candidate residual ∧
      config.maxStalledIterations ≤ state.stalled config residual ∧
      result.residual = residual ∧ later.getLast? = some candidate := by
  rcases cases_of_exec_newtonPass h with ⟨step, candidate, residual, hmoves, hadvance, hlast⟩ |
    ⟨other, hleft, hother⟩
  · unfold NewtonState.advance at hadvance
    dsimp only at hadvance
    split_ifs at hadvance with hstalled hstep
    · cases hadvance
      exact ⟨step, candidate, residual, hmoves, hstalled, rfl, hlast⟩
    · cases hadvance
      cases hresult.1
  · cases hleft
    exact absurd hresult hother

variable (objective config) in
/-- The loop over what is left of its iterations. -/
def newtonLoop (items : List Int) (state : NewtonState K) :
    Effect (List K) Exc (ImpliedVolatilityResult K × List (List K × NewtonState K)) :=
  CountedLoop.run (newtonPass objective config)
    (fun state => newtonFailed config (config.newtonMaxIterations.getD config.maxIterations)
      state.residual (some state.residual) .stalled "newton_raphson did not converge")
    items state

omit [LinearOrder K] in
theorem length_newtonIterations : (newtonIterations config).length =
    (config.newtonMaxIterations.getD config.maxIterations).toNat := length_iterations _

variable {initial : K} {result : ImpliedVolatilityResult K}
  {visited : List (List K × NewtonState K)} {later : List K}

theorem exec_solveNewtonRaphson_of_loop (hinitial : objective (newtonStart config) = some initial)
    (hrun : Effect.exec (newtonLoop objective config (newtonIterations config)
      ⟨newtonStart config, initial, 0⟩) (evaluated ++ [newtonStart config]) =
        (.ok (result, visited), later)) :
    Effect.exec (solveNewtonRaphson objective config) evaluated = (.ok result, later) := by
  rw [solveNewtonRaphson, exec_evaluateObjective_bind, hinitial]
  exact (Effect.exec_bind_of_ok hrun).trans rfl

/-- A stall is reported by the loop. -/
theorem exists_loop_of_stalled
    (h : Effect.exec (solveNewtonRaphson objective config) evaluated = (.ok result, later))
    (hstalled : result.Stalled) :
    ∃ initial visited, objective (newtonStart config) = some initial ∧
      Effect.exec (newtonLoop objective config (newtonIterations config)
        ⟨newtonStart config, initial, 0⟩) (evaluated ++ [newtonStart config]) =
          (.ok (result, visited), later) := by
  rw [solveNewtonRaphson, exec_evaluateObjective_bind] at h
  rcases hinitial : objective (newtonStart config) with _ | initial
  · rw [hinitial] at h
    cases h
    exact absurd hstalled (not_stalled_failed (by decide))
  · rw [hinitial] at h
    rcases Effect.exec_bind_cases h with ⟨_, _, herror⟩ | ⟨⟨_, visited⟩, _, hrun, hreturn⟩
    · cases herror
    · cases hreturn
      exact ⟨initial, visited, rfl, hrun⟩

/-- The loop goes on wherever steps lead within its passes. -/
theorem exec_newtonLoop_of_leads {items : List Int} {n : ℕ} {last : NewtonState K}
    (h : Leads (NewtonState.GoesOn objective config) n state last) (hn : n ≤ items.length)
    (evaluated : List K) :
    ∃ u front, ∀ result visited later,
      Effect.exec (newtonLoop objective config (items.drop n) last) u =
        (.ok (result, visited), later) →
      Effect.exec (newtonLoop objective config items state) evaluated =
        (.ok (result, front ++ visited), later) :=
  exec_run_of_leads (fun iteration _ _ evaluated hstep => hstep.exec_newtonPass iteration evaluated)
    h hn evaluated

/-- What the loop reports a stall with is beyond the tolerance. -/
theorem NewtonStallsUnsolved.lt_abs {residual : K} (h : NewtonStallsUnsolved objective config)
    (hinitial : objective (newtonStart config) = some initial)
    (hrun : Effect.exec (newtonLoop objective config (newtonIterations config)
      ⟨newtonStart config, initial, 0⟩) (evaluated ++ [newtonStart config]) =
        (.ok (result, visited), later))
    (hstalled : result.Stalled) (hresidual : result.residual = residual) :
    config.priceTolerance < |residual| := by
  obtain ⟨_, -, other, -, hother, hlt⟩ :=
    h evaluated result later (exec_solveNewtonRaphson_of_loop hinitial hrun) hstalled
  rwa [← WithTop.coe_inj.mp (hother.symm.trans hresidual)]

theorem NewtonStallsUnsolved.seesSolved (h : NewtonStallsUnsolved objective config) :
    NewtonSeesSolved objective config
      (config.newtonMaxIterations.getD config.maxIterations).toNat := by
  rw [← length_newtonIterations]
  refine ⟨fun hnone initial hinitial => ?_, ?_⟩
  · obtain ⟨u, front, hrun⟩ := @exec_newtonLoop_of_leads _ _ _ objective config
      ⟨newtonStart config, initial, 0⟩ (newtonIterations config) 0 _ rfl (Nat.zero_le _)
      ([] ++ [newtonStart config])
    rw [List.drop_of_length_le hnone.le] at hrun
    exact h.lt_abs hinitial (hrun _ _ _ exec_run_nil) ⟨rfl, rfl⟩ rfl
  intro initial n state step candidate residual hinitial hn hleads hmoves hsolved
  have hstalled : state.stalled config residual < config.maxStalledIterations := by
    by_contra hstalled
    obtain ⟨u, front, hrun⟩ := exec_newtonLoop_of_leads hleads hn.le ([] ++ [newtonStart config])
    rw [List.drop_eq_getElem_cons hn] at hrun
    have hpass := hmoves.exec_newtonPass (newtonIterations config)[n] u
    rw [NewtonState.advance, if_pos (not_lt.mp hstalled)] at hpass
    have hlt := h.lt_abs hinitial (hrun _ _ _ (exec_run_left hpass)) ⟨rfl, rfl⟩ rfl
    exact not_lt.mpr hsolved hlt
  refine ⟨hstalled, fun hstep => ?_⟩
  by_contra hlast
  have hnext := hleads.then ⟨step, candidate, residual, hmoves, hstalled, hstep, rfl⟩
  obtain ⟨u, front, hrun⟩ := exec_newtonLoop_of_leads hnext hn ([] ++ [newtonStart config])
  rw [List.drop_of_length_le (not_lt.mp hlast)] at hrun
  have hlt := h.lt_abs hinitial (hrun _ _ _ exec_run_nil) ⟨rfl, rfl⟩ rfl
  exact not_lt.mpr hsolved hlt

theorem NewtonSeesSolved.stallsUnsolved (h : NewtonSeesSolved objective config
    (config.newtonMaxIterations.getD config.maxIterations).toNat) :
    NewtonStallsUnsolved objective config := by
  rw [← length_newtonIterations] at h
  intro evaluated result later hresult hstalled
  obtain ⟨initial, visited, hinitial, hrun⟩ := exists_loop_of_stalled hresult hstalled
  have hstart : NewtonState.Inv objective (evaluated ++ [newtonStart config])
      ⟨newtonStart config, initial, 0⟩ := ⟨List.getLast?_concat, hinitial⟩
  have hpasses : ∀ iteration evaluated state next later, NewtonState.Inv objective evaluated state →
      Effect.exec (newtonPass objective config iteration state) evaluated =
        (.ok (.again next), later) →
      NewtonState.Inv objective later next ∧ state.GoesOn objective config next :=
    fun _ _ _ _ _ _ => goesOn_of_exec_newtonPass
  obtain ⟨n, last, u, hleads, hlast, -, hend⟩ := leads_of_exec_run hpasses hstart hrun
  rcases hend with ⟨rfl, rfl, rfl⟩ | ⟨hn, iteration, hpass⟩
  · refine ⟨last.vol, hlast.1, last.residual, hlast.2, rfl, ?_⟩
    rcases hlength : (newtonIterations config).length with _ | n
    · rw [hlength] at hleads
      cases hleads
      exact h.start hlength initial hinitial
    · rw [hlength] at hleads h
      obtain ⟨before, hbefore, step, candidate, residual, hmoves, -, hstep, rfl⟩ :=
        hleads.exists_before
      refine lt_of_not_ge fun hsolved => lt_irrefl (n + 1) ?_
      exact (h.step initial n before step candidate residual hinitial n.lt_succ_self hbefore hmoves
        hsolved).2 hstep
  · obtain ⟨step, candidate, residual, hmoves, hcount, hresidual, hcandidate⟩ :=
      stalled_of_exec_newtonPass hpass hstalled
    refine ⟨candidate, hcandidate, residual, hmoves.value, hresidual, ?_⟩
    refine lt_of_not_ge fun hsolved => not_lt.mpr hcount ?_
    exact (h.step initial n last step candidate residual hinitial hn hleads hmoves hsolved).1

/-- Newton's method stalls at no solution iff it sees each solution that it steps to. -/
theorem newtonStallsUnsolved_iff : NewtonStallsUnsolved objective config ↔
    NewtonSeesSolved objective config
      (config.newtonMaxIterations.getD config.maxIterations).toNat :=
  ⟨NewtonStallsUnsolved.seesSolved, NewtonSeesSolved.stallsUnsolved⟩

end Newton

section Brent

variable {config : SolverConfig K} {state next : BrentState K} {evaluated later : List K}

theorem BrentState.bracket_right (state : BrentState K) : state.bracket.right = state.b := by
  unfold BrentState.bracket BrentState.rebracketed
  split_ifs <;> rfl

/-- A pass that returns goes on, or it leaves for another reason than a stall. -/
theorem brentPass_cases {iteration : Int}
    {pass : Pass (BrentState K) (ImpliedVolatilityResult K)}
    (h : Effect.exec (brentPass objective config iteration state) evaluated = (.ok pass, later)) :
    (∃ next, state.GoesOn objective config next ∧ pass = .again next) ∨
    ∃ result, pass = .left result ∧ ¬ result.Stalled := by
  unfold brentPass at h
  by_cases hfound : |state.fb| ≤ config.priceTolerance
  · simp only [if_pos hfound] at h
    cases h
    exact .inr ⟨_, rfl, not_stalled_of_none rfl⟩
  simp only [if_neg hfound] at h
  split_ifs at h with hnarrow
  · cases h
    exact .inr ⟨_, rfl, not_stalled_of_none rfl⟩
  rw [Effect.exec_raising_bind] at h
  split at h
  case h_2 => cases h
  case h_1 step hsteps =>
    rw [exec_evaluateObjective_bind] at h
    rcases hvalue : objective (state.rebracketed.ordered.moved (0.5 * config.volatilityTolerance)
        (0.5 * (state.rebracketed.ordered.a - state.rebracketed.ordered.b)) step.1) with _ | fb
    · rw [hvalue] at h
      cases h
      exact .inr ⟨_, rfl, not_stalled_failed (evaluation_ne_stalled _)⟩
    · rw [hvalue] at h
      cases h
      exact .inl ⟨_, ⟨not_le.mp hfound, not_le.mp hnarrow, step.1, step.2, fb, hsteps, hvalue,
        rfl⟩, rfl⟩

theorem BrentState.GoesOn.exec_brentPass (h : state.GoesOn objective config next)
    (iteration : Int) (evaluated : List K) :
    ∃ later, Effect.exec (brentPass objective config iteration state) evaluated =
      (.ok (.again next), later) := by
  obtain ⟨hunsolved, hwide, d, e, fb, hsteps, hvalue, rfl⟩ := h
  unfold brentPass
  simp only [if_neg (not_le.mpr hunsolved), if_neg (not_le.mpr hwide), hsteps,
    Effect.exec_raising_bind, exec_evaluateObjective_bind, hvalue, evaluation, Effect.exec_pure]
  exact ⟨_, rfl⟩

variable (objective config) in
/-- The loop over what is left of its iterations. -/
def brentLoop (items : List Int) (state : BrentState K) :
    Effect (List K) Exc (ImpliedVolatilityResult K × List (List K × BrentState K)) :=
  CountedLoop.run (brentPass objective config)
    (fun state => failed .brent "brent_hybrid"
      (config.brentMaxIterations.getD config.maxIterations) state.fb (some state.fb) .stalled
      config.volLowerBound config.volUpperBound "brent hybrid did not converge")
    items state

omit [LinearOrder K] in
theorem length_iterations_brent :
    (iterations (config.brentMaxIterations.getD config.maxIterations)).length =
      (config.brentMaxIterations.getD config.maxIterations).toNat := length_iterations _

variable {fa fb : K} {result : ImpliedVolatilityResult K}
  {visited : List (List K × BrentState K)}

theorem exec_solveBrentHybrid_of_loop (hfa : objective config.volLowerBound = some fa)
    (hfb : objective config.volUpperBound = some fb) (hsign : fa * fb ≤ 0)
    (hrun : Effect.exec (brentLoop objective config
        (iterations (config.brentMaxIterations.getD config.maxIterations))
        (brentStart config.volLowerBound config.volUpperBound fa fb))
      (evaluated ++ [config.volLowerBound] ++ [config.volUpperBound]) =
        (.ok (result, visited), later)) :
    Effect.exec (solveBrentHybrid objective config) evaluated =
      (.ok ⟨result, visited.map fun entry => (entry.1, entry.2.bracket)⟩, later) := by
  rw [solveBrentHybrid]
  simp only [exec_evaluateObjective_bind, hfa, hfb, evaluation, if_neg (not_lt.mpr hsign)]
  exact (Effect.exec_bind_of_ok hrun).trans rfl

/-- A stall is reported by the loop. -/
theorem exists_brentLoop_of_stalled {run : SolverRun K}
    (h : Effect.exec (solveBrentHybrid objective config) evaluated = (.ok run, later))
    (hstalled : run.result.Stalled) :
    ∃ fa fb visited, objective config.volLowerBound = some fa ∧
      objective config.volUpperBound = some fb ∧ fa * fb ≤ 0 ∧
      Effect.exec (brentLoop objective config
          (iterations (config.brentMaxIterations.getD config.maxIterations))
          (brentStart config.volLowerBound config.volUpperBound fa fb))
        (evaluated ++ [config.volLowerBound] ++ [config.volUpperBound]) =
          (.ok (run.result, visited), later) ∧
      run.passes = visited.map fun entry => (entry.1, entry.2.bracket) := by
  rw [solveBrentHybrid] at h
  simp only [exec_evaluateObjective_bind] at h
  rcases hfa : objective config.volLowerBound with _ | fa <;>
    rcases hfb : objective config.volUpperBound with _ | fb
  all_goals
    rw [hfa, hfb] at h
  case none.none | none.some | some.none =>
    cases h
    exact absurd hstalled (not_stalled_failed
      (firstReason_ne_stalled (evaluation_ne_stalled _) (evaluation_ne_stalled _)))
  dsimp only [evaluation] at h
  by_cases hsign : 0 < fa * fb
  · rw [if_pos hsign] at h
    cases h
    exact absurd hstalled (not_stalled_failed (by decide))
  rw [if_neg hsign] at h
  rcases Effect.exec_bind_cases h with ⟨_, _, herror⟩ | ⟨⟨_, visited⟩, _, hrun, hreturn⟩
  · cases herror
  · cases hreturn
    exact ⟨fa, fb, visited, rfl, rfl, not_lt.mp hsign, hrun, rfl⟩

/-- The loop reports a state that steps lead to in all its passes as stalled. -/
theorem BrentStallsUnsolved.lt_abs {last : BrentState K}
    (h : BrentStallsUnsolved objective config) (hfa : objective config.volLowerBound = some fa)
    (hfb : objective config.volUpperBound = some fb) (hsign : fa * fb ≤ 0)
    (hleads : Leads (BrentState.GoesOn objective config)
      (config.brentMaxIterations.getD config.maxIterations).toNat
      (brentStart config.volLowerBound config.volUpperBound fa fb) last) :
    config.priceTolerance < |last.fb| := by
  rw [← length_iterations_brent] at hleads
  obtain ⟨u, front, hrun⟩ := exec_run_of_leads
    (fun iteration _ _ evaluated hstep => hstep.exec_brentPass iteration evaluated) hleads le_rfl
    ([] ++ [config.volLowerBound] ++ [config.volUpperBound])
  rw [List.drop_length] at hrun
  obtain ⟨_, -, residual, -, hresidual, hlt⟩ := h [] _ _
    (exec_solveBrentHybrid_of_loop hfa hfb hsign (hrun _ _ _ exec_run_nil)) ⟨rfl, rfl⟩
  rwa [← WithTop.coe_inj.mp hresidual] at hlt

theorem BrentStallsUnsolved.seesSolved (h : BrentStallsUnsolved objective config) :
    BrentSeesSolved objective config
      (config.brentMaxIterations.getD config.maxIterations).toNat := by
  refine ⟨fun hnone fa fb hfa hfb hsign => h.lt_abs hfa hfb hsign (hnone ▸ rfl), ?_⟩
  intro fa fb n state next hfa hfb hsign hn hleads hnext hsolved
  by_contra hlast
  have hpasses : n + 1 = (config.brentMaxIterations.getD config.maxIterations).toNat := by omega
  exact not_lt.mpr hsolved (h.lt_abs hfa hfb hsign (hpasses ▸ hleads.then hnext))

theorem BrentSeesSolved.stallsUnsolved (h : BrentSeesSolved objective config
    (config.brentMaxIterations.getD config.maxIterations).toNat) :
    BrentStallsUnsolved objective config := by
  intro evaluated run later hresult hstalled
  obtain ⟨fa, fb, visited, hfa, hfb, hsign, hrun, hbrackets⟩ :=
    exists_brentLoop_of_stalled hresult hstalled
  -- the value of `b` is known from the start
  have hstart : objective (brentStart config.volLowerBound config.volUpperBound fa fb).b =
      some (brentStart config.volLowerBound config.volUpperBound fa fb).fb := by
    unfold brentStart
    split_ifs
    · exact hfa
    · exact hfb
  have hpasses : ∀ iteration evaluated (state next : BrentState K) later,
      objective state.b = some state.fb →
      Effect.exec (brentPass objective config iteration state) evaluated =
        (.ok (.again next), later) →
      objective next.b = some next.fb ∧ state.GoesOn objective config next := by
    intro iteration evaluated state next later _ hpass
    rcases brentPass_cases hpass with ⟨_, hnext, hsame⟩ | ⟨_, hleft, -⟩
    · cases hsame
      obtain ⟨-, -, _, _, _, -, hvalue, rfl⟩ := id hnext
      exact ⟨hvalue, hnext⟩
    · cases hleft
  obtain ⟨n, last, u, hleads, hlast, hvisited, hend⟩ := leads_of_exec_run hpasses hstart hrun
  rcases hend with ⟨hn, hfinish, rfl⟩ | ⟨hn, iteration, hpass⟩
  · refine ⟨(later, last.bracket), ?_, last.fb, ?_, congrArg _ hfinish, ?_⟩
    · rw [hbrackets, List.getLast?_map, hvisited]
      rfl
    · rw [BrentState.bracket_right]
      exact hlast
    rw [length_iterations_brent] at hn
    rcases n with _ | n
    · cases hleads
      exact h.start hn.symm fa fb hfa hfb hsign
    · obtain ⟨before, hbefore, hnext⟩ := hleads.exists_before
      rw [← hn] at h
      refine lt_of_not_ge fun hsolved => lt_irrefl (n + 1) ?_
      exact h.step fa fb n before last hfa hfb hsign n.lt_succ_self hbefore hnext hsolved
  · rcases brentPass_cases hpass with ⟨_, -, hagain⟩ | ⟨result, hleft, hother⟩
    · cases hagain
    · cases hleft
      exact absurd hstalled hother

/-- Brent's method stalls at no solution iff it sees each solution that it steps to. -/
theorem brentStallsUnsolved_iff : BrentStallsUnsolved objective config ↔
    BrentSeesSolved objective config
      (config.brentMaxIterations.getD config.maxIterations).toNat :=
  ⟨BrentStallsUnsolved.seesSolved, BrentSeesSolved.stallsUnsolved⟩

end Brent

/-! ### Both solvers -/

/-- A stall is reported at no solution iff each solution that the search steps to is seen. -/
theorem stallsUnsolved_iff (config : NewtonConfig K) :
    (NewtonStallsUnsolved objective config ↔ NewtonSeesSolved objective config
      (config.newtonMaxIterations.getD config.maxIterations).toNat) ∧
    (BrentStallsUnsolved objective config.toSolverConfig ↔
      BrentSeesSolved objective config.toSolverConfig
        (config.brentMaxIterations.getD config.maxIterations).toNat) :=
  ⟨newtonStallsUnsolved_iff, brentStallsUnsolved_iff⟩

/-- On a line the first step leads to the solution, and where it is the only one, it is reported as
stalled. -/
theorem stalls_at_solution :
    ¬ NewtonStallsUnsolved (fun vol : ℚ => some (vol - 1 / 2))
        { newtonMaxIterations := some 1 } ∧
    ¬ BrentStallsUnsolved (fun vol : ℚ => some (vol - 1 / 2)) { brentMaxIterations := some 1 } := by
  constructor
  · intro h
    obtain ⟨result, later, hexec, hresult⟩ :
        ∃ result later, Effect.exec (solveNewtonRaphson (fun vol : ℚ => some (vol - 1 / 2))
          { newtonMaxIterations := some 1 }) [] = (.ok result, later) ∧
            (result.outcome, result.failureReason, result.residual) =
              (.nonConvergence, .stalled, ((0 : ℚ) : WithTop ℚ)) :=
      Effect.exists_exec_eq_ok (by decide +kernel)
    simp only [Prod.mk.injEq] at hresult
    obtain ⟨houtcome, hreason, hresidual⟩ := hresult
    obtain ⟨_, -, residual, -, hsame, hlt⟩ := h [] result later hexec ⟨houtcome, hreason⟩
    rw [← WithTop.coe_inj.mp (hresidual.symm.trans hsame)] at hlt
    exact absurd hlt (by decide +kernel)
  · intro h
    obtain ⟨run, later, hexec, hresult⟩ :
        ∃ run later, Effect.exec (solveBrentHybrid (fun vol : ℚ => some (vol - 1 / 2))
          { brentMaxIterations := some 1 }) [] = (.ok run, later) ∧
            (run.result.outcome, run.result.failureReason, run.result.residual) =
              (.nonConvergence, .stalled, ((0 : ℚ) : WithTop ℚ)) :=
      Effect.exists_exec_eq_ok (by decide +kernel)
    simp only [Prod.mk.injEq] at hresult
    obtain ⟨houtcome, hreason, hresidual⟩ := hresult
    obtain ⟨_, -, residual, -, hsame, hlt⟩ := h [] run later hexec ⟨houtcome, hreason⟩
    rw [← WithTop.coe_inj.mp (hresidual.symm.trans hsame)] at hlt
    exact absurd hlt (by decide +kernel)

end OptionResearch
