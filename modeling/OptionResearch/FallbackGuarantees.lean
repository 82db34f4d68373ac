import OptionResearch.VolatilityEngine
import Mathlib.Tactic.FieldSimp

/-!
# What the fallback loop guarantees

Bisection halves its interval with each iteration, so it is within its tolerance after as many as
the logarithm of the width asks for. Behind any other methods it is reached, unless Newton's method
is attempted before it and divides by zero: an error leaves the loop.
-/

namespace OptionResearch

open ImpliedVolatilityEngine SignChange

variable {K : Type} [Field K] [LinearOrder K] {objective : K → Option K}

/-! ### The loop -/

section Loop

variable {config : EngineConfig K}

/-- A method that raises leaves the loop. -/
theorem fallbackLoop_of_error {brentSolver : Option (BrentSolver K)} {method : SolverMethod}
    {error : Exc} (h : attempt brentSolver objective config method = .error error)
    (rest : List SolverMethod) (trace : FallbackTrace) :
    fallbackLoop brentSolver objective config (method :: rest) trace = .error error := by
  rw [fallbackLoop, h]
  rfl

/-- A method whose result is converged ends the loop. -/
theorem fallbackLoop_of_converged {brentSolver : Option (BrentSolver K)} {method : SolverMethod}
    {attempted : ImpliedVolatilityResult K}
    (h : attempt brentSolver objective config method = .ok (some attempted))
    (hconverged : attempted.converged = true) (rest : List SolverMethod) (trace : FallbackTrace) :
    ∃ later, fallbackLoop brentSolver objective config (method :: rest) trace =
      .ok (some attempted, later) := by
  rw [fallbackLoop, h]
  exact ⟨_, if_pos hconverged⟩

/-- Behind methods that return, a method whose result is converged leaves a converged result. -/
theorem exists_fallbackLoop_converged {brentSolver : Option (BrentSolver K)}
    {method : SolverMethod} {attempted : ImpliedVolatilityResult K}
    (h : attempt brentSolver objective config method = .ok (some attempted))
    (hconverged : attempted.converged = true) {before : List SolverMethod}
    (hbefore : ∀ other ∈ before, ∃ result, attempt brentSolver objective config other = .ok result)
    (after : List SolverMethod) (trace : FallbackTrace) :
    ∃ found later, fallbackLoop brentSolver objective config (before ++ method :: after) trace =
      .ok (some found, later) ∧ found.converged = true := by
  induction before generalizing trace with
  | nil =>
      obtain ⟨later, hloop⟩ := fallbackLoop_of_converged h hconverged after trace
      exact ⟨attempted, later, hloop, hconverged⟩
  | cons other rest ih =>
      obtain ⟨result, hresult⟩ := hbefore other List.mem_cons_self
      have hrest := ih fun m hm => hbefore m (List.mem_cons_of_mem _ hm)
      rw [List.cons_append, fallbackLoop, hresult]
      cases result with
      | none => exact hrest _
      | some result =>
          by_cases hfound : result.converged = true
          · exact ⟨result, _, if_pos hfound, hfound⟩
          · obtain ⟨found, later, hloop, hend⟩ := hrest _
            exact ⟨found, later, (if_neg hfound).trans hloop, hend⟩

end Loop

variable [IsStrictOrderedRing K]

/-! ### Bisection -/

section Bisection

variable {config : SolverConfig K}

/-- Both ends are within the bounds. -/
def BisectionState.Within (config : SolverConfig K) (state : BisectionState K) : Prop :=
  state.low ∈ Set.Icc config.volLowerBound config.volUpperBound ∧
    state.high ∈ Set.Icc config.volLowerBound config.volUpperBound

/-- A pass ends with a volatility, or it goes on with half of an interval that is too wide. -/
theorem exec_bisectionPass_halves
    (hdefined : ∀ x ∈ Set.Icc config.volLowerBound config.volUpperBound,
      ∃ value, objective x = some value) {state : BisectionState K} (h : state.Within config)
    (iteration : Int) (evaluated : List K) :
    (∃ result later, Effect.exec (bisectionPass objective config iteration state) evaluated =
        (.ok (.left result), later) ∧ result.converged = true ∧ result.iterations = iteration) ∨
    ∃ next later, Effect.exec (bisectionPass objective config iteration state) evaluated =
        (.ok (.again next), later) ∧ next.Within config ∧
      next.bracket.width = state.bracket.width / 2 ∧
      config.volatilityTolerance < state.bracket.width := by
  have hmid : 0.5 * (state.low + state.high) ∈
      Set.Icc config.volLowerBound config.volUpperBound :=
    Set.uIcc_subset_Icc h.1 h.2 half_add_mem_uIcc
  obtain ⟨fMid, hfMid⟩ := hdefined _ hmid
  rw [bisectionPass, exec_evaluateObjective_bind, hfMid]
  dsimp only [evaluation]
  by_cases hfound : |fMid| ≤ config.priceTolerance ∨
      |state.high - state.low| ≤ config.volatilityTolerance
  · rw [if_pos hfound]
    exact .inl ⟨_, _, rfl, rfl, rfl⟩
  · have hwide : config.volatilityTolerance < |state.high - state.low| :=
      not_le.mp fun hnarrow => hfound (.inr hnarrow)
    have hlower : 0.5 * (state.low + state.high) - state.low = (state.high - state.low) / 2 := by
      linarith
    have hupper : state.high - 0.5 * (state.low + state.high) = (state.high - state.low) / 2 := by
      linarith
    have hhalf : |(state.high - state.low) / 2| = |state.high - state.low| / 2 := by
      rw [abs_div, abs_two]
    rw [if_neg hfound]
    by_cases hsign : state.fLow * fMid < 0
    · rw [if_pos hsign]
      refine .inr ⟨_, _, rfl, ⟨h.1, hmid⟩, ?_, hwide⟩
      exact (congrArg abs hlower).trans hhalf
    · rw [if_neg hsign]
      refine .inr ⟨_, _, rfl, ⟨hmid, h.2⟩, ?_, hwide⟩
      exact (congrArg abs hupper).trans hhalf

/-- Enough iterations end with a volatility, each after the first with half of the interval. -/
theorem exec_run_bisectionPass
    (hdefined : ∀ x ∈ Set.Icc config.volLowerBound config.volUpperBound,
      ∃ value, objective x = some value) (finish : BisectionState K → ImpliedVolatilityResult K)
    {k : ℕ} {items : List Int} (hitems : items.length = k + 1) {state : BisectionState K}
    (h : state.Within config) (hwidth : state.bracket.width ≤ config.volatilityTolerance * 2 ^ k)
    (evaluated : List K) :
    ∃ result visited later,
      Effect.exec (CountedLoop.run (bisectionPass objective config) finish items state) evaluated =
        (.ok (result, visited), later) ∧ result.converged = true ∧ result.iterations ∈ items ∧
      ∀ i entry, visited[i]? = some entry →
        entry.2.bracket.width = state.bracket.width / 2 ^ i := by
  induction items generalizing k state evaluated with
  | nil => cases hitems
  | cons iteration rest ih =>
      have hlength : rest.length = k := Nat.succ.inj hitems
      rcases exec_bisectionPass_halves hdefined h iteration evaluated with
        ⟨result, later, hpass, hconverged, hiteration⟩ | ⟨next, later, hpass, hnext, hhalf, hwide⟩
      · refine ⟨result, _, later, CountedLoop.exec_run_left hpass, hconverged,
          hiteration ▸ List.mem_cons_self, ?_⟩
        intro i entry hentry
        cases i with
        | zero =>
            cases hentry
            rw [pow_zero, div_one]
        | succ i => cases hentry
      · cases k with
        | zero =>
            -- an interval as narrow as the tolerance is not halved
            rw [pow_zero, mul_one] at hwidth
            exact absurd hwide (not_lt.mpr hwidth)
        | succ k =>
            have hnarrow : next.bracket.width ≤ config.volatilityTolerance * 2 ^ k := by
              rw [hhalf, div_le_iff₀ two_pos, mul_assoc, ← pow_succ]
              exact hwidth
            obtain ⟨result, visited, final, hrun, hconverged, hiteration, hhalves⟩ :=
              ih hlength hnext hnarrow later
            refine ⟨result, _, final, CountedLoop.exec_run_again hpass hrun, hconverged,
              List.mem_cons_of_mem _ hiteration, ?_⟩
            intro i entry hentry
            cases i with
            | zero =>
                cases hentry
                rw [pow_zero, div_one]
            | succ i =>
                rw [hhalves i entry hentry, hhalf, div_div, ← pow_succ']

theorem mem_iterations_le {iteration maxIterations : Int}
    (h : iteration ∈ iterations maxIterations) :
    iteration ≤ maxIterations := by
  simp [iterations] at h
  omega

/-- Bisection of an interval with a change of sign: it halves the interval and returns converged
within its iterations, or it has none and the lower end is no root. -/
theorem exec_solveBisection_converges
    (hbounds : config.volLowerBound < config.volUpperBound)
    (hdefined : ∀ x ∈ Set.Icc config.volLowerBound config.volUpperBound,
      ∃ value, objective x = some value) {fLow fHigh : K}
    (hlow : objective config.volLowerBound = some fLow)
    (hhigh : objective config.volUpperBound = some fHigh) (hsign : fLow * fHigh ≤ 0)
    (hiterations : config.volUpperBound - config.volLowerBound ≤ config.volatilityTolerance *
      2 ^ (config.bisectionMaxIterations.getD config.maxIterations - 1)) :
    ∃ run evaluated, Effect.exec (solveBisection objective config) [] = (.ok run, evaluated) ∧
      (run.result.converged = true ↔
        1 ≤ config.bisectionMaxIterations.getD config.maxIterations ∨ fLow = 0) ∧
      (1 ≤ config.bisectionMaxIterations.getD config.maxIterations → run.result.iterations ≤
        config.bisectionMaxIterations.getD config.maxIterations) ∧
      ∀ i pass, run.passes[i]? = some pass →
        pass.2.width = (config.volUpperBound - config.volLowerBound) / 2 ^ i := by
  generalize hn : config.bisectionMaxIterations.getD config.maxIterations = n at hiterations ⊢
  rw [solveBisection, exec_evaluateObjective_bind, exec_evaluateObjective_bind, hlow, hhigh, hn]
  dsimp only [evaluation]
  by_cases hzero : fLow = 0
  · rw [if_pos hzero]
    refine ⟨_, _, rfl, iff_of_true rfl (.inr hzero), fun h => zero_le_one.trans h, ?_⟩
    rintro i pass ⟨⟩
  rw [if_neg hzero, if_neg (not_lt.mpr hsign)]
  have hends : BisectionState.Within config
      ⟨config.volLowerBound, config.volUpperBound, fLow, fHigh, fLow⟩ :=
    ⟨Set.left_mem_Icc.mpr hbounds.le, Set.right_mem_Icc.mpr hbounds.le⟩
  have hwidth : (⟨config.volLowerBound, config.volUpperBound, fLow, fHigh, fLow⟩ :
      BisectionState K).bracket.width = config.volUpperBound - config.volLowerBound :=
    abs_of_pos (sub_pos.mpr hbounds)
  by_cases hsome : 1 ≤ n
  · obtain ⟨k, rfl⟩ : ∃ k : ℕ, n = k + 1 := ⟨(n - 1).toNat, by omega⟩
    have hlength : (iterations ((k : Int) + 1)).length = k + 1 := by
      rw [length_iterations]
      omega
    rw [add_sub_cancel_right, zpow_natCast, ← hwidth] at hiterations
    obtain ⟨result, visited, later, hrun, hconverged, hiteration, hhalves⟩ :=
      exec_run_bisectionPass hdefined _ hlength hends hiterations _
    refine ⟨_, later, Effect.exec_bind_of_ok hrun, iff_of_true hconverged (.inl hsome),
      fun _ => mem_iterations_le hiteration, ?_⟩
    intro i pass hpass
    obtain ⟨entry, hentry, rfl⟩ := Option.map_eq_some_iff.mp (List.getElem?_map.symm.trans hpass)
    exact (hhalves i entry hentry).trans (by rw [hwidth])
  · have hnone : iterations n = [] := by
      have hempty : n.toNat = 0 := by omega
      exact List.eq_nil_of_length_eq_zero ((length_iterations n).trans hempty)
    rw [hnone]
    refine ⟨_, _, rfl, iff_of_false Bool.false_ne_true ?_, fun h => absurd h hsome, ?_⟩
    · exact not_or.mpr ⟨hsome, hzero⟩
    · intro i pass hpass
      cases i with
      | zero =>
          cases hpass
          rw [pow_zero, div_one]
          exact hwidth
      | succ i => cases hpass

end Bisection

/-! ### Every order of methods -/

section Fallback

variable {config : EngineConfig K}

/-- Newton's method is the only one that raises, where it divides by zero. -/
theorem attempt_newtonRaphson (brentSolver : Option (BrentSolver K)) :
    (NewtonDivides objective config.toNewtonConfig ∧
      ∃ error, attempt brentSolver objective config .newtonRaphson = .error error) ∨
    ¬ NewtonDivides objective config.toNewtonConfig ∧
      ∃ result, attempt brentSolver objective config .newtonRaphson = .ok result := by
  rcases @exec_solveNewtonRaphson _ _ _ objective config.toNewtonConfig _ [] with
    ⟨hdivides, error, later, hrun⟩ | ⟨hdivides, result, later, hrun⟩
  · refine .inl ⟨hdivides, error, ?_⟩
    rw [attempt, hrun]
    rfl
  · refine .inr ⟨hdivides, some result, ?_⟩
    rw [attempt, hrun]
    rfl

theorem exists_attempt (hbounds : config.volLowerBound < config.volUpperBound)
    (hprice : 0 < config.priceTolerance) (hvol : 0 < config.volatilityTolerance)
    {method : SolverMethod}
    (hnewton : method = .newtonRaphson → ¬ NewtonDivides objective config.toNewtonConfig) :
    ∃ result, attempt none objective config method = .ok result := by
  cases method with
  | newtonRaphson =>
      rcases @attempt_newtonRaphson _ _ _ objective _ config none with
        ⟨hdivides, -⟩ | ⟨-, hreturns⟩
      · exact absurd hdivides (hnewton rfl)
      · exact hreturns
  | bisection =>
      obtain ⟨run, later, hrun, -⟩ := @exec_solveBisection _ objective _ _
        config.toSolverConfig _ hbounds.le hprice.le
      refine ⟨some run.result, ?_⟩
      rw [attempt, hrun]
      rfl
  | brent =>
      obtain ⟨run, later, hrun, -⟩ := @exec_solveBrentHybrid _ objective _ _
        config.toSolverConfig _ hbounds.le hprice.le hvol.le
      refine ⟨some run.result, ?_⟩
      rw [attempt, brentInterface, hrun]
      rfl
  | none => exact ⟨none, rfl⟩

/-- With an objective that changes its sign between the bounds and enough iterations of bisection
for the width, the fallback loop finds a volatility for every order of methods with bisection among
them exactly where bisection has an iteration, or finds the lower bound, and Newton's method does
not divide by zero. Where no Newton comes before bisection, it finds one in any case. -/
theorem fallbackLoop_converges_iff (hbounds : config.volLowerBound < config.volUpperBound)
    (hdefined : ∀ x ∈ Set.Icc config.volLowerBound config.volUpperBound,
      ∃ value, objective x = some value) {fLow fHigh : K}
    (hlow : objective config.volLowerBound = some fLow)
    (hhigh : objective config.volUpperBound = some fHigh) (hsign : fLow * fHigh ≤ 0)
    (hprice : 0 < config.priceTolerance) (hvol : 0 < config.volatilityTolerance)
    (hiterations : config.volUpperBound - config.volLowerBound ≤ config.volatilityTolerance *
      2 ^ (config.bisectionMaxIterations.getD config.maxIterations - 1)) :
    let iterations := config.bisectionMaxIterations.getD config.maxIterations
    let Finds := fun methods trace => ∃ found later,
      fallbackLoop none objective config methods trace = .ok (some found, later) ∧
        found.converged = true
    ((∀ methods, .bisection ∈ methods → Finds methods {}) ↔
      (1 ≤ iterations ∨ fLow = 0) ∧ ¬ NewtonDivides objective config.toNewtonConfig) ∧
    (1 ≤ iterations ∨ fLow = 0 → ∀ before after trace, .newtonRaphson ∉ before →
      Finds (before ++ .bisection :: after) trace) ∧
    ∃ run evaluated,
      Effect.exec (solveBisection objective config.toSolverConfig) [] = (.ok run, evaluated) ∧
      (run.result.converged = true ↔ 1 ≤ iterations ∨ fLow = 0) ∧
      (1 ≤ iterations → run.result.iterations ≤ iterations) ∧
      ∀ i pass, run.passes[i]? = some pass →
        pass.2.width = (config.volUpperBound - config.volLowerBound) / 2 ^ i := by
  intro iterations Finds
  obtain ⟨run, evaluated, hrun, hconverged, hwithin, hhalves⟩ :=
    exec_solveBisection_converges hbounds hdefined hlow hhigh hsign hiterations
  have hbisection : attempt none objective config .bisection = .ok (some run.result) := by
    rw [attempt, hrun]
    rfl
  have hfinds : 1 ≤ iterations ∨ fLow = 0 → ∀ before after trace,
      (.newtonRaphson ∈ before → ¬ NewtonDivides objective config.toNewtonConfig) →
        Finds (before ++ .bisection :: after) trace := by
    intro henough before after trace hnewton
    refine exists_fallbackLoop_converged hbisection (hconverged.mpr henough) ?_ after trace
    intro other hother
    exact exists_attempt hbounds hprice hvol fun hmethod => hnewton (hmethod ▸ hother)
  refine ⟨⟨fun hall => ⟨?_, fun hdivides => ?_⟩, ?_⟩, ?_, run, evaluated, hrun, hconverged, hwithin,
    hhalves⟩
  · -- bisection alone
    obtain ⟨found, later, hloop, hfound⟩ := hall [.bisection] List.mem_cons_self
    rw [fallbackLoop, hbisection] at hloop
    by_cases hresult : run.result.converged = true
    · exact hconverged.mp hresult
    · cases (if_neg hresult).symm.trans hloop
  · -- Newton's method, then bisection
    obtain ⟨found, later, hloop, -⟩ := hall [.newtonRaphson, .bisection]
      (List.mem_cons_of_mem _ List.mem_cons_self)
    rcases @attempt_newtonRaphson _ _ _ objective _ config none with
      ⟨-, error, herror⟩ | ⟨hnever, -⟩
    · cases (fallbackLoop_of_error herror _ _).symm.trans hloop
    · exact hnever hdivides
  · rintro ⟨henough, hnever⟩ methods hmem
    obtain ⟨before, after, rfl⟩ := List.append_of_mem hmem
    exact hfinds henough before after {} fun _ => hnever
  · exact fun henough before after trace hnewton =>
      hfinds henough before after trace fun hmem => absurd hmem hnewton

end Fallback

/-- An objective that jumps from below to above at a volatility of one. -/
def jumpAtOne (x : ℚ) : Option ℚ := some (if x < 1 then -1 else 1)

theorem fallbackLoop_converges_iff_jumpAtOne :
    let config : EngineConfig ℚ := {}
    let iterations := config.bisectionMaxIterations.getD config.maxIterations
    let Finds := fun methods trace => ∃ found later,
      fallbackLoop none jumpAtOne config methods trace = .ok (some found, later) ∧
        found.converged = true
    ((∀ methods, .bisection ∈ methods → Finds methods {}) ↔
      (1 ≤ iterations ∨ (-1 : ℚ) = 0) ∧ ¬ NewtonDivides jumpAtOne config.toNewtonConfig) ∧
    (1 ≤ iterations ∨ (-1 : ℚ) = 0 → ∀ before after trace, .newtonRaphson ∉ before →
      Finds (before ++ .bisection :: after) trace) ∧
    ∃ run evaluated,
      Effect.exec (solveBisection jumpAtOne config.toSolverConfig) [] = (.ok run, evaluated) ∧
      (run.result.converged = true ↔ 1 ≤ iterations ∨ (-1 : ℚ) = 0) ∧
      (1 ≤ iterations → run.result.iterations ≤ iterations) ∧
      ∀ i pass, run.passes[i]? = some pass →
        pass.2.width = (config.volUpperBound - config.volLowerBound) / 2 ^ i := by
  have hbounds : (1e-6 : ℚ) < 5.0 := by norm_num
  have htolerance : (0 : ℚ) < 1e-8 := by norm_num
  have hlow : jumpAtOne 1e-6 = some (-1) := congrArg some (if_pos (by norm_num))
  have hhigh : jumpAtOne 5.0 = some 1 := congrArg some (if_neg (by norm_num))
  have hwidth : (5.0 : ℚ) - 1e-6 ≤ 1e-8 * 2 ^ ((100 : Int) - 1) := by norm_num
  exact fallbackLoop_converges_iff
    (show ({} : EngineConfig ℚ).volLowerBound < ({} : EngineConfig ℚ).volUpperBound from hbounds)
    (fun _ _ => ⟨_, rfl⟩) hlow hhigh (by norm_num) htolerance htolerance hwidth

/-- Without a smallest vega, Newton's method divides by zero where the objective is flat, and the
bisection behind it is not reached. -/
theorem fallbackLoop_jumpAtOne_raises :
    ¬ ∃ found later,
      fallbackLoop none jumpAtOne ({ minVega := 0 } : EngineConfig ℚ)
        [.newtonRaphson, .bisection, .brent] {} = .ok (some found, later) ∧
          found.converged = true := by
  have hstart : newtonStart ({ minVega := 0 } : EngineConfig ℚ).toNewtonConfig = 0.2 := by
    norm_num [newtonStart]
  have hflat : (⟨0.2, -1, 0⟩ : NewtonState ℚ).Flat jumpAtOne
      ({ minVega := 0 } : EngineConfig ℚ).toNewtonConfig := by
    refine ⟨by norm_num, le_rfl, -1, congrArg some (if_pos ?_), congrArg some (if_pos ?_)⟩
    · norm_num [NewtonState.forward]
    · norm_num [NewtonState.backward]
  have hdivides : NewtonDivides jumpAtOne ({ minVega := 0 } : EngineConfig ℚ).toNewtonConfig := by
    refine ⟨-1, ?_, ?_⟩
    · rw [hstart]
      exact congrArg some (if_pos (by norm_num))
    · rw [hstart]
      exact .inl hflat
  rintro ⟨found, later, hloop, -⟩
  rcases @attempt_newtonRaphson _ _ _ jumpAtOne _
      ({ minVega := 0 } : EngineConfig ℚ) none with ⟨-, error, herror⟩ | ⟨hnever, -⟩
  · cases (fallbackLoop_of_error herror _ _).symm.trans hloop
  · exact hnever hdivides

end OptionResearch
