import OptionResearch.VolatilitySolvers

/-!
# What the bracketing solvers guarantee

Both solvers keep two points with values of opposite signs. Bisection halves the interval; a step of
Brent's method is only accepted where it leads toward the other end, and what it divides by is then
not zero. So no point outside the bounds is evaluated, and each interval is within the one before.
-/

namespace OptionResearch

open SignChange

variable {K : Type} {objective : K → Option K} {evaluated : List K} {x value : K}

/-- The value of a point that the objective has been evaluated at. -/
def Evaluated (objective : K → Option K) (evaluated : List K) (x value : K) : Prop :=
  x ∈ evaluated ∧ objective x = some value

theorem Evaluated.later (h : Evaluated objective evaluated x value) (y : K) :
    Evaluated objective (evaluated ++ [y]) x value := ⟨List.mem_append_left _ h.1, h.2⟩

theorem evaluated_last (h : objective x = some value) :
    Evaluated objective (evaluated ++ [x]) x value :=
  ⟨List.mem_append_right _ List.mem_cons_self, h⟩

theorem exec_evaluateObjective_bind {α : Type}
    (f : Option K × FailureReason → Effect (List K) Exc α) :
    Effect.exec (evaluateObjective objective x >>= f) evaluated =
      Effect.exec (f (evaluation (objective x))) (evaluated ++ [x]) := rfl

variable [Field K] [LinearOrder K]

/-- All points are within the bounds. -/
def SolverConfig.Bounds (config : SolverConfig K) (evaluated : List K) : Prop :=
  ∀ x ∈ evaluated, x ∈ Set.Icc config.volLowerBound config.volUpperBound

/-- Two evaluated points with a change of sign. -/
structure Brackets (objective : K → Option K) (evaluated : List K) (bracket : Bracket K) :
    Prop where
  left : Evaluated objective evaluated bracket.left bracket.leftValue
  right : Evaluated objective evaluated bracket.right bracket.rightValue
  changes : bracket.Changes

/-- What the outcome says about a volatility, in view of the last two points. -/
structure Justified (objective : K → Option K) (config : SolverConfig K)
    (bracket : Option (Bracket K)) (result : ImpliedVolatilityResult K) : Prop where
  success : result.outcome = .success → ∃ volatility residual : K,
    result.impliedVolatility = some volatility ∧ result.residual = residual ∧
      objective volatility = some residual ∧ |residual| ≤ config.priceTolerance
  approximate : result.outcome = .approximate → ∃ volatility, ∃ last ∈ bracket,
    result.impliedVolatility = some volatility ∧ volatility ∈ last.interval ∧
      last.width ≤ config.volatilityTolerance

/-- What a run of a bracketing solver guarantees. -/
structure StaysBracketed (objective : K → Option K) (config : SolverConfig K)
    (evaluated : List K) (run : SolverRun K) : Prop where
  bounds : config.Bounds evaluated
  brackets : ∀ pass ∈ run.passes, config.Bounds pass.1 ∧ Brackets objective pass.1 pass.2
  nested : run.passes.IsChain fun pass next => next.2.interval ⊆ pass.2.interval
  justified : Justified objective config (run.passes.getLast?.map Prod.snd) run.result

variable {config : SolverConfig K}

theorem SolverConfig.Bounds.append (h : config.Bounds evaluated)
    (hx : x ∈ Set.Icc config.volLowerBound config.volUpperBound) :
    config.Bounds (evaluated ++ [x]) :=
  List.forall_mem_append.mpr ⟨h, List.forall_mem_singleton.mpr hx⟩

/-- Between evaluated points there are only points within the bounds. -/
theorem SolverConfig.Bounds.mem_of_mem_uIcc {left right : K} (h : config.Bounds evaluated)
    (hleft : left ∈ evaluated) (hright : right ∈ evaluated) (hx : x ∈ Set.uIcc left right) :
    x ∈ Set.Icc config.volLowerBound config.volUpperBound :=
  Set.uIcc_subset_Icc (h left hleft) (h right hright) hx

theorem SolverConfig.bounds_ends (config : SolverConfig K)
    (h : config.volLowerBound ≤ config.volUpperBound) :
    config.Bounds ([] ++ [config.volLowerBound] ++ [config.volUpperBound]) :=
  List.forall_mem_cons.mpr
    ⟨Set.left_mem_Icc.mpr h, List.forall_mem_singleton.mpr (Set.right_mem_Icc.mpr h)⟩

theorem justified_failed {bracket : Option (Bracket K)} {method : SolverMethod}
    {solver warning : String} {iterations : Int} {residual : WithTop K} {error : Option K}
    {reason : FailureReason} {lower upper : K} : Justified objective config bracket
      (.failed method solver iterations residual error reason lower upper warning) :=
  ⟨nofun, nofun⟩

/-! ### Loops over brackets -/

theorem staysBracketed_nil {result : ImpliedVolatilityResult K} (h : config.Bounds evaluated)
    (hresult : Justified objective config none result) :
    StaysBracketed objective config evaluated ⟨result, []⟩ :=
  ⟨h, fun _ h => absurd h List.not_mem_nil, .nil, hresult⟩

/-- A loop whose passes keep two evaluated points with a change of sign, and nest them. -/
theorem exists_loop_staysBracketed {σ : Type} (bracket : σ → Bracket K) (Inv : List K → σ → Prop)
    {body : Int → σ → Effect (List K) Exc (Pass σ (ImpliedVolatilityResult K))}
    {finish : σ → ImpliedVolatilityResult K} {state : σ}
    (hbrackets : ∀ evaluated state, Inv evaluated state →
      config.Bounds evaluated ∧ Brackets objective evaluated (bracket state))
    (hbody : ∀ iteration evaluated state, Inv evaluated state → ∃ pass later,
      Effect.exec (body iteration state) evaluated = (.ok pass, later) ∧
        pass.Meets (fun result => config.Bounds later ∧
            Justified objective config (some (bracket state)) result)
          fun next => Inv later next ∧ (bracket next).interval ⊆ (bracket state).interval)
    (hfinish : ∀ state, Justified objective config (some (bracket state)) (finish state))
    (items : List Int) (h : Inv evaluated state) :
    ∃ result visited later,
      Effect.exec (CountedLoop.run body finish items state) evaluated =
        (.ok (result, visited), later) ∧
      StaysBracketed objective config later
        ⟨result, visited.map fun entry => (entry.1, bracket entry.2)⟩ := by
  obtain ⟨result, visited, last, later, hrun, _, hlast, hall, hchain, hbounds, hresult⟩ :=
    CountedLoop.exists_run hbody
      (fun evaluated state h => ⟨(hbrackets evaluated state h).1, hfinish state⟩) items h
  refine ⟨result, visited, later, hrun, hbounds, ?_, ?_, ?_⟩
  · intro pass hpass
    obtain ⟨entry, hentry, rfl⟩ := List.mem_map.mp hpass
    exact hbrackets entry.1 entry.2 (hall entry hentry)
  · exact (List.isChain_map _).mpr hchain
  · rw [List.getLast?_map, hlast]
    exact hresult

/-! ### What the passes start from -/

/-- What a pass of the bisection starts from: its two points, the lower of which is no root. -/
structure BisectionState.Inv (objective : K → Option K) (config : SolverConfig K)
    (evaluated : List K) (state : BisectionState K) : Prop where
  bounds : config.Bounds evaluated
  brackets : Brackets objective evaluated state.bracket
  fLow_ne_zero : state.fLow ≠ 0

namespace BrentState

variable {state : BrentState K}

/-- What a pass starts from: where its first two points have values of one sign, the third has one
of the other. -/
structure Inv (objective : K → Option K) (config : SolverConfig K) (evaluated : List K)
    (state : BrentState K) : Prop where
  bounds : config.Bounds evaluated
  a : Evaluated objective evaluated state.a state.fa
  b : Evaluated objective evaluated state.b state.fb
  c : Evaluated objective evaluated state.c state.fc
  fa_ne_zero : state.fb ≠ 0 → state.fa ≠ 0
  opposite : 0 < state.fa * state.fb → state.fc * state.fb < 0

/-- What the step of a pass is computed from. -/
structure Straddles (objective : K → Option K) (evaluated : List K) (state : BrentState K) :
    Prop where
  a : Evaluated objective evaluated state.a state.fa
  b : Evaluated objective evaluated state.b state.fb
  c : Evaluated objective evaluated state.c state.fc
  opposite : state.fa * state.fb < 0

theorem Inv.brackets (h : state.Inv objective config evaluated) :
    Brackets objective evaluated state.bracket := by
  rw [bracket, rebracketed]
  split_ifs with hsame
  · exact ⟨h.c, h.b, (h.opposite hsame).le⟩
  · exact ⟨h.a, h.b, not_lt.mp hsame⟩

theorem Inv.rebracketed (h : state.Inv objective config evaluated) (hfb : state.fb ≠ 0) :
    state.rebracketed.Straddles objective evaluated := by
  rw [BrentState.rebracketed]
  split_ifs with hsame
  · exact ⟨h.c, h.b, h.c, h.opposite hsame⟩
  · exact ⟨h.a, h.b, h.c, lt_of_le_of_ne (not_lt.mp hsame) (mul_ne_zero (h.fa_ne_zero hfb) hfb)⟩

theorem Straddles.ordered (h : state.Straddles objective evaluated) :
    state.ordered.Straddles objective evaluated := by
  rw [BrentState.ordered]
  split_ifs
  · exact ⟨h.b, h.a, h.b, mul_comm state.fa state.fb ▸ h.opposite⟩
  · exact h

theorem uIcc_ordered (state : BrentState K) :
    Set.uIcc state.ordered.a state.ordered.b = Set.uIcc state.a state.b := by
  rw [ordered]
  split_ifs
  · exact Set.uIcc_comm _ _
  · rfl

theorem abs_sub_ordered (state : BrentState K) :
    |state.ordered.b - state.ordered.a| = |state.b - state.a| := by
  rw [ordered]
  split_ifs
  · exact abs_sub_comm _ _
  · rfl

/-- The ends of the bracket are among the three points. -/
theorem interval_bracket_subset {x y : K} (ha : state.a ∈ Set.uIcc x y)
    (hb : state.b ∈ Set.uIcc x y) (hc : state.c ∈ Set.uIcc x y) :
    state.bracket.interval ⊆ Set.uIcc x y := by
  rw [bracket, rebracketed]
  split_ifs
  · exact Set.uIcc_subset_uIcc hc hb
  · exact Set.uIcc_subset_uIcc ha hb

end BrentState

variable [IsStrictOrderedRing K]

/-! ### Bisection -/

theorem exec_bisectionPass (hprice : 0 ≤ config.priceTolerance) {state : BisectionState K}
    (h : state.Inv objective config evaluated) (iteration : Int) :
    ∃ pass later, Effect.exec (bisectionPass objective config iteration state) evaluated =
        (.ok pass, later) ∧
      pass.Meets (fun result => config.Bounds later ∧
          Justified objective config (some state.bracket) result)
        (fun next => next.Inv objective config later ∧
          next.bracket.interval ⊆ state.bracket.interval) := by
  have hmid : 0.5 * (state.low + state.high) ∈ state.bracket.interval := half_add_mem_uIcc
  have hbounds := h.bounds.append
    (h.bounds.mem_of_mem_uIcc h.brackets.left.1 h.brackets.right.1 hmid)
  rw [bisectionPass, exec_evaluateObjective_bind]
  rcases hvalue : objective (0.5 * (state.low + state.high)) with _ | fMid
  · exact ⟨_, _, rfl, hbounds, justified_failed⟩
  · dsimp only [evaluation]
    have hnew : Evaluated objective (evaluated ++ [0.5 * (state.low + state.high)])
      (0.5 * (state.low + state.high)) fMid := evaluated_last hvalue
    split_ifs with hfound hprice' hsign
    · exact ⟨_, _, rfl, hbounds, ⟨fun _ => ⟨_, _, rfl, rfl, hvalue, hprice'⟩, nofun⟩⟩
    · exact ⟨_, _, rfl, hbounds, ⟨nofun,
        fun _ => ⟨_, _, rfl, rfl, hmid, hfound.resolve_left hprice'⟩⟩⟩
    · exact ⟨_, _, rfl, ⟨hbounds, ⟨h.brackets.left.later _, hnew, hsign.le⟩, h.fLow_ne_zero⟩,
        Bracket.interval_subset Set.left_mem_uIcc hmid⟩
    · have hne : fMid ≠ 0 := by
        rintro rfl
        exact hfound (.inl (abs_zero.trans_le hprice))
      exact ⟨_, _, rfl, ⟨hbounds, ⟨hnew, h.brackets.right.later _, mul_nonpos_of_not_neg
        h.fLow_ne_zero h.brackets.changes hne hsign⟩, hne⟩,
        Bracket.interval_subset hmid Set.right_mem_uIcc⟩

theorem exec_solveBisection (hbounds : config.volLowerBound ≤ config.volUpperBound)
    (hprice : 0 ≤ config.priceTolerance) :
    ∃ run evaluated, Effect.exec (solveBisection objective config) [] = (.ok run, evaluated) ∧
      StaysBracketed objective config evaluated run := by
  have hends := config.bounds_ends hbounds
  rw [solveBisection, exec_evaluateObjective_bind, exec_evaluateObjective_bind]
  rcases hlow : objective config.volLowerBound with _ | fLow
  · exact ⟨_, _, rfl, staysBracketed_nil hends justified_failed⟩
  rcases hhigh : objective config.volUpperBound with _ | fHigh
  · exact ⟨_, _, rfl, staysBracketed_nil hends justified_failed⟩
  dsimp only [evaluation]
  split_ifs with hzero hsign
  · refine ⟨_, _, rfl, staysBracketed_nil hends ⟨fun _ => ⟨_, 0, rfl, rfl, ?_, ?_⟩, nofun⟩⟩
    · rw [hlow, hzero]
    · exact abs_zero.trans_le hprice
  · exact ⟨_, _, rfl, staysBracketed_nil hends justified_failed⟩
  · have hstart : BisectionState.Inv objective config
        ([] ++ [config.volLowerBound] ++ [config.volUpperBound])
        ⟨config.volLowerBound, config.volUpperBound, fLow, fHigh, fLow⟩ :=
      ⟨hends, ⟨(evaluated_last hlow).later _, evaluated_last hhigh, not_lt.mp hsign⟩, hzero⟩
    obtain ⟨result, visited, later, hrun, hstays⟩ := exists_loop_staysBracketed
      BisectionState.bracket (BisectionState.Inv objective config)
      (fun _ _ h => ⟨h.bounds, h.brackets⟩)
      (fun iteration _ _ h => exec_bisectionPass hprice h iteration)
      (fun _ => justified_failed) (iterations _) hstart
    exact ⟨_, later, Effect.exec_bind_of_ok hrun, hstays⟩

/-! ### Brent's method -/

namespace BrentState

variable {state : BrentState K} {tol midpoint d : K}

/-- The better of two ends with a change of sign comes second. -/
theorem inv_brentStart {a b fa fb : K} (hbounds : config.Bounds evaluated)
    (ha : Evaluated objective evaluated a fa) (hb : Evaluated objective evaluated b fb)
    (hsign : fa * fb ≤ 0) : (brentStart a b fa fb).Inv objective config evaluated := by
  rw [brentStart]
  split_ifs with hbetter
  · exact ⟨hbounds, hb, ha, hb, fun _ => abs_pos.mp ((abs_nonneg _).trans_lt hbetter),
      fun hpos => absurd hpos (mul_comm fa fb ▸ hsign).not_gt⟩
  · exact ⟨hbounds, ha, hb, ha,
      fun hne => abs_pos.mp ((abs_pos.mpr hne).trans_le (not_lt.mp hbetter)),
      fun hpos => absurd hpos hsign.not_gt⟩

theorem signed_nonneg (step : K × K) : 0 ≤ (signed step).1 := by
  rw [signed]
  split_ifs with hpos
  · exact hpos.le
  · exact neg_nonneg.mpr (not_lt.mp hpos)

/-- Interpolation divides by values that are not zero. -/
theorem Straddles.exists_interpolated (h : state.Straddles objective evaluated)
    (hless : |state.fb| < |state.fc|) (midpoint : K) :
    ∃ step, state.interpolated midpoint = .ok step := by
  have hfc : state.fc ≠ 0 := abs_pos.mp ((abs_nonneg _).trans_lt hless)
  have hfa : state.fa ≠ 0 := left_ne_zero_of_mul h.opposite.ne
  rw [interpolated, divide_eq_ok hfc]
  by_cases hac : state.a = state.c
  · exact ⟨_, if_pos hac⟩
  · rw [divide_eq_ok hfa, divide_eq_ok hfa]
    exact ⟨_, if_neg hac⟩

/-- The step is computed without an error, and it leads toward the other end. -/
theorem Straddles.exists_steps (h : state.Straddles objective evaluated) (tol midpoint : K) :
    ∃ d e, state.steps tol midpoint = .ok (d, e) ∧ Toward midpoint d := by
  rw [steps]
  split_ifs with hinterpolate
  · obtain ⟨step, hstep⟩ := h.exists_interpolated hinterpolate.2 midpoint
    rw [hstep]
    by_cases haccepted : 2.0 * (signed step).1 < min
        (3.0 * midpoint * (signed step).2 - |tol * (signed step).2|) |state.e * (signed step).2|
    · obtain ⟨hq, htoward⟩ :=
        toward_of_accepted (signed_nonneg step) (haccepted.trans_le (min_le_left _ _))
      exact ⟨_, state.d, (if_pos haccepted).trans
        (except_bind_eq_ok.mpr ⟨_, divide_eq_ok hq, rfl⟩), htoward⟩
    · exact ⟨_, _, if_neg haccepted, toward_self midpoint⟩
  · exact ⟨_, _, rfl, toward_self midpoint⟩

theorem toward_copysign (htol : 0 ≤ tol) (h : tol < |midpoint|) :
    Toward midpoint (copysign tol midpoint) := by
  rw [copysign, abs_of_nonneg htol]
  split_ifs with hsign
  · rw [abs_of_nonneg hsign] at h
    exact .inl ⟨htol, by linarith⟩
  · rw [abs_of_neg (not_le.mp hsign)] at h
    exact .inr ⟨by linarith, by linarith⟩

/-- The next point is between the two ends. -/
theorem moved_mem_uIcc (htol : 0 ≤ tol) (hfar : tol < |0.5 * (state.a - state.b)|)
    (h : Toward (0.5 * (state.a - state.b)) d) :
    state.moved tol (0.5 * (state.a - state.b)) d ∈ Set.uIcc state.a state.b := by
  rw [moved]
  split_ifs
  · exact h.add_mem_uIcc
  · exact (toward_copysign htol hfar).add_mem_uIcc

end BrentState

theorem exec_brentPass (hprice : 0 ≤ config.priceTolerance)
    (hvol : 0 ≤ config.volatilityTolerance) {state : BrentState K}
    (h : state.Inv objective config evaluated) (iteration : Int) :
    ∃ pass later, Effect.exec (brentPass objective config iteration state) evaluated =
        (.ok pass, later) ∧
      pass.Meets (fun result => config.Bounds later ∧
          Justified objective config (some state.bracket) result)
        (fun next => next.Inv objective config later ∧
          next.bracket.interval ⊆ state.bracket.interval) := by
  rw [brentPass]
  split_ifs with hfound
  · exact ⟨_, _, rfl, h.bounds, ⟨fun _ => ⟨_, _, rfl, rfl, h.b.2, hfound⟩, nofun⟩⟩
  · have hfb : state.fb ≠ 0 := by
      intro hzero
      exact hfound (hzero ▸ abs_zero.trans_le hprice)
    have hinterval : Set.uIcc state.rebracketed.ordered.a state.rebracketed.ordered.b =
      state.bracket.interval := state.rebracketed.uIcc_ordered
    have hwidth : |state.rebracketed.ordered.b - state.rebracketed.ordered.a| =
      state.bracket.width := state.rebracketed.abs_sub_ordered
    have hroles := (h.rebracketed hfb).ordered
    dsimp only
    generalize state.rebracketed.ordered = roles at hinterval hwidth hroles ⊢
    have hhalf : |0.5 * (roles.a - roles.b)| = 0.5 * state.bracket.width := by
      rw [← hwidth, abs_mul, abs_sub_comm, abs_of_pos (by norm_num)]
    rw [← hinterval]
    split_ifs with hnear
    · rw [hhalf] at hnear
      exact ⟨_, _, rfl, h.bounds, ⟨nofun, fun _ => ⟨_, _, rfl, rfl,
        hinterval ▸ Set.right_mem_uIcc, by linarith⟩⟩⟩
    · obtain ⟨d, e, hsteps, htoward⟩ := hroles.exists_steps
        (0.5 * config.volatilityTolerance) (0.5 * (roles.a - roles.b))
      have hmoved := BrentState.moved_mem_uIcc (by linarith) (not_le.mp hnear) htoward
      have hbounds := h.bounds.append
        (h.bounds.mem_of_mem_uIcc hroles.a.1 hroles.b.1 hmoved)
      rw [Effect.exec_raising_bind, hsteps]
      dsimp only
      rw [exec_evaluateObjective_bind]
      generalize roles.moved (0.5 * config.volatilityTolerance)
        (0.5 * (roles.a - roles.b)) d = b at hmoved hbounds ⊢
      rcases hvalue : objective b with _ | fb
      · exact ⟨_, _, rfl, hbounds, justified_failed⟩
      · exact ⟨_, _, rfl, ⟨hbounds, hroles.a.later _, evaluated_last hvalue, hroles.b.later _,
          fun _ => left_ne_zero_of_mul hroles.opposite.ne, mul_neg_of_pos hroles.opposite⟩,
          BrentState.interval_bracket_subset Set.left_mem_uIcc hmoved Set.right_mem_uIcc⟩

theorem exec_solveBrentHybrid (hbounds : config.volLowerBound ≤ config.volUpperBound)
    (hprice : 0 ≤ config.priceTolerance) (hvol : 0 ≤ config.volatilityTolerance) :
    ∃ run evaluated, Effect.exec (solveBrentHybrid objective config) [] = (.ok run, evaluated) ∧
      StaysBracketed objective config evaluated run := by
  have hends := config.bounds_ends hbounds
  rw [solveBrentHybrid, exec_evaluateObjective_bind, exec_evaluateObjective_bind]
  rcases hlower : objective config.volLowerBound with _ | fa
  · exact ⟨_, _, rfl, staysBracketed_nil hends justified_failed⟩
  rcases hupper : objective config.volUpperBound with _ | fb
  · exact ⟨_, _, rfl, staysBracketed_nil hends justified_failed⟩
  dsimp only [evaluation]
  split_ifs with hsign
  · exact ⟨_, _, rfl, staysBracketed_nil hends justified_failed⟩
  · have hstart := BrentState.inv_brentStart hends ((evaluated_last hlower).later _)
      (evaluated_last hupper) (not_lt.mp hsign)
    obtain ⟨result, visited, later, hrun, hstays⟩ := exists_loop_staysBracketed
      BrentState.bracket (BrentState.Inv objective config)
      (fun _ _ h => ⟨h.bounds, h.brackets⟩)
      (fun iteration _ _ h => exec_brentPass hprice hvol h iteration)
      (fun _ => justified_failed) (iterations _) hstart
    exact ⟨_, later, Effect.exec_bind_of_ok hrun, hstays⟩

/-- Where the bounds are in order and no tolerance is negative, both solvers return without an
error, whatever the objective: they evaluate it within the bounds only, keep a change of sign in
nested intervals, and report a success or an approximation only where it is one. -/
theorem bracketingSolvers_stayBracketed (objective : K → Option K) (config : SolverConfig K)
    (hbounds : config.volLowerBound < config.volUpperBound) (hprice : 0 ≤ config.priceTolerance)
    (hvol : 0 ≤ config.volatilityTolerance) :
    ∀ solve ∈ [solveBisection, solveBrentHybrid], ∃ run evaluated,
      Effect.exec (solve objective config) [] = (.ok run, evaluated) ∧
        StaysBracketed objective config evaluated run := by
  intro solve hsolve
  rcases List.mem_pair.mp hsolve with rfl | rfl
  · exact exec_solveBisection hbounds.le hprice
  · exact exec_solveBrentHybrid hbounds.le hprice hvol

/-- An objective that fails from three on. -/
def squareLessTwo (x : ℚ) : Option ℚ := if x < 3 then some (x * x - 2) else none

def wideConfig : SolverConfig ℚ := { volLowerBound := 0, volUpperBound := 2 }

theorem bracketingSolvers_stayBracketed_root :
    (∃ run evaluated, Effect.exec (solveBisection squareLessTwo wideConfig) [] =
        (.ok run, evaluated) ∧ StaysBracketed squareLessTwo wideConfig evaluated run) ∧
      ∃ run evaluated, Effect.exec (solveBrentHybrid squareLessTwo wideConfig) [] =
        (.ok run, evaluated) ∧ StaysBracketed squareLessTwo wideConfig evaluated run := by
  have htolerance : (0 : ℚ) ≤ 1e-8 := by norm_num
  have hruns := bracketingSolvers_stayBracketed squareLessTwo wideConfig (by decide) htolerance
    htolerance
  exact ⟨hruns _ List.mem_cons_self, hruns _ (List.mem_cons_of_mem _ List.mem_cons_self)⟩

end OptionResearch
