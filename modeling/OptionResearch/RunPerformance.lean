import Mathlib.Analysis.SpecialFunctions.Pow.Real
import OptionResearch.EnginePnl

/-!
# The performance of a run

The figures of `_build_result` in `engine.py` that need roots and powers, and `performance_analytics`
of `analytics.py`. The total return of a run is its last period's, and its growth is compounded over
the time that the run took on the clock. On a curve these are the return and the growth of the
simulated history only under the conditions below; the curve of a run is flat and meets them.
-/

noncomputable section

namespace OptionResearch

namespace EquityCurve

variable (equityCurve : List (DateTime × ℚ)) (returns : List ℚ)

/-- The values at the two ends of a curve. -/
def firstValue : ℚ := (equityCurve.map Prod.snd).headD 0

def lastValue : ℚ := (equityCurve.map Prod.snd).getLastD 0

/-- `(ended_at - started_at).days`. -/
def wholeDays (startedAt endedAt : DateTime) : Int :=
  (endedAt.instant - startedAt.instant) / 86400000000

/-- The years of `_cagr`. -/
def years (startedAt endedAt : DateTime) : ℚ :=
  max (wholeDays startedAt endedAt / (36525 / 100)) (1 / 1000000000)

/-- `_cagr`. -/
def cagr (startedAt endedAt : DateTime) : ℝ :=
  if equityCurve.length < 2 then 0
  else if firstValue equityCurve ≤ 0 ∨ lastValue equityCurve ≤ 0 then 0
  else
    ((lastValue equityCurve / firstValue equityCurve : ℚ) : ℝ) ^
      ((1 / years startedAt endedAt : ℚ) : ℝ) - 1

/-- `_sharpe`. -/
def sharpe : ℝ :=
  if returns.length < 2 then 0
  else
    let average := returns.sum / returns.length
    let variance : ℚ :=
      (returns.map fun item => (item - average) * (item - average)).sum / (returns.length - 1)
    (average : ℝ) / Real.sqrt (max variance (1 / 1000000000000) : ℚ)

/-- `_sortino`; `none` is the source's infinity. -/
def sortino : Option ℝ :=
  let downside := returns.filter (· < 0)
  if returns.length < 2 then some 0
  else if downside = [] then none
  else
    let downsideVariance := (downside.map fun item => item * item).sum / downside.length
    some (((returns.sum / returns.length : ℚ) : ℝ) /
      Real.sqrt (max downsideVariance (1 / 1000000000000) : ℚ))

end EquityCurve

open EquityCurve

/-- A result with the fields that depend on the clock or need real arithmetic. -/
structure TimedResult where
  result : BacktestRunResult
  startedAt : DateTime
  endedAt : DateTime
  cagr : ℝ
  sharpe : ℝ
  sortino : Option ℝ

/-- The rest of `_build_result`, for the times at which the run began and ended. -/
def timedResult (result : BacktestRunResult) (startedAt endedAt : DateTime) : TimedResult where
  result
  startedAt
  endedAt
  cagr := EquityCurve.cagr result.equityCurve startedAt endedAt
  sharpe := EquityCurve.sharpe (EquityCurve.returns result.equityCurve)
  sortino := EquityCurve.sortino (EquityCurve.returns result.equityCurve)

/-! ### Analytics -/

structure DrawdownPoint where
  timestamp : DateTime
  equity : ℚ
  runningPeak : ℚ
  drawdown : ℚ

structure PerformanceAnalytics where
  totalReturn : ℚ
  cagr : ℚ
  annualizedVolatility : ℝ
  sharpe : ℝ
  sortino : ℝ
  calmar : ℚ
  maximumDrawdown : ℚ
  expectedShortfall : ℚ
  downsideDeviation : ℝ
  profitFactor : ℚ
  winRate : ℚ
  averageWinner : ℚ
  averageLoser : ℚ
  payoffRatio : ℚ
  expectancy : ℚ
  capitalUtilization : ℚ

namespace BacktestAnalyticsService

/-- `drawdown_history`, after a running peak, which is absent before the first point. -/
def drawdownHistory (runningPeak : Option ℚ) : List (DateTime × ℚ) → List DrawdownPoint
  | [] => []
  | (timestamp, equity) :: rest =>
    let peak := runningPeak.elim equity (max · equity)
    { timestamp
      equity
      runningPeak := peak
      drawdown := if peak ≤ 0 then 0 else (peak - equity) / peak } ::
      drawdownHistory (some peak) rest

/-- `mean`. -/
def mean (values : List ℚ) : ℚ := values.sum / values.length

def performanceAnalytics (equityCurve : List (DateTime × ℚ)) (returns : List ℚ)
    (capitalUtilization : ℚ) : PerformanceAnalytics :=
  if equityCurve = [] then
    { totalReturn := 0, cagr := 0, annualizedVolatility := 0, sharpe := 0, sortino := 0
      calmar := 0, maximumDrawdown := 0, expectedShortfall := 0, downsideDeviation := 0
      profitFactor := 0, winRate := 0, averageWinner := 0, averageLoser := 0, payoffRatio := 0
      expectancy := 0, capitalUtilization }
  else
    let firstEquity := firstValue equityCurve
    let lastEquity := lastValue equityCurve
    let totalReturn := if firstEquity = 0 then 0 else (lastEquity - firstEquity) / firstEquity
    let maxDrawdown :=
      (((drawdownHistory none equityCurve).map (·.drawdown)).max?).getD 0
    let winners := returns.filter (0 < ·)
    let losers := returns.filter (· < 0)
    let avgWinner := averageOrZero winners
    let avgLoser := averageOrZero losers
    let downsideDeviation : ℝ :=
      if losers = [] then 0 else Real.sqrt (mean (losers.map fun item => item * item))
    let volatility : ℝ :=
      if returns = [] then 0 else Real.sqrt (mean (returns.map fun item => item * item))
    { totalReturn
      cagr := totalReturn
      annualizedVolatility := volatility
      sharpe := if volatility = 0 then 0 else mean returns / volatility
      sortino := if downsideDeviation = 0 then 0 else mean returns / downsideDeviation
      calmar := if maxDrawdown = 0 then 0 else totalReturn / maxDrawdown
      maximumDrawdown := maxDrawdown
      expectedShortfall :=
        if returns = [] then 0 else mean (returns.mergeSort.take (max 1 (returns.length / 20)))
      downsideDeviation
      profitFactor :=
        if losers = [] then 0 else |winners.sum / min (-(1 / 1000000000)) losers.sum|
      winRate := if returns = [] then 0 else winners.length / returns.length
      averageWinner := avgWinner
      averageLoser := avgLoser
      payoffRatio := if avgLoser = 0 then 0 else |avgWinner / avgLoser|
      expectancy := averageOrZero returns
      capitalUtilization }

end BacktestAnalyticsService

/-! ### When the figures are those of the curve -/

namespace EquityCurve

variable {curve initial : List (DateTime × ℚ)} {previous last : DateTime × ℚ}
  {startedAt endedAt : DateTime}

theorem exists_eq_append (hlength : 2 ≤ curve.length) :
    ∃ initial previous last, curve = initial ++ [previous, last] := by
  rcases hreverse : curve.reverse with _ | ⟨last, _ | ⟨previous, rest⟩⟩
  · rw [List.reverse_eq_nil_iff.mp hreverse] at hlength
    exact absurd hlength (by decide)
  · rw [← List.length_reverse, hreverse, List.length_singleton] at hlength
    omega
  · refine ⟨rest.reverse, previous, last, ?_⟩
    rw [← List.reverse_reverse curve, hreverse, List.reverse_cons, List.reverse_cons,
      List.append_assoc]
    rfl

theorem returns_append :
    EquityCurve.returns (initial ++ [previous, last]) =
      EquityCurve.returns (initial ++ [previous]) ++ [stepReturn previous.2 last.2] := by
  induction initial with
  | nil => rfl
  | cons first rest ih =>
    cases rest with
    | nil => rfl
    | cons second tail =>
      change stepReturn first.2 second.2 ::
          EquityCurve.returns (second :: tail ++ [previous, last]) = _
      rw [ih]
      rfl

/-- The last return is the one between the last two points. -/
theorem getLastD_returns :
    (EquityCurve.returns (initial ++ [previous, last])).getLastD 0 =
      stepReturn previous.2 last.2 := by
  rw [returns_append, List.getLastD_eq_getLast?, List.getLast?_concat]
  rfl

theorem lastValue_append : lastValue (initial ++ [previous, last]) = last.2 := by
  rw [lastValue, List.map_append, List.map_cons, List.map_singleton, List.getLastD_eq_getLast?]
  simp

theorem firstValue_pos (hpos : ∀ point ∈ curve, 0 < point.2) (hlength : 2 ≤ curve.length) :
    0 < firstValue curve := by
  cases curve with
  | nil => exact absurd hlength (by decide)
  | cons first rest => exact hpos first List.mem_cons_self

/-- The last return is that of the whole curve where the curve was back at its first value. -/
theorem getLastD_returns_eq_iff (hprevious : 0 < previous.2) (hlast : 0 < last.2)
    (hfirst : 0 < firstValue (initial ++ [previous, last])) :
    (EquityCurve.returns (initial ++ [previous, last])).getLastD 0 =
        last.2 / firstValue (initial ++ [previous, last]) - 1 ↔
      previous.2 = firstValue (initial ++ [previous, last]) := by
  rw [getLastD_returns, stepReturn, if_neg hprevious.ne', sub_left_inj,
    div_eq_div_iff hprevious.ne' hfirst.ne', mul_right_inj' hlast.ne', eq_comm]

theorem years_pos (startedAt endedAt : DateTime) : 0 < years startedAt endedAt :=
  lt_of_lt_of_le (by norm_num) (le_max_right _ _)

/-- Compounded over `D` days the growth is that of the curve where it grew by nothing or the run
took as long. -/
theorem cagr_compounds_iff (hlength : 2 ≤ curve.length) (hfirst : 0 < firstValue curve)
    (hlast : 0 < lastValue curve) {D : ℝ} :
    (1 + cagr curve startedAt endedAt) ^ (D / ((36525 / 100 : ℚ) : ℝ)) =
        ((lastValue curve / firstValue curve : ℚ) : ℝ) ↔
      lastValue curve = firstValue curve ∨
        D / ((36525 / 100 : ℚ) : ℝ) = (years startedAt endedAt : ℝ) := by
  have hgrowth : (0 : ℝ) < ((lastValue curve / firstValue curve : ℚ) : ℝ) :=
    Rat.cast_pos.mpr (div_pos hlast hfirst)
  have hyears : (years startedAt endedAt : ℝ) ≠ 0 :=
    Rat.cast_ne_zero.mpr (years_pos startedAt endedAt).ne'
  have hcast : ((1 / years startedAt endedAt : ℚ) : ℝ) = 1 / (years startedAt endedAt : ℝ) := by
    rw [Rat.cast_div, Rat.cast_one]
  rw [cagr, if_neg (by omega), if_neg (not_or.mpr ⟨not_le.mpr hfirst, not_le.mpr hlast⟩),
    add_sub_cancel, ← Real.rpow_mul hgrowth.le, hcast, one_div_mul_eq_div]
  have hexponent : D / ((36525 / 100 : ℚ) : ℝ) / (years startedAt endedAt : ℝ) = 1 ↔
      D / ((36525 / 100 : ℚ) : ℝ) = (years startedAt endedAt : ℝ) := div_eq_one_iff_eq hyears
  rw [← hexponent]
  by_cases hone : lastValue curve = firstValue curve
  · have hflat : lastValue curve / firstValue curve = 1 := by rw [hone, div_self hfirst.ne']
    rw [hflat, Rat.cast_one, Real.one_rpow]
    exact iff_of_true rfl (.inl hone)
  · have hne : ((lastValue curve / firstValue curve : ℚ) : ℝ) ≠ 1 := by
      intro h
      exact hone ((div_eq_one_iff_eq hfirst.ne').mp (Rat.cast_injective (h.trans Rat.cast_one.symm)))
    rw [or_iff_right hone]
    nth_rewrite 2 [← Real.rpow_one ((lastValue curve / firstValue curve : ℚ) : ℝ)]
    exact Real.rpow_right_inj hgrowth hne

theorem Flat.ends {c : ℚ} (h : Flat (initial ++ [previous, last]) c) :
    firstValue (initial ++ [previous, last]) = c ∧ previous.2 = c ∧ last.2 = c := by
  refine ⟨?_, h previous (by simp), h last (by simp)⟩
  cases initial with
  | nil => exact h previous (by simp)
  | cons first rest => exact h first List.mem_cons_self

end EquityCurve

/-! ### The performance of a run -/

namespace BacktestingEngine

open Effect

variable {σ : Type} {engine : BacktestingEngine} {strategy : StrategyObject σ}
  {configuration : BacktestConfiguration} {lookup : Option (InformationLookup σ)}

/-- The figures of a result. -/
def figures (timed : TimedResult) :
    ((ℚ × ℝ) × ℝ × Option ℝ × ℚ × ℚ) × (ℚ × Option ℚ × ℚ × ℚ) × ℚ × ℚ :=
  (((timed.result.totalReturn, timed.cagr), timed.sharpe, timed.sortino,
      timed.result.maximumDrawdown, timed.result.expectedShortfall),
    (timed.result.winRate, timed.result.profitFactor, timed.result.averageWinner,
      timed.result.averageLoser),
    timed.result.timeUnderWaterDays, timed.result.capitalUtilization)

/-- The days between the first and the last point of a curve. -/
def curveDays (equityCurve : List (DateTime × ℚ)) : ℝ :=
  (((((equityCurve.map Prod.fst).getLastD ⟨0, none⟩).instant -
    ((equityCurve.map Prod.fst).headD ⟨0, none⟩).instant : Int) / 86400000000 : ℚ) : ℝ)

theorem performance_of_run {events : List DeterministicEvent} {env e' : σ}
    {result : BacktestRunResult} {s : BacktestEngineState}
    (hrun : exec (engine.run strategy configuration lookup events)
      (initialState configuration, env) = (.ok result, (s, e')))
    (hlength : 2 ≤ result.equityCurve.length) (hpos : ∀ point ∈ result.equityCurve, 0 < point.2)
    (startedAt endedAt : DateTime) :
    result.totalReturn = lastValue result.equityCurve / firstValue result.equityCurve - 1 ∧
    (∀ returns utilization, (BacktestAnalyticsService.performanceAnalytics result.equityCurve
      returns utilization).totalReturn = result.totalReturn) ∧
    (0 < curveDays result.equityCurve →
      (1 + (timedResult result startedAt endedAt).cagr) ^
          (curveDays result.equityCurve / ((36525 / 100 : ℚ) : ℝ)) =
        ((lastValue result.equityCurve / firstValue result.equityCurve : ℚ) : ℝ)) ∧
    ∀ startedAt' endedAt',
      figures (timedResult result startedAt' endedAt') =
        figures (timedResult result startedAt endedAt) := by
  have hreturn : result.totalReturn = (EquityCurve.returns result.equityCurve).getLastD 0 := by
    obtain ⟨_, _, _, hbuild⟩ := exec_run_ok engine strategy configuration lookup hrun
    unfold buildResult at hbuild
    obtain ⟨_, _, hbuild⟩ := except_bind_eq_ok.mp hbuild
    cases hbuild
    rfl
  have hfirst := firstValue_pos hpos hlength
  -- the curve of a run is flat, and so it is back at its first value where it ends
  obtain ⟨hprevious, hlast⟩ : (EquityCurve.returns result.equityCurve).getLastD 0 =
        lastValue result.equityCurve / firstValue result.equityCurve - 1 ∧
      lastValue result.equityCurve = firstValue result.equityCurve := by
    have hflat := flat_equityCurve hrun
    obtain ⟨initial, previous, last, hcurve⟩ := exists_eq_append hlength
    rw [hcurve] at hpos hflat hfirst ⊢
    obtain ⟨hc, hprevious, hlast⟩ := hflat.ends
    rw [lastValue_append]
    exact ⟨(getLastD_returns_eq_iff (hpos previous (by simp)) (hpos last (by simp)) hfirst).mpr
      (hprevious.trans hc.symm), hlast.trans hc.symm⟩
  have hcompounds : ∀ startedAt endedAt D,
      (1 + EquityCurve.cagr result.equityCurve startedAt endedAt) ^ (D / ((36525 / 100 : ℚ) : ℝ)) =
        ((lastValue result.equityCurve / firstValue result.equityCurve : ℚ) : ℝ) := by
    intro startedAt endedAt D
    exact (cagr_compounds_iff hlength hfirst (hlast ▸ hfirst)).mpr (.inl hlast)
  refine ⟨hreturn.trans hprevious, ?_, fun _ => hcompounds startedAt endedAt _, ?_⟩
  · intro returns utilization
    have hne : result.equityCurve ≠ [] := fun h => by
      rw [h] at hlength
      exact absurd hlength (by decide)
    rw [BacktestAnalyticsService.performanceAnalytics, if_neg hne, hreturn, hprevious]
    simp only [if_neg hfirst.ne', sub_div, div_self hfirst.ne']
  · intro startedAt' endedAt'
    have hcagr : ∀ startedAt endedAt, EquityCurve.cagr result.equityCurve startedAt endedAt = 0 := by
      intro startedAt endedAt
      have hgrowth : lastValue result.equityCurve / firstValue result.equityCurve = 1 := by
        rw [hlast, div_self hfirst.ne']
      rw [EquityCurve.cagr, if_neg (by omega),
        if_neg (not_or.mpr ⟨not_le.mpr hfirst, not_le.mpr (hlast ▸ hfirst)⟩), hgrowth,
        Rat.cast_one, Real.one_rpow, sub_self]
    rw [figures, figures, timedResult, timedResult, hcagr, hcagr]

/-- Two valuations of a strategy that trades nothing, a second apart. -/
theorem performance_of_run_twoValuations : ∃ result s,
    exec (researchEngine.run (scalpingStrategy 0).toObject researchConfiguration none
      [eventAt .valuation 1, eventAt .valuation 2]) (initialState researchConfiguration, ()) =
        (.ok result, (s, ())) ∧
    0 < curveDays result.equityCurve ∧
    (1 + (timedResult result ⟨0, some 0⟩ ⟨86400000000, some 0⟩).cagr) ^
        (curveDays result.equityCurve / ((36525 / 100 : ℚ) : ℝ)) =
      ((lastValue result.equityCurve / firstValue result.equityCurve : ℚ) : ℝ) := by
  have hcurve : (exec (researchEngine.run (scalpingStrategy 0).toObject researchConfiguration none
      [eventAt .valuation 1, eventAt .valuation 2])
      (initialState researchConfiguration, ())).1.toOption.map
        (fun result => result.equityCurve.map Prod.fst) =
      some [⟨1000000, some 0⟩, ⟨2000000, some 0⟩] := by
    decide +kernel
  rcases hrun : exec (researchEngine.run (scalpingStrategy 0).toObject researchConfiguration none
      [eventAt .valuation 1, eventAt .valuation 2]) (initialState researchConfiguration, ()) with
    ⟨x | result, s, ⟨⟩⟩
  · rw [hrun] at hcurve
    cases hcurve
  rw [hrun] at hcurve
  replace hcurve : result.equityCurve.map Prod.fst = [⟨1000000, some 0⟩, ⟨2000000, some 0⟩] :=
    Option.some_inj.mp hcurve
  have hlength : 2 ≤ result.equityCurve.length := by
    rw [← List.length_map Prod.fst, hcurve]
    rfl
  have hpos : ∀ point ∈ result.equityCurve, 0 < point.2 := by
    intro point hpoint
    rw [flat_equityCurve hrun point hpoint]
    decide +kernel
  have hdays : 0 < curveDays result.equityCurve := by
    rw [curveDays, hcurve]
    exact Rat.cast_pos.mpr (by decide +kernel)
  have hperformance :=
    performance_of_run hrun hlength hpos ⟨0, some 0⟩ ⟨86400000000, some 0⟩
  exact ⟨result, s, rfl, hdays, hperformance.2.2.1 hdays⟩

end BacktestingEngine

end OptionResearch

end
