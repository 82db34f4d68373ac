import Mathlib.Analysis.SpecialFunctions.Log.Basic
import OptionResearch.ModelSimulation

/-!
# Calendar time of a simulated path

The log spot of `ModelProbabilityEngine` grows by the number of monitored days, not by the days of
the calendar between them.
-/

namespace OptionResearch.ModelProbabilityEngine

open Finset

/-- The `math` module on the reals, with a quantile function of the normal distribution. -/
noncomputable def realSimulation (invCdf : ℝ → Except Exc ℝ) : SimulationMath ℝ where
  exp := Real.exp
  sqrt := Real.sqrt
  invCdf

/-- On each scheduled day the log spot has drifted for the days of the calendar, and is a sum of the
draws whose variance is that time. -/
def FollowsCalendar (invCdf : ℝ → Except Exc ℝ) (config : ModelSimulationConfig ℝ) : Prop :=
  ∀ (k : ℕ) (day : Int), config.schedule[k]? = some day →
    ∃ weights : ℕ → ℝ, ∑ i ∈ range (k + 1), weights i ^ 2 = (day : ℝ) / 365.0 ∧
      ∀ draws : ℕ → ℝ, ∃ point,
        (path (realSimulation invCdf) config draws)[k]? = some point ∧ point.day = day ∧
        Real.log point.spot = Real.log config.initialSpot +
          (config.drift - 0.5 * config.baseVolatility ^ 2) * ((day : ℝ) / 365.0) +
          config.baseVolatility * ∑ i ∈ range (k + 1), weights i * draws i

variable {invCdf : ℝ → Except Exc ℝ} {config : ModelSimulationConfig ℝ} {days : List Int}
  {day : Int} {draws : ℕ → ℝ} {spot : ℝ} {k : ℕ}

theorem termVol_of_constant (hconstant : config.volatilityTermStructure = none) (day : Int) :
    config.termVol day = config.baseVolatility := by
  rw [ModelSimulationConfig.termVol, hconstant]

theorem yearDays_eq : (365.0 : ℝ) = 365 := by norm_num

theorem half_eq : (0.5 : ℝ) = 1 / 2 := by norm_num

theorem advance_pos (hspot : 0 < spot) (shock : ℝ) :
    0 < advance (realSimulation invCdf) config day shock spot :=
  mul_pos hspot (Real.exp_pos _)

theorem log_advance (hconstant : config.volatilityTermStructure = none) (hspot : 0 < spot)
    (shock : ℝ) :
    Real.log (advance (realSimulation invCdf) config day shock spot) = Real.log spot +
      (config.drift - config.baseVolatility ^ 2 / 2) / 365 +
      config.baseVolatility * √(1 / 365) * shock := by
  rw [advance, termVol_of_constant hconstant]
  dsimp only [realSimulation]
  rw [Real.log_mul hspot.ne' (Real.exp_ne_zero _), Real.log_exp, yearDays_eq, half_eq]
  ring

/-- Each scheduled day adds a day of time. -/
theorem walk_spec (hconstant : config.volatilityTermStructure = none)
    (hdays : ∀ day ∈ days, day ≤ config.horizonDays) (hspot : 0 < spot)
    (hday : days[k]? = some day) :
    ∃ point, (walk (realSimulation invCdf) config draws spot days)[k]? = some point ∧
      point.day = day ∧
      Real.log point.spot = Real.log spot +
        (config.drift - config.baseVolatility ^ 2 / 2) * ((k + 1 : ℕ) / 365) +
        config.baseVolatility * √(1 / 365) * ∑ i ∈ range (k + 1), draws i := by
  induction days generalizing k draws spot with
  | nil => cases hday
  | cons first rest ih =>
    rw [walk, if_neg (hdays first List.mem_cons_self).not_gt]
    cases k with
    | zero =>
      obtain rfl := Option.some.inj hday
      refine ⟨_, rfl, rfl, ?_⟩
      rw [log_advance hconstant hspot, sum_range_one]
      push_cast
      ring
    | succ k =>
      obtain ⟨point, hpoint, hsame, hlog⟩ := @ih (fun n => draws (n + 1))
        (advance (realSimulation invCdf) config first (draws 0) spot) k
        (fun day hmem => hdays day (List.mem_cons_of_mem _ hmem)) (advance_pos hspot _) hday
      refine ⟨point, hpoint, hsame, ?_⟩
      rw [hlog, log_advance hconstant hspot, sum_range_succ' _ (k + 1)]
      push_cast
      ring

theorem schedule_le (hdays : ∀ day ∈ config.monitoringDays, day ≤ config.horizonDays) :
    ∀ day ∈ config.schedule, day ≤ config.horizonDays := by
  rw [ModelSimulationConfig.schedule]
  split_ifs
  · intro day hday
    obtain ⟨n, hn, rfl⟩ := List.mem_map.mp hday
    have hlt := List.mem_range.mp hn
    omega
  · exact hdays

theorem schedule_pos (hpos : ∀ day ∈ config.monitoringDays, 0 < day) :
    ∀ day ∈ config.schedule, 0 < day := by
  rw [ModelSimulationConfig.schedule]
  split_ifs
  · intro day hday
    obtain ⟨n, -, rfl⟩ := List.mem_map.mp hday
    omega
  · exact hpos

/-- The time that the loop gives to a day, against the time of the calendar. -/
theorem followsCalendar_iff_law (hspot : 0 < config.initialSpot)
    (hconstant : config.volatilityTermStructure = none)
    (hdays : ∀ day ∈ config.monitoringDays, day ≤ config.horizonDays) :
    FollowsCalendar invCdf config ↔
      ∀ (k : ℕ) (day : Int), config.schedule[k]? = some day →
        ∃ weights : ℕ → ℝ, ∑ i ∈ range (k + 1), weights i ^ 2 = (day : ℝ) / 365 ∧
          ∀ draws : ℕ → ℝ,
            (config.drift - config.baseVolatility ^ 2 / 2) * ((k + 1 : ℕ) / 365) +
                config.baseVolatility * √(1 / 365) * ∑ i ∈ range (k + 1), draws i =
              (config.drift - config.baseVolatility ^ 2 / 2) * ((day : ℝ) / 365) +
                config.baseVolatility * ∑ i ∈ range (k + 1), weights i * draws i := by
  simp only [FollowsCalendar, yearDays_eq, half_eq]
  refine forall₂_congr fun k day => forall_congr' fun hday => exists_congr fun weights =>
    and_congr_right fun _ => forall_congr' fun draws => ?_
  obtain ⟨point, hpoint, hsame, hlog⟩ :=
    @walk_spec invCdf config _ day draws _ k hconstant (schedule_le hdays) hspot hday
  constructor
  · rintro ⟨other, hother, -, hlaw⟩
    obtain rfl := Option.some.inj (hpoint.symm.trans hother)
    linarith
  · intro hlaw
    exact ⟨point, hpoint, hsame, by linarith⟩

/-- With volatility, the draws have the weights that the loop gives them. -/
theorem eq_of_law {weights : ℕ → ℝ} {drift volatility time : ℝ} (hvolatility : volatility ≠ 0)
    (hsquares : ∑ i ∈ range (k + 1), weights i ^ 2 = time)
    (hlaw : ∀ draws : ℕ → ℝ,
      drift * ((k + 1 : ℕ) / 365) + volatility * √(1 / 365) * ∑ i ∈ range (k + 1), draws i =
        drift * time + volatility * ∑ i ∈ range (k + 1), weights i * draws i) :
    time = (k + 1 : ℕ) / 365 := by
  have hstill := hlaw 0
  simp only [Pi.zero_apply, mul_zero, sum_const_zero, add_zero] at hstill
  have hweight : ∀ i ∈ range (k + 1), weights i ^ 2 = 1 / 365 := by
    intro i hi
    have hsingle := hlaw (Pi.single i 1)
    rw [sum_eq_single_of_mem i hi fun j _ hne => Pi.single_eq_of_ne hne 1,
      sum_eq_single_of_mem i hi fun j _ hne => by rw [Pi.single_eq_of_ne hne, mul_zero],
      Pi.single_eq_same, hstill] at hsingle
    have hweight : weights i = √(1 / 365) := by
      apply mul_left_cancel₀ hvolatility
      linarith
    rw [hweight, Real.sq_sqrt (by norm_num)]
  rw [← hsquares, sum_congr rfl hweight, sum_const, card_range, nsmul_eq_mul]
  ring

/-- The claim holds where every day is scheduled, and where nothing moves. -/
theorem followsCalendar_iff (hspot : 0 < config.initialSpot)
    (hconstant : config.volatilityTermStructure = none)
    (hdays : ∀ day ∈ config.monitoringDays, 0 < day ∧ day ≤ config.horizonDays) :
    FollowsCalendar invCdf config ↔
      (∀ (k : ℕ) (day : Int), config.schedule[k]? = some day → day = k + 1) ∨
        config.baseVolatility = 0 ∧ config.drift = 0 := by
  rw [followsCalendar_iff_law hspot hconstant fun day hday => (hdays day hday).2]
  constructor
  · intro hlaw
    refine or_iff_not_imp_right.mpr fun hmoves k day hday => ?_
    obtain ⟨weights, hsquares, hlaw⟩ := hlaw k day hday
    have htime : (day : ℝ) / 365 = (k + 1 : ℕ) / 365 := by
      by_cases hvolatility : config.baseVolatility = 0
      · have hdrift : config.drift ≠ 0 := fun hzero => hmoves ⟨hvolatility, hzero⟩
        have hstill := hlaw 0
        rw [hvolatility] at hstill
        apply mul_left_cancel₀ hdrift
        linarith
      · exact eq_of_law hvolatility hsquares hlaw
    have hcast : ((day : Int) : ℝ) = ((k + 1 : ℕ) : ℝ) := by linarith
    exact_mod_cast hcast
  · rintro (hdaily | ⟨hvolatility, hdrift⟩) k day hday
    · obtain rfl := hdaily k day hday
      refine ⟨fun _ => √(1 / 365), ?_, fun draws => ?_⟩
      · rw [sum_const, card_range, nsmul_eq_mul, Real.sq_sqrt (by norm_num)]
        push_cast
        ring
      · rw [← mul_sum]
        push_cast
        ring
    · have hpos : (0 : ℝ) < day := by
        have hpos := schedule_pos (fun day hday => (hdays day hday).1) day
          (List.mem_of_getElem? hday)
        exact_mod_cast hpos
      refine ⟨fun _ => √((day : ℝ) / 365 / (k + 1 : ℕ)), ?_, fun draws => ?_⟩
      · rw [sum_const, card_range, nsmul_eq_mul, Real.sq_sqrt (by positivity)]
        field_simp
      · rw [hvolatility, hdrift]
        ring

/-- A tenth of drift and a fifth of volatility. -/
noncomputable def simulation (monitoringDays : List Int) : ModelSimulationConfig ℝ where
  drift := 0.1
  baseVolatility := 0.2
  riskFreeRate := 0.03
  dividendYield := 0
  initialSpot := 100.0
  targetProfit := 1
  lossThreshold := 1
  monitoringDays

theorem initialSpot_pos (monitoringDays : List Int) : 0 < (simulation monitoringDays).initialSpot :=
  (by norm_num : (0 : ℝ) < 100.0)

/-- The first three days. -/
theorem followsCalendar_iff_daily : FollowsCalendar (fun _ => .ok 0) (simulation [1, 2, 3]) := by
  refine (followsCalendar_iff (initialSpot_pos _) rfl ?_).mpr (.inl ?_)
  · change ∀ day ∈ ([1, 2, 3] : List Int), 0 < day ∧ day ≤ 30
    decide
  · change ∀ (k : ℕ) (day : Int), ([1, 2, 3] : List Int)[k]? = some day → day = k + 1
    rintro (_ | _ | _ | k) day hday <;> cases hday <;> rfl

/-- After thirty days the log spot has drifted for one. -/
theorem month_drifts_for_day : ¬ FollowsCalendar (fun _ => .ok 0) (simulation [30]) := by
  intro h
  have hdays : ∀ day ∈ (simulation [30]).monitoringDays, day ≤ (simulation [30]).horizonDays := by
    change ∀ day ∈ ([30] : List Int), day ≤ 30
    decide
  obtain ⟨weights, hsquares, hlaw⟩ :=
    (followsCalendar_iff_law (initialSpot_pos _) rfl hdays).mp h 0 30 rfl
  have hvolatility : (simulation [30]).baseVolatility ≠ 0 := (by norm_num : (0.2 : ℝ) ≠ 0)
  have htime := eq_of_law hvolatility hsquares hlaw
  norm_num at htime

end OptionResearch.ModelProbabilityEngine
