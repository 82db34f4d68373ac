import OptionResearch.PythonValues
import Mathlib.Algebra.BigOperators.Group.List.Basic

/-!
# Performance figures read off an equity curve

The module functions of `engine.py` that summarise the equity curve. Those that need a square
root or a real power (`_sharpe`, `_sortino`, `_cagr`) are not part of the exact arithmetic.
-/

namespace OptionResearch.EquityCurve

/-- One step return; a step from zero counts as flat. -/
def stepReturn (previous current : ℚ) : ℚ :=
  if previous = 0 then 0 else current / previous - 1

/-- `_returns`. -/
def returns (equityCurve : List (DateTime × ℚ)) : List ℚ :=
  let values := equityCurve.map Prod.snd
  List.zipWith stepReturn values values.tail

/-- One step of the drawdown scan: the running peak (absent before the first point) and the worst
drawdown so far. -/
def drawdownStep (acc : Option ℚ × ℚ) (value : ℚ) : Option ℚ × ℚ :=
  let peak := acc.1.elim value (max · value)
  if peak ≤ 0 then (some peak, acc.2) else (some peak, max acc.2 ((peak - value) / peak))

/-- `_max_drawdown`. -/
def maxDrawdown (equityCurve : List (DateTime × ℚ)) : ℚ :=
  ((equityCurve.map Prod.snd).foldl drawdownStep (none, 0)).2

/-- `_expected_shortfall` at its default level of five percent. -/
def expectedShortfall (returns : List ℚ) : ℚ :=
  if returns = [] then 0
  else
    let ordered := returns.mergeSort
    let tail := ordered.take (max 1 (ordered.length / 20));
    -tail.sum / tail.length

/-- The days between two timestamps; subtracting a naive from an aware one raises. -/
def daysBetween (previous timestamp : DateTime) : Except Exc ℚ :=
  if previous.utcoffset.isSome = timestamp.utcoffset.isSome then
    .ok ((timestamp.instant - previous.instant : Int) / 86400000000)
  else .error ⟨.typeError, "can't subtract offset-naive and offset-aware datetimes"⟩

/-- The scan of `_time_under_water` from a given peak and previous timestamp. -/
def underWaterFrom (peak : ℚ) (previous : DateTime) : List (DateTime × ℚ) → Except Exc ℚ
  | [] => .ok 0
  | (timestamp, equity) :: rest => do
    let days ← if max peak equity ≤ equity then pure 0 else daysBetween previous timestamp
    return max 0 days + (← underWaterFrom (max peak equity) timestamp rest)

/-- `_time_under_water`. -/
def timeUnderWater : List (DateTime × ℚ) → Except Exc ℚ
  | [] => .ok 0
  | (timestamp, equity) :: rest => underWaterFrom equity timestamp rest

/-- The average of a list, zero when it is empty. -/
def averageOrZero (values : List ℚ) : ℚ := if values = [] then 0 else values.sum / values.length

/-! ### A flat curve -/

variable {curve : List (DateTime × ℚ)} {c : ℚ}

/-- Every point of the curve is worth `c`. -/
def Flat (curve : List (DateTime × ℚ)) (c : ℚ) : Prop := ∀ point ∈ curve, point.2 = c

theorem Flat.values (h : Flat curve c) : curve.map Prod.snd = List.replicate curve.length c := by
  rw [List.eq_replicate_iff]
  refine ⟨List.length_map .., fun value hvalue => ?_⟩
  obtain ⟨point, hpoint, rfl⟩ := List.mem_map.mp hvalue
  exact h point hpoint

theorem Flat.returns (h : Flat curve c) : ∀ r ∈ returns curve, r = 0 := by
  intro r hr
  simp only [EquityCurve.returns, h.values, List.tail_replicate, List.zipWith_replicate,
    List.mem_replicate] at hr
  rw [hr.2, stepReturn]
  by_cases hc : c = 0
  · rw [if_pos hc]
  · rw [if_neg hc, div_self hc, sub_self]

/-- At its peak a curve is not drawn down. -/
theorem drawdownStep_peak {peak : Option ℚ} (hpeak : peak.elim c (max · c) = c) :
    drawdownStep (peak, 0) c = (some c, 0) := by
  unfold drawdownStep
  simp only [hpeak, sub_self, zero_div, max_self]
  exact ite_self _

theorem Flat.maxDrawdown (h : Flat curve c) : maxDrawdown curve = 0 := by
  have hscan : ∀ (n : ℕ) (peak : Option ℚ), peak.elim c (max · c) = c →
      ((List.replicate n c).foldl drawdownStep (peak, 0)).2 = 0 := by
    intro n
    induction n with
    | zero => exact fun _ _ => rfl
    | succ n ih =>
      intro peak hpeak
      rw [List.replicate_succ, List.foldl_cons, drawdownStep_peak hpeak]
      exact ih (some c) (max_self c)
  rw [EquityCurve.maxDrawdown, h.values]
  exact hscan _ none rfl

end OptionResearch.EquityCurve
