import OptionResearch.RoundedNumbers
import OptionResearch.PiecewiseLinear
import OptionResearch.StrategyPayoffs

/-!
# The extremes of a payoff

Between strikes the payoff of `StrategyPayoffAnalyzer` is a line. A grid that holds the strikes
bounds it, and where the payoff is constant beyond some price, the extremes on the grid are those
over all prices.
-/

namespace OptionResearch.StrategyLibrary

open OptionPayoff (intrinsic)
open PiecewiseLinear

variable {selectedLegs : List StrategySelectedLeg} {round8 : ℚ → ℚ} {priceGrid : List ℚ} {a b : ℚ}

theorem StrategySelectedLeg.linearOn_payoff {leg : StrategySelectedLeg}
    (h : leg.isOption = true → leg.strike.getD 0 ∉ Set.Ioo a b) : LinearOn leg.payoff a b := by
  unfold StrategySelectedLeg.payoff
  unfold StrategySelectedLeg.isOption at h
  cases hkind : leg.legKind with
  | call =>
      rw [hkind] at h
      exact ((linearOn_max_sub (h rfl)).sub_const _).const_mul _
  | put =>
      rw [hkind] at h
      exact ((linearOn_max_const_sub (h rfl)).sub_const _).const_mul _
  | stock => exact (linearOn_sub_const _ a b).const_mul _
  | cash => exact linearOn_const _ a b

/-- Between strikes the payoff is a line; a missing strike counts as zero. -/
theorem linearOn_payoffAtPrice
    (h : ∀ leg ∈ selectedLegs, leg.isOption = true → leg.strike.getD 0 ∉ Set.Ioo a b) :
    LinearOn (payoffAtPrice selectedLegs) a b :=
  linearOn_sum fun leg hleg => leg.linearOn_payoff (h leg hleg)

/-- A grid of prices with zero, every strike and a price above the highest one. -/
structure CoversStrikes (selectedLegs : List StrategySelectedLeg) (highest : ℚ)
    (priceGrid : List ℚ) : Prop where
  nonneg : ∀ price ∈ priceGrid, 0 ≤ price
  zero : 0 ∈ priceGrid
  strikes : ∀ leg ∈ selectedLegs, leg.isOption = true → ∀ strike ∈ leg.strike, strike ∈ priceGrid
  above : ∃ price ∈ priceGrid, highest < price

/-- The payoff at a price is bounded by payoffs at prices of the grid. -/
theorem CoversStrikes.exists_bounds {highest : ℚ}
    (h : CoversStrikes selectedLegs highest priceGrid)
    (hconstant : ∀ price later, highest < price → highest < later →
      payoffAtPrice selectedLegs price = payoffAtPrice selectedLegs later)
    {price : ℚ} (hprice : 0 ≤ price) :
    (∃ least ∈ priceGrid, payoffAtPrice selectedLegs least ≤ payoffAtPrice selectedLegs price) ∧
      ∃ most ∈ priceGrid, payoffAtPrice selectedLegs price ≤ payoffAtPrice selectedLegs most := by
  obtain ⟨above, habove, hhighest⟩ := h.above
  rcases le_or_gt price above with hle | hgt
  · refine PiecewiseLinear.exists_bounds (fun a _ b _ hempty => ?_) h.zero habove hprice hle
    refine linearOn_payoffAtPrice fun leg hleg hoption => hempty _ ?_
    rcases hstrike : leg.strike with _ | strike
    · exact h.zero
    · exact h.strikes leg hleg hoption strike hstrike
  · have hsame := hconstant price above (hhighest.trans hgt) hhighest
    exact ⟨⟨above, habove, hsame.ge⟩, above, habove, hsame.le⟩

theorem abs_min_zero (loss : ℚ) : |min 0 loss| = max 0 (-loss) := by
  rw [abs_of_nonpos (min_le_left 0 loss)]
  rcases le_total 0 loss with h | h
  · rw [min_eq_left h, neg_zero, max_eq_left (neg_nonpos.mpr h)]
  · rw [min_eq_right h, max_eq_right (neg_nonneg.mpr h)]

/-- The payoffs of the points, where rounding leaves them as they are. -/
theorem mem_payoffs_iff (hexact : ∀ price ∈ priceGrid,
      round8 (payoffAtPrice selectedLegs price) = payoffAtPrice selectedLegs price) {value : ℚ} :
    value ∈ (payoffPoints selectedLegs round8 priceGrid).map (·.payoff) ↔
      ∃ price ∈ priceGrid, payoffAtPrice selectedLegs price = value := by
  unfold payoffPoints
  simp only [List.map_map, List.mem_map, StableSort.mem_sortBy, Function.comp_apply]
  refine exists_congr fun price => and_congr_right fun hprice => ?_
  rw [hexact price hprice]

theorem summarize_extremes (template : StrategyTemplate) {highest : ℚ} (hlegs : selectedLegs ≠ [])
    (hgrid : CoversStrikes selectedLegs highest priceGrid)
    (hconstant : ∀ price later, highest < price → highest < later →
      payoffAtPrice selectedLegs price = payoffAtPrice selectedLegs later)
    (hexact : ∀ price ∈ priceGrid,
      round8 (payoffAtPrice selectedLegs price) = payoffAtPrice selectedLegs price)
    (hwithin : ∀ price ∈ priceGrid, |payoffAtPrice selectedLegs price| ≤ 1e9) :
    let summary := summarize selectedLegs round8 template priceGrid
    ∃ profit loss : ℚ, summary.maximumProfit = some profit ∧
      summary.maximumLoss = some (loss : WithBot ℚ) ∧
      IsLUB (payoffAtPrice selectedLegs '' Set.Ici 0) profit ∧
      IsGLB (payoffAtPrice selectedLegs '' Set.Ici 0) loss ∧
      summary.capitalAtRisk = some ((max 0 (-loss) : ℚ) : WithTop ℚ) := by
  intro summary
  have hpayoffs := @mem_payoffs_iff selectedLegs round8 priceGrid hexact
  have hnonempty : (payoffPoints selectedLegs round8 priceGrid).map (·.payoff) ≠ [] :=
    List.ne_nil_of_mem (hpayoffs.mpr ⟨0, hgrid.zero, rfl⟩)
  obtain ⟨profit, hprofit⟩ := Option.isSome_iff_exists.mp (List.isSome_max?_iff.mpr hnonempty)
  obtain ⟨loss, hloss⟩ := Option.isSome_iff_exists.mp (List.isSome_min?_iff.mpr hnonempty)
  obtain ⟨hprofitMem, hgreatest⟩ := List.max?_eq_some_iff.mp hprofit
  obtain ⟨hlossMem, hleast⟩ := List.min?_eq_some_iff.mp hloss
  obtain ⟨best, hbest, rfl⟩ := hpayoffs.mp hprofitMem
  obtain ⟨worst, hworst, rfl⟩ := hpayoffs.mp hlossMem
  have hbounded : ¬ (1e9 : ℚ) < payoffAtPrice selectedLegs best :=
    not_lt.mpr ((le_abs_self _).trans (hwithin best hbest))
  have hbounded' : ¬ payoffAtPrice selectedLegs worst < -1e9 :=
    not_lt.mpr (neg_le_of_abs_le (hwithin worst hworst))
  have hisEmpty : selectedLegs.isEmpty = false := by
    rw [List.isEmpty_eq_false_iff]
    exact hlegs
  refine ⟨payoffAtPrice selectedLegs best, payoffAtPrice selectedLegs worst, ?_, ?_, ?_, ?_, ?_⟩
  · simp only [summary, summarize, hisEmpty, hprofit, Option.any_some, hbounded, decide_false,
      Bool.false_eq_true, if_false]
  · simp only [summary, summarize, hisEmpty, hprofit, hloss, Option.any_some, hbounded, hbounded',
      decide_false, Bool.false_eq_true, if_false, Option.map_some]
  · refine IsGreatest.isLUB ⟨⟨best, hgrid.nonneg best hbest, rfl⟩, ?_⟩
    rintro _ ⟨price, hprice, rfl⟩
    obtain ⟨-, most, hmost, hle⟩ := hgrid.exists_bounds hconstant hprice
    exact hle.trans (hgreatest _ (hpayoffs.mpr ⟨most, hmost, rfl⟩))
  · refine IsLeast.isGLB ⟨⟨worst, hgrid.nonneg worst hworst, rfl⟩, ?_⟩
    rintro _ ⟨price, hprice, rfl⟩
    obtain ⟨⟨least, hmem, hle⟩, -⟩ := hgrid.exists_bounds hconstant hprice
    exact (hleast _ (hpayoffs.mpr ⟨least, hmem, rfl⟩)).trans hle
  · rw [← abs_min_zero]
    simp only [summary, summarize, hisEmpty, hloss, hbounded', Bool.false_eq_true, if_false,
      Option.map_some]

/-- A put at ten that is bought for nothing. -/
def putAtTen : StrategySelectedLeg where
  legKind := .put
  direction := .buy
  quantity := 1
  strike := some 10
  premium := none
  multiplier := 1

theorem payoff_putAtTen (price : ℚ) : payoffAtPrice [putAtTen] price = max 0 (10 - price) := by
  simp [payoffAtPrice, StrategySelectedLeg.payoff, StrategySelectedLeg.sign,
    StrategySelectedLeg.mult, putAtTen, intrinsic, OptionPayoff.exerciseValue]

theorem payoff_putAtTen_of_lt {price : ℚ} (h : 10 < price) :
    payoffAtPrice [putAtTen] price = 0 := by
  rw [payoff_putAtTen, max_eq_left (sub_nonpos.mpr h.le)]

theorem summarize_extremes_putAtTen :
    let summary := summarize [putAtTen] (fun value => roundTo value 8) longPut [11, 0, 10]
    ∃ profit loss : ℚ, summary.maximumProfit = some profit ∧
      summary.maximumLoss = some (loss : WithBot ℚ) ∧
      IsLUB (payoffAtPrice [putAtTen] '' Set.Ici 0) profit ∧
      IsGLB (payoffAtPrice [putAtTen] '' Set.Ici 0) loss ∧
      summary.capitalAtRisk = some ((max 0 (-loss) : ℚ) : WithTop ℚ) :=
  @summarize_extremes [putAtTen] (fun value => roundTo value 8) [11, 0, 10] longPut 10
    (List.cons_ne_nil _ _)
    ⟨by decide +kernel, by decide +kernel, by decide +kernel, 11, by decide +kernel,
      by decide +kernel⟩
    (fun price later hprice hlater =>
      (payoff_putAtTen_of_lt hprice).trans (payoff_putAtTen_of_lt hlater).symm)
    (by decide +kernel) (by decide +kernel)

/-- At a negative price a put pays more than at any other price, and without legs there are no
extremes. -/
theorem summarize_misses_extremes :
    (summarize [putAtTen] (fun value => roundTo value 8) longPut [-5, 0, 10, 11]).maximumProfit =
        some 15 ∧
      IsLUB (payoffAtPrice [putAtTen] '' Set.Ici 0) 10 ∧
      (summarize [] (fun value => roundTo value 8) longPut [0, 1]).maximumProfit = none ∧
      IsLUB (payoffAtPrice [] '' Set.Ici 0) 0 := by
  refine ⟨by decide +kernel, ?_, by decide +kernel, ?_⟩
  · refine IsGreatest.isLUB ⟨⟨0, Set.mem_Ici.mpr le_rfl, by decide +kernel⟩, ?_⟩
    rintro _ ⟨price, hprice, rfl⟩
    rw [payoff_putAtTen]
    exact max_le (by norm_num) (sub_le_self 10 hprice)
  · refine IsGreatest.isLUB ⟨⟨0, Set.mem_Ici.mpr le_rfl, rfl⟩, ?_⟩
    rintro _ ⟨price, -, rfl⟩
    exact le_rfl

end OptionResearch.StrategyLibrary
