import OptionResearch.PayoffExtremes

/-!
# Breakevens

`_breakeven_points` of `strategy_library.py` scans the neighbouring points of a payoff and looks
for a zero at the left one of each pair. So the zeros at all points but the last are listed, and one
price in each cell that the payoff crosses zero in; a zero at the last point is not looked for.
-/

namespace OptionResearch.StrategyLibrary

open PiecewiseLinear

/-- The breakevens are the zeros of the payoff that the points of the summary show. -/
structure ListsZeros (selectedLegs : List StrategySelectedLeg) (summary : StrategyPayoffSummary) :
    Prop where
  zero : ∀ price ∈ summary.breakevens, payoffAtPrice selectedLegs price = 0
  listed : ∀ point ∈ summary.points, point.payoff = 0 →
    point.underlyingPrice ∈ summary.breakevens
  crossed : ∀ pair ∈ summary.points.zip summary.points.tail,
    OppositeSigns pair.1.payoff pair.2.payoff → ∃ price, summary.breakevens.filter (fun price =>
      pair.1.underlyingPrice < price ∧ price < pair.2.underlyingPrice) = [price]

/-- The grid has every strike that lies within its range; a missing one counts as zero. -/
def HasStrikes (selectedLegs : List StrategySelectedLeg) (priceGrid : List ℚ) : Prop :=
  ∀ leg ∈ selectedLegs, leg.isOption = true → ∀ low ∈ priceGrid, ∀ high ∈ priceGrid,
    leg.strike.getD 0 ∈ Set.Icc low high → leg.strike.getD 0 ∈ priceGrid

/-- Rounding leaves the payoffs and the crossings of the grid as they are. -/
structure ExactOn (round8 : ℚ → ℚ) (payoff : ℚ → ℚ) (priceGrid : List ℚ) : Prop where
  payoffs : ∀ price ∈ priceGrid, round8 (payoff price) = payoff price
  crossings : ∀ cell ∈ cells priceGrid, OppositeSigns (payoff cell.1) (payoff cell.2) →
    round8 (crossing cell.1 (payoff cell.1) cell.2 (payoff cell.2)) =
      crossing cell.1 (payoff cell.1) cell.2 (payoff cell.2)

variable {selectedLegs : List StrategySelectedLeg} {round8 : ℚ → ℚ} {priceGrid values : List ℚ}
  {price : ℚ}

theorem mem_sortedSet : price ∈ sortedSet values ↔ price ∈ values := by
  rw [sortedSet, StableSort.mem_sortBy, List.mem_dedup]

theorem nodup_sortedSet (values : List ℚ) : (sortedSet values).Nodup :=
  StableSort.sortBy_perm.nodup_iff.mpr (List.nodup_dedup values)

/-- In a cell the left end is listed, or the crossing, or nothing. -/
theorem breakevenOf_eq_some_iff {left right : PayoffPoint}
    (h : left.underlyingPrice < right.underlyingPrice)
    (hexact : OppositeSigns left.payoff right.payoff →
      round8 (crossing left.underlyingPrice left.payoff right.underlyingPrice right.payoff) =
        crossing left.underlyingPrice left.payoff right.underlyingPrice right.payoff) :
    breakevenOf round8 left right = some price ↔
      left.payoff = 0 ∧ left.underlyingPrice = price ∨
        OppositeSigns left.payoff right.payoff ∧
          crossing left.underlyingPrice left.payoff right.underlyingPrice right.payoff = price := by
  have hspan : right.underlyingPrice - left.underlyingPrice ≠ 0 := (sub_pos.mpr h).ne'
  unfold breakevenOf
  by_cases hzero : left.payoff = 0
  · rw [if_pos hzero, Option.some_inj, and_iff_right hzero]
    exact (or_iff_left fun hopposite => hopposite.1.left_ne_zero hzero).symm
  rw [if_neg hzero]
  refine Iff.trans ?_ (or_iff_right fun hleft => hzero hleft.1).symm
  unfold OppositeSigns crossing at hexact ⊢
  split_ifs with hopposite
  · rw [and_iff_right hopposite]
    simp only [if_neg hspan, hexact hopposite, Option.some_inj]
  · exact iff_of_false nofun fun hright => hopposite hright.1

theorem payoffPoints_eq (hgrid : priceGrid.Pairwise (· < ·))
    (hexact : ExactOn round8 (payoffAtPrice selectedLegs) priceGrid) :
    payoffPoints selectedLegs round8 priceGrid =
      priceGrid.map fun price => ⟨price, payoffAtPrice selectedLegs price⟩ := by
  have hsorted : StableSort.sortBy id priceGrid = priceGrid :=
    StableSort.sortBy_eq_self (hgrid.imp fun h => h.le)
  rw [payoffPoints, hsorted]
  exact List.map_congr_left fun price hprice => by rw [hexact.payoffs price hprice]

/-- Neighbouring points are the ends of a cell. -/
theorem zip_tail_map (point : ℚ → PayoffPoint) (priceGrid : List ℚ) :
    (priceGrid.map point).zip (priceGrid.map point).tail =
      (cells priceGrid).map (Prod.map point point) := by
  rw [← List.map_tail, List.zip_map]
  rfl

/-- What is listed: the zeros at the left ends of the cells, and the crossings. -/
theorem mem_breakevenPoints_iff (hgrid : priceGrid.Pairwise (· < ·))
    (hexact : ExactOn round8 (payoffAtPrice selectedLegs) priceGrid) :
    price ∈ breakevenPoints round8 (payoffPoints selectedLegs round8 priceGrid) ↔
      ∃ cell ∈ cells priceGrid,
        (payoffAtPrice selectedLegs cell.1 = 0 ∧ cell.1 = price) ∨
          OppositeSigns (payoffAtPrice selectedLegs cell.1) (payoffAtPrice selectedLegs cell.2) ∧
            crossing cell.1 (payoffAtPrice selectedLegs cell.1) cell.2
              (payoffAtPrice selectedLegs cell.2) = price := by
  rw [payoffPoints_eq hgrid hexact, breakevenPoints, mem_sortedSet, zip_tail_map,
    List.filterMap_map, List.mem_filterMap]
  refine exists_congr fun cell => and_congr_right fun hcell => ?_
  obtain ⟨-, -, hlt, -⟩ := cell_of_mem_cells hgrid hcell
  exact breakevenOf_eq_some_iff hlt (hexact.crossings cell hcell)

theorem HasStrikes.linearOn (h : HasStrikes selectedLegs priceGrid)
    (hgrid : priceGrid.Pairwise (· < ·)) {cell : ℚ × ℚ} (hcell : cell ∈ cells priceGrid) :
    LinearOn (payoffAtPrice selectedLegs) cell.1 cell.2 := by
  obtain ⟨hleft, hright, -, hempty⟩ := cell_of_mem_cells hgrid hcell
  refine linearOn_payoffAtPrice fun leg hleg hoption hinside => ?_
  exact hempty _ (h leg hleg hoption _ hleft _ hright (Set.Ioo_subset_Icc_self hinside)) hinside

/-- A cell that the payoff crosses zero in has one listed price. -/
theorem filter_breakevenPoints (hgrid : priceGrid.Pairwise (· < ·))
    (hexact : ExactOn round8 (payoffAtPrice selectedLegs) priceGrid) {cell : ℚ × ℚ}
    (hcell : cell ∈ cells priceGrid)
    (hopposite : OppositeSigns (payoffAtPrice selectedLegs cell.1)
      (payoffAtPrice selectedLegs cell.2)) :
    (breakevenPoints round8 (payoffPoints selectedLegs round8 priceGrid)).filter
        (fun price => cell.1 < price ∧ price < cell.2) =
      [crossing cell.1 (payoffAtPrice selectedLegs cell.1) cell.2
        (payoffAtPrice selectedLegs cell.2)] := by
  obtain ⟨-, -, hlt, hempty⟩ := cell_of_mem_cells hgrid hcell
  have hinside := hopposite.crossing_mem_Ioo hlt
  refine List.perm_singleton.mp ((List.perm_ext_iff_of_nodup
    ((nodup_sortedSet _).filter _) (List.nodup_singleton _)).mpr fun price => ?_)
  rw [List.mem_filter, List.mem_singleton, decide_eq_true_eq]
  constructor
  · rintro ⟨hprice, hbetween⟩
    obtain ⟨other, hother, ⟨-, rfl⟩ | ⟨hopposite', rfl⟩⟩ :=
      (mem_breakevenPoints_iff hgrid hexact).mp hprice
    · exact absurd hbetween (hempty other.1 (cell_of_mem_cells hgrid hother).1)
    · have hinside' := hopposite'.crossing_mem_Ioo (cell_of_mem_cells hgrid hother).2.2.1
      rw [cells_disjoint hgrid hcell hother hbetween hinside']
  · rintro rfl
    exact ⟨(mem_breakevenPoints_iff hgrid hexact).mpr
      ⟨cell, hcell, .inr ⟨hopposite, rfl⟩⟩, hinside⟩

/-- The last price of the grid is not listed. -/
theorem last_notMem_breakevenPoints (hgrid : priceGrid.Pairwise (· < ·))
    (hexact : ExactOn round8 (payoffAtPrice selectedLegs) priceGrid) {last : ℚ}
    (hlast : priceGrid.getLast? = some last) :
    last ∉ breakevenPoints round8 (payoffPoints selectedLegs round8 priceGrid) := by
  intro hlisted
  obtain ⟨cell, hcell, ⟨-, heq⟩ | ⟨hopposite, heq⟩⟩ :=
    (mem_breakevenPoints_iff hgrid hexact).mp hlisted
  all_goals
    obtain ⟨-, hright, hlt, -⟩ := cell_of_mem_cells hgrid hcell
    have hle := le_getLast hgrid hlast hright
  · exact not_lt.mpr hle (heq ▸ hlt)
  · exact not_lt.mpr hle (heq ▸ (hopposite.crossing_mem_Ioo hlt).2)

theorem summarize_points (template : StrategyTemplate) (hlegs : selectedLegs ≠ [])
    (hgrid : priceGrid.Pairwise (· < ·))
    (hexact : ExactOn round8 (payoffAtPrice selectedLegs) priceGrid) :
    (summarize selectedLegs round8 template priceGrid).points =
      priceGrid.map fun price => ⟨price, payoffAtPrice selectedLegs price⟩ := by
  rw [summarize, if_neg (mt List.isEmpty_iff.mp hlegs)]
  exact payoffPoints_eq hgrid hexact

theorem summarize_breakevens (template : StrategyTemplate) (hlegs : selectedLegs ≠ []) :
    (summarize selectedLegs round8 template priceGrid).breakevens =
      breakevenPoints round8 (payoffPoints selectedLegs round8 priceGrid) := by
  rw [summarize, if_neg (mt List.isEmpty_iff.mp hlegs)]

theorem listsZeros_of_last (template : StrategyTemplate) (hlegs : selectedLegs ≠ [])
    (hgrid : priceGrid.Pairwise (· < ·)) (hstrikes : HasStrikes selectedLegs priceGrid)
    (hexact : ExactOn round8 (payoffAtPrice selectedLegs) priceGrid)
    (hlast : ∀ last ∈ priceGrid.getLast?, payoffAtPrice selectedLegs last ≠ 0) :
    ListsZeros selectedLegs (summarize selectedLegs round8 template priceGrid) where
  zero := by
    intro price hprice
    rw [summarize_breakevens template hlegs, mem_breakevenPoints_iff hgrid hexact] at hprice
    obtain ⟨cell, hcell, ⟨hzero, rfl⟩ | ⟨hopposite, rfl⟩⟩ := hprice
    · exact hzero
    · exact (hstrikes.linearOn hgrid hcell).crossing_eq_zero
        (cell_of_mem_cells hgrid hcell).2.2.1 hopposite
  listed := by
    intro point hpoint hzero
    rw [summarize_points template hlegs hgrid hexact] at hpoint
    obtain ⟨price, hprice, rfl⟩ := List.mem_map.mp hpoint
    obtain ⟨next, hcell⟩ := exists_cell_of_mem hprice fun h => hlast price h hzero
    rw [summarize_breakevens template hlegs]
    exact (mem_breakevenPoints_iff hgrid hexact).mpr ⟨_, hcell, .inl ⟨hzero, rfl⟩⟩
  crossed := by
    intro pair hpair hopposite
    rw [summarize_points template hlegs hgrid hexact, zip_tail_map] at hpair
    obtain ⟨cell, hcell, rfl⟩ := List.mem_map.mp hpair
    rw [summarize_breakevens template hlegs]
    exact ⟨_, filter_breakevenPoints hgrid hexact hcell hopposite⟩

/-- The breakevens are the zeros that the points show iff the payoff at the last point is no
zero. -/
theorem breakevens_iff (template : StrategyTemplate) (hgrid : priceGrid.Pairwise (· < ·))
    (hstrikes : HasStrikes selectedLegs priceGrid)
    (hexact : ExactOn round8 (payoffAtPrice selectedLegs) priceGrid) :
    let summary := summarize selectedLegs round8 template priceGrid
    (selectedLegs ≠ [] → summary.points = priceGrid.map fun price =>
      ⟨price, payoffAtPrice selectedLegs price⟩) ∧
    (ListsZeros selectedLegs summary ↔
      selectedLegs = [] ∨ ∀ last ∈ priceGrid.getLast?, payoffAtPrice selectedLegs last ≠ 0) := by
  intro summary
  refine ⟨fun hlegs => summarize_points template hlegs hgrid hexact, ?_⟩
  by_cases hlegs : selectedLegs = []
  · subst hlegs
    refine iff_of_true ?_ (.inl rfl)
    exact ⟨fun _ h => absurd h List.not_mem_nil, fun _ h => absurd h List.not_mem_nil,
      fun _ h => absurd h List.not_mem_nil⟩
  rw [or_iff_right hlegs]
  constructor
  · intro h last hlast hzero
    refine last_notMem_breakevenPoints hgrid hexact hlast ?_
    rw [← summarize_breakevens template hlegs]
    refine h.listed ⟨last, payoffAtPrice selectedLegs last⟩ ?_ hzero
    rw [summarize_points template hlegs hgrid hexact]
    exact List.mem_map_of_mem (List.mem_of_getLast? hlast)
  · exact listsZeros_of_last template hlegs hgrid hstrikes hexact

/-- A call at ten that is bought for five. -/
def callAtTen : StrategySelectedLeg where
  legKind := .call
  direction := .buy
  quantity := 1
  strike := some 10
  premium := some 5
  multiplier := 1

/-- Between ten and twenty the call breaks even at fifteen. -/
theorem breakevens_iff_callAtTen :
    ListsZeros [callAtTen]
      (summarize [callAtTen] (fun value => roundTo value 8) longPut [10, 20]) :=
  (@breakevens_iff [callAtTen] (fun value => roundTo value 8) [10, 20] longPut
    (by decide +kernel)
    (fun leg hleg _ _ _ _ _ _ => by
      rw [List.mem_singleton.mp hleg]
      decide +kernel)
    ⟨by decide +kernel, by decide +kernel⟩).2.mpr (.inr (by decide +kernel))

/-- The zero at the last price of the grid is not listed. -/
theorem last_zero_not_listed :
    payoffAtPrice [callAtTen] 15 = 0 ∧
      ¬ ListsZeros [callAtTen]
        (summarize [callAtTen] (fun value => roundTo value 8) longPut [10, 15]) := by
  refine ⟨by decide +kernel, fun h => ?_⟩
  have hlisted := h.listed ⟨15, 0⟩ (by decide +kernel) rfl
  revert hlisted
  decide +kernel

end OptionResearch.StrategyLibrary
