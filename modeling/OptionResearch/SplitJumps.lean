import Mathlib.Algebra.BigOperators.Ring.List
import Mathlib.Tactic.FieldSimp
import OptionResearch.ActionKnowledge

/-!
# Adjusted prices across a split

`build_adjusted_underlying_view` divides a price by the ratios of the splits that are known at its
own time, and leaves the prices before a split as they are. So a series of prices that falls by the
ratio of each split falls by it once more when it is adjusted.
-/

namespace OptionResearch.CorporateActionService

variable {text : ℚ → String} {policy : AdjustmentPolicy} {actions : List NormalizedCorporateAction}

def OnlySplits (actions : List NormalizedCorporateAction) : Prop :=
  ∀ action ∈ actions, action.actionType = .stockSplit ∨ action.actionType = .reverseStockSplit

/-- The product of the ratios of splits; one without a ratio counts as one for one. -/
def totalRatio (splits : List NormalizedCorporateAction) : ℚ :=
  (splits.map (splitRatio true)).prod

/-- The ratios of the splits that are effective by the day. -/
def ratioBy (splits : List NormalizedCorporateAction) (day : Int) : ℚ :=
  totalRatio (splits.filter fun split => split.effectiveDate.toordinal ≤ day)

/-- The ratios of the splits that are effective after the first day and by the last. -/
def ratioBetween (splits : List NormalizedCorporateAction) (first last : Int) : ℚ :=
  totalRatio (splits.filter fun split =>
    first < split.effectiveDate.toordinal ∧ split.effectiveDate.toordinal ≤ last)

/-- The prices are constant apart from dividing by the ratio of each split on its effective date. -/
def SplitSeries (splits : List NormalizedCorporateAction) (base : ℚ)
    (prices : List UnderlyingPriceDTO) : Prop :=
  ∀ price ∈ prices, price.price = base / ratioBy splits price.priceTimestamp.dateOrdinal

theorem totalRatio_ne_zero (splits : List NormalizedCorporateAction) : totalRatio splits ≠ 0 := by
  refine List.prod_ne_zero fun hzero => ?_
  obtain ⟨split, -, hsplit⟩ := List.mem_map.mp hzero
  exact splitRatio_ne_zero true split hsplit

theorem ratioBy_eq_mul_ratioBetween (splits : List NormalizedCorporateAction) {first last : Int}
    (h : first ≤ last) :
    ratioBy splits last = ratioBy splits first * ratioBetween splits first last := by
  have hsplit := List.prod_map_filter_mul_prod_map_filter_not
    (fun split => split.effectiveDate.toordinal ≤ first) (splitRatio true)
    (splits.filter fun split => split.effectiveDate.toordinal ≤ last)
  rw [ratioBy, totalRatio, ← hsplit, List.filter_filter, List.filter_filter]
  refine congrArg₂ _ ?_ ?_
  · refine congrArg totalRatio (List.filter_congr fun split _ => ?_)
    rw [← Bool.decide_and, decide_eq_decide]
    omega
  · refine congrArg totalRatio (List.filter_congr fun split _ => ?_)
    rw [← Bool.decide_and, decide_eq_decide]
    omega

theorem foldl_adjustedPrice (hpolicy : policy.splitAdjustUnderlyings = true)
    {splits : List NormalizedCorporateAction} (h : OnlySplits splits) (x : ℚ) :
    splits.foldl (adjustedPrice policy) x = x / totalRatio splits := by
  induction splits generalizing x with
  | nil => rw [List.foldl_nil, totalRatio, List.map_nil, List.prod_nil, div_one]
  | cons split rest ih =>
      have hcash : dividendCash policy split = 0 := by
        unfold dividendCash
        rcases h split List.mem_cons_self with htype | htype <;> rw [htype]
      rw [List.foldl_cons, ih fun later hlater => h later (List.mem_cons_of_mem split hlater),
        adjustedPrice, hcash, sub_zero, hpolicy, div_div, totalRatio, totalRatio, List.map_cons,
        List.prod_cons]

/-- What a row of the view says about the price that it is made of. -/
theorem exists_price_of_mem_view {prices : List UnderlyingPriceDTO} {underlyingId : Int}
    {asOf : DateTime} {viewName : String} {row : AdjustedUnderlyingRow}
    (hpolicy : policy.splitAdjustUnderlyings = true)
    (hsplits : OnlySplits (actionsForUnderlying actions underlyingId))
    (h : row ∈ (buildAdjustedUnderlyingView text policy actions prices underlyingId asOf
      viewName).1) :
    ∃ price ∈ pricesUpTo prices underlyingId asOf, row.priceTimestamp = price.priceTimestamp ∧
      row.adjustedPrice = price.price / totalRatio (applicableActions policy
        (actionsForUnderlying actions underlyingId) price.priceTimestamp) := by
  obtain ⟨price, hprice, rfl⟩ := List.mem_map.mp h
  refine ⟨price, hprice, rfl, ?_⟩
  rw [adjusted_eq_foldl, foldl_adjustedPrice hpolicy]
  exact fun split hsplit => hsplits split (List.mem_of_mem_filter hsplit)

theorem applicableActions_effectiveDate (h : policy.knowledgePolicy = .effectiveDate)
    (time : DateTime) : totalRatio (applicableActions policy actions time) =
      ratioBy actions time.dateOrdinal := by
  refine congrArg totalRatio (List.filter_congr fun action _ => ?_)
  rw [Bool.eq_iff_iff, knowable_iff, h, decide_eq_true_eq]
  exact Iff.rfl

/-- A series that falls by the ratio of each split is divided by the ratios once more. With
effective dates the adjusted prices of two days differ by the square of the ratios in between, and
so they agree only where these come to one. -/
theorem adjusted_jumps (text : ℚ → String) (policy : AdjustmentPolicy)
    (hpolicy : policy.splitAdjustUnderlyings = true) (actions : List NormalizedCorporateAction)
    (underlyingId : Int) (hsplits : OnlySplits (actionsForUnderlying actions underlyingId))
    (prices : List UnderlyingPriceDTO) (asOf : DateTime) (viewName : String) (base : ℚ)
    (hprices : SplitSeries (actionsForUnderlying actions underlyingId) base
      (pricesUpTo prices underlyingId asOf)) :
    let splits := actionsForUnderlying actions underlyingId
    let view := buildAdjustedUnderlyingView text policy actions prices underlyingId asOf viewName
    let rows := view.1
    (∀ row ∈ rows, row.adjustedPrice = base / (ratioBy splits row.priceTimestamp.dateOrdinal *
      totalRatio (applicableActions policy splits row.priceTimestamp))) ∧
    (policy.knowledgePolicy = .effectiveDate → ∀ row ∈ rows, ∀ later ∈ rows,
      row.priceTimestamp.dateOrdinal ≤ later.priceTimestamp.dateOrdinal →
      row.adjustedPrice = later.adjustedPrice * ratioBetween splits
          row.priceTimestamp.dateOrdinal later.priceTimestamp.dateOrdinal ^ 2 ∧
        (row.adjustedPrice = later.adjustedPrice ↔ base = 0 ∨ ratioBetween splits
          row.priceTimestamp.dateOrdinal later.priceTimestamp.dateOrdinal ^ 2 = 1)) := by
  intro splits view rows
  have hrow : ∀ row ∈ rows, row.adjustedPrice = base / (ratioBy splits
      row.priceTimestamp.dateOrdinal *
        totalRatio (applicableActions policy splits row.priceTimestamp)) := by
    intro row hrow
    obtain ⟨price, hprice, htime, hadjusted⟩ := exists_price_of_mem_view hpolicy hsplits hrow
    rw [hadjusted, hprices price hprice, htime, div_div]
  refine ⟨hrow, fun heffective row hmem later hlater hday => ?_⟩
  have hbetween := ratioBy_eq_mul_ratioBetween splits hday
  have hfirst : ratioBy splits row.priceTimestamp.dateOrdinal ≠ 0 := totalRatio_ne_zero _
  have hratio : ratioBetween splits row.priceTimestamp.dateOrdinal
      later.priceTimestamp.dateOrdinal ≠ 0 := totalRatio_ne_zero _
  have hjump : row.adjustedPrice = later.adjustedPrice * ratioBetween splits
      row.priceTimestamp.dateOrdinal later.priceTimestamp.dateOrdinal ^ 2 := by
    rw [hrow row hmem, hrow later hlater, applicableActions_effectiveDate heffective,
      applicableActions_effectiveDate heffective, hbetween]
    field_simp
  refine ⟨hjump, ?_⟩
  have hzero : later.adjustedPrice = 0 ↔ base = 0 := by
    rw [hrow later hlater, div_eq_zero_iff, or_iff_left]
    exact mul_ne_zero (totalRatio_ne_zero _) (totalRatio_ne_zero _)
  rw [hjump, mul_right_eq_self₀, hzero, or_comm]

/-- A split for two. -/
def splitForTwo (effective : OrdinalDate) : NormalizedCorporateAction where
  id := 1
  underlyingId := 1
  actionType := .stockSplit
  effectiveDate := effective
  ratio := some 2

/-- Ten at the end of a day, and five at the end of another. -/
def pricesAcrossSplit (before after : OrdinalDate) : List UnderlyingPriceDTO :=
  [priceAtEndOf before, { priceAtEndOf after with price := 5 }]

theorem adjusted_jumps_splitForTwo :
    ∃ row ∈ (buildAdjustedUnderlyingView (fun _ => "") {} [splitForTwo (firstDays 1)]
        (pricesAcrossSplit (firstDays 0) (firstDays 1)) 1 (firstDays 2).lastSecond "view").1,
      row.adjustedPrice =
        10 / (ratioBy [splitForTwo (firstDays 1)] row.priceTimestamp.dateOrdinal *
          totalRatio (applicableActions {} [splitForTwo (firstDays 1)] row.priceTimestamp)) := by
  obtain ⟨row, hrow⟩ := List.exists_mem_of_length_pos (l := (buildAdjustedUnderlyingView
    (fun _ => "") {} [splitForTwo (firstDays 1)] (pricesAcrossSplit (firstDays 0) (firstDays 1)) 1
    (firstDays 2).lastSecond "view").1) (by decide +kernel)
  refine ⟨row, hrow, (adjusted_jumps (fun _ => "") {} rfl [splitForTwo (firstDays 1)] 1 ?_
    (pricesAcrossSplit (firstDays 0) (firstDays 1)) (firstDays 2).lastSecond "view" 10 ?_).1
    row hrow⟩
  · intro action haction
    rw [List.mem_singleton.mp (List.mem_of_mem_filter haction)]
    exact .inl rfl
  · intro price hprice
    rcases List.mem_pair.mp (List.mem_of_mem_filter hprice) with rfl | rfl
    · decide +kernel
    · decide +kernel

/-- A split on the second day. The price halves there, and its adjusted price falls to a quarter. -/
theorem splitForTwo_jumps :
    SplitSeries [splitForTwo (firstDays 1)] 10 (pricesAcrossSplit (firstDays 0) (firstDays 1)) ∧
      pricesOf (buildAdjustedUnderlyingView (fun _ => "") {} [splitForTwo (firstDays 1)]
        (pricesAcrossSplit (firstDays 0) (firstDays 1)) 1 (firstDays 2).lastSecond "view") =
          [10, 5 / 2] := by
  refine ⟨fun price hprice => ?_, by decide +kernel⟩
  rcases List.mem_pair.mp hprice with rfl | rfl
  · decide +kernel
  · decide +kernel

end OptionResearch.CorporateActionService
