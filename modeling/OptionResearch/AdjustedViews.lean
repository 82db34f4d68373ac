import Mathlib.Tactic.Linarith
import OptionResearch.IngestionTables
import OptionResearch.OrderFreeFolds
import OptionResearch.WalkForward

/-!
# Adjusted views of corporate actions

`CorporateActionService` of `database/corporate_actions.py`: the prices of an underlying and the
terms of an option contract, adjusted by the corporate actions that are known at a time. The actions
are applied in the order in which an unordered query returns them. Splits divide and dividends
subtract, a multiplier change overwrites what splits multiply: the views depend on that order unless
only one kind of the two is applied.
-/

namespace OptionResearch

namespace DateTime

/-- `t.date().toordinal()`. -/
def dateOrdinal (t : DateTime) : Int := t.wall / 86400000000 + 719163

end DateTime

/-- `datetime.combine(date, time(23, 59, 59), tzinfo=UTC)`. -/
def OrdinalDate.lastSecond (date : OrdinalDate) : DateTime where
  wall := (date.toordinal - 719163) * 86400000000 + 86399000000
  utcoffset := some 0

namespace CorporateActionService

open OrderFreeFolds StableSort

inductive CorporateActionType where
  | stockSplit
  | reverseStockSplit
  | symbolChange
  | merger
  | acquisition
  | spinOff
  | ordinaryDividend
  | specialDividend
  | multiplierChange
  | deliverableChange
  | delisting
  deriving DecidableEq

def CorporateActionType.value : CorporateActionType → String
  | .stockSplit => "stock_split"
  | .reverseStockSplit => "reverse_stock_split"
  | .symbolChange => "symbol_change"
  | .merger => "merger"
  | .acquisition => "acquisition"
  | .spinOff => "spin_off"
  | .ordinaryDividend => "ordinary_dividend"
  | .specialDividend => "special_dividend"
  | .multiplierChange => "multiplier_change"
  | .deliverableChange => "deliverable_change"
  | .delisting => "delisting"

inductive CorporateActionKnowledgePolicy where
  | effectiveDate
  | announcementAware
  deriving DecidableEq

def CorporateActionKnowledgePolicy.value : CorporateActionKnowledgePolicy → String
  | .effectiveDate => "effective-date"
  | .announcementAware => "announcement-aware"

structure AdjustmentPolicy where
  splitAdjustUnderlyings : Bool := true
  dividendAdjustUnderlyings : Bool := false
  totalReturnView : Bool := false
  adjustOptionStrikesAndMultipliers : Bool := true
  applyDeliverableChanges : Bool := true
  knowledgePolicy : CorporateActionKnowledgePolicy := .effectiveDate

structure AdjustmentWarning where
  code : String
  message : String
  sourceActionId : Option Int := none

structure AdjustmentRunResult where
  adjustedUnderlyingRows : Nat := 0
  adjustedContractRows : Nat := 0
  warnings : List AdjustmentWarning := []

structure NormalizedCorporateAction where
  id : Int
  underlyingId : Int
  actionType : CorporateActionType
  effectiveDate : OrdinalDate
  announcementTimestamp : Option DateTime := none
  ratio : Option ℚ := none
  cashAmount : Option ℚ := none
  multiplierAfter : Option ℚ := none
  deliverableAfter : Option String := none

/-- An entry of `applied_actions`. -/
abbrev AppliedAction := List (String × String)

structure AdjustedUnderlyingRow where
  underlyingId : Int
  sourcePriceId : Int
  sourceActionId : Option Int
  viewName : String
  policyName : String
  priceTimestamp : DateTime
  basePrice : ℚ
  adjustedPrice : ℚ
  appliedActions : List AppliedAction

structure AdjustedOptionRow where
  contractId : Int
  sourceActionId : Option Int
  viewName : String
  policyName : String
  asOfDate : OrdinalDate
  adjustedStrike : ℚ
  adjustedMultiplier : ℚ
  deliverableAfter : Option String
  appliedActions : List AppliedAction

variable (text : ℚ → String) (policy : AdjustmentPolicy)

/-! ### The actions that are known -/

def isActionKnowable (effectiveDate : OrdinalDate) (announcementTimestamp : Option DateTime)
    (asOf : DateTime) (policy : CorporateActionKnowledgePolicy) : Bool :=
  let asOfUtc := asOf.ensureAware
  match policy with
  | .effectiveDate => decide (effectiveDate.toordinal ≤ asOfUtc.dateOrdinal)
  | .announcementAware =>
    match announcementTimestamp with
    | none => false
    | some timestamp => decide (timestamp.ensureAware ≤ asOfUtc)

def knowable (asOf : DateTime) (action : NormalizedCorporateAction) : Bool :=
  isActionKnowable action.effectiveDate action.announcementTimestamp asOf policy.knowledgePolicy

def applicableActions (actions : List NormalizedCorporateAction) (asOf : DateTime) :
    List NormalizedCorporateAction :=
  actions.filter (knowable policy asOf)

/-- The query of the repository, on the rows in the order in which the database returns them. -/
def actionsForUnderlying (actions : List NormalizedCorporateAction) (underlyingId : Int) :
    List NormalizedCorporateAction :=
  actions.filter fun action => action.underlyingId = underlyingId

/-- A ratio that is neither missing nor zero. -/
def usableRatio (ratio : Option ℚ) : Option ℚ := ratio.filter fun r => decide (r ≠ 0)

/-- A text that is neither missing nor empty. -/
def usableText (deliverable : Option String) : Option String := deliverable.filter (· ≠ "")

/-! ### The underlying -/

structure PriceAdjustment where
  adjusted : ℚ
  details : List AppliedAction := []
  warnings : List AdjustmentWarning := []

/-- The loop body of `build_adjusted_underlying_view`. -/
def adjustPrice (state : PriceAdjustment) (action : NormalizedCorporateAction) : PriceAdjustment :=
  match action.actionType with
  | .stockSplit | .reverseStockSplit =>
    if policy.splitAdjustUnderlyings then
      match usableRatio action.ratio with
      | none => { state with warnings := state.warnings ++
          [⟨"incomplete_split_information", "Split action missing ratio; adjustment skipped",
            some action.id⟩] }
      | some ratio => { state with
          adjusted := state.adjusted / ratio
          details := state.details ++
            [[("action", action.actionType.value), ("ratio", text ratio)]] }
    else state
  | .ordinaryDividend | .specialDividend =>
    if policy.dividendAdjustUnderlyings || policy.totalReturnView then
      match action.cashAmount with
      | none => { state with warnings := state.warnings ++
          [⟨"incomplete_dividend_information",
            "Dividend action missing cash amount; adjustment skipped", some action.id⟩] }
      | some cash => { state with
          adjusted := state.adjusted - cash
          details := state.details ++
            [[("action", action.actionType.value), ("cash", text cash)]] }
    else state
  | _ => state

/-- One price of `build_adjusted_underlying_view`. -/
def priceAdjustment (actions : List NormalizedCorporateAction) (price : UnderlyingPriceDTO) :
    PriceAdjustment :=
  (applicableActions policy actions price.priceTimestamp).foldl (adjustPrice text policy)
    { adjusted := price.price }

/-- The query for the prices up to a time; the database compares clock readings. -/
def pricesUpTo (prices : List UnderlyingPriceDTO) (underlyingId : Int) (asOf : DateTime) :
    List UnderlyingPriceDTO :=
  prices.filter fun price =>
    price.underlyingId = underlyingId && decide (price.priceTimestamp.wall ≤ asOf.wall)

/-- `build_adjusted_underlying_view`, with the rows it stores. -/
def buildAdjustedUnderlyingView (actions : List NormalizedCorporateAction)
    (prices : List UnderlyingPriceDTO) (underlyingId : Int) (asOf : DateTime) (viewName : String) :
    List AdjustedUnderlyingRow × AdjustmentRunResult :=
  let actions := actionsForUnderlying actions underlyingId
  let prices := pricesUpTo prices underlyingId asOf
  let rows := prices.map fun price =>
    { underlyingId
      sourcePriceId := price.id
      sourceActionId :=
        (applicableActions policy actions price.priceTimestamp).getLast?.map (·.id)
      viewName
      policyName := policy.knowledgePolicy.value
      priceTimestamp := price.priceTimestamp
      basePrice := price.price
      adjustedPrice := (priceAdjustment text policy actions price).adjusted
      appliedActions := (priceAdjustment text policy actions price).details }
  (rows,
    { adjustedUnderlyingRows := rows.length
      warnings := prices.flatMap fun price => (priceAdjustment text policy actions price).warnings })

/-! ### The option contract -/

structure TermsAdjustment where
  strike : ℚ
  multiplier : ℚ
  deliverable : Option String := none
  details : List AppliedAction := []
  warnings : List AdjustmentWarning := []

/-- The loop body of `build_adjusted_option_view`. -/
def adjustTerms (state : TermsAdjustment) (action : NormalizedCorporateAction) : TermsAdjustment :=
  match action.actionType with
  | .stockSplit | .reverseStockSplit =>
    if policy.adjustOptionStrikesAndMultipliers then
      match usableRatio action.ratio with
      | none => { state with warnings := state.warnings ++
          [⟨"incomplete_contract_adjustment", "Split ratio missing for contract adjustment",
            some action.id⟩] }
      | some ratio => { state with
          strike := state.strike / ratio
          multiplier := state.multiplier * ratio
          details := state.details ++
            [[("action", action.actionType.value), ("ratio", text ratio)]] }
    else state
  | .multiplierChange =>
    match action.multiplierAfter with
    | none => { state with warnings := state.warnings ++
        [⟨"incomplete_multiplier_change", "Multiplier change missing multiplier_after",
          some action.id⟩] }
    | some multiplier => { state with
        multiplier
        details := state.details ++
          [[("action", action.actionType.value), ("multiplier_after", text multiplier)]] }
  | .deliverableChange =>
    if policy.applyDeliverableChanges then
      match usableText action.deliverableAfter with
      | none => { state with warnings := state.warnings ++
          [⟨"incomplete_deliverable_change", "Deliverable change missing deliverable_after",
            some action.id⟩] }
      | some deliverable => { state with
          deliverable := some deliverable
          details := state.details ++
            [[("action", action.actionType.value), ("deliverable_after", deliverable)]] }
    else state
  | _ => state

def termsAdjustment (actions : List NormalizedCorporateAction) (contract : OptionContractDTO)
    (asOfDate : OrdinalDate) : TermsAdjustment :=
  (applicableActions policy actions asOfDate.lastSecond).foldl (adjustTerms text policy)
    { strike := contract.strike, multiplier := contract.multiplier }

/-- `build_adjusted_option_view`, with the row it stores. -/
def buildAdjustedOptionView (actions : List NormalizedCorporateAction)
    (contract : Option OptionContractDTO) (contractId : Int) (asOfDate : OrdinalDate)
    (viewName : String) : Option AdjustedOptionRow × AdjustmentRunResult :=
  match contract with
  | none => (none,
      { warnings :=
          [⟨"missing_contract", "Option contract not found; no adjusted row created", none⟩] })
  | some contract =>
    let actions := actionsForUnderlying actions contract.underlyingId
    let adjustment := termsAdjustment text policy actions contract asOfDate
    (some
      { contractId
        sourceActionId :=
          (applicableActions policy actions asOfDate.lastSecond).getLast?.map (·.id)
        viewName
        policyName := policy.knowledgePolicy.value
        asOfDate
        adjustedStrike := adjustment.strike
        adjustedMultiplier := adjustment.multiplier
        deliverableAfter := adjustment.deliverable
        appliedActions := adjustment.details },
      { adjustedContractRows := 1, warnings := adjustment.warnings })

/-! ### What an action does to each figure -/

/-- The ratio that a split divides by, where splits are applied. -/
def splitRatio (applied : Bool) (action : NormalizedCorporateAction) : ℚ :=
  match action.actionType with
  | .stockSplit | .reverseStockSplit => if applied then (usableRatio action.ratio).getD 1 else 1
  | _ => 1

/-- The cash that a dividend subtracts, where dividends are applied. -/
def dividendCash (action : NormalizedCorporateAction) : ℚ :=
  match action.actionType with
  | .ordinaryDividend | .specialDividend =>
    if policy.dividendAdjustUnderlyings || policy.totalReturnView then action.cashAmount.getD 0
    else 0
  | _ => 0

/-- The multiplier that a multiplier change sets. -/
def newMultiplier (action : NormalizedCorporateAction) : Option ℚ :=
  match action.actionType with
  | .multiplierChange => action.multiplierAfter
  | _ => none

/-- The deliverable that a deliverable change sets. -/
def newDeliverable (action : NormalizedCorporateAction) : Option String :=
  match action.actionType with
  | .deliverableChange =>
    if policy.applyDeliverableChanges then usableText action.deliverableAfter else none
  | _ => none

variable {text policy} {applied : Bool} {action : NormalizedCorporateAction}

theorem splitRatio_ne_zero (applied : Bool) (action : NormalizedCorporateAction) :
    splitRatio applied action ≠ 0 := by
  have husable : (usableRatio action.ratio).getD 1 ≠ 0 := by
    rw [usableRatio]
    rcases action.ratio with _ | ratio
    · exact one_ne_zero
    · by_cases h : ratio = 0
      · simp [Option.filter, h]
      · simp [Option.filter, h]
  unfold splitRatio
  split
  · split_ifs
    · exact husable
    · exact one_ne_zero
  · split_ifs
    · exact husable
    · exact one_ne_zero
  · exact one_ne_zero

/-- An action is not a split and a dividend at once. -/
theorem splitRatio_eq_one_or_dividendCash_eq_zero (applied : Bool)
    (action : NormalizedCorporateAction) :
    splitRatio applied action = 1 ∨ dividendCash policy action = 0 := by
  rw [splitRatio, dividendCash]
  cases action.actionType <;> simp

theorem splitRatio_of_newMultiplier {multiplier : ℚ} (h : newMultiplier action = some multiplier) :
    splitRatio applied action = 1 := by
  rw [newMultiplier] at h
  rw [splitRatio]
  cases htype : action.actionType <;> simp [htype] at h ⊢

theorem adjustPrice_adjusted (state : PriceAdjustment) (action : NormalizedCorporateAction) :
    (adjustPrice text policy state action).adjusted =
      state.adjusted / splitRatio policy.splitAdjustUnderlyings action -
        dividendCash policy action := by
  unfold adjustPrice splitRatio dividendCash
  cases action.actionType
  all_goals simp only [div_one, sub_zero]
  case stockSplit | reverseStockSplit =>
    split_ifs
    · cases usableRatio action.ratio <;> simp
    · rw [div_one]
  case ordinaryDividend | specialDividend =>
    split_ifs
    · cases action.cashAmount <;> simp
    · rw [sub_zero]

theorem adjustTerms_strike (state : TermsAdjustment) (action : NormalizedCorporateAction) :
    (adjustTerms text policy state action).strike =
      state.strike / splitRatio policy.adjustOptionStrikesAndMultipliers action := by
  unfold adjustTerms splitRatio
  cases action.actionType
  all_goals simp only [div_one]
  case stockSplit | reverseStockSplit =>
    split_ifs
    · cases usableRatio action.ratio <;> simp
    · rw [div_one]
  case multiplierChange => cases action.multiplierAfter <;> rfl
  case deliverableChange =>
    split_ifs
    · cases usableText action.deliverableAfter <;> rfl
    · rfl

theorem adjustTerms_multiplier (state : TermsAdjustment) (action : NormalizedCorporateAction) :
    (adjustTerms text policy state action).multiplier =
      (newMultiplier action).getD
        (state.multiplier * splitRatio policy.adjustOptionStrikesAndMultipliers action) := by
  unfold adjustTerms splitRatio newMultiplier
  cases action.actionType
  all_goals simp only [mul_one, Option.getD_none]
  case stockSplit | reverseStockSplit =>
    split_ifs
    · cases usableRatio action.ratio <;> simp
    · rw [mul_one]
  case multiplierChange => cases action.multiplierAfter <;> rfl
  case deliverableChange =>
    split_ifs
    · cases usableText action.deliverableAfter <;> rfl
    · rfl

theorem adjustTerms_deliverable (state : TermsAdjustment) (action : NormalizedCorporateAction) :
    (adjustTerms text policy state action).deliverable =
      (newDeliverable policy action).or state.deliverable := by
  unfold adjustTerms newDeliverable
  cases action.actionType
  all_goals simp only [Option.none_or]
  case stockSplit | reverseStockSplit =>
    split_ifs
    · cases usableRatio action.ratio <;> rfl
    · rfl
  case multiplierChange => cases action.multiplierAfter <;> rfl
  case deliverableChange =>
    split_ifs
    · cases usableText action.deliverableAfter <;> rfl
    · rfl

/-! ### Which figures depend on the order -/

/-- Of the actions that apply, no split changes a price or no dividend does. -/
def PricesKeepOrder (policy : AdjustmentPolicy) (applicable : List NormalizedCorporateAction) :
    Prop :=
  (∀ action ∈ applicable, splitRatio policy.splitAdjustUnderlyings action = 1) ∨
    ∀ action ∈ applicable, dividendCash policy action = 0

/-- Of the actions that apply, all multiplier changes set one multiplier, and no split changes it;
and all deliverable changes set one deliverable. -/
def TermsKeepOrder (policy : AdjustmentPolicy) (applicable : List NormalizedCorporateAction) :
    Prop :=
  (∀ action ∈ applicable, ∀ other ∈ applicable, ∀ multiplier ∈ newMultiplier action,
    (∀ later ∈ newMultiplier other, multiplier = later) ∧
      (multiplier = 0 ∨ splitRatio policy.adjustOptionStrikesAndMultipliers other = 1)) ∧
  ∀ action ∈ applicable, ∀ other ∈ applicable, ∀ deliverable ∈ newDeliverable policy action,
    ∀ later ∈ newDeliverable policy other, deliverable = later

def adjustedPrice (policy : AdjustmentPolicy) (x : ℚ) (action : NormalizedCorporateAction) : ℚ :=
  x / splitRatio policy.splitAdjustUnderlyings action - dividendCash policy action

theorem div_eq_self_iff {c ratio : ℚ} (h : ratio ≠ 0) : c / ratio = c ↔ ratio = 1 ∨ c = 0 := by
  rw [div_eq_iff h]
  constructor
  · intro heq
    by_cases hc : c = 0
    · exact .inr hc
    · exact .inl (mul_left_cancel₀ hc (heq.symm.trans (mul_one c).symm))
  · rintro (rfl | rfl)
    · rw [mul_one]
    · rw [zero_mul]

/-- A split and a dividend commute only if one of them changes nothing. -/
theorem adjustedPrice_comm_iff (a b : NormalizedCorporateAction) (x : ℚ) :
    adjustedPrice policy (adjustedPrice policy x a) b =
        adjustedPrice policy (adjustedPrice policy x b) a ↔
      (splitRatio policy.splitAdjustUnderlyings a = 1 ∨ dividendCash policy b = 0) ∧
        (splitRatio policy.splitAdjustUnderlyings b = 1 ∨ dividendCash policy a = 0) := by
  have ha := splitRatio_ne_zero policy.splitAdjustUnderlyings a
  have hb := splitRatio_ne_zero policy.splitAdjustUnderlyings b
  simp only [adjustedPrice, sub_div]
  rcases splitRatio_eq_one_or_dividendCash_eq_zero policy.splitAdjustUnderlyings a with
    hsplit | hcash
  · have hself := div_eq_self_iff (c := dividendCash policy a) hb
    rw [hsplit, ← hself]
    simp only [div_one, true_or, true_and]
    constructor <;> intro h <;> linarith
  · have hself := div_eq_self_iff (c := dividendCash policy b) ha
    rw [hcash, ← hself]
    simp only [zero_div, sub_zero, or_true, and_true]
    rw [div_right_comm]
    constructor <;> intro h <;> linarith

theorem pricesKeepOrder_iff (policy : AdjustmentPolicy)
    (applicable : List NormalizedCorporateAction) (x : ℚ) :
    OrderFree (adjustedPrice policy) x applicable ↔ PricesKeepOrder policy applicable := by
  rw [orderFree_iff_forall fun a _ b _ => adjustedPrice_comm_iff a b]
  constructor
  · intro hall
    by_cases hsplits : ∀ a ∈ applicable, splitRatio policy.splitAdjustUnderlyings a = 1
    · exact .inl hsplits
    · push Not at hsplits
      obtain ⟨a, ha, hsplit⟩ := hsplits
      exact .inr fun b hb => (hall a ha b hb).1.resolve_left hsplit
  · rintro (hsplits | hcash) a ha b hb
    · exact ⟨.inl (hsplits a ha), .inl (hsplits b hb)⟩
    · exact ⟨.inr (hcash b hb), .inr (hcash a ha)⟩

def adjustedMultiplier (policy : AdjustmentPolicy) (x : ℚ) (action : NormalizedCorporateAction) :
    ℚ :=
  (newMultiplier action).getD (x * splitRatio policy.adjustOptionStrikesAndMultipliers action)

/-- The first multiplier change is lost on the second, and so is a split before a change. -/
theorem adjustedMultiplier_comm_iff (a b : NormalizedCorporateAction) (x : ℚ) :
    adjustedMultiplier policy (adjustedMultiplier policy x a) b =
        adjustedMultiplier policy (adjustedMultiplier policy x b) a ↔
      (∀ multiplier ∈ newMultiplier a, (∀ later ∈ newMultiplier b, multiplier = later) ∧
        (multiplier = 0 ∨ splitRatio policy.adjustOptionStrikesAndMultipliers b = 1)) ∧
      ∀ multiplier ∈ newMultiplier b, (∀ later ∈ newMultiplier a, multiplier = later) ∧
        (multiplier = 0 ∨ splitRatio policy.adjustOptionStrikesAndMultipliers a = 1) := by
  have hmul : ∀ c ratio : ℚ, c * ratio = c ↔ c = 0 ∨ ratio = 1 := by
    intro c ratio
    rw [mul_right_eq_self₀, or_comm]
  unfold adjustedMultiplier
  rcases ha : newMultiplier a with _ | c
  · rcases hb : newMultiplier b with _ | c'
    · simp [mul_right_comm]
    · rw [eq_comm]
      simp [hmul]
  · rcases hb : newMultiplier b with _ | c'
    · simp [hmul]
    · simp [splitRatio_of_newMultiplier ha, splitRatio_of_newMultiplier hb, eq_comm]

def adjustedDeliverable (policy : AdjustmentPolicy) (deliverable : Option String)
    (action : NormalizedCorporateAction) : Option String :=
  (newDeliverable policy action).or deliverable

theorem adjustedDeliverable_comm_iff (a b : NormalizedCorporateAction)
    (deliverable : Option String) :
    adjustedDeliverable policy (adjustedDeliverable policy deliverable a) b =
        adjustedDeliverable policy (adjustedDeliverable policy deliverable b) a ↔
      ∀ first ∈ newDeliverable policy a, ∀ later ∈ newDeliverable policy b, first = later := by
  unfold adjustedDeliverable
  cases newDeliverable policy a <;> cases newDeliverable policy b <;> simp [eq_comm]

def adjustedStrike (policy : AdjustmentPolicy) (x : ℚ) (action : NormalizedCorporateAction) : ℚ :=
  x / splitRatio policy.adjustOptionStrikesAndMultipliers action

/-- Strikes are only divided. -/
theorem orderFree_adjustedStrike (policy : AdjustmentPolicy)
    (applicable : List NormalizedCorporateAction) (x : ℚ) :
    OrderFree (adjustedStrike policy) x applicable :=
  (orderFree_iff_forall fun a _ b _ t => iff_true_intro
    (show adjustedStrike policy (adjustedStrike policy t a) b =
      adjustedStrike policy (adjustedStrike policy t b) a from div_right_comm _ _ _)).mpr
    fun _ _ _ _ => trivial

theorem termsKeepOrder_iff (policy : AdjustmentPolicy)
    (applicable : List NormalizedCorporateAction) (multiplier : ℚ) :
    OrderFree (adjustedMultiplier policy) multiplier applicable ∧
        OrderFree (adjustedDeliverable policy) none applicable ↔
      TermsKeepOrder policy applicable := by
  rw [orderFree_iff_forall fun a _ b _ => adjustedMultiplier_comm_iff a b,
    orderFree_iff_forall fun a _ b _ => adjustedDeliverable_comm_iff a b]
  refine and_congr_left' ?_
  constructor
  · exact fun hall a ha b hb => (hall a ha b hb).1
  · exact fun hall a ha b hb => ⟨hall a ha b hb, hall b hb a ha⟩

/-! ### The views -/

/-- What the actions of an underlying that are known at a time pass. -/
def applies (policy : AdjustmentPolicy) (underlyingId : Int) (asOf : DateTime)
    (action : NormalizedCorporateAction) : Bool :=
  knowable policy asOf action && decide (action.underlyingId = underlyingId)

theorem applicableActions_eq (policy : AdjustmentPolicy) (actions : List NormalizedCorporateAction)
    (underlyingId : Int) (asOf : DateTime) :
    applicableActions policy (actionsForUnderlying actions underlyingId) asOf =
      actions.filter (applies policy underlyingId asOf) :=
  List.filter_filter

theorem adjusted_eq_foldl (actions : List NormalizedCorporateAction) (price : UnderlyingPriceDTO) :
    (priceAdjustment text policy actions price).adjusted =
      (applicableActions policy actions price.priceTimestamp).foldl (adjustedPrice policy)
        price.price :=
  (List.foldl_hom PriceAdjustment.adjusted
    fun state action => (adjustPrice_adjusted state action).symm).symm

/-- Each figure of the terms is a fold of its own. -/
theorem terms_eq_foldl (actions : List NormalizedCorporateAction) (contract : OptionContractDTO)
    (asOfDate : OrdinalDate) :
    (termsAdjustment text policy actions contract asOfDate).strike =
        (applicableActions policy actions asOfDate.lastSecond).foldl (adjustedStrike policy)
          contract.strike ∧
      (termsAdjustment text policy actions contract asOfDate).multiplier =
        (applicableActions policy actions asOfDate.lastSecond).foldl (adjustedMultiplier policy)
          contract.multiplier ∧
      (termsAdjustment text policy actions contract asOfDate).deliverable =
        (applicableActions policy actions asOfDate.lastSecond).foldl (adjustedDeliverable policy)
          none :=
  ⟨(List.foldl_hom TermsAdjustment.strike
      fun state action => (adjustTerms_strike state action).symm).symm,
    (List.foldl_hom TermsAdjustment.multiplier
      fun state action => (adjustTerms_multiplier state action).symm).symm,
    (List.foldl_hom TermsAdjustment.deliverable
      fun state action => (adjustTerms_deliverable state action).symm).symm⟩

/-- The adjusted prices of a view of an underlying. -/
def pricesOf (view : List AdjustedUnderlyingRow × AdjustmentRunResult) : List ℚ :=
  view.1.map (·.adjustedPrice)

/-- The adjusted strike, multiplier and deliverable of a view of a contract. -/
def termsOf (view : Option AdjustedOptionRow × AdjustmentRunResult) :
    Option (ℚ × ℚ × Option String) :=
  view.1.map fun row => (row.adjustedStrike, row.adjustedMultiplier, row.deliverableAfter)

/-- The actions in the order of their effective dates. -/
def byEffectiveDate (actions : List NormalizedCorporateAction) : List NormalizedCorporateAction :=
  sortBy (fun action => action.effectiveDate.toordinal) actions

theorem underlyingView_iff (actions : List NormalizedCorporateAction)
    (prices : List UnderlyingPriceDTO) (underlyingId : Int) (asOf : DateTime) (viewName : String) :
    (∀ returned : List NormalizedCorporateAction, returned.Perm actions →
      pricesOf (buildAdjustedUnderlyingView text policy returned prices underlyingId asOf viewName) =
        pricesOf (buildAdjustedUnderlyingView text policy (byEffectiveDate actions) prices
          underlyingId asOf viewName)) ↔
      ∀ price ∈ pricesUpTo prices underlyingId asOf,
        PricesKeepOrder policy (applicableActions policy
          (actionsForUnderlying actions underlyingId) price.priceTimestamp) := by
  have hprices : ∀ returned : List NormalizedCorporateAction,
      pricesOf (buildAdjustedUnderlyingView text policy returned prices underlyingId asOf
        viewName) = (pricesUpTo prices underlyingId asOf).map fun price =>
          (returned.filter (applies policy underlyingId price.priceTimestamp)).foldl
            (adjustedPrice policy) price.price := by
    intro returned
    rw [pricesOf, buildAdjustedUnderlyingView, List.map_map]
    refine List.map_congr_left fun price _ => ?_
    rw [Function.comp_apply, adjusted_eq_foldl, applicableActions_eq]
  simp only [hprices, List.map_inj_left]
  constructor
  · intro hall price hprice
    rw [applicableActions_eq, ← pricesKeepOrder_iff policy _ price.price, orderFree_filter_iff]
    exact (forall_perm_sortBy_iff _ _ _).mp fun returned hperm => hall returned hperm price hprice
  · intro hall returned hperm price hprice
    have hkeeps := hall price hprice
    rw [applicableActions_eq, ← pricesKeepOrder_iff policy _ price.price,
      orderFree_filter_iff] at hkeeps
    exact (forall_perm_sortBy_iff _ _ _).mpr hkeeps returned hperm

/-- The three figures that a contract is left with, as folds over the actions that apply. -/
def foldedTerms (policy : AdjustmentPolicy) (contract : OptionContractDTO)
    (applicable : List NormalizedCorporateAction) : ℚ × ℚ × Option String :=
  (applicable.foldl (adjustedStrike policy) contract.strike,
    applicable.foldl (adjustedMultiplier policy) contract.multiplier,
    applicable.foldl (adjustedDeliverable policy) none)

theorem termsOf_view (returned : List NormalizedCorporateAction) (found : OptionContractDTO)
    (contractId : Int) (asOfDate : OrdinalDate) (viewName : String) :
    termsOf (buildAdjustedOptionView text policy returned (some found) contractId asOfDate
      viewName) =
      some (foldedTerms policy found
        (returned.filter (applies policy found.underlyingId asOfDate.lastSecond))) := by
  have hterms := @terms_eq_foldl text policy (actionsForUnderlying returned found.underlyingId)
    found asOfDate
  rw [termsOf, buildAdjustedOptionView, Option.map_some, hterms.1, hterms.2.1, hterms.2.2,
    applicableActions_eq, foldedTerms]

theorem foldedTerms_keepOrder_iff (actions : List NormalizedCorporateAction)
    (p : NormalizedCorporateAction → Bool) (contract : OptionContractDTO) :
    (∀ returned : List NormalizedCorporateAction, returned.Perm actions →
      foldedTerms policy contract (returned.filter p) =
        foldedTerms policy contract (actions.filter p)) ↔
      TermsKeepOrder policy (actions.filter p) := by
  rw [← termsKeepOrder_iff policy _ contract.multiplier, orderFree_filter_iff,
    orderFree_filter_iff]
  constructor
  · intro hall
    exact ⟨fun returned hperm => (Prod.mk.inj (Prod.mk.inj (hall returned hperm)).2).1,
      fun returned hperm => (Prod.mk.inj (Prod.mk.inj (hall returned hperm)).2).2⟩
  · rintro ⟨hmultiplier, hdeliverable⟩ returned hperm
    have hstrike := orderFree_filter_iff.mp
      (orderFree_adjustedStrike policy (actions.filter p) contract.strike) returned hperm
    rw [foldedTerms, foldedTerms, hstrike, hmultiplier returned hperm, hdeliverable returned hperm]

theorem optionView_iff (actions : List NormalizedCorporateAction)
    (contract : Option OptionContractDTO) (contractId : Int) (asOfDate : OrdinalDate)
    (viewName : String) :
    (∀ returned : List NormalizedCorporateAction, returned.Perm actions →
      termsOf (buildAdjustedOptionView text policy returned contract contractId asOfDate viewName) =
        termsOf (buildAdjustedOptionView text policy (byEffectiveDate actions) contract contractId
          asOfDate viewName)) ↔
      ∀ found ∈ contract, TermsKeepOrder policy (applicableActions policy
        (actionsForUnderlying actions found.underlyingId) asOfDate.lastSecond) := by
  cases contract with
  | none =>
    exact iff_of_true (fun _ _ => rfl) fun found hfound => absurd hfound (Option.not_mem_none found)
  | some found =>
    have hsorted := forall_perm_sortBy_iff actions
      (fun returned => termsOf (buildAdjustedOptionView text policy returned (some found)
        contractId asOfDate viewName)) fun action => action.effectiveDate.toordinal
    refine hsorted.trans ?_
    simp only [termsOf_view, Option.some_inj, Option.mem_some, forall_eq']
    rw [foldedTerms_keepOrder_iff, applicableActions_eq]

/-- Both views are those of the actions in the order of their effective dates, in whatever order
the database returns them. -/
theorem views_byEffectiveDate_iff (text : ℚ → String) (policy : AdjustmentPolicy)
    (actions : List NormalizedCorporateAction) :
    (∀ prices underlyingId asOf viewName,
      (∀ returned : List NormalizedCorporateAction, returned.Perm actions →
        pricesOf (buildAdjustedUnderlyingView text policy returned prices underlyingId asOf
            viewName) =
          pricesOf (buildAdjustedUnderlyingView text policy (byEffectiveDate actions) prices
            underlyingId asOf viewName)) ↔
        ∀ price ∈ pricesUpTo prices underlyingId asOf,
          PricesKeepOrder policy (applicableActions policy
            (actionsForUnderlying actions underlyingId) price.priceTimestamp)) ∧
    ∀ contract contractId asOfDate viewName,
      (∀ returned : List NormalizedCorporateAction, returned.Perm actions →
        termsOf (buildAdjustedOptionView text policy returned contract contractId asOfDate
            viewName) =
          termsOf (buildAdjustedOptionView text policy (byEffectiveDate actions) contract
            contractId asOfDate viewName)) ↔
        ∀ found ∈ contract, TermsKeepOrder policy (applicableActions policy
          (actionsForUnderlying actions found.underlyingId) asOfDate.lastSecond) :=
  ⟨underlyingView_iff actions, optionView_iff actions⟩

/-- The first three days of the calendar. -/
def firstDays (n : Fin 3) : OrdinalDate := ⟨n + 1, by omega, by omega⟩

/-- A split for two, a dividend of one and a multiplier change, a day apart each. -/
def splitThenDividend : List NormalizedCorporateAction :=
  [{ id := 1, underlyingId := 1, actionType := .stockSplit, ratio := some 2,
     effectiveDate := firstDays 0 },
   { id := 2, underlyingId := 1, actionType := .ordinaryDividend, cashAmount := some 1,
     effectiveDate := firstDays 1 },
   { id := 3, underlyingId := 1, actionType := .multiplierChange, multiplierAfter := some 50,
     effectiveDate := firstDays 2 }]

/-- A price on the last of these days. -/
def priceOfTen : UnderlyingPriceDTO where
  id := 1
  underlyingId := 1
  priceTimestamp := ⟨-62135424000000000, none⟩
  price := 10
  providerId := 1
  manifestId := 1

def contractOfHundred : OptionContractDTO where
  providerId := 1
  providerContractId := "A"
  underlyingId := 1
  optionRoot := "SPX"
  occSymbol := none
  callPut := "call"
  strike := 100
  expiration := ⟨2026, 6, 19⟩
  exerciseStyle := "european"
  settlementType := "cash"
  multiplier := 100
  currency := "USD"
  exchangeId := none
  firstSeenAt := ⟨0, some 0⟩
  lastSeenAt := ⟨0, some 0⟩
  isActive := true

/-- In the order of their dates the split comes before the dividend and before the change. -/
theorem views_differ_reversed :
    (splitThenDividend.map (·.effectiveDate)).Nodup ∧
      pricesOf (buildAdjustedUnderlyingView (fun _ => "") { dividendAdjustUnderlyings := true }
        (byEffectiveDate splitThenDividend) [priceOfTen] 1 ⟨0, none⟩ "view") = [4] ∧
      pricesOf (buildAdjustedUnderlyingView (fun _ => "") { dividendAdjustUnderlyings := true }
        splitThenDividend.reverse [priceOfTen] 1 ⟨0, none⟩ "view") = [9 / 2] ∧
      (termsOf (buildAdjustedOptionView (fun _ => "") {} (byEffectiveDate splitThenDividend)
        (some contractOfHundred) 1 ⟨3, by decide, by decide⟩ "view")).map (·.2.1) = some 50 ∧
      (termsOf (buildAdjustedOptionView (fun _ => "") {} splitThenDividend.reverse
        (some contractOfHundred) 1 ⟨3, by decide, by decide⟩ "view")).map (·.2.1) = some 100 := by
  decide +kernel

end CorporateActionService
end OptionResearch
