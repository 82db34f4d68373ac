import OptionResearch.MultiLegExecution
import OptionResearch.RoundedNumbers

/-!
# Legging exposure under a worse fill

The unfilled notional of a leg is priced at its fill, and where nothing is filled there is no price.
Of two policies that differ in one fill ratio, the one that fills less reports at least the notional
of the other unless it fills nothing at all of a leg that the other fills in part, at a price above
zero.
-/

namespace OptionResearch

open ResearchFillModelEngine

namespace MultiLegExecutionCoordinator

variable {text : PyText} {coordinator : MultiLegExecutionCoordinator} {call call' : ExecuteCall}
  {leg leg' : ExecutionRequest} {attempt attempt' : FillAttempt}
  {result result' : MultiLegExecutionResult}

/-! ### The conditions -/

/-- The policy of a leg fills some of it. -/
def FillsSome (text : PyText) (leg : ExecutionRequest) : Prop :=
  ∃ fillRatio, text.float (leg.fillModelPolicy.get "fill_ratio" (.float 1)) = .ok fillRatio ∧
    text.str (leg.fillModelPolicy.get "mode"
      (.str (text.str (leg.fillModelPolicy.get "name" (.str "midpoint"))))) ≠ "no_fill" ∧
    Taken leg fillRatio

/-- The fill ratio of a leg asks for all of it. -/
def FillsWhole (text : PyText) (leg : ExecutionRequest) : Prop :=
  ∃ fillRatio, text.float (leg.fillModelPolicy.get "fill_ratio" (.float 1)) = .ok fillRatio ∧
    1 ≤ fillRatio

/-- Slippage takes a leg's selected price to zero or below. -/
def SlipsToZero (text : PyText) (coordinator : MultiLegExecutionCoordinator) (call : ExecuteCall)
    (leg : ExecutionRequest) : Prop :=
  ∃ selection quote selectedPrice slippage,
    legSelection text coordinator call leg = .ok selection ∧
      selection.selectedQuote = some quote ∧ selection.selectedPrice = some selectedPrice ∧
      coordinator.fillEngine.slippageOf text (legRequest text leg selection) quote selectedPrice =
        .ok slippage ∧
      selectedPrice + (if leg.side = .buy then slippage else -slippage) ≤ 0

/-- Two requests that differ in the fill ratio of their policies only. -/
structure DiffersInRatio (leg leg' : ExecutionRequest) : Prop where
  request : leg' = { leg with fillModelPolicy := leg'.fillModelPolicy }
  policy : ∀ key, key ≠ "fill_ratio" →
    leg'.fillModelPolicy.lookup key = leg.fillModelPolicy.lookup key

/-! ### One leg -/

/-- All of a leg is allowed only by a ratio of one. -/
theorem wholeContracts_eq_iff {fillRatio : ℚ} (h : 0 < wholeContracts leg fillRatio) :
    wholeContracts leg fillRatio = max 0 leg.quantity ↔ 1 ≤ fillRatio := by
  have hquantity : 0 < max 0 leg.quantity := h.trans_le wholeContracts_le
  have hcast : (0 : ℚ) < (max 0 leg.quantity : Int) := by exact_mod_cast hquantity
  constructor
  · intro hall
    by_contra hlt
    have hclamp : max 0 (min 1 fillRatio) < 1 :=
      max_lt one_pos ((min_le_right _ _).trans_lt (not_le.mp hlt))
    have hsmall : (max 0 leg.quantity : Int) * max 0 (min 1 fillRatio) <
        (max 0 leg.quantity : Int) := mul_lt_of_lt_one_right hcast hclamp
    rw [wholeContracts, truncate_eq_floor (mul_nonneg hcast.le (le_max_left _ _))] at hall
    have hfloor := Int.floor_le ((max 0 leg.quantity : Int) * max 0 (min 1 fillRatio))
    rw [hall] at hfloor
    exact absurd hsmall (not_lt.mpr hfloor)
  · intro hone
    rw [wholeContracts, min_eq_left hone, max_eq_right zero_le_one, mul_one, truncate_intCast]

/-- What a leg leaves unfilled, at the price of its fill. -/
def notionalOf (attempt : FillAttempt) : ℚ :=
  attempt.fill.remainingQuantity * attempt.fill.fillPrice.getD 0

theorem unfilledNotional_eq (attempts : List FillAttempt) :
    unfilledNotional attempts = (attempts.map notionalOf).sum := rfl

/-- With the selection the same, the two fills of a leg have the same price. -/
theorem legSelection_eq (h : DiffersInRatio leg leg') :
    legSelection text coordinator call leg' = legSelection text coordinator call leg := by
  rw [h.request]
  rfl

theorem slippageOf_eq (h : DiffersInRatio leg leg') (engine : ResearchFillModelEngine)
    (selection : QuoteSelectionResult) (quote : Payload) (selectedPrice : ℚ) :
    engine.slippageOf text (legRequest text leg' selection) quote selectedPrice =
      engine.slippageOf text (legRequest text leg selection) quote selectedPrice := by
  rw [h.request]
  rfl

/-- A leg is filled exactly if its policy fills some of it, and then to what the ratio allows. -/
theorem filled_iff_fillsSome {selection : QuoteSelectionResult} {quote : Payload}
    {selectedPrice slippage fillRatio : ℚ}
    (h : PricedFill text coordinator.fillEngine (legRequest text leg selection) attempt.fill quote
      selectedPrice slippage fillRatio) :
    (attempt.fill.filledQuantity ≠ 0 ↔ FillsSome text leg) ∧
      (attempt.fill.filledQuantity ≠ 0 →
        attempt.fill.filledQuantity = wholeContracts leg fillRatio) := by
  have hfilled := h.filled
  change attempt.fill.filledQuantity = if modeOf text (legRequest text leg selection) = "no_fill"
    then 0 else filledOf leg fillRatio at hfilled
  have hratio := h.ratio
  change text.float (leg.fillModelPolicy.get "fill_ratio" (.float 1)) = .ok fillRatio at hratio
  by_cases hmode : modeOf text (legRequest text leg selection) = "no_fill"
  · rw [if_pos hmode] at hfilled
    refine ⟨iff_of_false (not_not.mpr hfilled) ?_, fun hsome => absurd hfilled hsome⟩
    rintro ⟨_, -, hother, -⟩
    exact hother hmode
  · rw [if_neg hmode] at hfilled
    by_cases htaken : Taken leg fillRatio
    · rw [filledOf_of_taken htaken] at hfilled
      have hpositive := htaken.1
      exact ⟨iff_of_true (by omega) ⟨fillRatio, hratio, hmode, htaken⟩, fun _ => hfilled⟩
    · rw [filledOf_of_not_taken htaken] at hfilled
      refine ⟨iff_of_false (not_not.mpr hfilled) ?_, fun hsome => absurd hfilled hsome⟩
      rintro ⟨other, hother, -, hsome⟩
      obtain rfl : fillRatio = other := Except.ok.inj (hratio.symm.trans hother)
      exact htaken hsome

/-- A fill leaves nothing exactly if the policy fills the whole leg. -/
theorem fillsWhole_iff {selection : QuoteSelectionResult} {quote : Payload}
    {selectedPrice slippage fillRatio : ℚ}
    (h : PricedFill text coordinator.fillEngine (legRequest text leg selection) attempt.fill quote
      selectedPrice slippage fillRatio) (hpositive : 0 < attempt.fill.filledQuantity)
    (hle : attempt.fill.filledQuantity ≤ max 0 leg.quantity) :
    FillsWhole text leg ↔ attempt.fill.remainingQuantity = 0 := by
  have hfilled := (filled_iff_fillsSome h).2 hpositive.ne'
  have hremaining : attempt.fill.remainingQuantity =
      max 0 (max 0 leg.quantity - attempt.fill.filledQuantity) := h.remaining
  rw [hfilled] at hpositive hle hremaining
  have hall := wholeContracts_eq_iff hpositive
  have hratio : text.float (leg.fillModelPolicy.get "fill_ratio" (.float 1)) = .ok fillRatio :=
    h.ratio
  constructor
  · rintro ⟨other, hother, hone⟩
    obtain rfl : fillRatio = other := Except.ok.inj (hratio.symm.trans hother)
    have hfull := hall.mpr hone
    omega
  · intro hzero
    exact ⟨fillRatio, hratio, hall.mp (by omega)⟩

theorem slipsToZero_iff {selection : QuoteSelectionResult} {quote : Payload}
    {selectedPrice slippage fillRatio : ℚ}
    (hselection : legSelection text coordinator call leg = .ok selection)
    (h : PricedFill text coordinator.fillEngine (legRequest text leg selection) attempt.fill quote
      selectedPrice slippage fillRatio) :
    slippedPrice leg.side selectedPrice slippage = 0 ↔ SlipsToZero text coordinator call leg := by
  rw [slippedPrice, max_eq_left_iff]
  constructor
  · exact fun hzero => ⟨selection, quote, selectedPrice, slippage, hselection, h.quoted, h.priced,
      h.slipped, hzero⟩
  · rintro ⟨selection', quote', selectedPrice', slippage', hselection', hquote, hprice, hslippage,
      hzero⟩
    obtain rfl : selection = selection' := Except.ok.inj (hselection.symm.trans hselection')
    obtain rfl : quote = quote' := Option.some.inj (h.quoted.symm.trans hquote)
    obtain rfl : selectedPrice = selectedPrice' := Option.some.inj (h.priced.symm.trans hprice)
    obtain rfl : slippage = slippage' := Except.ok.inj (h.slipped.symm.trans hslippage)
    exact hzero

/-- The leg alone: of two fills of it, the smaller one leaves no smaller notional. -/
theorem notionalOf_le_iff (hdiffers : DiffersInRatio leg leg')
    (hattempt : coordinator.attempt text call leg = .ok attempt)
    (hattempt' : coordinator.attempt text call leg' = .ok attempt')
    (hfewer : attempt'.fill.filledQuantity < attempt.fill.filledQuantity) :
    notionalOf attempt ≤ notionalOf attempt' ↔
      FillsSome text leg' ∨ FillsWhole text leg ∨ SlipsToZero text coordinator call leg := by
  obtain ⟨-, -, hle⟩ := attempt_spec hattempt
  obtain ⟨-, hnonneg', -⟩ := attempt_spec hattempt'
  obtain ⟨selection, hselection, hfill⟩ := attempt_fill hattempt
  obtain ⟨selection', hselection', hfill'⟩ := attempt_fill hattempt'
  rw [legSelection_eq hdiffers, hselection] at hselection'
  cases hselection'
  rcases fill_cases hfill with ⟨-, hnone, -⟩ | ⟨quote, selectedPrice, slippage, fillRatio, hpriced⟩
  · omega
  rcases fill_cases hfill' with ⟨hnone | hnone, -⟩ |
    ⟨quote', selectedPrice', slippage', fillRatio', hpriced'⟩
  · exact absurd (hnone.symm.trans hpriced.quoted) nofun
  · exact absurd (hnone.symm.trans hpriced.priced) nofun
  obtain ⟨hsome', -⟩ := filled_iff_fillsSome hpriced'
  have hslips := slipsToZero_iff hselection hpriced
  obtain rfl : quote = quote' := Option.some.inj (hpriced.quoted.symm.trans hpriced'.quoted)
  obtain rfl : selectedPrice = selectedPrice' :=
    Option.some.inj (hpriced.priced.symm.trans hpriced'.priced)
  have hslippage := hpriced'.slipped
  rw [slippageOf_eq hdiffers, hpriced.slipped] at hslippage
  obtain rfl : slippage = slippage' := Except.ok.inj hslippage
  have hquantity : leg'.quantity = leg.quantity := by rw [hdiffers.request]
  have hside : leg'.side = leg.side := by rw [hdiffers.request]
  have hpositive : 0 < attempt.fill.filledQuantity := by omega
  have hremaining : attempt.fill.remainingQuantity =
      max 0 (max 0 leg.quantity - attempt.fill.filledQuantity) := hpriced.remaining
  have hremaining' : attempt'.fill.remainingQuantity =
      max 0 (max 0 leg'.quantity - attempt'.fill.filledQuantity) := hpriced'.remaining
  have hprice : attempt.fill.fillPrice = some (slippedPrice leg.side selectedPrice slippage) :=
    hpriced.fillPrice.trans (if_pos hpositive)
  have hraw : 0 ≤ slippedPrice leg.side selectedPrice slippage := le_max_left _ _
  have hfillsWhole := fillsWhole_iff hpriced hpositive hle
  rw [notionalOf, notionalOf, hprice, Option.getD_some]
  by_cases hzero : attempt'.fill.filledQuantity = 0
  · have hnoPrice : attempt'.fill.fillPrice = none :=
      hpriced'.fillPrice.trans (if_neg (by omega))
    rw [hnoPrice, Option.getD_none, mul_zero, or_iff_right fun h => hsome'.mpr h hzero,
      hfillsWhole, ← hslips]
    have hnonneg : (0 : ℚ) ≤ attempt.fill.remainingQuantity := by
      have := le_max_left 0 (max 0 leg.quantity - attempt.fill.filledQuantity)
      exact_mod_cast hremaining ▸ this
    rw [(mul_nonneg hnonneg hraw).ge_iff_eq', mul_eq_zero, Int.cast_eq_zero]
  · have hprice' : attempt'.fill.fillPrice =
        some (slippedPrice leg.side selectedPrice slippage) := by
      have hfillPrice := hpriced'.fillPrice.trans (if_pos (by omega))
      rw [← hside]
      exact hfillPrice
    rw [hprice', Option.getD_some]
    refine iff_of_true (mul_le_mul_of_nonneg_right ?_ hraw) (.inl (hsome'.mp hzero))
    have hle : attempt.fill.remainingQuantity ≤ attempt'.fill.remainingQuantity := by omega
    exact_mod_cast hle

/-! ### The execution -/

/-- The unfilled notional that an execution reports. -/
def reportedNotional (result : MultiLegExecutionResult) : ℚ :=
  (result.residualRisk.lookup "unfilled_notional").getD 0

/-- An execution reports that the legging exposure is too large. -/
def Breached (result : MultiLegExecutionResult) : Prop :=
  (result.residualRisk.lookup "max_legging_exposure_breached").isSome

theorem reported (h : coordinator.execute text call = .ok result) :
    ∃ attempts, call.requests.mapM (coordinator.attempt text call) = .ok attempts ∧
      totalFilled result = (attempts.map fun item => item.fill.filledQuantity).sum ∧
      reportedNotional result = (attempts.map notionalOf).sum ∧
      (Breached result ↔ call.maximumLeggingExposure < reportedNotional result) := by
  obtain ⟨attempts, hattempts, hperm, hrisk⟩ := execute_attempts h
  have hnotional : reportedNotional result = unfilledNotional result.fills := by
    rw [reportedNotional, hrisk]
    rfl
  refine ⟨attempts, hattempts, (hperm.map _).sum_eq, ?_, ?_⟩
  · rw [hnotional, unfilledNotional_eq, (hperm.map notionalOf).sum_eq]
  · rw [hnotional, Breached, hrisk]
    split_ifs with hlarge
    · exact iff_of_true rfl hlarge
    · exact iff_of_false nofun hlarge

theorem mapM_append_cons_eq_ok {ε α β : Type} {f : α → Except ε β} {before after : List α}
    {item : α} {results : List β} (h : (before ++ item :: after).mapM f = .ok results) :
    ∃ first result rest, before.mapM f = .ok first ∧ f item = .ok result ∧
      after.mapM f = .ok rest ∧ results = first ++ result :: rest := by
  rw [List.mapM_append, List.mapM_cons] at h
  obtain ⟨first, hfirst, h⟩ := except_bind_eq_ok.mp h
  obtain ⟨tail, htail, h⟩ := except_bind_eq_ok.mp h
  obtain ⟨result, hresult, htail⟩ := except_bind_eq_ok.mp htail
  obtain ⟨rest, hrest, htail⟩ := except_bind_eq_ok.mp htail
  cases htail
  cases h
  exact ⟨first, result, rest, hfirst, hresult, hrest, rfl⟩

/-- Of two executions that differ in one fill ratio, the one that fills less reports no smaller
notional, and no breach is cleared, exactly if it fills some of the leg, the other fills all of it,
or it costs nothing. -/
theorem reportedNotional_le_iff (text : PyText) (coordinator : MultiLegExecutionCoordinator)
    (call : ExecuteCall) (before after : List ExecutionRequest) (leg leg' : ExecutionRequest)
    (result result' : MultiLegExecutionResult)
    (hrequests : call.requests = before ++ leg :: after) (hdiffers : DiffersInRatio leg leg')
    (hresult : coordinator.execute text call = .ok result)
    (hresult' : coordinator.execute text { call with requests := before ++ leg' :: after } =
      .ok result')
    (hfewer : totalFilled result' < totalFilled result) :
    (reportedNotional result ≤ reportedNotional result' ∧ (Breached result → Breached result')) ↔
      FillsSome text leg' ∨ FillsWhole text leg ∨ SlipsToZero text coordinator call leg := by
  obtain ⟨attempts, hattempts, hfilled, hnotional, hbreached⟩ := reported hresult
  obtain ⟨attempts', hattempts', hfilled', hnotional', hbreached'⟩ := reported hresult'
  rw [hrequests] at hattempts
  obtain ⟨first, attempt, rest, hfirst, hattempt, hrest, rfl⟩ := mapM_append_cons_eq_ok hattempts
  obtain ⟨first', attempt', rest', hfirst', hattempt', hrest', rfl⟩ :=
    mapM_append_cons_eq_ok hattempts'
  -- An attempt does not look at the other requests of its call.
  obtain rfl : first = first' := Except.ok.inj (hfirst.symm.trans hfirst')
  obtain rfl : rest = rest' := Except.ok.inj (hrest.symm.trans hrest')
  have hlocal : coordinator.attempt text call leg' = .ok attempt' := hattempt'
  rw [hfilled, hfilled'] at hfewer
  simp only [List.map_append, List.map_cons, List.sum_append, List.sum_cons]
    at hfewer hnotional hnotional'
  have hless : attempt'.fill.filledQuantity < attempt.fill.filledQuantity := by omega
  have hsum : reportedNotional result ≤ reportedNotional result' ↔
      notionalOf attempt ≤ notionalOf attempt' := by
    rw [hnotional, hnotional', add_le_add_iff_left, add_le_add_iff_right]
  rw [← notionalOf_le_iff hdiffers hattempt hlocal hless, ← hsum, hbreached, hbreached']
  exact and_iff_left_of_imp fun hle hlarge => hlarge.trans_le hle

theorem differsInRatio_of_float {fillRatio : ℚ} (fillRatio' : ℚ)
    (hpolicy : leg.fillModelPolicy = [("fill_ratio", .float fillRatio)])
    (hrequest : leg' = { leg with fillModelPolicy := [("fill_ratio", .float fillRatio')] }) :
    DiffersInRatio leg leg' := by
  subst hrequest
  refine ⟨rfl, fun key hkey => ?_⟩
  have hne : (key == "fill_ratio") = false := beq_eq_false_iff_ne.mpr hkey
  rw [hpolicy]
  simp only [List.lookup_cons, hne]

/-- One contract of four is filled instead of two. -/
theorem reportedNotional_le_iff_verticalSpread : ∃ result result' leg leg' others,
    execute plainText ⟨{}, {}⟩ (verticalSpread (1 / 2)) = .ok result ∧
      execute plainText ⟨{}, {}⟩ (verticalSpread (1 / 4)) = .ok result' ∧
      (verticalSpread (1 / 2)).requests = leg :: others ∧
      (verticalSpread (1 / 4)).requests = leg' :: others ∧
      ((reportedNotional result ≤ reportedNotional result' ∧
          (Breached result → Breached result')) ↔
        FillsSome plainText leg' ∨ FillsWhole plainText leg ∨
          SlipsToZero plainText ⟨{}, {}⟩ (verticalSpread (1 / 2)) leg) := by
  obtain ⟨result, hresult, hfilled⟩ : ∃ result,
      execute plainText ⟨{}, {}⟩ (verticalSpread (1 / 2)) = .ok result ∧
        totalFilled result = 4 := ⟨_, rfl, by decide +kernel⟩
  obtain ⟨result', hresult', hfilled'⟩ : ∃ result,
      execute plainText ⟨{}, {}⟩ (verticalSpread (1 / 4)) = .ok result ∧
        totalFilled result = 3 := ⟨_, rfl, by decide +kernel⟩
  refine ⟨result, result', _, _, _, hresult, hresult', rfl, rfl, ?_⟩
  refine reportedNotional_le_iff plainText ⟨{}, {}⟩ (verticalSpread (1 / 2)) [] _ _ _ result
    result' rfl (differsInRatio_of_float _ rfl rfl) hresult hresult' ?_
  rw [hfilled, hfilled']
  decide

/-- With none of four contracts filled instead of one, the notional and the breach are gone. -/
theorem breach_cleared : ¬ ∀ (text : PyText) (coordinator : MultiLegExecutionCoordinator)
    (call : ExecuteCall) (before after : List ExecutionRequest) (leg leg' : ExecutionRequest)
    (result result' : MultiLegExecutionResult),
      call.requests = before ++ leg :: after → DiffersInRatio leg leg' →
      (∀ request ∈ call.requests, ∃ selection price,
        legSelection text coordinator call request = .ok selection ∧
          selection.selectedPrice = some price ∧ 0 < price) →
      coordinator.execute text call = .ok result →
      coordinator.execute text { call with requests := before ++ leg' :: after } = .ok result' →
      totalFilled result' < totalFilled result →
        reportedNotional result ≤ reportedNotional result' ∧
          (Breached result → Breached result') := by
  intro hall
  obtain ⟨result, hresult, hfilled, hnotional⟩ : ∃ result,
      execute plainText ⟨{}, {}⟩ (verticalSpread (1 / 4)) = .ok result ∧
        totalFilled result = 3 ∧ reportedNotional result = 3 :=
    ⟨_, rfl, by decide +kernel, by decide +kernel⟩
  obtain ⟨result', hresult', hfilled', hnotional'⟩ : ∃ result,
      execute plainText ⟨{}, {}⟩ (verticalSpread (1 / 8)) = .ok result ∧
        totalFilled result = 2 ∧ reportedNotional result = 0 :=
    ⟨_, rfl, by decide +kernel, by decide +kernel⟩
  have hholds := hall plainText ⟨{}, {}⟩ (verticalSpread (1 / 4)) [] _ _ _ result result' rfl
    (differsInRatio_of_float (1 / 8) rfl rfl) ?_ hresult hresult' (by rw [hfilled, hfilled']; decide)
  · rw [hnotional, hnotional'] at hholds
    exact absurd hholds.1 (by decide)
  · intro request hrequest
    simp only [verticalSpread, List.mem_cons, List.not_mem_nil, or_false] at hrequest
    rcases hrequest with rfl | rfl
    · exact ⟨_, _, rfl, rfl, by decide +kernel⟩
    · exact ⟨_, _, rfl, rfl, by decide +kernel⟩

end MultiLegExecutionCoordinator
end OptionResearch
