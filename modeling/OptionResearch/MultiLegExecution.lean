import OptionResearch.FillReconciliation

/-!
# The account of a multi-leg execution

Of every leg the filled and the remaining contracts make up what was requested. A fill is the whole
part of the requested quantity that the fill ratio allows, or nothing: below the minimum, in part
where none is wanted, under a mode that fills nothing, and without a quote or its price. The legs are
worked off in an order of their own, so that the order of the requests does not show in the result.
-/

namespace OptionResearch

/-! ### One leg -/

namespace ResearchFillModelEngine

variable {text : PyText} {engine : ResearchFillModelEngine} {request : ExecutionRequest}
  {req : FillModelRequest} {result : FillModelResult} {fillRatio : ℚ}

/-- The contracts that a ratio allows, before the minimum and the mode. -/
def wholeContracts (request : ExecutionRequest) (fillRatio : ℚ) : Int :=
  truncate ((max 0 request.quantity : Int) * max 0 (min 1 fillRatio))

/-- What a ratio allows is taken. -/
def Taken (request : ExecutionRequest) (fillRatio : ℚ) : Prop :=
  0 < wholeContracts request fillRatio ∧
    request.minimumFillQuantity ≤ wholeContracts request fillRatio ∧
    (request.allOrNoneResearch → wholeContracts request fillRatio = max 0 request.quantity)

theorem wholeContracts_nonneg : 0 ≤ wholeContracts request fillRatio := by
  apply truncate_nonneg
  apply mul_nonneg ?_ (le_max_left _ _)
  exact_mod_cast le_max_left 0 request.quantity

theorem filledOf_of_taken (h : Taken request fillRatio) :
    filledOf request fillRatio = wholeContracts request fillRatio := by
  obtain ⟨hpositive, hminimum, hall⟩ := h
  have hlarge : ¬ (wholeContracts request fillRatio ≠ 0 ∧
      wholeContracts request fillRatio < max 0 request.minimumFillQuantity) := by omega
  rw [wholeContracts] at hlarge hall ⊢
  simp only [filledOf]
  rw [if_neg hlarge, if_neg]
  rintro ⟨hnone, -, hpart⟩
  exact hpart (hall hnone)

theorem filledOf_of_not_taken (h : ¬ Taken request fillRatio) :
    filledOf request fillRatio = 0 := by
  have hnonneg : 0 ≤ wholeContracts request fillRatio := wholeContracts_nonneg
  rw [Taken] at h
  rw [wholeContracts] at h hnonneg
  simp only [filledOf]
  generalize truncate ((max 0 request.quantity : Int) * max 0 (min 1 fillRatio)) = whole at *
  by_contra hfilled
  apply h
  split_ifs at hfilled with hsmall hpart hpart
  · exact absurd rfl hfilled
  · exact absurd rfl hfilled
  · exact absurd rfl hfilled
  · refine ⟨by omega, by omega, fun hnone => ?_⟩
    by_contra hne
    exact hpart ⟨hnone, hfilled, hne⟩

theorem wholeContracts_le : wholeContracts request fillRatio ≤ max 0 request.quantity := by
  have hquantity : (0 : ℚ) ≤ (max 0 request.quantity : Int) := by
    exact_mod_cast le_max_left 0 request.quantity
  apply truncate_le (mul_nonneg hquantity (le_max_left _ _))
  exact mul_le_of_le_one_right hquantity (max_le zero_le_one (min_le_left _ _))

/-- `mode` of a request for a fill. -/
def modeOf (text : PyText) (req : FillModelRequest) : String :=
  text.str (req.request.fillModelPolicy.get "mode" (.str req.policyName))

/-- The price of a fill. -/
def slippedPrice (side : ExecutionSide) (selectedPrice slippage : ℚ) : ℚ :=
  max 0 (selectedPrice + if side = .buy then slippage else -slippage)

/-- A fill at a price: the ratio and the mode decide how much. -/
structure PricedFill (text : PyText) (engine : ResearchFillModelEngine) (req : FillModelRequest)
    (result : FillModelResult) (quote : Payload) (selectedPrice slippage fillRatio : ℚ) :
    Prop where
  quoted : req.quote = some quote
  priced : req.diagnostics.selectedPrice = some selectedPrice
  slipped : engine.slippageOf text req quote selectedPrice = .ok slippage
  ratio : text.float (req.request.fillModelPolicy.get "fill_ratio" (.float 1)) = .ok fillRatio
  filled : result.filledQuantity =
    if modeOf text req = "no_fill" then 0 else filledOf req.request fillRatio
  remaining : result.remainingQuantity =
    max 0 (max 0 req.request.quantity - result.filledQuantity)
  fillPrice : result.fillPrice =
    if 0 < result.filledQuantity then some (slippedPrice req.request.side selectedPrice slippage)
    else none

/-- Without a quote or without its price nothing is filled. -/
theorem fill_cases (h : engine.fill text req = .ok result) :
    ((req.quote = none ∨ req.diagnostics.selectedPrice = none) ∧ result.filledQuantity = 0 ∧
        result.remainingQuantity = req.request.quantity ∧ result.fillPrice = none) ∨
      ∃ quote selectedPrice slippage fillRatio,
        PricedFill text engine req result quote selectedPrice slippage fillRatio := by
  rw [fill] at h
  cases hquote : req.quote with
  | none =>
    rw [hquote] at h
    cases h
    exact .inl ⟨.inl rfl, rfl, rfl, rfl⟩
  | some quote =>
    cases hprice : req.diagnostics.selectedPrice with
    | none =>
      rw [hquote, hprice] at h
      cases h
      exact .inl ⟨.inr rfl, rfl, rfl, rfl⟩
    | some selectedPrice =>
      rw [hquote, hprice] at h
      obtain ⟨slippage, hslippage, h⟩ := except_bind_eq_ok.mp h
      obtain ⟨fillRatio, hratio, h⟩ := except_bind_eq_ok.mp h
      cases h
      exact .inr ⟨quote, selectedPrice, slippage, fillRatio,
        ⟨hquote, hprice, hslippage, hratio, rfl, rfl, rfl⟩⟩

end ResearchFillModelEngine

/-- The account of one leg. -/
structure FillAttempt.Balanced (attempt : FillAttempt) : Prop where
  nonneg : 0 ≤ attempt.fill.filledQuantity
  le_requested : attempt.fill.filledQuantity ≤ attempt.request.quantity
  total : attempt.fill.filledQuantity + attempt.fill.remainingQuantity = attempt.request.quantity
  allOrNone : attempt.request.allOrNoneResearch →
    attempt.fill.filledQuantity = 0 ∨ attempt.fill.filledQuantity = attempt.request.quantity
  minimum : attempt.fill.filledQuantity ≠ 0 →
    attempt.request.minimumFillQuantity ≤ attempt.fill.filledQuantity

namespace MultiLegExecutionCoordinator

open ResearchFillModelEngine

variable {text : PyText} {coordinator : MultiLegExecutionCoordinator} {call : ExecuteCall}
  {request leg : ExecutionRequest} {attempt : FillAttempt} {attempts : List FillAttempt}
  {result : MultiLegExecutionResult}

/-- The quote of a leg and what is known of it. -/
def legSelection (text : PyText) (coordinator : MultiLegExecutionCoordinator) (call : ExecuteCall)
    (leg : ExecutionRequest) : Except Exc QuoteSelectionResult := do
  let delaySeconds ← text.float (leg.executionDelayPolicy.get "seconds" (.float 0))
  coordinator.quoteSelector.select text leg.requestedTimestamp
    ((call.quotesByContract.lookup leg.contractIdentifier).getD []) call.quotePolicy delaySeconds

/-- What the fill of a leg is asked with. -/
def legRequest (text : PyText) (leg : ExecutionRequest) (selection : QuoteSelectionResult) :
    FillModelRequest where
  request := leg
  quote := selection.selectedQuote
  diagnostics := selection
  policyName := text.str (leg.fillModelPolicy.get "name" (.str "midpoint"))

theorem attempt_fill (h : coordinator.attempt text call request = .ok attempt) :
    ∃ selection, legSelection text coordinator call request = .ok selection ∧
      coordinator.fillEngine.fill text (legRequest text request selection) = .ok attempt.fill := by
  obtain ⟨delaySeconds, hdelay, h⟩ := except_bind_eq_ok.mp h
  obtain ⟨selection, hselection, h⟩ := except_bind_eq_ok.mp h
  obtain ⟨fill, hfill, h⟩ := except_bind_eq_ok.mp h
  obtain ⟨feeItems, -, h⟩ := except_bind_eq_ok.mp h
  cases h
  exact ⟨selection, except_bind_eq_ok.mpr ⟨delaySeconds, hdelay, hselection⟩, hfill⟩

theorem balanced_of_attempt (h : coordinator.attempt text call request = .ok attempt)
    (hquantity : 0 ≤ request.quantity) : attempt.Balanced := by
  obtain ⟨rfl, hnonneg, hle⟩ := attempt_spec h
  obtain ⟨selection, -, hfill⟩ := attempt_fill h
  rcases fill_cases hfill with ⟨-, hfilled, hremaining, -⟩ |
    ⟨quote, selectedPrice, slippage, fillRatio, hpriced⟩
  · change attempt.fill.remainingQuantity = attempt.request.quantity at hremaining
    exact ⟨hnonneg, by omega, by omega, fun _ => .inl hfilled, fun h => absurd hfilled h⟩
  · have hfilled := hpriced.filled
    have hremaining := hpriced.remaining
    change attempt.fill.filledQuantity = if _ then 0 else filledOf attempt.request fillRatio
      at hfilled
    change _ = max 0 (max 0 attempt.request.quantity - _) at hremaining
    refine ⟨hnonneg, by omega, by omega, fun hall => ?_, fun hsome => ?_⟩
    · split_ifs at hfilled
      · exact .inl hfilled
      · by_cases htaken : Taken attempt.request fillRatio
        · rw [filledOf_of_taken htaken, htaken.2.2 hall, max_eq_right hquantity] at hfilled
          exact .inr hfilled
        · exact .inl (hfilled.trans (filledOf_of_not_taken htaken))
    · split_ifs at hfilled
      · exact absurd hfilled hsome
      · by_cases htaken : Taken attempt.request fillRatio
        · rw [filledOf_of_taken htaken] at hfilled
          exact hfilled ▸ htaken.2.1
        · exact absurd (hfilled.trans (filledOf_of_not_taken htaken)) hsome

/-! ### The execution -/

/-- The attempts of an execution are those of its requests, in an order of their own. -/
theorem execute_attempts (h : coordinator.execute text call = .ok result) :
    ∃ attempts, call.requests.mapM (coordinator.attempt text call) = .ok attempts ∧
      result.fills.Perm attempts ∧
      result.residualRisk = aggregateResidual result.fills ++
        if call.maximumLeggingExposure < unfilledNotional result.fills then
          [("max_legging_exposure_breached", 1)]
        else [] := by
  obtain ⟨ordered, hordered, h⟩ := except_bind_eq_ok.mp h
  obtain ⟨sorted, hsorted, h⟩ := except_bind_eq_ok.mp h
  cases h
  have hperm : ordered.Perm call.requests := by
    rw [MultiLegExecutionCoordinator.ordered] at hordered
    split_ifs at hordered
    cases hordered
    exact StableSort.sortBy_perm
  obtain ⟨attempts, hattempts, hresults⟩ := mapM_eq_ok_perm hperm hsorted
  exact ⟨attempts, hattempts, hresults, rfl⟩

/-- Where no two legs share an identifier, the order of the requests is lost. -/
theorem execute_perm (hlegs : (call.requests.map (·.legId)).Nodup)
    {requests : List ExecutionRequest} (hperm : call.requests.Perm requests) :
    coordinator.execute text { call with requests } = coordinator.execute text call := by
  have hsorted : StableSort.sortBy (requestKey call) call.requests =
      StableSort.sortBy (requestKey { call with requests }) requests := by
    apply StableSort.sortBy_eq_of_perm ?_ hperm
    intro a ha b hb hkey
    have hid : a.legId = b.legId := congrArg (fun key => (ofLex (ofLex key).2).2) hkey
    exact List.inj_on_of_nodup_map hlegs ha hb hid
  have hcomparable : Comparable { call with requests } ↔ Comparable call := by
    simp only [Comparable, hperm.mem_iff]
  have hordered : ordered { call with requests } = ordered call := by
    simp only [ordered, hcomparable, hsorted]
  rw [execute, hordered]
  rfl

/-! ### Readable requests -/

/-- What is read as a number under the keys is one. -/
def Numbers (text : PyText) (policy : Payload) (keys : List String) : Prop :=
  ∀ key ∈ keys, ∀ default : ℚ, ∃ x, text.float (policy.get key (.float default)) = .ok x

/-- The prices of a row are numbers or missing, and its flags can be listed. -/
structure ReadableRow (text : PyText) (row : Payload) : Prop where
  prices : ∀ key ∈ ["bid", "ask", "last"],
    ∃ x, QuoteSelector.asFloat text (row.get key .none) = .ok x
  flags : ∃ flags, (row.get "quality_flags" (.list [])).iter = .ok flags
  volatility : ∃ x,
    floatOr text (row.get "iv" (row.get "implied_volatility" (.float 0))) 0 = .ok x
  liquidity : ∃ x, floatOr text (row.get "liquidity_score" (.float 1)) 1 = .ok x

structure ReadableRequest (text : PyText) (request : ExecutionRequest) : Prop where
  delay : Numbers text request.executionDelayPolicy ["seconds"]
  fill : Numbers text request.fillModelPolicy ["fill_ratio"]
  slippage : Numbers text request.slippagePolicy ["fixed_per_contract", "percent_of_price",
    "spread_width_multiplier", "volatility_sensitivity", "liquidity_sensitivity"]
  commission : Numbers text request.commissionPolicy ["per_contract", "per_order",
    "stock_commission", "minimum_ticket", "exercise_fee", "assignment_fee"]
  exchange : Numbers text request.exchangeFeePolicy ["exchange_fee", "regulatory_fee",
    "clearing_fee"]
  caps : ∀ key ∈ ["minimum_fee_cap", "maximum_fee_cap"],
    ∃ x, QuoteSelector.asFloat text (request.commissionPolicy.get key .none) = .ok x

theorem readable_theoreticalRow (delayedTs : DateTime) :
    ReadableRow text (QuoteSelector.theoreticalRow delayedTs) where
  prices key hkey := by
    refine ⟨none, ?_⟩
    simp only [List.mem_cons, List.not_mem_nil, or_false] at hkey
    rcases hkey with rfl | rfl | rfl <;> rfl
  flags := ⟨_, rfl⟩
  volatility := ⟨_, rfl⟩
  liquidity := ⟨_, rfl⟩

theorem select_returns (selector : QuoteSelector) (requestTimestamp : DateTime)
    {quotes : List Payload} (policy : QuoteSelectionPolicy) (delaySeconds : ℚ)
    (hrows : ∀ row ∈ quotes, ReadableRow text row) :
    ∃ selection, selector.select text requestTimestamp quotes policy delaySeconds =
        .ok selection ∧ ∀ row, selection.selectedQuote = some row → ReadableRow text row := by
  have hpick : ∀ row, QuoteSelector.pick policy.mode requestTimestamp.ensureAware
      (requestTimestamp.ensureAware.addSeconds (max 0 delaySeconds))
      (StableSort.sortBy (fun row => (QuoteSelector.rowTime row).instant) quotes) = some row →
        ReadableRow text row := by
    intro row hrow
    apply hrows
    rw [QuoteSelector.pick] at hrow
    split_ifs at hrow
    · exact StableSort.mem_sortBy.mp (List.mem_of_find?_eq_some hrow)
    · exact StableSort.mem_sortBy.mp (List.mem_of_find?_eq_some hrow)
    · exact StableSort.mem_sortBy.mp (List.takeWhile_subset _ (List.mem_of_getLast? hrow))
  rw [QuoteSelector.select]
  generalize QuoteSelector.pick policy.mode _ _ _ = picked at hpick ⊢
  dsimp only
  generalize hselected : (if picked.isNone && policy.theoreticalFallbackEnabled then
    some (QuoteSelector.theoreticalRow _) else picked) = selected
  cases selected with
  | none => exact ⟨_, rfl, fun _ h => nomatch h⟩
  | some row =>
    have hrow : ReadableRow text row := by
      split_ifs at hselected
      · cases hselected
        exact readable_theoreticalRow _
      · exact hpick row hselected
    obtain ⟨bid, hbid⟩ := hrow.prices "bid" (by simp)
    obtain ⟨ask, hask⟩ := hrow.prices "ask" (by simp)
    obtain ⟨last, hlast⟩ := hrow.prices "last" (by simp)
    obtain ⟨flags, hflags⟩ := hrow.flags
    dsimp only
    rw [hbid, hask, hlast, hflags]
    refine ⟨_, rfl, ?_⟩
    intro row' hrow'
    cases hrow'
    exact hrow

theorem fill_returns (engine : ResearchFillModelEngine) (req : FillModelRequest)
    (hrequest : ReadableRequest text req.request)
    (hquote : ∀ row, req.quote = some row → ReadableRow text row) :
    ∃ fill, engine.fill text req = .ok fill := by
  rw [ResearchFillModelEngine.fill]
  cases hrow : req.quote with
  | none => exact ⟨_, rfl⟩
  | some quote =>
    cases hprice : req.diagnostics.selectedPrice with
    | none => exact ⟨_, rfl⟩
    | some selectedPrice =>
      obtain ⟨vol, hvol⟩ := (hquote quote hrow).volatility
      obtain ⟨liq, hliq⟩ := (hquote quote hrow).liquidity
      obtain ⟨base, hbase⟩ := hrequest.slippage "fixed_per_contract" (by simp) 0
      obtain ⟨pct, hpct⟩ := hrequest.slippage "percent_of_price" (by simp) 0
      obtain ⟨spread, hspread⟩ := hrequest.slippage "spread_width_multiplier" (by simp) 0
      obtain ⟨sensitivity, hsensitivity⟩ :=
        hrequest.slippage "volatility_sensitivity" (by simp) engine.defaultVolSensitivity
      obtain ⟨liquidity, hliquidity⟩ :=
        hrequest.slippage "liquidity_sensitivity" (by simp) engine.defaultLiquiditySensitivity
      obtain ⟨ratio, hratio⟩ := hrequest.fill "fill_ratio" (by simp) 1
      dsimp only
      rw [slippageOf, hvol, hliq, hbase, hpct, hspread, hsensitivity, hliquidity, hratio]
      exact ⟨_, rfl⟩

theorem calculate_returns (request : FeeModelRequest)
    (h : ReadableRequest text request.request) :
    ∃ items, ItemizedFeeModel.calculate text request = .ok items := by
  obtain ⟨perContract, hperContract⟩ := h.commission "per_contract" (by simp) 0
  obtain ⟨perOrder, hperOrder⟩ := h.commission "per_order" (by simp) 0
  obtain ⟨stock, hstock⟩ := h.commission "stock_commission" (by simp) 0
  obtain ⟨ticket, hticket⟩ := h.commission "minimum_ticket" (by simp) 0
  obtain ⟨exchange, hexchange⟩ := h.exchange "exchange_fee" (by simp) 0
  obtain ⟨regulatory, hregulatory⟩ := h.exchange "regulatory_fee" (by simp) 0
  obtain ⟨clearing, hclearing⟩ := h.exchange "clearing_fee" (by simp) 0
  obtain ⟨exercise, hexercise⟩ := h.commission "exercise_fee" (by simp) 0
  obtain ⟨assignment, hassignment⟩ := h.commission "assignment_fee" (by simp) 0
  obtain ⟨capMin, hcapMin⟩ := h.caps "minimum_fee_cap" (by simp)
  obtain ⟨capMax, hcapMax⟩ := h.caps "maximum_fee_cap" (by simp)
  rw [ItemizedFeeModel.calculate]
  dsimp only
  rw [hperContract, hperOrder, hstock, hticket, hexchange, hregulatory, hclearing, hexercise,
    hassignment, hcapMin, hcapMax]
  exact ⟨_, rfl⟩

/-- An execution of readable requests returns. -/
theorem execute_returns (hcomparable : Comparable call)
    (hrequests : ∀ request ∈ call.requests, ReadableRequest text request)
    (hrows : ∀ quotes ∈ call.quotesByContract, ∀ row ∈ quotes.2, ReadableRow text row) :
    ∃ result, coordinator.execute text call = .ok result := by
  have hquotes : ∀ contract, ∀ row ∈ (call.quotesByContract.lookup contract).getD [],
      ReadableRow text row := by
    intro contract row hrow
    cases hlookup : call.quotesByContract.lookup contract with
    | none =>
      rw [hlookup] at hrow
      exact absurd hrow List.not_mem_nil
    | some quotes =>
      rw [hlookup] at hrow
      obtain ⟨before, after, hmem, -⟩ := List.lookup_eq_some_iff.mp hlookup
      exact hrows (contract, quotes) (hmem ▸ List.mem_append_right _ List.mem_cons_self) row hrow
  have hattempt : ∀ request ∈ StableSort.sortBy (requestKey call) call.requests,
      ∃ attempt, coordinator.attempt text call request = .ok attempt := by
    intro request hrequest
    have hreadable := hrequests request (StableSort.mem_sortBy.mp hrequest)
    obtain ⟨delaySeconds, hdelay⟩ := hreadable.delay "seconds" (by simp) 0
    obtain ⟨selection, hselection, hselected⟩ :=
      select_returns coordinator.quoteSelector request.requestedTimestamp call.quotePolicy
        delaySeconds (hquotes request.contractIdentifier)
    obtain ⟨fill, hfill⟩ := fill_returns coordinator.fillEngine
      (legRequest text request selection) hreadable hselected
    obtain ⟨fees, hfees⟩ :=
      calculate_returns ⟨request, fill.filledQuantity, fill.fillPrice⟩ hreadable
    refine exists_bind_eq_ok hdelay (exists_bind_eq_ok hselection (exists_bind_eq_ok hfill ?_))
    exact exists_bind_eq_ok hfees ⟨_, rfl⟩
  obtain ⟨attempts, hattempts⟩ := exists_mapM_eq_ok hattempt
  refine exists_bind_eq_ok (if_pos hcomparable) ?_
  exact exists_bind_eq_ok hattempts ⟨_, rfl⟩

/-! ### The account -/

def totalFilled (result : MultiLegExecutionResult) : Int :=
  (result.fills.map fun item => item.fill.filledQuantity).sum

/-- Every contract of an execution is accounted for, and the requests may come in any order. A
ratio of nothing requested is `0`. -/
theorem execute_accounts (text : PyText) (coordinator : MultiLegExecutionCoordinator)
    (call : ExecuteCall) (hlegs : (call.requests.map (·.legId)).Nodup)
    (hquantity : ∀ request ∈ call.requests, 0 ≤ request.quantity) :
    (∀ result, coordinator.execute text call = .ok result →
        (result.fills.map (·.request)).Perm call.requests ∧
        (∀ attempt ∈ result.fills, attempt.Balanced) ∧
        result.filledRatio =
          (totalFilled result : ℚ) / (call.requests.map (·.quantity)).sum ∧
        0 ≤ result.filledRatio ∧ result.filledRatio ≤ 1) ∧
      (∀ requests, call.requests.Perm requests →
        coordinator.execute text { call with requests } = coordinator.execute text call) ∧
      (Comparable call → (∀ request ∈ call.requests, ReadableRequest text request) →
        (∀ quotes ∈ call.quotesByContract, ∀ row ∈ quotes.2, ReadableRow text row) →
          ∃ result, coordinator.execute text call = .ok result) := by
  refine ⟨fun result hresult => ?_, fun _ => execute_perm hlegs, execute_returns⟩
  obtain ⟨attempts, hattempts, hperm, -⟩ := execute_attempts hresult
  have hmatched : attempts.map (·.request) = call.requests := by
    have hmap := map_eq_of_mapM_eq_ok (h := id) hattempts fun _ _ hattempt =>
      (attempt_spec hattempt).1
    rwa [List.map_id] at hmap
  have hrequests : (result.fills.map (·.request)).Perm call.requests :=
    hmatched ▸ hperm.map (·.request)
  have hbalanced : ∀ attempt ∈ result.fills, attempt.Balanced := by
    intro attempt hattempt
    obtain ⟨request, hrequest, hof⟩ := (mapM_eq_ok_mem hattempts).2 attempt
      (hperm.mem_iff.mp hattempt)
    exact balanced_of_attempt hof (hquantity request hrequest)
  have hrequested : Quantities.requested (attempts.map FillAttempt.quantities) =
      (call.requests.map (·.quantity)).sum := by
    rw [Quantities.requested, ← hmatched, List.map_map, List.map_map]
    congr 1
    apply List.map_congr_left
    intro attempt hattempt
    have hmem : attempt.request ∈ call.requests := hmatched ▸ List.mem_map_of_mem hattempt
    exact max_eq_right (hquantity _ hmem)
  have hfilled : Quantities.filled (attempts.map FillAttempt.quantities) = totalFilled result := by
    rw [Quantities.filled, List.map_map, totalFilled,
      (hperm.map fun item => item.fill.filledQuantity).sum_eq]
    rfl
  have hwithin := within_quantities hattempts
  obtain ⟨hnonneg, hle⟩ := Quantities.filled_bounds hwithin
  rw [hrequested, hfilled] at hle
  rw [hfilled] at hnonneg
  have hratio : result.filledRatio =
      (totalFilled result : ℚ) / (call.requests.map (·.quantity)).sum := by
    rw [(execute_spec hattempts hresult).1, Quantities.fillRatio_eq hwithin, hrequested, hfilled]
    split_ifs with hzero
    · rfl
    · rw [not_not.mp hzero, Int.cast_zero, div_zero]
  have hnonneg' : (0 : ℚ) ≤ totalFilled result := by exact_mod_cast hnonneg
  have hle' : (totalFilled result : ℚ) ≤ (call.requests.map (·.quantity)).sum := by
    exact_mod_cast hle
  refine ⟨hrequests, hbalanced, hratio, ?_, ?_⟩
  · rw [hratio]
    exact div_nonneg hnonneg' (hnonneg'.trans hle')
  · rw [hratio]
    exact div_le_one_of_le₀ hle' (hnonneg'.trans hle')

end MultiLegExecutionCoordinator

/-- Four contracts are bought and two are sold; the fill ratio is that of the first leg. -/
def verticalSpread (fillRatio : ℚ) : ExecuteCall where
  requests := [
    { strategyId := "s"
      positionId := "p"
      legId := "L1"
      contractIdentifier := "C1"
      side := .buy
      quantity := 4
      requestedTimestamp := ⟨0, some 0⟩
      executionDelayPolicy := []
      fillModelPolicy := [("fill_ratio", .float fillRatio)]
      slippagePolicy := []
      commissionPolicy := []
      exchangeFeePolicy := []
      minimumFillQuantity := 1
      allOrNoneResearch := false },
    { strategyId := "s"
      positionId := "p"
      legId := "L2"
      contractIdentifier := "C1"
      side := .sell
      quantity := 2
      requestedTimestamp := ⟨0, some 0⟩
      executionDelayPolicy := []
      fillModelPolicy := []
      slippagePolicy := []
      commissionPolicy := []
      exchangeFeePolicy := []
      minimumFillQuantity := 0
      allOrNoneResearch := true }]
  quotesByContract := [("C1", [[("timestamp", .datetime ⟨0, some 0⟩), ("bid", .float 1),
    ("ask", .float 1)]])]
  quotePolicy := { mode := "nearest_prior", priceSelection := .midpoint }
  legPriority := ["L2"]
  minimumAggregateFillRatio := 1 / 2
  timeoutSeconds := 1
  startedAt := ⟨0, some 0⟩
  now := ⟨0, some 0⟩
  maximumLeggingExposure := 2

namespace MultiLegExecutionCoordinator

theorem execute_accounts_verticalSpread : ∃ result,
    execute plainText ⟨{}, {}⟩ (verticalSpread (1 / 2)) = .ok result ∧
      (∀ attempt ∈ result.fills, attempt.Balanced) ∧
      result.filledRatio = (totalFilled result : ℚ) / 6 ∧
      execute plainText ⟨{}, {}⟩
        { verticalSpread (1 / 2) with
          requests := (verticalSpread (1 / 2)).requests.reverse } = .ok result := by
  obtain ⟨result, hresult⟩ : ∃ result,
      execute plainText ⟨{}, {}⟩ (verticalSpread (1 / 2)) = .ok result := ⟨_, rfl⟩
  obtain ⟨haccount, hperm, -⟩ := execute_accounts plainText ⟨{}, {}⟩ (verticalSpread (1 / 2))
    (by decide) (by decide)
  obtain ⟨-, hbalanced, hratio, -⟩ := haccount result hresult
  have hreversed := hperm _ (List.reverse_perm _).symm
  rw [hresult] at hreversed
  exact ⟨result, hresult, hbalanced, hratio, hreversed⟩

end MultiLegExecutionCoordinator
end OptionResearch
