import OptionResearch.AsOfQueries
import OptionResearch.ParameterSpaces

/-!
# Quote selection, fills and fees

One leg of an execution: `QuoteSelector` of `quote_selection.py` picks the quote and its price,
`ResearchFillModelEngine` of `fill_models.py` fills the leg at a slipped price and
`ItemizedFeeModel` of `fees.py` prices the fill. A fill is never negative and never exceeds what was
requested.
-/

namespace OptionResearch

namespace DateTime

/-- `t + timedelta(seconds=seconds)`. -/
def addSeconds (t : DateTime) (seconds : ℚ) : DateTime :=
  { t with wall := t.wall + roundHalfEven (seconds * 1000000) }

/-- `(t - u).total_seconds()` of aware values. -/
def secondsSince (t u : DateTime) : ℚ := (t.instant - u.instant : Int) / 1000000

end DateTime

inductive QuotePriceSelection where
  | bid
  | ask
  | midpoint
  | last
  | throughSpread
  deriving DecidableEq, Repr

structure QuoteSelectionPolicy where
  mode : String
  priceSelection : QuotePriceSelection
  throughSpreadPct : ℚ := 1 / 2
  theoreticalFallbackEnabled : Bool := false

structure QuoteSelectionResult where
  selectedQuote : Option Payload
  selectedPrice : Option ℚ
  quoteAgeSeconds : Option ℚ
  spreadWidth : Option ℚ
  qualityFlags : List String
  staleData : Bool
  crossedMarket : Bool
  sourceManifest : PyValue
  diagnostics : Payload

structure QuoteSelector where
  staleQuoteSeconds : ℚ := 120

namespace QuoteSelector

variable (text : PyText)

/-- `_aware(_ts(row))`: a row without a timestamp is as old as the epoch. -/
def rowTime (row : Payload) : DateTime :=
  match (row.get "timestamp" .none).datetime? with
  | some t => t.ensureAware
  | none => ⟨0, some 0⟩

/-- `_as_float`. -/
def asFloat : PyValue → Except Exc (Option ℚ)
  | .none => .ok none
  | value => do return some (← text.float value)

/-- `_price`; its last line is for no member of the enumeration. -/
def price (policy : QuoteSelectionPolicy) (bid ask last : Option ℚ) : Option ℚ :=
  match policy.priceSelection with
  | .bid => bid
  | .ask => ask
  | .last => last
  | .midpoint =>
    match bid, ask with
    | some bid, some ask => some ((bid + ask) / 2)
    | _, _ => none
  | .throughSpread =>
    match bid, ask with
    | some bid, some ask => some (bid + max 0 (min 1 policy.throughSpreadPct) * (ask - bid))
    | _, _ => none

/-- The row that the mode picks from the rows in time order. -/
def pick (mode : String) (ts delayedTs : DateTime) (ordered : List Payload) : Option Payload :=
  if mode = "exact" then
    ordered.find? fun row => (rowTime row).instant = ts.instant
  else if mode = "next_after_delay" then
    ordered.find? fun row => delayedTs ≤ rowTime row
  else
    -- Nearest prior: the last row before the first one that is too late.
    (ordered.takeWhile fun row => rowTime row ≤ ts).getLast?

def theoreticalRow (delayedTs : DateTime) : Payload :=
  [("timestamp", .datetime delayedTs), ("bid", .none), ("ask", .none), ("last", .none),
    ("theoretical", .float 0), ("manifest", .str "theoretical_fallback"),
    ("quality_flags", .list [.str "theoretical_fallback"])]

/-- The width of the spread, where there is one. -/
def spreadOf : Option ℚ → Option ℚ → Option ℚ
  | some bid, some ask => some (max 0 (ask - bid))
  | _, _ => none

def isCrossed : Option ℚ → Option ℚ → Bool
  | some bid, some ask => decide (ask < bid)
  | _, _ => false

def select (selector : QuoteSelector) (requestTimestamp : DateTime) (quotes : List Payload)
    (policy : QuoteSelectionPolicy) (delaySeconds : ℚ) : Except Exc QuoteSelectionResult := do
  let ts := requestTimestamp.ensureAware
  let delayedTs := ts.addSeconds (max 0 delaySeconds)
  let ordered := StableSort.sortBy (fun row => (rowTime row).instant) quotes
  let picked := pick policy.mode ts delayedTs ordered
  let selected :=
    if picked.isNone && policy.theoreticalFallbackEnabled then some (theoreticalRow delayedTs)
    else picked
  match selected with
  | none =>
    return {
      selectedQuote := none
      selectedPrice := none
      quoteAgeSeconds := none
      spreadWidth := none
      qualityFlags := ["missing_quote"]
      staleData := true
      crossedMarket := false
      sourceManifest := .none
      diagnostics := [("policy_mode", .str policy.mode)] }
  | some row =>
    let bid ← asFloat text (row.get "bid" .none)
    let ask ← asFloat text (row.get "ask" .none)
    let last ← asFloat text (row.get "last" .none)
    let spread := spreadOf bid ask
    let crossed := isCrossed bid ask
    let age := max 0 (ts.secondsSince (rowTime row))
    let stale := decide (selector.staleQuoteSeconds < age)
    let quality ← (row.get "quality_flags" (.list [])).iter
    return {
      selectedQuote := some row
      selectedPrice := price policy bid ask last
      quoteAgeSeconds := some age
      spreadWidth := spread
      qualityFlags := quality.map text.str ++ (if stale then ["stale_quote"] else []) ++
        if crossed then ["crossed_market"] else []
      staleData := stale
      crossedMarket := crossed
      sourceManifest := row.get "manifest" .none
      diagnostics :=
        [("policy_mode", .str policy.mode), ("delay_seconds", .float (max 0 delaySeconds)),
          ("selected_timestamp", .str (text.isoformat (rowTime row)))] }

end QuoteSelector

inductive ExecutionSide where
  | buy
  | sell
  deriving DecidableEq, Repr

/-- The fields of an `ExecutionRequest` that its execution reads. -/
structure ExecutionRequest where
  strategyId : String
  positionId : String
  legId : String
  contractIdentifier : String
  side : ExecutionSide
  quantity : Int
  requestedTimestamp : DateTime
  executionDelayPolicy : Payload
  fillModelPolicy : Payload
  slippagePolicy : Payload
  commissionPolicy : Payload
  exchangeFeePolicy : Payload
  minimumFillQuantity : Int
  allOrNoneResearch : Bool

structure FillModelRequest where
  request : ExecutionRequest
  quote : Option Payload
  diagnostics : QuoteSelectionResult
  policyName : String

structure FillModelResult where
  requestedQuantity : Int
  filledQuantity : Int
  remainingQuantity : Int
  fillPrice : Option ℚ
  fillTimestamp : PyValue
  fillModel : String
  slippage : ℚ
  spreadCapture : Option ℚ
  quoteQuality : ℚ
  warnings : List String
  failureReason : Option String

structure ResearchFillModelEngine where
  defaultVolSensitivity : ℚ := 1 / 50
  defaultLiquiditySensitivity : ℚ := 1 / 20

namespace ResearchFillModelEngine

variable (text : PyText) (engine : ResearchFillModelEngine)

/-- A result with nothing filled, for want of a quote or of its price. -/
def unfilled (quantity : Int) (timestamp : PyValue) (model warning reason : String) :
    FillModelResult where
  requestedQuantity := quantity
  filledQuantity := 0
  remainingQuantity := quantity
  fillPrice := none
  fillTimestamp := timestamp
  fillModel := model
  slippage := 0
  spreadCapture := none
  quoteQuality := 0
  warnings := [warning]
  failureReason := some reason

/-- `float(value or default)`. -/
def floatOr (value : PyValue) (default : ℚ) : Except Exc ℚ :=
  if value.truth then text.float value else .ok default

/-- The sum of the slippage terms. -/
def slippageOf (req : FillModelRequest) (quote : Payload) (selectedPrice : ℚ) : Except Exc ℚ := do
  let policy := req.request.slippagePolicy
  let spread := req.diagnostics.spreadWidth.getD 0
  let vol ← floatOr text (quote.get "iv" (quote.get "implied_volatility" (.float 0))) 0
  let liq ← floatOr text (quote.get "liquidity_score" (.float 1)) 1
  let baseSlippage ← text.float (policy.get "fixed_per_contract" (.float 0))
  let pctSlip ← text.float (policy.get "percent_of_price" (.float 0))
  let spreadMultiplier ← text.float (policy.get "spread_width_multiplier" (.float 0))
  let volSensitivity ← text.float
    (policy.get "volatility_sensitivity" (.float engine.defaultVolSensitivity))
  let liqSensitivity ← text.float
    (policy.get "liquidity_sensitivity" (.float engine.defaultLiquiditySensitivity))
  return baseSlippage + pctSlip * selectedPrice + spreadMultiplier * spread +
    volSensitivity * vol + liqSensitivity * max 0 (1 - liq)

/-- The contracts filled before the mode is looked at: a fill below the minimum, or a partial one
where none is wanted, is no fill. -/
def filledOf (request : ExecutionRequest) (fillRatio : ℚ) : Int :=
  let requestedQty := max 0 request.quantity
  let minFill := max 0 request.minimumFillQuantity
  let filled := truncate (requestedQty * max 0 (min 1 fillRatio))
  let filled := if filled ≠ 0 ∧ filled < minFill then 0 else filled
  if request.allOrNoneResearch ∧ filled ≠ 0 ∧ filled ≠ requestedQty then 0 else filled

def fill (req : FillModelRequest) : Except Exc FillModelResult :=
  let policy := req.request.fillModelPolicy
  match req.quote with
  | none => .ok (unfilled req.request.quantity .none req.policyName "no_quote" "missing_quote")
  | some quote =>
    let mode := text.str (policy.get "mode" (.str req.policyName))
    match req.diagnostics.selectedPrice with
    | none =>
      .ok (unfilled req.request.quantity (quote.get "timestamp" .none) mode "price_unavailable"
        "price_unavailable")
    | some selectedPrice => do
      let spread := req.diagnostics.spreadWidth.getD 0
      let slippage ← engine.slippageOf text req quote selectedPrice
      let signed := if req.request.side = .buy then slippage else -slippage
      let rawFill := max 0 (selectedPrice + signed)
      let requestedQty := max 0 req.request.quantity
      let fillRatio ← text.float (policy.get "fill_ratio" (.float 1))
      let filled := if mode = "no_fill" then 0 else filledOf req.request fillRatio
      let reason :=
        if mode = "no_fill" then some "policy_no_fill"
        else if filled = 0 then some "insufficient_liquidity"
        else none
      return {
        requestedQuantity := requestedQty
        filledQuantity := filled
        remainingQuantity := max 0 (requestedQty - filled)
        fillPrice := if 0 < filled then some rawFill else none
        fillTimestamp := quote.get "timestamp" .none
        fillModel := mode
        slippage := slippage
        spreadCapture := if spread ≤ 0 then none else some (spread * (1 / 2) - |slippage|)
        quoteQuality := max 0 (1 - min 1 (req.diagnostics.quoteAgeSeconds.getD 0 / 600))
        warnings := req.diagnostics.qualityFlags
        failureReason := reason }

end ResearchFillModelEngine

structure FeeItem where
  feeType : String
  amount : ℚ
  currency : String := "USD"

structure FeeModelRequest where
  request : ExecutionRequest
  filledQuantity : Int
  fillPrice : Option ℚ

namespace ItemizedFeeModel

variable (text : PyText)

/-- `calculate`. -/
def calculate (request : FeeModelRequest) : Except Exc (List FeeItem) := do
  let qty := max 0 request.filledQuantity
  let policy := request.request.commissionPolicy
  let exchangePolicy := request.request.exchangeFeePolicy
  let amount (policy : Payload) (key : String) : Except Exc ℚ :=
    text.float (policy.get key (.float 0))
  let perContract ← amount policy "per_contract"
  let perOrder ← amount policy "per_order"
  let stockCommission ← amount policy "stock_commission"
  let minimumTicket ← amount policy "minimum_ticket"
  let exchangeFee ← amount exchangePolicy "exchange_fee"
  let regulatoryFee ← amount exchangePolicy "regulatory_fee"
  let clearingFee ← amount exchangePolicy "clearing_fee"
  let exerciseFee ← amount policy "exercise_fee"
  let assignmentFee ← amount policy "assignment_fee"
  let capMin ← QuoteSelector.asFloat text (policy.get "minimum_fee_cap" .none)
  let capMax ← QuoteSelector.asFloat text (policy.get "maximum_fee_cap" .none)
  let base := perContract * qty + perOrder + stockCommission
  let base := if 0 < qty then max base minimumTicket else base
  let base := match capMin with
    | some cap => max base cap
    | none => base
  let base := match capMax with
    | some cap => min base cap
    | none => base
  return [{ feeType := "commission", amount := roundTo base 8 },
    { feeType := "exchange_fee", amount := roundTo (exchangeFee * qty) 8 },
    { feeType := "regulatory_fee", amount := roundTo (regulatoryFee * qty) 8 },
    { feeType := "clearing_fee", amount := roundTo (clearingFee * qty) 8 },
    { feeType := "exercise_fee", amount := roundTo exerciseFee 8 },
    { feeType := "assignment_fee", amount := roundTo assignmentFee 8 }]

end ItemizedFeeModel

namespace ResearchFillModelEngine

variable {text : PyText} {engine : ResearchFillModelEngine}

theorem filledOf_bounds (request : ExecutionRequest) (fillRatio : ℚ) :
    0 ≤ filledOf request fillRatio ∧ filledOf request fillRatio ≤ max 0 request.quantity := by
  have hquantity : (0 : ℚ) ≤ (max 0 request.quantity : Int) := by
    exact_mod_cast le_max_left 0 request.quantity
  have hratio : (0 : ℚ) ≤ max 0 (min 1 fillRatio) := le_max_left _ _
  have hone : max 0 (min 1 fillRatio) ≤ (1 : ℚ) :=
    max_le zero_le_one (min_le_left _ _)
  have hnonneg : 0 ≤ truncate ((max 0 request.quantity : Int) * max 0 (min 1 fillRatio)) :=
    truncate_nonneg (mul_nonneg hquantity hratio)
  have hle : truncate ((max 0 request.quantity : Int) * max 0 (min 1 fillRatio)) ≤
      max 0 request.quantity :=
    truncate_le (mul_nonneg hquantity hratio) (mul_le_of_le_one_right hquantity hone)
  have hnone : (0 : Int) ≤ 0 ∧ 0 ≤ max 0 request.quantity := ⟨le_rfl, le_max_left _ _⟩
  simp only [filledOf]
  split_ifs
  · exact hnone
  · exact hnone
  · exact hnone
  · exact ⟨hnonneg, hle⟩

/-- A fill is not negative and within what was requested. -/
theorem fill_bounds {req : FillModelRequest} {result : FillModelResult}
    (h : engine.fill text req = .ok result) :
    0 ≤ result.filledQuantity ∧ result.filledQuantity ≤ max 0 req.request.quantity := by
  have hnone : (0 : Int) ≤ 0 ∧ 0 ≤ max 0 req.request.quantity := ⟨le_rfl, le_max_left _ _⟩
  rw [fill] at h
  cases hquote : req.quote with
  | none =>
    rw [hquote] at h
    cases h
    exact hnone
  | some quote =>
    cases hprice : req.diagnostics.selectedPrice with
    | none =>
      rw [hquote, hprice] at h
      cases h
      exact hnone
    | some selectedPrice =>
      rw [hquote, hprice] at h
      obtain ⟨slippage, -, h⟩ := except_bind_eq_ok.mp h
      obtain ⟨fillRatio, -, h⟩ := except_bind_eq_ok.mp h
      cases h
      dsimp only
      split_ifs
      · exact hnone
      · exact filledOf_bounds _ _

end ResearchFillModelEngine

end OptionResearch
