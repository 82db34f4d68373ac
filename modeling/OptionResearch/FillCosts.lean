import OptionResearch.MultiLegExecution
import Mathlib.Algebra.Order.Ring.Abs
import Mathlib.Tactic.Linarith
import Mathlib.Tactic.Ring

/-!
# What illiquidity and an unfilled order cost

The slippage of `ResearchFillModelEngine.fill` grows as the liquidity score of the quote falls, down
to a score of zero, which `or 1.0` reads as a missing score and so as full liquidity.
`ItemizedFeeModel.calculate` waives the minimum ticket of an order that is not filled, and neither
its per-order charges nor its minimum.
-/

namespace OptionResearch

namespace ResearchFillModelEngine

variable {text : PyText} {engine : ResearchFillModelEngine} {req : FillModelRequest}
  {result result' : FillModelResult} {quote : Payload} {more less : PyValue}

/-! ### The liquidity of a quote -/

/-- The quote with another liquidity score. -/
def scored (quote : Payload) (score : PyValue) : Payload :=
  PyValue.setItem quote ("liquidity_score", score)

/-- The coefficient of illiquidity in the slippage. -/
def liquiditySensitivity (text : PyText) (engine : ResearchFillModelEngine)
    (req : FillModelRequest) : Except Exc ℚ :=
  text.float (req.request.slippagePolicy.get "liquidity_sensitivity"
    (.float engine.defaultLiquiditySensitivity))

theorem slippageOf_scored {selectedPrice slippage liq' : ℚ}
    (hless : floatOr text less 1 = .ok liq')
    (h : engine.slippageOf text req (scored quote more) selectedPrice = .ok slippage) :
    ∃ k liq, liquiditySensitivity text engine req = .ok k ∧ floatOr text more 1 = .ok liq ∧
      engine.slippageOf text req (scored quote less) selectedPrice =
        .ok (slippage + k * (max 0 (1 - liq') - max 0 (1 - liq))) := by
  have hscore : ∀ score, (scored quote score).get "liquidity_score" (.float 1) = score := by
    intro score
    rw [scored, Payload.get_setItem, if_pos rfl]
  have hvol : ∀ score, (scored quote score).get "iv"
      ((scored quote score).get "implied_volatility" (.float 0)) =
        quote.get "iv" (quote.get "implied_volatility" (.float 0)) := by
    intro score
    rw [scored, Payload.get_setItem, if_neg (by decide), Payload.get_setItem,
      if_neg (by decide)]
  rw [slippageOf, hvol, hscore] at h
  obtain ⟨vol, hv, h⟩ := except_bind_eq_ok.mp h
  obtain ⟨liq, hliq, h⟩ := except_bind_eq_ok.mp h
  obtain ⟨base, hbase, h⟩ := except_bind_eq_ok.mp h
  obtain ⟨pct, hpct, h⟩ := except_bind_eq_ok.mp h
  obtain ⟨spread, hspread, h⟩ := except_bind_eq_ok.mp h
  obtain ⟨volSensitivity, hvs, h⟩ := except_bind_eq_ok.mp h
  obtain ⟨k, hk, h⟩ := except_bind_eq_ok.mp h
  obtain rfl := Except.ok.inj h
  refine ⟨k, liq, hk, hliq, ?_⟩
  rw [slippageOf, hvol, hscore, hv, hless, hbase, hpct, hspread, hvs, hk]
  simp only [except_ok_bind]
  refine congrArg Except.ok ?_
  ring

/-- What a fill with a quote and a price returns. -/
theorem fill_of_slippageOf (req : FillModelRequest) {selectedPrice slippage fillRatio : ℚ}
    (hquote : req.quote = some quote)
    (hprice : req.diagnostics.selectedPrice = some selectedPrice)
    (hslippage : engine.slippageOf text req quote selectedPrice = .ok slippage)
    (hratio : text.float (req.request.fillModelPolicy.get "fill_ratio" (.float 1)) =
      .ok fillRatio) :
    ∃ result, engine.fill text req = .ok result ∧ result.slippage = slippage ∧
      ∀ p, result.fillPrice = some p →
        p = slippedPrice req.request.side selectedPrice slippage := by
  rw [fill, hquote, hprice]
  simp only [hslippage, hratio, except_ok_bind]
  refine ⟨_, rfl, rfl, fun p hp => ?_⟩
  exact (Option.some.inj (Option.ite_none_right_eq_some.mp hp).2).symm

/-- The first fill is no worse than the second: it slips no more, a buy is no dearer and a sell no
cheaper. -/
structure NoWorse (side : ExecutionSide) (result result' : FillModelResult) : Prop where
  slippage : result.slippage ≤ result'.slippage
  buy : side = .buy → ∀ p p', result.fillPrice = some p → result'.fillPrice = some p' → p ≤ p'
  sell : side = .sell → ∀ p p', result.fillPrice = some p → result'.fillPrice = some p' → p' ≤ p

theorem noWorse_of_slippage {side : ExecutionSide} (selectedPrice : ℚ)
    (hprice : ∀ p, result.fillPrice = some p →
      p = slippedPrice side selectedPrice result.slippage)
    (hprice' : ∀ p, result'.fillPrice = some p →
      p = slippedPrice side selectedPrice result'.slippage)
    (h : result.slippage ≤ result'.slippage) : NoWorse side result result' where
  slippage := h
  buy hside p p' hp hp' := by
    rw [hprice p hp, hprice' p' hp', slippedPrice, slippedPrice, if_pos hside, if_pos hside]
    exact max_le_max le_rfl (by linarith)
  sell hside p p' hp hp' := by
    have hbuy : side ≠ .buy := by
      rw [hside]
      decide
    rw [hprice p hp, hprice' p' hp', slippedPrice, slippedPrice, if_neg hbuy, if_neg hbuy]
    exact max_le_max le_rfl (by linarith)

/-- The score that enters the slippage. -/
theorem floatOr_score {value : PyValue} {s : ℚ} (h : text.float value = .ok s) :
    floatOr text value 1 = .ok (if value.truth then s else 1) := by
  rw [floatOr]
  split_ifs
  · exact h
  · rfl

/-- A score that is read lower raises what it enters; one of zero is read as one. -/
theorem le_add_illiquidity_iff {slippage k s s' : ℚ} {high low : Bool} (hk : 0 ≤ k) (hle : s' ≤ s)
    (hone : s ≤ 1) :
    slippage ≤ slippage +
        k * (max 0 (1 - if low then s' else 1) - max 0 (1 - if high then s else 1)) ↔
      low ∨ ¬ high ∨ s = 1 ∨ k = 0 := by
  rw [le_add_iff_nonneg_right]
  have hs : max 0 (1 - s) = 1 - s := max_eq_right (by linarith)
  have hs' : max 0 (1 - s') = 1 - s' := max_eq_right (by linarith)
  cases low with
  | true =>
    refine iff_of_true (mul_nonneg hk ?_) (.inl rfl)
    cases high <;> simp [hs, hs'] <;> linarith
  | false =>
    cases high with
    | false => simp
    | true =>
      simp only [Bool.false_eq_true, if_false, if_true, sub_self, max_self, hs, zero_sub,
        not_true_eq_false, false_or]
      constructor
      · intro h
        rcases hk.eq_or_lt with rfl | hpos
        · exact .inr rfl
        · exact .inl (by nlinarith)
      · rintro (rfl | rfl) <;> simp

/-- Illiquidity costs, unless it is a score of zero in place of one between zero and one. -/
theorem noWorse_iff (text : PyText) (engine : ResearchFillModelEngine) (req : FillModelRequest)
    (quote : Payload) (more less : PyValue) {s s' : ℚ} {result : FillModelResult}
    (hmore : text.float more = .ok s) (hless : text.float less = .ok s')
    (hle : s' ≤ s) (hone : s ≤ 1)
    (hsensitivity : ∀ k, liquiditySensitivity text engine req = .ok k → 0 ≤ k)
    (hresult : engine.fill text { req with quote := some (scored quote more) } = .ok result) :
    ∃ result', engine.fill text { req with quote := some (scored quote less) } = .ok result' ∧
      (NoWorse req.request.side result result' ↔
        req.diagnostics.selectedPrice = none ∨ less.truth ∨ ¬ more.truth ∨ s = 1 ∨
          liquiditySensitivity text engine req = .ok 0) := by
  cases hprice : req.diagnostics.selectedPrice with
  | none =>
    rw [fill, hprice] at hresult
    rw [fill, hprice]
    obtain rfl := Except.ok.inj hresult
    refine ⟨_, rfl, iff_of_true ⟨le_rfl, ?_, ?_⟩ (.inl rfl)⟩
    · exact fun _ p _ hp => absurd hp.symm (Option.some_ne_none p)
    · exact fun _ p _ hp => absurd hp.symm (Option.some_ne_none p)
  | some selectedPrice =>
    have hresult' := hresult
    rw [fill, hprice] at hresult'
    obtain ⟨slippage, hslippage, hresult'⟩ := except_bind_eq_ok.mp hresult'
    obtain ⟨fillRatio, hratio, -⟩ := except_bind_eq_ok.mp hresult'
    obtain ⟨k, liq, hk, hliq, hslippage'⟩ := slippageOf_scored (floatOr_score hless) hslippage
    change liquiditySensitivity text engine req = .ok k at hk
    obtain ⟨other, h, hslips, hpriced⟩ := fill_of_slippageOf
      { req with quote := some (scored quote more) } rfl hprice hslippage hratio
    obtain rfl := Except.ok.inj (hresult.symm.trans h)
    obtain ⟨result', h', hslips', hpriced'⟩ := fill_of_slippageOf
      { req with quote := some (scored quote less) } rfl hprice hslippage' hratio
    refine ⟨result', h', ?_⟩
    have hliq := Except.ok.inj (hliq.symm.trans (floatOr_score hmore))
    have hworse : NoWorse req.request.side result result' ↔ result.slippage ≤ result'.slippage := by
      refine ⟨NoWorse.slippage, noWorse_of_slippage selectedPrice ?_ ?_⟩
      · rwa [hslips]
      · rwa [hslips']
    have hk0 : 0 ≤ k := hsensitivity k hk
    have hzero : liquiditySensitivity text engine req = .ok 0 ↔ k = 0 := by
      rw [hk]
      exact ⟨Except.ok.inj, congrArg Except.ok⟩
    rw [hworse, hslips, hslips', hliq, le_add_illiquidity_iff hk0 hle hone, hzero]
    simp only [reduceCtorEq, false_or]

/-- A market order of one contract at a mid price of one. -/
def marketOrder (quantity : Int) (commissionPolicy : Payload) : ExecutionRequest where
  strategyId := "s"
  positionId := "p"
  legId := "L1"
  contractIdentifier := "C1"
  side := .buy
  quantity := quantity
  requestedTimestamp := ⟨0, some 0⟩
  executionDelayPolicy := []
  fillModelPolicy := []
  slippagePolicy := []
  commissionPolicy := commissionPolicy
  exchangeFeePolicy := []
  minimumFillQuantity := 0
  allOrNoneResearch := false

def marketFill : FillModelRequest where
  request := marketOrder 1 []
  quote := none
  diagnostics := {
    selectedQuote := none
    selectedPrice := some 1
    quoteAgeSeconds := none
    spreadWidth := none
    qualityFlags := []
    staleData := false
    crossedMarket := false
    sourceManifest := .none
    diagnostics := [] }
  policyName := "midpoint"

theorem fill_marketFill (x : ℚ) : ∃ result,
    fill plainText {} { marketFill with quote := some (scored [] (.float x)) } = .ok result ∧
      result.slippage = 1 / 20 * max 0 (1 - if (PyValue.float x).truth then x else 1) := by
  have hslippage : ({} : ResearchFillModelEngine).slippageOf plainText
      { marketFill with quote := some (scored [] (.float x)) } (scored [] (.float x)) 1 =
        .ok (0 + 0 * 1 + 0 * 0 + 1 / 50 * 0 +
          1 / 20 * max 0 (1 - if (PyValue.float x).truth then x else 1)) :=
    except_bind_eq_ok.mpr ⟨0, rfl, except_bind_eq_ok.mpr ⟨_, floatOr_score rfl, rfl⟩⟩
  obtain ⟨result, hresult, hslips, -⟩ := fill_of_slippageOf
    { marketFill with quote := some (scored [] (.float x)) } rfl rfl hslippage rfl
  refine ⟨result, hresult, hslips.trans ?_⟩
  ring

/-- A score of a quarter costs more than one of a half. -/
theorem noWorse_iff_marketFill : ∃ result result',
    fill plainText {} { marketFill with quote := some (scored [] (.float (1 / 2))) } = .ok result ∧
      fill plainText {} { marketFill with quote := some (scored [] (.float (1 / 4))) } =
        .ok result' ∧
      (NoWorse .buy result result' ↔
        marketFill.diagnostics.selectedPrice = none ∨ (PyValue.float (1 / 4)).truth ∨
          ¬ (PyValue.float (1 / 2)).truth ∨ (1 / 2 : ℚ) = 1 ∨
          liquiditySensitivity plainText {} marketFill = .ok 0) := by
  obtain ⟨result, hresult, -⟩ := fill_marketFill (1 / 2)
  obtain ⟨result', hresult', hiff⟩ := noWorse_iff plainText {} marketFill []
    (.float (1 / 2)) (.float (1 / 4)) rfl rfl (by norm_num) (by norm_num)
    (fun k hk => by
      obtain rfl := Except.ok.inj hk
      norm_num) hresult
  exact ⟨result, result', hresult, hresult', hiff⟩

/-- No coefficient of the slippage policy is negative. -/
def NonnegativeCoefficients (text : PyText) (engine : ResearchFillModelEngine)
    (policy : Payload) : Prop :=
  ∀ entry ∈ [("fixed_per_contract", 0), ("percent_of_price", 0), ("spread_width_multiplier", 0),
      ("volatility_sensitivity", engine.defaultVolSensitivity),
      ("liquidity_sensitivity", engine.defaultLiquiditySensitivity)],
    ∀ k, text.float (policy.get entry.1 (.float entry.2)) = .ok k → 0 ≤ k

/-- A score of zero buys at the price of a score of one, and cheaper than one of a half. -/
theorem cheaper_at_zero : ¬ ∀ (text : PyText) (engine : ResearchFillModelEngine)
    (req : FillModelRequest) (quote : Payload) (more less : PyValue) (s s' : ℚ)
    (result result' : FillModelResult),
      text.float more = .ok s → text.float less = .ok s' → 0 ≤ s' → s' ≤ s → s ≤ 1 →
      NonnegativeCoefficients text engine req.request.slippagePolicy →
      engine.fill text { req with quote := some (scored quote more) } = .ok result →
      engine.fill text { req with quote := some (scored quote less) } = .ok result' →
      NoWorse req.request.side result result' := by
  intro h
  obtain ⟨result, hresult, hslips⟩ := fill_marketFill (1 / 2)
  obtain ⟨result', hresult', hslips'⟩ := fill_marketFill 0
  have hworse := h plainText {} marketFill [] (.float (1 / 2)) (.float 0) (1 / 2) 0 result result'
    rfl rfl le_rfl (by norm_num) (by norm_num) ?_ hresult hresult'
  · have hslippage := hworse.slippage
    rw [hslips, hslips'] at hslippage
    norm_num [PyValue.truth] at hslippage
  · intro entry hentry k hk
    obtain rfl := Except.ok.inj hk
    simp only [List.mem_cons, List.not_mem_nil, or_false] at hentry
    rcases hentry with rfl | rfl | rfl | rfl | rfl <;> norm_num

end ResearchFillModelEngine

/-! ### The fees of an unfilled order -/

theorem roundTo_eq_zero_iff {x : ℚ} : roundTo x 8 = 0 ↔ |x| ≤ 1 / 200000000 := by
  have hpow : (10 : ℚ) ^ (8 : Int) = 100000000 := by norm_num
  rw [roundTo, hpow, div_eq_zero_iff, or_iff_left (by norm_num), Int.cast_eq_zero,
    roundHalfEven_eq_zero_iff, abs_mul, abs_of_pos (by norm_num : (0 : ℚ) < 100000000)]
  constructor <;> intro h <;> linarith

/-- The charges of a commission policy that no quantity enters. -/
structure FixedFees where
  perOrder : ℚ
  stockCommission : ℚ
  exerciseFee : ℚ
  assignmentFee : ℚ
  minimumFeeCap : Option ℚ
  maximumFeeCap : Option ℚ

namespace FixedFees

/-- The charges as the policy states them. -/
structure Read (text : PyText) (policy : Payload) (fees : FixedFees) : Prop where
  perOrder : text.float (policy.get "per_order" (.float 0)) = .ok fees.perOrder
  stockCommission : text.float (policy.get "stock_commission" (.float 0)) = .ok fees.stockCommission
  exerciseFee : text.float (policy.get "exercise_fee" (.float 0)) = .ok fees.exerciseFee
  assignmentFee : text.float (policy.get "assignment_fee" (.float 0)) = .ok fees.assignmentFee
  minimumFeeCap : QuoteSelector.asFloat text (policy.get "minimum_fee_cap" .none) =
    .ok fees.minimumFeeCap
  maximumFeeCap : QuoteSelector.asFloat text (policy.get "maximum_fee_cap" .none) =
    .ok fees.maximumFeeCap

/-- The commission on an order whatever becomes of it. -/
def commission (fees : FixedFees) : ℚ :=
  let raised := (fees.minimumFeeCap.map (max (fees.perOrder + fees.stockCommission))).getD
    (fees.perOrder + fees.stockCommission)
  (fees.maximumFeeCap.map (min raised)).getD raised

/-- What is charged for no fill. -/
def total (fees : FixedFees) : ℚ :=
  roundTo fees.commission 8 + roundTo fees.exerciseFee 8 + roundTo fees.assignmentFee 8

/-- Charges that are no rebates come to nothing if none of them is rounded up. -/
theorem total_eq_zero_iff {fees : FixedFees} (hcommission : 0 ≤ fees.commission)
    (hexercise : 0 ≤ fees.exerciseFee) (hassignment : 0 ≤ fees.assignmentFee) :
    fees.total = 0 ↔ fees.commission ≤ 1 / 200000000 ∧ fees.exerciseFee ≤ 1 / 200000000 ∧
      fees.assignmentFee ≤ 1 / 200000000 := by
  have hsum := add_nonneg (roundTo_nonneg hcommission 8) (roundTo_nonneg hexercise 8)
  rw [total, add_eq_zero_iff_of_nonneg hsum (roundTo_nonneg hassignment 8),
    add_eq_zero_iff_of_nonneg (roundTo_nonneg hcommission 8) (roundTo_nonneg hexercise 8),
    roundTo_eq_zero_iff, roundTo_eq_zero_iff, roundTo_eq_zero_iff, abs_of_nonneg hcommission,
    abs_of_nonneg hexercise, abs_of_nonneg hassignment, and_assoc]

end FixedFees

/-- The items of an order of which nothing is filled sum to its fixed charges. -/
theorem ItemizedFeeModel.calculate_unfilled {text : PyText} {request : FeeModelRequest}
    {items : List FeeItem} (h : calculate text request = .ok items)
    (hnone : request.filledQuantity = 0) :
    ∃ fees, FixedFees.Read text request.request.commissionPolicy fees ∧
      (items.map (·.amount)).sum = fees.total := by
  obtain ⟨perContract, -, h⟩ := except_bind_eq_ok.mp h
  obtain ⟨perOrder, hperOrder, h⟩ := except_bind_eq_ok.mp h
  obtain ⟨stock, hstock, h⟩ := except_bind_eq_ok.mp h
  obtain ⟨ticket, -, h⟩ := except_bind_eq_ok.mp h
  obtain ⟨exchange, -, h⟩ := except_bind_eq_ok.mp h
  obtain ⟨regulatory, -, h⟩ := except_bind_eq_ok.mp h
  obtain ⟨clearing, -, h⟩ := except_bind_eq_ok.mp h
  obtain ⟨exercise, hexercise, h⟩ := except_bind_eq_ok.mp h
  obtain ⟨assignment, hassignment, h⟩ := except_bind_eq_ok.mp h
  obtain ⟨capMin, hcapMin, h⟩ := except_bind_eq_ok.mp h
  obtain ⟨capMax, hcapMax, h⟩ := except_bind_eq_ok.mp h
  obtain rfl := Except.ok.inj h
  refine ⟨⟨perOrder, stock, exercise, assignment, capMin, capMax⟩,
    ⟨hperOrder, hstock, hexercise, hassignment, hcapMin, hcapMax⟩, ?_⟩
  have hqty : max 0 request.filledQuantity = 0 := by rw [hnone, max_self]
  simp only [hqty, Int.cast_zero, mul_zero, zero_add, lt_irrefl, if_false, roundTo_zero,
    List.map_cons, List.map_nil, List.sum_cons, List.sum_nil, add_zero]
  rw [FixedFees.total, FixedFees.commission, add_assoc]
  cases capMin <;> cases capMax <;> rfl

namespace MultiLegExecutionCoordinator

variable {text : PyText} {coordinator : MultiLegExecutionCoordinator} {call : ExecuteCall}
  {request : ExecutionRequest} {attempt : FillAttempt}

theorem attempt_fees (h : coordinator.attempt text call request = .ok attempt) :
    ItemizedFeeModel.calculate text
      ⟨attempt.request, attempt.fill.filledQuantity, attempt.fill.fillPrice⟩ =
        .ok attempt.fees := by
  obtain ⟨delaySeconds, -, h⟩ := except_bind_eq_ok.mp h
  obtain ⟨selection, -, h⟩ := except_bind_eq_ok.mp h
  obtain ⟨fill, -, h⟩ := except_bind_eq_ok.mp h
  obtain ⟨feeItems, hfees, h⟩ := except_bind_eq_ok.mp h
  obtain rfl := Except.ok.inj h
  exact hfees

/-- An attempt that fills nothing is free exactly if the fixed charges of its policy come to
nothing, which without rebates means that each of them does. -/
theorem unfilled_free_iff (text : PyText) (coordinator : MultiLegExecutionCoordinator)
    (call : ExecuteCall) {result : MultiLegExecutionResult} {attempt : FillAttempt}
    (hresult : coordinator.execute text call = .ok result) (hattempt : attempt ∈ result.fills)
    (hnone : attempt.fill.filledQuantity = 0) :
    ∃ fees, FixedFees.Read text attempt.request.commissionPolicy fees ∧
      ((attempt.fees.map (·.amount)).sum = 0 ↔ fees.total = 0) ∧
      (0 ≤ fees.commission → 0 ≤ fees.exerciseFee → 0 ≤ fees.assignmentFee →
        ((attempt.fees.map (·.amount)).sum = 0 ↔ fees.commission ≤ 1 / 200000000 ∧
          fees.exerciseFee ≤ 1 / 200000000 ∧ fees.assignmentFee ≤ 1 / 200000000)) := by
  obtain ⟨attempts, hattempts, hperm, -⟩ := execute_attempts hresult
  obtain ⟨request, -, hof⟩ := (mapM_eq_ok_mem hattempts).2 attempt (hperm.mem_iff.mp hattempt)
  obtain ⟨fees, hread, hsum⟩ := ItemizedFeeModel.calculate_unfilled (attempt_fees hof) hnone
  rw [hsum]
  exact ⟨fees, hread, Iff.rfl, FixedFees.total_eq_zero_iff⟩

/-- One order for which there is no quote. -/
def unquoted (commissionPolicy : Payload) : ExecuteCall where
  requests := [ResearchFillModelEngine.marketOrder 1 commissionPolicy]
  quotesByContract := []
  quotePolicy := { mode := "nearest_prior", priceSelection := .midpoint }
  legPriority := []
  minimumAggregateFillRatio := 1
  timeoutSeconds := 1
  startedAt := ⟨0, some 0⟩
  now := ⟨0, some 0⟩
  maximumLeggingExposure := 0

/-- A ticket and a contract that are not filled are not charged. -/
theorem unfilled_free_iff_unquoted : ∃ result attempt fees,
    execute plainText ⟨{}, {}⟩ (unquoted [("minimum_ticket", .float 5), ("per_contract", .float 1)])
        = .ok result ∧ attempt ∈ result.fills ∧
      FixedFees.Read plainText attempt.request.commissionPolicy fees ∧
      ((attempt.fees.map (·.amount)).sum = 0 ↔ fees.total = 0) := by
  obtain ⟨result, attempt, hresult, hattempt, hnone⟩ : ∃ result attempt,
      execute plainText ⟨{}, {}⟩
          (unquoted [("minimum_ticket", .float 5), ("per_contract", .float 1)]) = .ok result ∧
        attempt ∈ result.fills ∧ attempt.fill.filledQuantity = 0 :=
    ⟨_, _, rfl, List.mem_cons_self, rfl⟩
  obtain ⟨fees, hread, hiff, -⟩ := unfilled_free_iff plainText ⟨{}, {}⟩ _ hresult hattempt hnone
  exact ⟨result, attempt, fees, hresult, hattempt, hread, hiff⟩

/-- A charge for each order is made for one that has no quote. -/
theorem charged_unfilled : ¬ ∀ (text : PyText) (coordinator : MultiLegExecutionCoordinator)
    (call : ExecuteCall) (result : MultiLegExecutionResult) (attempt : FillAttempt),
      coordinator.execute text call = .ok result → attempt ∈ result.fills →
      attempt.fill.filledQuantity = 0 → (attempt.fees.map (·.amount)).sum = 0 := by
  intro h
  obtain ⟨result, attempt, hresult, hattempt, hnone, hsum⟩ : ∃ result attempt,
      execute plainText ⟨{}, {}⟩ (unquoted [("per_order", .float 1)]) = .ok result ∧
        attempt ∈ result.fills ∧ attempt.fill.filledQuantity = 0 ∧
        (attempt.fees.map (·.amount)).sum = 1 :=
    ⟨_, _, rfl, List.mem_cons_self, rfl, by decide +kernel⟩
  have hzero := h _ _ _ _ _ hresult hattempt hnone
  exact absurd (hsum.symm.trans hzero) one_ne_zero

end MultiLegExecutionCoordinator
end OptionResearch
