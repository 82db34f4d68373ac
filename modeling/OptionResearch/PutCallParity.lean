import OptionResearch.ClosedFormModels
import OptionResearch.EuropeanTree
import Mathlib.Analysis.SpecialFunctions.Log.Basic
import Mathlib.Analysis.Real.Pi.Bounds

/-!
# Put-call parity of the closed-form models

A call and a put on the same terms differ by a discounted forward, for every distribution function
that is symmetric. Black-76 keeps this. Black-Scholes raises each of its two values to an intrinsic
value that is not discounted, and parity is left where that lifts one of them only.
-/

namespace OptionResearch

open OptionPayoff

/-! ### The models on the reals -/

/-- The `math` module on the reals, with a distribution function. -/
noncomputable def realClosedForm (N : ℝ → ℝ) : ClosedFormMath ℝ where
  toPricingMath := realMath
  log x := if x ≤ 0 then .error ⟨.valueError, "expected a positive input"⟩ else .ok (Real.log x)
  pi := Real.pi
  standardNormalCdf := N

/-- What a European option is worth before it ends: the mean of a lognormal payoff, from the
present values of spot and strike. -/
noncomputable def europeanValue (N : ℝ → ℝ) (presentSpot presentStrike d1 d2 : ℝ) :
    OptionType → ℝ
  | .call => presentSpot * N d1 - presentStrike * N d2
  | .put => presentStrike * N (-d2) - presentSpot * N (-d1)

theorem europeanValue_parity {N : ℝ → ℝ} (hN : ∀ x, N x + N (-x) = 1)
    (presentSpot presentStrike d1 d2 : ℝ) :
    europeanValue N presentSpot presentStrike d1 d2 .call -
      europeanValue N presentSpot presentStrike d1 d2 .put = presentSpot - presentStrike := by
  rw [europeanValue, europeanValue]
  linear_combination presentSpot * hN d1 - presentStrike * hN d2

section Functions

variable {N : ℝ → ℝ} {x : ℝ}

theorem sqrt_realClosedForm (h : 0 ≤ x) : (realClosedForm N).sqrt x = .ok (Real.sqrt x) :=
  if_neg (not_lt.mpr h)

theorem log_realClosedForm (h : 0 < x) : (realClosedForm N).log x = .ok (Real.log x) :=
  if_neg (not_le.mpr h)

theorem discountFactor_realClosedForm (rate t : ℝ) :
    discountFactor (realClosedForm N).toPricingMath rate t = Real.exp (-rate * t) := rfl

end Functions

/-- Terms that can be priced, some time before they end. -/
structure Priceable (request : ContractRequest ℝ) : Prop where
  spot : 0 < request.spot
  strike : 0 < request.strike
  volatility : 0 ≤ request.volatility
  futuresPrice : ∀ price ∈ request.futuresPrice, 0 < price
  time : (0 : ℝ) < yearFraction request.valuationDate request.expiry

/-! ### Black-Scholes -/

namespace BlackScholesModel

/-- What the model says without its lower bound. -/
noncomputable def unboundedValue (N : ℝ → ℝ) (request : ContractRequest ℝ) (t : ℝ)
    (right : OptionType) : ℝ :=
  let presentSpot := request.spot * Real.exp (-request.dividendYield * t)
  let presentStrike := request.strike * Real.exp (-request.riskFreeRate * t)
  if request.volatility = 0 then intrinsicValue presentSpot presentStrike right
  else
    let sigmaSqrtT := request.volatility * Real.sqrt t
    let d1 := (Real.log (request.spot / request.strike) +
      (request.riskFreeRate - request.dividendYield + 0.5 * request.volatility ^ 2) * t) /
        sigmaSqrtT
    europeanValue N presentSpot presentStrike d1 (d1 - sigmaSqrtT) right

variable {N : ℝ → ℝ} {request : ContractRequest ℝ} {t : ℝ}

theorem unboundedValue_parity (hN : ∀ x, N x + N (-x) = 1) (request : ContractRequest ℝ) (t : ℝ) :
    unboundedValue N request t .call - unboundedValue N request t .put =
      request.spot * Real.exp (-request.dividendYield * t) -
        request.strike * Real.exp (-request.riskFreeRate * t) := by
  unfold unboundedValue
  by_cases hvolatility : request.volatility = 0
  · simp only [if_pos hvolatility]
    exact intrinsicValue_call_sub_put _ _
  · simp only [if_neg hvolatility]
    exact europeanValue_parity hN _ _ _ _

theorem formula_eq (hspot : 0 < request.spot) (hstrike : 0 < request.strike) (ht : 0 < t) :
    formula (realClosedForm N) request t = .ok (unboundedValue N request t request.optionType) := by
  unfold formula unboundedValue
  by_cases hvolatility : request.volatility = 0
  · simp only [if_pos hvolatility]
    rfl
  · have hsigma : request.volatility * Real.sqrt t ≠ 0 :=
      mul_ne_zero hvolatility (Real.sqrt_pos.mpr ht).ne'
    simp only [if_neg hvolatility]
    rw [sqrt_realClosedForm ht.le, divide_eq_ok hstrike.ne']
    dsimp only [bind, Except.bind]
    rw [log_realClosedForm (div_pos hspot hstrike)]
    dsimp only
    rw [divide_eq_ok hsigma]
    cases request.optionType with
    | call => rfl
    | put => rfl

/-- The price is that of the formula, or of the lower bound if this is more. -/
theorem exists_price (hspot : 0 < request.spot) (hstrike : 0 < request.strike)
    (ht : (0 : ℝ) < yearFraction request.valuationDate request.expiry) :
    ∃ result, price (realClosedForm N) request = .ok result ∧
      result.optionValue = max
        (unboundedValue N request (yearFraction request.valuationDate request.expiry)
          request.optionType)
        (intrinsicValue request.spot request.strike request.optionType) * request.multiplier := by
  unfold price
  rw [if_neg ht.ne', formula_eq hspot hstrike ht]
  exact ⟨_, rfl, rfl⟩

end BlackScholesModel

/-! ### Black-76 -/

namespace Black76Model

variable {N : ℝ → ℝ} {request : ContractRequest ℝ}

theorem forward_pos (h : Priceable request) (t : ℝ) :
    0 < forward (realClosedForm N) request t := by
  unfold forward
  cases hprice : request.futuresPrice with
  | none => exact mul_pos h.spot (Real.exp_pos _)
  | some price => exact h.futuresPrice price hprice

theorem exists_greeks {t forward discount : ℝ} (ht : 0 < t) (hforward : 0 < forward)
    (value d1 : ℝ) :
    ∃ result, greeks (realClosedForm N) request t forward discount value d1 = .ok result := by
  have hroot : 0 < Real.sqrt t := Real.sqrt_pos.mpr ht
  have hcircle : (0 : ℝ) < 2.0 * Real.pi := mul_pos (by norm_num) Real.pi_pos
  have htwice : (2.0 : ℝ) * Real.sqrt t ≠ 0 := (mul_pos (by norm_num) hroot).ne'
  have hpi : (realClosedForm N).sqrt (2.0 * (realClosedForm N).pi) =
      .ok (Real.sqrt (2.0 * Real.pi)) := sqrt_realClosedForm hcircle.le
  unfold greeks
  rw [sqrt_realClosedForm ht.le, hpi]
  dsimp only [bind, Except.bind]
  rw [divide_eq_ok (Real.sqrt_pos.mpr hcircle).ne']
  dsimp only
  by_cases hvolatility : 0 < request.volatility
  · rw [if_pos hvolatility, divide_eq_ok (mul_pos (mul_pos hforward hvolatility) hroot).ne',
      divide_eq_ok htwice]
    exact ⟨_, rfl⟩
  · rw [if_neg hvolatility, divide_eq_ok htwice]
    exact ⟨_, rfl⟩

/-- What the formula gives for a call and a put. -/
theorem exists_formula_parity (hN : ∀ x, N x + N (-x) = 1) (hstrike : 0 < request.strike)
    {t forward discount : ℝ} (ht : 0 < t) (hforward : 0 < forward) :
    ∃ (value : OptionType → ℝ) (d1 : ℝ),
      (∀ right, formula (realClosedForm N) { request with optionType := right } t forward discount
        (discount * intrinsicValue forward request.strike right) = .ok (value right, d1)) ∧
      value .call - value .put = discount * (forward - request.strike) := by
  by_cases hvolatility : request.volatility = 0
  · refine ⟨fun right => discount * intrinsicValue forward request.strike right, 0, ?_, ?_⟩
    · intro right
      unfold formula
      rw [if_pos hvolatility]
      rfl
    · dsimp only
      rw [← mul_sub, intrinsicValue_call_sub_put]
  · have hsigma : request.volatility * Real.sqrt t ≠ 0 :=
      mul_ne_zero hvolatility (Real.sqrt_pos.mpr ht).ne'
    let d1 := (Real.log (forward / request.strike) + 0.5 * request.volatility ^ 2 * t) /
      (request.volatility * Real.sqrt t)
    let d2 := d1 - request.volatility * Real.sqrt t
    refine ⟨fun right => discount * europeanValue N forward request.strike d1 d2 right, d1, ?_, ?_⟩
    · intro right
      unfold formula
      rw [if_neg hvolatility, sqrt_realClosedForm ht.le, divide_eq_ok hstrike.ne']
      dsimp only [bind, Except.bind]
      rw [log_realClosedForm (div_pos hforward hstrike)]
      dsimp only
      rw [divide_eq_ok hsigma]
      cases right with
      | call => rfl
      | put => rfl
    · dsimp only
      rw [← mul_sub, europeanValue_parity hN]

theorem price_parity (hN : ∀ x, N x + N (-x) = 1) (h : Priceable request) :
    ∃ call put,
      price (realClosedForm N) { request with optionType := .call } = .ok call ∧
      price (realClosedForm N) { request with optionType := .put } = .ok put ∧
      call.optionValue - put.optionValue = request.multiplier *
        Real.exp (-request.riskFreeRate * yearFraction request.valuationDate request.expiry) *
        (request.futuresPrice.getD (request.spot * Real.exp ((request.riskFreeRate -
            request.dividendYield) * yearFraction request.valuationDate request.expiry)) -
          request.strike) := by
  have ht := h.time
  have hforward := forward_pos (N := N) h (yearFraction request.valuationDate request.expiry)
  obtain ⟨value, d1, hvalue, hparity⟩ := @exists_formula_parity _ request hN h.strike _ _
    (discountFactor (realClosedForm N).toPricingMath request.riskFreeRate
      (max (yearFraction request.valuationDate request.expiry) 0)) ht hforward
  have hprice : ∀ right, ∃ result,
      price (realClosedForm N) { request with optionType := right } = .ok result ∧
        result.optionValue = value right * request.multiplier := by
    intro right
    obtain ⟨greeks, hgreeks⟩ := @exists_greeks N
      { request with optionType := right } _ _
      (discountFactor (realClosedForm N).toPricingMath request.riskFreeRate
        (max (yearFraction request.valuationDate request.expiry) 0)) ht hforward (value right) d1
    unfold price
    rw [if_neg ht.ne']
    refine ⟨_, except_bind_eq_ok.mpr ⟨_, hvalue right,
      except_bind_eq_ok.mpr ⟨_, hgreeks, rfl⟩⟩, rfl⟩
  obtain ⟨call, hcall, hcallValue⟩ := hprice .call
  obtain ⟨put, hput, hputValue⟩ := hprice .put
  refine ⟨call, put, hcall, hput, ?_⟩
  rw [hcallValue, hputValue, ← sub_mul, hparity, discountFactor_realClosedForm, forward,
    max_eq_left ht.le]
  change _ * (request.futuresPrice.getD (request.spot * Real.exp _) - _) * _ = _
  ring

end Black76Model

/-! ### Both models -/

/-- Two values that are raised to lower bounds differ by as much as before where the bounds do, or
where they raise neither. -/
theorem max_sub_max_eq_iff {a b c d : ℝ} :
    max a c - max b d = a - b ↔ c - d = a - b ∨ (c ≤ a ∧ d ≤ b) := by
  constructor
  · intro h
    rcases le_total a c with hac | hac <;> rcases le_total b d with hbd | hbd
    · rw [max_eq_right hac, max_eq_right hbd] at h
      exact .inl h
    · rw [max_eq_right hac, max_eq_left hbd] at h
      exact .inr ⟨by linarith, hbd⟩
    · rw [max_eq_left hac, max_eq_right hbd] at h
      exact .inr ⟨hac, by linarith⟩
    · exact .inr ⟨hac, hbd⟩
  · rintro (h | ⟨hac, hbd⟩)
    · rcases le_total a c with hac | hac
      · rw [max_eq_right hac, max_eq_right (by linarith), h]
      · rw [max_eq_left hac, max_eq_left (by linarith)]
    · rw [max_eq_left hac, max_eq_left hbd]

/-- Where the lower bounds of Black-Scholes leave parity alone: they differ by the forward
themselves, or neither is above its formula. -/
def BoundsKeepParity (N : ℝ → ℝ) (request : ContractRequest ℝ) (t : ℝ) : Prop :=
  request.spot * (1 - Real.exp (-request.dividendYield * t)) =
      request.strike * (1 - Real.exp (-request.riskFreeRate * t)) ∨
    ∀ right, intrinsicValue request.spot request.strike right ≤
      BlackScholesModel.unboundedValue N request t right

theorem BlackScholesModel.price_parity_iff {N : ℝ → ℝ} (hN : ∀ x, N x + N (-x) = 1)
    {request : ContractRequest ℝ} (h : Priceable request) :
    ∃ call put,
      price (realClosedForm N) { request with optionType := .call } = .ok call ∧
      price (realClosedForm N) { request with optionType := .put } = .ok put ∧
      (call.optionValue - put.optionValue = request.multiplier * (request.spot *
            Real.exp (-request.dividendYield *
              yearFraction request.valuationDate request.expiry) -
          request.strike * Real.exp (-request.riskFreeRate *
              yearFraction request.valuationDate request.expiry)) ↔
        request.multiplier = 0 ∨
          BoundsKeepParity N request (yearFraction request.valuationDate request.expiry)) := by
  obtain ⟨call, hcall, hcallValue⟩ := @exists_price N
    { request with optionType := .call } h.spot h.strike h.time
  obtain ⟨put, hput, hputValue⟩ := @exists_price N
    { request with optionType := .put } h.spot h.strike h.time
  refine ⟨call, put, hcall, hput, ?_⟩
  have hparity := unboundedValue_parity hN request
    (yearFraction request.valuationDate request.expiry)
  have hbounds := intrinsicValue_call_sub_put request.spot request.strike
  rw [hcallValue, hputValue]
  change max (unboundedValue N request _ .call) (intrinsicValue request.spot request.strike .call) *
      request.multiplier - max (unboundedValue N request _ .put)
        (intrinsicValue request.spot request.strike .put) * request.multiplier = _ ↔ _
  rw [← sub_mul, ← hparity, mul_comm, mul_eq_mul_left_iff, or_comm, max_sub_max_eq_iff, hbounds,
    hparity, BoundsKeepParity]
  refine or_congr_right (or_congr ?_ ?_)
  · constructor <;> intro heq <;> linarith
  · constructor
    · rintro ⟨hcallBound, hputBound⟩ right
      cases right with
      | call => exact hcallBound
      | put => exact hputBound
    · exact fun hall => ⟨hall .call, hall .put⟩

/-- Black-76 keeps parity, and Black-Scholes where its lower bounds do. -/
theorem prices_parity_iff {N : ℝ → ℝ} (hN : ∀ x, N x + N (-x) = 1) {request : ContractRequest ℝ}
    (h : Priceable request) :
    let t := yearFraction request.valuationDate request.expiry
    let forward := request.futuresPrice.getD
      (request.spot * Real.exp ((request.riskFreeRate - request.dividendYield) * t))
    ∃ call put futuresCall futuresPut,
      BlackScholesModel.price (realClosedForm N) { request with optionType := .call } = .ok call ∧
      BlackScholesModel.price (realClosedForm N) { request with optionType := .put } = .ok put ∧
      Black76Model.price (realClosedForm N) { request with optionType := .call } =
        .ok futuresCall ∧
      Black76Model.price (realClosedForm N) { request with optionType := .put } = .ok futuresPut ∧
      (call.optionValue - put.optionValue = request.multiplier *
          (request.spot * Real.exp (-request.dividendYield * t) -
            request.strike * Real.exp (-request.riskFreeRate * t)) ↔
        request.multiplier = 0 ∨ BoundsKeepParity N request t) ∧
      futuresCall.optionValue - futuresPut.optionValue =
        request.multiplier * Real.exp (-request.riskFreeRate * t) * (forward - request.strike) := by
  intro t forward
  obtain ⟨call, put, hcall, hput, hiff⟩ := BlackScholesModel.price_parity_iff hN h
  obtain ⟨futuresCall, futuresPut, hfuturesCall, hfuturesPut, hparity⟩ :=
    Black76Model.price_parity hN h
  exact ⟨call, put, futuresCall, futuresPut, hcall, hput, hfuturesCall, hfuturesPut, hiff, hparity⟩

/-- A put far in the money, at a high rate and without volatility, a year from its expiry. -/
noncomputable def deepPut : ContractRequest ℝ where
  toPricingRequest := { yearlyCall with
    spot := 45
    volatility := 0
    riskFreeRate := 1
    optionType := .put
    exerciseStyle := .european
    multiplier := 1 }

theorem yearFraction_deepPut :
    yearFraction deepPut.valuationDate deepPut.expiry = (1 : ℝ) := by
  change ((367 - 2 : Int) : ℝ) / 365 = 1
  norm_num

theorem priceable_deepPut : Priceable deepPut where
  spot := by norm_num [deepPut]
  strike := by norm_num [deepPut, yearlyCall]
  volatility := le_rfl
  futuresPrice := nofun
  time := yearFraction_deepPut.symm ▸ one_pos

theorem prices_parity_iff_deepPut :
    let t := yearFraction deepPut.valuationDate deepPut.expiry
    let forward := deepPut.futuresPrice.getD
      (deepPut.spot * Real.exp ((deepPut.riskFreeRate - deepPut.dividendYield) * t))
    ∃ call put futuresCall futuresPut,
      BlackScholesModel.price (realClosedForm fun _ => 1 / 2)
        { deepPut with optionType := .call } = .ok call ∧
      BlackScholesModel.price (realClosedForm fun _ => 1 / 2)
        { deepPut with optionType := .put } = .ok put ∧
      Black76Model.price (realClosedForm fun _ => 1 / 2)
        { deepPut with optionType := .call } = .ok futuresCall ∧
      Black76Model.price (realClosedForm fun _ => 1 / 2)
        { deepPut with optionType := .put } = .ok futuresPut ∧
      (call.optionValue - put.optionValue = deepPut.multiplier *
          (deepPut.spot * Real.exp (-deepPut.dividendYield * t) -
            deepPut.strike * Real.exp (-deepPut.riskFreeRate * t)) ↔
        deepPut.multiplier = 0 ∨ BoundsKeepParity (fun _ => 1 / 2) deepPut t) ∧
      futuresCall.optionValue - futuresPut.optionValue =
        deepPut.multiplier * Real.exp (-deepPut.riskFreeRate * t) * (forward - deepPut.strike) :=
  prices_parity_iff (fun _ => by norm_num) priceable_deepPut

/-- The put is raised from nothing to the strike less the spot, and the call is left as it is. -/
theorem price_deepPut_without_parity : ∃ call put,
    BlackScholesModel.price (realClosedForm fun _ => 1 / 2)
      { deepPut with optionType := .call } = .ok call ∧
    BlackScholesModel.price (realClosedForm fun _ => 1 / 2)
      { deepPut with optionType := .put } = .ok put ∧
    call.optionValue - put.optionValue ≠ deepPut.multiplier *
      (deepPut.spot * Real.exp (-deepPut.dividendYield *
          yearFraction deepPut.valuationDate deepPut.expiry) -
        deepPut.strike * Real.exp (-deepPut.riskFreeRate *
          yearFraction deepPut.valuationDate deepPut.expiry)) := by
  obtain ⟨call, put, hcall, hput, hiff⟩ :=
    BlackScholesModel.price_parity_iff (N := fun _ => 1 / 2) (fun _ => by norm_num)
      priceable_deepPut
  refine ⟨call, put, hcall, hput, fun hparity => ?_⟩
  have hdiscount : Real.exp (-1 * 1) < 1 := Real.exp_lt_one_iff.mpr (by norm_num)
  rcases hiff.mp hparity with hzero | hforward | hbounds
  · exact one_ne_zero hzero
  · rw [yearFraction_deepPut] at hforward
    change (45 : ℝ) * (1 - Real.exp (-0 * 1)) = 95 * (1 - Real.exp (-1 * 1)) at hforward
    rw [neg_zero, zero_mul, Real.exp_zero] at hforward
    linarith
  · have hput := hbounds .put
    have hcertain : deepPut.volatility = 0 := rfl
    rw [yearFraction_deepPut, BlackScholesModel.unboundedValue, if_pos hcertain] at hput
    change max ((95 : ℝ) - 45) 0 ≤
      max (95 * Real.exp (-1 * 1) - 45 * Real.exp (-0 * 1)) 0 at hput
    rw [neg_zero, zero_mul, Real.exp_zero] at hput
    have hless : max (95 * Real.exp (-1 * 1) - 45 * 1) 0 < (50 : ℝ) :=
      max_lt (by linarith) (by norm_num)
    have hmore := (le_max_left ((95 : ℝ) - 45) 0).trans hput
    linarith

end OptionResearch
