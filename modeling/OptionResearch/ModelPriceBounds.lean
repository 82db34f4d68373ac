import OptionResearch.PriceValidation
import OptionResearch.PutCallParity

/-!
# Prices of Black-Scholes before the checks of the solver

A price of the model is never below the intrinsic value that the solver asks for, as the model does
not go below it either. Its formula is never above the bound that the solver sets. What the lower
bound of the model makes of it may be: that bound is not discounted, and the upper one is.
-/

namespace OptionResearch

open OptionPayoff

/-- The present value of what an option can be worth at most. -/
noncomputable def presentBound (request : ContractRequest ℝ) (t : ℝ) : ℝ :=
  match request.optionType with
  | .call => request.spot * Real.exp (-request.dividendYield * t)
  | .put => request.strike * Real.exp (-request.riskFreeRate * t)

section European

variable {N : ℝ → ℝ} {presentSpot presentStrike : ℝ}

theorem europeanValue_call_le (hN : ∀ x, 0 ≤ N x ∧ N x ≤ 1) (hspot : 0 ≤ presentSpot)
    (hstrike : 0 ≤ presentStrike) (d1 d2 : ℝ) :
    europeanValue N presentSpot presentStrike d1 d2 .call ≤ presentSpot := by
  have hless := mul_le_of_le_one_right hspot (hN d1).2
  have hmore := mul_nonneg hstrike (hN d2).1
  rw [europeanValue]
  linarith

theorem europeanValue_put_le (hN : ∀ x, 0 ≤ N x ∧ N x ≤ 1) (hspot : 0 ≤ presentSpot)
    (hstrike : 0 ≤ presentStrike) (d1 d2 : ℝ) :
    europeanValue N presentSpot presentStrike d1 d2 .put ≤ presentStrike := by
  have hless := mul_le_of_le_one_right hstrike (hN (-d2)).2
  have hmore := mul_nonneg hspot (hN (-d1)).1
  rw [europeanValue]
  linarith

end European

variable {N : ℝ → ℝ} {contract : ContractRequest ℝ} {t : ℝ}

theorem presentBound_pos (hspot : 0 < contract.spot) (hstrike : 0 < contract.strike) (t : ℝ) :
    0 < presentBound contract t := by
  unfold presentBound
  cases contract.optionType with
  | call => exact mul_pos hspot (Real.exp_pos _)
  | put => exact mul_pos hstrike (Real.exp_pos _)

/-- The formula is within the bound. -/
theorem unboundedValue_le (hN : ∀ x, 0 ≤ N x ∧ N x ≤ 1) (hspot : 0 < contract.spot)
    (hstrike : 0 < contract.strike) (t : ℝ) :
    BlackScholesModel.unboundedValue N contract t contract.optionType ≤
      presentBound contract t := by
  have hpresentSpot : 0 < contract.spot * Real.exp (-contract.dividendYield * t) :=
    mul_pos hspot (Real.exp_pos _)
  have hpresentStrike : 0 < contract.strike * Real.exp (-contract.riskFreeRate * t) :=
    mul_pos hstrike (Real.exp_pos _)
  unfold BlackScholesModel.unboundedValue presentBound
  by_cases hvolatility : contract.volatility = 0
  · simp only [if_pos hvolatility]
    cases contract.optionType with
    | call => exact max_le (by linarith) hpresentSpot.le
    | put => exact max_le (by linarith) hpresentStrike.le
  · simp only [if_neg hvolatility]
    cases contract.optionType with
    | call => exact europeanValue_call_le hN hpresentSpot.le hpresentStrike.le _ _
    | put => exact europeanValue_put_le hN hpresentSpot.le hpresentStrike.le _ _

/-- The bound of the solver for a European option on a spot. -/
theorem theoreticalUpperBound_eq (heuropean : contract.exerciseStyle = .european) (t : ℝ) :
    theoreticalUpperBound (realClosedForm N).toPricingMath contract .blackScholes t =
      presentBound contract t * contract.multiplier := by
  unfold theoreticalUpperBound presentBound
  rw [if_neg (by decide), heuropean]
  cases contract.optionType with
  | call => rfl
  | put => rfl

/-- Exercising at once brings no more than the bound where it does so in the money. -/
theorem intrinsicValue_le_presentBound_iff (hspot : 0 < contract.spot)
    (hstrike : 0 < contract.strike) (t : ℝ) :
    intrinsicValue contract.spot contract.strike contract.optionType ≤ presentBound contract t ↔
      match contract.optionType with
      | .call => contract.spot - contract.strike ≤
          contract.spot * Real.exp (-contract.dividendYield * t)
      | .put => contract.strike - contract.spot ≤
          contract.strike * Real.exp (-contract.riskFreeRate * t) := by
  have hpos := presentBound_pos hspot hstrike t
  unfold presentBound at hpos ⊢
  cases hright : contract.optionType with
  | call =>
      rw [hright] at hpos
      rw [intrinsicValue, max_le_iff]
      exact ⟨fun h => h.1, fun h => ⟨h, hpos.le⟩⟩
  | put =>
      rw [hright] at hpos
      rw [intrinsicValue, max_le_iff]
      exact ⟨fun h => h.1, fun h => ⟨h, hpos.le⟩⟩

/-- What the solver makes of a request whose market price is the price of the model. -/
theorem validateRequest_price {request : ImpliedVolatilityRequest ℝ} {config : EngineConfig ℝ}
    {warnings : List String} {price volatility : ℝ} (hN : ∀ x, 0 ≤ N x ∧ N x ≤ 1)
    (hconfig : config.Valid) (hcontract : request.pricingRequest.Valid)
    (heuropean : request.pricingRequest.exerciseStyle = .european)
    (hspot : request.pricingRequest.underlyingType ≠ .futures)
    (hpolicy : config.outOfBoundsPricePolicy ≠ .clip)
    (hselected : selectMarketPrice request config = .ok (price, warnings)) (hprice : 0 < price)
    (hvalue : price = max
      (BlackScholesModel.unboundedValue N
        { request.pricingRequest with volatility := volatility }
        (yearFraction request.pricingRequest.valuationDate request.pricingRequest.expiry)
        request.pricingRequest.optionType)
      (intrinsicValue request.pricingRequest.spot request.pricingRequest.strike
        request.pricingRequest.optionType) * request.pricingRequest.multiplier) :
    validateRequest (realClosedForm N).toPricingMath request config .blackScholes =
      let contract := request.pricingRequest
      let bound := presentBound contract (yearFraction contract.valuationDate contract.expiry)
      let intrinsic := intrinsicValue contract.spot contract.strike contract.optionType
      if intrinsic ≤ bound then
        .ok ⟨price, intrinsic * contract.multiplier, bound * contract.multiplier⟩
      else invalid FailureReason.aboveTheoreticalBound.value := by
  have hcompatible : validateModelContractCompatibility request.pricingRequest .blackScholes =
      .ok () := by
    rw [validateModelContractCompatibility]
    exact if_neg (by simp [heuropean, hspot])
  have hbelow := @unboundedValue_le N
    { request.pricingRequest with volatility := volatility } hN hcontract.spot
    hcontract.strike
    (yearFraction request.pricingRequest.valuationDate request.pricingRequest.expiry)
  have hlower : intrinsicValue request.pricingRequest.spot request.pricingRequest.strike
      request.pricingRequest.optionType * request.pricingRequest.multiplier ≤ price := by
    rw [hvalue]
    exact mul_le_mul_of_nonneg_right (le_max_right _ _) hcontract.multiplier.le
  -- the formula is within the bound, so the price is where the intrinsic value is
  have hupper : price ≤ presentBound request.pricingRequest
      (yearFraction request.pricingRequest.valuationDate request.pricingRequest.expiry) *
        request.pricingRequest.multiplier ↔
      intrinsicValue request.pricingRequest.spot request.pricingRequest.strike
        request.pricingRequest.optionType ≤ presentBound request.pricingRequest
          (yearFraction request.pricingRequest.valuationDate request.pricingRequest.expiry) := by
    rw [hvalue, mul_le_mul_iff_of_pos_right hcontract.multiplier, max_le_iff]
    exact ⟨fun h => h.2, fun h => ⟨hbelow, h⟩⟩
  unfold validateRequest
  dsimp only [bind, Except.bind]
  rw [validateConfig_eq_ok hconfig]
  dsimp only
  rw [hcompatible]
  dsimp only
  rw [validateTerms_eq_ok hcontract, hselected]
  dsimp only
  rw [rejectIf, if_neg (not_le.mpr hprice), theoreticalUpperBound_eq heuropean,
    boundMarketPrice_eq hpolicy hlower]
  dsimp only
  by_cases hbound : intrinsicValue request.pricingRequest.spot request.pricingRequest.strike
        request.pricingRequest.optionType ≤ presentBound request.pricingRequest
          (yearFraction request.pricingRequest.valuationDate request.pricingRequest.expiry)
  · rw [if_pos hbound, if_pos (hupper.mpr hbound)]
    rfl
  · rw [if_neg hbound, if_neg (hupper.not.mpr hbound)]
    rfl

/-- A price that the model produces at any volatility is accepted as market price
where exercising at once brings no more than the present value of the most that the option can be
worth, and else it is refused as above the theoretical bound. -/
theorem validateRequest_modelPrice_iff (hunit : ∀ x, 0 ≤ N x ∧ N x ≤ 1)
    {request : ImpliedVolatilityRequest ℝ} {config : EngineConfig ℝ} (hconfig : config.Valid)
    (hcontract : request.pricingRequest.Valid)
    (heuropean : request.pricingRequest.exerciseStyle = .european)
    (hspot : request.pricingRequest.underlyingType ≠ .futures)
    (hpolicy : config.outOfBoundsPricePolicy ≠ .clip) {volatility : ℝ}
    {result : ClosedFormResult ℝ}
    (hresult : BlackScholesModel.price (realClosedForm N)
      { request.pricingRequest with volatility := volatility } = .ok result)
    (hpositive : 0 < result.optionValue) {warnings : List String}
    (hselected : selectMarketPrice request config = .ok (result.optionValue, warnings)) :
    let contract := request.pricingRequest
    let t := yearFraction contract.valuationDate contract.expiry
    ((∃ diagnostics,
        validateRequest (realClosedForm N).toPricingMath request config .blackScholes =
          .ok diagnostics ∧ diagnostics.marketPrice = result.optionValue) ↔
      match contract.optionType with
      | .call => contract.spot - contract.strike ≤
          contract.spot * Real.exp (-contract.dividendYield * t)
      | .put => contract.strike - contract.spot ≤
          contract.strike * Real.exp (-contract.riskFreeRate * t)) ∧
    ∀ error, validateRequest (realClosedForm N).toPricingMath request config .blackScholes =
      .error error → error = .own .validation FailureReason.aboveTheoreticalBound.value := by
  intro contract t
  obtain ⟨other, hother, hvalue⟩ := @BlackScholesModel.exists_price N
    { request.pricingRequest with volatility := volatility } hcontract.spot
    hcontract.strike hcontract.time
  obtain rfl : other = result := Except.ok.inj (hother.symm.trans hresult)
  have hchecked := validateRequest_price hunit hconfig hcontract heuropean hspot hpolicy hselected
    hpositive hvalue
  rw [← intrinsicValue_le_presentBound_iff hcontract.spot hcontract.strike t, hchecked]
  by_cases hwithin : intrinsicValue contract.spot contract.strike contract.optionType ≤
      presentBound contract t
  · refine ⟨⟨fun _ => hwithin, fun _ => ⟨_, if_pos hwithin, rfl⟩⟩, fun error herror => ?_⟩
    cases (if_pos hwithin).symm.trans herror
  · refine ⟨⟨?_, fun h => absurd h hwithin⟩, fun error herror => ?_⟩
    · rintro ⟨diagnostics, hdiagnostics, -⟩
      cases (if_neg hwithin).symm.trans hdiagnostics
    · exact (Except.error.inj ((if_neg hwithin).symm.trans herror)).symm

/-- The deep put, on the market at some price. -/
noncomputable def deepPutAt (price : ℝ) : ImpliedVolatilityRequest ℝ where
  marketPrice := price
  pricingRequest := deepPut

theorem valid_defaults : ({} : EngineConfig ℝ).Valid := by
  constructor <;> norm_num

theorem valid_deepPut : deepPut.Valid where
  time := priceable_deepPut.time
  spot := priceable_deepPut.spot
  strike := priceable_deepPut.strike
  dividends := nofun
  multiplier := one_pos

theorem underlyingType_deepPut : deepPut.underlyingType ≠ .futures := by decide

theorem selectMarketPrice_deepPutAt (price : ℝ) :
    selectMarketPrice (deepPutAt price) {} = .ok (price, []) := rfl

/-- The deep put at a fifth of full volatility is worth its exercise at least. -/
theorem exists_price_deepPut : ∃ result,
    BlackScholesModel.price (realClosedForm fun _ => 1 / 2) { deepPut with volatility := 0.2 } =
      .ok result ∧ 0 < result.optionValue := by
  obtain ⟨result, hresult, hvalue⟩ := @BlackScholesModel.exists_price (fun _ => 1 / 2)
    { deepPut with volatility := 0.2 } priceable_deepPut.spot priceable_deepPut.strike
    priceable_deepPut.time
  refine ⟨result, hresult, ?_⟩
  have hgain : (0 : ℝ) < intrinsicValue deepPut.spot deepPut.strike deepPut.optionType := by
    norm_num [deepPut, yearlyCall, intrinsicValue]
  rw [hvalue]
  exact mul_pos (lt_max_of_lt_right hgain) one_pos

theorem validateRequest_modelPrice_iff_deepPut : ∃ result,
    BlackScholesModel.price (realClosedForm fun _ => 1 / 2) { deepPut with volatility := 0.2 } =
      .ok result ∧
    let contract := (deepPutAt result.optionValue).pricingRequest
    let t := yearFraction contract.valuationDate contract.expiry
    ((∃ diagnostics, validateRequest (realClosedForm fun _ => 1 / 2).toPricingMath
        (deepPutAt result.optionValue) {} .blackScholes = .ok diagnostics ∧
        diagnostics.marketPrice = result.optionValue) ↔
      match contract.optionType with
      | .call => contract.spot - contract.strike ≤
          contract.spot * Real.exp (-contract.dividendYield * t)
      | .put => contract.strike - contract.spot ≤
          contract.strike * Real.exp (-contract.riskFreeRate * t)) ∧
    ∀ error, validateRequest (realClosedForm fun _ => 1 / 2).toPricingMath
        (deepPutAt result.optionValue) {} .blackScholes = .error error →
      error = .own .validation FailureReason.aboveTheoreticalBound.value := by
  obtain ⟨result, hresult, hpositive⟩ := exists_price_deepPut
  exact ⟨result, hresult, @validateRequest_modelPrice_iff _ (fun _ => by norm_num)
    (deepPutAt result.optionValue) _ valid_defaults valid_deepPut rfl underlyingType_deepPut
    (by decide) _ _ hresult hpositive _ (selectMarketPrice_deepPutAt _)⟩

/-- The model prices the deep put at fifty at least, and the solver bounds it by its
strike discounted at a hundred percent. -/
theorem validateRequest_deepPut_refused : ∃ result,
    BlackScholesModel.price (realClosedForm fun _ => 1 / 2) { deepPut with volatility := 0.2 } =
      .ok result ∧ 0 < result.optionValue ∧
    validateRequest (realClosedForm fun _ => 1 / 2).toPricingMath (deepPutAt result.optionValue) {}
      .blackScholes = .error (.own .validation "above_theoretical_bound") := by
  obtain ⟨result, hresult, hpositive⟩ := exists_price_deepPut
  obtain ⟨other, hother, hvalue⟩ := @BlackScholesModel.exists_price (fun _ => 1 / 2)
    { deepPut with volatility := 0.2 } priceable_deepPut.spot priceable_deepPut.strike
    priceable_deepPut.time
  obtain rfl : other = result := Except.ok.inj (hother.symm.trans hresult)
  have hchecked := @validateRequest_price (fun _ => 1 / 2)
    (deepPutAt other.optionValue) _ _ _ _ (fun _ => by norm_num) valid_defaults valid_deepPut
    rfl underlyingType_deepPut (by decide) (selectMarketPrice_deepPutAt _) hpositive hvalue
  have hexceeds : ¬ intrinsicValue deepPut.spot deepPut.strike deepPut.optionType ≤
      presentBound deepPut (yearFraction deepPut.valuationDate deepPut.expiry) := by
    rw [yearFraction_deepPut]
    change ¬ max ((95 : ℝ) - 45) 0 ≤ 95 * Real.exp (-1 * 1)
    have htwo : (2 : ℝ) < Real.exp 1 := by
      have h := Real.add_one_lt_exp (one_ne_zero : (1 : ℝ) ≠ 0)
      linarith
    have hhalf : Real.exp (-1 * 1) < 1 / 2 := by
      rw [mul_one, Real.exp_neg, ← one_div]
      exact one_div_lt_one_div_of_lt two_pos htwo
    intro h
    have hgain : (95 : ℝ) - 45 ≤ 95 * Real.exp (-1 * 1) := (le_max_left _ _).trans h
    generalize Real.exp (-1 * 1) = discount at hgain hhalf
    linarith
  exact ⟨other, hother, hpositive, hchecked.trans (if_neg hexceeds)⟩

end OptionResearch
