import OptionResearch.GreeksEngine
import OptionResearch.LognormalOptions
import OptionResearch.PutCallParity

/-!
# What the Greeks say of the prices

The analytic Greeks are the derivatives of the prices that the pricing engine computes, and those of
higher order the derivatives of the lower ones. Over a portfolio on one underlying they balance the
carry of its value.
-/

namespace OptionResearch

open NormalDistribution LognormalOptions OptionPayoff Topology

/-- The `math` module with the normal distribution. -/
noncomputable abbrev normalMath : ClosedFormMath ℝ := realClosedForm distribution

/-- The functions of `numpy` with the normal distribution. -/
noncomputable def normalArrays : ArrayMath ℝ where
  exp := Real.exp
  log := Real.log
  sqrt := Real.sqrt
  sqrtTwoPi := √(2.0 * Real.pi)
  normCdf := distribution

/-- The terms of a request at a time to expiry. -/
def ContractRequest.termsAt (request : ContractRequest ℝ) (t : ℝ) : Terms where
  spot := request.spot
  strike := request.strike
  rate := request.riskFreeRate
  yield := request.dividendYield
  volatility := request.volatility
  time := t

theorem sign_cases (request : ContractRequest ℝ) : request.sign = 1 ∨ request.sign = -1 := by
  rw [PricingRequest.sign]
  cases request.optionType with
  | call => exact .inl rfl
  | put => exact .inr rfl

variable {request : ContractRequest ℝ} {t : ℝ}

/-! ### Black-Scholes in closed form -/

namespace BlackScholesGreeksModel

/-- The terms that the model computes. -/
noncomputable def closedTerms (request : ContractRequest ℝ) (t : ℝ) : BlackScholesTerms ℝ where
  t := t
  sqrtT := √t
  sigmaSqrtT := (request.termsAt t).deviation
  d1 := (request.termsAt t).d₁
  d2 := (request.termsAt t).d₂
  pdfD1 := density (request.termsAt t).d₁
  cdfD1 := distribution (request.termsAt t).d₁
  cdfD2 := distribution (request.termsAt t).d₂
  dfR := Real.exp (-request.riskFreeRate * t)
  dfQ := Real.exp (-request.dividendYield * t)

theorem standardNormalPdf_eq (x : ℝ) : standardNormalPdf normalMath x = .ok (density x) := by
  have hcircle : (0 : ℝ) < 2.0 * Real.pi := mul_pos (by norm_num) Real.pi_pos
  have hpi : normalMath.sqrt (2.0 * normalMath.pi) = .ok √(2.0 * Real.pi) :=
    sqrt_realClosedForm hcircle.le
  rw [standardNormalPdf, hpi]
  exact divide_eq_ok (Real.sqrt_pos.mpr hcircle).ne'

theorem blackScholesTermsAt_eq (h : (request.termsAt t).Regular) :
    blackScholesTermsAt normalMath request t = .ok (closedTerms request t) := by
  have htime : 0 < t := h.time
  have hsqrt : sqrtOrZero normalMath t = .ok √t := by
    rw [sqrtOrZero, if_pos htime]
    exact sqrt_realClosedForm htime.le
  have hlog : normalMath.log (request.spot / request.strike) =
      .ok (Real.log (request.spot / request.strike)) :=
    log_realClosedForm (div_pos h.spot h.strike)
  have hstrike : request.strike ≠ 0 := h.strike.ne'
  have hdeviation : request.volatility * √t ≠ 0 := h.deviation_pos.ne'
  have hleft : ¬ (t ≤ 0 ∨ request.volatility ≤ 0) :=
    not_or.mpr ⟨not_le.mpr htime, not_le.mpr h.volatility⟩
  rw [blackScholesTermsAt, hsqrt, except_ok_bind, if_neg hleft, divide_eq_ok hstrike,
    except_ok_bind, hlog, except_ok_bind, divide_eq_ok hdeviation, except_ok_bind,
    standardNormalPdf_eq]
  rfl

/-- The Greeks in closed form. -/
noncomputable def closedGreeks (request : ContractRequest ℝ) (t : ℝ) : GreeksResult ℝ :=
  let terms := request.termsAt t
  { delta := terms.delta request.sign * request.multiplier
    gamma := terms.gamma * request.multiplier
    theta := terms.theta request.sign / 365.0 * request.multiplier
    vega := terms.vega * request.multiplier
    rho := terms.rho request.sign * request.multiplier
    vanna := some (terms.vanna * request.multiplier)
    vomma := some (terms.vomma * request.multiplier)
    charm := some (terms.charm request.sign * request.multiplier)
    color := some (terms.color * request.multiplier)
    speed := some (terms.speed * request.multiplier)
    zomma := some (terms.zomma * request.multiplier)
    ultima := some (terms.ultima * request.multiplier)
    timeToExpiry := t
    supportedGreeks := firstOrderNames ++ higherOrderNames
    unsupportedGreeks := []
    calculationMetadata := .contract modelName request.optionType request.exerciseStyle
    warnings := expiryWarnings t }

theorem greeksOf_closedTerms (request : ContractRequest ℝ) (t : ℝ) :
    greeksOf normalMath request (closedTerms request t) = closedGreeks request t := by
  have hyear : (365.0 : ℝ) = 365 := by norm_num
  have hcdf : ∀ x, normalMath.standardNormalCdf x = distribution x := fun _ => rfl
  unfold greeksOf closedGreeks
  rw [PricingRequest.sign]
  cases hright : request.optionType with
  | call =>
    simp only [closedTerms, Terms.delta, Terms.gamma, Terms.theta, Terms.vega, Terms.rho,
      Terms.vanna, Terms.vomma, Terms.charm, Terms.drift, Terms.color, Terms.speed, Terms.zomma,
      Terms.ultima, Terms.presentSpot, Terms.presentStrike, ContractRequest.termsAt, two_eq, hyear,
      one_mul, GreeksResult.mk.injEq, Option.some.injEq, and_true, true_and]
    refine ⟨?_, ?_, ?_⟩ <;> ring
  | put =>
    simp only [closedTerms, Terms.delta, Terms.gamma, Terms.theta, Terms.vega, Terms.rho,
      Terms.vanna, Terms.vomma, Terms.charm, Terms.drift, Terms.color, Terms.speed, Terms.zomma,
      Terms.ultima, Terms.presentSpot, Terms.presentStrike, ContractRequest.termsAt, two_eq, hyear,
      hcdf, neg_one_mul, distribution_neg, GreeksResult.mk.injEq, Option.some.injEq, and_true,
      true_and]
    refine ⟨?_, ?_, ?_, ?_⟩ <;> ring

theorem calculateAt_eq (h : (request.termsAt t).Regular) :
    calculateAt normalMath request t = .ok (closedGreeks request t) := by
  have hleft : ¬ ((closedTerms request t).t ≤ 0 ∨ request.volatility ≤ 0) :=
    not_or.mpr ⟨not_le.mpr h.time, not_le.mpr h.volatility⟩
  rw [calculateAt, blackScholesTermsAt_eq h, except_ok_bind, if_neg hleft, greeksOf_closedTerms]
  rfl

end BlackScholesGreeksModel

/-! ### Prices in closed form -/

namespace BlackScholesModel

theorem unboundedValue_eq (hvolatility : 0 < request.volatility) (t : ℝ) :
    unboundedValue distribution request t request.optionType =
      (request.termsAt t).value request.sign := by
  rw [unboundedValue, PricingRequest.sign]
  dsimp only
  rw [if_neg hvolatility.ne', Terms.value, exchange]
  cases request.optionType with
  | call =>
    simp only [europeanValue, one_mul]
    rfl
  | put =>
    simp only [neg_one_mul]
    exact (neg_sub _ _).symm

theorem price_eq (h : (request.termsAt (yearFraction request.valuationDate request.expiry)).Regular) :
    price normalMath request = .ok
      { optionValue := max ((request.termsAt
            (yearFraction request.valuationDate request.expiry)).value request.sign)
          (intrinsicValue request.spot request.strike request.optionType) * request.multiplier
        intrinsicValue := intrinsicValue request.spot request.strike request.optionType *
          request.multiplier
        extrinsicValue := max (max ((request.termsAt
              (yearFraction request.valuationDate request.expiry)).value request.sign)
            (intrinsicValue request.spot request.strike request.optionType) -
          intrinsicValue request.spot request.strike request.optionType) 0 * request.multiplier
        timeToExpiry := yearFraction request.valuationDate request.expiry
        calculationMetadata := .spot modelName request.optionType
        warnings := dividendWarnings request } := by
  have ht : (0 : ℝ) < yearFraction request.valuationDate request.expiry := h.time
  rw [price]
  dsimp only
  rw [if_neg ht.ne', formula_eq h.spot h.strike ht, except_ok_bind, unboundedValue_eq h.volatility]
  rfl

end BlackScholesModel

/-! ### Slopes of what is computed -/

/-- Near `x` the computation returns numbers, and the slope of these at `x`. -/
def HasSlopeAt (computed : ℝ → Except Exc (Option ℝ)) (slope : Option ℝ) (x : ℝ) : Prop :=
  ∃ f f', slope = some f' ∧ (∀ᶠ y in 𝓝 x, computed y = .ok (some (f y))) ∧ HasDerivAt f f' x

theorem hasSlopeAt_of_deriv {computed : ℝ → Except Exc (Option ℝ)} {f : ℝ → ℝ} {f' x : ℝ}
    (hf : HasDerivAt f f' x) (hcomputed : ∀ y, 0 < y → computed y = .ok (some (f y)))
    (hx : 0 < x) : HasSlopeAt computed (some f') x :=
  ⟨f, f', rfl, (eventually_gt_nhds hx).mono hcomputed, hf⟩

namespace GreeksEngine

/-- What the engine checks of a request. -/
theorem validateRequest_eq_ok_iff : validateRequest request = .ok () ↔
    0 < request.spot ∧ 0 < request.strike ∧ 0 ≤ request.volatility ∧ 0 < request.multiplier ∧
      request.valuationDate ≤ request.expiry := by
  have hdates : ¬ request.expiry < request.valuationDate ↔
      request.valuationDate ≤ request.expiry := by
    rw [OrdinalDate.lt_iff, OrdinalDate.le_iff, not_lt]
  rw [← hdates]
  unfold validateRequest
  constructor
  · intro h
    split_ifs at h with hspot hstrike hvolatility hmultiplier hexpiry
    exact ⟨not_le.mp hspot, not_le.mp hstrike, not_lt.mp hvolatility, not_le.mp hmultiplier, hexpiry⟩
  · rintro ⟨hspot, hstrike, hvolatility, hmultiplier, hexpiry⟩
    rw [if_neg (not_le.mpr hspot), if_neg (not_le.mpr hstrike), if_neg (not_lt.mpr hvolatility),
      if_neg (not_le.mpr hmultiplier), if_neg hexpiry]

end GreeksEngine

/-- A request that the engine accepts, with time and volatility left. -/
structure Live (request : ContractRequest ℝ) : Prop where
  accepted : GreeksEngine.validateRequest request = .ok ()
  volatile : 0 < request.volatility
  unexpired : request.valuationDate < request.expiry

namespace Live

theorem time_pos (h : Live request) :
    (0 : ℝ) < yearFraction request.valuationDate request.expiry := by
  have hdays : 0 < request.expiry.toordinal - request.valuationDate.toordinal :=
    sub_pos.mpr h.unexpired
  exact div_pos (Int.cast_pos.mpr hdays) (by norm_num)

theorem multiplier_pos (h : Live request) : 0 < request.multiplier :=
  (GreeksEngine.validateRequest_eq_ok_iff.mp h.accepted).2.2.2.1

theorem regular (h : Live request) :
    (request.termsAt (yearFraction request.valuationDate request.expiry)).Regular := by
  obtain ⟨hspot, hstrike, -⟩ := GreeksEngine.validateRequest_eq_ok_iff.mp h.accepted
  exact ⟨hspot, hstrike, h.volatile, h.time_pos⟩

theorem withVolatility (h : Live request) {v : ℝ} (hv : 0 < v) :
    Live { request with volatility := v } := by
  obtain ⟨hspot, hstrike, -, hrest⟩ := GreeksEngine.validateRequest_eq_ok_iff.mp h.accepted
  exact ⟨GreeksEngine.validateRequest_eq_ok_iff.mpr ⟨hspot, hstrike, hv.le, hrest⟩, hv, h.unexpired⟩

theorem calculate_eq (h : Live request) :
    BlackScholesGreeksModel.calculate normalMath request =
      .ok (BlackScholesGreeksModel.closedGreeks request
        (yearFraction request.valuationDate request.expiry)) :=
  BlackScholesGreeksModel.calculateAt_eq h.regular

end Live

/-- An option at the money at full volatility, without rates, a year from its expiry. -/
noncomputable def atTheMoney : ContractRequest ℝ where
  toPricingRequest := { yearlyCall with
    strike := yearlyCall.spot
    exerciseStyle := .european }
  futuresPrice := some yearlyCall.spot

theorem live_atTheMoney : Live atTheMoney where
  accepted := by
    refine GreeksEngine.validateRequest_eq_ok_iff.mpr ⟨?_, ?_, ?_, ?_, ?_⟩
    · norm_num [atTheMoney, yearlyCall]
    · norm_num [atTheMoney, yearlyCall]
    · norm_num [atTheMoney, yearlyCall]
    · norm_num [atTheMoney, yearlyCall]
    · exact OrdinalDate.le_iff.mpr (by decide)
  volatile := one_pos
  unexpired := OrdinalDate.lt_iff.mpr (by decide)

/-! ### The Greeks as slopes -/

namespace BlackScholesGreeksModel

/-- What the model computes in a variable, near a live request. -/
theorem calculate_vary (h : Live request) :
    (∀ s, 0 < s → calculate normalMath { request with spot := s } =
      .ok (closedGreeks { request with spot := s }
        (yearFraction request.valuationDate request.expiry))) ∧
    (∀ v, 0 < v → calculate normalMath { request with volatility := v } =
      .ok (closedGreeks { request with volatility := v }
        (yearFraction request.valuationDate request.expiry))) ∧
    ∀ t, 0 < t → calculateAt normalMath request t = .ok (closedGreeks request t) := by
  obtain ⟨hspot, hstrike, hvolatility, htime⟩ := h.regular
  exact ⟨fun s hs => calculateAt_eq ⟨hs, hstrike, hvolatility, htime⟩,
    fun v hv => calculateAt_eq ⟨hspot, hstrike, hv, htime⟩,
    fun t ht => calculateAt_eq ⟨hspot, hstrike, hvolatility, ht⟩⟩

/-- Gamma, vanna and charm are the slopes of delta, vomma that of vega, speed, zomma and color those
of gamma, and ultima that of vomma. Charm is that of time passing, color that of time left. -/
theorem higherOrder_slopes (request : ContractRequest ℝ) (h : Live request) :
    ∃ greeks, calculate normalMath request = .ok greeks ∧
      HasSlopeAt (fun s => (calculate normalMath { request with spot := s }).map
        fun result => some result.delta) (some greeks.gamma) request.spot ∧
      HasSlopeAt (fun v => (calculate normalMath { request with volatility := v }).map
        fun result => some result.delta) greeks.vanna request.volatility ∧
      HasSlopeAt (fun t => (calculateAt normalMath request t).map
        fun result => some (-result.delta)) greeks.charm
          (yearFraction request.valuationDate request.expiry) ∧
      HasSlopeAt (fun v => (calculate normalMath { request with volatility := v }).map
        fun result => some result.vega) greeks.vomma request.volatility ∧
      HasSlopeAt (fun s => (calculate normalMath { request with spot := s }).map
        fun result => some result.gamma) greeks.speed request.spot ∧
      HasSlopeAt (fun v => (calculate normalMath { request with volatility := v }).map
        fun result => some result.gamma) greeks.zomma request.volatility ∧
      HasSlopeAt (fun t => (calculateAt normalMath request t).map
        fun result => some result.gamma) greeks.color
          (yearFraction request.valuationDate request.expiry) ∧
      HasSlopeAt (fun v => (calculate normalMath { request with volatility := v }).map
        fun result => result.vomma) greeks.ultima request.volatility := by
  have hregular := h.regular
  have hside := sign_cases request
  obtain ⟨hspot, hvolatility, htime⟩ := calculate_vary h
  refine ⟨_, h.calculate_eq, ?_, ?_, ?_, ?_, ?_, ?_, ?_, ?_⟩
  · exact hasSlopeAt_of_deriv ((hregular.hasDerivAt_delta_spot hside).mul_const request.multiplier)
      (fun s hs => by rw [hspot s hs]; rfl) hregular.spot
  · exact hasSlopeAt_of_deriv
      ((hregular.hasDerivAt_delta_volatility hside).mul_const request.multiplier)
      (fun v hv => by rw [hvolatility v hv]; rfl) hregular.volatility
  · refine hasSlopeAt_of_deriv
      (((hregular.hasDerivAt_delta_time hside).mul_const request.multiplier).neg.congr_deriv ?_)
      (fun t ht => by rw [htime t ht]; rfl) hregular.time
    ring
  · exact hasSlopeAt_of_deriv (hregular.hasDerivAt_vega_volatility.mul_const request.multiplier)
      (fun v hv => by rw [hvolatility v hv]; rfl) hregular.volatility
  · exact hasSlopeAt_of_deriv (hregular.hasDerivAt_gamma_spot.mul_const request.multiplier)
      (fun s hs => by rw [hspot s hs]; rfl) hregular.spot
  · exact hasSlopeAt_of_deriv (hregular.hasDerivAt_gamma_volatility.mul_const request.multiplier)
      (fun v hv => by rw [hvolatility v hv]; rfl) hregular.volatility
  · exact hasSlopeAt_of_deriv (hregular.hasDerivAt_gamma_time.mul_const request.multiplier)
      (fun t ht => by rw [htime t ht]; rfl) hregular.time
  · exact hasSlopeAt_of_deriv (hregular.hasDerivAt_vomma_volatility.mul_const request.multiplier)
      (fun v hv => by rw [hvolatility v hv]; rfl) hregular.volatility

theorem higherOrder_slopes_atTheMoney :
    ∃ greeks, calculate normalMath atTheMoney = .ok greeks ∧
      HasSlopeAt (fun s => (calculate normalMath { atTheMoney with spot := s }).map
        fun result => some result.delta) (some greeks.gamma) atTheMoney.spot ∧
      HasSlopeAt (fun v => (calculate normalMath { atTheMoney with volatility := v }).map
        fun result => some result.delta) greeks.vanna atTheMoney.volatility ∧
      HasSlopeAt (fun t => (calculateAt normalMath atTheMoney t).map
        fun result => some (-result.delta)) greeks.charm
          (yearFraction atTheMoney.valuationDate atTheMoney.expiry) ∧
      HasSlopeAt (fun v => (calculate normalMath { atTheMoney with volatility := v }).map
        fun result => some result.vega) greeks.vomma atTheMoney.volatility ∧
      HasSlopeAt (fun s => (calculate normalMath { atTheMoney with spot := s }).map
        fun result => some result.gamma) greeks.speed atTheMoney.spot ∧
      HasSlopeAt (fun v => (calculate normalMath { atTheMoney with volatility := v }).map
        fun result => some result.gamma) greeks.zomma atTheMoney.volatility ∧
      HasSlopeAt (fun t => (calculateAt normalMath atTheMoney t).map
        fun result => some result.gamma) greeks.color
          (yearFraction atTheMoney.valuationDate atTheMoney.expiry) ∧
      HasSlopeAt (fun v => (calculate normalMath { atTheMoney with volatility := v }).map
        fun result => result.vomma) greeks.ultima atTheMoney.volatility :=
  higherOrder_slopes atTheMoney live_atTheMoney

/-- The value in closed form and the lower bound of the price. -/
noncomputable def closedValue (request : ContractRequest ℝ) : ℝ :=
  (request.termsAt (yearFraction request.valuationDate request.expiry)).value request.sign

noncomputable def lowerBound (request : ContractRequest ℝ) : ℝ :=
  intrinsicValue request.spot request.strike request.optionType

theorem lowerBound_lt (h : Live request) {priced : ClosedFormResult ℝ}
    (hpriced : BlackScholesModel.price normalMath request = .ok priced)
    (hextrinsic : 0 < priced.extrinsicValue) : lowerBound request < closedValue request := by
  rw [BlackScholesModel.price_eq h.regular] at hpriced
  cases hpriced
  dsimp only at hextrinsic
  have hover := pos_of_mul_pos_left hextrinsic h.multiplier_pos.le
  have hmax := (lt_max_iff.mp hover).resolve_right (lt_irrefl 0)
  exact (lt_max_iff.mp (sub_pos.mp hmax)).resolve_right (lt_irrefl _)

/-- Above its lower bound the price moves as the value in closed form. -/
theorem hasSlopeAt_price {vary : ℝ → ContractRequest ℝ} {slope x : ℝ}
    (hregular : ∀ᶠ y in 𝓝 x, ((vary y).termsAt
      (yearFraction (vary y).valuationDate (vary y).expiry)).Regular)
    (hmultiplier : ∀ y, (vary y).multiplier = request.multiplier)
    (hvalue : HasDerivAt (fun y => closedValue (vary y)) slope x)
    (hbound : ContinuousAt (fun y => lowerBound (vary y)) x)
    (hlt : lowerBound (vary x) < closedValue (vary x)) :
    HasSlopeAt (fun y => (BlackScholesModel.price normalMath (vary y)).map
      fun result => some result.optionValue) (some (slope * request.multiplier)) x := by
  refine ⟨_, _, rfl, ?_, hvalue.mul_const request.multiplier⟩
  filter_upwards [hregular, hbound.eventually_lt hvalue.continuousAt hlt] with y hy hover
  rw [BlackScholesModel.price_eq hy]
  change Except.ok (some (max (closedValue (vary y)) (lowerBound (vary y)) * _)) = _
  rw [max_eq_left hover.le, hmultiplier]

theorem continuous_intrinsicValue (strike : ℝ) (right : OptionType) :
    Continuous fun s : ℝ => intrinsicValue s strike right := by
  cases right with
  | call => exact (continuous_id.sub continuous_const).max continuous_const
  | put => exact (continuous_const.sub continuous_id).max continuous_const

/-- Where a price is above its lower bound, delta, vega and rho are its slopes in the spot, the
volatility and the rate; and the value of the formula loses theta with every day. -/
theorem firstOrder_slopes (request : ContractRequest ℝ) (h : Live request)
    (priced : ClosedFormResult ℝ)
    (hpriced : BlackScholesModel.price normalMath request = .ok priced)
    (hextrinsic : 0 < priced.extrinsicValue) :
    ∃ greeks, calculate normalMath request = .ok greeks ∧
      HasSlopeAt (fun s => (BlackScholesModel.price normalMath { request with spot := s }).map
        fun result => some result.optionValue) (some greeks.delta) request.spot ∧
      HasSlopeAt (fun v =>
        (BlackScholesModel.price normalMath { request with volatility := v }).map
          fun result => some result.optionValue) (some greeks.vega) request.volatility ∧
      HasSlopeAt (fun r =>
        (BlackScholesModel.price normalMath { request with riskFreeRate := r }).map
          fun result => some result.optionValue) (some greeks.rho) request.riskFreeRate ∧
      HasSlopeAt (fun t => (BlackScholesModel.formula normalMath request t).map
        fun value => some (value * request.multiplier)) (some (-365 * greeks.theta))
          (yearFraction request.valuationDate request.expiry) := by
  have hregular := h.regular
  have hside := sign_cases request
  have hlt := lowerBound_lt h hpriced hextrinsic
  refine ⟨_, h.calculate_eq, ?_, ?_, ?_, ?_⟩
  · refine hasSlopeAt_price ?_ (fun _ => rfl) (hregular.hasDerivAt_value_spot hside)
      (continuous_intrinsicValue _ _).continuousAt hlt
    filter_upwards [eventually_gt_nhds hregular.spot] with s hs
    exact ⟨hs, hregular.strike, hregular.volatility, hregular.time⟩
  · refine hasSlopeAt_price ?_ (fun _ => rfl) (hregular.hasDerivAt_value_volatility hside)
      continuousAt_const hlt
    filter_upwards [eventually_gt_nhds hregular.volatility] with v hv
    exact ⟨hregular.spot, hregular.strike, hv, hregular.time⟩
  · exact hasSlopeAt_price (.of_forall fun _ => ⟨hregular.spot, hregular.strike,
      hregular.volatility, hregular.time⟩) (fun _ => rfl) (hregular.hasDerivAt_value_rate hside)
      continuousAt_const hlt
  · have hyear : (365.0 : ℝ) = 365 := by norm_num
    refine hasSlopeAt_of_deriv (((hregular.hasDerivAt_value_time hside).mul_const
      request.multiplier).congr_deriv ?_) (fun t ht => ?_) hregular.time
    · change _ = -365 * (_ / 365.0 * request.multiplier)
      rw [hyear]
      ring
    · rw [BlackScholesModel.formula_eq hregular.spot hregular.strike ht,
        BlackScholesModel.unboundedValue_eq h.volatile]
      rfl

theorem yearFraction_atTheMoney :
    yearFraction atTheMoney.valuationDate atTheMoney.expiry = (1 : ℝ) := by
  change ((367 - 2 : Int) : ℝ) / 365 = 1
  norm_num

/-- At the money all of the value is extrinsic. -/
theorem lowerBound_atTheMoney : lowerBound atTheMoney < closedValue atTheMoney := by
  have hbound : lowerBound atTheMoney = 0 := by
    norm_num [lowerBound, intrinsicValue, atTheMoney, yearlyCall]
  have hvalue : closedValue atTheMoney = 100 * distribution 0.5 - 100 * distribution (-0.5) := by
    rw [closedValue, yearFraction_atTheMoney]
    norm_num [Terms.value, exchange, Terms.presentSpot, Terms.presentStrike, Terms.d₂, Terms.d₁,
      Terms.deviation, ContractRequest.termsAt, PricingRequest.sign, atTheMoney, yearlyCall]
  rw [hbound, hvalue, ← mul_sub]
  exact mul_pos (by norm_num) (sub_pos.mpr (distribution_strictMono (by norm_num)))

theorem firstOrder_slopes_atTheMoney : ∃ priced,
    BlackScholesModel.price normalMath atTheMoney = .ok priced ∧ 0 < priced.extrinsicValue ∧
    ∃ greeks, calculate normalMath atTheMoney = .ok greeks ∧
      HasSlopeAt (fun s => (BlackScholesModel.price normalMath { atTheMoney with spot := s }).map
        fun result => some result.optionValue) (some greeks.delta) atTheMoney.spot ∧
      HasSlopeAt (fun v =>
        (BlackScholesModel.price normalMath { atTheMoney with volatility := v }).map
          fun result => some result.optionValue) (some greeks.vega) atTheMoney.volatility ∧
      HasSlopeAt (fun r =>
        (BlackScholesModel.price normalMath { atTheMoney with riskFreeRate := r }).map
          fun result => some result.optionValue) (some greeks.rho) atTheMoney.riskFreeRate ∧
      HasSlopeAt (fun t => (BlackScholesModel.formula normalMath atTheMoney t).map
        fun value => some (value * atTheMoney.multiplier)) (some (-365 * greeks.theta))
          (yearFraction atTheMoney.valuationDate atTheMoney.expiry) := by
  obtain ⟨priced, hpriced, hextrinsic⟩ : ∃ priced,
      BlackScholesModel.price normalMath atTheMoney = .ok priced ∧ 0 < priced.extrinsicValue :=
    ⟨_, BlackScholesModel.price_eq live_atTheMoney.regular, mul_pos (lt_max_of_lt_left
      (sub_pos.mpr (lt_max_of_lt_left lowerBound_atTheMoney))) live_atTheMoney.multiplier_pos⟩
  exact ⟨priced, hpriced, hextrinsic,
    firstOrder_slopes atTheMoney live_atTheMoney priced hpriced hextrinsic⟩

end BlackScholesGreeksModel

/-! ### Black-76 -/

/-- The terms of an option on a future, whose price carries no interest. -/
def ContractRequest.futuresTermsAt (request : ContractRequest ℝ) (futures t : ℝ) : Terms where
  spot := futures
  strike := request.strike
  rate := request.riskFreeRate
  yield := request.riskFreeRate
  volatility := request.volatility
  time := t

namespace Black76GreeksModel

variable {futures : ℝ}

theorem d1_eq (request : ContractRequest ℝ) (futures t : ℝ) :
    (Real.log (futures / request.strike) + 0.5 * request.volatility ^ 2 * t) /
      (request.volatility * √t) = (request.futuresTermsAt futures t).d₁ := by
  rw [Terms.d₁]
  dsimp only [ContractRequest.futuresTermsAt]
  rw [sub_self, zero_add]
  rfl

/-- The value that both implementations compute. -/
theorem value_eq (request : ContractRequest ℝ) (futures t : ℝ) :
    Real.exp (-request.riskFreeRate * t) * europeanValue distribution futures request.strike
        (request.futuresTermsAt futures t).d₁ (request.futuresTermsAt futures t).d₂
        request.optionType =
      (request.futuresTermsAt futures t).value request.sign := by
  rw [Terms.value, exchange, PricingRequest.sign]
  dsimp only [Terms.presentSpot, Terms.presentStrike, ContractRequest.futuresTermsAt]
  cases request.optionType with
  | call =>
    simp only [europeanValue, one_mul]
    ring
  | put =>
    simp only [europeanValue, neg_one_mul]
    ring

theorem black76Price_eq (h : (request.futuresTermsAt futures t).Regular) :
    black76Price normalMath request futures t =
      .ok ((request.futuresTermsAt futures t).value request.sign) := by
  have hstrike : request.strike ≠ 0 := h.strike.ne'
  have hdeviation : request.volatility * √t ≠ 0 := h.deviation_pos.ne'
  have hsqrt : normalMath.sqrt t = .ok √t := sqrt_realClosedForm h.time.le
  have hlog : normalMath.log (futures / request.strike) = .ok (Real.log (futures / request.strike)) :=
    log_realClosedForm (div_pos h.spot h.strike)
  rw [black76Price, hsqrt, except_ok_bind, divide_eq_ok hstrike, except_ok_bind, hlog,
    except_ok_bind, divide_eq_ok hdeviation, except_ok_bind, d1_eq, ← value_eq]
  cases request.optionType with
  | call => rfl
  | put => rfl

/-- The first-order Greeks in closed form. -/
noncomputable def closedFirstOrder (request : ContractRequest ℝ) (futures t : ℝ) :
    FirstOrderGreeks ℝ :=
  let terms := request.futuresTermsAt futures t
  { delta := terms.delta request.sign * request.multiplier
    gamma := terms.gamma * request.multiplier
    theta := terms.theta request.sign / 365.0 * request.multiplier
    vega := terms.vega * request.multiplier
    rho := -t * terms.value request.sign * request.multiplier }

/-- Theta is the decay and the interest on the value. -/
theorem theta_eq (request : ContractRequest ℝ) (futures t : ℝ) :
    -Real.exp (-request.riskFreeRate * t) * futures *
          density (request.futuresTermsAt futures t).d₁ * request.volatility / (2.0 * √t) +
        request.riskFreeRate * (request.futuresTermsAt futures t).value request.sign =
      (request.futuresTermsAt futures t).theta request.sign := by
  rw [Terms.theta, Terms.value, exchange, two_eq]
  dsimp only [Terms.presentSpot, Terms.presentStrike, ContractRequest.futuresTermsAt]
  ring

theorem delta_eq (request : ContractRequest ℝ) (futures t : ℝ) :
    (match request.optionType with
      | .call => Real.exp (-request.riskFreeRate * t) *
          distribution (request.futuresTermsAt futures t).d₁
      | .put => -Real.exp (-request.riskFreeRate * t) *
          distribution (-(request.futuresTermsAt futures t).d₁)) =
      (request.futuresTermsAt futures t).delta request.sign := by
  rw [Terms.delta, PricingRequest.sign]
  cases request.optionType with
  | call =>
    simp only [one_mul]
    rfl
  | put =>
    simp only [neg_one_mul]
    rfl

theorem gamma_eq (request : ContractRequest ℝ) (futures t : ℝ) :
    Real.exp (-request.riskFreeRate * t) * density (request.futuresTermsAt futures t).d₁ /
        (futures * request.volatility * √t) = (request.futuresTermsAt futures t).gamma := by
  rw [mul_assoc futures]
  rfl

theorem vega_eq (request : ContractRequest ℝ) (futures t : ℝ) :
    Real.exp (-request.riskFreeRate * t) * futures *
        density (request.futuresTermsAt futures t).d₁ * √t =
      (request.futuresTermsAt futures t).vega := by
  rw [Terms.vega, Terms.presentSpot]
  dsimp only [ContractRequest.futuresTermsAt]
  ring

variable {discount intrinsic : ℝ}

theorem formula_eq (h : (request.futuresTermsAt futures t).Regular)
    (hdiscount : discount = Real.exp (-request.riskFreeRate * t)) :
    Black76Model.formula normalMath request t futures discount intrinsic =
      .ok ((request.futuresTermsAt futures t).value request.sign,
        (request.futuresTermsAt futures t).d₁) := by
  have hvolatility : request.volatility ≠ 0 := h.volatility.ne'
  have hstrike : request.strike ≠ 0 := h.strike.ne'
  have hdeviation : request.volatility * √t ≠ 0 := h.deviation_pos.ne'
  have hsqrt : normalMath.sqrt t = .ok √t := sqrt_realClosedForm h.time.le
  have hlog : normalMath.log (futures / request.strike) = .ok (Real.log (futures / request.strike)) :=
    log_realClosedForm (div_pos h.spot h.strike)
  rw [Black76Model.formula, if_neg hvolatility, hsqrt, except_ok_bind, divide_eq_ok hstrike,
    except_ok_bind, hlog, except_ok_bind, divide_eq_ok hdeviation, except_ok_bind, d1_eq,
    ← value_eq, hdiscount]
  cases request.optionType with
  | call => rfl
  | put => rfl

theorem greeks_eq (h : (request.futuresTermsAt futures t).Regular)
    (hdiscount : discount = Real.exp (-request.riskFreeRate * t)) :
    Black76Model.greeks normalMath request t futures discount
        ((request.futuresTermsAt futures t).value request.sign)
        (request.futuresTermsAt futures t).d₁ = .ok (closedFirstOrder request futures t) := by
  have hvolatility : 0 < request.volatility := h.volatility
  have hscale : futures * request.volatility * √t ≠ 0 :=
    (mul_pos (mul_pos h.spot h.volatility) h.sqrt_time).ne'
  have htwice : (2.0 : ℝ) * √t ≠ 0 := (mul_pos (by norm_num) h.sqrt_time).ne'
  have hsqrt : normalMath.sqrt t = .ok √t := sqrt_realClosedForm h.time.le
  have hcircle : (0 : ℝ) < √(2.0 * Real.pi) :=
    Real.sqrt_pos.mpr (mul_pos (by norm_num) Real.pi_pos)
  have hpi : normalMath.sqrt (2.0 * normalMath.pi) = .ok √(2.0 * Real.pi) :=
    sqrt_realClosedForm (mul_pos (by norm_num) Real.pi_pos).le
  unfold Black76Model.greeks
  rw [hsqrt, hpi]
  dsimp only [bind, Except.bind]
  rw [divide_eq_ok hcircle.ne']
  dsimp only
  rw [if_pos hvolatility, divide_eq_ok hscale]
  dsimp only
  rw [divide_eq_ok htwice, hdiscount, closedFirstOrder]
  dsimp only
  rw [← delta_eq, ← gamma_eq, ← theta_eq, ← vega_eq]
  refine congrArg Except.ok ?_
  rw [FirstOrderGreeks.mk.injEq]
  exact ⟨rfl, rfl, rfl, rfl, rfl⟩

/-- Both implementations have the same first-order Greeks. -/
theorem calculateFrom_eq (h : (request.futuresTermsAt futures t).Regular)
    (hfutures : request.futuresPrice = some futures) :
    ∃ result, calculateFrom normalMath request t = .ok result ∧
      result.delta = (closedFirstOrder request futures t).delta ∧
      result.gamma = (closedFirstOrder request futures t).gamma ∧
      result.theta = (closedFirstOrder request futures t).theta ∧
      result.vega = (closedFirstOrder request futures t).vega ∧
      result.rho = (closedFirstOrder request futures t).rho := by
  have hstrike : request.strike ≠ 0 := h.strike.ne'
  have hdeviation : request.volatility * √t ≠ 0 := h.deviation_pos.ne'
  have hscale : futures * request.volatility * √t ≠ 0 :=
    (mul_pos (mul_pos h.spot h.volatility) h.sqrt_time).ne'
  have htwice : (2.0 : ℝ) * √t ≠ 0 := (mul_pos (by norm_num) h.sqrt_time).ne'
  have hsqrt : normalMath.sqrt t = .ok √t := sqrt_realClosedForm h.time.le
  have hlog : normalMath.log (futures / request.strike) = .ok (Real.log (futures / request.strike)) :=
    log_realClosedForm (div_pos h.spot h.strike)
  have hcircle : (0 : ℝ) < √(2.0 * Real.pi) :=
    Real.sqrt_pos.mpr (mul_pos (by norm_num) Real.pi_pos)
  have hpi : normalMath.sqrt (2.0 * normalMath.pi) = .ok √(2.0 * Real.pi) :=
    sqrt_realClosedForm (mul_pos (by norm_num) Real.pi_pos).le
  rw [calculateFrom, hfutures, Option.getD_some, hsqrt, except_ok_bind, divide_eq_ok hstrike,
    except_ok_bind, hlog, except_ok_bind, divide_eq_ok hdeviation, except_ok_bind, hpi,
    except_ok_bind, divide_eq_ok hcircle.ne', except_ok_bind, except_ok_bind, divide_eq_ok hscale,
    except_ok_bind, except_ok_bind, black76Price_eq h, except_ok_bind, except_ok_bind,
    divide_eq_ok htwice, except_ok_bind, d1_eq]
  refine ⟨_, rfl, ?_⟩
  rw [closedFirstOrder]
  dsimp only [GreeksResult.unsupportedHigherOrder]
  rw [← delta_eq, ← gamma_eq, ← theta_eq, ← vega_eq]
  exact ⟨rfl, rfl, rfl, rfl, rfl⟩

theorem futuresRegular (h : Live request) (hpositive : 0 < futures) :
    (request.futuresTermsAt futures
      (yearFraction request.valuationDate request.expiry)).Regular :=
  ⟨hpositive, h.regular.strike, h.volatile, h.time_pos⟩

theorem calculate_eq (h : Live request) (hpositive : 0 < futures)
    (hfutures : request.futuresPrice = some futures) :
    ∃ result, calculate normalMath request = .ok result ∧
      result.delta = (closedFirstOrder request futures
        (yearFraction request.valuationDate request.expiry)).delta ∧
      result.gamma = (closedFirstOrder request futures
        (yearFraction request.valuationDate request.expiry)).gamma ∧
      result.theta = (closedFirstOrder request futures
        (yearFraction request.valuationDate request.expiry)).theta ∧
      result.vega = (closedFirstOrder request futures
        (yearFraction request.valuationDate request.expiry)).vega ∧
      result.rho = (closedFirstOrder request futures
        (yearFraction request.valuationDate request.expiry)).rho := by
  have hleft : ¬ ((yearFraction request.valuationDate request.expiry : ℝ) ≤ 0 ∨
      request.volatility ≤ 0) :=
    not_or.mpr ⟨not_le.mpr h.time_pos, not_le.mpr h.volatile⟩
  rw [calculate, if_neg hleft]
  exact calculateFrom_eq (futuresRegular h hpositive) hfutures

/-- The price in closed form, with the Greeks that it reports. -/
theorem price_eq (h : Live request) (hpositive : 0 < futures)
    (hfutures : request.futuresPrice = some futures) :
    ∃ result, Black76Model.price normalMath request = .ok result ∧
      result.optionValue = (request.futuresTermsAt futures
        (yearFraction request.valuationDate request.expiry)).value request.sign *
          request.multiplier ∧
      result.calculationMetadata = .futures Black76Model.modelName futures
        (closedFirstOrder request futures
          (yearFraction request.valuationDate request.expiry)) := by
  have hregular := futuresRegular h hpositive
  have ht : (0 : ℝ) < yearFraction request.valuationDate request.expiry := h.time_pos
  have hdiscount : discountFactor normalMath.toPricingMath request.riskFreeRate
      (max (yearFraction request.valuationDate request.expiry) 0) =
        Real.exp (-request.riskFreeRate * yearFraction request.valuationDate request.expiry) := by
    rw [max_eq_left ht.le]
    rfl
  have hforward : Black76Model.forward normalMath request
      (yearFraction request.valuationDate request.expiry) = futures := by
    rw [Black76Model.forward, hfutures, Option.getD_some]
  rw [Black76Model.price, if_neg ht.ne', hforward, formula_eq hregular hdiscount, except_ok_bind]
  dsimp only
  rw [greeks_eq hregular hdiscount, except_ok_bind]
  exact ⟨_, rfl, rfl, rfl⟩

/-- Interest only discounts the value of an option on a future. -/
theorem hasDerivAt_value_rate (request : ContractRequest ℝ) (futures t : ℝ) :
    HasDerivAt (fun r => (ContractRequest.futuresTermsAt { request with riskFreeRate := r }
        futures t).value request.sign)
      (-t * (request.futuresTermsAt futures t).value request.sign) request.riskFreeRate := by
  have hdiscount : HasDerivAt (fun r => Real.exp (-r * t))
      (-t * Real.exp (-request.riskFreeRate * t)) request.riskFreeRate :=
    ((hasDerivAt_id' request.riskFreeRate).fun_neg.mul_const t).exp.congr_deriv (by ring)
  have hvalue : ∀ r, (ContractRequest.futuresTermsAt { request with riskFreeRate := r }
      futures t).value request.sign = Real.exp (-r * t) * europeanValue distribution futures
        request.strike (request.futuresTermsAt futures t).d₁
        (request.futuresTermsAt futures t).d₂ request.optionType := by
    intro r
    have hd₁ : (ContractRequest.futuresTermsAt { request with riskFreeRate := r } futures t).d₁ =
        (request.futuresTermsAt futures t).d₁ := by
      rw [← d1_eq, ← d1_eq]
    have hvalue := value_eq { request with riskFreeRate := r } futures t
    rw [Terms.d₂, hd₁] at hvalue
    exact hvalue.symm
  rw [funext hvalue, ← value_eq]
  exact (hdiscount.mul_const _).congr_deriv (by ring)

end Black76GreeksModel

/-! ### Portfolios -/

/-- An engine with the normal distribution, whatever its numerical models price. -/
noncomputable def normalEngine (price : PricingModelName → ContractRequest ℝ → Except Exc ℝ) :
    GreeksEngine ℝ where
  math := normalMath
  arrays := normalArrays
  price

namespace GreeksEngine

variable {price : PricingModelName → ContractRequest ℝ → Except Exc ℝ}

theorem calculate_blackScholes (h : Live request) (hstyle : request.exerciseStyle = .european) :
    (normalEngine price).calculate request (some .blackScholes) =
      .ok (BlackScholesGreeksModel.closedGreeks request
        (yearFraction request.valuationDate request.expiry)) := by
  have hsupported : (normalEngine price).assertSupported .blackScholes request = .ok () := by
    rw [assertSupported, hstyle]
    exact if_neg (not_not.mpr (List.mem_singleton.mpr rfl))
  rw [calculate, h.accepted, except_ok_bind, selectModel, except_ok_bind, hsupported,
    except_ok_bind]
  exact h.calculate_eq

/-- A leg that the Black-Scholes model calculates. -/
structure Analytic (leg : PositionLeg ℝ) : Prop where
  live : Live leg.request
  european : leg.request.exerciseStyle = .european
  modelName : leg.modelName = .blackScholes

/-- The Greeks of a leg in closed form. -/
noncomputable def legGreeks (leg : PositionLeg ℝ) : GreeksResult ℝ :=
  (BlackScholesGreeksModel.closedGreeks leg.request
    (yearFraction leg.request.valuationDate leg.request.expiry)).scale leg.quantity

theorem calculatePortfolio_eq {legs : List (PositionLeg ℝ)} (h : ∀ leg ∈ legs, Analytic leg) :
    (normalEngine price).calculatePortfolio legs = .ok
      { total := (legs.map legGreeks).foldl GreeksResult.add (.zero 0 .empty [])
        perLeg := legs.map legGreeks } := by
  have hlegs : (legs.mapM fun leg => do
      let legResult ← (normalEngine price).calculate leg.request (some leg.modelName)
      return legResult.scale leg.quantity) = .ok (legs.map legGreeks) := by
    refine mapM_eq_ok_map fun leg hleg => ?_
    obtain ⟨hlive, hstyle, hmodel⟩ := h leg hleg
    rw [hmodel, calculate_blackScholes hlive hstyle]
    rfl
  rw [calculatePortfolio, hlegs]
  rfl

theorem foldl_add {figure : GreeksResult ℝ → ℝ}
    (hfigure : ∀ left right, figure (left.add right) = figure left + figure right)
    (results : List (GreeksResult ℝ)) (start : GreeksResult ℝ) :
    figure (results.foldl GreeksResult.add start) = figure start + (results.map figure).sum := by
  induction results generalizing start with
  | nil => rw [List.foldl_nil, List.map_nil, List.sum_nil, add_zero]
  | cons first rest ih => rw [List.foldl_cons, ih, hfigure, List.map_cons, List.sum_cons, add_assoc]

/-- The value of a leg by the formula. -/
noncomputable def legValue (leg : PositionLeg ℝ) : ℝ :=
  BlackScholesModel.unboundedValue distribution leg.request
    (yearFraction leg.request.valuationDate leg.request.expiry) leg.request.optionType *
      leg.request.multiplier * leg.quantity

/-- A leg on the underlying of such a spot, volatility, rate and yield. -/
structure OnUnderlying (spot volatility rate yield : ℝ) (leg : PositionLeg ℝ) : Prop where
  spot_eq : leg.request.spot = spot
  volatility_eq : leg.request.volatility = volatility
  rate_eq : leg.request.riskFreeRate = rate
  yield_eq : leg.request.dividendYield = yield

theorem legGreeks_carry {spot volatility rate yield : ℝ} {leg : PositionLeg ℝ} (h : Analytic leg)
    (hunderlying : OnUnderlying spot volatility rate yield leg) :
    365 * (legGreeks leg).theta + volatility ^ 2 * spot ^ 2 / 2 * (legGreeks leg).gamma +
      (rate - yield) * spot * (legGreeks leg).delta = rate * legValue leg := by
  obtain ⟨rfl, rfl, rfl, rfl⟩ := hunderlying
  have hyear : (365.0 : ℝ) = 365 := by norm_num
  have hcarry := @Terms.Regular.theta_add_carry _ leg.request.sign h.live.regular
  rw [legValue, BlackScholesModel.unboundedValue_eq h.live.volatile]
  change 365 * (_ / 365.0 * leg.request.multiplier * leg.quantity) +
    _ * (_ * leg.request.multiplier * leg.quantity) +
    _ * (_ * leg.request.multiplier * leg.quantity) = _
  rw [hyear]
  change Terms.theta _ _ + leg.request.volatility ^ 2 * leg.request.spot ^ 2 / 2 * _ +
    (leg.request.riskFreeRate - leg.request.dividendYield) * leg.request.spot * _ =
      leg.request.riskFreeRate * _ at hcarry
  linear_combination leg.request.multiplier * leg.quantity * hcarry

/-- A call bought and a put sold on the same terms have the Greeks of a forward: those in which the
volatility or the curvature has a part are zero. -/
theorem synthetic_forward (price : PricingModelName → ContractRequest ℝ → Except Exc ℝ)
    (request : ContractRequest ℝ) (quantity : ℝ) (h : Live request)
    (hstyle : request.exerciseStyle = .european) :
    let t := yearFraction request.valuationDate request.expiry
    let size := request.multiplier * quantity
    let dividends := Real.exp (-request.dividendYield * t)
    let interest := Real.exp (-request.riskFreeRate * t)
    ∃ portfolio, (normalEngine price).calculatePortfolio
        [{ request := { request with optionType := .call }, quantity },
          { request := { request with optionType := .put }, quantity := -quantity }] =
            .ok portfolio ∧
      portfolio.total.delta = dividends * size ∧
      portfolio.total.rho = request.strike * t * interest * size ∧
      365 * portfolio.total.theta =
        (request.dividendYield * request.spot * dividends -
          request.riskFreeRate * request.strike * interest) * size ∧
      portfolio.total.charm = some (request.dividendYield * dividends * size) ∧
      portfolio.total.gamma = 0 ∧ portfolio.total.vega = 0 ∧
      portfolio.total.vanna = some 0 ∧ portfolio.total.vomma = some 0 ∧
      portfolio.total.color = some 0 ∧ portfolio.total.speed = some 0 ∧
      portfolio.total.zomma = some 0 ∧ portfolio.total.ultima = some 0 := by
  intro t size dividends interest
  have hyear : (365.0 : ℝ) = 365 := by norm_num
  have hlegs : ∀ right, Live { request with optionType := right } := fun right =>
    ⟨h.accepted, h.volatile, h.unexpired⟩
  refine ⟨_, calculatePortfolio_eq ?_, ?_⟩
  · rintro leg hleg
    simp only [List.mem_cons, List.not_mem_nil, or_false] at hleg
    rcases hleg with rfl | rfl
    · exact ⟨hlegs .call, hstyle, rfl⟩
    · exact ⟨hlegs .put, hstyle, rfl⟩
  · simp only [List.map_cons, List.map_nil, List.foldl_cons, List.foldl_nil, GreeksResult.add,
      GreeksResult.zero, legGreeks, GreeksResult.scale, BlackScholesGreeksModel.closedGreeks,
      ContractRequest.termsAt, PricingRequest.sign, Option.map_some, Option.map₂_some_some,
      Option.some.injEq, Terms.delta, Terms.theta, Terms.rho, Terms.charm, Terms.presentSpot,
      Terms.presentStrike, one_mul, neg_one_mul, distribution_neg, hyear, two_eq, size,
      dividends, interest]
    refine ⟨?_, ?_, ?_, ?_, ?_, ?_, ?_, ?_, ?_, ?_, ?_, ?_⟩ <;> ring

theorem synthetic_forward_atTheMoney :
    let t := yearFraction atTheMoney.valuationDate atTheMoney.expiry
    let size := atTheMoney.multiplier * 2
    let dividends := Real.exp (-atTheMoney.dividendYield * t)
    let interest := Real.exp (-atTheMoney.riskFreeRate * t)
    ∃ portfolio, (normalEngine fun _ _ => .ok 0).calculatePortfolio
        [{ request := { atTheMoney with optionType := .call }, quantity := 2 },
          { request := { atTheMoney with optionType := .put }, quantity := -2 }] =
            .ok portfolio ∧
      portfolio.total.delta = dividends * size ∧
      portfolio.total.rho = atTheMoney.strike * t * interest * size ∧
      365 * portfolio.total.theta =
        (atTheMoney.dividendYield * atTheMoney.spot * dividends -
          atTheMoney.riskFreeRate * atTheMoney.strike * interest) * size ∧
      portfolio.total.charm = some (atTheMoney.dividendYield * dividends * size) ∧
      portfolio.total.gamma = 0 ∧ portfolio.total.vega = 0 ∧
      portfolio.total.vanna = some 0 ∧ portfolio.total.vomma = some 0 ∧
      portfolio.total.color = some 0 ∧ portfolio.total.speed = some 0 ∧
      portfolio.total.zomma = some 0 ∧ portfolio.total.ultima = some 0 :=
  synthetic_forward (fun _ _ => .ok 0) atTheMoney 2 live_atTheMoney rfl

end GreeksEngine

end OptionResearch
