import Mathlib.Analysis.Calculus.Deriv.Inv
import Mathlib.Analysis.Calculus.Deriv.MeanValue
import Mathlib.Analysis.SpecialFunctions.ExpDeriv
import Mathlib.Analysis.SpecialFunctions.Log.Deriv
import Mathlib.Analysis.SpecialFunctions.Sqrt
import Mathlib.MeasureTheory.Integral.IntervalIntegral.FundThmCalculus

/-!
# European options on a lognormal price

The error function, the density and the distribution function of a standard normal variable, and
the value of one amount exchanged for another, in whose derivative the terms in the density cancel.
With them the value of a European option in closed form, and its derivatives up to the third order
in the spot, the volatility, the rate and the time that is left. `side` is 1 for a call and -1 for a
put.
-/

namespace OptionResearch.NormalDistribution

open Real

/-- The error function. -/
noncomputable def erf (x : ℝ) : ℝ := 2.0 / √π * ∫ s in (0 : ℝ)..x, exp (-s ^ 2)

noncomputable def density (x : ℝ) : ℝ := exp (-0.5 * x * x) / √(2.0 * π)

noncomputable def distribution (x : ℝ) : ℝ := 0.5 * (1 + erf (x / √2.0))

theorem two_eq : (2.0 : ℝ) = 2 := by norm_num

theorem hasDerivAt_erf (x : ℝ) : HasDerivAt erf (2.0 / √π * exp (-x ^ 2)) x := by
  have hcontinuous : Continuous fun s : ℝ => exp (-s ^ 2) := by fun_prop
  exact (intervalIntegral.integral_hasDerivAt_right (hcontinuous.intervalIntegrable _ _)
    (hcontinuous.stronglyMeasurableAtFilter _ _) hcontinuous.continuousAt).const_mul _

theorem erf_neg (x : ℝ) : erf (-x) = -erf x := by
  have hswap := @intervalIntegral.integral_comp_neg ℝ _ _ 0 x fun s : ℝ => exp (-s ^ 2)
  simp only [neg_sq, neg_zero] at hswap
  rw [erf, erf, hswap, intervalIntegral.integral_symm 0 (-x), two_eq]
  ring

theorem density_neg (x : ℝ) : density (-x) = density x := by
  rw [density, density, mul_neg, mul_neg, neg_mul, neg_neg]

theorem density_pos (x : ℝ) : 0 < density x :=
  div_pos (exp_pos _) (sqrt_pos.mpr (mul_pos (by norm_num) pi_pos))

theorem distribution_add_neg (x : ℝ) : distribution x + distribution (-x) = 1 := by
  rw [distribution, distribution, neg_div, erf_neg]
  norm_num
  ring

theorem distribution_neg (x : ℝ) : distribution (-x) = 1 - distribution x :=
  eq_sub_of_add_eq' (distribution_add_neg x)

theorem hasDerivAt_density (x : ℝ) : HasDerivAt density (-x * density x) x := by
  have hexponent : HasDerivAt (fun y : ℝ => -0.5 * y * y) (-x) x :=
    (((hasDerivAt_id' x).const_mul (-0.5)).mul (hasDerivAt_id' x)).congr_deriv (by norm_num; ring)
  refine (hexponent.exp.div_const _).congr_deriv ?_
  rw [density]
  ring

theorem hasDerivAt_distribution (x : ℝ) : HasDerivAt distribution (density x) x := by
  have hinner : HasDerivAt (fun y : ℝ => y / √2.0) (1 / √2.0) x :=
    (hasDerivAt_id' x).div_const _
  have htwo : √(2.0 : ℝ) ^ 2 = 2 := by
    rw [sq_sqrt (by norm_num)]
    norm_num
  have hsplit : √(2.0 * π) = √(2.0 : ℝ) * √π := sqrt_mul (by norm_num) π
  have hroot : √(2.0 : ℝ) ≠ 0 := (sqrt_pos.mpr (by norm_num)).ne'
  have hpi : √π ≠ 0 := (sqrt_pos.mpr pi_pos).ne'
  refine ((((hasDerivAt_erf _).comp x hinner).const_add 1).const_mul 0.5).congr_deriv ?_
  have hexponent : -(x / √2.0) ^ 2 = -0.5 * x * x := by
    rw [div_pow, htwo]
    norm_num
    ring
  rw [hexponent, density, hsplit]
  field_simp
  norm_num

theorem distribution_strictMono : StrictMono distribution := by
  refine strictMono_of_deriv_pos fun x => ?_
  rw [(hasDerivAt_distribution x).deriv]
  exact density_pos x

/-! ### One amount exchanged for another -/

/-- The value of getting `a` for `b`, or, where `side` is -1, `b` for `a`. -/
noncomputable def exchange (side a b d₁ d₂ : ℝ) : ℝ :=
  side * (a * distribution (side * d₁) - b * distribution (side * d₂))

section

variable {side : ℝ} {x : ℝ}

theorem density_side (hside : side = 1 ∨ side = -1) (x : ℝ) : density (side * x) = density x := by
  rcases hside with rfl | rfl
  · rw [one_mul]
  · rw [neg_one_mul, density_neg]

theorem hasDerivAt_distribution_side (hside : side = 1 ∨ side = -1) {d : ℝ → ℝ} {d' : ℝ}
    (hd : HasDerivAt d d' x) :
    HasDerivAt (fun y => distribution (side * d y)) (side * (density (d x) * d')) x := by
  refine ((hasDerivAt_distribution _).comp x (hd.const_mul side)).congr_deriv ?_
  rw [density_side hside]
  ring

/-- At these deviations the density weighs both amounts alike. -/
theorem density_balance {a b v : ℝ} (ha : 0 < a) (hb : 0 < b) (hv : v ≠ 0) :
    a * density (log (a / b) / v + v / 2) = b * density (log (a / b) / v + v / 2 - v) := by
  have hratio : a = b * exp (log (a / b)) := by
    rw [exp_log (div_pos ha hb), mul_div_cancel₀ a hb.ne']
  have hexponent : log (a / b) + -0.5 * (log (a / b) / v + v / 2) * (log (a / b) / v + v / 2) =
      -0.5 * (log (a / b) / v + v / 2 - v) * (log (a / b) / v + v / 2 - v) := by
    field_simp
    norm_num
    ring
  rw [density, density, ← hexponent, exp_add]
  nth_rewrite 1 [hratio]
  ring

theorem hasDerivAt_exchange (hside : side = 1 ∨ side = -1) {a b d₁ d₂ : ℝ → ℝ}
    {a' b' d₁' d₂' : ℝ} (ha : HasDerivAt a a' x) (hb : HasDerivAt b b' x)
    (hd₁ : HasDerivAt d₁ d₁' x) (hd₂ : HasDerivAt d₂ d₂' x)
    (hbalance : a x * density (d₁ x) = b x * density (d₂ x)) :
    HasDerivAt (fun y => exchange side (a y) (b y) (d₁ y) (d₂ y))
      (exchange side a' b' (d₁ x) (d₂ x) + a x * density (d₁ x) * (d₁' - d₂')) x := by
  have hsquare : side * side = 1 := by rcases hside with rfl | rfl <;> norm_num
  refine (((ha.mul (hasDerivAt_distribution_side hside hd₁)).sub
    (hb.mul (hasDerivAt_distribution_side hside hd₂))).const_mul side).congr_deriv ?_
  rw [exchange]
  linear_combination (a x * density (d₁ x) * d₁' - b x * density (d₂ x) * d₂') * hsquare +
    d₂' * hbalance

end

end OptionResearch.NormalDistribution

namespace OptionResearch.LognormalOptions

open Real NormalDistribution

structure Terms where
  spot : ℝ
  strike : ℝ
  rate : ℝ
  yield : ℝ
  volatility : ℝ
  time : ℝ

/-- Terms with a lognormal price. -/
structure Terms.Regular (o : Terms) : Prop where
  spot : 0 < o.spot
  strike : 0 < o.strike
  volatility : 0 < o.volatility
  time : 0 < o.time

namespace Terms

noncomputable section

variable (o : Terms) (side : ℝ)

/-- The standard deviation of the logarithm of the price. -/
def deviation : ℝ := o.volatility * √o.time

def d₁ : ℝ :=
  (log (o.spot / o.strike) + (o.rate - o.yield + 0.5 * o.volatility ^ 2) * o.time) / o.deviation

def d₂ : ℝ := o.d₁ - o.deviation

def presentSpot : ℝ := o.spot * exp (-o.yield * o.time)

def presentStrike : ℝ := o.strike * exp (-o.rate * o.time)

def value : ℝ := exchange side o.presentSpot o.presentStrike o.d₁ o.d₂

def delta : ℝ := side * exp (-o.yield * o.time) * distribution (side * o.d₁)

def gamma : ℝ := exp (-o.yield * o.time) * density o.d₁ / (o.spot * o.deviation)

def vega : ℝ := o.presentSpot * density o.d₁ * √o.time

def rho : ℝ := side * o.presentStrike * o.time * distribution (side * o.d₂)

/-- What the option loses a year. -/
def theta : ℝ :=
  -o.presentSpot * density o.d₁ * o.volatility / (2.0 * √o.time) -
    side * o.rate * o.presentStrike * distribution (side * o.d₂) +
    side * o.yield * o.presentSpot * distribution (side * o.d₁)

def vanna : ℝ := -exp (-o.yield * o.time) * density o.d₁ * o.d₂ / o.volatility

def vomma : ℝ := o.vega * o.d₁ * o.d₂ / o.volatility

/-- What the time that is left adds to `d₁`. -/
def drift : ℝ :=
  (2.0 * (o.rate - o.yield) * o.time - o.d₂ * o.deviation) / (2.0 * o.time * o.deviation)

/-- What delta loses a year. -/
def charm : ℝ :=
  side * o.yield * exp (-o.yield * o.time) * distribution (side * o.d₁) -
    exp (-o.yield * o.time) * density o.d₁ * o.drift

/-- What a year of time left adds to gamma. -/
def color : ℝ :=
  -exp (-o.yield * o.time) * density o.d₁ / (2.0 * o.spot * o.time * o.deviation) *
    (2.0 * o.yield * o.time + 1 +
      (2.0 * (o.rate - o.yield) * o.time - o.d₂ * o.deviation) * o.d₁ / o.deviation)

def speed : ℝ := -o.gamma / o.spot * (o.d₁ / o.deviation + 1)

def zomma : ℝ := o.gamma * (o.d₁ * o.d₂ - 1) / o.volatility

def ultima : ℝ :=
  -o.vega * (o.d₁ * o.d₂ * (1 - o.d₁ * o.d₂) + o.d₁ ^ 2 + o.d₂ ^ 2) / o.volatility ^ 2

end

variable {o : Terms} {side : ℝ}

theorem Regular.sqrt_time (h : o.Regular) : 0 < √o.time := sqrt_pos.mpr h.time

theorem Regular.deviation_pos (h : o.Regular) : 0 < o.deviation :=
  mul_pos h.volatility h.sqrt_time

theorem Regular.sq_sqrt_time (h : o.Regular) : √o.time ^ 2 = o.time := sq_sqrt h.time.le

/-! ### The deviations -/

theorem Regular.d₁_eq (h : o.Regular) :
    o.d₁ = log (o.presentSpot / o.presentStrike) / o.deviation + o.deviation / 2 := by
  have hv := h.deviation_pos.ne'
  have hratio : o.presentSpot / o.presentStrike =
      o.spot / o.strike * exp ((o.rate - o.yield) * o.time) := by
    rw [presentSpot, presentStrike, mul_div_mul_comm, ← exp_sub]
    ring_nf
  have hsquare : o.deviation ^ 2 = o.volatility ^ 2 * o.time := by
    rw [deviation, mul_pow, h.sq_sqrt_time]
  rw [hratio, log_mul (div_pos h.spot h.strike).ne' (exp_pos _).ne', log_exp, d₁]
  field_simp
  rw [hsquare]
  norm_num
  ring

theorem Regular.balance (h : o.Regular) :
    o.presentSpot * density o.d₁ = o.presentStrike * density o.d₂ := by
  rw [d₂, h.d₁_eq]
  exact density_balance (mul_pos h.spot (exp_pos _)) (mul_pos h.strike (exp_pos _))
    h.deviation_pos.ne'

theorem Regular.hasDerivAt_d₁_spot (h : o.Regular) :
    HasDerivAt (fun s => d₁ { o with spot := s }) (1 / (o.spot * o.deviation)) o.spot := by
  have hspot := h.spot.ne'
  have hstrike := h.strike.ne'
  have hratio : HasDerivAt (fun s => s / o.strike) (1 / o.strike) o.spot :=
    (hasDerivAt_id' o.spot).div_const _
  dsimp only [d₁, deviation]
  refine (((hratio.log (div_pos h.spot h.strike).ne').add_const _).div_const _).congr_deriv ?_
  field_simp

theorem hasDerivAt_d₁_rate (o : Terms) :
    HasDerivAt (fun r => d₁ { o with rate := r }) (o.time / o.deviation) o.rate := by
  have hcarry : HasDerivAt (fun r => (r - o.yield + 0.5 * o.volatility ^ 2) * o.time) o.time
      o.rate :=
    ((((hasDerivAt_id' o.rate).sub_const _).add_const _).mul_const _).congr_deriv (one_mul _)
  dsimp only [d₁, deviation]
  exact (hcarry.const_add _).div_const _

theorem hasDerivAt_deviation_volatility (o : Terms) :
    HasDerivAt (fun v => deviation { o with volatility := v }) (√o.time) o.volatility := by
  dsimp only [deviation]
  exact ((hasDerivAt_id' o.volatility).mul_const _).congr_deriv (one_mul _)

theorem Regular.hasDerivAt_deviation_time (h : o.Regular) :
    HasDerivAt (fun t => deviation { o with time := t }) (o.volatility / (2 * √o.time)) o.time := by
  dsimp only [deviation]
  exact (((hasDerivAt_id' o.time).sqrt h.time.ne').const_mul _).congr_deriv (by ring)

theorem Regular.hasDerivAt_d₁_volatility (h : o.Regular) :
    HasDerivAt (fun v => d₁ { o with volatility := v }) (-o.d₂ / o.volatility) o.volatility := by
  have hv := h.volatility.ne'
  have hroot := h.sqrt_time.ne'
  have hsquare := h.sq_sqrt_time
  have hcarry : HasDerivAt (fun v => (o.rate - o.yield + 0.5 * v ^ 2) * o.time)
      (o.volatility * o.time) o.volatility :=
    (((((hasDerivAt_id' o.volatility).fun_pow 2).const_mul 0.5).const_add _).mul_const _).congr_deriv
      (by ring)
  have hdeviation := hasDerivAt_deviation_volatility o
  dsimp only [deviation] at hdeviation
  dsimp only [d₂, d₁, deviation]
  refine ((hcarry.const_add _).fun_div hdeviation h.deviation_pos.ne').congr_deriv ?_
  field_simp
  rw [hsquare]
  ring

theorem Regular.hasDerivAt_d₁_time (h : o.Regular) :
    HasDerivAt (fun t => d₁ { o with time := t }) o.drift o.time := by
  have hv := h.volatility.ne'
  have hroot := h.sqrt_time.ne'
  have htime := h.time.ne'
  have hsquare := h.sq_sqrt_time
  have hcarry : HasDerivAt (fun t => (o.rate - o.yield + 0.5 * o.volatility ^ 2) * t)
      (o.rate - o.yield + 0.5 * o.volatility ^ 2) o.time :=
    ((hasDerivAt_id' o.time).const_mul _).congr_deriv (mul_one _)
  have hdeviation := h.hasDerivAt_deviation_time
  dsimp only [deviation] at hdeviation
  rw [drift, two_eq]
  dsimp only [d₂, d₁, deviation]
  refine ((hcarry.const_add _).fun_div hdeviation h.deviation_pos.ne').congr_deriv ?_
  field_simp
  rw [hsquare]
  field_simp
  norm_num
  ring

theorem Regular.hasDerivAt_d₂_spot (h : o.Regular) :
    HasDerivAt (fun s => d₂ { o with spot := s }) (1 / (o.spot * o.deviation)) o.spot :=
  h.hasDerivAt_d₁_spot.sub_const o.deviation

theorem hasDerivAt_d₂_rate (o : Terms) :
    HasDerivAt (fun r => d₂ { o with rate := r }) (o.time / o.deviation) o.rate :=
  (hasDerivAt_d₁_rate o).sub_const o.deviation

theorem Regular.hasDerivAt_d₂_volatility (h : o.Regular) :
    HasDerivAt (fun v => d₂ { o with volatility := v }) (-o.d₁ / o.volatility) o.volatility := by
  have hv := h.volatility.ne'
  refine (h.hasDerivAt_d₁_volatility.fun_sub (hasDerivAt_deviation_volatility o)).congr_deriv ?_
  rw [d₂, deviation]
  field_simp
  ring

theorem Regular.hasDerivAt_d₂_time (h : o.Regular) :
    HasDerivAt (fun t => d₂ { o with time := t }) (o.drift - o.volatility / (2 * √o.time)) o.time :=
  h.hasDerivAt_d₁_time.fun_sub h.hasDerivAt_deviation_time

/-! ### The derivatives of the value -/

theorem Regular.hasDerivAt_value_spot (h : o.Regular) (hside : side = 1 ∨ side = -1) :
    HasDerivAt (fun s => value { o with spot := s } side) (o.delta side) o.spot := by
  have hspot : HasDerivAt (fun s => presentSpot { o with spot := s }) (exp (-o.yield * o.time))
      o.spot := by
    dsimp only [presentSpot]
    exact ((hasDerivAt_id' o.spot).mul_const _).congr_deriv (one_mul _)
  refine (hasDerivAt_exchange hside hspot (hasDerivAt_const o.spot o.presentStrike)
    h.hasDerivAt_d₁_spot h.hasDerivAt_d₂_spot h.balance).congr_deriv ?_
  rw [exchange, delta]
  ring

theorem Regular.hasDerivAt_value_volatility (h : o.Regular) (hside : side = 1 ∨ side = -1) :
    HasDerivAt (fun v => value { o with volatility := v } side) o.vega o.volatility := by
  have hv := h.volatility.ne'
  refine (hasDerivAt_exchange hside (hasDerivAt_const o.volatility o.presentSpot)
    (hasDerivAt_const o.volatility o.presentStrike) h.hasDerivAt_d₁_volatility
    h.hasDerivAt_d₂_volatility h.balance).congr_deriv ?_
  have hroot : -o.d₂ / o.volatility - -o.d₁ / o.volatility = √o.time := by
    rw [d₂, deviation]
    field_simp
    ring
  rw [exchange, vega, hroot]
  ring

theorem Regular.hasDerivAt_value_rate (h : o.Regular) (hside : side = 1 ∨ side = -1) :
    HasDerivAt (fun r => value { o with rate := r } side) (o.rho side) o.rate := by
  have hstrike : HasDerivAt (fun r => presentStrike { o with rate := r })
      (-o.time * o.presentStrike) o.rate :=
    ((((hasDerivAt_id' o.rate).fun_neg.mul_const o.time).exp).const_mul _).congr_deriv
      (by rw [presentStrike]; ring)
  refine (hasDerivAt_exchange hside (hasDerivAt_const o.rate o.presentSpot) hstrike
    (hasDerivAt_d₁_rate o) (hasDerivAt_d₂_rate o) h.balance).congr_deriv ?_
  rw [exchange, rho]
  ring

theorem hasDerivAt_presentSpot_time (o : Terms) :
    HasDerivAt (fun t => presentSpot { o with time := t }) (-o.yield * o.presentSpot) o.time :=
  ((((hasDerivAt_id' o.time).const_mul (-o.yield)).exp).const_mul _).congr_deriv
    (by rw [presentSpot]; ring)

theorem hasDerivAt_presentStrike_time (o : Terms) :
    HasDerivAt (fun t => presentStrike { o with time := t }) (-o.rate * o.presentStrike) o.time :=
  ((((hasDerivAt_id' o.time).const_mul (-o.rate)).exp).const_mul _).congr_deriv
    (by rw [presentStrike]; ring)

/-- As its end comes nearer an option loses its theta. -/
theorem Regular.hasDerivAt_value_time (h : o.Regular) (hside : side = 1 ∨ side = -1) :
    HasDerivAt (fun t => value { o with time := t } side) (-o.theta side) o.time := by
  refine (hasDerivAt_exchange hside (hasDerivAt_presentSpot_time o)
    (hasDerivAt_presentStrike_time o) h.hasDerivAt_d₁_time h.hasDerivAt_d₂_time
    h.balance).congr_deriv ?_
  rw [exchange, theta, two_eq]
  ring

/-- The value solves the equation of Black and Scholes. -/
theorem Regular.theta_add_carry (h : o.Regular) :
    o.theta side + o.volatility ^ 2 * o.spot ^ 2 / 2 * o.gamma +
      (o.rate - o.yield) * o.spot * o.delta side = o.rate * o.value side := by
  have hspot := h.spot.ne'
  have hv := h.volatility.ne'
  have hroot := h.sqrt_time.ne'
  rw [theta, two_eq, gamma, delta, value, exchange, deviation, presentSpot]
  field_simp
  ring

/-! ### The derivatives of delta, vega, gamma and vomma -/

theorem hasDerivAt_density_d₁ {d : ℝ → ℝ} {d' x : ℝ} (hd : HasDerivAt d d' x) :
    HasDerivAt (fun y => density (d y)) (-d x * density (d x) * d') x :=
  (hasDerivAt_density _).comp x hd

theorem Regular.hasDerivAt_delta_spot (h : o.Regular) (hside : side = 1 ∨ side = -1) :
    HasDerivAt (fun s => delta { o with spot := s } side) o.gamma o.spot := by
  have hsquare : side * side = 1 := by rcases hside with rfl | rfl <;> norm_num
  refine ((hasDerivAt_distribution_side hside h.hasDerivAt_d₁_spot).const_mul
    (side * exp (-o.yield * o.time))).congr_deriv ?_
  rw [gamma]
  linear_combination exp (-o.yield * o.time) * density o.d₁ * (1 / (o.spot * o.deviation)) * hsquare

theorem Regular.hasDerivAt_delta_volatility (h : o.Regular) (hside : side = 1 ∨ side = -1) :
    HasDerivAt (fun v => delta { o with volatility := v } side) o.vanna o.volatility := by
  have hsquare : side * side = 1 := by rcases hside with rfl | rfl <;> norm_num
  refine ((hasDerivAt_distribution_side hside h.hasDerivAt_d₁_volatility).const_mul
    (side * exp (-o.yield * o.time))).congr_deriv ?_
  rw [vanna]
  linear_combination exp (-o.yield * o.time) * density o.d₁ * (-o.d₂ / o.volatility) * hsquare

theorem Regular.hasDerivAt_delta_time (h : o.Regular) (hside : side = 1 ∨ side = -1) :
    HasDerivAt (fun t => delta { o with time := t } side) (-o.charm side) o.time := by
  have hsquare : side * side = 1 := by rcases hside with rfl | rfl <;> norm_num
  have hdiscount : HasDerivAt (fun t => side * exp (-o.yield * t))
      (-side * o.yield * exp (-o.yield * o.time)) o.time :=
    ((((hasDerivAt_id' o.time).const_mul (-o.yield)).exp).const_mul side).congr_deriv (by ring)
  refine (hdiscount.mul
    (hasDerivAt_distribution_side hside h.hasDerivAt_d₁_time)).congr_deriv ?_
  rw [charm]
  linear_combination exp (-o.yield * o.time) * density o.d₁ * o.drift * hsquare

theorem Regular.hasDerivAt_vega_volatility (h : o.Regular) :
    HasDerivAt (fun v => vega { o with volatility := v }) o.vomma o.volatility := by
  refine (((hasDerivAt_density_d₁ h.hasDerivAt_d₁_volatility).const_mul
    o.presentSpot).mul_const √o.time).congr_deriv ?_
  rw [vomma, vega]
  ring

theorem Regular.hasDerivAt_gamma_spot (h : o.Regular) :
    HasDerivAt (fun s => gamma { o with spot := s }) o.speed o.spot := by
  have hspot := h.spot.ne'
  have hdeviation := h.deviation_pos.ne'
  have hscale : HasDerivAt (fun s => s * o.deviation) o.deviation o.spot :=
    ((hasDerivAt_id' o.spot).mul_const _).congr_deriv (one_mul _)
  refine (((hasDerivAt_density_d₁ h.hasDerivAt_d₁_spot).const_mul
    (exp (-o.yield * o.time))).fun_div hscale (mul_ne_zero hspot hdeviation)).congr_deriv ?_
  rw [speed, gamma]
  field_simp
  ring

theorem Regular.hasDerivAt_gamma_volatility (h : o.Regular) :
    HasDerivAt (fun v => gamma { o with volatility := v }) o.zomma o.volatility := by
  have hspot := h.spot.ne'
  have hv := h.volatility.ne'
  have hroot := h.sqrt_time.ne'
  refine (((hasDerivAt_density_d₁ h.hasDerivAt_d₁_volatility).const_mul
    (exp (-o.yield * o.time))).fun_div ((hasDerivAt_deviation_volatility o).const_mul o.spot)
    (mul_ne_zero hspot h.deviation_pos.ne')).congr_deriv ?_
  rw [zomma, gamma]
  dsimp only [deviation]
  field_simp

theorem Regular.hasDerivAt_gamma_time (h : o.Regular) :
    HasDerivAt (fun t => gamma { o with time := t }) o.color o.time := by
  have hspot := h.spot.ne'
  have hv := h.volatility.ne'
  have hroot := h.sqrt_time.ne'
  have htime := h.time.ne'
  have hsquare := h.sq_sqrt_time
  have hdiscount : HasDerivAt (fun t => exp (-o.yield * t))
      (-o.yield * exp (-o.yield * o.time)) o.time :=
    (((hasDerivAt_id' o.time).const_mul (-o.yield)).exp).congr_deriv (by ring)
  refine ((hdiscount.fun_mul (hasDerivAt_density_d₁ h.hasDerivAt_d₁_time)).fun_div
    (h.hasDerivAt_deviation_time.const_mul o.spot)
    (mul_ne_zero hspot h.deviation_pos.ne')).congr_deriv ?_
  rw [color, drift, two_eq]
  dsimp only [deviation]
  field_simp
  linear_combination density o.d₁ * o.volatility * hsquare

theorem Regular.hasDerivAt_vomma_volatility (h : o.Regular) :
    HasDerivAt (fun v => vomma { o with volatility := v }) o.ultima o.volatility := by
  have hv := h.volatility.ne'
  refine (((h.hasDerivAt_vega_volatility.fun_mul h.hasDerivAt_d₁_volatility).fun_mul
    h.hasDerivAt_d₂_volatility).fun_div (hasDerivAt_id' o.volatility) hv).congr_deriv ?_
  rw [ultima, vomma]
  field_simp
  ring

end Terms

end OptionResearch.LognormalOptions
