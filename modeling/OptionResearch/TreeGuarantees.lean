import OptionResearch.BinomialTree
import Mathlib.Algebra.BigOperators.Group.List.Basic
import Mathlib.Analysis.Complex.Exponential
import Mathlib.Analysis.Real.Sqrt
import Mathlib.Tactic.Linarith
import Mathlib.Tactic.LinearCombination

/-!
# What a binomial tree guarantees

Order and sensitivity of the values of `_crr_tree_value`, and a call without dividends that no node
exercises early. Both go through the tree by what one node keeps: an order between the values of
two trees, or that a node is worth spot minus strike at least.
-/

namespace OptionResearch

open OptionPayoff RecombiningTree

variable {K : Type} [Field K] [LinearOrder K]

/-- The factors that the code computes for one period of a tree of so many steps. -/
structure Computes (math : PricingMath K) (request : PricingRequest K) (steps : Int)
    (up growth discount : K) : Prop where
  steps_pos : 1 ≤ steps
  volatile : request.volatility ≠ 0
  factors : ∃ root,
    math.sqrt (yearFraction request.valuationDate request.expiry / (steps : K)) = .ok root ∧
    math.exp (request.volatility * root) = up ∧
    math.exp ((request.riskFreeRate - request.dividendYield) *
      (yearFraction request.valuationDate request.expiry / (steps : K))) = growth ∧
    math.exp (-request.riskFreeRate *
      (yearFraction request.valuationDate request.expiry / (steps : K))) = discount

/-- The lattice of such factors. -/
def Lattice.ofFactors (up growth discount : K) : Lattice K where
  up := up
  down := 1 / up
  prob := min (max ((growth - 1 / up) / (up - 1 / up)) 0) 1
  discount := discount

variable [IsStrictOrderedRing K] {up growth discount : K}

theorem one_div_lt_one_of (hup : 1 < up) : 1 / up < 1 :=
  (div_lt_one (lt_trans one_pos hup)).mpr hup

/-- The factors make up a lattice. -/
theorem exists_latticeOf {math : PricingMath K} {request : PricingRequest K} {steps : Int}
    (h : Computes math request steps up growth discount) (hup : 1 < up) :
    ∃ root,
      math.sqrt (yearFraction request.valuationDate request.expiry / (steps : K)) = .ok root ∧
      latticeOf math request (yearFraction request.valuationDate request.expiry / (steps : K))
        root = .ok (Lattice.ofFactors up growth discount) := by
  obtain ⟨_, _, root, hroot, rfl, rfl, rfl⟩ := h
  refine ⟨root, hroot, ?_⟩
  have hspread : math.exp (request.volatility * root) -
      1 / math.exp (request.volatility * root) ≠ 0 :=
    (sub_pos.mpr (lt_trans (one_div_lt_one_of hup) hup)).ne'
  rw [latticeOf, divide_eq_ok (lt_trans one_pos hup).ne']
  dsimp only [bind, Except.bind]
  rw [divide_eq_ok hspread]
  rfl

/-- Where the factors allow a tree, the code lays one out and returns the value of its root. -/
theorem crrTreeValue_eq {math : PricingMath K} {request : PricingRequest K}
    {stepsOverride : Option Int}
    (h : Computes math request (stepsOverride.getD request.treeSteps) up growth discount)
    (hup : 1 < up) (adjustedSpot : K) :
    crrTreeValue math request adjustedSpot stepsOverride =
      .ok ((Lattice.ofFactors up growth discount).rootValue request adjustedSpot
          (stepsOverride.getD request.treeSteps).toNat,
        (Lattice.ofFactors up growth discount).earlyNodes request adjustedSpot
          (stepsOverride.getD request.treeSteps).toNat
          (stepsOverride.getD request.treeSteps).toNat) := by
  obtain ⟨root, hroot, hlattice⟩ := exists_latticeOf h hup
  have hsteps := h.steps_pos
  have hne : ((stepsOverride.getD request.treeSteps : Int) : K) ≠ 0 :=
    Int.cast_ne_zero.mpr (by omega)
  have hcast : (((stepsOverride.getD request.treeSteps).toNat : ℕ) : Int) =
      stepsOverride.getD request.treeSteps := Int.toNat_of_nonneg (by omega)
  rw [crrTreeValue, divide_eq_ok hne]
  dsimp only [bind, Except.bind]
  rw [hroot]
  dsimp only
  rw [if_neg h.volatile, hlattice, ← Lattice.treeValue_eq, hcast]

namespace Lattice

variable {lattice : Lattice K} {request other : PricingRequest K} {spot otherSpot : K}
  {steps : ℕ}

theorem prob_ofFactors :
    0 ≤ (ofFactors up growth discount).prob ∧ (ofFactors up growth discount).prob ≤ 1 :=
  ⟨le_min (le_max_right _ _) zero_le_one, min_le_right _ _⟩

/-! ### Order -/

theorem continuation_mono (hprob : 0 ≤ lattice.prob ∧ lattice.prob ≤ 1)
    (hdiscount : 0 ≤ lattice.discount) {low high low' high' : K} (hlow : low ≤ low')
    (hhigh : high ≤ high') : lattice.continuation low high ≤ lattice.continuation low' high' := by
  have hweight : 0 ≤ 1 - lattice.prob := sub_nonneg.mpr hprob.2
  refine mul_le_mul_of_nonneg_left ?_ hdiscount
  exact add_le_add (mul_le_mul_of_nonneg_left hhigh hprob.1)
    (mul_le_mul_of_nonneg_left hlow hweight)

/-- A tree whose nodes are worth more at once is worth more, and one that may be exercised early is
worth more than one that may not. -/
theorem rootValue_mono (hprob : 0 ≤ lattice.prob ∧ lattice.prob ≤ 1)
    (hdiscount : 0 ≤ lattice.discount)
    (hstyle : request.exerciseStyle = .american → other.exerciseStyle = .american)
    (himmediate : ∀ step node, request.immediate (lattice.nodeSpot spot step node) ≤
      other.immediate (lattice.nodeSpot otherSpot step node)) :
    lattice.rootValue request spot steps ≤ lattice.rootValue other otherSpot steps := by
  refine @nodeValue_related K _ _ K _ _ (fun _ _ a b => a ≤ b) steps
    (fun node _ => himmediate steps node) ?_ steps 0 0 (Nat.zero_add steps) le_rfl
  intro step _ node _ low high low' high' hlow hhigh
  have hcontinuation := continuation_mono hprob hdiscount hlow hhigh
  rw [rule, rule, Lattice.node, Lattice.node]
  cases hmine : request.exerciseStyle with
  | european =>
      cases other.exerciseStyle with
      | european => exact hcontinuation
      | american => exact le_max_of_le_left hcontinuation
  | american =>
      rw [hstyle hmine]
      exact max_le_max hcontinuation (himmediate step node)

omit [LinearOrder K] [IsStrictOrderedRing K] in
theorem continuation_zero (lattice : Lattice K) : lattice.continuation 0 0 = 0 := by
  rw [continuation, mul_zero, mul_zero, add_zero, mul_zero]

theorem rootValue_nonneg (hprob : 0 ≤ lattice.prob ∧ lattice.prob ≤ 1)
    (hdiscount : 0 ≤ lattice.discount) : 0 ≤ lattice.rootValue request spot steps := by
  refine @nodeValue_invariant K _ _ (fun _ _ value => 0 ≤ value) steps
    (fun node _ => le_max_right _ _) ?_ steps 0 0 (Nat.zero_add steps) le_rfl
  intro step _ node _ low high hlow hhigh
  have hcontinuation := continuation_mono hprob hdiscount hlow hhigh
  rw [continuation_zero] at hcontinuation
  rw [rule, Lattice.node]
  cases request.exerciseStyle with
  | european => exact hcontinuation
  | american => exact le_max_of_le_left hcontinuation

omit [LinearOrder K] [IsStrictOrderedRing K] in
theorem nodeSpot_zero : lattice.nodeSpot spot 0 0 = spot := by
  rw [nodeSpot, pow_zero, mul_one, pow_zero, mul_one]

omit [IsStrictOrderedRing K] in
theorem immediate_le_rootValue (hstyle : request.exerciseStyle = .american) :
    request.immediate spot ≤ lattice.rootValue request spot steps := by
  cases steps with
  | zero => exact le_of_eq (congrArg request.immediate nodeSpot_zero.symm)
  | succ steps =>
      rw [rootValue, nodeValue, rule, Lattice.node, hstyle]
      refine le_max_of_le_right (le_of_eq ?_)
      exact congrArg request.immediate nodeSpot_zero.symm

theorem nodeSpot_mono (hup : 0 < lattice.up) (hdown : 0 < lattice.down) (h : spot ≤ otherSpot)
    (step node : ℕ) :
    lattice.nodeSpot spot step node ≤ lattice.nodeSpot otherSpot step node :=
  mul_le_mul_of_nonneg_right (mul_le_mul_of_nonneg_right h (pow_pos hup node).le)
    (pow_pos hdown _).le

end Lattice

omit [IsStrictOrderedRing K] in
theorem immediate_eq (request : PricingRequest K) (spot : K) :
    request.immediate spot = intrinsicValue spot request.strike request.optionType := by
  rw [PricingRequest.immediate, PricingRequest.sign, intrinsicValue.eq_def]
  cases request.optionType with
  | call => rw [one_mul]
  | put => rw [neg_one_mul, neg_sub]

/-- Exercising a call gains with the spot and loses with the strike. -/
theorem intrinsicValue_call_le {spot otherSpot strike otherStrike : K} (hspot : spot ≤ otherSpot)
    (hstrike : otherStrike ≤ strike) :
    intrinsicValue spot strike .call ≤ intrinsicValue otherSpot otherStrike .call :=
  max_le_max (sub_le_sub hspot hstrike) le_rfl

theorem intrinsicValue_put_le {spot otherSpot strike otherStrike : K} (hspot : otherSpot ≤ spot)
    (hstrike : strike ≤ otherStrike) :
    intrinsicValue spot strike .put ≤ intrinsicValue otherSpot otherStrike .put :=
  max_le_max (sub_le_sub hstrike hspot) le_rfl

/-- What the values of a model say as functions of the style, the strike and the spot. -/
structure OrderedValues (value : OptionType → ExerciseStyle → K → K → K) : Prop where
  european_le : ∀ right strike spot,
    value right .european strike spot ≤ value right .american strike spot
  intrinsic_le : ∀ right strike spot,
    intrinsicValue spot strike right ≤ value right .american strike spot
  nonneg : ∀ right style strike spot, 0 ≤ value right style strike spot
  call_spot : ∀ style strike spot spot', spot ≤ spot' →
    value .call style strike spot ≤ value .call style strike spot'
  call_strike : ∀ style strike strike' spot, strike ≤ strike' →
    value .call style strike' spot ≤ value .call style strike spot
  put_spot : ∀ style strike spot spot', spot ≤ spot' →
    value .put style strike spot' ≤ value .put style strike spot
  put_strike : ∀ style strike strike' spot, strike ≤ strike' →
    value .put style strike spot ≤ value .put style strike' spot

theorem orderedValues_rootValue (growth : K) (request : PricingRequest K) (steps : ℕ)
    (hup : 1 < up) (hdiscount : 0 < discount) :
    OrderedValues fun right style strike spot =>
      (Lattice.ofFactors up growth discount).rootValue
        { request with optionType := right, exerciseStyle := style, strike := strike } spot
        steps := by
  have hprob : 0 ≤ (Lattice.ofFactors up growth discount).prob ∧
      (Lattice.ofFactors up growth discount).prob ≤ 1 := Lattice.prob_ofFactors
  have hnode : ∀ spot spot' : K, spot ≤ spot' → ∀ step node,
      (Lattice.ofFactors up growth discount).nodeSpot spot step node ≤
        (Lattice.ofFactors up growth discount).nodeSpot spot' step node := fun _ _ h =>
    Lattice.nodeSpot_mono (lt_trans one_pos hup) (one_div_pos.mpr (lt_trans one_pos hup)) h
  constructor
  case european_le =>
    exact fun right strike spot => Lattice.rootValue_mono hprob hdiscount.le (fun h => nomatch h)
      fun _ _ => le_rfl
  case intrinsic_le =>
    intro right strike spot
    rw [← immediate_eq { request with optionType := right, exerciseStyle := .american, strike }]
    exact Lattice.immediate_le_rootValue rfl
  case nonneg => exact fun _ _ _ _ => Lattice.rootValue_nonneg hprob hdiscount.le
  case call_spot =>
    intro style strike spot spot' h
    refine Lattice.rootValue_mono hprob hdiscount.le id fun step node => ?_
    rw [immediate_eq, immediate_eq]
    exact intrinsicValue_call_le (hnode _ _ h step node) le_rfl
  case call_strike =>
    intro style strike strike' spot h
    refine Lattice.rootValue_mono hprob hdiscount.le id fun step node => ?_
    rw [immediate_eq, immediate_eq]
    exact intrinsicValue_call_le le_rfl h
  case put_spot =>
    intro style strike spot spot' h
    refine Lattice.rootValue_mono hprob hdiscount.le id fun step node => ?_
    rw [immediate_eq, immediate_eq]
    exact intrinsicValue_put_le (hnode _ _ h step node) le_rfl
  case put_strike =>
    intro style strike strike' spot h
    refine Lattice.rootValue_mono hprob hdiscount.le id fun step node => ?_
    rw [immediate_eq, immediate_eq]
    exact intrinsicValue_put_le le_rfl h

/-- American values are at least European ones, at least what exercising at once gives and never
negative, the probability of a node is one, and calls and puts move with spot and strike as they
should. -/
theorem crrTreeValue_order {math : PricingMath K} {request : PricingRequest K}
    {stepsOverride : Option Int}
    (h : Computes math request (stepsOverride.getD request.treeSteps) up growth discount)
    (hup : 1 < up) (hdiscount : 0 < discount) :
    (∃ root lattice,
      math.sqrt (yearFraction request.valuationDate request.expiry /
        ((stepsOverride.getD request.treeSteps : Int) : K)) = .ok root ∧
      latticeOf math request (yearFraction request.valuationDate request.expiry /
        ((stepsOverride.getD request.treeSteps : Int) : K)) root = .ok lattice ∧
      0 ≤ lattice.prob ∧ lattice.prob ≤ 1) ∧
    ∃ value : OptionType → ExerciseStyle → K → K → K, OrderedValues value ∧
      ∀ right style strike spot, ∃ earlyExerciseNodes,
        crrTreeValue math
            { request with optionType := right, exerciseStyle := style, strike := strike } spot
            stepsOverride = .ok (value right style strike spot, earlyExerciseNodes) := by
  constructor
  · obtain ⟨root, hroot, hlattice⟩ := exists_latticeOf h hup
    exact ⟨root, _, hroot, hlattice, Lattice.prob_ofFactors⟩
  · refine ⟨_, orderedValues_rootValue growth request (stepsOverride.getD request.treeSteps).toNat
      hup hdiscount, fun right style strike spot => ?_⟩
    have hsame : Computes math
        { request with optionType := right, exerciseStyle := style, strike := strike }
        (stepsOverride.getD request.treeSteps) up growth discount := ⟨h.1, h.2, h.3⟩
    exact ⟨_, crrTreeValue_eq hsame hup spot⟩

/-- A price is its intrinsic and its extrinsic part. -/
theorem CoxRossRubinsteinModel.price_decomposes {model : CoxRossRubinsteinModel}
    {math : PricingMath K} {request : PricingRequest K} {result : PricingResult K}
    (h : model.price math request = .ok result) :
    result.optionValue = result.intrinsicValue + result.extrinsicValue := by
  rw [price] at h
  split_ifs at h with hexpiry
  · cases h
    exact (add_zero _).symm
  · obtain ⟨⟨value, early⟩, -, h⟩ := except_bind_eq_ok.mp h
    obtain ⟨⟨altValue, _⟩, -, h⟩ := except_bind_eq_ok.mp h
    cases h
    dsimp only
    rw [max_eq_left (sub_nonneg.mpr (le_max_right _ _)), ← add_mul, add_sub_cancel]

section Yearly

/-- The `math` module on the reals. -/
noncomputable def realMath : PricingMath ℝ where
  exp := Real.exp
  sqrt x :=
    if x < 0 then .error ⟨.valueError, "expected a nonnegative input"⟩ else .ok (Real.sqrt x)

/-- A call on a stock at full volatility, without rates, a year from its expiry. -/
noncomputable def yearlyCall : PricingRequest ℝ where
  spot := 100
  strike := 95
  expiry := ⟨367, by decide, by decide⟩
  volatility := 1
  riskFreeRate := 0
  dividendYield := 0
  optionType := .call
  exerciseStyle := .american
  multiplier := 100
  valuationDate := ⟨2, by decide, by decide⟩
  treeSteps := 1

theorem computes_yearlyCall : Computes realMath yearlyCall (Option.getD none yearlyCall.treeSteps)
    (Real.exp 1) 1 1 := by
  have hyear : yearFraction yearlyCall.valuationDate yearlyCall.expiry /
      ((Option.getD none yearlyCall.treeSteps : Int) : ℝ) = 1 := by
    change ((367 - 2 : Int) : ℝ) / 365 / ((1 : Int) : ℝ) = 1
    norm_num
  refine ⟨le_rfl, one_ne_zero, 1, ?_, ?_, ?_, ?_⟩
  · rw [hyear]
    change (if (1 : ℝ) < 0 then _ else _) = _
    rw [if_neg (not_lt.mpr zero_le_one), Real.sqrt_one]
  · exact congrArg Real.exp (mul_one 1)
  · rw [hyear]
    change Real.exp ((0 - 0) * 1) = 1
    rw [sub_zero, zero_mul, Real.exp_zero]
  · rw [hyear]
    change Real.exp (-0 * 1) = 1
    rw [neg_zero, zero_mul, Real.exp_zero]

theorem one_lt_exp_one : 1 < Real.exp 1 := Real.one_lt_exp_iff.mpr one_pos

/-- The values of the yearly call and of its variants. -/
theorem crrTreeValue_order_yearly :
    (∃ root lattice,
      realMath.sqrt (yearFraction yearlyCall.valuationDate yearlyCall.expiry /
        ((Option.getD none yearlyCall.treeSteps : Int) : ℝ)) = .ok root ∧
      latticeOf realMath yearlyCall (yearFraction yearlyCall.valuationDate yearlyCall.expiry /
        ((Option.getD none yearlyCall.treeSteps : Int) : ℝ)) root = .ok lattice ∧
      0 ≤ lattice.prob ∧ lattice.prob ≤ 1) ∧
    ∃ value : OptionType → ExerciseStyle → ℝ → ℝ → ℝ, OrderedValues value ∧
      ∀ right style strike spot, ∃ earlyExerciseNodes,
        crrTreeValue realMath
            { yearlyCall with optionType := right, exerciseStyle := style, strike := strike } spot
            none = .ok (value right style strike spot, earlyExerciseNodes) :=
  crrTreeValue_order computes_yearlyCall one_lt_exp_one one_pos

end Yearly

/-! ### Calls without dividends -/

/-- A call whose carry is worth at least its discount. -/
structure CarriedCall (request : PricingRequest K) (adjustedSpot up growth discount : K) :
    Prop where
  one_lt_up : 1 < up
  discount_pos : 0 < discount
  discount_le : discount ≤ 1
  carry : 1 ≤ discount * growth
  growth_le : growth ≤ up
  call : request.optionType = .call
  spot : 0 < adjustedSpot
  strike : 0 < request.strike

namespace Lattice

omit [LinearOrder K] [IsStrictOrderedRing K] in
theorem nodeSpot_high (lattice : Lattice K) (adjustedSpot : K) (step node : ℕ) :
    lattice.nodeSpot adjustedSpot (step + 1) (node + 1) =
      lattice.nodeSpot adjustedSpot step node * lattice.up := by
  rw [nodeSpot, nodeSpot, Nat.add_sub_add_right, pow_succ]
  ring

omit [LinearOrder K] [IsStrictOrderedRing K] in
theorem nodeSpot_low (lattice : Lattice K) (adjustedSpot : K) {step node : ℕ} (h : node ≤ step) :
    lattice.nodeSpot adjustedSpot (step + 1) node =
      lattice.nodeSpot adjustedSpot step node * lattice.down := by
  rw [nodeSpot, nodeSpot, Nat.succ_sub h, pow_succ]
  ring

/-- Where the carry is between the moves, the probability is not clamped and its spot drifts with
the carry. -/
theorem drift_ofFactors (hup : 1 < up) (hdown : 1 / up ≤ growth) (hgrowth : growth ≤ up) :
    (ofFactors up growth discount).prob * up +
      (1 - (ofFactors up growth discount).prob) * (1 / up) = growth := by
  have hspread : 0 < up - 1 / up := sub_pos.mpr (lt_trans (one_div_lt_one_of hup) hup)
  have hle : (growth - 1 / up) / (up - 1 / up) ≤ 1 :=
    (div_le_one hspread).mpr (sub_le_sub_right hgrowth _)
  have hnonneg : 0 ≤ (growth - 1 / up) / (up - 1 / up) :=
    div_nonneg (sub_nonneg.mpr hdown) hspread.le
  have hprob : (ofFactors up growth discount).prob = (growth - 1 / up) / (up - 1 / up) := by
    rw [ofFactors, max_eq_left hnonneg, min_eq_left hle]
  have hmul := div_mul_cancel₀ (growth - 1 / up) hspread.ne'
  rw [hprob]
  linarith

variable {request : PricingRequest K} {adjustedSpot : K}

theorem drift_carriedCall (h : CarriedCall request adjustedSpot up growth discount) :
    (ofFactors up growth discount).prob * up +
      (1 - (ofFactors up growth discount).prob) * (1 / up) = growth := by
  have hpos : 0 < growth :=
    (mul_pos_iff_of_pos_left h.discount_pos).mp (lt_of_lt_of_le one_pos h.carry)
  have hone : 1 ≤ growth := h.carry.trans (mul_le_of_le_one_left hpos.le h.discount_le)
  exact drift_ofFactors h.one_lt_up ((one_div_lt_one_of h.one_lt_up).le.trans hone) h.growth_le

/-- A call that is worth spot minus strike at least after a period is worth more than its exercise
before it. -/
theorem immediate_le_continuation (h : CarriedCall request adjustedSpot up growth discount)
    {step node : ℕ} (hnode : node ≤ step) {low high : K} (hlow0 : 0 ≤ low) (hhigh0 : 0 ≤ high)
    (hlow : (ofFactors up growth discount).nodeSpot adjustedSpot (step + 1) node -
      request.strike ≤ low)
    (hhigh : (ofFactors up growth discount).nodeSpot adjustedSpot (step + 1) (node + 1) -
      request.strike ≤ high) :
    request.immediate ((ofFactors up growth discount).nodeSpot adjustedSpot step node) ≤
      (ofFactors up growth discount).continuation low high := by
  have hprob : 0 ≤ (ofFactors up growth discount).prob ∧
      (ofFactors up growth discount).prob ≤ 1 := prob_ofFactors
  have hup : 0 < up := lt_trans one_pos h.one_lt_up
  have hdrift := drift_carriedCall h
  have hspot : 0 < (ofFactors up growth discount).nodeSpot adjustedSpot step node :=
    mul_pos (mul_pos h.spot (pow_pos hup _)) (pow_pos (one_div_pos.mpr hup) _)
  rw [nodeSpot_low _ _ hnode] at hlow
  rw [nodeSpot_high] at hhigh
  have hnonneg := continuation_mono hprob h.discount_pos.le hlow0 hhigh0
  have hworth := continuation_mono hprob h.discount_pos.le hlow hhigh
  rw [continuation_zero] at hnonneg
  generalize (ofFactors up growth discount).nodeSpot adjustedSpot step node = spot at *
  have hexpected : (ofFactors up growth discount).continuation
      (spot * (ofFactors up growth discount).down - request.strike)
      (spot * (ofFactors up growth discount).up - request.strike) =
        discount * growth * spot - discount * request.strike := by
    change discount * (_ * (spot * up - _) + (1 - _) * (spot * (1 / up) - _)) = _
    linear_combination discount * spot * hdrift
  have hgrown : spot ≤ discount * growth * spot := le_mul_of_one_le_left hspot.le h.carry
  have hdiscounted : discount * request.strike ≤ request.strike :=
    mul_le_of_le_one_left h.strike.le h.discount_le
  rw [immediate_eq, h.call]
  refine max_le ?_ hnonneg
  linarith

/-- The value of a node under an exercise style, with its leaves `k` steps later. -/
def styledValue (lattice : Lattice K) (request : PricingRequest K) (adjustedSpot : K) (steps : ℕ)
    (style : ExerciseStyle) (k step node : ℕ) : K :=
  nodeValue (lattice.rule { request with exerciseStyle := style } adjustedSpot)
    (lattice.leaf { request with exerciseStyle := style } adjustedSpot steps) k step node

/-- Node by node such a call has one value, exercised early or not, and it is spot minus strike at
least. -/
theorem styledValue_call (h : CarriedCall request adjustedSpot up growth discount)
    (steps k step node : ℕ) (hstep : step + k = steps) (hnode : node ≤ step) :
    (ofFactors up growth discount).styledValue request adjustedSpot steps .american k step node =
      (ofFactors up growth discount).styledValue request adjustedSpot steps .european k step node ∧
    (ofFactors up growth discount).nodeSpot adjustedSpot step node - request.strike ≤
      (ofFactors up growth discount).styledValue request adjustedSpot steps .american k step node ∧
    0 ≤ (ofFactors up growth discount).styledValue request adjustedSpot steps .american k step
      node := by
  refine @nodeValue_related K _ _ K _ _ (fun step node a e => a = e ∧
    (ofFactors up growth discount).nodeSpot adjustedSpot step node - request.strike ≤ a ∧ 0 ≤ a)
    steps ?_ ?_ k step node hstep hnode
  · intro node _
    refine ⟨rfl, ?_, le_max_right _ _⟩
    rw [leaf, immediate_eq]
    dsimp only
    rw [h.call]
    exact le_max_left _ _
  · rintro step _ node hnode low high _ _ ⟨rfl, hlow, hlow0⟩ ⟨rfl, hhigh, hhigh0⟩
    have hworth := immediate_le_continuation h hnode hlow0 hhigh0 hlow hhigh
    have hsame : ({ request with exerciseStyle := .american } : PricingRequest K).immediate
        ((ofFactors up growth discount).nodeSpot adjustedSpot step node) = request.immediate
          ((ofFactors up growth discount).nodeSpot adjustedSpot step node) := rfl
    rw [rule, rule, Lattice.node, Lattice.node]
    dsimp only
    rw [hsame, max_eq_left hworth]
    rw [immediate_eq, h.call] at hworth
    exact ⟨rfl, max_le_iff.mp hworth⟩

/-- No node of such a call is exercised early. -/
theorem earlyNodes_call (h : CarriedCall request adjustedSpot up growth discount) (steps : ℕ) :
    (ofFactors up growth discount).earlyNodes { request with exerciseStyle := .american }
      adjustedSpot steps steps = 0 := by
  rw [earlyNodes]
  refine List.sum_eq_zero fun count hcount => ?_
  obtain ⟨step, hstep, rfl⟩ := List.mem_map.mp hcount
  rw [List.mem_range] at hstep
  rw [outcomes_eq, List.countP_eq_zero]
  intro outcome houtcome
  obtain ⟨node, hnode, rfl⟩ := List.mem_map.mp houtcome
  rw [List.mem_range'_1] at hnode
  obtain ⟨-, hlow, hlow0⟩ :=
    styledValue_call h steps (steps - (step + 1)) (step + 1) node (by omega) (by omega)
  obtain ⟨-, hhigh, hhigh0⟩ :=
    styledValue_call h steps (steps - (step + 1)) (step + 1) (node + 1) (by omega) (by omega)
  have hworth : request.immediate ((ofFactors up growth discount).nodeSpot adjustedSpot step node) ≤
      _ := immediate_le_continuation h (by omega) hlow0 hhigh0 hlow hhigh
  exact Bool.eq_false_iff.mp (decide_eq_false (not_lt.mpr hworth))

omit [IsStrictOrderedRing K] in
/-- A European tree exercises no node early. -/
theorem earlyNodes_european (lattice : Lattice K) (request : PricingRequest K) (adjustedSpot : K)
    (steps : ℕ) : lattice.earlyNodes { request with exerciseStyle := .european } adjustedSpot steps
      steps = 0 := by
  rw [earlyNodes]
  refine List.sum_eq_zero fun count hcount => ?_
  obtain ⟨step, -, rfl⟩ := List.mem_map.mp hcount
  rw [outcomes_eq, List.countP_eq_zero]
  intro outcome houtcome
  obtain ⟨node, -, rfl⟩ := List.mem_map.mp houtcome
  exact Bool.false_ne_true

end Lattice

/-- A call on a spot whose carry is worth at least its discount is not exercised early: the
American tree reports no such node and the value of the European one. -/
theorem crrTreeValue_call {math : PricingMath K} {request : PricingRequest K}
    {stepsOverride : Option Int} {adjustedSpot : K}
    (h : Computes math request (stepsOverride.getD request.treeSteps) up growth discount)
    (hup : 1 < up) (hdiscount0 : 0 < discount) (hdiscount : discount ≤ 1)
    (hcarry : 1 ≤ discount * growth) (hgrowth : growth ≤ up) (hcall : request.optionType = .call)
    (hspot : 0 < adjustedSpot) (hstrike : 0 < request.strike) :
    ∃ value,
      crrTreeValue math { request with exerciseStyle := .american } adjustedSpot stepsOverride =
        .ok (value, 0) ∧
      crrTreeValue math { request with exerciseStyle := .european } adjustedSpot stepsOverride =
        .ok (value, 0) := by
  have hcarried : CarriedCall request adjustedSpot up growth discount :=
    ⟨hup, hdiscount0, hdiscount, hcarry, hgrowth, hcall, hspot, hstrike⟩
  have hsame : ∀ style, Computes math { request with exerciseStyle := style }
      (stepsOverride.getD request.treeSteps) up growth discount := fun _ => ⟨h.1, h.2, h.3⟩
  have hroot := (Lattice.styledValue_call hcarried _
    (stepsOverride.getD request.treeSteps).toNat 0 0 (Nat.zero_add _) le_rfl).1
  have hamerican := crrTreeValue_eq (hsame .american) hup adjustedSpot
  have heuropean := crrTreeValue_eq (hsame .european) hup adjustedSpot
  rw [Lattice.earlyNodes_call hcarried] at hamerican
  rw [Lattice.earlyNodes_european] at heuropean
  exact ⟨_, hamerican,
    heuropean.trans (congrArg (fun value => Except.ok (value, 0)) hroot.symm)⟩

theorem crrTreeValue_call_yearly : ∃ value,
    crrTreeValue realMath { yearlyCall with exerciseStyle := .american } 100 none =
      .ok (value, 0) ∧
    crrTreeValue realMath { yearlyCall with exerciseStyle := .european } 100 none =
      .ok (value, 0) :=
  crrTreeValue_call computes_yearlyCall one_lt_exp_one one_pos le_rfl (one_mul (1 : ℝ)).ge
    one_lt_exp_one.le rfl (by norm_num) (by norm_num [yearlyCall])

end OptionResearch
