import OptionResearch.BinomialExpectation
import OptionResearch.TreeGuarantees

/-!
# The European tree as an expectation

Without early exercise `_crr_tree_value` is the discounted binomial mean of the payoffs at the end,
and where the carry lies between the moves its call and its put differ by a forward.
-/

namespace OptionResearch

open Finset OptionPayoff RecombiningTree

variable {K : Type} [Field K] [LinearOrder K]

namespace Lattice

variable (lattice : Lattice K) (request : PricingRequest K) (adjustedSpot : K) (steps : ℕ)

theorem rule_european (heuropean : request.exerciseStyle = .european) (step node : ℕ)
    (low high : K) : lattice.rule request adjustedSpot step node low high =
      lattice.discount * (lattice.prob * high + (1 - lattice.prob) * low) := by
  rw [rule, Lattice.node, heuropean]
  rfl

theorem rootValue_european (heuropean : request.exerciseStyle = .european) :
    lattice.rootValue request adjustedSpot steps = lattice.discount ^ steps *
      binomialMean steps lattice.prob (lattice.leaf request adjustedSpot steps) := by
  have hroot := nodeValue_binomialMean lattice.prob
    (lattice.rule_european request adjustedSpot heuropean)
    (lattice.leaf request adjustedSpot steps) steps 0 0
  simpa [rootValue] using hroot

theorem earlyNodes_of_european (heuropean : request.exerciseStyle = .european) :
    lattice.earlyNodes request adjustedSpot steps steps = 0 := by
  have h := earlyNodes_european lattice request adjustedSpot steps
  rwa [← heuropean] at h

end Lattice

variable [IsStrictOrderedRing K]

/-- A call and a put gain together what the spot gains on the strike. -/
theorem intrinsicValue_call_sub_put (spot strike : K) :
    intrinsicValue spot strike .call - intrinsicValue spot strike .put = spot - strike := by
  rcases le_total spot strike with h | h
  · rw [intrinsicValue, intrinsicValue, max_eq_right (sub_nonpos.mpr h),
      max_eq_left (sub_nonneg.mpr h)]
    ring
  · rw [intrinsicValue, intrinsicValue, max_eq_left (sub_nonneg.mpr h),
      max_eq_right (sub_nonpos.mpr h)]
    ring

variable {up growth discount : K}

/-- The call and the put of a tree that drifts with the carry. -/
theorem Lattice.rootValue_parity (hup : 1 < up) (hdown : 1 / up ≤ growth) (hgrowth : growth ≤ up)
    (request : PricingRequest K) (adjustedSpot : K) (steps : ℕ)
    (heuropean : request.exerciseStyle = .european) :
    (ofFactors up growth discount).rootValue { request with optionType := .call } adjustedSpot
        steps -
      (ofFactors up growth discount).rootValue { request with optionType := .put } adjustedSpot
        steps =
      adjustedSpot * (discount * growth) ^ steps - request.strike * discount ^ steps := by
  have hdrift := @drift_ofFactors _ _ _ _ _ _ discount hup hdown hgrowth
  have hforward := binomialMean_pow steps (ofFactors up growth discount).prob adjustedSpot up
    (1 / up)
  have hstrike := binomialMean_const steps (ofFactors up growth discount).prob request.strike
  rw [rootValue_european, rootValue_european, ← mul_sub, binomialMean_sub]
  · have hleaf : (fun k => (ofFactors up growth discount).leaf
          { request with optionType := .call } adjustedSpot steps k -
        (ofFactors up growth discount).leaf
          { request with optionType := .put } adjustedSpot steps k) =
        fun k => adjustedSpot * up ^ k * (1 / up) ^ (steps - k) - request.strike := by
      funext k
      rw [leaf, leaf, immediate_eq, immediate_eq]
      exact intrinsicValue_call_sub_put _ _
    rw [hleaf, ← binomialMean_sub, hforward, hstrike, hdrift]
    change discount ^ steps * _ = _
    rw [mul_pow]
    ring
  · exact heuropean
  · exact heuropean

/-- A European tree is worth the discounted binomial mean of its payoffs; where the carry lies
between the moves, its call is worth the forward more than its put. -/
theorem crrTreeValue_european {math : PricingMath K} {request : PricingRequest K}
    {stepsOverride : Option Int} {adjustedSpot : K}
    (h : Computes math request (stepsOverride.getD request.treeSteps) up growth discount)
    (hup : 1 < up) (heuropean : request.exerciseStyle = .european) :
    let steps := (stepsOverride.getD request.treeSteps).toNat
    let prob := min (max ((growth - 1 / up) / (up - 1 / up)) 0) 1
    crrTreeValue math request adjustedSpot stepsOverride =
      .ok (discount ^ steps * ∑ k ∈ range (steps + 1),
        (steps.choose k : K) * prob ^ k * (1 - prob) ^ (steps - k) *
          max (request.sign * (adjustedSpot * up ^ k * (1 / up) ^ (steps - k) - request.strike)) 0,
        0) ∧
    (1 / up ≤ growth → growth ≤ up → ∃ call put,
      crrTreeValue math { request with optionType := .call } adjustedSpot stepsOverride =
        .ok (call, 0) ∧
      crrTreeValue math { request with optionType := .put } adjustedSpot stepsOverride =
        .ok (put, 0) ∧
      call - put =
        adjustedSpot * (discount * growth) ^ steps - request.strike * discount ^ steps) := by
  intro steps prob
  have hvalue : ∀ right, crrTreeValue math { request with optionType := right } adjustedSpot
      stepsOverride = .ok ((Lattice.ofFactors up growth discount).rootValue
        { request with optionType := right } adjustedSpot steps, 0) := by
    intro right
    have hsame : Computes math { request with optionType := right }
        (stepsOverride.getD request.treeSteps) up growth discount := ⟨h.1, h.2, h.3⟩
    have hearly : (Lattice.ofFactors up growth discount).earlyNodes
        { request with optionType := right } adjustedSpot steps steps = 0 :=
      Lattice.earlyNodes_of_european _ _ adjustedSpot steps heuropean
    rw [crrTreeValue_eq hsame hup adjustedSpot, hearly]
  constructor
  · rw [hvalue request.optionType, Lattice.rootValue_european _ _ _ _ heuropean]
    rfl
  · intro hdown hgrowth
    exact ⟨_, _, hvalue .call, hvalue .put,
      Lattice.rootValue_parity hup hdown hgrowth request adjustedSpot steps heuropean⟩

/-- The European yearly call, without carry, and the put on the same terms. -/
theorem crrTreeValue_european_yearly :
    let request := { yearlyCall with exerciseStyle := .european }
    let prob := min (max ((1 - 1 / Real.exp 1) / (Real.exp 1 - 1 / Real.exp 1)) 0) 1
    crrTreeValue realMath request 100 none =
      .ok (1 ^ 1 * ∑ k ∈ range 2, (Nat.choose 1 k : ℝ) * prob ^ k * (1 - prob) ^ (1 - k) *
        max (1 * (100 * Real.exp 1 ^ k * (1 / Real.exp 1) ^ (1 - k) - 95)) 0, 0) ∧
    (1 / Real.exp 1 ≤ 1 → 1 ≤ Real.exp 1 → ∃ call put,
      crrTreeValue realMath { request with optionType := .call } 100 none = .ok (call, 0) ∧
      crrTreeValue realMath { request with optionType := .put } 100 none = .ok (put, 0) ∧
      call - put = 100 * (1 * 1) ^ 1 - 95 * 1 ^ 1) :=
  crrTreeValue_european ⟨computes_yearlyCall.1, computes_yearlyCall.2, computes_yearlyCall.3⟩
    one_lt_exp_one rfl

end OptionResearch
