import Mathlib.Algebra.Order.Group.Unbundled.Basic
import Mathlib.Algebra.Order.Ring.Defs
import Mathlib.Tactic.Abel
import Mathlib.Tactic.Ring
import Mathlib.Algebra.Order.Group.MinMax
import Mathlib.Algebra.Order.Group.Abs
import Mathlib.Order.Lattice

/-!
# What an option is worth when it ends

The value of exercising a call or a put at a spot price, the holder's free choice not to, what one
short and one long option of the same right can lose together, and the shares and strike cash an
exercise delivers, over any ordered group or ring of prices.
-/

namespace OptionResearch.OptionPayoff

inductive Right where
  | call
  | put
  deriving DecidableEq, Repr

section Group

variable {K : Type*} [AddCommGroup K] [LinearOrder K]

/-- What exercising is worth for each share, gain or loss. -/
def exerciseValue : Right → K → K → K
  | .call, spot, strike => spot - strike
  | .put, spot, strike => strike - spot

/-- What the option is worth for each share to a holder who exercises only at a gain. -/
def intrinsic (right : Right) (spot strike : K) : K := max 0 (exerciseValue right spot strike)

variable (right : Right) (spot strike : K)

theorem intrinsic_nonneg : 0 ≤ intrinsic right spot strike := le_max_left _ _

variable {right spot strike}

/-- An option in the money is worth what its exercise brings. -/
theorem intrinsic_eq_exerciseValue (h : 0 < intrinsic right spot strike) :
    intrinsic right spot strike = exerciseValue right spot strike := by
  rcases max_choice 0 (exerciseValue right spot strike) with h₀ | hv
  · exact absurd h₀ (ne_of_gt h)
  · exact hv

end Group

/-! ### One short and one long option -/

section Spread

variable {K : Type*} [AddCommGroup K] [LinearOrder K] [IsOrderedAddMonoid K]

theorem intrinsic_put (spot strike : K) : intrinsic .put spot strike = max strike spot - spot := by
  rw [intrinsic, exerciseValue, ← max_sub_sub_right, sub_self, max_comm]

theorem intrinsic_call (spot strike : K) :
    intrinsic .call spot strike = spot - min strike spot := by
  rw [intrinsic, exerciseValue, ← max_sub_sub_left, sub_self, max_comm]

/-- What a short option loses at `spot`, less what a long one of the same right brings. -/
def spreadLoss (right : Right) (spot short long : K) : K :=
  intrinsic right spot short - intrinsic right spot long

/-- The most that a spread between the strikes `lo` and `hi` can lose at `spot`. -/
def reach : Right → K → K → K → K
  | .put, spot, lo, hi => max hi spot - max lo spot
  | .call, spot, lo, hi => min hi spot - min lo spot

variable {right : Right} {spot lo hi short long : K}

theorem reach_nonneg (h : lo ≤ hi) : 0 ≤ reach right spot lo hi := by
  cases right with
  | put => exact sub_nonneg.mpr (max_le_max_right _ h)
  | call => exact sub_nonneg.mpr (min_le_min_right _ h)

omit [IsOrderedAddMonoid K] in
/-- Puts lose below the spot and calls above it, so that both sides together lose at most the width
of the strikes. -/
theorem reach_put_add_reach_call :
    reach .put spot lo hi + reach .call spot lo hi = hi - lo := by
  have hhi := max_add_min hi spot
  have hlo := max_add_min lo spot
  calc
    max hi spot - max lo spot + (min hi spot - min lo spot)
        = (max hi spot + min hi spot) - (max lo spot + min lo spot) := by abel
    _ = hi + spot - (lo + spot) := by rw [hhi, hlo]
    _ = hi - lo := add_sub_add_right_eq_sub _ _ _

theorem abs_spreadLoss_le (hshort : lo ≤ short ∧ short ≤ hi) (hlong : lo ≤ long ∧ long ≤ hi) :
    |spreadLoss right spot short long| ≤ reach right spot lo hi := by
  cases right with
  | put =>
    rw [spreadLoss, intrinsic_put, intrinsic_put, sub_sub_sub_cancel_right]
    apply abs_sub_le_of_le_of_le
    · exact max_le_max_right _ hshort.1
    · exact max_le_max_right _ hshort.2
    · exact max_le_max_right _ hlong.1
    · exact max_le_max_right _ hlong.2
  | call =>
    rw [spreadLoss, intrinsic_call, intrinsic_call, sub_sub_sub_cancel_left]
    apply abs_sub_le_of_le_of_le
    · exact min_le_min_right _ hlong.1
    · exact min_le_min_right _ hlong.2
    · exact min_le_min_right _ hshort.1
    · exact min_le_min_right _ hshort.2

end Spread

section Ring

variable {K : Type*} [CommRing K]

/-- The shares received and the strike cash received when `n` shares' worth is exercised. -/
def delivery : Right → K → K → K × K
  | .call, n, strike => (n, -strike * n)
  | .put, n, strike => (-n, strike * n)

/-- Delivered shares marked at the spot price, with the strike cash, are worth the exercise. -/
theorem delivery_value (right : Right) (n spot strike : K) :
    (delivery right n strike).2 + (delivery right n strike).1 * spot =
      n * exerciseValue right spot strike := by
  cases right with
  | call =>
    simp only [delivery, exerciseValue]
    ring
  | put =>
    simp only [delivery, exerciseValue]
    ring

end Ring
end OptionResearch.OptionPayoff
