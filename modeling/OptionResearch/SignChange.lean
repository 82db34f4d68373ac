import Mathlib.Algebra.Order.Field.Basic
import Mathlib.Data.Rat.Cast.OfScientific
import Mathlib.Order.Interval.Set.UnorderedInterval
import Mathlib.Tactic.Linarith
import Mathlib.Tactic.Ring

/-!
# Intervals with a change of sign

Two points with values that do not have the same sign. A third point in between, with any value,
makes a narrower such interval with one of them. A step `p / q` from one end that passes the test of
Brent's method stays between the ends, and is a step at all.
-/

namespace OptionResearch.SignChange

variable {K : Type*} [Field K] [LinearOrder K] [IsStrictOrderedRing K]

/-- Two points with their values. -/
structure Bracket (K : Type*) where
  left : K
  leftValue : K
  right : K
  rightValue : K

namespace Bracket

/-- The points between the two. -/
def interval (bracket : Bracket K) : Set K := Set.uIcc bracket.left bracket.right

def width (bracket : Bracket K) : K := |bracket.right - bracket.left|

/-- The product of the values is not positive. -/
def Changes (bracket : Bracket K) : Prop := bracket.leftValue * bracket.rightValue ≤ 0

omit [IsStrictOrderedRing K] [Field K] in
theorem interval_subset {bracket other : Bracket K} (hleft : other.left ∈ bracket.interval)
    (hright : other.right ∈ bracket.interval) : other.interval ⊆ bracket.interval :=
  Set.uIcc_subset_uIcc hleft hright

end Bracket

variable {x y z : K}

/-- A value that is not opposite to the first is opposite to the second. -/
theorem mul_nonpos_of_not_neg (hx : x ≠ 0) (hxz : x * z ≤ 0) (hy : y ≠ 0) (h : ¬ x * y < 0) :
    y * z ≤ 0 := by
  have hpos : 0 < x * y := lt_of_le_of_ne (not_lt.mp h) (mul_ne_zero hx hy).symm
  rcases mul_pos_iff.mp hpos with ⟨hx, hy⟩ | ⟨hx, hy⟩
  · exact mul_nonpos_of_nonneg_of_nonpos hy.le (nonpos_of_mul_nonpos_right hxz hx)
  · exact mul_nonpos_of_nonpos_of_nonneg hy.le (nonneg_of_mul_nonpos_right hxz hx)

/-- Of two opposite values, one is opposite to a third that has the sign of the other. -/
theorem mul_neg_of_pos (hxy : x * y < 0) (hxz : 0 < x * z) : y * z < 0 := by
  rcases mul_pos_iff.mp hxz with ⟨hx, hz⟩ | ⟨hx, hz⟩
  · exact mul_neg_of_neg_of_pos (neg_of_mul_neg_right hxy hx.le) hz
  · exact mul_neg_of_pos_of_neg (pos_of_mul_neg_right hxy hx.le) hz

variable {a b m d p q tol : K}

/-- Half of the way from one end to the other is in between. -/
theorem half_add_mem_uIcc : 0.5 * (a + b) ∈ Set.uIcc a b := by
  rw [Set.mem_uIcc]
  rcases le_total a b with h | h
  · exact .inl ⟨by linarith, by linarith⟩
  · exact .inr ⟨by linarith, by linarith⟩

/-- A step in the direction of the other end, and not further. -/
def Toward (m d : K) : Prop := 0 ≤ d ∧ d ≤ m + m ∨ m + m ≤ d ∧ d ≤ 0

theorem toward_self (m : K) : Toward m m := by
  rcases le_total 0 m with h | h
  · exact .inl ⟨h, by linarith⟩
  · exact .inr ⟨by linarith, h⟩

/-- From half of the way on. -/
theorem Toward.add_mem_uIcc (h : Toward (0.5 * (a - b)) d) : b + d ∈ Set.uIcc a b := by
  rw [Set.mem_uIcc]
  rcases h with ⟨hd, hm⟩ | ⟨hm, hd⟩
  · exact .inr ⟨by linarith, by linarith⟩
  · exact .inl ⟨by linarith, by linarith⟩

/-- A step that is accepted divides by a number with the sign of `m`. -/
theorem mul_pos_of_accepted (hp : 0 ≤ p) (h : 2.0 * p < 3.0 * m * q - |tol * q|) : 0 < m * q := by
  have := abs_nonneg (tol * q)
  linarith

/-- A step that is accepted leads toward the other end, three quarters of the way at most. -/
theorem toward_of_accepted (hp : 0 ≤ p) (h : 2.0 * p < 3.0 * m * q - |tol * q|) :
    q ≠ 0 ∧ Toward m (p / q) := by
  have hlarge : 2.0 * p < 3.0 * m * q := by
    have := abs_nonneg (tol * q)
    linarith
  rcases mul_pos_iff.mp (mul_pos_of_accepted hp h) with ⟨hm, hq⟩ | ⟨hm, hq⟩
  · have hstep : p / q ≤ m + m := by
      rw [div_le_iff₀ hq]
      linarith [mul_pos hm hq]
    exact ⟨hq.ne', .inl ⟨div_nonneg hp hq.le, hstep⟩⟩
  · have hstep : m + m ≤ p / q := by
      rw [le_div_iff_of_neg hq]
      linarith [mul_pos_of_neg_of_neg hm hq]
    exact ⟨hq.ne, .inr ⟨hstep, div_nonpos_of_nonneg_of_nonpos hp hq.le⟩⟩

end OptionResearch.SignChange
