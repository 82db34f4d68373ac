import Mathlib.Data.Nat.Choose.Sum
import OptionResearch.RecombiningTree

/-!
# Binomial expectations

The mean of a function of the number of successes in `n` independent trials, and the tree that
computes it: a rule that discounts the mean of the two nodes that follow gives each node the
discounted mean of the leaves above it.
-/

namespace OptionResearch

open Finset RecombiningTree

variable {K : Type*} [CommRing K]

/-- The mean of `f` over the number of successes of `n` trials. -/
def binomialMean (n : ℕ) (p : K) (f : ℕ → K) : K :=
  ∑ k ∈ range (n + 1), (n.choose k : K) * p ^ k * (1 - p) ^ (n - k) * f k

variable (n : ℕ) (p : K)

theorem binomialMean_zero (f : ℕ → K) : binomialMean 0 p f = f 0 := by simp [binomialMean]

theorem binomialMean_eq_antidiagonal (f : ℕ → K) : binomialMean n p f =
    ∑ ij ∈ antidiagonal n, (n.choose ij.1 : K) * (p ^ ij.1 * (1 - p) ^ ij.2 * f ij.1) := by
  rw [Nat.sum_antidiagonal_eq_sum_range_succ
    fun i j => (n.choose i : K) * (p ^ i * (1 - p) ^ j * f i), binomialMean]
  refine sum_congr rfl fun k _ => ?_
  ring

/-- The first trial fails or succeeds. -/
theorem binomialMean_succ (f : ℕ → K) : binomialMean (n + 1) p f =
    p * binomialMean n p (fun k => f (k + 1)) + (1 - p) * binomialMean n p f := by
  have hpascal := sum_antidiagonal_choose_succ_mul
    (fun i j => p ^ i * (1 - p) ^ j * f i) n
  rw [binomialMean_eq_antidiagonal, hpascal, add_comm, binomialMean_eq_antidiagonal,
    binomialMean_eq_antidiagonal, mul_sum, mul_sum]
  refine congrArg₂ (· + ·) (sum_congr rfl fun ij hij => ?_) (sum_congr rfl fun ij _ => ?_)
  · -- as many ways to choose the successes as the failures
    have hsymm : n.choose ij.2 = n.choose ij.1 := by
      rw [← mem_antidiagonal.mp hij]
      exact (Nat.choose_symm_add).symm
    rw [hsymm]
    ring
  · ring

theorem binomialMean_sub (f g : ℕ → K) :
    binomialMean n p f - binomialMean n p g = binomialMean n p fun k => f k - g k := by
  rw [binomialMean, binomialMean, binomialMean, ← sum_sub_distrib]
  refine sum_congr rfl fun k _ => ?_
  ring

/-- The mean of a product of one factor for each success and one for each failure. -/
theorem binomialMean_pow (c a b : K) :
    binomialMean n p (fun k => c * a ^ k * b ^ (n - k)) = c * (p * a + (1 - p) * b) ^ n := by
  rw [add_pow, binomialMean, mul_sum]
  refine sum_congr rfl fun k _ => ?_
  rw [mul_pow, mul_pow]
  ring

theorem binomialMean_const (c : K) : binomialMean n p (fun _ => c) = c := by
  have h := binomialMean_pow n p c 1 1
  simpa using h

/-- A tree that discounts means gives each node the discounted mean of its leaves. -/
theorem nodeValue_binomialMean {rule : ℕ → ℕ → K → K → K} {discount : K}
    (hrule : ∀ step node low high, rule step node low high =
      discount * (p * high + (1 - p) * low)) (leaf : ℕ → K) (k step node : ℕ) :
    nodeValue rule leaf k step node =
      discount ^ k * binomialMean k p fun j => leaf (node + j) := by
  induction k generalizing step node with
  | zero => rw [nodeValue, binomialMean_zero, pow_zero, one_mul, add_zero]
  | succ k ih =>
      have hshift : (fun j => leaf (node + 1 + j)) = fun j => leaf (node + (j + 1)) :=
        funext fun j => congrArg leaf (by omega)
      rw [nodeValue, hrule, ih, ih, hshift, binomialMean_succ, pow_succ]
      ring

end OptionResearch
