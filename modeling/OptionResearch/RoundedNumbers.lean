import OptionResearch.PythonValues
import Mathlib.Algebra.Order.Floor.Ring
import Mathlib.Algebra.Order.Ring.Abs
import Mathlib.Data.Rat.Floor
import Mathlib.Tactic.Linarith
import Mathlib.Tactic.Ring

/-!
# Rounded numbers

`round(x)`, `round(x, precision)` and `int(x)` over exact rationals. Rounding takes a number to the
nearest integer, and from a half to the even one: down where less than a half is cut off, or a half
above an even integer. Of a number that is not negative, `int(x)` is the floor; below one nothing is
left of it.
-/

namespace OptionResearch

/-- `round(x)`: to the nearest integer, and from a half to the even one. -/
def roundHalfEven (x : ℚ) : Int :=
  let below := x.floor
  if x - below < 1 / 2 then below
  else if 1 / 2 < x - below then below + 1
  else if below % 2 = 0 then below
  else below + 1

/-- `round(x, precision)`. -/
def roundTo (x : ℚ) (precision : Int) : ℚ := roundHalfEven (x * 10 ^ precision) / 10 ^ precision

theorem abs_sub_roundHalfEven_le (x : ℚ) : |x - roundHalfEven x| ≤ 1 / 2 := by
  have hle : (x.floor : ℚ) ≤ x := Rat.floor_le x
  have hlt : x < ((x.floor + 1 : Int) : ℚ) := Rat.lt_floor_add_one x
  rw [roundHalfEven, abs_le]
  split_ifs <;> push_cast at hlt ⊢ <;> constructor <;> linarith

/-- What is closer to an integer than a half is rounded to it. -/
theorem roundHalfEven_eq_of_lt {x : ℚ} {n : Int} (h : |x - n| < 1 / 2) :
    roundHalfEven x = n := by
  have hclose : |((roundHalfEven x - n : Int) : ℚ)| < 1 :=
    calc |((roundHalfEven x - n : Int) : ℚ)| = |(x - n) - (x - roundHalfEven x)| := by
          rw [Int.cast_sub, sub_sub_sub_cancel_left]
      _ ≤ |x - n| + |x - roundHalfEven x| := abs_sub _ _
      _ < 1 / 2 + 1 / 2 := add_lt_add_of_lt_of_le h (abs_sub_roundHalfEven_le x)
      _ = 1 := add_halves 1
  have hint : |roundHalfEven x - n| < 1 := by exact_mod_cast hclose
  exact sub_eq_zero.mp (Int.abs_lt_one_iff.mp hint)

/-- Rounding takes to zero what is within half of it. -/
theorem roundHalfEven_eq_zero_iff {x : ℚ} : roundHalfEven x = 0 ↔ |x| ≤ 1 / 2 := by
  constructor
  · intro hzero
    have hround := abs_sub_roundHalfEven_le x
    rwa [hzero, Int.cast_zero, sub_zero] at hround
  · intro h
    rcases h.lt_or_eq with hlt | heq
    · exact roundHalfEven_eq_of_lt (by rwa [Int.cast_zero, sub_zero])
    · -- a half goes to the even integer next to it
      rcases eq_or_eq_neg_of_abs_eq heq with rfl | rfl <;> decide +kernel

theorem floor_le_roundHalfEven (x : ℚ) : x.floor ≤ roundHalfEven x := by
  rw [roundHalfEven]
  split_ifs <;> omega

theorem roundTo_zero (precision : Int) : roundTo 0 precision = 0 := by
  have hzero : roundHalfEven 0 = 0 := roundHalfEven_eq_zero_iff.mpr (by norm_num)
  rw [roundTo, zero_mul, hzero, Int.cast_zero, zero_div]

theorem roundTo_nonneg {x : ℚ} (h : 0 ≤ x) (precision : Int) : 0 ≤ roundTo x precision := by
  have hscaled : 0 ≤ x * 10 ^ precision := mul_nonneg h (zpow_nonneg (by norm_num) _)
  have hbelow : 0 ≤ (x * 10 ^ precision).floor := Rat.le_floor_iff.mpr (by simpa using hscaled)
  have hround : 0 ≤ roundHalfEven (x * 10 ^ precision) := hbelow.trans (floor_le_roundHalfEven _)
  exact div_nonneg (by exact_mod_cast hround) (zpow_nonneg (by norm_num) _)

/-! ### Rounding down -/

theorem roundHalfEven_intCast (n : Int) : roundHalfEven n = n :=
  roundHalfEven_eq_of_lt (by rw [sub_self, abs_zero]; norm_num)

/-- A number is rounded down where less than a half is cut off, or a half above an even integer. -/
theorem roundHalfEven_le_iff {x : ℚ} :
    (roundHalfEven x : ℚ) ≤ x ↔
      x - x.floor < 1 / 2 ∨ x - x.floor = 1 / 2 ∧ x.floor % 2 = 0 := by
  have hlt : x < ((x.floor + 1 : Int) : ℚ) := Rat.lt_floor_add_one x
  have hle : (x.floor : ℚ) ≤ x := Rat.floor_le x
  have hup : ¬ ((x.floor + 1 : Int) : ℚ) ≤ x := not_le.mpr hlt
  rw [roundHalfEven]
  split_ifs with hbelow habove heven
  · exact iff_of_true hle (.inl hbelow)
  · exact iff_of_false hup fun h => h.elim hbelow fun htie => habove.ne htie.1.symm
  · have htie : x - x.floor = 1 / 2 := le_antisymm (not_lt.mp habove) (not_lt.mp hbelow)
    exact iff_of_true hle (.inr ⟨htie, heven⟩)
  · exact iff_of_false hup fun h => h.elim hbelow fun htie => heven htie.2

/-- What is rounded down and no more than a half above an integer goes to that integer. -/
theorem roundHalfEven_eq_of_le {x : ℚ} {n : Int} (hle : (n : ℚ) ≤ x) (hlt : x < n + 1 / 2) :
    roundHalfEven x = n := by
  apply roundHalfEven_eq_of_lt
  rw [abs_lt]
  constructor <;> linarith

/-- A number that is no half above an integer is less than a half away from what it rounds to. -/
theorem abs_sub_roundHalfEven_lt {x : ℚ} (h : x - x.floor ≠ 1 / 2) :
    |x - roundHalfEven x| < 1 / 2 := by
  have hle : (x.floor : ℚ) ≤ x := Rat.floor_le x
  have hlt : x < ((x.floor + 1 : Int) : ℚ) := Rat.lt_floor_add_one x
  rw [roundHalfEven, abs_lt]
  split_ifs with hbelow habove
  · constructor <;> linarith
  · push_cast at hlt ⊢
    constructor <;> linarith
  all_goals exact absurd (le_antisymm (not_lt.mp habove) (not_lt.mp hbelow)) h

/-- Such a number is rounded alike from any integer on. -/
theorem roundHalfEven_sub_intCast {x : ℚ} (h : x - x.floor ≠ 1 / 2) (n : Int) :
    roundHalfEven (x - n) = roundHalfEven x - n := by
  apply roundHalfEven_eq_of_lt
  rw [Int.cast_sub, sub_sub_sub_cancel_right]
  exact abs_sub_roundHalfEven_lt h

/-- A number with no more than `precision` decimals is left as it is. -/
theorem roundTo_eq_self {x : ℚ} {precision n : Int} (h : x * 10 ^ precision = n) :
    roundTo x precision = x := by
  have hpow : (10 : ℚ) ^ precision ≠ 0 := zpow_ne_zero _ (by norm_num)
  rw [roundTo, h, roundHalfEven_intCast, ← h, mul_div_cancel_right₀ _ hpow]

section Truncation

variable {x : ℚ}

theorem truncate_eq_floor (h : 0 ≤ x) : truncate x = ⌊x⌋ := by
  rw [truncate, Int.tdiv_eq_ediv_of_nonneg (Rat.num_nonneg.mpr h), Rat.floor_def']

theorem truncate_le_self (h : 0 ≤ x) : (truncate x : ℚ) ≤ x := by
  rw [truncate_eq_floor h]
  exact Int.floor_le x

theorem one_le_truncate (h : 1 ≤ x) : 1 ≤ truncate x := by
  rw [truncate_eq_floor (zero_le_one.trans h), Int.le_floor, Int.cast_one]
  exact h

theorem truncate_nonpos (h : x < 1) : truncate x ≤ 0 := by
  rcases le_total 0 x with hnonneg | hneg
  · rw [truncate_eq_floor hnonneg, ← Int.lt_add_one_iff, zero_add, Int.floor_lt, Int.cast_one]
    exact h
  · have hflipped : 0 ≤ (-x.num).tdiv x.den :=
      Int.tdiv_nonneg (neg_nonneg.mpr (Rat.num_nonpos.mpr hneg)) (Int.natCast_nonneg _)
    rw [Int.neg_tdiv] at hflipped
    exact neg_nonneg.mp hflipped

end Truncation

end OptionResearch
