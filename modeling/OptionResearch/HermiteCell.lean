import Mathlib.Algebra.Order.Field.Basic
import Mathlib.Order.Interval.Set.UnorderedInterval
import Mathlib.Tactic.Linarith
import Mathlib.Tactic.Ring

/-!
# A cubic on one cell

The cubic Hermite form on the unit interval, with its values and slopes at the ends. It is monotone
where the slopes have the direction of the chord and are at most three times as steep. The harmonic
mean of two slopes is such a slope for both.
-/

namespace OptionResearch.HermiteCell

variable {K : Type*} [Field K]

/-- The cubic with values `y₀` and `y₁` and slopes `s₀` and `s₁` at the ends of the unit
interval. -/
def hermite (y₀ y₁ s₀ s₁ t : K) : K :=
  (2 * t ^ 3 - 3 * t ^ 2 + 1) * y₀ + (t ^ 3 - 2 * t ^ 2 + t) * s₀ +
    (-2 * t ^ 3 + 3 * t ^ 2) * y₁ + (t ^ 3 - t ^ 2) * s₁

variable (y₀ y₁ s₀ s₁ : K)

theorem hermite_zero : hermite y₀ y₁ s₀ s₁ 0 = y₀ := by
  rw [hermite]
  ring

theorem hermite_one : hermite y₀ y₁ s₀ s₁ 1 = y₁ := by
  rw [hermite]
  ring

theorem hermite_neg (t : K) : hermite (-y₀) (-y₁) (-s₀) (-s₁) t = -hermite y₀ y₁ s₀ s₁ t := by
  rw [hermite, hermite]
  ring

/-- The slope of a chord of the cubic. -/
theorem hermite_sub (s t : K) : hermite y₀ y₁ s₀ s₁ t - hermite y₀ y₁ s₀ s₁ s =
    (t - s) * (s₀ * (1 - 2 * (s + t) + (s ^ 2 + s * t + t ^ 2)) +
      s₁ * (s ^ 2 + s * t + t ^ 2 - (s + t)) +
      (y₁ - y₀) * (3 * (s + t) - 2 * (s ^ 2 + s * t + t ^ 2))) := by
  rw [hermite, hermite]
  ring

variable [LinearOrder K] [IsStrictOrderedRing K] {y₀ y₁ s₀ s₁}

/-- The chords of a cubic with gentle slopes rise: the slope of a chord is linear in `s₀` and `s₁`,
and it is not negative where each of them is zero or `3 * m`. -/
theorem chord_nonneg {m s t : K} (h₀ : 0 ≤ s₀) (h₀' : s₀ ≤ 3 * m) (h₁ : 0 ≤ s₁)
    (h₁' : s₁ ≤ 3 * m) (hs : 0 ≤ s) (hs' : s ≤ 1) (ht : 0 ≤ t) (ht' : t ≤ 1) :
    0 ≤ s₀ * (1 - 2 * (s + t) + (s ^ 2 + s * t + t ^ 2)) +
      s₁ * (s ^ 2 + s * t + t ^ 2 - (s + t)) +
      m * (3 * (s + t) - 2 * (s ^ 2 + s * t + t ^ 2)) := by
  have ha : 0 ≤ 1 - s := sub_nonneg.mpr hs'
  have hb : 0 ≤ 1 - t := sub_nonneg.mpr ht'
  have hsecond : 0 ≤ s ^ 2 + s * t + t ^ 2 :=
    add_nonneg (add_nonneg (sq_nonneg s) (mul_nonneg hs ht)) (sq_nonneg t)
  have hfirst : 0 ≤ (1 - s) ^ 2 + (1 - s) * (1 - t) + (1 - t) ^ 2 :=
    add_nonneg (add_nonneg (sq_nonneg _) (mul_nonneg ha hb)) (sq_nonneg _)
  rcases le_total (s₀ + s₁) (3 * m) with hsmall | hlarge
  · have hnone : 0 ≤ 2 * (s * (1 - s)) + 2 * (t * (1 - t)) + (s * (1 - t) + t * (1 - s)) := by
      have h₂ := mul_nonneg hs ha
      have h₃ := mul_nonneg ht hb
      have h₄ := mul_nonneg hs hb
      have h₅ := mul_nonneg ht ha
      linarith
    have hsum := add_nonneg (add_nonneg (mul_nonneg (sub_nonneg.mpr hsmall) hnone)
      (mul_nonneg h₀ hfirst)) (mul_nonneg h₁ hsecond)
    linarith
  · have hboth : 0 ≤ 3 * (s + t - 1) ^ 2 + (s - t) ^ 2 :=
      add_nonneg (mul_nonneg (by norm_num) (sq_nonneg _)) (sq_nonneg _)
    have hsum := add_nonneg (add_nonneg (mul_nonneg (sub_nonneg.mpr hlarge) hboth)
      (mul_nonneg (sub_nonneg.mpr h₁') hfirst)) (mul_nonneg (sub_nonneg.mpr h₀') hsecond)
    linarith

theorem hermite_mono {s t : K} (h₀ : 0 ≤ s₀) (h₀' : s₀ ≤ 3 * (y₁ - y₀)) (h₁ : 0 ≤ s₁)
    (h₁' : s₁ ≤ 3 * (y₁ - y₀)) (hs : 0 ≤ s) (hst : s ≤ t) (ht : t ≤ 1) :
    hermite y₀ y₁ s₀ s₁ s ≤ hermite y₀ y₁ s₀ s₁ t := by
  refine sub_nonneg.mp ?_
  rw [hermite_sub]
  exact mul_nonneg (sub_nonneg.mpr hst)
    (chord_nonneg h₀ h₀' h₁ h₁' hs (hst.trans ht) (hs.trans hst) ht)

/-- The falling case. -/
theorem hermite_anti {s t : K} (h₀ : s₀ ≤ 0) (h₀' : 3 * (y₁ - y₀) ≤ s₀) (h₁ : s₁ ≤ 0)
    (h₁' : 3 * (y₁ - y₀) ≤ s₁) (hs : 0 ≤ s) (hst : s ≤ t) (ht : t ≤ 1) :
    hermite y₀ y₁ s₀ s₁ t ≤ hermite y₀ y₁ s₀ s₁ s := by
  have hmono : hermite (-y₀) (-y₁) (-s₀) (-s₁) s ≤ hermite (-y₀) (-y₁) (-s₀) (-s₁) t :=
    hermite_mono (neg_nonneg.mpr h₀) (by linarith) (neg_nonneg.mpr h₁) (by linarith) hs hst ht
  rw [hermite_neg, hermite_neg] at hmono
  exact neg_le_neg_iff.mp hmono

/-- Slopes between none and three times the chord. -/
def Gentle (y₀ y₁ s₀ s₁ : K) : Prop :=
  s₀ ∈ Set.uIcc 0 (3 * (y₁ - y₀)) ∧ s₁ ∈ Set.uIcc 0 (3 * (y₁ - y₀))

theorem mem_uIcc_of_rising {y₀ y₁ s : K} (h : s ∈ Set.uIcc 0 (3 * (y₁ - y₀))) (hle : y₀ ≤ y₁) :
    0 ≤ s ∧ s ≤ 3 * (y₁ - y₀) := by
  rwa [Set.uIcc_of_le (by linarith)] at h

theorem mem_uIcc_of_falling {y₀ y₁ s : K} (h : s ∈ Set.uIcc 0 (3 * (y₁ - y₀))) (hle : y₁ ≤ y₀) :
    3 * (y₁ - y₀) ≤ s ∧ s ≤ 0 := by
  rwa [Set.uIcc_of_ge (by linarith)] at h

theorem Gentle.rising (h : Gentle y₀ y₁ s₀ s₁) (hle : y₀ ≤ y₁) {s t : K} (hs : 0 ≤ s)
    (hst : s ≤ t) (ht : t ≤ 1) : hermite y₀ y₁ s₀ s₁ s ≤ hermite y₀ y₁ s₀ s₁ t :=
  hermite_mono (mem_uIcc_of_rising h.1 hle).1 (mem_uIcc_of_rising h.1 hle).2
    (mem_uIcc_of_rising h.2 hle).1 (mem_uIcc_of_rising h.2 hle).2 hs hst ht

theorem Gentle.falling (h : Gentle y₀ y₁ s₀ s₁) (hle : y₁ ≤ y₀) {s t : K} (hs : 0 ≤ s)
    (hst : s ≤ t) (ht : t ≤ 1) : hermite y₀ y₁ s₀ s₁ t ≤ hermite y₀ y₁ s₀ s₁ s :=
  hermite_anti (mem_uIcc_of_falling h.1 hle).2 (mem_uIcc_of_falling h.1 hle).1
    (mem_uIcc_of_falling h.2 hle).2 (mem_uIcc_of_falling h.2 hle).1 hs hst ht

/-- The cubic with gentle slopes stays between its ends. -/
theorem Gentle.between (h : Gentle y₀ y₁ s₀ s₁) {t : K} (ht₀ : 0 ≤ t) (ht₁ : t ≤ 1) :
    hermite y₀ y₁ s₀ s₁ t ∈ Set.uIcc y₀ y₁ := by
  rw [Set.mem_uIcc]
  rcases le_total y₀ y₁ with hle | hle
  · have hlow := h.rising hle le_rfl ht₀ ht₁
    have hhigh := h.rising hle ht₀ ht₁ le_rfl
    rw [hermite_zero] at hlow
    rw [hermite_one] at hhigh
    exact .inl ⟨hlow, hhigh⟩
  · have hlow := h.falling hle ht₀ ht₁ le_rfl
    have hhigh := h.falling hle le_rfl ht₀ ht₁
    rw [hermite_one] at hlow
    rw [hermite_zero] at hhigh
    exact .inr ⟨hlow, hhigh⟩

/-- The slope of the chord is gentle, and its cubic is the chord. -/
theorem gentle_chord (y₀ y₁ : K) : Gentle y₀ y₁ (y₁ - y₀) (y₁ - y₀) := by
  have hmem : y₁ - y₀ ∈ Set.uIcc 0 (3 * (y₁ - y₀)) := by
    rw [Set.mem_uIcc]
    rcases le_total 0 (y₁ - y₀) with hle | hle
    · exact .inl ⟨hle, by linarith⟩
    · exact .inr ⟨by linarith, hle⟩
  exact ⟨hmem, hmem⟩

omit [LinearOrder K] [IsStrictOrderedRing K] in
theorem hermite_chord (y₀ y₁ t : K) :
    hermite y₀ y₁ (y₁ - y₀) (y₁ - y₀) t = y₀ + t * (y₁ - y₀) := by
  rw [hermite]
  ring

/-! ### Harmonic means -/

/-- The harmonic mean of two rising slopes is at most twice each of them. -/
theorem harmonic_of_pos {a b : K} (ha : 0 < a) (hb : 0 < b) :
    0 ≤ 2 * a * b / (a + b) ∧ 2 * a * b / (a + b) ≤ 2 * a ∧ 2 * a * b / (a + b) ≤ 2 * b := by
  have hsum : 0 < a + b := add_pos ha hb
  have hproduct : 0 < a * b := mul_pos ha hb
  refine ⟨div_nonneg (by linarith) hsum.le, (div_le_iff₀ hsum).mpr ?_, (div_le_iff₀ hsum).mpr ?_⟩
  · have hsq := mul_pos ha ha
    linarith
  · have hsq := mul_pos hb hb
    linarith

theorem harmonic_of_neg {a b : K} (ha : a < 0) (hb : b < 0) :
    2 * a * b / (a + b) ≤ 0 ∧ 2 * a ≤ 2 * a * b / (a + b) ∧ 2 * b ≤ 2 * a * b / (a + b) := by
  obtain ⟨hnonneg, hleft, hright⟩ := harmonic_of_pos (neg_pos.mpr ha) (neg_pos.mpr hb)
  have hneg : 2 * -a * -b / (-a + -b) = -(2 * a * b / (a + b)) := by
    rw [← neg_add, div_neg]
    ring
  rw [hneg] at hnonneg hleft hright
  exact ⟨by linarith, by linarith, by linarith⟩

end OptionResearch.HermiteCell
