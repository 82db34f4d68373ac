import Mathlib.Algebra.BigOperators.Group.List.Basic

/-!
# Sums of dated amounts

Amounts that take effect at a time: the sum of those in effect at a time, and of those that take
effect between two times. The times need only be comparable, the amounts only be added.
-/

namespace OptionResearch.DatedSum

variable {α T M : Type*} [Preorder T] [DecidableLE T] [AddCommMonoid M]

/-- The sum of the amounts dated at `t` or before. -/
def upTo (date : α → T) (amount : α → M) (t : T) (items : List α) : M :=
  ((items.filter fun item => decide (date item ≤ t)).map amount).sum

/-- The sum of the amounts dated after `t₁`, and at `t₂` or before. -/
def within (date : α → T) (amount : α → M) (t₁ t₂ : T) (items : List α) : M :=
  ((items.filter fun item => decide (¬ date item ≤ t₁ ∧ date item ≤ t₂)).map amount).sum

variable {date : α → T} {amount amount' : α → M} {t t₁ t₂ : T}

@[simp] theorem upTo_nil : upTo date amount t [] = 0 := rfl

theorem upTo_cons (item : α) (items : List α) :
    upTo date amount t (item :: items) =
      (if date item ≤ t then amount item else 0) + upTo date amount t items := by
  unfold upTo
  rw [List.filter_cons]
  by_cases h : date item ≤ t
  · rw [if_pos (decide_eq_true h), if_pos h, List.map_cons, List.sum_cons]
  · rw [if_neg (by simpa using h), if_neg h, zero_add]

theorem within_cons (item : α) (items : List α) :
    within date amount t₁ t₂ (item :: items) =
      (if ¬ date item ≤ t₁ ∧ date item ≤ t₂ then amount item else 0) +
        within date amount t₁ t₂ items := by
  unfold within
  rw [List.filter_cons]
  by_cases h : ¬ date item ≤ t₁ ∧ date item ≤ t₂
  · rw [if_pos (decide_eq_true h), if_pos h, List.map_cons, List.sum_cons]
  · rw [if_neg (by simpa using h), if_neg h, zero_add]

/-- The order of the items does not matter. -/
theorem upTo_perm {items items' : List α} (h : items.Perm items') :
    upTo date amount t items = upTo date amount t items' :=
  ((h.filter _).map amount).sum_eq

theorem upTo_append (items later : List α) :
    upTo date amount t (items ++ later) = upTo date amount t items + upTo date amount t later := by
  simp only [upTo, List.filter_append, List.map_append, List.sum_append]

/-- Items that are not yet dated in sum to nothing. -/
theorem upTo_eq_zero {items : List α} (h : ∀ item ∈ items, ¬ date item ≤ t) :
    upTo date amount t items = 0 := by
  unfold upTo
  rw [List.filter_eq_nil_iff.mpr fun item hitem => by simpa using h item hitem]
  rfl

/-- Only the amounts of the items in effect matter. -/
theorem upTo_congr {items : List α}
    (h : ∀ item ∈ items, date item ≤ t → amount item = amount' item) :
    upTo date amount t items = upTo date amount' t items := by
  unfold upTo
  congr 1
  refine List.map_congr_left fun item hitem => ?_
  obtain ⟨hmem, hle⟩ := List.mem_filter.mp hitem
  exact h item hmem (of_decide_eq_true hle)

theorem upTo_add (items : List α) :
    upTo date (fun item => amount item + amount' item) t items =
      upTo date amount t items + upTo date amount' t items := by
  induction items with
  | nil => exact (add_zero 0).symm
  | cons item items ih =>
    rw [upTo_cons, upTo_cons, upTo_cons, ih]
    split_ifs
    · exact add_add_add_comm _ _ _ _
    · rw [zero_add, zero_add, zero_add]

/-- With nothing dated between the two times, the same items are in effect. -/
theorem upTo_eq_of_quiet (hle : t₁ ≤ t₂) {items : List α}
    (h : ∀ item ∈ items, date item ≤ t₂ → date item ≤ t₁) :
    upTo date amount t₂ items = upTo date amount t₁ items := by
  unfold upTo
  have hsame : (items.filter fun item => decide (date item ≤ t₂)) =
      items.filter fun item => decide (date item ≤ t₁) := by
    refine List.filter_congr fun item hitem => ?_
    rw [decide_eq_decide]
    exact ⟨h item hitem, fun h₁ => h₁.trans hle⟩
  rw [hsame]

end OptionResearch.DatedSum
