import Mathlib.Algebra.BigOperators.Group.List.Basic
import Mathlib.Data.List.Chain
import Mathlib.Tactic.Abel

/-!
# Neighbours in a list

The pairs of a list with its tail are its neighbours. A transitive relation that holds between all
neighbours holds between any two items, and what a figure gains from each item to the next adds up
to what it gains from the first to the last.
-/

namespace OptionResearch

variable {α : Type*} {R : α → α → Prop} {items : List α}

theorem forall_neighbours_iff : (∀ pair ∈ items.zip items.tail, R pair.1 pair.2) ↔
    items.IsChain R := by
  induction items with
  | nil => simp
  | cons first rest ih =>
      cases rest with
      | nil => simp
      | cons second rest =>
          rw [List.tail_cons, List.zip_cons_cons, List.forall_mem_cons, List.isChain_cons_cons, ← ih]
          rfl

theorem forall_neighbours_iff_pairwise [Trans R R R] :
    (∀ pair ∈ items.zip items.tail, R pair.1 pair.2) ↔ items.Pairwise R :=
  forall_neighbours_iff.trans List.isChain_iff_pairwise

/-- The gains of a figure add up. -/
theorem sum_gains {G : Type*} [AddCommGroup G] (figure : α → G) (hne : items ≠ []) :
    ((items.zip items.tail).map fun pair => figure pair.2 - figure pair.1).sum =
      figure (items.getLast hne) - figure (items.head hne) := by
  induction items with
  | nil => exact absurd rfl hne
  | cons first rest ih =>
      cases rest with
      | nil => simp
      | cons second rest =>
          rw [List.tail_cons, List.zip_cons_cons, List.map_cons, List.sum_cons]
          have hrest := ih (List.cons_ne_nil second rest)
          rw [List.tail_cons] at hrest
          rw [hrest, List.getLast_cons (List.cons_ne_nil second rest), List.head_cons, List.head_cons]
          abel

end OptionResearch
