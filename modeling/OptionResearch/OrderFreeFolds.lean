import Mathlib.Data.List.Perm.Basic
import OptionResearch.StableSort

/-!
# Folds over items in any order

A fold is free of the order of its items when every order of them leads to the same state. It is so
exactly when the steps of any two items commute, provided that they commute in every state or in
none.
-/

namespace OptionResearch.OrderFreeFolds

open StableSort

variable {S A K : Type} [LinearOrder K] {f : S → A → S} {s : S} {items : List A}
  {p : A → Bool} {C : A → A → Prop}

/-- Every order of the items leads to the same state. -/
def OrderFree (f : S → A → S) (s : S) (items : List A) : Prop :=
  ∀ returned : List A, returned.Perm items → returned.foldl f s = items.foldl f s

theorem orderFree_iff_forall
    (hC : ∀ a ∈ items, ∀ b ∈ items, ∀ t, f (f t a) b = f (f t b) a ↔ C a b) :
    OrderFree f s items ↔ ∀ a ∈ items, ∀ b ∈ items, C a b := by
  constructor
  · intro hfree a ha b hb
    by_cases hab : a = b
    · subst hab
      exact (hC a ha a ha s).mp rfl
    · -- the two orders that end in the two items
      have hpair : [a, b].Subperm items := by
        apply List.subperm_of_subset (by simpa using hab)
        intro x hx
        rcases List.mem_pair.mp hx with rfl | rfl
        · exact ha
        · exact hb
      obtain ⟨pair, hpair, hsub⟩ := hpair
      obtain ⟨rest, hrest⟩ := hsub.exists_perm_append
      have hends : (rest ++ [a, b]).Perm items :=
        List.perm_append_comm.trans ((hpair.symm.append_right rest).trans hrest.symm)
      have hswapped : (rest ++ [b, a]).Perm items :=
        ((List.Perm.swap a b []).append_left rest).trans hends
      have hsame := (hfree _ hends).trans (hfree _ hswapped).symm
      rw [List.foldl_append, List.foldl_append] at hsame
      exact (hC a ha b hb _).mp hsame
  · intro hall returned hperm
    apply hperm.foldl_eq'
    intro a ha b hb t
    exact (hC a (hperm.mem_iff.mp ha) b (hperm.mem_iff.mp hb) t).mpr
      (hall a (hperm.mem_iff.mp ha) b (hperm.mem_iff.mp hb))

/-- Orders of the items are orders of those that pass a test. -/
theorem orderFree_filter_iff :
    OrderFree f s (items.filter p) ↔ ∀ returned : List A, returned.Perm items →
      (returned.filter p).foldl f s = (items.filter p).foldl f s := by
  constructor
  · exact fun hfree returned hperm => hfree _ (hperm.filter p)
  · intro hall passing hpassing
    have hwhole : (passing ++ items.filter (!p ·)).Perm items :=
      (hpassing.append_right _).trans (List.filter_append_perm p items)
    have hfilter : (passing ++ items.filter (!p ·)).filter p = passing := by
      have hpass : ∀ a ∈ passing, p a = true :=
        fun a ha => (List.mem_filter.mp (hpassing.mem_iff.mp ha)).2
      rw [List.filter_append, List.filter_eq_self.mpr hpass, List.filter_filter]
      simp
    have hfold := hall _ hwhole
    rwa [hfilter] at hfold

/-- What every order leads to is what the sorted one leads to. -/
theorem forall_perm_sortBy_iff {V : Type} (items : List A) (value : List A → V) (key : A → K) :
    (∀ returned : List A, returned.Perm items → value returned = value (sortBy key items)) ↔
      ∀ returned : List A, returned.Perm items → value returned = value items := by
  constructor
  · exact fun hall returned hperm =>
      (hall returned hperm).trans (hall items (List.Perm.refl items)).symm
  · exact fun hall returned hperm => (hall returned hperm).trans (hall _ sortBy_perm).symm

end OptionResearch.OrderFreeFolds
