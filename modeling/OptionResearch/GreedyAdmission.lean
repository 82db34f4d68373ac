import Mathlib.Algebra.BigOperators.Group.List.Basic
import Mathlib.Algebra.Order.Group.Abs
import Mathlib.Algebra.Order.BigOperators.Group.List
import Mathlib.Tactic.Abel

/-!
# Greedy admission under a budget

Items are taken in order. An item is accepted when its cost fits in what remains of the budget, and
rejected otherwise. The costs of the accepted items and the remaining budget add up to the budget,
and what has been decided by some point depends on the items up to there only.
-/

namespace OptionResearch.GreedyAdmission

structure Admission (α K : Type*) where
  accepted : List α
  rejected : List α
  remaining : K

section Group

variable {α K : Type*} [AddCommGroup K] [LinearOrder K]

def admitWithin (cost : α → K) : K → List α → Admission α K
  | budget, [] => ⟨[], [], budget⟩
  | budget, item :: rest =>
    if cost item ≤ budget then
      let later := admitWithin cost (budget - cost item) rest
      { later with accepted := item :: later.accepted }
    else
      let later := admitWithin cost budget rest
      { later with rejected := item :: later.rejected }

variable {cost : α → K} {budget : K} {item : α} {items before after : List α}

theorem admitWithin_cons_of_fits (h : cost item ≤ budget) :
    admitWithin cost budget (item :: items) =
      ⟨item :: (admitWithin cost (budget - cost item) items).accepted,
        (admitWithin cost (budget - cost item) items).rejected,
        (admitWithin cost (budget - cost item) items).remaining⟩ := by
  rw [admitWithin, if_pos h]

theorem admitWithin_cons_of_exceeds (h : budget < cost item) :
    admitWithin cost budget (item :: items) =
      ⟨(admitWithin cost budget items).accepted, item :: (admitWithin cost budget items).rejected,
        (admitWithin cost budget items).remaining⟩ := by
  rw [admitWithin, if_neg (not_le.mpr h)]

/-! ### What a run decides -/

theorem admitWithin_perm :
    ((admitWithin cost budget items).accepted ++
      (admitWithin cost budget items).rejected).Perm items := by
  induction items generalizing budget with
  | nil => exact .refl _
  | cons item rest ih =>
    by_cases hfits : cost item ≤ budget
    · rw [admitWithin_cons_of_fits hfits]
      exact ih.cons item
    · rw [admitWithin_cons_of_exceeds (not_le.mp hfits)]
      exact List.perm_middle.trans (ih.cons item)

variable (cost budget items) in
theorem remaining_add_sum :
    (admitWithin cost budget items).remaining +
        ((admitWithin cost budget items).accepted.map cost).sum =
      budget := by
  induction items generalizing budget with
  | nil => exact add_zero _
  | cons item rest ih =>
    by_cases hfits : cost item ≤ budget
    · rw [admitWithin_cons_of_fits hfits, List.map_cons, List.sum_cons, add_left_comm, ih,
        add_sub_cancel]
    · rw [admitWithin_cons_of_exceeds (not_le.mp hfits)]
      exact ih budget

/-- A run over a list goes on from where the run over its first part stopped. -/
theorem admitWithin_append :
    admitWithin cost budget (before ++ after) =
      ⟨(admitWithin cost budget before).accepted ++
          (admitWithin cost (admitWithin cost budget before).remaining after).accepted,
        (admitWithin cost budget before).rejected ++
          (admitWithin cost (admitWithin cost budget before).remaining after).rejected,
        (admitWithin cost (admitWithin cost budget before).remaining after).remaining⟩ := by
  induction before generalizing budget with
  | nil => rfl
  | cons item rest ih =>
    by_cases hfits : cost item ≤ budget
    · rw [List.cons_append, admitWithin_cons_of_fits hfits, admitWithin_cons_of_fits hfits, ih]
      rfl
    · have hexceeds := not_le.mp hfits
      rw [List.cons_append, admitWithin_cons_of_exceeds hexceeds,
        admitWithin_cons_of_exceeds hexceeds, ih]
      rfl

variable (cost budget items) in
theorem accepted_sublist : (admitWithin cost budget items).accepted.Sublist items := by
  induction items generalizing budget with
  | nil => exact .refl _
  | cons item rest ih =>
    by_cases hfits : cost item ≤ budget
    · rw [admitWithin_cons_of_fits hfits]
      exact (ih _).cons_cons item
    · rw [admitWithin_cons_of_exceeds (not_le.mp hfits)]
      exact (ih _).cons item

/-- At its place, a rejected item did not fit. What remained there is what remains in the end and
what the accepted items after it cost. -/
theorem lt_cost_of_not_accepted [DecidableEq α] (hnodup : (before ++ item :: after).Nodup)
    (hrejected : item ∉ (admitWithin cost budget (before ++ item :: after)).accepted) :
    (admitWithin cost budget (before ++ item :: after)).remaining +
        ((after.filter (· ∈ (admitWithin cost budget (before ++ item :: after)).accepted)).map
          cost).sum < cost item := by
  have hbefore := accepted_sublist cost budget before
  obtain ⟨_, hitems, hapart⟩ := List.nodup_append.mp hnodup
  obtain ⟨hitem, hafter⟩ := List.nodup_cons.mp hitems
  rw [admitWithin_append] at hrejected ⊢
  generalize hrest : (admitWithin cost budget before).remaining = rest at hrejected ⊢
  by_cases hfits : cost item ≤ rest
  · rw [admitWithin_cons_of_fits hfits] at hrejected
    exact absurd (List.mem_append_right _ List.mem_cons_self) hrejected
  · have hexceeds := not_le.mp hfits
    rw [admitWithin_cons_of_exceeds hexceeds]
    have hlater := accepted_sublist cost rest after
    have hsame : (after.filter (· ∈ (admitWithin cost budget before).accepted ++
        (admitWithin cost rest after).accepted)).Perm (admitWithin cost rest after).accepted := by
      apply (List.perm_ext_iff_of_nodup (hafter.filter _) (hlater.nodup hafter)).mpr
      intro other
      rw [List.mem_filter, decide_eq_true_eq, List.mem_append]
      constructor
      · rintro ⟨hother, hfirst | hsecond⟩
        · exact absurd rfl
            (hapart other (hbefore.subset hfirst) other (List.mem_cons_of_mem _ hother))
        · exact hsecond
      · exact fun hsecond => ⟨hlater.subset hsecond, .inr hsecond⟩
    rw [(hsame.map cost).sum_eq, remaining_add_sum]
    exact hexceeds

end Group

section Ordered

variable {α K : Type*} [AddCommGroup K] [LinearOrder K] [IsOrderedAddMonoid K]
  {cost : α → K} {budget : K} {item : α} {items before after : List α}

theorem remaining_nonneg (hbudget : 0 ≤ budget) :
    0 ≤ (admitWithin cost budget items).remaining := by
  induction items generalizing budget with
  | nil => exact hbudget
  | cons item rest ih =>
    by_cases hfits : cost item ≤ budget
    · rw [admitWithin_cons_of_fits hfits]
      exact ih (sub_nonneg.mpr hfits)
    · rw [admitWithin_cons_of_exceeds (not_le.mp hfits)]
      exact ih hbudget

/-- A budget of all the costs accepts everything. -/
theorem accepted_eq_self (hbudget : (items.map fun item => |cost item|).sum ≤ budget) :
    (admitWithin cost budget items).accepted = items := by
  induction items generalizing budget with
  | nil => rfl
  | cons item rest ih =>
    rw [List.map_cons, List.sum_cons] at hbudget
    have hrest : 0 ≤ (rest.map fun item => |cost item|).sum := by
      apply List.sum_nonneg
      intro size hsize
      obtain ⟨_, _, rfl⟩ := List.mem_map.mp hsize
      exact abs_nonneg _
    have hself : cost item ≤ |cost item| := le_abs_self _
    have hfits : cost item ≤ budget :=
      hself.trans ((le_add_of_nonneg_right hrest).trans hbudget)
    have hlater : (rest.map fun item => |cost item|).sum ≤ budget - cost item :=
      le_sub_iff_add_le'.mpr ((add_le_add_left hself _).trans hbudget)
    rw [admitWithin_cons_of_fits hfits, ih hlater]

omit [IsOrderedAddMonoid K] in
/-- Below zero nothing with a cost is accepted. -/
theorem accepted_eq_nil (hbudget : budget < 0) (hcost : ∀ item ∈ items, 0 ≤ cost item) :
    (admitWithin cost budget items).accepted = [] := by
  induction items with
  | nil => rfl
  | cons item rest ih =>
    have hexceeds : budget < cost item := hbudget.trans_le (hcost item List.mem_cons_self)
    rw [admitWithin_cons_of_exceeds hexceeds]
    exact ih fun item hitem => hcost item (List.mem_cons_of_mem _ hitem)

/-! ### Items without a cost -/

/-- Items without a cost are accepted and leave the decisions on the other ones alone. -/
theorem accepted_filter {costly : α → Bool} (hbudget : 0 ≤ budget)
    (hfree : ∀ item ∈ items, costly item = false → cost item = 0) :
    (admitWithin cost budget items).accepted.filter costly =
        (admitWithin cost budget (items.filter costly)).accepted ∧
      (admitWithin cost budget items).accepted.filter (!costly ·) = items.filter (!costly ·) := by
  induction items generalizing budget with
  | nil => exact ⟨rfl, rfl⟩
  | cons item rest ih =>
    have hrest : ∀ item ∈ rest, costly item = false → cost item = 0 :=
      fun item hitem => hfree item (List.mem_cons_of_mem _ hitem)
    cases hitem : costly item with
    | true =>
      rw [List.filter_cons_of_pos hitem, List.filter_cons_of_neg (by simp [hitem])]
      by_cases hfits : cost item ≤ budget
      · obtain ⟨hcostly, hothers⟩ := ih (sub_nonneg.mpr hfits) hrest
        rw [admitWithin_cons_of_fits hfits, admitWithin_cons_of_fits hfits]
        simp only [List.filter_cons, hitem, if_true, Bool.not_true, Bool.false_eq_true, if_false]
        exact ⟨by rw [hcostly], hothers⟩
      · have hexceeds := not_le.mp hfits
        rw [admitWithin_cons_of_exceeds hexceeds, admitWithin_cons_of_exceeds hexceeds]
        exact ih hbudget hrest
    | false =>
      have hzero : cost item = 0 := hfree item List.mem_cons_self hitem
      obtain ⟨hcostly, hothers⟩ := ih hbudget hrest
      rw [admitWithin_cons_of_fits (hzero.le.trans hbudget), hzero, sub_zero]
      simp only [List.filter_cons, hitem, if_true, Bool.not_false, Bool.false_eq_true, if_false]
      exact ⟨hcostly, by rw [hothers]⟩

/-! ### Two adjacent items -/

theorem remaining_of_sum {rest : K} (hrest : 0 ≤ rest) (hcost : ∀ item ∈ items, 0 ≤ cost item) :
    (admitWithin cost ((items.map cost).sum + rest) items).remaining = rest := by
  have habs : (items.map fun item => |cost item|) = items.map cost :=
    List.map_congr_left fun item hitem => abs_of_nonneg (hcost item hitem)
  have haccepted : (admitWithin cost ((items.map cost).sum + rest) items).accepted = items := by
    apply accepted_eq_self
    rw [habs]
    exact le_add_of_nonneg_right hrest
  have hsum := remaining_add_sum cost ((items.map cost).sum + rest) items
  rw [haccepted] at hsum
  exact add_right_cancel (hsum.trans (add_comm _ _))

variable (after) in
/-- Of two adjacent items with a cost, the larger one alone fits in a budget of its cost, and only
when it comes first. -/
theorem swap_decides {a b : α} (ha : 0 < cost a) (hab : cost a ≤ cost b)
    (hcost : ∀ item ∈ before, 0 ≤ cost item) :
    b ∈ (admitWithin cost ((before.map cost).sum + cost b) (before ++ a :: b :: after)).rejected ∧
      b ∈ (admitWithin cost ((before.map cost).sum + cost b)
        (before ++ b :: a :: after)).accepted := by
  have hb : 0 ≤ cost b := ha.le.trans hab
  have hexceeds : cost b - cost a < cost b := sub_lt_self _ ha
  constructor
  · rw [admitWithin_append, remaining_of_sum hb hcost, admitWithin_cons_of_fits hab,
      admitWithin_cons_of_exceeds hexceeds]
    exact List.mem_append_right _ List.mem_cons_self
  · rw [admitWithin_append, remaining_of_sum hb hcost, admitWithin_cons_of_fits le_rfl]
    exact List.mem_append_right _ List.mem_cons_self

end Ordered
end OptionResearch.GreedyAdmission
