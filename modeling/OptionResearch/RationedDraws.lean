import Mathlib.Algebra.BigOperators.Group.List.Basic
import Mathlib.Algebra.Order.Group.Defs
import Mathlib.Algebra.Order.Group.Basic
import Mathlib.Algebra.Order.Group.MinMax
import Mathlib.Tactic.Abel

/-!
# Draws from a budget

Items in order draw what they want from a budget, the last one no more than what is left. A want
that is not positive draws nothing. Together they draw the lesser of the budget and the positive
wants, in whatever order they come, and none but the last draws less than it wants.
-/

namespace OptionResearch.RationedDraws

structure Draw (α K : Type*) where
  item : α
  amount : K

variable {α K : Type*} [AddCommGroup K]

/-- What is drawn. -/
def drawn (taken : List (Draw α K)) : K := (taken.map (·.amount)).sum

@[simp] theorem drawn_nil : drawn ([] : List (Draw α K)) = 0 := rfl

@[simp] theorem drawn_cons {draw : Draw α K} {taken : List (Draw α K)} :
    drawn (draw :: taken) = draw.amount + drawn taken := by
  rw [drawn, List.map_cons, List.sum_cons]
  rfl

/-- What is left after each of some amounts. -/
def remainders : K → List K → List K
  | _, [] => []
  | left, amount :: rest => (left - amount) :: remainders (left - amount) rest

theorem remainders_append (left : K) (amounts more : List K) :
    remainders left (amounts ++ more) =
      remainders left amounts ++ remainders (left - amounts.sum) more := by
  induction amounts generalizing left with
  | nil => rw [List.nil_append, List.sum_nil, sub_zero, remainders, List.nil_append]
  | cons amount rest ih =>
    rw [List.cons_append, remainders, remainders, ih, List.sum_cons, sub_sub, List.cons_append]

theorem length_remainders (left : K) (amounts : List K) :
    (remainders left amounts).length = amounts.length := by
  induction amounts generalizing left with
  | nil => rfl
  | cons amount rest ih => rw [remainders, List.length_cons, ih, List.length_cons]

/-- What is left decreases with every amount. -/
theorem remainders_decreasing [LinearOrder K] [IsOrderedAddMonoid K] (left : K) {amounts : List K}
    (h : ∀ amount ∈ amounts, 0 < amount) : (left :: remainders left amounts).Pairwise (· > ·) := by
  induction amounts generalizing left with
  | nil => exact List.pairwise_singleton _ _
  | cons amount rest ih =>
    obtain ⟨hamount, hrest⟩ := List.forall_mem_cons.mp h
    have hlater := ih (left - amount) hrest
    rw [remainders]
    refine List.pairwise_cons.mpr ⟨fun later hmem => ?_, hlater⟩
    have hlt : left - amount < left := sub_lt_self _ hamount
    rcases List.mem_cons.mp hmem with rfl | hmem
    · exact hlt
    · exact ((List.pairwise_cons.mp hlater).1 later hmem).trans hlt

variable [LinearOrder K]

def draws (want : α → K) : K → List α → List (Draw α K)
  | _, [] => []
  | left, item :: rest =>
    if 0 < min (want item) left then
      ⟨item, min (want item) left⟩ :: draws want (left - min (want item) left) rest
    else draws want left rest

/-- What all items want. -/
def wanted (want : α → K) (items : List α) : K := (items.map fun item => max 0 (want item)).sum

variable {want : α → K} {budget left : K} {item : α} {items before after : List α}

@[simp] theorem wanted_nil : wanted want [] = 0 := rfl

@[simp] theorem wanted_cons :
    wanted want (item :: items) = max 0 (want item) + wanted want items := by
  rw [wanted, List.map_cons, List.sum_cons]
  rfl

theorem wanted_perm (h : before.Perm after) : wanted want before = wanted want after :=
  (h.map _).sum_eq

/-! ### One item -/

theorem draws_cons_of_pos (hwant : 0 < want item) (hleft : 0 < left) :
    draws want left (item :: items) =
      ⟨item, min (want item) left⟩ :: draws want (left - min (want item) left) items := by
  rw [draws, if_pos (lt_min hwant hleft)]

theorem draws_cons_of_unwanted (h : want item ≤ 0) :
    draws want left (item :: items) = draws want left items := by
  rw [draws, if_neg (not_lt.mpr ((min_le_left _ _).trans h))]

/-- Of nothing, nothing is drawn. -/
theorem draws_of_nonpos (h : left ≤ 0) : draws want left items = [] := by
  induction items with
  | nil => rfl
  | cons item rest ih => rw [draws, if_neg (not_lt.mpr ((min_le_right _ _).trans h)), ih]

theorem draws_filter_pos (want : α → K) (left : K) (items : List α) :
    draws want left (items.filter fun item => 0 < want item) = draws want left items := by
  induction items generalizing left with
  | nil => rfl
  | cons item rest ih =>
    rcases le_or_gt (want item) 0 with hwant | hwant
    · rw [draws_cons_of_unwanted hwant, List.filter_cons_of_neg (by simpa using hwant), ih]
    · rw [List.filter_cons_of_pos (by simpa using hwant), draws, draws, ih, ih]

/-- Those that draw are the first ones with a want. -/
theorem items_of_draws (want : α → K) (budget : K) (items : List α) :
    (draws want budget items).map (·.item) =
      (items.filter fun item => 0 < want item).take (draws want budget items).length := by
  induction items generalizing budget with
  | nil => rfl
  | cons item rest ih =>
    rcases le_or_gt (want item) 0 with hwant | hwant
    · rw [draws_cons_of_unwanted hwant, List.filter_cons_of_neg (by simpa using hwant), ih]
    · rw [List.filter_cons_of_pos (by simpa using hwant)]
      rcases le_or_gt budget 0 with hnone | hpos
      · rw [draws_of_nonpos hnone]
        rfl
      · rw [draws_cons_of_pos hwant hpos, List.map_cons, List.length_cons, List.take_succ_cons, ih]

/-- None but the last draws less than it wants. -/
theorem amount_eq_of_later {earlier later : List (Draw α K)} {draw next : Draw α K}
    (h : draws want budget items = earlier ++ draw :: next :: later) :
    draw.amount = want draw.item := by
  induction items generalizing budget earlier with
  | nil => exact absurd h (by simp [draws])
  | cons item rest ih =>
    rw [draws] at h
    split_ifs at h with hpos
    · cases earlier with
      | nil =>
        obtain ⟨rfl, hrest⟩ := List.cons.inj h
        rcases le_total (want item) budget with hfits | hshort
        · exact min_eq_left hfits
        · rw [min_eq_right hshort, sub_self, draws_of_nonpos le_rfl] at hrest
          exact nomatch hrest
      | cons first earlier => exact ih (List.cons.inj h).2
    · exact ih h

/-! ### What is drawn -/

variable [IsOrderedAddMonoid K]

theorem wanted_nonneg : 0 ≤ wanted want items := by
  induction items with
  | nil => exact le_rfl
  | cons item rest ih =>
    rw [wanted_cons]
    exact add_nonneg (le_max_left _ _) ih

/-- Together the items draw the lesser of the budget and what they want. -/
theorem drawn_eq (hbudget : 0 ≤ budget) :
    drawn (draws want budget items) = min budget (wanted want items) := by
  induction items generalizing budget with
  | nil => rw [draws, drawn_nil, wanted_nil, min_eq_right hbudget]
  | cons item rest ih =>
    rw [wanted_cons]
    rcases le_or_gt (want item) 0 with hwant | hwant
    · rw [draws_cons_of_unwanted hwant, ih hbudget, max_eq_left hwant, zero_add]
    · rw [max_eq_right hwant.le]
      rcases hbudget.eq_or_lt with rfl | hpos
      · rw [draws_of_nonpos le_rfl, drawn_nil,
          min_eq_left (add_nonneg hwant.le wanted_nonneg)]
      · rw [draws_cons_of_pos hwant hpos, drawn_cons]
        rcases le_total (want item) budget with hfits | hshort
        · rw [min_eq_left hfits, ih (sub_nonneg.mpr hfits), add_min, add_sub_cancel]
        · rw [min_eq_right hshort, sub_self, draws_of_nonpos le_rfl, drawn_nil, add_zero,
            min_eq_left (hshort.trans (le_add_of_nonneg_right wanted_nonneg))]

/-- The later items draw from what the earlier ones left. -/
theorem draws_append (hbudget : 0 ≤ budget) :
    draws want budget (before ++ after) =
      draws want budget before ++ draws want (max 0 (budget - wanted want before)) after := by
  induction before generalizing budget with
  | nil => rw [List.nil_append, wanted_nil, sub_zero, max_eq_right hbudget, draws, List.nil_append]
  | cons item rest ih =>
    rw [List.cons_append, wanted_cons]
    rcases le_or_gt (want item) 0 with hwant | hwant
    · rw [draws_cons_of_unwanted hwant, draws_cons_of_unwanted hwant, ih hbudget,
        max_eq_left hwant, zero_add]
    · rw [max_eq_right hwant.le]
      rcases hbudget.eq_or_lt with rfl | hpos
      · have hnone : 0 - (want item + wanted want rest) ≤ 0 :=
          sub_nonpos.mpr (add_nonneg hwant.le wanted_nonneg)
        rw [draws_of_nonpos le_rfl, draws_of_nonpos le_rfl, max_eq_left hnone,
          draws_of_nonpos le_rfl, List.append_nil]
      · rw [draws_cons_of_pos hwant hpos, draws_cons_of_pos hwant hpos, List.cons_append]
        rcases le_total (want item) budget with hfits | hshort
        · rw [min_eq_left hfits, ih (sub_nonneg.mpr hfits), sub_sub]
        · have hnone : budget - (want item + wanted want rest) ≤ 0 :=
            sub_nonpos.mpr (hshort.trans (le_add_of_nonneg_right wanted_nonneg))
          rw [min_eq_right hshort, sub_self, draws_of_nonpos le_rfl, draws_of_nonpos le_rfl,
            max_eq_left hnone, draws_of_nonpos le_rfl, List.append_nil]

/-- A draw is positive and within its want. -/
theorem amount_bounds {draw : Draw α K} (h : draw ∈ draws want budget items) :
    0 < draw.amount ∧ draw.amount ≤ want draw.item ∧ draw.amount ≤ budget := by
  induction items generalizing budget with
  | nil => exact absurd h List.not_mem_nil
  | cons item rest ih =>
    rw [draws] at h
    split_ifs at h with hpos
    · rcases List.mem_cons.mp h with rfl | h
      · exact ⟨hpos, min_le_left _ _, min_le_right _ _⟩
      · obtain ⟨hamount, hwant, hleft⟩ := ih h
        exact ⟨hamount, hwant, hleft.trans (sub_le_self _ hpos.le)⟩
    · exact ih h

/-- A draw is made while the items before it leave something, and takes what they leave. -/
theorem exists_split_of_draw (hbudget : 0 ≤ budget) {draw : Draw α K}
    (h : draw ∈ draws want budget items) :
    ∃ before after, items = before ++ draw.item :: after ∧ wanted want before < budget ∧
      draw.amount = min (want draw.item) (budget - wanted want before) := by
  induction items generalizing budget with
  | nil => exact absurd h List.not_mem_nil
  | cons item rest ih =>
    rcases hbudget.eq_or_lt with rfl | hleft
    · rw [draws_of_nonpos le_rfl] at h
      exact absurd h List.not_mem_nil
    rcases le_or_gt (want item) 0 with hwant | hwant
    · rw [draws_cons_of_unwanted hwant] at h
      obtain ⟨before, after, rfl, hbefore, hamount⟩ := ih hbudget h
      refine ⟨item :: before, after, rfl, ?_⟩
      rw [wanted_cons, max_eq_left hwant, zero_add]
      exact ⟨hbefore, hamount⟩
    · rw [draws_cons_of_pos hwant hleft] at h
      rcases List.mem_cons.mp h with rfl | h
      · exact ⟨[], rest, rfl, hleft, by rw [wanted_nil, sub_zero]⟩
      · obtain ⟨before, after, rfl, hbefore, hamount⟩ :=
          ih (sub_nonneg.mpr (min_le_right _ _)) h
        -- the item did not take the rest of the budget, or nothing could follow it
        have hfits : want item ≤ budget := by
          by_contra hshort
          rw [min_eq_right (not_le.mp hshort).le, sub_self] at hbefore
          exact absurd hbefore (not_lt.mpr wanted_nonneg)
        rw [min_eq_left hfits] at hbefore hamount
        refine ⟨item :: before, after, rfl, ?_, ?_⟩
        · rw [wanted_cons, max_eq_right hwant.le]
          exact lt_sub_iff_add_lt'.mp hbefore
        · rw [wanted_cons, max_eq_right hwant.le, ← sub_sub]
          exact hamount

/-- Which items draw less than they want can be told from what the items before them want. -/
theorem forall_short_iff (want : α → K) (items : List α) {P : α → Prop} (hbudget : 0 ≤ budget) :
    (∀ draw ∈ draws want budget items, draw.amount = want draw.item ∨ P draw.item) ↔
      ∀ before item after, items = before ++ item :: after → wanted want before < budget →
        budget < wanted want before + want item → P item := by
  constructor
  · rintro h before item after rfl hbefore hbeyond
    have hleft : 0 < budget - wanted want before := sub_pos.mpr hbefore
    have hwant : budget - wanted want before < want item := sub_lt_iff_lt_add'.mpr hbeyond
    have hdraw : (⟨item, budget - wanted want before⟩ : Draw α K) ∈
        draws want budget (before ++ item :: after) := by
      rw [draws_append hbudget, max_eq_right hleft.le,
        draws_cons_of_pos (hleft.trans hwant) hleft, min_eq_right hwant.le]
      exact List.mem_append_right _ List.mem_cons_self
    exact (h _ hdraw).resolve_left hwant.ne
  · intro h draw hdraw
    obtain ⟨before, after, hitems, hbefore, hamount⟩ := exists_split_of_draw hbudget hdraw
    rcases le_or_gt (want draw.item) (budget - wanted want before) with hfits | hshort
    · exact .inl (by rw [hamount, min_eq_left hfits])
    · exact .inr (h before draw.item after hitems hbefore (sub_lt_iff_lt_add'.mp hshort))

end OptionResearch.RationedDraws
