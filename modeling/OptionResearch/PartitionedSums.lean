import OptionResearch.InsertionDict
import Mathlib.Algebra.BigOperators.Fin
import Mathlib.Algebra.BigOperators.Group.List.Basic
import Mathlib.Algebra.Order.BigOperators.Group.Finset
import Mathlib.Algebra.Order.Chebyshev

/-!
# Sums over the parts of a list

A dictionary that adds the amount of every item under the item's key has, under each key, what the
items of that key come to. The totals of the parts that a key divides a list into add up to the
total. Added up without their signs, they lie between the total without its sign and what the
squares of the amounts allow.
-/

namespace OptionResearch

section Totals

variable {α κ M : Type*} [DecidableEq κ] [AddCommMonoid M]

/-- What the items of a key come to. -/
def totalOf (keyOf : α → κ) (amount : α → M) (items : List α) (key : κ) : M :=
  ((items.filter fun item => keyOf item = key).map amount).sum

variable {keyOf : α → κ} {amount : α → M} {items : List α} {key : κ}

theorem totalOf_cons (item : α) : totalOf keyOf amount (item :: items) key =
    (if keyOf item = key then amount item else 0) + totalOf keyOf amount items key := by
  rw [totalOf, totalOf, List.filter_cons]
  by_cases hkey : keyOf item = key
  · rw [if_pos (decide_eq_true hkey), if_pos hkey, List.map_cons, List.sum_cons]
  · rw [if_neg (by simpa using hkey), if_neg hkey, zero_add]

theorem totalOf_eq_zero (h : key ∉ items.map keyOf) : totalOf keyOf amount items key = 0 := by
  have hnone : items.filter (fun item => keyOf item = key) = [] :=
    List.filter_eq_nil_iff.mpr fun item hitem hkey =>
      h (List.mem_map.mpr ⟨item, hitem, of_decide_eq_true hkey⟩)
  rw [totalOf, hnone, List.map_nil, List.sum_nil]

namespace InsertionDict

/-- `dict[key] = dict.get(key, 0) + amount`. -/
def addTo (dict : InsertionDict κ M) (key : κ) (amount : M) : InsertionDict κ M :=
  dict.set key ((dict.get? key).getD 0 + amount)

/-- The amounts of the items, added up under their keys. -/
def totalsBy (keyOf : α → κ) (amount : α → M) (items : List α) : InsertionDict κ M :=
  items.foldl (fun totals item => totals.addTo (keyOf item) (amount item)) empty

theorem get?_foldl_addTo (dict : InsertionDict κ M) :
    (items.foldl (fun totals item => totals.addTo (keyOf item) (amount item)) dict).get? key =
      if key ∈ items.map keyOf then some ((dict.get? key).getD 0 + totalOf keyOf amount items key)
      else dict.get? key := by
  induction items generalizing dict with
  | nil => rfl
  | cons item rest ih =>
    rw [List.foldl_cons, ih, addTo, get?_set, List.map_cons, totalOf_cons]
    by_cases hkey : key = keyOf item
    · subst hkey
      rw [if_pos rfl, if_pos rfl, if_pos List.mem_cons_self, Option.getD_some]
      split_ifs with hlater
      · rw [add_assoc]
      · rw [totalOf_eq_zero hlater, add_zero]
    · simp only [List.mem_cons, hkey, Ne.symm hkey, if_false, false_or, zero_add]

/-- A key that some item has is a key of the totals, with what its items come to. -/
theorem get?_totalsBy : (totalsBy keyOf amount items).get? key =
    if key ∈ items.map keyOf then some (totalOf keyOf amount items key) else none := by
  rw [totalsBy, get?_foldl_addTo, get?_empty, Option.getD_none, zero_add]

end InsertionDict

end Totals

section Given

variable {α M : Type*} (figure : α → Option M) (entries : List α)

/-- Figures that are missing add nothing. -/
theorem sum_filterMap [AddMonoid M] :
    (entries.filterMap figure).sum = (entries.map fun entry => (figure entry).getD 0).sum := by
  induction entries with
  | nil => rfl
  | cons entry rest ih =>
    rw [List.map_cons, List.sum_cons, ← ih]
    cases hfigure : figure entry with
    | none => rw [List.filterMap_cons_none hfigure, Option.getD_none, zero_add]
    | some value => rw [List.filterMap_cons_some hfigure, List.sum_cons, Option.getD_some]

theorem length_filterMap :
    (entries.filterMap figure).length =
      (entries.map fun entry => (figure entry).isSome.toNat).sum := by
  induction entries with
  | nil => rfl
  | cons entry rest ih =>
    rw [List.map_cons, List.sum_cons, ← ih]
    cases hfigure : figure entry with
    | none => rw [List.filterMap_cons_none hfigure, Option.isSome_none, Bool.toNat_false, zero_add]
    | some value =>
      rw [List.filterMap_cons_some hfigure, List.length_cons, Option.isSome_some, Bool.toNat_true,
        add_comm]

end Given

section Parts

variable {α κ : Type*} [DecidableEq κ] {keyOf : α → κ} {items : List α} {keys : Finset κ}

theorem sum_totalOf {M : Type*} [AddCommMonoid M] (amount : α → M)
    (hkeys : ∀ item ∈ items, keyOf item ∈ keys) :
    ∑ key ∈ keys, totalOf keyOf amount items key = (items.map amount).sum := by
  induction items with
  | nil =>
    refine Finset.sum_eq_zero fun key _ => ?_
    rw [totalOf, List.filter_nil, List.map_nil, List.sum_nil]
  | cons item rest ih =>
    simp only [totalOf_cons, Finset.sum_add_distrib]
    rw [Finset.sum_ite_eq, if_pos (hkeys item List.mem_cons_self),
      ih fun other hother => hkeys other (List.mem_cons_of_mem _ hother), List.map_cons,
      List.sum_cons]

/-- Amounts that are scaled by their key scale its total. -/
theorem totalOf_mul {K : Type*} [CommSemiring K] (scale : κ → K) (amount : α → K) (key : κ) :
    totalOf keyOf (fun item => scale (keyOf item) * amount item) items key =
      scale key * totalOf keyOf amount items key := by
  rw [totalOf, totalOf, ← List.sum_map_mul_left]
  refine congrArg List.sum (List.map_congr_left fun item hitem => ?_)
  rw [of_decide_eq_true (List.mem_filter.mp hitem).2]

variable {K : Type*} [Field K] [LinearOrder K] [IsStrictOrderedRing K] (amount : α → K)

theorem abs_sum_le_sum_totalOf (hkeys : ∀ item ∈ items, keyOf item ∈ keys) :
    |(items.map amount).sum| ≤ ∑ key ∈ keys, |totalOf keyOf amount items key| := by
  rw [← sum_totalOf amount hkeys]
  exact Finset.abs_sum_le_sum_abs _ _

theorem sq_sum_le_length_mul (values : List K) :
    values.sum ^ 2 ≤ values.length * (values.map (· ^ 2)).sum := by
  have hsquare : (∑ i : Fin values.length, values[i.1]) ^ 2 ≤
      (Finset.univ : Finset (Fin values.length)).card * ∑ i : Fin values.length, values[i.1] ^ 2 :=
    sq_sum_le_card_mul_sum_sq
  rwa [Fin.sum_univ_getElem, Finset.card_univ, Fintype.card_fin,
    Fin.sum_univ_fun_getElem values (· ^ 2)] at hsquare

/-- Signs that make every total positive do not change the squares. -/
theorem sq_sum_abs_totalOf_le (hkeys : ∀ item ∈ items, keyOf item ∈ keys) :
    (∑ key ∈ keys, |totalOf keyOf amount items key|) ^ 2 ≤
      items.length * (items.map fun item => amount item ^ 2).sum := by
  let sign : κ → K := fun key => if 0 ≤ totalOf keyOf amount items key then 1 else -1
  have hsign : ∀ key, sign key * totalOf keyOf amount items key =
      |totalOf keyOf amount items key| := by
    intro key
    simp only [sign]
    split_ifs with hnonneg
    · rw [one_mul, abs_of_nonneg hnonneg]
    · rw [neg_one_mul, abs_of_neg (not_le.mp hnonneg)]
  have hsquare : ∀ key, sign key ^ 2 = 1 := by
    intro key
    simp only [sign]
    split_ifs
    · exact one_pow 2
    · exact neg_one_sq
  have hsigned : ∑ key ∈ keys, |totalOf keyOf amount items key| =
      (items.map fun item => sign (keyOf item) * amount item).sum := by
    rw [← sum_totalOf _ hkeys]
    exact Finset.sum_congr rfl fun key _ => by rw [totalOf_mul, hsign]
  have hbound := sq_sum_le_length_mul (items.map fun item => sign (keyOf item) * amount item)
  rw [List.length_map, List.map_map] at hbound
  rw [hsigned]
  refine hbound.trans_eq (congrArg _ (congrArg List.sum (List.map_congr_left fun item _ => ?_)))
  rw [Function.comp_apply, mul_pow, hsquare, one_mul]

end Parts

end OptionResearch
