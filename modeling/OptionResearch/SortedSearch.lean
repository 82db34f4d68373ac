import Mathlib.Data.List.Basic
import Mathlib.Order.Lattice

/-!
# Search in sorted lists

`bisectLeft items x` is where `x` would be inserted before its equals: the items before it are
smaller than `x` and the others are not, in a list in increasing order. Along a list whose keys
increase, the first item with a property is the one of least key, and the last one of a scan that
stops at the first item without it is the one of greatest key, if nothing that has the property
comes after something that has not.
-/

namespace OptionResearch.SortedSearch

variable {α : Type*} [LinearOrder α]

/-- Halving the window from `lo` to `hi`, `fuel` times at most. -/
def bisectFrom (items : List α) (x : α) : ℕ → ℕ → ℕ → ℕ
  | 0, lo, _ => lo
  | fuel + 1, lo, hi =>
    if lo < hi then
      if items[(lo + hi) / 2]?.any (· < x) then bisectFrom items x fuel ((lo + hi) / 2 + 1) hi
      else bisectFrom items x fuel lo ((lo + hi) / 2)
    else lo

def bisectLeft (items : List α) (x : α) : ℕ := bisectFrom items x items.length 0 items.length

variable {items : List α} {x : α}

theorem getElem_mono (hsorted : items.Pairwise (· ≤ ·)) {i j : ℕ} (hi : i < items.length)
    (hj : j < items.length) (h : i ≤ j) : items[i] ≤ items[j] := by
  rcases Nat.lt_or_eq_of_le h with hlt | rfl
  · exact List.pairwise_iff_getElem.mp hsorted i j hi hj hlt
  · exact le_rfl

/-- The items before the window are smaller, and those after it are not. -/
structure Window (items : List α) (x : α) (lo hi : ℕ) : Prop where
  le : lo ≤ hi
  hi_le : hi ≤ items.length
  before : ∀ i (h : i < items.length), i < lo → items[i] < x
  after : ∀ i (h : i < items.length), hi ≤ i → x ≤ items[i]

theorem bisectFrom_spec (hsorted : items.Pairwise (· ≤ ·)) {fuel lo hi : ℕ}
    (hfuel : hi - lo ≤ fuel) (h : Window items x lo hi) :
    Window items x (bisectFrom items x fuel lo hi) (bisectFrom items x fuel lo hi) := by
  induction fuel generalizing lo hi with
  | zero =>
      have hle := h.le
      obtain rfl : lo = hi := by omega
      exact h
  | succ fuel ih =>
      rw [bisectFrom]
      by_cases hopen : lo < hi
      · rw [if_pos hopen]
        have hhi := h.hi_le
        have hmid : (lo + hi) / 2 < items.length := by omega
        rw [List.getElem?_eq_getElem hmid, Option.any_some]
        by_cases hless : items[(lo + hi) / 2] < x
        · rw [if_pos (decide_eq_true hless)]
          refine ih (by omega) ⟨by omega, h.hi_le, fun i hi' hbefore => ?_, h.after⟩
          exact lt_of_le_of_lt (getElem_mono hsorted hi' hmid (Nat.le_of_lt_succ hbefore)) hless
        · rw [if_neg (by rw [decide_eq_false hless]; exact Bool.false_ne_true)]
          refine ih (by omega) ⟨by omega, by omega, h.before, fun i hi' hafter => ?_⟩
          exact le_trans (not_lt.mp hless) (getElem_mono hsorted hmid hi' hafter)
      · rw [if_neg hopen]
        have hle := h.le
        obtain rfl : lo = hi := by omega
        exact h

/-- The search splits a sorted list into the smaller items and the others. -/
theorem bisectLeft_spec (hsorted : items.Pairwise (· ≤ ·)) :
    Window items x (bisectLeft items x) (bisectLeft items x) :=
  bisectFrom_spec hsorted (Nat.sub_le _ _) ⟨Nat.zero_le _, Nat.le_refl _,
    fun _ _ h => absurd h (Nat.not_lt_zero _), fun _ h hle => absurd h (Nat.not_lt.mpr hle)⟩

/-- It is the position between a smaller item and one that is not. -/
theorem bisectLeft_eq (hsorted : items.Pairwise (· ≤ ·)) {i : ℕ} (hi : i ≤ items.length)
    (hbefore : ∀ j (h : j < items.length), j < i → items[j] < x)
    (hafter : ∀ j (h : j < items.length), i ≤ j → x ≤ items[j]) : bisectLeft items x = i := by
  have hwindow := bisectLeft_spec (x := x) hsorted
  have hle := hwindow.hi_le
  rcases Nat.lt_trichotomy (bisectLeft items x) i with hlt | heq | hgt
  · have hlen : bisectLeft items x < items.length := by omega
    exact absurd (hbefore _ hlen hlt) (not_lt.mpr (hwindow.after _ hlen (Nat.le_refl _)))
  · exact heq
  · have hlen : i < items.length := by omega
    exact absurd (hwindow.before _ hlen hgt) (not_lt.mpr (hafter _ hlen (Nat.le_refl _)))

end OptionResearch.SortedSearch

namespace OptionResearch.SortedScans

variable {α K : Type*} [LinearOrder K] {key : α → K} {items : List α} {p : α → Bool} {item : α}

/-- Keys increase along the list. -/
def Increasing (key : α → K) (items : List α) : Prop := items.Pairwise fun a b => key a < key b

/-- The item with the property that has the least key. -/
def Least (key : α → K) (p : α → Bool) (items : List α) (item : α) : Prop :=
  item ∈ items ∧ p item = true ∧ ∀ other ∈ items, p other = true → key item ≤ key other

/-- The item with the property that has the greatest key. -/
def Greatest (key : α → K) (p : α → Bool) (items : List α) (item : α) : Prop :=
  item ∈ items ∧ p item = true ∧ ∀ other ∈ items, p other = true → key other ≤ key item

theorem find?_eq_some_iff (h : Increasing key items) :
    items.find? p = some item ↔ Least key p items item := by
  induction items with
  | nil => simp [Least]
  | cons first rest ih =>
    obtain ⟨hfirst, hrest⟩ := List.pairwise_cons.mp h
    rw [List.find?_cons]
    cases hp : p first with
    | true =>
      constructor
      · intro hsome
        obtain rfl := Option.some.inj hsome
        refine ⟨List.mem_cons_self, hp, fun other hother _ => ?_⟩
        rcases List.mem_cons.mp hother with rfl | hother
        · exact le_rfl
        · exact le_of_lt (hfirst other hother)
      · rintro ⟨hmem, -, hleast⟩
        rcases List.mem_cons.mp hmem with rfl | hmem
        · rfl
        · exact absurd (hleast first List.mem_cons_self hp) (not_le.mpr (hfirst item hmem))
    | false =>
      change rest.find? p = some item ↔ _
      rw [ih hrest]
      constructor
      · rintro ⟨hmem, hitem, hleast⟩
        refine ⟨List.mem_cons_of_mem _ hmem, hitem, fun other hother hpo => ?_⟩
        rcases List.mem_cons.mp hother with rfl | hother
        · exact absurd hp (by rw [hpo]; decide)
        · exact hleast other hother hpo
      · rintro ⟨hmem, hitem, hleast⟩
        refine ⟨?_, hitem, fun other hother => hleast other (List.mem_cons_of_mem _ hother)⟩
        rcases List.mem_cons.mp hmem with rfl | hmem
        · exact absurd hp (by rw [hitem]; decide)
        · exact hmem

/-- A scan that stops too late for nothing sees all items with the property. -/
theorem takeWhile_eq_filter (h : items.Pairwise fun a b => p b = true → p a = true) :
    items.takeWhile p = items.filter p := by
  induction items with
  | nil => rfl
  | cons first rest ih =>
    obtain ⟨hfirst, hrest⟩ := List.pairwise_cons.mp h
    cases hp : p first with
    | true => rw [List.takeWhile_cons_of_pos hp, List.filter_cons_of_pos hp, ih hrest]
    | false =>
      have hnone : rest.filter p = [] := by
        rw [List.filter_eq_nil_iff]
        intro other hother hpo
        exact absurd (hfirst other hother hpo) (by rw [hp]; decide)
      have hnot : ¬ p first = true := by
        rw [hp]
        decide
      rw [List.takeWhile_cons_of_neg hnot, List.filter_cons_of_neg hnot, hnone]

/-- The last item with the property is the first one of the reversed list. -/
theorem getLast?_filter_eq_some_iff (h : Increasing key items) :
    (items.filter p).getLast? = some item ↔ Greatest key p items item := by
  have hscan : (items.filter p).getLast? = items.reverse.find? p := by
    rw [List.getLast?_eq_head?_reverse, ← List.filter_reverse, List.head?_filter]
  have hreverse : Increasing (fun item => OrderDual.toDual (key item)) items.reverse :=
    List.pairwise_reverse.mpr h
  rw [hscan, find?_eq_some_iff hreverse, Least, Greatest]
  simp only [List.mem_reverse, OrderDual.toDual_le_toDual]

end OptionResearch.SortedScans
