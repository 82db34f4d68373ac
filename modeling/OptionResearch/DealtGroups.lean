import Mathlib.Data.List.Infix
import Mathlib.Data.List.Range
import Mathlib.Data.List.Nodup

/-!
# Dealing items to groups, and choosing groups

Items are dealt to `n` groups in turn, and groups are chosen `k` at a time in the order of
`itertools.combinations`. The first `n` items open the groups, so that `k` groups can be chosen
without any item exactly where at least `k` of them are empty.
-/

namespace OptionResearch.DealtGroups

variable {α : Type*} {n k : ℕ} {items : List α}

/-- `itertools.combinations(items, k)`. -/
def combinations : ℕ → List α → List (List α)
  | 0, _ => [[]]
  | _ + 1, [] => []
  | k + 1, item :: rest => (combinations k rest).map (item :: ·) ++ combinations (k + 1) rest

theorem mem_combinations {choice : List α} :
    choice ∈ combinations k items ↔ choice.Sublist items ∧ choice.length = k := by
  induction items generalizing k choice with
  | nil =>
    cases k with
    | zero =>
      rw [combinations, List.mem_singleton, List.sublist_nil, List.length_eq_zero_iff, and_self]
    | succ k =>
      rw [combinations]
      refine iff_of_false List.not_mem_nil fun ⟨hsub, hlength⟩ => ?_
      rw [List.sublist_nil.mp hsub] at hlength
      cases hlength
  | cons item rest ih =>
    cases k with
    | zero =>
      rw [combinations, List.mem_singleton, List.length_eq_zero_iff]
      exact ⟨fun h => ⟨h ▸ List.nil_sublist _, h⟩, And.right⟩
    | succ k =>
      rw [combinations, List.mem_append, List.mem_map, ih]
      constructor
      · rintro (⟨tail, htail, rfl⟩ | ⟨hsub, hlength⟩)
        · obtain ⟨hsub, hlength⟩ := ih.mp htail
          exact ⟨hsub.cons_cons item, congrArg (· + 1) hlength⟩
        · exact ⟨hsub.cons item, hlength⟩
      · rintro ⟨hsub, hlength⟩
        cases hsub with
        | cons _ hsub => exact .inr ⟨hsub, hlength⟩
        | cons_cons _ hsub => exact .inl ⟨_, ih.mpr ⟨hsub, Nat.succ.inj hlength⟩, rfl⟩

/-- The first choice is that of the first items. -/
theorem head?_combinations (h : k ≤ items.length) :
    (combinations k items).head? = some (items.take k) := by
  induction items generalizing k with
  | nil =>
    obtain rfl := Nat.le_zero.mp h
    rfl
  | cons item rest ih =>
    cases k with
    | zero => rfl
    | succ k =>
      rw [combinations, List.head?_append, List.head?_map, ih (Nat.le_of_succ_le_succ h)]
      rfl

/-- `groups[index % n].append(item)` for every item in turn. -/
def deal (n : ℕ) (items : List α) : List (List α) :=
  items.zipIdx.foldl (fun groups entry => groups.modify (entry.2 % n) (· ++ [entry.1]))
    (List.replicate n [])

/-- The items that a group is dealt. -/
theorem getElem?_deal (items : List α) {g : ℕ} (hg : g < n) :
    (deal n items)[g]? =
      some ((items.zipIdx.filter fun entry => entry.2 % n = g).map Prod.fst) := by
  rw [deal]
  induction items.zipIdx using List.reverseRecOn with
  | nil => rw [List.foldl_nil, List.getElem?_replicate_of_lt hg]; rfl
  | append_singleton entries entry ih =>
    rw [List.foldl_append, List.foldl_cons, List.foldl_nil, List.getElem?_modify, ih,
      List.filter_append, List.map_append]
    by_cases h : entry.2 % n = g
    · simp only [h, if_true, List.filter_cons, decide_true, List.filter_nil, List.map_cons,
        List.map_nil]
      rfl
    · simp only [h, if_false, List.filter_cons, decide_false, List.filter_nil, List.map_nil,
        List.append_nil, Bool.false_eq_true]
      rfl

/-- The items of the chosen groups. -/
def itemsOf (groups : List (List α)) (choice : List ℕ) : List α :=
  choice.flatMap fun g => groups[g]?.getD []

theorem mem_itemsOf {choice : List ℕ} {item : α} (hchoice : ∀ g ∈ choice, g < n) :
    item ∈ itemsOf (deal n items) choice ↔
      ∃ i, items[i]? = some item ∧ i % n ∈ choice := by
  rw [itemsOf, List.mem_flatMap]
  constructor
  · rintro ⟨g, hg, hitem⟩
    rw [getElem?_deal items (hchoice g hg), Option.getD_some, List.mem_map] at hitem
    obtain ⟨⟨_, i⟩, hentry, rfl⟩ := hitem
    obtain ⟨hmem, hgroup⟩ := List.mem_filter.mp hentry
    rw [decide_eq_true_iff] at hgroup
    exact ⟨i, List.mk_mem_zipIdx_iff_getElem?.mp hmem, hgroup.symm ▸ hg⟩
  · rintro ⟨i, hitem, hgroup⟩
    refine ⟨i % n, hgroup, ?_⟩
    rw [getElem?_deal items (hchoice _ hgroup), Option.getD_some, List.mem_map]
    exact ⟨(item, i), List.mem_filter.mpr ⟨List.mk_mem_zipIdx_iff_getElem?.mpr hitem,
      decide_eq_true rfl⟩, rfl⟩

/-- A choice has an item exactly where it has one of the groups that the items reach. -/
theorem itemsOf_eq_nil_iff {choice : List ℕ} (hchoice : ∀ g ∈ choice, g < n) :
    itemsOf (deal n items) choice = [] ↔ ∀ g ∈ choice, items.length ≤ g := by
  rw [List.eq_nil_iff_forall_not_mem]
  constructor
  · intro h g hg
    by_contra hlt
    rw [not_le] at hlt
    refine h items[g] ((mem_itemsOf hchoice).mpr ⟨g, List.getElem?_eq_getElem hlt, ?_⟩)
    rwa [Nat.mod_eq_of_lt (hchoice g hg)]
  · intro h item hitem
    obtain ⟨i, hi, hgroup⟩ := (mem_itemsOf hchoice).mp hitem
    have hlt := (List.getElem?_eq_some_iff.mp hi).1
    exact absurd ((Nat.mod_le i n).trans_lt hlt) (not_lt.mpr (h _ hgroup))

/-- Every choice of `k` groups has an item exactly where fewer than `k` groups are empty. -/
theorem forall_itemsOf_ne_nil_iff (hk : 0 < k) (hkn : k ≤ n) :
    (∀ choice ∈ combinations k (List.range n), itemsOf (deal n items) choice ≠ []) ↔
      n < items.length + k := by
  constructor
  · intro h
    by_contra hempty
    -- the last `k` groups
    have hlast : (List.range n).drop (n - k) ∈ combinations k (List.range n) := by
      refine mem_combinations.mpr ⟨List.drop_sublist _ _, ?_⟩
      rw [List.length_drop, List.length_range]
      omega
    refine h _ hlast ((itemsOf_eq_nil_iff fun g hg => ?_).mpr fun g hg => ?_)
    · exact List.mem_range.mp (List.mem_of_mem_drop hg)
    · obtain ⟨j, _, rfl⟩ := List.mem_drop_iff_getElem.mp hg
      rw [List.getElem_range]
      omega
  · intro h choice hchoice hempty
    obtain ⟨hsub, hlength⟩ := mem_combinations.mp hchoice
    have hbelow : ∀ g ∈ choice, g < n := fun g hg => List.mem_range.mp (hsub.subset hg)
    have hreached := (itemsOf_eq_nil_iff hbelow).mp hempty
    have hsubset : choice ⊆ List.range' items.length (n - items.length) := by
      intro g hg
      have hle := hreached g hg
      have hlt := hbelow g hg
      exact List.mem_range'_1.mpr (by omega)
    have hcount := (List.nodup_range.sublist hsub).length_le_of_subset hsubset
    rw [hlength, List.length_range'] at hcount
    omega

end OptionResearch.DealtGroups
