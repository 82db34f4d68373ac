import Mathlib.Data.List.Sort
import Mathlib.Order.Defs.LinearOrder

/-!
# Stable sorting by a key

`sortBy key items` sorts by a key in a linear order and keeps items of one key in their order. A
sorted list is determined by its items of each key, so that sorting commutes with filtering. Items
whose keys differ are sorted the same way from any order, and two adjacent items of one key come out
in the order in which they went in. The first `n` of the sorted items are those with fewer than `n`
items before them.
-/

namespace OptionResearch.StableSort

variable {α K : Type*} [LinearOrder K] {key : α → K} {items others : List α}

def sortBy (key : α → K) (items : List α) : List α :=
  items.insertionSort fun a b => key a ≤ key b

/-- Keys never decrease along the list. -/
def SortedBy (key : α → K) (items : List α) : Prop := items.Pairwise fun a b => key a ≤ key b

theorem sortBy_perm : (sortBy key items).Perm items := List.perm_insertionSort _ _

@[simp] theorem mem_sortBy {item : α} : item ∈ sortBy key items ↔ item ∈ items :=
  sortBy_perm.mem_iff

variable (key items) in
theorem sortBy_sorted : SortedBy key (sortBy key items) := by
  have : Std.Total fun a b : α => key a ≤ key b := ⟨fun _ _ => le_total _ _⟩
  have : IsTrans α fun a b => key a ≤ key b := ⟨fun _ _ _ => le_trans⟩
  exact List.pairwise_insertionSort _ _

/-- A sorted list stays as it is. -/
theorem sortBy_eq_self (h : SortedBy key items) : sortBy key items = items :=
  List.Pairwise.insertionSort_eq h

/-- The first of the sorted items ranks before none of them. -/
theorem head?_sortBy {first : α} (h : (sortBy key items).head? = some first) :
    first ∈ items ∧ ∀ item ∈ items, key first ≤ key item := by
  obtain ⟨rest, hsort⟩ := List.head?_eq_some_iff.mp h
  have hsorted := sortBy_sorted key items
  rw [hsort] at hsorted
  have hmem : ∀ item, item ∈ items ↔ item ∈ first :: rest := by
    intro item
    rw [← hsort, mem_sortBy]
  refine ⟨(hmem first).mpr List.mem_cons_self, fun item hitem => ?_⟩
  rcases List.mem_cons.mp ((hmem item).mp hitem) with rfl | hrest
  · exact le_rfl
  · exact (List.pairwise_cons.mp hsorted).1 item hrest

variable (items) in
/-- Items of one key keep their order. -/
theorem filter_key_sortBy (k : K) :
    (sortBy key items).filter (key · = k) = items.filter (key · = k) := by
  have : Std.Total fun a b : α => key a ≤ key b := ⟨fun _ _ => le_total _ _⟩
  have : IsTrans α fun a b => key a ≤ key b := ⟨fun _ _ _ => le_trans⟩
  have hsorted : SortedBy key (items.filter (key · = k)) := by
    apply List.pairwise_of_forall_mem_list
    intro a ha b hb
    have hka : key a = k := of_decide_eq_true (List.mem_filter.mp ha).2
    have hkb : key b = k := of_decide_eq_true (List.mem_filter.mp hb).2
    rw [hka, hkb]
  have hsub : (items.filter (key · = k)).Sublist (sortBy key items) :=
    List.sublist_insertionSort hsorted List.filter_sublist
  have hsub := hsub.filter (key · = k)
  rw [List.filter_filter] at hsub
  simp only [Bool.and_self] at hsub
  exact (hsub.eq_of_length (sortBy_perm.filter _).length_eq.symm).symm

theorem mem_iff_of_filter_key
    (hfilter : ∀ k, items.filter (key · = k) = others.filter (key · = k)) {item : α} :
    item ∈ items ↔ item ∈ others := by
  have hiff : item ∈ items.filter (key · = key item) ↔ item ∈ others.filter (key · = key item) := by
    rw [hfilter]
  simpa only [List.mem_filter, decide_true, and_true] using hiff

/-- A sorted list is determined by its items of each key. -/
theorem eq_of_filter_key (hitems : SortedBy key items) (hothers : SortedBy key others)
    (hfilter : ∀ k, items.filter (key · = k) = others.filter (key · = k)) : items = others := by
  induction items generalizing others with
  | nil =>
    cases others with
    | nil => rfl
    | cons b u =>
      exact absurd ((mem_iff_of_filter_key hfilter).mpr List.mem_cons_self) List.not_mem_nil
  | cons a t ih =>
    cases others with
    | nil => exact absurd ((mem_iff_of_filter_key hfilter).mp List.mem_cons_self) List.not_mem_nil
    | cons b u =>
      obtain ⟨hat, ht⟩ := List.pairwise_cons.mp hitems
      obtain ⟨hbu, hu⟩ := List.pairwise_cons.mp hothers
      have hab : key a ≤ key b := by
        rcases List.mem_cons.mp ((mem_iff_of_filter_key hfilter).mpr List.mem_cons_self)
          with rfl | hb
        · exact le_rfl
        · exact hat b hb
      have hba : key b ≤ key a := by
        rcases List.mem_cons.mp ((mem_iff_of_filter_key hfilter).mp List.mem_cons_self)
          with rfl | ha
        · exact le_rfl
        · exact hbu a ha
      have hkey : key a = key b := le_antisymm hab hba
      have hfirst := hfilter (key b)
      simp only [List.filter_cons, hkey, decide_true, if_true] at hfirst
      obtain rfl := (List.cons.inj hfirst).1
      have htail : ∀ k, t.filter (key · = k) = u.filter (key · = k) := by
        intro k
        have hk := hfilter k
        rw [List.filter_cons, List.filter_cons] at hk
        split_ifs at hk
        · exact (List.cons.inj hk).2
        · exact hk
      rw [ih ht hu htail]

/-- Filtering the sorted list is sorting the filtered one. -/
theorem filter_sortBy (p : α → Bool) :
    (sortBy key items).filter p = sortBy key (items.filter p) := by
  refine eq_of_filter_key ((sortBy_sorted key items).filter p) (sortBy_sorted key _) fun k => ?_
  rw [List.filter_comm, filter_key_sortBy, filter_key_sortBy, List.filter_comm]

/-- Sorting by a key of images is sorting the images. -/
theorem map_sortBy {β : Type*} (f : α → β) (key : β → K) (items : List α) :
    (sortBy (fun item => key (f item)) items).map f = sortBy key (items.map f) :=
  List.map_insertionSort _ _ f items fun _ _ _ _ => Iff.rfl

/-- Where keys differ, the order of the items does not matter. -/
theorem sortBy_eq_of_perm (hkey : ∀ a ∈ items, ∀ b ∈ items, key a = key b → a = b)
    (hperm : items.Perm others) : sortBy key items = sortBy key others := by
  have hsorted : (sortBy key items).Perm (sortBy key others) :=
    sortBy_perm.trans (hperm.trans sortBy_perm.symm)
  apply hsorted.eq_of_pairwise ?_ (sortBy_sorted key items) (sortBy_sorted key others)
  intro a b ha hb hab hba
  have hb : b ∈ items := hperm.mem_iff.mpr (mem_sortBy.mp hb)
  exact hkey a (mem_sortBy.mp ha) b hb (le_antisymm hab hba)

theorem eq_filter_append {p : α → Bool} (h : items.Pairwise fun a b => p b = true → p a = true) :
    items = items.filter p ++ items.filter (!p ·) := by
  induction items with
  | nil => rfl
  | cons a t ih =>
    obtain ⟨hat, ht⟩ := List.pairwise_cons.mp h
    by_cases hpa : p a = true
    · rw [List.filter_cons_of_pos hpa, List.filter_cons_of_neg (by simp [hpa]), List.cons_append,
        ← ih ht]
    · have hnone : t.filter p = [] := List.filter_eq_nil_iff.mpr fun b hb hpb => hpa (hat b hb hpb)
      rw [List.filter_cons_of_neg hpa, List.filter_cons_of_pos (by simp [hpa]), hnone,
        List.nil_append]
      have htail := ih ht
      rw [hnone, List.nil_append] at htail
      rw [← htail]

variable (items) in
/-- Items that rank before all others come first. -/
theorem sortBy_eq_append (p : α → Bool)
    (hp : ∀ a ∈ items, ∀ b ∈ items, p a = true → p b = false → key a < key b) :
    sortBy key items = sortBy key (items.filter p) ++ sortBy key (items.filter (!p ·)) := by
  rw [← filter_sortBy, ← filter_sortBy]
  apply eq_filter_append
  apply List.Pairwise.imp_of_mem ?_ (sortBy_sorted key items)
  intro a b ha hb hab hpb
  by_contra hpa
  have hlt := hp b (mem_sortBy.mp hb) a (mem_sortBy.mp ha) hpb (Bool.eq_false_iff.mpr hpa)
  exact absurd hab (not_le.mpr hlt)

/-- Items of one key, submitted before all others, come out as one block in their order, between the
items of smaller keys and the other ones. -/
theorem sortBy_append_tied {tied : List α} {k : K} (htied : ∀ a ∈ tied, key a = k) :
    sortBy key (tied ++ items) =
      sortBy key (items.filter fun a => key a < k) ++
        (tied ++ sortBy key (items.filter fun a => !decide (key a < k))) := by
  have hsplit := sortBy_eq_append items (fun a => decide (key a < k))
    fun a _ b _ ha hb =>
      (of_decide_eq_true ha).trans_le (not_lt.mp (of_decide_eq_false hb))
  have hbefore : ∀ a ∈ sortBy key (items.filter fun a => key a < k), key a < k := by
    intro a ha
    exact of_decide_eq_true (List.mem_filter.mp (mem_sortBy.mp ha)).2
  have hafter : ∀ a ∈ sortBy key (items.filter fun a => !decide (key a < k)), k ≤ key a := by
    intro a ha
    have hnot := (List.mem_filter.mp (mem_sortBy.mp ha)).2
    exact not_lt.mp (of_decide_eq_false ((Bool.not_eq_true' _).mp hnot))
  refine eq_of_filter_key (sortBy_sorted key _) ?_ fun k' => ?_
  · apply List.pairwise_append.mpr
    refine ⟨sortBy_sorted key _, List.pairwise_append.mpr ⟨?_, sortBy_sorted key _, ?_⟩, ?_⟩
    · apply List.pairwise_of_forall_mem_list
      intro a ha b hb
      rw [htied a ha, htied b hb]
    · intro a ha b hb
      rw [htied a ha]
      exact hafter b hb
    · intro a ha b hb
      rcases List.mem_append.mp hb with hb | hb
      · rw [htied b hb]
        exact (hbefore a ha).le
      · exact (hbefore a ha).le.trans (hafter b hb)
  · rw [filter_key_sortBy, List.filter_append, ← filter_key_sortBy items k', hsplit]
    simp only [List.filter_append]
    by_cases hk : k' = k
    · have hnone : (sortBy key (items.filter fun a => key a < k)).filter (key · = k') = [] := by
        apply List.filter_eq_nil_iff.mpr
        intro a ha hka
        exact (hbefore a ha).ne ((of_decide_eq_true hka).trans hk)
      rw [hnone, List.nil_append, List.nil_append]
    · have hnone : tied.filter (key · = k') = [] := by
        apply List.filter_eq_nil_iff.mpr
        intro a ha hka
        exact hk ((of_decide_eq_true hka).symm.trans (htied a ha))
      rw [hnone, List.nil_append, List.nil_append]

/-! ### The first `n` items -/

/-- Among the first `n` of a sorted list there is one of an item's key exactly where fewer than `n`
have smaller keys. -/
theorem exists_mem_take_iff {n : Nat} {item : α} (h : SortedBy key items) (hmem : item ∈ items) :
    (∃ first ∈ items.take n, key first = key item) ↔ items.countP (key · < key item) < n := by
  induction items generalizing n with
  | nil => exact absurd hmem List.not_mem_nil
  | cons first rest ih =>
    obtain ⟨hfirst, hrest⟩ := List.pairwise_cons.mp h
    cases n with
    | zero => simp
    | succ n =>
      rw [List.take_succ_cons]
      by_cases hlt : key first < key item
      · have hmem' : item ∈ rest := by
          rcases List.mem_cons.mp hmem with rfl | hmem
          · exact absurd hlt (lt_irrefl _)
          · exact hmem
        rw [List.countP_cons_of_pos (by simpa using hlt), Nat.succ_lt_succ_iff, ← ih hrest hmem']
        simp only [List.exists_mem_cons_iff, hlt.ne, false_or]
      · have heq : key first = key item := by
          apply le_antisymm ?_ (not_lt.mp hlt)
          rcases List.mem_cons.mp hmem with rfl | hmem
          · exact le_rfl
          · exact hfirst item hmem
        have hnone : (first :: rest).countP (key · < key item) = 0 := by
          rw [List.countP_eq_zero]
          intro other hother
          rcases List.mem_cons.mp hother with rfl | hother
          · simpa using heq.ge
          · simpa using heq.ge.trans (hfirst other hother)
        rw [hnone]
        exact iff_of_true ⟨first, List.mem_cons_self, heq⟩ (Nat.succ_pos n)

/-- Where no two keys are equal, keys increase along the sorted list. -/
theorem sortBy_strict (hkeys : (items.map key).Nodup) :
    (sortBy key items).Pairwise fun a b => key a < key b := by
  have hnodup : ((sortBy key items).map key).Nodup := (sortBy_perm.map key).nodup_iff.mpr hkeys
  have hne : (sortBy key items).Pairwise fun a b => key a ≠ key b := List.pairwise_map.mp hnodup
  exact hne.imp₂ (fun a b hab hle => lt_of_le_of_ne hle hab) (sortBy_sorted key items)

theorem mem_take_sortBy {n : Nat} (hkeys : (items.map key).Nodup) {item : α} :
    item ∈ (sortBy key items).take n ↔ item ∈ items ∧ items.countP (key · < key item) < n := by
  have hperm : items.countP (key · < key item) = (sortBy key items).countP (key · < key item) :=
    sortBy_perm.symm.countP_eq _
  rw [hperm]
  constructor
  · intro h
    have hmem := List.mem_of_mem_take h
    exact ⟨mem_sortBy.mp hmem,
      (exists_mem_take_iff (sortBy_sorted key items) hmem).mp ⟨item, h, rfl⟩⟩
  · rintro ⟨hmem, hcount⟩
    obtain ⟨first, hfirst, hkey⟩ :=
      (exists_mem_take_iff (sortBy_sorted key items) (mem_sortBy.mpr hmem)).mpr hcount
    have hitem := mem_sortBy.mp (List.mem_of_mem_take hfirst)
    exact List.inj_on_of_nodup_map hkeys hitem hmem hkey ▸ hfirst

/-- Among the first `n` items none is beaten by a later or by an omitted one exactly where whatever
beats an item with fewer than `n` before it has the smaller key. -/
theorem take_sortBy_unbeaten_iff {n : Nat} (hkeys : (items.map key).Nodup)
    {beats : α → α → Prop} (hirrefl : ∀ a, ¬ beats a a) :
    (((sortBy key items).take n).Pairwise (fun earlier later => ¬ beats later earlier) ∧
        ∀ omitted ∈ items, omitted ∉ (sortBy key items).take n →
          ∀ first ∈ (sortBy key items).take n, ¬ beats omitted first) ↔
      ∀ item ∈ items, ∀ other ∈ items, beats other item →
        items.countP (key · < key item) < n → key other < key item := by
  have hstrict : ((sortBy key items).take n).Pairwise fun a b => key a < key b :=
    (sortBy_strict hkeys).sublist (List.take_sublist _ _)
  constructor
  · rintro ⟨hlater, homitted⟩ item hitem other hother hbeats hcount
    have htaken : item ∈ (sortBy key items).take n := (mem_take_sortBy hkeys).mpr ⟨hitem, hcount⟩
    by_contra hnot
    by_cases hmem : other ∈ (sortBy key items).take n
    · have hall : ∀ a ∈ (sortBy key items).take n, ∀ b ∈ (sortBy key items).take n,
          key a < key b → ¬ beats b a := by
        apply List.Pairwise.forall_of_forall_of_flip
        · exact fun a _ hlt => absurd hlt (lt_irrefl _)
        · exact hlater.imp fun {a b} hnot (_ : key a < key b) => hnot
        · exact hstrict.imp fun hlt hgt => absurd hgt hlt.asymm
      rcases (not_lt.mp hnot).lt_or_eq with hlt | heq
      · exact hall item htaken other hmem hlt hbeats
      · obtain rfl := List.inj_on_of_nodup_map hkeys hitem hother heq
        exact hirrefl item hbeats
    · exact homitted other hother hmem item htaken hbeats
  · intro h
    constructor
    · apply hstrict.imp_of_mem
      intro earlier later hearlier hlater hlt hbeats
      obtain ⟨hitem, hcount⟩ := (mem_take_sortBy hkeys).mp hearlier
      have hother := ((mem_take_sortBy hkeys).mp hlater).1
      exact hlt.asymm (h earlier hitem later hother hbeats hcount)
    · intro omitted hmem hnot first hfirst hbeats
      obtain ⟨hitem, hcount⟩ := (mem_take_sortBy hkeys).mp hfirst
      have hlt := h first hitem omitted hmem hbeats hcount
      apply hnot
      refine (mem_take_sortBy hkeys).mpr ⟨hmem, lt_of_le_of_lt ?_ hcount⟩
      exact List.countP_mono_left fun other _ hother => by
        simpa using (of_decide_eq_true hother).trans hlt

end OptionResearch.StableSort
