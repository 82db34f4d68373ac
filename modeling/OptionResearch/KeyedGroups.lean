import Mathlib.Algebra.BigOperators.Group.List.Basic
import Mathlib.Data.List.Induction
import Mathlib.Data.List.Nodup
import OptionResearch.PartialEffects

/-!
# Grouping by key in order of first appearance

The dictionary `groups[key].append(item)` builds from a sequence of keyed items: one group for
each key, in the order in which the keys first appear, each holding the items of its key in their
own order. Every item is in one group. Where what is made of a group does not depend on the order of
its items, the order of all the items decides the order of the results at most.
-/

namespace OptionResearch.KeyedGroups

variable {κ α : Type} [DecidableEq κ]

/-- `groups.setdefault(key, []).append(item)`. -/
def addTo (key : κ) (item : α) : List (κ × List α) → List (κ × List α)
  | [] => [(key, [item])]
  | group :: rest =>
    if group.1 = key then (key, group.2 ++ [item]) :: rest else group :: addTo key item rest

/-- The dictionary built from all the items, in order. -/
def groups (items : List (κ × α)) : List (κ × List α) :=
  items.foldl (fun gs item => addTo item.1 item.2 gs) []

/-- The items of one key. -/
def itemsOf (key : κ) (items : List (κ × α)) : List α :=
  (items.filter fun item => decide (item.1 = key)).map Prod.snd

theorem itemsOf_concat (key : κ) (items : List (κ × α)) (item : κ × α) :
    itemsOf key (items ++ [item]) =
      if item.1 = key then itemsOf key items ++ [item.2] else itemsOf key items := by
  unfold itemsOf
  split_ifs with h <;> simp [h]

theorem mem_itemsOf {key : κ} {items : List (κ × α)} {a : α} :
    a ∈ itemsOf key items ↔ (key, a) ∈ items := by
  simp [itemsOf]

theorem groups_concat (items : List (κ × α)) (item : κ × α) :
    groups (items ++ [item]) = addTo item.1 item.2 (groups items) := by
  simp only [groups, List.foldl_append, List.foldl_cons, List.foldl_nil]

theorem keys_addTo (key : κ) (item : α) (gs : List (κ × List α)) :
    (addTo key item gs).map Prod.fst =
      if key ∈ gs.map Prod.fst then gs.map Prod.fst else gs.map Prod.fst ++ [key] := by
  induction gs with
  | nil => rfl
  | cons group rest ih =>
    unfold addTo
    by_cases h : group.1 = key
    · rw [if_pos h, if_pos (by simp [h])]
      simp [h]
    · rw [if_neg h, List.map_cons, ih]
      have hne : key ≠ group.1 := fun hk => h hk.symm
      simp only [List.map_cons, List.mem_cons, hne, false_or]
      split_ifs <;> rfl

theorem nodup_keys_addTo (key : κ) (item : α) {gs : List (κ × List α)}
    (h : (gs.map Prod.fst).Nodup) : ((addTo key item gs).map Prod.fst).Nodup := by
  rw [keys_addTo]
  split_ifs with hmem
  · exact h
  · exact List.Nodup.append h (List.nodup_singleton key) (by simpa using hmem)

/-- Adding an item extends the group of its key and leaves every other group alone. -/
theorem mem_addTo {key k : κ} {item : α} {rows : List α} {gs : List (κ × List α)}
    (h : (gs.map Prod.fst).Nodup) :
    (k, rows) ∈ addTo key item gs ↔
      if k = key then (∃ old, (key, old) ∈ gs ∧ rows = old ++ [item]) ∨
        key ∉ gs.map Prod.fst ∧ rows = [item]
      else (k, rows) ∈ gs := by
  induction gs with
  | nil =>
    by_cases hk : k = key <;> simp [addTo, hk]
  | cons group rest ih =>
    rcases group with ⟨g, old⟩
    rw [List.map_cons, List.nodup_cons] at h
    have ih := ih h.2
    unfold addTo
    by_cases hg : g = key
    · subst hg
      rw [if_pos rfl]
      by_cases hk : k = g
      · subst hk
        have hno : ∀ r, (k, r) ∉ rest := fun r hr => h.1 (List.mem_map.mpr ⟨_, hr, rfl⟩)
        simp [hno]
      · simp [hk]
    · rw [if_neg hg, List.mem_cons, ih]
      have hkg : key ≠ g := fun hk => hg hk.symm
      by_cases hk : k = key
      · subst hk
        simp [hkg]
      · simp [hk]

/-- The keys are distinct, and each group holds the items of its key. -/
theorem groups_spec (items : List (κ × α)) :
    ((groups items).map Prod.fst).Nodup ∧
      ∀ k rows, (k, rows) ∈ groups items ↔ rows ≠ [] ∧ rows = itemsOf k items := by
  induction items using List.reverseRecOn with
  | nil => exact ⟨List.nodup_nil, fun k rows => by simp [groups, itemsOf]⟩
  | append_singleton items item ih =>
    obtain ⟨hnodup, hmem⟩ := ih
    rw [groups_concat]
    refine ⟨nodup_keys_addTo _ _ hnodup, fun k rows => ?_⟩
    rw [mem_addTo hnodup, itemsOf_concat]
    have hkey : item.1 ∉ (groups items).map Prod.fst ↔ itemsOf item.1 items = [] := by
      rw [List.mem_map]
      constructor
      · intro hno
        by_contra hne
        exact hno ⟨(item.1, itemsOf item.1 items), (hmem _ _).mpr ⟨hne, rfl⟩, rfl⟩
      · rintro hnil ⟨⟨g, old⟩, hold, rfl⟩
        obtain ⟨hne, hold⟩ := (hmem _ _).mp hold
        exact hne (hold.trans hnil)
    by_cases hk : k = item.1
    · subst hk
      rw [if_pos rfl, if_pos rfl, hkey]
      constructor
      · rintro (⟨old, hold, rfl⟩ | ⟨hnil, rfl⟩)
        · rw [((hmem _ _).mp hold).2]
          exact ⟨by simp, rfl⟩
        · rw [hnil]
          exact ⟨by simp, rfl⟩
      · rintro ⟨_, rfl⟩
        by_cases hnil : itemsOf item.1 items = []
        · exact Or.inr ⟨hnil, by rw [hnil, List.nil_append]⟩
        · exact Or.inl ⟨_, (hmem _ _).mpr ⟨hnil, rfl⟩, rfl⟩
    · rw [if_neg hk, if_neg (fun h => hk h.symm), hmem]

theorem mem_groups {items : List (κ × α)} {k : κ} {rows : List α} :
    (k, rows) ∈ groups items ↔ rows ≠ [] ∧ rows = itemsOf k items := (groups_spec items).2 k rows

/-- A key has a group exactly when it has an item. -/
theorem exists_group_iff {items : List (κ × α)} {k : κ} :
    (∃ rows, (k, rows) ∈ groups items) ↔ ∃ a, (k, a) ∈ items := by
  constructor
  · rintro ⟨rows, h⟩
    obtain ⟨hne, rfl⟩ := mem_groups.mp h
    obtain ⟨a, ha⟩ := List.exists_mem_of_ne_nil _ hne
    exact ⟨a, mem_itemsOf.mp ha⟩
  · rintro ⟨a, ha⟩
    exact ⟨_, mem_groups.mpr ⟨List.ne_nil_of_mem (mem_itemsOf.mpr ha), rfl⟩⟩

theorem flatMap_addTo_perm (key : κ) (item : α) (gs : List (κ × List α)) :
    ((addTo key item gs).flatMap Prod.snd).Perm (gs.flatMap Prod.snd ++ [item]) := by
  induction gs with
  | nil => exact .refl _
  | cons group rest ih =>
    unfold addTo
    split_ifs
    · rw [List.flatMap_cons, List.flatMap_cons, List.append_assoc, List.append_assoc]
      exact List.perm_append_comm.append_left group.2
    · rw [List.flatMap_cons, List.flatMap_cons, List.append_assoc]
      exact ih.append_left group.2

/-- Every item is in one group, as often as it was submitted. -/
theorem flatMap_groups_perm (items : List (κ × α)) :
    ((groups items).flatMap Prod.snd).Perm (items.map Prod.snd) := by
  induction items using List.reverseRecOn with
  | nil => exact .refl _
  | append_singleton items item ih =>
    rw [groups_concat, List.map_append]
    exact (flatMap_addTo_perm _ _ _).trans (ih.append_right _)

theorem nodup_keys_groups (items : List (κ × α)) : ((groups items).map Prod.fst).Nodup :=
  (groups_spec items).1

theorem itemsOf_perm {items others : List (κ × α)} (hperm : items.Perm others) (key : κ) :
    (itemsOf key items).Perm (itemsOf key others) := (hperm.filter _).map _

theorem keys_groups_perm {items others : List (κ × α)} (hperm : items.Perm others) :
    ((groups items).map Prod.fst).Perm ((groups others).map Prod.fst) := by
  have hkeys : ∀ (items : List (κ × α)) (key : κ),
      key ∈ (groups items).map Prod.fst ↔ ∃ a, (key, a) ∈ items := by
    intro items key
    rw [← exists_group_iff]
    simp
  refine (List.perm_ext_iff_of_nodup (nodup_keys_groups _) (nodup_keys_groups _)).mpr fun key => ?_
  simp only [hkeys, hperm.mem_iff]

/-- What a traversal of the groups does is decided by the keys. -/
theorem mapM_groups {ε β : Type} (f : κ → List α → Except ε β) (items : List (κ × α)) :
    ((groups items).mapM fun group => f group.1 group.2) =
      ((groups items).map Prod.fst).mapM fun key => f key (itemsOf key items) := by
  rw [List.mapM_map]
  apply except_mapM_congr
  intro group hgroup
  rw [(mem_groups.mp hgroup).2]
  rfl

/-- Where a group's result does not depend on the order of its items, another order of all the items
gives the same results in another order. -/
theorem mapM_groups_perm {ε β : Type} {f : κ → List α → Except ε β} {items others : List (κ × α)}
    {results : List β} (hperm : items.Perm others)
    (hf : ∀ key rows, (itemsOf key items).Perm rows → f key (itemsOf key items) = f key rows)
    (h : ((groups items).mapM fun group => f group.1 group.2) = .ok results) :
    ∃ results', ((groups others).mapM fun group => f group.1 group.2) = .ok results' ∧
      results.Perm results' := by
  rw [mapM_groups] at h
  obtain ⟨results', hresults, hsame⟩ := mapM_eq_ok_perm (keys_groups_perm hperm) h
  refine ⟨results', ?_, hsame⟩
  rw [mapM_groups, ← hresults]
  apply except_mapM_congr
  intro key _
  exact (hf key _ (itemsOf_perm hperm key)).symm

/-- Where a group's result has the figure its items come to, the results come to what all the items
come to. -/
theorem sum_mapM_groups {ε β M : Type} [AddCommMonoid M] {f : κ → List α → Except ε β}
    {figure : β → M} {amount : α → M} {items : List (κ × α)} {results : List β}
    (h : ((groups items).mapM fun group => f group.1 group.2) = .ok results)
    (hfigure : ∀ key result, f key (itemsOf key items) = .ok result →
      figure result = ((itemsOf key items).map amount).sum) :
    (results.map figure).sum = ((items.map Prod.snd).map amount).sum := by
  rw [mapM_groups] at h
  have hresults := map_eq_of_mapM_eq_ok h hfigure
  have hgroups : ((groups items).map Prod.fst).map
      (fun key => ((itemsOf key items).map amount).sum) =
        (groups items).map fun group => (group.2.map amount).sum := by
    rw [List.map_map]
    apply List.map_congr_left
    intro group hgroup
    rw [(mem_groups.mp hgroup).2]
    rfl
  have hflat : ((groups items).map fun group => (group.2.map amount).sum).sum =
      (((groups items).flatMap Prod.snd).map amount).sum := by
    rw [List.flatMap_def, List.map_flatten, List.sum_flatten, List.map_map, List.map_map]
    rfl
  rw [hresults, hgroups, hflat]
  exact ((flatMap_groups_perm items).map amount).sum_eq

end OptionResearch.KeyedGroups
