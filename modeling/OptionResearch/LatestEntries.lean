import OptionResearch.InsertionDict

/-!
# The latest entries of a list

Of the items of a list, the latest are those whose key no later item has. A dictionary made of
entries holds the latest of them, in an order of its own.
-/

namespace OptionResearch

variable {α κ β : Type*} [DecidableEq κ]

/-- The items whose key no later item has. -/
def latestBy (keyOf : α → κ) : List α → List α
  | [] => []
  | item :: rest =>
    if keyOf item ∈ rest.map keyOf then latestBy keyOf rest else item :: latestBy keyOf rest

section LatestBy

variable {keyOf : α → κ} {items : List α} {key : κ}

theorem latestBy_sublist : (latestBy keyOf items).Sublist items := by
  induction items with
  | nil => exact .slnil
  | cons item rest ih =>
    rw [latestBy]
    split_ifs
    · exact ih.cons _
    · exact ih.cons_cons _

theorem mem_keys_latestBy : key ∈ (latestBy keyOf items).map keyOf ↔ key ∈ items.map keyOf := by
  induction items with
  | nil => exact Iff.rfl
  | cons item rest ih =>
    rw [latestBy]
    split_ifs with hlater
    · rw [ih, List.map_cons, List.mem_cons]
      exact (or_iff_right_of_imp fun h => h ▸ hlater).symm
    · rw [List.map_cons, List.map_cons, List.mem_cons, List.mem_cons, ih]

theorem nodup_keys_latestBy (keyOf : α → κ) (items : List α) :
    ((latestBy keyOf items).map keyOf).Nodup := by
  induction items with
  | nil => exact List.nodup_nil
  | cons item rest ih =>
    rw [latestBy]
    split_ifs with hlater
    · exact ih
    · rw [List.map_cons, List.nodup_cons, mem_keys_latestBy]
      exact ⟨hlater, ih⟩

theorem latestBy_eq_self (h : (items.map keyOf).Nodup) : latestBy keyOf items = items := by
  induction items with
  | nil => rfl
  | cons item rest ih =>
    obtain ⟨hfresh, hrest⟩ := List.nodup_cons.mp h
    rw [latestBy, if_neg hfresh, ih hrest]

theorem exists_latestBy (keyOf : α → κ) {item : α} (h : item ∈ items) :
    ∃ last ∈ latestBy keyOf items, keyOf last = keyOf item :=
  List.mem_map.mp (mem_keys_latestBy.mpr (List.mem_map_of_mem h))

/-- Of the entries that items make, the latest are those of the latest items. -/
theorem latestBy_map (keyOf : α → κ) (value : α → β) (items : List α) :
    latestBy Prod.fst (items.map fun item => (keyOf item, value item)) =
      (latestBy keyOf items).map fun item => (keyOf item, value item) := by
  induction items with
  | nil => rfl
  | cons item rest ih =>
    rw [List.map_cons, latestBy, List.map_map, latestBy, ih]
    change (if keyOf item ∈ rest.map keyOf then _ else _) = _
    split_ifs <;> rfl

end LatestBy

namespace InsertionDict

variable {entries : List (κ × β)} {key : κ} {value : β}

theorem get?_ofEntries_iff (entries : List (κ × β)) :
    (ofEntries entries).get? key = some value ↔ (key, value) ∈ latestBy Prod.fst entries := by
  suffices hfold : ∀ dict : InsertionDict κ β,
      (entries.foldl (fun dict entry => dict.set entry.1 entry.2) dict).get? key = some value ↔
        (key, value) ∈ latestBy Prod.fst entries ∨
          key ∉ entries.map Prod.fst ∧ dict.get? key = some value by
    rw [ofEntries, hfold, get?_empty]
    simp
  induction entries with
  | nil => simp [latestBy]
  | cons entry rest ih =>
    intro dict
    rw [List.foldl_cons, ih, get?_set, latestBy, List.map_cons, List.mem_cons, not_or]
    by_cases hkey : key = entry.1
    · subst hkey
      rw [if_pos rfl]
      by_cases hlater : entry.1 ∈ rest.map Prod.fst
      · simp [hlater]
      · have hnone : (entry.1, value) ∉ latestBy Prod.fst rest := fun hmem =>
          hlater (mem_keys_latestBy.mp (List.mem_map.mpr ⟨_, hmem, rfl⟩))
        rw [if_neg hlater, List.mem_cons]
        simp [hlater, hnone, Prod.ext_iff, eq_comm]
    · rw [if_neg hkey]
      have hne : (key, value) ≠ entry := fun h => hkey (congrArg Prod.fst h)
      split_ifs
      · simp [hkey]
      · simp [hkey, hne]

/-- The values of the dictionary are those of the latest entries. -/
theorem entries_ofEntries_perm (entries : List (κ × β)) :
    (ofEntries entries).entries.Perm (latestBy Prod.fst entries) := by
  have hleft : (ofEntries entries).entries.Nodup :=
    List.Nodup.of_map Prod.fst (ofEntries entries).nodup_keys
  have hright : (latestBy Prod.fst entries).Nodup :=
    List.Nodup.of_map Prod.fst (nodup_keys_latestBy Prod.fst entries)
  refine (List.perm_ext_iff_of_nodup hleft hright).mpr fun entry => ?_
  obtain ⟨key, value⟩ := entry
  rw [← get?_eq_some_iff, get?_ofEntries_iff]

end InsertionDict
end OptionResearch
