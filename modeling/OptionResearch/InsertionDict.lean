import Mathlib.Data.List.Basic
import Mathlib.Data.List.Nodup

/-!
# Dictionaries in insertion order

An assignment to a key that is present overwrites its value in place, any other one appends. No key
occurs twice. When the values carry their own keys, the values of one key are the one that the
dictionary holds for it.
-/

namespace OptionResearch

variable {κ β : Type*} [DecidableEq κ]

namespace Entries

def lookup (key : κ) : List (κ × β) → Option β
  | [] => none
  | entry :: rest => if entry.1 = key then some entry.2 else lookup key rest

def assign (key : κ) (value : β) : List (κ × β) → List (κ × β)
  | [] => [(key, value)]
  | entry :: rest => if entry.1 = key then (key, value) :: rest else entry :: assign key value rest

variable {key other : κ} {value : β} {entries : List (κ × β)}

theorem lookup_assign :
    lookup other (assign key value entries) =
      if other = key then some value else lookup other entries := by
  induction entries with
  | nil => simp only [assign, lookup, eq_comm]
  | cons entry rest ih =>
    by_cases hkey : entry.1 = key
    · rw [assign, if_pos hkey, lookup, lookup, hkey]
      by_cases hother : other = key
      · rw [if_pos hother.symm, if_pos hother]
      · rw [if_neg (Ne.symm hother), if_neg hother, if_neg (Ne.symm hother)]
    · rw [assign, if_neg hkey, lookup, lookup, ih]
      by_cases hentry : entry.1 = other
      · rw [if_pos hentry, if_pos hentry, if_neg (hentry ▸ hkey)]
      · rw [if_neg hentry, if_neg hentry]

theorem lookup_eq_none_iff : lookup key entries = none ↔ key ∉ entries.map Prod.fst := by
  induction entries with
  | nil => simp only [lookup, List.map_nil, List.not_mem_nil, not_false_eq_true]
  | cons entry rest ih =>
    rw [lookup, List.map_cons, List.mem_cons, not_or]
    by_cases hkey : entry.1 = key
    · rw [if_pos hkey]
      constructor
      · intro h
        cases h
      · exact fun h => absurd hkey.symm h.1
    · rw [if_neg hkey, ih]
      exact ⟨fun h => ⟨Ne.symm hkey, h⟩, fun h => h.2⟩

/-- Where keys differ, an entry is found by its key. -/
theorem lookup_eq_some_iff (h : (entries.map Prod.fst).Nodup) :
    lookup key entries = some value ↔ (key, value) ∈ entries := by
  induction entries with
  | nil => simp [lookup]
  | cons entry rest ih =>
    obtain ⟨hfresh, hrest⟩ := List.nodup_cons.mp h
    rw [lookup, List.mem_cons]
    by_cases hkey : entry.1 = key
    · have hnot : (key, value) ∉ rest := fun hmem => hfresh (hkey ▸ List.mem_map_of_mem hmem)
      rw [if_pos hkey, or_iff_left hnot, Option.some_inj, Prod.ext_iff]
      exact ⟨fun hvalue => ⟨hkey.symm, hvalue.symm⟩, fun heq => heq.2.symm⟩
    · have hentry : (key, value) ≠ entry := fun heq => hkey (congrArg Prod.fst heq).symm
      rw [if_neg hkey, ih hrest, or_iff_right hentry]

theorem lookup_filter_ne :
    lookup other (entries.filter fun entry => entry.1 ≠ key) =
      if other = key then none else lookup other entries := by
  induction entries with
  | nil => rw [List.filter_nil, lookup, ite_self]
  | cons entry rest ih =>
    by_cases hkey : entry.1 = key
    · rw [List.filter_cons_of_neg (by simpa using hkey), ih, lookup, hkey]
      by_cases hother : other = key
      · rw [if_pos hother, if_pos hother]
      · rw [if_neg hother, if_neg hother, if_neg (Ne.symm hother)]
    · rw [List.filter_cons_of_pos (by simpa using hkey), lookup, lookup, ih]
      by_cases hentry : entry.1 = other
      · rw [if_pos hentry, if_pos hentry, if_neg (hentry ▸ hkey)]
      · rw [if_neg hentry, if_neg hentry]

theorem lookup_map {γ : Type*} (f : β → γ) :
    lookup key (entries.map fun entry => (entry.1, f entry.2)) = (lookup key entries).map f := by
  induction entries with
  | nil => rfl
  | cons entry rest ih =>
    rw [List.map_cons, lookup, lookup, ih]
    split_ifs <;> rfl

theorem assign_of_not_mem (hkey : key ∉ entries.map Prod.fst) :
    assign key value entries = entries ++ [(key, value)] := by
  induction entries with
  | nil => rfl
  | cons entry rest ih =>
    rw [List.map_cons, List.mem_cons, not_or] at hkey
    rw [assign, if_neg (Ne.symm hkey.1), ih hkey.2, List.cons_append]

theorem keys_assign :
    (assign key value entries).map Prod.fst =
      if key ∈ entries.map Prod.fst then entries.map Prod.fst
      else entries.map Prod.fst ++ [key] := by
  induction entries with
  | nil => rfl
  | cons entry rest ih =>
    by_cases hkey : entry.1 = key
    · rw [assign, if_pos hkey, List.map_cons, List.map_cons, hkey,
        if_pos List.mem_cons_self]
    · rw [assign, if_neg hkey, List.map_cons, List.map_cons, ih]
      by_cases hmem : key ∈ rest.map Prod.fst
      · rw [if_pos hmem, if_pos (List.mem_cons_of_mem _ hmem)]
      · have hnot : key ∉ entry.1 :: rest.map Prod.fst :=
          List.not_mem_cons_of_ne_of_not_mem (Ne.symm hkey) hmem
        rw [if_neg hmem, if_neg hnot, List.cons_append]

theorem mem_assign {entry : κ × β} (h : entry ∈ assign key value entries) :
    entry = (key, value) ∨ entry ∈ entries := by
  induction entries with
  | nil => exact .inl (List.mem_singleton.mp h)
  | cons first rest ih =>
    by_cases hkey : first.1 = key
    · rw [assign, if_pos hkey] at h
      rcases List.mem_cons.mp h with rfl | hrest
      · exact .inl rfl
      · exact .inr (List.mem_cons_of_mem _ hrest)
    · rw [assign, if_neg hkey] at h
      rcases List.mem_cons.mp h with rfl | hrest
      · exact .inr List.mem_cons_self
      · rcases ih hrest with heq | hmem
        · exact .inl heq
        · exact .inr (List.mem_cons_of_mem _ hmem)

/-- Entries that are listed in an order of the keys are determined by their values. -/
theorem eq_filterMap_lookup {keys : List κ} (hkeys : keys.Nodup)
    (h : (entries.map Prod.fst).Sublist keys) :
    entries = keys.filterMap fun key => (lookup key entries).map (key, ·) := by
  induction keys generalizing entries with
  | nil => exact List.map_eq_nil_iff.mp (List.sublist_nil.mp h)
  | cons first rest ih =>
    obtain ⟨hfirst, hrest⟩ := List.nodup_cons.mp hkeys
    by_cases hmem : first ∈ entries.map Prod.fst
    · cases entries with
      | nil => exact absurd hmem List.not_mem_nil
      | cons entry others =>
        have hentry : entry.1 = first := by
          rcases List.mem_cons.mp hmem with heq | hmem
          · exact heq.symm
          · by_contra hne
            have hall := List.Sublist.of_cons_of_ne hne h
            exact hfirst (hall.subset (List.mem_cons_of_mem _ hmem))
        rw [List.map_cons, hentry] at h
        have hothers := List.cons_sublist_cons.mp h
        have hcongr : ∀ key ∈ rest, (lookup key (entry :: others)).map (key, ·) =
            (lookup key others).map (key, ·) := by
          intro key hkey
          have hne : entry.1 ≠ key := fun heq => hfirst (hentry ▸ heq.symm ▸ hkey)
          rw [lookup, if_neg hne]
        have hlookup : lookup first (entry :: others) = some entry.2 := by
          rw [lookup, if_pos hentry]
        rw [List.filterMap_cons, hlookup, List.filterMap_congr hcongr, ← ih hrest hothers, ← hentry]
        rfl
    · rw [List.filterMap_cons, lookup_eq_none_iff.mpr hmem]
      rcases List.sublist_cons_iff.mp h with hsub | ⟨others, hothers, -⟩
      · exact ih hrest hsub
      · exact absurd (hothers ▸ List.mem_cons_self) hmem

end Entries

/-- A `dict`. -/
structure InsertionDict (κ β : Type*) [DecidableEq κ] where
  entries : List (κ × β)
  nodup_keys : (entries.map Prod.fst).Nodup

namespace InsertionDict

def empty : InsertionDict κ β := ⟨[], List.nodup_nil⟩

def get? (dict : InsertionDict κ β) (key : κ) : Option β := Entries.lookup key dict.entries

/-- `key in dict`. -/
def contains (dict : InsertionDict κ β) (key : κ) : Bool := (dict.get? key).isSome

def values (dict : InsertionDict κ β) : List β := dict.entries.map Prod.snd

/-- `dict[key] = value`. -/
def set (dict : InsertionDict κ β) (key : κ) (value : β) : InsertionDict κ β where
  entries := Entries.assign key value dict.entries
  nodup_keys := by
    rw [Entries.keys_assign]
    split_ifs with hkey
    · exact dict.nodup_keys
    · exact dict.nodup_keys.append (List.nodup_singleton key)
        (List.disjoint_singleton.mpr hkey)

/-- `dict.pop(key, None)`. -/
def pop (dict : InsertionDict κ β) (key : κ) : InsertionDict κ β where
  entries := dict.entries.filter fun entry => entry.1 ≠ key
  nodup_keys := dict.nodup_keys.sublist (List.filter_sublist.map Prod.fst)

/-- `dict(entries)`. -/
def ofEntries (entries : List (κ × β)) : InsertionDict κ β :=
  entries.foldl (fun dict entry => dict.set entry.1 entry.2) empty

variable {dict : InsertionDict κ β} {key other : κ} {value : β}

@[simp] theorem get?_empty : (empty : InsertionDict κ β).get? key = none := rfl

theorem entries_set : (dict.set key value).entries = Entries.assign key value dict.entries := rfl

theorem get?_set :
    (dict.set key value).get? other = if other = key then some value else dict.get? other :=
  Entries.lookup_assign

theorem get?_pop :
    (dict.pop key).get? other = if other = key then none else dict.get? other :=
  Entries.lookup_filter_ne

/-- A key that no entry has keeps its value. -/
theorem get?_foldl_set {entries : List (κ × β)} (h : key ∉ entries.map Prod.fst) :
    (entries.foldl (fun dict entry => dict.set entry.1 entry.2) dict).get? key = dict.get? key := by
  induction entries generalizing dict with
  | nil => rfl
  | cons entry rest ih =>
    rw [List.map_cons, List.mem_cons, not_or] at h
    rw [List.foldl_cons, ih h.2, get?_set, if_neg h.1]

theorem get?_eq_some_iff : dict.get? key = some value ↔ (key, value) ∈ dict.entries :=
  Entries.lookup_eq_some_iff dict.nodup_keys

theorem get?_ofEntries {entries : List (κ × β)} (h : (entries.map Prod.fst).Nodup) :
    (ofEntries entries).get? key = some value ↔ (key, value) ∈ entries := by
  suffices hfold : ∀ dict : InsertionDict κ β, (∀ entry ∈ entries, dict.get? entry.1 = none) →
      ((entries.foldl (fun dict entry => dict.set entry.1 entry.2) dict).get? key = some value ↔
        dict.get? key = some value ∨ (key, value) ∈ entries) by
    rw [ofEntries, hfold empty fun _ _ => rfl]
    simp
  induction entries with
  | nil => simp
  | cons entry rest ih =>
    obtain ⟨hfresh, hrest⟩ := List.nodup_cons.mp h
    intro dict hdict
    have hne : ∀ other ∈ rest, other.1 ≠ entry.1 :=
      fun other hother heq => hfresh (heq ▸ List.mem_map_of_mem hother)
    have hset : ∀ other ∈ rest, (dict.set entry.1 entry.2).get? other.1 = none := by
      intro other hother
      rw [get?_set, if_neg (hne other hother)]
      exact hdict other (List.mem_cons_of_mem _ hother)
    rw [List.foldl_cons, ih hrest _ hset, get?_set, List.mem_cons]
    by_cases hkey : key = entry.1
    · have hnone := hdict entry List.mem_cons_self
      have hnot : (key, value) ∉ rest := fun hmem => hne _ hmem hkey
      rw [if_pos hkey, hkey, hnone]
      constructor
      · rintro (heq | hmem)
        · exact .inr (.inl (Prod.ext rfl (Option.some_inj.mp heq).symm))
        · exact absurd (hkey ▸ hmem) hnot
      · rintro (hfalse | heq | hmem)
        · cases hfalse
        · exact .inl (congrArg (some ·.2) heq).symm
        · exact absurd (hkey ▸ hmem) hnot
    · rw [if_neg hkey]
      have hentry : (key, value) ≠ entry := fun heq => hkey (congrArg Prod.fst heq)
      simp only [hentry, false_or]

theorem get?_ofEntries_map {keys : List κ} (hkeys : keys.Nodup) (f : κ → β) :
    (ofEntries (keys.map fun key => (key, f key))).get? key =
      if key ∈ keys then some (f key) else none := by
  have hnodup : ((keys.map fun key => (key, f key)).map Prod.fst).Nodup := by
    rw [List.map_map]
    exact (List.map_id keys).symm ▸ hkeys
  by_cases hkey : key ∈ keys
  · rw [if_pos hkey]
    exact (get?_ofEntries hnodup).mpr (List.mem_map.mpr ⟨key, hkey, rfl⟩)
  · rw [if_neg hkey]
    cases hget : (ofEntries (keys.map fun key => (key, f key))).get? key with
    | none => rfl
    | some value =>
      obtain ⟨other, hmem, heq⟩ := List.mem_map.mp ((get?_ofEntries hnodup).mp hget)
      cases heq
      exact absurd hmem hkey

/-- Entries whose keys differ are the dictionary made of them. -/
theorem entries_ofEntries {entries : List (κ × β)} (h : (entries.map Prod.fst).Nodup) :
    (ofEntries entries).entries = entries := by
  suffices hfold : ∀ dict : InsertionDict κ β,
      (dict.entries.map Prod.fst).Disjoint (entries.map Prod.fst) →
      (entries.foldl (fun dict entry => dict.set entry.1 entry.2) dict).entries =
        dict.entries ++ entries from
    hfold empty (List.disjoint_nil_left _)
  induction entries with
  | nil => exact fun dict _ => (List.append_nil _).symm
  | cons entry rest ih =>
    obtain ⟨hfresh, hrest⟩ := List.nodup_cons.mp h
    intro dict hdisjoint
    obtain ⟨hentry, hdisjoint⟩ := List.disjoint_cons_right.mp hdisjoint
    have hset : (dict.set entry.1 entry.2).entries = dict.entries ++ [entry] :=
      Entries.assign_of_not_mem hentry
    rw [List.foldl_cons, ih hrest, hset, List.append_assoc, List.singleton_append]
    rw [hset, List.map_append, List.disjoint_append_left]
    exact ⟨hdisjoint, List.singleton_disjoint.mpr hfresh⟩

theorem mem_ofEntries {entries : List (κ × β)} {entry : κ × β}
    (h : entry ∈ (ofEntries entries).entries) : entry ∈ entries := by
  suffices hfold : ∀ dict : InsertionDict κ β,
      entry ∈ (entries.foldl (fun dict entry => dict.set entry.1 entry.2) dict).entries →
        entry ∈ dict.entries ∨ entry ∈ entries from
    (hfold empty h).resolve_left List.not_mem_nil
  clear h
  induction entries with
  | nil => exact fun dict h => .inl h
  | cons first rest ih =>
    intro dict h
    rcases ih _ h with hset | hrest
    · rcases Entries.mem_assign hset with rfl | hdict
      · exact .inr List.mem_cons_self
      · exact .inl hdict
    · exact .inr (List.mem_cons_of_mem _ hrest)

@[simp] theorem contains_set :
    (dict.set key value).contains other = (other = key || dict.contains other) := by
  rw [contains, get?_set]
  by_cases hkey : other = key
  · simp [hkey]
  · simp [hkey, contains]

theorem get?_eq_none_of_not_contains (h : dict.contains key = false) : dict.get? key = none :=
  Option.isNone_iff_eq_none.mp (by simpa [contains] using h)

theorem values_set_of_not_contains (h : dict.contains key = false) :
    (dict.set key value).values = dict.values ++ [value] := by
  have hkey := Entries.lookup_eq_none_iff.mp (get?_eq_none_of_not_contains h)
  rw [values, entries_set, Entries.assign_of_not_mem hkey, List.map_append]
  rfl

/-- Every value is stored under its own key. -/
def KeyedBy (keyOf : β → κ) (dict : InsertionDict κ β) : Prop :=
  ∀ entry ∈ dict.entries, keyOf entry.2 = entry.1

theorem keyedBy_empty (keyOf : β → κ) : KeyedBy keyOf (empty : InsertionDict κ β) :=
  fun _ hentry => absurd hentry List.not_mem_nil

theorem KeyedBy.set {keyOf : β → κ} (h : KeyedBy keyOf dict) (value : β) :
    KeyedBy keyOf (dict.set (keyOf value) value) := by
  intro entry hentry
  rcases Entries.mem_assign hentry with rfl | hmem
  · rfl
  · exact h entry hmem

/-- The values of one key are the value that the dictionary holds for it. -/
theorem KeyedBy.filter_values {keyOf : β → κ} (h : KeyedBy keyOf dict) :
    dict.values.filter (keyOf · = key) = (dict.get? key).toList := by
  obtain ⟨entries, hnodup⟩ := dict
  induction entries with
  | nil => rfl
  | cons entry rest ih =>
    obtain ⟨hfresh, hrest⟩ := List.nodup_cons.mp hnodup
    have hkeyed : KeyedBy keyOf ⟨rest, hrest⟩ :=
      fun entry hentry => h entry (List.mem_cons_of_mem _ hentry)
    have hentry : keyOf entry.2 = entry.1 := h entry List.mem_cons_self
    have htail := ih hrest hkeyed
    simp only [values, get?, List.map_cons, Entries.lookup] at htail ⊢
    by_cases hkey : entry.1 = key
    · have hnone : Entries.lookup key rest = none := by
        rw [← hkey]
        exact Entries.lookup_eq_none_iff.mpr hfresh
      rw [hnone] at htail
      rw [List.filter_cons_of_pos (by simp [hentry, hkey]), htail, if_pos hkey]
      rfl
    · rw [List.filter_cons_of_neg (by simp [hentry, hkey]), htail, if_neg hkey]

end InsertionDict
end OptionResearch
