import Mathlib.Data.List.Basic
import Mathlib.Data.List.Nodup

/-!
# First items of a list

A scan that keeps an item unless an item of its key was kept before: what is kept has different
keys, and every key keeps an item. And two tests find the same first item of a list where every item
that they tell apart comes after one that passes both.
-/

namespace OptionResearch.FirstOccurrences

variable {α K : Type*} [DecidableEq K] (keyOf : α → K)

/-- The items that are kept after the keys in `seen`. -/
def firstsFrom (seen : List K) : List α → List α
  | [] => []
  | item :: rest =>
    if keyOf item ∈ seen then firstsFrom seen rest
    else item :: firstsFrom (keyOf item :: seen) rest

def firsts (items : List α) : List α := firstsFrom keyOf [] items

variable {keyOf} {seen : List K} {items : List α} {item : α}

theorem firstsFrom_sublist : (firstsFrom keyOf seen items).Sublist items := by
  induction items generalizing seen with
  | nil => exact List.Sublist.refl _
  | cons item rest ih =>
    rw [firstsFrom]
    split_ifs
    · exact ih.cons item
    · exact ih.cons_cons item

theorem not_mem_seen_of_mem_firstsFrom (h : item ∈ firstsFrom keyOf seen items) :
    keyOf item ∉ seen := by
  induction items generalizing seen with
  | nil => exact absurd h List.not_mem_nil
  | cons first rest ih =>
    rw [firstsFrom] at h
    split_ifs at h with hseen
    · exact ih h
    · rcases List.mem_cons.mp h with rfl | h
      · exact hseen
      · exact fun hmem => ih h (List.mem_cons_of_mem _ hmem)

theorem pairwise_firstsFrom :
    (firstsFrom keyOf seen items).Pairwise fun a b => keyOf a ≠ keyOf b := by
  induction items generalizing seen with
  | nil => exact List.Pairwise.nil
  | cons first rest ih =>
    rw [firstsFrom]
    split_ifs
    · exact ih
    · refine List.pairwise_cons.mpr ⟨fun other hother heq => ?_, ih⟩
      exact not_mem_seen_of_mem_firstsFrom hother (heq ▸ List.mem_cons_self)

theorem exists_mem_firstsFrom (h : item ∈ items) (hseen : keyOf item ∉ seen) :
    ∃ kept ∈ firstsFrom keyOf seen items, keyOf kept = keyOf item := by
  induction items generalizing seen with
  | nil => exact absurd h List.not_mem_nil
  | cons first rest ih =>
    rw [firstsFrom]
    by_cases hkey : keyOf item = keyOf first
    · rw [if_neg (hkey ▸ hseen)]
      exact ⟨first, List.mem_cons_self, hkey.symm⟩
    · have hrest : item ∈ rest :=
        (List.mem_cons.mp h).resolve_left fun heq => hkey (congrArg keyOf heq)
      split_ifs with hfirst
      · exact ih hrest hseen
      · have hnot : keyOf item ∉ keyOf first :: seen :=
          List.not_mem_cons_of_ne_of_not_mem hkey hseen
        obtain ⟨kept, hkept, heq⟩ := ih hrest hnot
        exact ⟨kept, List.mem_cons_of_mem _ hkept, heq⟩

/-- One more item is kept unless its key is one of those before it. -/
theorem firstsFrom_concat :
    firstsFrom keyOf seen (items ++ [item]) = firstsFrom keyOf seen items ++
      if keyOf item ∈ seen ∨ keyOf item ∈ items.map keyOf then [] else [item] := by
  induction items generalizing seen with
  | nil => simp [firstsFrom]
  | cons first rest ih =>
    rw [List.cons_append, firstsFrom, firstsFrom, List.map_cons]
    by_cases hfirst : keyOf first ∈ seen
    · have hseen : keyOf item ∈ seen ∨ keyOf item ∈ keyOf first :: rest.map keyOf ↔
          keyOf item ∈ seen ∨ keyOf item ∈ rest.map keyOf := by
        rw [List.mem_cons, ← or_assoc,
          or_iff_left_of_imp fun heq : keyOf item = keyOf first => heq ▸ hfirst]
      rw [if_pos hfirst, if_pos hfirst, ih]
      simp only [hseen]
    · rw [if_neg hfirst, if_neg hfirst, ih, List.cons_append]
      simp only [List.mem_cons, or_assoc, or_left_comm]

theorem firsts_sublist : (firsts keyOf items).Sublist items := firstsFrom_sublist

theorem pairwise_firsts : (firsts keyOf items).Pairwise fun a b => keyOf a ≠ keyOf b :=
  pairwise_firstsFrom

theorem firsts_concat_of_mem (h : keyOf item ∈ items.map keyOf) :
    firsts keyOf (items ++ [item]) = firsts keyOf items := by
  rw [firsts, firstsFrom_concat, if_pos (.inr h), List.append_nil, firsts]

theorem firsts_concat_of_not_mem (h : keyOf item ∉ items.map keyOf) :
    firsts keyOf (items ++ [item]) = firsts keyOf items ++ [item] := by
  rw [firsts, firstsFrom_concat, if_neg (not_or.mpr ⟨List.not_mem_nil, h⟩), firsts]

/-- Every item's key is that of an item that is kept. -/
theorem exists_mem_firsts (h : item ∈ items) :
    ∃ kept ∈ firsts keyOf items, keyOf kept = keyOf item :=
  exists_mem_firstsFrom h List.not_mem_nil

end OptionResearch.FirstOccurrences

namespace OptionResearch.FirstMatches

variable {α : Type*} {p q : α → Bool} {items front rest : List α} {item : α}

/-- The items that only one of the tests lets pass come after one that passes both. -/
def AgreeBefore (p q : α → Bool) (items : List α) : Prop :=
  ∀ front item rest, items = front ++ item :: rest → p item ≠ q item →
    ∃ earlier ∈ front, p earlier = true ∧ q earlier = true

theorem agreeBefore_cons :
    AgreeBefore p q (item :: rest) ↔
      p item = q item ∧ (p item = false → AgreeBefore p q rest) := by
  constructor
  · intro h
    have hsame : p item = q item := by
      by_contra hne
      obtain ⟨earlier, hmem, -⟩ := h [] item rest rfl hne
      exact absurd hmem List.not_mem_nil
    refine ⟨hsame, fun hfails front other later hrest hne => ?_⟩
    obtain ⟨earlier, hmem, hpasses⟩ := h (item :: front) other later
      (by rw [hrest, List.cons_append]) hne
    rcases List.mem_cons.mp hmem with rfl | hmem
    · rw [hfails] at hpasses
      exact absurd hpasses.1 Bool.false_ne_true
    · exact ⟨earlier, hmem, hpasses⟩
  · rintro ⟨hsame, hrest⟩ front other later hitems hne
    cases front with
    | nil =>
      obtain ⟨rfl, -⟩ := List.cons.inj hitems
      exact absurd hsame hne
    | cons first front =>
      obtain ⟨rfl, hlater⟩ := List.cons.inj hitems
      cases hfirst : p item with
      | true => exact ⟨item, List.mem_cons_self, hfirst, hsame ▸ hfirst⟩
      | false =>
        obtain ⟨earlier, hmem, hpasses⟩ := hrest hfirst front other later hlater hne
        exact ⟨earlier, List.mem_cons_of_mem _ hmem, hpasses⟩

theorem find?_eq_find?_iff : items.find? p = items.find? q ↔ AgreeBefore p q items := by
  induction items with
  | nil =>
    refine iff_of_true rfl fun front item rest h => ?_
    exact absurd h.symm (List.append_ne_nil_of_right_ne_nil front (List.cons_ne_nil item rest))
  | cons item rest ih =>
    rw [agreeBefore_cons, List.find?_cons, List.find?_cons]
    cases hp : p item with
    | false =>
      cases hq : q item with
      | false => exact ih.trans ⟨fun h => ⟨rfl, fun _ => h⟩, fun h => h.2 rfl⟩
      | true =>
        -- the item itself is no first match of the other test
        refine iff_of_false (fun h => ?_) fun h => absurd h.1 Bool.false_ne_true
        rw [List.find?_some h] at hp
        cases hp
    | true =>
      cases hq : q item with
      | false =>
        refine iff_of_false (fun h => ?_) fun h => absurd h.1.symm Bool.false_ne_true
        rw [List.find?_some h.symm] at hq
        cases hq
      | true => exact iff_of_true rfl ⟨rfl, fun h => absurd h.symm Bool.false_ne_true⟩

end OptionResearch.FirstMatches
