import OptionResearch.FirstOccurrences
import OptionResearch.SiftedRows

/-!
# Sieves that go by a key

A sieve without a memory, whose entries are the same where their keys are, accepts the first entry
of each key and refuses what cannot be read.
-/

namespace OptionResearch.Sieve

open FirstOccurrences

variable {α β ε K : Type*} [DecidableEq K] (sieve : Sieve Unit α β ε) {keyOf : β → K}
  {items : List α}

def entryOf (item : α) : Option β :=
  match sieve.read () item with
  | .ok (entry, _) => some entry
  | .error _ => none

def refusalOf (item : α) : Option ε :=
  match sieve.read () item with
  | .ok _ => none
  | .error reason => some reason

variable {sieve}

theorem refused_run :
    (sieve.run () items).fates.filterMap Fate.refused? = items.filterMap sieve.refusalOf := by
  induction items using List.reverseRecOn with
  | nil => rfl
  | append_singleton items item ih =>
    rw [run_concat, List.filterMap_append, ← ih]
    obtain ⟨reason, hread, hsift⟩ | ⟨entry, memory, hread, ⟨-, hsift⟩ | ⟨-, hsift⟩⟩ :=
      @sift_cases _ _ _ _ sieve item (sieve.run () items)
    all_goals
      rw [hsift, List.filterMap_append]
      simp [refusalOf, hread, Fate.refused?]

/-- The accepted entries are the first ones of their keys. -/
theorem accepted_run
    (hsame : ∀ entry ∈ items.filterMap sieve.entryOf, ∀ earlier ∈ items.filterMap sieve.entryOf,
      (sieve.same entry earlier = true ↔ keyOf entry = keyOf earlier)) :
    (sieve.run () items).fates.filterMap Fate.accepted? =
      firsts keyOf (items.filterMap sieve.entryOf) := by
  induction items using List.reverseRecOn with
  | nil => rfl
  | append_singleton items item ih =>
    rw [List.filterMap_append] at hsame
    have hbefore := ih fun entry hentry earlier hearlier =>
      hsame entry (List.mem_append_left _ hentry) earlier (List.mem_append_left _ hearlier)
    rw [run_concat, List.filterMap_append]
    obtain ⟨reason, hread, hsift⟩ | ⟨entry, memory, hread, hseen⟩ :=
      @sift_cases _ _ _ _ sieve item (sieve.run () items)
    · rw [hsift, List.filterMap_append, hbefore]
      simp [entryOf, hread, Fate.accepted?]
    · have hitem : [item].filterMap sieve.entryOf = [entry] := by simp [entryOf, hread]
      rw [hitem] at hsame ⊢
      have hkeys : ∀ earlier ∈ items.filterMap sieve.entryOf,
          (sieve.same entry earlier = true ↔ keyOf entry = keyOf earlier) := fun earlier hearlier =>
        hsame entry (List.mem_append_right _ List.mem_cons_self) earlier
          (List.mem_append_left _ hearlier)
      rw [hbefore] at hseen
      obtain ⟨⟨earlier, hearlier, hrepeats⟩, hsift⟩ | ⟨hnew, hsift⟩ := hseen
      · have hmem := firsts_sublist.subset hearlier
        have hkey : keyOf entry ∈ (items.filterMap sieve.entryOf).map keyOf :=
          (hkeys earlier hmem).mp hrepeats ▸ List.mem_map_of_mem hmem
        rw [hsift, List.filterMap_append, hbefore, firsts_concat_of_mem hkey]
        simp [Fate.accepted?]
      · have hkey : keyOf entry ∉ (items.filterMap sieve.entryOf).map keyOf := by
          intro h
          obtain ⟨other, hother, heq⟩ := List.mem_map.mp h
          obtain ⟨kept, hkept, hkeyOf⟩ := @exists_mem_firsts _ _ _ keyOf _ _ hother
          have hsame := (hkeys kept (firsts_sublist.subset hkept)).mpr (heq.symm.trans hkeyOf.symm)
          rw [hnew kept hkept] at hsame
          cases hsame
        rw [hsift, List.filterMap_append, hbefore, firsts_concat_of_not_mem hkey]
        simp [Fate.accepted?]

end OptionResearch.Sieve
