import Mathlib.Data.List.Infix
import Mathlib.Logic.Function.Basic

/-!
# Logs that branch

A function from names to logs, in which a new log may inherit the beginning of another one and an
item appended to a log carries the length it finds as its number. Every log is then numbered from
zero without a gap, and no log loses what it has.
-/

namespace OptionResearch.BranchedLogs

variable {κ α : Type*} {number : α → Nat} {logs logs' logs'' : κ → List α} {items : List α}
  {item : α} {key : κ}

/-! ### Numbered lists -/

/-- The items carry the numbers 0, 1, 2, … in order. -/
def Numbered (number : α → Nat) (items : List α) : Prop :=
  items.map number = List.range items.length

theorem numbered_nil : Numbered number ([] : List α) := rfl

theorem numbered_concat_iff :
    Numbered number (items ++ [item]) ↔ Numbered number items ∧ number item = items.length := by
  rw [Numbered, Numbered, List.map_append, List.length_append, List.length_singleton,
    List.range_succ]
  constructor
  · intro h
    obtain ⟨hitems, hitem⟩ := List.append_inj' h rfl
    exact ⟨hitems, List.head_eq_of_cons_eq hitem⟩
  · rintro ⟨hitems, hitem⟩
    rw [hitems, List.map_singleton, hitem]

theorem Numbered.of_beginning {beginning : List α} (h : Numbered number items)
    (hbeginning : beginning <+: items) : Numbered number beginning := by
  induction items using List.reverseRecOn with
  | nil =>
    rw [List.prefix_nil] at hbeginning
    rw [hbeginning]
    exact numbered_nil
  | append_singleton earlier last ih =>
    rcases List.prefix_concat_iff.mp hbeginning with hall | hearlier
    · rw [hall]
      exact h
    · exact ih (numbered_concat_iff.mp h).1 hearlier

theorem Numbered.number_eq (h : Numbered number items) {place : Nat}
    (hitem : items[place]? = some item) : number item = place := by
  have hnumber : (items.map number)[place]? = some (number item) := by
    rw [List.getElem?_map, hitem]
    rfl
  rw [h, List.getElem?_range (List.getElem?_eq_some_iff.mp hitem).1] at hnumber
  exact (Option.some.inj hnumber).symm

theorem Numbered.number_lt (h : Numbered number items) (hmem : item ∈ items) :
    number item < items.length := by
  have hnumber : number item ∈ items.map number := List.mem_map_of_mem hmem
  rw [h] at hnumber
  exact List.mem_range.mp hnumber

/-- The items up to a number are a beginning of the list. -/
theorem Numbered.filter_isBeginning (h : Numbered number items) (cut : Int) :
    items.filter (fun item => number item ≤ cut) <+: items := by
  induction items using List.reverseRecOn with
  | nil => exact List.prefix_rfl
  | append_singleton earlier last ih =>
    obtain ⟨hearlier, hlast⟩ := numbered_concat_iff.mp h
    rw [List.filter_append]
    by_cases hcut : (number last : Int) ≤ cut
    · -- what the cut admits last, it admits altogether
      have hall : earlier.filter (fun item => (number item : Int) ≤ cut) = earlier := by
        apply List.filter_eq_self.mpr
        intro item hitem
        have hlt := hearlier.number_lt hitem
        rw [decide_eq_true_eq]
        omega
      rw [hall, List.filter_cons_of_pos (by simpa using hcut), List.filter_nil]
    · rw [List.filter_cons_of_neg (by simpa using hcut), List.filter_nil, List.append_nil]
      exact (ih hearlier).trans (List.prefix_append earlier [last])

/-! ### Steps -/

/-- No log has lost anything. -/
def Extends (logs logs' : κ → List α) : Prop := ∀ key, logs key <+: logs' key

theorem extends_refl (logs : κ → List α) : Extends logs logs := fun _ => List.prefix_rfl

theorem Extends.trans (h : Extends logs logs') (h' : Extends logs' logs'') : Extends logs logs'' :=
  fun key => (h key).trans (h' key)

theorem Extends.mem (h : Extends logs logs') (hmem : item ∈ logs key) : item ∈ logs' key :=
  (h key).subset hmem

variable [DecidableEq κ] {admits : (κ → List α) → κ → Prop}

/-- What may happen to the logs: nothing, a log is replaced by the beginning of another where
`admits` has it so, or a log gets an item. -/
inductive Step (number : α → Nat) (admits : (κ → List α) → κ → Prop) :
    (κ → List α) → (κ → List α) → Prop
  | idle (logs : κ → List α) : Step number admits logs logs
  | fork {logs : κ → List α} (key parent : κ) (inherited : List α) (hadmits : admits logs key)
      (hbeginning : inherited <+: logs parent) :
      Step number admits logs (Function.update logs key inherited)
  | append {logs : κ → List α} (key : κ) (item : α) (hnumber : number item = (logs key).length) :
      Step number admits logs (Function.update logs key (logs key ++ [item]))

/-- The logs stay numbered. -/
theorem Step.numbered (h : Step number admits logs logs')
    (hlogs : ∀ key, Numbered number (logs key)) (key : κ) : Numbered number (logs' key) := by
  cases h with
  | idle => exact hlogs key
  | fork name parent inherited hadmits hbeginning =>
    by_cases hkey : key = name
    · rw [hkey, Function.update_self]
      exact (hlogs parent).of_beginning hbeginning
    · rw [Function.update_of_ne hkey]
      exact hlogs key
  | append name item hnumber =>
    by_cases hkey : key = name
    · rw [hkey, Function.update_self]
      exact numbered_concat_iff.mpr ⟨hlogs name, hnumber⟩
    · rw [Function.update_of_ne hkey]
      exact hlogs key

/-- Where only logs without items are replaced, nothing is lost. -/
theorem Step.extends (h : Step number admits logs logs')
    (hempty : ∀ key, admits logs key → logs key = []) : Extends logs logs' := by
  intro name
  cases h with
  | idle => exact List.prefix_rfl
  | fork key parent inherited hadmits hbeginning =>
    by_cases hname : name = key
    · rw [hname, hempty key hadmits]
      exact List.nil_prefix
    · rw [Function.update_of_ne hname]
  | append key item hnumber =>
    by_cases hname : name = key
    · rw [hname, Function.update_self]
      exact List.prefix_append _ _
    · rw [Function.update_of_ne hname]

end OptionResearch.BranchedLogs
