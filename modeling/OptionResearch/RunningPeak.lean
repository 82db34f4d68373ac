import Mathlib.Algebra.Order.Field.Basic
import Mathlib.Order.Bounds.Basic

/-!
# The worst later loss

Of all the values up to a point, the greatest one loses most to it. So a scan that keeps a running
peak finds the greatest relative loss from any value of a list to a later one.
-/

namespace OptionResearch.RunningPeak

variable {K : Type*} [Field K] [LinearOrder K] {values : List K} {loss w worst peak : K}

/-- The relative losses from positive values to themselves and to later ones. -/
def laterLosses (values : List K) : Set K :=
  {loss | ∃ (i j : Nat) (v w : K), i ≤ j ∧ values[i]? = some v ∧ values[j]? = some w ∧ 0 < v ∧
    (v - w) / v = loss}

theorem laterLosses_append_subset (values more : List K) :
    laterLosses values ⊆ laterLosses (values ++ more) := by
  rintro loss ⟨i, j, v, w, hle, hv, hw, hpos, rfl⟩
  have hlt := (List.getElem?_eq_some_iff.mp hw).1
  refine ⟨i, j, v, w, hle, ?_, ?_, hpos, rfl⟩
  · rw [List.getElem?_append_left (hle.trans_lt hlt), hv]
  · rw [List.getElem?_append_left hlt, hw]

/-- The losses to the last value come from any of the values. -/
theorem mem_laterLosses_concat :
    loss ∈ laterLosses (values ++ [w]) ↔
      loss ∈ laterLosses values ∨ ∃ v ∈ values ++ [w], 0 < v ∧ (v - w) / v = loss := by
  constructor
  · rintro ⟨i, j, v, u, hle, hv, hu, hpos, rfl⟩
    rcases lt_or_ge j values.length with hlt | hge
    · left
      rw [List.getElem?_append_left (hle.trans_lt hlt)] at hv
      rw [List.getElem?_append_left hlt] at hu
      exact ⟨i, j, v, u, hle, hv, hu, hpos, rfl⟩
    · right
      rw [List.getElem?_append_right hge] at hu
      obtain rfl : w = u := by
        rcases hindex : j - values.length with _ | n
        · rw [hindex] at hu
          exact Option.some.inj hu
        · rw [hindex] at hu
          cases hu
      exact ⟨v, List.mem_of_getElem? hv, hpos, rfl⟩
  · rintro (hloss | ⟨v, hv, hpos, rfl⟩)
    · exact laterLosses_append_subset values [w] hloss
    · obtain ⟨i, hi⟩ := List.mem_iff_getElem?.mp hv
      refine ⟨i, values.length, v, w, ?_, hi, List.getElem?_concat_length, hpos, rfl⟩
      have hlt := (List.getElem?_eq_some_iff.mp hi).1
      rw [List.length_append, List.length_singleton] at hlt
      exact Nat.le_of_lt_succ hlt

variable [IsStrictOrderedRing K]

/-- A greater value loses more. -/
theorem loss_le_loss {v : K} (hv : 0 < v) (hle : v ≤ peak) (hw : 0 ≤ w) :
    (v - w) / v ≤ (peak - w) / peak := by
  rw [sub_div, sub_div, div_self hv.ne', div_self (hv.trans_le hle).ne']
  exact sub_le_sub_left (div_le_div_of_nonneg_left hw hv hle) 1

theorem loss_le_one {v : K} (hv : 0 < v) (hw : 0 ≤ w) : (v - w) / v ≤ 1 := by
  rw [sub_div, div_self hv.ne']
  exact sub_le_self 1 (div_nonneg hw hv.le)

/-- The step of the scan: the peak among the values up to the new one tells its loss. -/
theorem isGreatest_laterLosses_concat
    (h : IsGreatest (insert 0 (laterLosses values)) worst)
    (hpeak : IsGreatest {v | v ∈ values ++ [w]} peak) (hw : 0 ≤ w) :
    IsGreatest (insert 0 (laterLosses (values ++ [w])))
      (if peak ≤ 0 then worst else max worst ((peak - w) / peak)) := by
  have hold : ∀ other ∈ insert 0 (laterLosses values), other ∈
      insert 0 (laterLosses (values ++ [w])) := fun other hother =>
    Set.insert_subset_insert (laterLosses_append_subset values [w]) hother
  split_ifs with hnone
  · refine ⟨hold _ h.1, ?_⟩
    rintro other (rfl | hother)
    · exact h.2 (Set.mem_insert _ _)
    rcases mem_laterLosses_concat.mp hother with hother | ⟨v, hv, hpos, -⟩
    · exact h.2 (Set.mem_insert_of_mem _ hother)
    · exact absurd ((hpeak.2 hv).trans hnone) (not_le.mpr hpos)
  · rw [not_le] at hnone
    constructor
    · rcases max_choice worst ((peak - w) / peak) with hmax | hmax
      · rw [hmax]
        exact hold _ h.1
      · rw [hmax]
        exact Set.mem_insert_of_mem _ (mem_laterLosses_concat.mpr
          (.inr ⟨peak, hpeak.1, hnone, rfl⟩))
    · rintro other (rfl | hother)
      · exact (h.2 (Set.mem_insert _ _)).trans (le_max_left _ _)
      rcases mem_laterLosses_concat.mp hother with hother | ⟨v, hv, hpos, rfl⟩
      · exact (h.2 (Set.mem_insert_of_mem _ hother)).trans (le_max_left _ _)
      · exact (loss_le_loss hpos (hpeak.2 hv) hw).trans (le_max_right _ _)

/-- Of values that are not negative no more than everything is lost. -/
theorem IsGreatest.mem_Icc (h : IsGreatest (insert 0 (laterLosses values)) worst)
    (hnonneg : ∀ v ∈ values, 0 ≤ v) : worst ∈ Set.Icc 0 1 := by
  refine ⟨h.2 (Set.mem_insert _ _), ?_⟩
  rcases h.1 with rfl | ⟨i, j, v, w, -, -, hw, hpos, rfl⟩
  · exact zero_le_one
  · exact loss_le_one hpos (hnonneg w (List.mem_of_getElem? hw))

end OptionResearch.RunningPeak
