import Mathlib.Algebra.Order.Field.Basic
import OptionResearch.PythonValues
import OptionResearch.RankedValues
import OptionResearch.StableSort

/-!
# Multiple testing corrections

`multiple_testing_corrections` of the validation engine, over an ordered field. Holm's adjustment
runs a maximum up the ranks, and the one of Benjamini and Hochberg a minimum down the ranks; each
writes the running value back at the index that the p-value came from.
-/

namespace OptionResearch

open RankedValues StableSort

/-- What the corrections read of the engine. -/
structure ValidationEngine (K : Type) where
  minSampleSize : Int
  significanceLevel : K

structure MultipleTestingResult (K : Type) where
  method : String
  significanceLevel : K
  rawPValues : List K
  adjustedPValues : List K
  rejected : List Bool
  familyWiseErrorRate : K
  falseDiscoveryRate : K
  minimumEffectiveSampleSize : Int
  warnings : List String

def validationDataError (message : String) : Exc := ⟨.other "ValidationDataError", message⟩

variable {K : Type} [Field K] [LinearOrder K]

/-- The p-values in order, with the index that each came from and its rank. -/
def rankedPValues (values : List K) : List ((K × ℕ) × ℕ) :=
  (sortBy Prod.fst values.zipIdx).zipIdx 1

/-- Bonferroni's adjustment of a p-value. -/
def bonferroniAt (values : List K) (value : K) : K := min 1 (value * values.length)

def bonferroni (values : List K) : List K := values.map (bonferroniAt values)

/-- `_holm`. -/
def holm (values : List K) : List K :=
  writeRunning max (fun item => item.1.2)
    (fun item => min 1 ((((values.length : Int) - item.2 + 1 : Int) : K) * item.1.1))
    (rankedPValues values) 0 (List.replicate values.length 0)

/-- `_benjamini_hochberg`. -/
def benjaminiHochberg (values : List K) : List K :=
  writeRunning min (fun item => item.1.2)
    (fun item => min 1 (item.1.1 * values.length / item.2))
    (rankedPValues values).reverse 1 (List.replicate values.length 0)

/-- The method that a name stands for, with its adjusted p-values. -/
def adjust (methodName : String) (values : List K) : Option (String × List K) :=
  if methodName = "bonferroni" then some (methodName, bonferroni values)
  else if methodName = "holm" then some (methodName, holm values)
  else if methodName ∈ ["bh", "benjamini-hochberg", "benjamini_hochberg"] then
    some ("benjamini_hochberg", benjaminiHochberg values)
  else none

def ValidationEngine.multipleTestingCorrections (engine : ValidationEngine K) (pValues : List K)
    (method : String) (significanceLevel : Option K) (minimumEffectiveSampleSize : Int) :
    Except Exc (MultipleTestingResult K) :=
  if pValues.isEmpty then .error (validationDataError "p_values cannot be empty")
  else
    let alpha := significanceLevel.getD engine.significanceLevel
    match adjust method.toLower pValues with
    | none => .error (validationDataError s!"unsupported correction method '{method}'")
    | some (methodName, adjusted) =>
      let rejected := adjusted.map fun value => decide (value ≤ alpha)
      .ok {
        method := methodName
        significanceLevel := alpha
        rawPValues := pValues
        adjustedPValues := adjusted
        rejected
        familyWiseErrorRate := min 1 (pValues.sum / pValues.length)
        falseDiscoveryRate := (rejected.count true : K) / (max 1 rejected.length : ℕ)
        minimumEffectiveSampleSize
        warnings :=
          if minimumEffectiveSampleSize < engine.minSampleSize then
            ["minimum effective sample size is below the recommended threshold"]
          else [] }

/-! ### Adjusted values by counting -/

/-- Holm's adjustment of a p-value. -/
def holmAt (values : List K) (value : K) : K :=
  (values.filter (· ≤ value)).foldl (fun running q => max running (min 1 (atLeast values q * q))) 0

/-- The adjustment of a p-value by Benjamini and Hochberg. -/
def benjaminiHochbergAt (values : List K) (value : K) : K :=
  (values.filter (value ≤ ·)).foldl
    (fun running q => min running (min 1 (q * values.length / atMost values q))) 1

variable {values others : List K} {value value' c : K}

theorem holmAt_le_iff : holmAt values value ≤ c ↔
    0 ≤ c ∧ ∀ q ∈ values, q ≤ value → min 1 (atLeast values q * q) ≤ c := by
  rw [holmAt, foldl_iff (· ≤ c) fun _ _ => max_le_iff]
  simp only [List.mem_filter, decide_eq_true_iff, and_imp]

theorem le_benjaminiHochbergAt_iff : c ≤ benjaminiHochbergAt values value ↔
    c ≤ 1 ∧ ∀ q ∈ values, value ≤ q → c ≤ min 1 (q * values.length / atMost values q) := by
  rw [benjaminiHochbergAt, foldl_iff (c ≤ ·) fun _ _ => le_min_iff]
  simp only [List.mem_filter, decide_eq_true_iff, and_imp]

theorem lt_benjaminiHochbergAt_iff : c < benjaminiHochbergAt values value ↔
    c < 1 ∧ ∀ q ∈ values, value ≤ q → c < min 1 (q * values.length / atMost values q) := by
  rw [benjaminiHochbergAt, foldl_iff (c < ·) fun _ _ => lt_min_iff]
  simp only [List.mem_filter, decide_eq_true_iff, and_imp]

theorem holmAt_mono (h : value ≤ value') : holmAt values value ≤ holmAt values value' := by
  obtain ⟨hnonneg, hall⟩ := holmAt_le_iff.mp (le_refl (holmAt values value'))
  exact holmAt_le_iff.mpr ⟨hnonneg, fun q hq hle => hall q hq (hle.trans h)⟩

theorem benjaminiHochbergAt_mono (h : value ≤ value') :
    benjaminiHochbergAt values value ≤ benjaminiHochbergAt values value' := by
  obtain ⟨hone, hall⟩ :=
    le_benjaminiHochbergAt_iff.mp (le_refl (benjaminiHochbergAt values value))
  exact le_benjaminiHochbergAt_iff.mpr ⟨hone, fun q hq hle => hall q hq (h.trans hle)⟩

theorem holmAt_perm (h : values.Perm others) (value : K) :
    holmAt values value = holmAt others value := by
  refine eq_of_forall_ge_iff fun c => ?_
  rw [holmAt_le_iff, holmAt_le_iff]
  simp only [h.mem_iff, atLeast_perm h]

theorem benjaminiHochbergAt_perm (h : values.Perm others) (value : K) :
    benjaminiHochbergAt values value = benjaminiHochbergAt others value := by
  refine eq_of_forall_le_iff fun c => ?_
  rw [le_benjaminiHochbergAt_iff, le_benjaminiHochbergAt_iff]
  simp only [h.mem_iff, atMost_perm h, h.length_eq]

/-! ### Ranks of the p-values -/

/-- The p-values from the least to the greatest, each with its index. -/
structure Enumerates (values : List K) (ordered : List (K × ℕ)) : Prop where
  perm : ordered.Perm values.zipIdx
  sorted : SortedBy Prod.fst ordered

omit [Field K] in
theorem enumerates_sortBy (values : List K) :
    Enumerates values (sortBy Prod.fst values.zipIdx) := ⟨sortBy_perm, sortBy_sorted _ _⟩

namespace Enumerates

variable {ordered : List (K × ℕ)}

omit [Field K]

theorem keys_perm (h : Enumerates values ordered) : (ordered.map Prod.fst).Perm values := by
  have hkeys := h.perm.map Prod.fst
  rwa [List.zipIdx_map_fst] at hkeys

theorem keys_sorted (h : Enumerates values ordered) :
    (ordered.map Prod.fst).Pairwise (· ≤ ·) := List.pairwise_map.mpr h.sorted

theorem nodup (h : Enumerates values ordered) : (ordered.map Prod.snd).Nodup := by
  have hindices := h.perm.map Prod.snd
  rw [List.zipIdx_map_snd] at hindices
  exact hindices.nodup_iff.mpr (List.nodup_range' _)

theorem length_eq (h : Enumerates values ordered) : ordered.length = values.length := by
  rw [h.perm.length_eq, List.length_zipIdx]

theorem exists_rank (h : Enumerates values ordered) {i : ℕ} (hi : i < values.length) :
    ∃ k, ∃ hk : k < ordered.length, ordered[k] = (values[i], i) :=
  List.mem_iff_getElem.mp (h.perm.mem_iff.mpr
    (List.mk_mem_zipIdx_iff_getElem?.mpr (List.getElem?_eq_getElem hi)))

/-- What counts the p-values from a rank on. -/
theorem forall_before_iff (h : Enumerates values ordered) {P : ℕ → K → Prop}
    (hanti : ∀ q ∈ values, ∀ n n', n ≤ n' → P n' q → P n q) {k : ℕ} (hk : k < ordered.length) :
    (∀ j (hj : j < ordered.length), j ≤ k → P (values.length - j) ordered[j].1) ↔
      ∀ q ∈ values, q ≤ ordered[k].1 → P (atLeast values q) q := by
  rw [← h.length_eq]
  have hlength : (ordered.map Prod.fst).length = ordered.length := List.length_map _
  have hcount := RankedValues.forall_before_iff (P := P) h.keys_sorted
    (fun q hq => hanti q (h.keys_perm.mem_iff.mp hq)) (hlength.symm ▸ hk)
  simp only [List.length_map, List.getElem_map, h.keys_perm.mem_iff,
    atLeast_perm h.keys_perm] at hcount
  exact hcount

/-- What counts the p-values up to a rank. -/
theorem forall_after_iff (h : Enumerates values ordered) {P : ℕ → K → Prop}
    (hanti : ∀ q ∈ values, ∀ n n', 0 < n → n ≤ n' → P n' q → P n q) {k : ℕ}
    (hk : k < ordered.length) :
    (∀ j (hj : j < ordered.length), k ≤ j → P (j + 1) ordered[j].1) ↔
      ∀ q ∈ values, ordered[k].1 ≤ q → P (atMost values q) q := by
  have hlength : (ordered.map Prod.fst).length = ordered.length := List.length_map _
  have hcount := RankedValues.forall_after_iff (P := P) h.keys_sorted
    (fun q hq => hanti q (h.keys_perm.mem_iff.mp hq)) (hlength.symm ▸ hk)
  simp only [List.length_map, List.getElem_map, h.keys_perm.mem_iff,
    atMost_perm h.keys_perm] at hcount
  exact hcount

end Enumerates

/-! ### What the loops compute -/

section Loops

omit [Field K] in
theorem ranked_position (values : List K) :
    ((rankedPValues values).map fun item => item.1.2).Nodup := by
  have hmap : (rankedPValues values).map (fun item => item.1.2) =
      ((rankedPValues values).map Prod.fst).map Prod.snd := by rw [List.map_map]; rfl
  rw [hmap, rankedPValues, List.zipIdx_map_fst]
  exact (enumerates_sortBy values).nodup

omit [Field K] in
/-- Every index has a rank. -/
theorem exists_ranked {i : ℕ} (hi : i < values.length) :
    ∃ k, ∃ hk : k < (sortBy Prod.fst values.zipIdx).length,
      ∃ hk' : k < (rankedPValues values).length,
        (sortBy Prod.fst values.zipIdx)[k] = (values[i], i) ∧
          (rankedPValues values)[k] = ((values[i], i), 1 + k) := by
  obtain ⟨k, hk, hrank⟩ := (enumerates_sortBy values).exists_rank hi
  have hk' : k < (rankedPValues values).length := by
    rw [rankedPValues, List.length_zipIdx]
    exact hk
  refine ⟨k, hk, hk', hrank, ?_⟩
  rw [← hrank]
  exact List.getElem_zipIdx _

variable [IsStrictOrderedRing K]

theorem holm_eq_map (hvalues : ∀ p ∈ values, 0 ≤ p) : holm values = values.map (holmAt values) := by
  have horder := enumerates_sortBy values
  have hlength : (holm values).length = values.length := by
    rw [holm, length_writeRunning, List.length_replicate]
  refine List.ext_getElem? fun i => ?_
  rcases Nat.lt_or_ge i values.length with hi | hi
  · obtain ⟨k, hk, hk', hrank, hitem⟩ := exists_ranked hi
    rw [holm, getElem?_writeRunning (ranked_position values) hk' (by rw [hitem])
      (by rw [List.length_replicate]; exact hi), List.getElem?_map, List.getElem?_eq_getElem hi]
    refine congrArg some (eq_of_forall_ge_iff fun c => ?_)
    rw [foldl_iff (· ≤ c) fun _ _ => max_le_iff, holmAt_le_iff, rankedPValues,
      forall_mem_take_zipIdx]
    have hcount := horder.forall_before_iff (P := fun n q => min 1 (n * q) ≤ c)
      (fun q hq n n' hle hc => le_trans (min_le_min_left 1
        (mul_le_mul_of_nonneg_right (Nat.cast_le.mpr hle) (hvalues q hq))) hc) hk
    rw [hrank] at hcount
    refine and_congr_right fun _ => Iff.trans ?_ hcount
    refine forall₃_congr fun j hj _ => ?_
    have hlast := horder.length_eq
    have hcast : (values.length : Int) - (1 + j : ℕ) + 1 = (values.length - j : ℕ) := by omega
    dsimp only
    rw [hcast, Int.cast_natCast]
  · rw [List.getElem?_eq_none (hlength.symm ▸ hi),
      List.getElem?_eq_none (by rw [List.length_map]; exact hi)]

theorem benjaminiHochberg_eq_map (hvalues : ∀ p ∈ values, 0 ≤ p) :
    benjaminiHochberg values = values.map (benjaminiHochbergAt values) := by
  have horder := enumerates_sortBy values
  have hlength : (benjaminiHochberg values).length = values.length := by
    rw [benjaminiHochberg, length_writeRunning, List.length_replicate]
  refine List.ext_getElem? fun i => ?_
  rcases Nat.lt_or_ge i values.length with hi | hi
  · obtain ⟨k, hk, hk', hrank, hitem⟩ := exists_ranked hi
    -- the rank of the index, counted from the greatest p-value
    obtain ⟨l, hl⟩ : ∃ l, l + k + 1 = (rankedPValues values).length :=
      ⟨_, by rw [Nat.add_assoc]; exact Nat.sub_add_cancel hk'⟩
    have hl' : l < (rankedPValues values).reverse.length := by
      rw [List.length_reverse]
      omega
    have hback : (rankedPValues values).length - 1 - l = k := by omega
    have hnodup : ((rankedPValues values).reverse.map fun item => item.1.2).Nodup := by
      rw [List.map_reverse]
      exact List.nodup_reverse.mpr (ranked_position values)
    rw [benjaminiHochberg, getElem?_writeRunning hnodup hl'
      (by simp only [List.getElem_reverse, hback, hitem])
      (by rw [List.length_replicate]; exact hi), List.getElem?_map, List.getElem?_eq_getElem hi]
    refine congrArg some (eq_of_forall_le_iff fun c => ?_)
    have htake : (rankedPValues values).length - (l + 1) = k := by omega
    rw [foldl_iff (c ≤ ·) fun _ _ => le_min_iff, le_benjaminiHochbergAt_iff, List.take_reverse,
      htake]
    simp only [List.mem_reverse]
    rw [rankedPValues, forall_mem_drop_zipIdx]
    have hcount := horder.forall_after_iff (P := fun n q => c ≤ min 1 (q * values.length / n))
      (fun q hq n n' hpos hle hc => le_trans hc (min_le_min_left 1
        (div_le_div_of_nonneg_left (mul_nonneg (hvalues q hq) (Nat.cast_nonneg _))
          (Nat.cast_pos.mpr hpos) (Nat.cast_le.mpr hle)))) hk
    rw [hrank] at hcount
    refine and_congr_right fun _ => Iff.trans ?_ hcount
    refine forall₃_congr fun j hj _ => ?_
    rw [Nat.add_comm 1 j]
  · rw [List.getElem?_eq_none (hlength.symm ▸ hi),
      List.getElem?_eq_none (by rw [List.length_map]; exact hi)]

end Loops

end OptionResearch
