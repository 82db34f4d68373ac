import OptionResearch.PartitionedSums
import OptionResearch.RoundedNumbers
import Mathlib.Algebra.BigOperators.Field
import Mathlib.Tactic.Positivity

/-!
# Score calibration

`ScoreCalibrationEngine` of `research/calibration.py` sorts predictions into buckets of equal width
and compares the mean prediction of each with the frequency observed. The buckets are the parts of
the clipped pairs with one index each, so that its figures are sums over a partition.
-/

namespace OptionResearch

structure CalibrationBucket where
  bucketIndex : ℕ
  lower : ℚ
  upper : ℚ
  predictedMean : ℚ
  observedFrequency : ℚ
  sampleSize : ℕ

structure CalibrationDiagnostics where
  brierScore : ℚ
  calibrationError : ℚ
  reliabilityTable : List CalibrationBucket
  overconfidence : ℚ
  underconfidence : ℚ
  warnings : List String

namespace ScoreCalibrationEngine

def calibrationError (message : String) : Exc := ⟨.other "CalibrationError", message⟩

def clip (p : ℚ) : ℚ := max 0 (min 1 p)

section Buckets

variable (bucketCount : Int)

/-- The bucket of a clipped prediction. -/
def indexOf (clipped : ℚ) : ℕ := (min (bucketCount - 1) (truncate (clipped * bucketCount))).toNat

/-- The body of the loop that fills the buckets. -/
def fill (buckets : List (List (ℚ × Bool))) (pair : ℚ × Bool) : List (List (ℚ × Bool)) :=
  let clipped := clip pair.1
  buckets.modify (indexOf bucketCount clipped) (· ++ [(clipped, pair.2)])

def fillBuckets (pairs : List (ℚ × Bool)) : List (List (ℚ × Bool)) :=
  pairs.foldl (fill bucketCount) (List.replicate bucketCount.toNat [])

/-- The row of a bucket, which is left out where the bucket is empty. -/
def rowOf (bucket : List (ℚ × Bool)) (index : ℕ) : Option CalibrationBucket :=
  if bucket = [] then none
  else some {
    bucketIndex := index
    lower := (index : ℚ) / bucketCount
    upper := ((index : ℚ) + 1) / bucketCount
    predictedMean := (bucket.map Prod.fst).sum / bucket.length
    observedFrequency := (bucket.countP (·.2) : ℚ) / bucket.length
    sampleSize := bucket.length }

/-- The loop over the buckets. -/
def reliability (buckets : List (List (ℚ × Bool))) : List CalibrationBucket :=
  buckets.zipIdx.filterMap fun entry => rowOf bucketCount entry.1 entry.2

end Buckets

/-- The share of a row in the calibration error. -/
def gap (total : ℕ) (row : CalibrationBucket) : ℚ :=
  (row.sampleSize : ℚ) / total * |row.observedFrequency - row.predictedMean|

def sparseWarning (minBucketSamples : Int) (row : CalibrationBucket) : Option String :=
  if row.sampleSize < minBucketSamples then
    some s!"bucket {row.bucketIndex} has sparse sample size ({row.sampleSize})"
  else none

def squaredError (pair : ℚ × Bool) : ℚ := (clip pair.1 - (if pair.2 then 1 else 0)) ^ 2

/-- What is reported of the pairs. -/
def diagnose (minBucketSamples bucketCount : Int) (pairs : List (ℚ × Bool)) :
    CalibrationDiagnostics :=
  let rows := reliability bucketCount (fillBuckets bucketCount pairs)
  { brierScore := (pairs.map squaredError).sum / pairs.length
    calibrationError := (rows.map (gap pairs.length)).sum
    reliabilityTable := rows
    overconfidence := (rows.map fun row => max 0 (row.predictedMean - row.observedFrequency)).sum
    underconfidence := (rows.map fun row => max 0 (row.observedFrequency - row.predictedMean)).sum
    warnings := rows.filterMap (sparseWarning minBucketSamples) }

/-- `evaluate`. -/
def evaluate (minBucketSamples : Int) (predictedProbabilities : List ℚ)
    (observedSuccesses : List Bool) (bucketCount : Int) (regimeLabels : Option (List String))
    (timestamps : Option (List DateTime)) : Except Exc CalibrationDiagnostics := do
  if predictedProbabilities.length ≠ observedSuccesses.length then
    .error (calibrationError "predictions and outcomes length mismatch")
  if predictedProbabilities = [] then .error (calibrationError "predictions cannot be empty")
  if bucketCount ≤ 0 then .error (calibrationError "bucket_count must be positive")
  let diagnostics := diagnose minBucketSamples bucketCount
    (predictedProbabilities.zip observedSuccesses)
  if (regimeLabels.any fun labels => labels.length ≠ predictedProbabilities.length) then
    .error (calibrationError "regime_labels length mismatch")
  if (timestamps.any fun stamps => stamps.length ≠ predictedProbabilities.length) then
    .error (calibrationError "timestamps length mismatch")
  return diagnostics

end ScoreCalibrationEngine
end OptionResearch

namespace OptionResearch.ScoreCalibrationEngine

def clipped (pair : ℚ × Bool) : ℚ × Bool := (clip pair.1, pair.2)

def excess (pair : ℚ × Bool) : ℚ := pair.1 - if pair.2 then 1 else 0

theorem clip_nonneg (p : ℚ) : 0 ≤ clip p := le_max_left _ _

theorem clip_le_one (p : ℚ) : clip p ≤ 1 := max_le zero_le_one (min_le_left _ _)

theorem squaredError_le_one (pair : ℚ × Bool) : squaredError pair ≤ 1 := by
  have hnonneg := clip_nonneg pair.1
  have hle := clip_le_one pair.1
  rw [squaredError, sq_le_one_iff_abs_le_one, abs_le]
  split_ifs <;> constructor <;> linarith

section Parts

variable {minBucketSamples bucketCount : Int} {pairs items : List (ℚ × Bool)}

/-- The index of a clipped pair. -/
def keyOf (bucketCount : Int) (item : ℚ × Bool) : ℕ := indexOf bucketCount item.1

/-- The clipped pairs of an index. -/
def part (bucketCount : Int) (items : List (ℚ × Bool)) (index : ℕ) : List (ℚ × Bool) :=
  items.filter fun item => keyOf bucketCount item = index

theorem part_concat (item : ℚ × Bool) (index : ℕ) :
    part bucketCount (items ++ [item]) index =
      if keyOf bucketCount item = index then part bucketCount items index ++ [item]
      else part bucketCount items index := by
  rw [part, part, List.filter_append, List.filter_cons, List.filter_nil]
  by_cases hkey : keyOf bucketCount item = index
  · rw [if_pos hkey, if_pos (decide_eq_true hkey)]
  · rw [if_neg hkey, if_neg (by simpa using hkey), List.append_nil]

theorem fill_part (pair : ℚ × Bool) (count : ℕ) :
    fill bucketCount ((List.range count).map (part bucketCount items)) pair =
      (List.range count).map (part bucketCount (items ++ [clipped pair])) := by
  refine List.ext_getElem? fun index => ?_
  rw [fill, List.getElem?_modify, List.getElem?_map, List.getElem?_map]
  by_cases hindex : index < count
  · rw [List.getElem?_range hindex, Option.map_some, Option.map_some, part_concat]
    rfl
  · rw [List.getElem?_eq_none (by simpa using hindex)]
    rfl

theorem fillBuckets_eq :
    fillBuckets bucketCount pairs =
      (List.range bucketCount.toNat).map (part bucketCount (pairs.map clipped)) := by
  have hfold : ∀ front, pairs.foldl (fill bucketCount)
      ((List.range bucketCount.toNat).map (part bucketCount front)) =
        (List.range bucketCount.toNat).map (part bucketCount (front ++ pairs.map clipped)) := by
    induction pairs with
    | nil => intro front; rw [List.foldl_nil, List.map_nil, List.append_nil]
    | cons pair rest ih =>
      intro front
      rw [List.foldl_cons, fill_part, ih, List.map_cons, List.append_assoc, List.singleton_append]
  have hempty : List.replicate bucketCount.toNat [] =
      (List.range bucketCount.toNat).map (part bucketCount []) := by
    rw [List.eq_replicate_iff.mpr ⟨(List.length_map _).trans List.length_range, ?_⟩]
    intro bucket hbucket
    obtain ⟨index, -, rfl⟩ := List.mem_map.mp hbucket
    rfl
  rw [fillBuckets, hempty, hfold, List.nil_append]

theorem reliability_eq (parts : ℕ → List (ℚ × Bool)) (count : ℕ) :
    reliability bucketCount ((List.range count).map parts) =
      (List.range count).filterMap fun index => rowOf bucketCount (parts index) index := by
  have hzip : ((List.range count).map parts).zipIdx =
      (List.range count).map fun index => (parts index, index) := by
    refine List.ext_getElem? fun index => ?_
    rw [List.getElem?_zipIdx, List.getElem?_map, List.getElem?_map, zero_add]
    by_cases hindex : index < count
    · rw [List.getElem?_range hindex]
      rfl
    · rw [List.getElem?_eq_none (by simpa using hindex)]
      rfl
  rw [reliability, hzip, List.filterMap_map]
  rfl

theorem indexOf_spec (hcount : 1 ≤ bucketCount) {c : ℚ} (hnonneg : 0 ≤ c) (hle : c ≤ 1) :
    indexOf bucketCount c < bucketCount.toNat ∧ (indexOf bucketCount c : ℚ) / bucketCount ≤ c ∧
      c ≤ ((indexOf bucketCount c : ℚ) + 1) / bucketCount := by
  have hpos : (0 : ℚ) < bucketCount := Int.cast_pos.mpr hcount
  have hscaled : 0 ≤ c * bucketCount := mul_nonneg hnonneg hpos.le
  have hfloor_nonneg : 0 ≤ ⌊c * bucketCount⌋ := Int.floor_nonneg.mpr hscaled
  have hfloor_le := Int.floor_le (c * bucketCount)
  have hlt_floor := Int.lt_floor_add_one (c * bucketCount)
  have hindex : ((indexOf bucketCount c : ℕ) : Int) = min (bucketCount - 1) ⌊c * bucketCount⌋ := by
    rw [indexOf, truncate_eq_floor hscaled]
    exact Int.toNat_of_nonneg (le_min (by omega) hfloor_nonneg)
  have hcast : ((indexOf bucketCount c : ℕ) : ℚ) =
      ((min (bucketCount - 1) ⌊c * bucketCount⌋ : Int) : ℚ) := by
    rw [← hindex, Int.cast_natCast]
  refine ⟨by omega, ?_, ?_⟩
  · rw [div_le_iff₀ hpos, hcast]
    exact (Int.cast_le.mpr (min_le_right _ _)).trans hfloor_le
  · rw [le_div_iff₀ hpos, hcast]
    rcases le_total ⌊c * bucketCount⌋ (bucketCount - 1) with hbelow | habove
    · rw [min_eq_right hbelow]
      exact hlt_floor.le
    · rw [min_eq_left habove, Int.cast_sub, Int.cast_one, sub_add_cancel]
      exact mul_le_of_le_one_left hpos.le hle

theorem keyOf_mem (hcount : 1 ≤ bucketCount) :
    ∀ item ∈ pairs.map clipped, keyOf bucketCount item ∈ Finset.range bucketCount.toNat := by
  intro item hitem
  obtain ⟨pair, -, rfl⟩ := List.mem_map.mp hitem
  exact Finset.mem_range.mpr (indexOf_spec hcount (clip_nonneg _) (clip_le_one _)).1

/-- The rows of the table. -/
theorem reliability_fillBuckets :
    reliability bucketCount (fillBuckets bucketCount pairs) =
      (List.range bucketCount.toNat).filterMap fun index =>
        rowOf bucketCount (part bucketCount (pairs.map clipped) index) index := by
  rw [fillBuckets_eq, reliability_eq]

/-- A figure of the rows, added up, that an empty bucket would not add to. -/
theorem sum_rows {M : Type} [AddCommMonoid M] (figure : CalibrationBucket → M) (whole : ℕ → M)
    (hempty : ∀ index, part bucketCount (pairs.map clipped) index = [] → whole index = 0)
    (hfigure : ∀ index row, rowOf bucketCount (part bucketCount (pairs.map clipped) index) index =
      some row → figure row = whole index) :
    ((reliability bucketCount (fillBuckets bucketCount pairs)).map figure).sum =
      ∑ index ∈ Finset.range bucketCount.toNat, whole index := by
  rw [reliability_fillBuckets, List.map_filterMap, sum_filterMap]
  refine congrArg List.sum (List.map_congr_left fun index _ => ?_)
  cases hrow : rowOf bucketCount (part bucketCount (pairs.map clipped) index) index with
  | none =>
    rw [Option.map_none, Option.getD_none, hempty index]
    rw [rowOf] at hrow
    split_ifs at hrow with hnil
    exact hnil
  | some row => rw [Option.map_some, Option.getD_some, hfigure index row hrow]

theorem sum_excess (bucket : List (ℚ × Bool)) :
    (bucket.map excess).sum = (bucket.map Prod.fst).sum - (bucket.countP (·.2) : ℚ) := by
  induction bucket with
  | nil => simp
  | cons item rest ih =>
    rw [List.map_cons, List.sum_cons, ih, List.map_cons, List.sum_cons, List.countP_cons, excess]
    split_ifs <;> push_cast <;> ring

/-- The share of a row is what its predictions exceed its outcomes by. -/
theorem gap_eq {bucket : List (ℚ × Bool)} {index : ℕ} {row : CalibrationBucket} (total : ℕ)
    (hrow : rowOf bucketCount bucket index = some row) :
    gap total row = |(bucket.map excess).sum| / total := by
  rw [rowOf] at hrow
  split_ifs at hrow with hnil
  cases hrow
  have hsize : (0 : ℚ) < bucket.length := Nat.cast_pos.mpr (List.length_pos_iff.mpr hnil)
  rw [gap, sum_excess, abs_sub_comm, ← sub_div, abs_div, abs_of_pos hsize]
  field_simp

/-- The calibration error is the sum of the excesses of the buckets, without their signs. -/
theorem calibrationError_eq :
    (diagnose minBucketSamples bucketCount pairs).calibrationError =
      (∑ index ∈ Finset.range bucketCount.toNat,
        |totalOf (keyOf bucketCount) excess (pairs.map clipped) index|) / pairs.length := by
  rw [Finset.sum_div]
  refine sum_rows _ _ (fun index hnil => ?_) fun index row hrow => gap_eq _ hrow
  rw [totalOf]
  change |((part bucketCount (pairs.map clipped) index).map excess).sum| / _ = 0
  rw [hnil, List.map_nil, List.sum_nil, abs_zero, zero_div]

theorem sampleSizes_sum (hcount : 1 ≤ bucketCount) :
    ((reliability bucketCount (fillBuckets bucketCount pairs)).map (·.sampleSize)).sum =
      pairs.length := by
  have hlength : ((pairs.map clipped).map fun _ => 1).sum = pairs.length := by
    simp only [List.map_map, Function.comp_def, List.map_const', List.sum_replicate, smul_eq_mul,
      mul_one]
  rw [← hlength, ← sum_totalOf (fun _ => 1) (keyOf_mem hcount)]
  refine sum_rows _ _ (fun index hnil => ?_) fun index row hrow => ?_
  · change ((part bucketCount (pairs.map clipped) index).map fun _ => 1).sum = 0
    rw [hnil, List.map_nil, List.sum_nil]
  · rw [rowOf] at hrow
    split_ifs at hrow
    cases hrow
    change _ = ((part bucketCount (pairs.map clipped) index).map fun _ => 1).sum
    rw [List.map_const', List.sum_replicate, smul_eq_mul, mul_one]

/-- The mean of values within bounds is within them. -/
theorem mean_mem_Icc {values : List ℚ} {lower upper : ℚ} (hne : values ≠ [])
    (hbounds : ∀ value ∈ values, lower ≤ value ∧ value ≤ upper) :
    lower ≤ values.sum / values.length ∧ values.sum / values.length ≤ upper := by
  have hsize : (0 : ℚ) < values.length := Nat.cast_pos.mpr (List.length_pos_iff.mpr hne)
  have hlow := List.card_nsmul_le_sum values lower fun value hmem => (hbounds value hmem).1
  have hhigh := List.sum_le_card_nsmul values upper fun value hmem => (hbounds value hmem).2
  rw [nsmul_eq_mul] at hlow hhigh
  rw [le_div_iff₀ hsize, div_le_iff₀ hsize]
  constructor <;> linarith

theorem predictedMean_mem (hcount : 1 ≤ bucketCount) :
    ∀ row ∈ reliability bucketCount (fillBuckets bucketCount pairs),
      row.lower ≤ row.predictedMean ∧ row.predictedMean ≤ row.upper := by
  rw [reliability_fillBuckets]
  intro row hrow
  obtain ⟨index, -, hrow⟩ := List.mem_filterMap.mp hrow
  rw [rowOf] at hrow
  split_ifs at hrow with hnil
  cases hrow
  have hbounds : ∀ value ∈ (part bucketCount (pairs.map clipped) index).map Prod.fst,
      (index : ℚ) / bucketCount ≤ value ∧ value ≤ ((index : ℚ) + 1) / bucketCount := by
    intro value hvalue
    obtain ⟨item, hitem, rfl⟩ := List.mem_map.mp hvalue
    obtain ⟨hitem, hkey⟩ := List.mem_filter.mp hitem
    obtain ⟨pair, -, rfl⟩ := List.mem_map.mp hitem
    obtain rfl := of_decide_eq_true hkey
    exact (indexOf_spec hcount (clip_nonneg _) (clip_le_one _)).2
  have hmean := mean_mem_Icc (mt List.map_eq_nil_iff.mp hnil) hbounds
  rwa [List.length_map] at hmean

theorem sq_calibrationError_le (hcount : 1 ≤ bucketCount) (hne : pairs ≠ []) :
    (diagnose minBucketSamples bucketCount pairs).calibrationError ^ 2 ≤
      (diagnose minBucketSamples bucketCount pairs).brierScore := by
  have hsize : (0 : ℚ) < pairs.length := Nat.cast_pos.mpr (List.length_pos_iff.mpr hne)
  have hsquare := sq_sum_abs_totalOf_le excess (@keyOf_mem bucketCount pairs hcount)
  rw [List.length_map, List.map_map] at hsquare
  rw [calibrationError_eq, div_pow, div_le_iff₀ (by positivity)]
  refine hsquare.trans_eq ?_
  change _ = (pairs.map squaredError).sum / pairs.length * (pairs.length : ℚ) ^ 2
  rw [sq, ← mul_assoc, div_mul_cancel₀ _ hsize.ne', mul_comm]
  -- a squared error is the square of an excess, by definition
  rfl

theorem brierScore_le_one (hne : pairs ≠ []) :
    (diagnose minBucketSamples bucketCount pairs).brierScore ≤ 1 := by
  have hsize : (0 : ℚ) < pairs.length := Nat.cast_pos.mpr (List.length_pos_iff.mpr hne)
  have hsum := List.sum_le_card_nsmul (pairs.map squaredError) 1 fun error herror => by
    obtain ⟨pair, -, rfl⟩ := List.mem_map.mp herror
    exact squaredError_le_one pair
  rw [List.length_map, nsmul_eq_mul, mul_one] at hsum
  exact (div_le_one hsize).mpr hsum

theorem abs_mean_sub_le (hcount : 1 ≤ bucketCount) :
    |(pairs.map fun pair => clip pair.1).sum / (pairs.length : ℚ) -
        ((pairs.countP (·.2) : ℕ) : ℚ) / pairs.length| ≤
      (diagnose minBucketSamples bucketCount pairs).calibrationError := by
  have hsum : ((pairs.map clipped).map excess).sum =
      (pairs.map fun pair => clip pair.1).sum - ((pairs.countP (·.2) : ℕ) : ℚ) := by
    rw [sum_excess, List.map_map, List.countP_map]
    rfl
  rw [← sub_div, ← hsum, abs_div, Nat.abs_cast, calibrationError_eq]
  exact div_le_div_of_nonneg_right (abs_sum_le_sum_totalOf excess (keyOf_mem hcount))
    (Nat.cast_nonneg _)

/-! ### The order of the pairs -/

theorem rowOf_perm {bucket other : List (ℚ × Bool)} (hperm : bucket.Perm other) (index : ℕ) :
    rowOf bucketCount bucket index = rowOf bucketCount other index := by
  have hnil : bucket = [] ↔ other = [] :=
    ⟨fun h => (h ▸ hperm).symm.eq_nil, fun h => (h ▸ hperm).eq_nil⟩
  simp only [rowOf, hnil, hperm.length_eq, (hperm.map Prod.fst).sum_eq, hperm.countP_eq]

theorem diagnose_perm {order : List (ℚ × Bool)} (hperm : order.Perm pairs) :
    diagnose minBucketSamples bucketCount order = diagnose minBucketSamples bucketCount pairs := by
  have hrows : reliability bucketCount (fillBuckets bucketCount order) =
      reliability bucketCount (fillBuckets bucketCount pairs) := by
    rw [reliability_fillBuckets, reliability_fillBuckets]
    exact congrArg (List.filterMap · _)
      (funext fun index => rowOf_perm ((hperm.map clipped).filter _) index)
  simp only [diagnose, hrows, hperm.length_eq, (hperm.map squaredError).sum_eq]

end Parts

/-- What the figures of the pairs satisfy. -/
structure Calibrates (pairs : List (ℚ × Bool)) (result : CalibrationDiagnostics) : Prop where
  samples : (result.reliabilityTable.map (·.sampleSize)).sum = pairs.length
  means : ∀ row ∈ result.reliabilityTable,
    row.lower ≤ row.predictedMean ∧ row.predictedMean ≤ row.upper
  sq_error_le : result.calibrationError ^ 2 ≤ result.brierScore
  brier_le_one : result.brierScore ≤ 1
  mean_le : |(pairs.map fun pair => clip pair.1).sum / (pairs.length : ℚ) -
    ((pairs.countP (·.2) : ℕ) : ℚ) / pairs.length| ≤ result.calibrationError

theorem evaluate_eq {minBucketSamples bucketCount : Int} {predicted : List ℚ}
    {observed : List Bool} {regimeLabels : Option (List String)}
    {timestamps : Option (List DateTime)} (hne : predicted ≠ [])
    (hlength : predicted.length = observed.length) (hcount : 1 ≤ bucketCount)
    (hlabels : ∀ labels ∈ regimeLabels, labels.length = predicted.length)
    (hstamps : ∀ stamps ∈ timestamps, stamps.length = predicted.length) :
    evaluate minBucketSamples predicted observed bucketCount regimeLabels timestamps =
      .ok (diagnose minBucketSamples bucketCount (predicted.zip observed)) := by
  have hlabels' : ¬ (regimeLabels.any fun labels => labels.length ≠ predicted.length) = true := by
    rw [Option.any_eq_true]
    rintro ⟨labels, hmem, hlabel⟩
    exact of_decide_eq_true hlabel (hlabels labels hmem)
  have hstamps' : ¬ (timestamps.any fun stamps => stamps.length ≠ predicted.length) = true := by
    rw [Option.any_eq_true]
    rintro ⟨stamps, hmem, hstamp⟩
    exact of_decide_eq_true hstamp (hstamps stamps hmem)
  rw [evaluate, if_neg (not_not.mpr hlength), if_neg hne, if_neg (by omega), if_neg hlabels',
    if_neg hstamps']
  rfl

/-- The figures obey the inequalities, and are those of the pairs in any order. -/
theorem evaluate_calibrates {minBucketSamples bucketCount : Int} {predicted : List ℚ}
    {observed : List Bool} {regimeLabels : Option (List String)}
    {timestamps : Option (List DateTime)} (hne : predicted ≠ [])
    (hlength : predicted.length = observed.length) (hcount : 1 ≤ bucketCount)
    (hlabels : ∀ labels ∈ regimeLabels, labels.length = predicted.length)
    (hstamps : ∀ stamps ∈ timestamps, stamps.length = predicted.length) :
    ∃ result,
      evaluate minBucketSamples predicted observed bucketCount regimeLabels timestamps =
        .ok result ∧
      Calibrates (predicted.zip observed) result ∧
      ∀ order : List (ℚ × Bool), order.Perm (predicted.zip observed) →
        evaluate minBucketSamples (order.map Prod.fst) (order.map Prod.snd) bucketCount regimeLabels
          timestamps = .ok result := by
  have hzip : (predicted.zip observed).length = predicted.length := by
    rw [List.length_zip, ← hlength, min_self]
  have hpairs : predicted.zip observed ≠ [] := fun hnil => hne (by
    rw [← List.length_eq_zero_iff, ← hzip, hnil, List.length_nil])
  refine ⟨_, evaluate_eq hne hlength hcount hlabels hstamps,
    ⟨sampleSizes_sum hcount, predictedMean_mem hcount, sq_calibrationError_le hcount hpairs,
      brierScore_le_one hpairs, abs_mean_sub_le hcount⟩, fun order hperm => ?_⟩
  have hsize : (order.map Prod.fst).length = predicted.length := by
    rw [List.length_map, hperm.length_eq, hzip]
  have hne' : order.map Prod.fst ≠ [] := fun hnil => hne (by
    rw [← List.length_eq_zero_iff, ← hsize, hnil, List.length_nil])
  rw [evaluate_eq hne' (by rw [List.length_map, List.length_map]) hcount
    (fun labels hmem => (hlabels labels hmem).trans hsize.symm)
    (fun stamps hmem => (hstamps stamps hmem).trans hsize.symm),
    ← List.zip_of_prod rfl rfl, diagnose_perm hperm]

/-- Four predictions in two buckets. -/
theorem evaluate_calibrates_fourths :
    ∃ result, evaluate 10 [1 / 4, 1 / 2, 1, 3 / 2] [false, true, true, false] 2 none none =
        .ok result ∧
      Calibrates ([1 / 4, 1 / 2, 1, 3 / 2].zip [false, true, true, false]) result := by
  obtain ⟨result, hrun, hcalibrates, -⟩ := @evaluate_calibrates 10 2 [1 / 4, 1 / 2, 1, 3 / 2]
    [false, true, true, false] none none (List.cons_ne_nil _ _) rfl (by decide)
    (fun labels hmem => absurd hmem (Option.not_mem_none labels))
    (fun stamps hmem => absurd hmem (Option.not_mem_none stamps))
  exact ⟨result, hrun, hcalibrates⟩

end OptionResearch.ScoreCalibrationEngine
