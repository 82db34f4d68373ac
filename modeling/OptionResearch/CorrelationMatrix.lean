import Mathlib.Algebra.BigOperators.Field
import Mathlib.Algebra.Order.BigOperators.Ring.Finset
import Mathlib.Algebra.Order.Chebyshev
import Mathlib.Analysis.Real.Sqrt
import Mathlib.Data.String.Basic
import OptionResearch.InsertionDict
import OptionResearch.StableSort

/-!
# Correlations of candidates

`CorrelationEngine` of `portfolio/correlation.py`: the correlation of every two candidates, shrunk
towards zero, and the matrix of the estimates with ones on its diagonal. Where all the series have
one length the matrix is positive semidefinite.
-/

namespace OptionResearch

open Finset StableSort

inductive CorrelationKind where
  | strategyReturn
  | underlyingReturn
  | pnl
  | drawdown
  | tailLoss
  | regimeConditioned
  | rolling
  | downside
  deriving DecidableEq, Repr

/-- The series of a `CandidateInput`. -/
structure CandidateSeries (K : Type) where
  candidateId : String
  returns : List K
  pnl : List K
  underlyingReturns : List K := []
  drawdowns : List K := []
  tailLosses : List K := []

structure CorrelationEstimate (K : Type) where
  leftId : String
  rightId : String
  kind : CorrelationKind
  value : K
  uncertainty : K
  effectiveSampleSize : ℕ
  sparseWarning : Bool := false

structure CorrelationEngine (K : Type) where
  minSamples : Int := 20
  shrinkage : K

/-- A table of rows, by their names and those of the columns. -/
abbrev NamedMatrix (K : Type) := InsertionDict String (InsertionDict String K)

namespace NamedMatrix

variable {K : Type}

/-- `matrix[row][column]`. -/
def entry (matrix : NamedMatrix K) (row column : String) : Option K :=
  (matrix.get? row).bind (·.get? column)

/-- `matrix[row][column] = value`. -/
def setEntry (matrix : NamedMatrix K) (row column : String) (value : K) : NamedMatrix K :=
  matrix.set row (((matrix.get? row).getD .empty).set column value)

theorem entry_setEntry {matrix : NamedMatrix K} {row column row' column' : String} {value : K} :
    (matrix.setEntry row column value).entry row' column' =
      if row' = row ∧ column' = column then some value else matrix.entry row' column' := by
  rw [entry, setEntry, InsertionDict.get?_set]
  by_cases hrow : row' = row
  · subst hrow
    rw [if_pos rfl, Option.bind_some, InsertionDict.get?_set, entry]
    by_cases hcolumn : column' = column
    · rw [if_pos hcolumn, if_pos ⟨rfl, hcolumn⟩]
    · rw [if_neg hcolumn, if_neg fun h => hcolumn h.2]
      cases matrix.get? row' <;> rfl
  · rw [if_neg hrow, if_neg fun h => hrow h.1, entry]

end NamedMatrix

namespace CorrelationEngine

section

variable {K : Type} [Field K] [LinearOrder K]

/-- `_series_for_kind`. -/
def seriesForKind (candidate : CandidateSeries K) : CorrelationKind → List K
  | .strategyReturn => candidate.returns
  | .underlyingReturn => candidate.underlyingReturns
  | .pnl => candidate.pnl
  | .drawdown => candidate.drawdowns
  | .tailLoss => candidate.tailLosses
  | .downside => candidate.returns.filter fun value => decide (value < 0)
  | .regimeConditioned => candidate.returns
  | .rolling =>
    let window := min 10 candidate.returns.length
    if window ≤ 1 then candidate.returns
    else (List.range (candidate.returns.length - window + 1)).map fun index =>
      ((candidate.returns.drop index).take window).sum / window

def mean (values : List K) : K := values.sum / values.length

variable (sqrt : K → K) (engine : CorrelationEngine K) (kind : CorrelationKind)

/-- `_corr`. -/
def corr (left right : List K) : K :=
  if left.length ≤ 1 ∨ right.length ≤ 1 then 0
  else
    let divisorLeft : K := (max (left.length - 1) 1 : ℕ)
    let divisorRight : K := (max (right.length - 1) 1 : ℕ)
    let cov := ((left.zip right).map fun pair => (pair.1 - mean left) * (pair.2 - mean right)).sum /
      divisorLeft
    let varLeft := (left.map fun value => (value - mean left) ^ 2).sum / divisorLeft
    let varRight := (right.map fun value => (value - mean right) ^ 2).sum / divisorRight
    if varLeft ≤ 0 ∨ varRight ≤ 0 then 0
    else max (-1) (min 1 (cov / sqrt (varLeft * varRight)))

/-- The correlation of what the series have in common, shrunk. -/
def shrunk (left right : List K) : K :=
  let sampleCount := min left.length right.length
  if sampleCount = 0 then 0
  else (1 - engine.shrinkage) * corr sqrt (left.take sampleCount) (right.take sampleCount)

/-- The body of the loops of `estimate`. -/
def estimatePair (left right : CandidateSeries K) : CorrelationEstimate K :=
  let leftValues := seriesForKind left kind
  let rightValues := seriesForKind right kind
  let sampleCount := min leftValues.length rightValues.length
  let sparse := (sampleCount : Int) < engine.minSamples
  let uncertainty : K := 1 / (max sampleCount 1 : ℕ)
  { leftId := left.candidateId
    rightId := right.candidateId
    kind
    value := shrunk sqrt engine leftValues rightValues
    uncertainty :=
      if sampleCount = 0 then 1 else if sparse then max uncertainty 0.4 else uncertainty
    effectiveSampleSize := sampleCount
    sparseWarning := sparse }

/-- The loops of `estimate`, over the candidates and over those from each of them on. -/
def estimatesFrom : List (CandidateSeries K) → List (CorrelationEstimate K)
  | [] => []
  | left :: rest =>
    (left :: rest).map (estimatePair sqrt engine kind left) ++ estimatesFrom rest

def estimate (candidates : List (CandidateSeries K)) : List (CorrelationEstimate K) :=
  estimatesFrom sqrt engine kind (sortBy CandidateSeries.candidateId candidates)

/-- The entries that an estimate sets. -/
def record (matrix : NamedMatrix K) (estimate : CorrelationEstimate K) : NamedMatrix K :=
  (matrix.setEntry estimate.leftId estimate.rightId estimate.value).setEntry estimate.rightId
    estimate.leftId estimate.value

def matrix (estimates : List (CorrelationEstimate K)) : NamedMatrix K :=
  let ids := sortBy id
    (estimates.map CorrelationEstimate.leftId ++ estimates.map CorrelationEstimate.rightId).dedup
  let zeros := InsertionDict.ofEntries (ids.map fun other => (other, (0 : K)))
  let start : NamedMatrix K := InsertionDict.ofEntries (ids.map fun item => (item, zeros))
  ids.foldl (fun matrix item => matrix.setEntry item item 1) (estimates.foldl record start)

end

/-! ### Correlations as products of unit vectors -/

section Units

theorem sum_map_eq_sum_range (f : ℝ → ℝ) (values : List ℝ) :
    (values.map f).sum = ∑ k ∈ range values.length, f (values.getD k 0) := by
  induction values with
  | nil => rfl
  | cons value rest ih =>
    rw [List.map_cons, List.sum_cons, ih, List.length_cons, sum_range_succ', add_comm]
    rfl

theorem sum_map_zip_eq_sum_range (f : ℝ × ℝ → ℝ) {left right : List ℝ}
    (h : left.length = right.length) :
    ((left.zip right).map f).sum =
      ∑ k ∈ range left.length, f (left.getD k 0, right.getD k 0) := by
  induction left generalizing right with
  | nil => rfl
  | cons value rest ih =>
    cases right with
    | nil => cases h
    | cons value' rest' =>
      rw [List.zip_cons_cons, List.map_cons, List.sum_cons, ih (Nat.succ.inj h), List.length_cons,
        sum_range_succ', add_comm]
      rfl

/-- How far the value is from the mean. -/
noncomputable def centered (values : List ℝ) (k : ℕ) : ℝ := values.getD k 0 - mean values

noncomputable def energy (values : List ℝ) : ℝ := ∑ k ∈ range values.length, centered values k ^ 2

/-- The series without its mean and of length one; nothing is left of a constant series. -/
noncomputable def unit (values : List ℝ) (k : ℕ) : ℝ := centered values k / √(energy values)

theorem energy_nonneg (values : List ℝ) : 0 ≤ energy values :=
  sum_nonneg fun _ _ => sq_nonneg _

theorem sum_unit_sq_le_one (values : List ℝ) :
    ∑ k ∈ range values.length, unit values k ^ 2 ≤ 1 := by
  simp only [unit, div_pow, ← sum_div, Real.sq_sqrt (energy_nonneg values)]
  exact div_self_le_one _

/-- By Cauchy and Schwarz. -/
theorem abs_sum_unit_le_one {left right : List ℝ} (h : left.length = right.length) :
    |∑ k ∈ range left.length, unit left k * unit right k| ≤ 1 := by
  have hleft := sum_unit_sq_le_one left
  have hright := sum_unit_sq_le_one right
  rw [← h] at hright
  rw [← sq_le_one_iff_abs_le_one]
  calc (∑ k ∈ range left.length, unit left k * unit right k) ^ 2
      ≤ (∑ k ∈ range left.length, unit left k ^ 2) * ∑ k ∈ range left.length, unit right k ^ 2 :=
        sum_mul_sq_le_sq_mul_sq _ _ _
    _ ≤ 1 := mul_le_one₀ hleft (sum_nonneg fun _ _ => sq_nonneg _) hright

theorem energy_eq_zero_of_length_le_one {values : List ℝ} (h : values.length ≤ 1) :
    energy values = 0 := by
  match values, h with
  | [], _ => rfl
  | [value], _ => simp [energy, centered, mean]

theorem unit_eq_zero {values : List ℝ} (h : energy values ≤ 0) (k : ℕ) : unit values k = 0 := by
  rw [unit, le_antisymm h (energy_nonneg values), Real.sqrt_zero, div_zero]

/-- The correlation of series of one length. -/
theorem corr_eq_sum_unit {left right : List ℝ} (h : left.length = right.length) :
    corr Real.sqrt left right = ∑ k ∈ range left.length, unit left k * unit right k := by
  by_cases hshort : left.length ≤ 1 ∨ right.length ≤ 1
  · have hzero : energy left = 0 := energy_eq_zero_of_length_le_one (by omega)
    rw [corr, if_pos hshort]
    exact (sum_eq_zero fun k _ => by rw [unit_eq_zero hzero.le, zero_mul]).symm
  · have hcov :
        ((left.zip right).map fun pair => (pair.1 - mean left) * (pair.2 - mean right)).sum =
          ∑ k ∈ range left.length, centered left k * centered right k :=
      sum_map_zip_eq_sum_range _ h
    have henergy : ∀ values : List ℝ,
        (values.map fun value => (value - mean values) ^ 2).sum = energy values :=
      fun values => sum_map_eq_sum_range _ values
    rw [corr, if_neg hshort, hcov, henergy, henergy, ← h]
    obtain ⟨d, hd⟩ : ∃ d : ℝ, ((max (left.length - 1) 1 : ℕ) : ℝ) = d := ⟨_, rfl⟩
    have hpos : 0 < d := hd ▸ Nat.cast_pos.mpr (lt_max_of_lt_right one_pos)
    rw [hd]
    dsimp only
    by_cases hflat : energy left / d ≤ 0 ∨ energy right / d ≤ 0
    · rw [if_pos hflat]
      have hsign : ∀ e : ℝ, e / d ≤ 0 → e ≤ 0 := fun e he => by
        rwa [div_le_iff₀ hpos, zero_mul] at he
      refine (sum_eq_zero fun k _ => ?_).symm
      rcases hflat with hleft | hright
      · rw [unit_eq_zero (hsign _ hleft), zero_mul]
      · rw [unit_eq_zero (hsign _ hright), mul_zero]
    · rw [if_neg hflat]
      have hroot : √(energy left / d * (energy right / d)) =
          √(energy left) * √(energy right) / d := by
        rw [div_mul_div_comm, Real.sqrt_div (mul_nonneg (energy_nonneg _) (energy_nonneg _)),
          Real.sqrt_mul_self hpos.le, Real.sqrt_mul (energy_nonneg _)]
      have hunit : (∑ k ∈ range left.length, centered left k * centered right k) / d /
          √(energy left / d * (energy right / d)) =
          ∑ k ∈ range left.length, unit left k * unit right k := by
        rw [hroot, div_div_div_cancel_right₀ hpos.ne', sum_div]
        exact sum_congr rfl fun k _ => (div_mul_div_comm _ _ _ _).symm
      have hbound := abs_le.mp (abs_sum_unit_le_one h)
      rw [hunit, min_eq_right hbound.2, max_eq_right hbound.1]

end Units

/-! ### Gram forms -/

section Gram

variable {ι : Type} {names : Finset ι} {u : ι → ℕ → ℝ} {n : ℕ} {share : ℝ}

/-- A Gram form is a sum of squares. -/
theorem sum_gram (weights : ι → ℝ) :
    ∑ row ∈ names, ∑ column ∈ names,
        weights row * weights column * ∑ k ∈ range n, u row k * u column k =
      ∑ k ∈ range n, (∑ row ∈ names, weights row * u row k) ^ 2 := by
  calc ∑ row ∈ names, ∑ column ∈ names,
          weights row * weights column * ∑ k ∈ range n, u row k * u column k
      = ∑ row ∈ names, ∑ column ∈ names, ∑ k ∈ range n,
          weights row * u row k * (weights column * u column k) := by
        refine sum_congr rfl fun row _ => sum_congr rfl fun column _ => ?_
        rw [mul_sum]
        exact sum_congr rfl fun k _ => mul_mul_mul_comm _ _ _ _
    _ = ∑ row ∈ names, ∑ k ∈ range n, ∑ column ∈ names,
          weights row * u row k * (weights column * u column k) :=
        sum_congr rfl fun row _ => sum_comm
    _ = ∑ k ∈ range n, ∑ row ∈ names, ∑ column ∈ names,
          weights row * u row k * (weights column * u column k) := sum_comm
    _ = ∑ k ∈ range n, (∑ row ∈ names, weights row * u row k) ^ 2 := by
        refine sum_congr rfl fun k _ => ?_
        rw [sq, sum_mul_sum]

/-- Shrinking the products and putting ones on the diagonal adds squares only. -/
theorem gram_nonneg [DecidableEq ι] (hshare : share ∈ Set.Icc 0 1)
    (hunit : ∀ row ∈ names, ∑ k ∈ range n, u row k ^ 2 ≤ 1) (weights : ι → ℝ) :
    0 ≤ ∑ row ∈ names, ∑ column ∈ names, weights row * weights column *
      if row = column then 1 else share * ∑ k ∈ range n, u row k * u column k := by
  have hsplit : ∀ row column, weights row * weights column *
      (if row = column then 1 else share * ∑ k ∈ range n, u row k * u column k) =
      share * (weights row * weights column * ∑ k ∈ range n, u row k * u column k) +
        if row = column then weights row ^ 2 * (1 - share * ∑ k ∈ range n, u row k ^ 2) else 0 := by
    intro row column
    by_cases heq : row = column
    · subst heq
      simp only [if_true, ← sq]
      ring
    · rw [if_neg heq, if_neg heq]
      ring
  have hdiagonal : ∀ row ∈ names, ∑ column ∈ names,
      (if row = column then weights row ^ 2 * (1 - share * ∑ k ∈ range n, u row k ^ 2) else 0) =
      weights row ^ 2 * (1 - share * ∑ k ∈ range n, u row k ^ 2) := by
    intro row hrow
    rw [sum_ite_eq, if_pos hrow]
  have hrest : ∀ row ∈ names, 0 ≤ 1 - share * ∑ k ∈ range n, u row k ^ 2 := fun row hrow =>
    sub_nonneg.mpr
      (mul_le_one₀ hshare.2 (sum_nonneg fun _ _ => sq_nonneg _) (hunit row hrow))
  calc (0 : ℝ)
      ≤ share * ∑ k ∈ range n, (∑ row ∈ names, weights row * u row k) ^ 2 +
          ∑ row ∈ names, weights row ^ 2 * (1 - share * ∑ k ∈ range n, u row k ^ 2) :=
        add_nonneg (mul_nonneg hshare.1 (sum_nonneg fun _ _ => sq_nonneg _))
          (sum_nonneg fun row hrow => mul_nonneg (sq_nonneg _) (hrest row hrow))
    _ = ∑ row ∈ names, ∑ column ∈ names, weights row * weights column *
          if row = column then 1 else share * ∑ k ∈ range n, u row k * u column k := by
        simp only [hsplit, sum_add_distrib, ← mul_sum]
        rw [sum_gram, sum_congr rfl hdiagonal]

end Gram

/-! ### The matrix of the estimates -/

section Matrix

variable {engine : CorrelationEngine ℝ} {kind : CorrelationKind} {left right : List ℝ}

theorem corr_comm (h : left.length = right.length) :
    corr Real.sqrt left right = corr Real.sqrt right left := by
  rw [corr_eq_sum_unit h, corr_eq_sum_unit h.symm, h]
  exact sum_congr rfl fun k _ => mul_comm _ _

theorem length_take_min (left right : List ℝ) :
    (left.take (min left.length right.length)).length =
      (right.take (min left.length right.length)).length := by
  rw [List.length_take, List.length_take]
  omega

theorem shrunk_comm (left right : List ℝ) :
    shrunk Real.sqrt engine left right = shrunk Real.sqrt engine right left := by
  rw [shrunk, shrunk, corr_comm (length_take_min left right), min_comm]

theorem abs_shrunk_le_one (hshrinkage : engine.shrinkage ∈ Set.Icc 0 1) (left right : List ℝ) :
    |shrunk Real.sqrt engine left right| ≤ 1 := by
  rw [shrunk]
  by_cases hcount : min left.length right.length = 0
  · rw [if_pos hcount, abs_zero]
    exact zero_le_one
  · have hlength := length_take_min left right
    have hshare : |1 - engine.shrinkage| ≤ 1 := by
      rw [abs_of_nonneg (sub_nonneg.mpr hshrinkage.2)]
      linarith only [hshrinkage.1]
    rw [if_neg hcount, corr_eq_sum_unit hlength, abs_mul]
    exact mul_le_one₀ hshare (abs_nonneg _) (abs_sum_unit_le_one hlength)

/-- Of series of one length nothing is left out. -/
theorem shrunk_eq_sum_unit (h : left.length = right.length) :
    shrunk Real.sqrt engine left right =
      (1 - engine.shrinkage) * ∑ k ∈ range left.length, unit left k * unit right k := by
  have hmin : min left.length right.length = left.length := by omega
  rw [shrunk]
  rw [hmin, List.take_length, List.take_of_length_le h.ge, corr_eq_sum_unit h]
  by_cases hcount : left.length = 0
  · rw [if_pos hcount, hcount, range_zero, sum_empty, mul_zero]
  · rw [if_neg hcount]

variable {candidates : List (CandidateSeries ℝ)} {estimates : List (CorrelationEstimate ℝ)}
  {row column : String}

theorem exists_of_mem_estimatesFrom {estimate : CorrelationEstimate ℝ}
    (h : estimate ∈ estimatesFrom Real.sqrt engine kind candidates) :
    ∃ left ∈ candidates, ∃ right ∈ candidates,
      estimatePair Real.sqrt engine kind left right = estimate := by
  induction candidates with
  | nil => cases h
  | cons first rest ih =>
    rw [estimatesFrom, List.mem_append] at h
    rcases h with h | h
    · obtain ⟨right, hright, rfl⟩ := List.mem_map.mp h
      exact ⟨first, List.mem_cons_self, right, hright, rfl⟩
    · obtain ⟨left, hleft, right, hright, heq⟩ := ih h
      exact ⟨left, List.mem_cons_of_mem _ hleft, right, List.mem_cons_of_mem _ hright, heq⟩

/-- Every two candidates are estimated, in one order or the other. -/
theorem estimatePair_mem_estimatesFrom {left right : CandidateSeries ℝ}
    (hleft : left ∈ candidates) (hright : right ∈ candidates) :
    estimatePair Real.sqrt engine kind left right ∈
        estimatesFrom Real.sqrt engine kind candidates ∨
      estimatePair Real.sqrt engine kind right left ∈
        estimatesFrom Real.sqrt engine kind candidates := by
  induction candidates with
  | nil => cases hleft
  | cons first rest ih =>
    rw [estimatesFrom, List.mem_append, List.mem_append]
    rcases List.mem_cons.mp hleft with rfl | hleft'
    · exact .inl (.inl (List.mem_map_of_mem hright))
    · rcases List.mem_cons.mp hright with rfl | hright'
      · exact .inr (.inl (List.mem_map_of_mem hleft))
      · exact (ih hleft' hright').imp .inr .inr

/-- The estimate is of the two names, in one order or the other. -/
def Pairs (estimate : CorrelationEstimate ℝ) (row column : String) : Prop :=
  row = estimate.leftId ∧ column = estimate.rightId ∨
    row = estimate.rightId ∧ column = estimate.leftId

theorem entry_record_of_pairs {matrix : NamedMatrix ℝ} {estimate : CorrelationEstimate ℝ}
    (h : Pairs estimate row column) :
    (record matrix estimate).entry row column = some estimate.value := by
  rw [record, NamedMatrix.entry_setEntry, NamedMatrix.entry_setEntry]
  by_cases hswapped : row = estimate.rightId ∧ column = estimate.leftId
  · rw [if_pos hswapped]
  · rw [if_neg hswapped, if_pos (h.resolve_right hswapped)]

theorem entry_record_of_not_pairs {matrix : NamedMatrix ℝ} {estimate : CorrelationEstimate ℝ}
    (h : ¬ Pairs estimate row column) :
    (record matrix estimate).entry row column = matrix.entry row column := by
  obtain ⟨hplain, hswapped⟩ := not_or.mp h
  rw [record, NamedMatrix.entry_setEntry, NamedMatrix.entry_setEntry, if_neg hswapped,
    if_neg hplain]

theorem entry_foldl_record_of_not_pairs
    (h : ∀ estimate ∈ estimates, ¬ Pairs estimate row column) (start : NamedMatrix ℝ) :
    (estimates.foldl record start).entry row column = start.entry row column := by
  induction estimates generalizing start with
  | nil => rfl
  | cons first rest ih =>
    obtain ⟨hfirst, hrest⟩ := List.forall_mem_cons.mp h
    rw [List.foldl_cons, ih hrest, entry_record_of_not_pairs hfirst]

/-- The last estimate of the two names is in their entry. -/
theorem entry_foldl_record {value : ℝ}
    (hvalue : ∀ estimate ∈ estimates, Pairs estimate row column → estimate.value = value)
    (hpairs : ∃ estimate ∈ estimates, Pairs estimate row column) (start : NamedMatrix ℝ) :
    (estimates.foldl record start).entry row column = some value := by
  induction estimates generalizing start with
  | nil =>
    obtain ⟨estimate, hmem, -⟩ := hpairs
    cases hmem
  | cons first rest ih =>
    obtain ⟨hfirst, hrest⟩ := List.forall_mem_cons.mp hvalue
    rw [List.foldl_cons]
    by_cases hlater : ∃ estimate ∈ rest, Pairs estimate row column
    · exact ih hrest hlater _
    · have hnone : ∀ estimate ∈ rest, ¬ Pairs estimate row column :=
        fun estimate hmem hpair => hlater ⟨estimate, hmem, hpair⟩
      have hpair : Pairs first row column := by
        obtain ⟨estimate, hmem, hpair⟩ := hpairs
        rcases List.mem_cons.mp hmem with rfl | hmem
        · exact hpair
        · exact absurd hpair (hnone estimate hmem)
      rw [entry_foldl_record_of_not_pairs hnone, entry_record_of_pairs hpair, hfirst hpair]

theorem entry_foldl_diagonal {ids : List String} (matrix : NamedMatrix ℝ) :
    (ids.foldl (fun matrix item => matrix.setEntry item item 1) matrix).entry row column =
      if row = column ∧ row ∈ ids then some 1 else matrix.entry row column := by
  induction ids generalizing matrix with
  | nil => rw [if_neg fun h => List.not_mem_nil h.2, List.foldl_nil]
  | cons item rest ih =>
    rw [List.foldl_cons, ih, NamedMatrix.entry_setEntry]
    by_cases hrest : row = column ∧ row ∈ rest
    · rw [if_pos hrest, if_pos ⟨hrest.1, List.mem_cons_of_mem _ hrest.2⟩]
    · rw [if_neg hrest]
      by_cases hitem : row = item ∧ column = item
      · rw [if_pos hitem, if_pos ⟨hitem.1.trans hitem.2.symm, hitem.1 ▸ List.mem_cons_self⟩]
      · have hnone : ¬ (row = column ∧ row ∈ item :: rest) := by
          rintro ⟨rfl, hmem⟩
          rcases List.mem_cons.mp hmem with rfl | hmem
          · exact hitem ⟨rfl, rfl⟩
          · exact hrest ⟨rfl, hmem⟩
        rw [if_neg hitem, if_neg hnone]

/-- The names of the candidates. -/
def namesOf (candidates : List (CandidateSeries ℝ)) : Finset String :=
  (candidates.map CandidateSeries.candidateId).toFinset

theorem mem_namesOf {name : String} :
    name ∈ namesOf candidates ↔ ∃ candidate ∈ candidates, candidate.candidateId = name := by
  rw [namesOf, List.mem_toFinset, List.mem_map]

theorem exists_of_mem_estimate {estimate : CorrelationEstimate ℝ}
    (h : estimate ∈ CorrelationEngine.estimate Real.sqrt engine kind candidates) :
    ∃ left ∈ candidates, ∃ right ∈ candidates,
      estimatePair Real.sqrt engine kind left right = estimate := by
  obtain ⟨left, hleft, right, hright, heq⟩ := exists_of_mem_estimatesFrom h
  exact ⟨left, mem_sortBy.mp hleft, right, mem_sortBy.mp hright, heq⟩

/-- The names that the matrix has rows and columns for. -/
def idsOf (estimates : List (CorrelationEstimate ℝ)) : List String :=
  sortBy id
    (estimates.map CorrelationEstimate.leftId ++ estimates.map CorrelationEstimate.rightId).dedup

theorem nodup_idsOf : (idsOf estimates).Nodup :=
  sortBy_perm.nodup_iff.mpr (List.nodup_dedup _)

theorem mem_idsOf_estimate {name : String} :
    name ∈ idsOf (estimate Real.sqrt engine kind candidates) ↔ name ∈ namesOf candidates := by
  rw [idsOf, mem_sortBy, List.mem_dedup, List.mem_append, List.mem_map, List.mem_map, mem_namesOf]
  constructor
  · rintro (⟨estimate, hmem, rfl⟩ | ⟨estimate, hmem, rfl⟩)
    · obtain ⟨left, hleft, right, hright, rfl⟩ := exists_of_mem_estimate hmem
      exact ⟨left, hleft, rfl⟩
    · obtain ⟨left, hleft, right, hright, rfl⟩ := exists_of_mem_estimate hmem
      exact ⟨right, hright, rfl⟩
  · rintro ⟨candidate, hmem, rfl⟩
    have hsorted : candidate ∈ sortBy CandidateSeries.candidateId candidates := mem_sortBy.mpr hmem
    have hpair : estimatePair Real.sqrt engine kind candidate candidate ∈
        estimate Real.sqrt engine kind candidates :=
      or_self_iff.mp (estimatePair_mem_estimatesFrom hsorted hsorted)
    exact .inl ⟨_, hpair, rfl⟩

/-- The matrix before any estimate is entered. -/
def zeros (ids : List String) : NamedMatrix ℝ :=
  InsertionDict.ofEntries (ids.map fun item =>
    (item, InsertionDict.ofEntries (ids.map fun other => (other, (0 : ℝ)))))

theorem entry_zeros {ids : List String} (hids : ids.Nodup) :
    (zeros ids).entry row column = if row ∈ ids ∧ column ∈ ids then some 0 else none := by
  rw [NamedMatrix.entry, zeros,
    InsertionDict.get?_ofEntries_map hids fun _ => InsertionDict.ofEntries _]
  by_cases hrow : row ∈ ids
  · rw [if_pos hrow, Option.bind_some, InsertionDict.get?_ofEntries_map hids fun _ => (0 : ℝ)]
    simp only [hrow, true_and]
  · rw [if_neg hrow, if_neg fun h => hrow h.1, Option.bind_none]

theorem entry_matrix :
    (matrix estimates).entry row column =
      if row = column ∧ row ∈ idsOf estimates then some 1
      else (estimates.foldl record (zeros (idsOf estimates))).entry row column :=
  entry_foldl_diagonal (estimates.foldl record (zeros (idsOf estimates)))

/-- What the matrix has for two candidates. -/
noncomputable def coefficient (engine : CorrelationEngine ℝ) (kind : CorrelationKind)
    (left right : CandidateSeries ℝ) : ℝ :=
  if left.candidateId = right.candidateId then 1
  else shrunk Real.sqrt engine (seriesForKind left kind) (seriesForKind right kind)

theorem coefficient_comm (left right : CandidateSeries ℝ) :
    coefficient engine kind left right = coefficient engine kind right left := by
  rw [coefficient, coefficient, shrunk_comm]
  simp only [eq_comm]

theorem abs_coefficient_le_one (hshrinkage : engine.shrinkage ∈ Set.Icc 0 1)
    (left right : CandidateSeries ℝ) : |coefficient engine kind left right| ≤ 1 := by
  rw [coefficient]
  by_cases hsame : left.candidateId = right.candidateId
  · rw [if_pos hsame, abs_one]
  · rw [if_neg hsame]
    exact abs_shrunk_le_one hshrinkage _ _

theorem entry_matrix_estimate (hids : (candidates.map CandidateSeries.candidateId).Nodup)
    {left right : CandidateSeries ℝ} (hleft : left ∈ candidates) (hright : right ∈ candidates) :
    (matrix (estimate Real.sqrt engine kind candidates)).entry left.candidateId
        right.candidateId =
      some (coefficient engine kind left right) := by
  rw [entry_matrix, coefficient]
  by_cases hsame : left.candidateId = right.candidateId
  · have hmem : left.candidateId ∈ idsOf (estimate Real.sqrt engine kind candidates) :=
      mem_idsOf_estimate.mpr (mem_namesOf.mpr ⟨left, hleft, rfl⟩)
    rw [if_pos ⟨hsame, hmem⟩, if_pos hsame]
  · rw [if_neg fun h => hsame h.1, if_neg hsame]
    refine entry_foldl_record ?_ ?_ _
    · intro estimate hmem hpair
      obtain ⟨first, hfirst, second, hsecond, rfl⟩ := exists_of_mem_estimate hmem
      rcases hpair with ⟨hrow, hcolumn⟩ | ⟨hrow, hcolumn⟩
      · obtain rfl := List.inj_on_of_nodup_map hids hleft hfirst hrow
        obtain rfl := List.inj_on_of_nodup_map hids hright hsecond hcolumn
        rfl
      · obtain rfl := List.inj_on_of_nodup_map hids hleft hsecond hrow
        obtain rfl := List.inj_on_of_nodup_map hids hright hfirst hcolumn
        exact shrunk_comm _ _
    · have hleft' : left ∈ sortBy CandidateSeries.candidateId candidates := mem_sortBy.mpr hleft
      have hright' : right ∈ sortBy CandidateSeries.candidateId candidates :=
        mem_sortBy.mpr hright
      rcases estimatePair_mem_estimatesFrom hleft' hright' with hmem | hmem
      · exact ⟨_, hmem, .inl ⟨rfl, rfl⟩⟩
      · exact ⟨_, hmem, .inr ⟨rfl, rfl⟩⟩

theorem entry_matrix_estimate_eq_none
    (h : ¬ (row ∈ namesOf candidates ∧ column ∈ namesOf candidates)) :
    (matrix (estimate Real.sqrt engine kind candidates)).entry row column = none := by
  have hids : ¬ (row ∈ idsOf (estimate Real.sqrt engine kind candidates) ∧
      column ∈ idsOf (estimate Real.sqrt engine kind candidates)) := by
    rwa [mem_idsOf_estimate, mem_idsOf_estimate]
  have hpairs : ∀ item ∈ estimate Real.sqrt engine kind candidates, ¬ Pairs item row column := by
    intro item hmem hpair
    obtain ⟨first, hfirst, second, hsecond, rfl⟩ := exists_of_mem_estimate hmem
    have hfirst' := mem_namesOf.mpr ⟨first, hfirst, rfl⟩
    have hsecond' := mem_namesOf.mpr ⟨second, hsecond, rfl⟩
    rcases hpair with ⟨rfl, rfl⟩ | ⟨rfl, rfl⟩
    · exact h ⟨hfirst', hsecond'⟩
    · exact h ⟨hsecond', hfirst'⟩
  have hdiagonal : ¬ (row = column ∧ row ∈ idsOf (estimate Real.sqrt engine kind candidates)) := by
    rintro ⟨rfl, hmem⟩
    exact hids ⟨hmem, hmem⟩
  rw [entry_matrix, if_neg hdiagonal, entry_foldl_record_of_not_pairs hpairs,
    entry_zeros nodup_idsOf, if_neg hids]

/-- A table of the names with what a table of correlations has. -/
structure IsCorrelationMatrix (names : Finset String) (matrix : NamedMatrix ℝ) : Prop where
  covers : ∀ row column,
    (∃ value, matrix.entry row column = some value) ↔ row ∈ names ∧ column ∈ names
  symmetric : ∀ row column, matrix.entry row column = matrix.entry column row
  diagonal : ∀ name ∈ names, matrix.entry name name = some 1
  bounded : ∀ row column value, matrix.entry row column = some value → |value| ≤ 1

/-- No combination of the names has a negative variance. -/
def PositiveSemidefinite (names : Finset String) (matrix : NamedMatrix ℝ) : Prop :=
  ∀ weights : String → ℝ, 0 ≤ ∑ row ∈ names, ∑ column ∈ names,
    weights row * weights column * (matrix.entry row column).getD 0

theorem entry_matrix_estimate_eq_some_iff
    (hids : (candidates.map CandidateSeries.candidateId).Nodup) {value : ℝ} :
    (matrix (estimate Real.sqrt engine kind candidates)).entry row column = some value ↔
      ∃ left ∈ candidates, ∃ right ∈ candidates, left.candidateId = row ∧
        right.candidateId = column ∧ coefficient engine kind left right = value := by
  constructor
  · intro hvalue
    by_cases hnames : row ∈ namesOf candidates ∧ column ∈ namesOf candidates
    · obtain ⟨left, hleft, rfl⟩ := mem_namesOf.mp hnames.1
      obtain ⟨right, hright, rfl⟩ := mem_namesOf.mp hnames.2
      rw [entry_matrix_estimate hids hleft hright] at hvalue
      exact ⟨left, hleft, right, hright, rfl, rfl, Option.some_inj.mp hvalue⟩
    · rw [entry_matrix_estimate_eq_none hnames] at hvalue
      cases hvalue
  · rintro ⟨left, hleft, right, hright, rfl, rfl, rfl⟩
    exact entry_matrix_estimate hids hleft hright

theorem entry_matrix_estimate_swap (hids : (candidates.map CandidateSeries.candidateId).Nodup)
    {value : ℝ}
    (h : (matrix (estimate Real.sqrt engine kind candidates)).entry row column = some value) :
    (matrix (estimate Real.sqrt engine kind candidates)).entry column row = some value := by
  obtain ⟨left, hleft, right, hright, rfl, rfl, rfl⟩ :=
    (entry_matrix_estimate_eq_some_iff hids).mp h
  rw [entry_matrix_estimate hids hright hleft, coefficient_comm]

theorem isCorrelationMatrix_estimate (hids : (candidates.map CandidateSeries.candidateId).Nodup)
    (hshrinkage : engine.shrinkage ∈ Set.Icc 0 1) :
    IsCorrelationMatrix (namesOf candidates)
      (matrix (estimate Real.sqrt engine kind candidates)) where
  covers row column := by
    rw [mem_namesOf, mem_namesOf]
    constructor
    · rintro ⟨value, hvalue⟩
      obtain ⟨left, hleft, right, hright, hrow, hcolumn, -⟩ :=
        (entry_matrix_estimate_eq_some_iff hids).mp hvalue
      exact ⟨⟨left, hleft, hrow⟩, right, hright, hcolumn⟩
    · rintro ⟨⟨left, hleft, rfl⟩, right, hright, rfl⟩
      exact ⟨_, entry_matrix_estimate hids hleft hright⟩
  symmetric row column := by
    apply Option.ext
    intro value
    exact ⟨entry_matrix_estimate_swap hids, entry_matrix_estimate_swap hids⟩
  diagonal name hname := by
    obtain ⟨candidate, hmem, rfl⟩ := mem_namesOf.mp hname
    rw [entry_matrix_estimate hids hmem hmem, coefficient, if_pos rfl]
  bounded row column value hvalue := by
    obtain ⟨left, hleft, right, hright, rfl, rfl, rfl⟩ :=
      (entry_matrix_estimate_eq_some_iff hids).mp hvalue
    exact abs_coefficient_le_one hshrinkage left right

theorem exists_seriesOf (hids : (candidates.map CandidateSeries.candidateId).Nodup)
    (kind : CorrelationKind) :
    ∃ seriesOf : String → List ℝ, ∀ candidate ∈ candidates,
      seriesOf candidate.candidateId = seriesForKind candidate kind := by
  classical
  refine ⟨fun name => if h : ∃ candidate ∈ candidates, candidate.candidateId = name then
    seriesForKind h.choose kind else [], fun candidate hmem => ?_⟩
  have hnamed : ∃ other ∈ candidates, other.candidateId = candidate.candidateId :=
    ⟨candidate, hmem, rfl⟩
  have hsame : hnamed.choose = candidate :=
    List.inj_on_of_nodup_map hids hnamed.choose_spec.1 hmem hnamed.choose_spec.2
  dsimp only
  rw [dif_pos hnamed, hsame]

theorem positiveSemidefinite_estimate (hids : (candidates.map CandidateSeries.candidateId).Nodup)
    (hshrinkage : engine.shrinkage ∈ Set.Icc 0 1) {n : ℕ}
    (hlength : ∀ candidate ∈ candidates, (seriesForKind candidate kind).length = n) :
    PositiveSemidefinite (namesOf candidates)
      (matrix (estimate Real.sqrt engine kind candidates)) := by
  intro weights
  obtain ⟨seriesOf, hseries⟩ := exists_seriesOf hids kind
  have hentry : ∀ row ∈ namesOf candidates, ∀ column ∈ namesOf candidates,
      ((matrix (estimate Real.sqrt engine kind candidates)).entry row column).getD 0 =
        if row = column then 1 else (1 - engine.shrinkage) *
          ∑ k ∈ range n, unit (seriesOf row) k * unit (seriesOf column) k := by
    intro row hrow column hcolumn
    obtain ⟨left, hleft, rfl⟩ := mem_namesOf.mp hrow
    obtain ⟨right, hright, rfl⟩ := mem_namesOf.mp hcolumn
    have hsame := (hlength left hleft).trans (hlength right hright).symm
    rw [entry_matrix_estimate hids hleft hright, Option.getD_some, coefficient,
      shrunk_eq_sum_unit hsame, hlength left hleft, hseries left hleft, hseries right hright]
  have hunit : ∀ row ∈ namesOf candidates, ∑ k ∈ range n, unit (seriesOf row) k ^ 2 ≤ 1 := by
    intro row hrow
    obtain ⟨left, hleft, rfl⟩ := mem_namesOf.mp hrow
    rw [hseries left hleft, ← hlength left hleft]
    exact sum_unit_sq_le_one _
  have hshare : 1 - engine.shrinkage ∈ Set.Icc (0 : ℝ) 1 :=
    ⟨sub_nonneg.mpr hshrinkage.2, sub_le_self _ hshrinkage.1⟩
  calc (0 : ℝ)
      ≤ ∑ row ∈ namesOf candidates, ∑ column ∈ namesOf candidates,
          weights row * weights column * if row = column then 1 else (1 - engine.shrinkage) *
            ∑ k ∈ range n, unit (seriesOf row) k * unit (seriesOf column) k :=
        gram_nonneg hshare hunit weights
    _ = ∑ row ∈ namesOf candidates, ∑ column ∈ namesOf candidates, weights row * weights column *
          ((matrix (estimate Real.sqrt engine kind candidates)).entry row column).getD 0 :=
        sum_congr rfl fun row hrow => sum_congr rfl fun column hcolumn => by
          rw [hentry row hrow column hcolumn]

/-- The matrix is one of correlations, and of one that some series have where the series of the
candidates have one length. -/
theorem matrix_estimate (hids : (candidates.map CandidateSeries.candidateId).Nodup)
    (hshrinkage : engine.shrinkage ∈ Set.Icc 0 1) :
    IsCorrelationMatrix (namesOf candidates)
        (matrix (estimate Real.sqrt engine kind candidates)) ∧
      ∀ n : ℕ, (∀ candidate ∈ candidates, (seriesForKind candidate kind).length = n) →
        PositiveSemidefinite (namesOf candidates)
          (matrix (estimate Real.sqrt engine kind candidates)) :=
  ⟨isCorrelationMatrix_estimate hids hshrinkage,
    fun _ hlength => positiveSemidefinite_estimate hids hshrinkage hlength⟩

/-- Two candidates that move against each other. -/
noncomputable def opposed : List (CandidateSeries ℝ) :=
  [{ candidateId := "calm", returns := [0, 1], pnl := [] },
    { candidateId := "wild", returns := [1, 0], pnl := [] }]

theorem matrix_estimate_opposed :
    IsCorrelationMatrix (namesOf opposed)
        (matrix (estimate Real.sqrt ⟨20, 0.1⟩ .strategyReturn opposed)) ∧
      PositiveSemidefinite (namesOf opposed)
        (matrix (estimate Real.sqrt ⟨20, 0.1⟩ .strategyReturn opposed)) := by
  have hids : (opposed.map CandidateSeries.candidateId).Nodup := by simp [opposed]
  have hlength : ∀ candidate ∈ opposed,
      (seriesForKind candidate .strategyReturn).length = 2 := by simp [opposed, seriesForKind]
  have hshrinkage : (⟨20, 0.1⟩ : CorrelationEngine ℝ).shrinkage ∈ Set.Icc (0 : ℝ) 1 := by
    norm_num
  obtain ⟨hmatrix, hdefinite⟩ := matrix_estimate hids hshrinkage
  exact ⟨hmatrix, hdefinite 2 hlength⟩

end Matrix

end CorrelationEngine
end OptionResearch
