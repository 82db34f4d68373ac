import OptionResearch.PositionSizer
import OptionResearch.RationedDraws
import OptionResearch.StableSort
import OptionResearch.RoundedNumbers
import Mathlib.Algebra.BigOperators.Ring.List
import Mathlib.Data.String.Basic

/-!
# Portfolio allocation

`PortfolioAllocator._build_allocations` of `allocation.py` ranks the candidates and gives each its
weight within bounds, as long as the investable share of the capital lasts. The allocations are
draws from that share, so that together they keep within it by every construction method. Contracts
are whole and at least one, so that an allocation that is too small for one contract cannot pay for
it.
-/

namespace OptionResearch.Portfolio

open RationedDraws

namespace PortfolioAllocator

def maxWeight (problem : AllocationProblem) : ℚ :=
  (problem.diversificationPolicy.lookup "max_weight_per_strategy").getD 1

def minWeight (problem : AllocationProblem) : ℚ :=
  (problem.diversificationPolicy.lookup "min_weight_per_strategy").getD 0

/-- The share of the capital that may be invested. -/
def available (problem : AllocationProblem) : ℚ :=
  max 0 (1 - problem.reserveCash / max problem.availableCapital tiny)

/-- The weight of a candidate within the bounds, before what is left is looked at. -/
def targetWeight (weights : InsertionDict String ℚ) (problem : AllocationProblem)
    (candidate : CandidateInput) : ℚ :=
  max (minWeight problem) (min (maxWeight problem) ((weights.get? candidate.candidateId).getD 0))

def allocationOf (problem : AllocationProblem) (candidate : CandidateInput) (weight : ℚ) :
    PortfolioAllocation :=
  let capital := weight * problem.availableCapital
  let contracts := truncate (capital / max candidate.exposure.capitalRequirement tiny)
  { candidateId := candidate.candidateId
    weight := weight
    capital := capital
    contracts := max 1 contracts
    score := candidate.validation.robustnessScore }

/-- The loop of `_greedy_allocations`, with what is used so far. -/
def allocateRest (weights : InsertionDict String ℚ) (problem : AllocationProblem) :
    ℚ → List CandidateInput → List PortfolioAllocation
  | _, [] => []
  | used, candidate :: rest =>
    if available problem ≤ used then []
    else
      let weight := min (targetWeight weights problem candidate) (available problem - used)
      if weight ≤ 0 then allocateRest weights problem used rest
      else
        allocationOf problem candidate weight ::
          allocateRest weights problem (used + weight) rest

/-- `_greedy_allocations`. -/
def greedyAllocations (candidates : List CandidateInput) (weights : InsertionDict String ℚ)
    (problem : AllocationProblem) : List PortfolioAllocation :=
  allocateRest weights problem 0 candidates

def candidateKey (item : CandidateInput) : ℚ ×ₗ ℚ ×ₗ String :=
  toLex (-item.validation.robustnessScore, toLex (-item.stats.expectedReturn, item.candidateId))

/-- The weights that a construction method goes by. -/
def methodWeights (method : ConstructionMethod) (sorted : List CandidateInput)
    (weights : InsertionDict String ℚ) : InsertionDict String ℚ :=
  match method with
  | .minimumVariance =>
    normalize (byCandidateId (fun item => 1 / max item.stats.volatility tiny) sorted)
  | .maximumDiversification =>
    normalize (byCandidateId
      (fun item => 1 / max (item.stats.modelRisk + item.stats.liquidityRisk) tiny) sorted)
  | .rankedGreedy | .constrainedGreedy | .clusterAware | .paretoSelection => weights
  | .equalRisk | .riskParityInterface | .meanVarianceInterface => weights

/-- `_build_allocations`. -/
def buildAllocations (candidates : List CandidateInput) (weights : InsertionDict String ℚ)
    (method : ConstructionMethod) (problem : AllocationProblem) : List PortfolioAllocation :=
  let sorted := StableSort.sortBy candidateKey candidates
  let allocations := greedyAllocations sorted (methodWeights method sorted weights) problem
  StableSort.sortBy (·.candidateId) allocations

/-- The steps of `construct` that size and allocate the eligible candidates. -/
def allocate (sizer : PositionSizer) (candidates : List CandidateInput) (policy : SizingPolicy)
    (method : ConstructionMethod) (problem : AllocationProblem) : List PortfolioAllocation :=
  buildAllocations candidates (sizer.size candidates policy problem.availableCapital) method problem

/-! ### Allocations as draws -/

variable {candidates : List CandidateInput} {weights : InsertionDict String ℚ}
  {method : ConstructionMethod} {problem : AllocationProblem}

/-- What the loop allocates are draws from the share that is left. -/
theorem allocateRest_eq_draws (weights : InsertionDict String ℚ) (problem : AllocationProblem)
    (used : ℚ) (candidates : List CandidateInput) :
    allocateRest weights problem used candidates =
      (draws (targetWeight weights problem) (available problem - used) candidates).map fun draw =>
        allocationOf problem draw.item draw.amount := by
  induction candidates generalizing used with
  | nil => rfl
  | cons candidate rest ih =>
    rw [allocateRest]
    split_ifs with hused
    · rw [draws_of_nonpos (sub_nonpos.mpr hused)]
      rfl
    · dsimp only
      rw [draws]
      split_ifs with hnone hpos hpos
      · exact absurd hpos (not_lt.mpr hnone)
      · exact ih used
      · rw [List.map_cons, ih, sub_sub]
      · exact absurd (not_le.mp hnone) hpos

/-- The draws that the allocations are, in the order of the identifiers. -/
def taken (candidates : List CandidateInput) (weights : InsertionDict String ℚ)
    (method : ConstructionMethod) (problem : AllocationProblem) : List (Draw CandidateInput ℚ) :=
  let sorted := StableSort.sortBy candidateKey candidates
  StableSort.sortBy (fun draw => draw.item.candidateId)
    (draws (targetWeight (methodWeights method sorted weights) problem) (available problem) sorted)

theorem buildAllocations_eq (candidates : List CandidateInput) (weights : InsertionDict String ℚ)
    (method : ConstructionMethod) (problem : AllocationProblem) :
    buildAllocations candidates weights method problem =
      (taken candidates weights method problem).map fun draw =>
        allocationOf problem draw.item draw.amount := by
  rw [buildAllocations, greedyAllocations, taken, allocateRest_eq_draws, sub_zero]
  exact (StableSort.map_sortBy (fun draw : Draw CandidateInput ℚ =>
    allocationOf problem draw.item draw.amount) (·.candidateId) _).symm

variable (candidates weights method problem) in
/-- Nothing is allocated to a candidate twice. -/
theorem taken_subperm : ((taken candidates weights method problem).map (·.item)).Subperm
    candidates := by
  refine (StableSort.sortBy_perm.map _).subperm.trans ?_
  rw [items_of_draws]
  exact ((List.take_sublist _ _).trans List.filter_sublist).subperm.trans
    StableSort.sortBy_perm.subperm

theorem taken_bounds {draw : Draw CandidateInput ℚ}
    (h : draw ∈ taken candidates weights method problem) :
    0 < draw.amount ∧ draw.amount ≤ max (minWeight problem) (maxWeight problem) := by
  obtain ⟨hamount, hwant, -⟩ := amount_bounds (StableSort.mem_sortBy.mp h)
  exact ⟨hamount, hwant.trans (max_le_max le_rfl (min_le_left _ _))⟩

variable (candidates weights method problem) in
theorem drawn_taken_le : drawn (taken candidates weights method problem) ≤ available problem := by
  refine (StableSort.sortBy_perm.map _).sum_eq.trans_le ?_
  exact (drawn_eq (le_max_left _ _)).trans_le (min_le_left _ _)

/-! ### The budget -/

/-- The allocations of distinct candidates keep within the bounds and the investable share. -/
theorem allocations_within_budget (candidates : List CandidateInput)
    (weights : InsertionDict String ℚ) (method : ConstructionMethod) (problem : AllocationProblem)
    (hids : (candidates.map (·.candidateId)).Nodup) (hcapital : 1 ≤ problem.availableCapital)
    (hweights : minWeight problem ≤ maxWeight problem) :
    ((buildAllocations candidates weights method problem).map (·.candidateId)).Nodup ∧
      (∀ allocation ∈ buildAllocations candidates weights method problem,
        allocation.candidateId ∈ candidates.map (·.candidateId) ∧ 0 < allocation.weight ∧
          allocation.weight ≤ maxWeight problem ∧
          allocation.capital = allocation.weight * problem.availableCapital) ∧
      ((buildAllocations candidates weights method problem).map (·.weight)).sum ≤
        (if problem.availableCapital < problem.reserveCash then 0
          else 1 - problem.reserveCash / problem.availableCapital) ∧
      (problem.reserveCash ≤ problem.availableCapital →
        ((buildAllocations candidates weights method problem).map (·.capital)).sum +
          problem.reserveCash ≤ problem.availableCapital) := by
  have hdrawn := drawn_taken_le candidates weights method problem
  have hpos : 0 < problem.availableCapital := zero_lt_one.trans_le hcapital
  have htiny : max problem.availableCapital tiny = problem.availableCapital :=
    max_eq_left (le_trans (by norm_num [tiny]) hcapital)
  have hshare : available problem =
      if problem.availableCapital < problem.reserveCash then 0
      else 1 - problem.reserveCash / problem.availableCapital := by
    rw [available, htiny]
    split_ifs with hlarge
    · exact max_eq_left (sub_nonpos.mpr ((one_le_div hpos).mpr hlarge.le))
    · exact max_eq_right (sub_nonneg.mpr ((div_le_one hpos).mpr (not_lt.mp hlarge)))
  have hsum : ((buildAllocations candidates weights method problem).map (·.weight)).sum =
      drawn (taken candidates weights method problem) := by
    rw [buildAllocations_eq, List.map_map]
    rfl
  have hcapitals : ((buildAllocations candidates weights method problem).map (·.capital)).sum =
      drawn (taken candidates weights method problem) * problem.availableCapital := by
    rw [buildAllocations_eq, List.map_map, drawn, ← List.sum_map_mul_right]
    rfl
  refine ⟨?_, fun allocation hmem => ?_, ?_, fun hreserve => ?_⟩
  · obtain ⟨chosen, hperm, hsublist⟩ := taken_subperm candidates weights method problem
    have hnodup := (hperm.map (·.candidateId)).nodup_iff.mp (hids.sublist (hsublist.map _))
    rw [List.map_map] at hnodup
    rwa [buildAllocations_eq, List.map_map]
  · rw [buildAllocations_eq] at hmem
    obtain ⟨draw, hdraw, rfl⟩ := List.mem_map.mp hmem
    obtain ⟨hamount, hle⟩ := taken_bounds hdraw
    rw [max_eq_right hweights] at hle
    exact ⟨List.mem_map_of_mem ((taken_subperm ..).subset (List.mem_map_of_mem hdraw)), hamount,
      hle, rfl⟩
  · rw [hsum, ← hshare]
    exact hdrawn
  · rw [hshare, if_neg (not_lt.mpr hreserve)] at hdrawn
    have hscaled := mul_le_mul_of_nonneg_right hdrawn hpos.le
    rw [sub_mul, one_mul, div_mul_cancel₀ _ hpos.ne'] at hscaled
    rw [hcapitals]
    exact le_sub_iff_add_le.mp hscaled

/-- Two candidates share four fifths of a capital of which a fifth is reserved. -/
theorem allocations_within_budget_reserved :
    ((buildAllocations [PositionSizer.unitCandidate "a" 1 1, PositionSizer.unitCandidate "b" 1 1]
        InsertionDict.empty .minimumVariance ⟨100, 20, []⟩).map (·.capital)).sum + 20 ≤ 100 :=
  (allocations_within_budget
    [PositionSizer.unitCandidate "a" 1 1, PositionSizer.unitCandidate "b" 1 1]
    InsertionDict.empty .minimumVariance ⟨100, 20, []⟩ (by decide) (by norm_num)
    (by norm_num [minWeight, maxWeight])).2.2.2 (by norm_num)

/-! ### Contracts -/

/-- Whole contracts are paid for if one of them is: there is always one. -/
theorem contracts_le_iff (capital requirement : ℚ) :
    ((max 1 (truncate (capital / max requirement tiny)) : Int) : ℚ) * requirement ≤ capital ↔
      requirement ≤ capital := by
  have hpos : 0 < max requirement tiny := lt_max_of_lt_right (by norm_num [tiny])
  rcases lt_or_ge capital (max requirement tiny) with hsmall | hlarge
  · rw [max_eq_left ((truncate_nonpos ((div_lt_one hpos).mpr hsmall)).trans zero_le_one),
      Int.cast_one, one_mul]
  · have hone : 1 ≤ capital / max requirement tiny := (one_le_div hpos).mpr hlarge
    have hcontracts : (0 : ℚ) ≤ truncate (capital / max requirement tiny) := by
      exact_mod_cast zero_le_one.trans (one_le_truncate hone)
    rw [max_eq_right (one_le_truncate hone)]
    refine iff_of_true ?_ ((le_max_left _ _).trans hlarge)
    calc (truncate (capital / max requirement tiny) : ℚ) * requirement
        ≤ truncate (capital / max requirement tiny) * max requirement tiny :=
          mul_le_mul_of_nonneg_left (le_max_left _ _) hcontracts
      _ ≤ capital / max requirement tiny * max requirement tiny :=
          mul_le_mul_of_nonneg_right (truncate_le_self (zero_le_one.trans hone)) hpos.le
      _ = capital := div_mul_cancel₀ _ hpos.ne'

/-- A slice that is too small for one contract buys one. -/
theorem contracts_eq_one {capital requirement : ℚ} (h : capital < requirement) :
    max 1 (truncate (capital / max requirement tiny)) = 1 := by
  have hpos : 0 < max requirement tiny := lt_max_of_lt_right (by norm_num [tiny])
  exact max_eq_left ((truncate_nonpos
    ((div_lt_one hpos).mpr (h.trans_le (le_max_left _ _)))).trans zero_le_one)

/-- The contracts of an allocation against the candidate that it is for. -/
structure Buys (allocation : PortfolioAllocation) (candidate : CandidateInput) : Prop where
  candidateId : allocation.candidateId = candidate.candidateId
  affordable_iff : (allocation.contracts : ℚ) * candidate.exposure.capitalRequirement ≤
      allocation.capital ↔ candidate.exposure.capitalRequirement ≤ allocation.capital
  contracts_eq_one : allocation.capital < candidate.exposure.capitalRequirement →
    allocation.contracts = 1

/-- What the contracts cost whose slice is enough for one. -/
def coveredCost (pairs : List (PortfolioAllocation × CandidateInput)) : ℚ :=
  ((pairs.filter fun pair => pair.2.exposure.capitalRequirement ≤ pair.1.capital).map fun pair =>
    (pair.1.contracts : ℚ) * pair.2.exposure.capitalRequirement).sum

theorem coveredCost_le {pairs : List (PortfolioAllocation × CandidateInput)}
    (hbuys : ∀ pair ∈ pairs, Buys pair.1 pair.2) (hcapital : ∀ pair ∈ pairs, 0 ≤ pair.1.capital) :
    coveredCost pairs ≤ (pairs.map fun pair => pair.1.capital).sum := by
  induction pairs with
  | nil => exact le_rfl
  | cons pair rest ih =>
    obtain ⟨hbuy, hbuys⟩ := List.forall_mem_cons.mp hbuys
    obtain ⟨hpair, hcapital⟩ := List.forall_mem_cons.mp hcapital
    have hrest := ih hbuys hcapital
    rw [List.map_cons, List.sum_cons]
    by_cases hcovered : pair.2.exposure.capitalRequirement ≤ pair.1.capital
    · rw [coveredCost, List.filter_cons_of_pos (by simpa using hcovered), List.map_cons,
        List.sum_cons]
      exact add_le_add (hbuy.affordable_iff.mpr hcovered) hrest
    · rw [coveredCost, List.filter_cons_of_neg (by simpa using hcovered)]
      exact hrest.trans (le_add_of_nonneg_left hpair)

end PortfolioAllocator
end OptionResearch.Portfolio
