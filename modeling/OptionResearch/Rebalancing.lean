import Mathlib.Algebra.BigOperators.Group.Finset.Basic
import Mathlib.Algebra.Order.BigOperators.Group.Finset
import Mathlib.Data.String.Basic
import OptionResearch.FirstOccurrences
import OptionResearch.InsertionDict
import OptionResearch.PortfolioCandidates
import OptionResearch.StableSort

/-!
# Rebalancing

`RebalanceEngine` of `rebalancing.py`: a plan lists the changes of weight from one list of
allocations to another. A portfolio is what weight every candidate has in it, and a plan is a move
between two portfolios: moves one after the other lead where the last of them does, and no way over
other portfolios trades less than the direct one.
-/

namespace OptionResearch.Portfolio

open StableSort FirstOccurrences

inductive RebalanceTrigger where
  | fixedSchedule
  | thresholdDrift
  | riskLimitBreach
  | regimeChange
  | promotionChange
  | lifecycleCompletion
  | capitalChange
  | dataQualityDowngrade
  | liquidityDeterioration
  | correlationRegimeChange
  deriving DecidableEq, Repr

structure RebalanceChange where
  candidateId : String
  previousWeight : ℚ
  targetWeight : ℚ
  deltaWeight : ℚ
  reasonCodes : List RebalanceTrigger
  deriving DecidableEq, Repr

structure RebalancePlan where
  asOf : Date
  trigger : RebalanceTrigger
  changes : List RebalanceChange
  warnings : List String := []
  deriving DecidableEq, Repr

structure RebalanceEngine where
  driftThreshold : ℚ := 0.05

namespace RebalanceEngine

/-- `{item.candidate_id: item.weight for item in allocations}`. -/
def weightsOf (allocations : List PortfolioAllocation) : InsertionDict String ℚ :=
  .ofEntries (allocations.map fun item => (item.candidateId, item.weight))

/-- `weights.get(candidate_id, 0.0)`. -/
def held (allocations : List PortfolioAllocation) (candidateId : String) : ℚ :=
  ((weightsOf allocations).get? candidateId).getD 0

def candidateIds (previous target : List PortfolioAllocation) : List String :=
  sortBy id ((weightsOf previous).entries.map Prod.fst ++
    (weightsOf target).entries.map Prod.fst).dedup

/-- The body of the loop of `plan`. -/
def change (engine : RebalanceEngine) (trigger : RebalanceTrigger)
    (previous target : List PortfolioAllocation) (candidateId : String) : RebalanceChange :=
  let previousWeight := held previous candidateId
  let targetWeight := held target candidateId
  let deltaWeight := targetWeight - previousWeight
  { candidateId
    previousWeight
    targetWeight
    deltaWeight
    reasonCodes := firsts id ([trigger] ++
      (if engine.driftThreshold ≤ |deltaWeight| then [.thresholdDrift] else []) ++
      (if 0 < previousWeight ∧ targetWeight = 0 then [.lifecycleCompletion] else [])) }

def plan (engine : RebalanceEngine) (asOf : Date) (previous target : List PortfolioAllocation)
    (trigger : RebalanceTrigger) : RebalancePlan :=
  let changes := (candidateIds previous target).map (change engine trigger previous target)
  { asOf
    trigger
    changes
    warnings := if changes.isEmpty then ["no rebalance changes"] else [] }

variable {engine : RebalanceEngine} {asOf asOf' asOf'' : Date}
  {trigger trigger' trigger'' : RebalanceTrigger}
  {previous via target allocations : List PortfolioAllocation} {candidateId : String}

theorem nodup_candidateIds : (candidateIds previous target).Nodup :=
  sortBy_perm.nodup_iff.mpr (List.nodup_dedup _)

theorem held_eq_zero (h : candidateId ∉ (weightsOf allocations).entries.map Prod.fst) :
    held allocations candidateId = 0 := by
  rw [held, InsertionDict.get?, Entries.lookup_eq_none_iff.mpr h, Option.getD_none]

/-- A plan leaves out only candidates without a weight on either side. -/
theorem held_eq_zero_of_not_mem (h : candidateId ∉ candidateIds previous target) :
    held previous candidateId = 0 ∧ held target candidateId = 0 := by
  rw [candidateIds, mem_sortBy, List.mem_dedup, List.mem_append, not_or] at h
  exact ⟨held_eq_zero h.1, held_eq_zero h.2⟩

/-- A change names what asked for the plan, a drift beyond the threshold and an end. -/
theorem mem_reasonCodes_change {code : RebalanceTrigger} :
    code ∈ (change engine trigger previous target candidateId).reasonCodes ↔
      (code = trigger ∨
        engine.driftThreshold ≤ |held target candidateId - held previous candidateId| ∧
          code = .thresholdDrift) ∨
      (0 < held previous candidateId ∧ held target candidateId = 0) ∧
        code = .lifecycleCompletion := by
  have hfirsts : ∀ codes : List RebalanceTrigger, code ∈ firsts id codes ↔ code ∈ codes := by
    intro codes
    have hsublist : (firsts id codes).Sublist codes := firsts_sublist
    constructor
    · exact fun hmem => hsublist.subset hmem
    · intro hmem
      obtain ⟨kept, hkept, rfl⟩ : ∃ kept ∈ firsts id codes, kept = code :=
        exists_mem_firsts hmem
      exact hkept
  rw [change]
  dsimp only
  rw [hfirsts, List.mem_append, List.mem_append, List.mem_singleton, List.mem_ite_nil_right,
    List.mem_ite_nil_right, List.mem_singleton, List.mem_singleton]

theorem nodup_reasonCodes_change :
    (change engine trigger previous target candidateId).reasonCodes.Nodup :=
  pairwise_firsts

/-! ### Plans as moves between portfolios -/

/-- The weights after a change. -/
def applyChange (weights : String → ℚ) (change : RebalanceChange) : String → ℚ :=
  Function.update weights change.candidateId
    (weights change.candidateId + change.deltaWeight)

def applyPlan (weights : String → ℚ) (plan : RebalancePlan) : String → ℚ :=
  plan.changes.foldl applyChange weights

theorem foldl_applyChange {ids : List String} (hids : ids.Nodup) (weights : String → ℚ)
    (name : String) :
    (ids.map (change engine trigger previous target)).foldl applyChange weights name =
      weights name + if name ∈ ids then held target name - held previous name else 0 := by
  induction ids generalizing weights with
  | nil => rw [if_neg List.not_mem_nil, add_zero, List.map_nil, List.foldl_nil]
  | cons first rest ih =>
    obtain ⟨hfirst, hrest⟩ := List.nodup_cons.mp hids
    rw [List.map_cons, List.foldl_cons, ih hrest]
    by_cases heq : name = first
    · subst heq
      rw [if_neg hfirst, add_zero, if_pos List.mem_cons_self]
      exact Function.update_self ..
    · have hother : applyChange weights (change engine trigger previous target first) name =
          weights name := Function.update_of_ne heq _ _
      rw [hother]
      simp only [List.mem_cons, heq, false_or]

/-- A plan leads from the one portfolio to the other. -/
theorem applyPlan_plan :
    applyPlan (held previous) (engine.plan asOf previous target trigger) = held target := by
  funext name
  calc applyPlan (held previous) (engine.plan asOf previous target trigger) name
      = held previous name +
          if name ∈ candidateIds previous target then held target name - held previous name else 0 :=
        foldl_applyChange nodup_candidateIds (held previous) name
    _ = held target name := by
        by_cases hmem : name ∈ candidateIds previous target
        · rw [if_pos hmem, add_sub_cancel]
        · obtain ⟨hprevious, htarget⟩ := held_eq_zero_of_not_mem hmem
          rw [if_neg hmem, hprevious, htarget, add_zero]

/-- How much weight a plan moves. -/
def turnover (plan : RebalancePlan) : ℚ :=
  (plan.changes.map fun change => |change.deltaWeight|).sum

theorem turnover_plan {names : Finset String}
    (hnames : ∀ name ∈ candidateIds previous target, name ∈ names) :
    turnover (engine.plan asOf previous target trigger) =
      ∑ name ∈ names, |held target name - held previous name| := by
  calc turnover (engine.plan asOf previous target trigger)
      = ((candidateIds previous target).map fun name =>
          |held target name - held previous name|).sum := by
        rw [turnover, plan, List.map_map]
        rfl
    _ = ∑ name ∈ (candidateIds previous target).toFinset,
          |held target name - held previous name| :=
        (List.sum_toFinset _ nodup_candidateIds).symm
    _ = ∑ name ∈ names, |held target name - held previous name| := by
        refine Finset.sum_subset (fun name hmem => hnames name (List.mem_toFinset.mp hmem))
          fun name _ hnot => ?_
        obtain ⟨hprevious, htarget⟩ := held_eq_zero_of_not_mem (mt List.mem_toFinset.mpr hnot)
        rw [hprevious, htarget, sub_zero, abs_zero]

theorem turnover_plan_self :
    turnover (engine.plan asOf allocations allocations trigger) = 0 := by
  rw [turnover_plan fun name hmem => List.mem_toFinset.mpr hmem]
  exact Finset.sum_eq_zero fun name _ => by rw [sub_self, abs_zero]

/-- The direct plan moves no more than two plans by way of another portfolio. -/
theorem turnover_plan_le :
    turnover (engine.plan asOf previous target trigger) ≤
      turnover (engine.plan asOf' previous via trigger') +
        turnover (engine.plan asOf'' via target trigger'') := by
  obtain ⟨names, hnames⟩ : ∃ names : Finset String, ∀ name ∈ candidateIds previous target ++
      (candidateIds previous via ++ candidateIds via target), name ∈ names :=
    ⟨_, fun name hmem => List.mem_toFinset.mpr hmem⟩
  obtain ⟨hdirect, hrest⟩ := List.forall_mem_append.mp hnames
  obtain ⟨hfirst, hsecond⟩ := List.forall_mem_append.mp hrest
  rw [turnover_plan hdirect, turnover_plan hfirst, turnover_plan hsecond,
    ← Finset.sum_add_distrib]
  refine Finset.sum_le_sum fun name _ => ?_
  rw [← sub_add_sub_cancel' (held via name)]
  exact abs_add_le _ _

/-! ### One plan after the other -/

/-- A call of `plan`, from the portfolio that the call before has led to. -/
structure Rebalance where
  asOf : Date
  trigger : RebalanceTrigger
  target : List PortfolioAllocation

def rebalances (engine : RebalanceEngine) :
    List PortfolioAllocation → List Rebalance → List RebalancePlan
  | _, [] => []
  | previous, step :: rest =>
    engine.plan step.asOf previous step.target step.trigger :: rebalances engine step.target rest

/-- The last target, or where the run started. -/
def reached : List PortfolioAllocation → List Rebalance → List PortfolioAllocation
  | start, [] => start
  | _, step :: rest => reached step.target rest

variable {start : List PortfolioAllocation} {steps : List Rebalance}

theorem foldl_applyPlan_rebalances :
    (rebalances engine start steps).foldl applyPlan (held start) =
      held (reached start steps) := by
  induction steps generalizing start with
  | nil => rfl
  | cons step rest ih => rw [rebalances, List.foldl_cons, applyPlan_plan, ih, reached]

theorem turnover_plan_le_rebalances :
    turnover (engine.plan asOf start (reached start steps) trigger) ≤
      ((rebalances engine start steps).map turnover).sum := by
  induction steps generalizing start with
  | nil => exact turnover_plan_self.le
  | cons step rest ih =>
    rw [rebalances, reached, List.map_cons, List.sum_cons]
    calc turnover (engine.plan asOf start (reached step.target rest) trigger)
        ≤ turnover (engine.plan step.asOf start step.target step.trigger) +
            turnover (engine.plan asOf step.target (reached step.target rest) trigger) :=
          turnover_plan_le
      _ ≤ turnover (engine.plan step.asOf start step.target step.trigger) +
            ((rebalances engine step.target rest).map turnover).sum :=
          add_le_add_right ih _

/-- The plans of a run lead to its last target, as the direct plan does, which moves no more weight
than they do together. -/
theorem rebalances_compose (engine : RebalanceEngine) (start : List PortfolioAllocation)
    (steps : List Rebalance) (asOf : Date) (trigger : RebalanceTrigger) :
    (rebalances engine start steps).foldl applyPlan (held start) = held (reached start steps) ∧
      applyPlan (held start) (engine.plan asOf start (reached start steps) trigger) =
        held (reached start steps) ∧
      turnover (engine.plan asOf start (reached start steps) trigger) ≤
        ((rebalances engine start steps).map turnover).sum :=
  ⟨foldl_applyPlan_rebalances, applyPlan_plan, turnover_plan_le_rebalances⟩

end RebalanceEngine
end OptionResearch.Portfolio
