import Mathlib.Data.List.Lex
import Mathlib.Data.Rat.Defs
import Mathlib.Algebra.Order.Ring.Rat
import Mathlib.Tactic.NormNum
import Mathlib.Tactic.Linarith
import OptionResearch.StableSort
import OptionResearch.GreedyAdmission
import OptionResearch.MarginPolicy

/-!
# Cross-strategy arbitration

`CrossStrategyArbitrator.decide` of `arbitration.py` ranks the competing actions by the key of its
policy and admits them greedily while capital remains. A key is a tuple of numbers, compared
lexicographically, and `sorted` is stable.
-/

namespace OptionResearch

open StableSort GreedyAdmission

inductive ArbitrationPolicy where
  | fixedPriority
  | riskFirst
  | capitalEfficiency
  | highestRobustnessScore
  | highestExpectedValue
  | lowestMarginalRisk
  | strategyAgePriority
  | fifo
  | compositeScore
  deriving DecidableEq, Repr

structure CompetingAction where
  actionId : String
  strategyInstanceId : String
  actionType : String
  mandatory : Bool
  riskPriority : Int
  requiredCapital : ℚ
  expectedValue : ℚ
  robustnessScore : ℚ
  marginalRisk : ℚ
  ageSeconds : ℚ
  submittedSequence : Int
  deriving DecidableEq

/-- The dictionary that stands for a rejected action. -/
structure RejectedAction where
  actionId : String
  strategyInstanceId : String
  reasonCode : String
  deriving DecidableEq, Repr

/-- The entries of a decision's `diagnostics` dictionary. -/
structure ArbitrationDiagnostics where
  availableCapital : ℚ
  remainingCapital : ℚ
  competingCount : Nat

structure ArbitrationDecision where
  policy : ArbitrationPolicy
  acceptedActions : List CompetingAction
  rejectedActions : List RejectedAction
  diagnostics : ArbitrationDiagnostics

def CompetingAction.insufficientCapital (action : CompetingAction) : RejectedAction where
  actionId := action.actionId
  strategyInstanceId := action.strategyInstanceId
  reasonCode := "insufficient_capital"

namespace CrossStrategyArbitrator

/-- `not row.mandatory`, as it compares with other numbers. -/
def optional (row : CompetingAction) : ℚ := if row.mandatory then 0 else 1

/-- The key by which `_rank` sorts under a policy. -/
def rankKey (policy : ArbitrationPolicy) (row : CompetingAction) : List ℚ :=
  match policy with
  | .fixedPriority => [row.riskPriority, row.submittedSequence]
  | .riskFirst => [optional row, row.riskPriority]
  | .capitalEfficiency => [row.requiredCapital]
  | .highestRobustnessScore => [-row.robustnessScore, row.submittedSequence]
  | .highestExpectedValue => [-row.expectedValue, row.submittedSequence]
  | .lowestMarginalRisk => [row.marginalRisk, row.submittedSequence]
  | .strategyAgePriority => [-row.ageSeconds, row.submittedSequence]
  | .fifo => [row.submittedSequence]
  | .compositeScore =>
    [optional row, -row.expectedValue, row.requiredCapital, -row.robustnessScore, row.marginalRisk]

/-- `_rank`. -/
def rank (policy : ArbitrationPolicy) (actions : List CompetingAction) : List CompetingAction :=
  sortBy (rankKey policy) actions

/-- The local variables of the loop of `decide`. -/
structure Arbitration where
  accepted : List CompetingAction
  rejected : List RejectedAction
  remaining : ℚ

/-- One turn of the loop. -/
def arbitrate (state : Arbitration) (action : CompetingAction) : Arbitration :=
  if action.requiredCapital ≤ state.remaining then
    { state with
      accepted := state.accepted ++ [action]
      remaining := state.remaining - action.requiredCapital }
  else { state with rejected := state.rejected ++ [action.insufficientCapital] }

protected def decide (policy : ArbitrationPolicy) (competingActions : List CompetingAction)
    (availableCapital : ℚ) : ArbitrationDecision :=
  let ranked := rank policy competingActions
  let final := ranked.foldl arbitrate ⟨[], [], availableCapital⟩
  { policy
    acceptedActions := final.accepted
    rejectedActions := final.rejected
    diagnostics := { availableCapital
                     remainingCapital := final.remaining
                     competingCount := competingActions.length } }

/-- The loop admits greedily. -/
theorem foldl_arbitrate (ranked : List CompetingAction) (state : Arbitration) :
    ranked.foldl arbitrate state =
      let admission := admitWithin (·.requiredCapital) state.remaining ranked
      ⟨state.accepted ++ admission.accepted,
        state.rejected ++ admission.rejected.map (·.insufficientCapital), admission.remaining⟩ := by
  induction ranked generalizing state with
  | nil => simp only [List.foldl_nil, admitWithin, List.append_nil, List.map_nil]
  | cons action rest ih =>
    rw [List.foldl_cons, ih]
    by_cases hfits : action.requiredCapital ≤ state.remaining
    · rw [arbitrate, if_pos hfits, admitWithin_cons_of_fits hfits]
      simp only [List.append_assoc, List.singleton_append]
    · rw [arbitrate, if_neg hfits, admitWithin_cons_of_exceeds (not_le.mp hfits)]
      simp only [List.append_assoc, List.singleton_append, List.map_cons]

variable {policy : ArbitrationPolicy} {actions others : List CompetingAction}
  {available : ℚ} {action : CompetingAction}

theorem rank_perm : (rank policy actions).Perm actions := sortBy_perm

/-- The admission that a decision reports. -/
def admission (policy : ArbitrationPolicy) (actions : List CompetingAction) (available : ℚ) :
    Admission CompetingAction ℚ :=
  admitWithin (·.requiredCapital) available (rank policy actions)

theorem acceptedActions_decide :
    (CrossStrategyArbitrator.decide policy actions available).acceptedActions =
      (admission policy actions available).accepted := by
  simp only [CrossStrategyArbitrator.decide, foldl_arbitrate, List.nil_append]
  rfl

theorem rejectedActions_decide :
    (CrossStrategyArbitrator.decide policy actions available).rejectedActions =
      (admission policy actions available).rejected.map (·.insufficientCapital) := by
  simp only [CrossStrategyArbitrator.decide, foldl_arbitrate, List.nil_append]
  rfl

theorem remainingCapital_decide :
    (CrossStrategyArbitrator.decide policy actions available).diagnostics.remainingCapital =
      (admission policy actions available).remaining := by
  simp only [CrossStrategyArbitrator.decide, foldl_arbitrate]
  rfl

variable (policy actions available) in
theorem admission_perm :
    ((admission policy actions available).accepted ++
      (admission policy actions available).rejected).Perm actions :=
  admitWithin_perm.trans rank_perm

end CrossStrategyArbitrator

/-- `margin_call_actions` of `MarginLifecycleCoordinator`: the margin calls as mandatory actions. -/
def marginCallActions (marginCalls : List MarginCallEvent) (submittedSequenceStart : Int) :
    List CompetingAction :=
  marginCalls.mapIdx fun index item =>
    { actionId := item.callId
      strategyInstanceId := "margin-system"
      actionType := item.reason.value
      mandatory := true
      riskPriority := 0
      requiredCapital := max 0 item.amountRequired
      expectedValue := 0
      robustnessScore := 0
      marginalRisk := -max 0 item.amountRequired
      ageSeconds := 0
      submittedSequence := submittedSequenceStart + index }

end OptionResearch
