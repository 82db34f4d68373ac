import OptionResearch.OptimizationModels
import OptionResearch.StableSort
import OptionResearch.UnbeatenItems
import Mathlib.Algebra.Order.Field.Rat
import Mathlib.Data.String.Basic
import Mathlib.Order.WithBot

/-!
# Pareto fronts

`ParetoEngine` of `pareto.py`. Dominance skips the objectives that either side does not report. It
is a strict order where all succeeded evaluations report the same metrics, and there every dominated
evaluation is dominated from the front; elsewhere it may run in circles.
-/

namespace OptionResearch

/-- Whether a value of the objective is better than another. -/
def ObjectiveDefinition.prefers (objective : ObjectiveDefinition) (value other : ℚ) : Prop :=
  match objective.direction with
  | .maximize => other < value
  | .minimize => value < other

instance (objective : ObjectiveDefinition) (value other : ℚ) :
    Decidable (objective.prefers value other) := by
  unfold ObjectiveDefinition.prefers
  split <;> infer_instance

/-- `-x`, where an absent number counts as negative infinity. -/
def negated (x : Option ℚ) : WithTop ℚ := x.elim ⊤ fun q => ((-q : ℚ) : WithTop ℚ)

namespace CandidateEvaluation

/-- Both report the objective, and the first has the better value. -/
def Better (objective : ObjectiveDefinition) (left right : CandidateEvaluation) : Prop :=
  ∃ value other, left.metric objective.metricKey = some value ∧
    right.metric objective.metricKey = some other ∧ objective.prefers value other

def isSucceeded (evaluation : CandidateEvaluation) : Bool := evaluation.status == .succeeded

end CandidateEvaluation

namespace ParetoEngine

open CandidateEvaluation

/-- The loop of `_dominates`, with its flag `strictly_better`. -/
def dominatesFrom (left right : CandidateEvaluation) :
    Bool → List ObjectiveDefinition → Bool
  | strictlyBetter, [] => strictlyBetter
  | strictlyBetter, objective :: rest =>
    match left.metric objective.metricKey, right.metric objective.metricKey with
    | some value, some other =>
      if objective.prefers other value then false
      else dominatesFrom left right (strictlyBetter || decide (objective.prefers value other)) rest
    | _, _ => dominatesFrom left right strictlyBetter rest

def dominates (objectives : List ObjectiveDefinition) (left right : CandidateEvaluation) : Bool :=
  dominatesFrom left right false objectives

/-- `_stable_key`. -/
def stableKey (evaluation : CandidateEvaluation) : WithTop ℚ ×ₗ String :=
  toLex (negated evaluation.score, evaluation.candidateId)

/-- The succeeded evaluations, which `extract_front` calls `non_failed`. -/
def nonFailed (evaluations : List CandidateEvaluation) : List CandidateEvaluation :=
  evaluations.filter isSucceeded

def dominators (objectives : List ObjectiveDefinition) (evaluations : List CandidateEvaluation)
    (candidate : CandidateEvaluation) : List CandidateEvaluation :=
  (nonFailed evaluations).filter fun other =>
    other.candidateId != candidate.candidateId && dominates objectives other candidate

/-- The copy of a dominated evaluation. -/
def markDominated (candidate : CandidateEvaluation) (dominators : List CandidateEvaluation) :
    CandidateEvaluation :=
  { candidate with dominatedBy := StableSort.sortBy id (dominators.map candidateId) }

def extractFront (evaluations : List CandidateEvaluation)
    (objectives : List ObjectiveDefinition) : ParetoFrontResult :=
  let dominatorsOf := dominators objectives evaluations
  let front := (nonFailed evaluations).filter fun candidate => (dominatorsOf candidate).isEmpty
  let dominated := (nonFailed evaluations).filter fun candidate => !(dominatorsOf candidate).isEmpty
  { front := StableSort.sortBy stableKey front
    dominated := StableSort.sortBy stableKey
      (dominated.map fun candidate => markDominated candidate (dominatorsOf candidate)) }

/-! ### Dominance -/

variable {objectives : List ObjectiveDefinition} {left right : CandidateEvaluation}
  {objective : ObjectiveDefinition}

theorem prefers_asymm {value other : ℚ} (h : objective.prefers value other) :
    ¬ objective.prefers other value := by
  unfold ObjectiveDefinition.prefers at h ⊢
  cases hdirection : objective.direction with
  | maximize =>
    rw [hdirection] at h
    exact h.asymm
  | minimize =>
    rw [hdirection] at h
    exact h.asymm

/-- A value that is not worse than one better than another is better than that, too. -/
theorem prefers_trans_of_not {value other third : ℚ} (h : ¬ objective.prefers other value)
    (hprefers : objective.prefers other third) : objective.prefers value third := by
  unfold ObjectiveDefinition.prefers at h hprefers ⊢
  cases hdirection : objective.direction with
  | maximize =>
    rw [hdirection] at h hprefers
    exact hprefers.trans_le (not_lt.mp h)
  | minimize =>
    rw [hdirection] at h hprefers
    exact (not_lt.mp h).trans_lt hprefers

theorem not_prefers_trans {value other third : ℚ} (h : ¬ objective.prefers other value)
    (h' : ¬ objective.prefers third other) : ¬ objective.prefers third value :=
  fun hprefers => h (prefers_trans_of_not h' hprefers)

theorem dominatesFrom_iff {strictlyBetter : Bool} :
    dominatesFrom left right strictlyBetter objectives = true ↔
      (∀ objective ∈ objectives, ¬ Better objective right left) ∧
        (strictlyBetter = true ∨ ∃ objective ∈ objectives, Better objective left right) := by
  induction objectives generalizing strictlyBetter with
  | nil => simp [dominatesFrom]
  | cons objective rest ih =>
    rw [dominatesFrom, List.forall_mem_cons, List.exists_mem_cons_iff]
    rcases hleft : left.metric objective.metricKey with _ | value
    · have hbetter : ¬ Better objective left right := fun ⟨_, _, h, _⟩ => by simp [hleft] at h
      have hworse : ¬ Better objective right left := fun ⟨_, _, _, h, _⟩ => by simp [hleft] at h
      simp only [ih, hbetter, hworse, not_false_eq_true, true_and, false_or]
    · rcases hright : right.metric objective.metricKey with _ | other
      · have hbetter : ¬ Better objective left right :=
          fun ⟨_, _, _, h, _⟩ => by simp [hright] at h
        have hworse : ¬ Better objective right left := fun ⟨_, _, h, _⟩ => by simp [hright] at h
        simp only [ih, hbetter, hworse, not_false_eq_true, true_and, false_or]
      · have hbetter : Better objective left right ↔ objective.prefers value other := by
          simp [Better, hleft, hright]
        have hworse : Better objective right left ↔ objective.prefers other value := by
          simp [Better, hleft, hright]
        dsimp only
        rw [hbetter, hworse]
        by_cases hprefers : objective.prefers other value
        · simp [hprefers]
        · rw [if_neg hprefers, ih, Bool.or_eq_true, decide_eq_true_eq]
          tauto

/-- One evaluation dominates another when it is worse in no objective and better in one. -/
theorem dominates_iff : dominates objectives left right = true ↔
    (∀ objective ∈ objectives, ¬ Better objective right left) ∧
      ∃ objective ∈ objectives, Better objective left right := by
  rw [dominates, dominatesFrom_iff]
  simp only [Bool.false_eq_true, false_or]

theorem not_dominates_self (evaluation : CandidateEvaluation) :
    ¬ dominates objectives evaluation evaluation = true := by
  rw [dominates_iff]
  rintro ⟨hworse, objective, hmem, hbetter⟩
  exact hworse objective hmem hbetter

/-- The objectives whose metric one of the evaluations reports, all of them report. -/
def UniformlyReported (objectives : List ObjectiveDefinition)
    (evaluations : List CandidateEvaluation) : Prop :=
  ∀ objective ∈ objectives, ∀ left ∈ evaluations, ∀ right ∈ evaluations,
    (left.metric objective.metricKey).isSome = (right.metric objective.metricKey).isSome

theorem dominates_trans {evaluations : List CandidateEvaluation}
    (h : UniformlyReported objectives evaluations) {first second third : CandidateEvaluation}
    (hfirst : first ∈ evaluations) (hsecond : second ∈ evaluations)
    (hdominates : dominates objectives first second = true)
    (hdominates' : dominates objectives second third = true) :
    dominates objectives first third = true := by
  rw [dominates_iff] at hdominates hdominates' ⊢
  have hmiddle : ∀ objective ∈ objectives, ∀ value, first.metric objective.metricKey = some value →
      ∃ middle, second.metric objective.metricKey = some middle := by
    intro objective hmem value hvalue
    have hsome := h objective hmem first hfirst second hsecond
    rw [hvalue] at hsome
    exact Option.isSome_iff_exists.mp hsome.symm
  constructor
  · rintro objective hmem ⟨worst, value, hthird, hvalue, hprefers⟩
    obtain ⟨middle, hmiddle⟩ := hmiddle objective hmem value hvalue
    have hsecond' : ¬ objective.prefers middle value := fun hworse =>
      hdominates.1 objective hmem ⟨middle, value, hmiddle, hvalue, hworse⟩
    have hthird' : ¬ objective.prefers worst middle := fun hworse =>
      hdominates'.1 objective hmem ⟨worst, middle, hthird, hmiddle, hworse⟩
    exact not_prefers_trans hsecond' hthird' hprefers
  · obtain ⟨objective, hmem, middle, worst, hmiddle', hthird, hprefers⟩ := hdominates'.2
    have hsome := h objective hmem first hfirst second hsecond
    rw [hmiddle'] at hsome
    obtain ⟨value, hvalue⟩ := Option.isSome_iff_exists.mp hsome
    have hnot : ¬ objective.prefers middle value := fun hworse =>
      hdominates.1 objective hmem ⟨middle, value, hmiddle', hvalue, hworse⟩
    exact ⟨objective, hmem, value, worst, hvalue, hthird, prefers_trans_of_not hnot hprefers⟩

/-! ### The front -/

variable {evaluations : List CandidateEvaluation} {evaluation : CandidateEvaluation}
  {listed : List CandidateEvaluation}

theorem mem_nonFailed :
    evaluation ∈ nonFailed evaluations ↔
      evaluation ∈ evaluations ∧ evaluation.status = .succeeded := by
  rw [nonFailed, List.mem_filter, isSucceeded, beq_iff_eq]

/-- Being marked as dominated changes nothing that dominance reads. -/
theorem dominates_markDominated :
    dominates objectives left (markDominated right listed) = dominates objectives left right := by
  rw [Bool.eq_iff_iff, dominates_iff, dominates_iff]
  exact Iff.rfl

/-- Where ids are distinct, an evaluation has no dominators exactly when nothing dominates it. -/
theorem dominators_isEmpty_iff (hids : (evaluations.map candidateId).Nodup)
    (hmem : evaluation ∈ nonFailed evaluations) :
    (dominators objectives evaluations evaluation).isEmpty = true ↔
      Unbeaten (fun left right => dominates objectives left right = true) (nonFailed evaluations)
        evaluation := by
  rw [List.isEmpty_iff, dominators, List.filter_eq_nil_iff]
  constructor
  · intro h other hother hdominates
    by_cases hid : other.candidateId = evaluation.candidateId
    · have heq := List.inj_on_of_nodup_map hids (mem_nonFailed.mp hother).1
        (mem_nonFailed.mp hmem).1 hid
      exact not_dominates_self evaluation (heq ▸ hdominates)
    · exact h other hother (by simp [hid, hdominates])
  · intro h other hother hdominator
    exact h other hother (Bool.and_eq_true_iff.mp hdominator).2

theorem mem_front_of_unbeaten (hmem : evaluation ∈ nonFailed evaluations)
    (h : Unbeaten (fun left right => dominates objectives left right = true)
      (nonFailed evaluations) evaluation) :
    evaluation ∈ (extractFront evaluations objectives).front := by
  rw [extractFront, StableSort.mem_sortBy, List.mem_filter, List.isEmpty_iff, dominators,
    List.filter_eq_nil_iff]
  exact ⟨hmem, fun other hother hdominator =>
    h other hother (Bool.and_eq_true_iff.mp hdominator).2⟩

theorem mem_front_iff (hids : (evaluations.map candidateId).Nodup) :
    evaluation ∈ (extractFront evaluations objectives).front ↔
      evaluation ∈ nonFailed evaluations ∧
        Unbeaten (fun left right => dominates objectives left right = true)
          (nonFailed evaluations) evaluation := by
  rw [extractFront, StableSort.mem_sortBy, List.mem_filter]
  exact and_congr_right (dominators_isEmpty_iff hids)

theorem mem_dominated_iff (hids : (evaluations.map candidateId).Nodup) :
    evaluation ∈ (extractFront evaluations objectives).dominated ↔
      ∃ candidate ∈ nonFailed evaluations,
        ¬ Unbeaten (fun left right => dominates objectives left right = true)
            (nonFailed evaluations) candidate ∧
          markDominated candidate (dominators objectives evaluations candidate) = evaluation := by
  rw [extractFront, StableSort.mem_sortBy, List.mem_map]
  constructor
  · rintro ⟨candidate, hmem, hmark⟩
    obtain ⟨hmem, hbeaten⟩ := List.mem_filter.mp hmem
    refine ⟨candidate, hmem, ?_, hmark⟩
    rw [← dominators_isEmpty_iff hids hmem]
    simpa using hbeaten
  · rintro ⟨candidate, hmem, hbeaten, hmark⟩
    rw [← dominators_isEmpty_iff hids hmem] at hbeaten
    exact ⟨candidate, List.mem_filter.mpr ⟨hmem, by simpa using hbeaten⟩, hmark⟩

/-- The evaluation before it is marked. -/
def unmarked (evaluation : CandidateEvaluation) : CandidateEvaluation :=
  { evaluation with dominatedBy := [] }

/-- Front and dominated evaluations are the succeeded ones, there is a front, and from it every
dominated evaluation is dominated. -/
structure SoundFront (objectives : List ObjectiveDefinition)
    (evaluations : List CandidateEvaluation) (result : ParetoFrontResult) : Prop where
  partition : ((result.front ++ result.dominated).map unmarked).Perm
    ((nonFailed evaluations).map unmarked)
  front_ne_nil : (∃ evaluation ∈ evaluations, evaluation.status = .succeeded) → result.front ≠ []
  dominated_from_front : ∀ evaluation ∈ result.dominated, ∃ best ∈ result.front,
    dominates objectives best evaluation = true

theorem extractFront_partition :
    (((extractFront evaluations objectives).front ++
        (extractFront evaluations objectives).dominated).map unmarked).Perm
      ((nonFailed evaluations).map unmarked) := by
  have hunmarked : ∀ kept : List CandidateEvaluation,
      (kept.map fun candidate =>
        markDominated candidate (dominators objectives evaluations candidate)).map unmarked =
        kept.map unmarked := by
    intro kept
    rw [List.map_map]
    rfl
  have hfront : (extractFront evaluations objectives).front.Perm
      ((nonFailed evaluations).filter fun candidate =>
        (dominators objectives evaluations candidate).isEmpty) := StableSort.sortBy_perm
  have hdominated : (extractFront evaluations objectives).dominated.Perm
      (((nonFailed evaluations).filter fun candidate =>
        !(dominators objectives evaluations candidate).isEmpty).map fun candidate =>
          markDominated candidate (dominators objectives evaluations candidate)) :=
    StableSort.sortBy_perm
  refine ((hfront.append hdominated).map unmarked).trans ?_
  rw [List.map_append, hunmarked, ← List.map_append]
  exact (List.filter_append_perm _ _).map unmarked

/-- Pareto extraction is sound and complete exactly where dominance leads every dominated evaluation
to an undominated one, as it does where all succeeded evaluations report the same objectives. -/
theorem extractFront_sound_iff (evaluations : List CandidateEvaluation)
    (objectives : List ObjectiveDefinition) (hids : (evaluations.map candidateId).Nodup) :
    (SoundFront objectives evaluations (extractFront evaluations objectives) ↔
        UnbeatenCover (fun left right => dominates objectives left right = true)
          (nonFailed evaluations)) ∧
      (UniformlyReported objectives (nonFailed evaluations) →
        SoundFront objectives evaluations (extractFront evaluations objectives)) := by
  have hiff : SoundFront objectives evaluations (extractFront evaluations objectives) ↔
      UnbeatenCover (fun left right => dominates objectives left right = true)
        (nonFailed evaluations) := by
    constructor
    · intro h candidate hmem hbeaten
      obtain ⟨best, hbest, hdominates⟩ := h.dominated_from_front _
        ((mem_dominated_iff hids).mpr ⟨candidate, hmem, hbeaten, rfl⟩)
      obtain ⟨hsucceeded, hunbeaten⟩ := (mem_front_iff hids).mp hbest
      rw [dominates_markDominated] at hdominates
      exact ⟨best, hsucceeded, hdominates, hunbeaten⟩
    · intro h
      refine ⟨extractFront_partition, ?_, ?_⟩
      · rintro ⟨evaluation, hmem, hstatus⟩
        obtain ⟨best, hbest, hunbeaten⟩ := h.exists_unbeaten
          (List.ne_nil_of_mem (mem_nonFailed.mpr ⟨hmem, hstatus⟩))
        exact List.ne_nil_of_mem ((mem_front_iff hids).mpr ⟨hbest, hunbeaten⟩)
      · intro evaluation hdominated
        obtain ⟨candidate, hmem, hbeaten, rfl⟩ := (mem_dominated_iff hids).mp hdominated
        obtain ⟨best, hbest, hdominates, hunbeaten⟩ := h candidate hmem hbeaten
        refine ⟨best, (mem_front_iff hids).mpr ⟨hbest, hunbeaten⟩, ?_⟩
        rw [dominates_markDominated]
        exact hdominates
  refine ⟨hiff, fun huniform => hiff.mpr ?_⟩
  apply unbeatenCover_of_trans
  · exact fun candidate _ => not_dominates_self candidate
  · intro first hfirst second hsecond third _
    exact dominates_trans huniform hfirst hsecond

/-- A succeeded evaluation with those metrics. -/
def reporting (candidateId : String) (metrics : List (String × ℚ)) : CandidateEvaluation where
  candidate := ⟨candidateId, .empty⟩
  objectiveMetrics := metrics.foldl (fun dict entry => dict.set entry.1 entry.2) .empty
  constraintResults := []
  warnings := []
  lifecycleOutcomes := []
  regimeMetadata := []
  calibrationMetadata := []
  dataQualityMetrics := []
  sampleSize := 0
  status := .succeeded
  failureReason := none
  reproducibilityMetadata := []

def maximizing (metricKey : String) : ObjectiveDefinition :=
  { name := metricKey, metricKey, direction := .maximize }

theorem extractFront_sound_two :
    SoundFront [maximizing "return"]
      [reporting "a" [("return", 2)], reporting "b" [("return", 1)]]
      (extractFront [reporting "a" [("return", 2)], reporting "b" [("return", 1)]]
        [maximizing "return"]) :=
  (extractFront_sound_iff [reporting "a" [("return", 2)], reporting "b" [("return", 1)]]
    [maximizing "return"] (by decide)).2 (by unfold UniformlyReported; decide)

/-- Three evaluations that report two of three metrics each dominate one another in a circle. -/
def circle : List CandidateEvaluation :=
  [reporting "a" [("carry", 2), ("vega", 1)], reporting "b" [("carry", 1), ("theta", 2)],
    reporting "c" [("theta", 1), ("vega", 2)]]

theorem extractFront_circle :
    ¬ ∀ (evaluations : List CandidateEvaluation) (objectives : List ObjectiveDefinition),
      (evaluations.map candidateId).Nodup →
        SoundFront objectives evaluations (extractFront evaluations objectives) := by
  intro h
  have hfront := (h circle [maximizing "carry", maximizing "theta", maximizing "vega"]
    (by decide)).front_ne_nil ⟨_, List.mem_cons_self, rfl⟩
  obtain ⟨best, hbest⟩ := List.exists_mem_of_ne_nil _ hfront
  obtain ⟨hmem, hunbeaten⟩ := (mem_front_iff (by decide)).mp hbest
  have hbeaten : ∀ candidate ∈ nonFailed circle, ∃ other ∈ nonFailed circle,
      dominates [maximizing "carry", maximizing "theta", maximizing "vega"] other candidate =
        true := by
    decide
  obtain ⟨other, hother, hdominates⟩ := hbeaten best hmem
  exact hunbeaten other hother hdominates

end ParetoEngine
end OptionResearch
