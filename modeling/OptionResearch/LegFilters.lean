import OptionResearch.LegSelection

/-!
# Legs that filtering policies select

Filtering policies select the first candidate that passes all of them, in any order. What passes is
what satisfies the declared conditions, but for the days to expiration that the code cannot tell
from missing ones.
-/

namespace OptionResearch.LegSelectionEngine

open FirstMatches
open StrategyLibrary (TemplateText)

variable {text : TemplateText} {policy : LegSelectionPolicy} {policies : List LegSelectionPolicy}
  {condition : LegCondition} {conditions : List LegCondition} {candidate : LegSelectionCandidate}
  {candidates : List LegSelectionCandidate}

namespace LegCondition

/-- The test of `_apply_policy` for the condition. -/
def passes (candidate : LegSelectionCandidate) : LegCondition → Bool
  | .strike target => candidate.strike = some target
  | .expiration target => target.isExpiration candidate.expiration
  | .minimumDte threshold =>
    threshold ≤ (if candidate.dte.getD 0 = 0 then -1 else candidate.dte.getD 0)
  | .maximumDte threshold =>
    (if candidate.dte.getD 0 = 0 then 10 ^ 9 else candidate.dte.getD 0) ≤ threshold
  | .liquidity minimum => minimum ≤ candidate.liquidityScore.getD 0
  | .quality minimum => minimum ≤ candidate.qualityScore.getD 0

def OnDte : LegCondition → Prop
  | .minimumDte _ | .maximumDte _ => True
  | _ => False

/-- Thresholds of scores are positive. -/
def Positive : LegCondition → Prop
  | .liquidity minimum | .quality minimum => 0 < minimum
  | _ => True

/-- What a candidate without days to expiration passes. -/
def HoldsWithoutDte (candidate : LegSelectionCandidate) : LegCondition → Prop
  | .minimumDte threshold => threshold ≤ -1
  | .maximumDte threshold => 10 ^ 9 ≤ threshold
  | condition => condition.Holds candidate

theorem le_getD_iff {score : Option ℚ} {minimum : ℚ} (h : 0 < minimum) :
    minimum ≤ score.getD 0 ↔ ∃ s ∈ score, minimum ≤ s := by
  cases score with
  | none => exact iff_of_false (not_le.mpr h) (by rintro ⟨s, hs, -⟩; cases hs)
  | some s => simp

theorem passes_iff_holds (hpositive : condition.Positive) (h : ¬ condition.OnDte) :
    condition.passes candidate = true ↔ condition.Holds candidate := by
  cases condition with
  | strike target => exact decide_eq_true_iff
  | expiration target => exact Iff.rfl
  | minimumDte threshold => exact absurd trivial h
  | maximumDte threshold => exact absurd trivial h
  | liquidity minimum => exact decide_eq_true_iff.trans (le_getD_iff hpositive)
  | quality minimum => exact decide_eq_true_iff.trans (le_getD_iff hpositive)

/-- Days to expiration are read as they are where there are any left. -/
theorem passes_iff_of_pos (hpositive : condition.Positive) {dte : Int}
    (hdte : candidate.dte = some dte) (hpos : 0 < dte) :
    condition.passes candidate = true ↔ condition.Holds candidate := by
  by_cases h : condition.OnDte
  · cases condition with
    | minimumDte threshold => simp [passes, Holds, hdte, hpos.ne']
    | maximumDte threshold => simp [passes, Holds, hdte, hpos.ne']
    | _ => exact absurd h id
  · exact passes_iff_holds hpositive h

theorem passes_iff_of_none (hpositive : condition.Positive) (hdte : candidate.dte = none) :
    condition.passes candidate = true ↔ condition.HoldsWithoutDte candidate := by
  by_cases h : condition.OnDte
  · cases condition with
    | minimumDte threshold => simp [passes, HoldsWithoutDte, hdte]
    | maximumDte threshold => simp [passes, HoldsWithoutDte, hdte]
    | _ => exact absurd h id
  · refine (passes_iff_holds hpositive h).trans ?_
    cases condition with
    | minimumDte threshold => exact absurd trivial h
    | maximumDte threshold => exact absurd trivial h
    | _ => exact Iff.rfl

/-- A condition that a contract expiring on the day passes is satisfied by it. -/
theorem holds_of_passes_zero (hpositive : condition.Positive) (hdte : candidate.dte = some 0)
    (h : condition.passes candidate = true) : condition.Holds candidate := by
  by_cases hon : condition.OnDte
  · cases condition with
    | minimumDte threshold =>
      have hle : threshold ≤ -1 := by simpa [passes, hdte] using h
      exact ⟨0, hdte, by omega⟩
    | maximumDte threshold =>
      have hle : 10 ^ 9 ≤ threshold := by simpa [passes, hdte] using h
      exact ⟨0, hdte, by omega⟩
    | _ => exact absurd hon id
  · exact (passes_iff_holds hpositive hon).mp h

/-- And of those it satisfies it fails a minimum of zero and every maximum below the default. -/
theorem not_passes_zero_iff (hpositive : condition.Positive) (hdte : candidate.dte = some 0)
    (h : condition.Holds candidate) :
    ¬ condition.passes candidate = true ↔
      condition = .minimumDte 0 ∨ ∃ threshold < 10 ^ 9, condition = .maximumDte threshold := by
  by_cases hon : condition.OnDte
  · cases condition with
    | minimumDte threshold =>
      obtain ⟨dte, hmem, hle⟩ := h
      obtain rfl : dte = 0 := Option.some.inj (hmem.symm.trans hdte)
      have hpasses : passes candidate (.minimumDte threshold) = true ↔ threshold ≤ -1 := by
        simp [passes, hdte]
      rw [hpasses]
      constructor
      · exact fun hnot => .inl (congrArg minimumDte (by omega))
      · rintro (heq | ⟨_, -, heq⟩)
        · cases heq
          omega
        · cases heq
    | maximumDte threshold =>
      have hpasses : passes candidate (.maximumDte threshold) = true ↔ 10 ^ 9 ≤ threshold := by
        simp [passes, hdte]
      rw [hpasses, not_le]
      constructor
      · exact fun hlt => .inr ⟨threshold, hlt, rfl⟩
      · rintro (heq | ⟨_, hlt, heq⟩)
        · cases heq
        · cases heq
          exact hlt
    | _ => exact absurd hon id
  · refine iff_of_false (not_not.mpr ((passes_iff_holds hpositive hon).mpr h)) ?_
    rintro (rfl | ⟨threshold, -, rfl⟩)
    · exact hon trivial
    · exact hon trivial

/-- Conditions on the days to expiration are not satisfied without any. -/
theorem not_holds_of_onDte (hon : condition.OnDte) (hdte : candidate.dte = none) :
    ¬ condition.Holds candidate := by
  intro h
  cases condition with
  | minimumDte threshold =>
    obtain ⟨dte, hsome, -⟩ := h
    cases hdte.symm.trans hsome
  | maximumDte threshold =>
    obtain ⟨dte, hsome, -⟩ := h
    cases hdte.symm.trans hsome
  | _ => exact hon

end LegCondition

/-- The defaults misjudge a contract that satisfies all conditions on the day it expires, where one
of them is a minimum of zero or a maximum below the default, and one without days to expiration that
fails nothing but conditions on these, which the defaults satisfy. -/
def Misjudged (conditions : List LegCondition) (candidate : LegSelectionCandidate) : Prop :=
  (candidate.dte = some 0 ∧ (∀ condition ∈ conditions, condition.Holds candidate) ∧
    (.minimumDte 0 ∈ conditions ∨ ∃ threshold < 10 ^ 9, .maximumDte threshold ∈ conditions)) ∨
  candidate.dte = none ∧ (∃ condition ∈ conditions, condition.OnDte) ∧
    ∀ condition ∈ conditions, condition.HoldsWithoutDte candidate

theorem misjudged_iff_of_none (hpositive : ∀ condition ∈ conditions, condition.Positive)
    (hread : candidate.dte = none) :
    Misjudged conditions candidate ↔
      ¬ ((∀ condition ∈ conditions, condition.passes candidate = true) ↔
        ∀ condition ∈ conditions, condition.Holds candidate) := by
  have hpasses : (∀ condition ∈ conditions, condition.passes candidate = true) ↔
      ∀ condition ∈ conditions, condition.HoldsWithoutDte candidate :=
    forall₂_congr fun condition hcondition =>
      LegCondition.passes_iff_of_none (hpositive condition hcondition) hread
  rw [hpasses]
  constructor
  · rintro (⟨hzero, -⟩ | ⟨-, ⟨condition, hmem, hon⟩, hwithout⟩)
    · cases hread.symm.trans hzero
    · exact fun hiff =>
        LegCondition.not_holds_of_onDte hon hread (hiff.mp hwithout condition hmem)
  · intro hnot
    by_cases hon : ∃ condition ∈ conditions, condition.OnDte
    · refine .inr ⟨hread, hon, ?_⟩
      by_contra hwithout
      obtain ⟨condition, hmem, hdte⟩ := hon
      exact hnot (iff_of_false hwithout fun hholds =>
        LegCondition.not_holds_of_onDte hdte hread (hholds condition hmem))
    · refine absurd (forall₂_congr fun condition hmem => ?_) hnot
      exact (LegCondition.passes_iff_of_none (hpositive condition hmem) hread).symm.trans
        (LegCondition.passes_iff_holds (hpositive condition hmem)
          fun h => hon ⟨condition, hmem, h⟩)

theorem misjudged_iff_of_zero (hpositive : ∀ condition ∈ conditions, condition.Positive)
    (hread : candidate.dte = some 0) :
    Misjudged conditions candidate ↔
      ¬ ((∀ condition ∈ conditions, condition.passes candidate = true) ↔
        ∀ condition ∈ conditions, condition.Holds candidate) := by
  constructor
  · rintro (⟨-, hholds, hfails⟩ | ⟨hnone, -⟩)
    · intro hiff
      have hpasses := hiff.mpr hholds
      rcases hfails with hmem | ⟨threshold, hlt, hmem⟩
      · exact (LegCondition.not_passes_zero_iff (hpositive _ hmem) hread
          (hholds _ hmem)).mpr (.inl rfl) (hpasses _ hmem)
      · exact (LegCondition.not_passes_zero_iff (hpositive _ hmem) hread
          (hholds _ hmem)).mpr (.inr ⟨threshold, hlt, rfl⟩) (hpasses _ hmem)
    · cases hread.symm.trans hnone
  · intro hnot
    have hsub : (∀ condition ∈ conditions, condition.passes candidate = true) →
        ∀ condition ∈ conditions, condition.Holds candidate := fun h condition hmem =>
      LegCondition.holds_of_passes_zero (hpositive condition hmem) hread (h condition hmem)
    have hholds : ∀ condition ∈ conditions, condition.Holds candidate := by
      by_contra hholds
      exact hnot (iff_of_false (fun h => hholds (hsub h)) hholds)
    refine .inl ⟨hread, hholds, ?_⟩
    have hfails : ¬ ∀ condition ∈ conditions, condition.passes candidate = true :=
      fun h => hnot (iff_of_true h hholds)
    push Not at hfails
    obtain ⟨condition, hmem, hcondition⟩ := hfails
    rcases (LegCondition.not_passes_zero_iff (hpositive condition hmem) hread
      (hholds condition hmem)).mp hcondition with rfl | ⟨threshold, hlt, rfl⟩
    · exact .inl hmem
    · exact .inr ⟨threshold, hlt, hmem⟩

theorem misjudged_iff (hpositive : ∀ condition ∈ conditions, condition.Positive)
    (hdte : ∀ dte ∈ candidate.dte, 0 ≤ dte) :
    Misjudged conditions candidate ↔
      conditions.all (·.passes candidate) ≠
        decide (∀ condition ∈ conditions, condition.Holds candidate) := by
  have hne : conditions.all (·.passes candidate) ≠
      decide (∀ condition ∈ conditions, condition.Holds candidate) ↔
      ¬ ((∀ condition ∈ conditions, condition.passes candidate = true) ↔
        ∀ condition ∈ conditions, condition.Holds candidate) := by
    rw [ne_eq, ← List.all_eq_true, Bool.eq_iff_iff, decide_eq_true_iff]
  rw [hne]
  cases hread : candidate.dte with
  | none => exact misjudged_iff_of_none hpositive hread
  | some dte =>
    rcases (hdte dte hread).eq_or_lt with rfl | hpos
    · exact misjudged_iff_of_zero hpositive hread
    · refine iff_of_false ?_ (not_not.mpr (forall₂_congr fun condition hmem =>
        LegCondition.passes_iff_of_pos (hpositive condition hmem) hread hpos))
      rintro (⟨hzero, -⟩ | ⟨hnone, -⟩)
      · exact hpos.ne (Option.some.inj (hzero.symm.trans hread))
      · cases hread.symm.trans hnone

theorem positive_of_declares (h : policy.Declares text condition) : condition.Positive := by
  cases condition with
  | liquidity minimum => exact h.2.2
  | quality minimum => exact h.2.2
  | _ => exact trivial

/-- A filtering policy leaves the candidates that pass its condition. -/
theorem applyPolicy_eq (h : policy.Declares text condition) :
    applyPolicy text candidates policy = .ok (candidates.filter fun item =>
      condition.passes item) := by
  cases condition with
  | strike target =>
    obtain ⟨htype, hread⟩ := h
    simp only [applyPolicy, htype, hread]
    rfl
  | expiration target =>
    obtain ⟨htype, hread⟩ := h
    simp only [applyPolicy, htype, hread]
    rfl
  | minimumDte threshold =>
    obtain ⟨htype, hread⟩ := h
    simp only [applyPolicy, htype, hread]
    rfl
  | maximumDte threshold =>
    obtain ⟨htype, hread⟩ := h
    simp only [applyPolicy, htype, hread]
    rfl
  | liquidity minimum =>
    obtain ⟨htype, hread, -⟩ := h
    simp only [applyPolicy, htype, hread]
    rfl
  | quality minimum =>
    obtain ⟨htype, hread, -⟩ := h
    simp only [applyPolicy, htype, hread]
    rfl

/-- Filtering policies select the first candidate that passes all conditions. -/
theorem selectLeg_eq (h : List.Forall₂ (LegSelectionPolicy.Declares text) policies conditions) :
    ∃ result, selectLeg text candidates policies = .ok result ∧
      result.candidate = candidates.find? fun item => conditions.all (·.passes item) := by
  induction h generalizing candidates with
  | nil =>
    refine ⟨_, rfl, ?_⟩
    cases candidates <;> rfl
  | @cons policy condition policies conditions hdeclares _ ih =>
    have hfind : (candidates.filter fun item => condition.passes item).find?
        (fun item => conditions.all (·.passes item)) =
          candidates.find? fun item => (condition :: conditions).all (·.passes item) := by
      rw [List.find?_filter]
      simp only [List.all_cons, Bool.decide_and, Bool.decide_eq_true]
    rw [selectLeg, applyPolicy_eq hdeclares, except_ok_bind, ← hfind]
    split_ifs with hempty
    · refine ⟨_, rfl, ?_⟩
      rw [hempty]
      rfl
    · exact ih

theorem positive_of_forall₂
    (h : List.Forall₂ (LegSelectionPolicy.Declares text) policies conditions) :
    ∀ condition ∈ conditions, condition.Positive := by
  induction h with
  | nil => exact fun _ hmem => absurd hmem List.not_mem_nil
  | cons hdeclares _ ih => exact List.forall_mem_cons.mpr ⟨positive_of_declares hdeclares, ih⟩

/-- In every order the policies select the first candidate that passes all conditions. -/
theorem forall_selectLeg_iff
    (hdeclares : List.Forall₂ (LegSelectionPolicy.Declares text) policies conditions)
    {selected : Option LegSelectionCandidate} :
    (∀ order, order.Perm policies → ∃ result, selectLeg text candidates order = .ok result ∧
        result.candidate = selected) ↔
      candidates.find? (fun item => conditions.all (·.passes item)) = selected := by
  constructor
  · intro h
    obtain ⟨result, hrun, hresult⟩ := h policies (List.Perm.refl _)
    obtain ⟨other, hother, hcandidate⟩ := @selectLeg_eq _ _ _ candidates hdeclares
    obtain rfl := Except.ok.inj (hrun.symm.trans hother)
    exact hcandidate.symm.trans hresult
  · intro hfind order hperm
    obtain ⟨reordered, hreordered, hconditions⟩ := List.perm_comp_forall₂ hperm hdeclares
    obtain ⟨result, hrun, hcandidate⟩ := @selectLeg_eq _ _ _ candidates hreordered
    refine ⟨result, hrun, ?_⟩
    rw [hcandidate, ← hfind]
    simp only [hconditions.all_eq]

/-- Filtering policies, in any order, select the first candidate that satisfies all conditions
exactly where a candidate that the defaults misjudge comes after one that satisfies them and is not
misjudged. -/
theorem selectLeg_first_iff
    (hdeclares : List.Forall₂ (LegSelectionPolicy.Declares text) policies conditions)
    (hdte : ∀ item ∈ candidates, ∀ dte ∈ item.dte, 0 ≤ dte) :
    (∀ order, order.Perm policies → ∃ result, selectLeg text candidates order = .ok result ∧
        result.candidate = candidates.find? fun item =>
          ∀ condition ∈ conditions, condition.Holds item) ↔
      ∀ front item rest, candidates = front ++ item :: rest → Misjudged conditions item →
        ∃ earlier ∈ front, (∀ condition ∈ conditions, condition.Holds earlier) ∧
          ¬ Misjudged conditions earlier := by
  have hmisjudged : ∀ item ∈ candidates, (Misjudged conditions item ↔
      conditions.all (·.passes item) ≠
        decide (∀ condition ∈ conditions, condition.Holds item)) := fun item hitem =>
    misjudged_iff (positive_of_forall₂ hdeclares) (hdte item hitem)
  rw [forall_selectLeg_iff hdeclares, find?_eq_find?_iff]
  refine forall₃_congr fun front item rest => forall_congr' fun hcandidates => ?_
  subst hcandidates
  refine imp_congr (hmisjudged item (List.mem_append_right _ List.mem_cons_self)).symm
    (exists_congr fun earlier => and_congr_right fun hearlier => ?_)
  rw [hmisjudged earlier (List.mem_append_left _ hearlier), not_not, decide_eq_true_iff]
  constructor
  · rintro ⟨hpasses, hholds⟩
    exact ⟨hholds, hpasses.trans (decide_eq_true hholds).symm⟩
  · rintro ⟨hholds, heq⟩
    exact ⟨heq.trans (decide_eq_true hholds), hholds⟩

/-- A contract with that many days to expiration. -/
def contract (dte : Int) : LegSelectionCandidate where
  contractIdentifier := "A"
  strike := some 500
  expiration := none
  delta := none
  moneyness := none
  premium := none
  dte := some dte
  isWeekly := none
  liquidityScore := none
  qualityScore := none

def minimumDtePolicy (threshold : Int) : LegSelectionPolicy where
  policyType := .minimumDte
  parameters := InsertionDict.empty.set "minimum_dte" (.value (.int threshold))

theorem declares_minimumDtePolicy (threshold : Int) :
    (minimumDtePolicy threshold).Declares StrategyLibrary.plainText (.minimumDte threshold) :=
  ⟨rfl, rfl⟩

theorem selectLeg_first_iff_month :
    ∃ result,
      selectLeg StrategyLibrary.plainText [contract 2, contract 30] [minimumDtePolicy 7] =
          .ok result ∧
        result.candidate = [contract 2, contract 30].find? fun item =>
          ∀ condition ∈ [LegCondition.minimumDte 7], condition.Holds item := by
  have hfound := (selectLeg_first_iff (.cons (declares_minimumDtePolicy 7) .nil)
    (by decide : ∀ item ∈ [contract 2, contract 30], ∀ dte, item.dte = some dte → 0 ≤ dte)).mpr
      fun front item rest hcandidates hmisjudged => by
        have hmem : item ∈ [contract 2, contract 30] :=
          hcandidates ▸ List.mem_append_right _ List.mem_cons_self
        rcases List.mem_pair.mp hmem with rfl | rfl
        all_goals rcases hmisjudged with ⟨hzero, -⟩ | ⟨hnone, -⟩
        · exact absurd hzero (by decide)
        · cases hnone
        · exact absurd hzero (by decide)
        · cases hnone
  exact hfound _ (List.Perm.refl _)

/-- A contract that expires on the day satisfies a minimum of zero, and is not selected. -/
theorem zeroDte_not_selected :
    (minimumDtePolicy 0).Declares StrategyLibrary.plainText (.minimumDte 0) ∧
      (LegCondition.minimumDte 0).Holds (contract 0) ∧
      ¬ ∃ result, selectLeg StrategyLibrary.plainText [contract 0] [minimumDtePolicy 0] =
          .ok result ∧ result.candidate = [contract 0].find? fun item =>
            ∀ condition ∈ [LegCondition.minimumDte 0], condition.Holds item := by
  refine ⟨declares_minimumDtePolicy 0, by decide, ?_⟩
  rintro ⟨result, hrun, hresult⟩
  have hnone : (selectLeg StrategyLibrary.plainText [contract 0] [minimumDtePolicy 0]).toOption.map
      (·.candidate) = some none := by decide
  rw [hrun, Except.toOption, Option.map_some, hresult] at hnone
  exact absurd hnone (by decide)

end OptionResearch.LegSelectionEngine
