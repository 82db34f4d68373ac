import OptionResearch.Arbitration

/-!
# What arbitration guarantees

A decision splits the actions, stays within the capital and rejects an action only when it did not
fit at its rank. The policies that rank mandatory actions first decide on them as if no others were
there. Whether the order of submission matters depends on the key: it does as soon as two actions
share one, and three of the nine keys do not end in the submitted sequence.
-/

namespace OptionResearch

open StableSort GreedyAdmission

namespace CrossStrategyArbitrator

variable {policy : ArbitrationPolicy} {actions others : List CompetingAction}
  {available : ℚ} {action : CompetingAction}

/-! ### Soundness -/

/-- The actions are split between the accepted and the rejected ones, the accepted ones are paid
for, and a rejected one would not fit in what is left and went to the actions after it. -/
structure Sound (policy : ArbitrationPolicy) (actions : List CompetingAction) (available : ℚ)
    (decision : ArbitrationDecision) : Prop where
  split : ∀ action ∈ actions,
    (action ∈ decision.acceptedActions ∧
      action.actionId ∉ decision.rejectedActions.map (·.actionId)) ∨
    (action ∉ decision.acceptedActions ∧
      action.actionId ∈ decision.rejectedActions.map (·.actionId))
  complete : (decision.acceptedActions.map (·.actionId) ++
    decision.rejectedActions.map (·.actionId)).Perm (actions.map (·.actionId))
  conserved : decision.diagnostics.remainingCapital =
    available - (decision.acceptedActions.map (·.requiredCapital)).sum
  solvent : 0 ≤ decision.diagnostics.remainingCapital
  tight : ∀ before action after, rank policy actions = before ++ action :: after →
    action ∉ decision.acceptedActions →
    decision.diagnostics.remainingCapital +
        ((after.filter (· ∈ decision.acceptedActions)).map (·.requiredCapital)).sum <
      action.requiredCapital

theorem nodup_of_ids (hids : (actions.map (·.actionId)).Nodup) : actions.Nodup :=
  List.Nodup.of_map _ hids

theorem rejected_ids :
    ((CrossStrategyArbitrator.decide policy actions available).rejectedActions.map (·.actionId)) =
      (admission policy actions available).rejected.map (·.actionId) := by
  rw [rejectedActions_decide, List.map_map]
  rfl

theorem complete_decide :
    ((CrossStrategyArbitrator.decide policy actions available).acceptedActions.map (·.actionId) ++
      (CrossStrategyArbitrator.decide policy actions available).rejectedActions.map
        (·.actionId)).Perm (actions.map (·.actionId)) := by
  rw [rejected_ids, acceptedActions_decide, ← List.map_append]
  exact (admission_perm policy actions available).map _

theorem split_decide (hids : (actions.map (·.actionId)).Nodup) (haction : action ∈ actions) :
    (action ∈ (admission policy actions available).accepted ∧
      action.actionId ∉ (admission policy actions available).rejected.map (·.actionId)) ∨
    (action ∉ (admission policy actions available).accepted ∧
      action.actionId ∈ (admission policy actions available).rejected.map (·.actionId)) := by
  have hcomplete : ((admission policy actions available).accepted.map (·.actionId) ++
      (admission policy actions available).rejected.map (·.actionId)).Nodup := by
    rw [← List.map_append]
    exact ((admission_perm policy actions available).map _).nodup_iff.mpr hids
  have hdisjoint := List.disjoint_of_nodup_append hcomplete
  have hmem := (admission_perm policy actions available).mem_iff.mpr haction
  rcases List.mem_append.mp hmem with haccepted | hrejected
  · exact .inl ⟨haccepted, hdisjoint (List.mem_map_of_mem haccepted)⟩
  · have hid : action.actionId ∈ (admission policy actions available).rejected.map (·.actionId) :=
      List.mem_map_of_mem hrejected
    exact .inr ⟨fun haccepted => hdisjoint (List.mem_map_of_mem haccepted) hid, hid⟩

theorem sound_decide (hids : (actions.map (·.actionId)).Nodup) (havailable : 0 ≤ available) :
    Sound policy actions available (CrossStrategyArbitrator.decide policy actions available) where
  split := by
    intro action haction
    rw [acceptedActions_decide, rejected_ids]
    exact split_decide hids haction
  complete := complete_decide
  conserved := by
    rw [acceptedActions_decide, remainingCapital_decide]
    exact eq_sub_of_add_eq (remaining_add_sum _ _ _)
  solvent := by
    rw [remainingCapital_decide]
    exact remaining_nonneg havailable
  tight := by
    intro before action after hranked hrejected
    have hnodup : (before ++ action :: after).Nodup := by
      rw [← hranked]
      exact rank_perm.nodup_iff.mpr (nodup_of_ids hids)
    rw [acceptedActions_decide, remainingCapital_decide, admission, hranked] at *
    exact lt_cost_of_not_accepted hnodup hrejected

/-! ### Mandatory actions -/

/-- The policies that rank mandatory actions first. -/
def mandatoryFirst : List ArbitrationPolicy := [.riskFirst, .compositeScore]

theorem rankKey_lt_of_mandatory (hpolicy : policy ∈ mandatoryFirst) {row other : CompetingAction}
    (hrow : row.mandatory = true) (hother : other.mandatory = false) :
    rankKey policy row < rankKey policy other := by
  have hlt : optional row < optional other := by
    rw [optional, optional, hrow, hother]
    norm_num
  have hcases : policy = .riskFirst ∨ policy = .compositeScore := List.mem_pair.mp hpolicy
  rcases hcases with rfl | rfl
  · exact List.Lex.rel hlt
  · exact List.Lex.rel hlt

/-- A mandatory action is accepted as if there were mandatory actions only. -/
theorem mem_accepted_mandatory_iff (hpolicy : policy ∈ mandatoryFirst)
    (hmandatory : action.mandatory = true) :
    action ∈ (CrossStrategyArbitrator.decide policy actions available).acceptedActions ↔
      action ∈ (admission policy (actions.filter (·.mandatory)) available).accepted := by
  have hranked : rank policy actions =
      rank policy (actions.filter (·.mandatory)) ++ rank policy (actions.filter (!·.mandatory)) :=
    sortBy_eq_append _ _ fun row _ other _ hrow hother =>
      rankKey_lt_of_mandatory hpolicy hrow hother
  rw [acceptedActions_decide, admission, hranked, admitWithin_append, List.mem_append]
  constructor
  · rintro (hfirst | hsecond)
    · exact hfirst
    · have hsorted := (accepted_sublist _ _ _).subset hsecond
      have hoptional := (List.mem_filter.mp (mem_sortBy.mp hsorted)).2
      rw [hmandatory] at hoptional
      cases hoptional
  · exact .inl

/-- Whether a mandatory action is accepted does not depend on the other actions' presence. -/
def NonInterfering (policy : ArbitrationPolicy) : Prop :=
  ∀ (actions others : List CompetingAction) (available : ℚ),
    actions.filter (·.mandatory) = others.filter (·.mandatory) →
    ∀ action : CompetingAction, action.mandatory = true →
      (action ∈ (CrossStrategyArbitrator.decide policy actions available).acceptedActions ↔
        action ∈ (CrossStrategyArbitrator.decide policy others available).acceptedActions)

/-- Every decision is sound, and where mandatory actions rank first they do not depend on the
others. -/
theorem arbitration_sound (policy : ArbitrationPolicy) (actions : List CompetingAction)
    (available : ℚ) (hids : (actions.map (·.actionId)).Nodup) (havailable : 0 ≤ available) :
    Sound policy actions available (CrossStrategyArbitrator.decide policy actions available) ∧
      (policy = .riskFirst ∨ policy = .compositeScore → NonInterfering policy) := by
  constructor
  · exact sound_decide hids havailable
  · intro hpolicy actions others available hsame action hmandatory
    have hfirst : policy ∈ mandatoryFirst := List.mem_pair.mpr hpolicy
    rw [mem_accepted_mandatory_iff hfirst hmandatory, mem_accepted_mandatory_iff hfirst hmandatory,
      hsame]

/-- Margin calls are decided as if no optional action competed with them. -/
theorem marginCallActions_accepted_iff (hpolicy : policy ∈ mandatoryFirst)
    (marginCalls : List MarginCallEvent) (start : Int)
    (hothers : ∀ row ∈ others, row.mandatory = false)
    (haction : action ∈ marginCallActions marginCalls start) :
    action ∈ (CrossStrategyArbitrator.decide policy
        (others ++ marginCallActions marginCalls start) available).acceptedActions ↔
      action ∈ (CrossStrategyArbitrator.decide policy
        (marginCallActions marginCalls start) available).acceptedActions := by
  have hmandatory : ∀ row ∈ marginCallActions marginCalls start, row.mandatory = true := by
    intro row hrow
    obtain ⟨index, hindex, rfl⟩ := List.mem_mapIdx.mp hrow
    rfl
  have hnone : others.filter (·.mandatory) = [] := by
    apply List.filter_eq_nil_iff.mpr
    intro row hrow
    rw [hothers row hrow]
    exact Bool.false_ne_true
  rw [mem_accepted_mandatory_iff hpolicy (hmandatory action haction),
    mem_accepted_mandatory_iff hpolicy (hmandatory action haction), List.filter_append, hnone,
    List.nil_append]

/-- An action that only its id, its place in the submission and its capital tell apart. -/
def plainAction (actionId : String) (submittedSequence : Int) (requiredCapital : ℚ) :
    CompetingAction where
  actionId := actionId
  strategyInstanceId := "s-1"
  actionType := "entry"
  mandatory := false
  riskPriority := 0
  requiredCapital := requiredCapital
  expectedValue := 0
  robustnessScore := 0
  marginalRisk := 0
  ageSeconds := 0
  submittedSequence := submittedSequence

theorem arbitration_sound_pair :
    Sound .riskFirst [plainAction "a-1" 1 60, plainAction "a-2" 2 60] 100
        (CrossStrategyArbitrator.decide .riskFirst
          [plainAction "a-1" 1 60, plainAction "a-2" 2 60] 100) ∧
      (ArbitrationPolicy.riskFirst = .riskFirst ∨ ArbitrationPolicy.riskFirst = .compositeScore →
        NonInterfering .riskFirst) :=
  arbitration_sound .riskFirst [plainAction "a-1" 1 60, plainAction "a-2" 2 60] 100
    (by decide) (by norm_num)

/-! ### The order of submission -/

/-- The decision is the same for every order of the actions and every capital. -/
def SameDecision (policy : ArbitrationPolicy) (actions : List CompetingAction) : Prop :=
  ∀ others : List CompetingAction, others.Perm actions → ∀ available : ℚ,
    (CrossStrategyArbitrator.decide policy others available).acceptedActions =
        (CrossStrategyArbitrator.decide policy actions available).acceptedActions ∧
      (CrossStrategyArbitrator.decide policy others available).rejectedActions =
        (CrossStrategyArbitrator.decide policy actions available).rejectedActions

/-- The same actions are accepted and the same rejected, if only in another order. -/
def SameActions (policy : ArbitrationPolicy) (actions : List CompetingAction) : Prop :=
  ∀ others : List CompetingAction, others.Perm actions → ∀ available : ℚ,
    (CrossStrategyArbitrator.decide policy others available).acceptedActions.Perm
        (CrossStrategyArbitrator.decide policy actions available).acceptedActions ∧
      (CrossStrategyArbitrator.decide policy others available).rejectedActions.Perm
        (CrossStrategyArbitrator.decide policy actions available).rejectedActions

/-- No two actions share a key. -/
def Untied (policy : ArbitrationPolicy) (actions : List CompetingAction) : Prop :=
  ∀ a ∈ actions, ∀ b ∈ actions, rankKey policy a = rankKey policy b → a = b

/-- Of two actions that share a key, one needs no capital. -/
def FreelyTied (policy : ArbitrationPolicy) (actions : List CompetingAction) : Prop :=
  ∀ a ∈ actions, ∀ b ∈ actions, rankKey policy a = rankKey policy b → a ≠ b →
    a.requiredCapital = 0 ∨ b.requiredCapital = 0

variable (actions) in
/-- Two actions of one key, submitted first, are ranked next to each other in the order of their
submission, with the same actions before and after them. -/
theorem rank_tied {a b : CompetingAction} (hkey : rankKey policy a = rankKey policy b) :
    ∃ before after, rank policy (a :: b :: actions) = before ++ a :: b :: after ∧
      rank policy (b :: a :: actions) = before ++ b :: a :: after ∧
      ∀ row ∈ before, row ∈ actions := by
  have hab : ∀ row ∈ [a, b], rankKey policy row = rankKey policy b := by
    intro row hrow
    rcases List.mem_pair.mp hrow with rfl | rfl
    · exact hkey
    · rfl
  have hba : ∀ row ∈ [b, a], rankKey policy row = rankKey policy b := by
    intro row hrow
    rcases List.mem_pair.mp hrow with rfl | rfl
    · rfl
    · exact hkey
  refine ⟨_, _, sortBy_append_tied hab, sortBy_append_tied hba, ?_⟩
  intro row hrow
  exact (List.mem_filter.mp (mem_sortBy.mp hrow)).1

theorem perm_cons_cons {a b : CompetingAction} (ha : a ∈ actions) (hb : b ∈ actions)
    (hne : a ≠ b) : ∃ rest, (a :: b :: rest).Perm actions ∧ (b :: a :: rest).Perm actions := by
  have hb' : b ∈ actions.erase a := (List.mem_erase_of_ne (Ne.symm hne)).mpr hb
  have hperm : (a :: b :: (actions.erase a).erase b).Perm actions :=
    ((List.perm_cons_erase hb').symm.cons a).trans (List.perm_cons_erase ha).symm
  exact ⟨_, hperm, (List.Perm.swap a b _).trans hperm⟩

theorem sameDecision_of_untied (huntied : Untied policy actions) : SameDecision policy actions := by
  intro others hperm available
  have hrank : rank policy actions = rank policy others := sortBy_eq_of_perm huntied hperm.symm
  rw [acceptedActions_decide, acceptedActions_decide, rejectedActions_decide,
    rejectedActions_decide, admission, admission, hrank]
  exact ⟨rfl, rfl⟩

/-- With capital for all actions, the accepted ones are the ranking. -/
theorem rank_eq_of_sameDecision (hsame : SameDecision policy actions)
    (hperm : others.Perm actions) : rank policy others = rank policy actions := by
  have hall : ∀ rows : List CompetingAction, rows.Perm actions →
      (CrossStrategyArbitrator.decide policy rows
        (actions.map fun row => |row.requiredCapital|).sum).acceptedActions = rank policy rows := by
    intro rows hrows
    rw [acceptedActions_decide]
    apply accepted_eq_self
    exact ((rank_perm.trans hrows).map _).sum_eq.le
  rw [← hall others hperm, ← hall actions (.refl _)]
  exact (hsame others hperm _).1

theorem untied_of_sameDecision (hsame : SameDecision policy actions) : Untied policy actions := by
  intro a ha b hb hkey
  by_contra hne
  obtain ⟨rest, hab, hba⟩ := perm_cons_cons ha hb hne
  obtain ⟨before, after, hfirst, hsecond, _⟩ := rank_tied rest hkey
  have hranks := (rank_eq_of_sameDecision hsame hab).trans
    (rank_eq_of_sameDecision hsame hba).symm
  rw [hfirst, hsecond] at hranks
  exact hne (List.cons.inj (List.append_cancel_left hranks)).1

/-! ### The order of submission, up to the order of the decision -/

/-- Acceptance decides rejection. -/
theorem rejectedActions_perm (hperm : others.Perm actions)
    (haccepted : (admission policy others available).accepted.Perm
      (admission policy actions available).accepted) :
    (CrossStrategyArbitrator.decide policy others available).rejectedActions.Perm
      (CrossStrategyArbitrator.decide policy actions available).rejectedActions := by
  rw [rejectedActions_decide, rejectedActions_decide]
  apply List.Perm.map
  have hall := (admission_perm policy others available).trans
    (hperm.trans (admission_perm policy actions available).symm)
  have hmoved := (haccepted.symm.append_right _).trans hall
  exact (List.perm_append_left_iff _).mp hmoved

def needsCapital (row : CompetingAction) : Bool := !decide (row.requiredCapital = 0)

theorem needsCapital_iff : needsCapital action = true ↔ action.requiredCapital ≠ 0 := by
  simp only [needsCapital, Bool.not_eq_true', decide_eq_false_iff_not, ne_eq]

/-- The actions that need capital are decided among themselves, the other ones are accepted. -/
theorem accepted_perm (havailable : 0 ≤ available) :
    (admission policy actions available).accepted.Perm
      ((admitWithin (·.requiredCapital) available
          ((rank policy actions).filter needsCapital)).accepted ++
        (rank policy actions).filter (!needsCapital ·)) := by
  have hfree : ∀ row ∈ rank policy actions, needsCapital row = false → row.requiredCapital = 0 := by
    intro row _ hrow
    by_contra hne
    rw [needsCapital_iff.mpr hne] at hrow
    cases hrow
  obtain ⟨hcostly, hothers⟩ := accepted_filter havailable hfree
  rw [← hcostly, ← hothers]
  exact (List.filter_append_perm needsCapital _).symm

/-- Actions that share a key only with ones that need no capital are decided as one set. -/
theorem sameActions_of_freelyTied (hcapital : ∀ row ∈ actions, 0 ≤ row.requiredCapital)
    (htied : FreelyTied policy actions) : SameActions policy actions := by
  intro others hperm available
  have haccepted : (admission policy others available).accepted.Perm
      (admission policy actions available).accepted := by
    by_cases havailable : 0 ≤ available
    · have huntied : ∀ a ∈ actions.filter needsCapital, ∀ b ∈ actions.filter needsCapital,
          rankKey policy a = rankKey policy b → a = b := by
        intro a ha b hb hkey
        obtain ⟨ha, hcostlyA⟩ := List.mem_filter.mp ha
        obtain ⟨hb, hcostlyB⟩ := List.mem_filter.mp hb
        by_contra hne
        rcases htied a ha b hb hkey hne with hzero | hzero
        · exact needsCapital_iff.mp hcostlyA hzero
        · exact needsCapital_iff.mp hcostlyB hzero
      have hrank : (rank policy actions).filter needsCapital =
          (rank policy others).filter needsCapital := by
        rw [rank, rank, filter_sortBy, filter_sortBy]
        exact sortBy_eq_of_perm huntied (hperm.symm.filter needsCapital)
      have hranks : (rank policy others).Perm (rank policy actions) :=
        rank_perm.trans (hperm.trans rank_perm.symm)
      apply (accepted_perm havailable).trans
      apply List.Perm.trans ?_ (accepted_perm havailable).symm
      rw [hrank]
      exact (hranks.filter _).append_left _
    · have hnone : ∀ rows : List CompetingAction, rows.Perm actions →
          (admission policy rows available).accepted = [] := by
        intro rows hrows
        apply accepted_eq_nil (not_le.mp havailable)
        exact fun row hrow => hcapital row ((rank_perm.trans hrows).mem_iff.mp hrow)
      rw [hnone others hperm, hnone actions (.refl _)]
  rw [acceptedActions_decide, acceptedActions_decide]
  exact ⟨haccepted, rejectedActions_perm hperm haccepted⟩

/-- Of two tied actions with a cost, the larger one fits alone, and only when submitted first. -/
theorem not_sameActions_of_tied {a b : CompetingAction} (hnodup : actions.Nodup)
    (hcapital : ∀ row ∈ actions, 0 ≤ row.requiredCapital) (ha : a ∈ actions) (hb : b ∈ actions)
    (hne : a ≠ b) (hkey : rankKey policy a = rankKey policy b) (hpos : 0 < a.requiredCapital)
    (hle : a.requiredCapital ≤ b.requiredCapital) : ¬ SameActions policy actions := by
  intro hsame
  obtain ⟨rest, hab, hba⟩ := perm_cons_cons ha hb hne
  obtain ⟨before, after, hfirst, hsecond, hbefore⟩ := rank_tied rest hkey
  have hcost : ∀ row ∈ before, 0 ≤ row.requiredCapital := fun row hrow =>
    hcapital row (hab.mem_iff.mp
      (List.mem_cons_of_mem _ (List.mem_cons_of_mem _ (hbefore row hrow))))
  obtain ⟨hrejected, haccepted⟩ := swap_decides after hpos hle hcost
  rw [← hfirst] at hrejected
  rw [← hsecond] at haccepted
  generalize (before.map fun row => row.requiredCapital).sum + b.requiredCapital = budget
    at hrejected haccepted
  have hmoved := (hsame _ hba budget).1.trans (hsame _ hab budget).1.symm
  rw [acceptedActions_decide, acceptedActions_decide] at hmoved
  have hall := ((admission_perm policy (a :: b :: rest) budget).trans hab).nodup_iff.mpr hnodup
  exact List.disjoint_of_nodup_append hall (hmoved.mem_iff.mp haccepted) hrejected

theorem freelyTied_of_sameActions (hnodup : actions.Nodup)
    (hcapital : ∀ row ∈ actions, 0 ≤ row.requiredCapital) (hsame : SameActions policy actions) :
    FreelyTied policy actions := by
  intro a ha b hb hkey hne
  by_contra hcosts
  obtain ⟨hcostA, hcostB⟩ := not_or.mp hcosts
  have hposA : 0 < a.requiredCapital := (hcapital a ha).lt_of_ne' hcostA
  have hposB : 0 < b.requiredCapital := (hcapital b hb).lt_of_ne' hcostB
  rcases le_total a.requiredCapital b.requiredCapital with hle | hle
  · exact not_sameActions_of_tied hnodup hcapital ha hb hne hkey hposA hle hsame
  · exact not_sameActions_of_tied hnodup hcapital hb ha hne.symm hkey.symm hposB hle hsame

/-- The policies whose keys do not end in the submitted sequence. -/
def withoutSequence : List ArbitrationPolicy := [.riskFirst, .capitalEfficiency, .compositeScore]

theorem getLast?_rankKey (hpolicy : policy ∉ withoutSequence) (row : CompetingAction) :
    (rankKey policy row).getLast? = some (row.submittedSequence : ℚ) := by
  cases policy with
  | riskFirst => exact absurd (by decide) hpolicy
  | capitalEfficiency => exact absurd (by decide) hpolicy
  | compositeScore => exact absurd (by decide) hpolicy
  | fixedPriority => rfl
  | highestRobustnessScore => rfl
  | highestExpectedValue => rfl
  | lowestMarginalRisk => rfl
  | strategyAgePriority => rfl
  | fifo => rfl

theorem untied_of_sequence (hsequences : (actions.map (·.submittedSequence)).Nodup)
    (hpolicy : policy ∉ withoutSequence) : Untied policy actions := by
  intro a ha b hb hkey
  have hlast : some (a.submittedSequence : ℚ) = some (b.submittedSequence : ℚ) := by
    rw [← getLast?_rankKey hpolicy, ← getLast?_rankKey hpolicy, hkey]
  have hsequence : a.submittedSequence = b.submittedSequence :=
    Int.cast_injective (Option.some.inj hlast)
  exact List.inj_on_of_nodup_map hsequences ha hb hsequence

/-- The decision does not depend on the order of submission if and only if no two actions share a
key. As sets, the accepted and the rejected actions do not if and only if of two such actions one
needs no capital. Six of the nine policies always have distinct keys. -/
theorem orderFree_iff (policy : ArbitrationPolicy) (actions : List CompetingAction)
    (hsequences : (actions.map (·.submittedSequence)).Nodup) :
    (SameDecision policy actions ↔ Untied policy actions) ∧
      ((∀ row ∈ actions, 0 ≤ row.requiredCapital) →
        (SameActions policy actions ↔ FreelyTied policy actions)) ∧
      (policy ∉ withoutSequence → SameDecision policy actions) := by
  have hnodup : actions.Nodup := List.Nodup.of_map _ hsequences
  refine ⟨⟨untied_of_sameDecision, sameDecision_of_untied⟩, fun hcapital => ⟨?_, ?_⟩, ?_⟩
  · exact freelyTied_of_sameActions hnodup hcapital
  · exact sameActions_of_freelyTied hcapital
  · exact fun hpolicy => sameDecision_of_untied (untied_of_sequence hsequences hpolicy)

/-- Two actions of 60 each that no policy but one with the submitted sequence in its key ranks. -/
def tiedActions : List CompetingAction := [plainAction "a-1" 1 60, plainAction "a-2" 2 60]

theorem orderFree_iff_tiedActions :
    (SameDecision .riskFirst tiedActions ↔ Untied .riskFirst tiedActions) ∧
      ((∀ row ∈ tiedActions, 0 ≤ row.requiredCapital) →
        (SameActions .riskFirst tiedActions ↔ FreelyTied .riskFirst tiedActions)) ∧
      (ArbitrationPolicy.riskFirst ∉ withoutSequence → SameDecision .riskFirst tiedActions) :=
  orderFree_iff .riskFirst tiedActions (by decide)

/-- With a capital of 60, the first of the two in the tuple is accepted. -/
theorem not_sameDecision :
    ¬ SameDecision .riskFirst tiedActions ∧ ¬ SameActions .riskFirst tiedActions := by
  have hfirst : plainAction "a-1" 1 60 ∈ tiedActions := List.mem_cons_self
  have hsecond : plainAction "a-2" 2 60 ∈ tiedActions :=
    List.mem_cons_of_mem _ List.mem_cons_self
  have hne : plainAction "a-1" 1 60 ≠ plainAction "a-2" 2 60 := by
    intro heq
    exact absurd (congrArg CompetingAction.submittedSequence heq) (by decide)
  constructor
  · intro hsame
    exact hne (untied_of_sameDecision hsame _ hfirst _ hsecond rfl)
  · intro hsame
    have hcapital : ∀ row ∈ tiedActions, (0 : ℚ) ≤ row.requiredCapital := by
      intro row hrow
      rcases List.mem_pair.mp hrow with rfl | rfl
      · norm_num [plainAction]
      · norm_num [plainAction]
    have hnodup : tiedActions.Nodup := nodup_of_ids (by decide)
    rcases freelyTied_of_sameActions hnodup hcapital hsame _ hfirst _ hsecond rfl hne
      with hzero | hzero
    · norm_num [plainAction] at hzero
    · norm_num [plainAction] at hzero

end CrossStrategyArbitrator
end OptionResearch
