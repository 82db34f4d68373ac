import OptionResearch.LiquidationEngine
import Mathlib.Tactic.LinearCombination
import Mathlib.Tactic.Ring

/-!
# What a liquidation plan resolves

With exact figures the steps of a plan are the draws of the candidates that may be closed, in the
order of the ranking, from the deficit. The plan solves what the candidates can relieve together.
The cash of a step counts the fraction twice, and the size that is to remain is checked before the
fraction is known, so that a step has its share of cash and leaves the size only in some plans.
-/

namespace OptionResearch
namespace LiquidationEngine

open RationedDraws

variable {request : LiquidationRequest} {progress : Progress} {step : LiquidationStep}
  {steps : List LiquidationStep} {candidate : LiquidationCandidate}
  {draw : Draw LiquidationCandidate ℚ}

/-! ### One candidate -/

/-- A candidate that no rule passes over. -/
def mayClose (request : LiquidationRequest) (candidate : LiquidationCandidate) : Bool :=
  (skipWarning request candidate).isNone

/-- A step against the draw that it makes from the deficit. -/
structure StepOf (step : LiquidationStep) (draw : Draw LiquidationCandidate ℚ) : Prop where
  amount_pos : 0 < draw.amount
  amount_le : draw.amount ≤ draw.item.marginRelief
  positionId : step.positionId = draw.item.position.positionId
  fraction : step.quantityFraction = draw.amount / draw.item.marginRelief
  relief : step.expectedMarginRelief = draw.amount
  loss : step.expectedRealizedLoss = draw.item.expectedValueLoss * step.quantityFraction
  cash : step.expectedCashImpact =
    (draw.item.position.marketValue - step.expectedRealizedLoss) * step.quantityFraction

theorem StepOf.relief_pos (h : StepOf step draw) : 0 < draw.item.marginRelief :=
  h.amount_pos.trans_le h.amount_le

/-- A candidate that is passed over, or frees nothing, leaves the deficit and the steps. -/
theorem visit_of_idle (progress : Progress) (index : Nat)
    (h : mayClose request candidate = false ∨ candidate.marginRelief ≤ 0) :
    (visit id request progress (candidate, index)).remaining = progress.remaining ∧
      (visit id request progress (candidate, index)).steps = progress.steps := by
  rw [visit]
  cases hskip : skipWarning request candidate with
  | some warning => exact ⟨rfl, rfl⟩
  | none =>
    have hrelief : candidate.marginRelief ≤ 0 := by
      refine h.resolve_left ?_
      rw [mayClose, hskip]
      decide
    dsimp only
    rw [if_pos (max_le le_rfl hrelief)]
    exact ⟨rfl, rfl⟩

/-- A candidate that is closed draws what it can from the deficit. -/
theorem visit_of_closed (index : Nat) (hmay : mayClose request candidate = true)
    (hrelief : 0 < candidate.marginRelief) (hremaining : 0 < progress.remaining) :
    ∃ step, (visit id request progress (candidate, index)).steps = progress.steps ++ [step] ∧
      StepOf step ⟨candidate, min candidate.marginRelief progress.remaining⟩ ∧
      step.remainingDeficit =
        progress.remaining - min candidate.marginRelief progress.remaining ∧
      (visit id request progress (candidate, index)).remaining = step.remainingDeficit := by
  have hskip : skipWarning request candidate = none := by
    rwa [mayClose, Option.isNone_iff_eq_none] at hmay
  have hdrawn : candidate.marginRelief * min 1 (progress.remaining / candidate.marginRelief) =
      min candidate.marginRelief progress.remaining := by
    rw [mul_min_of_nonneg _ _ hrelief.le, mul_one, mul_div_cancel₀ _ hrelief.ne']
  have hleft : max 0 (progress.remaining - min candidate.marginRelief progress.remaining) =
      progress.remaining - min candidate.marginRelief progress.remaining :=
    max_eq_right (sub_nonneg.mpr (min_le_right _ _))
  rw [visit]
  dsimp only
  rw [hskip]
  dsimp only
  rw [max_eq_right hrelief.le, if_neg (not_le.mpr hrelief), hdrawn, hleft]
  refine ⟨_, rfl, ?_, rfl, rfl⟩
  constructor
  · exact lt_min hrelief hremaining
  · exact min_le_left _ _
  · rfl
  · change min 1 _ = _ / candidate.marginRelief
    rw [← hdrawn, mul_div_cancel_left₀ _ hrelief.ne']
  · rfl
  · rfl
  · rfl

/-! ### The loop -/

/-- The steps of the loop against the draws from what remained at its start. -/
theorem visitAll_spec (request : LiquidationRequest) (progress : Progress)
    (entries : List (LiquidationCandidate × Nat)) (hremaining : 0 ≤ progress.remaining) :
    ∃ steps, (visitAll id request progress entries).steps = progress.steps ++ steps ∧
      List.Forall₂ StepOf steps (draws (·.marginRelief) progress.remaining
        ((entries.map Prod.fst).filter (mayClose request))) ∧
      steps.map (·.remainingDeficit) =
        remainders progress.remaining (steps.map (·.expectedMarginRelief)) ∧
      (visitAll id request progress entries).remaining =
        progress.remaining - (steps.map (·.expectedMarginRelief)).sum := by
  induction entries generalizing progress with
  | nil => exact ⟨[], (List.append_nil _).symm, .nil, rfl, (sub_zero _).symm⟩
  | cons entry rest ih =>
    obtain ⟨candidate, index⟩ := entry
    rcases hremaining.eq_or_lt with hzero | hpos
    · rw [visitAll, if_pos hzero.ge]
      refine ⟨[], (List.append_nil _).symm, ?_, rfl, (sub_zero _).symm⟩
      rw [draws_of_nonpos hzero.ge]
      exact .nil
    · rw [visitAll, if_neg (not_le.mpr hpos), List.map_cons]
      by_cases hidle : mayClose request candidate = false ∨ candidate.marginRelief ≤ 0
      · obtain ⟨hsame, hsteps⟩ := visit_of_idle progress index hidle
        obtain ⟨steps, hrun, hof, hchain, hleft⟩ :=
          ih (visit id request progress (candidate, index)) (by rwa [hsame])
        rw [hsame] at hof hchain hleft
        rw [hsteps] at hrun
        refine ⟨steps, hrun, ?_, hchain, hleft⟩
        rw [List.filter_cons]
        split_ifs with hmay
        · have hrelief : candidate.marginRelief ≤ 0 :=
            hidle.resolve_left (by rw [hmay]; decide)
          rwa [draws_cons_of_unwanted hrelief]
        · exact hof
      · rw [not_or, Bool.not_eq_false, not_le] at hidle
        obtain ⟨step, hstep, hof, hdeficit, hleft⟩ :=
          visit_of_closed index hidle.1 hidle.2 hpos
        have hnonneg : 0 ≤ progress.remaining - min candidate.marginRelief progress.remaining :=
          sub_nonneg.mpr (min_le_right _ _)
        obtain ⟨steps, hrun, hofs, hchain, hlast⟩ :=
          ih (visit id request progress (candidate, index)) (by rwa [hleft, hdeficit])
        rw [hleft, hdeficit] at hofs hchain hlast
        rw [hstep, List.append_assoc] at hrun
        refine ⟨step :: steps, hrun, ?_, ?_, ?_⟩
        · rw [List.filter_cons_of_pos hidle.1, draws_cons_of_pos hidle.2 hpos]
          exact .cons hof hofs
        · rw [List.map_cons, List.map_cons, remainders, hof.relief, hchain, hdeficit]
        · rw [hlast, List.map_cons, List.sum_cons, hof.relief, sub_sub]

/-! ### The plan -/

/-- The candidates that may be closed and free margin, in the order of the ranking. -/
def closable (request : LiquidationRequest) : List LiquidationCandidate :=
  ((rank request.policy request.candidates request.compositeWeights).filter
    (mayClose request)).filter fun candidate => 0 < candidate.marginRelief

theorem rank_perm (policy : LiquidationPriority) (candidates : List LiquidationCandidate)
    (compositeWeights : List (String × ℚ)) :
    (rank policy candidates compositeWeights).Perm candidates := by
  cases policy <;> exact StableSort.sortBy_perm

theorem StepOf.reliefs {taken : List (Draw LiquidationCandidate ℚ)}
    (h : List.Forall₂ StepOf steps taken) :
    steps.map (·.expectedMarginRelief) = taken.map (·.amount) := by
  induction h with
  | nil => rfl
  | cons hof _ ih => rw [List.map_cons, List.map_cons, hof.relief, ih]

/-- A plan is a run of draws from the deficit. -/
theorem plan_spec (request : LiquidationRequest) :
    List.Forall₂ StepOf (plan id request).steps
        (draws (·.marginRelief) (max 0 request.deficit) (closable request)) ∧
      (plan id request).steps.map (·.remainingDeficit) =
        remainders (max 0 request.deficit)
          ((plan id request).steps.map (·.expectedMarginRelief)) ∧
      ((plan id request).steps.map (·.expectedMarginRelief)).sum =
        min (max 0 request.deficit) (wanted (·.marginRelief)
          (request.candidates.filter (mayClose request))) ∧
      ((plan id request).solved = true ↔ max 0 request.deficit ≤
        wanted (·.marginRelief) (request.candidates.filter (mayClose request))) := by
  have hnonneg : 0 ≤ max 0 request.deficit := le_max_left _ _
  obtain ⟨steps, hrun, hof, hchain, hleft⟩ := visitAll_spec request
    ⟨max 0 request.deficit, [], []⟩
    ((rank request.policy request.candidates request.compositeWeights).zipIdx 1) hnonneg
  rw [List.nil_append] at hrun
  rw [List.zipIdx_map_fst] at hof
  have hsteps : (plan id request).steps = steps := hrun
  have hsolved : (plan id request).solved = true ↔
      max 0 request.deficit - (steps.map (·.expectedMarginRelief)).sum ≤ 0 := by
    rw [← hleft]
    exact decide_eq_true_iff
  have hsum : (steps.map (·.expectedMarginRelief)).sum =
      min (max 0 request.deficit) (wanted (·.marginRelief)
        (request.candidates.filter (mayClose request))) := by
    rw [StepOf.reliefs hof]
    exact (drawn_eq hnonneg).trans (congrArg _ (wanted_perm ((rank_perm ..).filter _)))
  have hclosable : draws (·.marginRelief) (max 0 request.deficit) (closable request) =
      draws (·.marginRelief) (max 0 request.deficit)
        ((rank request.policy request.candidates request.compositeWeights).filter
          (mayClose request)) := draws_filter_pos _ _ _
  rw [hsteps, hclosable]
  refine ⟨hof, hchain, hsum, hsolved.trans ?_⟩
  rw [hsum, sub_nonpos, le_min_iff, and_iff_right le_rfl]

/-- A step closes a fraction of a candidate's position. -/
structure Closes (step : LiquidationStep) (candidate : LiquidationCandidate) : Prop where
  positionId : step.positionId = candidate.position.positionId
  fraction_pos : 0 < step.quantityFraction
  fraction_le : step.quantityFraction ≤ 1
  relief : step.expectedMarginRelief = step.quantityFraction * candidate.marginRelief

theorem StepOf.closes (h : StepOf step draw) : Closes step draw.item where
  positionId := h.positionId
  fraction_pos := by
    rw [h.fraction]
    exact div_pos h.amount_pos h.relief_pos
  fraction_le := by
    rw [h.fraction]
    exact div_le_one_of_le₀ h.amount_le h.relief_pos.le
  relief := by rw [h.fraction, h.relief, div_mul_cancel₀ _ h.relief_pos.ne']

/-- Those that draw are the first of the candidates that may be closed. -/
theorem items_of_plan (request : LiquidationRequest) :
    (draws (·.marginRelief) (max 0 request.deficit) (closable request)).map (·.item) =
      (closable request).take (plan id request).steps.length := by
  have hpositive : (closable request).filter (fun item => 0 < item.marginRelief) =
      closable request := by
    rw [List.filter_eq_self]
    exact fun item hitem => (List.mem_filter.mp hitem).2
  rw [items_of_draws, hpositive, ← (plan_spec request).1.length_eq]

theorem forall₂_split {α β : Type} {R : α → β → Prop} {before after : List α} {x : α} {ys : List β}
    (h : List.Forall₂ R (before ++ x :: after) ys) :
    ∃ before' y after', ys = before' ++ y :: after' ∧ R x y ∧ List.Forall₂ R after after' := by
  induction before generalizing ys with
  | nil =>
    obtain ⟨y, after', hx, hafter, rfl⟩ := List.forall₂_cons_left_iff.mp h
    exact ⟨[], y, after', rfl, hx, hafter⟩
  | cons first rest ih =>
    obtain ⟨z, zs, -, hrest, rfl⟩ := List.forall₂_cons_left_iff.mp h
    obtain ⟨before', y, after', rfl, hx, hafter⟩ := ih hrest
    exact ⟨z :: before', y, after', rfl, hx, hafter⟩

/-- A plan resolves what the candidates can resolve, whatever their ranking. -/
theorem plan_resolves (request : LiquidationRequest) (hdeficit : 0 ≤ request.deficit)
    (buyingPower excessLiquidity stockExposure : ℚ) :
    List.Forall₂ Closes (plan id request).steps
        ((closable request).take (plan id request).steps.length) ∧
      (∀ before step after, (plan id request).steps = before ++ step :: after →
        step.remainingDeficit =
            request.deficit - ((before ++ [step]).map (·.expectedMarginRelief)).sum ∧
          (after ≠ [] → step.quantityFraction = 1)) ∧
      (request.deficit :: (plan id request).steps.map (·.remainingDeficit)).Pairwise (· > ·) ∧
      ((plan id request).solved = true ↔ request.deficit ≤
        ((request.candidates.filter (mayClose request)).map fun item =>
          max 0 item.marginRelief).sum) ∧
      ((simulate id (plan id request) buyingPower excessLiquidity
        stockExposure).residualMarginDeficit = 0 ↔ (plan id request).solved = true) := by
  obtain ⟨hof, hchain, hsum, hsolved⟩ := plan_spec request
  rw [max_eq_right hdeficit] at hof hchain hsum hsolved
  have hcloses : List.Forall₂ Closes (plan id request).steps
      ((closable request).take (plan id request).steps.length) := by
    rw [← items_of_plan, List.forall₂_map_right_iff]
    exact (plan_spec request).1.imp fun _ _ => StepOf.closes
  refine ⟨hcloses, fun before step after hsplit => ⟨?_, ?_⟩, ?_, hsolved, ?_⟩
  · rw [hsplit, List.map_append, List.map_append, List.map_cons, List.map_cons,
      remainders_append, remainders] at hchain
    have hlength : (before.map (·.remainingDeficit)).length =
        (remainders request.deficit (before.map (·.expectedMarginRelief))).length := by
      rw [length_remainders, List.length_map, List.length_map]
    have hstep := (List.cons.inj (List.append_inj_right hchain hlength)).1
    rw [hstep, List.map_append, List.sum_append, List.map_singleton, List.sum_singleton, sub_sub]
  · intro hafter
    obtain ⟨next, later, rfl⟩ := List.exists_cons_of_ne_nil hafter
    rw [hsplit] at hof
    obtain ⟨earlier, draw, rest, hdraws, hstep, hrest⟩ := forall₂_split hof
    obtain ⟨nextDraw, laterDraws, -, -, rfl⟩ := List.forall₂_cons_left_iff.mp hrest
    rw [hstep.fraction, amount_eq_of_later hdraws, div_self hstep.relief_pos.ne']
  · rw [hchain]
    apply remainders_decreasing
    rw [StepOf.reliefs hof, List.forall_mem_map]
    exact fun draw hdraw => (amount_bounds hdraw).1
  · rw [hsolved]
    change max 0 (request.deficit - ((plan id request).steps.map (·.expectedMarginRelief)).sum) = 0
      ↔ _
    rw [max_eq_left_iff, hsum, sub_nonpos, le_min_iff, and_iff_right le_rfl]

/-- Two positions that free a margin of two each, against a deficit. -/
def twoPositions (deficit : ℚ) : LiquidationRequest where
  planId := "plan"
  policy := .largestMarginRelief
  deficit := deficit
  candidates := ["p1", "p2"].map fun positionId => {
    position := {
      positionId := positionId
      strategyId := "s"
      strategyFamily := "naked_short"
      legs := [{ quantity := 4, side := "short", optionType := none, strike := none }]
      marketValue := 10
      netPremium := 0
      definedRisk := false }
    marginRelief := 2
    expectedValueLoss := 4
    robustnessScore := 0
    riskContribution := 0
    liquidityScore := 0 }
  timestamp := ⟨0, some 0⟩

/-- A deficit of three is resolved by two positions that free two each. -/
theorem plan_resolves_twoPositions : (plan id (twoPositions 3)).solved = true ∧
    (simulate id (plan id (twoPositions 3)) 0 0 0).residualMarginDeficit = 0 := by
  obtain ⟨-, -, -, hsolved, hresidual⟩ := plan_resolves (twoPositions 3) (by decide) 0 0 0
  have hplan := hsolved.mpr (by decide +kernel)
  exact ⟨hplan, hresidual.mpr hplan⟩

/-! ### The share of a step -/

/-- A step has its share of the cash, and leaves the size that is to remain. -/
def Proportional (request : LiquidationRequest) (step : LiquidationStep)
    (candidate : LiquidationCandidate) : Prop :=
  step.expectedCashImpact = step.quantityFraction *
      (candidate.position.marketValue - candidate.expectedValueLoss) ∧
    (0 < request.minimumRemainingPositionSize →
      (request.minimumRemainingPositionSize : ℚ) ≤
        (1 - step.quantityFraction) * largestLeg candidate.position)

/-- The size that is to remain is left by a draw. -/
def Leaves (request : LiquidationRequest) (draw : Draw LiquidationCandidate ℚ) : Prop :=
  0 < request.minimumRemainingPositionSize → (request.minimumRemainingPositionSize : ℚ) ≤
    (1 - draw.amount / draw.item.marginRelief) * largestLeg draw.item.position

theorem StepOf.share_iff (h : StepOf step draw) :
    Proportional request step draw.item ↔
      (draw.amount = draw.item.marginRelief ∨ draw.item.expectedValueLoss = 0) ∧
        Leaves request draw := by
  have hpositive : draw.amount / draw.item.marginRelief ≠ 0 :=
    (div_pos h.amount_pos h.relief_pos).ne'
  have hfull : draw.amount = draw.item.marginRelief ↔
      draw.amount / draw.item.marginRelief = 1 := (div_eq_one_iff_eq h.relief_pos.ne').symm
  rw [Proportional, Leaves, h.cash, h.loss, h.fraction, hfull]
  refine and_congr_left fun _ => ?_
  generalize draw.amount / draw.item.marginRelief = fraction at hpositive ⊢
  constructor
  · intro hcash
    have hprod : draw.item.expectedValueLoss * (fraction - 1) = 0 := by
      apply mul_left_cancel₀ hpositive
      linear_combination -hcash
    rcases mul_eq_zero.mp hprod with hloss | hone
    · exact .inr hloss
    · exact .inl (sub_eq_zero.mp hone)
  · rintro (rfl | hloss)
    · ring
    · rw [hloss]
      ring

theorem forall₂_iff_forall {α β : Type} {R P : α → β → Prop} {Q : β → Prop} {xs : List α}
    {ys : List β} (h : List.Forall₂ R xs ys) (hP : ∀ x y, R x y → (P x y ↔ Q y)) :
    List.Forall₂ P xs ys ↔ ∀ y ∈ ys, Q y := by
  induction h with
  | nil => simp
  | cons hxy _ ih => rw [List.forall₂_cons, List.forall_mem_cons, hP _ _ hxy, ih]

/-- The steps of a plan have their share where its draws do. -/
theorem proportional_iff_draws (request : LiquidationRequest) :
    List.Forall₂ (Proportional request) (plan id request).steps
        ((closable request).take (plan id request).steps.length) ↔
      ∀ draw ∈ draws (·.marginRelief) (max 0 request.deficit) (closable request),
        (draw.amount = draw.item.marginRelief ∨ draw.item.expectedValueLoss = 0) ∧
          Leaves request draw := by
  rw [← items_of_plan, List.forall₂_map_right_iff]
  exact forall₂_iff_forall (plan_spec request).1 fun _ _ h => h.share_iff

/-- Without a size that is to remain, the steps of a plan have their share of the cash if the
candidate that is closed in part loses nothing. With one, no candidate may be closed whole. -/
theorem proportional_iff (request : LiquidationRequest) :
    List.Forall₂ (Proportional request) (plan id request).steps
        ((closable request).take (plan id request).steps.length) ↔
      if 0 < request.minimumRemainingPositionSize then
        request.deficit ≤ 0 ∨ ∀ first rest, closable request = first :: rest →
          request.deficit < first.marginRelief ∧ first.expectedValueLoss = 0 ∧
            (request.minimumRemainingPositionSize : ℚ) ≤
              (1 - request.deficit / first.marginRelief) * largestLeg first.position
      else ∀ before candidate after, closable request = before ++ candidate :: after →
        wanted (·.marginRelief) before < request.deficit →
        request.deficit < wanted (·.marginRelief) before + candidate.marginRelief →
          candidate.expectedValueLoss = 0 := by
  rw [proportional_iff_draws]
  have hpositive : ∀ item ∈ closable request, 0 < item.marginRelief :=
    fun item hitem => of_decide_eq_true (List.mem_filter.mp hitem).2
  split_ifs with hsize
  · rcases le_or_gt request.deficit 0 with hnone | hdeficit
    · rw [max_eq_left hnone, draws_of_nonpos le_rfl]
      exact iff_of_true (fun _ h => absurd h List.not_mem_nil) (.inl hnone)
    · rw [max_eq_right hdeficit.le, or_iff_right (not_le.mpr hdeficit)]
      cases hclosable : closable request with
      | nil => exact iff_of_true (fun _ h => absurd h List.not_mem_nil) fun _ _ h => nomatch h
      | cons first rest =>
        have hfirst : 0 < first.marginRelief :=
          hpositive first (hclosable ▸ List.mem_cons_self)
        rw [draws_cons_of_pos hfirst hdeficit]
        constructor
        · rintro h _ _ hcons
          obtain ⟨rfl, rfl⟩ := List.cons.inj hcons
          obtain ⟨hshare, hleaves⟩ := h _ List.mem_cons_self
          have hleft := hleaves hsize
          rcases le_or_gt first.marginRelief request.deficit with hwhole | hpart
          · rw [min_eq_left hwhole, div_self hfirst.ne', sub_self, zero_mul] at hleft
            have hcast : (0 : ℚ) < request.minimumRemainingPositionSize := by exact_mod_cast hsize
            exact absurd hleft (not_le.mpr hcast)
          · rw [min_eq_right hpart.le] at hshare hleft
            exact ⟨hpart, hshare.resolve_left hpart.ne, hleft⟩
        · intro h
          obtain ⟨hpart, hloss, hleft⟩ := h _ _ rfl
          rw [min_eq_right hpart.le, sub_self, draws_of_nonpos le_rfl, List.forall_mem_singleton]
          exact ⟨.inr hloss, fun _ => hleft⟩
  · have hleaves : ∀ draw, Leaves request draw := fun draw h => absurd h hsize
    simp only [hleaves, and_true]
    have hshort := forall_short_iff (·.marginRelief) (closable request)
      (P := fun item => item.expectedValueLoss = 0) (le_max_left 0 request.deficit)
    refine hshort.trans (forall₃_congr fun before candidate after => forall_congr' fun _ => ?_)
    have hwanted : wanted (·.marginRelief) before < max 0 request.deficit ↔
        wanted (·.marginRelief) before < request.deficit := by
      rw [lt_max_iff, or_iff_right (not_lt.mpr wanted_nonneg)]
    rw [hwanted]
    refine forall_congr' fun hlt => ?_
    rw [max_eq_right (wanted_nonneg.trans hlt.le)]

/-- Half of a position worth ten that loses four brings in four, not three. -/
theorem cash_out_of_proportion : ¬ ∀ request : LiquidationRequest,
    List.Forall₂ (Proportional request) (plan id request).steps
      ((closable request).take (plan id request).steps.length) := by
  intro h
  have hshares := h (twoPositions 1)
  have hcash : (plan id (twoPositions 1)).steps.map (fun step =>
      (step.quantityFraction, step.expectedCashImpact)) = [(1 / 2, 4)] := by decide +kernel
  have hvalues : (closable (twoPositions 1)).map (fun candidate =>
      (candidate.position.marketValue, candidate.expectedValueLoss)) = [(10, 4), (10, 4)] := by
    decide +kernel
  obtain ⟨step, hsteps, hstep⟩ := List.map_eq_singleton_iff.mp hcash
  obtain ⟨candidate, rest, hclosable, hcandidate, -⟩ := List.map_eq_cons_iff.mp hvalues
  obtain ⟨hfraction, hstep⟩ := Prod.mk.inj hstep
  obtain ⟨hvalue, hloss⟩ := Prod.mk.inj hcandidate
  rw [hsteps, hclosable] at hshares
  have hshare := (List.forall₂_cons.mp hshares).1.1
  rw [hfraction, hstep, hvalue, hloss] at hshare
  norm_num at hshare

end LiquidationEngine
end OptionResearch
