import Mathlib.Analysis.SpecialFunctions.Log.Basic
import Mathlib.Analysis.SpecialFunctions.Pow.Real
import OptionResearch.PartitionedSums
import OptionResearch.RobustnessConfidence

/-!
# Overfitting evidence

More complexity and a higher probability of overfitting raise the confidence score of
`RobustnessEngine`: they are averaged into it with the sign of a merit.
-/

namespace OptionResearch.RobustnessEngine

open Filter Topology

/-- The `math` module on the reals. -/
noncomputable def realRobustness : RobustnessMath ℝ where
  sqrt := Real.sqrt
  log := Real.log

/-- Both figures are given, and the second is larger. -/
def Raised (before after : Option ℝ) : Prop := ∃ x ∈ before, ∃ y ∈ after, x < y

noncomputable def confidence (inputs : RobustnessInputs ℝ) : Option ℝ :=
  (evaluate realRobustness inputs).metric "confidence_score"

/-- Neither more complexity nor Sharpe ratios of one mean and more overfitting raise the
confidence. -/
structure NeverRaises (inputs : RobustnessInputs ℝ) : Prop where
  complexity : ∀ complexity ∈ inputs.complexity, ∀ larger, complexity < larger →
    ¬ Raised (confidence inputs) (confidence { inputs with complexity := some larger })
  sharpes : ∀ sharpes, mean sharpes = mean inputs.cpcvSharpes →
    Raised (pbo inputs.cpcvSharpes) (pbo sharpes) →
      ¬ Raised (confidence inputs) (confidence { inputs with cpcvSharpes := sharpes })

variable {inputs : RobustnessInputs ℝ} {sharpes : List ℝ}

/-- As many metrics with a larger sum have a larger mean. -/
theorem raised_confidence {other : RobustnessInputs ℝ}
    (hlength : (present realRobustness inputs).length = (present realRobustness other).length)
    (hlt : (present realRobustness inputs).sum < (present realRobustness other).sum) :
    Raised (confidence inputs) (confidence other) := by
  have hne : present realRobustness inputs ≠ [] := by
    intro hnil
    have hnil' := List.length_eq_zero_iff.mp (hlength.symm.trans (by rw [hnil]; rfl))
    rw [hnil, hnil'] at hlt
    exact lt_irrefl _ hlt
  have hne' : present realRobustness other ≠ [] := by
    intro hnil
    rw [hnil] at hlength
    exact hne (List.length_eq_zero_iff.mp hlength)
  refine ⟨_, (metric_confidence realRobustness inputs).trans (if_neg hne), _,
    (metric_confidence realRobustness other).trans (if_neg hne'), ?_⟩
  rw [mean, mean, if_neg hne, if_neg hne', ← hlength]
  exact div_lt_div_of_pos_right hlt (Nat.cast_pos.mpr (List.length_pos_iff.mpr hne))

theorem overfittingScore_complexity (before : Option ℝ) (complexity : ℝ) :
    overfittingScore before (some complexity) =
      some (before.elim complexity fun p => (p + complexity) / 2) := by
  cases before with
  | none => simp [overfittingScore, mean]
  | some p => simp [overfittingScore, mean]

theorem overfittingScore_pbo (p : ℝ) (complexity : Option ℝ) :
    overfittingScore (some p) complexity = some (complexity.elim p fun c => (p + c) / 2) := by
  cases complexity with
  | none => simp [overfittingScore, mean]
  | some c => simp [overfittingScore, mean]

/-- More complexity raises the penalty and the overfitting score. -/
theorem raised_of_complexity {complexity larger : ℝ}
    (hcomplexity : inputs.complexity = some complexity) (hlt : complexity < larger) :
    Raised (confidence inputs) (confidence { inputs with complexity := some larger }) := by
  have hscore : (pbo inputs.cpcvSharpes).elim complexity (fun p => (p + complexity) / 2) <
      (pbo inputs.cpcvSharpes).elim larger (fun p => (p + larger) / 2) := by
    cases pbo inputs.cpcvSharpes with
    | none => exact hlt
    | some p => simp only [Option.elim_some]; linarith
  apply raised_confidence
  · simp only [present, length_filterMap, metrics, List.map_cons, hcomplexity,
      overfittingScore_complexity, Option.isSome_some]
  · simp only [present, sum_filterMap, metrics, List.map_cons, List.map_nil, List.sum_cons,
      List.sum_nil, hcomplexity, overfittingScore_complexity, Option.getD_some]
    linarith

theorem pbo_eq (hne : sharpes ≠ []) :
    pbo sharpes =
      some (((sharpes.countP fun score => score ≤ 0 : ℕ) : ℝ) / (sharpes.length : ℝ)) := by
  have hlength : (sharpes.length : ℝ) ≠ 0 :=
    Nat.cast_ne_zero.mpr (mt List.length_eq_zero_iff.mp hne)
  rw [pbo, if_neg hne, ratio, if_neg hlength]

/-- Sharpe ratios of the same mean raise the confidence where the probability of overfitting rises
by more than they are deflated. -/
theorem raised_of_sharpes (hne : inputs.cpcvSharpes ≠ []) (hne' : sharpes ≠ [])
    (hmean : mean sharpes = mean inputs.cpcvSharpes) {before after : ℝ}
    (hbefore : pbo inputs.cpcvSharpes = some before) (hafter : pbo sharpes = some after)
    (hlt : before + deflation realRobustness sharpes.length <
      after + deflation realRobustness inputs.cpcvSharpes.length) (hle : before ≤ after) :
    Raised (confidence inputs) (confidence { inputs with cpcvSharpes := sharpes }) := by
  have hscore : inputs.complexity.elim before (fun c => (before + c) / 2) ≤
      inputs.complexity.elim after (fun c => (after + c) / 2) := by
    cases inputs.complexity with
    | none => exact hle
    | some c => simp only [Option.elim_some]; linarith
  apply raised_confidence
  · simp only [present, length_filterMap, metrics, List.map_cons, summary, deflatedSharpe,
      if_neg hne, if_neg hne', hbefore, hafter, overfittingScore_pbo, Option.isSome_some]
  · simp only [present, sum_filterMap, metrics, List.map_cons, List.map_nil, List.sum_cons,
      List.sum_nil, summary, deflatedSharpe, if_neg hne, if_neg hne', hbefore, hafter,
      overfittingScore_pbo, Option.getD_some, hmean]
    linarith

theorem deflation_nonneg (trials : ℕ) : 0 ≤ deflation realRobustness trials :=
  div_nonneg (Real.sqrt_nonneg _) (Real.sqrt_nonneg _)

/-- With many trials there is little to deflate. -/
theorem tendsto_deflation : Tendsto (deflation realRobustness) atTop (𝓝 0) := by
  have hlog : Tendsto (fun x : ℝ => 2.0 * (Real.log x ^ 1 / (1 * x + 0))) atTop (𝓝 (2.0 * 0)) :=
    (Real.tendsto_pow_log_div_mul_add_atTop 1 0 1 one_ne_zero).const_mul 2.0
  have hsqrt := (hlog.comp tendsto_natCast_atTop_atTop).sqrt
  rw [mul_zero, Real.sqrt_zero] at hsqrt
  refine hsqrt.congr' ?_
  filter_upwards [eventually_ge_atTop 1] with trials htrials
  have hmax : ((max 1 trials : ℕ) : ℝ) = trials := by rw [max_eq_right htrials]
  have hpos : (0 : ℝ) ≤ trials := Nat.cast_nonneg _
  simp only [deflation, realRobustness, hmax, Function.comp_apply]
  rw [← Real.sqrt_div' _ hpos, pow_one, one_mul, add_zero, mul_div_assoc]

/-- One ratio has the whole sum. -/
noncomputable def concentrated (average : ℝ) (others : ℕ) : List ℝ :=
  (average * (others + 1 : ℕ)) :: List.replicate others 0

theorem concentrated_ne_nil (average : ℝ) (others : ℕ) : concentrated average others ≠ [] :=
  List.cons_ne_nil _ _

@[simp] theorem length_concentrated (average : ℝ) (others : ℕ) :
    (concentrated average others).length = others + 1 := by
  rw [concentrated, List.length_cons, List.length_replicate]

theorem mean_concentrated (average : ℝ) (others : ℕ) :
    mean (concentrated average others) = average := by
  have hsize : ((others + 1 : ℕ) : ℝ) ≠ 0 := Nat.cast_ne_zero.mpr (Nat.succ_ne_zero _)
  rw [mean, if_neg (concentrated_ne_nil _ _), length_concentrated, concentrated, List.sum_cons,
    List.sum_replicate, smul_zero, add_zero, mul_div_cancel_right₀ _ hsize]

theorem exists_pbo_concentrated (average : ℝ) (others : ℕ) :
    ∃ p, pbo (concentrated average others) = some p ∧ 1 - 1 / (others + 1 : ℕ) ≤ p := by
  refine ⟨_, pbo_eq (concentrated_ne_nil _ _), ?_⟩
  have hcount : others ≤ (concentrated average others).countP fun score => score ≤ 0 := by
    rw [concentrated, List.countP_cons, List.countP_replicate, if_pos (decide_eq_true le_rfl)]
    exact Nat.le_add_right _ _
  have hsize : (0 : ℝ) < (others + 1 : ℕ) := Nat.cast_pos.mpr (Nat.succ_pos _)
  rw [length_concentrated, le_div_iff₀ hsize, sub_mul, one_mul, one_div_mul_cancel hsize.ne']
  push_cast
  rw [add_sub_cancel_right]
  exact_mod_cast hcount

theorem pbo_lt_one {before : ℝ} (hbefore : pbo sharpes = some before)
    (hpositive : ∃ score ∈ sharpes, 0 < score) : before < 1 := by
  obtain ⟨score, hmem, hpos⟩ := hpositive
  have hne : sharpes ≠ [] := List.ne_nil_of_mem hmem
  rw [pbo_eq hne] at hbefore
  rw [← Option.some.inj hbefore, div_lt_one (Nat.cast_pos.mpr (List.length_pos_iff.mpr hne)),
    Nat.cast_lt]
  refine lt_of_le_of_ne List.countP_le_length fun hall => ?_
  have hle := List.countP_eq_length.mp hall score hmem
  exact hpos.not_ge (of_decide_eq_true hle)

theorem not_raised_pbo {replaced : List ℝ} (hall : ∀ score ∈ sharpes, score ≤ 0) :
    ¬ Raised (pbo sharpes) (pbo replaced) := by
  rintro ⟨before, hbefore, after, hafter, hlt⟩
  have hne : sharpes ≠ [] := by
    rintro rfl
    cases hbefore
  have hne' : replaced ≠ [] := by
    rintro rfl
    cases hafter
  have hsize : (0 : ℝ) < sharpes.length := Nat.cast_pos.mpr (List.length_pos_iff.mpr hne)
  have hsize' : (0 : ℝ) < replaced.length := Nat.cast_pos.mpr (List.length_pos_iff.mpr hne')
  have hcount := List.countP_eq_length.mpr fun score hmem => decide_eq_true (hall score hmem)
  rw [pbo_eq hne, hcount, div_self hsize.ne'] at hbefore
  rw [pbo_eq hne'] at hafter
  obtain rfl := Option.some.inj hbefore
  rw [← Option.some.inj hafter, one_lt_div hsize', Nat.cast_lt] at hlt
  exact List.countP_le_length.not_gt hlt

/-- Ratios of any mean can be concentrated until the confidence rises. -/
theorem exists_raised (hpositive : ∃ score ∈ inputs.cpcvSharpes, 0 < score) :
    ∃ sharpes, mean sharpes = mean inputs.cpcvSharpes ∧
      Raised (pbo inputs.cpcvSharpes) (pbo sharpes) ∧
      Raised (confidence inputs) (confidence { inputs with cpcvSharpes := sharpes }) := by
  obtain ⟨score, hmem, -⟩ := id hpositive
  have hne : inputs.cpcvSharpes ≠ [] := List.ne_nil_of_mem hmem
  have hbefore := pbo_eq hne
  generalize ((inputs.cpcvSharpes.countP fun score => score ≤ 0 : ℕ) : ℝ) /
    (inputs.cpcvSharpes.length : ℝ) = before at hbefore
  have hroom : 0 < 1 - before := sub_pos.mpr (pbo_lt_one hbefore hpositive)
  have hsmall : Tendsto (fun others : ℕ => 1 / ((others : ℝ) + 1) +
      deflation realRobustness (others + 1)) atTop (𝓝 (0 + 0)) :=
    tendsto_one_div_add_atTop_nhds_zero_nat.add
      ((tendsto_add_atTop_iff_nat 1).mpr tendsto_deflation)
  rw [add_zero] at hsmall
  obtain ⟨others, hothers⟩ := (hsmall.eventually (gt_mem_nhds hroom)).exists
  obtain ⟨after, hafter, hle⟩ := exists_pbo_concentrated (mean inputs.cpcvSharpes) others
  have hdeflation := deflation_nonneg (others + 1)
  have hdeflation' := deflation_nonneg inputs.cpcvSharpes.length
  push_cast at hle
  have hrises : before < after := by linarith
  have hmean := mean_concentrated (mean inputs.cpcvSharpes) others
  refine ⟨_, hmean, ⟨before, hbefore, after, hafter, hrises⟩, ?_⟩
  refine raised_of_sharpes hne (concentrated_ne_nil _ _) hmean hbefore hafter ?_ hrises.le
  rw [length_concentrated]
  linarith

/-- The claim holds where there is no complexity to raise and every Sharpe ratio already counts as
overfitting. -/
theorem neverRaises_iff :
    NeverRaises inputs ↔ inputs.complexity = none ∧ ∀ score ∈ inputs.cpcvSharpes, score ≤ 0 := by
  constructor
  · intro h
    constructor
    · rw [Option.eq_none_iff_forall_not_mem]
      intro complexity hcomplexity
      exact h.complexity complexity hcomplexity (complexity + 1) (lt_add_one _)
        (raised_of_complexity hcomplexity (lt_add_one _))
    · intro score hmem
      by_contra hpos
      obtain ⟨sharpes, hmean, hrises, hraised⟩ := exists_raised ⟨score, hmem, not_le.mp hpos⟩
      exact h.sharpes sharpes hmean hrises hraised
  · rintro ⟨hnone, hall⟩
    refine ⟨fun complexity hcomplexity => ?_, fun sharpes _ hrises => ?_⟩
    · rw [hnone] at hcomplexity
      cases hcomplexity
    · exact absurd hrises (not_raised_pbo hall)

/-- A complexity of one in place of none, and a ratio of two and none in place of two of one. -/
theorem overfitting_raises_confidence :
    Raised (confidence { complexity := some 0 }) (confidence { complexity := some 1 }) ∧
      ¬ NeverRaises { complexity := some 0 } ∧ ¬ NeverRaises { cpcvSharpes := [1, 1] } := by
  have hcomplexity : Raised (confidence { complexity := some 0 })
      (confidence { complexity := some 1 }) :=
    @raised_of_complexity { complexity := some 0 } 0 1 rfl one_pos
  refine ⟨hcomplexity, fun h => h.complexity 0 rfl 1 one_pos hcomplexity, fun h => ?_⟩
  have hone : ∃ score ∈ ([1, 1] : List ℝ), 0 < score := ⟨1, List.mem_cons_self, one_pos⟩
  obtain ⟨sharpes, hmean, hrises, hraised⟩ := @exists_raised { cpcvSharpes := [1, 1] } hone
  exact h.sharpes sharpes hmean hrises hraised

end OptionResearch.RobustnessEngine
