import Mathlib.Data.List.Forall2
import Mathlib.Data.List.FinRange
import Mathlib.Tactic.Ring
import OptionResearch.MultipleTesting

/-!
# What the corrections guarantee

Every adjusted value is a function of its p-value that depends on the others only through how many
of them are on either side. So the corrections are ordered, monotone and independent of the order of
the p-values, and what they reject is what the step procedures reject.
-/

namespace OptionResearch

open RankedValues StableSort

variable {K : Type} [Field K] [LinearOrder K] [IsStrictOrderedRing K]
  {values others : List K} {value value' c : K}

/-- Every p-value is a probability. -/
def ProbabilityList (values : List K) : Prop := ∀ p ∈ values, 0 ≤ p ∧ p ≤ 1

/-! ### One p-value -/

theorem le_benjaminiHochbergAt (hvalues : ProbabilityList values) (hvalue : value ∈ values) :
    value ≤ benjaminiHochbergAt values value := by
  rw [le_benjaminiHochbergAt_iff]
  refine ⟨(hvalues value hvalue).2, fun q hq hle => le_min (hvalues value hvalue).2 ?_⟩
  have hcount : (0 : K) < atMost values q := Nat.cast_pos.mpr (atMost_pos hq)
  rw [le_div_iff₀ hcount]
  exact mul_le_mul hle (Nat.cast_le.mpr (atMost_le_length values q)) (Nat.cast_nonneg _)
    (hvalues q hq).1

theorem benjaminiHochbergAt_le_holmAt (hvalues : ProbabilityList values)
    (hvalue : value ∈ values) : benjaminiHochbergAt values value ≤ holmAt values value := by
  have hbh := (le_benjaminiHochbergAt_iff.mp (le_refl (benjaminiHochbergAt values value))).2
    value hvalue le_rfl
  have hholm := (holmAt_le_iff.mp (le_refl (holmAt values value))).2 value hvalue le_rfl
  refine hbh.trans (le_trans (min_le_min_left 1 ?_) hholm)
  have hcount : (0 : K) < atMost values value := Nat.cast_pos.mpr (atMost_pos hvalue)
  rw [div_le_iff₀ hcount, mul_comm value, mul_right_comm]
  refine mul_le_mul_of_nonneg_right ?_ (hvalues value hvalue).1
  rw [← Nat.cast_mul, Nat.cast_le, mul_comm]
  exact length_le_atMost_mul_atLeast hvalue

theorem holmAt_le_bonferroniAt (hvalues : ProbabilityList values) (hvalue : value ∈ values) :
    holmAt values value ≤ bonferroniAt values value := by
  rw [holmAt_le_iff, bonferroniAt]
  refine ⟨le_min zero_le_one (mul_nonneg (hvalues value hvalue).1 (Nat.cast_nonneg _)),
    fun q hq hle => min_le_min_left 1 ?_⟩
  rw [mul_comm]
  exact mul_le_mul hle (Nat.cast_le.mpr (atLeast_le_length values q)) (Nat.cast_nonneg _)
    (hvalues value hvalue).1

theorem bonferroniAt_mono (h : value ≤ value') :
    bonferroniAt values value ≤ bonferroniAt values value' :=
  min_le_min_left 1 (mul_le_mul_of_nonneg_right h (Nat.cast_nonneg _))

/-! ### Rejections -/

/-- The rank at which Holm's procedure still rejects a p-value. -/
def holmPasses (size : ℕ) (alpha : K) (rank : ℕ) (value : K) : Prop :=
  value ≤ alpha / (size + 1 - rank)

/-- The rank up to which the procedure of Benjamini and Hochberg rejects. -/
def benjaminiHochbergPasses (size : ℕ) (alpha : K) (rank : ℕ) (value : K) : Prop :=
  value ≤ rank * alpha / size

instance (size : ℕ) (alpha : K) (rank : ℕ) (value : K) :
    Decidable (holmPasses size alpha rank value) := inferInstanceAs (Decidable (_ ≤ _))

instance (size : ℕ) (alpha : K) (rank : ℕ) (value : K) :
    Decidable (benjaminiHochbergPasses size alpha rank value) :=
  inferInstanceAs (Decidable (_ ≤ _))

variable {ordered : List (K × ℕ)} {alpha : K} {i : ℕ}

/-- Below one, Holm's adjustment is within the level where the step-down procedure rejects. -/
theorem holmAt_le_iff_mem (hvalues : ProbabilityList values) (horder : Enumerates values ordered)
    (halpha : alpha < 1) (hi : i < values.length) :
    holmAt values values[i] ≤ alpha ↔
      i ∈ stepDown (holmPasses values.length alpha) 1 ordered := by
  obtain ⟨k, hk, hrank⟩ := horder.exists_rank hi
  have hmem : ordered[k].2 ∈ stepDown (holmPasses values.length alpha) 1 ordered ↔ _ :=
    mem_stepDown horder.nodup hk
  have hcount := horder.forall_before_iff (P := fun n q => n * q ≤ alpha)
    (fun q hq n n' hle hc => le_trans
      (mul_le_mul_of_nonneg_right (Nat.cast_le.mpr hle) (hvalues q hq).1) hc) hk
  rw [hrank] at hmem hcount
  have hpasses : ∀ j (hj : j < ordered.length),
      holmPasses values.length alpha (1 + j) ordered[j].1 ↔
        ((values.length - j : ℕ) : K) * ordered[j].1 ≤ alpha := by
    intro j hj
    have hlt : j < values.length := horder.length_eq ▸ hj
    have hremaining : (values.length : K) + 1 - (1 + j : ℕ) = (values.length - j : ℕ) := by
      rw [Nat.cast_sub hlt.le]
      push_cast
      ring
    have hpos : (0 : K) < (values.length - j : ℕ) := Nat.cast_pos.mpr (Nat.sub_pos_of_lt hlt)
    rw [holmPasses, hremaining, le_div_iff₀ hpos, mul_comm]
  have hvalue : values[i] ∈ values := List.getElem_mem hi
  rw [hmem, holmAt_le_iff]
  simp only [hpasses, hcount, min_le_iff, not_le.mpr halpha, false_or]
  refine and_iff_right_of_imp fun h => le_trans ?_ (h _ hvalue le_rfl)
  exact mul_nonneg (Nat.cast_nonneg _) (hvalues _ hvalue).1

/-- The adjustment of Benjamini and Hochberg is within the level where the step-up procedure
rejects. -/
theorem benjaminiHochbergAt_le_iff_mem (hvalues : ProbabilityList values)
    (horder : Enumerates values ordered) (hi : i < values.length) :
    benjaminiHochbergAt values values[i] ≤ alpha ↔
      i ∈ stepUp (benjaminiHochbergPasses values.length alpha) 1 ordered := by
  obtain ⟨k, hk, hrank⟩ := horder.exists_rank hi
  have hmem : ordered[k].2 ∈ stepUp (benjaminiHochbergPasses values.length alpha) 1 ordered ↔ _ :=
    mem_stepUp horder.nodup hk
  have hcount := horder.forall_after_iff
    (P := fun n q => alpha < q * values.length / n)
    (fun q hq n n' hpos hle hc => lt_of_lt_of_le hc
      (div_le_div_of_nonneg_left (mul_nonneg (hvalues q hq).1 (Nat.cast_nonneg _))
        (Nat.cast_pos.mpr hpos) (Nat.cast_le.mpr hle))) hk
  rw [hrank] at hmem hcount
  have hsize : (0 : K) < values.length := Nat.cast_pos.mpr (Nat.zero_lt_of_lt hi)
  have hfails : ∀ j (hj : j < ordered.length),
      ¬ benjaminiHochbergPasses values.length alpha (1 + j) ordered[j].1 ↔
        alpha < ordered[j].1 * values.length / (j + 1 : ℕ) := by
    intro j hj
    have hpos : (0 : K) < (j + 1 : ℕ) := Nat.cast_pos.mpr (Nat.succ_pos j)
    rw [benjaminiHochbergPasses, Nat.add_comm 1 j, not_le, div_lt_iff₀ hsize, lt_div_iff₀ hpos,
      mul_comm alpha]
  rw [← not_iff_not, not_le, hmem, lt_benjaminiHochbergAt_iff]
  simp only [not_exists, not_and, hfails]
  rw [hcount]
  constructor
  · exact fun h q hq hle => (lt_min_iff.mp (h.2 q hq hle)).2
  · intro h
    -- the greatest p-value bounds the level
    have hone : alpha < 1 := by
      obtain ⟨n, hn⟩ : ∃ n, n + 1 = values.length := ⟨_, Nat.sub_add_cancel (by omega)⟩
      have hlength := horder.length_eq
      have hlt : n < ordered.length := by omega
      have hlast := hcount.mpr h n hlt (by omega)
      have hprobability := hvalues ordered[n].1 (horder.keys_perm.mem_iff.mp
        (List.mem_map_of_mem (List.getElem_mem _)))
      rw [hn, mul_div_cancel_right₀ _ hsize.ne'] at hlast
      exact hlast.trans_le hprobability.2
    exact ⟨hone, fun q hq hle => lt_min hone (h q hq hle)⟩

/-! ### All p-values -/

/-- The adjustment of one p-value that a method name stands for. -/
def adjustmentAt (methodName : String) : Option (String × (List K → K → K)) :=
  if methodName = "bonferroni" then some (methodName, bonferroniAt)
  else if methodName = "holm" then some (methodName, holmAt)
  else if methodName ∈ ["bh", "benjamini-hochberg", "benjamini_hochberg"] then
    some ("benjamini_hochberg", benjaminiHochbergAt)
  else none

theorem toLower_eq {name : String} (lower : String)
    (h : name.toList.map Char.toLower = lower.toList) : name.toLower = lower := by
  rw [← String.toList_inj]
  change (name.map Char.toLower).toList = _
  rw [String.toList_map, h]

theorem adjust_eq (hvalues : ProbabilityList values) (methodName : String) :
    adjust methodName values =
      (adjustmentAt methodName).map fun method => (method.1, values.map (method.2 values)) := by
  rw [adjust, adjustmentAt, holm_eq_map fun p hp => (hvalues p hp).1,
    benjaminiHochberg_eq_map fun p hp => (hvalues p hp).1]
  split_ifs <;> rfl

section Names

omit [IsStrictOrderedRing K]

theorem adjustmentAt_bonferroni : adjustmentAt (K := K) "bonferroni".toLower =
    some ("bonferroni", bonferroniAt) := by
  rw [adjustmentAt, toLower_eq "bonferroni" (by decide), if_pos rfl]

theorem adjustmentAt_holm :
    adjustmentAt "holm".toLower = some ("holm", holmAt (K := K)) := by
  rw [adjustmentAt, toLower_eq "holm" (by decide), if_neg (by decide), if_pos rfl]

theorem adjustmentAt_bh : adjustmentAt "bh".toLower =
    some ("benjamini_hochberg", benjaminiHochbergAt (K := K)) := by
  rw [adjustmentAt, toLower_eq "bh" (by decide), if_neg (by decide),
    if_neg (by decide), if_pos (by decide)]

theorem adjustmentAt_perm {methodName : String} {method : String × (List K → K → K)}
    (hmethod : method ∈ adjustmentAt methodName) (h : values.Perm others) (value : K) :
    method.2 values value = method.2 others value := by
  rw [adjustmentAt] at hmethod
  split_ifs at hmethod <;> cases hmethod
  · dsimp only
    rw [bonferroniAt, bonferroniAt, h.length_eq]
  · exact holmAt_perm h value
  · exact benjaminiHochbergAt_perm h value

/-- Greater p-values have adjusted values that are at least as great. -/
def FollowsOrder (values adjusted : List K) : Prop :=
  ∀ i j : ℕ, ∀ p ∈ values[i]?, ∀ q ∈ values[j]?, p ≤ q →
    ∀ a ∈ adjusted[i]?, ∀ b ∈ adjusted[j]?, a ≤ b

omit [Field K] in
theorem followsOrder_map {f : K → K} (h : Monotone f) : FollowsOrder values (values.map f) := by
  intro i j p hp q hq hle a ha b hb
  rw [List.getElem?_map, hp] at ha
  rw [List.getElem?_map, hq] at hb
  cases ha
  cases hb
  exact h hle

end Names

/-- The result of one method, for adjusted values that are a function of the p-values. -/
theorem multipleTestingCorrections_eq (engine : ValidationEngine K) (hne : values ≠ [])
    (hvalues : ProbabilityList values) {method : String}
    {adjustment : String × (List K → K → K)}
    (hmethod : adjustmentAt method.toLower = some adjustment) (alpha : K) (sampleSize : Int) :
    ∃ result, engine.multipleTestingCorrections values method (some alpha) sampleSize = .ok result ∧
      result.adjustedPValues = values.map (adjustment.2 values) ∧
      result.rejected =
        values.map fun value => decide (adjustment.2 values value ≤ alpha) := by
  have hempty : ¬ values.isEmpty = true := by simpa using hne
  rw [ValidationEngine.multipleTestingCorrections, if_neg hempty, adjust_eq hvalues, hmethod]
  exact ⟨_, rfl, rfl, List.map_map⟩

/-- A permutation of the p-values permutes the adjusted values and the rejections. -/
theorem multipleTestingCorrections_perm (engine : ValidationEngine K) (hne : values ≠ [])
    (hvalues : ProbabilityList values) (σ : Equiv.Perm (Fin values.length)) {method : String}
    {alpha : K} {sampleSize : Int} {result : MultipleTestingResult K}
    (h : engine.multipleTestingCorrections values method (some alpha) sampleSize = .ok result) :
    ∃ permuted, engine.multipleTestingCorrections (List.ofFn (values.get ∘ σ)) method (some alpha)
        sampleSize = .ok permuted ∧
      ∀ i : Fin values.length,
        permuted.adjustedPValues[(i : ℕ)]? = result.adjustedPValues[(σ i : ℕ)]? ∧
        permuted.rejected[(i : ℕ)]? = result.rejected[(σ i : ℕ)]? := by
  have hperm : (List.ofFn (values.get ∘ σ)).Perm values := by
    have hofFn := σ.ofFn_comp_perm values.get
    rwa [List.ofFn_get] at hofFn
  have hne' : List.ofFn (values.get ∘ σ) ≠ [] := fun h => hne (h ▸ hperm).nil_eq.symm
  have hvalues' : ProbabilityList (List.ofFn (values.get ∘ σ)) :=
    fun p hp => hvalues p (hperm.mem_iff.mp hp)
  rcases hmethod : adjustmentAt (K := K) method.toLower with _ | adjustment
  · have hempty : ¬ values.isEmpty = true := by simpa using hne
    rw [ValidationEngine.multipleTestingCorrections, if_neg hempty, adjust_eq hvalues,
      hmethod] at h
    cases h
  · obtain ⟨result', hresult', hadjusted, hrejected⟩ :=
      multipleTestingCorrections_eq engine hne hvalues hmethod alpha sampleSize
    obtain ⟨permuted, hpermuted, hadjusted', hrejected'⟩ :=
      multipleTestingCorrections_eq engine hne' hvalues' hmethod alpha sampleSize
    have hsame := Except.ok.inj (h.symm.trans hresult')
    subst hsame
    refine ⟨permuted, hpermuted, fun i => ?_⟩
    have hget : (List.ofFn (values.get ∘ σ))[(i : ℕ)]? = values[(σ i : ℕ)]? := by
      rw [List.getElem?_ofFn, dif_pos i.isLt, List.getElem?_eq_getElem (σ i).isLt]
      rfl
    have hsame : adjustment.2 (List.ofFn (values.get ∘ σ)) = adjustment.2 values :=
      funext (adjustmentAt_perm hmethod hperm)
    rw [hadjusted, hadjusted', hrejected, hrejected']
    simp only [List.getElem?_map, hget, hsame, and_self]

omit [Field K] in
theorem rejected_iff {f : K → K} {result : MultipleTestingResult K}
    (h : result.rejected = values.map fun value => decide (f value ≤ alpha))
    (hi : i < values.length) : result.rejected[i]? = some true ↔ f values[i] ≤ alpha := by
  rw [h, List.getElem?_map, List.getElem?_eq_getElem hi, Option.map_some, Option.some_inj,
    decide_eq_true_iff]

theorem holmAt_le_one : holmAt values value ≤ 1 :=
  holmAt_le_iff.mpr ⟨zero_le_one, fun _ _ _ => min_le_left _ _⟩

/-- The corrections lie between the p-values and one, from Benjamini and Hochberg over Holm to
Bonferroni; they follow the order of the p-values and not the order of the list; and they reject
what the step procedures reject, except that Holm's adjustment rejects all from the level one on. -/
theorem multipleTestingCorrections_guarantees (engine : ValidationEngine K) (hne : values ≠ [])
    (hvalues : ProbabilityList values) (alpha : K) (sampleSize : Int) :
    ∃ bonferroni holm benjaminiHochberg : MultipleTestingResult K,
      (engine.multipleTestingCorrections values "bonferroni" (some alpha) sampleSize =
          .ok bonferroni ∧
        engine.multipleTestingCorrections values "holm" (some alpha) sampleSize = .ok holm ∧
        engine.multipleTestingCorrections values "bh" (some alpha) sampleSize =
          .ok benjaminiHochberg) ∧
      (List.Forall₂ (· ≤ ·) values benjaminiHochberg.adjustedPValues ∧
        List.Forall₂ (· ≤ ·) benjaminiHochberg.adjustedPValues holm.adjustedPValues ∧
        List.Forall₂ (· ≤ ·) holm.adjustedPValues bonferroni.adjustedPValues ∧
        ∀ p ∈ bonferroni.adjustedPValues, p ≤ 1) ∧
      (FollowsOrder values bonferroni.adjustedPValues ∧ FollowsOrder values holm.adjustedPValues ∧
        FollowsOrder values benjaminiHochberg.adjustedPValues) ∧
      (∀ (σ : Equiv.Perm (Fin values.length)) method result,
        engine.multipleTestingCorrections values method (some alpha) sampleSize = .ok result →
          ∃ permuted, engine.multipleTestingCorrections (List.ofFn (values.get ∘ σ)) method
              (some alpha) sampleSize = .ok permuted ∧
            ∀ i : Fin values.length,
              permuted.adjustedPValues[(i : ℕ)]? = result.adjustedPValues[(σ i : ℕ)]? ∧
              permuted.rejected[(i : ℕ)]? = result.rejected[(σ i : ℕ)]?) ∧
      ∀ ordered, Enumerates values ordered → ∀ i < values.length,
        (benjaminiHochberg.rejected[i]? = some true ↔
          i ∈ stepUp (benjaminiHochbergPasses values.length alpha) 1 ordered) ∧
        (alpha < 1 → (holm.rejected[i]? = some true ↔
          i ∈ stepDown (holmPasses values.length alpha) 1 ordered)) ∧
        (1 ≤ alpha → holm.rejected[i]? = some true) := by
  obtain ⟨bonferroni, hbonferroni, hbonferroni', _⟩ := multipleTestingCorrections_eq engine hne
    hvalues adjustmentAt_bonferroni alpha sampleSize
  obtain ⟨holm, hholm, hholm', hholmRejected⟩ := multipleTestingCorrections_eq engine hne
    hvalues adjustmentAt_holm alpha sampleSize
  obtain ⟨bh, hbh, hbh', hbhRejected⟩ := multipleTestingCorrections_eq engine hne
    hvalues adjustmentAt_bh alpha sampleSize
  refine ⟨bonferroni, holm, bh, ⟨hbonferroni, hholm, hbh⟩, ?_, ?_,
    fun σ method result => multipleTestingCorrections_perm engine hne hvalues σ, ?_⟩
  · rw [hbonferroni', hholm', hbh']
    simp only [List.forall₂_map_left_iff, List.forall₂_map_right_iff, List.forall₂_same,
      List.forall_mem_map]
    exact ⟨fun p => le_benjaminiHochbergAt hvalues, fun p => benjaminiHochbergAt_le_holmAt hvalues,
      fun p => holmAt_le_bonferroniAt hvalues, fun p _ => min_le_left _ _⟩
  · rw [hbonferroni', hholm', hbh']
    exact ⟨followsOrder_map fun p q => bonferroniAt_mono,
      followsOrder_map fun p q => holmAt_mono,
      followsOrder_map fun p q => benjaminiHochbergAt_mono⟩
  · intro ordered horder i hi
    rw [rejected_iff hbhRejected hi, rejected_iff hholmRejected hi]
    exact ⟨benjaminiHochbergAt_le_iff_mem hvalues horder hi,
      fun halpha => holmAt_le_iff_mem hvalues horder halpha hi,
      fun halpha => holmAt_le_one.trans halpha⟩

section Pair

def defaultEngine : ValidationEngine ℚ := ⟨30, 1 / 20⟩

/-- Two p-values that Holm's procedure rejects at no level below `9 / 5`. -/
def pValuePair : List ℚ := [9 / 10, 9 / 10]

theorem probabilityList_pair : ProbabilityList pValuePair := by
  intro p hp
  rw [pValuePair, List.mem_cons, List.mem_singleton, or_self] at hp
  subst hp
  norm_num

theorem enumerates_pair : Enumerates pValuePair [(9 / 10, 0), (9 / 10, 1)] := by
  refine ⟨.refl _, ?_⟩
  rw [SortedBy, List.pairwise_pair]

/-- At the level one Holm's adjustment rejects what the step-down procedure keeps. -/
theorem not_holm_stepDown :
    ¬ ∀ values : List ℚ, values ≠ [] → ProbabilityList values → ∀ alpha result,
      defaultEngine.multipleTestingCorrections values "holm" (some alpha) 30 = .ok result →
        ∀ ordered, Enumerates values ordered → ∀ i < values.length,
          (result.rejected[i]? = some true ↔
            i ∈ stepDown (holmPasses values.length alpha) 1 ordered) := by
  intro h
  have hne : pValuePair ≠ [] := List.cons_ne_nil _ _
  obtain ⟨result, hresult, _, hrejected⟩ := multipleTestingCorrections_eq defaultEngine hne
    probabilityList_pair adjustmentAt_holm 1 30
  have hmem := (h pValuePair hne probabilityList_pair 1 result hresult _ enumerates_pair 0
    Nat.two_pos).mp ((rejected_iff hrejected Nat.two_pos).mpr holmAt_le_one)
  have hfails : ¬ holmPasses pValuePair.length 1 1 (9 / 10 : ℚ) := by
    norm_num [holmPasses, pValuePair]
  rw [stepDown, if_neg hfails] at hmem
  exact List.not_mem_nil hmem

theorem multipleTestingCorrections_guarantees_pair :
    ∃ holm benjaminiHochberg : MultipleTestingResult ℚ,
      defaultEngine.multipleTestingCorrections pValuePair "holm" (some (1 / 20)) 30 = .ok holm ∧
      defaultEngine.multipleTestingCorrections pValuePair "bh" (some (1 / 20)) 30 =
        .ok benjaminiHochberg ∧
      List.Forall₂ (· ≤ ·) benjaminiHochberg.adjustedPValues holm.adjustedPValues := by
  obtain ⟨_, holm, bh, ⟨_, hholm, hbh⟩, ⟨_, hle, _⟩, _⟩ := multipleTestingCorrections_guarantees
    defaultEngine (List.cons_ne_nil _ _) probabilityList_pair (1 / 20) 30
  exact ⟨holm, bh, hholm, hbh, hle⟩

end Pair

end OptionResearch
