import OptionResearch.PortfolioCandidates
import Mathlib.Algebra.BigOperators.Group.List.Basic
import Mathlib.Algebra.Order.BigOperators.Group.List
import Mathlib.Algebra.Order.Field.Basic
import Mathlib.Tactic.NormNum

/-!
# Sizing weights

`PositionSizer.size` of `sizing.py` gives every candidate a weight by one of eleven policies; most
of them are shares of a total. Kelly fractions are capped before they become shares, so that a share
may exceed the cap where the capped fractions do not add up to one.
-/

namespace OptionResearch.Portfolio

/-- `1e-8`, the least value that is divided by. -/
def tiny : ℚ := 1 / 100000000

/-- `_normalize`. -/
def normalize (values : InsertionDict String ℚ) : InsertionDict String ℚ :=
  let total := values.values.sum
  InsertionDict.ofEntries <| values.entries.map fun entry =>
    (entry.1, if total ≤ 0 then 0 else entry.2 / total)

/-- `{item.candidate_id: value for item in candidates}`. -/
def byCandidateId (value : CandidateInput → ℚ) (candidates : List CandidateInput) :
    InsertionDict String ℚ :=
  InsertionDict.ofEntries (candidates.map fun item => (item.candidateId, value item))

structure PositionSizer where
  kellyCap : ℚ := 3 / 20

namespace PositionSizer

variable (sizer : PositionSizer)

/-- The Kelly fraction of a candidate. -/
def kelly (item : CandidateInput) : ℚ :=
  max 0 (item.stats.expectedReturn / max (item.stats.volatility ^ 2) tiny)

def size (candidates : List CandidateInput) (policy : SizingPolicy) (availableCapital : ℚ) :
    InsertionDict String ℚ :=
  if candidates.isEmpty then InsertionDict.empty
  else
    match policy with
    | .equalWeight => byCandidateId (fun _ => 1 / candidates.length) candidates
    | .inverseVolatility =>
      normalize (byCandidateId (fun item => 1 / max item.stats.volatility tiny) candidates)
    | .equalRisk =>
      normalize (byCandidateId (fun item => 1 / max item.stats.expectedShortfall tiny) candidates)
    | .robustnessWeighted =>
      normalize (byCandidateId (fun item => max item.validation.robustnessScore 0) candidates)
    | .expectedValueWeighted =>
      normalize (byCandidateId (fun item => max item.stats.expectedValue 0) candidates)
    | .kellyFractional =>
      normalize (byCandidateId (fun item => min sizer.kellyCap (kelly item)) candidates)
    | .capitalPerStrategy =>
      let per := availableCapital / candidates.length
      byCandidateId (fun _ => per / max availableCapital tiny) candidates
    | .fixedContract =>
      normalize
        (byCandidateId (fun item => 1 / max item.exposure.capitalRequirement tiny) candidates)
    | .volatilityTargeting =>
      normalize (byCandidateId (fun item => max 0 (1 / 5 - item.stats.volatility)) candidates)
    | .expectedShortfallTargeting =>
      normalize (byCandidateId (fun item => 1 / max item.stats.expectedShortfall tiny) candidates)
    | .marginalRiskContribution =>
      normalize (byCandidateId
        (fun item => 1 / max (item.stats.modelRisk + item.stats.liquidityRisk) tiny) candidates)

end PositionSizer

/-! ### Shares of a total -/

variable {value : CandidateInput → ℚ} {candidates : List CandidateInput} {key : String} {w : ℚ}

theorem get?_normalize (values : InsertionDict String ℚ) :
    (normalize values).get? key = (values.get? key).map fun value =>
      if values.values.sum ≤ 0 then 0 else value / values.values.sum := by
  have hkeys : ((values.entries.map fun entry => (entry.1,
      if values.values.sum ≤ 0 then 0 else entry.2 / values.values.sum)).map Prod.fst).Nodup := by
    rw [List.map_map]
    exact values.nodup_keys
  ext share
  rw [normalize, InsertionDict.get?_ofEntries hkeys, List.mem_map, Option.map_eq_some_iff]
  constructor
  · rintro ⟨entry, hentry, heq⟩
    obtain ⟨rfl, hshare⟩ := Prod.mk.inj heq
    exact ⟨entry.2, InsertionDict.get?_eq_some_iff.mpr hentry, hshare⟩
  · rintro ⟨value, hvalue, rfl⟩
    exact ⟨(key, value), InsertionDict.get?_eq_some_iff.mp hvalue, rfl⟩

/-- The candidates whose identifier no later one bears. -/
abbrev latestCandidates (candidates : List CandidateInput) : List CandidateInput :=
  latestBy (·.candidateId) candidates

theorem get?_byCandidateId : (byCandidateId value candidates).get? key = some w ↔
    ∃ item ∈ latestCandidates candidates, item.candidateId = key ∧ value item = w := by
  rw [byCandidateId, InsertionDict.get?_ofEntries_iff, latestBy_map, List.mem_map]
  simp only [Prod.mk.injEq]

theorem sum_byCandidateId (value : CandidateInput → ℚ) (candidates : List CandidateInput) :
    (byCandidateId value candidates).values.sum =
      ((latestCandidates candidates).map value).sum := by
  have hperm := (InsertionDict.entries_ofEntries_perm
    (candidates.map fun item => (item.candidateId, value item))).map Prod.snd
  rw [latestBy_map, List.map_map] at hperm
  exact hperm.sum_eq

/-! ### The cap on Kelly fractions -/

namespace PositionSizer

variable {sizer : PositionSizer}

/-- A Kelly fraction under the cap. -/
def capped (sizer : PositionSizer) (item : CandidateInput) : ℚ := min sizer.kellyCap (kelly item)

/-- What the capped fractions come to. -/
def cappedTotal (sizer : PositionSizer) (candidates : List CandidateInput) : ℚ :=
  ((latestCandidates candidates).map (capped sizer)).sum

theorem get?_size_kelly (sizer : PositionSizer) (hcandidates : candidates ≠ [])
    (availableCapital : ℚ) :
    (sizer.size candidates .kellyFractional availableCapital).get? key = some w ↔
      ∃ last ∈ latestCandidates candidates, last.candidateId = key ∧
        (if cappedTotal sizer candidates ≤ 0 then 0
          else capped sizer last / cappedTotal sizer candidates) = w := by
  have hsize : sizer.size candidates .kellyFractional availableCapital =
      normalize (byCandidateId (capped sizer) candidates) := by
    rw [size, if_neg (by simpa using hcandidates)]
    rfl
  rw [hsize, get?_normalize, Option.map_eq_some_iff, sum_byCandidateId]
  constructor
  · rintro ⟨raw, hraw, rfl⟩
    obtain ⟨last, hlast, hid, rfl⟩ := get?_byCandidateId.mp hraw
    exact ⟨last, hlast, hid, rfl⟩
  · rintro ⟨last, hlast, hid, rfl⟩
    exact ⟨_, get?_byCandidateId.mpr ⟨last, hlast, hid, rfl⟩, rfl⟩

/-- Every candidate has a weight within the cap and within its own Kelly fraction. -/
def WithinCap (sizer : PositionSizer) (candidates : List CandidateInput)
    (availableCapital : ℚ) : Prop :=
  ∀ item ∈ candidates, ∃ w,
    (sizer.size candidates .kellyFractional availableCapital).get? item.candidateId = some w ∧
      w ≤ sizer.kellyCap ∧ w ≤ kelly item

/-- Where the fractions come to something, one of them is positive. -/
theorem exists_capped_pos (h : 0 < cappedTotal sizer candidates) :
    ∃ last ∈ latestCandidates candidates, 0 < capped sizer last := by
  have hsum : ((latestCandidates candidates).map fun _ => (0 : ℚ)).sum <
      ((latestCandidates candidates).map (capped sizer)).sum := by
    simpa [cappedTotal] using h
  exact List.exists_lt_of_sum_lt _ _ hsum

theorem withinCap_iff_of_nonpos (hcandidates : candidates ≠ []) (availableCapital : ℚ)
    (h : cappedTotal sizer candidates ≤ 0) :
    WithinCap sizer candidates availableCapital ↔ 0 ≤ sizer.kellyCap := by
  constructor
  · intro hwithin
    obtain ⟨item, hitem⟩ := List.exists_mem_of_ne_nil _ hcandidates
    obtain ⟨w, hw, hcap, -⟩ := hwithin item hitem
    obtain ⟨last, -, -, hshare⟩ := (get?_size_kelly sizer hcandidates _).mp hw
    rw [if_pos h] at hshare
    exact hshare ▸ hcap
  · intro hcap item hitem
    obtain ⟨last, hlast, hid⟩ := exists_latestBy (·.candidateId) hitem
    exact ⟨0, (get?_size_kelly sizer hcandidates _).mpr ⟨last, hlast, hid, if_pos h⟩, hcap,
      le_max_left _ _⟩

theorem withinCap_iff_of_pos (hcandidates : candidates ≠ []) (availableCapital : ℚ)
    (h : 0 < cappedTotal sizer candidates) :
    WithinCap sizer candidates availableCapital ↔
      ∀ item ∈ candidates, ∀ last ∈ latestCandidates candidates,
        last.candidateId = item.candidateId →
          capped sizer last ≤ capped sizer item * cappedTotal sizer candidates := by
  have hshare : ∀ item last, (capped sizer last / cappedTotal sizer candidates ≤ sizer.kellyCap ∧
      capped sizer last / cappedTotal sizer candidates ≤ kelly item) ↔
        capped sizer last ≤ capped sizer item * cappedTotal sizer candidates := by
    intro item last
    rw [← le_min_iff, div_le_iff₀ h]
    rfl
  constructor
  · intro hwithin item hitem last hlast hid
    obtain ⟨w, hw, hle⟩ := hwithin item hitem
    have hw' := (get?_size_kelly sizer hcandidates availableCapital).mpr
      ⟨last, hlast, hid, if_neg (not_le.mpr h)⟩
    obtain rfl := Option.some.inj (hw.symm.trans hw')
    exact (hshare item last).mp hle
  · intro hall item hitem
    obtain ⟨last, hlast, hid⟩ := exists_latestBy (·.candidateId) hitem
    exact ⟨_, (get?_size_kelly sizer hcandidates _).mpr ⟨last, hlast, hid, if_neg (not_le.mpr h)⟩,
      (hshare item last).mpr (hall item hitem last hlast hid)⟩

/-- The cap holds if the capped fractions come to one or more, so that their shares are no larger,
or to nothing; a fraction that shares its identifier with others must also be within theirs. -/
theorem withinCap_iff (sizer : PositionSizer) (candidates : List CandidateInput)
    (availableCapital : ℚ) (hcandidates : candidates ≠ []) :
    (WithinCap sizer candidates availableCapital ↔
      cappedTotal sizer candidates ≤ 0 ∧ 0 ≤ sizer.kellyCap ∨
        1 ≤ cappedTotal sizer candidates ∧
          ∀ item ∈ candidates, ∀ last ∈ latestCandidates candidates,
            last.candidateId = item.candidateId →
              capped sizer last ≤ capped sizer item * cappedTotal sizer candidates) ∧
      ((candidates.map (·.candidateId)).Nodup →
        (WithinCap sizer candidates availableCapital ↔
          (candidates.map (capped sizer)).sum ≤ 0 ∧ 0 ≤ sizer.kellyCap ∨
            1 ≤ (candidates.map (capped sizer)).sum)) := by
  rcases le_or_gt (cappedTotal sizer candidates) 0 with hnone | hpos
  · have hsmall : ¬ 1 ≤ cappedTotal sizer candidates :=
      not_le.mpr (hnone.trans_lt zero_lt_one)
    refine ⟨?_, fun hids => ?_⟩
    · rw [withinCap_iff_of_nonpos hcandidates _ hnone]
      simp only [hnone, hsmall, true_and, false_and, or_false]
    · rw [withinCap_iff_of_nonpos hcandidates _ hnone]
      rw [cappedTotal, latestCandidates, latestBy_eq_self hids] at hnone hsmall
      simp only [hnone, hsmall, true_and, or_false]
  · have hlarge : ¬ cappedTotal sizer candidates ≤ 0 := not_le.mpr hpos
    obtain ⟨first, hfirst, hcapped⟩ := exists_capped_pos hpos
    have hone : (∀ item ∈ candidates, ∀ last ∈ latestCandidates candidates,
        last.candidateId = item.candidateId →
          capped sizer last ≤ capped sizer item * cappedTotal sizer candidates) →
        1 ≤ cappedTotal sizer candidates := by
      intro hall
      have hself := hall first (latestBy_sublist.subset hfirst) first hfirst rfl
      exact le_of_mul_le_mul_left (by rwa [mul_one]) hcapped
    refine ⟨?_, fun hids => ?_⟩
    · rw [withinCap_iff_of_pos hcandidates _ hpos]
      simp only [hlarge, false_and, false_or]
      exact ⟨fun hall => ⟨hone hall, hall⟩, And.right⟩
    · have htotal : cappedTotal sizer candidates = (candidates.map (capped sizer)).sum := by
        rw [cappedTotal, latestCandidates, latestBy_eq_self hids]
      rw [withinCap_iff_of_pos hcandidates _ hpos, ← htotal]
      simp only [hlarge, false_and, false_or]
      refine ⟨hone, fun hle item hitem last hlast hid => ?_⟩
      obtain rfl := List.inj_on_of_nodup_map hids (latestBy_sublist.subset hlast) hitem hid
      have hcap : 0 ≤ sizer.kellyCap := (hcapped.trans_le (min_le_left _ _)).le
      exact le_mul_of_one_le_right (le_min hcap (le_max_left _ _)) hle

/-- A candidate of unit volatility, by its return and the capital it requires. -/
def unitCandidate (candidateId : String) (expectedReturn capitalRequirement : ℚ) :
    CandidateInput where
  candidateId := candidateId
  validation := { robustnessScore := 1 }
  exposure := {
    delta := 0
    gamma := 0
    theta := 0
    vega := 0
    rho := 0
    vanna := none
    charm := none
    sector := "index"
    symbol := "SPY"
    expirationBucket := "30d"
    strategyFamily := "vertical"
    volatilityRegime := "low"
    termStructureRegime := "contango"
    eventExposure := 0
    earningsExposure := 0
    capitalRequirement := capitalRequirement
    expectedShortfall := 0
    maximumDrawdown := 0
    liquidityScore := 1
    modelRiskScore := 0 }
  stats := {
    expectedReturn := expectedReturn
    expectedValue := 0
    volatility := 1
    expectedShortfall := 0
    maximumDrawdown := 0
    liquidityRisk := 0
    modelRisk := 0 }

/-- Two fractions of a half are shares of a half. -/
theorem withinCap_iff_halves :
    WithinCap ⟨1 / 2⟩ [unitCandidate "a" 1 1, unitCandidate "b" 1 1] 1 :=
  ((withinCap_iff ⟨1 / 2⟩ [unitCandidate "a" 1 1, unitCandidate "b" 1 1] 1
    (List.cons_ne_nil _ _)).2 (by decide)).mpr (.inr (by decide +kernel))

/-- The only candidate gets all of the weight, under a cap of fifteen hundredths. -/
theorem kelly_share_above_cap : ¬ ∀ (sizer : PositionSizer) (candidates : List CandidateInput)
    (availableCapital : ℚ), candidates ≠ [] → WithinCap sizer candidates availableCapital := by
  intro h
  obtain ⟨w, hw, hcap, -⟩ := h {} [unitCandidate "a" 1 1] 1 (List.cons_ne_nil _ _)
    (unitCandidate "a" 1 1) List.mem_cons_self
  have hall : (({} : PositionSizer).size [unitCandidate "a" 1 1] .kellyFractional 1).get? "a" =
      some 1 := by decide +kernel
  obtain rfl := Option.some.inj (hw.symm.trans hall)
  norm_num at hcap

end PositionSizer
end OptionResearch.Portfolio
