import OptionResearch.RunPerformance
import OptionResearch.RunningPeak

/-!
# Maximum drawdown

`_max_drawdown` of `engine.py` and `drawdown_history` of `analytics.py` scan an equity curve with a
running peak. Their maximum is the worst relative loss from a point to a later one.
-/

namespace OptionResearch.EquityCurve

open BacktestAnalyticsService RunningPeak

variable {curve : List (DateTime × ℚ)} {values : List ℚ}

/-- The peak is the greatest value so far, and absent before the first one. -/
def PeakOf (values : List ℚ) : Option ℚ → Prop
  | none => values = []
  | some peak => IsGreatest {v | v ∈ values} peak

theorem PeakOf.concat {peak : Option ℚ} (h : PeakOf values peak) (w : ℚ) :
    IsGreatest {v | v ∈ values ++ [w]} (peak.elim w (max · w)) := by
  cases peak with
  | none =>
    obtain rfl : values = [] := h
    exact ⟨List.mem_singleton_self w, fun v hv => (List.mem_singleton.mp hv).le⟩
  | some peak =>
    constructor
    · rcases max_choice peak w with hmax | hmax
      · rw [Option.elim_some, hmax]
        exact List.mem_append_left _ h.1
      · rw [Option.elim_some, hmax]
        exact List.mem_append_right _ (List.mem_singleton_self w)
    · intro v hv
      rcases List.mem_append.mp hv with hv | hv
      · exact (h.2 hv).trans (le_max_left _ _)
      · exact (List.mem_singleton.mp hv).le.trans (le_max_right _ _)

/-- The scan holds the peak and the worst loss so far. -/
theorem drawdownScan_spec (hnonneg : ∀ v ∈ values, 0 ≤ v) :
    PeakOf values (values.foldl drawdownStep (none, 0)).1 ∧
      IsGreatest (insert 0 (laterLosses values)) (values.foldl drawdownStep (none, 0)).2 := by
  induction values using List.reverseRecOn with
  | nil =>
    refine ⟨rfl, Set.mem_insert _ _, ?_⟩
    rintro loss (rfl | ⟨i, j, v, w, -, hv, -⟩)
    · exact le_rfl
    · cases hv
  | append_singleton values w ih =>
    obtain ⟨hpeak, hworst⟩ := ih fun v hv => hnonneg v (List.mem_append_left _ hv)
    have hw := hnonneg w (List.mem_append_right _ (List.mem_singleton_self w))
    rw [List.foldl_append, List.foldl_cons, List.foldl_nil]
    generalize values.foldl drawdownStep (none, 0) = acc at hpeak hworst ⊢
    have hnew := hpeak.concat w
    have hstep := isGreatest_laterLosses_concat hworst hnew hw
    unfold drawdownStep
    dsimp only
    split_ifs at hstep ⊢ with hnone
    · exact ⟨hnew, hstep⟩
    · exact ⟨hnew, hstep⟩

/-- The scan takes the maximum of the drawdowns in the history. -/
theorem foldl_drawdownStep {peak : Option ℚ} {worst : ℚ} (hworst : 0 ≤ worst) :
    ((curve.map Prod.snd).foldl drawdownStep (peak, worst)).2 =
      ((drawdownHistory peak curve).map (·.drawdown)).foldl max worst := by
  induction curve generalizing peak worst with
  | nil => rfl
  | cons point rest ih =>
    obtain ⟨timestamp, equity⟩ := point
    rw [List.map_cons, List.foldl_cons, drawdownHistory, List.map_cons, List.foldl_cons]
    unfold drawdownStep
    dsimp only
    split_ifs with hnone
    · rw [max_eq_left hworst]
      exact ih hworst
    · exact ih (hworst.trans (le_max_left _ _))

/-- The first point of a history is not drawn down. -/
theorem max?_drawdownHistory :
    ((drawdownHistory none curve).map (·.drawdown)).max?.getD 0 = maxDrawdown curve := by
  rw [maxDrawdown, foldl_drawdownStep le_rfl]
  cases curve with
  | nil => rfl
  | cons point rest =>
    rw [drawdownHistory, List.map_cons, List.max?_cons', Option.getD_some, List.foldl_cons]
    simp only [Option.elim_none, sub_self, zero_div, ite_self, max_self]

theorem isGreatest_maxDrawdown (hnonneg : ∀ point ∈ curve, 0 ≤ point.2) :
    IsGreatest (insert 0 (laterLosses (curve.map Prod.snd))) (maxDrawdown curve) :=
  (drawdownScan_spec (List.forall_mem_map.mpr hnonneg)).2

theorem le_foldl_drawdownStep (acc : Option ℚ × ℚ) (values : List ℚ) :
    acc.2 ≤ (values.foldl drawdownStep acc).2 := by
  induction values generalizing acc with
  | nil => exact le_rfl
  | cons value rest ih =>
    refine le_trans ?_ (ih (drawdownStep acc value))
    unfold drawdownStep
    dsimp only
    split_ifs
    · exact le_rfl
    · exact le_max_left _ _

/-- Both figures are the worst later loss, at most everything, and more points never lower it. -/
theorem maxDrawdown_worstLaterLoss (hnonneg : ∀ point ∈ curve, 0 ≤ point.2) :
    ((drawdownHistory none curve).map (·.drawdown)).max?.getD 0 = maxDrawdown curve ∧
      IsGreatest (insert 0 (laterLosses (curve.map Prod.snd))) (maxDrawdown curve) ∧
      maxDrawdown curve ∈ Set.Icc 0 1 ∧
      ∀ more, maxDrawdown curve ≤ maxDrawdown (curve ++ more) := by
  have hgreatest := isGreatest_maxDrawdown hnonneg
  refine ⟨max?_drawdownHistory, hgreatest,
    RunningPeak.IsGreatest.mem_Icc hgreatest (List.forall_mem_map.mpr hnonneg), fun more => ?_⟩
  rw [maxDrawdown, maxDrawdown, List.map_append, List.foldl_append]
  exact le_foldl_drawdownStep _ _

/-- A curve that starts at nothing, halves and recovers. -/
theorem maxDrawdown_worstLaterLoss_halved :
    IsGreatest (insert 0 (laterLosses [0, 4, 2, 3]))
      (maxDrawdown ([0, 4, 2, 3].map fun value => (⟨0, some 0⟩, value))) :=
  (@maxDrawdown_worstLaterLoss ([0, 4, 2, 3].map fun value => (⟨0, some 0⟩, value))
    (by decide +kernel)).2.1

end OptionResearch.EquityCurve
