import Mathlib.Analysis.Complex.ExponentialBounds
import Mathlib.Analysis.Real.Sqrt
import OptionResearch.PythonValues
import OptionResearch.StableSort

/-!
# Realized volatility

`HistoricalVolatilityCalculator` of `implied_volatility/realized.py` and its five estimators, which
take the logs of ratios of the prices of a bar or of neighbouring bars.
-/

namespace OptionResearch

open StableSort

/-- `math.log` of positive numbers and `math.sqrt` of numbers that are not negative. -/
structure EstimatorMath (K : Type) where
  log : K → K
  sqrt : K → K

inductive HistoricalVolEstimator where
  | closeToClose
  | parkinson
  | garmanKlass
  | rogersSatchell
  | yangZhang
  deriving DecidableEq, Repr

inductive AnnualizationConvention where
  | tradingDays252
  | calendarDays365
  deriving DecidableEq, Repr

namespace HistoricalVolatilityCalculator

inductive MissingSessionPolicy where
  | skip
  | strict
  deriving DecidableEq, Repr

end HistoricalVolatilityCalculator

structure OHLCBar (K : Type) where
  timestamp : DateTime
  openPrice : K
  high : K
  low : K
  close : K
  splitAdjusted : Bool := true

/-- What bars are sorted by. -/
def OHLCBar.instant {K : Type} (bar : OHLCBar K) : Int := bar.timestamp.instant

structure HistoricalVolatilityConfig where
  estimator : HistoricalVolEstimator
  lookbackWindow : Int
  annualization : AnnualizationConvention := .tradingDays252
  missingSessionPolicy : HistoricalVolatilityCalculator.MissingSessionPolicy := .skip

structure HistoricalVolatilityResult (K : Type) where
  estimator : HistoricalVolEstimator
  annualizedVolatility : Option K
  observationsUsed : ℕ
  warnings : List String := []
  units : String := "annualized_volatility_fraction"

namespace HistoricalVolatilityCalculator

section Estimators

variable {K : Type} [Field K] [LinearOrder K] (math : EstimatorMath K)

/-- `_log_ratio`. -/
def logRatio (numerator denominator : K) : Option K :=
  if numerator ≤ 0 ∨ denominator ≤ 0 then none else some (math.log (numerator / denominator))

/-- `sum(values) / len(values)`. -/
def mean (values : List K) : K := values.sum / values.length

/-- The squared distances from the mean. -/
def sumOfSquares (values : List K) : K := (values.map fun value => (value - mean values) ^ 2).sum

/-- The bars with the ones before them. -/
def neighbours (bars : List (OHLCBar K)) : List (OHLCBar K × OHLCBar K) := bars.zip bars.tail

/-- `_close_to_close`. -/
def closeToClose (bars : List (OHLCBar K)) : Option K := do
  let returns ← (neighbours bars).mapM fun pair => logRatio math pair.2.close pair.1.close
  if returns.length < 2 then none
  else return sumOfSquares returns / (returns.length - 1)

/-- `_parkinson`. -/
def parkinson (bars : List (OHLCBar K)) : Option K :=
  if bars.length = 0 then none
  else do
    let values ← bars.mapM fun bar => do
      let value ← logRatio math bar.high bar.low
      return value * value
    return values.sum / (4.0 * bars.length * math.log 2.0)

/-- `_garman_klass`. -/
def garmanKlass (bars : List (OHLCBar K)) : Option K :=
  if bars.length = 0 then none
  else do
    let values ← bars.mapM fun bar => do
      let logHl ← logRatio math bar.high bar.low
      let logCo ← logRatio math bar.close bar.openPrice
      return 0.5 * logHl ^ 2 - (2.0 * math.log 2.0 - 1) * logCo ^ 2
    return values.sum / bars.length

/-- `_rogers_satchell`. -/
def rogersSatchell (bars : List (OHLCBar K)) : Option K :=
  if bars.length = 0 then none
  else do
    let values ← bars.mapM fun bar => do
      let logHo ← logRatio math bar.high bar.openPrice
      let logHc ← logRatio math bar.high bar.close
      let logLo ← logRatio math bar.low bar.openPrice
      let logLc ← logRatio math bar.low bar.close
      return logHo * logHc + logLo * logLc
    return values.sum / bars.length

/-- `_yang_zhang`. -/
def yangZhang (bars : List (OHLCBar K)) : Option K :=
  if bars.length < 3 then none
  else do
    let overnightReturns ←
      (neighbours bars).mapM fun pair => logRatio math pair.2.openPrice pair.1.close
    let openCloseReturns ← bars.mapM fun bar => logRatio math bar.close bar.openPrice
    let rs ← rogersSatchell math bars
    let n : K := bars.length
    let overnightVar := sumOfSquares overnightReturns / (max (overnightReturns.length - 1) 1 : ℕ)
    let openCloseVar := sumOfSquares openCloseReturns / (max (openCloseReturns.length - 1) 1 : ℕ)
    let k := 0.34 / (1.34 + (n + 1) / (n - 1))
    return overnightVar + k * openCloseVar + (1 - k) * rs

def estimate (bars : List (OHLCBar K)) : HistoricalVolEstimator → Option K
  | .closeToClose => closeToClose math bars
  | .parkinson => parkinson math bars
  | .garmanKlass => garmanKlass math bars
  | .rogersSatchell => rogersSatchell math bars
  | .yangZhang => yangZhang math bars

/-- `timestamp.date()`, as a number of days. -/
def sessionDay (bar : OHLCBar K) : Int := bar.timestamp.wall / 86400000000

/-- The first bar that comes more than three days after the one before it. -/
def missingSession (sample : List (OHLCBar K)) : Option ℕ :=
  (neighbours sample).findIdx? (fun pair => 3 < sessionDay pair.2 - sessionDay pair.1) |>.map (· + 1)

def annualFactor : AnnualizationConvention → K
  | .tradingDays252 => 252.0
  | .calendarDays365 => 365.0

/-- The result for the bars of the window. -/
def estimated (sample : List (OHLCBar K)) (config : HistoricalVolatilityConfig) :
    HistoricalVolatilityResult K :=
  let warnings := if sample.any (!·.splitAdjusted) then ["non split-adjusted bars detected"] else []
  match estimate math sample config.estimator with
  | none =>
    { estimator := config.estimator
      annualizedVolatility := none
      observationsUsed := sample.length
      warnings := warnings ++ ["estimator produced no result"] }
  | some value =>
    if value < 0 then
      { estimator := config.estimator
        annualizedVolatility := none
        observationsUsed := sample.length
        warnings := warnings ++ ["negative variance estimate encountered"] }
    else
      { estimator := config.estimator
        annualizedVolatility := some (math.sqrt (value * annualFactor config.annualization))
        observationsUsed := sample.length
        warnings }

def calculate (bars : List (OHLCBar K)) (config : HistoricalVolatilityConfig) :
    HistoricalVolatilityResult K :=
  if config.lookbackWindow ≤ 1 then
    { estimator := config.estimator
      annualizedVolatility := none
      observationsUsed := 0
      warnings := ["lookback window must be greater than 1"] }
  else
    let ordered := sortBy OHLCBar.instant bars
    if (ordered.length : Int) < config.lookbackWindow then
      { estimator := config.estimator
        annualizedVolatility := none
        observationsUsed := ordered.length
        warnings := ["insufficient data for configured lookback window"] }
    else
      let sample := ordered.drop (ordered.length - config.lookbackWindow.toNat)
      match config.missingSessionPolicy, missingSession sample with
      | .strict, some index =>
        { estimator := config.estimator
          annualizedVolatility := none
          observationsUsed := index
          warnings := ["missing sessions exceed strict policy"] }
      | _, _ => estimated math sample config

end Estimators

noncomputable def realEstimators : EstimatorMath ℝ := ⟨Real.log, Real.sqrt⟩

/-! ### The unit of the prices -/

section Scale

variable {K : Type} [Mul K] {c : K} {bars : List (OHLCBar K)}

/-- The bar in another unit of price. -/
def scaleBar (c : K) (bar : OHLCBar K) : OHLCBar K where
  timestamp := bar.timestamp
  openPrice := c * bar.openPrice
  high := c * bar.high
  low := c * bar.low
  close := c * bar.close
  splitAdjusted := bar.splitAdjusted

omit [Mul K] in
theorem neighbours_map (f : OHLCBar K → OHLCBar K) :
    neighbours (bars.map f) = (neighbours bars).map (Prod.map f f) := by
  rw [neighbours, neighbours, ← List.map_tail, List.zip_map]

theorem missingSession_scale : missingSession (bars.map (scaleBar c)) = missingSession bars := by
  rw [missingSession, missingSession, neighbours_map, List.findIdx?_map]
  rfl

theorem sortBy_scale :
    sortBy OHLCBar.instant (bars.map (scaleBar c)) =
      (sortBy OHLCBar.instant bars).map (scaleBar c) :=
  (map_sortBy (scaleBar c) OHLCBar.instant bars).symm

end Scale

section Units

variable {K : Type} [Field K] [LinearOrder K] [IsStrictOrderedRing K] {math : EstimatorMath K}
  {c : K} {bars : List (OHLCBar K)}

theorem logRatio_scale (hc : 0 < c) (numerator denominator : K) :
    logRatio math (c * numerator) (c * denominator) = logRatio math numerator denominator := by
  have hsign : ∀ x, c * x ≤ 0 ↔ x ≤ 0 := fun x => by
    rw [← not_lt, ← not_lt, mul_pos_iff_of_pos_left hc]
  simp only [logRatio, hsign, mul_div_mul_left _ _ hc.ne']

theorem estimate_scale (hc : 0 < c) (estimator : HistoricalVolEstimator) :
    estimate math (bars.map (scaleBar c)) estimator = estimate math bars estimator := by
  cases estimator with
  | closeToClose =>
    simp only [estimate, closeToClose, neighbours_map, List.mapM_map, Function.comp_def, Prod.map,
      scaleBar, logRatio_scale hc]
  | parkinson =>
    simp only [estimate, parkinson, List.mapM_map, Function.comp_def, scaleBar, logRatio_scale hc,
      List.length_map]
  | garmanKlass =>
    simp only [estimate, garmanKlass, List.mapM_map, Function.comp_def, scaleBar,
      logRatio_scale hc, List.length_map]
  | rogersSatchell =>
    simp only [estimate, rogersSatchell, List.mapM_map, Function.comp_def, scaleBar,
      logRatio_scale hc, List.length_map]
  | yangZhang =>
    simp only [estimate, yangZhang, rogersSatchell, neighbours_map, List.mapM_map,
      Function.comp_def, Prod.map, scaleBar, logRatio_scale hc, List.length_map]

/-- The volatility does not depend on the unit that the prices are in. -/
theorem calculate_scale (math : EstimatorMath K) (bars : List (OHLCBar K)) (hc : 0 < c)
    (config : HistoricalVolatilityConfig) :
    calculate math (bars.map (scaleBar c)) config = calculate math bars config := by
  have hadjusted : ∀ sample : List (OHLCBar K),
      (sample.map (scaleBar c)).any (!·.splitAdjusted) = sample.any (!·.splitAdjusted) :=
    fun sample => List.any_map
  simp only [calculate, estimated, sortBy_scale, List.length_map, ← List.map_drop,
    missingSession_scale, hadjusted, estimate_scale hc]

omit [Field K] [IsStrictOrderedRing K] [LinearOrder K] in
theorem drop_recent {older recent : List (OHLCBar K)} {w : ℕ} (hw : w ≤ recent.length) :
    (older ++ recent).drop ((older ++ recent).length - w) = recent.drop (recent.length - w) := by
  have hlength : (older ++ recent).length - w = older.length + (recent.length - w) := by
    rw [List.length_append]
    omega
  rw [hlength, List.drop_length_add_append]

omit [Field K] [IsStrictOrderedRing K] [LinearOrder K] in
/-- Bars that are older come first, in whatever order they are given. -/
theorem exists_sortBy_recent {bars' older : List (OHLCBar K)} (hperm : bars'.Perm (older ++ bars))
    (holder : ∀ o ∈ older, ∀ bar ∈ bars, o.instant < bar.instant)
    (hdistinct : (bars.map OHLCBar.instant).Nodup) :
    ∃ front, sortBy OHLCBar.instant bars' = front ++ sortBy OHLCBar.instant bars := by
  -- the older bars are those before all of the others
  let earlier : OHLCBar K → Bool := fun o => bars.all fun bar => decide (o.instant < bar.instant)
  have hearlier : ∀ o ∈ older, earlier o = true := fun o ho =>
    List.all_eq_true.mpr fun bar hbar => decide_eq_true (holder o ho bar hbar)
  have hlater : ∀ bar ∈ bars, earlier bar = false := fun bar hbar =>
    List.all_eq_false.mpr ⟨bar, hbar, by simp⟩
  have hrest : (bars'.filter (!earlier ·)).Perm bars := by
    have hold : older.filter (!earlier ·) = [] :=
      List.filter_eq_nil_iff.mpr fun o ho => by simp [hearlier o ho]
    have hnew : bars.filter (!earlier ·) = bars :=
      List.filter_eq_self.mpr fun bar hbar => by simp [hlater bar hbar]
    have hfilter := hperm.filter (!earlier ·)
    rwa [List.filter_append, hold, hnew, List.nil_append] at hfilter
  have hsplit : sortBy OHLCBar.instant bars' =
      sortBy OHLCBar.instant (bars'.filter earlier) ++
        sortBy OHLCBar.instant (bars'.filter (!earlier ·)) := by
    apply sortBy_eq_append
    intro a ha b hb hpa hpb
    have hmem : b ∈ bars := hrest.mem_iff.mp (List.mem_filter.mpr ⟨hb, by simp [hpb]⟩)
    exact of_decide_eq_true (List.all_eq_true.mp hpa b hmem)
  have hsame : sortBy OHLCBar.instant (bars'.filter (!earlier ·)) =
      sortBy OHLCBar.instant bars := by
    apply sortBy_eq_of_perm ?_ hrest
    intro a ha b hb h
    exact List.inj_on_of_nodup_map hdistinct (hrest.mem_iff.mp ha) (hrest.mem_iff.mp hb) h
  rw [hsame] at hsplit
  exact ⟨_, hsplit⟩

end Units

/-- A bar of one price at midnight of a day. -/
def flatBar {K : Type} (day : Int) (price : K) : OHLCBar K where
  timestamp := ⟨day * 86400000000, none⟩
  openPrice := price
  high := price
  low := price
  close := price

section Consistent

/-- The bar's prices are positive and within its range. -/
structure Consistent (bar : OHLCBar ℝ) : Prop where
  low_pos : 0 < bar.low
  low_le_open : bar.low ≤ bar.openPrice
  open_le_high : bar.openPrice ≤ bar.high
  low_le_close : bar.low ≤ bar.close
  close_le_high : bar.close ≤ bar.high

namespace Consistent

variable {bar : OHLCBar ℝ} (h : Consistent bar)
include h

theorem open_pos : 0 < bar.openPrice := h.low_pos.trans_le h.low_le_open

theorem close_pos : 0 < bar.close := h.low_pos.trans_le h.low_le_close

theorem high_pos : 0 < bar.high := h.close_pos.trans_le h.close_le_high

end Consistent

theorem logRatio_eq {numerator denominator : ℝ} (hnumerator : 0 < numerator)
    (hdenominator : 0 < denominator) :
    logRatio realEstimators numerator denominator =
      some (Real.log numerator - Real.log denominator) := by
  rw [logRatio, if_neg (by rw [not_or, not_le, not_le]; exact ⟨hnumerator, hdenominator⟩),
    ← Real.log_div hnumerator.ne' hdenominator.ne']
  rfl

theorem exists_mapM {α β : Type} {f : α → Option β} (P : β → Prop) {items : List α}
    (h : ∀ item ∈ items, ∃ value, f item = some value ∧ P value) :
    ∃ values, items.mapM f = some values ∧ values.length = items.length ∧
      ∀ value ∈ values, P value := by
  induction items with
  | nil => exact ⟨[], rfl, rfl, fun value hmem => absurd hmem List.not_mem_nil⟩
  | cons item rest ih =>
    obtain ⟨value, hvalue, hp⟩ := h item List.mem_cons_self
    obtain ⟨values, hvalues, hlength, hall⟩ :=
      ih fun other hmem => h other (List.mem_cons_of_mem _ hmem)
    refine ⟨value :: values, ?_, by rw [List.length_cons, List.length_cons, hlength], ?_⟩
    · rw [List.mapM_cons, hvalue, hvalues]
      rfl
    · exact List.forall_mem_cons.mpr ⟨hp, hall⟩

theorem sumOfSquares_nonneg (values : List ℝ) : 0 ≤ sumOfSquares values :=
  List.sum_nonneg (List.forall_mem_map.mpr fun _ _ => sq_nonneg _)

variable {bars : List (OHLCBar ℝ)} (hbars : ∀ bar ∈ bars, Consistent bar)

theorem mem_of_mem_neighbours {pair : OHLCBar ℝ × OHLCBar ℝ} (h : pair ∈ neighbours bars) :
    pair.1 ∈ bars ∧ pair.2 ∈ bars := by
  obtain ⟨hfirst, hsecond⟩ := List.of_mem_zip h
  exact ⟨hfirst, List.mem_of_mem_tail hsecond⟩

theorem length_neighbours : (neighbours bars).length = bars.length - 1 := by
  rw [neighbours, List.length_zip, List.length_tail]
  omega

include hbars

/-- The logs of the prices of a bar are within those of its range. -/
theorem log_bounds {bar : OHLCBar ℝ} (hmem : bar ∈ bars) :
    Real.log bar.low ≤ Real.log bar.openPrice ∧ Real.log bar.openPrice ≤ Real.log bar.high ∧
      Real.log bar.low ≤ Real.log bar.close ∧ Real.log bar.close ≤ Real.log bar.high := by
  have h := hbars bar hmem
  exact ⟨Real.log_le_log h.low_pos h.low_le_open, Real.log_le_log h.open_pos h.open_le_high,
    Real.log_le_log h.low_pos h.low_le_close, Real.log_le_log h.close_pos h.close_le_high⟩

theorem closeToClose_nonneg (hlength : 3 ≤ bars.length) :
    ∃ value, closeToClose realEstimators bars = some value ∧ 0 ≤ value := by
  obtain ⟨returns, hreturns, hcount, -⟩ : ∃ returns, (neighbours bars).mapM
      (fun pair => logRatio realEstimators pair.2.close pair.1.close) = some returns ∧
      returns.length = (neighbours bars).length ∧ ∀ value ∈ returns, True :=
    exists_mapM (fun _ => True) fun pair hmem => by
      obtain ⟨hfirst, hsecond⟩ := mem_of_mem_neighbours hmem
      exact ⟨_, logRatio_eq (hbars _ hsecond).close_pos (hbars _ hfirst).close_pos, trivial⟩
  rw [length_neighbours] at hcount
  have hmany : ¬ returns.length < 2 := by omega
  have hdivisor : (0 : ℝ) ≤ returns.length - 1 := by
    have hcast : (1 : ℝ) ≤ returns.length := Nat.one_le_cast.mpr (by omega)
    linarith
  refine ⟨sumOfSquares returns / (returns.length - 1), ?_,
    div_nonneg (sumOfSquares_nonneg returns) hdivisor⟩
  rw [closeToClose, hreturns]
  exact if_neg hmany

theorem parkinson_nonneg (hne : bars.length ≠ 0) :
    ∃ value, parkinson realEstimators bars = some value ∧ 0 ≤ value := by
  obtain ⟨values, hvalues, -, hnonneg⟩ : ∃ values, bars.mapM (fun bar => do
        let value ← logRatio realEstimators bar.high bar.low
        return value * value) = some values ∧
      values.length = bars.length ∧ ∀ value ∈ values, 0 ≤ value :=
    exists_mapM (fun value => 0 ≤ value) fun bar hmem => by
      have h := hbars bar hmem
      rw [logRatio_eq h.high_pos h.low_pos]
      exact ⟨_, rfl, mul_self_nonneg _⟩
  have hlog : 0 ≤ realEstimators.log 2.0 := Real.log_nonneg (by norm_num)
  refine ⟨values.sum / (4.0 * bars.length * realEstimators.log 2.0), ?_,
    div_nonneg (List.sum_nonneg hnonneg) (by positivity)⟩
  rw [parkinson, if_neg hne, hvalues]
  rfl

theorem garmanKlass_nonneg (hne : bars.length ≠ 0) :
    ∃ value, garmanKlass realEstimators bars = some value ∧ 0 ≤ value := by
  obtain ⟨values, hvalues, -, hnonneg⟩ : ∃ values, bars.mapM (fun bar => do
        let logHl ← logRatio realEstimators bar.high bar.low
        let logCo ← logRatio realEstimators bar.close bar.openPrice
        return 0.5 * logHl ^ 2 - (2.0 * realEstimators.log 2.0 - 1) * logCo ^ 2) = some values ∧
      values.length = bars.length ∧ ∀ value ∈ values, 0 ≤ value := by
    apply exists_mapM (fun value => 0 ≤ value)
    intro bar hmem
    have h := hbars bar hmem
    obtain ⟨hlowOpen, hopenHigh, hlowClose, hcloseHigh⟩ := log_bounds hbars hmem
    rw [logRatio_eq h.high_pos h.low_pos, logRatio_eq h.close_pos h.open_pos]
    refine ⟨_, rfl, ?_⟩
    -- the range is at least the way from the open to the close, and `2 log 2 - 1` is below a half
    have hrange : (Real.log bar.close - Real.log bar.openPrice) ^ 2 ≤
        (Real.log bar.high - Real.log bar.low) ^ 2 :=
      sq_le_sq' (by linarith) (by linarith)
    have hlog : realEstimators.log 2.0 < 0.75 := by
      have htwo : (2.0 : ℝ) = 2 := by norm_num
      rw [htwo]
      exact Real.log_two_lt_d9.trans (by norm_num)
    have hsquare := sq_nonneg (Real.log bar.close - Real.log bar.openPrice)
    norm_num at hlog ⊢
    nlinarith
  refine ⟨values.sum / bars.length, ?_, div_nonneg (List.sum_nonneg hnonneg) (Nat.cast_nonneg _)⟩
  rw [garmanKlass, if_neg hne, hvalues]
  rfl

theorem rogersSatchell_nonneg (hne : bars.length ≠ 0) :
    ∃ value, rogersSatchell realEstimators bars = some value ∧ 0 ≤ value := by
  obtain ⟨values, hvalues, -, hnonneg⟩ : ∃ values, bars.mapM (fun bar => do
        let logHo ← logRatio realEstimators bar.high bar.openPrice
        let logHc ← logRatio realEstimators bar.high bar.close
        let logLo ← logRatio realEstimators bar.low bar.openPrice
        let logLc ← logRatio realEstimators bar.low bar.close
        return logHo * logHc + logLo * logLc) = some values ∧
      values.length = bars.length ∧ ∀ value ∈ values, 0 ≤ value := by
    apply exists_mapM (fun value => 0 ≤ value)
    intro bar hmem
    have h := hbars bar hmem
    obtain ⟨hlowOpen, hopenHigh, hlowClose, hcloseHigh⟩ := log_bounds hbars hmem
    rw [logRatio_eq h.high_pos h.open_pos, logRatio_eq h.high_pos h.close_pos,
      logRatio_eq h.low_pos h.open_pos, logRatio_eq h.low_pos h.close_pos]
    refine ⟨_, rfl, add_nonneg ?_ ?_⟩
    · exact mul_nonneg (sub_nonneg.mpr hopenHigh) (sub_nonneg.mpr hcloseHigh)
    · exact mul_nonneg_of_nonpos_of_nonpos (sub_nonpos.mpr hlowOpen) (sub_nonpos.mpr hlowClose)
  refine ⟨values.sum / bars.length, ?_, div_nonneg (List.sum_nonneg hnonneg) (Nat.cast_nonneg _)⟩
  rw [rogersSatchell, if_neg hne, hvalues]
  rfl

theorem yangZhang_nonneg (hlength : 3 ≤ bars.length) :
    ∃ value, yangZhang realEstimators bars = some value ∧ 0 ≤ value := by
  obtain ⟨overnight, hovernight, -⟩ : ∃ returns, (neighbours bars).mapM
      (fun pair => logRatio realEstimators pair.2.openPrice pair.1.close) = some returns ∧
      returns.length = (neighbours bars).length ∧ ∀ value ∈ returns, True :=
    exists_mapM (fun _ => True) fun pair hmem => by
      obtain ⟨hfirst, hsecond⟩ := mem_of_mem_neighbours hmem
      exact ⟨_, logRatio_eq (hbars _ hsecond).open_pos (hbars _ hfirst).close_pos, trivial⟩
  obtain ⟨openClose, hopenClose, -⟩ : ∃ returns, bars.mapM
      (fun bar => logRatio realEstimators bar.close bar.openPrice) = some returns ∧
      returns.length = bars.length ∧ ∀ value ∈ returns, True :=
    exists_mapM (fun _ => True) fun bar hmem =>
      ⟨_, logRatio_eq (hbars bar hmem).close_pos (hbars bar hmem).open_pos, trivial⟩
  obtain ⟨rs, hrs, hrsNonneg⟩ := rogersSatchell_nonneg hbars (by omega)
  have hn : (3 : ℝ) ≤ bars.length := Nat.ofNat_le_cast.mpr hlength
  have hratio : 0 ≤ ((bars.length : ℝ) + 1) / (bars.length - 1) :=
    div_nonneg (by linarith) (by linarith)
  -- the weight of the way from open to close is between 0 and 1
  obtain ⟨k, hk⟩ : ∃ k : ℝ, 0.34 / (1.34 + ((bars.length : ℝ) + 1) / (bars.length - 1)) = k :=
    ⟨_, rfl⟩
  have hweight : 0 ≤ k := hk ▸ by positivity
  have hweight' : k ≤ 1 := by
    rw [← hk, div_le_one (by positivity)]
    norm_num
    linarith
  have hvalue : yangZhang realEstimators bars =
      some (sumOfSquares overnight / (max (overnight.length - 1) 1 : ℕ) +
        k * (sumOfSquares openClose / (max (openClose.length - 1) 1 : ℕ)) + (1 - k) * rs) := by
    rw [yangZhang, if_neg (by omega), hovernight, hopenClose, hrs, ← hk]
    rfl
  refine ⟨_, hvalue, add_nonneg (add_nonneg ?_ (mul_nonneg hweight ?_))
    (mul_nonneg (sub_nonneg.mpr hweight') hrsNonneg)⟩
  · exact div_nonneg (sumOfSquares_nonneg _) (Nat.cast_nonneg _)
  · exact div_nonneg (sumOfSquares_nonneg _) (Nat.cast_nonneg _)

theorem estimate_nonneg (hlength : 3 ≤ bars.length) (estimator : HistoricalVolEstimator) :
    ∃ value, estimate realEstimators bars estimator = some value ∧ 0 ≤ value := by
  cases estimator with
  | closeToClose => exact closeToClose_nonneg hbars hlength
  | parkinson => exact parkinson_nonneg hbars (by omega)
  | garmanKlass => exact garmanKlass_nonneg hbars (by omega)
  | rogersSatchell => exact rogersSatchell_nonneg hbars (by omega)
  | yangZhang => exact yangZhang_nonneg hbars hlength

omit hbars in
/-- The bars that the volatility is taken of. -/
def recentBars (bars : List (OHLCBar ℝ)) (config : HistoricalVolatilityConfig) :
    List (OHLCBar ℝ) :=
  let ordered := sortBy OHLCBar.instant bars
  ordered.drop (ordered.length - config.lookbackWindow.toNat)

end Consistent

end HistoricalVolatilityCalculator
end OptionResearch
