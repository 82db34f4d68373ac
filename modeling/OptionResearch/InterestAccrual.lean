import Mathlib.Data.List.MinMax
import OptionResearch.RoundedNumbers
import OptionResearch.PartialEffects
import OptionResearch.PortfolioAccounts
import OptionResearch.StableSort

/-!
# Interest

`InterestAccrualEngine` of `portfolio/interest.py`. The rate is that of the policy, of a tier, or of
the latest benchmark point, whenever that is; above all tiers it is that of the tier listed last.
-/

namespace OptionResearch

inductive DayCountConvention where
  | calendar
  | business
  deriving DecidableEq, Repr

def DayCountConvention.value : DayCountConvention → String
  | .calendar => "calendar"
  | .business => "business"

inductive InterestRateMode where
  | fixed
  | benchmarkPlusSpread
  | tiered
  deriving DecidableEq, Repr

structure InterestPolicy where
  mode : InterestRateMode
  positiveCashRate : ℚ := 0
  marginDebitRate : ℚ := 0
  benchmarkName : Option String := none
  benchmarkSpread : ℚ := 0
  tieredRates : List (ℚ × ℚ) := []
  dayCountConvention : DayCountConvention := .calendar
  dailyCompounding : Bool := false

structure InterestRatePoint where
  effectiveTimestamp : DateTime
  annualRate : ℚ
  sourceCurve : String
  deriving DecidableEq

structure InterestAccrual where
  accrualId : String
  accrualTimestamp : DateTime
  balanceBasis : ℚ
  annualRate : ℚ
  accruedAmount : ℚ
  isDebit : Bool
  sourceCurve : String
  assumptions : Payload

/-- The arguments of `accrue`. -/
structure AccrualCall where
  accrualId : String
  policy : InterestPolicy
  configuration : AccountConfiguration
  balance : ℚ
  startTimestamp : DateTime
  endTimestamp : DateTime
  benchmarkRates : List InterestRatePoint := []

namespace InterestPolicy

variable (policy : InterestPolicy) (balance : ℚ)

/-- The rate of the policy itself. -/
def ownRate : ℚ := if balance < 0 then policy.marginDebitRate else policy.positiveCashRate

/-- The rate of the first tier, in the order of the thresholds, that the balance is within, or of
the tier that is listed last. -/
def tierRate : ℚ :=
  match (StableSort.sortBy Prod.fst policy.tieredRates).find? fun tier => |balance| ≤ tier.1 with
  | some tier => tier.2
  | none => (policy.tieredRates.getLast?.map Prod.snd).getD 0

/-- The rate over a benchmark. -/
def benchmarkRate (latest : InterestRatePoint) : ℚ :=
  let base := latest.annualRate + policy.benchmarkSpread
  if balance < 0 then
    if 0 < policy.marginDebitRate then max base policy.marginDebitRate else base
  else if 0 < policy.positiveCashRate then max base policy.positiveCashRate
  else base

/-- The source where there is no benchmark point. -/
def missingSource : String :=
  match policy.benchmarkName with
  | some name => if name = "" then "benchmark_missing_fallback" else name
  | none => "benchmark_missing_fallback"

end InterestPolicy

/-- The timestamps are either all naive or all aware. -/
def AlikeAware (points : List InterestRatePoint) : Prop :=
  ∀ point ∈ points, ∀ other ∈ points,
    point.effectiveTimestamp.utcoffset.isSome = other.effectiveTimestamp.utcoffset.isSome

instance (points : List InterestRatePoint) : Decidable (AlikeAware points) :=
  inferInstanceAs (Decidable (∀ point ∈ points, ∀ other ∈ points, _))

section Max

variable {α β : Type*} [LinearOrder β] {key : α → β} {items : List α} {item : α}

/-- `max(items, key=..., default=None)`: the first item of the largest key. -/
def firstMax (key : α → β) (items : List α) : Option α := items.argmax key

theorem firstMax_eq_none_iff : firstMax key items = none ↔ items = [] := List.argmax_eq_none

theorem mem_of_firstMax (h : firstMax key items = some item) : item ∈ items := List.argmax_mem h

theorem firstMax_concat_of_lt {found : α} (h : firstMax key items = some found)
    (hlt : key found < key item) : firstMax key (items ++ [item]) = some item := by
  rw [firstMax] at h ⊢
  rw [List.argmax_concat, h]
  exact if_pos hlt

theorem firstMax_eq_of_perm {others : List α} (hperm : others.Perm items)
    (hdistinct : (items.map key).Nodup) : firstMax key others = firstMax key items := by
  rcases hitems : firstMax key items with _ | item
  · rw [firstMax_eq_none_iff] at hitems ⊢
    rw [hitems] at hperm
    exact hperm.eq_nil
  · rcases hothers : firstMax key others with _ | other
    · rw [firstMax_eq_none_iff.mp hothers] at hperm
      rw [hperm.symm.eq_nil] at hitems
      cases hitems
    · have hitem : item ∈ items := mem_of_firstMax hitems
      have hother : other ∈ items := hperm.mem_iff.mp (mem_of_firstMax hothers)
      have heq : key other = key item := le_antisymm (List.le_of_mem_argmax hother hitems)
        (List.le_of_mem_argmax (hperm.mem_iff.mpr hitem) hothers)
      rw [List.inj_on_of_nodup_map hdistinct hother hitem heq]

end Max

/-- `max(benchmark_rates, key=..., default=None)`: the first of the latest points. -/
def latestPoint (points : List InterestRatePoint) : Except Exc (Option InterestRatePoint) :=
  if AlikeAware points then
    .ok (@firstMax _ Int Int.instLinearOrder (fun point => point.effectiveTimestamp.instant) points)
  else .error ⟨.typeError, "can't compare offset-naive and offset-aware datetimes"⟩

namespace InterestAccrualEngine

-- `x ** y` of floats, with its errors
variable (power : ℚ → ℚ → Except Exc ℚ)

/-- `_rate`. -/
def rate (policy : InterestPolicy) (balance : ℚ) (benchmarkRates : List InterestRatePoint) :
    Except Exc (ℚ × String) :=
  if policy.mode = .fixed then .ok (policy.ownRate balance, "fixed_policy")
  else if policy.mode = .tiered ∧ policy.tieredRates ≠ [] then
    .ok (policy.tierRate balance, "tiered_policy")
  else do
    match ← latestPoint benchmarkRates with
    | none => return (policy.ownRate balance, policy.missingSource)
    | some latest => return (policy.benchmarkRate balance latest, latest.sourceCurve)

variable (call : AccrualCall)

def elapsedDays : ℚ :=
  max 0 (((call.endTimestamp.instant - call.startTimestamp.instant : Int) : ℚ) / 86400000000)

def divisor : ℚ := if call.policy.dayCountConvention = .calendar then 365 else 252

/-- What accrues at a rate, before it is rounded. -/
def accrued (annualRate : ℚ) : Except Exc ℚ :=
  let basis := |call.balance|
  let days := elapsedDays call
  if call.policy.dailyCompounding then do
    return basis * ((← power (1 + annualRate / divisor call) days) - 1)
  else return basis * annualRate * (days / divisor call)

/-- The rate and the amount that are reported. -/
def figures (annualRate : ℚ) : Except Exc (ℚ × ℚ) := do
  let accrued ← accrued power call annualRate
  let signed := if call.balance < 0 then -accrued else accrued
  return (roundTo annualRate 10, roundTo signed 8)

/-- The accrual with its figures. -/
def report (sourceCurve : String) (figures : ℚ × ℚ) : InterestAccrual where
  accrualId := call.accrualId
  accrualTimestamp := call.endTimestamp.ensureAware
  balanceBasis := roundTo call.balance 8
  annualRate := figures.1
  accruedAmount := figures.2
  isDebit := call.balance < 0
  sourceCurve
  assumptions := [("account_id", .str call.configuration.accountId),
    ("day_count_convention", .str call.policy.dayCountConvention.value),
    ("elapsed_days", .float (elapsedDays call)),
    ("daily_compounding", .bool call.policy.dailyCompounding)]

/-- `accrue`. -/
def accrue : Except Exc InterestAccrual := do
  let (annualRate, sourceCurve) ← rate call.policy call.balance call.benchmarkRates
  return report call sourceCurve (← figures power call annualRate)

/-! ### Unknown points and other orders -/

/-- The points that are effective by the time. -/
def knownBy (time : DateTime) (points : List InterestRatePoint) : List InterestRatePoint :=
  points.filter fun point => point.effectiveTimestamp ≤ time

/-- Points after the end of the period, and the orders in which points and tiers are listed, change
nothing. -/
structure Settled : Prop where
  later : ∀ others, knownBy call.endTimestamp others =
    knownBy call.endTimestamp call.benchmarkRates →
      accrue power { call with benchmarkRates := others } = accrue power call
  points : ∀ others, others.Perm call.benchmarkRates →
    accrue power { call with benchmarkRates := others } = accrue power call
  tiers : ∀ others, others.Perm call.policy.tieredRates →
    accrue power { call with policy := { call.policy with tieredRates := others } } =
      accrue power call

section Rates

variable {power : ℚ → ℚ → Except Exc ℚ} {call : AccrualCall} {result : InterestAccrual}

theorem latestPoint_perm {points others : List InterestRatePoint} (hperm : others.Perm points)
    (hdistinct : (points.map (·.effectiveTimestamp.instant)).Nodup) :
    latestPoint others = latestPoint points := by
  have halike : AlikeAware others ↔ AlikeAware points := by
    simp only [AlikeAware, hperm.mem_iff]
  simp only [latestPoint, halike, firstMax_eq_of_perm hperm hdistinct]

/-- A point that is later than the time and than all points is the latest. -/
theorem exists_later_point {points : List InterestRatePoint} (halike : AlikeAware points)
    (time : DateTime) (source : String) :
    ∃ point : InterestRatePoint, time < point.effectiveTimestamp ∧ point.sourceCurve = source ∧
      latestPoint (points ++ [point]) = .ok (some point) := by
  rcases hlatest : @firstMax _ Int Int.instLinearOrder
      (fun point : InterestRatePoint => point.effectiveTimestamp.instant) points with _ | latest
  · obtain rfl := firstMax_eq_none_iff.mp hlatest
    refine ⟨⟨time.addDays 1, 0, source⟩, ?_, rfl, ?_⟩
    · simp only [DateTime.lt_iff, DateTime.instant_addDays]
      omega
    · simp only [latestPoint, AlikeAware, List.nil_append, List.forall_mem_singleton, if_true]
      rfl
  · let bound := max time.instant latest.effectiveTimestamp.instant
    let offset := latest.effectiveTimestamp.utcoffset
    let point : InterestRatePoint := ⟨⟨bound + 1 + offset.getD 0, offset⟩, 0, source⟩
    have hinstant : point.effectiveTimestamp.instant = bound + 1 := by
      simp only [point, DateTime.instant]
      omega
    refine ⟨point, ?_, rfl, ?_⟩
    · rw [DateTime.lt_iff, hinstant]
      omega
    · have hoffset : ∀ other ∈ points ++ [point],
          other.effectiveTimestamp.utcoffset.isSome = offset.isSome := by
        intro other hother
        rcases List.mem_append.mp hother with hmem | hnew
        · exact halike other hmem latest (mem_of_firstMax hlatest)
        · rw [List.mem_singleton.mp hnew]
      have halike' : AlikeAware (points ++ [point]) := fun first hfirst second hsecond =>
        (hoffset first hfirst).trans (hoffset second hsecond).symm
      have hlt : latest.effectiveTimestamp.instant < point.effectiveTimestamp.instant := by
        rw [hinstant]
        omega
      rw [latestPoint, if_pos halike', firstMax_concat_of_lt hlatest hlt]

theorem tierRate_eq_of_within {policy : InterestPolicy} {balance : ℚ} {others : List (ℚ × ℚ)}
    (hperm : others.Perm policy.tieredRates) (hdistinct : (policy.tieredRates.map Prod.fst).Nodup)
    (hwithin : ∃ tier ∈ policy.tieredRates, |balance| ≤ tier.1) :
    { policy with tieredRates := others }.tierRate balance = policy.tierRate balance := by
  have hsort : StableSort.sortBy Prod.fst others =
      StableSort.sortBy Prod.fst policy.tieredRates :=
    StableSort.sortBy_eq_of_perm
      (fun _ ha _ hb => List.inj_on_of_nodup_map hdistinct (hperm.mem_iff.mp ha)
        (hperm.mem_iff.mp hb)) hperm
  obtain ⟨tier, hmem, hle⟩ := hwithin
  have hfound : ((StableSort.sortBy Prod.fst policy.tieredRates).find?
      fun tier => |balance| ≤ tier.1).isSome :=
    List.find?_isSome.mpr ⟨tier, StableSort.mem_sortBy.mpr hmem, decide_eq_true hle⟩
  obtain ⟨found, hfound⟩ := Option.isSome_iff_exists.mp hfound
  simp only [InterestPolicy.tierRate, hsort, hfound]

theorem tierRate_of_above {policy : InterestPolicy} {balance : ℚ}
    (habove : ¬ ∃ tier ∈ policy.tieredRates, |balance| ≤ tier.1) :
    policy.tierRate balance = (policy.tieredRates.getLast?.map Prod.snd).getD 0 := by
  have hnone : (StableSort.sortBy Prod.fst policy.tieredRates).find?
      (fun tier => |balance| ≤ tier.1) = none := by
    rw [List.find?_eq_none]
    intro tier hmem hle
    exact habove ⟨tier, StableSort.mem_sortBy.mp hmem, of_decide_eq_true hle⟩
  simp only [InterestPolicy.tierRate, hnone]

theorem exists_tierRate {policy : InterestPolicy} (htiers : policy.tieredRates ≠ [])
    (balance : ℚ) : ∃ tier ∈ policy.tieredRates, policy.tierRate balance = tier.2 := by
  rcases hfound : (StableSort.sortBy Prod.fst policy.tieredRates).find?
      fun tier => |balance| ≤ tier.1 with _ | tier
  · refine ⟨policy.tieredRates.getLast htiers, List.getLast_mem htiers, ?_⟩
    simp only [InterestPolicy.tierRate, hfound, List.getLast?_eq_some_getLast htiers,
      Option.map_some, Option.getD_some]
  · refine ⟨tier, StableSort.mem_sortBy.mp (List.mem_of_find?_eq_some hfound), ?_⟩
    simp only [InterestPolicy.tierRate, hfound]

theorem accrue_of_tiered (hmode : call.policy.mode = .tiered)
    (htiers : call.policy.tieredRates ≠ []) :
    accrue power call = (figures power call (call.policy.tierRate call.balance)).map
      (report call "tiered_policy") := by
  have hrate : rate call.policy call.balance call.benchmarkRates =
      .ok (call.policy.tierRate call.balance, "tiered_policy") := by
    rw [rate, if_neg (by rw [hmode]; decide), if_pos ⟨hmode, htiers⟩]
  rw [accrue, hrate]
  rfl

theorem accrue_of_latest {latest : InterestRatePoint}
    (hpolicy : ¬ (call.policy.mode = .fixed ∨
      call.policy.mode = .tiered ∧ call.policy.tieredRates ≠ []))
    (hlatest : latestPoint call.benchmarkRates = .ok (some latest)) :
    accrue power call = (figures power call (call.policy.benchmarkRate call.balance latest)).map
      (report call latest.sourceCurve) := by
  obtain ⟨hfixed, htiered⟩ := not_or.mp hpolicy
  have hrate : rate call.policy call.balance call.benchmarkRates =
      .ok (call.policy.benchmarkRate call.balance latest, latest.sourceCurve) := by
    rw [rate, if_neg hfixed, if_neg htiered, hlatest]
    rfl
  rw [accrue, hrate]
  rfl

/-- Where no rate is taken from a benchmark, points change nothing. -/
theorem accrue_benchmarkRates
    (hpolicy : call.policy.mode = .fixed ∨
      call.policy.mode = .tiered ∧ call.policy.tieredRates ≠ [])
    (others : List InterestRatePoint) :
    accrue power { call with benchmarkRates := others } = accrue power call := by
  have hrate : rate call.policy call.balance others =
      rate call.policy call.balance call.benchmarkRates := by
    by_cases hfixed : call.policy.mode = .fixed
    · simp only [rate, if_pos hfixed]
    · simp only [rate, if_neg hfixed, if_pos (hpolicy.resolve_left hfixed)]
  simp only [accrue, hrate]
  rfl

theorem accrue_points (hdistinct : (call.benchmarkRates.map (·.effectiveTimestamp.instant)).Nodup)
    {others : List InterestRatePoint} (hperm : others.Perm call.benchmarkRates) :
    accrue power { call with benchmarkRates := others } = accrue power call := by
  have hrate : rate call.policy call.balance others =
      rate call.policy call.balance call.benchmarkRates := by
    simp only [rate, latestPoint_perm hperm hdistinct]
  simp only [accrue, hrate]
  rfl

/-- Where a benchmark is consulted, a later point gives its source to the accrual. -/
theorem not_later (hrun : accrue power call = .ok result)
    (hpolicy : ¬ (call.policy.mode = .fixed ∨
      call.policy.mode = .tiered ∧ call.policy.tieredRates ≠ [])) :
    ¬ Settled power call := by
  intro hsettled
  obtain ⟨hfixed, htiered⟩ := not_or.mp hpolicy
  have halike : AlikeAware call.benchmarkRates := by
    by_contra hmixed
    rw [accrue, rate, if_neg hfixed, if_neg htiered, latestPoint, if_neg hmixed] at hrun
    cases hrun
  obtain ⟨point, hlater, hsource, hlatest⟩ :=
    exists_later_point halike call.endTimestamp (result.sourceCurve ++ "'")
  have hknown : knownBy call.endTimestamp (call.benchmarkRates ++ [point]) =
      knownBy call.endTimestamp call.benchmarkRates := by
    rw [knownBy, List.filter_append, List.filter_cons_of_neg
      (by simpa only [decide_eq_true_eq, DateTime.not_le_iff] using hlater), List.filter_nil,
      List.append_nil, knownBy]
  have hrun' := hsettled.later _ hknown
  have hextended := @accrue_of_latest power
    { call with benchmarkRates := call.benchmarkRates ++ [point] } point hpolicy hlatest
  rw [hrun, hextended] at hrun'
  obtain ⟨found, -, hfound⟩ := except_map_eq_ok.mp hrun'
  have hlength := congrArg (fun accrual => accrual.sourceCurve.length) hfound
  simp only [report, hsource, String.length_append] at hlength
  exact absurd hlength (Nat.ne_of_gt (Nat.lt_add_of_pos_right (by decide)))

theorem report_injective (sourceCurve : String) :
    Function.Injective (report call sourceCurve) := by
  intro first second heq
  exact Prod.ext (congrArg InterestAccrual.annualRate heq)
    (congrArg InterestAccrual.accruedAmount heq)

theorem tiers_iff (hrun : accrue power call = .ok result) (hmode : call.policy.mode = .tiered)
    (htiers : call.policy.tieredRates ≠ [])
    (hdistinct : (call.policy.tieredRates.map Prod.fst).Nodup) :
    (∀ others, others.Perm call.policy.tieredRates →
      accrue power { call with policy := { call.policy with tieredRates := others } } =
        accrue power call) ↔
      (∃ tier ∈ call.policy.tieredRates, |call.balance| ≤ tier.1) ∨
        ∀ tier ∈ call.policy.tieredRates, ∀ other ∈ call.policy.tieredRates,
          figures power call tier.2 = figures power call other.2 := by
  have hreordered : ∀ others, others.Perm call.policy.tieredRates →
      accrue power { call with policy := { call.policy with tieredRates := others } } =
        (figures power call ({ call.policy with tieredRates := others }.tierRate
          call.balance)).map (report call "tiered_policy") := fun others hperm =>
    accrue_of_tiered hmode fun (hnil : others = []) => htiers (hnil ▸ hperm).symm.eq_nil
  constructor
  · intro hsame
    refine or_iff_not_imp_left.mpr fun habove => ?_
    have hlast : ∀ tier ∈ call.policy.tieredRates,
        (figures power call tier.2).map (report call "tiered_policy") = .ok result := by
      intro tier hmem
      have hperm : (call.policy.tieredRates.erase tier ++ [tier]).Perm call.policy.tieredRates :=
        (List.perm_append_singleton _ _).trans (List.perm_cons_erase hmem).symm
      rw [← hrun, ← hsame _ hperm, hreordered _ hperm, tierRate_of_above, List.getLast?_concat]
      · rfl
      · rintro ⟨other, hother, hle⟩
        exact habove ⟨other, hperm.mem_iff.mp hother, hle⟩
    intro tier htier other hother
    obtain ⟨first, hfirst, heq⟩ := except_map_eq_ok.mp (hlast tier htier)
    obtain ⟨second, hsecond, heq'⟩ := except_map_eq_ok.mp (hlast other hother)
    rw [hfirst, hsecond, report_injective _ (heq.trans heq'.symm)]
  · rintro (hwithin | halike) others hperm
    · rw [hreordered others hperm, accrue_of_tiered hmode htiers,
        tierRate_eq_of_within hperm hdistinct hwithin]
    · obtain ⟨tier, htier, hrate⟩ := exists_tierRate htiers call.balance
      obtain ⟨other, hother, hrate'⟩ := @exists_tierRate
        { call.policy with tieredRates := others }
        (fun (hnil : others = []) => htiers (hnil ▸ hperm).symm.eq_nil) call.balance
      rw [hreordered others hperm, accrue_of_tiered hmode htiers, hrate, hrate',
        halike tier htier other (hperm.mem_iff.mp hother)]

/-- The claim fails exactly where a benchmark is consulted, or where the balance is above all of
tiers that do not all accrue alike. -/
theorem accrue_settled_iff
    (hpoints : (call.benchmarkRates.map (·.effectiveTimestamp.instant)).Nodup)
    (hthresholds : (call.policy.tieredRates.map Prod.fst).Nodup)
    (hrun : accrue power call = .ok result) :
    Settled power call ↔ call.policy.mode = .fixed ∨
      call.policy.mode = .tiered ∧ call.policy.tieredRates ≠ [] ∧
        ((∃ tier ∈ call.policy.tieredRates, |call.balance| ≤ tier.1) ∨
          ∀ tier ∈ call.policy.tieredRates, ∀ other ∈ call.policy.tieredRates,
            figures power call tier.2 = figures power call other.2) := by
  by_cases hpolicy : call.policy.mode = .fixed ∨
      call.policy.mode = .tiered ∧ call.policy.tieredRates ≠ []
  · have hlater : ∀ others, knownBy call.endTimestamp others =
        knownBy call.endTimestamp call.benchmarkRates →
          accrue power { call with benchmarkRates := others } = accrue power call :=
      fun others _ => accrue_benchmarkRates hpolicy others
    have hpoints' : ∀ others, others.Perm call.benchmarkRates →
        accrue power { call with benchmarkRates := others } = accrue power call :=
      fun others hperm => accrue_points hpoints hperm
    rcases hpolicy with hfixed | ⟨htiered, htiers⟩
    · refine iff_of_true ⟨hlater, hpoints', fun others _ => ?_⟩ (.inl hfixed)
      simp only [accrue, rate, if_pos hfixed]
      rfl
    · have hiff := tiers_iff hrun htiered htiers hthresholds
      constructor
      · intro hsettled
        exact .inr ⟨htiered, htiers, hiff.mp hsettled.tiers⟩
      · rintro (hfixed | ⟨-, -, halike⟩)
        · rw [htiered] at hfixed
          cases hfixed
        · exact ⟨hlater, hpoints', hiff.mpr halike⟩
  · refine iff_of_false (not_later hrun hpolicy) ?_
    rintro (hfixed | ⟨htiered, htiers, -⟩)
    · exact hpolicy (.inl hfixed)
    · exact hpolicy (.inr ⟨htiered, htiers⟩)

end Rates

/-- `x ** y` for a whole exponent. -/
def wholePower (x y : ℚ) : Except Exc ℚ := .ok (x ^ y.num.toNat)

def brokerage : AccountConfiguration where
  accountId := "acct"
  accountType := .cash
  baseCurrency := "USD"
  settledCash := 1000
  unsettledCash := 0
  houseMarginOverlay := {}
  riskLimits := {}

/-- A fifth of a year. -/
def periodCall (policy : InterestPolicy) (balance : ℚ) (benchmarkRates : List InterestRatePoint) :
    AccrualCall where
  accrualId := "accrual"
  policy
  configuration := brokerage
  balance
  startTimestamp := ⟨0, some 0⟩
  endTimestamp := ⟨73 * 86400000000, some 0⟩
  benchmarkRates

def tieredPolicy (tiers : List (ℚ × ℚ)) : InterestPolicy :=
  { mode := .tiered, tieredRates := tiers }

theorem accrue_settled_iff_within :
    Settled wholePower (periodCall (tieredPolicy [(1000, 2 / 100), (500, 3 / 100)]) 700 []) :=
  (@accrue_settled_iff wholePower
    (periodCall (tieredPolicy [(1000, 2 / 100), (500, 3 / 100)]) 700 []) _ List.nodup_nil
    (by decide +kernel) rfl).mpr
    (.inr ⟨rfl, List.cons_ne_nil _ _, .inl ⟨_, List.mem_cons_self, by decide +kernel⟩⟩)

/-- A point of the next day, and the order of two tiers below the balance, change what accrues. -/
theorem laterPoint_tierOrder_change :
    ¬ Settled wholePower (periodCall { mode := .benchmarkPlusSpread } 1000
        [⟨⟨0, some 0⟩, 5 / 100, "sofr"⟩]) ∧
      ¬ Settled wholePower
        (periodCall (tieredPolicy [(500, 3 / 100), (1000, 2 / 100)]) 2000 []) := by
  constructor
  · intro hsettled
    have hsame := hsettled.later
      [⟨⟨0, some 0⟩, 5 / 100, "sofr"⟩, ⟨⟨74 * 86400000000, some 0⟩, 9 / 100, "sofr"⟩] (by
        decide +kernel)
    have hamounts := congrArg (fun run => run.toOption.map (·.accruedAmount)) hsame
    exact absurd hamounts (by decide +kernel)
  · intro hsettled
    have hsame := hsettled.tiers [(1000, 2 / 100), (500, 3 / 100)] (List.Perm.swap _ _ _)
    have hamounts := congrArg (fun run => run.toOption.map (·.accruedAmount)) hsame
    exact absurd hamounts (by decide +kernel)

end InterestAccrualEngine
end OptionResearch
