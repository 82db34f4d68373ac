import OptionResearch.NoLookAheadGuard
import OptionResearch.StableSort
import OptionResearch.TimedRows
import Mathlib.Data.List.Dedup
import Mathlib.Data.String.Basic

/-!
# As-of portfolio queries

`BacktestAsOfQueryService` of `queries.py`. Rows are records or dictionaries in any order, with
naive or missing timestamps among them. No query reads a row stamped after its as-of time, and the
nearest-prior ones find the last of the newest rows.
-/

namespace OptionResearch

structure AsOfResult (T : Type) where
  value : Option T
  exactMatch : Bool
  asOf : DateTime
  observedTimestamp : Option DateTime

/-- `bool(value)`. -/
def PyValue.truth : PyValue → Bool
  | .none => false
  | .bool b => b
  | .int n => n != 0
  | .float q => q != 0
  | .str s => s != ""
  | .datetime _ => true
  | .list items => !items.isEmpty
  | .tuple items => !items.isEmpty
  | .dict entries => !entries.isEmpty

/-- `payload[key]`. -/
def Payload.item (payload : Payload) (key : String) : Except Exc PyValue :=
  match payload.lookup key with
  | some value => .ok value
  | none => .error ⟨.other "KeyError", s!"'{key}'"⟩

/-- `_ensure_aware` of what a row holds: a missing timestamp is the epoch. -/
def PyValue.ensureAware : PyValue → Except Exc DateTime
  | .none => .ok ⟨0, some 0⟩
  | .datetime time => .ok time.ensureAware
  | value => .error ⟨.attributeError, s!"'{value.typeName}' object has no attribute 'tzinfo'"⟩

/-- A row of `allocation_vs_realized_as_of`. -/
structure AllocationComparison where
  candidateId : String
  selectedWeight : ℚ
  realizedWeight : ℚ
  weightDelta : ℚ

namespace AsOfQueries

open TimedRows

variable (guard : NoLookAheadGuard) (text : PyText) (asOf : DateTime)

/-- The end of `_nearest`, for the row it selected and its timestamp. -/
def answerFor {T : Type} (selected : Option (T × DateTime)) : Except Exc (AsOfResult T) := do
  let asOfTs := asOf.ensureAware
  selected.elim (.ok ()) fun found => guard.assertVisible text asOfTs found.2
  return {
    value := selected.map (·.1)
    exactMatch := selected.any fun found => found.2.instant = asOfTs.instant
    asOf := asOfTs
    observedTimestamp := selected.map (·.2) }

/-- `_nearest`. -/
def nearest {T : Type} (rows : List T) (timestampGetter : T → PyValue) :
    Except Exc (AsOfResult T) := do
  let selected ←
    rows.foldlM (select asOf.ensureAware fun row => (timestampGetter row).ensureAware) none
  answerFor guard text asOf selected

def portfolioStateAsOf (snapshots : List PortfolioSnapshot) :
    Except Exc (AsOfResult PortfolioSnapshot) :=
  nearest guard text asOf snapshots fun row => .datetime row.timestamp

/-- The same answer, of which only the greeks are told. -/
def greeksOf (nearest : AsOfResult PortfolioSnapshot) : AsOfResult PortfolioGreeks where
  value := nearest.value.map (·.portfolioGreeks)
  exactMatch := nearest.exactMatch
  asOf := nearest.asOf
  observedTimestamp := nearest.observedTimestamp

def greeksAsOf (snapshots : List PortfolioSnapshot) :
    Except Exc (AsOfResult PortfolioGreeks) := do
  let nearest ← portfolioStateAsOf guard text asOf snapshots
  return greeksOf nearest

def cashLedgerAsOf (entries : List CashLedgerEntry) : List CashLedgerEntry :=
  entries.filter fun entry => entry.timestamp.ensureAware ≤ asOf.ensureAware

/-- The last row of each candidate, among those up to the time. -/
def byCandidate (rows : List Payload) : Except Exc (InsertionDict String Payload) :=
  rows.foldlM (fun latest row => do
    let timestamp ← (← row.item "timestamp").ensureAware
    if timestamp ≤ asOf.ensureAware then
      let candidateId ← row.item "candidate_id"
      return latest.set (text.str candidateId) row
    else return latest) .empty

def compareAllocation (key : String) (left right : Payload) : Except Exc AllocationComparison := do
  let selectedWeight ← text.float (left.get "weight" (.float 0))
  let realizedWeight ← text.float (right.get "weight" (.float 0))
  return {
    candidateId := key
    selectedWeight, realizedWeight
    weightDelta := realizedWeight - selectedWeight }

def allocationVsRealizedAsOf (selectedAllocation realizedAllocation : List Payload) :
    Except Exc (List AllocationComparison) := do
  let selected ← byCandidate text asOf selectedAllocation
  let realized ← byCandidate text asOf realizedAllocation
  let keys := StableSort.sortBy id
    ((selected.entries.map Prod.fst ++ realized.entries.map Prod.fst).dedup)
  keys.mapM fun key =>
    compareAllocation text key ((selected.get? key).getD []) ((realized.get? key).getD [])

def constraintViolationsAsOf (violations : List Payload) : Except Exc (List Payload) :=
  comprehend (fun item => do
    let timestamp ← (item.get "timestamp" .none).ensureAware
    return decide (timestamp ≤ asOf.ensureAware) && !(item.get "passed" (.bool true)).truth)
    violations

def riskContributionHistoryAsOf (riskHistory : List Payload) : Except Exc (List Payload) :=
  comprehend (fun item => do
    let timestamp ← (item.get "timestamp" .none).ensureAware
    return decide (timestamp ≤ asOf.ensureAware))
    riskHistory

/-- The rows of one strategy instance. -/
def ofStrategy (strategyInstanceId : String) (row : Payload) : Bool :=
  text.str (row.get "strategy_instance_id" .none) == strategyInstanceId

def strategyStateAsOf (strategyStates : List Payload) (strategyInstanceId : String) :
    Except Exc (AsOfResult Payload) :=
  nearest guard text asOf (strategyStates.filter (ofStrategy text strategyInstanceId))
    fun row => row.get "as_of_timestamp" .none

/-- The rows of one leg of a position. -/
def ofLeg (positionInstanceId legLabel : String) (row : Payload) : Bool :=
  text.str (row.get "position_instance_id" .none) == positionInstanceId &&
    text.str (row.get "leg_label" .none) == legLabel

def legStateAsOf (legStates : List Payload) (positionInstanceId legLabel : String) :
    Except Exc (AsOfResult Payload) :=
  nearest guard text asOf (legStates.filter (ofLeg text positionInstanceId legLabel))
    fun row => row.get "as_of_timestamp" .none

/-! ### Time stamps -/

/-- The time stamp of a record. -/
def recordStamp (timestamp : DateTime) : Except Exc DateTime := .ok timestamp.ensureAware

/-- The time stamp that a row holds under that key, if any. -/
def rowStamp (key : String) (row : Payload) : Except Exc DateTime :=
  (row.get key .none).ensureAware

/-- The time stamp of an allocation row, which must have one. -/
def allocationStamp (row : Payload) : Except Exc DateTime := do
  (← row.item "timestamp").ensureAware

variable {guard text asOf} {T U : Type} {time : DateTime}

theorem kind_of_ensureAware {value : PyValue} {e : Exc} (h : value.ensureAware = .error e) :
    e.kind = .attributeError := by
  cases value <;> cases h <;> rfl

theorem not_le_asOf (h : asOf < time) : ¬ time ≤ asOf.ensureAware := by
  rw [DateTime.le_ensureAware_iff, DateTime.not_le_iff]
  exact h

/-! ### Rows after the as-of time -/

theorem select_ensureAware (stamp : T → Except Exc DateTime) :
    select asOf.ensureAware stamp = select asOf stamp := by
  funext selected row
  simp only [select, DateTime.ensureAware_lt_left_iff]

theorem nearest_eq (rows : List T) (timestampGetter : T → PyValue) :
    nearest guard text asOf rows timestampGetter =
      (rows.foldlM (select asOf fun row => (timestampGetter row).ensureAware) none).bind
        (answerFor guard text asOf) := by
  rw [← select_ensureAware]
  rfl

theorem nearest_hidesLater (timestampGetter : T → PyValue) :
    HidesLater asOf (fun row => (timestampGetter row).ensureAware)
      fun rows => nearest guard text asOf rows timestampGetter := by
  simp only [nearest_eq]
  exact hidesLater_select.map fun found => found.bind (answerFor guard text asOf)

theorem byCandidate_hidesLater :
    HidesLater asOf allocationStamp (byCandidate text asOf) := by
  apply hidesLater_foldlM
  intro latest row time htime hlater
  obtain ⟨value, hvalue, htime⟩ := except_bind_eq_ok.mp htime
  refine except_bind_eq_ok.mpr ⟨value, hvalue, ?_⟩
  exact except_bind_eq_ok.mpr ⟨time, htime, if_neg (not_le_asOf hlater)⟩

theorem constraintViolations_hidesLater :
    HidesLater asOf (rowStamp "timestamp") (constraintViolationsAsOf asOf) := by
  apply hidesLater_comprehend
  intro row time htime hlater
  refine except_bind_eq_ok.mpr ⟨time, htime, ?_⟩
  rw [decide_eq_false (not_le_asOf hlater)]
  rfl

theorem riskContributionHistory_hidesLater :
    HidesLater asOf (rowStamp "timestamp") (riskContributionHistoryAsOf asOf) := by
  apply hidesLater_comprehend
  intro row time htime hlater
  refine except_bind_eq_ok.mpr ⟨time, htime, ?_⟩
  rw [decide_eq_false (not_le_asOf hlater)]
  rfl

theorem cashLedger_hidesLater :
    HidesLater asOf (fun entry : CashLedgerEntry => recordStamp entry.timestamp)
      (cashLedgerAsOf asOf) := by
  have hkept : (fun entry : CashLedgerEntry =>
        decide (entry.timestamp.ensureAware ≤ asOf.ensureAware)) =
      notLater asOf fun entry : CashLedgerEntry => recordStamp entry.timestamp := by
    funext entry
    have hle : entry.timestamp.ensureAware ≤ asOf.ensureAware ↔
        ¬ asOf < entry.timestamp.ensureAware :=
      DateTime.le_ensureAware_iff.trans DateTime.not_lt_iff.symm
    exact (decide_eq_decide.mpr hle).trans decide_not
  intro left right hsame
  rw [cashLedgerAsOf, cashLedgerAsOf, hkept]
  exact hsame

/-! ### The nearest prior row -/

/-- The answer tells of the last of the newest rows up to the time, and of nothing exactly where
there is none. The query raises only what reading a time stamp raises. -/
def NearestPrior (asOf : DateTime) (stamp : T → Except Exc DateTime) (read : T → U)
    (rows : List T) : Except Exc (AsOfResult U) → Prop
  | .ok answer => ∃ found, Newest asOf stamp rows found ∧
      answer.value = found.map (fun entry => read entry.1) ∧
      answer.observedTimestamp = found.map (·.2)
  | .error e => e.kind ≠ .noLookAheadError ∧ ∃ row ∈ rows, stamp row = .error e

theorem assertVisible_of_not_lt (h : ¬ asOf < time) :
    guard.assertVisible text asOf time = .ok () := by
  refine if_neg fun hlate => h ?_
  exact DateTime.ensureAware_lt_iff.mp hlate.1

theorem nearest_nearestPrior (rows : List T) (timestampGetter : T → PyValue) :
    NearestPrior asOf (fun row => (timestampGetter row).ensureAware) id rows
      (nearest guard text asOf rows timestampGetter) := by
  have htotal : ∀ t u : DateTime, t ≤ u ∨ u ≤ t := fun t u => Int.le_total t.instant u.instant
  rw [nearest_eq]
  rcases foldlM_select htotal rows with ⟨e, hfold, row, hmem, hraised⟩ | ⟨found, hfold, hnewest⟩
  · rw [hfold]
    refine ⟨?_, row, hmem, hraised⟩
    rw [kind_of_ensureAware hraised]
    decide
  · have hvisible : found.elim (.ok ())
        (fun entry => guard.assertVisible text asOf.ensureAware entry.2) = .ok () := by
      cases hnewest with
      | absent _ => rfl
      | found before after row time _ _ hupTo _ _ =>
        exact assertVisible_of_not_lt (mt DateTime.ensureAware_lt_left_iff.mp hupTo)
    rw [hfold]
    change NearestPrior _ _ _ _ (answerFor guard text asOf found)
    rw [answerFor, hvisible]
    exact ⟨found, hnewest, rfl, rfl⟩

/-- What is read of the answer's row does not change which row it is. -/
theorem NearestPrior.greeks {stamp : PortfolioSnapshot → Except Exc DateTime}
    {snapshots : List PortfolioSnapshot} {answer : Except Exc (AsOfResult PortfolioSnapshot)}
    (h : NearestPrior asOf stamp id snapshots answer) :
    NearestPrior asOf stamp (·.portfolioGreeks) snapshots
      (answer.bind fun nearest => .ok (greeksOf nearest)) := by
  cases answer with
  | error e => exact h
  | ok answer =>
    obtain ⟨found, hnewest, hvalue, hobserved⟩ := h
    refine ⟨found, hnewest, ?_, hobserved⟩
    rw [greeksOf, hvalue, Option.map_map]
    rfl

/-- No query sees the future, and the nearest-prior queries find the nearest prior row. -/
theorem asOfQueries_hide_future (guard : NoLookAheadGuard) (text : PyText) (asOf : DateTime) :
    -- two inputs that differ only after the as-of time have one answer
    HidesLater asOf (fun row : PortfolioSnapshot => recordStamp row.timestamp)
        (portfolioStateAsOf guard text asOf) ∧
      HidesLater asOf (fun row : PortfolioSnapshot => recordStamp row.timestamp)
        (greeksAsOf guard text asOf) ∧
      (∀ strategyInstanceId, HidesLater asOf (rowStamp "as_of_timestamp")
        fun rows => strategyStateAsOf guard text asOf rows strategyInstanceId) ∧
      (∀ positionInstanceId legLabel, HidesLater asOf (rowStamp "as_of_timestamp")
        fun rows => legStateAsOf guard text asOf rows positionInstanceId legLabel) ∧
      HidesLater asOf (fun entry : CashLedgerEntry => recordStamp entry.timestamp)
        (cashLedgerAsOf asOf) ∧
      (∀ selected selected' realized realized', SameUpTo asOf allocationStamp selected selected' →
        SameUpTo asOf allocationStamp realized realized' →
          allocationVsRealizedAsOf text asOf selected realized =
            allocationVsRealizedAsOf text asOf selected' realized') ∧
      HidesLater asOf (rowStamp "timestamp") (constraintViolationsAsOf asOf) ∧
      HidesLater asOf (rowStamp "timestamp") (riskContributionHistoryAsOf asOf) ∧
      -- the nearest-prior queries
      (∀ snapshots, NearestPrior asOf (fun row : PortfolioSnapshot => recordStamp row.timestamp) id
        snapshots (portfolioStateAsOf guard text asOf snapshots)) ∧
      (∀ snapshots, NearestPrior asOf (fun row : PortfolioSnapshot => recordStamp row.timestamp)
        (·.portfolioGreeks) snapshots (greeksAsOf guard text asOf snapshots)) ∧
      (∀ rows strategyInstanceId, NearestPrior asOf (rowStamp "as_of_timestamp") id
        (rows.filter (ofStrategy text strategyInstanceId))
        (strategyStateAsOf guard text asOf rows strategyInstanceId)) ∧
      ∀ rows positionInstanceId legLabel, NearestPrior asOf (rowStamp "as_of_timestamp") id
        (rows.filter (ofLeg text positionInstanceId legLabel))
        (legStateAsOf guard text asOf rows positionInstanceId legLabel) := by
  have hportfolio : HidesLater asOf (fun row : PortfolioSnapshot => recordStamp row.timestamp)
      (portfolioStateAsOf guard text asOf) :=
    nearest_hidesLater fun row : PortfolioSnapshot => .datetime row.timestamp
  have hstate : HidesLater asOf (rowStamp "as_of_timestamp") fun rows =>
      nearest guard text asOf rows fun row : Payload => row.get "as_of_timestamp" .none :=
    nearest_hidesLater fun row : Payload => row.get "as_of_timestamp" .none
  refine ⟨hportfolio,
    hportfolio.map fun answer => answer.bind fun nearest => .ok (greeksOf nearest),
    fun id => hstate.filter _,
    fun position leg => hstate.filter _, cashLedger_hidesLater, ?_,
    constraintViolations_hidesLater, riskContributionHistory_hidesLater,
    fun snapshots => nearest_nearestPrior snapshots _,
    fun snapshots => (nearest_nearestPrior snapshots _).greeks,
    fun rows id => nearest_nearestPrior _ _, fun rows position leg => nearest_nearestPrior _ _⟩
  intro selected selected' realized realized' hselected hrealized
  rw [allocationVsRealizedAsOf, allocationVsRealizedAsOf,
    byCandidate_hidesLater selected selected' hselected,
    byCandidate_hidesLater realized realized' hrealized]

end AsOfQueries
end OptionResearch
