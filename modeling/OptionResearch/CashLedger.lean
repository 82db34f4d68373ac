import OptionResearch.DatedSum
import OptionResearch.PortfolioAccounts

/-!
# The cash ledger

`post`, `reserve` and `snapshot` of `cash.py`. A posting is effective when it is traded and settles
after its lag; until then its amount is unsettled. The buckets of a snapshot are sums of dated
amounts, so the balance at a time is a function of the postings effective by then and of nothing
else. `rounding` is the source's `round(x, 8)`; with `id` the balances are exact.
-/

namespace OptionResearch

open DatedSum

inductive CashEventType where
  | premiumReceived
  | premiumPaid
  | stockPurchase
  | stockSale
  | exercise
  | assignment
  | dividend
  | fee
  | commission
  | borrowCharge
  | interest
  | collateral
  | reservation
  | release
  | liquidation
  deriving DecidableEq, Repr

structure SettlementTiming where
  equityTradeDays : Int := 1
  optionTradeDays : Int := 1
  exerciseDays : Int := 1
  assignmentDays : Int := 1
  cashSettledOptionDays : Int := 1
  dividendDays : Int := 0
  feeDays : Int := 0
  interestDays : Int := 0
  borrowDays : Int := 0

structure CashPosting where
  postingId : String
  eventType : CashEventType
  amount : ℚ
  tradeTimestamp : DateTime
  effectiveTimestamp : DateTime
  settlementTimestamp : DateTime
  settledDelta : ℚ
  unsettledDelta : ℚ
  reservedDelta : ℚ := 0
  collateralDelta : ℚ := 0
  strategyId : Option String
  positionId : Option String
  metadata : Payload

structure CashBalanceSnapshot where
  asOf : DateTime
  settledCash : ℚ
  unsettledCash : ℚ
  reservedCash : ℚ
  collateralCash : ℚ
  freeCash : ℚ
  netCash : ℚ

structure CashLedgerEngine where
  settlementTiming : SettlementTiming := {}

/-- A call of `post` or of `reserve`. -/
inductive LedgerCall where
  | post (postingId : String) (eventType : CashEventType) (amount : ℚ) (tradeTimestamp : DateTime)
      (strategyId positionId : Option String) (metadata : Option Payload)
  | reserve (postingId : String) (amount : ℚ) (timestamp : DateTime)
      (strategyId positionId : Option String) (collateral : Bool) (metadata : Option Payload)

/-- The running balances of the loop of `snapshot`. -/
structure CashBuckets where
  settled : ℚ
  unsettled : ℚ
  reserved : ℚ
  collateral : ℚ

namespace CashLedgerEngine

variable (engine : CashLedgerEngine)

/-- `_lag_days`. -/
def lagDays : CashEventType → Int
  | .stockPurchase => engine.settlementTiming.equityTradeDays
  | .stockSale => engine.settlementTiming.equityTradeDays
  | .premiumReceived => engine.settlementTiming.optionTradeDays
  | .premiumPaid => engine.settlementTiming.optionTradeDays
  | .exercise => engine.settlementTiming.exerciseDays
  | .assignment => engine.settlementTiming.assignmentDays
  | .dividend => engine.settlementTiming.dividendDays
  | .fee => engine.settlementTiming.feeDays
  | .commission => engine.settlementTiming.feeDays
  | .interest => engine.settlementTiming.interestDays
  | .borrowCharge => engine.settlementTiming.borrowDays
  | .liquidation => engine.settlementTiming.equityTradeDays
  | .collateral => 0
  | .reservation => 0
  | .release => 0

def post (postingId : String) (eventType : CashEventType) (amount : ℚ) (tradeTimestamp : DateTime)
    (strategyId positionId : Option String) (metadata : Option Payload) : CashPosting :=
  let tradeTs := tradeTimestamp.ensureAware
  let lagDays := engine.lagDays eventType
  { postingId
    eventType
    amount
    tradeTimestamp := tradeTs
    effectiveTimestamp := tradeTs
    settlementTimestamp := if lagDays = 0 then tradeTs else tradeTs.addDays lagDays
    settledDelta := if lagDays = 0 then amount else 0
    unsettledDelta := if lagDays = 0 then 0 else amount
    strategyId
    positionId
    metadata := metadata.getD [] }

def reserve (postingId : String) (amount : ℚ) (timestamp : DateTime)
    (strategyId positionId : Option String) (collateral : Bool) (metadata : Option Payload) :
    CashPosting where
  postingId := postingId
  eventType := if collateral then .collateral else .reservation
  amount := 0
  tradeTimestamp := timestamp.ensureAware
  effectiveTimestamp := timestamp.ensureAware
  settlementTimestamp := timestamp.ensureAware
  settledDelta := 0
  unsettledDelta := 0
  reservedDelta := if collateral then 0 else amount
  collateralDelta := if collateral then amount else 0
  strategyId := strategyId
  positionId := positionId
  metadata := metadata.getD []

/-- The posting a call makes. -/
def perform : LedgerCall → CashPosting
  | .post postingId eventType amount tradeTimestamp strategyId positionId metadata =>
    engine.post postingId eventType amount tradeTimestamp strategyId positionId metadata
  | .reserve postingId amount timestamp strategyId positionId collateral metadata =>
    reserve postingId amount timestamp strategyId positionId collateral metadata

/-- One turn of the loop of `snapshot`. -/
def applyPosting (asOfTs : DateTime) (b : CashBuckets) (posting : CashPosting) : CashBuckets :=
  if asOfTs < posting.effectiveTimestamp then b
  else
    { settled := b.settled +
        if posting.settlementTimestamp ≤ asOfTs then posting.settledDelta + posting.unsettledDelta
        else posting.settledDelta
      unsettled := b.unsettled +
        if posting.settlementTimestamp ≤ asOfTs then 0 else posting.unsettledDelta
      reserved := b.reserved + posting.reservedDelta
      collateral := b.collateral + posting.collateralDelta }

/-- The balances before rounding. -/
def buckets (configuration : AccountConfiguration) (postings : List CashPosting)
    (asOfTs : DateTime) : CashBuckets :=
  postings.foldl (applyPosting asOfTs)
    { settled := configuration.settledCash, unsettled := configuration.unsettledCash,
      reserved := 0, collateral := 0 }

def snapshot (rounding : ℚ → ℚ) (configuration : AccountConfiguration)
    (postings : List CashPosting) (asOf : DateTime) : CashBalanceSnapshot :=
  let asOfTs := asOf.ensureAware
  let b := buckets configuration postings asOfTs
  let freeCash := b.settled - b.reserved - b.collateral
  { asOf := asOfTs
    settledCash := rounding b.settled
    unsettledCash := rounding b.unsettled
    reservedCash := rounding b.reserved
    collateralCash := rounding b.collateral
    freeCash := rounding freeCash
    netCash := rounding (b.settled + b.unsettled) }

def accountState (rounding : ℚ → ℚ) (configuration : AccountConfiguration)
    (balance : CashBalanceSnapshot) (buyingPower initialRequirement maintenanceRequirement : ℚ) :
    AccountState :=
  let excess := balance.netCash - maintenanceRequirement
  let cushion := if maintenanceRequirement ≤ 0 then 0 else excess / maintenanceRequirement
  { accountId := configuration.accountId
    baseCurrency := configuration.baseCurrency
    settledCash := balance.settledCash
    unsettledCash := balance.unsettledCash
    reservedCash := balance.reservedCash
    collateralCash := balance.collateralCash
    freeCash := balance.freeCash
    buyingPower
    initialRequirement
    maintenanceRequirement
    excessLiquidity := rounding excess
    cushion := rounding cushion
    metadata := [("account_type", .str configuration.accountType.value)] }

/-! ### Buckets as sums of dated amounts -/

/-- What an effective posting adds to the settled cash at `t`. -/
def settledPart (t : DateTime) (posting : CashPosting) : ℚ :=
  if posting.settlementTimestamp ≤ t then posting.settledDelta + posting.unsettledDelta
  else posting.settledDelta

/-- What an effective posting adds to the unsettled cash at `t`. -/
def unsettledPart (t : DateTime) (posting : CashPosting) : ℚ :=
  if posting.settlementTimestamp ≤ t then 0 else posting.unsettledDelta

/-- The sum of an amount over the postings effective at `t`. -/
abbrev effective (amount : CashPosting → ℚ) (t : DateTime) (postings : List CashPosting) : ℚ :=
  upTo CashPosting.effectiveTimestamp amount t postings

theorem applyPosting_ensureAware (t : DateTime) : applyPosting t.ensureAware = applyPosting t := by
  funext b posting
  simp only [applyPosting, DateTime.ensureAware_lt_left_iff, DateTime.le_ensureAware_iff]

theorem foldl_applyPosting (t : DateTime) (postings : List CashPosting) (b : CashBuckets) :
    postings.foldl (applyPosting t) b =
      { settled := b.settled + effective (settledPart t) t postings
        unsettled := b.unsettled + effective (unsettledPart t) t postings
        reserved := b.reserved + effective CashPosting.reservedDelta t postings
        collateral := b.collateral + effective CashPosting.collateralDelta t postings } := by
  induction postings generalizing b with
  | nil => simp only [List.foldl_nil, effective, upTo_nil, add_zero]
  | cons posting rest ih =>
    rw [List.foldl_cons, ih]
    simp only [effective, upTo_cons, applyPosting]
    by_cases h : posting.effectiveTimestamp ≤ t
    · rw [if_neg (DateTime.not_lt_iff.mpr h)]
      simp only [if_pos h, settledPart, unsettledPart, add_assoc]
    · rw [if_pos (DateTime.not_le_iff.mp h)]
      simp only [if_neg h, zero_add]

/-- The balances at `asOf` as sums over the effective postings. -/
theorem buckets_ensureAware (configuration : AccountConfiguration) (postings : List CashPosting)
    (asOf : DateTime) :
    buckets configuration postings asOf.ensureAware =
      { settled := configuration.settledCash + effective (settledPart asOf) asOf postings
        unsettled := configuration.unsettledCash + effective (unsettledPart asOf) asOf postings
        reserved := effective CashPosting.reservedDelta asOf postings
        collateral := effective CashPosting.collateralDelta asOf postings } := by
  rw [buckets, applyPosting_ensureAware, foldl_applyPosting]
  simp only [zero_add]

/-- Only the effective postings count, in any order. -/
theorem snapshot_eq_of_perm {rounding : ℚ → ℚ} {configuration : AccountConfiguration}
    {postings later all : List CashPosting} {asOf : DateTime} (hall : all.Perm (postings ++ later))
    (hlater : ∀ posting ∈ later, asOf < posting.effectiveTimestamp) :
    snapshot rounding configuration all asOf = snapshot rounding configuration postings asOf := by
  have heffective (amount : CashPosting → ℚ) :
      effective amount asOf all = effective amount asOf postings := by
    have hzero : upTo CashPosting.effectiveTimestamp amount asOf later = 0 :=
      upTo_eq_zero fun posting h => DateTime.not_le_iff.mpr (hlater posting h)
    rw [effective, upTo_perm hall, upTo_append, hzero, add_zero]
  have hbuckets : buckets configuration all asOf.ensureAware =
      buckets configuration postings asOf.ensureAware := by
    rw [buckets_ensureAware, buckets_ensureAware]
    simp only [heffective]
  rw [snapshot, hbuckets, snapshot]

/-! ### The postings the ledger makes -/

/-- The lags are not negative. -/
def NonnegLags : Prop := ∀ eventType, 0 ≤ engine.lagDays eventType

/-- A posting whose deltas add up to its amount, which settles no earlier than it is effective,
and of which nothing is settled before. -/
structure PostingSound (posting : CashPosting) : Prop where
  total : posting.settledDelta + posting.unsettledDelta = posting.amount
  ordered : posting.effectiveTimestamp ≤ posting.settlementTimestamp
  pending : posting.effectiveTimestamp < posting.settlementTimestamp → posting.settledDelta = 0

variable {engine}

theorem postingSound_perform (hlag : engine.NonnegLags) (call : LedgerCall) :
    PostingSound (engine.perform call) := by
  cases call with
  | reserve => exact ⟨add_zero 0, le_refl _, fun _ => rfl⟩
  | post postingId eventType amount tradeTimestamp strategyId positionId metadata =>
    have hnonneg := hlag eventType
    by_cases hzero : engine.lagDays eventType = 0
    · refine ⟨?_, ?_, ?_⟩
      · simp only [perform, post, hzero, if_true, add_zero]
      · simp only [perform, post, hzero, if_true, le_refl]
      · intro h
        simp only [perform, post, hzero, if_true, lt_irrefl] at h
    · refine ⟨?_, ?_, ?_⟩
      · simp only [perform, post, hzero, if_false, zero_add]
      · simp only [perform, post, hzero, if_false, DateTime.le_iff, DateTime.instant_addDays]
        omega
      · intro _
        simp only [perform, post, hzero, if_false]

/-- Between two times at which the same postings are effective, a sound posting settles its amount
if its settlement falls between them. -/
theorem settledPart_eq {posting : CashPosting} (h : PostingSound posting) {t₁ t₂ : DateTime}
    (hle : t₁ ≤ t₂) (heffective : posting.effectiveTimestamp ≤ t₁) :
    settledPart t₂ posting = settledPart t₁ posting +
      if ¬ posting.settlementTimestamp ≤ t₁ ∧ posting.settlementTimestamp ≤ t₂
      then posting.amount else 0 := by
  unfold settledPart
  by_cases h₁ : posting.settlementTimestamp ≤ t₁
  · rw [if_pos (h₁.trans hle), if_pos h₁, if_neg (fun hc => hc.1 h₁), add_zero]
  · rw [if_neg h₁]
    by_cases h₂ : posting.settlementTimestamp ≤ t₂
    · have hpending : posting.settledDelta = 0 :=
        h.pending (lt_of_le_of_lt heffective (DateTime.not_le_iff.mp h₁))
      rw [if_pos h₂, if_pos ⟨h₁, h₂⟩, h.total, hpending, zero_add]
    · rw [if_neg h₂, if_neg (fun hc => h₂ hc.2), add_zero]

/-- The cash ledger law for these postings, in exact arithmetic. -/
structure CashLaw (configuration : AccountConfiguration) (postings : List CashPosting) : Prop where
  net : ∀ asOf, (snapshot id configuration postings asOf).netCash =
    configuration.settledCash + configuration.unsettledCash +
      effective CashPosting.amount asOf postings
  unordered : ∀ asOf postings', postings'.Perm postings →
    snapshot id configuration postings' asOf = snapshot id configuration postings asOf
  causal : ∀ asOf later all, all.Perm (postings ++ later) →
    (∀ posting ∈ later, asOf < posting.effectiveTimestamp) →
    snapshot id configuration all asOf = snapshot id configuration postings asOf
  free : ∀ asOf, (snapshot id configuration postings asOf).freeCash =
    (snapshot id configuration postings asOf).settledCash -
      (snapshot id configuration postings asOf).reservedCash -
      (snapshot id configuration postings asOf).collateralCash
  quiet : ∀ t₁ t₂, t₁ ≤ t₂ →
    (∀ posting ∈ postings,
      ¬ (t₁ < posting.effectiveTimestamp ∧ posting.effectiveTimestamp ≤ t₂)) →
    (snapshot id configuration postings t₂).netCash =
        (snapshot id configuration postings t₁).netCash ∧
      (snapshot id configuration postings t₂).reservedCash =
        (snapshot id configuration postings t₁).reservedCash ∧
      (snapshot id configuration postings t₂).collateralCash =
        (snapshot id configuration postings t₁).collateralCash ∧
      (snapshot id configuration postings t₂).settledCash =
        (snapshot id configuration postings t₁).settledCash +
          within CashPosting.settlementTimestamp CashPosting.amount t₁ t₂ postings

theorem netCash_snapshot (configuration : AccountConfiguration) {postings : List CashPosting}
    (hsound : ∀ posting ∈ postings, PostingSound posting) (asOf : DateTime) :
    (snapshot id configuration postings asOf).netCash = configuration.settledCash +
      configuration.unsettledCash + effective CashPosting.amount asOf postings := by
  have hparts : effective CashPosting.amount asOf postings =
      effective (settledPart asOf) asOf postings +
        effective (unsettledPart asOf) asOf postings := by
    rw [effective, effective, effective, ← upTo_add]
    refine upTo_congr fun posting hmem _ => ?_
    rw [← (hsound posting hmem).total, settledPart, unsettledPart]
    split_ifs
    · rw [add_zero]
    · rfl
  rw [hparts]
  simp only [snapshot, buckets_ensureAware, id_eq]
  exact add_add_add_comm _ _ _ _

theorem settledCash_snapshot (rounding : ℚ → ℚ) (configuration : AccountConfiguration)
    (postings : List CashPosting) (asOf : DateTime) :
    (snapshot rounding configuration postings asOf).settledCash =
      rounding (configuration.settledCash + effective (settledPart asOf) asOf postings) := by
  rw [snapshot, buckets_ensureAware]

/-- What settles between two times, among the postings effective at the first. -/
theorem effective_settling {postings : List CashPosting}
    (hsound : ∀ posting ∈ postings, PostingSound posting) {t₁ t₂ : DateTime}
    (hsame : ∀ posting ∈ postings, posting.effectiveTimestamp ≤ t₂ →
      posting.effectiveTimestamp ≤ t₁) :
    effective (fun posting =>
        if ¬ posting.settlementTimestamp ≤ t₁ ∧ posting.settlementTimestamp ≤ t₂
        then posting.amount else 0) t₁ postings =
      within CashPosting.settlementTimestamp CashPosting.amount t₁ t₂ postings := by
  induction postings with
  | nil => rfl
  | cons posting rest ih =>
    have hrest := ih (fun p hp => hsound p (List.mem_cons_of_mem _ hp))
      fun p hp => hsame p (List.mem_cons_of_mem _ hp)
    rw [effective, upTo_cons, within_cons, ← hrest]
    congr 1
    by_cases hsettles : ¬ posting.settlementTimestamp ≤ t₁ ∧ posting.settlementTimestamp ≤ t₂
    · have heffective : posting.effectiveTimestamp ≤ t₁ := hsame posting List.mem_cons_self
        ((hsound posting List.mem_cons_self).ordered.trans hsettles.2)
      rw [if_pos heffective]
    · rw [if_neg hsettles, ite_self]

/-- The ledger law holds of any sequence of calls under nonnegative lags. -/
theorem cashLaw_perform (hlag : engine.NonnegLags) (configuration : AccountConfiguration)
    (calls : List LedgerCall) : CashLaw configuration (calls.map engine.perform) := by
  have hsound : ∀ posting ∈ calls.map engine.perform, PostingSound posting := by
    intro posting hmem
    obtain ⟨call, _, rfl⟩ := List.mem_map.mp hmem
    exact postingSound_perform hlag call
  refine ⟨netCash_snapshot configuration hsound, ?_, ?_, ?_, ?_⟩
  · intro asOf postings' hperm
    have hnone : postings'.Perm (calls.map engine.perform ++ []) := by rwa [List.append_nil]
    exact snapshot_eq_of_perm hnone fun _ h => absurd h List.not_mem_nil
  · exact fun asOf later all hall hlater => snapshot_eq_of_perm hall hlater
  · exact fun asOf => rfl
  · intro t₁ t₂ hle hquiet
    have hsame : ∀ posting ∈ calls.map engine.perform, posting.effectiveTimestamp ≤ t₂ →
        posting.effectiveTimestamp ≤ t₁ := by
      intro posting hmem h₂
      by_contra h₁
      exact hquiet posting hmem ⟨DateTime.not_le_iff.mp h₁, h₂⟩
    have hconst (amount : CashPosting → ℚ) :
        effective amount t₂ (calls.map engine.perform) =
          effective amount t₁ (calls.map engine.perform) := upTo_eq_of_quiet hle hsame
    refine ⟨?_, ?_, ?_, ?_⟩
    · rw [netCash_snapshot configuration hsound, netCash_snapshot configuration hsound, hconst]
    · simp only [snapshot, buckets_ensureAware, hconst]
    · simp only [snapshot, buckets_ensureAware, hconst]
    · rw [settledCash_snapshot, settledCash_snapshot, hconst, ← effective_settling hsound hsame]
      have hsplit : effective (settledPart t₂) t₁ (calls.map engine.perform) =
          effective (settledPart t₁) t₁ (calls.map engine.perform) +
            effective (fun posting =>
              if ¬ posting.settlementTimestamp ≤ t₁ ∧ posting.settlementTimestamp ≤ t₂
              then posting.amount else 0) t₁ (calls.map engine.perform) := by
        rw [effective, effective, effective, ← upTo_add]
        exact upTo_congr fun posting hmem h => settledPart_eq (hsound posting hmem) hle h
      rw [hsplit, id_eq, id_eq, add_assoc]

def marginAccount : AccountConfiguration where
  accountId := "acct"
  accountType := .regTMargin
  baseCurrency := "USD"
  settledCash := 1000
  unsettledCash := 0
  houseMarginOverlay := {}
  riskLimits := {}

/-- A premium that settles the next day, and a reservation. -/
def premiumAndReservation : List LedgerCall :=
  [.post "p-1" .premiumReceived 500 ⟨0, some 0⟩ none none none,
    .reserve "r-1" 200 ⟨0, some 0⟩ none none false none]

theorem cashLaw_perform_premium : CashLaw marginAccount
    (premiumAndReservation.map ({} : CashLedgerEngine).perform) :=
  cashLaw_perform (fun eventType => by cases eventType <;> decide) marginAccount
    premiumAndReservation

end CashLedgerEngine
end OptionResearch
