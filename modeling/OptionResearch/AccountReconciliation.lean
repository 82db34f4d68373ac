import OptionResearch.CashLedger
import OptionResearch.MarginPolicy
import Mathlib.Tactic.Ring

/-!
# Account reconciliation

`AccountReconciliationEngine.verify` of `reconciliation.py`, and what it says of the account states
that the cash ledger builds. The engine adds the unsettled cash to the settled one before it
compares them with the free, reserved and collateral cash, of which the ledger frees settled cash
only.
-/

namespace OptionResearch

open CashLedgerEngine

structure ReconciliationCheck where
  checkName : String
  expected : ℚ
  observed : ℚ
  passed : Bool
  reasonCode : String
  deriving DecidableEq

structure ReconciliationResult where
  reconciled : Bool
  checks : List ReconciliationCheck
  diagnostics : Payload

/-- The totals a caller expects, beside those of the margin result. -/
structure ExpectedTotals where
  optionQuantityTotal : ℚ
  stockQuantityTotal : ℚ
  expectedReservedCapital : ℚ
  expectedCollateral : ℚ
  expectedInterest : ℚ
  expectedBorrowCharges : ℚ
  expectedFees : ℚ

structure AccountReconciliationEngine where
  tolerance : ℚ := 1 / 1000000

namespace AccountReconciliationEngine

variable (engine : AccountReconciliationEngine) (text : PyText) (rounding : ℚ → ℚ)

/-- `_check`. -/
def check (checkName : String) (expected observed : ℚ) (reasonCode : String) :
    ReconciliationCheck :=
  let passed := |expected - observed| ≤ engine.tolerance
  { checkName
    expected := rounding expected
    observed := rounding observed
    passed
    reasonCode := if passed then "ok" else reasonCode }

/-- The checks of `verify`, in its order. -/
def checks (accountState : AccountState) (marginResult : MarginResult) (totals : ExpectedTotals) :
    List ReconciliationCheck :=
  [engine.check rounding "settled_cash" (accountState.settledCash + accountState.unsettledCash)
      (accountState.freeCash + accountState.reservedCash + accountState.collateralCash)
      "cash_balance_mismatch",
    engine.check rounding "reserved_capital" totals.expectedReservedCapital
      accountState.reservedCash "reserved_capital_mismatch",
    engine.check rounding "collateral" totals.expectedCollateral accountState.collateralCash
      "collateral_mismatch",
    engine.check rounding "margin_requirement" marginResult.maintenanceRequirement
      accountState.maintenanceRequirement "maintenance_requirement_mismatch",
    engine.check rounding "buying_power" marginResult.postTradeBuyingPower
      accountState.buyingPower "buying_power_mismatch",
    engine.check rounding "interest_placeholder" totals.expectedInterest totals.expectedInterest
      "interest_ok",
    engine.check rounding "borrow_placeholder" totals.expectedBorrowCharges
      totals.expectedBorrowCharges "borrow_ok",
    engine.check rounding "fees_placeholder" totals.expectedFees totals.expectedFees "fees_ok",
    engine.check rounding "option_quantities" totals.optionQuantityTotal
      totals.optionQuantityTotal "option_quantity_ok",
    engine.check rounding "stock_quantities" totals.stockQuantityTotal totals.stockQuantityTotal
      "stock_quantity_ok"]

def verify (accountState : AccountState) (marginResult : MarginResult) (totals : ExpectedTotals) :
    Except Exc ReconciliationResult :=
  let checks := engine.checks rounding accountState marginResult totals
  let reconciled := checks.all (·.passed)
  if reconciled then
    .ok { reconciled, checks
          diagnostics := [("excess_liquidity", .float accountState.excessLiquidity),
            ("cushion", .float accountState.cushion)] }
  else
    let failures := (checks.filter fun item => !item.passed).map fun item => .str item.reasonCode
    .error ⟨.other "ReconciliationError",
      s!"account state unreconciled: {text.repr (.list failures)}"⟩

variable {engine text rounding} {state : AccountState} {marginResult : MarginResult}
  {totals : ExpectedTotals} {checkName reasonCode : String} {expected observed : ℚ}

theorem passed_check : (engine.check rounding checkName expected observed reasonCode).passed = true
    ↔ |expected - observed| ≤ engine.tolerance := decide_eq_true_iff

theorem exists_verify_iff :
    (∃ result, engine.verify text rounding state marginResult totals = .ok result) ↔
      ∀ item ∈ engine.checks rounding state marginResult totals, item.passed = true := by
  rw [← List.all_eq_true, verify]
  dsimp only
  split_ifs with hall
  · exact iff_of_true ⟨_, rfl⟩ hall
  · exact iff_of_false (fun ⟨_, h⟩ => nomatch h) hall

/-- What the account state has to agree with. -/
theorem exists_verify_iff_totals :
    (∃ result, engine.verify text rounding state marginResult totals = .ok result) ↔
      |state.settledCash + state.unsettledCash -
          (state.freeCash + state.reservedCash + state.collateralCash)| ≤
            engine.tolerance ∧
        |totals.expectedReservedCapital - state.reservedCash| ≤ engine.tolerance ∧
        |totals.expectedCollateral - state.collateralCash| ≤ engine.tolerance ∧
        |marginResult.maintenanceRequirement - state.maintenanceRequirement| ≤
          engine.tolerance ∧
        |marginResult.postTradeBuyingPower - state.buyingPower| ≤ engine.tolerance := by
  rw [exists_verify_iff, checks]
  simp only [List.forall_mem_cons, passed_check, sub_self, abs_zero]
  constructor
  · rintro ⟨hcash, hreserved, hcollateral, hmargin, hpower, _⟩
    exact ⟨hcash, hreserved, hcollateral, hmargin, hpower⟩
  · rintro ⟨hcash, hreserved, hcollateral, hmargin, hpower⟩
    have hnonneg : 0 ≤ engine.tolerance := (abs_nonneg _).trans hcash
    exact ⟨hcash, hreserved, hcollateral, hmargin, hpower, hnonneg, hnonneg, hnonneg, hnonneg,
      hnonneg, fun _ h => nomatch h⟩

/-! ### Account states of the cash ledger -/

/-- The totals that a snapshot and a caller's own figures expect. -/
def totalsOf (balance : CashBalanceSnapshot) (optionQuantityTotal stockQuantityTotal
    expectedInterest expectedBorrowCharges expectedFees : ℚ) : ExpectedTotals where
  optionQuantityTotal := optionQuantityTotal
  stockQuantityTotal := stockQuantityTotal
  expectedReservedCapital := balance.reservedCash
  expectedCollateral := balance.collateralCash
  expectedInterest := expectedInterest
  expectedBorrowCharges := expectedBorrowCharges
  expectedFees := expectedFees

/-- The account state of a snapshot, with the figures of a margin result. -/
def stateOf (rounding : ℚ → ℚ) (configuration : AccountConfiguration)
    (balance : CashBalanceSnapshot) (marginResult : MarginResult) : AccountState :=
  accountState rounding configuration balance marginResult.postTradeBuyingPower
    marginResult.initialRequirement marginResult.maintenanceRequirement

/-- The cash not settled at that time: what the account starts with and the amounts that are
effective and settle later. -/
def cashUnsettled (configuration : AccountConfiguration) (postings : List CashPosting)
    (asOf : DateTime) : ℚ :=
  configuration.unsettledCash + effective (unsettledPart asOf) asOf postings

theorem unsettledCash_snapshot (configuration : AccountConfiguration)
    (postings : List CashPosting) (asOf : DateTime) :
    (snapshot id configuration postings asOf).unsettledCash =
      cashUnsettled configuration postings asOf := by
  simp only [snapshot, buckets_ensureAware, id_eq, cashUnsettled]

/-- An account state of the ledger reconciles exactly where no more cash is unsettled than the
tolerance allows. -/
theorem verify_snapshot_iff (engine : AccountReconciliationEngine) (ledger : CashLedgerEngine)
    (text : PyText) (configuration : AccountConfiguration) (calls : List LedgerCall)
    (asOf : DateTime) (marginResult : MarginResult) (optionQuantityTotal stockQuantityTotal
      expectedInterest expectedBorrowCharges expectedFees : ℚ) :
    (∃ result, engine.verify text id
        (stateOf id configuration (snapshot id configuration (calls.map ledger.perform) asOf)
          marginResult) marginResult
        (totalsOf (snapshot id configuration (calls.map ledger.perform) asOf) optionQuantityTotal
          stockQuantityTotal expectedInterest expectedBorrowCharges expectedFees) = .ok result) ↔
      |cashUnsettled configuration (calls.map ledger.perform) asOf| ≤ engine.tolerance := by
  have hgap : (snapshot id configuration (calls.map ledger.perform) asOf).settledCash +
      (snapshot id configuration (calls.map ledger.perform) asOf).unsettledCash -
        ((snapshot id configuration (calls.map ledger.perform) asOf).freeCash +
          (snapshot id configuration (calls.map ledger.perform) asOf).reservedCash +
          (snapshot id configuration (calls.map ledger.perform) asOf).collateralCash) =
      cashUnsettled configuration (calls.map ledger.perform) asOf := by
    rw [← unsettledCash_snapshot]
    simp only [snapshot, id_eq]
    ring
  rw [exists_verify_iff_totals]
  dsimp only [stateOf, accountState, totalsOf]
  rw [hgap, sub_self, sub_self, sub_self, sub_self, abs_zero]
  constructor
  · exact fun h => h.1
  · intro h
    have hnonneg : 0 ≤ engine.tolerance := (abs_nonneg _).trans h
    exact ⟨h, hnonneg, hnonneg, hnonneg, hnonneg⟩

/-- A request of that account without positions. -/
def idleRequest : MarginRequest where
  account := marginAccount
  positions := []
  pendingOrders := []
  settledCash := 1000
  unsettledCash := 500
  reservedCash := 200
  eventType := .postFill
  timestamp := ⟨0, some 0⟩

/-- A premium of 500 that settles the next day does not reconcile on the day it is received. -/
theorem verify_snapshot_premium :
    ¬ ∀ (engine : AccountReconciliationEngine) (ledger : CashLedgerEngine)
        (text : PyText) (configuration : AccountConfiguration) (calls : List LedgerCall)
        (asOf : DateTime) (marginResult : MarginResult) (optionQuantityTotal stockQuantityTotal
          expectedInterest expectedBorrowCharges expectedFees : ℚ),
      ∃ result, engine.verify text id
        (stateOf id configuration (snapshot id configuration (calls.map ledger.perform) asOf)
          marginResult) marginResult
        (totalsOf (snapshot id configuration (calls.map ledger.perform) asOf) optionQuantityTotal
          stockQuantityTotal expectedInterest expectedBorrowCharges expectedFees) =
            .ok result := by
  intro h
  obtain ⟨hcash, _⟩ := exists_verify_iff_totals.mp (h {} {} plainText marginAccount
    premiumAndReservation ⟨0, some 0⟩
    (({} : BaselineRegTMarginPolicy).accountResult plainText id idleRequest []) 0 0 0 0 0)
  exact absurd hcash (by decide +kernel)

end AccountReconciliationEngine
end OptionResearch
