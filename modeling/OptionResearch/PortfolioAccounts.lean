import OptionResearch.PythonValues

/-!
# Account contracts

The account records of `accounts.py` with the fields that the cash ledger and the margin policy
read or write.
-/

namespace OptionResearch

inductive AccountType where
  | cash
  | regTMargin
  | portfolioMarginPlaceholder
  | iraRestricted
  | custom
  deriving DecidableEq, Repr

def AccountType.value : AccountType → String
  | .cash => "cash"
  | .regTMargin => "reg_t_margin"
  | .portfolioMarginPlaceholder => "portfolio_margin_placeholder"
  | .iraRestricted => "ira_restricted"
  | .custom => "custom"

structure HouseMarginOverlay where
  concentrationAddOn : ℚ := 0
  eventRiskAddOn : ℚ := 0
  expirationWeekAddOn : ℚ := 0
  hardToBorrowAddOn : ℚ := 0
  shortVolAddOn : ℚ := 0
  staleQuoteAddOn : ℚ := 0

structure RiskLimits where
  minimumExcessLiquidity : ℚ := 0
  allowUncoveredOptions : Bool := false

structure AccountConfiguration where
  accountId : String
  accountType : AccountType
  baseCurrency : String
  settledCash : ℚ
  unsettledCash : ℚ
  houseMarginOverlay : HouseMarginOverlay
  riskLimits : RiskLimits

structure AccountState where
  accountId : String
  baseCurrency : String
  settledCash : ℚ
  unsettledCash : ℚ
  reservedCash : ℚ
  collateralCash : ℚ
  freeCash : ℚ
  buyingPower : ℚ
  initialRequirement : ℚ
  maintenanceRequirement : ℚ
  excessLiquidity : ℚ
  cushion : ℚ
  metadata : Payload

end OptionResearch
