import OptionResearch.FirstOccurrences
import OptionResearch.StableSort
import OptionResearch.TemplateStorage

/-!
# Selecting a leg

`LegSelectionEngine` of `backtesting/strategies.py` filters candidates by one policy after the other
and takes the first one left. `item.dte or -1` and `item.dte or 10**9` read a contract that expires
on the day as one without days to expiration.
-/

namespace OptionResearch

open StrategyLibrary (TemplateText intOf)

namespace LegSelectionEngine

inductive SelectionPolicyType where
  | exactStrike
  | nearestStrike
  | percentItmOtm
  | targetDelta
  | targetMoneyness
  | standardDeviationDistance
  | targetPremium
  | expirationExactDate
  | nearestDte
  | minimumDte
  | maximumDte
  | weeklyVsMonthly
  | liquidity
  | qualityScore
  deriving DecidableEq, Repr

/-- A value of `parameters`. -/
inductive PolicyParameter where
  | date (d : Date)
  | value (v : PyValue)

structure LegSelectionPolicy where
  policyType : SelectionPolicyType
  parameters : InsertionDict String PolicyParameter

structure LegSelectionCandidate where
  contractIdentifier : String
  strike : Option ℚ
  expiration : Option Date
  delta : Option ℚ
  moneyness : Option ℚ
  premium : Option ℚ
  dte : Option Int
  isWeekly : Option Bool
  liquidityScore : Option ℚ
  qualityScore : Option ℚ
  deriving DecidableEq

structure LegSelectionDiagnostic where
  policy : SelectionPolicyType
  reasonCode : String
  details : List (String × InsertionDict String PolicyParameter)

structure LegSelectionResult where
  candidate : Option LegSelectionCandidate
  diagnostics : List LegSelectionDiagnostic

namespace PolicyParameter

variable (text : TemplateText)

/-- `float(parameter)`. -/
def float : PolicyParameter → Except Exc ℚ
  | .date _ => .error ⟨.typeError,
      "float() argument must be a string or a real number, not 'datetime.date'"⟩
  | .value v => text.toPyText.float v

/-- `int(parameter)`. -/
def int : PolicyParameter → Except Exc Int
  | .date _ => .error ⟨.typeError,
      "int() argument must be a string, a bytes-like object or a real " ++
      "number, not 'datetime.date'"⟩
  | .value v => intOf text v

/-- `str(parameter)`. -/
def str : PolicyParameter → String
  | .date d => d.isoformat
  | .value v => text.toPyText.str v

/-- `bool(parameter)`. -/
def truthy : PolicyParameter → Bool
  | .date _ => true
  | .value .none => false
  | .value (.bool b) => b
  | .value (.int n) => n ≠ 0
  | .value (.float q) => q ≠ 0
  | .value (.str s) => s ≠ ""
  | .value (.datetime _) => true
  | .value (.list items) | .value (.tuple items) => !items.isEmpty
  | .value (.dict entries) => !entries.isEmpty

/-- `expiration == parameter`. -/
def isExpiration (expiration : Option Date) : PolicyParameter → Bool
  | .date d => expiration = some d
  | .value .none => expiration = none
  | .value _ => false

end PolicyParameter

namespace LegSelectionPolicy

variable (text : TemplateText) (policy : LegSelectionPolicy)

/-- `policy.parameters[key]`. -/
def item (key : String) : Except Exc PolicyParameter :=
  match policy.parameters.get? key with
  | some parameter => .ok parameter
  | none => .error ⟨.other "KeyError", s!"'{key}'"⟩

/-- `float(policy.parameters[key])`. -/
def floatItem (key : String) : Except Exc ℚ := do (← policy.item key).float text

/-- `int(policy.parameters[key])`. -/
def intItem (key : String) : Except Exc Int := do (← policy.item key).int text

/-- `float(policy.parameters.get(key, 0.0))`. -/
def floatOrZero (key : String) : Except Exc ℚ :=
  ((policy.parameters.get? key).getD (.value (.float 0))).float text

end LegSelectionPolicy

variable (text : TemplateText) (candidates : List LegSelectionCandidate)

/-- `sorted(...)[:1]` of the candidates that have the field, by its distance from the target. -/
def nearest {K : Type} [AddGroup K] [LinearOrder K] (field : LegSelectionCandidate → Option K)
    (target : K) : List LegSelectionCandidate :=
  (StableSort.sortBy (fun row => |(field row).getD 0 - target|)
    (candidates.filter fun item => (field item).isSome)).take 1

/-- `_apply_policy`. -/
def applyPolicy (policy : LegSelectionPolicy) : Except Exc (List LegSelectionCandidate) :=
  match policy.policyType with
  | .exactStrike => do
    let target ← policy.floatItem text "strike"
    return candidates.filter fun item => item.strike = some target
  | .nearestStrike => do
    let target ← policy.floatItem text "strike"
    return (StableSort.sortBy (fun row : LegSelectionCandidate => |row.strike.getD 0 - target|)
      candidates).take 1
  | .targetDelta => return nearest candidates (·.delta) (← policy.floatItem text "delta")
  | .targetMoneyness =>
    return nearest candidates (·.moneyness) (← policy.floatItem text "moneyness")
  | .targetPremium => return nearest candidates (·.premium) (← policy.floatItem text "premium")
  | .expirationExactDate => do
    let target ← policy.item "expiration"
    return candidates.filter fun item => target.isExpiration item.expiration
  | .nearestDte => return nearest candidates (·.dte) (← policy.intItem text "dte")
  | .minimumDte => do
    let threshold ← policy.intItem text "minimum_dte"
    -- `item.dte or -1`: neither `None` nor zero is truthy
    return candidates.filter fun item =>
      threshold ≤ (if item.dte.getD 0 = 0 then -1 else item.dte.getD 0)
  | .maximumDte => do
    let threshold ← policy.intItem text "maximum_dte"
    return candidates.filter fun item =>
      (if item.dte.getD 0 = 0 then 10 ^ 9 else item.dte.getD 0) ≤ threshold
  | .weeklyVsMonthly =>
    let preferWeekly :=
      ((policy.parameters.get? "prefer_weekly").getD (.value (.bool true))).truthy
    return candidates.filter fun item => item.isWeekly = none ∨ item.isWeekly = some preferWeekly
  | .liquidity => do
    let minimum ← policy.floatOrZero text "minimum_liquidity"
    return candidates.filter fun item => minimum ≤ item.liquidityScore.getD 0
  | .qualityScore => do
    let minimum ← policy.floatOrZero text "minimum_quality"
    return candidates.filter fun item => minimum ≤ item.qualityScore.getD 0
  | .percentItmOtm => do
    let percentThreshold ← policy.floatOrZero text "percent"
    let direction := ((policy.parameters.get? "direction").getD (.value (.str "otm"))).str text
    if direction = "itm" then
      return candidates.filter fun item =>
        item.moneyness.any fun moneyness => moneyness < 1 - percentThreshold
    else
      return candidates.filter fun item =>
        item.moneyness.any fun moneyness => 1 + percentThreshold < moneyness
  | .standardDeviationDistance =>
    return nearest candidates (·.moneyness) (← policy.floatOrZero text "target_std_dev")

/-- `select_leg`. -/
def selectLeg : List LegSelectionCandidate → List LegSelectionPolicy → Except Exc LegSelectionResult
  | filtered, [] => .ok ⟨filtered.head?, []⟩
  | filtered, policy :: rest => do
    let filtered ← applyPolicy text filtered policy
    if filtered = [] then
      return ⟨none,
        [⟨policy.policyType, "no_candidates_after_policy", [("parameters", policy.parameters)]⟩]⟩
    else selectLeg filtered rest

/-! ### The conditions that filtering policies declare -/

inductive LegCondition where
  | strike (target : ℚ)
  | expiration (target : PolicyParameter)
  | minimumDte (threshold : Int)
  | maximumDte (threshold : Int)
  | liquidity (minimum : ℚ)
  | quality (minimum : ℚ)

namespace LegCondition

/-- A candidate satisfies a condition on a field only where it has the field. -/
def Holds (candidate : LegSelectionCandidate) : LegCondition → Prop
  | .strike target => candidate.strike = some target
  | .expiration target => target.isExpiration candidate.expiration = true
  | .minimumDte threshold => ∃ dte ∈ candidate.dte, threshold ≤ dte
  | .maximumDte threshold => ∃ dte ∈ candidate.dte, dte ≤ threshold
  | .liquidity minimum => ∃ score ∈ candidate.liquidityScore, minimum ≤ score
  | .quality minimum => ∃ score ∈ candidate.qualityScore, minimum ≤ score

instance (candidate : LegSelectionCandidate) (condition : LegCondition) :
    Decidable (condition.Holds candidate) :=
  match condition with
  | .strike _ => inferInstanceAs (Decidable (_ = _))
  | .expiration _ => inferInstanceAs (Decidable (_ = _))
  | .minimumDte _ => inferInstanceAs (Decidable (∃ dte ∈ candidate.dte, _))
  | .maximumDte _ => inferInstanceAs (Decidable (∃ dte ∈ candidate.dte, _))
  | .liquidity _ => inferInstanceAs (Decidable (∃ score ∈ candidate.liquidityScore, _))
  | .quality _ => inferInstanceAs (Decidable (∃ score ∈ candidate.qualityScore, _))

end LegCondition

/-- A filtering policy declares a condition; thresholds of scores are positive. -/
def LegSelectionPolicy.Declares (policy : LegSelectionPolicy) : LegCondition → Prop
  | .strike target => policy.policyType = .exactStrike ∧ policy.floatItem text "strike" = .ok target
  | .expiration target =>
    policy.policyType = .expirationExactDate ∧ policy.item "expiration" = .ok target
  | .minimumDte threshold =>
    policy.policyType = .minimumDte ∧ policy.intItem text "minimum_dte" = .ok threshold
  | .maximumDte threshold =>
    policy.policyType = .maximumDte ∧ policy.intItem text "maximum_dte" = .ok threshold
  | .liquidity minimum => policy.policyType = .liquidity ∧
      policy.floatOrZero text "minimum_liquidity" = .ok minimum ∧ 0 < minimum
  | .quality minimum => policy.policyType = .qualityScore ∧
      policy.floatOrZero text "minimum_quality" = .ok minimum ∧ 0 < minimum

end LegSelectionEngine
end OptionResearch
