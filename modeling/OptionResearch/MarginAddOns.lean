import Mathlib.Algebra.BigOperators.Group.List.Basic
import Mathlib.Algebra.Order.BigOperators.Group.List
import OptionResearch.MarginCalls

/-!
# What the margin add-ons are charged on

The event and concentration add-ons of a position are shares of its base requirement, and they are
part of the requirement that `_evaluate_position` returns. `evaluate` sums these requirements and
then adds the same add-ons again, as figures of the account. Beside the base, every add-on is so
charged twice.
-/

namespace OptionResearch

/-- The position without event risk, its concentration capped where the add-on starts. -/
def MarginPosition.plain (position : MarginPosition) : MarginPosition :=
  { position with eventRisk := false, concentration := min position.concentration (2 / 10) }

def MarginRequest.plain (request : MarginRequest) : MarginRequest :=
  { request with positions := request.positions.map MarginPosition.plain }

namespace MarginResult

/-- The add-ons as the account's own figures report them. -/
def addOns (result : MarginResult) : ℚ :=
  result.concentrationAddOns + result.eventRiskAddOns + result.houseMarginAddOns

/-- All four reservations. -/
def reservations (result : MarginResult) : ℚ :=
  result.pendingOrderReservation + result.assignmentReservation + result.exerciseReservation +
    result.settlementReservation

/-- The reservations that the maintenance requirement holds. -/
def maintainedReservations (result : MarginResult) : ℚ :=
  result.assignmentReservation + result.settlementReservation

end MarginResult

namespace BaselineRegTMarginPolicy

variable (policy : BaselineRegTMarginPolicy) (text : PyText)

/-! ### The figures of one position -/

/-- The part of its base requirement that a position bears for event risk. -/
def eventRate (position : MarginPosition) : ℚ := if position.eventRisk then 10 / 100 else 0

/-- The part of its base requirement that a position bears for its concentration. -/
def concentrationRate (position : MarginPosition) : ℚ := max 0 (position.concentration - 2 / 10)

def addOnRate (position : MarginPosition) : ℚ := eventRate position + concentrationRate position

/-- The requirement of the position's family, nothing where the family raises. -/
def familyBase (position : MarginPosition) (request : MarginRequest) : FamilyRequirement :=
  (familyRequirement position request).toOption.getD { initial := 0, maintenance := 0 }

def baseInitial (position : MarginPosition) (request : MarginRequest) : ℚ :=
  if position.residualUncovered
  then max (familyBase position request).initial (|position.marketValue| * (20 / 100))
  else (familyBase position request).initial

def baseMaintenance (position : MarginPosition) (request : MarginRequest) : ℚ :=
  if position.residualUncovered
  then max (familyBase position request).maintenance (|position.marketValue| * (15 / 100))
  else (familyBase position request).maintenance

/-- The add-ons that a position's requirement contains. -/
def addOnCharge (position : MarginPosition) (request : MarginRequest) : ℚ :=
  baseInitial position request * addOnRate position

variable {policy text} {position : MarginPosition} {request : MarginRequest}
  {result : PositionMarginResult} {results : List PositionMarginResult}

theorem eventRate_nonneg : 0 ≤ eventRate position := by
  unfold eventRate
  split_ifs
  · norm_num
  · exact le_rfl

theorem concentrationRate_nonneg : 0 ≤ concentrationRate position := le_max_left _ _

theorem addOnRate_nonneg : 0 ≤ addOnRate position :=
  add_nonneg eventRate_nonneg concentrationRate_nonneg

/-- Up to the threshold the concentration does not matter. -/
theorem addOnRate_eq_zero (hevent : position.eventRisk = false)
    (hconcentration : position.concentration ≤ 2 / 10) : addOnRate position = 0 := by
  have hzero : concentrationRate position = 0 := max_eq_left (sub_nonpos.mpr hconcentration)
  rw [addOnRate, eventRate, hevent, hzero, add_zero]
  rfl

@[simp] theorem addOnRate_plain : addOnRate position.plain = 0 :=
  addOnRate_eq_zero rfl (min_le_right _ _)

@[simp] theorem baseInitial_plain :
    baseInitial position.plain request.plain = baseInitial position request := rfl

@[simp] theorem baseMaintenance_plain :
    baseMaintenance position.plain request.plain = baseMaintenance position request := rfl

theorem structureLoss_nonneg : 0 ≤ structureLoss position := by
  unfold structureLoss
  split
  · exact le_max_left _ _
  · exact le_max_left _ _

theorem definedRiskLoss_nonneg : 0 ≤ definedRiskLoss position := by
  unfold definedRiskLoss
  split_ifs
  · exact abs_nonneg _
  · exact le_max_of_le_left structureLoss_nonneg
  · exact structureLoss_nonneg

variable (request) in
/-- Every family but the cash-secured put has a requirement, which is not negative. -/
theorem familyRequirement_nonneg (hput : position.strategyFamily ≠ "cash_secured_put") :
    Returns (0 ≤ ·.initial) (familyRequirement position request) := by
  have hmarket : 0 ≤ |position.marketValue| := abs_nonneg _
  have hloss : 0 ≤ definedRiskLoss position := definedRiskLoss_nonneg
  have hpremium : 0 ≤ max 0 position.netPremium := le_max_left _ _
  simp only [familyRequirement]
  -- one branch for each group of families
  apply iteInduction
  · exact fun _ => returns_ok (by positivity)
  intro _
  apply iteInduction
  · exact fun _ => returns_ok (by positivity)
  intro _
  apply iteInduction
  · exact fun _ => returns_ok hpremium
  intro _
  apply iteInduction
  · exact fun _ => returns_ok (le_max_right _ _)
  intro _
  rw [if_neg hput]
  apply iteInduction
  · exact fun _ => returns_ok hpremium
  intro _
  apply iteInduction
  · exact fun _ => returns_ok hloss
  intro _
  apply iteInduction
  · exact fun _ => returns_ok (le_max_of_le_left hloss)
  intro _
  apply iteInduction
  · exact fun _ => returns_ok (le_max_of_le_right hloss)
  · exact fun _ => returns_ok (le_max_of_le_left hloss)

/-- Only a cash-secured put needs a leg. -/
theorem familyRequirement_returns_iff :
    (∃ base, familyRequirement position request = .ok base) ↔
      (position.strategyFamily = "cash_secured_put" → position.legs ≠ []) := by
  by_cases hput : position.strategyFamily = "cash_secured_put"
  · cases hlegs : position.legs with
    | nil =>
      have hraises : familyRequirement position request =
          .error ⟨.valueError, "max() iterable argument is empty"⟩ := by
        simp [familyRequirement, hput, hlegs, maxOf]
      constructor
      · rintro ⟨base, hbase⟩
        rw [hraises] at hbase
        cases hbase
      · exact fun h => absurd rfl (h hput)
    | cons leg rest =>
      constructor
      · exact fun _ _ => List.cons_ne_nil _ _
      · intro _
        simp [familyRequirement, hput, hlegs, maxOf]
  · obtain ⟨base, hbase, _⟩ := familyRequirement_nonneg request hput
    constructor
    · exact fun _ h => absurd h hput
    · exact fun _ => ⟨base, hbase⟩

variable (policy) in
/-- A position has a result if and only if its family has a requirement. -/
theorem evaluatePosition_returns_iff :
    (∃ result, policy.evaluatePosition id position request = .ok result) ↔
      ∃ base, familyRequirement position request = .ok base := by
  constructor
  · rintro ⟨result, hresult⟩
    obtain ⟨base, hbase, _⟩ := except_bind_eq_ok.mp hresult
    exact ⟨base, hbase⟩
  · rintro ⟨base, hbase⟩
    exact ⟨_, except_bind_eq_ok.mpr ⟨base, hbase, rfl⟩⟩

/-- The figures of a position's result, over its base requirement. -/
theorem figures_of_evaluatePosition
    (hresult : policy.evaluatePosition id position request = .ok result) :
    result.initialRequirement =
        baseInitial position request + addOnCharge position request ∧
      result.maintenanceRequirement =
        baseMaintenance position request + addOnCharge position request := by
  obtain ⟨base, hbase, hresult⟩ := except_bind_eq_ok.mp hresult
  have hfamily : familyBase position request = base := by
    rw [familyBase, hbase]
    rfl
  cases hresult
  simp only [baseInitial, baseMaintenance, addOnCharge, addOnRate, mul_add, hfamily]
  exact ⟨rfl, rfl⟩

/-! ### The figures of the account -/

/-- The sum of a figure that has a base and the add-ons of the position. -/
theorem sum_of_positionResults {figure : PositionMarginResult → ℚ}
    {base : MarginPosition → MarginRequest → ℚ}
    (hfigure : ∀ position result, policy.evaluatePosition id position request = .ok result →
      figure result = base position request + addOnCharge position request)
    (hresults : policy.positionResults id request = .ok results) :
    (results.map figure).sum =
      (request.positions.map (base · request)).sum +
        (request.positions.map (addOnCharge · request)).sum := by
  rw [← List.sum_map_add]
  congr 1
  exact map_eq_of_mapM_eq_ok hresults hfigure

theorem initials_of_positionResults
    (hresults : policy.positionResults id request = .ok results) :
    (results.map (·.initialRequirement)).sum =
      (request.positions.map (baseInitial · request)).sum +
        (request.positions.map (addOnCharge · request)).sum :=
  sum_of_positionResults (fun _ _ hresult => (figures_of_evaluatePosition hresult).1) hresults

theorem maintenances_of_positionResults
    (hresults : policy.positionResults id request = .ok results) :
    (results.map (·.maintenanceRequirement)).sum =
      (request.positions.map (baseMaintenance · request)).sum +
        (request.positions.map (addOnCharge · request)).sum :=
  sum_of_positionResults (fun _ _ hresult => (figures_of_evaluatePosition hresult).2) hresults

variable (policy) in
theorem positionResults_returns_iff :
    (∃ results, policy.positionResults id request = .ok results) ↔
      ∀ position ∈ request.positions,
        position.strategyFamily = "cash_secured_put" → position.legs ≠ [] := by
  constructor
  · rintro ⟨results, hresults⟩ position hposition
    obtain ⟨result, _, hresult⟩ := (mapM_eq_ok_mem hresults).1 position hposition
    have hreturns := (evaluatePosition_returns_iff policy).mp ⟨result, hresult⟩
    exact familyRequirement_returns_iff.mp hreturns
  · intro hlegs
    apply exists_mapM_eq_ok
    intro position hposition
    exact (evaluatePosition_returns_iff policy).mpr
      (familyRequirement_returns_iff.mpr (hlegs position hposition))

@[simp] theorem addOnCharge_plain : addOnCharge position.plain request.plain = 0 := by
  rw [addOnCharge, addOnRate_plain, mul_zero]

theorem positions_plain : request.plain.positions = request.positions.map MarginPosition.plain :=
  rfl

/-- Without add-ons the positions' requirements are their base requirements. -/
theorem initials_of_plain (hbases : policy.positionResults id request.plain = .ok results) :
    (results.map (·.initialRequirement)).sum =
      (request.positions.map (baseInitial · request)).sum := by
  rw [initials_of_positionResults hbases, positions_plain, List.map_map, List.map_map]
  simp [Function.comp_def]

theorem maintenances_of_plain (hbases : policy.positionResults id request.plain = .ok results) :
    (results.map (·.maintenanceRequirement)).sum =
      (request.positions.map (baseMaintenance · request)).sum := by
  rw [maintenances_of_positionResults hbases, positions_plain, List.map_map, List.map_map]
  simp [Function.comp_def]

theorem positionResults_plain_returns_iff :
    (∃ results, policy.positionResults id request.plain = .ok results) ↔
      ∃ results, policy.positionResults id request = .ok results := by
  rw [positionResults_returns_iff, positionResults_returns_iff, positions_plain]
  constructor
  · intro h position hposition
    exact h position.plain (List.mem_map_of_mem hposition)
  · intro h plain hplain
    obtain ⟨position, hposition, rfl⟩ := List.mem_map.mp hplain
    exact h position hposition

/-! ### Charging once -/

/-- Every add-on and reservation is charged once, over the requirements that `evaluate` finds
without event risk and concentration. `maintained` are the reservations the maintenance
requirement should hold. -/
def ChargedOnce (policy : BaselineRegTMarginPolicy) (text : PyText) (request : MarginRequest)
    (maintained : MarginResult → ℚ) : Prop :=
  ∃ result base,
    policy.evaluate text id request = .ok result ∧
    policy.evaluate text id request.plain = .ok base ∧
    result.initialRequirement =
      (base.positions.map (·.initialRequirement)).sum + result.addOns + result.reservations ∧
    result.maintenanceRequirement =
      (base.positions.map (·.maintenanceRequirement)).sum + result.addOns + maintained result

/-- The add-ons within the positions' requirements cancel. -/
def AddOnsVanish (request : MarginRequest) : Prop :=
  (request.positions.map (addOnCharge · request)).sum = 0

/-- Only the premium of a cash-secured put can exceed its collateral. -/
theorem baseInitial_nonneg (hput : position.strategyFamily ≠ "cash_secured_put") :
    0 ≤ baseInitial position request := by
  obtain ⟨base, hbase, hnonneg⟩ := familyRequirement_nonneg request hput
  have hfamily : 0 ≤ (familyBase position request).initial := by
    rw [familyBase, hbase]
    exact hnonneg
  unfold baseInitial
  split_ifs
  · exact le_max_of_le_left hfamily
  · exact hfamily

/-- Where no base requirement is negative, the add-ons vanish position by position. -/
theorem addOnsVanish_iff
    (hbase : ∀ position ∈ request.positions, 0 ≤ baseInitial position request) :
    AddOnsVanish request ↔
      ∀ position ∈ request.positions,
        baseInitial position request = 0 ∨ addOnRate position = 0 := by
  have hcharge : ∀ charge ∈ request.positions.map (addOnCharge · request), 0 ≤ charge := by
    intro charge hmem
    obtain ⟨position, hposition, rfl⟩ := List.mem_map.mp hmem
    exact mul_nonneg (hbase position hposition) addOnRate_nonneg
  constructor
  · intro hvanish position hposition
    have hzero : addOnCharge position request = 0 :=
      List.all_zero_of_le_zero_le_of_sum_eq_zero hcharge hvanish (List.mem_map_of_mem hposition)
    exact mul_eq_zero.mp hzero
  · intro hzero
    apply List.sum_eq_zero
    intro charge hmem
    obtain ⟨position, hposition, rfl⟩ := List.mem_map.mp hmem
    exact mul_eq_zero.mpr (hzero position hposition)

/-- Charging once, over the results of the positions with and without their add-ons. -/
theorem chargedOnce_iff_figures {maintained : MarginResult → ℚ} {bases : List PositionMarginResult}
    (hresults : policy.positionResults id request = .ok results)
    (hbases : policy.positionResults id request.plain = .ok bases) :
    ChargedOnce policy text request maintained ↔
      totalInitial request results = (bases.map (·.initialRequirement)).sum +
        (policy.accountResult text id request results).addOns +
        (policy.accountResult text id request results).reservations ∧
      totalMaintenance request results = (bases.map (·.maintenanceRequirement)).sum +
        (policy.accountResult text id request results).addOns +
        maintained (policy.accountResult text id request results) := by
  constructor
  · rintro ⟨result, base, hresult, hbase, hcharged⟩
    obtain ⟨results', hresults', rfl⟩ := (evaluate_eq_ok_iff ..).mp hresult
    obtain ⟨bases', hbases', rfl⟩ := (evaluate_eq_ok_iff ..).mp hbase
    cases hresults.symm.trans hresults'
    cases hbases.symm.trans hbases'
    exact hcharged
  · intro hcharged
    exact ⟨_, _, (evaluate_eq_ok_iff ..).mpr ⟨results, hresults, rfl⟩,
      (evaluate_eq_ok_iff ..).mpr ⟨bases, hbases, rfl⟩, hcharged⟩

/-- The requirements charge once if and only if the add-ons vanish, whichever the maintained
reservations are. -/
theorem chargedOnce_iff_of_results {maintained : MarginResult → ℚ}
    (hresults : policy.positionResults id request = .ok results) :
    ChargedOnce policy text request maintained ↔
      AddOnsVanish request ∧
        maintained (policy.accountResult text id request results) =
          (policy.accountResult text id request results).maintainedReservations := by
  obtain ⟨bases, hbases⟩ := positionResults_plain_returns_iff.mpr ⟨results, hresults⟩
  have hinitial := initials_of_positionResults hresults
  have hmaintenance := maintenances_of_positionResults hresults
  rw [← initials_of_plain hbases] at hinitial
  rw [← maintenances_of_plain hbases] at hmaintenance
  have haddOns : (policy.accountResult text id request results).addOns =
      concentrationAddOns results + eventRiskAddOns results +
        houseAddOn request.account.houseMarginOverlay request.positions := rfl
  have hreservations : (policy.accountResult text id request results).reservations =
      reservation request "pending_order" + reservation request "assignment" +
        reservation request "exercise" + reservation request "settlement" := rfl
  have hheld : (policy.accountResult text id request results).maintainedReservations =
      reservation request "assignment" + reservation request "settlement" := rfl
  rw [chargedOnce_iff_figures hresults hbases, totalInitial, totalMaintenance, hinitial,
    hmaintenance, haddOns, hreservations, hheld, AddOnsVanish]
  constructor
  · rintro ⟨hcharged, hmaintained⟩
    have hvanish : (request.positions.map (addOnCharge · request)).sum = 0 := by linarith
    exact ⟨hvanish, by linarith⟩
  · rintro ⟨hvanish, hmaintained⟩
    constructor
    · linarith
    · linarith

/-- Every add-on is charged once if and only if every cash-secured put has a leg and the add-ons of
the positions vanish. With all four reservations in the maintenance requirement, the pending-order
and exercise reservations have to vanish too. -/
theorem chargedOnce_iff (policy : BaselineRegTMarginPolicy) (text : PyText)
    (request : MarginRequest) :
    (ChargedOnce policy text request MarginResult.maintainedReservations ↔
      (∀ position ∈ request.positions,
        position.strategyFamily = "cash_secured_put" → position.legs ≠ []) ∧
      AddOnsVanish request) ∧
    (ChargedOnce policy text request MarginResult.reservations ↔
      ((∀ position ∈ request.positions,
        position.strategyFamily = "cash_secured_put" → position.legs ≠ []) ∧
      AddOnsVanish request) ∧
      reservation request "pending_order" + reservation request "exercise" = 0) := by
  have hreturns : ∀ maintained, ChargedOnce policy text request maintained →
      ∃ results, policy.positionResults id request = .ok results := by
    rintro maintained ⟨result, base, hresult, _⟩
    obtain ⟨results, hresults, _⟩ := (evaluate_eq_ok_iff ..).mp hresult
    exact ⟨results, hresults⟩
  rw [← positionResults_returns_iff policy]
  constructor
  · constructor
    · intro hcharged
      obtain ⟨results, hresults⟩ := hreturns _ hcharged
      exact ⟨⟨results, hresults⟩, ((chargedOnce_iff_of_results hresults).mp hcharged).1⟩
    · rintro ⟨⟨results, hresults⟩, hvanish⟩
      exact (chargedOnce_iff_of_results hresults).mpr ⟨hvanish, rfl⟩
  · have hall : ∀ results, (policy.accountResult text id request results).reservations =
          (policy.accountResult text id request results).maintainedReservations +
            (reservation request "pending_order" + reservation request "exercise") := by
      intro results
      change reservation request "pending_order" + reservation request "assignment" +
          reservation request "exercise" + reservation request "settlement" =
        reservation request "assignment" + reservation request "settlement" +
          (reservation request "pending_order" + reservation request "exercise")
      ring
    constructor
    · intro hcharged
      obtain ⟨results, hresults⟩ := hreturns _ hcharged
      obtain ⟨hvanish, hmaintained⟩ := (chargedOnce_iff_of_results hresults).mp hcharged
      rw [hall, add_eq_left] at hmaintained
      exact ⟨⟨⟨results, hresults⟩, hvanish⟩, hmaintained⟩
    · rintro ⟨⟨⟨results, hresults⟩, hvanish⟩, hzero⟩
      apply (chargedOnce_iff_of_results hresults).mpr
      rw [hall, hzero, add_zero]
      exact ⟨hvanish, rfl⟩

/-- One long option bought for 100, with event risk. -/
def eventRiskRequest : MarginRequest where
  account := { accountId := "acct", accountType := .regTMargin, baseCurrency := "USD",
               settledCash := 1000, unsettledCash := 0, houseMarginOverlay := {},
               riskLimits := {} }
  positions := [{ positionId := "p-1", strategyId := "s-1", strategyFamily := "long_option",
                  legs := [], marketValue := 100, netPremium := 100, definedRisk := true,
                  eventRisk := true }]
  pendingOrders := []
  settledCash := 1000
  unsettledCash := 0
  reservedCash := 0
  eventType := .valuation
  timestamp := ⟨0, some 0⟩

/-- Its event add-on of 10 is within the requirement of 110, which the account raises to 120. -/
theorem not_chargedOnce :
    ¬ ChargedOnce {} plainText eventRiskRequest MarginResult.maintainedReservations ∧
      ¬ ChargedOnce {} plainText eventRiskRequest MarginResult.reservations := by
  have hlegs : ∀ position ∈ eventRiskRequest.positions,
      position.strategyFamily = "cash_secured_put" → position.legs ≠ [] := by
    intro position hposition hput
    obtain rfl := List.mem_singleton.mp hposition
    exact absurd hput (by decide)
  obtain ⟨results, hresults⟩ :=
    (positionResults_returns_iff {}).mpr hlegs
  have hbase : ∀ position ∈ eventRiskRequest.positions,
      baseInitial position eventRiskRequest = max 0 100 := by
    intro position hposition
    obtain rfl := List.mem_singleton.mp hposition
    rfl
  have hvanish : ¬ AddOnsVanish eventRiskRequest := by
    intro hvanish
    rw [AddOnsVanish, List.map_congr_left fun position hposition => by
      rw [addOnCharge, hbase position hposition]] at hvanish
    norm_num [eventRiskRequest, addOnRate, eventRate, concentrationRate] at hvanish
  constructor
  · exact fun hcharged => hvanish ((chargedOnce_iff_of_results hresults).mp hcharged).1
  · exact fun hcharged => hvanish ((chargedOnce_iff_of_results hresults).mp hcharged).1

end BaselineRegTMarginPolicy
end OptionResearch
