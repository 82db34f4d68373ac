import Mathlib.Tactic.Linarith
import Mathlib.Tactic.Ring
import OptionResearch.MarginPolicy

/-!
# Curing a margin call

A deposit is added to the settled cash. It changes no requirement, so the excess liquidity grows by
exactly the deposit. The amount of an initial call is the difference that its trigger tests. The
trigger of a maintenance call tests the excess against the configured minimum, but its amount is the
excess alone.
-/

namespace OptionResearch

open BaselineRegTMarginPolicy

/-- The request with a deposit in its settled cash. -/
def MarginRequest.deposit (request : MarginRequest) (amount : ℚ) : MarginRequest :=
  { request with settledCash := request.settledCash + amount }

namespace BaselineRegTMarginPolicy

variable (policy : BaselineRegTMarginPolicy) (text : PyText) (rounding : ℚ → ℚ)
  (request : MarginRequest) (results : List PositionMarginResult) (amount : ℚ)

/-! ### What a deposit changes -/

theorem evaluatePosition_deposit (position : MarginPosition) :
    policy.evaluatePosition rounding position (request.deposit amount) =
      policy.evaluatePosition rounding position request := rfl

theorem positionResults_deposit :
    policy.positionResults rounding (request.deposit amount) =
      policy.positionResults rounding request := by
  simp only [positionResults, evaluatePosition_deposit]
  rfl

theorem totalInitial_deposit :
    totalInitial (request.deposit amount) results = totalInitial request results := rfl

theorem totalMaintenance_deposit :
    totalMaintenance (request.deposit amount) results = totalMaintenance request results := rfl

theorem excess_deposit :
    excess (request.deposit amount) results = excess request results + amount := by
  simp only [excess, totalMaintenance_deposit]
  simp only [MarginRequest.deposit]
  ring

theorem initialRequirement_accountResult :
    (policy.accountResult text id request results).initialRequirement =
      totalInitial request results := rfl

theorem excessLiquidity_accountResult :
    (policy.accountResult text id request results).excessLiquidity =
      excess request results := rfl

/-- The policy answers a request exactly when every position has a result. -/
theorem evaluate_eq_ok_iff {result : MarginResult} :
    policy.evaluate text rounding request = .ok result ↔
      ∃ results, policy.positionResults rounding request = .ok results ∧
        result = policy.accountResult text rounding request results := by
  unfold evaluate
  cases h : policy.positionResults rounding request with
  | error exc =>
    refine ⟨fun hresult => ?_, fun ⟨results, hresults, _⟩ => ?_⟩
    · cases hresult
    · cases hresults
  | ok results =>
    refine ⟨fun hresult => ?_, fun ⟨results', hresults, hresult⟩ => ?_⟩
    · cases hresult
      exact ⟨results, rfl, rfl⟩
    · cases hresults
      rw [hresult]
      rfl

end BaselineRegTMarginPolicy

namespace MarginMonitor

variable {policy : BaselineRegTMarginPolicy} {text : PyText} {rounding : ℚ → ℚ}
  {request : MarginRequest} {result : MarginResult} {results : List PositionMarginResult}
  {call : MarginCallEvent}

/-! ### The calls of a result -/

theorem mem_calls :
    call ∈ calls rounding request result ↔
      (request.settledCash + request.unsettledCash < result.initialRequirement ∧
        call = initialCall rounding request result) ∨
      (result.excessLiquidity < request.account.riskLimits.minimumExcessLiquidity ∧
        call = maintenanceCall rounding request result) ∨
      ((result.positions.any fun item => decide ("hard_to_borrow_add_on" ∈ item.warnings)) = true ∧
        call = borrowCall request result) := by
  simp only [calls, List.mem_append, List.mem_ite_nil_right, List.mem_singleton, or_assoc]

/-- Some call is made for this reason. -/
def Raises (events : List MarginCallEvent) (reason : MarginCallReason) : Prop :=
  ∃ call ∈ events, call.reason = reason

theorem raises_initial_iff :
    Raises (calls rounding request result) .initialMarginFailure ↔
      request.settledCash + request.unsettledCash < result.initialRequirement := by
  constructor
  · rintro ⟨call, hmem, hreason⟩
    rcases mem_calls.mp hmem with ⟨hlt, _⟩ | ⟨_, rfl⟩ | ⟨_, rfl⟩
    · exact hlt
    · cases hreason
    · cases hreason
  · exact fun hlt => ⟨_, mem_calls.mpr (.inl ⟨hlt, rfl⟩), rfl⟩

theorem raises_maintenance_iff :
    Raises (calls rounding request result) .maintenanceMarginBreach ↔
      result.excessLiquidity < request.account.riskLimits.minimumExcessLiquidity := by
  constructor
  · rintro ⟨call, hmem, hreason⟩
    rcases mem_calls.mp hmem with ⟨_, rfl⟩ | ⟨hlt, _⟩ | ⟨_, rfl⟩
    · cases hreason
    · exact hlt
    · cases hreason
  · exact fun hlt => ⟨_, mem_calls.mpr (.inr (.inl ⟨hlt, rfl⟩)), rfl⟩

theorem amountRequired_of_initial (hmem : call ∈ calls rounding request result)
    (hreason : call.reason = .initialMarginFailure) :
    call.amountRequired =
      rounding (result.initialRequirement - (request.settledCash + request.unsettledCash)) := by
  rcases mem_calls.mp hmem with ⟨_, rfl⟩ | ⟨_, rfl⟩ | ⟨_, rfl⟩
  · rfl
  · cases hreason
  · cases hreason

theorem amountRequired_of_maintenance (hmem : call ∈ calls rounding request result)
    (hreason : call.reason = .maintenanceMarginBreach) :
    call.amountRequired = rounding |result.excessLiquidity| := by
  rcases mem_calls.mp hmem with ⟨_, rfl⟩ | ⟨_, rfl⟩ | ⟨_, rfl⟩
  · cases hreason
  · rfl
  · cases hreason

/-- The monitor answers a request exactly when every position has a result. -/
theorem evaluate_eq_ok_iff {events : List MarginCallEvent} :
    (MarginMonitor.mk (policy.toAdapter text rounding)).evaluate rounding request =
        .ok (result, events) ↔
      ∃ results, policy.positionResults rounding request = .ok results ∧
        result = policy.accountResult text rounding request results ∧
        events = calls rounding request result := by
  have hmonitor : (MarginMonitor.mk (policy.toAdapter text rounding)).evaluate rounding request =
      (policy.evaluate text rounding request).map fun result =>
        (result, calls rounding request result) := by
    unfold evaluate
    cases h : policy.evaluate text rounding request with
    | error exc => simp only [BaselineRegTMarginPolicy.toAdapter, h]; rfl
    | ok result => simp only [BaselineRegTMarginPolicy.toAdapter, h]; rfl
  rw [hmonitor]
  constructor
  · intro h
    cases hresult : policy.evaluate text rounding request with
    | error exc => rw [hresult] at h; cases h
    | ok result' =>
      rw [hresult] at h
      cases h
      obtain ⟨results, hresults, heq⟩ :=
        (BaselineRegTMarginPolicy.evaluate_eq_ok_iff _ _ _ _).mp hresult
      exact ⟨results, hresults, heq, rfl⟩
  · rintro ⟨results, hresults, hresult, rfl⟩
    rw [(BaselineRegTMarginPolicy.evaluate_eq_ok_iff _ _ _ _).mpr ⟨results, hresults, hresult⟩]
    rfl

/-! ### Curing -/

/-- After a deposit the monitor answers, with no call for this reason. -/
def Cures (policy : BaselineRegTMarginPolicy) (text : PyText) (request : MarginRequest)
    (reason : MarginCallReason) (amount : ℚ) : Prop :=
  ∃ result events,
    (MarginMonitor.mk (policy.toAdapter text id)).evaluate id (request.deposit amount) =
      .ok (result, events) ∧ ¬ Raises events reason

/-- The amounts of the initial and the maintenance calls cure them, in exact arithmetic. -/
def CuresCalls (policy : BaselineRegTMarginPolicy) (text : PyText) (request : MarginRequest) :
    Prop :=
  ∀ result events,
    (MarginMonitor.mk (policy.toAdapter text id)).evaluate id request = .ok (result, events) →
    ∀ call ∈ events,
      call.reason = .initialMarginFailure ∨ call.reason = .maintenanceMarginBreach →
      Cures policy text request call.reason call.amountRequired

/-- The calls of the request with a deposit are those of the positions' results. -/
theorem cures_iff {reason : MarginCallReason} {amount : ℚ}
    (hresults : policy.positionResults id request = .ok results) :
    Cures policy text request reason amount ↔
      ¬ Raises (calls id (request.deposit amount)
        (policy.accountResult text id (request.deposit amount) results)) reason := by
  constructor
  · rintro ⟨result, events, heval, hraises⟩
    obtain ⟨results', hresults', rfl, rfl⟩ := evaluate_eq_ok_iff.mp heval
    rw [positionResults_deposit, hresults] at hresults'
    cases hresults'
    exact hraises
  · intro hraises
    have hdeposit : policy.positionResults id (request.deposit amount) = .ok results := by
      rw [positionResults_deposit, hresults]
    exact ⟨_, _, evaluate_eq_ok_iff.mpr ⟨results, hdeposit, rfl, rfl⟩, hraises⟩

/-- A deposit cures an initial call if and only if it covers the missing cash. -/
theorem cures_initial_iff {amount : ℚ}
    (hresults : policy.positionResults id request = .ok results) :
    Cures policy text request .initialMarginFailure amount ↔
      totalInitial request results - (request.settledCash + request.unsettledCash) ≤ amount := by
  rw [cures_iff hresults, raises_initial_iff, not_lt, initialRequirement_accountResult,
    totalInitial_deposit, sub_le_iff_le_add', ← add_right_comm]
  rfl

/-- A deposit cures a maintenance call if and only if it lifts the excess to the minimum. -/
theorem cures_maintenance_iff {amount : ℚ}
    (hresults : policy.positionResults id request = .ok results) :
    Cures policy text request .maintenanceMarginBreach amount ↔
      request.account.riskLimits.minimumExcessLiquidity ≤ excess request results + amount := by
  rw [cures_iff hresults, raises_maintenance_iff, not_lt, excessLiquidity_accountResult,
    excess_deposit]
  rfl

/-- The absolute value of an excess lifts it to the minimum, unless the minimum is positive and
more than twice the excess. -/
theorem le_add_abs_iff (minimum excess : ℚ) :
    (excess < minimum → minimum ≤ excess + |excess|) ↔ minimum ≤ 0 ∨ minimum ≤ 2 * excess := by
  rcases le_or_gt 0 excess with hpos | hneg
  · rw [abs_of_nonneg hpos, ← two_mul]
    constructor
    · intro h
      rcases lt_or_ge excess minimum with hlt | hge
      · exact .inr (h hlt)
      · exact .inr (by linarith)
    · rintro (h | h) hlt
      · linarith
      · exact h
  · rw [abs_of_neg hneg, add_neg_cancel]
    constructor
    · intro h
      rcases lt_or_ge excess minimum with hlt | hge
      · exact .inl (h hlt)
      · exact .inl (by linarith)
    · rintro (h | h) _
      · exact h
      · linarith

/-- Under a breach, the deposit of the absolute excess is the one that has to cure. -/
theorem cures_of_breach (hcures : CuresCalls policy text request)
    (hresults : policy.positionResults id request = .ok results)
    (hlt : excess request results < request.account.riskLimits.minimumExcessLiquidity) :
    Cures policy text request .maintenanceMarginBreach |excess request results| := by
  have hraises : Raises (calls id request (policy.accountResult text id request results))
      .maintenanceMarginBreach := raises_maintenance_iff.mpr hlt
  obtain ⟨call, hmem, hreason⟩ := hraises
  have hcured := hcures _ _ (evaluate_eq_ok_iff.mpr ⟨results, hresults, rfl, rfl⟩) call hmem
    (.inr hreason)
  rwa [hreason, amountRequired_of_maintenance hmem hreason, excessLiquidity_accountResult,
    id_eq] at hcured

/-- Every call is cured by its amount if and only if the configured minimum is not positive, or is
at most twice the cash that the maintenance requirements and the reserved cash leave. -/
theorem curesCalls_iff (policy : BaselineRegTMarginPolicy) (text : PyText)
    (request : MarginRequest) :
    CuresCalls policy text request ↔
      ∀ results, policy.positionResults id request = .ok results →
        request.account.riskLimits.minimumExcessLiquidity ≤ 0 ∨
        request.account.riskLimits.minimumExcessLiquidity ≤
          2 * (request.settledCash + request.unsettledCash - totalMaintenance request results -
            request.reservedCash) := by
  constructor
  · intro hcures results hresults
    refine (le_add_abs_iff _ (excess request results)).mp fun hlt => ?_
    have hcured := cures_of_breach hcures hresults hlt
    rwa [cures_maintenance_iff hresults] at hcured
  · intro hminimum result events heval call hmem hreason
    obtain ⟨results, hresults, rfl, rfl⟩ := evaluate_eq_ok_iff.mp heval
    rcases hreason with hinitial | hmaintenance
    · rw [amountRequired_of_initial hmem hinitial, hinitial, cures_initial_iff hresults,
        initialRequirement_accountResult, id_eq]
    · have hbreach : excess request results <
          request.account.riskLimits.minimumExcessLiquidity :=
        raises_maintenance_iff.mp ⟨call, hmem, hmaintenance⟩
      rw [amountRequired_of_maintenance hmem hmaintenance, hmaintenance,
        cures_maintenance_iff hresults, excessLiquidity_accountResult, id_eq]
      exact (le_add_abs_iff _ _).mpr (hminimum results hresults) hbreach

/-- An account without positions whose cash of 1000 is below its minimum of 5000. -/
def belowMinimum : MarginRequest where
  account := { accountId := "acct", accountType := .regTMargin, baseCurrency := "USD",
               settledCash := 1000, unsettledCash := 0, houseMarginOverlay := {},
               riskLimits := { minimumExcessLiquidity := 5000 } }
  positions := []
  pendingOrders := []
  settledCash := 1000
  unsettledCash := 0
  reservedCash := 0
  eventType := .valuation
  timestamp := ⟨0, some 0⟩

theorem excess_belowMinimum : excess belowMinimum [] = 1000 := by
  norm_num [excess, totalMaintenance, reservation, concentrationAddOns, eventRiskAddOns,
    houseAddOn, belowMinimum]

/-- The deposit of 1000 that the call asks for leaves the excess at 2000. -/
theorem not_curesCalls : ¬ CuresCalls {} plainText belowMinimum := by
  intro hcures
  have hresults : ({} : BaselineRegTMarginPolicy).positionResults id belowMinimum = .ok [] := rfl
  have hbelow : excess belowMinimum [] <
      belowMinimum.account.riskLimits.minimumExcessLiquidity := by
    rw [excess_belowMinimum]
    norm_num [belowMinimum]
  have hcured := cures_of_breach hcures hresults hbelow
  rw [cures_maintenance_iff hresults, excess_belowMinimum] at hcured
  norm_num [belowMinimum] at hcured

end MarginMonitor
end OptionResearch
