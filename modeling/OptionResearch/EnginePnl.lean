import Mathlib.Tactic.Linarith
import OptionResearch.EngineLedger

/-!
# The profit and loss a run reports

No handler writes to the cash and P&L aggregates of the engine state, so a run reports the values
it started from and its equity curve is flat. The reported figures are those of the positions
exactly where the positions' own figures sum to nothing.
-/

namespace OptionResearch

namespace BacktestEngineState

/-- The aggregates the snapshots and the result report. -/
def aggregates (s : BacktestEngineState) : ℚ × ℚ × ℚ :=
  (s.cashBalance, s.realizedPnl, s.unrealizedPnl)

/-- The realized P&L of the positions closed so far. -/
def closedRealized (s : BacktestEngineState) : ℚ := (s.closedPositions.map (·.realizedPnl)).sum

/-- The unrealized P&L of the positions held, where each of them has one. -/
def openUnrealized (s : BacktestEngineState) : Except Exc ℚ := do
  let amounts ← s.openPositions.mapM fun position =>
    position.attr "unrealized_pnl" (·.unrealizedPnl)
  return amounts.sum

end BacktestEngineState

namespace BacktestingEngine

open Effect

variable {σ : Type} (engine : BacktestingEngine) (strategy : StrategyObject σ)
  (configuration : BacktestConfiguration) (lookup : Option (InformationLookup σ))

/-- The time and the engine state of the valuation at this event, if it is one that is reached. -/
def valuationAt (event : DeterministicEvent) (w : BacktestEngineState × σ) :
    Option (DateTime × BacktestEngineState) :=
  match exec (engine.informationSet lookup event) w.2 with
  | (.error _, _) => none
  | (.ok _, _) =>
    match snapshot w.1 event.timestamp with
    | .error _ => none
    | .ok _ => if event.eventType = .valuation then some (event.timestamp, w.1) else none

/-- The valuations of a run over `events` from `w`, in order. -/
def valuations : List DeterministicEvent → BacktestEngineState × σ →
    List (DateTime × BacktestEngineState)
  | [], _ => []
  | event :: rest, w => (engine.valuationAt lookup event w).toList ++
      valuations rest (exec (engine.runEvent strategy configuration lookup event) w).2

variable {engine strategy configuration lookup}

theorem EntryStep.aggregates_eq {context : EventContext} {s s' : BacktestEngineState} {e e' : σ}
    {r : Except Exc Unit} (h : EntryStep engine strategy context s e r s' e') :
    s'.aggregates = s.aggregates ∧ s'.snapshots = s.snapshots := by
  cases h <;> exact ⟨rfl, rfl⟩

theorem LifecycleStep.aggregates_eq {context : EventContext} {s s' : BacktestEngineState}
    {e e' : σ} {r : Except Exc Unit}
    (h : LifecycleStep engine strategy context s e r s' e') :
    s'.aggregates = s.aggregates ∧ s'.snapshots = s.snapshots := by
  cases h with
  | entryRaised entry => exact entry.aggregates_eq
  | loopRaised entry loop => exact entry.aggregates_eq
  | finished entry loop => exact entry.aggregates_eq

theorem snapshot_point {s : BacktestEngineState} {timestamp : DateTime} {snap : PortfolioSnapshot}
    (h : snapshot s timestamp = .ok snap) :
    snap.timestamp = timestamp ∧
      (snap.cashBalance, snap.realizedPnl, snap.unrealizedPnl) = s.aggregates := by
  unfold snapshot at h
  obtain ⟨greeks, _, h⟩ := except_bind_eq_ok.mp h
  cases h
  exact ⟨rfl, rfl⟩

/-- The point of the equity curve a valuation of this state leaves. -/
def equityPoint (valuation : DateTime × BacktestEngineState) : DateTime × ℚ :=
  (valuation.1, valuation.2.cashBalance + valuation.2.realizedPnl + valuation.2.unrealizedPnl)

theorem valuationAt_of_unseen {event : DeterministicEvent} {s : BacktestEngineState} {e : σ}
    (unseen : ∀ audits e₁, exec (engine.informationSet lookup event) e = (.ok audits, e₁) →
      ∀ snap, snapshot s event.timestamp ≠ .ok snap) :
    engine.valuationAt lookup event (s, e) = none := by
  unfold valuationAt
  rcases hseen : exec (engine.informationSet lookup event) e with ⟨x | audits, e₁⟩
  · rfl
  · cases htaken : snapshot s event.timestamp with
    | error x => rfl
    | ok snap => exact absurd htaken (unseen audits e₁ hseen snap)

/-- The handlers leave the aggregates alone, and only the valuation handler adds a point. -/
theorem DispatchStep.aggregates_eq {event : DeterministicEvent}
    {audits : List InformationSetAudit} {snap : PortfolioSnapshot} {row : LedgerRecord}
    {s s' : BacktestEngineState} {e e₁ e' : σ} {r : Except Exc Unit}
    (seen : exec (engine.informationSet lookup event) e = (.ok audits, e₁))
    (taken : snapshot s event.timestamp = .ok snap)
    (h : DispatchStep engine strategy (eventContext event audits s snap) (s.appendEvent row) e₁ r
      s' e') :
    s'.aggregates = s.aggregates ∧ equityCurve s' =
      equityCurve s ++ (engine.valuationAt lookup event (s, e)).toList.map equityPoint := by
  have hat : engine.valuationAt lookup event (s, e) =
      if event.eventType = .valuation then some (event.timestamp, s) else none := by
    simp only [valuationAt, seen, taken]
  have hquiet {type : EventType} (htype : event.eventType = type) (hne : type ≠ .valuation)
      {s' : BacktestEngineState} (haggregates : s'.aggregates = s.aggregates)
      (hsnapshots : s'.snapshots = s.snapshots) :
      s'.aggregates = s.aggregates ∧ equityCurve s' =
        equityCurve s ++ (engine.valuationAt lookup event (s, e)).toList.map equityPoint := by
    rw [hat, htype, if_neg hne]
    refine ⟨haggregates, ?_⟩
    rw [equityCurve, hsnapshots]
    exact (List.append_nil _).symm
  cases h with
  | lifecycle type step =>
    have htype : runsLifecycle event.eventType = true := type
    have hne : event.eventType ≠ .valuation := by
      intro h
      rw [h] at htype
      cases htype
    obtain ⟨haggregates, hsnapshots⟩ := step.aggregates_eq
    exact hquiet rfl hne haggregates hsnapshots
  | valuation type =>
    obtain ⟨htime, hpoint⟩ := snapshot_point taken
    rw [hat, if_pos (show event.eventType = .valuation from type)]
    refine ⟨rfl, ?_⟩
    have hcurve : equityCurve ((s.appendEvent row).recordValuation
        (eventContext event audits s snap)) = equityCurve s ++
          [(snap.timestamp, snap.cashBalance + snap.realizedPnl + snap.unrealizedPnl)] :=
      List.map_append
    simp only [BacktestEngineState.aggregates, Prod.mk.injEq] at hpoint
    rw [hcurve, htime, hpoint.1, hpoint.2.1, hpoint.2.2]
    rfl
  | expirationRaised type => exact hquiet type (by decide) rfl rfl
  | expiration type loop => exact hquiet type (by decide) rfl rfl
  | corporateAction type row => exact hquiet type (by decide) rfl rfl
  | risk type warning => exact hquiet type (by decide) rfl rfl
  | ignored lifecycle valuation => exact hquiet rfl valuation rfl rfl

theorem ProcessStep.aggregates_eq {event : DeterministicEvent} {s s' : BacktestEngineState}
    {e e' : σ} {r : Except Exc Unit}
    (h : ProcessStep engine strategy configuration lookup event s e r s' e') :
    s'.aggregates = s.aggregates ∧ equityCurve s' =
      equityCurve s ++ (engine.valuationAt lookup event (s, e)).toList.map equityPoint := by
  cases h with
  | blind unseen =>
    rw [valuationAt_of_unseen unseen]
    exact ⟨rfl, (List.append_nil _).symm⟩
  | raised seen taken step => exact step.aggregates_eq seen taken
  | finished seen taken step =>
    obtain ⟨haggregates, hcurve⟩ := step.aggregates_eq seen taken
    exact ⟨haggregates, hcurve⟩

variable (engine strategy configuration lookup)

/-- One turn of the event loop leaves the aggregates alone and adds the point of its valuation. -/
theorem aggregates_runEvent (event : DeterministicEvent) (w : BacktestEngineState × σ) :
    (exec (engine.runEvent strategy configuration lookup event) w).2.1.aggregates =
        w.1.aggregates ∧
      equityCurve (exec (engine.runEvent strategy configuration lookup event) w).2.1 =
        equityCurve w.1 ++ (engine.valuationAt lookup event w).toList.map equityPoint := by
  rcases w with ⟨s, e⟩
  rw [exec_runEvent]
  rcases hp : exec (engine.processEvent strategy configuration lookup event) (s, e) with
    ⟨x | _, s', e'⟩
  all_goals
    exact (processStep_processEvent engine strategy configuration lookup event hp).aggregates_eq

theorem aggregates_after (events : List DeterministicEvent) (w : BacktestEngineState × σ) :
    (engine.after strategy configuration lookup events w).1.aggregates = w.1.aggregates ∧
      equityCurve (engine.after strategy configuration lookup events w).1 = equityCurve w.1 ++
        (engine.valuations strategy configuration lookup events w).map equityPoint := by
  induction events generalizing w with
  | nil => exact ⟨rfl, (List.append_nil _).symm⟩
  | cons event rest ih =>
    obtain ⟨haggregates, hcurve⟩ := ih (exec (engine.runEvent strategy configuration lookup event)
      w).2
    obtain ⟨hevent, hpoint⟩ := aggregates_runEvent engine strategy configuration
      lookup event w
    rw [after_cons]
    refine ⟨haggregates.trans hevent, ?_⟩
    rw [hcurve, hpoint, valuations, List.map_append, List.append_assoc]

variable {engine strategy configuration lookup}

/-- A valuation is of the state its event finds. -/
theorem valuationAt_state {event : DeterministicEvent} {w : BacktestEngineState × σ}
    {v : DateTime × BacktestEngineState} (h : engine.valuationAt lookup event w = some v) :
    v.2 = w.1 := by
  unfold valuationAt at h
  split at h
  · cases h
  · split at h
    · cases h
    · split_ifs at h
      cases h
      rfl

/-- Every valuation of a run sees the aggregates the run started with. -/
theorem aggregates_of_mem_valuations {events : List DeterministicEvent}
    {w : BacktestEngineState × σ} {v : DateTime × BacktestEngineState}
    (h : v ∈ engine.valuations strategy configuration lookup events w) :
    v.2.aggregates = w.1.aggregates := by
  induction events generalizing w with
  | nil => exact absurd h List.not_mem_nil
  | cons event rest ih =>
    rcases List.mem_append.mp h with h | h
    · rw [valuationAt_state (Option.mem_toList.mp h)]
    · exact (ih h).trans (aggregates_runEvent engine strategy configuration lookup event w).1

/-- A run reports no profit or loss, and every valuation is worth the initial capital. -/
theorem reported_run {events : List DeterministicEvent} {env env₁ e' : σ}
    {result : BacktestRunResult} {s : BacktestEngineState}
    (hinit : exec (strategy.initializeStrategy configuration) env = (.ok (), env₁))
    (hrun : exec (engine.run strategy configuration lookup events)
      (initialState configuration, env) = (.ok result, (s, e'))) :
    result.realizedPnl = 0 ∧ result.unrealizedPnl = 0 ∧
      result.equityCurve = (engine.valuations strategy configuration lookup events
        (initialState configuration, env₁)).map fun v => (v.1, configuration.initialCapital) := by
  obtain ⟨env₂, hinit₂, hs, hbuild⟩ := exec_run_ok engine strategy configuration lookup hrun
  rw [hinit] at hinit₂
  cases hinit₂
  obtain ⟨haggregates, hcurve⟩ := aggregates_after engine strategy configuration lookup events
    (initialState configuration, env₁)
  rw [← hs] at haggregates hcurve
  obtain ⟨hrealized, hunrealized, hreported⟩ : result.realizedPnl = s.realizedPnl ∧
      result.unrealizedPnl = s.unrealizedPnl ∧ result.equityCurve = equityCurve s := by
    unfold buildResult at hbuild
    obtain ⟨_, _, hbuild⟩ := except_bind_eq_ok.mp hbuild
    cases hbuild
    exact ⟨rfl, rfl, rfl⟩
  have hempty : equityCurve (initialState configuration) = [] := rfl
  rw [hrealized, hunrealized, hreported, hcurve, hempty, List.nil_append]
  refine ⟨congrArg (fun a => a.2.1) haggregates, congrArg (fun a => a.2.2) haggregates, ?_⟩
  refine List.map_congr_left fun v hv => ?_
  have hv := aggregates_of_mem_valuations hv
  have hcash : v.2.cashBalance = configuration.initialCapital := congrArg Prod.fst hv
  have hzero : v.2.realizedPnl = 0 := congrArg (fun a => a.2.1) hv
  have hzero' : v.2.unrealizedPnl = 0 := congrArg (fun a => a.2.2) hv
  rw [equityPoint, hcash, hzero, hzero', add_zero, add_zero]

/-- So the equity curve is flat, whatever was traded. -/
theorem flat_equityCurve {events : List DeterministicEvent} {env e' : σ}
    {result : BacktestRunResult} {s : BacktestEngineState}
    (hrun : exec (engine.run strategy configuration lookup events)
      (initialState configuration, env) = (.ok result, (s, e'))) :
    EquityCurve.Flat result.equityCurve configuration.initialCapital := by
  obtain ⟨env₁, hinit, -, -⟩ := exec_run_ok engine strategy configuration lookup hrun
  obtain ⟨-, -, hcurve⟩ := reported_run hinit hrun
  intro point hpoint
  rw [hcurve] at hpoint
  obtain ⟨v, -, rfl⟩ := List.mem_map.mp hpoint
  rfl

/-- And the figures read off it are those of a flat curve. -/
theorem flat_run {events : List DeterministicEvent} {env e' : σ}
    {result : BacktestRunResult} {s : BacktestEngineState}
    (hrun : exec (engine.run strategy configuration lookup events)
      (initialState configuration, env) = (.ok result, (s, e'))) :
    result.totalReturn = 0 ∧ result.maximumDrawdown = 0 ∧ result.winRate = 0 ∧
      result.profitFactor = none := by
  have hflat := flat_equityCurve hrun
  have hwinners : (EquityCurve.returns result.equityCurve).filter (0 < ·) = [] := by
    refine List.filter_eq_nil_iff.mpr fun r hr => ?_
    rw [hflat.returns r hr]
    decide
  have hlosers : (EquityCurve.returns result.equityCurve).filter (· < 0) = [] := by
    refine List.filter_eq_nil_iff.mpr fun r hr => ?_
    rw [hflat.returns r hr]
    decide
  have hlast : (EquityCurve.returns result.equityCurve).getLastD 0 = 0 := by
    rw [List.getLastD_eq_getLast?]
    cases hend : (EquityCurve.returns result.equityCurve).getLast? with
    | none => rfl
    | some r => exact hflat.returns r (List.mem_of_getLast? hend)
  obtain ⟨_, _, _, hbuild⟩ := exec_run_ok engine strategy configuration lookup hrun
  unfold buildResult at hbuild
  obtain ⟨_, _, hbuild⟩ := except_bind_eq_ok.mp hbuild
  cases hbuild
  refine ⟨hlast, hflat.maxDrawdown, ?_, ?_⟩
  · simp only [hwinners, List.length_nil, Nat.cast_zero, zero_div, ite_self]
  · simp only [hlosers, if_true]

/-- The reported P&L is that of the positions, at the end of the run and at each valuation. -/
structure PnlAccounted (configuration : BacktestConfiguration) (result : BacktestRunResult)
    (s : BacktestEngineState) (valuations : List (DateTime × BacktestEngineState)) : Prop where
  realized : result.realizedPnl = s.closedRealized
  unrealized : s.openUnrealized = .ok result.unrealizedPnl
  curve : List.Forall₂ (fun point v => point.1 = v.1 ∧ v.2.openUnrealized.map
    (configuration.initialCapital + v.2.closedRealized + ·) = .ok point.2)
    result.equityCurve valuations

theorem forall₂_map_left_self {α β : Type} {R : β → α → Prop} {f : α → β} {items : List α} :
    List.Forall₂ R (items.map f) items ↔ ∀ item ∈ items, R (f item) item := by
  rw [List.forall₂_map_left_iff, List.forall₂_same]

theorem except_map_eq_ok_congr {ε : Type} {r : Except ε ℚ} {f g : ℚ → ℚ} {a b : ℚ}
    (h : ∀ x, f x = a ↔ g x = b) : r.map f = .ok a ↔ r.map g = .ok b := by
  cases r with
  | error x => exact iff_of_false (fun h => nomatch h) fun h => nomatch h
  | ok x => simpa only [Except.map, Except.ok.injEq] using h x

/-- The reported P&L is that of the positions exactly when the realized P&L of the closed
positions and the unrealized P&L of the open ones both sum to zero at the end of the run, and
cancel at each valuation. -/
theorem pnlAccounted_iff {events : List DeterministicEvent} {env env₁ e' : σ}
    {result : BacktestRunResult} {s : BacktestEngineState}
    (hinit : exec (strategy.initializeStrategy configuration) env = (.ok (), env₁))
    (hrun : exec (engine.run strategy configuration lookup events)
      (initialState configuration, env) = (.ok result, (s, e'))) :
    PnlAccounted configuration result s (engine.valuations strategy configuration lookup events
        (initialState configuration, env₁)) ↔
      s.closedRealized = 0 ∧ s.openUnrealized = .ok 0 ∧
      ∀ v ∈ engine.valuations strategy configuration lookup events
          (initialState configuration, env₁),
        v.2.openUnrealized.map (v.2.closedRealized + ·) = .ok 0 := by
  obtain ⟨hrealized, hunrealized, hcurve⟩ := reported_run hinit hrun
  have hall : List.Forall₂ (fun point v => point.1 = v.1 ∧ v.2.openUnrealized.map
        (configuration.initialCapital + v.2.closedRealized + ·) = .ok point.2)
        result.equityCurve (engine.valuations strategy configuration lookup events
          (initialState configuration, env₁)) ↔
      ∀ v ∈ engine.valuations strategy configuration lookup events
          (initialState configuration, env₁),
        v.2.openUnrealized.map (v.2.closedRealized + ·) = .ok 0 := by
    rw [hcurve, forall₂_map_left_self]
    refine forall₂_congr fun v hv => ?_
    simp only [true_and]
    refine except_map_eq_ok_congr fun x => ?_
    constructor
    · intro h
      linarith
    · intro h
      linarith
  constructor
  · rintro ⟨h₁, h₂, h₃⟩
    rw [hrealized] at h₁
    rw [hunrealized] at h₂
    exact ⟨h₁.symm, h₂, hall.mp h₃⟩
  · rintro ⟨h₁, h₂, h₃⟩
    refine ⟨?_, ?_, hall.mpr h₃⟩
    · rw [hrealized, h₁]
    · rw [hunrealized, h₂]

/-! ### A position closed at a profit -/

/-- A strategy that opens a position at every lifecycle event, marks it with the realized P&L
`gain` and closes it. -/
def scalpingStrategy (gain : ℚ) : StrategyLifecycle Unit where
  strategyId := "s1"
  initializeStrategy _ := pure ()
  evaluateEntry _ := pure { shouldOpen := true, reasonCode := "entry" }
  createPosition context := pure (some
    { positionId := "p-1", strategyId := "s1", lifecycleStatus := .open,
      openedAt := context.event.timestamp, closedAt := none, legs := [], realizedPnl := 0,
      unrealizedPnl := 0, metadata := [] })
  markPosition _ position := pure { position with realizedPnl := gain }
  evaluateManagementRules _ _ := pure {}
  evaluateExit _ _ := pure { shouldClose := true, reasonCode := "target" }
  evaluateRollEligibility _ _ := pure {}
  processExpiration _ position := pure position
  finalize _ := pure ()

/-- A lifecycle event and a valuation after it. -/
def scalpingEvents : List DeterministicEvent :=
  [eventAt .lifecycleEvaluation 1, eventAt .valuation 2]

theorem pnlAccounted_iff_flat : ∃ result s,
    exec (researchEngine.run (scalpingStrategy 0).toObject researchConfiguration none
      scalpingEvents) (initialState researchConfiguration, ()) = (.ok result, (s, ())) ∧
    s.closedIds = ["p-1"] ∧
    PnlAccounted researchConfiguration result s (researchEngine.valuations
      (scalpingStrategy 0).toObject researchConfiguration none scalpingEvents
      (initialState researchConfiguration, ())) := by
  obtain ⟨result, s, hrun, hids, hclosed, hopen⟩ : ∃ result s,
      exec (researchEngine.run (scalpingStrategy 0).toObject researchConfiguration none
        scalpingEvents) (initialState researchConfiguration, ()) = (.ok result, (s, ())) ∧
      s.closedIds = ["p-1"] ∧ s.closedPositions.map (·.realizedPnl) = [0] ∧
      s.openPositions = [] := ⟨_, _, rfl, by decide, rfl, rfl⟩
  refine ⟨result, s, hrun, hids, (pnlAccounted_iff rfl hrun).mpr ⟨?_, ?_, ?_⟩⟩
  · rw [BacktestEngineState.closedRealized, hclosed, List.sum_singleton]
  · rw [BacktestEngineState.openUnrealized, hopen]
    rfl
  · intro v hv
    obtain rfl := List.mem_singleton.mp hv
    change Except.ok (([0] : List ℚ).sum + ([] : List ℚ).sum) = Except.ok 0
    rw [List.sum_singleton, List.sum_nil, add_zero]

/-- The gain of the closed position is in no figure of the result. -/
theorem not_pnlAccounted : ∃ result s,
    exec (researchEngine.run (scalpingStrategy 5).toObject researchConfiguration none
      scalpingEvents) (initialState researchConfiguration, ()) = (.ok result, (s, ())) ∧
    ¬ PnlAccounted researchConfiguration result s (researchEngine.valuations
      (scalpingStrategy 5).toObject researchConfiguration none scalpingEvents
      (initialState researchConfiguration, ())) := by
  obtain ⟨result, s, hrun, hreported, hclosed⟩ : ∃ result s,
      exec (researchEngine.run (scalpingStrategy 5).toObject researchConfiguration none
        scalpingEvents) (initialState researchConfiguration, ()) = (.ok result, (s, ())) ∧
      result.realizedPnl = 0 ∧ s.closedPositions.map (·.realizedPnl) = [5] := ⟨_, _, rfl, rfl, rfl⟩
  refine ⟨result, s, hrun, ?_⟩
  rintro ⟨hrealized, _, _⟩
  rw [hreported, BacktestEngineState.closedRealized, hclosed, List.sum_singleton] at hrealized
  norm_num at hrealized

end BacktestingEngine
end OptionResearch
