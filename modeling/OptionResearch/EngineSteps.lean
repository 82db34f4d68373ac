import OptionResearch.BacktestingEngine

/-!
# What one event can do to the engine state

One case theorem for each handler: the possible outcomes, the updates made by then, and the
callbacks' answers that lead there. Later modules argue from these cases and never unfold a
handler. `commitsBeforeRaising` reads off the callbacks alone whether the lifecycle handler has
opened or closed a position by the time something raises.
-/

namespace OptionResearch

/-- The state with several rows appended to the trade ledger. -/
def BacktestEngineState.appendTrades (s : BacktestEngineState) (rows : List LedgerRecord) :
    BacktestEngineState :=
  { s with tradeLedger := s.tradeLedger ++ rows }

@[simp] theorem BacktestEngineState.appendTrades_nil (s : BacktestEngineState) :
    s.appendTrades [] = s := by simp only [appendTrades, List.append_nil]

theorem BacktestEngineState.appendTrade_appendTrades (s : BacktestEngineState)
    (row : LedgerRecord) (rows : List LedgerRecord) :
    (s.appendTrade row).appendTrades rows = s.appendTrades (row :: rows) := by
  simp only [appendTrade, appendTrades, List.append_assoc, List.singleton_append]

/-- The state with several rows appended to the event ledger. -/
def BacktestEngineState.appendEvents (s : BacktestEngineState) (rows : List LedgerRecord) :
    BacktestEngineState :=
  { s with eventLedger := s.eventLedger ++ rows }

@[simp] theorem BacktestEngineState.appendEvents_nil (s : BacktestEngineState) :
    s.appendEvents [] = s := by simp only [appendEvents, List.append_nil]

theorem BacktestEngineState.appendEvent_appendEvents (s : BacktestEngineState)
    (row : LedgerRecord) (rows : List LedgerRecord) :
    (s.appendEvent row).appendEvents rows = s.appendEvents (row :: rows) := by
  simp only [appendEvent, appendEvents, List.append_assoc, List.singleton_append]

namespace BacktestingEngine

open Effect

variable {σ α : Type} {engine : BacktestingEngine} {strategy : StrategyObject σ}
  {configuration : BacktestConfiguration} {lookup : Option (InformationLookup σ)}

@[simp] theorem exec_callback (m : Callback σ α) (s : BacktestEngineState) (e : σ) :
    exec (callback m) (s, e) = ((exec m e).1, (s, (exec m e).2)) := rfl

@[simp] theorem exec_update (f : BacktestEngineState → BacktestEngineState)
    (s : BacktestEngineState) (e : σ) :
    exec (update f : EngineM σ Unit) (s, e) = (.ok (), (f s, e)) := rfl

@[simp] theorem exec_update_bind (f : BacktestEngineState → BacktestEngineState)
    (g : Unit → EngineM σ α) (s : BacktestEngineState) (e : σ) :
    exec (update f >>= g) (s, e) = exec (g ()) (f s, e) := rfl

@[simp] theorem exec_readState_bind (g : BacktestEngineState → EngineM σ α)
    (s : BacktestEngineState) (e : σ) :
    exec (readState >>= g) (s, e) = exec (g s) (s, e) := rfl

/-- A callback either raises, leaving the engine state alone, or hands its answer on. -/
theorem exec_callback_bind (m : Callback σ α) {β : Type} (f : α → EngineM σ β)
    (s : BacktestEngineState) (e : σ) :
    exec (callback m >>= f) (s, e) =
      match exec m e with
      | (.ok a, e') => exec (f a) (s, e')
      | (.error x, e') => (.error x, (s, e')) := by
  rw [exec_bind, exec_callback]
  rcases exec m e with ⟨_ | a, e'⟩ <;> rfl

section Lifecycle

variable (engine strategy)

/-- Walking the positions in order, one is closed before a callback raises. -/
def closesBeforeRaising (context : EventContext) : List (PyObject PositionState) → σ → Bool
  | [], _ => false
  | position :: rest, e =>
    match exec (engine.evaluatePosition strategy context position) e with
    | (.error _, _) => false
    | (.ok (.kept _), e') => closesBeforeRaising context rest e'
    | (.ok (.closed _ _), _) => true

/-- The callbacks open a position, or close one before any of them raises. -/
def commitsBeforeRaising (context : EventContext) (positions : List (PyObject PositionState))
    (e : σ) : Bool :=
  match exec (strategy.evaluateEntry context) e with
  | (.error _, _) => false
  | (.ok decision, e₁) =>
    match decision.attr "should_open" (·.shouldOpen) with
    | .error _ => false
    | .ok true =>
      match exec (strategy.createPosition context) e₁ with
      | (.ok (some _), _) => true
      | _ => false
    | .ok false => engine.closesBeforeRaising strategy context positions e₁

/-- The outcomes of `handleEntry` from the state `s` and the environment `e`. -/
inductive EntryStep (context : EventContext) (s : BacktestEngineState) (e : σ) :
    Except Exc Unit → BacktestEngineState → σ → Prop
  /-- Nothing is opened. -/
  | idle {decision : PyObject LifecycleDecision} {e' : σ}
      (entry : exec (strategy.evaluateEntry context) e = (.ok decision, e'))
      (shut : decision.attr "should_open" (·.shouldOpen) = .ok false) :
      EntryStep context s e (.ok ()) s e'
  /-- A callback or an attribute raises before anything is stored. -/
  | refused {x : Exc} {e' : σ}
      (quiet : ∀ positions, engine.commitsBeforeRaising strategy context positions e = false) :
      EntryStep context s e (.error x) s e'
  /-- The position is stored, but the data of its ledger row cannot be read. -/
  | stored {decision : PyObject LifecycleDecision} {position : PyObject PositionState} {x : Exc}
      {e₁ e' : σ}
      (entry : exec (strategy.evaluateEntry context) e = (.ok decision, e₁))
      (wanted : decision.attr "should_open" (·.shouldOpen) = .ok true)
      (created : exec (strategy.createPosition context) e₁ = (.ok (some position), e'))
      (unread : engine.openRow strategy context decision position = .error x) :
      EntryStep context s e (.error x) (s.addOpen position) e'
  /-- The position is stored and its row written. -/
  | opened {decision : PyObject LifecycleDecision} {position : PyObject PositionState}
      {row : LedgerRecord} {e₁ e' : σ}
      (entry : exec (strategy.evaluateEntry context) e = (.ok decision, e₁))
      (wanted : decision.attr "should_open" (·.shouldOpen) = .ok true)
      (created : exec (strategy.createPosition context) e₁ = (.ok (some position), e'))
      (written : engine.openRow strategy context decision position = .ok row) :
      EntryStep context s e (.ok ()) ((s.addOpen position).appendTrade row) e'

theorem commitsBeforeRaising_of_created {context : EventContext}
    {decision : PyObject LifecycleDecision} {position : PyObject PositionState} {e e₁ e' : σ}
    (entry : exec (strategy.evaluateEntry context) e = (.ok decision, e₁))
    (wanted : decision.attr "should_open" (·.shouldOpen) = .ok true)
    (created : exec (strategy.createPosition context) e₁ = (.ok (some position), e'))
    (positions : List (PyObject PositionState)) :
    engine.commitsBeforeRaising strategy context positions e = true := by
  simp only [commitsBeforeRaising, entry, wanted, created]

theorem entryStep_handleEntry (context : EventContext) (s : BacktestEngineState) (e : σ) :
    EntryStep engine strategy context s e (exec (engine.handleEntry strategy context) (s, e)).1
      (exec (engine.handleEntry strategy context) (s, e)).2.1
      (exec (engine.handleEntry strategy context) (s, e)).2.2 := by
  unfold handleEntry
  rw [exec_callback_bind]
  rcases hentry : exec (strategy.evaluateEntry context) e with ⟨x | decision, e₁⟩
  · exact .refused fun _ => by simp only [commitsBeforeRaising, hentry]
  · simp only [exec_raising_bind]
    rcases hopen : decision.attr "should_open" (·.shouldOpen) with x | _ | _
    · exact .refused fun _ => by simp only [commitsBeforeRaising, hentry, hopen]
    · simpa only [Bool.false_eq_true, if_false, exec_pure] using EntryStep.idle hentry hopen
    · simp only [if_true, exec_callback_bind]
      rcases hcreate : exec (strategy.createPosition context) e₁ with ⟨x | _ | position, e₂⟩
      · exact .refused fun _ => by simp only [commitsBeforeRaising, hentry, hopen, hcreate]
      · exact .refused fun _ => by simp only [commitsBeforeRaising, hentry, hopen, hcreate]
      · simp only [exec_update_bind, exec_raising_bind]
        rcases hrow : engine.openRow strategy context decision position with x | row
        · exact .stored hentry hopen hcreate hrow
        · exact .opened hentry hopen hcreate hrow

/-- A closed copy bears the id of its position and the time of the event. -/
theorem closePosition_spec {event : DeterministicEvent} {marked : PyObject PositionState}
    {closed : PositionState} (h : closePosition event marked = .ok closed) :
    marked.attr "position_id" (·.positionId) = .ok closed.positionId ∧
      closed.closedAt = some event.timestamp := by
  unfold closePosition at h
  obtain ⟨positionId, hattr, h⟩ := except_bind_eq_ok.mp h
  obtain ⟨strategyId, _, h⟩ := except_bind_eq_ok.mp h
  obtain ⟨openedAt, _, h⟩ := except_bind_eq_ok.mp h
  obtain ⟨legs, _, h⟩ := except_bind_eq_ok.mp h
  obtain ⟨realizedPnl, _, h⟩ := except_bind_eq_ok.mp h
  obtain ⟨metadata, _, h⟩ := except_bind_eq_ok.mp h
  cases h
  exact ⟨hattr, rfl⟩

variable {engine strategy} in
/-- An evaluated position is kept as it was marked, or closed as it was marked, with a row. -/
theorem evaluatePosition_cases {context : EventContext} {position : PyObject PositionState}
    {e e' : σ} {outcome : PositionOutcome}
    (h : exec (engine.evaluatePosition strategy context position) e = (.ok outcome, e')) :
    ∃ marked e₁, exec (strategy.markPosition context position) e = (.ok marked, e₁) ∧
      match outcome with
      | .kept kept => kept = marked
      | .closed closed row => closePosition context.event marked = .ok closed ∧
          ∃ reasonCode managementReason shouldRoll,
            row = engine.ledger context.event strategy.strategyId (some closed.positionId)
              "position_close" reasonCode [("management_reason", .str managementReason),
                ("roll_eligible", .bool shouldRoll)] none := by
  unfold evaluatePosition at h
  rcases exec_bind_cases h with ⟨_, _, hr⟩ | ⟨marked, e₁, hmark, h⟩
  · cases hr
  rcases exec_bind_cases h with ⟨_, _, hr⟩ | ⟨management, e₂, _, h⟩
  · cases hr
  rcases exec_bind_cases h with ⟨_, _, hr⟩ | ⟨exitDecision, e₃, _, h⟩
  · cases hr
  rcases exec_bind_cases h with ⟨_, _, hr⟩ | ⟨rollDecision, e₄, _, h⟩
  · cases hr
  have hout : engine.positionOutcome strategy context marked management exitDecision
      rollDecision = .ok outcome := congrArg Prod.fst h
  unfold positionOutcome at hout
  obtain ⟨close, _, hout⟩ := except_bind_eq_ok.mp hout
  cases close with
  | false =>
    cases hout
    exact ⟨_, e₁, hmark, rfl⟩
  | true =>
    obtain ⟨closed, hclosed, hout⟩ := except_bind_eq_ok.mp hout
    obtain ⟨reasonCode, _, hout⟩ := except_bind_eq_ok.mp hout
    obtain ⟨managementReason, _, hout⟩ := except_bind_eq_ok.mp hout
    obtain ⟨shouldRoll, _, hout⟩ := except_bind_eq_ok.mp hout
    cases hout
    exact ⟨marked, e₁, hmark, hclosed, reasonCode, managementReason, shouldRoll, rfl⟩

/-- The outcomes of the lifecycle loop: the lists it returns or the exception it ends with, the
rows written by then, and the environment left. -/
inductive Manages (context : EventContext) : List (PyObject PositionState) → σ →
    Except Exc (List (PyObject PositionState) × List PositionState) → List LedgerRecord → σ → Prop
  | done (e : σ) : Manages context [] e (.ok ([], [])) [] e
  | raised {position : PyObject PositionState} {rest : List (PyObject PositionState)}
      {e e' : σ} {x : Exc}
      (step : exec (engine.evaluatePosition strategy context position) e = (.error x, e')) :
      Manages context (position :: rest) e (.error x) [] e'
  | kept {position marked : PyObject PositionState} {rest : List (PyObject PositionState)}
      {e e₁ e' : σ} {outcome : Except Exc (List (PyObject PositionState) × List PositionState)}
      {rows : List LedgerRecord}
      (step : exec (engine.evaluatePosition strategy context position) e =
        (.ok (.kept marked), e₁))
      (tail : Manages context rest e₁ outcome rows e') :
      Manages context (position :: rest) e (outcome.map fun r => (marked :: r.1, r.2)) rows e'
  | closed {position : PyObject PositionState} {rest : List (PyObject PositionState)}
      {e e₁ e' : σ} {outcome : Except Exc (List (PyObject PositionState) × List PositionState)}
      {rows : List LedgerRecord} {closed : PositionState} {row : LedgerRecord}
      (step : exec (engine.evaluatePosition strategy context position) e =
        (.ok (.closed closed row), e₁))
      (tail : Manages context rest e₁ outcome rows e') :
      Manages context (position :: rest) e (outcome.map fun r => (r.1, closed :: r.2))
        (row :: rows) e'

theorem manages_managePositions (context : EventContext)
    (positions : List (PyObject PositionState)) (s : BacktestEngineState) (e : σ) :
    ∃ outcome rows e',
      exec (engine.managePositions strategy context positions) (s, e) =
        (outcome, (s.appendTrades rows, e')) ∧
      Manages engine strategy context positions e outcome rows e' := by
  induction positions generalizing s e with
  | nil =>
    refine ⟨_, [], e, ?_, .done e⟩
    simp only [managePositions, exec_pure, BacktestEngineState.appendTrades_nil]
  | cons position rest ih =>
    unfold managePositions
    rw [exec_callback_bind]
    rcases hstep : exec (engine.evaluatePosition strategy context position) e with ⟨x | o, e₁⟩
    · exact ⟨_, [], e₁, by simp only [BacktestEngineState.appendTrades_nil], .raised hstep⟩
    · cases o with
      | kept marked =>
        obtain ⟨outcome, rows, e', hrest, tail⟩ := ih s e₁
        refine ⟨_, rows, e', ?_, .kept hstep tail⟩
        dsimp only
        rw [exec_bind, hrest]
        cases outcome <;> rfl
      | closed closed row =>
        obtain ⟨outcome, rows, e', hrest, tail⟩ := ih (s.appendTrade row) e₁
        refine ⟨_, row :: rows, e', ?_, .closed hstep tail⟩
        dsimp only
        rw [exec_update_bind, exec_bind, hrest, BacktestEngineState.appendTrade_appendTrades]
        cases outcome <;> rfl

/-- The outcomes of `handleLifecycle`. -/
inductive LifecycleStep (context : EventContext) (s : BacktestEngineState) (e : σ) :
    Except Exc Unit → BacktestEngineState → σ → Prop
  | entryRaised {x : Exc} {s₁ : BacktestEngineState} {e' : σ}
      (entry : EntryStep engine strategy context s e (.error x) s₁ e') :
      LifecycleStep context s e (.error x) s₁ e'
  | loopRaised {x : Exc} {s₁ : BacktestEngineState} {e₁ e' : σ} {rows : List LedgerRecord}
      (entry : EntryStep engine strategy context s e (.ok ()) s₁ e₁)
      (loop : Manages engine strategy context s₁.openPositions e₁ (.error x) rows e') :
      LifecycleStep context s e (.error x) (s₁.appendTrades rows) e'
  | finished {s₁ : BacktestEngineState} {e₁ e' : σ} {rows : List LedgerRecord}
      {updated : List (PyObject PositionState)} {newlyClosed : List PositionState}
      (entry : EntryStep engine strategy context s e (.ok ()) s₁ e₁)
      (loop : Manages engine strategy context s₁.openPositions e₁ (.ok (updated, newlyClosed))
        rows e') :
      LifecycleStep context s e (.ok ())
        ((s₁.appendTrades rows).commitLifecycle updated newlyClosed) e'

theorem lifecycleStep_handleLifecycle (context : EventContext) {s s' : BacktestEngineState}
    {e e' : σ} {r : Except Exc Unit}
    (h : exec (engine.handleLifecycle strategy context) (s, e) = (r, (s', e'))) :
    LifecycleStep engine strategy context s e r s' e' := by
  have hentry := entryStep_handleEntry engine strategy context s e
  unfold handleLifecycle at h
  rw [exec_bind] at h
  rcases hx : exec (engine.handleEntry strategy context) (s, e) with ⟨x | _, s₁, e₁⟩
  · rw [hx] at h hentry
    cases h
    exact .entryRaised hentry
  · rw [hx] at h hentry
    simp only [exec_readState_bind] at h
    obtain ⟨outcome, rows, e₂, hloop, loop⟩ :=
      manages_managePositions engine strategy context s₁.openPositions s₁ e₁
    rw [exec_bind, hloop] at h
    rcases outcome with x | ⟨updated, newlyClosed⟩
    · cases h
      exact .loopRaised hentry loop
    · simp only [exec_update] at h
      cases h
      exact .finished hentry loop

variable {engine strategy}

/-- A loop that raises has written rows exactly when it had closed a position before. -/
theorem Manages.rows_eq_nil_iff {context : EventContext} {positions : List (PyObject PositionState)}
    {e e' : σ} {outcome : Except Exc (List (PyObject PositionState) × List PositionState)}
    {rows : List LedgerRecord} (h : Manages engine strategy context positions e outcome rows e') :
    rows = [] ↔ engine.closesBeforeRaising strategy context positions e = false := by
  induction h with
  | done e => simp only [closesBeforeRaising]
  | raised step => simp only [closesBeforeRaising, step]
  | kept step _ ih => simpa only [closesBeforeRaising, step] using ih
  | closed step _ _ => simp only [closesBeforeRaising, step, reduceCtorEq]

end Lifecycle

section Dispatch

variable (engine strategy)

/-- The outcomes of the expiration loop, with the rows it wrote to the event ledger. -/
inductive Refreshes (context : EventContext) : List (PyObject PositionState) → σ →
    Except Exc (List (PyObject PositionState)) → List LedgerRecord → σ → Prop
  | done (e : σ) : Refreshes context [] e (.ok []) [] e
  | raised (positions : List (PyObject PositionState)) (e e' : σ) (x : Exc) :
      Refreshes context positions e (.error x) [] e'
  | refreshed {position processed : PyObject PositionState}
      {rest : List (PyObject PositionState)} {e e₁ e' : σ}
      {outcome : Except Exc (List (PyObject PositionState))} {rows : List LedgerRecord}
      {row : LedgerRecord}
      (step : exec (strategy.processExpiration context position) e = (.ok processed, e₁))
      (tail : Refreshes context rest e₁ outcome rows e') :
      Refreshes context (position :: rest) e (outcome.map fun r => processed :: r)
        (row :: rows) e'

theorem refreshes_refreshPositions (context : EventContext)
    (positions : List (PyObject PositionState)) (s : BacktestEngineState) (e : σ) :
    ∃ outcome rows e',
      exec (engine.refreshPositions strategy context positions) (s, e) =
        (outcome, (s.appendEvents rows, e')) ∧
      Refreshes strategy context positions e outcome rows e' := by
  induction positions generalizing s e with
  | nil => exact ⟨_, [], e, by
      simp only [refreshPositions, exec_pure, BacktestEngineState.appendEvents_nil], .done e⟩
  | cons position rest ih =>
    unfold refreshPositions
    rw [exec_callback_bind]
    rcases hstep : exec (strategy.processExpiration context position) e with ⟨x | processed, e₁⟩
    · exact ⟨_, [], e₁, by simp only [BacktestEngineState.appendEvents_nil], .raised _ _ _ x⟩
    · simp only [exec_raising_bind]
      rcases position.attr "position_id" (·.positionId) with x | positionId
      · exact ⟨_, [], e₁, by simp only [BacktestEngineState.appendEvents_nil], .raised _ _ _ x⟩
      · simp only []
        rcases processed.attr "legs" (·.legs) with x | legs
        · exact ⟨_, [], e₁, by simp only [BacktestEngineState.appendEvents_nil], .raised _ _ _ x⟩
        · dsimp only
          rw [exec_update_bind]
          let row := engine.expirationRow strategy context positionId legs
          obtain ⟨outcome, rows, e', hrest, tail⟩ := ih (s.appendEvent row) e₁
          refine ⟨_, row :: rows, e', ?_, .refreshed hstep tail⟩
          rw [exec_bind, hrest, BacktestEngineState.appendEvent_appendEvents]
          cases outcome <;> rfl

/-- The event types whose handler is the lifecycle handler. -/
def runsLifecycle : EventType → Bool
  | .lifecycleEvaluation | .entryEvaluation | .managementEvaluation | .exitEvaluation
  | .rollEvaluation | .fillEvent => true
  | _ => false

/-- The outcomes of `dispatch`. -/
inductive DispatchStep (context : EventContext) (s : BacktestEngineState) (e : σ) :
    Except Exc Unit → BacktestEngineState → σ → Prop
  | lifecycle {r : Except Exc Unit} {s' : BacktestEngineState} {e' : σ}
      (type : runsLifecycle context.event.eventType = true)
      (step : LifecycleStep engine strategy context s e r s' e') :
      DispatchStep context s e r s' e'
  | valuation (type : context.event.eventType = .valuation) :
      DispatchStep context s e (.ok ()) (s.recordValuation context) e
  | expirationRaised {x : Exc} {rows : List LedgerRecord} {e' : σ}
      (type : context.event.eventType = .optionExpiration) :
      DispatchStep context s e (.error x) (s.appendEvents rows) e'
  | expiration {refreshed : List (PyObject PositionState)} {rows : List LedgerRecord} {e' : σ}
      (type : context.event.eventType = .optionExpiration)
      (loop : Refreshes strategy context s.openPositions e (.ok refreshed) rows e') :
      DispatchStep context s e (.ok ()) ((s.appendEvents rows).replaceOpen refreshed) e'
  | corporateAction (type : context.event.eventType = .corporateAction) (row : LedgerRecord) :
      DispatchStep context s e (.ok ()) (s.appendEvent row) e
  | risk (type : context.event.eventType = .riskEvent) (warning : BacktestWarning) :
      DispatchStep context s e (.ok ()) (s.appendWarning warning) e
  | ignored (lifecycle : runsLifecycle context.event.eventType = false)
      (valuation : context.event.eventType ≠ .valuation) : DispatchStep context s e (.ok ()) s e

theorem dispatchStep_dispatch (context : EventContext) {s s' : BacktestEngineState} {e e' : σ}
    {r : Except Exc Unit}
    (h : exec (engine.dispatch strategy context) (s, e) = (r, (s', e'))) :
    DispatchStep engine strategy context s e r s' e' := by
  unfold dispatch at h
  split at h
  case h_7 htype =>
    cases h
    exact .valuation htype
  case h_8 htype =>
    unfold handleExpiration at h
    obtain ⟨outcome, rows, e₁, hloop, loop⟩ :=
      refreshes_refreshPositions engine strategy context s.openPositions s e
    rw [exec_readState_bind, exec_bind, hloop] at h
    rcases outcome with x | refreshed
    · cases h
      exact .expirationRaised htype
    · cases h
      exact .expiration htype loop
  case h_9 htype =>
    cases h
    exact .corporateAction htype _
  case h_10 htype =>
    cases h
    exact .risk htype _
  case h_11 hnone =>
    cases h
    exact .ignored (by unfold runsLifecycle; split <;> simp_all) (by simp_all)
  all_goals
    exact .lifecycle (by simp_all [runsLifecycle]) (lifecycleStep_handleLifecycle _ _ _ h)

end Dispatch

section Process

variable (engine strategy configuration lookup)

/-- The context and the environment the lifecycle handler starts from, if this event reaches it. -/
def lifecycleContext (event : DeterministicEvent) (w : BacktestEngineState × σ) :
    Option (EventContext × σ) :=
  match exec (engine.informationSet lookup event) w.2 with
  | (.error _, _) => none
  | (.ok audits, e₁) =>
    match snapshot w.1 event.timestamp with
    | .error _ => none
    | .ok snap =>
      if runsLifecycle event.eventType then some (eventContext event audits w.1 snap, e₁) else none

variable {lookup} in
theorem lifecycleContext_of_seen {event : DeterministicEvent} {s : BacktestEngineState} {e e₁ : σ}
    {audits : List InformationSetAudit} {snap : PortfolioSnapshot}
    (seen : exec (engine.informationSet lookup event) e = (.ok audits, e₁))
    (taken : snapshot s event.timestamp = .ok snap) :
    engine.lifecycleContext lookup event (s, e) =
      if runsLifecycle event.eventType then some (eventContext event audits s snap, e₁)
      else none := by
  simp only [lifecycleContext, seen, taken]

variable {lookup} in
theorem lifecycleContext_of_unseen {event : DeterministicEvent} {s : BacktestEngineState} {e : σ}
    (unseen : ∀ audits e₁, exec (engine.informationSet lookup event) e = (.ok audits, e₁) →
      ∀ snap, snapshot s event.timestamp ≠ .ok snap) :
    engine.lifecycleContext lookup event (s, e) = none := by
  unfold lifecycleContext
  rcases hseen : exec (engine.informationSet lookup event) e with ⟨x | audits, e₁⟩
  · rfl
  · cases htaken : snapshot s event.timestamp with
    | error x => rfl
    | ok snap => exact absurd htaken (unseen audits e₁ hseen snap)

/-- The outcomes of `processEvent`. -/
inductive ProcessStep (event : DeterministicEvent) (s : BacktestEngineState) (e : σ) :
    Except Exc Unit → BacktestEngineState → σ → Prop
  /-- The lookup, the guard or the snapshot raises. -/
  | blind {x : Exc} {e' : σ}
      (unseen : ∀ audits e₁, exec (engine.informationSet lookup event) e = (.ok audits, e₁) →
        ∀ snap, snapshot s event.timestamp ≠ .ok snap) :
      ProcessStep event s e (.error x) s e'
  | raised {audits : List InformationSetAudit} {snap : PortfolioSnapshot} {x : Exc} {e₁ e' : σ}
      {s' : BacktestEngineState}
      (seen : exec (engine.informationSet lookup event) e = (.ok audits, e₁))
      (taken : snapshot s event.timestamp = .ok snap)
      (step : DispatchStep engine strategy (eventContext event audits s snap)
        (s.appendEvent (engine.eventRow strategy configuration event)) e₁ (.error x) s' e') :
      ProcessStep event s e (.error x) s' e'
  | finished {audits : List InformationSetAudit} {snap : PortfolioSnapshot} {e₁ e' : σ}
      {s' : BacktestEngineState}
      (seen : exec (engine.informationSet lookup event) e = (.ok audits, e₁))
      (taken : snapshot s event.timestamp = .ok snap)
      (step : DispatchStep engine strategy (eventContext event audits s snap)
        (s.appendEvent (engine.eventRow strategy configuration event)) e₁ (.ok ()) s' e') :
      ProcessStep event s e (.ok ()) s'.recordPositions e'

theorem processStep_processEvent (event : DeterministicEvent) {s s' : BacktestEngineState}
    {e e' : σ} {r : Except Exc Unit}
    (h : exec (engine.processEvent strategy configuration lookup event) (s, e) = (r, (s', e'))) :
    ProcessStep engine strategy configuration lookup event s e r s' e' := by
  unfold processEvent at h
  rw [exec_callback_bind] at h
  rcases hseen : exec (engine.informationSet lookup event) e with ⟨x | audits, e₁⟩
  · rw [hseen] at h
    cases h
    exact .blind fun audits e₁ hok => by rw [hseen] at hok; cases hok
  · rw [hseen] at h
    dsimp only at h
    rw [exec_readState_bind, exec_raising_bind] at h
    rcases htaken : snapshot s event.timestamp with x | snap
    · rw [htaken] at h
      cases h
      exact .blind fun _ _ _ snap hok => by rw [htaken] at hok; cases hok
    · rw [htaken] at h
      dsimp only at h
      rw [exec_update_bind] at h
      rcases exec_bind_cases h with ⟨x, hraised, rfl⟩ | ⟨_, ⟨s₁, e₂⟩, hdone, hrecord⟩
      · exact .raised hseen htaken (dispatchStep_dispatch _ _ _ hraised)
      · rw [exec_update] at hrecord
        cases hrecord
        exact .finished hseen htaken (dispatchStep_dispatch _ _ _ hdone)

theorem exec_recordFailure (event : DeterministicEvent) (exc : Exc) (s : BacktestEngineState)
    (e : σ) :
    exec (engine.recordFailure strategy configuration event exc) (s, e) =
      (.ok (), ((s.appendFailure (failedEvent event exc)).appendEvent
        (engine.failureRow strategy configuration event exc), e)) := by
  unfold recordFailure
  rw [exec_update_bind, exec_update]

/-- One turn of the event loop never raises; it ends in the state `processEvent` left, with the
failure recorded if that raised. -/
theorem exec_runEvent (event : DeterministicEvent) (w : BacktestEngineState × σ) :
    exec (engine.runEvent strategy configuration lookup event) w =
      match exec (engine.processEvent strategy configuration lookup event) w with
      | (.ok _, w') => (.ok (), w')
      | (.error x, (s', e')) => (.ok (), ((s'.appendFailure (failedEvent event x)).appendEvent
          (engine.failureRow strategy configuration event x), e')) := by
  unfold runEvent
  rw [exec_tryCatch]
  rcases exec (engine.processEvent strategy configuration lookup event) w with ⟨x | _, s', e'⟩
  · exact exec_recordFailure engine strategy configuration event x s' e'
  · rfl

/-- The world after the event loop has gone through `events`. -/
def after (events : List DeterministicEvent) (w : BacktestEngineState × σ) :
    BacktestEngineState × σ :=
  (exec (engine.runEvents strategy configuration lookup events) w).2

theorem exec_runEvent_fst (event : DeterministicEvent) (w : BacktestEngineState × σ) :
    (exec (engine.runEvent strategy configuration lookup event) w).1 = .ok () := by
  rw [exec_runEvent]
  rcases exec (engine.processEvent strategy configuration lookup event) w with ⟨_ | _, s', e'⟩ <;>
    rfl

@[simp] theorem after_nil (w : BacktestEngineState × σ) :
    engine.after strategy configuration lookup [] w = w := rfl

theorem exec_runEvents_cons (event : DeterministicEvent) (rest : List DeterministicEvent)
    (w : BacktestEngineState × σ) :
    exec (engine.runEvents strategy configuration lookup (event :: rest)) w =
      exec (engine.runEvents strategy configuration lookup rest)
        (exec (engine.runEvent strategy configuration lookup event) w).2 := by
  have hok := exec_runEvent_fst engine strategy configuration lookup event w
  rw [runEvents, exec_bind]
  rcases hx : exec (engine.runEvent strategy configuration lookup event) w with ⟨r, w'⟩
  rw [hx] at hok
  cases hok
  rfl

theorem after_cons (event : DeterministicEvent) (rest : List DeterministicEvent)
    (w : BacktestEngineState × σ) :
    engine.after strategy configuration lookup (event :: rest) w =
      engine.after strategy configuration lookup rest
        (exec (engine.runEvent strategy configuration lookup event) w).2 := by
  rw [after, exec_runEvents_cons, after]

theorem after_append (pre post : List DeterministicEvent) (w : BacktestEngineState × σ) :
    engine.after strategy configuration lookup (pre ++ post) w =
      engine.after strategy configuration lookup post
        (engine.after strategy configuration lookup pre w) := by
  induction pre generalizing w with
  | nil => rfl
  | cons event rest ih => rw [List.cons_append, after_cons, after_cons, ih]

theorem after_concat (pre : List DeterministicEvent) (event : DeterministicEvent)
    (w : BacktestEngineState × σ) :
    engine.after strategy configuration lookup (pre ++ [event]) w =
      (exec (engine.runEvent strategy configuration lookup event)
        (engine.after strategy configuration lookup pre w)).2 := by
  rw [after_append, after_cons, after_nil]

theorem exec_runEvents (events : List DeterministicEvent) (w : BacktestEngineState × σ) :
    exec (engine.runEvents strategy configuration lookup events) w =
      (.ok (), engine.after strategy configuration lookup events w) := by
  induction events generalizing w with
  | nil => rfl
  | cons event rest ih => rw [exec_runEvents_cons, ih, after_cons]

/-- A run that returns reports on the state its event loop ended in. -/
theorem exec_run_ok {events : List DeterministicEvent} {result : BacktestRunResult}
    {s s' : BacktestEngineState} {env e' : σ}
    (h : exec (engine.run strategy configuration lookup events) (s, env) =
      (.ok result, (s', e'))) :
    ∃ env₁, exec (strategy.initializeStrategy configuration) env = (.ok (), env₁) ∧
      s' = (engine.after strategy configuration lookup events (s, env₁)).1 ∧
      buildResult configuration s' = .ok result := by
  unfold run at h
  rw [exec_callback_bind] at h
  rcases hinit : exec (strategy.initializeStrategy configuration) env with ⟨x | _, env₁⟩
  · rw [hinit] at h
    cases h
  · rw [hinit] at h
    dsimp only at h
    rw [exec_bind_of_ok (exec_runEvents engine strategy configuration lookup events _)] at h
    rcases hafter : engine.after strategy configuration lookup events (s, env₁) with ⟨s₁, e₁⟩
    rw [hafter, exec_readState_bind, exec_raising_bind] at h
    rcases hbuild : buildResult configuration s₁ with x | built
    · rw [hbuild] at h
      cases h
    · rw [hbuild] at h
      dsimp only at h
      rcases exec_bind_cases h with ⟨_, _, hr⟩ | ⟨_, ⟨s₂, e₂⟩, hfinal, hpure⟩
      · cases hr
      · cases hpure
        have hstate : s₁ = s' := congrArg (fun p => p.2.1) hfinal
        subst hstate
        exact ⟨env₁, rfl, by rw [hafter], hbuild⟩

end Process
end BacktestingEngine
end OptionResearch
