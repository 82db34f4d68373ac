import OptionResearch.EngineSteps

/-!
# Failed events and what they leave behind

An event whose processing raises is recorded and the run goes on. `books` is the engine state
without the two records of the failure itself. A failing event keeps the books exactly when no
callback had opened or closed a position by the time something raised: `handleLifecycle` commits
its position updates at the end of the loop, but stores an opened position and appends to the
trade ledger as it goes.
-/

namespace OptionResearch

/-- The engine state without the failure records and the event ledger. -/
def BacktestEngineState.books (s : BacktestEngineState) : BacktestEngineState :=
  { s with failedEvents := [], eventLedger := [] }

namespace BacktestEngineState

variable (s : BacktestEngineState)

theorem books_addOpen_ne (position : PyObject PositionState) :
    (s.addOpen position).books ≠ s.books := by
  intro h
  have hlen := congrArg (fun b => b.openPositions.length) h
  simp only [books, addOpen, List.length_append, List.length_singleton] at hlen
  omega

theorem books_appendTrades_eq_iff (rows : List LedgerRecord) :
    (s.appendTrades rows).books = s.books ↔ rows = [] := by
  constructor
  · intro h
    have htrades := congrArg (fun b => b.tradeLedger) h
    exact List.append_right_eq_self.mp htrades
  · rintro rfl
    rw [appendTrades_nil]

end BacktestEngineState

namespace BacktestingEngine

open Effect

variable {σ : Type} {engine : BacktestingEngine} {strategy : StrategyObject σ}
  {configuration : BacktestConfiguration} {lookup : Option (InformationLookup σ)}

/-- A lifecycle handler that raises keeps the books iff nothing was opened or closed before. -/
theorem LifecycleStep.books_eq_iff {context : EventContext} {s s' : BacktestEngineState}
    {e e' : σ} {x : Exc} (h : LifecycleStep engine strategy context s e (.error x) s' e') :
    s'.books = s.books ↔
      engine.commitsBeforeRaising strategy context s.openPositions e = false := by
  cases h with
  | entryRaised entry =>
    cases entry with
    | refused quiet => simp only [quiet]
    | stored hentry wanted created unread =>
      rw [commitsBeforeRaising_of_created engine strategy hentry wanted created]
      simp only [Bool.true_eq_false, iff_false]
      exact s.books_addOpen_ne _
  | loopRaised entry loop =>
    cases entry with
    | idle hentry shut =>
      rw [s.books_appendTrades_eq_iff, loop.rows_eq_nil_iff]
      simp only [commitsBeforeRaising, hentry, shut]
    | opened hentry wanted created written =>
      rw [commitsBeforeRaising_of_created engine strategy hentry wanted created]
      simp only [Bool.true_eq_false, iff_false]
      intro hbooks
      have hlen := congrArg (fun b => b.openPositions.length) hbooks
      simp only [BacktestEngineState.books, BacktestEngineState.appendTrades,
        BacktestEngineState.appendTrade, BacktestEngineState.addOpen, List.length_append,
        List.length_singleton] at hlen
      omega

variable (engine strategy lookup)

/-- The lifecycle handler would run for this event and open or close a position before any
callback raises. Only the lookup's and the callbacks' own answers are consulted. -/
def eventCommits (event : DeterministicEvent) (w : BacktestEngineState × σ) : Bool :=
  match engine.lifecycleContext lookup event w with
  | none => false
  | some (context, e) => engine.commitsBeforeRaising strategy context w.1.openPositions e

variable {engine strategy lookup}

/-- An event that raises keeps the books iff it had not committed anything by then. -/
theorem ProcessStep.books_eq_iff {event : DeterministicEvent} {s s' : BacktestEngineState}
    {e e' : σ} {x : Exc}
    (h : ProcessStep engine strategy configuration lookup event s e (.error x) s' e') :
    s'.books = s.books ↔ engine.eventCommits strategy lookup event (s, e) = false := by
  cases h with
  | blind unseen =>
    rw [eventCommits, lifecycleContext_of_unseen engine unseen]
    exact iff_of_true rfl rfl
  | raised seen taken step =>
    rw [eventCommits, lifecycleContext_of_seen _ seen taken]
    cases step with
    | lifecycle type step =>
      rw [if_pos (show runsLifecycle event.eventType = true from type)]
      exact step.books_eq_iff
    | expirationRaised type =>
      have htype : event.eventType = .optionExpiration := type
      rw [htype]
      exact iff_of_true rfl rfl

/-- Turning the exception into a failure record does not touch the books. -/
theorem books_runEvent_of_raised {event : DeterministicEvent} {w w' : BacktestEngineState × σ}
    {x : Exc}
    (h : exec (engine.processEvent strategy configuration lookup event) w = (.error x, w')) :
    (exec (engine.runEvent strategy configuration lookup event) w).2.1.books = w'.1.books := by
  rw [exec_runEvent, h]
  rfl

variable (engine strategy configuration lookup)

/-- `event` is one of `events`, `w` is the world in which the run comes to it, and processing it
raises. -/
structure FailsAt (events : List DeterministicEvent) (env : σ) (event : DeterministicEvent)
    (pre : List DeterministicEvent) : Prop where
  occurs : pre ++ [event] <+: events
  raises : ∃ x, (exec (engine.processEvent strategy configuration lookup event)
    (engine.after strategy configuration lookup pre (initialState configuration, env))).1 = .error x

/-- In the run over `events`, every failed event leaves the books as it found them. -/
def FailedEventsAtomic (events : List DeterministicEvent) (env : σ) : Prop :=
  ∀ pre event, engine.FailsAt strategy configuration lookup events env event pre →
    (engine.after strategy configuration lookup (pre ++ [event])
      (initialState configuration, env)).1.books =
    (engine.after strategy configuration lookup pre (initialState configuration, env)).1.books

/-- The failed events of a run are atomic exactly when none of them had opened or closed a
position before it raised. -/
theorem failedEventsAtomic_iff (events : List DeterministicEvent) (env : σ) :
    engine.FailedEventsAtomic strategy configuration lookup events env ↔
      ∀ pre event, engine.FailsAt strategy configuration lookup events env event pre →
        engine.eventCommits strategy lookup event
          (engine.after strategy configuration lookup pre
            (initialState configuration, env)) = false := by
  have hstep : ∀ pre event,
      engine.FailsAt strategy configuration lookup events env event pre →
      ((engine.after strategy configuration lookup (pre ++ [event])
          (initialState configuration, env)).1.books =
        (engine.after strategy configuration lookup pre
          (initialState configuration, env)).1.books ↔
        engine.eventCommits strategy lookup event
          (engine.after strategy configuration lookup pre
            (initialState configuration, env)) = false) := by
    rintro pre event ⟨_, x, hraise⟩
    rw [after_concat]
    rcases hw : engine.after strategy configuration lookup pre
      (initialState configuration, env) with ⟨s, e⟩
    rw [hw] at hraise
    rcases hp : exec (engine.processEvent strategy configuration lookup event) (s, e) with
      ⟨r, s', e'⟩
    rw [hp] at hraise
    cases hraise
    rw [books_runEvent_of_raised hp]
    exact (processStep_processEvent engine strategy configuration lookup event hp).books_eq_iff
  exact forall_congr' fun pre => forall_congr' fun event =>
    forall_congr' fun hfail => hstep pre event hfail

/-! ### A position whose first mark fails -/

/-- A strategy that opens `positionId` at every lifecycle event and then cannot price it. -/
def markFailingStrategy (positionId : String) : StrategyLifecycle Unit where
  strategyId := "s1"
  initializeStrategy _ := pure ()
  evaluateEntry _ := pure { shouldOpen := true, reasonCode := "entry" }
  createPosition context := pure (some
    { positionId, strategyId := "s1", lifecycleStatus := .open, openedAt := context.event.timestamp,
      closedAt := none, legs := [], realizedPnl := 0, unrealizedPnl := 0, metadata := [] })
  markPosition _ _ := throw ⟨.other "RuntimeError", "no quote"⟩
  evaluateManagementRules _ _ := pure {}
  evaluateExit _ _ := pure {}
  evaluateRollEligibility _ _ := pure {}
  processExpiration _ position := pure position
  finalize _ := pure ()

def researchEngine : BacktestingEngine where
  guard := {}
  text := plainText

def researchConfiguration : BacktestConfiguration where
  datasetManifests := ["m1"]
  initialCapital := 100000
  reserveCash := 10000
  randomSeed := some 11
  softwareGitCommit := "deadbeef"
  schemaVersion := "6.0"

/-- An event of the given type, `seconds` into the run and with that sequence number. -/
def eventAt (eventType : EventType) (seconds : Nat) : DeterministicEvent where
  eventId := "event"
  timestamp := { wall := seconds * 1000000, utcoffset := some 0 }
  eventType := eventType
  priority := 90
  sequenceNumber := seconds
  payload := []

/-- The failed event stays in the books: the position it could not mark is open afterwards. -/
theorem not_failedEventsAtomic : ¬ researchEngine.FailedEventsAtomic
    (markFailingStrategy "p-1").toObject researchConfiguration none
    [eventAt .lifecycleEvaluation 1] () := by
  intro h
  have hbooks := h [] (eventAt .lifecycleEvaluation 1) ⟨List.prefix_rfl, _, rfl⟩
  have hlen := congrArg (fun b => b.openPositions.length) hbooks
  exact absurd hlen (by decide)

end BacktestingEngine
end OptionResearch
