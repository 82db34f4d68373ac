import OptionResearch.EngineAtomicity

/-!
# No look-ahead in a run

With a strict guard an information set observes nothing later than its event, and an event whose
lookup returns a later record fails before anything is touched. To speak of every callback
invocation of a run, `recording` wraps a strategy so that it logs the context of each per-event
callback beside its own environment; a run of the wrapped strategy is the run of the strategy
itself with the log forgotten.
-/

namespace OptionResearch

/-- The observation a lookup record carries, if its `observed_timestamp` is a `datetime`. -/
def PyValue.observedTimestamp? : PyValue → Option DateTime
  | .dict entries => (Payload.get entries "observed_timestamp" .none).datetime?
  | _ => Option.none

namespace BacktestingEngine

open Effect

variable {σ α : Type} {engine : BacktestingEngine} {strategy : StrategyObject σ}
  {configuration : BacktestConfiguration} {lookup : Option (InformationLookup σ)}

/-! ### What the information set can contain -/

theorem auditItem_visible (hs : engine.guard.strict = true) {event : DeterministicEvent}
    {item : PyValue} {audit : InformationSetAudit} (h : engine.auditItem event item = .ok audit) :
    audit.VisibleAt event.timestamp := by
  unfold auditItem at h
  obtain ⟨entries, _, h⟩ := except_bind_eq_ok.mp h
  obtain ⟨_, _, h⟩ := except_bind_eq_ok.mp h
  obtain ⟨asOfPolicy, _, h⟩ := except_bind_eq_ok.mp h
  obtain ⟨metadata, _, h⟩ := except_bind_eq_ok.mp h
  exact NoLookAheadGuard.auditLookup_visible hs h

theorem auditItem_observed (hs : engine.guard.strict = true) {event : DeterministicEvent}
    {item : PyValue} {audit : InformationSetAudit} (h : engine.auditItem event item = .ok audit)
    {observed : DateTime} (ho : item.observedTimestamp? = some observed) :
    observed ≤ event.timestamp := by
  unfold auditItem at h
  obtain ⟨entries, hentries, h⟩ := except_bind_eq_ok.mp h
  cases item <;> simp only [PyValue.asDict, Except.ok.injEq, reduceCtorEq] at hentries
  subst hentries
  obtain ⟨_, hvisible, _⟩ := except_bind_eq_ok.mp h
  rw [PyValue.observedTimestamp?] at ho
  rw [ho, Option.elim_some] at hvisible
  exact (NoLookAheadGuard.assertVisible_eq_ok_iff hs _ _).mp hvisible

theorem informationSet_visible (hs : engine.guard.strict = true) {event : DeterministicEvent}
    {e e' : σ} {audits : List InformationSetAudit}
    (h : exec (engine.informationSet lookup event) e = (.ok audits, e')) :
    ∀ audit ∈ audits, audit.VisibleAt event.timestamp := by
  intro audit hmem
  cases lookup with
  | none =>
    simp only [informationSet, exec_raising, Prod.mk.injEq] at h
    obtain ⟨only, honly, heq⟩ := except_bind_eq_ok.mp h.1
    cases heq
    obtain rfl := List.mem_singleton.mp hmem
    exact NoLookAheadGuard.auditLookup_visible hs honly
  | some lookup =>
    simp only [informationSet] at h
    rcases exec_bind_cases h with ⟨_, _, hr⟩ | ⟨payload, e₁, _, h⟩
    · cases hr
    · simp only [exec_raising, Prod.mk.injEq] at h
      obtain ⟨items, _, hitems⟩ := except_bind_eq_ok.mp h.1
      obtain ⟨item, _, hitem⟩ := (mapM_eq_ok_mem hitems).2 audit hmem
      exact auditItem_visible hs hitem

/-- A lookup that returns one later record makes the whole information set raise. -/
theorem informationSet_of_future (hs : engine.guard.strict = true) {event : DeterministicEvent}
    {source : InformationLookup σ} {e e₁ : σ} {payload item : PyValue} {items : List PyValue}
    {observed : DateTime} (hpayload : exec (source event.timestamp) e = (.ok payload, e₁))
    (hitems : payload.iter = .ok items) (hitem : item ∈ items)
    (hobserved : item.observedTimestamp? = some observed) (hfuture : event.timestamp < observed) :
    ∀ audits e', exec (engine.informationSet (some source) event) e ≠ (.ok audits, e') := by
  intro audits e' h
  simp only [informationSet] at h
  rw [exec_bind_of_ok hpayload] at h
  simp only [exec_raising, Prod.mk.injEq] at h
  obtain ⟨items', hitems', hall⟩ := except_bind_eq_ok.mp h.1
  rw [hitems] at hitems'
  cases hitems'
  obtain ⟨audit, _, haudit⟩ := (mapM_eq_ok_mem hall).1 item hitem
  exact DateTime.not_le_iff.mpr hfuture (auditItem_observed hs haudit hobserved)

end BacktestingEngine

/-! ### Logging the callbacks -/

/-- The callbacks the engine invokes while it processes an event. -/
inductive EventCallback where
  | evaluateEntry
  | createPosition
  | markPosition
  | evaluateManagementRules
  | evaluateExit
  | evaluateRollEligibility
  | processExpiration
  deriving DecidableEq, Repr

/-- One callback invocation and the context it was given. -/
structure Invocation where
  callback : EventCallback
  context : EventContext

/-- Nothing in the context's information set is later than its event. -/
def EventContext.SeesNoFuture (context : EventContext) : Prop :=
  ∀ audit ∈ context.informationSet, audit.VisibleAt context.event.timestamp

namespace StrategyObject

open Effect

variable {σ α : Type}

/-- Run a callback, logging the invocation first. -/
def logged (callback : EventCallback) (context : EventContext) (m : Callback σ α) :
    Callback (List Invocation × σ) α := do
  modify fun p => (p.1 ++ [⟨callback, context⟩], p.2)
  onSnd m

/-- The strategy with a log of its per-event callbacks beside its environment. -/
def recording (strategy : StrategyObject σ) : StrategyObject (List Invocation × σ) where
  strategyId := strategy.strategyId
  initializeStrategy configuration := onSnd (strategy.initializeStrategy configuration)
  evaluateEntry context := logged .evaluateEntry context (strategy.evaluateEntry context)
  createPosition context := logged .createPosition context (strategy.createPosition context)
  markPosition context position :=
    logged .markPosition context (strategy.markPosition context position)
  evaluateManagementRules context position :=
    logged .evaluateManagementRules context (strategy.evaluateManagementRules context position)
  evaluateExit context position :=
    logged .evaluateExit context (strategy.evaluateExit context position)
  evaluateRollEligibility context position :=
    logged .evaluateRollEligibility context (strategy.evaluateRollEligibility context position)
  processExpiration context position :=
    logged .processExpiration context (strategy.processExpiration context position)
  finalize result := onSnd (strategy.finalize result)

theorem mirrors_logged (callback : EventCallback) (context : EventContext) (m : Callback σ α) :
    Mirrors Prod.snd (logged callback context m) m := fun _ => rfl

end StrategyObject

/-- A lookup that works beside a log. -/
def InformationLookup.besideLog {σ : Type} (lookup : InformationLookup σ) :
    InformationLookup (List Invocation × σ) := fun timestamp => Effect.onSnd (lookup timestamp)

namespace BacktestingEngine

open Effect

variable {σ α : Type} {engine : BacktestingEngine} {strategy : StrategyObject σ}
  {configuration : BacktestConfiguration} {lookup : Option (InformationLookup σ)}

/-- Forgetting the log. -/
def forgetLog (w : BacktestEngineState × (List Invocation × σ)) : BacktestEngineState × σ :=
  (w.1, w.2.2)

theorem mirrors_callback {m' : Callback (List Invocation × σ) α} {m : Callback σ α}
    (h : Mirrors Prod.snd m' m) : Mirrors forgetLog (callback m') (callback m) := fun w => by
  rcases w with ⟨s, p⟩
  have hp := h p
  simp only [exec_callback, forgetLog, hp]

theorem mirrors_update (f : BacktestEngineState → BacktestEngineState) :
    Mirrors (forgetLog (σ := σ)) (update f) (update f) := fun _ => rfl

theorem mirrors_readState : Mirrors (forgetLog (σ := σ)) readState readState := fun _ => rfl

section Recording

variable (engine strategy configuration lookup)

theorem mirrors_informationSet (event : DeterministicEvent) :
    Mirrors Prod.snd (engine.informationSet (lookup.map InformationLookup.besideLog) event)
      (engine.informationSet lookup event) := by
  cases lookup with
  | none => exact mirrors_raising _
  | some lookup => exact Mirrors.bind (fun _ => rfl) fun payload => mirrors_raising _

theorem mirrors_evaluatePosition (context : EventContext) (position : PyObject PositionState) :
    Mirrors Prod.snd (engine.evaluatePosition strategy.recording context position)
      (engine.evaluatePosition strategy context position) := by
  refine Mirrors.bind (StrategyObject.mirrors_logged _ _ _) fun marked => ?_
  refine Mirrors.bind (StrategyObject.mirrors_logged _ _ _) fun management => ?_
  refine Mirrors.bind (StrategyObject.mirrors_logged _ _ _) fun exitDecision => ?_
  refine Mirrors.bind (StrategyObject.mirrors_logged _ _ _) fun rollDecision => ?_
  exact mirrors_raising _

theorem mirrors_handleEntry (context : EventContext) :
    Mirrors forgetLog (engine.handleEntry strategy.recording context)
      (engine.handleEntry strategy context) := by
  refine Mirrors.bind (mirrors_callback (StrategyObject.mirrors_logged _ _ _)) fun decision => ?_
  refine Mirrors.bind (mirrors_raising _) fun shouldOpen => ?_
  cases shouldOpen with
  | false => exact mirrors_pure _
  | true =>
    refine Mirrors.bind (mirrors_callback (StrategyObject.mirrors_logged _ _ _)) fun created => ?_
    cases created with
    | none => exact fun _ => rfl
    | some position =>
      refine Mirrors.bind (mirrors_update _) fun _ => ?_
      refine Mirrors.bind (mirrors_raising _) fun row => ?_
      exact mirrors_update _

theorem mirrors_managePositions (context : EventContext)
    (positions : List (PyObject PositionState)) :
    Mirrors forgetLog (engine.managePositions strategy.recording context positions)
      (engine.managePositions strategy context positions) := by
  induction positions with
  | nil => exact mirrors_pure _
  | cons position rest ih =>
    refine Mirrors.bind
      (mirrors_callback (engine.mirrors_evaluatePosition strategy context position)) fun o => ?_
    cases o with
    | kept marked => exact Mirrors.bind ih fun _ => mirrors_pure _
    | closed closed row =>
      exact Mirrors.bind (mirrors_update _) fun _ => Mirrors.bind ih fun _ => mirrors_pure _

theorem mirrors_refreshPositions (context : EventContext)
    (positions : List (PyObject PositionState)) :
    Mirrors forgetLog (engine.refreshPositions strategy.recording context positions)
      (engine.refreshPositions strategy context positions) := by
  induction positions with
  | nil => exact mirrors_pure _
  | cons position rest ih =>
    refine Mirrors.bind (mirrors_callback (StrategyObject.mirrors_logged _ _ _)) fun processed => ?_
    refine Mirrors.bind (mirrors_raising _) fun positionId => ?_
    refine Mirrors.bind (mirrors_raising _) fun legs => ?_
    refine Mirrors.bind (mirrors_update _) fun _ => ?_
    exact Mirrors.bind ih fun _ => mirrors_pure _

theorem mirrors_dispatch (context : EventContext) :
    Mirrors forgetLog (engine.dispatch strategy.recording context)
      (engine.dispatch strategy context) := by
  have hlifecycle : Mirrors forgetLog (engine.handleLifecycle strategy.recording context)
      (engine.handleLifecycle strategy context) := by
    refine Mirrors.bind (engine.mirrors_handleEntry strategy context) fun _ => ?_
    refine Mirrors.bind mirrors_readState fun state => ?_
    refine Mirrors.bind (engine.mirrors_managePositions strategy context _) fun lists => ?_
    exact mirrors_update _
  have hexpiration : Mirrors forgetLog (engine.handleExpiration strategy.recording context)
      (engine.handleExpiration strategy context) := by
    refine Mirrors.bind mirrors_readState fun state => ?_
    refine Mirrors.bind (engine.mirrors_refreshPositions strategy context _) fun refreshed => ?_
    exact mirrors_update _
  unfold dispatch
  split
  case h_7 => exact mirrors_update _
  case h_8 => exact hexpiration
  case h_9 => exact mirrors_update _
  case h_10 => exact mirrors_update _
  case h_11 => exact mirrors_pure _
  all_goals exact hlifecycle

theorem mirrors_runEvent (event : DeterministicEvent) :
    Mirrors forgetLog
      (engine.runEvent strategy.recording configuration
        (lookup.map InformationLookup.besideLog) event)
      (engine.runEvent strategy configuration lookup event) := by
  refine Mirrors.tryCatch ?_ fun x => Mirrors.bind (mirrors_update _) fun _ => mirrors_update _
  refine Mirrors.bind (mirrors_callback (engine.mirrors_informationSet lookup event))
    fun audits => ?_
  refine Mirrors.bind mirrors_readState fun state => ?_
  refine Mirrors.bind (mirrors_raising _) fun snap => ?_
  refine Mirrors.bind (mirrors_update _) fun _ => ?_
  refine Mirrors.bind (engine.mirrors_dispatch strategy _) fun _ => ?_
  exact mirrors_update _

/-- The run with a log is the run without one. -/
theorem mirrors_run (events : List DeterministicEvent) :
    Mirrors forgetLog
      (engine.run strategy.recording configuration
        (lookup.map InformationLookup.besideLog) events)
      (engine.run strategy configuration lookup events) := by
  have hevents : Mirrors forgetLog
      (engine.runEvents strategy.recording configuration
        (lookup.map InformationLookup.besideLog) events)
      (engine.runEvents strategy configuration lookup events) := by
    induction events with
    | nil => exact mirrors_pure _
    | cons event rest ih =>
      exact Mirrors.bind (engine.mirrors_runEvent strategy configuration lookup event) fun _ => ih
  refine Mirrors.bind (mirrors_callback fun _ => rfl) fun _ => ?_
  refine Mirrors.bind hevents fun _ => ?_
  refine Mirrors.bind mirrors_readState fun state => ?_
  refine Mirrors.bind (mirrors_raising _) fun result => ?_
  exact Mirrors.bind (mirrors_callback fun _ => rfl) fun _ => mirrors_pure _

/-! ### The contexts in the log -/

/-- Every logged context sees no future. -/
def LogSound (log : List Invocation) : Prop := ∀ i ∈ log, i.context.SeesNoFuture

/-- A run from a sound log ends in a sound log; `log` reads it off the state. -/
abbrev KeepsLogSound {S ε : Type} (log : S → List Invocation) (m : Effect S ε α) : Prop :=
  Keeps (fun s t => LogSound (log s) → LogSound (log t)) m

variable {S ε : Type} {log : S → List Invocation}

/-- The same of the engine's own computations, whose environment holds the log. -/
abbrev KeepsEngineLogSound (m : EngineM (List Invocation × σ) α) : Prop :=
  KeepsLogSound (fun w : BacktestEngineState × (List Invocation × σ) => w.2.1) m

theorem keepsLogSound_pure (a : α) : KeepsLogSound log (pure a : Effect S ε α) := fun _ h => h

theorem keepsLogSound_raising (r : Except ε α) :
    KeepsLogSound log (raising r : Effect S ε α) := fun _ h => h

theorem KeepsLogSound.bind {β : Type} {m : Effect S ε α} {f : α → Effect S ε β}
    (hm : KeepsLogSound log m) (hf : ∀ a, KeepsLogSound log (f a)) : KeepsLogSound log (m >>= f) :=
  Keeps.bind (fun _ _ _ hst htu h => htu (hst h)) hm hf

theorem keepsLogSound_callback {m : Callback (List Invocation × σ) α}
    (h : KeepsLogSound Prod.fst m) : KeepsEngineLogSound (callback m) := fun w => h w.2

theorem keepsLogSound_update (f : BacktestEngineState → BacktestEngineState) :
    KeepsEngineLogSound (update f : EngineM (List Invocation × σ) Unit) := fun _ h => h

theorem keepsLogSound_onSnd (m : Callback σ α) :
    KeepsLogSound Prod.fst (onSnd m : Callback (List Invocation × σ) α) := fun _ h => h

theorem keepsLogSound_logged {context : EventContext} (hc : context.SeesNoFuture)
    (name : EventCallback) (m : Callback σ α) :
    KeepsLogSound Prod.fst (StrategyObject.logged name context m) := by
  intro p hp i hi
  rcases List.mem_append.mp hi with hi | hi
  · exact hp i hi
  · obtain rfl := List.mem_singleton.mp hi
    exact hc

section Handlers

variable {context : EventContext}

theorem keepsLogSound_readState :
    KeepsEngineLogSound (readState : EngineM (List Invocation × σ) BacktestEngineState) :=
  fun _ h => h

theorem keepsLogSound_recorded (hc : context.SeesNoFuture) (name : EventCallback)
    (m : Callback σ α) : KeepsEngineLogSound (callback (StrategyObject.logged name context m)) :=
  keepsLogSound_callback (keepsLogSound_logged hc name m)

theorem keepsLogSound_handleEntry (hc : context.SeesNoFuture) :
    KeepsEngineLogSound (engine.handleEntry strategy.recording context) := by
  refine KeepsLogSound.bind (keepsLogSound_recorded hc _ _) fun decision => ?_
  refine KeepsLogSound.bind (keepsLogSound_raising _) fun shouldOpen => ?_
  cases shouldOpen with
  | false => exact keepsLogSound_pure _
  | true =>
    refine KeepsLogSound.bind (keepsLogSound_recorded hc _ _) fun created => ?_
    cases created with
    | none => exact keepsLogSound_raising (.error _)
    | some position =>
      refine KeepsLogSound.bind (keepsLogSound_update _) fun _ => ?_
      refine KeepsLogSound.bind (keepsLogSound_raising _) fun row => ?_
      exact keepsLogSound_update _

theorem keepsLogSound_evaluatePosition (hc : context.SeesNoFuture)
    (position : PyObject PositionState) :
    KeepsEngineLogSound
      (callback (engine.evaluatePosition strategy.recording context position)) := by
  apply keepsLogSound_callback
  refine KeepsLogSound.bind (keepsLogSound_logged hc _ _) fun marked => ?_
  refine KeepsLogSound.bind (keepsLogSound_logged hc _ _) fun management => ?_
  refine KeepsLogSound.bind (keepsLogSound_logged hc _ _) fun exitDecision => ?_
  refine KeepsLogSound.bind (keepsLogSound_logged hc _ _) fun rollDecision => ?_
  exact keepsLogSound_raising _

theorem keepsLogSound_managePositions (hc : context.SeesNoFuture)
    (positions : List (PyObject PositionState)) :
    KeepsEngineLogSound (engine.managePositions strategy.recording context positions) := by
  induction positions with
  | nil => exact keepsLogSound_pure _
  | cons position rest ih =>
    refine KeepsLogSound.bind
      (keepsLogSound_evaluatePosition engine strategy hc position) fun o => ?_
    cases o with
    | kept marked => exact KeepsLogSound.bind ih fun _ => keepsLogSound_pure _
    | closed closed row =>
      exact KeepsLogSound.bind (keepsLogSound_update _) fun _ =>
        KeepsLogSound.bind ih fun _ => keepsLogSound_pure _

theorem keepsLogSound_refreshPositions (hc : context.SeesNoFuture)
    (positions : List (PyObject PositionState)) :
    KeepsEngineLogSound (engine.refreshPositions strategy.recording context positions) := by
  induction positions with
  | nil => exact keepsLogSound_pure _
  | cons position rest ih =>
    refine KeepsLogSound.bind (keepsLogSound_recorded hc _ _) fun processed => ?_
    refine KeepsLogSound.bind (keepsLogSound_raising _) fun positionId => ?_
    refine KeepsLogSound.bind (keepsLogSound_raising _) fun legs => ?_
    refine KeepsLogSound.bind (keepsLogSound_update _) fun _ => ?_
    exact KeepsLogSound.bind ih fun _ => keepsLogSound_pure _

theorem keepsLogSound_dispatch (hc : context.SeesNoFuture) :
    KeepsEngineLogSound (engine.dispatch strategy.recording context) := by
  unfold dispatch
  split
  case h_7 => exact keepsLogSound_update _
  case h_8 =>
    refine KeepsLogSound.bind keepsLogSound_readState fun state => ?_
    exact KeepsLogSound.bind (keepsLogSound_refreshPositions engine strategy hc _) fun refreshed =>
      keepsLogSound_update _
  case h_9 => exact keepsLogSound_update _
  case h_10 => exact keepsLogSound_update _
  case h_11 => exact keepsLogSound_pure _
  all_goals
    refine KeepsLogSound.bind (keepsLogSound_handleEntry engine strategy hc) fun _ => ?_
    refine KeepsLogSound.bind keepsLogSound_readState fun state => ?_
    exact KeepsLogSound.bind (keepsLogSound_managePositions engine strategy hc _) fun lists =>
      keepsLogSound_update _

end Handlers

theorem keepsLogSound_runEvent (hs : engine.guard.strict = true) (event : DeterministicEvent) :
    KeepsEngineLogSound (engine.runEvent strategy.recording configuration
      (lookup.map InformationLookup.besideLog) event) := by
  have hlookup : KeepsLogSound Prod.fst
      (engine.informationSet (lookup.map InformationLookup.besideLog) event) := by
    cases lookup with
    | none => exact keepsLogSound_raising _
    | some lookup =>
      exact KeepsLogSound.bind (keepsLogSound_onSnd _) fun payload => keepsLogSound_raising _
  have hprocess : KeepsEngineLogSound (engine.processEvent strategy.recording configuration
      (lookup.map InformationLookup.besideLog) event) := by
    refine Keeps.bind_of_exec (fun _ _ _ hst htu h => htu (hst h))
      (keepsLogSound_callback hlookup) fun w audits w' hseen => ?_
    -- the audits the rest of the event sees are the ones the guard let through
    have hc (state : BacktestEngineState) (snap : PortfolioSnapshot) :
        (eventContext event audits state snap).SeesNoFuture := by
      rcases w with ⟨s, p⟩
      rw [exec_callback] at hseen
      have hfst : (exec (engine.informationSet (lookup.map InformationLookup.besideLog) event)
          p).1 = .ok audits := congrArg Prod.fst hseen
      have hok : exec (engine.informationSet (lookup.map InformationLookup.besideLog) event) p =
          (.ok audits, (exec (engine.informationSet
            (lookup.map InformationLookup.besideLog) event) p).2) := Prod.ext hfst rfl
      exact informationSet_visible hs hok
    refine KeepsLogSound.bind keepsLogSound_readState fun state => ?_
    refine KeepsLogSound.bind (keepsLogSound_raising _) fun snap => ?_
    refine KeepsLogSound.bind (keepsLogSound_update _) fun _ => ?_
    refine KeepsLogSound.bind (keepsLogSound_dispatch engine strategy (hc state snap)) fun _ => ?_
    exact keepsLogSound_update _
  intro w hw
  have hp := hprocess w hw
  rw [exec_runEvent]
  rcases hx : exec (engine.processEvent strategy.recording configuration
    (lookup.map InformationLookup.besideLog) event) w with ⟨x | _, s', p'⟩
  · rw [hx] at hp
    exact hp
  · rw [hx] at hp
    exact hp

theorem keepsLogSound_runEvents (hs : engine.guard.strict = true)
    (events : List DeterministicEvent) :
    KeepsEngineLogSound (engine.runEvents strategy.recording configuration
      (lookup.map InformationLookup.besideLog) events) := by
  induction events with
  | nil => exact keepsLogSound_pure _
  | cons event rest ih =>
    exact KeepsLogSound.bind
      (engine.keepsLogSound_runEvent strategy configuration lookup hs event) fun _ => ih

theorem keepsLogSound_run (hs : engine.guard.strict = true) (events : List DeterministicEvent) :
    KeepsEngineLogSound (engine.run strategy.recording configuration
      (lookup.map InformationLookup.besideLog) events) := by
  refine KeepsLogSound.bind (keepsLogSound_callback (keepsLogSound_onSnd _)) fun _ => ?_
  refine KeepsLogSound.bind
    (engine.keepsLogSound_runEvents strategy configuration lookup hs events) fun _ => ?_
  refine KeepsLogSound.bind keepsLogSound_readState fun state => ?_
  refine KeepsLogSound.bind (keepsLogSound_raising _) fun result => ?_
  exact KeepsLogSound.bind (keepsLogSound_callback (keepsLogSound_onSnd _)) fun _ =>
    keepsLogSound_pure _

/-- The log a run of the wrapped strategy leaves, and the engine state it ends in. -/
def loggedRun (events : List DeterministicEvent) (env : σ) :
    Except Exc BacktestRunResult × (BacktestEngineState × (List Invocation × σ)) :=
  exec (engine.run strategy.recording configuration (lookup.map InformationLookup.besideLog) events)
    (initialState configuration, ([], env))

/-- At this event the lookup returns a record observed later than the event. -/
def LookupSeesFuture (event : DeterministicEvent) (env : σ) : Prop :=
  ∃ source payload e₁ items item observed, lookup = some source ∧
    exec (source event.timestamp) env = (.ok payload, e₁) ∧ payload.iter = .ok items ∧
    item ∈ items ∧ item.observedTimestamp? = some observed ∧ event.timestamp < observed

/-- With a strict guard no callback of a run sees the future, the log being that of the plain run;
and an event at which the lookup returns a later record leaves the books as they were, at any
point of any run. -/
theorem run_sees_no_future (hs : engine.guard.strict = true) (events : List DeterministicEvent)
    (env : σ) :
    ((engine.loggedRun strategy configuration lookup events env).1,
        forgetLog (engine.loggedRun strategy configuration lookup events env).2) =
      exec (engine.run strategy configuration lookup events) (initialState configuration, env) ∧
    (∀ invocation ∈ (engine.loggedRun strategy configuration lookup events env).2.2.1,
      invocation.context.SeesNoFuture) ∧
    ∀ (event : DeterministicEvent) (w : BacktestEngineState × σ),
      LookupSeesFuture lookup event w.2 →
        (exec (engine.runEvent strategy configuration lookup event) w).2.1.books = w.1.books := by
  refine ⟨?_, ?_, ?_⟩
  · exact (engine.mirrors_run strategy configuration lookup events
      (initialState configuration, ([], env))).symm
  · have hrun := engine.keepsLogSound_run strategy configuration lookup hs events
    exact hrun (initialState configuration, ([], env)) fun _ h => absurd h List.not_mem_nil
  · rintro event ⟨s, e⟩ ⟨source, payload, e₁, items, item, observed, rfl, hpayload, hitems, hitem,
      hobserved, hfuture⟩
    have hnone := informationSet_of_future hs hpayload hitems hitem hobserved hfuture
    rcases hx : exec (engine.informationSet (some source) event) e with ⟨x | audits, e'⟩
    · have hp : exec (engine.processEvent strategy configuration (some source) event) (s, e) =
          (.error x, (s, e')) := by
        rw [processEvent, exec_callback_bind, hx]
      rw [books_runEvent_of_raised hp]
    · exact absurd hx (hnone audits e')

end Recording

/-- A lookup that hands out one record, observed an hour after it is asked for. -/
def laterRecordLookup : InformationLookup Unit := fun timestamp => pure
  (.list [.dict [("observed_timestamp", .datetime { timestamp with
    wall := timestamp.wall + 3600000000 })]])

theorem run_sees_no_future_laterRecord :
    researchEngine.guard.strict = true ∧
      LookupSeesFuture (some laterRecordLookup) (eventAt .lifecycleEvaluation 1) () ∧
      (exec (researchEngine.runEvent (markFailingStrategy "p-1").toObject researchConfiguration
        (some laterRecordLookup) (eventAt .lifecycleEvaluation 1))
          (initialState researchConfiguration, ())).2.1.books =
        (initialState researchConfiguration).books := by
  have hfuture : LookupSeesFuture (some laterRecordLookup) (eventAt .lifecycleEvaluation 1) () :=
    ⟨laterRecordLookup, _, _, _, _, _, rfl, rfl, rfl, List.mem_singleton_self _, rfl, by decide⟩
  refine ⟨rfl, hfuture, ?_⟩
  exact (run_sees_no_future researchEngine (markFailingStrategy "p-1").toObject
    researchConfiguration (some laterRecordLookup) rfl [eventAt .lifecycleEvaluation 1] ()).2.2
    (eventAt .lifecycleEvaluation 1) (initialState researchConfiguration, ()) hfuture

end BacktestingEngine
end OptionResearch
