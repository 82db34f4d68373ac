import Mathlib.Data.Fintype.OfMap
import OptionResearch.AuditTrail
import OptionResearch.PartialEffects
import OptionResearch.PythonValues

/-!
# The strategy state machine

`StrategyStateMachine.transition` of `state_machine.py`: three checks, then the sequence number,
the record and the state, in that order. A call that raises does so before its first write, and
the records of any run form a trail from `CONFIGURED` to the current state.
-/

namespace OptionResearch

inductive LifecycleState where
  | configured
  | waitingForEntry
  | entrySignaled
  | entryPending
  | partiallyOpen
  | open
  | managementPending
  | exitSignaled
  | exitPending
  | partiallyClosed
  | rollSignaled
  | rollPending
  | expired
  | pendingExerciseOrAssignment
  | closed
  | cancelled
  | failed
  deriving DecidableEq, Repr

instance : Fintype LifecycleState :=
  Fintype.ofList [.configured, .waitingForEntry, .entrySignaled, .entryPending, .partiallyOpen,
    .open, .managementPending, .exitSignaled, .exitPending, .partiallyClosed, .rollSignaled,
    .rollPending, .expired, .pendingExerciseOrAssignment, .closed, .cancelled, .failed]
    fun s => by cases s <;> decide

def LifecycleState.value : LifecycleState → String
  | .configured => "configured"
  | .waitingForEntry => "waiting_for_entry"
  | .entrySignaled => "entry_signaled"
  | .entryPending => "entry_pending"
  | .partiallyOpen => "partially_open"
  | .open => "open"
  | .managementPending => "management_pending"
  | .exitSignaled => "exit_signaled"
  | .exitPending => "exit_pending"
  | .partiallyClosed => "partially_closed"
  | .rollSignaled => "roll_signaled"
  | .rollPending => "roll_pending"
  | .expired => "expired"
  | .pendingExerciseOrAssignment => "pending_exercise_or_assignment"
  | .closed => "closed"
  | .cancelled => "cancelled"
  | .failed => "failed"

inductive TransitionTrigger where
  | entryPolicy
  | entryPlanCreated
  | entryIntentsSubmitted
  | fillReconciliation
  | managementPolicy
  | exitPolicy
  | rollPolicy
  | expiration
  | expirationResidual
  | riskBreach
  | cancellation
  | failure
  | finalization
  deriving DecidableEq, Repr

def TransitionTrigger.value : TransitionTrigger → String
  | .entryPolicy => "entry_policy"
  | .entryPlanCreated => "entry_plan_created"
  | .entryIntentsSubmitted => "entry_intents_submitted"
  | .fillReconciliation => "fill_reconciliation"
  | .managementPolicy => "management_policy"
  | .exitPolicy => "exit_policy"
  | .rollPolicy => "roll_policy"
  | .expiration => "expiration"
  | .expirationResidual => "expiration_residual"
  | .riskBreach => "risk_breach"
  | .cancellation => "cancellation"
  | .failure => "failure"
  | .finalization => "finalization"

inductive GuardName where
  | dataAvailable
  | marketOpen
  | quoteFreshness
  | liquidityThreshold
  | bidAskWidth
  | capitalAvailable
  | strategyValidity
  | legCompatibility
  | expirationOrdering
  | exerciseStyleCompatibility
  | minimumQualityScore
  | noConflictingLifecycleAction
  | noDuplicateOrderIntent
  | noLookAheadCompliance
  | maximumOpenPositions
  | eventRiskRestrictions
  | earningsWindowRestrictions
  | corporateActionRestrictions
  deriving DecidableEq, Repr

def GuardName.value : GuardName → String
  | .dataAvailable => "data_available"
  | .marketOpen => "market_open"
  | .quoteFreshness => "quote_freshness"
  | .liquidityThreshold => "liquidity_threshold"
  | .bidAskWidth => "bid_ask_width"
  | .capitalAvailable => "capital_available"
  | .strategyValidity => "strategy_validity"
  | .legCompatibility => "leg_compatibility"
  | .expirationOrdering => "expiration_ordering"
  | .exerciseStyleCompatibility => "exercise_style_compatibility"
  | .minimumQualityScore => "minimum_quality_score"
  | .noConflictingLifecycleAction => "no_conflicting_lifecycle_action"
  | .noDuplicateOrderIntent => "no_duplicate_order_intent"
  | .noLookAheadCompliance => "no_look_ahead_compliance"
  | .maximumOpenPositions => "maximum_open_positions"
  | .eventRiskRestrictions => "event_risk_restrictions"
  | .earningsWindowRestrictions => "earnings_window_restrictions"
  | .corporateActionRestrictions => "corporate_action_restrictions"

inductive ActionName where
  | createEntryPlan
  | submitResearchOrderIntents
  | reconcileFills
  | activatePosition
  | markPosition
  | triggerManagement
  | triggerExit
  | triggerRoll
  | processExpiration
  | cancelPendingAction
  | failPosition
  | closePosition
  | finalizeStrategyInstance
  deriving DecidableEq, Repr

structure GuardResult where
  guard : GuardName
  passed : Bool
  reasonCode : String
  details : Payload

structure ActionPlan where
  action : ActionName
  payload : Payload

structure StateTransitionRecord where
  sequenceNumber : Nat
  priorState : LifecycleState
  nextState : LifecycleState
  timestamp : DateTime
  trigger : TransitionTrigger
  guardResults : List GuardResult
  actionPlan : List ActionPlan
  dataSnapshotReference : String
  strategyIdentifier : String
  positionIdentifier : String
  softwareGitCommit : String
  warnings : List String
  failures : List String
  rowChecksum : String

/-- The source's `_ALLOWED_TRANSITIONS`. -/
def LifecycleState.allowedTransitions : LifecycleState → List LifecycleState
  | .configured => [.waitingForEntry, .cancelled, .failed]
  | .waitingForEntry => [.entrySignaled, .cancelled, .failed]
  | .entrySignaled => [.entryPending, .cancelled, .failed]
  | .entryPending => [.partiallyOpen, .open, .cancelled, .failed]
  | .partiallyOpen => [.open, .cancelled, .failed]
  | .open => [.managementPending, .exitSignaled, .rollSignaled, .expired, .failed]
  | .managementPending => [.open, .exitSignaled, .rollSignaled, .failed]
  | .exitSignaled => [.exitPending, .failed]
  | .exitPending => [.partiallyClosed, .closed, .failed]
  | .partiallyClosed => [.closed, .failed]
  | .rollSignaled => [.rollPending, .failed]
  | .rollPending => [.open, .partiallyOpen, .failed]
  | .expired => [.pendingExerciseOrAssignment, .closed]
  | .pendingExerciseOrAssignment => [.closed, .failed]
  | .closed => []
  | .cancelled => []
  | .failed => []

structure StrategyStateMachine where
  strategyIdentifier : String
  positionIdentifier : String
  softwareGitCommit : String
  state : LifecycleState := .configured
  sequenceNumber : Nat := 0
  transitions : List StateTransitionRecord := []

/-- The arguments of one call of `transition`. -/
structure TransitionCall where
  nextState : LifecycleState
  timestamp : DateTime
  trigger : TransitionTrigger
  guardResults : List GuardResult
  actionPlan : List ActionPlan
  dataSnapshotReference : String
  warnings : List String := []
  failures : List String := []

namespace StrategyStateMachine

open Effect AuditTrail

/-- `_assert_can_transition`. -/
def assertCanTransition (machine : StrategyStateMachine) (nextState : LifecycleState) :
    Except Exc Unit :=
  if nextState ∈ machine.state.allowedTransitions then .ok ()
  else .error ⟨.invalidTransitionError, "invalid transition: " ++
    s!"state={machine.state.value} next_state={nextState.value}"⟩

/-- `_assert_guards`. -/
def assertGuards (guardResults : List GuardResult) : Except Exc Unit :=
  let failed := guardResults.filter fun item => !item.passed
  if failed = [] then .ok ()
  else
    let reasons := ",".intercalate (failed.map fun item => s!"{item.guard.value}:{item.reasonCode}")
    .error ⟨.invalidTransitionError, s!"transition guards failed: {reasons}"⟩

/-- `_assert_ordering`. -/
def assertOrdering (text : PyText) (machine : StrategyStateMachine) (timestamp : DateTime) :
    Except Exc Unit :=
  match machine.transitions.getLast? with
  | none => .ok ()
  | some last =>
    if timestamp < last.timestamp then
      .error ⟨.invalidTransitionError, "transition timestamp is non-deterministic: " ++
        s!"timestamp={text.isoformat timestamp} last={text.isoformat last.timestamp}"⟩
    else .ok ()

/-- `_transition_checksum`. -/
def transitionChecksum (text : PyText) (sequenceNumber : Nat)
    (priorState nextState : LifecycleState) (timestamp : DateTime) (trigger : TransitionTrigger)
    (snapshot : String) : String :=
  text.sha256 (s!"{sequenceNumber}|{priorState.value}|{nextState.value}|" ++
    s!"{text.isoformat timestamp}|{trigger.value}|{snapshot}")

/-- The record `transition` builds once the sequence number has been incremented. -/
def buildRecord (text : PyText) (machine : StrategyStateMachine) (call : TransitionCall) :
    StateTransitionRecord where
  sequenceNumber := machine.sequenceNumber
  priorState := machine.state
  nextState := call.nextState
  timestamp := call.timestamp.ensureAware
  trigger := call.trigger
  guardResults := call.guardResults
  actionPlan := call.actionPlan
  dataSnapshotReference := call.dataSnapshotReference
  strategyIdentifier := machine.strategyIdentifier
  positionIdentifier := machine.positionIdentifier
  softwareGitCommit := machine.softwareGitCommit
  warnings := call.warnings
  failures := call.failures
  rowChecksum := transitionChecksum text machine.sequenceNumber machine.state call.nextState
    call.timestamp.ensureAware call.trigger call.dataSnapshotReference

def transition (text : PyText) (call : TransitionCall) :
    Effect StrategyStateMachine Exc StateTransitionRecord := do
  let machine ← get
  Effect.raising (machine.assertCanTransition call.nextState)
  Effect.raising (assertGuards call.guardResults)
  Effect.raising (assertOrdering text machine call.timestamp.ensureAware)
  modify fun m => { m with sequenceNumber := m.sequenceNumber + 1 }
  let record := buildRecord text (← get) call
  modify fun m => { m with state := call.nextState }
  modify fun m => { m with transitions := m.transitions ++ [record] }
  return record

/-- The machine after a sequence of calls, each returning or raising. -/
def after (text : PyText) (calls : List TransitionCall) (machine : StrategyStateMachine) :
    StrategyStateMachine :=
  calls.foldl (fun m call => (exec (transition text call) m).2) machine

/-- The machine with a new record at its end and the state and number of that record. -/
def commit (machine : StrategyStateMachine) (record : StateTransitionRecord) :
    StrategyStateMachine :=
  { machine with
    state := record.nextState
    sequenceNumber := record.sequenceNumber
    transitions := machine.transitions ++ [record] }

/-- What a call that returns has checked, and the record it then wrote. -/
structure Accepts (text : PyText) (machine : StrategyStateMachine) (call : TransitionCall)
    (record : StateTransitionRecord) : Prop where
  allowed : call.nextState ∈ machine.state.allowedTransitions
  guarded : ∀ item ∈ call.guardResults, item.passed = true
  ordered : ∀ last, machine.transitions.getLast? = some last →
    last.timestamp ≤ call.timestamp.ensureAware
  built : record =
    buildRecord text { machine with sequenceNumber := machine.sequenceNumber + 1 } call

variable {text : PyText}

theorem assertCanTransition_eq_ok_iff (machine : StrategyStateMachine)
    (nextState : LifecycleState) :
    machine.assertCanTransition nextState = .ok () ↔
      nextState ∈ machine.state.allowedTransitions := by
  unfold assertCanTransition
  split_ifs with h
  · exact iff_of_true rfl h
  · exact iff_of_false (fun h' => nomatch h') h

theorem assertGuards_eq_ok_iff (guardResults : List GuardResult) :
    assertGuards guardResults = .ok () ↔ ∀ item ∈ guardResults, item.passed = true := by
  have hnil : (guardResults.filter fun item => !item.passed) = [] ↔
      ∀ item ∈ guardResults, item.passed = true := by
    simp [List.filter_eq_nil_iff]
  unfold assertGuards
  dsimp only
  split_ifs with h
  · exact iff_of_true rfl (hnil.mp h)
  · exact iff_of_false (fun h' => nomatch h') fun h' => h (hnil.mpr h')

theorem assertOrdering_eq_ok_iff (machine : StrategyStateMachine) (timestamp : DateTime) :
    assertOrdering text machine timestamp = .ok () ↔
      ∀ last, machine.transitions.getLast? = some last → last.timestamp ≤ timestamp := by
  unfold assertOrdering
  cases machine.transitions.getLast? with
  | none => exact iff_of_true rfl fun _ h => nomatch h
  | some last =>
    dsimp only
    split_ifs with h
    · exact iff_of_false (fun h' => nomatch h') fun h' => DateTime.not_le_iff.mpr h (h' last rfl)
    · refine iff_of_true rfl ?_
      rintro _ ⟨⟩
      exact DateTime.not_lt_iff.mp h

/-- A call returns and commits its record exactly when it is accepted, or raises
`InvalidTransitionError` and leaves the machine as it was. -/
theorem transition_cases (text : PyText) (machine : StrategyStateMachine) (call : TransitionCall) :
    (∃ record, exec (transition text call) machine = (.ok record, machine.commit record) ∧
        Accepts text machine call record) ∨
      ∃ x, exec (transition text call) machine = (.error x, machine) ∧
        x.kind = .invalidTransitionError := by
  unfold transition
  rw [exec_get_bind, exec_raising_bind]
  rcases hallowed : machine.assertCanTransition call.nextState with x | _
  · refine Or.inr ⟨x, rfl, ?_⟩
    unfold assertCanTransition at hallowed
    split_ifs at hallowed
    cases hallowed
    rfl
  dsimp only
  rw [exec_raising_bind]
  rcases hguarded : assertGuards call.guardResults with x | _
  · refine Or.inr ⟨x, rfl, ?_⟩
    unfold assertGuards at hguarded
    dsimp only at hguarded
    split_ifs at hguarded
    cases hguarded
    rfl
  dsimp only
  rw [exec_raising_bind]
  rcases hordered : assertOrdering text machine call.timestamp.ensureAware with x | _
  · refine Or.inr ⟨x, rfl, ?_⟩
    unfold assertOrdering at hordered
    split at hordered
    · cases hordered
    · split_ifs at hordered
      cases hordered
      rfl
  refine Or.inl ⟨_, rfl, ?_, ?_, ?_, rfl⟩
  · exact (assertCanTransition_eq_ok_iff _ _).mp hallowed
  · exact (assertGuards_eq_ok_iff _).mp hguarded
  · exact (assertOrdering_eq_ok_iff _ _).mp hordered

/-- What the records of a machine say about the run that wrote them. -/
structure TraceSound (machine : StrategyStateMachine) : Prop where
  trail : Trail StateTransitionRecord.priorState StateTransitionRecord.nextState .configured
    machine.transitions machine.state
  numbered : machine.transitions.map (·.sequenceNumber) = List.range' 1 machine.sequenceNumber
  ordered : (machine.transitions.map (·.timestamp)).Pairwise (· ≤ ·)
  guarded : ∀ record ∈ machine.transitions, ∀ item ∈ record.guardResults, item.passed = true
  live : ∀ record ∈ machine.transitions,
    record.priorState ≠ .closed ∧ record.priorState ≠ .cancelled ∧ record.priorState ≠ .failed

theorem live_of_allowed {s t : LifecycleState} (h : t ∈ s.allowedTransitions) :
    s ≠ .closed ∧ s ≠ .cancelled ∧ s ≠ .failed := by
  revert s t
  decide

/-- An accepted call keeps the records sound. -/
theorem TraceSound.commit {machine : StrategyStateMachine} (h : TraceSound machine)
    {call : TransitionCall} {record : StateTransitionRecord}
    (haccepts : Accepts text machine call record) : TraceSound (machine.commit record) := by
  obtain ⟨hallowed, hguarded, hordered, rfl⟩ := haccepts
  refine ⟨h.trail.concat rfl, ?_, ?_, ?_, ?_⟩
  · change (machine.transitions ++ [_]).map _ = List.range' 1 (machine.sequenceNumber + 1)
    rw [List.map_append, h.numbered, List.range'_concat]
    simp [buildRecord, Nat.add_comm]
  · change ((machine.transitions ++ [_]).map _).Pairwise _
    rw [List.map_append, List.pairwise_append]
    refine ⟨h.ordered, List.pairwise_singleton _ _, ?_⟩
    intro earlier hearlier last hlast
    obtain rfl := List.mem_singleton.mp hlast
    -- the last record is the latest one, and the call is not earlier than it
    rcases hend : machine.transitions.getLast? with _ | newest
    · rw [List.getLast?_eq_none_iff] at hend
      rw [hend] at hearlier
      exact absurd hearlier List.not_mem_nil
    · obtain ⟨init, hinit⟩ := List.getLast?_eq_some_iff.mp hend
      have hnewest := hordered newest hend
      rw [hinit, List.map_append, List.mem_append] at hearlier
      rcases hearlier with hearlier | hearlier
      · have hpairs := h.ordered
        rw [hinit, List.map_append, List.pairwise_append] at hpairs
        exact (hpairs.2.2 earlier hearlier newest.timestamp (List.mem_singleton_self _)).trans
          hnewest
      · obtain rfl := List.mem_singleton.mp hearlier
        exact hnewest
  · intro r hr
    rcases List.mem_append.mp hr with hr | hr
    · exact h.guarded r hr
    · obtain rfl := List.mem_singleton.mp hr
      exact hguarded
  · intro r hr
    rcases List.mem_append.mp hr with hr | hr
    · exact h.live r hr
    · obtain rfl := List.mem_singleton.mp hr
      exact live_of_allowed hallowed

theorem TraceSound.transition {machine : StrategyStateMachine} (h : TraceSound machine)
    (call : TransitionCall) : TraceSound (exec (transition text call) machine).2 := by
  rcases transition_cases text machine call with ⟨record, hexec, haccepts⟩ | ⟨x, hexec, _⟩
  · rw [hexec]
    exact h.commit haccepts
  · rw [hexec]
    exact h

/-- A machine as it is constructed. -/
def fresh (strategyIdentifier positionIdentifier softwareGitCommit : String) :
    StrategyStateMachine :=
  { strategyIdentifier, positionIdentifier, softwareGitCommit }

theorem after_concat (calls : List TransitionCall) (call : TransitionCall)
    (machine : StrategyStateMachine) :
    after text (calls ++ [call]) machine =
      (exec (transition text call) (after text calls machine)).2 := by
  simp only [after, List.foldl_append, List.foldl_cons, List.foldl_nil]

/-- After any calls to a fresh machine the records are sound, and a call that raises leaves the
machine as it was. -/
theorem traceSound_after (text : PyText)
    (strategyIdentifier positionIdentifier softwareGitCommit : String)
    (calls : List TransitionCall) :
    TraceSound (after text calls
        (fresh strategyIdentifier positionIdentifier softwareGitCommit)) ∧
      ∀ (machine : StrategyStateMachine) (call : TransitionCall) (x : Exc),
        (exec (transition text call) machine).1 = .error x →
          (exec (transition text call) machine).2 = machine := by
  constructor
  · induction calls using List.reverseRecOn with
    | nil =>
      exact ⟨rfl, rfl, List.Pairwise.nil, fun _ h => absurd h List.not_mem_nil,
        fun _ h => absurd h List.not_mem_nil⟩
    | append_singleton calls call ih =>
      rw [after_concat]
      exact ih.transition call
  · intro machine call x hraised
    rcases transition_cases text machine call with ⟨record, hexec, _⟩ | ⟨y, hexec, _⟩
    · rw [hexec] at hraised
      cases hraised
    · rw [hexec]

end StrategyStateMachine
end OptionResearch
