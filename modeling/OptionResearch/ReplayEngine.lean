import OptionResearch.NamedLists
import OptionResearch.BacktestModels

/-!
# The replay engine

`BacktestReplayEngine` of `replay.py`: a cursor into the recorded events, snapshots of it, and
branches whose timelines are mutable lists in a dictionary. A call that raises keeps what it had
written by then.
-/

namespace OptionResearch

inductive ReplayStatus where
  | playing
  | paused
  deriving DecidableEq, Repr

def ReplayStatus.value : ReplayStatus → String
  | .playing => "playing"
  | .paused => "paused"

structure ReplaySnapshot where
  snapshotId : String
  cursor : Int
  timestamp : DateTime
  strategyState : PyValue
  legState : PyValue
  portfolioState : PyValue
  cashState : PyValue
  greeks : PyValue
  volatilityState : PyValue
  openOrderIntents : List PyValue
  pendingFills : List PyValue
  lifecycleState : String
  sourceChecksums : PyValue
  rollContext : PyValue
  conversionContext : PyValue

structure ReplaySession where
  sessionId : String
  runId : String
  timelineId : String
  baseBranchId : String
  status : String
  metadata : Payload

structure ReplayBranch where
  branchId : String
  parentBranchId : Option String
  rootSnapshotId : String
  decisionDelta : Payload
  metadata : Payload

structure ReplayTimelineEvent where
  eventSequence : Nat
  timestamp : DateTime
  eventType : String
  severity : String
  strategyId : String
  symbol : String
  tags : List String
  payload : PyValue
  checksum : String

structure BacktestReplayEngine where
  events : List DeterministicEvent
  snapshots : List ReplaySnapshot := []
  cursor : Int := 0
  status : ReplayStatus := .paused
  replaySpeed : ℚ := 1
  filterEventTypes : List String := []
  replaySession : Option ReplaySession := none
  branches : InsertionDict String ReplayBranch := .empty
  branchEvents : NamedLists String ReplayTimelineEvent := .empty

/-! ### JSON -/

/-- The texts of values with `json` as the engine calls it, keys sorted and `default=str`.
`dumps` raises on what it cannot encode; a compact text has no blanks after its separators. -/
structure ReplayText extends PyText where
  dumps : (compact : Bool) → PyValue → Except Exc String
  loads : String → Except Exc PyValue

/-- Texts for small runs of the model, right for empty payloads. -/
def plainReplayText : ReplayText where
  toPyText := plainText
  dumps _ _ := .ok "\x7b\x7d"
  loads _ := .ok (.dict [])

mutual

/-- `_freeze`; a dictionary becomes a read-only view of one. -/
def freeze : PyValue → PyValue
  | .dict entries => .dict (freezeEntries entries)
  | .list items => .tuple (freezeItems items)
  | value => value

def freezeItems : List PyValue → List PyValue
  | [] => []
  | item :: rest => freeze item :: freezeItems rest

def freezeEntries : List (String × PyValue) → List (String × PyValue)
  | [] => []
  | (key, item) :: rest => (key, freeze item) :: freezeEntries rest

end

namespace ReplayText

variable (text : ReplayText)

/-- `_immutable_copy`. -/
def immutableCopy (value : PyValue) : Except Exc PyValue := do
  let encoded ← text.dumps false value
  let copied ← text.loads encoded
  return freeze copied

/-- `_checksum`. -/
def checksum (value : PyValue) : Except Exc String := do
  let encoded ← text.dumps true value
  return text.sha256 encoded

end ReplayText

variable (text : ReplayText)

/-! ### Cursor moves -/

/-- `items[index]` of a tuple; a negative index counts from the end. -/
def tupleItem {α : Type} (items : List α) (index : Int) : Except Exc α :=
  let position := if index < 0 then index + items.length else index
  match if position < 0 then none else items[position.toNat]? with
  | some item => .ok item
  | none => .error ⟨.other "IndexError", "tuple index out of range"⟩

/-- `t >= u`, which raises between a naive and an aware value. -/
def DateTime.atOrAfter (t u : DateTime) : Except Exc Bool :=
  if t.utcoffset.isNone = u.utcoffset.isNone then .ok (decide (u ≤ t))
  else .error ⟨.typeError, "can't compare offset-naive and offset-aware datetimes"⟩

/-- The loop of the jumps: the first event that passes the test, with its index. -/
def firstEvent (test : DeterministicEvent → Except Exc Bool) :
    Nat → List DeterministicEvent → Except Exc (Option (Nat × DeterministicEvent))
  | _, [] => .ok none
  | index, event :: rest => do
    if ← test event then return some (index, event)
    else firstEvent test (index + 1) rest

namespace BacktestReplayEngine

/-- A method of the engine: it may raise. -/
abbrev Method := Effect BacktestReplayEngine Exc

/-- A setting that is written and returned. -/
def setting {α : Type} (write : BacktestReplayEngine → BacktestReplayEngine)
    (read : BacktestReplayEngine → α) : Method α := do
  modify write
  return read (← get)

def play : Method ReplayStatus := setting (fun engine => { engine with status := .playing }) status

def pause : Method ReplayStatus := setting (fun engine => { engine with status := .paused }) status

def moveCursor (cursor : Int) : Method Unit := modify fun engine => { engine with cursor }

def stepForward : Method (Option DeterministicEvent) := do
  let engine ← get
  if engine.cursor ≥ engine.events.length then return none
  else
    let event ← Effect.raising (tupleItem engine.events engine.cursor)
    moveCursor (engine.cursor + 1)
    return some event

def stepBackward : Method (Option DeterministicEvent) := do
  let engine ← get
  if engine.cursor ≤ 1 then
    moveCursor 0
    return none
  else
    moveCursor (engine.cursor - 1)
    let event ← Effect.raising (tupleItem engine.events (engine.cursor - 1 - 1))
    return some event

/-- A jump to the first event that passes the test; `fallback` is where the cursor goes if none
does. -/
def jump (test : DeterministicEvent → Except Exc Bool) (fallback : BacktestReplayEngine → Int) :
    Method (Option DeterministicEvent) := do
  let engine ← get
  let found ← Effect.raising (firstEvent test 0 engine.events)
  moveCursor (found.elim (fallback engine) fun entry => entry.1)
  return found.map (·.2)

def jumpToTimestamp (timestamp : DateTime) : Method (Option DeterministicEvent) :=
  jump (fun event => event.timestamp.atOrAfter timestamp) fun engine => engine.events.length

def jumpToReason (reasonCode : String) : Method (Option DeterministicEvent) :=
  jump (fun event => .ok (text.str (event.payload.get "reason_code" (.str "")) == reasonCode))
    fun engine => engine.cursor

def jumpToEventType (eventType : String) : Method (Option DeterministicEvent) :=
  jump (fun event => .ok (event.eventType.value == eventType)) fun engine => engine.cursor

def setReplaySpeed (speed : ℚ) : Method ℚ :=
  setting (fun engine => { engine with replaySpeed := max (1 / 10) speed }) replaySpeed

def setFilterEventTypes (eventTypes : List String) : Method (List String) :=
  setting (fun engine => { engine with filterEventTypes := eventTypes }) filterEventTypes

end BacktestReplayEngine

/-! ### Snapshots -/

/-- The arguments of `create_snapshot`. -/
structure CreateSnapshot where
  snapshotId : String
  strategyState : Payload
  legState : Payload
  portfolioState : Payload
  cashState : Payload
  greeks : List (String × ℚ)
  volatilityState : Payload
  openOrderIntents : List Payload
  pendingFills : List Payload
  lifecycleState : String
  sourceChecksums : List (String × String)
  rollContext : Option Payload := none
  conversionContext : Option Payload := none

namespace BacktestReplayEngine

/-- The index of the event a snapshot is taken at. -/
def snapshotIndex (engine : BacktestReplayEngine) : Int :=
  min (max 0 engine.cursor) (engine.events.length - 1)

/-- The snapshot of an engine that has events. -/
def buildSnapshot (engine : BacktestReplayEngine) (request : CreateSnapshot) :
    Except Exc ReplaySnapshot := do
  let event ← tupleItem engine.events engine.snapshotIndex
  let strategyState ← text.immutableCopy (.dict request.strategyState)
  let legState ← text.immutableCopy (.dict request.legState)
  let portfolioState ← text.immutableCopy (.dict request.portfolioState)
  let cashState ← text.immutableCopy (.dict request.cashState)
  let greeks ← text.immutableCopy (.dict (request.greeks.map fun e => (e.1, .float e.2)))
  let volatilityState ← text.immutableCopy (.dict request.volatilityState)
  let openOrderIntents ← request.openOrderIntents.mapM fun item => text.immutableCopy (.dict item)
  let pendingFills ← request.pendingFills.mapM fun item => text.immutableCopy (.dict item)
  let sourceChecksums ←
    text.immutableCopy (.dict (request.sourceChecksums.map fun e => (e.1, .str e.2)))
  let rollContext ← text.immutableCopy (.dict (request.rollContext.getD []))
  let conversionContext ← text.immutableCopy (.dict (request.conversionContext.getD []))
  return {
    snapshotId := request.snapshotId
    cursor := engine.snapshotIndex
    timestamp := event.timestamp
    strategyState, legState, portfolioState, cashState, greeks, volatilityState
    openOrderIntents, pendingFills
    lifecycleState := request.lifecycleState
    sourceChecksums, rollContext, conversionContext }

def createSnapshot (request : CreateSnapshot) : Method (Option ReplaySnapshot) := do
  let engine ← get
  if engine.events.isEmpty then return none
  else
    let snapshot ← Effect.raising (engine.buildSnapshot text request)
    modify fun engine => { engine with snapshots := engine.snapshots ++ [snapshot] }
    return some snapshot

/-- The first snapshot of that name. -/
def findSnapshot (engine : BacktestReplayEngine) (snapshotId : String) : Option ReplaySnapshot :=
  engine.snapshots.find? (·.snapshotId == snapshotId)

def restoreSnapshot (snapshotId : String) : Method (Option ReplaySnapshot) := do
  let engine ← get
  match engine.findSnapshot snapshotId with
  | some snapshot =>
    moveCursor snapshot.cursor
    return some snapshot
  | none => return none

end BacktestReplayEngine

/-! ### Branches -/

/-- The arguments of `initialize_session`. -/
structure InitializeSession where
  sessionId : String
  runId : String
  timelineId : String
  baseBranchId : String := "main"
  status : String := "active"
  metadata : Option Payload := none

/-- The arguments of `create_branch`. -/
structure CreateBranch where
  branchId : String
  parentBranchId : String
  rootSnapshotId : String
  decisionDelta : Option Payload := none
  metadata : Option Payload := none

/-- The arguments of `append_branch_event`. -/
structure AppendBranchEvent where
  branchId : String
  eventType : String
  severity : String
  strategyId : String
  symbol : String
  timestamp : DateTime
  tags : List String
  payload : Payload

namespace BacktestReplayEngine

def branchTimeline (engine : BacktestReplayEngine) (branchId : String) :
    List ReplayTimelineEvent := engine.branchEvents.items branchId

/-- The base branch of a session, declared unless it is already. -/
def declareBase (engine : BacktestReplayEngine) (branchId : String) : BacktestReplayEngine :=
  if engine.branches.contains branchId then engine
  else
    { engine with
      branches := engine.branches.set branchId
        { branchId, parentBranchId := none, rootSnapshotId := "", decisionDelta := []
          metadata := [] } }

def initializeSession (request : InitializeSession) : Method ReplaySession := do
  let session : ReplaySession :=
    { sessionId := request.sessionId
      runId := request.runId
      timelineId := request.timelineId
      baseBranchId := request.baseBranchId
      status := request.status
      metadata := request.metadata.getD [] }
  modify fun engine => { engine with replaySession := some session }
  modify fun engine => engine.declareBase request.baseBranchId
  modify fun engine =>
    { engine with branchEvents := (engine.branchEvents.setdefault request.baseBranchId).1 }
  return session

/-- The two checks of `create_branch`. -/
def assertBranchable (engine : BacktestReplayEngine) (request : CreateBranch) : Except Exc Unit :=
  if engine.branches.contains request.parentBranchId = false then
    .error ⟨.valueError, s!"unknown replay parent branch: {request.parentBranchId}"⟩
  else if engine.branches.contains request.branchId then
    .error ⟨.valueError, s!"replay branch already exists: {request.branchId}"⟩
  else .ok ()

/-- The events a new branch starts with: those of its parent, up to the root snapshot if there is
one of that name. -/
def inheritedEvents (engine : BacktestReplayEngine) (request : CreateBranch) :
    List ReplayTimelineEvent :=
  let parentEvents := engine.branchTimeline request.parentBranchId
  match engine.findSnapshot request.rootSnapshotId with
  | some snapshot => parentEvents.filter fun item => item.eventSequence ≤ snapshot.cursor
  | none => parentEvents

def createBranch (request : CreateBranch) : Method ReplayBranch := do
  let engine ← get
  Effect.raising (engine.assertBranchable request)
  let branch : ReplayBranch :=
    { branchId := request.branchId
      parentBranchId := some request.parentBranchId
      rootSnapshotId := request.rootSnapshotId
      decisionDelta := request.decisionDelta.getD []
      metadata := request.metadata.getD [] }
  modify fun engine => { engine with branches := engine.branches.set request.branchId branch }
  let parentEvents := engine.inheritedEvents request
  modify fun engine =>
    { engine with branchEvents := engine.branchEvents.store request.branchId parentEvents }
  return branch

/-- What the checksum of an event covers. -/
def checksumContent (request : AppendBranchEvent) (eventSequence : Nat) : PyValue :=
  .dict [("branch_id", .str request.branchId), ("event_sequence", .int eventSequence),
    ("timestamp", .str (text.isoformat request.timestamp)),
    ("event_type", .str request.eventType), ("payload", .dict request.payload)]

/-- The event for a request and its place in the timeline. -/
def buildEvent (request : AppendBranchEvent) (eventSequence : Nat) :
    Except Exc ReplayTimelineEvent := do
  let checksum ← text.checksum (checksumContent text request eventSequence)
  let payload ← text.immutableCopy (.dict request.payload)
  return {
    eventSequence
    timestamp := request.timestamp
    eventType := request.eventType
    severity := request.severity
    strategyId := request.strategyId
    symbol := request.symbol
    tags := request.tags
    payload, checksum }

def appendBranchEvent (request : AppendBranchEvent) : Method ReplayTimelineEvent := do
  let engine ← get
  let (branchEvents, events) := engine.branchEvents.setdefault request.branchId
  -- the list is entered in the dictionary before anything can raise
  modify fun engine => { engine with branchEvents }
  let eventSequence := (branchEvents.heap.read events).length
  let event ← Effect.raising (buildEvent text request eventSequence)
  modify fun engine => { engine with branchEvents := engine.branchEvents.push events event }
  return event

/-! ### Calls -/

/-- The methods that change an engine, with their arguments. -/
inductive Call where
  | play
  | pause
  | stepForward
  | stepBackward
  | jumpToTimestamp (timestamp : DateTime)
  | jumpToReason (reasonCode : String)
  | jumpToEventType (eventType : String)
  | setReplaySpeed (speed : ℚ)
  | setFilterEventTypes (eventTypes : List String)
  | createSnapshot (request : CreateSnapshot)
  | restoreSnapshot (snapshotId : String)
  | initializeSession (request : InitializeSession)
  | createBranch (request : CreateBranch)
  | appendBranchEvent (request : AppendBranchEvent)

def perform : Call → Method Unit
  | .play => discard play
  | .pause => discard pause
  | .stepForward => discard stepForward
  | .stepBackward => discard stepBackward
  | .jumpToTimestamp timestamp => discard (jumpToTimestamp timestamp)
  | .jumpToReason reasonCode => discard (jumpToReason text reasonCode)
  | .jumpToEventType eventType => discard (jumpToEventType eventType)
  | .setReplaySpeed speed => discard (setReplaySpeed speed)
  | .setFilterEventTypes eventTypes => discard (setFilterEventTypes eventTypes)
  | .createSnapshot request => discard (createSnapshot text request)
  | .restoreSnapshot snapshotId => discard (restoreSnapshot snapshotId)
  | .initializeSession request => discard (initializeSession request)
  | .createBranch request => discard (createBranch request)
  | .appendBranchEvent request => discard (appendBranchEvent text request)

/-- The engine after some calls, each returning or raising. -/
def after (engine : BacktestReplayEngine) (calls : List Call) : BacktestReplayEngine :=
  Effect.afterCalls (perform text) engine calls

end BacktestReplayEngine
end OptionResearch
