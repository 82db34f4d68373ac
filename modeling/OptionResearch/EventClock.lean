import Mathlib.Data.Prod.Lex
import Mathlib.Data.String.Basic
import OptionResearch.StableSort
import OptionResearch.BacktestModels

/-!
# The historical event clock

`HistoricalEventClock.build` of `clock.py`: the sessions are sorted by date and expanded into open
and close events, the timed events are added, priorities are overridden by the configuration,
duplicates are handled by the policy, and the rest is sorted and numbered. Datetimes compare by
instant, also as keys of the dictionary that finds duplicates.
-/

namespace OptionResearch

open StableSort

/-- `EventPriority.SESSION_OPEN`. -/
def EventPriority.sessionOpen : Int := 20

/-- `EventPriority.SESSION_CLOSE`. -/
def EventPriority.sessionClose : Int := 110

structure HistoricalEventClock where
  config : EventClockConfig
  text : PyText

namespace HistoricalEventClock

variable (clock : HistoricalEventClock)

/-- `_priority`. -/
def priority (eventType : EventType) (fallback : Int) : Int :=
  (clock.config.eventPriorities.get? eventType).getD fallback

/-- The events of one trading day. -/
def sessionEvents (session : TradingSession) : List ClockEvent :=
  [{ timestamp := session.openTimestamp.ensureAware
     eventType := .sessionOpen
     priority := clock.priority .sessionOpen EventPriority.sessionOpen
     payload := [("trade_date", .str session.tradeDate.isoformat)] },
   { timestamp := session.closeTimestamp.ensureAware
     eventType := .sessionClose
     priority := clock.priority .sessionClose EventPriority.sessionClose
     payload := [("trade_date", .str session.tradeDate.isoformat)] }]

/-- `_default_session_events`. -/
def defaultSessionEvents (sessions : List TradingSession) : List ClockEvent :=
  (sessions.filter (·.isTradingDay)).flatMap clock.sessionEvents

/-- `_validate_sessions`. -/
def validateSessions (sessions : List TradingSession) : Except Exc (List TradingSession) :=
  if sessions = [] then
    if clock.config.missingSessionPolicy = .raise then
      .error ⟨.eventClockError, "no trading sessions available for configured backtest range"⟩
    else .ok []
  else
    let ordered := sortBy (·.tradeDate.ordering) sessions
    match ordered.find? fun session =>
      session.closeTimestamp.ensureAware ≤ session.openTimestamp.ensureAware with
    | some session =>
      .error ⟨.eventClockError, "session open timestamp must be earlier than close timestamp " ++
        s!"(trade_date={session.tradeDate.isoformat})"⟩
    | none => .ok ordered

/-- An event as `build` normalizes it. -/
def normalize (item : ClockEvent) : ClockEvent where
  timestamp := item.timestamp.ensureAware
  eventType := item.eventType
  priority := clock.priority item.eventType item.priority
  sequenceHint := item.sequenceHint
  payload := item.payload

abbrev ClockKey := Int × EventType × Int

/-- The key by which events are duplicates of each other. -/
def clockKey (item : ClockEvent) : ClockKey :=
  (item.timestamp.instant, item.eventType, item.sequenceHint)

/-- One turn of the loop of `_dedupe`. -/
def dedupeStep (byKey : InsertionDict ClockKey ClockEvent) (item : ClockEvent) :
    Except Exc (InsertionDict ClockKey ClockEvent) :=
  if byKey.contains (clockKey item) = false then .ok (byKey.set (clockKey item) item)
  else if clock.config.duplicateEventPolicy = .keepFirst then .ok byKey
  else if clock.config.duplicateEventPolicy = .keepLast then .ok (byKey.set (clockKey item) item)
  else
    .error ⟨.eventClockError, "duplicate event detected under strict policy " ++
      s!"(timestamp={clock.text.isoformat item.timestamp} type={item.eventType.value})"⟩

/-- `_dedupe`. -/
def dedupe (events : List ClockEvent) : Except Exc (List ClockEvent) :=
  if clock.config.duplicateEventPolicy = .keepAll then .ok events
  else do
    let byKey ← events.foldlM clock.dedupeStep .empty
    return byKey.values

/-- The key by which `build` sorts. -/
def sortKey (item : ClockEvent) : ℤ ×ₗ ℤ ×ₗ String ×ₗ ℤ :=
  toLex (item.timestamp.instant,
    toLex (item.priority, toLex (item.eventType.value, item.sequenceHint)))

/-- The local variable `ordered` of `build`. -/
def ordered (sessions : List TradingSession) (timedEvents : List ClockEvent) :
    Except Exc (List ClockEvent) := do
  let validSessions ← clock.validateSessions sessions
  let clockEvents := clock.defaultSessionEvents validSessions ++ timedEvents
  let normalized := clockEvents.map clock.normalize
  let deduped ← clock.dedupe normalized
  return sortBy sortKey deduped

/-- `_event_id`. -/
def eventId (sequence : Nat) (event : ClockEvent) : String :=
  clock.text.sha256 (s!"{sequence}|{clock.text.isoformat event.timestamp}|" ++
    s!"{event.eventType.value}|{event.priority}|{event.sequenceHint}|" ++
    clock.text.sortedItems event.payload)

/-- The output event for an event and its place in the stream. -/
def emit (event : ClockEvent) (sequence : Nat) : DeterministicEvent where
  eventId := clock.eventId sequence event
  timestamp := event.timestamp.ensureAware
  eventType := event.eventType
  priority := event.priority
  sequenceNumber := sequence
  payload := event.payload

/-- The stream, numbered from one. -/
def emitAll (stream : List ClockEvent) : List DeterministicEvent :=
  (stream.zipIdx 1).map fun entry => clock.emit entry.1 entry.2

def build (sessions : List TradingSession) (timedEvents : List ClockEvent) :
    Except Exc (List DeterministicEvent) := do
  let ordered ← clock.ordered sessions timedEvents
  return clock.emitAll ordered

end HistoricalEventClock
end OptionResearch
