import OptionResearch.DatabentoAdapter

/-!
# The Databento normalizer

`SymbolResolver` and `DatabentoNormalizer` of `data/databento/normalization.py`. A schema error is
one that is raised, every other exception is foreign; `normalize` turns key, type and value errors
into schema errors and lets the others through.
-/

namespace OptionResearch

structure SymbolResolution where
  rawSymbol : String
  instrumentId : Int
  canonicalUnderlying : String
  effectiveStart : DateTime
  effectiveEnd : DateTime
  expiration : Option String := none
  strike : Option Number := none
  optionType : Option String := none
  multiplier : Option Number := none
  adjusted : Bool := false
  ambiguous : Bool := false

structure SymbolResolver where
  resolutions : List SymbolResolution

/-- `item.effective_start <= at < item.effective_end`. -/
def SymbolResolution.effective (item : SymbolResolution) (time : DateTime) : Except Exc Bool := do
  if ← item.effectiveStart.compared time (item.effectiveStart ≤ time) then
    time.compared item.effectiveEnd (time < item.effectiveEnd)
  else return false

def SymbolResolver.resolve (resolver : SymbolResolver) (instrumentId : Int) (time : DateTime) :
    Except (Fault String) SymbolResolution := do
  let found ← resolver.resolutions.filterM fun item =>
    if item.instrumentId = instrumentId then item.effective time else pure false
  match found with
  | [] => .error (.raised "unresolved_instrument")
  | [item] => if item.ambiguous then .error (.raised "ambiguous_symbology") else return item
  | _ => .error (.raised "ambiguous_symbology")

/-- `value or default`. -/
def Number.orElse (value : Option Number) (default : Int) : Scalar :=
  match value with
  | some number => if number = .finite 0 then .int default else .float number
  | none => .int default

/-- `x / n`, for a positive integer. -/
def Number.dividedBy (x : Number) (n : Int) : Except Exc Number :=
  if n.natAbs < floatLimit then
    .ok (match x with
      | .finite value => .finite (value / n)
      | other => other)
  else .error ⟨.other "OverflowError", "int too large to convert to float"⟩

/-- `min(x, *rest)`. -/
def Number.least (x : Number) (rest : List Number) : Number :=
  rest.foldl (fun least item => if item.lt least then item else least) x

structure DatabentoNormalizer where
  text : RowText
  resolver : SymbolResolver

namespace DatabentoNormalizer

variable (normalizer : DatabentoNormalizer) (raw : Row)

/-- The time of the event of a row. -/
def eventTime : Except Exc DateTime := do
  let event ← normalizer.text.dateTime (← normalizer.text.str (← raw.item "ts_event"))
  if event.utcoffset.isNone then .error ⟨.valueError, ""⟩ else return event

/-- `_receive_timestamp`; the text of the event reads as the event. -/
def receiveTimestamp (event : DateTime) : Except (Fault String) String := do
  let receive ← match raw.get? "ts_recv" with
    | some value => do normalizer.text.dateTime (← normalizer.text.str value)
    | none => pure event
  if receive.utcoffset.isNone ∨ receive < event then
    .error (.raised "invalid_receive_timestamp")
  else return (← receive.astimezoneUtc).isoformat

/-- `_definition`. -/
def definition (resolution : SymbolResolution) :
    Except (Fault String) (List (String × Scalar)) := do
  let strikeScale ← normalizer.text.int (raw.getOr "strike_scale" (.int 1))
  if strikeScale ≤ 0 then .error (.raised "invalid_strike_scaling")
  let strike ← normalizer.text.float (raw.getOr "strike" (Number.orElse resolution.strike 0))
  let strike ← strike.dividedBy strikeScale
  let multiplier ←
    normalizer.text.float (raw.getOr "multiplier" (Number.orElse resolution.multiplier 100))
  return [("expiration", (resolution.expiration.map .str).getD .null), ("strike", .float strike),
    ("option_type", (resolution.optionType.map .str).getD .null),
    ("multiplier", .float multiplier), ("currency", raw.getValue "currency"),
    ("exercise_style", raw.getValue "exercise_style"),
    ("settlement_style", raw.getValue "settlement_style"),
    -- a truth value is a number of its own kind
    ("adjusted", .int (if resolution.adjusted then 1 else 0))]

/-- `_quote`. -/
def quote : Except (Fault String) (List (String × Scalar)) := do
  let bid ← normalizer.text.float (← raw.item "bid_px")
  let ask ← normalizer.text.float (← raw.item "ask_px")
  let bidSize ← normalizer.text.int (raw.getOr "bid_sz" (.int 0))
  let askSize ← normalizer.text.int (raw.getOr "ask_sz" (.int 0))
  if (bid.least [ask, .finite bidSize, .finite askSize]).lt (.finite 0) then
    .error (.raised "negative_price_or_size")
  if ask.lt bid then .error (.raised "crossed_market")
  return [("bid", .float bid), ("ask", .float ask), ("bid_size", .int bidSize),
    ("ask_size", .int askSize)]

/-- The fields of the schema. -/
def schemaFields (schema : DatabentoSchema) (resolution : SymbolResolution) :
    Except (Fault String) (List (String × Scalar)) :=
  if schema = .definition then normalizer.definition raw resolution else normalizer.quote raw

/-- What `normalize` tries. -/
def record (dataset : String) (schema : DatabentoSchema) (checksum : String) :
    Except (Fault String) NormalizedDatabentoRecord := do
  let event ← normalizer.eventTime raw
  let instrumentId ← normalizer.text.int (← raw.item "instrument_id")
  let resolution ← normalizer.resolver.resolve instrumentId event
  let eventTimestamp := (← event.astimezoneUtc).isoformat
  let receiveTimestamp ← normalizer.receiveTimestamp raw event
  let sequence ← normalizer.text.int (raw.getOr "sequence" (.int 0))
  let fields ← normalizer.schemaFields raw schema resolution
  let canonical := .ofEntries ([("event_timestamp", .str eventTimestamp),
    ("receive_timestamp", .str receiveTimestamp), ("instrument_id", .int instrumentId),
    ("raw_symbol", .str resolution.rawSymbol), ("symbol", .str resolution.canonicalUnderlying),
    ("sequence", .int sequence), ("publisher_id", raw.getValue "publisher_id"),
    ("raw_flags", raw.getValue "flags"), ("dataset", .str dataset),
    ("schema", .str schema.value)] ++ fields)
  return { eventTimestamp, instrumentId, sequence, canonical, rawProvider := raw, dataset, schema
           sourceChecksum := checksum }

/-- Schema errors go through, others are caught. -/
def caught : Fault String → Fault String
  | .raised message => .raised message
  | .foreign error => error.caughtAs "invalid_record"

def normalize : BatchNormalizer := fun raw dataset schema checksum =>
  if schema ∉ [.definition, .mbp1] then .error (.raised s!"unsupported_schema:{schema.value}")
  else (normalizer.record raw dataset schema checksum).mapError caught

variable {normalizer raw} {dataset checksum : String} {schema : DatabentoSchema}
  {record : NormalizedDatabentoRecord}

/-- A record has the text in UTC of the time of its row's event. -/
theorem normalize_eq_ok (h : normalizer.normalize raw dataset schema checksum = .ok record) :
    ∃ event time, normalizer.eventTime raw = .ok event ∧ event.astimezoneUtc = .ok time ∧
      record.eventTimestamp = time.isoformat ∧ record.rawProvider = raw := by
  rw [normalize] at h
  split_ifs at h
  simp only [mapError_eq_ok_iff, DatabentoNormalizer.record] at h
  obtain ⟨event, hevent, h⟩ := except_bind_eq_ok.mp h
  obtain ⟨value, -, h⟩ := except_bind_eq_ok.mp h
  obtain ⟨instrumentId, -, h⟩ := except_bind_eq_ok.mp h
  obtain ⟨resolution, -, h⟩ := except_bind_eq_ok.mp h
  obtain ⟨time, htime, h⟩ := except_bind_eq_ok.mp h
  obtain ⟨receiveTimestamp, -, h⟩ := except_bind_eq_ok.mp h
  obtain ⟨sequence, -, h⟩ := except_bind_eq_ok.mp h
  obtain ⟨fields, -, h⟩ := except_bind_eq_ok.mp h
  obtain rfl := Except.ok.inj h
  exact ⟨event, time, mapError_eq_ok_iff.mp hevent, mapError_eq_ok_iff.mp htime, rfl, rfl⟩

end DatabentoNormalizer
end OptionResearch
