import OptionResearch.OratsAdapter

/-!
# The ORATS normalizer

`OratsNormalizer` of `data/orats/normalization.py`. Mapping a row and reading its fields happens in
a block that turns key, type and value errors into schema errors; the validation and the dump of the
row come after it. A row escapes where something else is raised on it: too large an integer or a
time out of range in the block, a trade date that cannot be read or too long an integer after it.
-/

namespace OptionResearch

namespace OratsNormalizer

def supportedSchemas : List String := ["orats-eod-fixture-v1"]

def mappingVersion : String := "orats-canonical-v1"

/-- `_REQUIRED`. -/
def required : List String := ["ticker", "tradeDate", "expirDate", "strike", "callPut"]

/-- `_MAP`. -/
def fieldMap : List (String × String) :=
  [("ticker", "symbol"), ("expirDate", "expiration"), ("strike", "strike"),
    ("callPut", "option_type"), ("bid", "bid"), ("ask", "ask"), ("last", "last"),
    ("volume", "volume"), ("openInterest", "open_interest"),
    ("iv", "provider_implied_volatility"), ("delta", "provider_delta"),
    ("gamma", "provider_gamma"), ("theta", "provider_theta"), ("vega", "provider_vega"),
    ("rho", "provider_rho"), ("stockPrice", "underlying_price"), ("dte", "provider_dte"),
    ("optionSymbol", "provider_option_identifier"), ("multiplier", "multiplier"),
    ("exerciseStyle", "exercise_style"), ("settlementStyle", "settlement_style")]

/-- `_NUMERIC`. -/
def numeric : List String :=
  ["strike", "bid", "ask", "last", "provider_implied_volatility", "provider_delta",
    "provider_gamma", "provider_theta", "provider_vega", "provider_rho", "underlying_price",
    "provider_dte", "multiplier"]

/-- The message of the first check of `_validate` that fails before the days to expiration are
compared. -/
def priceFault (record : Row) : Option String :=
  let bid := record.number? "bid"
  let ask := record.number? "ask"
  if record.getValue "option_type" ∉ [.str "C", .str "P"] then
    some QuarantineReason.missingRequiredIdentifier.value
  else if (record.number? "strike").any fun strike => strike.le (.finite 0) then
    some QuarantineReason.invalidStrike.value
  else if (bid.any fun bid => bid.lt (.finite 0)) ∨ ask.any fun ask => ask.lt (.finite 0) then
    some QuarantineReason.impossiblePrice.value
  else if bid.any fun bid => ask.any fun ask => ask.lt bid then
    some QuarantineReason.crossedMarket.value
  else if (record.number? "provider_implied_volatility").any fun iv =>
      !((Number.finite 0).lt iv && iv.le (.finite 10)) then
    some "invalid_provider_iv"
  else none

section Read

variable (text : RowText) (raw : Row)

/-- The loop over `_MAP`. -/
def mapFields (fields : List (String × String)) (canonical : Row) : Except Exc Row :=
  fields.foldlM (fun canonical field =>
    let value := raw.getValue field.1
    if value.blank then .ok canonical
    else if field.2 ∈ numeric then
      (text.float value).map fun number => canonical.set field.2 (.float number)
    else .ok (canonical.set field.2 value)) canonical

/-- `_timestamp`. -/
def timestamp : Except Exc DateTime := do
  let value := raw.getValue "quoteTimestamp"
  if value.truthy then
    let parsed ← text.dateTime (← text.str value)
    return if parsed.utcoffset.isNone then text.newYork parsed.wall else parsed
  else
    let tradeDate ← text.date (← text.str (← raw.item "tradeDate"))
    return text.newYork ((tradeDate.toordinal - 719163) * 86400000000 + 57600000000)

/-- `contract_identity`. -/
def contractIdentity (record : Row) : Except Exc String := do
  let optionId := record.getValue "provider_option_identifier"
  if optionId.truthy then
    let optionId ← text.str optionId
    return s!"ORATS:{optionId}"
  else
    let symbol ← text.str (← record.item "symbol")
    let expiration ← text.str (← record.item "expiration")
    let strike ← text.float (← record.item "strike")
    let optionType ← text.str (← record.item "option_type")
    let multiplier ← text.float (record.getOr "multiplier" (.int 100))
    return ":".intercalate
      [symbol, expiration, text.fixed 6 strike, optionType, text.fixed 4 multiplier]

/-- The symbol and the option type in capitals, the expiration and the time, with the record so
far. -/
def readFields : Except Exc (Row × OrdinalDate × DateTime) := do
  let canonical ← mapFields text raw fieldMap .empty
  let symbol ← text.str (← canonical.item "symbol")
  let canonical := canonical.set "symbol" (.str (text.upper (text.strip symbol)))
  let optionType ← text.str (← canonical.item "option_type")
  let optionType := text.upper (text.strip optionType)
  let code := if optionType = "CALL" then "C" else if optionType = "PUT" then "P" else optionType
  let canonical := canonical.set "option_type" (.str code)
  let expiration ← text.date (← text.str (← canonical.item "expiration"))
  let time ← timestamp text raw
  return (canonical.set "expiration" (.str expiration.isoformat), expiration, time)

/-- The block that is tried, with the expiration. -/
def canonicalOf (schemaVersion : String) : Except Exc (OratsCanonical × OrdinalDate) := do
  let (canonical, expiration, time) ← readFields text raw
  let quoteTimestamp := (← time.astimezoneUtc).isoformat
  let canonical := ((canonical.set "quote_timestamp" (.str quoteTimestamp)).set "provider"
    (.str "orats")).set "provider_schema_version" (.str schemaVersion)
  let contractIdentity ← contractIdentity text canonical
  let fields := canonical.set "contract_identity" (.str contractIdentity)
  return ({ contractIdentity, quoteTimestamp, fields }, expiration)

/-- `raw["tradeDate"]`, read as a date. -/
def tradeDate : Except Exc OrdinalDate := do
  text.date (← text.str (← raw.item "tradeDate"))

/-- `_validate`; the text of the expiration reads as the expiration. -/
def validate (record : Row) (expiration : OrdinalDate) : Except (Fault String) Unit :=
  match priceFault record with
  | some message => .error (.raised message)
  | none =>
    match record.number? "provider_dte" with
    | none => .ok ()
    | some dte => do
      let date ← tradeDate text raw
      if (Number.finite 1).lt (dte.distance (expiration.toordinal - date.toordinal)) then
        .error (.raised "inconsistent_dte")
      else .ok ()

/-- `str(raw.get("quoteTimestamp") or raw["tradeDate"])`. -/
def providerTimestamp : Except Exc String := do
  let value := raw.getValue "quoteTimestamp"
  if value.truthy then text.str value else text.str (← raw.item "tradeDate")

/-- The fields that a row lacks. -/
def missing : List String := required.filter fun field => (raw.getValue field).blank

def normalize (requestId : String) (rowNumber : Nat) (schemaVersion : String) :
    Except (Fault String) NormalizedOratsRecord :=
  if schemaVersion ∉ supportedSchemas then
    .error (.raised s!"Unknown ORATS schema version: {schemaVersion}")
  else if missing raw ≠ [] then
    .error (.raised ("Missing required ORATS fields: " ++ ", ".intercalate (missing raw)))
  else do
    let (canonical, expiration) ← (canonicalOf text raw schemaVersion).mapError
      (Exc.caughtAs "Unable to normalize ORATS record")
    validate text raw canonical.fields expiration
    let rowPayload ← text.dumps raw
    let rowHash := (text.sha256 rowPayload).take 16
    let providerTimestamp ← providerTimestamp text raw
    return {
      canonical
      rawVendor := raw
      sourceRowId := s!"{requestId}:{rowNumber}:{rowHash}"
      requestId
      providerSchemaVersion := schemaVersion
      mappingVersion
      providerUnits := [("iv", "decimal"), ("theta", "per_day"), ("vega", "per_vol_point")]
      providerTimestamp }

end Read

/-- The normalizer of an adapter. -/
def rowNormalizer (text : RowText) : RowNormalizer := ⟨mappingVersion, normalize text⟩

/-! ### Rows that escape -/

section Escapes

variable (text : RowText) (raw : Row)

/-- The first of the fields that cannot be read as a number holds too large an integer. -/
def HasTooLarge : List String → Prop
  | [] => False
  | vendor :: rest =>
    (raw.getValue vendor).TooLarge ∨
      ((raw.getValue vendor).blank ∨ ∃ number, text.float (raw.getValue vendor) = .ok number) ∧
        HasTooLarge rest

/-- The fields that are read as numbers. -/
def numericVendors : List String := (fieldMap.filter fun field => field.2 ∈ numeric).map Prod.fst

/-- A row of a supported schema, with all it needs, has too large an integer or a time out of
range, days to expiration without a trade date that can be read, or, where it is valid, too long an
integer. -/
def Escapes (schemaVersion : String) : Prop :=
  schemaVersion ∈ supportedSchemas ∧ missing raw = [] ∧
    (HasTooLarge text raw numericVendors ∨
      (∃ canonical expiration time, readFields text raw = .ok (canonical, expiration, time) ∧
        time.OutOfRange) ∨
      ∃ canonical expiration, canonicalOf text raw schemaVersion = .ok (canonical, expiration) ∧
        (priceFault canonical.fields = none ∧ (canonical.fields.number? "provider_dte").isSome ∧
            (¬ ∃ date, tradeDate text raw = .ok date) ∨
          validate text raw canonical.fields expiration = .ok () ∧
            ∃ entry ∈ raw.entries, RowText.tooLong entry.2 = true))

end Escapes

variable {text : RowText} {raw : Row} {schemaVersion : String}

theorem uncaught_mapFields (fields : List (String × String)) (canonical : Row) :
    Uncaught (mapFields text raw fields canonical) ↔
      HasTooLarge text raw ((fields.filter fun field => field.2 ∈ numeric).map Prod.fst) := by
  induction fields generalizing canonical with
  | nil => simp [mapFields, HasTooLarge]
  | cons field rest ih =>
    simp only [mapFields] at ih
    rw [mapFields, List.foldlM_cons, uncaught_bind]
    by_cases hblank : (raw.getValue field.1).blank = true
    · have hsmall : ¬ (raw.getValue field.1).TooLarge := by
        rintro ⟨n, hvalue, -⟩
        rw [hvalue] at hblank
        cases hblank
      rw [if_pos hblank]
      by_cases hnumeric : field.2 ∈ numeric
      · simp [hnumeric, HasTooLarge, hblank, hsmall, ih]
      · simp [hnumeric, ih]
    · rw [if_neg hblank]
      by_cases hnumeric : field.2 ∈ numeric
      · rw [if_pos hnumeric, uncaught_map, RowText.uncaught_float]
        simp only [hnumeric, decide_true, List.filter_cons_of_pos, List.map_cons, HasTooLarge,
          hblank, Bool.false_eq_true, false_or]
        refine or_congr_right ⟨?_, ?_⟩
        · rintro ⟨next, hnext, hrest⟩
          obtain ⟨number, hnumber, rfl⟩ := except_map_eq_ok.mp hnext
          exact ⟨⟨number, hnumber⟩, (ih _).mp hrest⟩
        · rintro ⟨⟨number, hnumber⟩, hrest⟩
          exact ⟨_, except_map_eq_ok.mpr ⟨number, hnumber, rfl⟩, (ih _).mpr hrest⟩
      · simp [hnumeric, ih]

/-- The numbers of a record are floats. -/
def NumbersAreFloats (record : Row) : Prop :=
  ∀ target ∈ numeric, ∀ value, record.get? target = some value → ∃ number, value = .float number

theorem NumbersAreFloats.set {record : Row} (h : NumbersAreFloats record) {target : String}
    {value : Scalar} (hvalue : target ∈ numeric → ∃ number, value = .float number) :
    NumbersAreFloats (record.set target value) := by
  intro other hother found hfound
  rw [InsertionDict.get?_set] at hfound
  split_ifs at hfound with hsame
  · cases hfound
    exact hvalue (hsame ▸ hother)
  · exact h other hother found hfound

theorem numbersAreFloats_of_mapFields {fields : List (String × String)} {canonical mapped : Row}
    (hcanonical : NumbersAreFloats canonical)
    (h : mapFields text raw fields canonical = .ok mapped) : NumbersAreFloats mapped := by
  induction fields generalizing canonical with
  | nil =>
    cases h
    exact hcanonical
  | cons field rest ih =>
    rw [mapFields, List.foldlM_cons] at h
    obtain ⟨next, hnext, hrest⟩ := except_bind_eq_ok.mp h
    refine ih ?_ hrest
    dsimp only at hnext
    split_ifs at hnext with hblank hnumeric
    · cases hnext
      exact hcanonical
    · obtain ⟨number, -, rfl⟩ := except_map_eq_ok.mp hnext
      exact hcanonical.set fun _ => ⟨number, rfl⟩
    · cases hnext
      exact hcanonical.set fun hmem => absurd hmem hnumeric

theorem not_uncaught_timestamp : ¬ Uncaught (timestamp text raw) := by
  unfold timestamp
  dsimp only
  split_ifs <;> simp [uncaught_bind]

theorem uncaught_readFields :
    Uncaught (readFields text raw) ↔ HasTooLarge text raw numericVendors := by
  unfold readFields
  rw [uncaught_bind, uncaught_mapFields]
  simp only [uncaught_bind, RowText.not_uncaught_item, RowText.not_uncaught_str,
    RowText.not_uncaught_date, not_uncaught_timestamp, not_raises_pure, and_false, exists_false,
    or_false]
  rfl

theorem numbersAreFloats_of_readFields {canonical : Row} {expiration : OrdinalDate}
    {time : DateTime} (h : readFields text raw = .ok (canonical, expiration, time)) :
    NumbersAreFloats canonical := by
  unfold readFields at h
  obtain ⟨mapped, hmapped, h⟩ := except_bind_eq_ok.mp h
  obtain ⟨value, -, h⟩ := except_bind_eq_ok.mp h
  obtain ⟨symbol, -, h⟩ := except_bind_eq_ok.mp h
  obtain ⟨value, -, h⟩ := except_bind_eq_ok.mp h
  obtain ⟨optionType, -, h⟩ := except_bind_eq_ok.mp h
  obtain ⟨value, -, h⟩ := except_bind_eq_ok.mp h
  obtain ⟨s, -, h⟩ := except_bind_eq_ok.mp h
  obtain ⟨date, -, h⟩ := except_bind_eq_ok.mp h
  obtain ⟨found, -, h⟩ := except_bind_eq_ok.mp h
  cases h
  have hempty : NumbersAreFloats .empty := fun target _ value h => nomatch h
  have hnot : "symbol" ∉ numeric ∧ "option_type" ∉ numeric ∧ "expiration" ∉ numeric := by decide
  exact (((numbersAreFloats_of_mapFields hempty hmapped).set fun h => absurd h hnot.1).set
    fun h => absurd h hnot.2.1).set fun h => absurd h hnot.2.2

/-- The identity of a record whose numbers are floats can be given, unless an error is caught. -/
theorem not_uncaught_contractIdentity {record : Row} (h : NumbersAreFloats record) :
    ¬ Uncaught (contractIdentity text record) := by
  have hfloat : ∀ value, (∃ number, value = .float number) → ¬ Uncaught (text.float value) := by
    rintro _ ⟨number, rfl⟩
    rw [RowText.uncaught_float]
    rintro ⟨n, ⟨⟩, -⟩
  have hstrike : ∀ value, record.item "strike" = .ok value → ¬ Uncaught (text.float value) := by
    intro value hvalue
    apply hfloat value (h "strike" (by decide) value _)
    rw [InsertionDict.item] at hvalue
    split at hvalue
    · rename_i found hfound
      cases hvalue
      exact hfound
    · cases hvalue
  have hmultiplier : ¬ Uncaught (text.float (record.getOr "multiplier" (.int 100))) := by
    rw [InsertionDict.getOr]
    cases hfound : record.get? "multiplier" with
    | some value => exact hfloat value (h "multiplier" (by decide) value hfound)
    | none =>
      rw [Option.getD_none, RowText.uncaught_float]
      rintro ⟨n, ⟨⟩, hlarge⟩
      exact absurd hlarge (by decide +kernel)
  unfold contractIdentity
  dsimp only
  split_ifs
  · simp
  · simp only [uncaught_bind, RowText.not_uncaught_item, RowText.not_uncaught_str, hmultiplier,
      not_raises_pure, and_false, exists_false, or_false, false_or]
    rintro ⟨symbol, -, s, -, expiration, -, t, -, value, hvalue, huncaught⟩
    exact hstrike value hvalue huncaught

theorem uncaught_canonicalOf :
    Uncaught (canonicalOf text raw schemaVersion) ↔ HasTooLarge text raw numericVendors ∨
      ∃ canonical expiration time, readFields text raw = .ok (canonical, expiration, time) ∧
        time.OutOfRange := by
  unfold canonicalOf
  rw [uncaught_bind, uncaught_readFields]
  refine or_congr_right ⟨?_, ?_⟩
  · rintro ⟨⟨canonical, expiration, time⟩, hread, huncaught⟩
    refine ⟨canonical, expiration, time, hread, ?_⟩
    obtain hutc | ⟨utc, -, hidentity⟩ := uncaught_bind.mp huncaught
    · exact DateTime.uncaught_astimezoneUtc.mp hutc
    · obtain hidentity | ⟨identity, -, hpure⟩ := uncaught_bind.mp hidentity
      · refine absurd hidentity (not_uncaught_contractIdentity ?_)
        have hnot : "quote_timestamp" ∉ numeric ∧ "provider" ∉ numeric ∧
            "provider_schema_version" ∉ numeric := by decide
        exact (((numbersAreFloats_of_readFields hread).set fun h => absurd h hnot.1).set
          fun h => absurd h hnot.2.1).set fun h => absurd h hnot.2.2
      · exact absurd hpure not_raises_pure
  · rintro ⟨canonical, expiration, time, hread, hrange⟩
    exact ⟨_, hread, uncaught_bind.mpr (.inl (DateTime.uncaught_astimezoneUtc.mpr hrange))⟩

theorem foreign_bind_iff {α β : Type} {x : Except (Fault String) α}
    {f : α → Except (Fault String) β} :
    (∃ error, x >>= f = .error (.foreign error)) ↔ (∃ error, x = .error (.foreign error)) ∨
      ∃ a, x = .ok a ∧ ∃ error, f a = .error (.foreign error) := by
  cases x <;> simp [bind, Except.bind]

theorem liftM_foreign_iff {α : Type} {x : Except Exc α} :
    (∃ error, (liftM x : Except (Fault String) α) = .error (.foreign error)) ↔
      ¬ ∃ a, x = .ok a := by
  cases x with
  | ok a => simp [liftM, monadLift, MonadLift.monadLift, Except.mapError]
  | error error => simp [liftM, monadLift, MonadLift.monadLift, Except.mapError]

/-- Validation raises something else where the trade date is asked for and cannot be read. -/
theorem validate_foreign_iff {record : Row} {expiration : OrdinalDate} :
    (∃ error, validate text raw record expiration = .error (.foreign error)) ↔
      priceFault record = none ∧ (record.number? "provider_dte").isSome ∧
        ¬ ∃ date, tradeDate text raw = .ok date := by
  rw [validate]
  cases hfault : priceFault record with
  | some message => simp
  | none =>
    cases hdte : record.number? "provider_dte" with
    | none => simp
    | some dte =>
      simp only [foreign_bind_iff, liftM_foreign_iff, Option.isSome_some, true_and]
      refine or_iff_left ?_
      rintro ⟨date, -, error, h⟩
      split_ifs at h
      cases h

theorem dumps_eq_ok_iff : (∃ payload, text.dumps raw = .ok payload) ↔
    ∀ entry ∈ raw.entries, RowText.tooLong entry.2 = false := by
  rw [RowText.dumps]
  split_ifs with hlong
  · simpa using hlong
  · simpa using hlong

theorem missing_eq_nil_iff :
    missing raw = [] ↔ ∀ field ∈ required, (raw.getValue field).blank = false := by
  simp [missing]

/-- The time of a row that can be dumped can be written out. -/
theorem exists_providerTimestamp (hmissing : missing raw = [])
    (hdumps : ∀ entry ∈ raw.entries, RowText.tooLong entry.2 = false) :
    ∃ written, providerTimestamp text raw = .ok written := by
  have hentry : ∀ field value, raw.get? field = some value → RowText.tooLong value = false :=
    fun field value h => hdumps (field, value) (InsertionDict.get?_eq_some_iff.mp h)
  rw [providerTimestamp]
  split_ifs
  · apply RowText.exists_str_of_not_tooLong
    rw [InsertionDict.getValue]
    cases hfound : raw.get? "quoteTimestamp" with
    | none => rfl
    | some value => exact hentry _ _ hfound
  · have hpresent := missing_eq_nil_iff.mp hmissing "tradeDate" (by decide)
    rw [InsertionDict.getValue] at hpresent
    cases hfound : raw.get? "tradeDate" with
    | none =>
      rw [hfound] at hpresent
      cases hpresent
    | some value =>
      obtain ⟨written, hwritten⟩ :=
        @RowText.exists_str_of_not_tooLong text value (hentry _ _ hfound)
      refine ⟨written, ?_⟩
      rw [InsertionDict.item, hfound]
      exact hwritten

/-- The normalizer raises something else than a schema error exactly on the rows that escape. -/
theorem normalize_foreign_iff {requestId : String} {rowNumber : Nat} :
    (∃ error, normalize text raw requestId rowNumber schemaVersion = .error (.foreign error)) ↔
      Escapes text raw schemaVersion := by
  rw [normalize, Escapes]
  by_cases hschema : schemaVersion ∈ supportedSchemas
  · rw [if_neg (not_not.mpr hschema)]
    by_cases hmissing : missing raw = []
    · rw [if_neg (not_not.mpr hmissing)]
      simp only [foreign_bind_iff, mapError_caughtAs_foreign_iff, uncaught_canonicalOf,
        mapError_eq_ok_iff, Prod.exists, validate_foreign_iff, liftM_foreign_iff, dumps_eq_ok_iff,
        hschema, hmissing, true_and, or_assoc]
      refine or_congr_right (or_congr_right (exists_congr fun canonical => exists_congr
        fun expiration => and_congr_right fun _ => or_congr_right ⟨?_, ?_⟩))
      · rintro ⟨⟨⟩, hvalid, hlong | ⟨payload, hpayload, hwritten | ⟨written, -, error, ⟨⟩⟩⟩⟩
        · simp only [not_forall, Bool.not_eq_false] at hlong
          obtain ⟨⟨field, value⟩, hentry, hlong⟩ := hlong
          exact ⟨hvalid, field, value, hentry, hlong⟩
        · exact absurd (exists_providerTimestamp hmissing
            (dumps_eq_ok_iff.mp ⟨payload, mapError_eq_ok_iff.mp hpayload⟩)) hwritten
      · rintro ⟨hvalid, field, value, hentry, hlong⟩
        refine ⟨(), hvalid, .inl fun h => ?_⟩
        rw [h _ hentry] at hlong
        cases hlong
    · rw [if_pos hmissing]
      exact iff_of_false (by rintro ⟨error, ⟨⟩⟩) fun h => hmissing h.2.1
  · rw [if_pos hschema]
    exact iff_of_false (by rintro ⟨error, ⟨⟩⟩) fun h => hschema h.1

end OratsNormalizer
end OptionResearch
