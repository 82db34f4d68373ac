import OptionResearch.CsvReader
import OptionResearch.RowValues
import OptionResearch.SiftedRows
import OptionResearch.StableSort

/-!
# Ingesting local files

`LocalDatasetProvider` of `data/integration/local.py` with the schema profiles of
`data/integration/profiles.py`, for CSV files and archives. A row is mapped to canonical columns,
normalized and validated; what raises value and type errors is set aside. Ingesting the rows of
files is sifting them.
-/

namespace OptionResearch

inductive FileFormat where
  | csv
  | archive
  deriving DecidableEq, Repr

structure DiscoveredFile where
  path : String
  checksum : String
  format : FileFormat
  deriving DecidableEq

structure DatasetDiscovery where
  files : List DiscoveredFile
  schemaProfile : String

structure RepairRecord where
  field : String
  before : String
  after : String
  policy : String
  source : SourceMetadata
  deriving DecidableEq

/-- A record and the `_source` that is set in it. -/
structure IngestedRecord where
  fields : Row
  source : SourceMetadata

structure IngestionResult where
  records : List IngestedRecord := []
  quarantine : List (QuarantineRecord CsvRow) := []
  repairs : List RepairRecord := []
  filesProcessed : Nat := 0
  rowsProcessed : Nat := 0
  duplicates : Nat := 0
  cancelled : Bool := false

/-! ### Schema profiles -/

structure SchemaProfile where
  name : String
  version : String
  requiredColumns : List String
  optionalColumns : List String
  aliases : List (String × List String)

namespace SchemaProfile

def identifier (profile : SchemaProfile) : String := s!"{profile.name}@{profile.version}"

/-- `_profile`. -/
def standard (name : String) : SchemaProfile where
  name
  version := "1.0.0"
  requiredColumns := ["symbol", "expiration", "strike", "option_type", "quote_timestamp"]
  optionalColumns := ["occ_symbol", "bid", "ask", "last", "volume", "open_interest",
    "implied_volatility", "delta", "gamma", "theta", "vega", "rho", "underlying_price",
    "multiplier", "exercise_style", "settlement_style", "exchange", "currency"]
  aliases := [("symbol", ["ticker", "underlying_symbol"]),
    ("expiration", ["expiry", "expiration_date"]),
    ("option_type", ["call_put", "put_call", "right"]),
    ("quote_timestamp", ["timestamp", "quote_time", "datetime"]),
    ("open_interest", ["openinterest", "oi"]),
    ("implied_volatility", ["iv", "impliedvolatility"]),
    ("underlying_price", ["spot", "underlying_last"])]

/-- The names of `_PROFILES`. -/
def names : List String :=
  ["generic_csv", "generic_parquet", "orats", "databento", "cboe", "polygon", "custom"]

end SchemaProfile

def getSchemaProfile (name : String) : Except Exc SchemaProfile :=
  if name ∈ SchemaProfile.names then .ok (.standard name)
  else .error ⟨.other "KeyError", s!"'Unknown schema profile: {name}'"⟩

section Row

variable (text : RowText)

/-- The sources that a canonical column may come from: names of columns. -/
def candidates (profile : SchemaProfile) (named : InsertionDict String String)
    (canonical : String) : List String :=
  (canonical :: (Entries.lookup canonical profile.aliases).getD []).filter fun name =>
    (named.get? name).isSome

/-- The step of `resolve_mapping` for a canonical column; the sources in use are those of the
mapping. -/
def mapColumn (profile : SchemaProfile) (named mapping : InsertionDict String String)
    (canonical : String) : Except Exc (InsertionDict String String) :=
  if canonical ∈ mapping.entries.map Prod.snd then .ok mapping
  else
    match candidates profile named canonical with
    | [] => .ok mapping
    | [name] =>
      match named.get? name with
      | some source =>
        if (mapping.get? source).isSome then .ok mapping else .ok (mapping.set source canonical)
      | none => .ok mapping
    | several =>
      let listed := ", ".intercalate (StableSort.sortBy id several)
      .error ⟨.valueError, s!"Ambiguous columns for '{canonical}': {listed}"⟩

/-- `resolve_mapping`, of the columns of a row; a row with fields that are too many has one that is
no text. -/
def resolveMapping (row : CsvRow) (profile : SchemaProfile)
    (explicit : InsertionDict String String) : Except Exc (InsertionDict String String) := do
  if row.rest.isSome then .error ⟨.attributeError, "'NoneType' object has no attribute 'strip'"⟩
  let named := .ofEntries (row.values.entries.map fun entry =>
    (text.lower (text.strip entry.1), entry.1))
  let mapping ← (profile.requiredColumns ++ profile.optionalColumns).foldlM
    (mapColumn profile named) explicit
  let missing := profile.requiredColumns.filter fun name =>
    name ∉ mapping.entries.map Prod.snd
  if missing ≠ [] then
    .error ⟨.valueError, "Missing required columns: " ++ ", ".intercalate missing⟩
  else return mapping

/-- The texts that stand for nothing. -/
def nullTexts : List String := ["", "null", "NULL", "NA", "N/A"]

/-- The loop of `_normalize` over the columns. -/
def mapCells (row : CsvRow) (mapping : InsertionDict String String) (source : SourceMetadata) :
    Row × List RepairRecord :=
  mapping.entries.foldl (fun cells column =>
    match (row.values.get? column.1).join with
    | none => (cells.1.set column.2 .null, cells.2)
    | some value =>
      let stripped := text.strip value
      let repairs := if value ≠ stripped then
        [⟨column.2, value, stripped, "whitespace_cleanup", source⟩] else []
      let cell : Scalar := if stripped ∈ nullTexts then .null else .str stripped
      (cells.1.set column.2 cell, cells.2 ++ repairs)) (.empty, [])

/-- `str(output.get(field) or "").upper()`. -/
def capitals (output : Row) (field : String) : Except Exc String := do
  let value := output.getValue field
  if value.truthy then return text.upper (← text.str value) else return text.upper ""

/-- The symbol and the option type in capitals. -/
def setIdentifiers (output : Row) : Except Exc Row := do
  let output := output.set "symbol" (.str (← capitals text output "symbol"))
  let optionType ← capitals text output "option_type"
  let code := if optionType = "CALL" then "C" else if optionType = "PUT" then "P" else optionType
  return output.set "option_type" (.str code)

/-- `float(str(output[field]))`. -/
def readNumber (output : Row) (field : String) : Except Exc Row := do
  let number ← text.float (.str (← text.str (← output.item field)))
  return output.set field (.float number)

/-- The fields that are numbers where they are given. -/
def optionalNumbers : List String :=
  ["bid", "ask", "last", "underlying_price", "implied_volatility", "delta", "gamma", "theta",
    "vega", "rho"]

/-- What `_normalize` tries, before the time is taken to UTC. -/
def readCells (output : Row) : Except Exc (Row × DateTime) := do
  let output ← readNumber text output "strike"
  let output ← optionalNumbers.foldlM (fun output field =>
    if output.getValue field = .null then .ok output else readNumber text output field) output
  let expiration ← text.date (← text.str (← output.item "expiration"))
  let output := output.set "expiration" (.str expiration.isoformat)
  let time ← text.dateTime (← text.str (← output.item "quote_timestamp"))
  if time.utcoffset.isNone then
    .error ⟨.valueError, QuarantineReason.malformedTimestamp.value⟩
  else return (output, time)

/-- What `_normalize` tries. -/
def normalizeCells (output : Row) : Except Exc Row := do
  let (output, time) ← readCells text output
  return output.set "quote_timestamp" (.str (← time.astimezoneUtc).isoformat)

/-- `except (KeyError, ValueError, TypeError)` of `_normalize`: an error with a reason is raised
again. -/
def reraised (error : Exc) : Exc :=
  if error.Caught then
    if error.message ∈ QuarantineReason.all.map QuarantineReason.value then error
    else ⟨.valueError, QuarantineReason.schemaMismatch.value⟩
  else error

/-- `_normalize`. -/
def normalizeRow (row : CsvRow) (mapping : InsertionDict String String) (source : SourceMetadata) :
    Except Exc (Row × List RepairRecord) := do
  let (output, repairs) := mapCells text row mapping source
  let output ← setIdentifiers text output
  let output ← (normalizeCells text output).mapError reraised
  return (output, repairs)

/-- `_validate`. -/
def validateRow (record : Row) : Option QuarantineReason :=
  if !(record.getValue "symbol").truthy ∨
      record.getValue "option_type" ∉ [.str "C", .str "P"] then
    some .missingRequiredIdentifier
  else if (record.number? "strike").any fun strike => strike.le (.finite 0) then
    some .invalidStrike
  else if ["bid", "ask", "last", "underlying_price"].any fun field =>
      (record.number? field).any fun price => price.lt (.finite 0) then
    some .impossiblePrice
  else if (record.number? "bid").any fun bid =>
      (record.number? "ask").any fun ask => ask.lt bid then
    some .crossedMarket
  else none

/-- What the loop of `ingest` makes of a row, before it looks whether it was seen. -/
def readRow (profile : SchemaProfile) (explicit : InsertionDict String String) (row : CsvRow)
    (source : SourceMetadata) : Except Exc (Row × List RepairRecord) := do
  let resolved ← resolveMapping text row profile explicit
  let (record, repairs) ← normalizeRow text row resolved source
  match validateRow record with
  | some reason => .error ⟨.valueError, reason.value⟩
  | none => .ok (record, repairs)

end Row

/-- `==`, on values of records. -/
def Scalar.same : Scalar → Scalar → Bool
  | .float x, .float y => x.same y
  | x, y => x == y

/-- Records are the same where their identities are. -/
def sameIdentity (record earlier : Row) : Bool :=
  ["symbol", "expiration", "strike", "option_type", "quote_timestamp"].all fun key =>
    (record.getValue key).same (earlier.getValue key)

/-- A provider, with the texts that files hold. -/
structure LocalDatasetProvider where
  text : RowText
  delimiter : Char := ','
  contents : String → String

namespace LocalDatasetProvider

variable (provider : LocalDatasetProvider) (profile : SchemaProfile)
  (explicit : InsertionDict String String)

/-- `except (ValueError, TypeError)` of `ingest`. -/
def SetsAside (error : Exc) : Prop := error.kind ∈ [.valueError, .typeError]

instance (error : Exc) : Decidable (SetsAside error) := inferInstanceAs (Decidable (_ ∈ _))

/-- The body of the loop over the rows of a file, for a row and its number. -/
def ingestRow (file : DiscoveredFile) (result : IngestionResult) (numbered : CsvRow × Nat) :
    Except Exc IngestionResult :=
  let (row, rowNumber) := numbered
  let result := { result with rowsProcessed := result.rowsProcessed + 1 }
  let source : SourceMetadata := ⟨file.path, file.checksum, rowNumber, profile.identifier⟩
  match readRow provider.text profile explicit row source with
  | .ok (record, repairs) =>
    -- the identities seen are those of the records
    if result.records.any fun earlier => sameIdentity record earlier.fields then
      .ok { result with duplicates := result.duplicates + 1 }
    else .ok { result with
      records := result.records ++ [⟨record, source⟩]
      repairs := result.repairs ++ repairs }
  | .error error =>
    if SetsAside error then .ok { result with quarantine := result.quarantine ++
      [⟨QuarantineReason.ofMessage error.message, error.message, row, source⟩] }
    else .error error

/-- What is read of a CSV file. -/
def rowsOfFile (file : DiscoveredFile) : List (CsvRow × Nat) × Option CsvError :=
  let (rows, failure) := readDicts provider.delimiter (provider.contents file.path)
  (rows.zipIdx 2, failure)

/-- The body of the loop over the files, which skips archives. -/
def ingestFile (result : IngestionResult) (file : DiscoveredFile) : Except Exc IngestionResult :=
  match file.format with
  | .archive => .ok result
  | .csv => do
    let (rows, failure) := provider.rowsOfFile file
    let result ← rows.foldlM (provider.ingestRow profile explicit file) result
    match failure with
    | some _ => .error ⟨.other "csv.Error", "field larger than field limit (131072)"⟩
    | none => return { result with filesProcessed := result.filesProcessed + 1 }

/-- The loop over the files; the callback is asked before each of them. -/
def ingestFiles (cancelled : Nat → Bool) : Nat → IngestionResult → List DiscoveredFile →
    Except Exc IngestionResult
  | _, result, [] => .ok result
  | poll, result, file :: rest =>
    if cancelled poll then .ok { result with cancelled := true }
    else do
      ingestFiles cancelled (poll + 1) (← provider.ingestFile profile explicit result file) rest

end LocalDatasetProvider

/-- `ingest`; without a mapping of the caller it is empty. -/
def LocalDatasetProvider.ingest (provider : LocalDatasetProvider) (discovery : DatasetDiscovery)
    (mapping : Option (InsertionDict String String)) (cancelled : Nat → Bool) :
    Except Exc IngestionResult := do
  let profile ← getSchemaProfile discovery.schemaProfile
  provider.ingestFiles profile (mapping.getD .empty) cancelled 0 {} discovery.files

/-! ### Rows that escape -/

namespace LocalDatasetProvider

variable {text : RowText} {profile : SchemaProfile} {explicit : InsertionDict String String}
  {row : CsvRow} {source : SourceMetadata}

/-- A row has fields that are too many, or all of it can be read, but its time is out of range. -/
def Escapes (text : RowText) (profile : SchemaProfile) (explicit : InsertionDict String String)
    (row : CsvRow) (source : SourceMetadata) : Prop :=
  row.rest.isSome ∨ ∃ mapping output cells time,
    resolveMapping text row profile explicit = .ok mapping ∧
      setIdentifiers text (mapCells text row mapping source).1 = .ok output ∧
      readCells text output = .ok (cells, time) ∧ time.OutOfRange

/-- What is raised is not set aside. -/
abbrev Aborts {α : Type} (x : Except Exc α) : Prop := Raises (fun error => ¬ SetsAside error) x

theorem setsAside_valueError (message : String) : SetsAside ⟨.valueError, message⟩ := by
  simp [SetsAside]

theorem not_aborts_mapColumns {named mapping : InsertionDict String String}
    {columns : List String} : ¬ Aborts (columns.foldlM (mapColumn profile named) mapping) := by
  refine not_raises_foldlM (fun mapping canonical h => ?_) _ _
  unfold mapColumn at h
  split_ifs at h
  · exact absurd h not_raises_ok
  · split at h
    · exact absurd h not_raises_ok
    · split at h
      · split_ifs at h <;> exact absurd h not_raises_ok
      · exact absurd h not_raises_ok
    · exact raises_error.mp h (setsAside_valueError _)

theorem aborts_resolveMapping :
    Aborts (resolveMapping text row profile explicit) ↔ row.rest.isSome := by
  unfold resolveMapping
  by_cases hrest : row.rest.isSome = true
  · simp [hrest, SetsAside, bind, Except.bind]
  · rw [if_neg hrest]
    refine iff_of_false ?_ hrest
    intro h
    rcases raises_bind.mp h with hmapped | ⟨mapping, -, hmissing⟩
    · exact not_aborts_mapColumns hmapped
    · dsimp only at hmissing
      split_ifs at hmissing
      · exact raises_error.mp hmissing (setsAside_valueError _)
      · exact not_raises_pure hmissing

theorem not_aborts_setIdentifiers {output : Row} : ¬ Aborts (setIdentifiers text output) := by
  have hcapitals : ∀ output field, ¬ Aborts (capitals text output field) := by
    intro output field h
    unfold capitals at h
    dsimp only at h
    split_ifs at h
    · obtain ⟨message, h⟩ := RowText.raises_str (raises_functor_map.mp h)
      exact h (setsAside_valueError message)
    · exact not_raises_pure h
  intro h
  rcases raises_bind.mp h with hsymbol | ⟨symbol, -, h⟩
  · exact hcapitals _ _ hsymbol
  · rcases raises_bind.mp h with htype | ⟨optionType, -, h⟩
    · exact hcapitals _ _ htype
    · exact not_raises_pure h

/-- The error is raised again as one that is not set aside. -/
def Persists (error : Exc) : Prop := ¬ SetsAside (reraised error)

theorem not_persists_valueError (message : String) : ¬ Persists ⟨.valueError, message⟩ := by
  rw [Persists, not_not, reraised]
  split_ifs <;> exact setsAside_valueError _

/-- The text of a key error is none of the reasons. -/
theorem not_persists_keyError (field : String) :
    ¬ Persists ⟨.other "KeyError", "'" ++ field ++ "'"⟩ := by
  have hreason : "'" ++ field ++ "'" ∉ QuarantineReason.all.map QuarantineReason.value := by
    intro h
    have hfirst : ∀ reason ∈ QuarantineReason.all.map QuarantineReason.value,
        reason.toList.head? ≠ some '\'' := by decide
    exact hfirst _ h (by simp [String.toList_append])
  rw [Persists, not_not, reraised, if_pos (by simp [Exc.Caught]), if_neg hreason]
  exact setsAside_valueError _

theorem not_persists_readNumber {output : Row} {field : String} :
    ¬ Raises Persists (readNumber text output field) := by
  intro h
  rcases raises_bind.mp h with hitem | ⟨value, -, h⟩
  · exact not_persists_keyError _ (RowText.raises_item hitem)
  rcases raises_bind.mp h with hstr | ⟨s, -, h⟩
  · obtain ⟨message, h⟩ := RowText.raises_str hstr
    exact not_persists_valueError message h
  rcases raises_bind.mp h with hfloat | ⟨number, -, h⟩
  · obtain ⟨message, h⟩ := RowText.raises_float_str hfloat
    exact not_persists_valueError message h
  · exact not_raises_pure h

theorem not_persists_readCells {output : Row} : ¬ Raises Persists (readCells text output) := by
  intro h
  rcases raises_bind.mp h with hstrike | ⟨output, -, h⟩
  · exact not_persists_readNumber hstrike
  rcases raises_bind.mp h with hnumbers | ⟨output, -, h⟩
  · refine not_raises_foldlM (fun output field h => ?_) _ _ hnumbers
    split_ifs at h
    · exact not_raises_ok h
    · exact not_persists_readNumber h
  rcases raises_bind.mp h with hitem | ⟨value, -, h⟩
  · exact not_persists_keyError _ (RowText.raises_item hitem)
  rcases raises_bind.mp h with hstr | ⟨s, -, h⟩
  · obtain ⟨message, h⟩ := RowText.raises_str hstr
    exact not_persists_valueError message h
  rcases raises_bind.mp h with hdate | ⟨expiration, -, h⟩
  · obtain ⟨message, h⟩ := RowText.raises_date hdate
    exact not_persists_valueError message h
  rcases raises_bind.mp h with hitem | ⟨value, -, h⟩
  · exact not_persists_keyError _ (RowText.raises_item hitem)
  rcases raises_bind.mp h with hstr | ⟨s, -, h⟩
  · obtain ⟨message, h⟩ := RowText.raises_str hstr
    exact not_persists_valueError message h
  rcases raises_bind.mp h with htime | ⟨time, -, h⟩
  · obtain ⟨message, h⟩ := RowText.raises_dateTime htime
    exact not_persists_valueError message h
  split_ifs at h
  · exact not_persists_valueError _ (raises_error.mp h)
  · exact not_raises_pure h

theorem aborts_normalizeCells {output : Row} :
    Aborts ((normalizeCells text output).mapError reraised) ↔
      ∃ cells time, readCells text output = .ok (cells, time) ∧ time.OutOfRange := by
  refine raises_mapError.trans ?_
  have hoverflow : Persists ⟨.other "OverflowError", "date value out of range"⟩ := by
    simp [Persists, reraised, Exc.Caught, SetsAside]
  constructor
  · intro h
    rcases raises_bind.mp h with hread | ⟨⟨cells, time⟩, hread, h⟩
    · exact absurd hread not_persists_readCells
    · exact ⟨cells, time, hread, (DateTime.raises_astimezoneUtc.mp (raises_functor_map.mp h)).1⟩
  · rintro ⟨cells, time, hread, hrange⟩
    refine raises_bind.mpr (.inr ⟨_, hread, raises_functor_map.mpr ?_⟩)
    exact DateTime.raises_astimezoneUtc.mpr ⟨hrange, hoverflow⟩

/-- Reading a row raises what is not set aside exactly where it escapes. -/
theorem aborts_readRow :
    Aborts (readRow text profile explicit row source) ↔
      Escapes text profile explicit row source := by
  have hvalid : ∀ (record : Row) (repairs : List RepairRecord),
      ¬ Aborts (match validateRow record with
        | some reason => .error ⟨.valueError, reason.value⟩
        | none => .ok (record, repairs) : Except Exc (Row × List RepairRecord)) := by
    intro record repairs h
    split at h
    · exact raises_error.mp h (setsAside_valueError _)
    · exact not_raises_ok h
  rw [Escapes, ← @aborts_resolveMapping text profile explicit row]
  refine raises_bind.trans (or_congr_right ?_)
  constructor
  · rintro ⟨mapping, hmapping, h⟩
    rcases raises_bind.mp h with hnormalize | ⟨⟨record, repairs⟩, -, h⟩
    · rcases raises_bind.mp hnormalize with hidentifiers | ⟨output, houtput, h⟩
      · exact absurd hidentifiers not_aborts_setIdentifiers
      · rcases raises_bind.mp h with hcells | ⟨record, -, h⟩
        · obtain ⟨cells, time, hread, hrange⟩ := aborts_normalizeCells.mp hcells
          exact ⟨mapping, output, cells, time, hmapping, houtput, hread, hrange⟩
        · exact absurd h not_raises_pure
    · exact absurd h (hvalid record repairs)
  · rintro ⟨mapping, output, cells, time, hmapping, houtput, hread, hrange⟩
    refine ⟨mapping, hmapping,
      raises_bind.mpr (.inl (raises_bind.mpr (.inr ⟨output, houtput, ?_⟩)))⟩
    exact raises_bind.mpr (.inl (aborts_normalizeCells.mpr ⟨cells, time, hread, hrange⟩))

/-! ### The rows of the files -/

section Rows

variable (provider : LocalDatasetProvider) (profile : SchemaProfile)
  (explicit : InsertionDict String String)

/-- The files that the loop comes to before the caller cancels. -/
def filesRead (cancelled : Nat → Bool) : Nat → List DiscoveredFile → List DiscoveredFile
  | _, [] => []
  | poll, file :: rest =>
    if cancelled poll then [] else file :: filesRead cancelled (poll + 1) rest

def csvFiles (files : List DiscoveredFile) : List DiscoveredFile :=
  files.filter fun file => file.format = .csv

/-- The rows of the CSV files, each with its file and its number there. -/
def numberedRows (files : List DiscoveredFile) : List (DiscoveredFile × CsvRow × Nat) :=
  (csvFiles files).flatMap fun file =>
    (provider.rowsOfFile file).1.map fun numbered => (file, numbered)

/-- Where a row comes from. -/
def sourceOf (numbered : DiscoveredFile × CsvRow × Nat) : SourceMetadata :=
  ⟨numbered.1.path, numbered.1.checksum, numbered.2.2, profile.identifier⟩

/-- What becomes of a row: its record with the repairs, or what is set aside of it. -/
def settle (numbered : DiscoveredFile × CsvRow × Nat) :
    Except Exc (Except (QuarantineRecord CsvRow) (IngestedRecord × List RepairRecord)) :=
  match readRow provider.text profile explicit numbered.2.1 (sourceOf profile numbered) with
  | .ok (record, repairs) => .ok (.ok (⟨record, sourceOf profile numbered⟩, repairs))
  | .error error =>
    if SetsAside error then .ok (.error ⟨QuarantineReason.ofMessage error.message, error.message,
      numbered.2.1, sourceOf profile numbered⟩)
    else .error error

/-- Records are told apart by their identity. -/
def rowSieve : Sieve Unit (Except (QuarantineRecord CsvRow) (IngestedRecord × List RepairRecord))
    (IngestedRecord × List RepairRecord) (QuarantineRecord CsvRow) where
  read _ settled := settled.map fun entry => (entry, ())
  same entry earlier := sameIdentity entry.1.fields earlier.1.fields

/-- The result of sifted rows, after that many files. -/
def resultOf (sifted : Sifted Unit (IngestedRecord × List RepairRecord) (QuarantineRecord CsvRow))
    (filesProcessed : Nat) (cancelled : Bool) : IngestionResult where
  records := (sifted.fates.filterMap Fate.accepted?).map Prod.fst
  quarantine := sifted.fates.filterMap Fate.refused?
  repairs := (sifted.fates.filterMap Fate.accepted?).flatMap Prod.snd
  filesProcessed
  rowsProcessed := sifted.fates.length
  duplicates := (sifted.fates.filterMap Fate.duplicate?).length
  cancelled

end Rows

variable {provider : LocalDatasetProvider}

section Fates

variable {fates : List (Fate (IngestedRecord × List RepairRecord) (QuarantineRecord CsvRow))}
  {entry : IngestedRecord × List RepairRecord} {files : Nat} {cancelled : Bool}

theorem resultOf_accepted :
    resultOf ⟨fates ++ [.accepted entry], ()⟩ files cancelled =
      { resultOf ⟨fates, ()⟩ files cancelled with
        rowsProcessed := fates.length + 1
        records := (resultOf ⟨fates, ()⟩ files cancelled).records ++ [entry.1]
        repairs := (resultOf ⟨fates, ()⟩ files cancelled).repairs ++ entry.2 } := by
  simp [resultOf, List.filterMap_cons, Fate.accepted?, Fate.refused?, Fate.duplicate?]

theorem resultOf_duplicate :
    resultOf ⟨fates ++ [.duplicate entry], ()⟩ files cancelled =
      { resultOf ⟨fates, ()⟩ files cancelled with
        rowsProcessed := fates.length + 1
        duplicates := (resultOf ⟨fates, ()⟩ files cancelled).duplicates + 1 } := by
  simp [resultOf, List.filterMap_cons, Fate.accepted?, Fate.refused?, Fate.duplicate?]

theorem resultOf_refused {record : QuarantineRecord CsvRow} :
    resultOf ⟨fates ++ [.refused record], ()⟩ files cancelled =
      { resultOf ⟨fates, ()⟩ files cancelled with
        rowsProcessed := fates.length + 1
        quarantine := (resultOf ⟨fates, ()⟩ files cancelled).quarantine ++ [record] } := by
  simp [resultOf, List.filterMap_cons, Fate.accepted?, Fate.refused?, Fate.duplicate?]

end Fates

/-- Ingesting a row is sifting it. -/
theorem ingestRow_resultOf
    (sifted : Sifted Unit (IngestedRecord × List RepairRecord) (QuarantineRecord CsvRow))
    (numbered : DiscoveredFile × CsvRow × Nat) (files : Nat) (cancelled : Bool) :
    provider.ingestRow profile explicit numbered.1 (resultOf sifted files cancelled) numbered.2 =
      (settle provider profile explicit numbered).map fun settled =>
        resultOf (rowSieve.sift sifted settled) files cancelled := by
  obtain ⟨file, row, rowNumber⟩ := numbered
  obtain ⟨fates, ⟨⟩⟩ := sifted
  unfold ingestRow settle
  cases hread : readRow provider.text profile explicit row
      (sourceOf profile (file, row, rowNumber)) with
  | error error =>
    simp only [sourceOf] at hread ⊢
    simp only [hread]
    split_ifs with haside
    · rw [Except.map, Sieve.sift_error rfl, resultOf_refused]
      rfl
    · rfl
  | ok read =>
    obtain ⟨record, repairs⟩ := read
    simp only [sourceOf] at hread ⊢
    simp only [hread, Except.map]
    have hseen : ((resultOf ⟨fates, ()⟩ files cancelled).records.any fun earlier =>
        sameIdentity record earlier.fields) = (fates.filterMap Fate.accepted?).any
          (rowSieve.same (⟨record, ⟨file.path, file.checksum, rowNumber, profile.identifier⟩⟩,
            repairs)) := by
      rw [resultOf, List.any_map]
      rfl
    by_cases hany : (fates.filterMap Fate.accepted?).any
        (rowSieve.same (⟨record, ⟨file.path, file.checksum, rowNumber, profile.identifier⟩⟩,
          repairs)) = true
    · rw [if_pos (hseen.trans hany), Sieve.sift_seen rfl hany, resultOf_duplicate]
      rfl
    · rw [if_neg (hseen ▸ hany), Sieve.sift_new rfl hany, resultOf_accepted]
      rfl

/-- A CSV file is ingested where it can be read to its end and what becomes of every row is
known. -/
theorem ingestFile_eq_ok_iff {file : DiscoveredFile} (hformat : file.format = .csv)
    {sifted : Sifted Unit (IngestedRecord × List RepairRecord) (QuarantineRecord CsvRow)}
    {files : Nat} {cancelled : Bool} {result : IngestionResult} :
    provider.ingestFile profile explicit (resultOf sifted files cancelled) file = .ok result ↔
      (provider.rowsOfFile file).2 = none ∧ ∃ settled,
        ((provider.rowsOfFile file).1.map fun numbered => (file, numbered)).mapM
          (settle provider profile explicit) = .ok settled ∧
        resultOf (settled.foldl rowSieve.sift sifted) (files + 1) cancelled = result := by
  have hrows := @foldlM_settle _ _ _ _ _ (fun result numbered =>
      provider.ingestRow profile explicit numbered.1 result numbered.2) _ _
    (fun sifted => resultOf sifted files cancelled)
    (fun sifted numbered => @ingestRow_resultOf profile explicit provider sifted numbered files
      cancelled) ((provider.rowsOfFile file).1.map fun numbered => (file, numbered)) sifted
  rw [List.foldlM_map] at hrows
  unfold ingestFile
  simp only [hformat]
  rw [except_bind_eq_ok]
  rw [hrows]
  constructor
  · rintro ⟨next, hnext, h⟩
    obtain ⟨settled, hsettled, rfl⟩ := except_map_eq_ok.mp hnext
    cases hfailure : (provider.rowsOfFile file).2 with
    | some failure =>
      rw [hfailure] at h
      cases h
    | none =>
      rw [hfailure] at h
      cases h
      exact ⟨rfl, settled, hsettled, rfl⟩
  · rintro ⟨hfailure, settled, hsettled, rfl⟩
    refine ⟨_, except_map_eq_ok.mpr ⟨settled, hsettled, rfl⟩, ?_⟩
    rw [hfailure]
    rfl

/-- The loop over the files gives a result exactly where every CSV file before which the caller does
not cancel can be read to its end and what becomes of every row is known. -/
theorem ingestFiles_eq_ok_iff {cancelled : Nat → Bool} {poll : Nat} {files : List DiscoveredFile}
    {sifted : Sifted Unit (IngestedRecord × List RepairRecord) (QuarantineRecord CsvRow)}
    {processed : Nat} {result : IngestionResult} :
    provider.ingestFiles profile explicit cancelled poll (resultOf sifted processed false) files =
        .ok result ↔
      (∀ file ∈ csvFiles (filesRead cancelled poll files), (provider.rowsOfFile file).2 = none) ∧
        ∃ settled, (numberedRows provider (filesRead cancelled poll files)).mapM
            (settle provider profile explicit) = .ok settled ∧
          resultOf (settled.foldl rowSieve.sift sifted)
            (processed + (csvFiles (filesRead cancelled poll files)).length)
            (decide ((filesRead cancelled poll files).length < files.length)) = result := by
  induction files generalizing poll sifted processed with
  | nil => simp [ingestFiles, filesRead, csvFiles, numberedRows, pure, Except.pure]
  | cons file rest ih =>
    rw [ingestFiles, filesRead]
    by_cases hcancelled : cancelled poll = true
    · simp [hcancelled, csvFiles, numberedRows, resultOf, pure, Except.pure]
    · rw [if_neg hcancelled, if_neg hcancelled, except_bind_eq_ok]
      cases hformat : file.format with
      | archive =>
        have hskip : provider.ingestFile profile explicit (resultOf sifted processed false) file =
            .ok (resultOf sifted processed false) := by rw [ingestFile, hformat]
        simp [hskip, csvFiles, numberedRows, hformat, ih]
      | csv =>
        simp only [ingestFile_eq_ok_iff hformat]
        have hfiles : ∀ files, csvFiles (file :: files) = file :: csvFiles files := fun files => by
          rw [csvFiles, List.filter_cons_of_pos (by rw [hformat]; rfl)]
          rfl
        have hnumbered : ∀ files, numberedRows provider (file :: files) =
            ((provider.rowsOfFile file).1.map fun numbered => (file, numbered)) ++
              numberedRows provider files := fun files => by
          rw [numberedRows, hfiles, List.flatMap_cons]
          rfl
        rw [hfiles, hnumbered, List.mapM_append, List.forall_mem_cons]
        constructor
        · rintro ⟨_, ⟨hfailure, settled, hsettled, rfl⟩, h⟩
          obtain ⟨hfailures, later, hlater, rfl⟩ := ih.mp h
          refine ⟨⟨hfailure, hfailures⟩, settled ++ later, ?_, ?_⟩
          · rw [hsettled, hlater]
            rfl
          · rw [List.foldl_append, List.length_cons, List.length_cons, List.length_cons]
            simp only [Nat.add_lt_add_iff_right, Nat.add_assoc, Nat.add_comm 1]
        · rintro ⟨⟨hfailure, hfailures⟩, all, hall, rfl⟩
          obtain ⟨settled, hsettled, h⟩ := except_bind_eq_ok.mp hall
          obtain ⟨later, hlater, h⟩ := except_bind_eq_ok.mp h
          cases h
          refine ⟨_, ⟨hfailure, settled, hsettled, rfl⟩, ih.mpr ⟨hfailures, later, hlater, ?_⟩⟩
          rw [List.foldl_append, List.length_cons, List.length_cons, List.length_cons]
          simp only [Nat.add_lt_add_iff_right, Nat.add_assoc, Nat.add_comm 1]

/-- The ingestion gives a result exactly where the profile is known, the CSV files can be read to
their ends and what becomes of every row is known: that of the sifted rows. -/
theorem ingest_eq_ok_iff {discovery : DatasetDiscovery}
    {mapping : Option (InsertionDict String String)} {cancelled : Nat → Bool}
    {result : IngestionResult} :
    provider.ingest discovery mapping cancelled = .ok result ↔
      ∃ profile, getSchemaProfile discovery.schemaProfile = .ok profile ∧
        (∀ file ∈ csvFiles (filesRead cancelled 0 discovery.files),
          (provider.rowsOfFile file).2 = none) ∧
        ∃ settled, (numberedRows provider (filesRead cancelled 0 discovery.files)).mapM
            (settle provider profile (mapping.getD .empty)) = .ok settled ∧
          resultOf (rowSieve.run () settled)
            (csvFiles (filesRead cancelled 0 discovery.files)).length
            (decide ((filesRead cancelled 0 discovery.files).length < discovery.files.length)) =
              result := by
  have hstart : ({} : IngestionResult) = resultOf ⟨[], ()⟩ 0 false := rfl
  rw [ingest, except_bind_eq_ok, hstart]
  simp only [ingestFiles_eq_ok_iff, Nat.zero_add]
  rfl

/-- What becomes of a row is known exactly where it does not escape. -/
theorem exists_settle_iff {numbered : DiscoveredFile × CsvRow × Nat} :
    (∃ settled, settle provider profile explicit numbered = .ok settled) ↔
      ¬ Escapes provider.text profile explicit numbered.2.1 (sourceOf profile numbered) := by
  rw [← aborts_readRow, settle]
  cases readRow provider.text profile explicit numbered.2.1 (sourceOf profile numbered) with
  | ok read => simp
  | error error =>
    by_cases haside : SetsAside error <;> simp [haside]

end LocalDatasetProvider
end OptionResearch
