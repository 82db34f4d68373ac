import OptionResearch.CpcvSplits
import OptionResearch.IngestionTables
import OptionResearch.InsertionDict
import OptionResearch.PartialEffects

/-!
# Bulk ingestion

`BulkIngestionService` of `database/ingestion.py`, with the validation of `database/validation.py`,
the session of `database/session.py` and the batch statements of the repositories: a payload is
deduplicated by its keys, cut into batches, and each batch is one insert statement. Under an upsert
this leaves the rows that one call per DTO leaves. An insert that keeps what is there does not: the
deduplication keeps the last DTO of a key, one call per DTO the first.
-/

namespace OptionResearch.BulkIngestion

open Effect KeyedTables

inductive UpsertPolicy where
  | upsert
  | insertOnly
  deriving DecidableEq

structure IngestionConfig where
  batchSize : Int := 500
  contractPolicy : UpsertPolicy := .upsert
  quotePolicy : UpsertPolicy := .upsert
  manifestPolicy : UpsertPolicy := .upsert

structure ValidationIssue where
  code : String
  message : String
  deriving DecidableEq

structure ValidationSummary where
  valid : Bool
  issues : List ValidationIssue

structure ImportResult where
  entityName : String
  requested : Nat := 0
  processed : Nat := 0
  insertedOrUpdated : Nat := 0
  duplicatesDropped : Nat := 0
  failed : Nat := 0
  validationIssues : List ValidationIssue := []
  deriving DecidableEq

variable {D P K : Type}

/-! ### Validation -/

/-- `validate_contracts`, for one contract. -/
def contractIssues (seenKeys : List (Int × String)) (contract : OptionContractDTO) :
    Except Exc (List ValidationIssue) := do
  let late ← contract.lastSeenAt.compared contract.firstSeenAt
    (decide (contract.lastSeenAt < contract.firstSeenAt))
  return (if seenKeys.contains (contract.providerId, contract.providerContractId) then
      [⟨"duplicate_provider_contract_identifier",
        "Duplicate provider contract identifier detected in payload"⟩] else []) ++
    (if contract.strike ≤ 0 then
      [⟨"invalid_strike", "Contract strike must be greater than zero"⟩] else []) ++
    (if late then
      [⟨"invalid_timestamp_order",
        "first_seen_at must be less than or equal to last_seen_at"⟩] else [])

/-- `validate_manifests`, for one manifest. -/
def manifestIssues (seen : List (Int × String × String)) (manifest : DatasetManifestDTO) :
    Except Exc (List ValidationIssue) :=
  return (if seen.contains
        (manifest.providerId, manifest.datasetName, manifest.datasetVersion) then
      [⟨"duplicate_manifest_identifier",
        "Duplicate manifest identifier detected in payload"⟩] else []) ++
    (if manifest.createdTimestamp.utcoffset.isNone then
      [⟨"invalid_timestamp", "Manifest created_timestamp must be timezone-aware"⟩] else []) ++
    (if manifest.rowCount < 0 then
      [⟨"invalid_row_count", "Manifest row_count must be non-negative"⟩] else [])

/-- The loop of the two, which remembers the keys. -/
def issuesOf (key : D → P) (issues : List P → D → Except Exc (List ValidationIssue)) :
    List P → List D → Except Exc (List ValidationIssue)
  | _, [] => .ok []
  | seen, dto :: rest => do
    let found ← issues seen dto
    let later ← issuesOf key issues (seen ++ [key dto]) rest
    return found ++ later

def summarize (issues : List ValidationIssue) : ValidationSummary := ⟨issues.isEmpty, issues⟩

def validateContracts (contracts : List OptionContractDTO) : Except Exc ValidationSummary :=
  return summarize (← issuesOf contractsIngestion.dedupeKey contractIssues [] contracts)

def validateManifests (manifests : List DatasetManifestDTO) : Except Exc ValidationSummary :=
  return summarize (← issuesOf manifestsIngestion.dedupeKey manifestIssues [] manifests)

/-- `validate_quotes`, for one quote. The providers of the contracts and manifests by their
identifiers are what the session reads. -/
def quoteIssues (contractProvider manifestProvider : Int → Option Int) (quote : OptionQuoteDTO) :
    List ValidationIssue :=
  (if quote.bid.any fun bid => quote.ask.any fun ask => decide (ask < bid) then
    [⟨"crossed_market", "Quote bid must not exceed ask"⟩] else []) ++
  (if quote.quoteTimestamp.utcoffset.isNone then
    [⟨"invalid_timestamp", "Quote timestamp must be timezone-aware"⟩] else []) ++
  (match contractProvider quote.contractId with
    | none => [⟨"quote_contract_mismatch", "Quote references unknown contract"⟩]
    | some provider =>
      if provider ≠ quote.providerId then
        [⟨"quote_contract_mismatch", "Quote provider does not match contract provider"⟩] else []) ++
  (if manifestProvider quote.manifestId ≠ some quote.providerId then
    [⟨"dataset_manifest_mismatch",
      "Quote provider does not match dataset manifest provider"⟩] else [])

def validateQuotes (contractProvider manifestProvider : Int → Option Int)
    (quotes : List OptionQuoteDTO) : ValidationSummary :=
  summarize (quotes.flatMap (quoteIssues contractProvider manifestProvider))

/-! ### Sessions -/

/-- Work on the rows of a table. -/
abbrev Session (D : Type) := Effect (List D) Exc

/-- `session_scope`: what raises is rolled back. -/
def sessionScope {α : Type} (body : Session D α) : Session D α := do
  let stored ← get
  tryCatch body fun _ => do
    set stored
    throw ⟨.other "DatabaseTransactionError", "Database transaction failed and was rolled back"⟩

/-- The refusal of a row that breaks a constraint. -/
def integrityError : Exc := ⟨.other "IntegrityError", ""⟩

variable [DecidableEq P] [DecidableEq K] (ingestion : Ingestion D P K)

/-- An insert statement of a batch, with what it does on a conflict. -/
def insertBatch (onConflict : D → D → D) (batch : List D) : Session D Unit := do
  if batch.isEmpty then return
  let rows ← get
  let after ← raising (insertRows ingestion.table integrityError onConflict rows
    (batch.map ingestion.stored))
  set after

def batchUpsert : List D → Session D Unit := insertBatch ingestion ingestion.table.overwrite

def batchInsertOnly : List D → Session D Unit := insertBatch ingestion keepOld

/-! ### The service -/

/-- `_dedupe_by_key`. -/
def dedupeByKey (values : List D) (keyFn : D → P) : List D :=
  (values.foldl (fun indexByKey item => indexByKey.set (keyFn item) item)
    (InsertionDict.empty : InsertionDict P D)).values

/-- `_chunk`. -/
def chunk (values : List D) (chunkSize : Int) : Except Exc (List (List D)) :=
  if chunkSize ≤ 0 then .error ⟨.valueError, "batch_size must be positive"⟩
  else
    let size := chunkSize.toNat
    let totalChunks := if values.isEmpty then 0 else (values.length + size - 1) / size
    .ok ((List.range totalChunks).map fun index => (values.drop (index * size)).take size)

/-- The loop over the batches. -/
def writeBatches (write : List D → Session D Unit) (batchSize : Int) (deduped : List D)
    (result : ImportResult) : Session D ImportResult := do
  let batches ← raising (chunk deduped batchSize)
  batches.foldlM (fun result batch => do
    write batch
    return { result with
      processed := result.processed + batch.length
      insertedOrUpdated := result.insertedOrUpdated + batch.length }) result

/-- The report of a call before anything is written. -/
def begun (payload : List D) : ImportResult where
  entityName := ingestion.entityName
  requested := payload.length
  duplicatesDropped := payload.length - (dedupeByKey payload ingestion.dedupeKey).length

/-- `_generic_ingest`. -/
def genericIngest (config : IngestionConfig) (payload : List D) : Session D ImportResult :=
  sessionScope (writeBatches (batchUpsert ingestion) config.batchSize
    (dedupeByKey payload ingestion.dedupeKey) (begun ingestion payload))

/-- `ingest_contracts` and `ingest_manifests`, which validate before they open a session. -/
def validatedIngest (validate : List D → Except Exc ValidationSummary)
    (duplicates : ValidationIssue) (policy : UpsertPolicy) (config : IngestionConfig)
    (payload : List D) : Session D ImportResult := do
  let deduped := dedupeByKey payload ingestion.dedupeKey
  let result := begun ingestion payload
  let notice := if result.duplicatesDropped ≠ 0 then [duplicates] else []
  let validation ← raising (validate deduped)
  let result := { result with validationIssues := notice ++ validation.issues }
  if validation.valid then
    sessionScope (writeBatches
      (if policy = .insertOnly then batchInsertOnly ingestion else batchUpsert ingestion)
      config.batchSize deduped result)
  else return { result with failed := deduped.length }

def ingestContracts (config : IngestionConfig) :
    List OptionContractDTO → Session OptionContractDTO ImportResult :=
  validatedIngest contractsIngestion validateContracts
    ⟨"duplicate_provider_contract_identifier",
      "Duplicate provider contract identifiers were deduplicated"⟩
    config.contractPolicy config

def ingestManifests (config : IngestionConfig) :
    List DatasetManifestDTO → Session DatasetManifestDTO ImportResult :=
  validatedIngest manifestsIngestion validateManifests
    ⟨"duplicate_manifest_identifier", "Duplicate manifest identifiers were deduplicated"⟩
    config.manifestPolicy config

/-- `ingest_quotes`, which validates inside its session. -/
def ingestQuotes (contractProvider manifestProvider : Int → Option Int) (config : IngestionConfig)
    (payload : List OptionQuoteDTO) : Session OptionQuoteDTO ImportResult :=
  let deduped := dedupeByKey payload quotesIngestion.dedupeKey
  let result := begun quotesIngestion payload
  sessionScope do
    let validation := validateQuotes contractProvider manifestProvider deduped
    let result := { result with validationIssues := validation.issues }
    if validation.valid then
      writeBatches
        (if config.quotePolicy = .insertOnly then batchInsertOnly quotesIngestion
          else batchUpsert quotesIngestion)
        config.batchSize deduped result
    else return { result with failed := deduped.length }

def ingestUnderlyingPrices := genericIngest pricesIngestion

def ingestDividends := genericIngest dividendsIngestion

def ingestEarnings := genericIngest earningsIngestion

def ingestCorporateActions := genericIngest corporateActionsIngestion

def ingestInterestRateCurves := genericIngest interestRatesIngestion

end OptionResearch.BulkIngestion
