import OptionResearch.PagedLoop
import OptionResearch.RowValues
import OptionResearch.SiftedRows
import OptionResearch.StableSort
import Mathlib.Data.String.Basic

/-!
# Batched downloads from Databento

`DatabentoAdapter` of `data/databento/service.py`, with the requests and the transport it uses. As
with ORATS, a transport is what it answers to each call of a run, the normalizer is given, and a run
is a paged loop that gathers the rows of its batches; here sifting a row remembers the last sequence
number of every instrument.
-/

namespace OptionResearch

inductive DatabentoSchema where
  | definition
  | mbp1
  | trades
  | metadata
  deriving DecidableEq, Repr

def DatabentoSchema.value : DatabentoSchema → String
  | .definition => "definition"
  | .mbp1 => "mbp-1"
  | .trades => "trades"
  | .metadata => "metadata"

inductive DatabentoRequestKind where
  | metadata
  | range
  | symbolResolution
  | definitions
  | historical
  | incremental
  | fixture
  | cacheReplay
  deriving DecidableEq, Repr

/-- A request with what `__post_init__` makes sure of. -/
structure DatabentoRequest where
  kind : DatabentoRequestKind
  dataset : String
  schema : DatabentoSchema
  symbols : List String
  start : DateTime
  «end» : DateTime
  stypeIn : String := "raw_symbol"
  stypeOut : String := "instrument_id"
  batchSize : Int := 1000
  continuation : Option String := none
  aware : start.utcoffset.isSome ∧ «end».utcoffset.isSome
  ordered : start < «end»
  some_symbol : symbols ≠ [] ∨ kind = .metadata ∨ kind = .range
  batch_bounds : 1 ≤ batchSize ∧ batchSize ≤ 100000

structure DatabentoTransportError where
  message : String
  retryable : Bool := false
  retryAfter : Option ℚ := none

structure DatabentoResponse where
  requestId : String
  batchNumber : Int
  records : List Row
  continuation : Option String := none
  hasMore : Bool := false
  checksum : String

/-- What a transport answers to each of its calls, for a batch number and a continuation. -/
abbrev DatabentoTransport :=
  Nat → DatabentoRequest → Nat → Option String →
    Except (Fault DatabentoTransportError) DatabentoResponse

/-- A normalized record, with the entries of its canonical form that the adapter reads as fields of
their own. -/
structure NormalizedDatabentoRecord where
  eventTimestamp : String
  instrumentId : Int
  sequence : Int
  canonical : Row
  rawProvider : Row
  dataset : String
  schema : DatabentoSchema
  sourceChecksum : String

namespace NormalizedDatabentoRecord

def identity (record : NormalizedDatabentoRecord) : Int × String × Int :=
  (record.instrumentId, record.eventTimestamp, record.sequence)

/-- What the records of a result are sorted by. -/
def sortKey (record : NormalizedDatabentoRecord) : String ×ₗ Int ×ₗ Int :=
  toLex (record.eventTimestamp, toLex (record.sequence, record.instrumentId))

end NormalizedDatabentoRecord

/-- A normalizer, of a row with the dataset, the schema and the checksum of its batch; it raises
schema errors with a message. -/
abbrev BatchNormalizer :=
  Row → String → DatabentoSchema → String → Except (Fault String) NormalizedDatabentoRecord

structure DatabentoFailure where
  batch : Nat
  code : String
  message : String
  deriving DecidableEq

structure DatabentoResult where
  records : List NormalizedDatabentoRecord
  failures : List DatabentoFailure
  completedBatches : List Nat
  continuation : Option String
  duplicateCount : Nat
  cancelled : Bool := false

structure DatabentoAdapter where
  transport : DatabentoTransport
  normalizer : BatchNormalizer
  maximumAttempts : Int := 3

/-- What the rows have come to. The failures are those of rows. -/
structure DatabentoRows where
  records : List NormalizedDatabentoRecord
  failures : List DatabentoFailure
  seenRecords : List ((Int × String × Int) × DatabentoSchema)
  duplicates : Nat
  lastSequence : InsertionDict Int Int

/-- Where the batches have come to. The calls are those made of the transport so far. -/
structure DatabentoPaging where
  batch : Nat
  continuation : Option String
  calls : Nat
  seenBatches : List String
  completed : List Nat

/-- How the batches end: with a failure or without, or because the caller cancels. -/
structure DatabentoEnding where
  paging : DatabentoPaging
  failure : Option DatabentoFailure := none
  cancelled : Bool := false

/-- What `run` returns where it stops; only a cancelled run keeps the order of arrival. -/
def DatabentoEnding.result (ending : DatabentoEnding) (rows : DatabentoRows) : DatabentoResult where
  records := if ending.cancelled then rows.records
    else StableSort.sortBy NormalizedDatabentoRecord.sortKey rows.records
  failures := rows.failures ++ ending.failure.toList
  completedBatches := ending.paging.completed
  continuation := ending.paging.continuation
  duplicateCount := rows.duplicates
  cancelled := ending.cancelled

namespace DatabentoPaging

/-- A batch is complete. -/
def complete (paging : DatabentoPaging) (batchKey : String) : DatabentoPaging :=
  { paging with
    seenBatches := paging.seenBatches ++ [batchKey]
    completed := paging.completed ++ [paging.batch] }

/-- The next batch is to be asked for. -/
def advance (paging : DatabentoPaging) (continuation : Option String) : DatabentoPaging :=
  { paging with continuation, batch := paging.batch + 1 }

end DatabentoPaging

namespace DatabentoAdapter

variable (adapter : DatabentoAdapter) (request : DatabentoRequest)

/-- `_request`: the answer to the attempts that are left, and the calls they took; without attempts
there is neither a response nor a failure. -/
def requestBatch (batch : Nat) (continuation : Option String) : List Nat → Nat →
    Except Exc (Except (Option DatabentoFailure) DatabentoResponse) × Nat
  | [], _ => (.ok (.error none), 0)
  | attempt :: rest, calls =>
    match adapter.transport calls request batch continuation with
    | .ok response => (.ok (.ok response), 1)
    | .error (.foreign error) => (.error error, 1)
    | .error (.raised error) =>
      if !error.retryable || (attempt : Int) == adapter.maximumAttempts then
        (.ok (.error (some ⟨batch, "transport_failure", error.message⟩)), 1)
      else
        let (answer, taken) := requestBatch batch continuation rest (calls + 1)
        (answer, taken + 1)

/-- The request for the batch that comes next. -/
def ask (paging : DatabentoPaging) :
    Except Exc (Except (Option DatabentoFailure) DatabentoResponse) × Nat :=
  adapter.requestBatch request paging.batch paging.continuation
    (List.range' 1 adapter.maximumAttempts.toNat) paging.calls

/-- The body of the loop over the rows of a batch. -/
def consumeRow (batch : Nat) (response : DatabentoResponse) (rows : DatabentoRows) (raw : Row) :
    Except Exc DatabentoRows :=
  let failed (message : String) : Except Exc DatabentoRows :=
    .ok { rows with failures := rows.failures ++ [⟨batch, message, message⟩] }
  match adapter.normalizer raw request.dataset request.schema response.checksum with
  | .ok normalized =>
    let instrument := normalized.instrumentId
    let sequence := normalized.sequence
    if sequence < (rows.lastSequence.get? instrument).getD sequence then
      failed "sequence_regression"
    else
      let rows := { rows with lastSequence := rows.lastSequence.set instrument sequence }
      let identity := (normalized.identity, request.schema)
      if identity ∈ rows.seenRecords then .ok { rows with duplicates := rows.duplicates + 1 }
      else .ok { rows with
        seenRecords := rows.seenRecords ++ [identity]
        records := rows.records ++ [normalized] }
  | .error (.raised message) => failed message
  | .error (.foreign error) => .error error

/-- The loop over the rows of a batch, with the batch's number. -/
def consume (rows : DatabentoRows) (page : Nat × DatabentoResponse) : Except Exc DatabentoRows :=
  page.2.records.foldlM (adapter.consumeRow request page.1 page.2) rows

variable (cancelled : Nat → Bool)

/-- One pass through the loop of `run`. The callback is asked before each batch. -/
def pass (state : DatabentoPaging × DatabentoRows) :
    Pass (DatabentoPaging × DatabentoRows) (Except Exc DatabentoResult) :=
  let (paging, rows) := state
  if cancelled paging.batch then
    .left (.ok (DatabentoEnding.result { paging, cancelled := true } rows))
  else
    match adapter.ask request paging with
    | (.error error, _) => .left (.error error)
    | (.ok (.error failure), _) => .left (.ok (DatabentoEnding.result { paging, failure } rows))
    | (.ok (.ok response), taken) =>
      let paging := { paging with calls := paging.calls + taken }
      let failed (code message : String) : DatabentoEnding :=
        { paging, failure := some ⟨paging.batch, code, message⟩ }
      if response.batchNumber ≠ paging.batch then
        .left (.ok ((failed "missing_batch" "Batch was out of order").result rows))
      else
        let batchKey := s!"{paging.batch}:{response.checksum}"
        if batchKey ∈ paging.seenBatches then
          .left (.ok ((failed "duplicate_batch" "Duplicate batch detected").result rows))
        else
          match adapter.consume request rows (paging.batch, response) with
          | .error error => .left (.error error)
          | .ok rows =>
            let completed := paging.complete batchKey
            if !response.hasMore then
              .left (.ok (DatabentoEnding.result { paging := completed } rows))
            else if response.continuation = paging.continuation then
              .left (.ok (DatabentoEnding.result
                { failed "stalled_continuation" "Continuation did not advance" with
                  paging := completed } rows))
            else .again (completed.advance response.continuation, rows)

def start : DatabentoPaging × DatabentoRows :=
  (⟨1, request.continuation, 0, [], []⟩, ⟨[], [], [], 0, .empty⟩)

/-- `run`, within that many passes through its loop. -/
def run (passes : Nat) : Option (Except Exc DatabentoResult) :=
  WhileTrue.run (adapter.pass request cancelled) passes (start request)

/-! ### The batches of a run -/

/-- What a pass does with the batches, whatever the rows are. -/
def turn (paging : DatabentoPaging) :
    Turn DatabentoPaging (Nat × DatabentoResponse) (Except Exc DatabentoEnding) :=
  if cancelled paging.batch then .leave (.ok { paging, cancelled := true })
  else
    match adapter.ask request paging with
    | (.error error, _) => .leave (.error error)
    | (.ok (.error failure), _) => .leave (.ok { paging, failure })
    | (.ok (.ok response), taken) =>
      let paging := { paging with calls := paging.calls + taken }
      let failed (code message : String) : DatabentoEnding :=
        { paging, failure := some ⟨paging.batch, code, message⟩ }
      if response.batchNumber ≠ paging.batch then
        .leave (.ok (failed "missing_batch" "Batch was out of order"))
      else
        let batchKey := s!"{paging.batch}:{response.checksum}"
        if batchKey ∈ paging.seenBatches then
          .leave (.ok (failed "duplicate_batch" "Duplicate batch detected"))
        else
          let completed := paging.complete batchKey
          if !response.hasMore then .last (paging.batch, response) (.ok { paging := completed })
          else if response.continuation = paging.continuation then
            .last (paging.batch, response) (.ok
              { failed "stalled_continuation" "Continuation did not advance" with
                paging := completed })
          else .next (paging.batch, response) (completed.advance response.continuation)

variable {adapter request cancelled}

/-- What an end of the batches shows, with the rows there. -/
def shown (ending : DatabentoEnding × DatabentoRows) : DatabentoResult := ending.1.result ending.2

/-- A pass of `run` is a turn of the batches and the rows of its batch. -/
theorem pass_view (state : DatabentoPaging × DatabentoRows) :
    (PagedLoop.pass (adapter.turn request cancelled) (adapter.consume request) state).map id
        (Except.map shown) =
      (adapter.pass request cancelled state).map id id := by
  obtain ⟨paging, rows⟩ := state
  simp only [PagedLoop.pass, turn, pass]
  by_cases hcancelled : cancelled paging.batch = true
  · simp only [hcancelled, if_true]
    rfl
  · simp only [hcancelled]
    rcases hask : adapter.ask request paging with ⟨_ | _ | response, taken⟩
    · rfl
    · rfl
    · dsimp only
      split_ifs
      · rfl
      · rfl
      all_goals
        dsimp only
        cases adapter.consume request rows (paging.batch, response) <;> rfl

/-! ### The rows of a run -/

section Rows

variable (adapter : DatabentoAdapter) (request : DatabentoRequest)

/-- The rows of the batches, each with its batch and the number of that. -/
def numberedRows (batches : List (Nat × DatabentoResponse)) :
    List (Nat × DatabentoResponse × Row) :=
  batches.flatMap fun batch => batch.2.records.map fun raw => (batch.1, batch.2, raw)

/-- What the normalizer makes of a row: its record, or the message of a schema error. -/
def settle (numbered : Nat × DatabentoResponse × Row) :
    Except Exc (Nat × Except String NormalizedDatabentoRecord) :=
  match adapter.normalizer numbered.2.2 request.dataset request.schema
      numbered.2.1.checksum with
  | .ok normalized => .ok (numbered.1, .ok normalized)
  | .error (.raised message) => .ok (numbered.1, .error message)
  | .error (.foreign error) => .error error

/-- Rows are sifted with the last sequence number of every instrument in mind; records are told
apart by their identity. -/
def rowSieve : Sieve (InsertionDict Int Int) (Nat × Except String NormalizedDatabentoRecord)
    NormalizedDatabentoRecord DatabentoFailure where
  read lastSequence settled :=
    match settled.2 with
    | .error message => .error ⟨settled.1, message, message⟩
    | .ok record =>
      if record.sequence < (lastSequence.get? record.instrumentId).getD record.sequence then
        .error ⟨settled.1, "sequence_regression", "sequence_regression"⟩
      else .ok (record, lastSequence.set record.instrumentId record.sequence)
  same record earlier := record.identity == earlier.identity

/-- The rows that have been sifted. -/
def rowsOf (sifted : Sifted (InsertionDict Int Int) NormalizedDatabentoRecord DatabentoFailure) :
    DatabentoRows where
  records := sifted.fates.filterMap Fate.accepted?
  failures := sifted.fates.filterMap Fate.refused?
  seenRecords := (sifted.fates.filterMap Fate.accepted?).map fun record =>
    (record.identity, request.schema)
  duplicates := (sifted.fates.filterMap Fate.duplicate?).length
  lastSequence := sifted.memory

end Rows

section Sift

variable {fates : List (Fate NormalizedDatabentoRecord DatabentoFailure)}
  {record : NormalizedDatabentoRecord} {lastSequence : InsertionDict Int Int}

@[simp] theorem rowsOf_refused (failure : DatabentoFailure) :
    rowsOf request ⟨fates ++ [.refused failure], lastSequence⟩ =
      { rowsOf request ⟨fates, lastSequence⟩ with
        failures := (rowsOf request ⟨fates, lastSequence⟩).failures ++ [failure] } := by
  simp [rowsOf, List.filterMap_cons, Fate.accepted?, Fate.refused?, Fate.duplicate?]

@[simp] theorem rowsOf_duplicate :
    rowsOf request ⟨fates ++ [.duplicate record], lastSequence⟩ =
      { rowsOf request ⟨fates, lastSequence⟩ with
        duplicates := (rowsOf request ⟨fates, lastSequence⟩).duplicates + 1 } := by
  simp [rowsOf, List.filterMap_cons, Fate.accepted?, Fate.refused?, Fate.duplicate?]

@[simp] theorem rowsOf_accepted :
    rowsOf request ⟨fates ++ [.accepted record], lastSequence⟩ =
      { rowsOf request ⟨fates, lastSequence⟩ with
        seenRecords := (rowsOf request ⟨fates, lastSequence⟩).seenRecords ++
          [(record.identity, request.schema)]
        records := (rowsOf request ⟨fates, lastSequence⟩).records ++ [record] } := by
  simp [rowsOf, List.filterMap_cons, Fate.accepted?, Fate.refused?, Fate.duplicate?]

theorem mem_seenRecords :
    (record.identity, request.schema) ∈ (rowsOf request ⟨fates, lastSequence⟩).seenRecords ↔
      (fates.filterMap Fate.accepted?).any (rowSieve.same record) = true := by
  simp only [rowsOf, rowSieve, List.mem_map, List.any_eq_true, beq_iff_eq, Prod.mk.injEq, and_true]
  exact exists_congr fun _ => and_congr_right fun _ => eq_comm

end Sift

/-- Consuming a row is sifting it. -/
theorem consumeRow_rowsOf
    (sifted : Sifted (InsertionDict Int Int) NormalizedDatabentoRecord DatabentoFailure)
    (numbered : Nat × DatabentoResponse × Row) :
    adapter.consumeRow request numbered.1 numbered.2.1 (rowsOf request sifted) numbered.2.2 =
      (adapter.settle request numbered).map fun settled =>
        rowsOf request (rowSieve.sift sifted settled) := by
  obtain ⟨batch, response, raw⟩ := numbered
  obtain ⟨fates, lastSequence⟩ := sifted
  unfold consumeRow settle
  cases hread : adapter.normalizer raw request.dataset request.schema response.checksum with
  | error fault =>
    cases fault with
    | raised message =>
      simp only [Except.map]
      rw [Sieve.sift_error rfl, rowsOf_refused]
    | foreign error => simp only [Except.map]
  | ok record =>
    simp only [Except.map]
    by_cases hregression :
        record.sequence < (lastSequence.get? record.instrumentId).getD record.sequence
    · rw [if_pos (show record.sequence < ((rowsOf request ⟨fates, lastSequence⟩).lastSequence.get?
        record.instrumentId).getD record.sequence from hregression),
        Sieve.sift_error (if_pos hregression), rowsOf_refused]
    · rw [if_neg (show ¬ record.sequence < ((rowsOf request ⟨fates, lastSequence⟩).lastSequence.get?
        record.instrumentId).getD record.sequence from hregression)]
      by_cases hseen : (record.identity, request.schema) ∈
          (rowsOf request ⟨fates, lastSequence⟩).seenRecords
      · rw [if_pos hseen, Sieve.sift_seen (if_neg hregression) (mem_seenRecords.mp hseen),
          rowsOf_duplicate]
        rfl
      · rw [if_neg hseen, Sieve.sift_new (if_neg hregression) (mt mem_seenRecords.mpr hseen),
          rowsOf_accepted]
        rfl

/-- Consuming batches is sifting their rows. -/
theorem foldlM_consume (batches : List (Nat × DatabentoResponse)) :
    batches.foldlM (adapter.consume request) (start request).2 =
      ((numberedRows batches).mapM (adapter.settle request)).map fun settled =>
        rowsOf request (rowSieve.run .empty settled) := by
  have hbatches : adapter.consume request = fun rows batch =>
      (batch.2.records.map fun raw => (batch.1, batch.2, raw)).foldlM
        (fun rows numbered => adapter.consumeRow request numbered.1 numbered.2.1 rows
          numbered.2.2) rows := by
    funext rows batch
    rw [List.foldlM_map]
    rfl
  rw [hbatches, foldlM_flatMap]
  exact foldlM_settle (rowsOf request) consumeRow_rowsOf _ ⟨[], .empty⟩

/-- A run returns exactly where its batches end and what becomes of every row is known: with the
end of the batches, and what the sifted rows come to. -/
theorem run_eq_ok_iff {passes : Nat} {result : DatabentoResult} :
    adapter.run request cancelled passes = some (.ok result) ↔
      ∃ ending settled,
        PagedLoop.outcome (adapter.turn request cancelled) passes (start request).1 =
          some (.ok ending) ∧
        (numberedRows (PagedLoop.pages (adapter.turn request cancelled) passes
          (start request).1)).mapM (adapter.settle request) = .ok settled ∧
        ending.result (rowsOf request (rowSieve.run .empty settled)) = result := by
  have hmap := WhileTrue.run_map id id (Except.map shown)
    (@pass_view adapter request cancelled) passes (start request)
  rw [Option.map_id] at hmap
  rw [run, show WhileTrue.run _ passes (start request) = _ from hmap.symm]
  constructor
  · intro hrun
    obtain ⟨_ | ⟨ending, rows⟩, hseen, houtcome⟩ := Option.map_eq_some_iff.mp hrun
    · cases houtcome
    · obtain ⟨hending, hrows⟩ := PagedLoop.run_eq_ok_iff.mp hseen
      have hsifted := (foldlM_consume _).symm.trans hrows
      obtain ⟨settled, hsettled, rfl⟩ := except_map_eq_ok.mp hsifted
      exact ⟨ending, settled, hending, hsettled, Except.ok.inj houtcome⟩
  · rintro ⟨ending, settled, hending, hsettled, rfl⟩
    have hrows : (PagedLoop.pages (adapter.turn request cancelled) passes
        (start request).1).foldlM (adapter.consume request) (start request).2 =
          .ok (rowsOf request (rowSieve.run .empty settled)) := by
      rw [foldlM_consume, hsettled]
      rfl
    exact Option.map_eq_some_iff.mpr ⟨_, PagedLoop.run_eq_ok_iff.mpr ⟨hending, hrows⟩, rfl⟩

end DatabentoAdapter

/-- A request for the quotes of a second. -/
def quoteRequest : DatabentoRequest where
  kind := .historical
  dataset := "SYNTHETIC.OPRA"
  schema := .mbp1
  symbols := ["AAPL"]
  start := ⟨0, some 0⟩
  «end» := ⟨1000000, some 0⟩
  aware := by decide
  ordered := by decide
  some_symbol := by decide
  batch_bounds := by decide

end OptionResearch
