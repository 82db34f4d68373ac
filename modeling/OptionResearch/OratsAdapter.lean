import OptionResearch.OratsSync
import OptionResearch.PagedLoop
import OptionResearch.RowValues
import OptionResearch.SiftedRows

/-!
# Paged downloads from ORATS

`OratsAdapter` of `data/orats/service.py`, with the transport and the catalogue it uses. A transport
is what it answers to each call of a run, and the normalizer is given. The course of the paging does
not depend on the rows: seen through `OratsRun.view`, a run is a paged loop that gathers the rows of
its pages, and gathering them is sifting them.
-/

namespace OptionResearch

structure OratsTransportError where
  message : String
  statusCode : Option Int := none
  retryAfter : Option ℚ := none

def OratsTransportError.retryable (error : OratsTransportError) : Bool :=
  error.statusCode.any fun code => code ∈ [408, 425, 429, 500, 502, 503, 504]

structure OratsResponse where
  records : List Row
  requestId : String
  pageNumber : Int
  nextCursor : Option String := none
  hasMore : Bool := false
  rateLimitRemaining : Option Int := none
  rawChecksum : String

/-- What a transport answers to each of its calls, for a page number and a cursor. -/
abbrev OratsTransport :=
  Nat → OratsDataRequest → Nat → Option String → Except (Fault OratsTransportError) OratsResponse

/-! ### The catalogue -/

namespace OratsDatasetKind

def value : OratsDatasetKind → String
  | .optionQuotes => "option_quotes"
  | .optionContracts => "option_contracts"
  | .underlyingPrices => "underlying_prices"
  | .volatilityGreeks => "volatility_greeks"

end OratsDatasetKind

def OratsFrequency.value : OratsFrequency → String
  | .endOfDay => "end_of_day"
  | .intraday => "intraday"

structure OratsDataset where
  name : String
  kind : OratsDatasetKind
  frequency : OratsFrequency
  schemaVersion : String

def oratsCatalogue : List OratsDataset :=
  [{ name := "options_eod", kind := .optionQuotes, frequency := .endOfDay,
     schemaVersion := "orats-eod-fixture-v1" }]

def getDataset (kind : OratsDatasetKind) (frequency : OratsFrequency) : Except Exc OratsDataset :=
  match oratsCatalogue.find? fun dataset => dataset.kind = kind ∧ dataset.frequency = frequency with
  | some dataset => .ok dataset
  | none => .error ⟨.other "KeyError",
      s!"'No verified ORATS dataset for {kind.value}/{frequency.value}'"⟩

theorem getDataset_eq_ok_iff {kind : OratsDatasetKind} {frequency : OratsFrequency} :
    (∃ dataset, getDataset kind frequency = .ok dataset) ↔
      kind = .optionQuotes ∧ frequency = .endOfDay := by
  cases kind <;> cases frequency <;> simp [getDataset, oratsCatalogue]

/-! ### The adapter -/

/-- A canonical record, with the two entries that every one of them has as fields of their own. -/
structure OratsCanonical where
  contractIdentity : String
  quoteTimestamp : String
  fields : Row

structure NormalizedOratsRecord where
  canonical : OratsCanonical
  rawVendor : Row
  sourceRowId : String
  requestId : String
  providerSchemaVersion : String
  mappingVersion : String
  providerUnits : List (String × String)
  providerTimestamp : String

/-- What rows of one record are known by. -/
def NormalizedOratsRecord.identity (record : NormalizedOratsRecord) : String × String :=
  (record.canonical.contractIdentity, record.canonical.quoteTimestamp)

/-- A normalizer, of a row with its request, its number and the version of its schema; it raises
schema errors with a message. -/
structure RowNormalizer where
  mappingVersion : String
  normalize : Row → String → Nat → String → Except (Fault String) NormalizedOratsRecord

structure OratsFailure where
  page : Nat
  cursor : Option String
  attempts : Nat
  message : String
  deriving DecidableEq

structure OratsProgress where
  symbolsPlanned : Nat := 0
  symbolsComplete : Nat := 0
  pagesComplete : Nat := 0
  recordsReceived : Nat := 0
  recordsAccepted : Nat := 0
  recordsQuarantined : Nat := 0
  retries : Nat := 0
  rateLimitRemaining : Option Int := none
  failures : List String := []

structure OratsRunResult where
  records : List NormalizedOratsRecord
  quarantine : List (QuarantineRecord Row)
  failures : List OratsFailure
  progress : OratsProgress
  completedPages : List Nat
  continuationCursor : Option String
  cancelled : Bool := false

structure OratsAdapter where
  transport : OratsTransport
  normalizer : RowNormalizer
  maxAttempts : Nat := 3
  attempts_pos : 1 ≤ maxAttempts

/-- What the rows have come to; the identities seen are those of the records. -/
structure OratsRows where
  records : List NormalizedOratsRecord
  quarantine : List (QuarantineRecord Row)
  seenRows : List (String × String)

/-- Where the paging has come to. The calls are those made of the transport so far. -/
structure OratsPaging where
  page : Nat
  cursor : Option String
  calls : Nat
  seenPages : List String
  failures : List OratsFailure
  completed : List Nat

structure OratsRun where
  paging : OratsPaging
  rows : OratsRows
  progress : OratsProgress

namespace OratsAdapter

variable (adapter : OratsAdapter) (request : OratsDataRequest)

/-- `_request_page`: the answer to the attempts that are left, and how many were retried. -/
def requestPage (page : Nat) (cursor : Option String) : List Nat → Nat →
    Except Exc (Except OratsFailure OratsResponse) × Nat
  | [], _ => (.error ⟨.other "AssertionError", "unreachable"⟩, 0)
  | attempt :: rest, calls =>
    match adapter.transport calls request page cursor with
    | .ok response => (.ok (.ok response), 0)
    | .error (.foreign error) => (.error error, 0)
    | .error (.raised error) =>
      if !error.retryable || attempt == adapter.maxAttempts then
        (.ok (.error ⟨page, cursor, attempt, error.message⟩), 0)
      else
        let (answer, retries) := requestPage page cursor rest (calls + 1)
        (answer, retries + 1)

/-- The body of the loop in `_consume`, for a row and its number. -/
def consumeRow (response : OratsResponse) (schemaVersion : String) (rows : OratsRows)
    (numbered : Row × Nat) : Except Exc OratsRows :=
  let (raw, rowNumber) := numbered
  let source : SourceMetadata := ⟨response.requestId, response.rawChecksum, rowNumber,
    adapter.normalizer.mappingVersion⟩
  match adapter.normalizer.normalize raw response.requestId rowNumber schemaVersion with
  | .ok normalized =>
    if normalized.identity ∈ rows.seenRows then .ok rows
    else .ok { rows with
      seenRows := rows.seenRows ++ [normalized.identity]
      records := rows.records ++ [normalized] }
  | .error (.raised message) =>
    .ok { rows with quarantine := rows.quarantine ++
      [⟨QuarantineReason.ofMessage message, message, raw, source⟩] }
  | .error (.foreign error) => .error error

/-- `_consume`. -/
def consume (schemaVersion : String) (rows : OratsRows) (response : OratsResponse) :
    Except Exc OratsRows :=
  (response.records.zipIdx 1).foldlM (adapter.consumeRow response schemaVersion) rows

end OratsAdapter

namespace OratsPaging

/-- A failure is noted. -/
def fail (paging : OratsPaging) (attempts : Nat) (message : String) : OratsPaging :=
  { paging with failures := paging.failures ++ [⟨paging.page, paging.cursor, attempts, message⟩] }

/-- A page is complete. -/
def complete (paging : OratsPaging) (pageKey : String) : OratsPaging :=
  { paging with
    seenPages := paging.seenPages ++ [pageKey]
    completed := paging.completed ++ [paging.page] }

/-- The next page is to be asked for. -/
def advance (paging : OratsPaging) (cursor : Option String) : OratsPaging :=
  { paging with cursor, page := paging.page + 1 }

end OratsPaging

namespace OratsRun

/-- What `run` returns where it stops. -/
def result (run : OratsRun) (cancelled : Bool := false) : OratsRunResult where
  records := run.rows.records
  quarantine := run.rows.quarantine
  failures := run.paging.failures
  progress := run.progress
  completedPages := run.paging.completed
  continuationCursor := run.paging.cursor
  cancelled

def countPage (progress : OratsProgress) (response : OratsResponse) (rows : OratsRows) :
    OratsProgress :=
  { progress with
    pagesComplete := progress.pagesComplete + 1
    recordsReceived := progress.recordsReceived + response.records.length
    recordsAccepted := rows.records.length
    recordsQuarantined := rows.quarantine.length
    rateLimitRemaining := response.rateLimitRemaining }

end OratsRun

namespace OratsAdapter

section Run

variable (adapter : OratsAdapter) (request : OratsDataRequest) (cancelled : Nat → Bool)

/-- The request for the page that comes next. -/
def ask (paging : OratsPaging) : Except Exc (Except OratsFailure OratsResponse) × Nat :=
  adapter.requestPage request paging.page paging.cursor (List.range' 1 adapter.maxAttempts)
    paging.calls

/-- One pass through the loop of `run`. The callback is asked before each page. -/
def pass (schemaVersion : String) (run : OratsRun) : Pass OratsRun (Except Exc OratsRunResult) :=
  let { paging, rows, progress } := run
  if cancelled paging.page then .left (.ok (run.result true))
  else
    match adapter.ask request paging with
    | (.error error, _) => .left (.error error)
    | (.ok (.error failure), retries) =>
      let progress := { progress with
        retries := progress.retries + retries
        failures := progress.failures ++ [failure.message] }
      .left (.ok (OratsRun.result
        ⟨{ paging with failures := paging.failures ++ [failure] }, rows, progress⟩))
    | (.ok (.ok response), retries) =>
      let paging := { paging with calls := paging.calls + retries + 1 }
      let progress := { progress with retries := progress.retries + retries }
      let pageKey := s!"{response.pageNumber}:{response.rawChecksum}"
      if pageKey ∈ paging.seenPages then
        .left (.ok (OratsRun.result ⟨paging.fail 1 "Duplicate page detected", rows, progress⟩))
      else if response.pageNumber ≠ paging.page then
        .left (.ok (OratsRun.result ⟨paging.fail 1 "Missing or out-of-order page", rows, progress⟩))
      else
        match adapter.consume schemaVersion rows response with
        | .error error => .left (.error error)
        | .ok rows =>
          let paging := paging.complete pageKey
          let progress := OratsRun.countPage progress response rows
          if !response.hasMore then
            let progress := { progress with symbolsComplete := request.symbols.length }
            .left (.ok (OratsRun.result ⟨paging, rows, progress⟩))
          else if response.nextCursor = paging.cursor ∧ response.nextCursor.isSome then
            .left (.ok (OratsRun.result
              ⟨paging.fail 1 "Pagination cursor did not advance", rows, progress⟩))
          else .again ⟨paging.advance response.nextCursor, rows, progress⟩

def start : OratsRun where
  paging := ⟨1, request.resumeCursor, 0, [], [], []⟩
  rows := ⟨[], [], []⟩
  progress := { symbolsPlanned := request.symbols.length }

/-- `run`, within that many passes through its loop. -/
def run (passes : Nat) : Option (Except Exc OratsRunResult) :=
  match getDataset request.dataset request.frequency with
  | .error error => some (.error error)
  | .ok dataset =>
    WhileTrue.run (adapter.pass request cancelled dataset.schemaVersion) passes (start request)

/-! ### The paging of a run -/

/-- What a pass does with the paging, whatever the rows are. -/
def turn (paging : OratsPaging) :
    Turn OratsPaging OratsResponse (Except Exc (OratsPaging × Bool)) :=
  if cancelled paging.page then .leave (.ok (paging, true))
  else
    match adapter.ask request paging with
    | (.error error, _) => .leave (.error error)
    | (.ok (.error failure), _) =>
      .leave (.ok ({ paging with failures := paging.failures ++ [failure] }, false))
    | (.ok (.ok response), retries) =>
      let paging := { paging with calls := paging.calls + retries + 1 }
      let pageKey := s!"{response.pageNumber}:{response.rawChecksum}"
      if pageKey ∈ paging.seenPages then
        .leave (.ok (paging.fail 1 "Duplicate page detected", false))
      else if response.pageNumber ≠ paging.page then
        .leave (.ok (paging.fail 1 "Missing or out-of-order page", false))
      else
        let paging := paging.complete pageKey
        if !response.hasMore then .last response (.ok (paging, false))
        else if response.nextCursor = paging.cursor ∧ response.nextCursor.isSome then
          .last response (.ok (paging.fail 1 "Pagination cursor did not advance", false))
        else .next response (paging.advance response.nextCursor)

end Run

variable {adapter : OratsAdapter} {request : OratsDataRequest} {cancelled : Nat → Bool}
  {schemaVersion : String}

/-- A result without its count of the progress. -/
def plain (result : OratsRunResult) : OratsRunResult := { result with progress := {} }

/-- What an end of the paging shows, with the rows there. -/
def shown (ending : (OratsPaging × Bool) × OratsRows) : OratsRunResult :=
  OratsRun.result ⟨ending.1.1, ending.2, {}⟩ ending.1.2

/-- A pass of `run` is a turn of the paging and the rows of its page. -/
theorem pass_view (run : OratsRun) :
    (PagedLoop.pass (adapter.turn request cancelled) (adapter.consume schemaVersion)
        (run.paging, run.rows)).map id (Except.map shown) =
      (adapter.pass request cancelled schemaVersion run).map (fun run => (run.paging, run.rows))
        (Except.map plain) := by
  obtain ⟨paging, rows, progress⟩ := run
  simp only [PagedLoop.pass, turn, pass]
  by_cases hcancelled : cancelled paging.page = true
  · simp only [hcancelled, if_true]
    rfl
  · simp only [hcancelled]
    rcases hask : adapter.ask request paging with ⟨_ | _ | response, retries⟩
    · rfl
    · rfl
    · dsimp only
      split_ifs
      · rfl
      · rfl
      all_goals
        dsimp only
        cases adapter.consume schemaVersion rows response <;> rfl

/-! ### The rows of a run -/

section Rows

variable (adapter : OratsAdapter) (schemaVersion : String)

/-- The rows of the pages, each with its page and its number there. -/
def numberedRows (pages : List OratsResponse) : List (OratsResponse × Row × Nat) :=
  pages.flatMap fun response => (response.records.zipIdx 1).map fun numbered => (response, numbered)

/-- Where a row comes from. -/
def source (numbered : OratsResponse × Row × Nat) : SourceMetadata :=
  ⟨numbered.1.requestId, numbered.1.rawChecksum, numbered.2.2, adapter.normalizer.mappingVersion⟩

/-- What becomes of a row: its record, or what is set aside of it. -/
def settle (numbered : OratsResponse × Row × Nat) :
    Except Exc (Except (QuarantineRecord Row) NormalizedOratsRecord) :=
  match adapter.normalizer.normalize numbered.2.1 numbered.1.requestId numbered.2.2
      schemaVersion with
  | .ok normalized => .ok (.ok normalized)
  | .error (.raised message) => .ok (.error
      ⟨QuarantineReason.ofMessage message, message, numbered.2.1, adapter.source numbered⟩)
  | .error (.foreign error) => .error error

/-- Records are told apart by their identity. -/
def rowSieve : Sieve Unit (Except (QuarantineRecord Row) NormalizedOratsRecord)
    NormalizedOratsRecord (QuarantineRecord Row) where
  read _ settled := settled.map fun record => (record, ())
  same record earlier := record.identity == earlier.identity

/-- The rows that have been sifted. -/
def rowsOf (sifted : Sifted Unit NormalizedOratsRecord (QuarantineRecord Row)) : OratsRows where
  records := sifted.fates.filterMap Fate.accepted?
  quarantine := sifted.fates.filterMap Fate.refused?
  seenRows := (sifted.fates.filterMap Fate.accepted?).map NormalizedOratsRecord.identity

end Rows

section Sift

variable {fates : List (Fate NormalizedOratsRecord (QuarantineRecord Row))}
  {record : NormalizedOratsRecord}

@[simp] theorem rowsOf_refused (quarantined : QuarantineRecord Row) :
    rowsOf ⟨fates ++ [.refused quarantined], ()⟩ =
      { rowsOf ⟨fates, ()⟩ with
        quarantine := (rowsOf ⟨fates, ()⟩).quarantine ++ [quarantined] } := by
  simp [rowsOf, List.filterMap_cons, Fate.accepted?, Fate.refused?]

@[simp] theorem rowsOf_duplicate :
    rowsOf ⟨fates ++ [.duplicate record], ()⟩ = rowsOf ⟨fates, ()⟩ := by
  simp [rowsOf, List.filterMap_cons, Fate.accepted?, Fate.refused?]

@[simp] theorem rowsOf_accepted :
    rowsOf ⟨fates ++ [.accepted record], ()⟩ =
      { rowsOf ⟨fates, ()⟩ with
        seenRows := (rowsOf ⟨fates, ()⟩).seenRows ++ [record.identity]
        records := (rowsOf ⟨fates, ()⟩).records ++ [record] } := by
  simp [rowsOf, List.filterMap_cons, Fate.accepted?, Fate.refused?]

theorem mem_seenRows :
    record.identity ∈ (rowsOf ⟨fates, ()⟩).seenRows ↔
      (fates.filterMap Fate.accepted?).any (rowSieve.same record) = true := by
  simp only [rowsOf, rowSieve, List.mem_map, List.any_eq_true, beq_iff_eq]
  exact exists_congr fun _ => and_congr_right fun _ => eq_comm

end Sift

/-- Consuming a row is sifting it. -/
theorem consumeRow_rowsOf (sifted : Sifted Unit NormalizedOratsRecord (QuarantineRecord Row))
    (numbered : OratsResponse × Row × Nat) :
    adapter.consumeRow numbered.1 schemaVersion (rowsOf sifted) numbered.2 =
      (adapter.settle schemaVersion numbered).map fun settled =>
        rowsOf (rowSieve.sift sifted settled) := by
  obtain ⟨response, raw, rowNumber⟩ := numbered
  obtain ⟨fates, ⟨⟩⟩ := sifted
  unfold consumeRow settle
  cases hread : adapter.normalizer.normalize raw response.requestId rowNumber schemaVersion with
  | error fault =>
    cases fault with
    | raised message =>
      simp only [hread, Except.map]
      rw [Sieve.sift_error rfl, rowsOf_refused]
      rfl
    | foreign error => simp only [hread, Except.map]
  | ok record =>
    simp only [hread, Except.map]
    by_cases hseen : record.identity ∈ (rowsOf ⟨fates, ()⟩).seenRows
    · rw [if_pos hseen, Sieve.sift_seen rfl (mem_seenRows.mp hseen), rowsOf_duplicate]
    · rw [if_neg hseen, Sieve.sift_new rfl (mt mem_seenRows.mpr hseen), rowsOf_accepted]

/-- Consuming pages is sifting their rows. -/
theorem foldlM_consume (pages : List OratsResponse) :
    pages.foldlM (adapter.consume schemaVersion) (start request).rows =
      ((numberedRows pages).mapM (adapter.settle schemaVersion)).map fun settled =>
        rowsOf (rowSieve.run () settled) := by
  have hpages : adapter.consume schemaVersion = fun rows response =>
      ((response.records.zipIdx 1).map fun numbered => (response, numbered)).foldlM
        (fun rows numbered => adapter.consumeRow numbered.1 schemaVersion rows numbered.2)
        rows := by
    funext rows response
    rw [List.foldlM_map]
    rfl
  rw [hpages, foldlM_flatMap]
  exact foldlM_settle rowsOf consumeRow_rowsOf _ ⟨[], ()⟩

/-- A run returns exactly where its paging ends and what becomes of every row is known: with the
failures and the pages of the paging, and the records and the quarantine of the sifted rows. -/
theorem run_eq_ok_iff {passes : Nat} {other : OratsRunResult} :
    (∃ result, adapter.run request cancelled passes = some (.ok result) ∧ plain result = other) ↔
      ∃ dataset paging stopped settled,
        getDataset request.dataset request.frequency = .ok dataset ∧
        PagedLoop.outcome (adapter.turn request cancelled) passes (start request).paging =
          some (.ok (paging, stopped)) ∧
        (numberedRows (PagedLoop.pages (adapter.turn request cancelled) passes
          (start request).paging)).mapM (adapter.settle dataset.schemaVersion) = .ok settled ∧
        OratsRun.result ⟨paging, rowsOf (rowSieve.run () settled), {}⟩ stopped = other := by
  cases hdataset : getDataset request.dataset request.frequency with
  | error error => simp [run, hdataset]
  | ok dataset =>
    have hmap := WhileTrue.run_map (fun run : OratsRun => (run.paging, run.rows)) (Except.map plain)
      (Except.map shown) (@pass_view adapter request cancelled dataset.schemaVersion) passes
      (start request)
    simp only [run, hdataset]
    constructor
    · rintro ⟨result, hrun, rfl⟩
      rw [hrun] at hmap
      obtain ⟨_ | ⟨⟨paging, stopped⟩, rows⟩, hseen, houtcome⟩ := Option.map_eq_some_iff.mp hmap
      · cases houtcome
      · obtain ⟨hending, hrows⟩ := PagedLoop.run_eq_ok_iff.mp hseen
        rw [foldlM_consume] at hrows
        obtain ⟨settled, hsettled, rfl⟩ := except_map_eq_ok.mp hrows
        exact ⟨dataset, paging, stopped, settled, rfl, hending, hsettled, Except.ok.inj houtcome⟩
    · rintro ⟨_, paging, stopped, settled, ⟨⟩, hending, hsettled, rfl⟩
      have hrows : (PagedLoop.pages (adapter.turn request cancelled) passes
          (start request).paging).foldlM (adapter.consume dataset.schemaVersion)
            (start request).rows = .ok (rowsOf (rowSieve.run () settled)) := by
        rw [foldlM_consume, hsettled]
        rfl
      rw [PagedLoop.run_eq_ok_iff.mpr ⟨hending, hrows⟩] at hmap
      obtain ⟨_ | result, hrun, hresult⟩ := Option.map_eq_some_iff.mp hmap.symm
      · cases hresult
      · exact ⟨result, hrun, Except.ok.inj hresult⟩

end OratsAdapter
end OptionResearch
