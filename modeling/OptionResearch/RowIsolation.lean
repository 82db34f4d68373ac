import OptionResearch.LocalIngestion
import OptionResearch.OratsNormalizer
import OptionResearch.PagedTermination

/-!
# Bad rows and the imports they are in

An ORATS download and the ingestion of local files account for every row: it is accepted once, it is
set aside, or it repeats an entry that was accepted before. They do so exactly where no row escapes,
and every file can be read.
-/

namespace OptionResearch

/-! ### ORATS -/

namespace OratsAdapter

variable {adapter : OratsAdapter} {request : OratsDataRequest} {cancelled : Nat → Bool}
  {paging : OratsPaging} {passes : Nat}

/-- The transport answers with pages or errors of its own. -/
def AnswersOrRaises (transport : OratsTransport) (request : OratsDataRequest) : Prop :=
  ∀ call page cursor error, transport call request page cursor ≠ .error (.foreign error)

/-- From some call on, no page has more to come. -/
def RunsOut (transport : OratsTransport) (request : OratsDataRequest) : Prop :=
  ∃ n, ∀ call ≥ n, ∀ page cursor response, transport call request page cursor = .ok response →
    response.hasMore = false

/-- The attempts that are left come to a page, that the transport answers to one of the calls from
there, or to a failure. -/
theorem requestPage_cases (hanswers : AnswersOrRaises adapter.transport request) {page : Nat}
    {cursor : Option String} {left : Nat} :
    ∀ {first calls : Nat}, first + left = adapter.maxAttempts →
      (∃ response retries, adapter.requestPage request page cursor
          (List.range' first (left + 1)) calls = (.ok (.ok response), retries) ∧
        adapter.transport (calls + retries) request page cursor = .ok response) ∨
      ∃ failure retries, adapter.requestPage request page cursor
        (List.range' first (left + 1)) calls = (.ok (.error failure), retries) := by
  induction left with
  | zero =>
    intro first calls hlast
    rw [List.range'_succ, requestPage]
    rcases hcall : adapter.transport calls request page cursor with (error | error) | response
    · exact .inr ⟨⟨page, cursor, first, error.message⟩, 0, by simp [← hlast]⟩
    · exact absurd hcall (hanswers calls page cursor error)
    · exact .inl ⟨response, 0, rfl, hcall⟩
  | succ left ih =>
    intro first calls hlast
    rw [List.range'_succ, requestPage]
    rcases hcall : adapter.transport calls request page cursor with (error | error) | response
    · dsimp only
      split_ifs
      · exact .inr ⟨_, 0, rfl⟩
      · obtain ⟨response, retries, hrest, hanswer⟩ | ⟨failure, retries, hrest⟩ :=
          @ih (first + 1) (calls + 1) (by omega)
        · refine .inl ⟨response, retries + 1, by rw [hrest], ?_⟩
          rw [← hanswer, Nat.add_right_comm, Nat.add_assoc]
        · exact .inr ⟨failure, retries + 1, by rw [hrest]⟩
    · exact absurd hcall (hanswers calls page cursor error)
    · exact .inl ⟨response, 0, rfl, hcall⟩

/-- What a pass does with the paging: it stops, without a page or with a last one, or it goes on
after a page that has more to come. -/
theorem turn_cases (hanswers : AnswersOrRaises adapter.transport request) :
    (∃ ending stopped, adapter.turn request cancelled paging = .leave (.ok (ending, stopped)) ∧
      ending.completed = paging.completed) ∨
    ∃ response call, paging.calls ≤ call ∧
      adapter.transport call request paging.page paging.cursor = .ok response ∧
      ((∃ ending stopped, adapter.turn request cancelled paging =
          .last response (.ok (ending, stopped)) ∧
        ending.completed = paging.completed ++ [paging.page]) ∨
      response.hasMore = true ∧ ∃ next,
        adapter.turn request cancelled paging = .next response next ∧
        next.completed = paging.completed ++ [paging.page] ∧ next.page = paging.page + 1 ∧
        call < next.calls) := by
  rw [turn]
  split_ifs with hcancelled
  · exact .inl ⟨_, _, rfl, rfl⟩
  · obtain ⟨more, hmore⟩ := Nat.exists_eq_add_of_le' adapter.attempts_pos
    have hask : adapter.ask request paging = adapter.requestPage request paging.page paging.cursor
        (List.range' 1 (more + 1)) paging.calls := by rw [ask, hmore]
    obtain ⟨response, retries, hcases, hanswer⟩ | ⟨failure, retries, hcases⟩ :=
      @requestPage_cases adapter request hanswers paging.page paging.cursor more 1 paging.calls
        (by omega)
    · rw [hask, hcases]
      dsimp only
      split_ifs with hseen hnumber hlast hstalled
      · exact .inl ⟨_, _, rfl, rfl⟩
      · exact .inl ⟨_, _, rfl, rfl⟩
      · exact .inr ⟨response, _, Nat.le_add_right _ _, hanswer, .inl ⟨_, _, rfl, rfl⟩⟩
      · exact .inr ⟨response, _, Nat.le_add_right _ _, hanswer, .inl ⟨_, _, rfl, rfl⟩⟩
      · exact .inr ⟨response, _, Nat.le_add_right _ _, hanswer,
          .inr ⟨by simpa using hlast, _, rfl, rfl, rfl, Nat.lt_succ_self _⟩⟩
    · rw [hask, hcases]
      exact .inl ⟨_, _, rfl, rfl⟩

/-- The pages that are read are completed. -/
theorem notesPages (hanswers : AnswersOrRaises adapter.transport request) :
    PagedLoop.NotesPages (adapter.turn request cancelled) OratsPaging.page OratsPaging.completed
      fun ending => ending.1.completed := by
  intro paging
  obtain ⟨ending, stopped, hturn, hcompleted⟩ | ⟨response, call, -, -, ⟨ending, stopped, hturn,
    hcompleted⟩ | ⟨-, next, hturn, hcompleted, hpage, -⟩⟩ :=
    @turn_cases adapter request cancelled paging hanswers
  · rw [hturn]
    rintro _ ⟨⟩
    exact hcompleted
  · rw [hturn]
    rintro _ ⟨⟩
    exact hcompleted
  · rw [hturn]
    exact ⟨hcompleted, hpage⟩

/-- The pages that are read are answers of the transport. -/
theorem answered_of_mem_pages (hanswers : AnswersOrRaises adapter.transport request)
    {response : OratsResponse}
    (h : response ∈ PagedLoop.pages (adapter.turn request cancelled) passes paging) :
    ∃ call page cursor, adapter.transport call request page cursor = .ok response := by
  obtain ⟨before, -, last, -, hreads⟩ := PagedLoop.mem_pages_iff.mp h
  obtain ⟨other, stops, hturn, -⟩ | ⟨answer, call, -, hanswer, ⟨other, stops, hturn, -⟩ |
    ⟨-, next, hturn, -⟩⟩ := @turn_cases adapter request cancelled last hanswers
  all_goals
    rcases hreads with ⟨other, h⟩ | ⟨other, h⟩ <;> rw [hturn] at h <;> cases h
  · exact ⟨call, last.page, last.cursor, hanswer⟩
  · exact ⟨call, last.page, last.cursor, hanswer⟩

/-- Where the pages run out, the paging comes to an end. -/
theorem exists_outcome (hanswers : AnswersOrRaises adapter.transport request)
    (hends : RunsOut adapter.transport request) (paging : OratsPaging) :
    ∃ passes ending, PagedLoop.outcome (adapter.turn request cancelled) passes paging =
      some (.ok ending) := by
  obtain ⟨n, hends⟩ := hends
  induction hleft : n - paging.calls using Nat.strong_induction_on generalizing paging with
  | h left ih =>
    obtain ⟨ending, stopped, hturn, -⟩ | ⟨response, call, hcall, hanswer, ⟨ending, stopped, hturn,
      -⟩ | ⟨hmore, next, hturn, -, -, hcalls⟩⟩ :=
      @turn_cases adapter request cancelled paging hanswers
    · exact ⟨1, (ending, stopped), by rw [PagedLoop.outcome, hturn]⟩
    · exact ⟨1, (ending, stopped), by rw [PagedLoop.outcome, hturn]⟩
    · have hlt : call < n := by
        by_contra hge
        rw [hends call (not_lt.mp hge) _ _ _ hanswer] at hmore
        cases hmore
      obtain ⟨passes, ending, houtcome⟩ := ih (n - next.calls) (by omega) next rfl
      exact ⟨passes + 1, ending, by rw [PagedLoop.outcome_next hturn, houtcome]⟩

section Account

variable (adapter : OratsAdapter) (request : OratsDataRequest) (cancelled : Nat → Bool)

/-- The pages that a run reads. -/
def pages (passes : Nat) : List OratsResponse :=
  PagedLoop.pages (adapter.turn request cancelled) passes (start request).paging

/-- A row is set aside with the message of the normalizer, or its record is accepted or a
duplicate. -/
def RowFate (schemaVersion : String) (numbered : OratsResponse × Row × Nat)
    (fate : Fate NormalizedOratsRecord (QuarantineRecord Row)) : Prop :=
  (∃ message, adapter.normalizer.normalize numbered.2.1 numbered.1.requestId numbered.2.2
      schemaVersion = .error (.raised message) ∧
    fate = .refused ⟨QuarantineReason.ofMessage message, message, numbered.2.1,
      adapter.source numbered⟩) ∨
  ∃ record, adapter.normalizer.normalize numbered.2.1 numbered.1.requestId numbered.2.2
      schemaVersion = .ok record ∧ (fate = .accepted record ∨ fate = .duplicate record)

/-- The run returns, with its pages completed in turn and an account of their rows: the records are
those accepted, no two of one identity, a duplicate repeats one accepted before, and the others are
set aside. -/
def AccountsForRows : Prop :=
  ∃ dataset passes result fates, getDataset request.dataset request.frequency = .ok dataset ∧
    adapter.run request cancelled passes = some (.ok result) ∧
    result.completedPages = List.range' 1 (adapter.pages request cancelled passes).length ∧
    Accounts (adapter.RowFate dataset.schemaVersion)
      (fun record earlier => record.identity == earlier.identity)
      (numberedRows (adapter.pages request cancelled passes)) fates ∧
    result.records = fates.filterMap Fate.accepted? ∧
    result.quarantine = fates.filterMap Fate.refused?

end Account

/-- A row has the fate of what becomes of it. -/
theorem rowFate_of_settled {schemaVersion : String} {numbered : OratsResponse × Row × Nat}
    {item : Except (QuarantineRecord Row) NormalizedOratsRecord}
    {fate : Fate NormalizedOratsRecord (QuarantineRecord Row)}
    (hsettle : adapter.settle schemaVersion numbered = .ok item)
    (hfate : Sieve.FateOf rowSieve item fate) : adapter.RowFate schemaVersion numbered fate := by
  obtain ⟨_, hfate⟩ := hfate
  rw [settle] at hsettle
  rcases hread : adapter.normalizer.normalize numbered.2.1 numbered.1.requestId numbered.2.2
    schemaVersion with (message | error) | record
  · rw [hread] at hsettle
    cases hsettle
    exact .inl ⟨message, hread, hfate⟩
  · rw [hread] at hsettle
    cases hsettle
  · rw [hread] at hsettle
    cases hsettle
    exact .inr ⟨record, hread, Fate.entry?_eq_some_iff.mp hfate⟩

/-- A run accounts for its rows exactly where the dataset is in the catalogue and every row of its
pages is normalized or refused by the normalizer. -/
theorem accountsForRows_iff (hanswers : AnswersOrRaises adapter.transport request)
    (hends : RunsOut adapter.transport request) :
    adapter.AccountsForRows request cancelled ↔
      ∃ dataset, getDataset request.dataset request.frequency = .ok dataset ∧
        ∀ passes, ∀ response ∈ adapter.pages request cancelled passes,
          adapter.Normalizes dataset.schemaVersion response := by
  constructor
  · rintro ⟨dataset, passes, result, -, hdataset, hrun, -⟩
    obtain ⟨found, ending, stopped, settled, hfound, houtcome, hsettled, -⟩ :=
      run_eq_ok_iff.mp ⟨result, hrun, rfl⟩
    rw [hdataset] at hfound
    cases hfound
    refine ⟨dataset, hdataset, fun others response hresponse => ?_⟩
    exact (exists_settled_iff _).mp ⟨settled, hsettled⟩ response
      (PagedLoop.pages_subset_of_outcome houtcome hresponse)
  · rintro ⟨dataset, hdataset, hnormalizes⟩
    obtain ⟨passes, ⟨ending, stopped⟩, houtcome⟩ :=
      @exists_outcome adapter request cancelled hanswers hends (start request).paging
    obtain ⟨settled, hsettled⟩ := (exists_settled_iff _).mpr (hnormalizes passes)
    obtain ⟨result, hrun, hresult⟩ := run_eq_ok_iff.mpr
      ⟨dataset, ending, stopped, settled, hdataset, houtcome, hsettled, rfl⟩
    refine ⟨dataset, passes, result, (rowSieve.run () settled).fates, hdataset, hrun,
      ?_, ?_, ?_, ?_⟩
    · have hpages := congrArg OratsRunResult.completedPages hresult
      exact hpages.trans ((notesPages hanswers).noted_of_outcome houtcome)
    · exact Accounts.of_settled (forall₂_of_mapM_eq_ok hsettled) Sieve.accounts_run
        fun _ _ _ => rowFate_of_settled
    · exact congrArg OratsRunResult.records hresult
    · exact congrArg OratsRunResult.quarantine hresult

/-- The normalizer answers for a page exactly where no row of it escapes. -/
theorem normalizes_iff {text : RowText}
    (hnormalizer : adapter.normalizer = OratsNormalizer.rowNormalizer text) {schemaVersion : String}
    {response : OratsResponse} :
    adapter.Normalizes schemaVersion response ↔
      ∀ raw ∈ response.records, ¬ OratsNormalizer.Escapes text raw schemaVersion := by
  have hrow : ∀ (raw : Row) (rowNumber : Nat),
      (∀ error, adapter.normalizer.normalize raw response.requestId rowNumber schemaVersion ≠
        .error (.foreign error)) ↔ ¬ OratsNormalizer.Escapes text raw schemaVersion := by
    intro raw rowNumber
    rw [hnormalizer, ← @OratsNormalizer.normalize_foreign_iff text raw schemaVersion
      response.requestId rowNumber, not_exists]
    rfl
  constructor
  · intro h raw hraw
    rw [← List.zipIdx_map_fst 1 response.records] at hraw
    obtain ⟨numbered, hnumbered, rfl⟩ := List.mem_map.mp hraw
    exact (hrow numbered.1 numbered.2).mp (h numbered hnumbered)
  · intro h numbered hnumbered
    exact (hrow numbered.1 numbered.2).mpr (h _ (List.fst_mem_of_mem_zipIdx hnumbered))

end OratsAdapter

/-! ### Local files -/

namespace LocalDatasetProvider

section Account

variable (provider : LocalDatasetProvider) (profile : SchemaProfile)
  (explicit : InsertionDict String String)

/-- A row is set aside with the message of what was raised on it, or its record is accepted or a
duplicate. -/
def RowFate (numbered : DiscoveredFile × CsvRow × Nat)
    (fate : Fate (IngestedRecord × List RepairRecord) (QuarantineRecord CsvRow)) : Prop :=
  (∃ error, readRow provider.text profile explicit numbered.2.1 (sourceOf profile numbered) =
      .error error ∧
    fate = .refused ⟨QuarantineReason.ofMessage error.message, error.message, numbered.2.1,
      sourceOf profile numbered⟩) ∨
  ∃ record repairs, readRow provider.text profile explicit numbered.2.1
      (sourceOf profile numbered) = .ok (record, repairs) ∧
    (fate = .accepted (⟨record, sourceOf profile numbered⟩, repairs) ∨
      fate = .duplicate (⟨record, sourceOf profile numbered⟩, repairs))

/-- The ingestion returns, with an account of the rows of its files: the records are those accepted,
no two of one identity, a duplicate repeats one accepted before, and the others are set aside. -/
def AccountsForRows (discovery : DatasetDiscovery)
    (mapping : Option (InsertionDict String String)) (cancelled : Nat → Bool) : Prop :=
  ∃ profile result fates, getSchemaProfile discovery.schemaProfile = .ok profile ∧
    provider.ingest discovery mapping cancelled = .ok result ∧
    Accounts (provider.RowFate profile (mapping.getD .empty))
      (fun entry earlier => sameIdentity entry.1.fields earlier.1.fields)
      (provider.numberedRows (filesRead cancelled 0 discovery.files)) fates ∧
    result.records = (fates.filterMap Fate.accepted?).map Prod.fst ∧
    result.quarantine = fates.filterMap Fate.refused? ∧
    result.duplicates = (fates.filterMap Fate.duplicate?).length ∧
    result.rowsProcessed =
      (provider.numberedRows (filesRead cancelled 0 discovery.files)).length

end Account

variable {provider : LocalDatasetProvider} {discovery : DatasetDiscovery}
  {mapping : Option (InsertionDict String String)} {cancelled : Nat → Bool}

theorem rowFate_of_settled {profile : SchemaProfile} {explicit : InsertionDict String String}
    {numbered : DiscoveredFile × CsvRow × Nat}
    {item : Except (QuarantineRecord CsvRow) (IngestedRecord × List RepairRecord)}
    {fate : Fate (IngestedRecord × List RepairRecord) (QuarantineRecord CsvRow)}
    (hsettle : provider.settle profile explicit numbered = .ok item)
    (hfate : Sieve.FateOf rowSieve item fate) :
    provider.RowFate profile explicit numbered fate := by
  obtain ⟨_, hfate⟩ := hfate
  rw [settle] at hsettle
  cases hread : readRow provider.text profile explicit numbered.2.1 (sourceOf profile numbered) with
  | error error =>
    rw [hread] at hsettle
    dsimp only at hsettle
    split_ifs at hsettle
    cases hsettle
    exact .inl ⟨error, hread, hfate⟩
  | ok read =>
    rw [hread] at hsettle
    cases hsettle
    exact .inr ⟨read.1, read.2, hread, Fate.entry?_eq_some_iff.mp hfate⟩

/-- The ingestion accounts for its rows exactly where the profile is known, every CSV file can be
read to its end, and no row of it escapes. -/
theorem accountsForRows_iff :
    provider.AccountsForRows discovery mapping cancelled ↔
      ∃ profile, getSchemaProfile discovery.schemaProfile = .ok profile ∧
        ∀ file ∈ csvFiles (filesRead cancelled 0 discovery.files),
          (provider.rowsOfFile file).2 = none ∧ ∀ numbered ∈ (provider.rowsOfFile file).1,
            ¬ Escapes provider.text profile (mapping.getD .empty) numbered.1
              (sourceOf profile (file, numbered)) := by
  have hrows : ∀ profile,
      (∃ settled, (provider.numberedRows (filesRead cancelled 0 discovery.files)).mapM
        (provider.settle profile (mapping.getD .empty)) = .ok settled) ↔
      ∀ file ∈ csvFiles (filesRead cancelled 0 discovery.files),
        ∀ numbered ∈ (provider.rowsOfFile file).1,
          ¬ Escapes provider.text profile (mapping.getD .empty) numbered.1
            (sourceOf profile (file, numbered)) := by
    intro profile
    rw [numberedRows, exists_mapM_rows_iff]
    simp only [exists_settle_iff]
  constructor
  · rintro ⟨profile, result, -, hprofile, hingest, -⟩
    obtain ⟨found, hfound, hfailures, settled, hsettled, -⟩ := ingest_eq_ok_iff.mp hingest
    rw [hprofile] at hfound
    cases hfound
    exact ⟨profile, hprofile, fun file hfile =>
      ⟨hfailures file hfile, (hrows profile).mp ⟨settled, hsettled⟩ file hfile⟩⟩
  · rintro ⟨profile, hprofile, hfiles⟩
    obtain ⟨settled, hsettled⟩ := (hrows profile).mpr fun file hfile => (hfiles file hfile).2
    have haccounts := Accounts.of_settled (forall₂_of_mapM_eq_ok hsettled)
      (@Sieve.accounts_run _ _ _ _ rowSieve () settled) fun _ _ _ => rowFate_of_settled
    exact ⟨profile, _, (rowSieve.run () settled).fates, hprofile, ingest_eq_ok_iff.mpr
      ⟨profile, hprofile, fun file hfile => (hfiles file hfile).1, settled, hsettled, rfl⟩,
      haccounts, rfl, rfl, rfl, haccounts.fits.length_eq.symm⟩

end LocalDatasetProvider

/-! ### Both -/

/-- A bad row never aborts an import exactly where the dataset and the profile are known, every CSV
file can be read to its end, and no row escapes. -/
theorem imports_account_for_rows_iff {adapter : OratsAdapter} {request : OratsDataRequest}
    {text : RowText} (cancelled : Nat → Bool)
    (hnormalizer : adapter.normalizer = OratsNormalizer.rowNormalizer text)
    (hanswers : OratsAdapter.AnswersOrRaises adapter.transport request)
    (hends : OratsAdapter.RunsOut adapter.transport request) (provider : LocalDatasetProvider)
    (discovery : DatasetDiscovery) (mapping : Option (InsertionDict String String))
    (stopped : Nat → Bool) :
    (adapter.AccountsForRows request cancelled ↔
        ∃ dataset, getDataset request.dataset request.frequency = .ok dataset ∧
          ∀ passes, ∀ response ∈ adapter.pages request cancelled passes,
            ∀ raw ∈ response.records,
              ¬ OratsNormalizer.Escapes text raw dataset.schemaVersion) ∧
      (provider.AccountsForRows discovery mapping stopped ↔
        ∃ profile, getSchemaProfile discovery.schemaProfile = .ok profile ∧
          ∀ file ∈ LocalDatasetProvider.csvFiles
              (LocalDatasetProvider.filesRead stopped 0 discovery.files),
            (provider.rowsOfFile file).2 = none ∧ ∀ numbered ∈ (provider.rowsOfFile file).1,
              ¬ LocalDatasetProvider.Escapes provider.text profile (mapping.getD .empty) numbered.1
                (LocalDatasetProvider.sourceOf profile (file, numbered))) := by
  refine ⟨?_, LocalDatasetProvider.accountsForRows_iff⟩
  rw [OratsAdapter.accountsForRows_iff hanswers hends]
  simp only [OratsAdapter.normalizes_iff hnormalizer]

/-- Texts of a quote. -/
def quoteTexts : RowText where
  strip := id
  upper := id
  lower := id
  readFloat s := if s = "100" then some (.finite 100) else none
  readInt s := if s = "100" then some 100 else none
  readDate s := if s = "2026-01-16" then some ⟨739632, by decide, by decide⟩ else none
  readDateTime s :=
    if s = "2026-01-02T15:00:00+00:00" then some ⟨1767366000000000, some 0⟩ else none
  writeFloat _ := "0.0"
  fixed _ _ := "0"
  newYorkOffset _ := -18000000000
  writeJson _ := "\x7b\x7d"
  sha256 := id

/-- A page of rows. -/
def onePage (rows : List Row) : OratsAdapter where
  transport _ _ page _ := .ok
    { records := rows, requestId := "r", pageNumber := page, rawChecksum := "0" }
  normalizer := OratsNormalizer.rowNormalizer quoteTexts
  attempts_pos := Nat.le_add_left 1 2

/-- A file with a header and these lines. -/
def quoteFile (lines : String) : LocalDatasetProvider where
  text := quoteTexts
  contents _ := "symbol,expiration,strike,option_type,quote_timestamp\n" ++ lines

def quotesCsv : DiscoveredFile := ⟨"quotes.csv", "0", .csv⟩

def oneFile : DatasetDiscovery where
  files := [quotesCsv]
  schemaProfile := "generic_csv"

/-- A quote, and a row that ends after its symbol. -/
def shortRow : LocalDatasetProvider :=
  quoteFile "AAPL,2026-01-16,100,C,2026-01-02T15:00:00Z\nAAPL\n"

/-- A quote with a field too many. -/
def longRow : LocalDatasetProvider :=
  quoteFile "AAPL,2026-01-16,100,C,2026-01-02T15:00:00Z,CBOE\n"

theorem imports_account_for_rows_iff_shortRow :
    (onePage [.empty]).AccountsForRows twoSymbols (fun _ => false) ∧
      shortRow.AccountsForRows oneFile none (fun _ => false) := by
  have hanswers : OratsAdapter.AnswersOrRaises (onePage [.empty]).transport twoSymbols :=
    fun _ _ _ _ h => nomatch h
  have haccounts := @imports_account_for_rows_iff (onePage [.empty]) twoSymbols quoteTexts
    (fun _ => false) rfl hanswers ⟨0, by rintro _ - _ _ _ ⟨⟩; rfl⟩ shortRow oneFile none
    (fun _ => false)
  refine ⟨haccounts.1.mpr ⟨_, rfl, fun passes response hresponse raw hraw hescapes => ?_⟩,
    haccounts.2.mpr ⟨_, rfl, fun file hfile => ?_⟩⟩
  · obtain ⟨call, page, cursor, ⟨⟩⟩ := OratsAdapter.answered_of_mem_pages hanswers hresponse
    obtain rfl := List.mem_singleton.mp hraw
    exact absurd hescapes.2.1 (by decide)
  · obtain rfl := List.mem_singleton.mp hfile
    obtain ⟨hread, hsettled⟩ : (shortRow.rowsOfFile quotesCsv).2 = none ∧
        (shortRow.rowsOfFile quotesCsv).1.all (fun numbered =>
          (shortRow.settle (.standard "generic_csv") .empty
            (quotesCsv, numbered)).toOption.isSome) = true := by
      decide +kernel
    refine ⟨hread, fun numbered hnumbered => ?_⟩
    have hsome := List.all_eq_true.mp hsettled _ hnumbered
    refine (@LocalDatasetProvider.exists_settle_iff (.standard "generic_csv") .empty shortRow
      (quotesCsv, numbered)).mp ?_
    cases hsettle : shortRow.settle (.standard "generic_csv") .empty (quotesCsv, numbered) with
    | ok settled => exact ⟨settled, rfl⟩
    | error error =>
      rw [hsettle] at hsome
      cases hsome

/-- A row with days to expiration but no trade date to compare them with. -/
def datelessRow : Row :=
  .ofEntries [("ticker", .str "AAPL"), ("tradeDate", .str "2026-01"),
    ("expirDate", .str "2026-01-16"), ("strike", .int 100), ("callPut", .str "C"),
    ("quoteTimestamp", .str "2026-01-02T15:00:00Z"), ("dte", .int 14)]

/-- A trade date that is none, and a field too many, abort the imports. -/
theorem imports_badRows_abort :
    (OratsAdapter.AnswersOrRaises (onePage [datelessRow]).transport twoSymbols ∧
      OratsAdapter.RunsOut (onePage [datelessRow]).transport twoSymbols ∧
      ¬ ∃ passes result, (onePage [datelessRow]).run twoSymbols (fun _ => false) passes =
        some (.ok result)) ∧
    ¬ ∃ result, longRow.ingest oneFile none (fun _ => false) = .ok result := by
  refine ⟨⟨?_, ⟨0, by rintro _ - _ _ _ ⟨⟩; rfl⟩, ?_⟩, ?_⟩
  · exact fun _ _ _ _ h => nomatch h
  · rintro ⟨passes, result, hrun⟩
    obtain ⟨dataset, paging, stopped, settled, hdataset, houtcome, hsettled, -⟩ :=
      OratsAdapter.run_eq_ok_iff.mp ⟨result, hrun, rfl⟩
    cases hdataset
    have hpages := @PagedLoop.pages_subset_of_outcome _ _ _ _ _ _ _ _ 1 houtcome
    have hnormalizes := (OratsAdapter.exists_settled_iff _).mp ⟨settled, hsettled⟩ _
      (hpages List.mem_cons_self) (datelessRow, 1) List.mem_cons_self
    have hforeign : (match OratsNormalizer.normalize quoteTexts datelessRow "r" 1
        "orats-eod-fixture-v1" with
      | .error (.foreign _) => true
      | _ => false) = true := by decide +kernel
    split at hforeign
    · rename_i error hraised
      exact hnormalizes error hraised
    · cases hforeign
  · rintro ⟨result, hingest⟩
    have hnone : (longRow.ingest oneFile none (fun _ => false)).toOption.isNone = true := by
      decide +kernel
    rw [hingest] at hnone
    cases hnone

end OptionResearch
