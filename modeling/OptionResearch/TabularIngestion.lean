import OptionResearch.LocalIngestion
import OptionResearch.SiftedKeys

/-!
# Ingesting tables of texts and numbers

`LocalDatasetProvider` of `data/integration/local.py` for CSV files, whose fields are texts, and for
tables that are read in batches, whose fields are texts or numbers. What the progress callback is
told is kept beside the result.
-/

namespace OptionResearch.TabularIngestion

open OptionResearch.LocalDatasetProvider (SetsAside Aborts)

/-! ### Files -/

inductive FileFormat where
  | csv
  | parquet
  | archive
  | unknown
  deriving DecidableEq, Repr

/-- `Path(path).name`. -/
def fileName (path : String) : String :=
  let parts := (path.toList.splitOn '/').filter fun part => part ≠ [] ∧ part ≠ ['.']
  String.ofList (parts.getLast?.getD [])

def endsWithAny (name : String) (suffixes : List String) : Bool :=
  suffixes.any fun suffix => suffix.toList.isSuffixOf name.toList

/-- `file_format`. -/
def fileFormat (text : RowText) (path : String) : FileFormat :=
  let name := text.lower (fileName path)
  if endsWithAny name [".parquet", ".pq"] then .parquet
  else if endsWithAny name [".csv", ".csv.gz", ".gz"] then .csv
  else if endsWithAny name [".zip", ".tar.gz", ".tgz"] then .archive
  else .unknown

structure DiscoveredFile where
  path : String
  checksum : String
  format : FileFormat
  deriving DecidableEq

structure DatasetDiscovery where
  files : List DiscoveredFile
  schemaProfile : String

/-- A row of a table: the values of the columns, and the fields that are too many, which stand under
a column that is no text. -/
structure SourceRow where
  values : Row
  rest : Option (List String) := none

def SourceRow.ofCsv (row : CsvRow) : SourceRow where
  values :=
    { entries := row.values.entries.map fun entry => (entry.1, entry.2.elim .null .str)
      nodup_keys := by
        rw [List.map_map]
        exact row.values.nodup_keys }
  rest := row.rest

structure IngestionResult where
  records : List IngestedRecord := []
  quarantine : List (QuarantineRecord SourceRow) := []
  repairs : List RepairRecord := []
  filesProcessed : Nat := 0
  rowsProcessed : Nat := 0
  duplicates : Nat := 0
  cancelled : Bool := false

/-! ### Rows -/

section Row

variable (text : RowText)

/-- `resolve_mapping`, of columns that are texts. -/
def resolveColumns (columns : List String) (profile : SchemaProfile)
    (explicit : InsertionDict String String) : Except Exc (InsertionDict String String) := do
  let named := .ofEntries (columns.map fun column => (text.lower (text.strip column), column))
  let mapping ← (profile.requiredColumns ++ profile.optionalColumns).foldlM
    (mapColumn profile named) explicit
  let missing := profile.requiredColumns.filter fun name =>
    name ∉ mapping.entries.map Prod.snd
  if missing ≠ [] then
    .error ⟨.valueError, "Missing required columns: " ++ ", ".intercalate missing⟩
  else return mapping

/-- `resolve_mapping`, of the columns of a row. -/
def resolveMapping (row : SourceRow) (profile : SchemaProfile)
    (explicit : InsertionDict String String) : Except Exc (InsertionDict String String) := do
  if row.rest.isSome then .error ⟨.attributeError, "'NoneType' object has no attribute 'strip'"⟩
  resolveColumns text (row.values.entries.map Prod.fst) profile explicit

/-- The body of the loop of `_normalize` over the columns. -/
def mapCell (row : SourceRow) (source : SourceMetadata) (cells : Row × List RepairRecord)
    (column : String × String) : Row × List RepairRecord :=
  match row.values.getValue column.1 with
  | .str value =>
    let stripped := text.strip value
    let repairs := if value ≠ stripped then
      [⟨column.2, value, stripped, "whitespace_cleanup", source⟩] else []
    let cell : Scalar := if stripped ∈ nullTexts then .null else .str stripped
    (cells.1.set column.2 cell, cells.2 ++ repairs)
  | value => (cells.1.set column.2 value, cells.2)

/-- The loop of `_normalize` over the columns. -/
def mapCells (row : SourceRow) (mapping : InsertionDict String String) (source : SourceMetadata) :
    Row × List RepairRecord :=
  mapping.entries.foldl (mapCell text row source) (.empty, [])

/-- `_normalize`. -/
def normalizeRow (row : SourceRow) (mapping : InsertionDict String String)
    (source : SourceMetadata) : Except Exc (Row × List RepairRecord) := do
  let (output, repairs) := mapCells text row mapping source
  let output ← setIdentifiers text output
  let output ← (normalizeCells text output).mapError reraised
  return (output, repairs)

/-- What the loop of `ingest` makes of a row, before it looks whether it was seen. -/
def readRow (profile : SchemaProfile) (explicit : InsertionDict String String) (row : SourceRow)
    (source : SourceMetadata) : Except Exc (Row × List RepairRecord) := do
  let resolved ← resolveMapping text row profile explicit
  let (record, repairs) ← normalizeRow text row resolved source
  match validateRow record with
  | some reason => .error ⟨.valueError, reason.value⟩
  | none => .ok (record, repairs)

end Row

/-! ### The provider -/

/-- What files hold: the texts of the CSV files, and where tables can be read, their rows in batches
of a size. -/
structure LocalFiles where
  text : RowText
  delimiter : Char := ','
  contents : String → String
  batches : Option (Nat → String → List (List Row))

structure LocalDatasetProvider where
  files : LocalFiles
  chunkSize : Nat
  chunkSize_pos : 0 < chunkSize

/-- The result, and what the progress callback was told. -/
structure Progress where
  result : IngestionResult
  reports : List IngestionResult := []

/-- `if progress and result.rows_processed % self.chunk_size == 0`. -/
def Progress.advance (progress : Progress) (chunkSize : Nat) (result : IngestionResult) :
    Progress where
  result
  reports := if result.rowsProcessed % chunkSize = 0 then progress.reports ++ [result]
    else progress.reports

namespace LocalDatasetProvider

/-- `__init__`. -/
def init (files : LocalFiles) (chunkSize : Int) : Except Exc LocalDatasetProvider :=
  if h : chunkSize ≤ 0 then .error ⟨.valueError, "chunk_size must be positive"⟩
  else .ok ⟨files, chunkSize.toNat, Int.lt_toNat.mpr (Int.not_le.mp h)⟩

variable (provider : LocalDatasetProvider) (profile : SchemaProfile)
  (explicit : InsertionDict String String)

/-- `_rows`: the rows with their numbers, and what is raised after them. -/
def rowsOfFile (file : DiscoveredFile) : List (SourceRow × Nat) × Option Exc :=
  if fileFormat provider.files.text file.path = .csv then
    let (rows, failure) := readDicts provider.files.delimiter (provider.files.contents file.path)
    ((rows.map SourceRow.ofCsv).zipIdx 2,
      failure.map fun _ => ⟨.other "csv.Error", "field larger than field limit (131072)"⟩)
  else
    match provider.files.batches with
    | none => ([], some ⟨.other "RuntimeError",
        "Parquet ingestion requires the optional 'pyarrow' package"⟩)
    | some batches =>
      let records := (batches provider.chunkSize file.path).flatten
      ((records.map fun values => ⟨values, none⟩).zipIdx 2, none)

/-- The body of the loop over the rows of a file, for a row and its number. -/
def ingestRow (file : DiscoveredFile) (progress : Progress) (numbered : SourceRow × Nat) :
    Except Exc Progress :=
  let (row, rowNumber) := numbered
  let result := { progress.result with rowsProcessed := progress.result.rowsProcessed + 1 }
  let source : SourceMetadata := ⟨file.path, file.checksum, rowNumber, profile.identifier⟩
  match readRow provider.files.text profile explicit row source with
  | .ok (record, repairs) =>
    -- the identities seen are those of the records
    if result.records.any fun earlier => sameIdentity record earlier.fields then
      -- the loop goes on before the callback
      .ok { progress with result := { result with duplicates := result.duplicates + 1 } }
    else .ok (progress.advance provider.chunkSize { result with
      records := result.records ++ [⟨record, source⟩]
      repairs := result.repairs ++ repairs })
  | .error error =>
    if SetsAside error then .ok (progress.advance provider.chunkSize { result with
      quarantine := result.quarantine ++
        [⟨QuarantineReason.ofMessage error.message, error.message, row, source⟩] })
    else .error error

/-- The body of the loop over the files. -/
def ingestFile (progress : Progress) (file : DiscoveredFile) : Except Exc Progress :=
  if file.format = .archive then .ok progress
  else do
    let (rows, failure) := provider.rowsOfFile file
    let progress ← rows.foldlM (provider.ingestRow profile explicit file) progress
    match failure with
    | some error => .error error
    | none => return { progress with result :=
        { progress.result with filesProcessed := progress.result.filesProcessed + 1 } }

/-- The loop over the files; the callback is asked before each of them. -/
def ingestFiles (cancelled : Nat → Bool) : Nat → Progress → List DiscoveredFile →
    Except Exc Progress
  | _, progress, [] => .ok progress
  | poll, progress, file :: rest =>
    if cancelled poll then
      .ok { progress with result := { progress.result with cancelled := true } }
    else do
      ingestFiles cancelled (poll + 1) (← provider.ingestFile profile explicit progress file) rest

/-- `ingest`; without a mapping of the caller it is empty. -/
def ingest (discovery : DatasetDiscovery) (mapping : Option (InsertionDict String String))
    (cancelled : Nat → Bool) : Except Exc Progress := do
  let profile ← getSchemaProfile discovery.schemaProfile
  let progress ← provider.ingestFiles profile (mapping.getD .empty) cancelled 0 ⟨{}, []⟩
    discovery.files
  return { progress with reports := progress.reports ++ [progress.result] }

end LocalDatasetProvider

/-! ### Rows of CSV files -/

section Csv

variable {text : RowText} {row : CsvRow}

theorem getValue_ofCsv {column : String} :
    (SourceRow.ofCsv row).values.getValue column =
      (row.values.get? column).join.elim .null .str := by
  have hget : (SourceRow.ofCsv row).values.get? column =
      (row.values.get? column).map fun value => value.elim .null .str :=
    Entries.lookup_map fun value : Option String => value.elim Scalar.null Scalar.str
  rw [InsertionDict.getValue, hget]
  rcases row.values.get? column with _ | _ | value <;> rfl

theorem mapCells_ofCsv {mapping : InsertionDict String String} {source : SourceMetadata} :
    mapCells text (.ofCsv row) mapping source =
      OptionResearch.mapCells text row mapping source := by
  rw [mapCells, OptionResearch.mapCells]
  congr 1
  funext cells column
  rw [mapCell, getValue_ofCsv]
  cases (row.values.get? column.1).join <;> rfl

/-- A row of a CSV file is read as where all fields are texts. -/
theorem readRow_ofCsv {profile : SchemaProfile} {explicit : InsertionDict String String}
    {source : SourceMetadata} :
    readRow text profile explicit (.ofCsv row) source =
      OptionResearch.readRow text profile explicit row source := by
  have hmapping : resolveMapping text (.ofCsv row) profile explicit =
      OptionResearch.resolveMapping text row profile explicit := by
    simp only [resolveMapping, resolveColumns, SourceRow.ofCsv, List.map_map,
      OptionResearch.resolveMapping]
    rfl
  have hnormalize : ∀ mapping, normalizeRow text (.ofCsv row) mapping source =
      OptionResearch.normalizeRow text row mapping source := fun mapping => by
    simp only [normalizeRow, OptionResearch.normalizeRow, mapCells_ofCsv]
  rw [readRow, OptionResearch.readRow, hmapping]
  exact bind_congr fun mapping => congrArg (· >>= _) (hnormalize mapping)

end Csv

/-! ### Ingesting is sifting -/

section Sieve

variable (text : RowText) (profile : SchemaProfile) (explicit : InsertionDict String String)

/-- Where a row comes from. -/
def sourceOf (numbered : DiscoveredFile × SourceRow × Nat) : SourceMetadata :=
  ⟨numbered.1.path, numbered.1.checksum, numbered.2.2, profile.identifier⟩

/-- What becomes of a row: its record with the repairs, or what is set aside of it. -/
def outcome (numbered : DiscoveredFile × SourceRow × Nat) :
    Except (QuarantineRecord SourceRow) (IngestedRecord × List RepairRecord) :=
  match readRow text profile explicit numbered.2.1 (sourceOf profile numbered) with
  | .ok (record, repairs) => .ok (⟨record, sourceOf profile numbered⟩, repairs)
  | .error error => .error ⟨QuarantineReason.ofMessage error.message, error.message, numbered.2.1,
      sourceOf profile numbered⟩

/-- Records are told apart by their identity. -/
def rowSieve : Sieve Unit (DiscoveredFile × SourceRow × Nat) (IngestedRecord × List RepairRecord)
    (QuarantineRecord SourceRow) where
  read _ numbered := (outcome text profile explicit numbered).map fun entry => (entry, ())
  same entry earlier := sameIdentity entry.1.fields earlier.1.fields

/-- The result of sifted rows, after that many files. -/
def resultOf (fates : List (Fate (IngestedRecord × List RepairRecord) (QuarantineRecord SourceRow)))
    (filesProcessed : Nat) (cancelled : Bool) : IngestionResult where
  records := (fates.filterMap Fate.accepted?).map Prod.fst
  quarantine := fates.filterMap Fate.refused?
  repairs := (fates.filterMap Fate.accepted?).flatMap Prod.snd
  filesProcessed
  rowsProcessed := fates.length
  duplicates := (fates.filterMap Fate.duplicate?).length
  cancelled

section Fates

variable {fates : List (Fate (IngestedRecord × List RepairRecord) (QuarantineRecord SourceRow))}
  {entry : IngestedRecord × List RepairRecord} {files : Nat} {cancelled : Bool}

theorem resultOf_accepted :
    resultOf (fates ++ [.accepted entry]) files cancelled =
      { resultOf fates files cancelled with
        rowsProcessed := fates.length + 1
        records := (resultOf fates files cancelled).records ++ [entry.1]
        repairs := (resultOf fates files cancelled).repairs ++ entry.2 } := by
  simp [resultOf, List.filterMap_cons, Fate.accepted?, Fate.refused?, Fate.duplicate?]

theorem resultOf_duplicate :
    resultOf (fates ++ [.duplicate entry]) files cancelled =
      { resultOf fates files cancelled with
        rowsProcessed := fates.length + 1
        duplicates := (resultOf fates files cancelled).duplicates + 1 } := by
  simp [resultOf, List.filterMap_cons, Fate.accepted?, Fate.refused?, Fate.duplicate?]

theorem resultOf_refused {record : QuarantineRecord SourceRow} :
    resultOf (fates ++ [.refused record]) files cancelled =
      { resultOf fates files cancelled with
        rowsProcessed := fates.length + 1
        quarantine := (resultOf fates files cancelled).quarantine ++ [record] } := by
  simp [resultOf, List.filterMap_cons, Fate.accepted?, Fate.refused?, Fate.duplicate?]

end Fates

/-- The result of rows that were read. -/
def sifted (rows : List (DiscoveredFile × SourceRow × Nat)) (filesProcessed : Nat)
    (cancelled : Bool) : IngestionResult :=
  resultOf ((rowSieve text profile explicit).run () rows).fates filesProcessed cancelled

end Sieve

/-- The files that are no archives. -/
def tables (files : List DiscoveredFile) : List DiscoveredFile :=
  files.filter fun file => file.format ≠ .archive

theorem tables_cons (file : DiscoveredFile) (later : List DiscoveredFile) :
    tables (file :: later) = tables [file] ++ tables later :=
  List.filter_append [file] later

/-- The files that the loop comes to before the caller cancels. -/
def filesRead (cancelled : Nat → Bool) : Nat → List DiscoveredFile → List DiscoveredFile
  | _, [] => []
  | poll, file :: rest =>
    if cancelled poll then [] else file :: filesRead cancelled (poll + 1) rest

namespace LocalDatasetProvider

variable {provider : LocalDatasetProvider} {profile : SchemaProfile}
  {explicit : InsertionDict String String} {file : DiscoveredFile}
  {rows : List (DiscoveredFile × SourceRow × Nat)} {progress : Progress} {files : Nat}

/-- The rows of the tables, each with its file and its number there. -/
def numberedRows (provider : LocalDatasetProvider) (files : List DiscoveredFile) :
    List (DiscoveredFile × SourceRow × Nat) :=
  (tables files).flatMap fun file =>
    (provider.rowsOfFile file).1.map fun numbered => (file, numbered)

theorem numberedRows_cons (file : DiscoveredFile) (later : List DiscoveredFile) :
    provider.numberedRows (file :: later) =
      provider.numberedRows [file] ++ provider.numberedRows later := by
  rw [numberedRows, tables_cons, List.flatMap_append, numberedRows, numberedRows]

/-- What is raised on reading a row is set aside. -/
def Settles (provider : LocalDatasetProvider) (profile : SchemaProfile)
    (explicit : InsertionDict String String) (numbered : DiscoveredFile × SourceRow × Nat) : Prop :=
  ¬ Aborts (readRow provider.files.text profile explicit numbered.2.1 (sourceOf profile numbered))

theorem read_of_error (numbered : DiscoveredFile × SourceRow × Nat) {error : Exc} {text : RowText}
    (h : readRow text profile explicit numbered.2.1 (sourceOf profile numbered) = .error error) :
    (rowSieve text profile explicit).read () numbered =
      .error ⟨QuarantineReason.ofMessage error.message, error.message, numbered.2.1,
        sourceOf profile numbered⟩ := by
  simp only [rowSieve, outcome, h]
  rfl

theorem read_of_ok (numbered : DiscoveredFile × SourceRow × Nat) {record : Row}
    {repairs : List RepairRecord} {text : RowText}
    (h : readRow text profile explicit numbered.2.1 (sourceOf profile numbered) =
      .ok (record, repairs)) :
    (rowSieve text profile explicit).read () numbered =
      .ok ((⟨record, sourceOf profile numbered⟩, repairs), ()) := by
  simp only [rowSieve, outcome, h]
  rfl

/-- Ingesting a row is sifting it. -/
theorem ingestRow_sifted {cancelled : Bool} {numbered : SourceRow × Nat}
    (h : progress.result = sifted provider.files.text profile explicit rows files cancelled)
    (hrow : provider.Settles profile explicit (file, numbered)) :
    ∃ next, provider.ingestRow profile explicit file progress numbered = .ok next ∧
      next.result = sifted provider.files.text profile explicit (rows ++ [(file, numbered)]) files
        cancelled := by
  rw [Settles] at hrow
  simp only [sifted, Sieve.run_concat] at h ⊢
  generalize (rowSieve provider.files.text profile explicit).run () rows = before at h ⊢
  rw [ingestRow, h]
  cases hread : readRow provider.files.text profile explicit numbered.1
      (sourceOf profile (file, numbered)) with
  | error error =>
    have haside : SetsAside error := by
      by_contra haborts
      exact hrow ⟨error, hread, haborts⟩
    rw [Sieve.sift_error (read_of_error (file, numbered) hread), resultOf_refused]
    simp only [sourceOf] at hread ⊢
    simp only [hread, if_pos haside]
    exact ⟨_, rfl, rfl⟩
  | ok read =>
    obtain ⟨record, repairs⟩ := read
    have hentry := read_of_ok (file, numbered) hread
    have hseen : ((resultOf before.fates files cancelled).records.any fun earlier =>
        sameIdentity record earlier.fields) = (before.fates.filterMap Fate.accepted?).any
          ((rowSieve provider.files.text profile explicit).same
            (⟨record, sourceOf profile (file, numbered)⟩, repairs)) := by
      rw [resultOf, List.any_map]
      rfl
    simp only [sourceOf] at hread hentry hseen
    by_cases hany : ((resultOf before.fates files cancelled).records.any fun earlier =>
        sameIdentity record earlier.fields) = true
    · rw [Sieve.sift_seen hentry (hseen.symm.trans hany), resultOf_duplicate]
      simp only [hread, if_pos hany]
      exact ⟨_, rfl, rfl⟩
    · rw [Sieve.sift_new hentry (hseen ▸ hany), resultOf_accepted]
      simp only [hread, if_neg hany]
      exact ⟨_, rfl, rfl⟩

/-- The run over the rows of a file. -/
theorem foldlM_ingestRow_sifted {cancelled : Bool} {numbered : List (SourceRow × Nat)}
    (h : progress.result = sifted provider.files.text profile explicit rows files cancelled)
    (hrows : ∀ row ∈ numbered, provider.Settles profile explicit (file, row)) :
    ∃ next, numbered.foldlM (provider.ingestRow profile explicit file) progress = .ok next ∧
      next.result = sifted provider.files.text profile explicit
        (rows ++ numbered.map fun row => (file, row)) files cancelled := by
  induction numbered generalizing progress rows with
  | nil => exact ⟨progress, rfl, by rw [List.map_nil, List.append_nil, h]⟩
  | cons row rest ih =>
    rw [List.forall_mem_cons] at hrows
    obtain ⟨next, hnext, hresult⟩ := ingestRow_sifted h hrows.1
    obtain ⟨last, hlast, hlast'⟩ := ih hresult hrows.2
    refine ⟨last, ?_, by rw [hlast', List.map_cons, List.append_assoc, List.singleton_append]⟩
    rw [List.foldlM_cons, hnext]
    exact hlast

/-- A file can be read to its end, and what is raised on its rows is set aside. -/
def Readable (provider : LocalDatasetProvider) (profile : SchemaProfile)
    (explicit : InsertionDict String String) (file : DiscoveredFile) : Prop :=
  (provider.rowsOfFile file).2 = none ∧
    ∀ numbered ∈ (provider.rowsOfFile file).1, provider.Settles profile explicit (file, numbered)

theorem ingestFile_sifted {cancelled : Bool}
    (h : progress.result = sifted provider.files.text profile explicit rows files cancelled)
    (hfile : file.format ≠ .archive → provider.Readable profile explicit file) :
    ∃ next, provider.ingestFile profile explicit progress file = .ok next ∧
      next.result = sifted provider.files.text profile explicit
        (rows ++ provider.numberedRows [file]) (files + (tables [file]).length) cancelled := by
  unfold ingestFile
  by_cases harchive : file.format = .archive
  · have htables : tables [file] = [] := by simp [tables, harchive]
    refine ⟨progress, if_pos harchive, ?_⟩
    rw [h, numberedRows, htables, List.flatMap_nil, List.append_nil, List.length_nil, Nat.add_zero]
  · have htables : tables [file] = [file] := by simp [tables, harchive]
    obtain ⟨hend, hrows⟩ := hfile harchive
    obtain ⟨next, hnext, hresult⟩ := foldlM_ingestRow_sifted h hrows
    refine ⟨{ next with result :=
      { next.result with filesProcessed := next.result.filesProcessed + 1 } }, ?_, ?_⟩
    · rw [if_neg harchive, except_bind_eq_ok]
      exact ⟨next, hnext, by rw [hend]; rfl⟩
    · rw [hresult, numberedRows, htables, List.flatMap_singleton]
      rfl

theorem ingestFiles_sifted {cancelled : Nat → Bool} {poll : Nat} {listed : List DiscoveredFile}
    (h : progress.result = sifted provider.files.text profile explicit rows files false)
    (hfiles : ∀ file ∈ tables (filesRead cancelled poll listed),
      provider.Readable profile explicit file) :
    ∃ last, provider.ingestFiles profile explicit cancelled poll progress listed = .ok last ∧
      last.result = sifted provider.files.text profile explicit
        (rows ++ provider.numberedRows (filesRead cancelled poll listed))
        (files + (tables (filesRead cancelled poll listed)).length)
        (decide ((filesRead cancelled poll listed).length < listed.length)) := by
  induction listed generalizing progress rows files poll with
  | nil => exact ⟨progress, rfl, by simp [h, filesRead, numberedRows, tables]⟩
  | cons file rest ih =>
    rw [filesRead] at hfiles ⊢
    rw [ingestFiles]
    by_cases hcancelled : cancelled poll = true
    · rw [if_pos hcancelled, if_pos hcancelled]
      refine ⟨_, rfl, ?_⟩
      rw [h]
      simp [sifted, resultOf, numberedRows, tables]
    · rw [if_neg hcancelled] at hfiles
      rw [if_neg hcancelled, if_neg hcancelled]
      rw [tables_cons] at hfiles
      obtain ⟨next, hnext, hresult⟩ := ingestFile_sifted h fun hformat =>
        hfiles file (List.mem_append_left _ (List.mem_filter.mpr
          ⟨List.mem_singleton_self file, decide_eq_true hformat⟩))
      obtain ⟨last, hlast, hlast'⟩ := ih hresult fun other hother =>
        hfiles other (List.mem_append_right _ hother)
      refine ⟨last, ?_, ?_⟩
      · rw [except_bind_eq_ok]
        exact ⟨next, hnext, hlast⟩
      · rw [hlast', numberedRows_cons file (filesRead _ _ _), tables_cons file (filesRead _ _ _),
          List.length_append, List.append_assoc, Nat.add_assoc]
        simp only [List.length_cons, Nat.add_lt_add_iff_right]

/-- Where the profile is known and the tables can be read, the result is that of their rows. -/
theorem ingest_sifted {discovery : DatasetDiscovery}
    {mapping : Option (InsertionDict String String)} {cancelled : Nat → Bool}
    (hprofile : getSchemaProfile discovery.schemaProfile = .ok profile)
    (hfiles : ∀ file ∈ tables (filesRead cancelled 0 discovery.files),
      provider.Readable profile (mapping.getD .empty) file) :
    ∃ progress, provider.ingest discovery mapping cancelled = .ok progress ∧
      progress.result = sifted provider.files.text profile (mapping.getD .empty)
        (provider.numberedRows (filesRead cancelled 0 discovery.files))
        (tables (filesRead cancelled 0 discovery.files)).length
        (decide ((filesRead cancelled 0 discovery.files).length < discovery.files.length)) := by
  have hstart : (⟨{}, []⟩ : Progress).result =
      sifted provider.files.text profile (mapping.getD .empty) [] 0 false := rfl
  obtain ⟨last, hlast, hresult⟩ := ingestFiles_sifted hstart hfiles
  refine ⟨{ last with reports := last.reports ++ [last.result] }, ?_, ?_⟩
  · rw [ingest, hprofile]
    exact except_bind_eq_ok.mpr ⟨profile, rfl, except_bind_eq_ok.mpr ⟨last, hlast, rfl⟩⟩
  · rw [hresult, List.nil_append, Nat.zero_add]

end LocalDatasetProvider
end OptionResearch.TabularIngestion
