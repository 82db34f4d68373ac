import OptionResearch.RowIsolation
import OptionResearch.TabularRecords

/-!
# Every row of a table is accounted for

The rows of the tables are recorded, duplicates or set aside, the records are sound and are the
first ones of their identities, and the size of the chunks in which tables are read makes no
difference.
-/

namespace OptionResearch.TabularIngestion

/-! ### Identities -/

/-- The fields by which records are told apart. -/
def identityFields : List String :=
  ["symbol", "expiration", "strike", "option_type", "quote_timestamp"]

def identity (record : Row) : List Scalar := identityFields.map record.getValue

/-- A sound record is one of no other identity. -/
theorem sameIdentity_iff {record earlier : Row} (h : Sound record) :
    sameIdentity record earlier = true ↔ identity record = identity earlier := by
  have hnan : ∀ field ∈ identityFields, record.getValue field ≠ .float .nan := by
    obtain ⟨symbol, hsymbol, -⟩ := h.symbol
    obtain ⟨date, hdate⟩ := h.expiration
    obtain ⟨strike, hstrike, hpositive⟩ := h.strike
    obtain ⟨time, htime⟩ := h.quoteTime
    have hnumber : strike ≠ .nan := by
      rintro rfl
      cases hpositive
    have htype : record.getValue "option_type" ≠ .float .nan := fun heq => by
      have hmem := h.optionType
      rw [heq] at hmem
      exact absurd hmem (by decide)
    simp only [identityFields, List.forall_mem_cons, hsymbol, hdate, hstrike, htime]
    simp [htype, hnumber]
  rw [sameIdentity, identity, identity, List.map_inj_left, List.all_eq_true]
  exact forall₂_congr fun field hfield => Scalar.same_iff (hnan field hfield)

/-! ### The account -/

section Account

variable (text : RowText) (profile : SchemaProfile) (explicit : InsertionDict String String)
  (rows : List (DiscoveredFile × SourceRow × Nat))

/-- The records of the rows that are valid, with their repairs. -/
def validRows : List (IngestedRecord × List RepairRecord) :=
  rows.filterMap fun row => (outcome text profile explicit row).toOption

/-- The first valid row of each identity. -/
def keptRows : List (IngestedRecord × List RepairRecord) :=
  FirstOccurrences.firsts (fun entry => identity entry.1.fields)
    (validRows text profile explicit rows)

/-- What is set aside of the rows that are not valid. -/
def setAside : List (QuarantineRecord SourceRow) :=
  rows.filterMap fun row => match outcome text profile explicit row with
    | .ok _ => none
    | .error record => some record

/-- Every row is recorded, a duplicate or set aside; the records are the first valid ones of their
identities, the repairs are theirs, and all of them are sound. -/
structure Accounted (result : IngestionResult) : Prop where
  processed : result.rowsProcessed = rows.length
  counted : result.rowsProcessed =
    result.records.length + result.duplicates + result.quarantine.length
  distinct : (result.records.map fun record => identity record.fields).Nodup
  records : result.records = (keptRows text profile explicit rows).map Prod.fst
  repairs : result.repairs = (keptRows text profile explicit rows).flatMap Prod.snd
  quarantine : result.quarantine = setAside text profile explicit rows
  sound : ∀ record ∈ result.records, Sound record.fields

end Account

variable {text : RowText} {profile : SchemaProfile} {explicit : InsertionDict String String}
  {rows : List (DiscoveredFile × SourceRow × Nat)} {files : Nat} {cancelled : Bool}

theorem sound_of_mem_validRows (htext : WritesPlainly text)
    (hrows : ∀ row ∈ rows, row.2.1.Admissible text) {entry : IngestedRecord × List RepairRecord}
    (h : entry ∈ validRows text profile explicit rows) : Sound entry.1.fields := by
  obtain ⟨row, hrow, hentry⟩ := List.mem_filterMap.mp h
  rw [outcome] at hentry
  cases hread : readRow text profile explicit row.2.1 (sourceOf profile row) with
  | error error =>
    rw [hread] at hentry
    cases hentry
  | ok read =>
    rw [hread] at hentry
    cases hentry
    exact sound_of_readRow htext (hrows row hrow) hread

/-- The result of admissible rows accounts for them. -/
theorem accounted_sifted (htext : WritesPlainly text)
    (hrows : ∀ row ∈ rows, row.2.1.Admissible text) :
    Accounted text profile explicit rows (sifted text profile explicit rows files cancelled) := by
  have hread : ∀ row, (rowSieve text profile explicit).read () row =
      (outcome text profile explicit row).map fun entry => (entry, ()) := fun _ => rfl
  have hentries : rows.filterMap (rowSieve text profile explicit).entryOf =
      validRows text profile explicit rows := by
    refine List.filterMap_congr fun row _ => ?_
    rw [Sieve.entryOf, hread]
    cases outcome text profile explicit row <;> rfl
  have hrefusals : rows.filterMap (rowSieve text profile explicit).refusalOf =
      setAside text profile explicit rows := by
    refine List.filterMap_congr fun row _ => ?_
    rw [Sieve.refusalOf, hread]
    cases outcome text profile explicit row <;> rfl
  have haccepted : ((rowSieve text profile explicit).run () rows).fates.filterMap Fate.accepted? =
      keptRows text profile explicit rows := by
    rw [keptRows, ← hentries]
    refine Sieve.accepted_run fun entry hentry earlier _ => ?_
    exact sameIdentity_iff (sound_of_mem_validRows htext hrows (hentries ▸ hentry))
  have haccount := @Sieve.accounts_run _ _ _ _ (rowSieve text profile explicit) () rows
  have hlength := haccount.length_eq
  have hfates := haccount.fits.length_eq
  rw [haccepted] at hlength
  refine
    { processed := hfates.symm
      counted := ?_
      distinct := ?_
      records := by rw [sifted, resultOf, haccepted]
      repairs := by rw [sifted, resultOf, haccepted]
      quarantine := by rw [sifted, resultOf, Sieve.refused_run, hrefusals]
      sound := fun record hrecord => ?_ }
  · rw [sifted, resultOf, haccepted, List.length_map, ← hlength]
    exact hfates.symm
  · rw [sifted, resultOf, haccepted, List.map_map, List.Nodup, List.pairwise_map]
    exact FirstOccurrences.pairwise_firsts
  · rw [sifted, resultOf, haccepted] at hrecord
    obtain ⟨entry, hentry, rfl⟩ := List.mem_map.mp hrecord
    exact sound_of_mem_validRows htext hrows (FirstOccurrences.firsts_sublist.subset hentry)

/-! ### The size of the chunks -/

/-- The batches of a table hold the same rows in the same order, whatever their size. -/
def LocalFiles.BatchesAgree (files : LocalFiles) : Prop :=
  ∀ batches, files.batches = some batches → ∀ path size other, 0 < size → 0 < other →
    (batches size path).flatten = (batches other path).flatten

namespace LocalDatasetProvider

variable {provider other : LocalDatasetProvider}

theorem rowsOfFile_eq (hbatches : provider.files.BatchesAgree)
    (hother : other.files = provider.files) (file : DiscoveredFile) :
    other.rowsOfFile file = provider.rowsOfFile file := by
  rw [rowsOfFile, rowsOfFile, hother]
  cases hreader : provider.files.batches with
  | none => rfl
  | some batches =>
    dsimp only
    rw [hbatches batches hreader file.path other.chunkSize provider.chunkSize other.chunkSize_pos
      provider.chunkSize_pos]

theorem exists_init {files : LocalFiles} {chunkSize : Int} (h : 0 < chunkSize) :
    ∃ provider, init files chunkSize = .ok provider ∧ provider.files = files :=
  ⟨_, dif_neg (Int.not_le.mpr h), rfl⟩

/-- Where the profile is known, the tables can be read to their ends and their rows are admissible,
the ingestion returns with an account of the rows, and with chunks of any size the result is the
same. -/
theorem ingest_accounts (provider : LocalDatasetProvider) (discovery : DatasetDiscovery)
    (mapping : Option (InsertionDict String String)) (cancelled : Nat → Bool)
    (hprofile : getSchemaProfile discovery.schemaProfile = .ok profile)
    (htext : WritesPlainly provider.files.text) (hbatches : provider.files.BatchesAgree)
    (hrows : ∀ file ∈ tables (filesRead cancelled 0 discovery.files),
      (provider.rowsOfFile file).2 = none ∧
        ∀ numbered ∈ (provider.rowsOfFile file).1, numbered.1.Admissible provider.files.text) :
    ∃ progress, provider.ingest discovery mapping cancelled = .ok progress ∧
      Accounted provider.files.text profile (mapping.getD .empty)
        (provider.numberedRows (filesRead cancelled 0 discovery.files)) progress.result ∧
      ∀ chunkSize : Int, 0 < chunkSize → ∃ other reported,
        init provider.files chunkSize = .ok other ∧
          other.ingest discovery mapping cancelled = .ok reported ∧
          reported.result = progress.result := by
  have hreadable : ∀ other : LocalDatasetProvider, other.files = provider.files →
      ∀ file ∈ tables (filesRead cancelled 0 discovery.files),
        other.Readable profile (mapping.getD .empty) file := by
    intro other hother file hfile
    rw [Readable, rowsOfFile_eq hbatches hother]
    refine ⟨(hrows file hfile).1, fun numbered hnumbered => ?_⟩
    rw [Settles, hother]
    exact not_aborts_readRow htext ((hrows file hfile).2 numbered hnumbered)
  have hnumbered : ∀ other : LocalDatasetProvider, other.files = provider.files →
      other.numberedRows = provider.numberedRows := by
    intro other hother
    funext files
    simp only [numberedRows, rowsOfFile_eq hbatches hother]
  have hadmissible : ∀ row ∈ provider.numberedRows (filesRead cancelled 0 discovery.files),
      row.2.1.Admissible provider.files.text := by
    intro row hrow
    obtain ⟨file, hfile, hrow⟩ := List.mem_flatMap.mp hrow
    obtain ⟨numbered, hnumbered, rfl⟩ := List.mem_map.mp hrow
    exact (hrows file hfile).2 numbered hnumbered
  obtain ⟨progress, hingest, hresult⟩ := ingest_sifted hprofile (hreadable provider rfl)
  refine ⟨progress, hingest, hresult ▸ accounted_sifted htext hadmissible, fun size hsize => ?_⟩
  obtain ⟨other, hinit, hother⟩ := @exists_init provider.files size hsize
  obtain ⟨reported, hreported, hsame⟩ := ingest_sifted hprofile (hreadable other hother)
  rw [hother, hnumbered other hother, ← hresult] at hsame
  exact ⟨other, reported, hinit, hreported, hsame⟩

/-- A quote of a put, in a table of numbers. -/
def putRow : Row :=
  .ofEntries [("symbol", .str "AAPL"), ("expiration", .str "2026-01-16"), ("strike", .int 100),
    ("option_type", .str "P"), ("quote_timestamp", .str "2026-01-02T15:00:00Z")]

/-- A quote of a call and a row that ends after its symbol, and a put twice. -/
def twoTables : LocalDatasetProvider where
  files :=
    { text := quoteTexts
      contents := (quoteFile "AAPL,2026-01-16,100,C,2026-01-02T15:00:00Z\nAAPL\n").contents
      batches := some fun size _ => if size = 1 then [[putRow], [putRow]] else [[putRow, putRow]] }
  chunkSize := 2
  chunkSize_pos := Nat.two_pos

def threeFiles : DatasetDiscovery where
  files := [⟨"calls.csv", "0", .csv⟩, ⟨"puts.parquet", "1", .parquet⟩, ⟨"old.zip", "2", .archive⟩]
  schemaProfile := "generic_csv"

/-- Of four rows two are recorded; the callback is told after the second and at the end. -/
example : ((twoTables.ingest threeFiles none fun _ => false).toOption.map fun progress =>
    (progress.result.rowsProcessed, progress.result.records.length, progress.result.duplicates,
      progress.result.quarantine.length, progress.reports.length)) = some (4, 2, 1, 1, 2) := by
  decide +kernel

theorem plain_quoteTexts (s : String) : Plain quoteTexts s := by
  constructor
  · rw [quoteTexts]
    dsimp only
    split_ifs <;> simp
  · intro time htime
    rw [RowText.dateTime, quoteTexts] at htime
    dsimp only at htime
    split_ifs at htime
    cases htime
    simp [DateTime.OutOfRange, DateTime.instant]

/-- A field that is nothing, a text or an integer. -/
def noFloat : Scalar → Bool
  | .float _ => false
  | _ => true

theorem ingest_accounts_twoTables :
    ∃ progress, twoTables.ingest threeFiles none (fun _ => false) = .ok progress ∧
      Accounted quoteTexts (.standard "generic_csv") .empty
        (twoTables.numberedRows threeFiles.files) progress.result ∧
      ∀ chunkSize : Int, 0 < chunkSize → ∃ other reported,
        init twoTables.files chunkSize = .ok other ∧
          other.ingest threeFiles none (fun _ => false) = .ok reported ∧
          reported.result = progress.result := by
  have htext : WritesPlainly quoteTexts :=
    ⟨plain_quoteTexts _, fun n => plain_quoteTexts _, fun value => plain_quoteTexts _⟩
  have hbatches : twoTables.files.BatchesAgree := by
    rintro batches ⟨⟩ path size other - -
    dsimp only
    split_ifs <;> rfl
  have hfields : (tables threeFiles.files).all (fun file =>
      (twoTables.rowsOfFile file).2.isNone && (twoTables.rowsOfFile file).1.all fun numbered =>
        numbered.1.rest.isNone && numbered.1.values.entries.all fun entry => noFloat entry.2) =
          true := by
    decide +kernel
  refine ingest_accounts twoTables threeFiles none (fun _ => false) rfl htext hbatches
    fun file hfile => ?_
  have hfile := List.all_eq_true.mp hfields file hfile
  rw [Bool.and_eq_true, List.all_eq_true] at hfile
  refine ⟨Option.isNone_iff_eq_none.mp hfile.1, fun numbered hnumbered => ?_⟩
  have hrow := hfile.2 numbered hnumbered
  rw [Bool.and_eq_true, List.all_eq_true] at hrow
  refine ⟨Option.isNone_iff_eq_none.mp hrow.1, fun entry hentry => ?_⟩
  have hvalue := hrow.2 entry hentry
  generalize entry.2 = value at hvalue ⊢
  cases value with
  | null => trivial
  | str s => exact plain_quoteTexts _
  | int n => trivial
  | float number => cases hvalue

end LocalDatasetProvider

end OptionResearch.TabularIngestion
