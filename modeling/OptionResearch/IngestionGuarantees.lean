import OptionResearch.BulkIngestion

/-!
# Batched ingestion and one call per DTO

An ingestion that completes puts the deduplicated payload into its table; one call per DTO puts the
payload there. Under an upsert the rows are the same apart from the identifiers that the DTOs bring,
and ingesting the payload again changes nothing. Where an insert keeps the rows that are there, both
leave the row of a key that was present, and for a key that was not, the batched ingestion leaves
the last DTO and one call per DTO the first.
-/

namespace OptionResearch.BulkIngestion

open Effect KeyedTables

variable {D P K : Type} [DecidableEq P] [DecidableEq K]

/-! ### Deduplication and batches -/

omit [DecidableEq K] in
theorem assign_pairs (keyFn : D → P) (rows : List D) (item : D) :
    Entries.assign (keyFn item) item (rows.map fun row => (keyFn row, row)) =
      (put keyFn takeNew rows item).map fun row => (keyFn row, row) := by
  induction rows with
  | nil => rfl
  | cons row rest ih =>
    rw [List.map_cons, Entries.assign, put]
    by_cases hkey : keyFn row = keyFn item
    · rw [if_pos hkey, if_pos hkey]
      rfl
    · rw [if_neg hkey, if_neg hkey, ih]
      rfl

/-- The deduplication puts the payload into an empty table. -/
theorem dedupeByKey_eq (values : List D) (keyFn : D → P) :
    dedupeByKey values keyFn = putAll keyFn takeNew [] values := by
  suffices hfold : ∀ (dict : InsertionDict P D) (rows : List D),
      dict.entries = rows.map (fun row => (keyFn row, row)) →
      (values.foldl (fun indexByKey item => indexByKey.set (keyFn item) item) dict).values =
        putAll keyFn takeNew rows values from
    hfold InsertionDict.empty [] rfl
  induction values with
  | nil =>
    intro dict rows hentries
    change dict.entries.map Prod.snd = rows
    rw [hentries, List.map_map]
    exact List.map_id rows
  | cons item rest ih =>
    intro dict rows hentries
    apply ih
    rw [InsertionDict.entries_set, hentries, assign_pairs]

theorem mem_of_mem_dedupeByKey {values : List D} {keyFn : D → P} {dto : D}
    (h : dto ∈ dedupeByKey values keyFn) : dto ∈ values := by
  rw [dedupeByKey_eq] at h
  exact (mem_putAll_takeNew h).resolve_left List.not_mem_nil

theorem length_dedupeByKey_le (values : List D) (keyFn : D → P) :
    (dedupeByKey values keyFn).length ≤ values.length := by
  rw [dedupeByKey_eq]
  have hle : (putAll keyFn takeNew [] values).length ≤ ([] : List D).length + values.length :=
    length_putAll_le [] values
  rwa [List.length_nil, Nat.zero_add] at hle

theorem nodup_dedupeByKey (values : List D) (keyFn : D → P) :
    ((dedupeByKey values keyFn).map keyFn).Nodup := by
  have hnil : (([] : List D).map keyFn).Nodup := List.nodup_nil
  rw [dedupeByKey_eq]
  exact nodup_keys_putAll keepsKey_takeNew hnil values

omit [DecidableEq P] [DecidableEq K] in
/-- The first `n` windows are the first values. -/
theorem flatten_windows (values : List D) (size n : ℕ) :
    ((List.range n).map fun index => (values.drop (index * size)).take size).flatten =
      values.take (n * size) := by
  induction n with
  | zero => rw [Nat.zero_mul, List.take_zero]; rfl
  | succ n ih =>
    rw [List.range_succ, List.map_append, List.flatten_append, ih, Nat.succ_mul, List.take_add]
    rw [List.map_singleton, List.flatten_singleton]

omit [DecidableEq P] [DecidableEq K] in
/-- The batches are the values in their order. -/
theorem chunk_returns (values : List D) {chunkSize : Int} (hsize : 0 < chunkSize) :
    ∃ batches, chunk values chunkSize = .ok batches ∧ batches.flatten = values := by
  refine ⟨_, if_neg (not_le.mpr hsize), ?_⟩
  rw [flatten_windows]
  apply List.take_of_length_le
  have hpos : 0 < chunkSize.toNat := by omega
  split_ifs with hempty
  · rw [List.isEmpty_iff.mp hempty]
    exact Nat.zero_le _
  · have hdiv := Nat.div_add_mod (values.length + chunkSize.toNat - 1) chunkSize.toNat
    have hmod := Nat.mod_lt (values.length + chunkSize.toNat - 1) hpos
    rw [Nat.mul_comm]
    omega

/-! ### Payloads that a table takes -/

variable {ingestion : Ingestion D P K} {rows payload : List D} {merge : D → D → D}

/-- No check constraint refuses a row of the payload. -/
def Accepted (ingestion : Ingestion D P K) (payload : List D) : Prop :=
  ∀ dto ∈ payload, ingestion.table.accepts (ingestion.stored dto) = true

/-- A payload that the table takes: no check constraint refuses a row, every identifier belongs to
one key, and the deduplication and the table tell the keys of the payload apart alike. -/
structure Fits (ingestion : Ingestion D P K) (rows payload : List D) : Prop where
  accepted : Accepted ingestion payload
  oneKeyEach : OneKeyEach ingestion.table (rows ++ payload.map ingestion.stored)
  sameKeys : ∀ dto ∈ payload, ∀ other ∈ payload,
    ingestion.dedupeKey dto = ingestion.dedupeKey other ↔
      ingestion.table.key (ingestion.stored dto) = ingestion.table.key (ingestion.stored other)

/-- The rows of the deduplicated payload. -/
def dedupedRows (ingestion : Ingestion D P K) (payload : List D) : List D :=
  (dedupeByKey payload ingestion.dedupeKey).map ingestion.stored

omit [DecidableEq K] in
theorem dedupedRows_subset : dedupedRows ingestion payload ⊆ payload.map ingestion.stored :=
  List.map_subset _ fun _ => mem_of_mem_dedupeByKey

/-- Deduplicated by their own keys, the rows are the same. -/
theorem Fits.dedupedRows_eq (h : Fits ingestion rows payload) :
    dedupedRows ingestion payload =
      putAll ingestion.table.key takeNew [] (payload.map ingestion.stored) := by
  rw [dedupedRows, dedupeByKey_eq]
  exact map_putAll_nil h.sameKeys

/-- A report of a payload that was written. -/
def completed (ingestion : Ingestion D P K) (payload : List D) (issues : List ValidationIssue) :
    ImportResult :=
  { begun ingestion payload with
    processed := (dedupeByKey payload ingestion.dedupeKey).length
    insertedOrUpdated := (dedupeByKey payload ingestion.dedupeKey).length
    validationIssues := issues }

omit [DecidableEq K] in
theorem completed_accounts (payload : List D) (issues : List ValidationIssue) :
    (completed ingestion payload issues).requested =
      (completed ingestion payload issues).duplicatesDropped +
        (completed ingestion payload issues).processed +
        (completed ingestion payload issues).failed := by
  have hle := length_dedupeByKey_le payload ingestion.dedupeKey
  change payload.length = payload.length - (dedupeByKey payload ingestion.dedupeKey).length +
    (dedupeByKey payload ingestion.dedupeKey).length + 0
  omega

/-! ### What is written -/

omit [DecidableEq P] in
theorem exec_insertBatch (hmerge : KeepsKeys ingestion.table merge) {batch : List D}
    (haccepted : Accepted ingestion batch)
    (hone : OneKeyEach ingestion.table (rows ++ batch.map ingestion.stored)) :
    exec (insertBatch ingestion merge batch) rows =
      (.ok (), putAll ingestion.table.key merge rows (batch.map ingestion.stored)) := by
  cases batch with
  | nil => rfl
  | cons dto rest =>
    have hrows : insertRows ingestion.table integrityError merge rows
          ((dto :: rest).map ingestion.stored) =
        .ok (putAll ingestion.table.key merge rows ((dto :: rest).map ingestion.stored)) := by
      apply insertRows_eq_putAll hmerge _ hone
      intro row hrow
      obtain ⟨source, hsource, rfl⟩ := List.mem_map.mp hrow
      exact haccepted source hsource
    rw [insertBatch, List.isEmpty_cons, if_neg Bool.false_ne_true, exec_get_bind, exec_raising_bind,
      hrows]
    rfl

omit [DecidableEq P] in
/-- The loop over the batches writes them in their order and counts them. -/
theorem exec_batches (hmerge : KeepsKeys ingestion.table merge) {batches : List (List D)}
    (haccepted : Accepted ingestion batches.flatten)
    (hone : OneKeyEach ingestion.table (rows ++ batches.flatten.map ingestion.stored))
    (result : ImportResult) :
    exec (batches.foldlM (fun result batch => do
        insertBatch ingestion merge batch
        return { result with
          processed := result.processed + batch.length
          insertedOrUpdated := result.insertedOrUpdated + batch.length }) result) rows =
      (.ok { result with
          processed := result.processed + batches.flatten.length
          insertedOrUpdated := result.insertedOrUpdated + batches.flatten.length },
        putAll ingestion.table.key merge rows (batches.flatten.map ingestion.stored)) := by
  induction batches generalizing rows result with
  | nil => rfl
  | cons batch rest ih =>
    rw [List.flatten_cons] at haccepted hone ⊢
    rw [List.map_append] at hone ⊢
    have hfirst : OneKeyEach ingestion.table (rows ++ batch.map ingestion.stored) := by
      apply hone.subset
      rw [← List.append_assoc]
      exact List.subset_append_left _ _
    have hbatch := exec_insertBatch hmerge
      (fun dto hdto => haccepted dto (List.mem_append_left _ hdto)) hfirst
    have hrest := ih (fun dto hdto => haccepted dto (List.mem_append_right _ hdto))
      (hone.putAll hmerge)
    rw [List.foldlM_cons, bind_assoc, exec_bind_of_ok hbatch, pure_bind, hrest, putAll_append,
      List.length_append, Nat.add_assoc, Nat.add_assoc]

/-- A payload that fits is put into the table and reported. -/
theorem exec_writeBatches (hmerge : KeepsKeys ingestion.table merge)
    (hfits : Fits ingestion rows payload) {batchSize : Int} (hsize : 0 < batchSize)
    (issues : List ValidationIssue) :
    exec (writeBatches (insertBatch ingestion merge) batchSize
        (dedupeByKey payload ingestion.dedupeKey)
        { begun ingestion payload with validationIssues := issues }) rows =
      (.ok (completed ingestion payload issues),
        putAll ingestion.table.key merge rows (dedupedRows ingestion payload)) := by
  obtain ⟨batches, hchunk, hflatten⟩ :=
    chunk_returns (dedupeByKey payload ingestion.dedupeKey) hsize
  have haccepted : Accepted ingestion batches.flatten := by
    intro dto hdto
    rw [hflatten] at hdto
    exact hfits.accepted dto (mem_of_mem_dedupeByKey hdto)
  have hone : OneKeyEach ingestion.table (rows ++ batches.flatten.map ingestion.stored) := by
    apply hfits.oneKeyEach.subset
    rw [hflatten]
    exact List.append_subset.mpr ⟨List.subset_append_left _ _,
      List.Subset.trans dedupedRows_subset (List.subset_append_right _ _)⟩
  rw [writeBatches, exec_raising_bind, hchunk]
  refine (exec_batches hmerge haccepted hone _).trans ?_
  rw [hflatten]
  simp only [completed, begun, dedupedRows, Nat.zero_add]

omit [DecidableEq P] [DecidableEq K] in
theorem exec_sessionScope_of_ok {α : Type} {body : Session D α} {a : α} {after : List D}
    (h : exec body rows = (.ok a, after)) : exec (sessionScope body) rows = (.ok a, after) := by
  rw [sessionScope, exec_get_bind, exec_tryCatch, h]

/-! ### Completed ingestions -/

/-- What an ingestion does with a payload that fits and whose DTOs pass its validation. -/
def Ingests (ingestion : Ingestion D P K) (merge : D → D → D) (Valid : D → Prop)
    (ingest : List D → Session D ImportResult) : Prop :=
  ∀ rows payload, Fits ingestion rows payload → (∀ dto ∈ payload, Valid dto) →
    ∃ issues, exec (ingest payload) rows =
      (.ok (completed ingestion payload issues),
        putAll ingestion.table.key merge rows (dedupedRows ingestion payload))

/-- One call per DTO, in the order of the payload. -/
def oneByOne (ingest : List D → Session D ImportResult) (payload : List D) : Session D Unit :=
  forM payload fun dto => discard (ingest [dto])

variable {Valid : D → Prop} {ingest : List D → Session D ImportResult}

omit [DecidableEq P] [DecidableEq K] in
theorem Fits.head {dto : D} {rest : List D} (h : Fits ingestion rows (dto :: rest)) :
    Fits ingestion rows [dto] where
  accepted other hother := by
    rw [List.mem_singleton.mp hother]
    exact h.accepted dto List.mem_cons_self
  oneKeyEach := h.oneKeyEach.subset (by simp)
  sameKeys other hother another hanother := by
    rw [List.mem_singleton.mp hother, List.mem_singleton.mp hanother]
    exact iff_of_true rfl rfl

omit [DecidableEq P] in
theorem Fits.tail {dto : D} {rest : List D} (hmerge : KeepsKeys ingestion.table merge)
    (h : Fits ingestion rows (dto :: rest)) :
    Fits ingestion (put ingestion.table.key merge rows (ingestion.stored dto)) rest where
  accepted other hother := h.accepted other (List.mem_cons_of_mem _ hother)
  oneKeyEach := by
    have hone : OneKeyEach ingestion.table
        (rows ++ ([ingestion.stored dto] ++ rest.map ingestion.stored)) := h.oneKeyEach
    exact hone.putAll hmerge
  sameKeys other hother another hanother :=
    h.sameKeys other (List.mem_cons_of_mem _ hother) another (List.mem_cons_of_mem _ hanother)

/-- One call per DTO puts the payload as it is. -/
theorem exec_oneByOne (hmerge : KeepsKeys ingestion.table merge)
    (hingests : Ingests ingestion merge Valid ingest) (hfits : Fits ingestion rows payload)
    (hvalid : ∀ dto ∈ payload, Valid dto) :
    exec (oneByOne ingest payload) rows =
      (.ok (), putAll ingestion.table.key merge rows (payload.map ingestion.stored)) := by
  induction payload generalizing rows with
  | nil => rfl
  | cons dto rest ih =>
    obtain ⟨issues, hfirst⟩ := hingests rows [dto] hfits.head fun other hother => by
      rw [List.mem_singleton.mp hother]
      exact hvalid dto List.mem_cons_self
    have hcall : exec (discard (ingest [dto])) rows =
        (.ok (), put ingestion.table.key merge rows (ingestion.stored dto)) := by
      change exec (ingest [dto] >>= fun _ => pure ()) rows = _
      rw [exec_bind_of_ok hfirst]
      rfl
    rw [oneByOne, List.forM_cons, exec_bind_of_ok hcall]
    exact ih (hfits.tail hmerge) fun other hother => hvalid other (List.mem_cons_of_mem _ hother)

/-! ### Upserts -/

/-- The batched ingestion returns; apart from the identifiers that an upsert leaves, its rows are
those of one call per DTO, and each key has its last DTO, or its row where no DTO has the key. The
report adds up, and ingesting the payload again changes nothing. -/
def MatchesOneByOne (ingestion : Ingestion D P K) (ingest : List D → Session D ImportResult)
    (rows payload : List D) : Prop :=
  ∃ result after singly again,
    exec (ingest payload) rows = (.ok result, after) ∧
    exec (oneByOne ingest payload) rows = (.ok (), singly) ∧
    after.map ingestion.apart = singly.map ingestion.apart ∧
    (∀ k, (rowOf ingestion.table.key k after).map ingestion.apart =
      ((rowOf ingestion.table.key k (payload.map ingestion.stored).reverse).or
        (rowOf ingestion.table.key k rows)).map ingestion.apart) ∧
    result.requested = payload.length ∧
    result.requested = result.duplicatesDropped + result.processed + result.failed ∧
    exec (ingest payload) after = (.ok again, after)

omit [DecidableEq P] in
/-- Seen apart from the identifiers, an upsert takes the new row. -/
theorem map_apart_putAll (rows news : List D) :
    (putAll ingestion.table.key ingestion.table.overwrite rows news).map ingestion.apart =
      putAll ingestion.table.key takeNew (rows.map ingestion.apart) (news.map ingestion.apart) :=
  map_putAll ingestion.key_apart ingestion.apart_overwrite rows news

/-- The rows of a deduplicated payload are, apart from the identifiers, those of the payload. -/
theorem Fits.map_apart_dedupedRows (h : Fits ingestion rows payload) :
    (putAll ingestion.table.key ingestion.table.overwrite rows
        (dedupedRows ingestion payload)).map ingestion.apart =
      putAll ingestion.table.key takeNew (rows.map ingestion.apart)
        ((payload.map ingestion.stored).map ingestion.apart) := by
  have hview : (dedupedRows ingestion payload).map ingestion.apart =
      putAll ingestion.table.key takeNew [] ((payload.map ingestion.stored).map ingestion.apart) := by
    rw [h.dedupedRows_eq]
    exact map_putAll_nil fun row _ other _ => by rw [ingestion.key_apart, ingestion.key_apart]
  rw [map_apart_putAll, hview, putAll_putAll_takeNew]

/-- The keys of the deduplicated rows differ. -/
theorem Fits.nodup_dedupedRows (h : Fits ingestion rows payload) :
    ((dedupedRows ingestion payload).map ingestion.table.key).Nodup := by
  have hnil : (([] : List D).map ingestion.table.key).Nodup := List.nodup_nil
  rw [h.dedupedRows_eq]
  exact nodup_keys_putAll keepsKey_takeNew hnil _

/-- A second upsert of the same rows changes nothing. -/
theorem Fits.upsert_again (h : Fits ingestion rows payload) :
    putAll ingestion.table.key ingestion.table.overwrite
        (putAll ingestion.table.key ingestion.table.overwrite rows (dedupedRows ingestion payload))
        (dedupedRows ingestion payload) =
      putAll ingestion.table.key ingestion.table.overwrite rows
        (dedupedRows ingestion payload) := by
  apply putAll_eq_self
  intro new hnew
  -- apart from the identifiers the row of the key is the deduplicated one
  have hrow : rowOf ingestion.table.key (ingestion.table.key new)
      ((putAll ingestion.table.key ingestion.table.overwrite rows
        (dedupedRows ingestion payload)).map ingestion.apart) = some (ingestion.apart new) := by
    have hlast : rowOf ingestion.table.key (ingestion.table.key new)
        (dedupedRows ingestion payload).reverse = some new := by
      apply rowOf_of_mem _ (List.mem_reverse.mpr hnew)
      rw [List.map_reverse]
      exact List.nodup_reverse.mpr h.nodup_dedupedRows
    rw [map_apart_putAll, rowOf_putAll_takeNew, ← List.map_reverse,
      rowOf_map ingestion.key_apart, hlast]
    rfl
  rw [rowOf_map ingestion.key_apart, Option.map_eq_some_iff] at hrow
  obtain ⟨old, hold, hsame⟩ := hrow
  have hkey : ingestion.table.key old = ingestion.table.key new := by
    rw [← ingestion.key_apart old, hsame, ingestion.key_apart]
  exact ⟨old, hold, ingestion.overwrite_of_apart old new hkey hsame⟩

/-- After the ingestion the payload still fits. -/
theorem Fits.after (hmerge : KeepsKeys ingestion.table merge) (h : Fits ingestion rows payload) :
    Fits ingestion (putAll ingestion.table.key merge rows (dedupedRows ingestion payload))
      payload where
  accepted := h.accepted
  oneKeyEach := by
    have hone : OneKeyEach ingestion.table
        (rows ++ (dedupedRows ingestion payload ++ payload.map ingestion.stored)) := by
      apply h.oneKeyEach.subset
      refine List.append_subset.mpr ⟨List.subset_append_left _ _, List.append_subset.mpr ⟨?_, ?_⟩⟩
      · exact List.Subset.trans dedupedRows_subset (List.subset_append_right _ _)
      · exact List.subset_append_right _ _
    exact hone.putAll hmerge
  sameKeys := h.sameKeys

theorem matchesOneByOne (hingests : Ingests ingestion ingestion.table.overwrite Valid ingest)
    (hfits : Fits ingestion rows payload) (hvalid : ∀ dto ∈ payload, Valid dto) :
    MatchesOneByOne ingestion ingest rows payload := by
  obtain ⟨issues, hbatched⟩ := hingests rows payload hfits hvalid
  obtain ⟨issues', hagain⟩ := hingests _ payload (hfits.after ingestion.keepsKeys) hvalid
  rw [hfits.upsert_again] at hagain
  refine ⟨_, _, _, _, hbatched, exec_oneByOne ingestion.keepsKeys hingests hfits hvalid, ?_, ?_,
    rfl, completed_accounts payload issues, hagain⟩
  · rw [hfits.map_apart_dedupedRows, map_apart_putAll]
  · intro k
    rw [← rowOf_map ingestion.key_apart, hfits.map_apart_dedupedRows, rowOf_putAll_takeNew,
      ← List.map_reverse, rowOf_map ingestion.key_apart, rowOf_map ingestion.key_apart,
      Option.map_or]

/-! ### Validation of a payload -/

/-- The DTO passes the validation of a payload of which it is the only one. -/
def Passes (validate : List D → Except Exc ValidationSummary) (dto : D) : Prop :=
  Returns (fun summary => summary.valid = true) (validate [dto])

omit [DecidableEq P] in
theorem issuesOf_eq_nil {keyFn : D → P} {issues : List P → D → Except Exc (List ValidationIssue)}
    {dtos : List D} {seen : List P}
    (hissues : ∀ seen, ∀ dto ∈ dtos, keyFn dto ∉ seen → issues seen dto = .ok [])
    (hseen : ∀ dto ∈ dtos, keyFn dto ∉ seen) (hnodup : (dtos.map keyFn).Nodup) :
    issuesOf keyFn issues seen dtos = .ok [] := by
  induction dtos generalizing seen with
  | nil => rfl
  | cons dto rest ih =>
    rw [List.map_cons, List.nodup_cons] at hnodup
    rw [issuesOf, hissues seen dto List.mem_cons_self (hseen dto List.mem_cons_self)]
    have hrest : issuesOf keyFn issues (seen ++ [keyFn dto]) rest = .ok [] := by
      refine ih (fun seen other hother => hissues seen other (List.mem_cons_of_mem _ hother)) ?_
        hnodup.2
      intro other hother hmem
      rcases List.mem_append.mp hmem with hbefore | hlast
      · exact hseen other (List.mem_cons_of_mem _ hother) hbefore
      · exact hnodup.1 (List.mem_singleton.mp hlast ▸ List.mem_map_of_mem hother)
    change (issuesOf keyFn issues (seen ++ [keyFn dto]) rest >>= fun later => pure ([] ++ later)) = _
    rw [hrest]
    rfl

omit [DecidableEq P] in
/-- A DTO that passes alone has no issues of its own. -/
theorem Passes.issues_eq_nil {keyFn : D → P}
    {issues : List P → D → Except Exc (List ValidationIssue)}
    {validate : List D → Except Exc ValidationSummary}
    (hvalidate : ∀ dtos, validate dtos = (return summarize (← issuesOf keyFn issues [] dtos)))
    {dto : D} (h : Passes validate dto) : issues [] dto = .ok [] := by
  obtain ⟨summary, hsummary, hvalid⟩ := h
  rw [hvalidate] at hsummary
  obtain ⟨found, hfound, hsummary⟩ := except_bind_eq_ok.mp hsummary
  cases hsummary
  obtain ⟨own, hown, hfound⟩ := except_bind_eq_ok.mp hfound
  obtain ⟨later, hlater, hfound⟩ := except_bind_eq_ok.mp hfound
  cases hlater
  cases hfound
  have hempty : own ++ [] = [] := List.isEmpty_iff.mp hvalid
  rw [List.append_nil] at hempty
  rw [hown, hempty]

/-- An ingestion that validates its deduplicated payload first. -/
theorem ingests_validated (hmerge : KeepsKeys ingestion.table merge)
    {issues : List P → D → Except Exc (List ValidationIssue)}
    {validate : List D → Except Exc ValidationSummary}
    (hvalidate : ∀ dtos,
      validate dtos = (return summarize (← issuesOf ingestion.dedupeKey issues [] dtos)))
    (hissues : ∀ seen dto, ingestion.dedupeKey dto ∉ seen → issues seen dto = issues [] dto)
    {duplicates : ValidationIssue} {policy : UpsertPolicy} {config : IngestionConfig}
    (hsize : 0 < config.batchSize)
    (hpolicy : (if policy = .insertOnly then batchInsertOnly ingestion else batchUpsert ingestion) =
      insertBatch ingestion merge) :
    Ingests ingestion merge (Passes validate)
      (validatedIngest ingestion validate duplicates policy config) := by
  intro rows payload hfits hpasses
  have hvalid : validate (dedupeByKey payload ingestion.dedupeKey) = .ok ⟨true, []⟩ := by
    have hnone : issuesOf ingestion.dedupeKey issues []
        (dedupeByKey payload ingestion.dedupeKey) = .ok [] := by
      refine issuesOf_eq_nil (fun seen dto hdto hseen => ?_) (fun _ _ => List.not_mem_nil)
        (nodup_dedupeByKey payload ingestion.dedupeKey)
      rw [hissues seen dto hseen]
      exact (hpasses dto (mem_of_mem_dedupeByKey hdto)).issues_eq_nil hvalidate
    rw [hvalidate, hnone]
    rfl
  refine ⟨(if (begun ingestion payload).duplicatesDropped ≠ 0 then [duplicates] else []) ++ [], ?_⟩
  rw [validatedIngest, exec_raising_bind, hvalid]
  simp only [if_true]
  rw [hpolicy]
  exact exec_sessionScope_of_ok (exec_writeBatches hmerge hfits hsize _)

theorem contractIssues_of_not_mem (seen : List (Int × String)) (contract : OptionContractDTO)
    (h : contractsIngestion.dedupeKey contract ∉ seen) :
    contractIssues seen contract = contractIssues [] contract := by
  have hseen : seen.contains (contract.providerId, contract.providerContractId) = false := by
    rw [Bool.eq_false_iff, ne_eq, List.contains_iff_mem]
    exact h
  rw [contractIssues, contractIssues, hseen]
  rfl

theorem manifestIssues_of_not_mem (seen : List (Int × String × String))
    (manifest : DatasetManifestDTO) (h : manifestsIngestion.dedupeKey manifest ∉ seen) :
    manifestIssues seen manifest = manifestIssues [] manifest := by
  have hseen : seen.contains
      (manifest.providerId, manifest.datasetName, manifest.datasetVersion) = false := by
    rw [Bool.eq_false_iff, ne_eq, List.contains_iff_mem]
    exact h
  rw [manifestIssues, manifestIssues, hseen]
  rfl

/-- The quote passes the validation of a payload of which it is the only one. -/
def QuotePasses (contractProvider manifestProvider : Int → Option Int) (quote : OptionQuoteDTO) :
    Prop :=
  (validateQuotes contractProvider manifestProvider [quote]).valid = true

theorem ingests_quotes {merge : OptionQuoteDTO → OptionQuoteDTO → OptionQuoteDTO}
    (hmerge : KeepsKeys quotesIngestion.table merge)
    (contractProvider manifestProvider : Int → Option Int) {config : IngestionConfig}
    (hsize : 0 < config.batchSize)
    (hpolicy : (if config.quotePolicy = .insertOnly then batchInsertOnly quotesIngestion
      else batchUpsert quotesIngestion) = insertBatch quotesIngestion merge) :
    Ingests quotesIngestion merge (QuotePasses contractProvider manifestProvider)
      (ingestQuotes contractProvider manifestProvider config) := by
  intro rows payload hfits hpasses
  have hvalid : validateQuotes contractProvider manifestProvider
      (dedupeByKey payload quotesIngestion.dedupeKey) = ⟨true, []⟩ := by
    have hnone : (dedupeByKey payload quotesIngestion.dedupeKey).flatMap
        (quoteIssues contractProvider manifestProvider) = [] := by
      rw [List.flatMap_eq_nil_iff]
      intro quote hquote
      have hempty := List.isEmpty_iff.mp (hpasses quote (mem_of_mem_dedupeByKey hquote))
      rwa [List.flatMap_singleton] at hempty
    rw [validateQuotes, hnone]
    rfl
  refine ⟨[], exec_sessionScope_of_ok ?_⟩
  rw [hvalid]
  simp only [if_true]
  rw [hpolicy]
  exact exec_writeBatches hmerge hfits hsize []

theorem ingests_generic {config : IngestionConfig} (hsize : 0 < config.batchSize) :
    Ingests ingestion ingestion.table.overwrite (fun _ => True)
      (genericIngest ingestion config) := by
  intro rows payload hfits _
  exact ⟨[], exec_sessionScope_of_ok (exec_writeBatches ingestion.keepsKeys hfits hsize [])⟩

theorem ingests_contracts {merge : OptionContractDTO → OptionContractDTO → OptionContractDTO}
    (hmerge : KeepsKeys contractsIngestion.table merge) (config : IngestionConfig)
    (hsize : 0 < config.batchSize)
    (hpolicy : (if config.contractPolicy = .insertOnly then batchInsertOnly contractsIngestion
      else batchUpsert contractsIngestion) = insertBatch contractsIngestion merge) :
    Ingests contractsIngestion merge (Passes validateContracts) (ingestContracts config) :=
  ingests_validated hmerge (fun _ => rfl) contractIssues_of_not_mem hsize hpolicy

theorem ingests_manifests {merge : DatasetManifestDTO → DatasetManifestDTO → DatasetManifestDTO}
    (hmerge : KeepsKeys manifestsIngestion.table merge) (config : IngestionConfig)
    (hsize : 0 < config.batchSize)
    (hpolicy : (if config.manifestPolicy = .insertOnly then batchInsertOnly manifestsIngestion
      else batchUpsert manifestsIngestion) = insertBatch manifestsIngestion merge) :
    Ingests manifestsIngestion merge (Passes validateManifests) (ingestManifests config) :=
  ingests_validated hmerge (fun _ => rfl) manifestIssues_of_not_mem hsize hpolicy

/-! ### The ingestions under upserts -/

omit [DecidableEq P] [DecidableEq K] in
/-- A payload of DTOs without identifiers fits where no check constraint refuses a row. -/
theorem fits_of_accepted (hprimary : ∀ row, ingestion.table.primary row = none)
    (hkey : ∀ dto other, ingestion.dedupeKey dto = ingestion.dedupeKey other ↔
      ingestion.table.key (ingestion.stored dto) = ingestion.table.key (ingestion.stored other))
    (haccepted : Accepted ingestion payload) : Fits ingestion rows payload where
  accepted := haccepted
  oneKeyEach row _ _ _ hsome := by rw [hprimary] at hsome; cases hsome
  sameKeys dto _ other _ := hkey dto other

theorem fits_contracts {rows payload : List OptionContractDTO}
    (h : Accepted contractsIngestion payload) : Fits contractsIngestion rows payload :=
  fits_of_accepted (fun _ => rfl) (fun _ _ => Iff.rfl) h

theorem fits_manifests (rows payload : List DatasetManifestDTO) :
    Fits manifestsIngestion rows payload :=
  fits_of_accepted (fun _ => rfl) (fun _ _ => Iff.rfl) fun _ _ => rfl

theorem upsert_matchesOneByOne (config : IngestionConfig) (hsize : 0 < config.batchSize)
    (hcontracts : config.contractPolicy = .upsert) (hquotes : config.quotePolicy = .upsert)
    (hmanifests : config.manifestPolicy = .upsert)
    (contractProvider manifestProvider : Int → Option Int) :
    (∀ rows payload, Fits pricesIngestion rows payload →
      MatchesOneByOne pricesIngestion (ingestUnderlyingPrices config) rows payload) ∧
    (∀ rows payload, Accepted dividendsIngestion payload →
      MatchesOneByOne dividendsIngestion (ingestDividends config) rows payload) ∧
    (∀ rows payload,
      MatchesOneByOne earningsIngestion (ingestEarnings config) rows payload) ∧
    (∀ rows payload,
      MatchesOneByOne corporateActionsIngestion (ingestCorporateActions config) rows payload) ∧
    (∀ rows payload, Accepted interestRatesIngestion payload →
      MatchesOneByOne interestRatesIngestion (ingestInterestRateCurves config) rows payload) ∧
    (∀ rows payload, Accepted contractsIngestion payload →
      (∀ dto ∈ payload, Passes validateContracts dto) →
      MatchesOneByOne contractsIngestion (ingestContracts config) rows payload) ∧
    (∀ rows payload, Fits quotesIngestion rows payload →
      (∀ dto ∈ payload, QuotePasses contractProvider manifestProvider dto) →
      MatchesOneByOne quotesIngestion (ingestQuotes contractProvider manifestProvider config)
        rows payload) ∧
    ∀ rows payload, (∀ dto ∈ payload, Passes validateManifests dto) →
      MatchesOneByOne manifestsIngestion (ingestManifests config) rows payload := by
  refine ⟨?_, ?_, ?_, ?_, ?_, ?_, ?_, ?_⟩
  · intro rows payload hfits
    exact matchesOneByOne (ingests_generic hsize) hfits fun _ _ => trivial
  · intro rows payload haccepted
    have hfits : Fits dividendsIngestion rows payload :=
      fits_of_accepted (fun _ => rfl) (fun _ _ => Iff.rfl) haccepted
    exact matchesOneByOne (ingests_generic hsize) hfits fun _ _ => trivial
  · intro rows payload
    have hfits : Fits earningsIngestion rows payload :=
      fits_of_accepted (fun _ => rfl) (fun _ _ => Iff.rfl) fun _ _ => rfl
    exact matchesOneByOne (ingests_generic hsize) hfits fun _ _ => trivial
  · intro rows payload
    have hfits : Fits corporateActionsIngestion rows payload :=
      fits_of_accepted (fun _ => rfl) (fun _ _ => Iff.rfl) fun _ _ => rfl
    exact matchesOneByOne (ingests_generic hsize) hfits fun _ _ => trivial
  · intro rows payload haccepted
    have hfits : Fits interestRatesIngestion rows payload :=
      fits_of_accepted (fun _ => rfl) (fun _ _ => Iff.rfl) haccepted
    exact matchesOneByOne (ingests_generic hsize) hfits fun _ _ => trivial
  · intro rows payload haccepted hpasses
    have hingests := ingests_contracts contractsIngestion.keepsKeys config hsize
      (by rw [hcontracts]; rfl)
    exact matchesOneByOne hingests (fits_contracts haccepted) hpasses
  · intro rows payload hfits hpasses
    have hingests := ingests_quotes quotesIngestion.keepsKeys contractProvider manifestProvider
      hsize (by rw [hquotes]; rfl)
    exact matchesOneByOne hingests hfits hpasses
  · intro rows payload hpasses
    have hingests := ingests_manifests manifestsIngestion.keepsKeys config hsize
      (by rw [hmanifests]; rfl)
    exact matchesOneByOne hingests (fits_manifests rows payload) hpasses

/-- A price of one underlying. -/
def priceAt (id : Int) (priceTimestamp : DateTime) (price : ℚ) : UnderlyingPriceDTO where
  id := id
  underlyingId := 1
  priceTimestamp := priceTimestamp
  price := price
  providerId := 1
  manifestId := 1

/-- A key that comes twice, with another price. -/
def repriced : List UnderlyingPriceDTO := [priceAt 1 ⟨0, some 0⟩ 10, priceAt 1 ⟨0, some 0⟩ 11]

theorem upsert_matchesOneByOne_repriced :
    MatchesOneByOne pricesIngestion (ingestUnderlyingPrices {}) [] repriced :=
  (upsert_matchesOneByOne {} (by decide) rfl rfl rfl (fun _ => none) fun _ => none).1 [] repriced
    { accepted := by unfold Accepted; decide
      oneKeyEach := by unfold OneKeyEach; decide
      sameKeys := by decide }

/-- An identifier that is left by an upsert, a price that a check constraint refuses, and a moment
read off two clocks each part the two ingestions. -/
theorem not_upsert_eq_oneByOne :
    (exec (ingestUnderlyingPrices {} [priceAt 1 ⟨0, some 0⟩ 10, priceAt 2 ⟨0, some 0⟩ 11]) []).2 ≠
      (exec (oneByOne (ingestUnderlyingPrices {})
        [priceAt 1 ⟨0, some 0⟩ 10, priceAt 2 ⟨0, some 0⟩ 11]) []).2 ∧
    (exec (ingestUnderlyingPrices {} [priceAt 1 ⟨0, some 0⟩ 10, priceAt 2 ⟨1, some 0⟩ (-1)]) []).2 ≠
      (exec (oneByOne (ingestUnderlyingPrices {})
        [priceAt 1 ⟨0, some 0⟩ 10, priceAt 2 ⟨1, some 0⟩ (-1)]) []).2 ∧
    (exec (ingestUnderlyingPrices {} [priceAt 1 ⟨0, some 0⟩ 10, priceAt 2 ⟨60, some 60⟩ 11]) []).2 ≠
      (exec (oneByOne (ingestUnderlyingPrices {})
        [priceAt 1 ⟨0, some 0⟩ 10, priceAt 2 ⟨60, some 60⟩ 11]) []).2 := by
  decide +kernel

/-! ### Inserts that keep what is there -/

/-- The batched ingestion and one call per DTO both return and keep the rows of the keys that were
present. For an absent key the first stores the last DTO, the second the first one, and the rows are
the same exactly where these two agree for every absent key. -/
def StoresLastOfAbsentKeys (ingestion : Ingestion D P K)
    (ingest : List D → Session D ImportResult) (rows payload : List D) : Prop :=
  ∃ result after singly,
    exec (ingest payload) rows = (.ok result, after) ∧
    exec (oneByOne ingest payload) rows = (.ok (), singly) ∧
    (∀ k, rowOf ingestion.table.key k after =
      (rowOf ingestion.table.key k rows).or
        (rowOf ingestion.table.key k (payload.map ingestion.stored).reverse)) ∧
    (∀ k, rowOf ingestion.table.key k singly =
      (rowOf ingestion.table.key k rows).or
        (rowOf ingestion.table.key k (payload.map ingestion.stored))) ∧
    (after = singly ↔ ∀ k, rowOf ingestion.table.key k rows = none →
      rowOf ingestion.table.key k (payload.map ingestion.stored).reverse =
        rowOf ingestion.table.key k (payload.map ingestion.stored))

omit [DecidableEq P] [DecidableEq K] in
theorem keepsKeys_keepOld : KeepsKeys ingestion.table keepOld where
  key := keepsKey_keepOld
  primary _ _ := rfl

/-- The keys of the two do not differ. -/
theorem Fits.keys_dedupedRows (h : Fits ingestion rows payload) :
    (putAll ingestion.table.key keepOld rows (dedupedRows ingestion payload)).map
        ingestion.table.key =
      (putAll ingestion.table.key keepOld rows (payload.map ingestion.stored)).map
        ingestion.table.key := by
  rw [keys_putAll keepsKey_keepOld keepsKey_takeNew, h.dedupedRows_eq, putAll_putAll_takeNew,
    keys_putAll keepsKey_takeNew keepsKey_keepOld]

theorem storesLastOfAbsentKeys (hingests : Ingests ingestion keepOld Valid ingest)
    (hnodup : (rows.map ingestion.table.key).Nodup) (hfits : Fits ingestion rows payload)
    (hvalid : ∀ dto ∈ payload, Valid dto) :
    StoresLastOfAbsentKeys ingestion ingest rows payload := by
  obtain ⟨issues, hbatched⟩ := hingests rows payload hfits hvalid
  have hafter : ∀ k, rowOf ingestion.table.key k
      (putAll ingestion.table.key keepOld rows (dedupedRows ingestion payload)) =
        (rowOf ingestion.table.key k rows).or
          (rowOf ingestion.table.key k (payload.map ingestion.stored).reverse) := by
    intro k
    rw [rowOf_putAll_keepOld, hfits.dedupedRows_eq, rowOf_putAll_takeNew]
    exact congrArg _ Option.or_none
  have hsingly : ∀ k, rowOf ingestion.table.key k
      (putAll ingestion.table.key keepOld rows (payload.map ingestion.stored)) =
        (rowOf ingestion.table.key k rows).or
          (rowOf ingestion.table.key k (payload.map ingestion.stored)) :=
    rowOf_putAll_keepOld rows (payload.map ingestion.stored)
  refine ⟨_, _, _, hbatched, exec_oneByOne keepsKeys_keepOld hingests hfits hvalid, hafter,
    hsingly, ?_⟩
  constructor
  · intro hsame k hk
    have hrow := hafter k
    rw [hsame, hsingly k, hk, Option.none_or, Option.none_or] at hrow
    exact hrow.symm
  · intro hagree
    refine eq_of_rowOf hfits.keys_dedupedRows (nodup_keys_putAll keepsKey_keepOld hnodup _) ?_
    intro k
    rw [hafter k, hsingly k]
    cases hk : rowOf ingestion.table.key k rows with
    | none => rw [Option.none_or, Option.none_or, hagree k hk]
    | some row => rfl

theorem insertOnly_storesLastOfAbsentKeys (config : IngestionConfig)
    (hsize : 0 < config.batchSize) (hcontracts : config.contractPolicy = .insertOnly)
    (hquotes : config.quotePolicy = .insertOnly) (hmanifests : config.manifestPolicy = .insertOnly)
    (contractProvider manifestProvider : Int → Option Int) :
    (∀ rows payload, (rows.map contractsIngestion.table.key).Nodup →
      Accepted contractsIngestion payload → (∀ dto ∈ payload, Passes validateContracts dto) →
      StoresLastOfAbsentKeys contractsIngestion (ingestContracts config) rows payload) ∧
    (∀ rows payload, (rows.map quotesIngestion.table.key).Nodup →
      Fits quotesIngestion rows payload →
      (∀ dto ∈ payload, QuotePasses contractProvider manifestProvider dto) →
      StoresLastOfAbsentKeys quotesIngestion
        (ingestQuotes contractProvider manifestProvider config) rows payload) ∧
    ∀ rows payload, (rows.map manifestsIngestion.table.key).Nodup →
      (∀ dto ∈ payload, Passes validateManifests dto) →
      StoresLastOfAbsentKeys manifestsIngestion (ingestManifests config) rows payload := by
  refine ⟨?_, ?_, ?_⟩
  · intro rows payload hnodup haccepted hpasses
    have hingests := ingests_contracts keepsKeys_keepOld config hsize
      (by rw [hcontracts]; rfl)
    exact storesLastOfAbsentKeys hingests hnodup (fits_contracts haccepted) hpasses
  · intro rows payload hnodup hfits hpasses
    have hingests := ingests_quotes keepsKeys_keepOld contractProvider manifestProvider hsize
      (by rw [hquotes]; rfl)
    exact storesLastOfAbsentKeys hingests hnodup hfits hpasses
  · intro rows payload hnodup hpasses
    have hingests := ingests_manifests keepsKeys_keepOld config hsize
      (by rw [hmanifests]; rfl)
    exact storesLastOfAbsentKeys hingests hnodup (fits_manifests rows payload) hpasses

def insertingOnly : IngestionConfig where
  contractPolicy := .insertOnly
  quotePolicy := .insertOnly
  manifestPolicy := .insertOnly

/-- A contract of one provider. -/
def contractOf (strike multiplier : ℚ) (providerContractId : String) : OptionContractDTO where
  providerId := 1
  providerContractId := providerContractId
  underlyingId := 1
  optionRoot := "SPX"
  occSymbol := none
  callPut := "call"
  strike := strike
  expiration := ⟨2026, 6, 19⟩
  exerciseStyle := "european"
  settlementType := "cash"
  multiplier := multiplier
  currency := "USD"
  exchangeId := none
  firstSeenAt := ⟨0, some 0⟩
  lastSeenAt := ⟨0, some 0⟩
  isActive := true

/-- A contract that comes twice, with another strike. -/
def restruck : List OptionContractDTO := [contractOf 100 100 "A", contractOf 101 100 "A"]

theorem insertOnly_storesLastOfAbsentKeys_restruck :
    StoresLastOfAbsentKeys contractsIngestion
      (ingestContracts insertingOnly) [] restruck := by
  apply (insertOnly_storesLastOfAbsentKeys insertingOnly (by decide) rfl rfl rfl (fun _ => none)
    fun _ => none).1 [] restruck List.nodup_nil
  · unfold Accepted
    decide +kernel
  · intro dto hdto
    rcases List.mem_pair.mp hdto with rfl | rfl
    · exact ⟨⟨true, []⟩, rfl, rfl⟩
    · exact ⟨⟨true, []⟩, rfl, rfl⟩

/-- The second of two contracts with one key is stored, where one call per DTO stores the first; and
a contract that a check constraint refuses keeps the other one of its payload out. -/
theorem not_insertOnly_keepsFirst :
    ((exec (ingestContracts insertingOnly restruck) []).2.map (·.strike) = [101] ∧
      (exec (oneByOne (ingestContracts insertingOnly) restruck) []).2.map
        (·.strike) = [100]) ∧
    (exec (ingestContracts insertingOnly
        [contractOf 100 100 "A", contractOf 100 0 "B"]) []).2.map (·.strike) = [] ∧
      (exec (oneByOne (ingestContracts insertingOnly)
        [contractOf 100 100 "A", contractOf 100 0 "B"]) []).2.map (·.strike) = [100] := by
  decide +kernel

end OptionResearch.BulkIngestion
