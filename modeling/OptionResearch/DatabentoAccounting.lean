import OptionResearch.DatabentoAdapter

/-!
# Databento runs account for every row

A run that returns has completed its batches in turn, and each of their rows has one fate. The last
sequence number kept of an instrument is the greatest of its rows so far, so that a row is refused
as a regression exactly where an earlier one of its instrument has a greater number, and accepted
rows of one instrument never go back.
-/

namespace OptionResearch.DatabentoAdapter

variable {adapter : DatabentoAdapter} {request : DatabentoRequest} {cancelled : Nat → Bool}
  {paging : DatabentoPaging} {passes : Nat}

/-! ### The batches of a run -/

variable (adapter request) in
/-- What the attempts come to has been answered by the transport, unless there are none left. -/
theorem requestBatch_cases (batch : Nat) (continuation : Option String) (attempts : List Nat) :
    ∀ calls,
      (∃ response taken call,
        adapter.requestBatch request batch continuation attempts calls =
          (.ok (.ok response), taken) ∧
          adapter.transport call request batch continuation = .ok response) ∨
      (∃ failure taken, adapter.requestBatch request batch continuation attempts calls =
        (.ok (.error failure), taken)) ∨
      ∃ error taken call,
        adapter.requestBatch request batch continuation attempts calls = (.error error, taken) ∧
          adapter.transport call request batch continuation = .error (.foreign error) := by
  induction attempts with
  | nil => exact fun _ => .inr (.inl ⟨none, 0, rfl⟩)
  | cons attempt rest ih =>
    intro calls
    rw [requestBatch]
    rcases hcall : adapter.transport calls request batch continuation with
      (error | error) | response
    · dsimp only
      split_ifs
      · exact .inr (.inl ⟨_, 1, rfl⟩)
      · obtain ⟨response, taken, call, hrest, h⟩ | ⟨failure, taken, hrest⟩ |
          ⟨other, taken, call, hrest, h⟩ := ih (calls + 1)
        · exact .inl ⟨response, taken + 1, call, by rw [hrest], h⟩
        · exact .inr (.inl ⟨failure, taken + 1, by rw [hrest]⟩)
        · exact .inr (.inr ⟨other, taken + 1, call, by rw [hrest], h⟩)
    · exact .inr (.inr ⟨error, 1, calls, rfl, hcall⟩)
    · exact .inl ⟨response, 1, calls, rfl, hcall⟩

/-- The batch was answered by the transport, at that number and continuation. -/
def Answered (adapter : DatabentoAdapter) (request : DatabentoRequest)
    (batch : Nat × DatabentoResponse) : Prop :=
  ∃ call continuation, adapter.transport call request batch.1 continuation = .ok batch.2

variable (adapter request cancelled paging) in
/-- What a pass can do with the batches. -/
theorem turn_cases :
    (∃ error call, adapter.turn request cancelled paging = .leave (.error error) ∧
      adapter.transport call request paging.batch paging.continuation =
        .error (.foreign error)) ∨
    (∃ ending : DatabentoEnding, adapter.turn request cancelled paging = .leave (.ok ending) ∧
      ending.paging.completed = paging.completed ∧
      ending.cancelled = cancelled paging.batch) ∨
    (∃ response, Answered adapter request (paging.batch, response) ∧
      ((∃ ending : DatabentoEnding,
          adapter.turn request cancelled paging = .last (paging.batch, response) (.ok ending) ∧
          ending.paging.completed = paging.completed ++ [paging.batch] ∧
          ending.cancelled = false ∧
          ¬ (response.hasMore = true ∧ response.continuation ≠ paging.continuation)) ∨
        ∃ next, adapter.turn request cancelled paging = .next (paging.batch, response) next ∧
          next.completed = paging.completed ++ [paging.batch] ∧ next.batch = paging.batch + 1 ∧
          next.continuation = response.continuation ∧ response.hasMore = true ∧
          response.continuation ≠ paging.continuation)) := by
  rw [turn]
  split_ifs with hcancelled
  · exact .inr (.inl ⟨_, rfl, rfl, hcancelled.symm⟩)
  · have hrunning := Bool.eq_false_iff.mpr hcancelled
    obtain ⟨response, taken, call, hask, hcall⟩ | ⟨failure, taken, hask⟩ |
      ⟨error, taken, call, hask, hcall⟩ := requestBatch_cases adapter request
        paging.batch paging.continuation (List.range' 1 adapter.maximumAttempts.toNat) paging.calls
    · rw [ask, hask]
      dsimp only
      split_ifs with hnumber hseen hmore hstalled
      · exact .inr (.inl ⟨_, rfl, rfl, hrunning.symm⟩)
      · exact .inr (.inl ⟨_, rfl, rfl, hrunning.symm⟩)
      · exact .inr (.inr ⟨response, ⟨call, _, hcall⟩, .inl ⟨_, rfl, rfl, rfl,
          fun h => by simp [h.1] at hmore⟩⟩)
      · exact .inr (.inr ⟨response, ⟨call, _, hcall⟩, .inl ⟨_, rfl, rfl, rfl,
          fun h => h.2 hstalled⟩⟩)
      · exact .inr (.inr ⟨response, ⟨call, _, hcall⟩, .inr ⟨_, rfl, rfl, rfl, rfl,
          by simpa using hmore, hstalled⟩⟩)
    · rw [ask, hask]
      exact .inr (.inl ⟨_, rfl, rfl, hrunning.symm⟩)
    · rw [ask, hask]
      exact .inl ⟨error, call, rfl, hcall⟩

/-- The batches that a run reads. -/
def batches (adapter : DatabentoAdapter) (request : DatabentoRequest) (cancelled : Nat → Bool)
    (passes : Nat) : List (Nat × DatabentoResponse) :=
  PagedLoop.pages (adapter.turn request cancelled) passes (start request).1

theorem pages_answered : ∀ batch ∈ PagedLoop.pages (adapter.turn request cancelled) passes paging,
    Answered adapter request batch := by
  intro batch hbatch
  obtain ⟨before, -, last, -, hreads⟩ := PagedLoop.mem_pages_iff.mp hbatch
  obtain ⟨error, call, hturn, -⟩ | ⟨ending, hturn, -⟩ |
    ⟨response, hanswered, ⟨ending, hturn, -⟩ | ⟨next, hturn, -⟩⟩ :=
    turn_cases adapter request cancelled last
  all_goals
    rcases hreads with ⟨other, h⟩ | ⟨other, h⟩ <;> rw [hturn] at h <;> cases h
  · exact hanswered
  · exact hanswered

/-- The batches that are read are completed. -/
theorem notesBatches : PagedLoop.NotesPages (adapter.turn request cancelled) DatabentoPaging.batch
    DatabentoPaging.completed fun ending => ending.paging.completed := by
  intro paging
  obtain ⟨error, call, hturn, -⟩ | ⟨ending, hturn, hcompleted, -⟩ |
    ⟨response, -, ⟨ending, hturn, hcompleted, -⟩ | ⟨next, hturn, hcompleted, hbatch, -⟩⟩ :=
    turn_cases adapter request cancelled paging
  · rw [hturn]
    rintro _ ⟨⟩
  · rw [hturn]
    rintro _ ⟨⟩
    exact hcompleted
  · rw [hturn]
    rintro _ ⟨⟩
    exact hcompleted
  · rw [hturn]
    exact ⟨hcompleted, hbatch⟩

/-- The batches that are read are numbered in turn. -/
theorem pages_numbered :
    (PagedLoop.pages (adapter.turn request cancelled) passes paging).map Prod.fst =
      List.range' paging.batch
        (PagedLoop.pages (adapter.turn request cancelled) passes paging).length := by
  induction passes generalizing paging with
  | zero => rfl
  | succ passes ih =>
    obtain ⟨error, call, hturn, -⟩ | ⟨ending, hturn, -⟩ |
      ⟨response, -, ⟨ending, hturn, -⟩ | ⟨next, hturn, -, hbatch, -⟩⟩ :=
      turn_cases adapter request cancelled paging
    · simp [PagedLoop.pages, hturn]
    · simp [PagedLoop.pages, hturn]
    · simp [PagedLoop.pages, hturn]
    · rw [PagedLoop.pages_next hturn, List.map_cons, @ih next, hbatch, List.length_cons,
        List.range'_succ]

/-! ### Regressions -/

/-- The records that rows are normalized to. -/
def normalized (settled : List (Nat × Except String NormalizedDatabentoRecord)) :
    List NormalizedDatabentoRecord :=
  settled.filterMap fun item => item.2.toOption

variable {settled : List (Nat × Except String NormalizedDatabentoRecord)}
  {record : NormalizedDatabentoRecord}

theorem mem_normalized :
    record ∈ normalized settled ↔ ∃ batch, (batch, Except.ok record) ∈ settled := by
  simp only [normalized, List.mem_filterMap, Prod.exists]
  constructor
  · rintro ⟨batch, message | other, hmem, h⟩
    · cases h
    · cases h
      exact ⟨batch, hmem⟩
  · rintro ⟨batch, hmem⟩
    exact ⟨batch, _, hmem, rfl⟩

@[simp] theorem normalized_concat_error {batch : Nat} {message : String} :
    normalized (settled ++ [(batch, .error message)]) = normalized settled := by
  simp [normalized, Except.toOption]

@[simp] theorem normalized_concat_ok {batch : Nat} :
    normalized (settled ++ [(batch, .ok record)]) = normalized settled ++ [record] := by
  simp [normalized, Except.toOption]

/-- What is kept of an instrument: nothing before its first row, then the greatest sequence number
of its rows. -/
def Keeps (records : List NormalizedDatabentoRecord) (instrument : Int) : Option Int → Prop
  | none => ∀ record ∈ records, record.instrumentId ≠ instrument
  | some last =>
    (∃ record ∈ records, record.instrumentId = instrument ∧ record.sequence = last) ∧
      ∀ record ∈ records, record.instrumentId = instrument → record.sequence ≤ last

/-- An earlier row of the instrument has a greater sequence number. -/
def Regresses (records : List NormalizedDatabentoRecord) (record : NormalizedDatabentoRecord) :
    Prop :=
  ∃ earlier ∈ records, earlier.instrumentId = record.instrumentId ∧
    record.sequence < earlier.sequence

theorem Keeps.regresses_iff {records : List NormalizedDatabentoRecord} {kept : Option Int}
    (h : Keeps records record.instrumentId kept) :
    record.sequence < kept.getD record.sequence ↔ Regresses records record := by
  cases kept with
  | none =>
    simp only [Option.getD_none, lt_irrefl, false_iff]
    rintro ⟨earlier, hearlier, hsame, -⟩
    exact h earlier hearlier hsame
  | some last =>
    obtain ⟨⟨greatest, hgreatest, hinstrument, hlast⟩, hle⟩ := h
    rw [Option.getD_some]
    constructor
    · exact fun hlt => ⟨greatest, hgreatest, hinstrument, hlast ▸ hlt⟩
    · rintro ⟨earlier, hearlier, hsame, hlt⟩
      exact lt_of_lt_of_le hlt (hle earlier hearlier hsame)

/-- A row that regresses leaves what is kept as it is. -/
theorem Keeps.concat_regressing {records : List NormalizedDatabentoRecord} {instrument : Int}
    {kept : Option Int} (h : Keeps records instrument kept)
    (hregresses : Regresses records record) :
    Keeps (records ++ [record]) instrument kept := by
  obtain ⟨earlier, hearlier, hsame, hlt⟩ := hregresses
  cases kept with
  | none =>
    intro other hother
    rcases List.mem_append.mp hother with hold | hnew
    · exact h other hold
    · rw [List.mem_singleton.mp hnew, ← hsame]
      exact h earlier hearlier
  | some last =>
    obtain ⟨⟨greatest, hgreatest, hlast⟩, hle⟩ := h
    refine ⟨⟨greatest, List.mem_append_left _ hgreatest, hlast⟩, fun other hother hinstrument => ?_⟩
    rcases List.mem_append.mp hother with hold | hnew
    · exact hle other hold hinstrument
    · obtain rfl := List.mem_singleton.mp hnew
      exact hlt.le.trans (hle earlier hearlier (hsame.trans hinstrument))

/-- A row that does not regress is the greatest of its instrument. -/
theorem Keeps.concat_greatest {records : List NormalizedDatabentoRecord}
    (hgreatest : ¬ Regresses records record) :
    Keeps (records ++ [record]) record.instrumentId (some record.sequence) := by
  refine ⟨⟨record, by simp, rfl, rfl⟩, fun other hother hinstrument => ?_⟩
  rcases List.mem_append.mp hother with hold | hnew
  · by_contra hlt
    exact hgreatest ⟨other, hold, hinstrument, not_le.mp hlt⟩
  · rw [List.mem_singleton.mp hnew]

/-- A row of another instrument changes nothing. -/
theorem Keeps.concat_other {records : List NormalizedDatabentoRecord} {instrument : Int}
    {kept : Option Int} (h : Keeps records instrument kept)
    (hother : record.instrumentId ≠ instrument) :
    Keeps (records ++ [record]) instrument kept := by
  cases kept with
  | none =>
    intro other hmem
    rcases List.mem_append.mp hmem with hold | hnew
    · exact h other hold
    · exact List.mem_singleton.mp hnew ▸ hother
  | some last =>
    obtain ⟨⟨greatest, hgreatest, hlast⟩, hle⟩ := h
    refine ⟨⟨greatest, List.mem_append_left _ hgreatest, hlast⟩, fun other hmem hinstrument => ?_⟩
    rcases List.mem_append.mp hmem with hold | hnew
    · exact hle other hold hinstrument
    · exact absurd (List.mem_singleton.mp hnew ▸ hinstrument) hother

/-- The sequence number kept of an instrument is the greatest of its rows so far. -/
theorem keeps_run (settled : List (Nat × Except String NormalizedDatabentoRecord))
    (instrument : Int) :
    Keeps (normalized settled) instrument
      ((rowSieve.run .empty settled).memory.get? instrument) := by
  induction settled using List.reverseRecOn generalizing instrument with
  | nil => exact fun _ h => absurd h List.not_mem_nil
  | append_singleton settled item ih =>
    obtain ⟨batch, message | record⟩ := item
    · rw [Sieve.run_concat, Sieve.sift_error rfl, normalized_concat_error]
      exact ih instrument
    · rw [Sieve.run_concat, normalized_concat_ok]
      have hregresses := (ih record.instrumentId).regresses_iff
      by_cases h : record.sequence <
          ((rowSieve.run .empty settled).memory.get? record.instrumentId).getD record.sequence
      · rw [Sieve.sift_error (if_pos h)]
        exact (ih instrument).concat_regressing (hregresses.mp h)
      · rw [Sieve.memory_sift_ok (if_neg h), InsertionDict.get?_set]
        split_ifs with hsame
        · rw [hsame]
          exact Keeps.concat_greatest (mt hregresses.mpr h)
        · exact (ih instrument).concat_other fun heq => hsame heq.symm

/-- What becomes of one more row, with those before it. -/
theorem fate_cases (settled : List (Nat × Except String NormalizedDatabentoRecord)) {batch : Nat}
    (record : NormalizedDatabentoRecord) :
    (Regresses (normalized settled) record ∧
      (rowSieve.run .empty (settled ++ [(batch, .ok record)])).fates =
        (rowSieve.run .empty settled).fates ++
          [.refused ⟨batch, "sequence_regression", "sequence_regression"⟩]) ∨
    (¬ Regresses (normalized settled) record ∧
      (rowSieve.run .empty (settled ++ [(batch, .ok record)])).fates =
        (rowSieve.run .empty settled).fates ++ [.duplicate record] ∧
      ∃ earlier ∈ (rowSieve.run .empty settled).fates.filterMap Fate.accepted?,
        record.identity = earlier.identity) ∨
    (¬ Regresses (normalized settled) record ∧
      (rowSieve.run .empty (settled ++ [(batch, .ok record)])).fates =
        (rowSieve.run .empty settled).fates ++ [.accepted record] ∧
      ∀ earlier ∈ (rowSieve.run .empty settled).fates.filterMap Fate.accepted?,
        record.identity ≠ earlier.identity) := by
  have hregresses := (keeps_run settled record.instrumentId).regresses_iff
  rw [Sieve.run_concat]
  by_cases h : record.sequence <
      ((rowSieve.run .empty settled).memory.get? record.instrumentId).getD record.sequence
  · exact .inl ⟨hregresses.mp h, by rw [Sieve.sift_error (if_pos h)]⟩
  · right
    by_cases hseen : ((rowSieve.run .empty settled).fates.filterMap Fate.accepted?).any
        (rowSieve.same record) = true
    · refine .inl ⟨mt hregresses.mpr h, by rw [Sieve.sift_seen (if_neg h) hseen], ?_⟩
      obtain ⟨earlier, hearlier, hsame⟩ := List.any_eq_true.mp hseen
      exact ⟨earlier, hearlier, beq_iff_eq.mp hsame⟩
    · refine .inr ⟨mt hregresses.mpr h, by rw [Sieve.sift_new (if_neg h) hseen], ?_⟩
      exact fun earlier hearlier hsame =>
        hseen (List.any_eq_true.mpr ⟨earlier, hearlier, beq_iff_eq.mpr hsame⟩)

/-- The accepted records, in the order in which they arrived. -/
def arrived (settled : List (Nat × Except String NormalizedDatabentoRecord)) :
    List NormalizedDatabentoRecord :=
  (rowSieve.run .empty settled).fates.filterMap Fate.accepted?

theorem arrived_concat_error (settled : List (Nat × Except String NormalizedDatabentoRecord))
    (batch : Nat) (message : String) :
    arrived (settled ++ [(batch, .error message)]) = arrived settled := by
  rw [arrived, Sieve.run_concat, Sieve.sift_error rfl, List.filterMap_append]
  exact List.append_nil _

/-- One more record is accepted at the end, or not at all. -/
theorem arrived_concat_ok (settled : List (Nat × Except String NormalizedDatabentoRecord))
    (batch : Nat) (record : NormalizedDatabentoRecord) :
    arrived (settled ++ [(batch, .ok record)]) = arrived settled ∨
      ¬ Regresses (normalized settled) record ∧
        arrived (settled ++ [(batch, .ok record)]) = arrived settled ++ [record] := by
  unfold arrived
  obtain ⟨-, hfates⟩ | ⟨-, hfates, -⟩ | ⟨hregresses, hfates, -⟩ :=
    @fate_cases settled batch record
  · rw [hfates, List.filterMap_append]
    exact .inl (List.append_nil _)
  · rw [hfates, List.filterMap_append]
    exact .inl (List.append_nil _)
  · rw [hfates, List.filterMap_append]
    exact .inr ⟨hregresses, rfl⟩

theorem arrived_subset (settled : List (Nat × Except String NormalizedDatabentoRecord)) :
    arrived settled ⊆ normalized settled := by
  induction settled using List.reverseRecOn with
  | nil => exact List.nil_subset _
  | append_singleton settled item ih =>
    obtain ⟨batch, message | record⟩ := item
    · rw [arrived_concat_error, normalized_concat_error]
      exact ih
    · rw [normalized_concat_ok]
      obtain h | ⟨-, h⟩ := arrived_concat_ok settled batch record <;> rw [h]
      · exact List.subset_append_of_subset_left _ ih
      · exact List.append_subset.mpr
          ⟨List.subset_append_of_subset_left _ ih, List.subset_append_right _ _⟩

/-- Accepted records of one instrument never go back. -/
theorem arrived_ordered (settled : List (Nat × Except String NormalizedDatabentoRecord)) :
    (arrived settled).Pairwise fun earlier later =>
      earlier.instrumentId = later.instrumentId → earlier.sequence ≤ later.sequence := by
  induction settled using List.reverseRecOn with
  | nil => exact .nil
  | append_singleton settled item ih =>
    obtain ⟨batch, message | record⟩ := item
    · rwa [arrived_concat_error]
    · obtain h | ⟨hregresses, h⟩ := arrived_concat_ok settled batch record <;> rw [h]
      · exact ih
      · refine List.pairwise_append.mpr ⟨ih, List.pairwise_singleton _ _, ?_⟩
        intro earlier hearlier later hlater hsame
        obtain rfl := List.mem_singleton.mp hlater
        by_contra hlt
        exact hregresses ⟨earlier, arrived_subset settled hearlier, hsame, not_le.mp hlt⟩

/-- The first record of an identity is accepted, unless it regresses. -/
theorem mem_arrived_of_first (before after : List (Nat × Except String NormalizedDatabentoRecord))
    {batch : Nat} {record : NormalizedDatabentoRecord}
    (hregresses : ¬ Regresses (normalized before) record)
    (hfirst : ∀ earlier ∈ normalized before, earlier.identity ≠ record.identity) :
    record ∈ arrived (before ++ (batch, .ok record) :: after) := by
  have haccepted : record ∈ arrived (before ++ [(batch, .ok record)]) := by
    unfold arrived
    obtain ⟨h, -⟩ | ⟨-, -, earlier, hearlier, hsame⟩ | ⟨-, hfates, -⟩ :=
      @fate_cases before batch record
    · exact absurd h hregresses
    · exact absurd hsame.symm (hfirst earlier (arrived_subset before hearlier))
    · rw [hfates, List.filterMap_append]
      exact List.mem_append_right _ (List.mem_singleton.mpr rfl)
  obtain ⟨later, hlater⟩ := @Sieve.exists_fates_append _ _ _ _ rowSieve .empty
    (before ++ [(batch, Except.ok record)]) after
  rw [arrived, List.append_cons, hlater, List.filterMap_append]
  exact List.mem_append_left _ haccepted

/-! ### The account of a run -/

section Account

variable (adapter : DatabentoAdapter) (request : DatabentoRequest)

/-- The normalizer makes the record of the row. -/
def NormalizesTo (numbered : Nat × DatabentoResponse × Row) (record : NormalizedDatabentoRecord) :
    Prop :=
  adapter.normalizer numbered.2.2 request.dataset request.schema numbered.2.1.checksum = .ok record

/-- A row is refused with the message of the normalizer, or as a regression; otherwise its record is
accepted or a duplicate. -/
def RowFate (numbered : Nat × DatabentoResponse × Row)
    (fate : Fate NormalizedDatabentoRecord DatabentoFailure) : Prop :=
  (∃ message, adapter.normalizer numbered.2.2 request.dataset request.schema
      numbered.2.1.checksum = .error (.raised message) ∧
    fate = .refused ⟨numbered.1, message, message⟩) ∨
  ∃ record, NormalizesTo adapter request numbered record ∧
    (fate = .refused ⟨numbered.1, "sequence_regression", "sequence_regression"⟩ ∨
      fate = .accepted record ∨ fate = .duplicate record)

/-- What a result accounts for, where a run has read these batches and their rows have these
fates. -/
structure Accounted (batches : List (Nat × DatabentoResponse))
    (fates : List (Fate NormalizedDatabentoRecord DatabentoFailure)) (result : DatabentoResult) :
    Prop where
  answered : ∀ batch ∈ batches, Answered adapter request batch
  completed : result.completedBatches = batches.map Prod.fst
  numbered : result.completedBatches = List.range' 1 batches.length
  each_row : List.Forall₂ (RowFate adapter request) (numberedRows batches) fates
  counts : (batches.map fun batch => batch.2.records.length).sum =
    result.records.length + result.duplicateCount + (fates.filterMap Fate.refused?).length
  failures : ∃ failure : Option DatabentoFailure,
    result.failures = fates.filterMap Fate.refused? ++ failure.toList
  accepted : result.records.Perm (fates.filterMap Fate.accepted?)
  distinct : (result.records.map NormalizedDatabentoRecord.identity).Nodup
  first_kept : ∀ before row after, numberedRows batches = before ++ row :: after →
    ∀ record, NormalizesTo adapter request row record →
      (∀ earlier ∈ before, ∀ other, NormalizesTo adapter request earlier other →
        other.identity ≠ record.identity ∧
          (other.instrumentId = record.instrumentId → other.sequence ≤ record.sequence)) →
      record ∈ result.records
  ordered : (fates.filterMap Fate.accepted?).Pairwise fun earlier later =>
    earlier.instrumentId = later.instrumentId → earlier.sequence ≤ later.sequence

end Account

theorem length_numberedRows (batches : List (Nat × DatabentoResponse)) :
    (numberedRows batches).length = (batches.map fun batch => batch.2.records.length).sum := by
  simp [numberedRows, List.length_flatMap]

theorem settle_eq_ok_iff {numbered : Nat × DatabentoResponse × Row}
    {item : Nat × Except String NormalizedDatabentoRecord} :
    adapter.settle request numbered = .ok item ↔
      (∃ message, adapter.normalizer numbered.2.2 request.dataset request.schema
          numbered.2.1.checksum = .error (.raised message) ∧ item = (numbered.1, .error message)) ∨
      ∃ record, NormalizesTo adapter request numbered record ∧ item = (numbered.1, .ok record) := by
  simp only [settle, NormalizesTo]
  rcases adapter.normalizer numbered.2.2 request.dataset request.schema numbered.2.1.checksum
    with (message | error) | record <;> simp [eq_comm]

/-- The records of rows are those that the normalizer makes of them. -/
theorem mem_normalized_of_settled {rows : List (Nat × DatabentoResponse × Row)}
    {settled : List (Nat × Except String NormalizedDatabentoRecord)}
    (h : rows.mapM (adapter.settle request) = .ok settled) {record : NormalizedDatabentoRecord}
    (hmem : record ∈ normalized settled) :
    ∃ row ∈ rows, NormalizesTo adapter request row record := by
  obtain ⟨batch, hitem⟩ := mem_normalized.mp hmem
  obtain ⟨row, hrow, hsettle⟩ := (mapM_eq_ok_mem h).2 _ hitem
  obtain ⟨message, -, heq⟩ | ⟨other, hother, heq⟩ := settle_eq_ok_iff.mp hsettle
  · cases heq
  · cases heq
    exact ⟨row, hrow, hother⟩

/-- Rows have the fates of what becomes of them. -/
theorem rowFate_of_settled {rows : List (Nat × DatabentoResponse × Row)}
    {settled : List (Nat × Except String NormalizedDatabentoRecord)}
    (h : rows.mapM (adapter.settle request) = .ok settled) :
    List.Forall₂ (RowFate adapter request) rows (rowSieve.run .empty settled).fates := by
  refine forall₂_trans (fun row item fate hsettle hfate => ?_) (forall₂_of_mapM_eq_ok h)
    Sieve.accounts_run.fits
  obtain ⟨lastSequence, hfate⟩ := hfate
  obtain ⟨message, hmessage, rfl⟩ | ⟨record, hrecord, rfl⟩ := settle_eq_ok_iff.mp hsettle
  · exact .inl ⟨message, hmessage, hfate⟩
  · refine .inr ⟨record, hrecord, ?_⟩
    by_cases hregresses :
        record.sequence < (lastSequence.get? record.instrumentId).getD record.sequence
    · simp only [rowSieve, if_pos hregresses] at hfate
      exact .inl hfate
    · simp only [rowSieve, if_neg hregresses] at hfate
      exact .inr (Fate.entry?_eq_some_iff.mp hfate)

/-- The rows before a row, and what becomes of it. -/
theorem settled_split {before after : List (Nat × DatabentoResponse × Row)}
    {row : Nat × DatabentoResponse × Row} {record : NormalizedDatabentoRecord}
    {settled : List (Nat × Except String NormalizedDatabentoRecord)}
    (h : (before ++ row :: after).mapM (adapter.settle request) = .ok settled)
    (hrecord : NormalizesTo adapter request row record) :
    ∃ earlier later, before.mapM (adapter.settle request) = .ok earlier ∧
      settled = earlier ++ (row.1, .ok record) :: later := by
  rw [List.mapM_append, List.mapM_cons] at h
  obtain ⟨earlier, hearlier, h⟩ := except_bind_eq_ok.mp h
  obtain ⟨rest, hrest, h⟩ := except_bind_eq_ok.mp h
  cases h
  obtain ⟨item, hitem, hrest⟩ := except_bind_eq_ok.mp hrest
  obtain ⟨later, -, hrest⟩ := except_bind_eq_ok.mp hrest
  cases hrest
  rw [settle_eq_ok_iff.mpr (.inr ⟨record, hrecord, rfl⟩)] at hitem
  cases hitem
  exact ⟨earlier, later, hearlier, rfl⟩

/-- No two accepted records have one identity. -/
theorem nodup_arrived (settled : List (Nat × Except String NormalizedDatabentoRecord)) :
    ((arrived settled).map NormalizedDatabentoRecord.identity).Nodup := by
  refine List.pairwise_map.mpr (List.Pairwise.imp ?_ Sieve.accounts_run.once)
  intro earlier later hdiffer heq
  exact absurd (beq_iff_eq.mpr heq.symm) (Bool.eq_false_iff.mp hdiffer)

/-- A record that comes first of its identity and does not regress is among those accepted. -/
theorem first_arrived {rows before after : List (Nat × DatabentoResponse × Row)}
    {row : Nat × DatabentoResponse × Row} {record : NormalizedDatabentoRecord}
    {settled : List (Nat × Except String NormalizedDatabentoRecord)}
    (hsettled : rows.mapM (adapter.settle request) = .ok settled)
    (hrows : rows = before ++ row :: after) (hrecord : NormalizesTo adapter request row record)
    (hfirst : ∀ earlier ∈ before, ∀ other, NormalizesTo adapter request earlier other →
      other.identity ≠ record.identity ∧
        (other.instrumentId = record.instrumentId → other.sequence ≤ record.sequence)) :
    record ∈ arrived settled := by
  rw [hrows] at hsettled
  obtain ⟨earlier, later, hearlier, rfl⟩ := settled_split hsettled hrecord
  apply mem_arrived_of_first
  · rintro ⟨other, hother, hinstrument, hlt⟩
    obtain ⟨earlierRow, hearlierRow, hnormalizes⟩ := mem_normalized_of_settled hearlier hother
    exact absurd ((hfirst earlierRow hearlierRow other hnormalizes).2 hinstrument) (not_le.mpr hlt)
  · intro other hother
    obtain ⟨earlierRow, hearlierRow, hnormalizes⟩ := mem_normalized_of_settled hearlier hother
    exact (hfirst earlierRow hearlierRow other hnormalizes).1

/-- The account of a run that returns. -/
theorem accounted_of_run {result : DatabentoResult}
    (hrun : adapter.run request cancelled passes = some (.ok result)) :
    ∃ fates, Accounted adapter request (batches adapter request cancelled passes) fates result := by
  obtain ⟨ending, settled, houtcome, hsettled, rfl⟩ := run_eq_ok_iff.mp hrun
  have hnumbers := @pages_numbered adapter request cancelled (start request).1 passes
  have hcompleted := notesBatches.noted_of_outcome houtcome
  have hperm : (ending.result (rowsOf request (rowSieve.run .empty settled))).records.Perm
      (arrived settled) := by
    simp only [DatabentoEnding.result]
    split_ifs
    · exact .refl _
    · exact StableSort.sortBy_perm
  refine ⟨(rowSieve.run .empty settled).fates, pages_answered, hcompleted.trans hnumbers.symm,
    hcompleted, rowFate_of_settled hsettled, ?_, ⟨ending.failure, rfl⟩, hperm,
    ?_, ?_, arrived_ordered settled⟩
  · rw [hperm.length_eq, ← length_numberedRows]
    have hlength := (@Sieve.accounts_run _ _ _ _ rowSieve .empty settled).length_eq
    rw [← (forall₂_of_mapM_eq_ok hsettled).length_eq] at hlength
    exact hlength
  · exact (hperm.map _).nodup_iff.mpr (nodup_arrived settled)
  · intro before row after hrows record hrecord hfirst
    exact hperm.mem_iff.mpr (first_arrived hsettled hrows hrecord hfirst)

/-! ### Runs return -/

theorem exists_consume_ok (hnormalizer : ∀ raw checksum error,
      adapter.normalizer raw request.dataset request.schema checksum ≠ .error (.foreign error))
    (rows : DatabentoRows) (batch : Nat × DatabentoResponse) :
    ∃ consumed, adapter.consume request rows batch = .ok consumed := by
  rw [consume]
  induction batch.2.records generalizing rows with
  | nil => exact ⟨rows, rfl⟩
  | cons raw rest ih =>
    have hrow : ∃ next, adapter.consumeRow request batch.1 batch.2 rows raw = .ok next := by
      rw [consumeRow]
      rcases hread : adapter.normalizer raw request.dataset request.schema batch.2.checksum
        with (message | error) | record
      · exact ⟨_, rfl⟩
      · exact absurd hread (hnormalizer raw _ error)
      · dsimp only
        split_ifs <;> exact ⟨_, rfl⟩
    obtain ⟨next, hnext⟩ := hrow
    rw [List.foldlM_cons]
    exact exists_bind_eq_ok hnext (ih next)

/-- A pass that leaves the loop leaves it with a result. -/
theorem exists_ok_of_left
    (htransport : ∀ call batch continuation error,
      adapter.transport call request batch continuation ≠ .error (.foreign error))
    (hnormalizer : ∀ raw checksum error,
      adapter.normalizer raw request.dataset request.schema checksum ≠ .error (.foreign error))
    {state : DatabentoPaging × DatabentoRows} {outcome : Except Exc DatabentoResult}
    (h : adapter.pass request cancelled state = .left outcome) :
    ∃ result, outcome = .ok result := by
  obtain ⟨paging, rows⟩ := state
  unfold pass at h
  dsimp only at h
  split_ifs at h with hcancelled
  · cases h
    exact ⟨_, rfl⟩
  · obtain ⟨response, taken, call, hask, -⟩ | ⟨failure, taken, hask⟩ |
      ⟨error, taken, call, -, hcall⟩ := requestBatch_cases adapter request
        paging.batch paging.continuation (List.range' 1 adapter.maximumAttempts.toNat) paging.calls
    · rw [ask, hask] at h
      dsimp only at h
      obtain ⟨consumed, hconsumed⟩ := exists_consume_ok hnormalizer rows (paging.batch, response)
      rw [hconsumed] at h
      split_ifs at h <;> cases h <;> exact ⟨_, rfl⟩
    · rw [ask, hask] at h
      cases h
      exact ⟨_, rfl⟩
    · exact absurd hcall (htransport call _ _ error)

/-- Where the transport answers with batches or its own errors until the run ends, and the
normalizer raises nothing but schema errors, the run returns, and its result accounts for every row
of the batches. -/
theorem run_accounts_for_rows
    (htransport : ∀ call batch continuation error,
      adapter.transport call request batch continuation ≠ .error (.foreign error))
    (hnormalizer : ∀ raw checksum error,
      adapter.normalizer raw request.dataset request.schema checksum ≠ .error (.foreign error))
    (hends : (adapter.run request cancelled passes).isSome) :
    ∃ result fates, adapter.run request cancelled passes = some (.ok result) ∧
      Accounted adapter request (batches adapter request cancelled passes) fates result := by
  obtain ⟨outcome, hrun⟩ := Option.isSome_iff_exists.mp hends
  obtain ⟨result, rfl⟩ := WhileTrue.run_post (fun _ => True) (fun outcome => ∃ result,
    outcome = .ok result) (fun _ _ _ _ => trivial)
    (fun _ _ _ h => exists_ok_of_left htransport hnormalizer h) trivial hrun
  obtain ⟨fates, haccounted⟩ := accounted_of_run hrun
  exact ⟨result, fates, hrun, haccounted⟩

/-- An adapter of one batch, with a row that comes out of order. -/
def outOfOrder : DatabentoAdapter where
  transport _ _ batch _ := .ok
    { requestId := "r", batchNumber := batch, checksum := "0"
      records := [.ofEntries [("sequence", .int 2)], .ofEntries [("sequence", .int 1)]] }
  normalizer raw dataset schema checksum :=
    match raw.get? "sequence" with
    | some (.int sequence) => .ok
      { eventTimestamp := "2026-01-02T00:00:00+00:00", instrumentId := 1, sequence
        canonical := .empty, rawProvider := raw, dataset, schema, sourceChecksum := checksum }
    | _ => .error (.raised "invalid_record")

theorem run_accounts_for_rows_outOfOrder :
    ∃ result fates, outOfOrder.run quoteRequest (fun _ => false) 1 = some (.ok result) ∧
      Accounted outOfOrder quoteRequest (batches outOfOrder quoteRequest (fun _ => false) 1) fates
        result := by
  refine run_accounts_for_rows (fun _ _ _ _ h => nomatch h) ?_ rfl
  intro raw checksum error h
  simp only [outOfOrder] at h
  split at h <;> cases h

end OptionResearch.DatabentoAdapter
