import OptionResearch.DatabentoAccounting
import OptionResearch.DatabentoNormalizer

/-!
# The order of Databento results

A run that ends by itself sorts its records, and the texts by which it does so compare as the
instants of the events. A run that the caller cancels returns the records as they arrived: those
that were new when they came.
-/

namespace OptionResearch.DatabentoAdapter

/-! ### Records in time -/

section InTime

variable (normalizer : DatabentoNormalizer)

/-- The record's row tells of an event at this instant, of which the record has the text in UTC. -/
def HappensAt (record : NormalizedDatabentoRecord) (instant : Int) : Prop :=
  ∃ (event : DateTime) (time : UtcTime), normalizer.eventTime record.rawProvider = .ok event ∧
    event.instant = instant ∧ time.instant = instant ∧ record.eventTimestamp = time.isoformat

/-- By instant, then by sequence, then by instrument. -/
def InTime (earlier later : NormalizedDatabentoRecord) : Prop :=
  ∃ instant next, HappensAt normalizer earlier instant ∧ HappensAt normalizer later next ∧
    toLex (instant, toLex (earlier.sequence, earlier.instrumentId)) ≤
      toLex (next, toLex (later.sequence, later.instrumentId))

def TimeOrdered (records : List NormalizedDatabentoRecord) : Prop :=
  records.Pairwise (InTime normalizer)

end InTime

variable {normalizer : DatabentoNormalizer} {adapter : DatabentoAdapter}
  {request : DatabentoRequest} {cancelled : Nat → Bool} {passes : Nat}

theorem HappensAt.unique {record : NormalizedDatabentoRecord} {instant other : Int}
    (h : HappensAt normalizer record instant) (hother : HappensAt normalizer record other) :
    instant = other := by
  obtain ⟨event, -, hevent, rfl, -⟩ := h
  obtain ⟨event', -, hevent', rfl, -⟩ := hother
  rw [hevent] at hevent'
  cases hevent'
  rfl

/-- The order of the texts is the order in time. -/
theorem inTime_iff {earlier later : NormalizedDatabentoRecord} {instant next : Int}
    (hearlier : HappensAt normalizer earlier instant) (hlater : HappensAt normalizer later next) :
    InTime normalizer earlier later ↔ earlier.sortKey ≤ later.sortKey := by
  have horder : InTime normalizer earlier later ↔
      toLex (instant, toLex (earlier.sequence, earlier.instrumentId)) ≤
        toLex (next, toLex (later.sequence, later.instrumentId)) := by
    constructor
    · rintro ⟨instant', next', h, h', hle⟩
      rwa [h.unique hearlier, h'.unique hlater] at hle
    · exact fun hle => ⟨instant, next, hearlier, hlater, hle⟩
  obtain ⟨-, time, -, -, rfl, htext⟩ := hearlier
  obtain ⟨-, other, -, -, rfl, hother⟩ := hlater
  rw [horder, NormalizedDatabentoRecord.sortKey, NormalizedDatabentoRecord.sortKey, htext, hother]
  simp only [Prod.Lex.toLex_le_toLex, UtcTime.isoformat_lt_iff_instant,
    UtcTime.isoformat_eq_iff_instant]

theorem timeOrdered_iff {records : List NormalizedDatabentoRecord}
    (h : ∀ record ∈ records, ∃ instant, HappensAt normalizer record instant) :
    TimeOrdered normalizer records ↔
      StableSort.SortedBy NormalizedDatabentoRecord.sortKey records := by
  refine List.Pairwise.iff_of_mem fun {earlier later} hearlier hlater => ?_
  obtain ⟨instant, hinstant⟩ := h earlier hearlier
  obtain ⟨next, hnext⟩ := h later hlater
  exact inTime_iff hinstant hnext

/-! ### Records that are new -/

/-- No earlier record has its identity, or a greater sequence number of its instrument. -/
def IsNew (earlier : List NormalizedDatabentoRecord) (record : NormalizedDatabentoRecord) : Prop :=
  ∀ other ∈ earlier, other.identity ≠ record.identity ∧
    (other.instrumentId = record.instrumentId → other.sequence ≤ record.sequence)

instance (earlier : List NormalizedDatabentoRecord) (record : NormalizedDatabentoRecord) :
    Decidable (IsNew earlier record) :=
  inferInstanceAs (Decidable (∀ other ∈ earlier, _ ∧ (_ → _)))

/-- The records that are new when they come, after earlier ones. -/
def newRecords (earlier : List NormalizedDatabentoRecord) :
    List NormalizedDatabentoRecord → List NormalizedDatabentoRecord
  | [] => []
  | record :: rest =>
    if IsNew earlier record then record :: newRecords (earlier ++ [record]) rest
    else newRecords (earlier ++ [record]) rest

theorem newRecords_concat (earlier records : List NormalizedDatabentoRecord)
    (record : NormalizedDatabentoRecord) :
    newRecords earlier (records ++ [record]) = newRecords earlier records ++
      if IsNew (earlier ++ records) record then [record] else [] := by
  induction records generalizing earlier with
  | nil =>
    rw [List.nil_append, List.append_nil, newRecords, newRecords, newRecords]
    split_ifs <;> rfl
  | cons first rest ih =>
    rw [List.cons_append, newRecords, newRecords, ih, List.append_assoc, List.singleton_append]
    split_ifs <;> rfl

/-- A record that does not regress has its identity among those accepted. -/
theorem exists_arrived_identity (settled : List (Nat × Except String NormalizedDatabentoRecord)) :
    ∀ record ∈ normalized settled, ¬ Regresses (normalized settled) record →
      ∃ other ∈ arrived settled, other.identity = record.identity := by
  induction settled using List.reverseRecOn with
  | nil => exact fun record hrecord => absurd hrecord List.not_mem_nil
  | append_singleton settled item ih =>
    obtain ⟨batch, message | last⟩ := item
    · rw [normalized_concat_error, arrived_concat_error]
      exact ih
    · intro record hrecord hregresses
      rw [normalized_concat_ok] at hrecord hregresses
      have hbefore : ¬ Regresses (normalized settled) record := fun ⟨other, hother, h⟩ =>
        hregresses ⟨other, List.mem_append_left _ hother, h⟩
      have hkept : arrived settled ⊆ arrived (settled ++ [(batch, .ok last)]) := by
        obtain h | ⟨-, h⟩ := arrived_concat_ok settled batch last <;> rw [h]
        · exact List.Subset.refl _
        · exact List.subset_append_left _ _
      rcases List.mem_append.mp hrecord with hold | hnew
      · obtain ⟨other, hother, hsame⟩ := ih record hold hbefore
        exact ⟨other, hkept hother, hsame⟩
      · obtain rfl := List.mem_singleton.mp hnew
        obtain ⟨h, -⟩ | ⟨-, -, other, hother, hsame⟩ | ⟨-, hfates, -⟩ :=
          @fate_cases settled batch record
        · exact absurd h hbefore
        · exact ⟨other, hkept hother, hsame.symm⟩
        · refine ⟨record, ?_, rfl⟩
          rw [arrived, hfates, List.filterMap_append]
          exact List.mem_append_right _ (List.mem_singleton.mpr rfl)

theorem isNew_iff {settled : List (Nat × Except String NormalizedDatabentoRecord)}
    {record : NormalizedDatabentoRecord} :
    IsNew (normalized settled) record ↔ ¬ Regresses (normalized settled) record ∧
      ∀ other ∈ arrived settled, record.identity ≠ other.identity := by
  constructor
  · intro h
    refine ⟨?_, fun other hother => (h other (arrived_subset settled hother)).1.symm⟩
    rintro ⟨other, hother, hinstrument, hlt⟩
    exact absurd ((h other hother).2 hinstrument) (not_le.mpr hlt)
  · rintro ⟨hregresses, hfresh⟩ other hother
    refine ⟨fun hsame => ?_, fun hinstrument => ?_⟩
    · have hother' : ¬ Regresses (normalized settled) other := by
        simp only [NormalizedDatabentoRecord.identity, Prod.mk.injEq] at hsame
        rwa [Regresses, hsame.1, hsame.2.2]
      obtain ⟨accepted, haccepted, h⟩ := exists_arrived_identity settled other hother hother'
      exact hfresh accepted haccepted (hsame.symm.trans h.symm)
    · exact not_lt.mp fun hlt => hregresses ⟨other, hother, hinstrument, hlt⟩

/-- The accepted records are those that were new when they came. -/
theorem arrived_eq_newRecords (settled : List (Nat × Except String NormalizedDatabentoRecord)) :
    arrived settled = newRecords [] (normalized settled) := by
  induction settled using List.reverseRecOn with
  | nil => rfl
  | append_singleton settled item ih =>
    obtain ⟨batch, message | record⟩ := item
    · rw [arrived_concat_error, normalized_concat_error, ih]
    · rw [normalized_concat_ok, newRecords_concat, List.nil_append, ← ih, arrived]
      obtain ⟨h, hfates⟩ | ⟨-, hfates, other, hother, hsame⟩ | ⟨hregresses, hfates, hfresh⟩ :=
        @fate_cases settled batch record
      · rw [if_neg fun hnew => (isNew_iff.mp hnew).1 h, hfates, List.filterMap_append]
        rfl
      · rw [if_neg fun hnew => (isNew_iff.mp hnew).2 other hother hsame, hfates,
          List.filterMap_append]
        rfl
      · rw [if_pos (isNew_iff.mpr ⟨hregresses, hfresh⟩), hfates, List.filterMap_append]
        rfl

/-! ### Where a run stops -/

/-- Each batch has more to come, from another continuation. -/
def LeadsOn (continuation : Option String) : List (Nat × DatabentoResponse) → Prop
  | [] => True
  | (_, response) :: rest =>
    response.hasMore = true ∧ response.continuation ≠ continuation ∧
      LeadsOn response.continuation rest

/-- A run is cancelled where the batches lead on to one before which the caller cancels. -/
theorem cancelled_iff {paging : DatabentoPaging} {ending : DatabentoEnding}
    (h : PagedLoop.outcome (adapter.turn request cancelled) passes paging = some (.ok ending)) :
    ending.cancelled = true ↔
      LeadsOn paging.continuation
          (PagedLoop.pages (adapter.turn request cancelled) passes paging) ∧
        cancelled (paging.batch +
          (PagedLoop.pages (adapter.turn request cancelled) passes paging).length) = true := by
  induction passes generalizing paging with
  | zero => cases h
  | succ passes ih =>
    obtain ⟨error, call, hturn, -⟩ | ⟨other, hturn, -, hcancelled⟩ |
      ⟨response, -, ⟨other, hturn, -, hcancelled, hlast⟩ |
        ⟨next, hturn, -, hbatch, hcontinuation, hmore, hnext⟩⟩ :=
      turn_cases adapter request cancelled paging
    · simp [PagedLoop.outcome, hturn] at h
    · simp only [PagedLoop.outcome, hturn, Option.some.injEq, Except.ok.injEq] at h
      subst h
      simp [PagedLoop.pages, hturn, LeadsOn, hcancelled]
    · simp only [PagedLoop.outcome, hturn, Option.some.injEq, Except.ok.injEq] at h
      subst h
      simp only [PagedLoop.pages, hturn, LeadsOn, hcancelled]
      refine iff_of_false Bool.false_ne_true fun hleads => hlast ⟨hleads.1.1, hleads.1.2.1⟩
    · rw [PagedLoop.outcome_next hturn] at h
      rw [PagedLoop.pages_next hturn, ih h, LeadsOn, hbatch, hcontinuation, List.length_cons,
        Nat.add_assoc, Nat.add_comm 1]
      simp [hmore, hnext]

/-- The batches of a run lead on to one before which the caller cancels. -/
def Interrupted (request : DatabentoRequest) (cancelled : Nat → Bool)
    (batches : List (Nat × DatabentoResponse)) : Prop :=
  LeadsOn request.continuation batches ∧ cancelled (batches.length + 1) = true

/-- The records that the rows of batches are normalized to. -/
def readRecords (adapter : DatabentoAdapter) (request : DatabentoRequest)
    (batches : List (Nat × DatabentoResponse)) : List NormalizedDatabentoRecord :=
  (numberedRows batches).filterMap fun numbered =>
    (adapter.normalizer numbered.2.2 request.dataset request.schema numbered.2.1.checksum).toOption

theorem normalized_of_settled {rows : List (Nat × DatabentoResponse × Row)}
    {settled : List (Nat × Except String NormalizedDatabentoRecord)}
    (h : rows.mapM (adapter.settle request) = .ok settled) :
    normalized settled = rows.filterMap fun numbered =>
      (adapter.normalizer numbered.2.2 request.dataset request.schema
        numbered.2.1.checksum).toOption := by
  induction rows generalizing settled with
  | nil =>
    cases h
    rfl
  | cons row rest ih =>
    rw [List.mapM_cons] at h
    obtain ⟨item, hitem, h⟩ := except_bind_eq_ok.mp h
    obtain ⟨later, hlater, h⟩ := except_bind_eq_ok.mp h
    cases h
    have hrest := ih hlater
    rw [normalized] at hrest ⊢
    rw [List.filterMap_cons, List.filterMap_cons, hrest]
    obtain ⟨message, hmessage, rfl⟩ | ⟨record, hrecord, rfl⟩ := settle_eq_ok_iff.mp hitem
    · rw [hmessage]
      rfl
    · rw [show adapter.normalizer _ _ _ _ = _ from hrecord]
      rfl

/-- The records that a run gathers tell of events in time. -/
theorem happensAt_of_settled {rows : List (Nat × DatabentoResponse × Row)}
    {settled : List (Nat × Except String NormalizedDatabentoRecord)}
    (hnormalizer : adapter.normalizer = normalizer.normalize)
    (h : rows.mapM (adapter.settle request) = .ok settled) :
    ∀ record ∈ normalized settled, ∃ instant, HappensAt normalizer record instant := by
  intro record hrecord
  obtain ⟨row, -, hrow⟩ := mem_normalized_of_settled h hrecord
  rw [NormalizesTo, hnormalizer] at hrow
  obtain ⟨event, time, hevent, htime, htext, hraw⟩ := DatabentoNormalizer.normalize_eq_ok hrow
  exact ⟨event.instant, event, time, hraw ▸ hevent, rfl, DateTime.instant_of_astimezoneUtc htime,
    htext⟩

/-- The records of a run's result are in order of time exactly where the run is not cancelled, or
its new records arrived in that order. -/
theorem run_timeOrdered_iff {result : DatabentoResult}
    (hnormalizer : adapter.normalizer = normalizer.normalize)
    (hrun : adapter.run request cancelled passes = some (.ok result)) :
    TimeOrdered normalizer result.records ↔
      (Interrupted request cancelled (batches adapter request cancelled passes) →
        TimeOrdered normalizer (newRecords []
          (readRecords adapter request (batches adapter request cancelled passes)))) := by
  obtain ⟨ending, settled, houtcome, hsettled, rfl⟩ := run_eq_ok_iff.mp hrun
  have hnew : newRecords []
      (readRecords adapter request (batches adapter request cancelled passes)) =
        arrived settled := by
    rw [arrived_eq_newRecords, normalized_of_settled hsettled]
    rfl
  have hcancelled : ending.cancelled = true ↔
      Interrupted request cancelled (batches adapter request cancelled passes) := by
    rw [cancelled_iff houtcome, Interrupted, Nat.add_comm]
    rfl
  rw [← hcancelled, hnew]
  by_cases hstopped : ending.cancelled = true
  · rw [DatabentoEnding.result, if_pos hstopped]
    exact ⟨fun h _ => h, fun h => h hstopped⟩
  · rw [DatabentoEnding.result, if_neg hstopped]
    refine iff_of_true ?_ fun h => absurd h hstopped
    refine (timeOrdered_iff fun record hrecord => ?_).mpr (StableSort.sortBy_sorted _ _)
    exact happensAt_of_settled hnormalizer hsettled record
      (arrived_subset settled (StableSort.mem_sortBy.mp hrecord))

/-- Texts of ten o'clock, and half a second later. -/
def tenOClock : RowText where
  strip := id
  upper := id
  lower := id
  readFloat _ := none
  readInt _ := none
  readDate _ := none
  readDateTime s :=
    if s = "2026-01-02T10:00:00+00:00" then some ⟨1767348000000000, some 0⟩
    else if s = "2026-01-02T10:00:00.500000+00:00" then some ⟨1767348000500000, some 0⟩
    else none
  writeFloat _ := "0.0"
  fixed _ _ := "0"
  newYorkOffset _ := 0
  writeJson _ := "\x7b\x7d"
  sha256 := id

/-- A normalizer of the quotes of one instrument. -/
def oneInstrument : DatabentoNormalizer where
  text := tenOClock
  resolver := ⟨[{ rawSymbol := "AAPL  260116C00100000", instrumentId := 1
                  canonicalUnderlying := "AAPL", effectiveStart := ⟨0, some 0⟩
                  effectiveEnd := ⟨253402300799999999, some 0⟩ }]⟩

def quoteRow (event : String) (sequence : Int) : Row :=
  .ofEntries [("ts_event", .str event), ("instrument_id", .int 1), ("sequence", .int sequence),
    ("bid_px", .int 1), ("ask_px", .int 2)]

/-- In three batches, a quote of half a second past ten comes before one of ten o'clock, which is
repeated. -/
def lateQuoteFirst : DatabentoAdapter where
  transport _ _ batch _ := .ok
    { requestId := "r", batchNumber := batch, checksum := "0", hasMore := batch < 3
      continuation := some (toString batch)
      records := [if batch = 1 then quoteRow "2026-01-02T10:00:00.500000Z" 1
        else quoteRow "2026-01-02T10:00:00Z" 2] }
  normalizer := oneInstrument.normalize

/-- When the events of the records of a run happen. -/
def eventTimes (outcome : Option (Except Exc DatabentoResult)) : List (Option DateTime) :=
  match outcome with
  | some (.ok result) =>
    result.records.map fun record => (oneInstrument.eventTime record.rawProvider).toOption
  | _ => []

theorem exists_result_of_eventTimes {outcome : Option (Except Exc DatabentoResult)}
    (h : eventTimes outcome ≠ []) :
    ∃ result, outcome = some (.ok result) ∧ eventTimes outcome =
      result.records.map fun record => (oneInstrument.eventTime record.rawProvider).toOption := by
  rcases outcome with _ | _ | result
  · exact absurd rfl h
  · exact absurd rfl h
  · exact ⟨result, rfl, rfl⟩

theorem run_timeOrdered_iff_lateQuoteFirst :
    ∃ result, lateQuoteFirst.run quoteRequest (fun _ => false) 3 = some (.ok result) ∧
      TimeOrdered oneInstrument result.records := by
  obtain ⟨result, hrun, -⟩ := @exists_result_of_eventTimes
    (lateQuoteFirst.run quoteRequest (fun _ => false) 3) (by decide +kernel)
  exact ⟨result, hrun, (run_timeOrdered_iff rfl hrun).mpr fun h => absurd h.2 Bool.false_ne_true⟩

/-- Where the caller cancels before the third batch, the records stay out of order. -/
theorem run_lateQuoteFirst_cancelled :
    ∃ result, lateQuoteFirst.run quoteRequest (fun batch => batch == 3) 3 = some (.ok result) ∧
      ¬ TimeOrdered oneInstrument result.records := by
  have htimes : eventTimes (lateQuoteFirst.run quoteRequest (fun batch => batch == 3) 3) =
      [some ⟨1767348000500000, some 0⟩, some ⟨1767348000000000, some 0⟩] := by
    decide +kernel
  obtain ⟨result, hrun, hrecords⟩ := @exists_result_of_eventTimes
    (lateQuoteFirst.run quoteRequest (fun batch => batch == 3) 3) (by rw [htimes]; simp)
  refine ⟨result, hrun, fun hordered => ?_⟩
  have hinstant : ∀ (record : NormalizedDatabentoRecord) (event : DateTime) (instant : Int),
      some event = (oneInstrument.eventTime record.rawProvider).toOption →
      HappensAt oneInstrument record instant → event.instant = instant := by
    rintro record event instant htime ⟨other, -, hother, rfl, -⟩
    rw [hother] at htime
    cases htime
    rfl
  rw [htimes] at hrecords
  obtain ⟨late, rest, hrest, hlate, hearly⟩ := List.map_eq_cons_iff.mp hrecords.symm
  obtain ⟨early, _, rfl, hearly, -⟩ := List.map_eq_cons_iff.mp hearly
  rw [TimeOrdered, hrest] at hordered
  obtain ⟨instant, next, h, hnext, hle⟩ := List.rel_of_pairwise_cons hordered List.mem_cons_self
  have hlater := hinstant late _ instant hlate.symm h
  have hearlier := hinstant early _ next hearly.symm hnext
  subst hlater hearlier
  rw [Prod.Lex.toLex_le_toLex] at hle
  simp [DateTime.instant] at hle

end OptionResearch.DatabentoAdapter
