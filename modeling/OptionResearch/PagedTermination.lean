import OptionResearch.DatabentoAdapter
import OptionResearch.OratsAdapter

/-!
# Where paged downloads end

Both adapters follow the cursors of a transport that answers as a function of the cursor. Page
numbers go up, so that no key of a page comes twice, and only a page that names its own cursor is
noticed: a download ends exactly where the walk along the cursors never comes back to an earlier one
otherwise.
-/

namespace OptionResearch

/-! ### ORATS -/

namespace OratsAdapter

/-- The transport answers with a function of the cursor, under the number of the page it is asked
for. -/
def AnswersByCursor (transport : OratsTransport) (request : OratsDataRequest)
    (answer : Option String → Except OratsTransportError OratsResponse) : Prop :=
  ∀ call page cursor, transport call request page cursor =
    match answer cursor with
    | .ok response => .ok { response with pageNumber := page }
    | .error error => .error (.raised error)

section Cursors

variable (answer : Option String → Except OratsTransportError OratsResponse)
  (adapter : OratsAdapter) (schemaVersion : String)

/-- The cursor that the page at a cursor names. -/
def nextCursor (cursor : Option String) : Option String :=
  match answer cursor with
  | .ok response => response.nextCursor
  | .error _ => none

/-- The cursors that pages name. -/
def namedCursors : Set (Option String) :=
  {cursor | ∃ other response, answer other = .ok response ∧ response.nextCursor = cursor}

/-- There is a page at the cursor, and it has more to come. -/
def More (cursor : Option String) : Prop :=
  ∃ response, answer cursor = .ok response ∧ response.hasMore = true

/-- And it does not name its own cursor. -/
def GoesOn (cursor : Option String) : Prop :=
  ∃ response, answer cursor = .ok response ∧ response.hasMore = true ∧
    ¬ (response.nextCursor = cursor ∧ response.nextCursor.isSome)

/-- Every row of the page is normalized or refused by the normalizer. -/
def Normalizes (response : OratsResponse) : Prop :=
  ∀ numbered ∈ response.records.zipIdx 1, ∀ error,
    adapter.normalizer.normalize numbered.1 response.requestId numbered.2 schemaVersion ≠
      .error (.foreign error)

/-- Every row of the page at the cursor is. -/
def NormalizesAt (cursor : Option String) : Prop :=
  ∀ response, answer cursor = .ok response → adapter.Normalizes schemaVersion response

end Cursors

variable {adapter : OratsAdapter} {request : OratsDataRequest} {cancelled : Nat → Bool}
  {answer : Option String → Except OratsTransportError OratsResponse} {paging : OratsPaging}
  {response : OratsResponse} {error : OratsTransportError} {schemaVersion : String}

theorem ask_of_answer (hanswer : AnswersByCursor adapter.transport request answer)
    (h : answer paging.cursor = .ok response) :
    adapter.ask request paging = (.ok (.ok { response with pageNumber := paging.page }), 0) := by
  obtain ⟨more, hmore⟩ := Nat.exists_eq_add_of_le' adapter.attempts_pos
  rw [ask, hmore, List.range'_succ, requestPage, hanswer, h]

/-- The attempts that are left come to a failure. -/
theorem requestPage_error (hanswer : AnswersByCursor adapter.transport request answer)
    {page : Nat} {cursor : Option String} (h : answer cursor = .error error) {left : Nat} :
    ∀ {first calls : Nat}, first + left = adapter.maxAttempts →
      ∃ failure retries, adapter.requestPage request page cursor (List.range' first (left + 1))
        calls = (.ok (.error failure), retries) := by
  induction left with
  | zero =>
    intro first calls hlast
    exact ⟨⟨page, cursor, first, error.message⟩, 0, by
      rw [List.range'_succ, requestPage, hanswer, h]
      simp [← hlast]⟩
  | succ left ih =>
    intro first calls hlast
    obtain ⟨failure, retries, hrest⟩ :=
      @ih (first + 1) (calls + 1) (by omega)
    by_cases hstop : (!error.retryable || first == adapter.maxAttempts) = true
    · exact ⟨⟨page, cursor, first, error.message⟩, 0, by
        rw [List.range'_succ, requestPage, hanswer, h]
        simp only [hstop, if_true]⟩
    · exact ⟨failure, retries + 1, by
        rw [List.range'_succ, requestPage, hanswer, h]
        simp only [hstop, hrest]
        rfl⟩

theorem ask_of_error (hanswer : AnswersByCursor adapter.transport request answer)
    (h : answer paging.cursor = .error error) :
    ∃ failure retries, adapter.ask request paging = (.ok (.error failure), retries) := by
  obtain ⟨more, hmore⟩ := Nat.exists_eq_add_of_le' adapter.attempts_pos
  rw [ask, hmore]
  exact requestPage_error hanswer h (by omega)

/-- Where a run has come to before a page: no failure, and only keys of earlier pages. -/
structure Underway (paging : OratsPaging) : Prop where
  no_failure : paging.failures = []
  completed : paging.completed.length + 1 = paging.page
  keys : ∀ key ∈ paging.seenPages, ∃ page < paging.page, ∃ checksum : String,
    key = s!"{page}:{checksum}"

theorem underway_start : Underway (start request).paging := ⟨rfl, rfl, by simp [start]⟩

/-- The key of the page asked for is new. -/
theorem Underway.key_not_mem (h : Underway paging) (checksum : String) :
    s!"{(paging.page : Int)}:{checksum}" ∉ paging.seenPages := by
  intro hmem
  obtain ⟨page, hlt, other, hkey⟩ := h.keys _ hmem
  exact absurd (number_eq_of_key hkey) (by omega)

theorem Underway.advance (h : Underway paging) (calls : Nat) (checksum : String)
    (cursor : Option String) :
    Underway ((({ paging with calls } : OratsPaging).complete
      s!"{(paging.page : Int)}:{checksum}").advance cursor) where
  no_failure := h.no_failure
  completed := by simp [OratsPaging.complete, OratsPaging.advance, h.completed]
  keys := by
    intro key hkey
    rcases List.mem_append.mp hkey with hold | hnew
    · obtain ⟨page, hlt, hchecksum⟩ := h.keys key hold
      exact ⟨page, Nat.lt_succ_of_lt hlt, hchecksum⟩
    · exact ⟨paging.page, Nat.lt_succ_self _, checksum, List.mem_singleton.mp hnew⟩

/-- What a pass does at a cursor with a page. -/
theorem turn_of_answer (hanswer : AnswersByCursor adapter.transport request answer)
    (hunder : Underway paging) (hgo : ¬ cancelled paging.page = true)
    (h : answer paging.cursor = .ok response) :
    let page : OratsResponse := { response with pageNumber := paging.page }
    let completed := ({ paging with calls := paging.calls + 0 + 1 } : OratsPaging).complete
      s!"{(paging.page : Int)}:{response.rawChecksum}"
    adapter.turn request cancelled paging =
      if !response.hasMore then .last page (.ok (completed, false))
      else if response.nextCursor = paging.cursor ∧ response.nextCursor.isSome then
        .last page (.ok (completed.fail 1 "Pagination cursor did not advance", false))
      else .next page (completed.advance response.nextCursor) := by
  intro page completed
  rw [turn, if_neg hgo, ask_of_answer hanswer h]
  dsimp only
  rw [if_neg (hunder.key_not_mem _), if_neg (not_not.mpr rfl)]
  rfl

theorem turn_of_error (hanswer : AnswersByCursor adapter.transport request answer)
    (hgo : ¬ cancelled paging.page = true) (h : answer paging.cursor = .error error) :
    ∃ failure, adapter.turn request cancelled paging =
      .leave (.ok ({ paging with failures := paging.failures ++ [failure] }, false)) := by
  obtain ⟨failure, retries, hask⟩ := ask_of_error hanswer h
  exact ⟨failure, by rw [turn, if_neg hgo, hask]⟩

theorem turn_of_cancelled (h : cancelled paging.page = true) :
    adapter.turn request cancelled paging = .leave (.ok (paging, true)) := by
  rw [turn, if_pos h]

/-- A page that is read is that of its cursor. -/
theorem answer_of_reads (hanswer : AnswersByCursor adapter.transport request answer)
    (hunder : Underway paging) {page : OratsResponse}
    (h : PagedLoop.Reads (adapter.turn request cancelled) paging page) :
    ∃ response, answer paging.cursor = .ok response ∧
      page = { response with pageNumber := paging.page } := by
  by_cases hcancelled : cancelled paging.page = true
  · simp [PagedLoop.Reads, turn_of_cancelled hcancelled] at h
  · cases hcursor : answer paging.cursor with
    | error error =>
      obtain ⟨failure, hturn⟩ := turn_of_error hanswer hcancelled hcursor
      simp [PagedLoop.Reads, hturn] at h
    | ok response =>
      refine ⟨response, rfl, ?_⟩
      rw [PagedLoop.Reads, turn_of_answer hanswer hunder hcancelled hcursor] at h
      split_ifs at h <;> rcases h with ⟨next, h⟩ | ⟨result, h⟩ <;> cases h <;> rfl

/-- The loop of a run follows the cursors. -/
theorem cursorLoop (hanswer : AnswersByCursor adapter.transport request answer) :
    PagedLoop.CursorLoop (adapter.turn request cancelled) Underway OratsPaging.page
      OratsPaging.cursor (fun page => cancelled page = true) (GoesOn answer) (More answer)
      (NormalizesAt answer adapter schemaVersion) (nextCursor answer)
      (fun ending => ending.1.completed.length) (fun ending => ending.1.failures ≠ [])
      (adapter.Normalizes schemaVersion) where
  next := by
    rintro paging hunder hgo ⟨response, hresponse, hmore, hstall⟩
    have hturn := turn_of_answer hanswer hunder hgo hresponse
    dsimp only at hturn
    rw [if_neg (by simp [hmore]), if_neg hstall] at hturn
    refine ⟨_, _, hturn, hunder.advance _ _ _, rfl, ?_⟩
    rw [nextCursor, hresponse]
    rfl
  asked_stop := by
    intro paging hunder hcancelled
    exact ⟨_, turn_of_cancelled hcancelled, hunder.completed, not_not.mpr hunder.no_failure⟩
  end_stop := by
    intro paging hunder hgo hends
    cases hcursor : answer paging.cursor with
    | error error =>
      obtain ⟨failure, hturn⟩ := turn_of_error hanswer hgo hcursor
      exact ⟨_, .inl ⟨hturn, hunder.completed⟩⟩
    | ok response =>
      have hturn := turn_of_answer hanswer hunder hgo hcursor
      dsimp only at hturn
      have hcompleted := hunder.completed
      by_cases hmore : response.hasMore = true
      · by_cases hstall : response.nextCursor = paging.cursor ∧ response.nextCursor.isSome
        · rw [if_neg (by simp [hmore]), if_pos hstall] at hturn
          refine ⟨_, .inr ⟨_, hturn, ?_, fun _ => List.append_ne_nil_of_right_ne_nil _ (by simp)⟩⟩
          simpa [OratsPaging.complete, OratsPaging.fail] using hcompleted
        · exact absurd ⟨response, hcursor, hmore, hstall⟩ hends
      · rw [if_pos (by simp [hmore])] at hturn
        refine ⟨_, .inr ⟨_, hturn, ?_, ?_⟩⟩
        · simpa [OratsPaging.complete] using hcompleted
        · rintro ⟨other, hother, hothers⟩
          rw [hcursor] at hother
          cases hother
          exact absurd hothers hmore
  more_of_goesOn := fun _ ⟨response, hresponse, hmore, _⟩ => ⟨response, hresponse, hmore⟩
  clean_page := by
    intro paging page hunder hreads
    obtain ⟨response, hresponse, rfl⟩ := answer_of_reads hanswer hunder hreads
    constructor
    · intro hclean other hother
      rw [hresponse] at hother
      cases hother
      exact hclean
    · exact fun hclean => hclean response hresponse
  clean_cursor := by
    intro paging hunder hgo
    cases hcursor : answer paging.cursor with
    | error error =>
      left
      intro response hresponse
      rw [hcursor] at hresponse
      cases hresponse
    | ok response =>
      right
      have hturn := turn_of_answer hanswer hunder hgo hcursor
      dsimp only at hturn
      simp only [PagedLoop.Reads, hturn]
      split_ifs <;> simp

/-- What becomes of every row is known exactly where every page is normalized. -/
theorem exists_settled_iff (pages : List OratsResponse) :
    (∃ settled, (numberedRows pages).mapM (adapter.settle schemaVersion) = .ok settled) ↔
      ∀ page ∈ pages, adapter.Normalizes schemaVersion page := by
  have hsettle : ∀ page : OratsResponse, ∀ numbered : Row × Nat,
      (∃ settled, adapter.settle schemaVersion (page, numbered) = .ok settled) ↔
        ∀ error, adapter.normalizer.normalize numbered.1 page.requestId numbered.2 schemaVersion ≠
          .error (.foreign error) := by
    intro page numbered
    rw [settle]
    cases hread : adapter.normalizer.normalize numbered.1 page.requestId numbered.2
        schemaVersion with
    | error fault => cases fault <;> simp
    | ok record => simp
  rw [numberedRows, exists_mapM_rows_iff]
  exact forall₂_congr fun page _ => forall₂_congr fun numbered _ => hsettle page numbered

/-- The run returns, and reports a failure where a page that it completed, with more to come, names
a cursor that was visited. -/
def EndsReported (adapter : OratsAdapter) (request : OratsDataRequest) (cancelled : Nat → Bool)
    (answer : Option String → Except OratsTransportError OratsResponse) : Prop :=
  ∃ passes result, adapter.run request cancelled passes = some (.ok result) ∧
    ∀ t < result.completedPages.length,
      More answer ((nextCursor answer)^[t] request.resumeCursor) →
      (∃ i ≤ t, (nextCursor answer)^[t + 1] request.resumeCursor =
        (nextCursor answer)^[i] request.resumeCursor) → result.failures ≠ []

/-- The dataset is in the catalogue, and the pages that the run comes to before it stops are
normalized and name no cursor that was visited, other than their own. -/
def NamesFreshCursors (adapter : OratsAdapter) (request : OratsDataRequest)
    (cancelled : Nat → Bool)
    (answer : Option String → Except OratsTransportError OratsResponse) : Prop :=
  ∃ dataset, getDataset request.dataset request.frequency = .ok dataset ∧
    ∀ t, (∀ i ≤ t, ¬ cancelled (i + 1) = true) →
      (∀ i < t, GoesOn answer ((nextCursor answer)^[i] request.resumeCursor)) →
      NormalizesAt answer adapter dataset.schemaVersion
          ((nextCursor answer)^[t] request.resumeCursor) ∧
        (GoesOn answer ((nextCursor answer)^[t] request.resumeCursor) →
          ∀ i ≤ t, (nextCursor answer)^[t + 1] request.resumeCursor ≠
            (nextCursor answer)^[i] request.resumeCursor)

theorem finite_range_nextCursor (hfin : (namedCursors answer).Finite) :
    (Set.range (nextCursor answer)).Finite := by
  refine (hfin.insert none).subset ?_
  rintro _ ⟨cursor, rfl⟩
  unfold nextCursor
  cases hcursor : answer cursor with
  | ok response => exact .inr ⟨cursor, response, hcursor, rfl⟩
  | error error => exact .inl rfl

theorem endsReported_iff (hanswer : AnswersByCursor adapter.transport request answer)
    (hfin : (namedCursors answer).Finite) :
    EndsReported adapter request cancelled answer ↔
      NamesFreshCursors adapter request cancelled answer := by
  constructor
  · rintro ⟨passes, result, hrun, hfails⟩
    obtain ⟨dataset, paging, stopped, settled, hdataset, houtcome, hsettled, hresult⟩ :=
      run_eq_ok_iff.mp ⟨result, hrun, rfl⟩
    refine ⟨dataset, hdataset, ((cursorLoop hanswer).ends_iff underway_start rfl
      (finite_range_nextCursor hfin)).mp
      ⟨passes, (paging, stopped), houtcome, (exists_settled_iff _).mp ⟨settled, hsettled⟩, ?_⟩⟩
    have hcompleted : result.completedPages = paging.completed :=
      (congrArg OratsRunResult.completedPages hresult).symm
    have hfailures : result.failures = paging.failures :=
      (congrArg OratsRunResult.failures hresult).symm
    rwa [hcompleted, hfailures] at hfails
  · rintro ⟨dataset, hdataset, hcond⟩
    obtain ⟨passes, ⟨paging, stopped⟩, houtcome, hclean, hfails⟩ :=
      ((cursorLoop hanswer).ends_iff underway_start rfl
      (finite_range_nextCursor hfin)).mpr hcond
    obtain ⟨settled, hsettled⟩ := (exists_settled_iff _).mpr hclean
    obtain ⟨result, hrun, hresult⟩ :=
      run_eq_ok_iff.mpr ⟨dataset, paging, stopped, settled, hdataset, houtcome, hsettled, rfl⟩
    have hcompleted : result.completedPages = paging.completed :=
      congrArg OratsRunResult.completedPages hresult
    have hfailures : result.failures = paging.failures :=
      congrArg OratsRunResult.failures hresult
    refine ⟨passes, result, hrun, ?_⟩
    rwa [hcompleted, hfailures]

end OratsAdapter

/-! ### Databento -/

/-- The failures of rows have their message for a code, those of the batches themselves do not. -/
def DatabentoFailure.OfBatch (failure : DatabentoFailure) : Prop := failure.code ≠ failure.message

namespace DatabentoAdapter

/-- The transport answers with a function of the continuation, under the number of the batch it is
asked for. -/
def AnswersByContinuation (transport : DatabentoTransport) (request : DatabentoRequest)
    (answer : Option String → Except DatabentoTransportError DatabentoResponse) : Prop :=
  ∀ call batch continuation, transport call request batch continuation =
    match answer continuation with
    | .ok response => .ok { response with batchNumber := batch }
    | .error error => .error (.raised error)

section Continuations

variable (answer : Option String → Except DatabentoTransportError DatabentoResponse)
  (adapter : DatabentoAdapter) (request : DatabentoRequest)

/-- The continuation that the batch at a continuation names. -/
def nextContinuation (continuation : Option String) : Option String :=
  match answer continuation with
  | .ok response => response.continuation
  | .error _ => none

/-- The continuations that batches name. -/
def namedContinuations : Set (Option String) :=
  {continuation | ∃ other response, answer other = .ok response ∧
    response.continuation = continuation}

/-- There is a batch at the continuation, and it has more to come. -/
def More (continuation : Option String) : Prop :=
  ∃ response, answer continuation = .ok response ∧ response.hasMore = true

/-- Moreover it is asked for, and does not name its own continuation. -/
def GoesOn (continuation : Option String) : Prop :=
  1 ≤ adapter.maximumAttempts ∧ ∃ response, answer continuation = .ok response ∧
    response.hasMore = true ∧ response.continuation ≠ continuation

/-- Every row of the batch is normalized or refused by the normalizer. -/
def Normalizes (batch : Nat × DatabentoResponse) : Prop :=
  ∀ raw ∈ batch.2.records, ∀ error,
    adapter.normalizer raw request.dataset request.schema batch.2.checksum ≠
      .error (.foreign error)

/-- Every row of the batch at the continuation is, if it is asked for. -/
def NormalizesAt (continuation : Option String) : Prop :=
  1 ≤ adapter.maximumAttempts → ∀ response, answer continuation = .ok response →
    ∀ batch, adapter.Normalizes request (batch, response)

end Continuations

variable {adapter : DatabentoAdapter} {request : DatabentoRequest} {cancelled : Nat → Bool}
  {answer : Option String → Except DatabentoTransportError DatabentoResponse}
  {paging : DatabentoPaging} {response : DatabentoResponse} {error : DatabentoTransportError}

theorem ask_of_answer (hanswer : AnswersByContinuation adapter.transport request answer)
    (hattempts : 1 ≤ adapter.maximumAttempts) (h : answer paging.continuation = .ok response) :
    adapter.ask request paging = (.ok (.ok { response with batchNumber := paging.batch }), 1) := by
  obtain ⟨more, hmore⟩ := Nat.exists_eq_add_of_le' (show 1 ≤ adapter.maximumAttempts.toNat by omega)
  rw [ask, hmore, List.range'_succ, requestBatch, hanswer, h]

/-- Attempts at a continuation without a batch end without one, whatever they are. -/
theorem requestBatch_error (hanswer : AnswersByContinuation adapter.transport request answer)
    {batch : Nat} {continuation : Option String} (h : answer continuation = .error error)
    (attempts : List Nat) : ∀ calls, ∃ failure taken,
      adapter.requestBatch request batch continuation attempts calls =
        (.ok (.error failure), taken) := by
  induction attempts with
  | nil => exact fun _ => ⟨none, 0, rfl⟩
  | cons attempt rest ih =>
    intro calls
    obtain ⟨failure, taken, hrest⟩ := ih (calls + 1)
    by_cases hstop : (!error.retryable || (attempt : Int) == adapter.maximumAttempts) = true
    · exact ⟨some ⟨batch, "transport_failure", error.message⟩, 1, by
        rw [requestBatch, hanswer, h]
        simp only [hstop, if_true]⟩
    · exact ⟨failure, taken + 1, by
        rw [requestBatch, hanswer, h]
        simp only [hstop, hrest]
        rfl⟩

theorem ask_of_error (hanswer : AnswersByContinuation adapter.transport request answer)
    (h : answer paging.continuation = .error error) :
    ∃ failure taken, adapter.ask request paging = (.ok (.error failure), taken) :=
  requestBatch_error hanswer h _ _

/-- Without attempts there is no batch. -/
theorem ask_of_no_attempts (h : ¬ 1 ≤ adapter.maximumAttempts) :
    adapter.ask request paging = (.ok (.error none), 0) := by
  rw [ask, show adapter.maximumAttempts.toNat = 0 by omega]
  rfl

/-- Where a run has come to before a batch: only keys of earlier batches. -/
structure Underway (paging : DatabentoPaging) : Prop where
  completed : paging.completed.length + 1 = paging.batch
  keys : ∀ key ∈ paging.seenBatches, ∃ batch < paging.batch, ∃ checksum : String,
    key = s!"{batch}:{checksum}"

theorem underway_start : Underway (start request).1 := ⟨rfl, by simp [start]⟩

/-- The key of the batch asked for is new. -/
theorem Underway.key_not_mem (h : Underway paging) (checksum : String) :
    s!"{paging.batch}:{checksum}" ∉ paging.seenBatches := by
  intro hmem
  obtain ⟨batch, hlt, other, hkey⟩ := h.keys _ hmem
  exact absurd (number_eq_of_key hkey) (by omega)

theorem Underway.advance (h : Underway paging) (calls : Nat) (checksum : String)
    (continuation : Option String) :
    Underway ((({ paging with calls } : DatabentoPaging).complete
      s!"{paging.batch}:{checksum}").advance continuation) where
  completed := by simp [DatabentoPaging.complete, DatabentoPaging.advance, h.completed]
  keys := by
    intro key hkey
    rcases List.mem_append.mp hkey with hold | hnew
    · obtain ⟨batch, hlt, hchecksum⟩ := h.keys key hold
      exact ⟨batch, Nat.lt_succ_of_lt hlt, hchecksum⟩
    · exact ⟨paging.batch, Nat.lt_succ_self _, checksum, List.mem_singleton.mp hnew⟩

/-- What a pass does at a continuation with a batch. -/
theorem turn_of_answer (hanswer : AnswersByContinuation adapter.transport request answer)
    (hattempts : 1 ≤ adapter.maximumAttempts) (hunder : Underway paging)
    (hgo : ¬ cancelled paging.batch = true) (h : answer paging.continuation = .ok response) :
    let batch := (paging.batch, ({ response with batchNumber := paging.batch } : DatabentoResponse))
    let completed := ({ paging with calls := paging.calls + 1 } : DatabentoPaging).complete
      s!"{paging.batch}:{response.checksum}"
    adapter.turn request cancelled paging =
      if !response.hasMore then .last batch (.ok { paging := completed })
      else if response.continuation = paging.continuation then
        .last batch (.ok ⟨completed, some ⟨paging.batch, "stalled_continuation",
          "Continuation did not advance"⟩, false⟩)
      else .next batch (completed.advance response.continuation) := by
  intro batch completed
  rw [turn, if_neg hgo, ask_of_answer hanswer hattempts h]
  dsimp only
  rw [if_neg (not_not.mpr rfl), if_neg (hunder.key_not_mem _)]

theorem turn_of_no_batch (hanswer : AnswersByContinuation adapter.transport request answer)
    (hgo : ¬ cancelled paging.batch = true)
    (h : 1 ≤ adapter.maximumAttempts → ∃ error, answer paging.continuation = .error error) :
    ∃ failure, adapter.turn request cancelled paging = .leave (.ok { paging, failure }) := by
  by_cases hattempts : 1 ≤ adapter.maximumAttempts
  · obtain ⟨error, herror⟩ := h hattempts
    obtain ⟨failure, taken, hask⟩ := ask_of_error hanswer herror
    exact ⟨failure, by rw [turn, if_neg hgo, hask]⟩
  · exact ⟨none, by rw [turn, if_neg hgo, ask_of_no_attempts hattempts]⟩

theorem turn_of_cancelled (h : cancelled paging.batch = true) :
    adapter.turn request cancelled paging = .leave (.ok { paging, cancelled := true }) := by
  rw [turn, if_pos h]

/-- There is a batch to be read at a continuation, or there is none. -/
theorem batch_or_none (continuation : Option String) :
    (1 ≤ adapter.maximumAttempts ∧ ∃ response, answer continuation = .ok response) ∨
      (1 ≤ adapter.maximumAttempts → ∃ error, answer continuation = .error error) := by
  cases hanswer : answer continuation with
  | error error => exact .inr fun _ => ⟨error, rfl⟩
  | ok response =>
    by_cases hattempts : 1 ≤ adapter.maximumAttempts
    · exact .inl ⟨hattempts, response, rfl⟩
    · exact .inr fun h => absurd h hattempts

/-- A batch that is read is that of its continuation. -/
theorem answer_of_reads (hanswer : AnswersByContinuation adapter.transport request answer)
    (hunder : Underway paging) {batch : Nat × DatabentoResponse}
    (h : PagedLoop.Reads (adapter.turn request cancelled) paging batch) :
    1 ≤ adapter.maximumAttempts ∧ ∃ response, answer paging.continuation = .ok response ∧
      batch = (paging.batch, { response with batchNumber := paging.batch }) := by
  by_cases hcancelled : cancelled paging.batch = true
  · simp [PagedLoop.Reads, turn_of_cancelled hcancelled] at h
  · obtain ⟨hattempts, response, hresponse⟩ | hnone := @batch_or_none adapter answer
      paging.continuation
    · refine ⟨hattempts, response, hresponse, ?_⟩
      rw [PagedLoop.Reads, turn_of_answer hanswer hattempts hunder hcancelled hresponse] at h
      split_ifs at h <;> rcases h with ⟨next, h⟩ | ⟨result, h⟩ <;> cases h <;> rfl
    · obtain ⟨failure, hturn⟩ := turn_of_no_batch hanswer hcancelled hnone
      simp [PagedLoop.Reads, hturn] at h

/-- The loop of a run follows the continuations. -/
theorem cursorLoop (hanswer : AnswersByContinuation adapter.transport request answer) :
    PagedLoop.CursorLoop (adapter.turn request cancelled) Underway DatabentoPaging.batch
      DatabentoPaging.continuation (fun batch => cancelled batch = true) (GoesOn answer adapter)
      (More answer) (NormalizesAt answer adapter request) (nextContinuation answer)
      (fun ending => ending.paging.completed.length)
      (fun ending => ∃ failure ∈ ending.failure, failure.OfBatch) (adapter.Normalizes request) where
  next := by
    rintro paging hunder hgo ⟨hattempts, response, hresponse, hmore, hstall⟩
    have hturn := turn_of_answer hanswer hattempts hunder hgo hresponse
    dsimp only at hturn
    rw [if_neg (by simp [hmore]), if_neg hstall] at hturn
    refine ⟨_, _, hturn, hunder.advance _ _ _, rfl, ?_⟩
    rw [nextContinuation, hresponse]
    rfl
  asked_stop := by
    intro paging hunder hcancelled
    exact ⟨_, turn_of_cancelled hcancelled, hunder.completed, by simp⟩
  end_stop := by
    intro paging hunder hgo hends
    obtain ⟨hattempts, response, hresponse⟩ | hnone := @batch_or_none adapter answer
      paging.continuation
    · have hturn := turn_of_answer hanswer hattempts hunder hgo hresponse
      dsimp only at hturn
      have hcompleted := hunder.completed
      by_cases hmore : response.hasMore = true
      · by_cases hstall : response.continuation = paging.continuation
        · rw [if_neg (by simp [hmore]), if_pos hstall] at hturn
          refine ⟨_, .inr ⟨_, hturn, ?_, fun _ => ⟨_, rfl, ?_⟩⟩⟩
          · simpa [DatabentoPaging.complete] using hcompleted
          · simp [DatabentoFailure.OfBatch]
        · exact absurd ⟨hattempts, response, hresponse, hmore, hstall⟩ hends
      · rw [if_pos (by simp [hmore])] at hturn
        refine ⟨_, .inr ⟨_, hturn, ?_, ?_⟩⟩
        · simpa [DatabentoPaging.complete] using hcompleted
        · rintro ⟨other, hother, hothers⟩
          rw [hresponse] at hother
          cases hother
          exact absurd hothers hmore
    · obtain ⟨failure, hturn⟩ := turn_of_no_batch hanswer hgo hnone
      exact ⟨_, .inl ⟨hturn, hunder.completed⟩⟩
  more_of_goesOn := fun _ ⟨_, response, hresponse, hmore, _⟩ => ⟨response, hresponse, hmore⟩
  clean_page := by
    intro paging batch hunder hreads
    obtain ⟨hattempts, response, hresponse, rfl⟩ := answer_of_reads hanswer hunder hreads
    constructor
    · intro hclean _ other hother _
      rw [hresponse] at hother
      cases hother
      exact hclean
    · exact fun hclean => hclean hattempts response hresponse 0
  clean_cursor := by
    intro paging hunder hgo
    obtain ⟨hattempts, response, hresponse⟩ | hnone := @batch_or_none adapter answer
      paging.continuation
    · right
      have hturn := turn_of_answer hanswer hattempts hunder hgo hresponse
      dsimp only at hturn
      simp only [PagedLoop.Reads, hturn]
      split_ifs <;> simp
    · left
      intro hattempts response hresponse
      obtain ⟨error, herror⟩ := hnone hattempts
      rw [hresponse] at herror
      cases herror

/-- What becomes of every row is known exactly where every batch is normalized. -/
theorem exists_settled_iff (batches : List (Nat × DatabentoResponse)) :
    (∃ settled, (numberedRows batches).mapM (adapter.settle request) = .ok settled) ↔
      ∀ batch ∈ batches, adapter.Normalizes request batch := by
  have hsettle : ∀ batch : Nat × DatabentoResponse, ∀ raw : Row,
      (∃ settled, adapter.settle request (batch.1, batch.2, raw) = .ok settled) ↔
        ∀ error, adapter.normalizer raw request.dataset request.schema batch.2.checksum ≠
          .error (.foreign error) := by
    intro batch raw
    rw [settle]
    cases hread : adapter.normalizer raw request.dataset request.schema batch.2.checksum with
    | error fault => cases fault <;> simp
    | ok record => simp
  rw [numberedRows, exists_mapM_rows_iff]
  exact forall₂_congr fun batch _ => forall₂_congr fun raw _ => hsettle batch raw

/-- The failures of rows are no failures of batches. -/
theorem not_ofBatch {settled : List (Nat × Except String NormalizedDatabentoRecord)}
    {failure : DatabentoFailure}
    (h : failure ∈ (rowsOf request (rowSieve.run .empty settled)).failures) :
    ¬ failure.OfBatch := by
  obtain ⟨⟨batch, message | record⟩, -, lastSequence, hread⟩ := Sieve.read_of_refused h
  · cases hread
    exact not_not.mpr rfl
  · simp only [rowSieve] at hread
    split_ifs at hread
    cases hread
    exact not_not.mpr rfl

/-- The run returns, and reports a failure of a batch where a batch that it completed, with more to
come, names a continuation that was visited. -/
def EndsReported (adapter : DatabentoAdapter) (request : DatabentoRequest) (cancelled : Nat → Bool)
    (answer : Option String → Except DatabentoTransportError DatabentoResponse) : Prop :=
  ∃ passes result, adapter.run request cancelled passes = some (.ok result) ∧
    ∀ t < result.completedBatches.length,
      More answer ((nextContinuation answer)^[t] request.continuation) →
      (∃ i ≤ t, (nextContinuation answer)^[t + 1] request.continuation =
        (nextContinuation answer)^[i] request.continuation) →
      ∃ failure ∈ result.failures, failure.OfBatch

/-- The batches that the run comes to before it stops are normalized and name no continuation that
was visited, other than their own. -/
def NamesFreshContinuations (adapter : DatabentoAdapter) (request : DatabentoRequest)
    (cancelled : Nat → Bool)
    (answer : Option String → Except DatabentoTransportError DatabentoResponse) : Prop :=
  ∀ t, (∀ i ≤ t, ¬ cancelled (i + 1) = true) →
    (∀ i < t, GoesOn answer adapter ((nextContinuation answer)^[i] request.continuation)) →
    NormalizesAt answer adapter request ((nextContinuation answer)^[t] request.continuation) ∧
      (GoesOn answer adapter ((nextContinuation answer)^[t] request.continuation) →
        ∀ i ≤ t, (nextContinuation answer)^[t + 1] request.continuation ≠
          (nextContinuation answer)^[i] request.continuation)

theorem ofBatch_mem_result_iff {ending : DatabentoEnding}
    {settled : List (Nat × Except String NormalizedDatabentoRecord)} :
    (∃ failure ∈ (ending.result (rowsOf request (rowSieve.run .empty settled))).failures,
        failure.OfBatch) ↔ ∃ failure ∈ ending.failure, failure.OfBatch := by
  constructor
  · rintro ⟨failure, hmem, hbatch⟩
    rcases List.mem_append.mp hmem with hrow | hend
    · exact absurd hbatch (not_ofBatch hrow)
    · exact ⟨failure, Option.mem_toList.mp hend, hbatch⟩
  · rintro ⟨failure, hmem, hbatch⟩
    exact ⟨failure, List.mem_append_right _ (Option.mem_toList.mpr hmem), hbatch⟩

theorem finite_range_nextContinuation (hfin : (namedContinuations answer).Finite) :
    (Set.range (nextContinuation answer)).Finite := by
  refine (hfin.insert none).subset ?_
  rintro _ ⟨continuation, rfl⟩
  unfold nextContinuation
  cases hcontinuation : answer continuation with
  | ok response => exact .inr ⟨continuation, response, hcontinuation, rfl⟩
  | error error => exact .inl rfl

theorem endsReported_iff (hanswer : AnswersByContinuation adapter.transport request answer)
    (hfin : (namedContinuations answer).Finite) :
    EndsReported adapter request cancelled answer ↔
      NamesFreshContinuations adapter request cancelled answer := by
  constructor
  · rintro ⟨passes, result, hrun, hfails⟩
    obtain ⟨ending, settled, houtcome, hsettled, rfl⟩ := run_eq_ok_iff.mp hrun
    refine ((cursorLoop hanswer).ends_iff underway_start rfl
      (finite_range_nextContinuation hfin)).mp
      ⟨passes, ending, houtcome, (exists_settled_iff _).mp ⟨settled, hsettled⟩, ?_⟩
    intro t ht hmore hback
    exact ofBatch_mem_result_iff.mp (hfails t ht hmore hback)
  · intro hcond
    obtain ⟨passes, ending, houtcome, hclean, hfails⟩ :=
      ((cursorLoop hanswer).ends_iff underway_start rfl
      (finite_range_nextContinuation hfin)).mpr hcond
    obtain ⟨settled, hsettled⟩ := (exists_settled_iff _).mpr hclean
    refine ⟨passes, _, run_eq_ok_iff.mpr ⟨ending, settled, houtcome, hsettled, rfl⟩, ?_⟩
    intro t ht hmore hback
    exact ofBatch_mem_result_iff.mpr (hfails t ht hmore hback)

end DatabentoAdapter

/-! ### Both -/

/-- Over finitely many cursors, the downloads return with the failures that are due exactly where
no page that they come to names a cursor that was visited, other than its own. -/
theorem pagedDownloads_end_iff {orats : OratsAdapter} {request : OratsDataRequest}
    {answer : Option String → Except OratsTransportError OratsResponse}
    {databento : DatabentoAdapter} {batchRequest : DatabentoRequest}
    {batchAnswer : Option String → Except DatabentoTransportError DatabentoResponse}
    (cancelled : Nat → Bool) (hanswer : OratsAdapter.AnswersByCursor orats.transport request answer)
    (hfin : (OratsAdapter.namedCursors answer).Finite)
    (hbatchAnswer : DatabentoAdapter.AnswersByContinuation databento.transport batchRequest
      batchAnswer)
    (hbatchFin : (DatabentoAdapter.namedContinuations batchAnswer).Finite) :
    (OratsAdapter.EndsReported orats request cancelled answer ↔
        OratsAdapter.NamesFreshCursors orats request cancelled answer) ∧
      (DatabentoAdapter.EndsReported databento batchRequest cancelled batchAnswer ↔
        DatabentoAdapter.NamesFreshContinuations databento batchRequest cancelled batchAnswer) :=
  ⟨OratsAdapter.endsReported_iff hanswer hfin,
    DatabentoAdapter.endsReported_iff hbatchAnswer hbatchFin⟩

/-- A page that every cursor has, and that names the cursor after it. -/
def oratsPage (next : Option String → Option String) (cursor : Option String) :
    Except OratsTransportError OratsResponse :=
  .ok { records := [.empty], requestId := "r", pageNumber := 1, nextCursor := next cursor
        hasMore := (next cursor).isSome, rawChecksum := "0" }

/-- An adapter of these pages, whose rows lack their fields. -/
def oratsPages (next : Option String → Option String) : OratsAdapter where
  transport _ _ page cursor :=
    match oratsPage next cursor with
    | .ok response => .ok { response with pageNumber := page }
    | .error error => .error (.raised error)
  normalizer :=
    ⟨"orats-canonical-v1", fun _ _ _ _ => .error (.raised "Missing required ORATS fields")⟩
  attempts_pos := by decide

def databentoBatch (next : Option String → Option String) (continuation : Option String) :
    Except DatabentoTransportError DatabentoResponse :=
  .ok { requestId := "r", batchNumber := 1, records := [.empty], continuation := next continuation
        hasMore := (next continuation).isSome, checksum := "0" }

def databentoBatches (next : Option String → Option String) : DatabentoAdapter where
  transport _ _ batch continuation :=
    match databentoBatch next continuation with
    | .ok response => .ok { response with batchNumber := batch }
    | .error error => .error (.raised error)
  normalizer _ _ _ _ := .error (.raised "invalid_record")

/-- One page leads to another one, which is the last. -/
def onePageMore (cursor : Option String) : Option String :=
  if cursor = none then some "a" else none

/-- The pages of two cursors name each other. -/
def backAndForth (cursor : Option String) : Option String :=
  if cursor = some "a" then some "b" else some "a"

section Pages

variable {next : Option String → Option String} {cursor : Option String}

theorem goesOn_oratsPage :
    OratsAdapter.GoesOn (oratsPage next) cursor ↔ (next cursor).isSome ∧ next cursor ≠ cursor := by
  simp only [OratsAdapter.GoesOn, oratsPage]
  constructor
  · rintro ⟨response, ⟨⟩, hmore, hstall⟩
    exact ⟨hmore, fun heq => hstall ⟨heq, hmore⟩⟩
  · rintro ⟨hmore, hne⟩
    exact ⟨_, rfl, hmore, fun h => hne h.1⟩

theorem goesOn_databentoBatch :
    DatabentoAdapter.GoesOn (databentoBatch next) (databentoBatches next) cursor ↔
      (next cursor).isSome ∧ next cursor ≠ cursor := by
  simp only [DatabentoAdapter.GoesOn, databentoBatch]
  constructor
  · rintro ⟨-, response, ⟨⟩, hmore, hstall⟩
    exact ⟨hmore, hstall⟩
  · rintro ⟨hmore, hne⟩
    exact ⟨(by decide : (1 : Int) ≤ 3), _, rfl, hmore, hne⟩

theorem namedCursors_oratsPage :
    OratsAdapter.namedCursors (oratsPage next) = Set.range next := by
  ext cursor
  constructor
  · rintro ⟨other, response, ⟨⟩, rfl⟩
    exact ⟨other, rfl⟩
  · rintro ⟨other, rfl⟩
    exact ⟨other, _, rfl, rfl⟩

theorem namedContinuations_databentoBatch :
    DatabentoAdapter.namedContinuations (databentoBatch next) = Set.range next := by
  ext cursor
  constructor
  · rintro ⟨other, response, ⟨⟩, rfl⟩
    exact ⟨other, rfl⟩
  · rintro ⟨other, rfl⟩
    exact ⟨other, _, rfl, rfl⟩

theorem finite_range_onePageMore : (Set.range onePageMore).Finite := by
  refine (Set.toFinite {some "a", none}).subset ?_
  rintro _ ⟨cursor, rfl⟩
  unfold onePageMore
  split_ifs <;> simp

theorem finite_range_backAndForth : (Set.range backAndForth).Finite := by
  refine (Set.toFinite {some "a", some "b"}).subset ?_
  rintro _ ⟨cursor, rfl⟩
  unfold backAndForth
  split_ifs <;> simp

/-- After one page more there is no other. -/
theorem fresh_onePageMore {t : Nat}
    (hgoes : ∀ i < t, (onePageMore (onePageMore^[i] none)).isSome)
    (hmore : (onePageMore (onePageMore^[t] none)).isSome) :
    ∀ i ≤ t, onePageMore^[t + 1] none ≠ onePageMore^[i] none := by
  intro i hi
  rcases Nat.eq_zero_or_pos t with rfl | hpos
  · obtain rfl := Nat.le_zero.mp hi
    decide
  · rcases Nat.lt_or_eq_of_le (show 1 ≤ t from hpos) with hlt | rfl
    · exact absurd (hgoes 1 hlt) (by decide)
    · exact absurd hmore (by decide)

end Pages

/-- Downloads of two pages end. -/
theorem pagedDownloads_end_iff_onePageMore :
    OratsAdapter.EndsReported (oratsPages onePageMore) twoSymbols (fun _ => false)
        (oratsPage onePageMore) ∧
      DatabentoAdapter.EndsReported (databentoBatches onePageMore) quoteRequest (fun _ => false)
        (databentoBatch onePageMore) := by
  have hends := @pagedDownloads_end_iff (oratsPages onePageMore) twoSymbols (oratsPage onePageMore)
    (databentoBatches onePageMore) quoteRequest (databentoBatch onePageMore) (fun _ => false)
    (fun _ _ _ => rfl) (namedCursors_oratsPage ▸ finite_range_onePageMore) (fun _ _ _ => rfl)
    (namedContinuations_databentoBatch ▸ finite_range_onePageMore)
  refine ⟨hends.1.mpr ⟨_, rfl, fun t _ hgoes => ⟨?_, fun hmore => ?_⟩⟩,
    hends.2.mpr fun t _ hgoes => ⟨?_, fun hmore => ?_⟩⟩
  · rintro response - numbered - error ⟨⟩
  · exact fresh_onePageMore (fun i hi => (goesOn_oratsPage.mp (hgoes i hi)).1)
      (goesOn_oratsPage.mp hmore).1
  · rintro - response - batch raw - error ⟨⟩
  · exact fresh_onePageMore (fun i hi => (goesOn_databentoBatch.mp (hgoes i hi)).1)
      (goesOn_databentoBatch.mp hmore).1

/-- Downloads of two pages that name each other never return. -/
theorem pagedDownloads_backAndForth_never_end :
    (OratsAdapter.AnswersByCursor (oratsPages backAndForth).transport twoSymbols
        (oratsPage backAndForth) ∧
      (OratsAdapter.namedCursors (oratsPage backAndForth)).Finite ∧
      ¬ ∃ passes result, (oratsPages backAndForth).run twoSymbols (fun _ => false) passes =
        some (.ok result)) ∧
    DatabentoAdapter.AnswersByContinuation (databentoBatches backAndForth).transport quoteRequest
        (databentoBatch backAndForth) ∧
      (DatabentoAdapter.namedContinuations (databentoBatch backAndForth)).Finite ∧
      ¬ ∃ passes result, (databentoBatches backAndForth).run quoteRequest (fun _ => false) passes =
        some (.ok result) := by
  have hnever : ∀ cursor, (backAndForth cursor).isSome ∧ backAndForth cursor ≠ cursor := by
    intro cursor
    unfold backAndForth
    split_ifs with hcursor
    · rw [hcursor]
      exact ⟨rfl, by decide⟩
    · exact ⟨rfl, fun h => hcursor h.symm⟩
  refine ⟨⟨fun _ _ _ => rfl, namedCursors_oratsPage ▸ finite_range_backAndForth, ?_⟩,
    fun _ _ _ => rfl, namedContinuations_databentoBatch ▸ finite_range_backAndForth, ?_⟩
  · rintro ⟨passes, result, hrun⟩
    obtain ⟨dataset, paging, stopped, settled, -, houtcome, -⟩ :=
      OratsAdapter.run_eq_ok_iff.mp ⟨result, hrun, rfl⟩
    have hfollows := (@OratsAdapter.cursorLoop (oratsPages backAndForth) twoSymbols (fun _ => false)
      (oratsPage backAndForth) dataset.schemaVersion (fun _ _ _ => rfl)).follows
    rw [hfollows.outcome_eq_none OratsAdapter.underway_start fun t =>
      ⟨by simp, goesOn_oratsPage.mpr (hnever _)⟩] at houtcome
    cases houtcome
  · rintro ⟨passes, result, hrun⟩
    obtain ⟨ending, settled, houtcome, -⟩ := DatabentoAdapter.run_eq_ok_iff.mp hrun
    have hfollows := (@DatabentoAdapter.cursorLoop (databentoBatches backAndForth) quoteRequest
      (fun _ => false) (databentoBatch backAndForth) (fun _ _ _ => rfl)).follows
    rw [hfollows.outcome_eq_none DatabentoAdapter.underway_start fun t =>
      ⟨by simp, goesOn_databentoBatch.mpr (hnever _)⟩] at houtcome
    cases houtcome

end OptionResearch
