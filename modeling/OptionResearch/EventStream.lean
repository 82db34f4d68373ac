import OptionResearch.EventClock

/-!
# The stream of the event clock

What `build` emits is the sorted list of the events its duplicate policy keeps, numbered from one.
It depends on the sessions through their order by date only, and without duplicates on no order at
all. Among simultaneous events of one priority the sort key compares the names of the event types
before the sequence hints, so that the hints decide only within a type.
-/

namespace OptionResearch

open StableSort

/-! ### The event types and their names -/

namespace EventType

def all : List EventType :=
  [.sessionOpen, .intraday, .quote, .underlyingPrice, .volatilitySurface, .earnings, .dividend,
    .corporateAction, .optionExpiration, .entryEvaluation, .managementEvaluation, .exitEvaluation,
    .rollEvaluation, .fillEvent, .riskEvent, .earningsAnnouncement, .earningsDateRevision,
    .exDividendDate, .dividendAnnouncement, .dividendRevision, .specialDividend, .stockSplit,
    .reverseSplit, .symbolChange, .merger, .spinOff, .contractAdjustment, .liquidityDeterioration,
    .staleDataThresholdBreach, .marketHalt, .tradingResumption, .pendingAssignmentOrExercise,
    .portfolioArbitrationDecision, .endOfBacktest, .lifecycleEvaluation, .valuation, .sessionClose]

theorem mem_all (eventType : EventType) : eventType ∈ all := by
  cases eventType <;> decide

theorem nodup_values : (all.map EventType.value).Nodup := by
  decide

theorem value_injective {a b : EventType} (h : a.value = b.value) : a = b :=
  List.inj_on_of_nodup_map nodup_values (mem_all a) (mem_all b) h

end EventType

namespace HistoricalEventClock

variable {clock : HistoricalEventClock} {sessions : List TradingSession}
  {timedEvents events stream : List ClockEvent} {item other : ClockEvent}

/-! ### The sort key -/

theorem sortKey_le_iff : sortKey item ≤ sortKey other ↔
    item.timestamp.instant < other.timestamp.instant ∨
      item.timestamp.instant = other.timestamp.instant ∧
        (item.priority < other.priority ∨ item.priority = other.priority ∧
          (item.eventType.value < other.eventType.value ∨
            item.eventType.value = other.eventType.value ∧
              item.sequenceHint ≤ other.sequenceHint)) := by
  simp only [sortKey, Prod.Lex.le_iff, ofLex_toLex]

theorem sortKey_injective (h : sortKey item = sortKey other) : clockKey item = clockKey other := by
  obtain ⟨hinstant, hrest⟩ := Prod.mk.inj (toLex.injective h)
  obtain ⟨_, hrest⟩ := Prod.mk.inj (toLex.injective hrest)
  obtain ⟨hvalue, hhint⟩ := Prod.mk.inj (toLex.injective hrest)
  rw [clockKey, clockKey, hinstant, EventType.value_injective hvalue, hhint]

/-! ### Duplicates -/

section Dedupe

variable {byKey byKey' : InsertionDict ClockKey ClockEvent} {kept : List ClockEvent}

theorem dedupeStep_of_fresh (h : byKey.contains (clockKey item) = false) :
    clock.dedupeStep byKey item = .ok (byKey.set (clockKey item) item) := by
  rw [dedupeStep, if_pos h]

theorem filter_key_cons (rest : List ClockEvent) (key : ClockKey) :
    (item :: rest).filter (clockKey · = key) =
      if clockKey item = key then item :: rest.filter (clockKey · = key)
      else rest.filter (clockKey · = key) := by
  simp only [List.filter_cons, decide_eq_true_eq]

variable (events) in
/-- Keeping the first: a key keeps what it holds, or gets the first event of the list. -/
theorem foldlM_keepFirst (hpolicy : clock.config.duplicateEventPolicy = .keepFirst)
    (hkeyed : InsertionDict.KeyedBy clockKey byKey) :
    ∃ byKey', events.foldlM clock.dedupeStep byKey = .ok byKey' ∧
      InsertionDict.KeyedBy clockKey byKey' ∧
      ∀ key, byKey'.get? key = (byKey.get? key).or (events.filter (clockKey · = key)).head? := by
  induction events generalizing byKey with
  | nil => exact ⟨byKey, rfl, hkeyed, fun key => (Option.or_none).symm⟩
  | cons item rest ih =>
    rw [List.foldlM_cons]
    cases hcontains : byKey.contains (clockKey item) with
    | false =>
      obtain ⟨byKey', hrest, hkeyed', hget⟩ := ih (hkeyed.set item)
      refine ⟨byKey', ?_, hkeyed', fun key => ?_⟩
      · rw [dedupeStep_of_fresh hcontains]
        exact hrest
      · rw [hget, InsertionDict.get?_set]
        by_cases hkey : key = clockKey item
        · rw [if_pos hkey, hkey, InsertionDict.get?_eq_none_of_not_contains hcontains,
            filter_key_cons, if_pos rfl]
          rfl
        · rw [if_neg hkey, filter_key_cons, if_neg (Ne.symm hkey)]
    | true =>
      obtain ⟨byKey', hrest, hkeyed', hget⟩ := ih hkeyed
      refine ⟨byKey', ?_, hkeyed', fun key => ?_⟩
      · rw [dedupeStep, if_neg (by simp [hcontains]), if_pos hpolicy]
        exact hrest
      · rw [hget]
        by_cases hkey : key = clockKey item
        · obtain ⟨held, hheld⟩ := Option.isSome_iff_exists.mp hcontains
          rw [hkey, hheld]
          rfl
        · rw [filter_key_cons, if_neg (Ne.symm hkey)]

variable (events) in
/-- Keeping the last: a key gets the last event of the list, or keeps what it holds. -/
theorem foldlM_keepLast (hpolicy : clock.config.duplicateEventPolicy = .keepLast)
    (hkeyed : InsertionDict.KeyedBy clockKey byKey) :
    ∃ byKey', events.foldlM clock.dedupeStep byKey = .ok byKey' ∧
      InsertionDict.KeyedBy clockKey byKey' ∧
      ∀ key, byKey'.get? key = (events.filter (clockKey · = key)).getLast?.or (byKey.get? key) := by
  induction events generalizing byKey with
  | nil => exact ⟨byKey, rfl, hkeyed, fun key => rfl⟩
  | cons item rest ih =>
    have hstep : clock.dedupeStep byKey item = .ok (byKey.set (clockKey item) item) := by
      cases hcontains : byKey.contains (clockKey item) with
      | false => exact dedupeStep_of_fresh hcontains
      | true =>
        rw [dedupeStep, if_neg (by simp [hcontains]), if_neg (by simp [hpolicy]), if_pos hpolicy]
    obtain ⟨byKey', hrest, hkeyed', hget⟩ := ih (hkeyed.set item)
    refine ⟨byKey', ?_, hkeyed', fun key => ?_⟩
    · rw [List.foldlM_cons, hstep]
      exact hrest
    · rw [hget, InsertionDict.get?_set]
      by_cases hkey : key = clockKey item
      · rw [if_pos hkey, hkey, filter_key_cons, if_pos rfl, List.getLast?_cons]
        cases (rest.filter (clockKey · = clockKey item)).getLast? with
        | none => rfl
        | some last => rfl
      · rw [if_neg hkey, filter_key_cons, if_neg (Ne.symm hkey)]

variable (clock) in
/-- Strictly, a list is accepted as it is when no key occurs twice and none is held already. -/
theorem foldlM_raise_of_fresh (hnodup : (events.map clockKey).Nodup)
    (hfresh : ∀ item ∈ events, byKey.contains (clockKey item) = false) :
    ∃ byKey', events.foldlM clock.dedupeStep byKey = .ok byKey' ∧
      byKey'.values = byKey.values ++ events := by
  induction events generalizing byKey with
  | nil => exact ⟨byKey, rfl, (List.append_nil _).symm⟩
  | cons item rest ih =>
    obtain ⟨hitem, hrest⟩ := List.nodup_cons.mp hnodup
    have hfirst := hfresh item List.mem_cons_self
    have hfresh' : ∀ other ∈ rest,
        (byKey.set (clockKey item) item).contains (clockKey other) = false := by
      intro other hother
      have hne : clockKey other ≠ clockKey item := by
        intro heq
        exact hitem (heq ▸ List.mem_map_of_mem hother)
      rw [InsertionDict.contains_set, hfresh other (List.mem_cons_of_mem _ hother), Bool.or_false]
      exact decide_eq_false hne
    obtain ⟨byKey', hfold, hvalues⟩ := ih hrest hfresh'
    refine ⟨byKey', ?_, ?_⟩
    · rw [List.foldlM_cons, dedupeStep_of_fresh hfirst]
      exact hfold
    · rw [hvalues, InsertionDict.values_set_of_not_contains hfirst, List.append_assoc]
      rfl

theorem fresh_of_foldlM_raise (hpolicy : clock.config.duplicateEventPolicy = .raise)
    (h : events.foldlM clock.dedupeStep byKey = .ok byKey') :
    (events.map clockKey).Nodup ∧ ∀ item ∈ events, byKey.contains (clockKey item) = false := by
  induction events generalizing byKey with
  | nil => exact ⟨List.nodup_nil, fun item hitem => absurd hitem List.not_mem_nil⟩
  | cons item rest ih =>
    rw [List.foldlM_cons] at h
    obtain ⟨next, hstep, hrest⟩ := except_bind_eq_ok.mp h
    cases hcontains : byKey.contains (clockKey item) with
    | true =>
      rw [dedupeStep, if_neg (by simp [hcontains]), if_neg (by simp [hpolicy]),
        if_neg (by simp [hpolicy])] at hstep
      cases hstep
    | false =>
      rw [dedupeStep_of_fresh hcontains] at hstep
      cases hstep
      obtain ⟨hnodup, hfresh⟩ := ih hrest
      have hapart : ∀ other ∈ rest, clockKey other ≠ clockKey item ∧
          byKey.contains (clockKey other) = false := by
        intro other hother
        have hother' := hfresh other hother
        rw [InsertionDict.contains_set, Bool.or_eq_false_iff, decide_eq_false_iff_not] at hother'
        exact hother'
      constructor
      · apply List.nodup_cons.mpr
        refine ⟨fun hmem => ?_, hnodup⟩
        obtain ⟨other, hother, heq⟩ := List.mem_map.mp hmem
        exact (hapart other hother).1 heq
      · intro other hother
        rcases List.mem_cons.mp hother with rfl | hother
        · exact hcontains
        · exact (hapart other hother).2

/-- What a duplicate policy keeps of the events. -/
def Keeps (policy : DuplicateEventPolicy) (events kept : List ClockEvent) : Prop :=
  match policy with
  | .keepAll => kept.Perm events
  | .keepFirst => ∀ key,
      kept.filter (clockKey · = key) = (events.filter (clockKey · = key)).head?.toList
  | .keepLast => ∀ key,
      kept.filter (clockKey · = key) = (events.filter (clockKey · = key)).getLast?.toList
  | .raise => kept.Perm events ∧ (events.map clockKey).Nodup

theorem dedupe_eq_ok_of_keepAll (hpolicy : clock.config.duplicateEventPolicy = .keepAll) :
    clock.dedupe events = .ok events := by
  rw [dedupe, if_pos hpolicy]

theorem dedupe_eq_ok_of_foldlM (hpolicy : clock.config.duplicateEventPolicy ≠ .keepAll)
    (hfold : events.foldlM clock.dedupeStep .empty = .ok byKey) :
    clock.dedupe events = .ok byKey.values := by
  rw [dedupe, if_neg hpolicy, hfold]
  rfl

theorem dedupe_raise_iff (hpolicy : clock.config.duplicateEventPolicy = .raise) :
    clock.dedupe events = .ok kept ↔ (events.map clockKey).Nodup ∧ kept = events := by
  have hne : clock.config.duplicateEventPolicy ≠ .keepAll := by simp [hpolicy]
  have hfresh : ∀ item ∈ events,
      (InsertionDict.empty : InsertionDict ClockKey ClockEvent).contains (clockKey item) = false :=
    fun _ _ => rfl
  constructor
  · intro h
    rw [dedupe, if_neg hne] at h
    obtain ⟨byKey, hfold, hvalues⟩ := except_bind_eq_ok.mp h
    obtain ⟨hnodup, _⟩ := fresh_of_foldlM_raise hpolicy hfold
    obtain ⟨byKey', hfold', hvalues'⟩ := foldlM_raise_of_fresh clock hnodup hfresh
    cases hfold.symm.trans hfold'
    cases hvalues
    exact ⟨hnodup, hvalues'⟩
  · rintro ⟨hnodup, rfl⟩
    obtain ⟨byKey', hfold, hvalues⟩ := foldlM_raise_of_fresh clock hnodup hfresh
    rw [dedupe_eq_ok_of_foldlM hne hfold, hvalues]
    rfl

theorem keeps_of_dedupe (h : clock.dedupe events = .ok kept) :
    Keeps clock.config.duplicateEventPolicy events kept := by
  cases hpolicy : clock.config.duplicateEventPolicy with
  | keepAll =>
    rw [dedupe_eq_ok_of_keepAll hpolicy] at h
    cases h
    exact .refl _
  | keepFirst =>
    obtain ⟨byKey, hfold, hkeyed, hget⟩ :=
      foldlM_keepFirst events hpolicy (InsertionDict.keyedBy_empty clockKey)
    rw [dedupe_eq_ok_of_foldlM (by simp [hpolicy]) hfold] at h
    cases h
    intro key
    rw [hkeyed.filter_values, hget]
    rfl
  | keepLast =>
    obtain ⟨byKey, hfold, hkeyed, hget⟩ :=
      foldlM_keepLast events hpolicy (InsertionDict.keyedBy_empty clockKey)
    rw [dedupe_eq_ok_of_foldlM (by simp [hpolicy]) hfold] at h
    cases h
    intro key
    rw [hkeyed.filter_values, hget, InsertionDict.get?_empty, Option.or_none]
  | raise =>
    obtain ⟨hnodup, rfl⟩ := (dedupe_raise_iff hpolicy).mp h
    exact ⟨.refl _, hnodup⟩

theorem sortBy_toList (held : Option ClockEvent) : sortBy sortKey held.toList = held.toList := by
  cases held with
  | none => rfl
  | some event => rfl

theorem Keeps.sortBy {policy : DuplicateEventPolicy} (h : Keeps policy events kept) :
    Keeps policy events (StableSort.sortBy sortKey kept) := by
  cases policy with
  | keepAll => exact sortBy_perm.trans h
  | keepFirst => exact fun key => by rw [filter_sortBy, h key, sortBy_toList]
  | keepLast => exact fun key => by rw [filter_sortBy, h key, sortBy_toList]
  | raise => exact ⟨sortBy_perm.trans h.1, h.2⟩

end Dedupe

/-! ### The stream -/

/-- The events that enter the stream: those of the sessions by date, then the timed ones. -/
def sourceEvents (clock : HistoricalEventClock) (sessions : List TradingSession)
    (timedEvents : List ClockEvent) : List ClockEvent :=
  (clock.defaultSessionEvents (StableSort.sortBy (·.tradeDate.ordering) sessions) ++
    timedEvents).map clock.normalize

theorem validateSessions_eq_ok {valid : List TradingSession}
    (h : clock.validateSessions sessions = .ok valid) :
    valid = StableSort.sortBy (·.tradeDate.ordering) sessions := by
  by_cases hempty : sessions = []
  · rw [validateSessions, if_pos hempty] at h
    split_ifs at h
    cases h
    rw [hempty]
    rfl
  · rw [validateSessions, if_neg hempty] at h
    dsimp only at h
    split at h
    · cases h
    · cases h
      rfl

/-- A stream is the sorted list of the events that the policy keeps. -/
theorem ordered_eq_ok (h : clock.ordered sessions timedEvents = .ok stream) :
    ∃ kept, clock.dedupe (clock.sourceEvents sessions timedEvents) = .ok kept ∧
      stream = StableSort.sortBy sortKey kept := by
  obtain ⟨valid, hvalid, h⟩ := except_bind_eq_ok.mp h
  obtain ⟨kept, hkept, h⟩ := except_bind_eq_ok.mp h
  cases h
  rw [validateSessions_eq_ok hvalid] at hkept
  exact ⟨kept, hkept, rfl⟩

theorem build_eq_ok {output : List DeterministicEvent} :
    clock.build sessions timedEvents = .ok output ↔
      ∃ stream, clock.ordered sessions timedEvents = .ok stream ∧
        output = clock.emitAll stream := by
  rw [build, except_bind_eq_ok]
  constructor
  · rintro ⟨stream, hstream, h⟩
    cases h
    exact ⟨stream, hstream, rfl⟩
  · rintro ⟨stream, hstream, rfl⟩
    exact ⟨stream, hstream, rfl⟩

/-! ### The output -/

theorem sequenceNumbers_emitAll :
    (clock.emitAll stream).map (·.sequenceNumber) =
      (List.range' 1 stream.length).map (fun n : ℕ => (n : Int)) := by
  rw [emitAll, List.map_map, ← List.zipIdx_map_snd 1 stream, List.map_map]
  rfl

theorem length_emitAll : (clock.emitAll stream).length = stream.length := by
  rw [emitAll, List.length_map, List.length_zipIdx]

/-- One output event does not come before an earlier one, nor before one of smaller priority. -/
def Before (a b : DeterministicEvent) : Prop :=
  a.timestamp < b.timestamp ∨
    a.timestamp.instant = b.timestamp.instant ∧ a.priority ≤ b.priority

theorem sorted_emitAll (hsorted : SortedBy sortKey stream) :
    (clock.emitAll stream).Pairwise Before := by
  have hpairs : ((stream.zipIdx 1).map Prod.fst).Pairwise
      fun a b => sortKey a ≤ sortKey b := by
    rw [List.zipIdx_map_fst]
    exact hsorted
  rw [List.pairwise_map] at hpairs
  rw [emitAll, List.pairwise_map]
  apply hpairs.imp
  intro a b hle
  rcases sortKey_le_iff.mp hle with hlt | ⟨heq, hpriority⟩
  · exact .inl (DateTime.ensureAware_lt_iff.mpr hlt)
  · refine .inr ⟨?_, ?_⟩
    · simp only [emit, DateTime.instant_ensureAware, heq]
    · rcases hpriority with hlt | ⟨heq', _⟩
      · exact hlt.le
      · exact heq'.le

/-! ### Permuted inputs -/

variable {sessions' : List TradingSession} {timedEvents' : List ClockEvent}

theorem sortBy_tradeDate_perm (hdates : (sessions.map (·.tradeDate)).Nodup)
    (hperm : sessions.Perm sessions') :
    StableSort.sortBy (·.tradeDate.ordering) sessions =
      StableSort.sortBy (·.tradeDate.ordering) sessions' := by
  apply sortBy_eq_of_perm ?_ hperm
  intro a ha b hb hkey
  exact List.inj_on_of_nodup_map hdates ha hb (Date.ordering_injective hkey)

theorem validateSessions_perm (hdates : (sessions.map (·.tradeDate)).Nodup)
    (hperm : sessions.Perm sessions') :
    clock.validateSessions sessions = clock.validateSessions sessions' := by
  have hempty : sessions = [] ↔ sessions' = [] := by
    rw [← List.length_eq_zero_iff, ← List.length_eq_zero_iff, hperm.length_eq]
  simp only [validateSessions, hempty, sortBy_tradeDate_perm hdates hperm]

theorem sourceEvents_perm (hdates : (sessions.map (·.tradeDate)).Nodup)
    (hsessions : sessions.Perm sessions') (htimed : timedEvents.Perm timedEvents') :
    (clock.sourceEvents sessions timedEvents).Perm (clock.sourceEvents sessions' timedEvents') := by
  rw [sourceEvents, sourceEvents, sortBy_tradeDate_perm hdates hsessions]
  exact (htimed.append_left _).map _

/-- Without duplicates the sort key tells all events apart. -/
theorem sortBy_sortKey_perm (hnodup : (events.map clockKey).Nodup) (hperm : events.Perm stream) :
    StableSort.sortBy sortKey events = StableSort.sortBy sortKey stream := by
  apply sortBy_eq_of_perm ?_ hperm
  intro a ha b hb hkey
  exact List.inj_on_of_nodup_map hnodup ha hb (sortKey_injective hkey)

theorem build_perm {output : List DeterministicEvent}
    (hpolicy : clock.config.duplicateEventPolicy = .raise)
    (hdates : (sessions.map (·.tradeDate)).Nodup) (hsessions : sessions.Perm sessions')
    (htimed : timedEvents.Perm timedEvents') (h : clock.build sessions timedEvents = .ok output) :
    clock.build sessions' timedEvents' = .ok output := by
  have hsources : (clock.sourceEvents sessions timedEvents).Perm
      (clock.sourceEvents sessions' timedEvents') := sourceEvents_perm hdates hsessions htimed
  obtain ⟨stream, hstream, rfl⟩ := build_eq_ok.mp h
  obtain ⟨valid, hvalid, hstream⟩ := except_bind_eq_ok.mp hstream
  obtain ⟨kept, hkept, hstream⟩ := except_bind_eq_ok.mp hstream
  cases hstream
  have hvalid' : clock.validateSessions sessions' = .ok valid := by
    rw [← validateSessions_perm hdates hsessions]
    exact hvalid
  obtain rfl := validateSessions_eq_ok hvalid
  obtain ⟨hnodup, rfl⟩ := (dedupe_raise_iff hpolicy).mp hkept
  have hnodup' : ((clock.sourceEvents sessions' timedEvents').map clockKey).Nodup :=
    (hsources.map clockKey).nodup_iff.mp hnodup
  have hkept' : clock.dedupe (clock.sourceEvents sessions' timedEvents') =
      .ok (clock.sourceEvents sessions' timedEvents') :=
    (dedupe_raise_iff hpolicy).mpr ⟨hnodup', rfl⟩
  have hdates' := sortBy_tradeDate_perm hdates hsessions
  apply build_eq_ok.mpr
  refine ⟨StableSort.sortBy sortKey (clock.sourceEvents sessions' timedEvents'), ?_, ?_⟩
  · refine except_bind_eq_ok.mpr ⟨_, hvalid', except_bind_eq_ok.mpr ⟨_, ?_, rfl⟩⟩
    rw [hdates']
    exact hkept'
  · rw [← sortBy_sortKey_perm hnodup hsources]

/-- Both raise, or both return the same. -/
def SameOutcome {α : Type} (a b : Except Exc α) : Prop :=
  (∃ result, a = .ok result ∧ b = .ok result) ∨ ∃ exc exc', a = .error exc ∧ b = .error exc'

/-- A clock with these priorities, under this duplicate policy. -/
def clockWith (policy : DuplicateEventPolicy) (priorities : List (EventType × Int)) :
    HistoricalEventClock where
  config :=
    { duplicateEventPolicy := policy
      eventPriorities := priorities.foldl (fun dict entry => dict.set entry.1 entry.2) .empty }
  text := plainText

def juneFirst : TradingSession where
  tradeDate := ⟨2026, 6, 1⟩
  openTimestamp := ⟨52200000000, some 0⟩
  closeTimestamp := ⟨75600000000, some 0⟩

/-- An event at noon. -/
def noonEvent (eventType : EventType) (sequenceHint : Int) : ClockEvent where
  timestamp := ⟨43200000000, none⟩
  eventType := eventType
  priority := 40
  sequenceHint := sequenceHint

/-- Among simultaneous events of one priority, the first does not have the greater hint. -/
def HintLe (a b : ClockEvent) : Prop :=
  a.timestamp.instant = b.timestamp.instant → a.priority = b.priority →
    a.sequenceHint ≤ b.sequenceHint

instance : DecidableRel HintLe := fun a b =>
  inferInstanceAs (Decidable (a.timestamp.instant = b.timestamp.instant →
    a.priority = b.priority → a.sequenceHint ≤ b.sequenceHint))

/-- The output is in the order of the hints, where timestamps and priorities are equal. -/
def HintOrdered (clock : HistoricalEventClock) (sessions : List TradingSession)
    (timedEvents : List ClockEvent) (output : List DeterministicEvent) : Prop :=
  ∃ stream, clock.ordered sessions timedEvents = .ok stream ∧ output = clock.emitAll stream ∧
    stream.Pairwise HintLe

/-- The duplicate policy keeps this event of the list. -/
def Retained (policy : DuplicateEventPolicy) (events : List ClockEvent) (item : ClockEvent) :
    Prop :=
  match policy with
  | .keepFirst => (events.filter (clockKey · = clockKey item)).head? = some item
  | .keepLast => (events.filter (clockKey · = clockKey item)).getLast? = some item
  | .keepAll => item ∈ events
  | .raise => item ∈ events

theorem Keeps.mem_iff {policy : DuplicateEventPolicy} {kept : List ClockEvent}
    (h : Keeps policy events kept) : item ∈ kept ↔ Retained policy events item := by
  have hself : item ∈ kept ↔ item ∈ kept.filter (clockKey · = clockKey item) := by
    simp only [List.mem_filter, decide_true, and_true]
  cases policy with
  | keepAll => exact List.Perm.mem_iff h
  | raise => exact List.Perm.mem_iff h.1
  | keepFirst =>
    have hkept : kept.filter (clockKey · = clockKey item) =
        (events.filter (clockKey · = clockKey item)).head?.toList := h (clockKey item)
    rw [hself, hkept, Option.mem_toList]
    rfl
  | keepLast =>
    have hkept : kept.filter (clockKey · = clockKey item) =
        (events.filter (clockKey · = clockKey item)).getLast?.toList := h (clockKey item)
    rw [hself, hkept, Option.mem_toList]
    rfl

/-- In a sorted list, an event of a smaller key comes first. -/
theorem hintLe_of_pairwise (hsorted : SortedBy sortKey stream) (hhints : stream.Pairwise HintLe)
    (hitem : item ∈ stream) (hother : other ∈ stream) (hlt : sortKey item < sortKey other) :
    HintLe item other := by
  have hforward : stream.Pairwise fun a b => sortKey a < sortKey b → HintLe a b := by
    apply hhints.imp
    exact fun hhint _ => hhint
  have hbackward : stream.Pairwise fun a b => sortKey b < sortKey a → HintLe b a := by
    apply hsorted.imp
    exact fun hle hgt => absurd hgt (not_lt.mpr hle)
  have hrefl : ∀ a ∈ stream, sortKey a < sortKey a → HintLe a a :=
    fun a _ h => absurd h (lt_irrefl _)
  exact List.Pairwise.forall_of_forall_of_flip hrefl hforward hbackward hitem hother hlt

/-- The hints decide the order if and only if, among the simultaneous retained events of one
priority, those whose type has the smaller name do not have the greater hint. -/
theorem hintOrdered_iff (clock : HistoricalEventClock) (sessions : List TradingSession)
    (timedEvents : List ClockEvent) (output : List DeterministicEvent)
    (hbuild : clock.build sessions timedEvents = .ok output) :
    HintOrdered clock sessions timedEvents output ↔
      ∀ a b,
        Retained clock.config.duplicateEventPolicy (clock.sourceEvents sessions timedEvents) a →
        Retained clock.config.duplicateEventPolicy (clock.sourceEvents sessions timedEvents) b →
        a.eventType.value < b.eventType.value → HintLe a b := by
  obtain ⟨stream, hstream, rfl⟩ := build_eq_ok.mp hbuild
  obtain ⟨kept, hkept, rfl⟩ := ordered_eq_ok hstream
  have hsorted := sortBy_sorted sortKey kept
  have hmem : ∀ item, item ∈ StableSort.sortBy sortKey kept ↔
      Retained clock.config.duplicateEventPolicy (clock.sourceEvents sessions timedEvents) item :=
    fun item => (keeps_of_dedupe hkept).sortBy.mem_iff
  constructor
  · rintro ⟨stream, hstream', -, hhints⟩ a b ha hb hvalue hinstant hpriority
    cases hstream.symm.trans hstream'
    have hlt : sortKey a < sortKey b := by
      apply lt_of_not_ge
      intro hle
      rcases sortKey_le_iff.mp hle with hlt | ⟨-, hlt | ⟨-, hlt | ⟨heq, -⟩⟩⟩
      · exact absurd hinstant hlt.ne'
      · exact absurd hpriority hlt.ne'
      · exact absurd hlt hvalue.asymm
      · exact absurd heq hvalue.ne'
    exact hintLe_of_pairwise hsorted hhints ((hmem a).mpr ha) ((hmem b).mpr hb) hlt hinstant
      hpriority
  · intro hhints
    refine ⟨_, hstream, rfl, ?_⟩
    apply List.Pairwise.imp_of_mem ?_ hsorted
    intro a b ha hb hle hinstant hpriority
    rcases sortKey_le_iff.mp hle with hlt | ⟨-, hlt | ⟨-, hlt | ⟨-, hhint⟩⟩⟩
    · exact absurd hinstant hlt.ne
    · exact absurd hpriority hlt.ne
    · exact hhints a b ((hmem a).mp ha) ((hmem b).mp hb) hlt hinstant hpriority
    · exact hhint

theorem hintOrdered_iff_quotes :
    ∃ output, (clockWith .keepAll []).build [juneFirst]
        [noonEvent .quote 2, noonEvent .quote 1] = .ok output ∧
      (HintOrdered (clockWith .keepAll []) [juneFirst]
          [noonEvent .quote 2, noonEvent .quote 1] output ↔
        ∀ a b,
          Retained .keepAll ((clockWith .keepAll []).sourceEvents [juneFirst]
            [noonEvent .quote 2, noonEvent .quote 1]) a →
          Retained .keepAll ((clockWith .keepAll []).sourceEvents [juneFirst]
            [noonEvent .quote 2, noonEvent .quote 1]) b →
          a.eventType.value < b.eventType.value → HintLe a b) :=
  ⟨_, rfl, hintOrdered_iff (clockWith .keepAll []) [juneFirst]
    [noonEvent .quote 2, noonEvent .quote 1] _ rfl⟩

/-- A clock that gives quotes and underlying prices one priority. -/
def sharedPriorityClock : HistoricalEventClock :=
  clockWith .keepAll [(.quote, 40), (.underlyingPrice, 40)]

/-- The quote of hint 2 comes before the simultaneous price of hint 1. -/
theorem not_hintOrdered :
    ∃ output, sharedPriorityClock.build [juneFirst]
        [noonEvent .underlyingPrice 1, noonEvent .quote 2] = .ok output ∧
      ¬ HintOrdered sharedPriorityClock [juneFirst]
        [noonEvent .underlyingPrice 1, noonEvent .quote 2] output := by
  refine ⟨_, rfl, ?_⟩
  rintro ⟨stream, hstream, -, hhints⟩
  obtain ⟨kept, hkept, rfl⟩ := ordered_eq_ok hstream
  rw [dedupe_eq_ok_of_keepAll rfl] at hkept
  cases hkept
  exact absurd hhints (by decide)

end HistoricalEventClock
end OptionResearch
