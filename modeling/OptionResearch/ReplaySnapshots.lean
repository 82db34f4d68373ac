import OptionResearch.ReplayOutcomes

/-!
# Snapshots of the cursor

No call removes a snapshot, so a name leads to the first snapshot taken under it. What is stored is
the index of an event: the cursor comes back from a snapshot unless it stood behind the last event.
-/

namespace OptionResearch.BacktestReplayEngine

open Effect

variable {text : ReplayText} {engine engine' : BacktestReplayEngine} {request : CreateSnapshot}
  {snapshot : ReplaySnapshot}

/-- A snapshot is built under the requested name, at the index of the engine. -/
theorem buildSnapshot_spec (h : engine.buildSnapshot text request = .ok snapshot) :
    snapshot.snapshotId = request.snapshotId ∧ snapshot.cursor = engine.snapshotIndex := by
  rw [buildSnapshot] at h
  obtain ⟨_, _, h⟩ := except_bind_eq_ok.mp h
  -- the copies of the eleven states
  iterate 11 obtain ⟨_, _, h⟩ := except_bind_eq_ok.mp h
  cases h
  exact ⟨rfl, rfl⟩

theorem Outcome.snapshots_kept {call : Call} (h : Outcome text engine call engine') :
    engine.snapshots <+: engine'.snapshots := by
  cases h with
  | viewed hsame => exact hsame.snapshots ▸ List.prefix_rfl
  | snapped request snapshot => exact List.prefix_append _ _
  | opened request _ hsnapshots _ _ => exact hsnapshots ▸ List.prefix_rfl
  | branched request branch hcheck => exact List.prefix_rfl
  | entered request => exact List.prefix_rfl
  | appended request event hbuild => exact List.prefix_rfl

theorem snapshots_prefix_after (text : ReplayText) (engine : BacktestReplayEngine)
    (calls : List Call) : engine.snapshots <+: (engine.after text calls).snapshots :=
  afterCalls_keeps (R := fun s t => s.snapshots <+: t.snapshots) (fun _ => List.prefix_rfl)
    (fun _ _ _ => List.IsPrefix.trans) fun call s => (perform_outcome text s call).snapshots_kept

/-- A name that is found leads to the same snapshot ever after. -/
theorem findSnapshot_after {snapshotId : String}
    (h : engine.findSnapshot snapshotId = some snapshot) (text : ReplayText) (calls : List Call) :
    (engine.after text calls).findSnapshot snapshotId = some snapshot := by
  obtain ⟨more, hmore⟩ := snapshots_prefix_after text engine calls
  rw [findSnapshot, ← hmore, List.find?_append]
  rw [findSnapshot] at h
  rw [h, Option.some_or]

/-- A snapshot under a new name is the one that the name leads to. -/
theorem findSnapshot_created (hunused : engine.findSnapshot request.snapshotId = none)
    (hcreate : exec (createSnapshot text request) engine = (.ok (some snapshot), engine')) :
    engine'.findSnapshot request.snapshotId = some snapshot ∧ engine.events ≠ [] ∧
      snapshot.cursor = engine.snapshotIndex := by
  rcases createSnapshot_cases text engine request with
    hexec | ⟨x, hexec⟩ | ⟨built, hevents, hbuild, hexec⟩
  · rw [hexec] at hcreate
    cases hcreate
  · rw [hexec] at hcreate
    cases hcreate
  · rw [hexec] at hcreate
    cases hcreate
    obtain ⟨hname, hcursor⟩ := buildSnapshot_spec hbuild
    refine ⟨?_, hevents, hcursor⟩
    rw [findSnapshot] at hunused
    rw [findSnapshot, List.find?_append, hunused, Option.none_or, List.find?_cons_of_pos]
    rw [hname]
    exact beq_self_eq_true _

theorem restoreSnapshot_cursor {snapshotId : String}
    (h : engine.findSnapshot snapshotId = some snapshot) :
    (exec (restoreSnapshot snapshotId) engine).2.cursor = snapshot.cursor := by
  rw [restoreSnapshot, exec_get_bind, h]
  rfl

theorem snapshotIndex_eq_cursor_iff (h : engine.events ≠ []) :
    engine.snapshotIndex = engine.cursor ↔
      0 ≤ engine.cursor ∧ engine.cursor < engine.events.length := by
  have hlength := List.length_pos_iff.mpr h
  rw [snapshotIndex]
  omega

/-! ### The range of the cursor -/

/-- The cursor is the index of an event or the end of the stream, in every snapshot too. -/
structure CursorInRange (engine : BacktestReplayEngine) : Prop where
  nonneg : 0 ≤ engine.cursor
  le_length : engine.cursor ≤ engine.events.length
  snapshots : ∀ snapshot ∈ engine.snapshots,
    0 ≤ snapshot.cursor ∧ snapshot.cursor ≤ engine.events.length

theorem CursorInRange.move (h : engine.CursorInRange) {cursor : Int} (hnonneg : 0 ≤ cursor)
    (hle : cursor ≤ engine.events.length) : { engine with cursor }.CursorInRange :=
  ⟨hnonneg, hle, h.snapshots⟩

theorem firstEvent_lt {test : DeterministicEvent → Except Exc Bool} {start index : Nat}
    {events : List DeterministicEvent} {event : DeterministicEvent}
    (h : firstEvent test start events = .ok (some (index, event))) :
    index < start + events.length := by
  induction events generalizing start with
  | nil => cases h
  | cons first rest ih =>
    rw [firstEvent] at h
    obtain ⟨passed, _, h⟩ := except_bind_eq_ok.mp h
    rw [List.length_cons]
    cases passed with
    | true =>
      cases h
      omega
    | false =>
      have hrest := ih h
      omega

theorem CursorInRange.stepForward (h : engine.CursorInRange) :
    (exec stepForward engine).2.CursorInRange := by
  have hnonneg := h.nonneg
  rw [BacktestReplayEngine.stepForward, exec_get_bind]
  by_cases hend : engine.cursor ≥ engine.events.length
  · rw [if_pos hend]
    exact h
  · rw [if_neg hend, exec_raising_bind]
    cases tupleItem engine.events engine.cursor with
    | error x => exact h
    | ok event => exact h.move (by omega) (by omega)

theorem CursorInRange.stepBackward (h : engine.CursorInRange) :
    (exec stepBackward engine).2.CursorInRange := by
  have hle := h.le_length
  rw [BacktestReplayEngine.stepBackward, exec_get_bind]
  by_cases hstart : engine.cursor ≤ 1
  · rw [if_pos hstart]
    exact h.move le_rfl (Int.natCast_nonneg _)
  · rw [if_neg hstart, moveCursor, exec_modify_bind, exec_raising_bind]
    have hmoved : { engine with cursor := engine.cursor - 1 }.CursorInRange :=
      h.move (by omega) (by omega)
    cases tupleItem engine.events (engine.cursor - 1 - 1) with
    | error x => exact hmoved
    | ok event => exact hmoved

theorem CursorInRange.jump (h : engine.CursorInRange) (test : DeterministicEvent → Except Exc Bool)
    {fallback : BacktestReplayEngine → Int} (hnonneg : 0 ≤ fallback engine)
    (hle : fallback engine ≤ engine.events.length) :
    (exec (jump test fallback) engine).2.CursorInRange := by
  rw [BacktestReplayEngine.jump, exec_get_bind, exec_raising_bind]
  cases hfound : firstEvent test 0 engine.events with
  | error x => exact h
  | ok found =>
    cases found with
    | none => exact h.move hnonneg hle
    | some entry =>
      have hlt := firstEvent_lt hfound
      have hinside : (entry.1 : Int) ≤ engine.events.length := by omega
      exact h.move (Int.natCast_nonneg entry.1) hinside

theorem CursorInRange.restoreSnapshot (h : engine.CursorInRange) (snapshotId : String) :
    (exec (restoreSnapshot snapshotId) engine).2.CursorInRange := by
  rw [BacktestReplayEngine.restoreSnapshot, exec_get_bind]
  cases hfound : engine.findSnapshot snapshotId with
  | none => exact h
  | some snapshot =>
    obtain ⟨hnonneg, hle⟩ := h.snapshots snapshot (List.mem_of_find?_eq_some hfound)
    exact h.move hnonneg hle

theorem CursorInRange.createSnapshot (h : engine.CursorInRange) (text : ReplayText)
    (request : CreateSnapshot) : (exec (createSnapshot text request) engine).2.CursorInRange := by
  rcases createSnapshot_cases text engine request with
    hexec | ⟨x, hexec⟩ | ⟨snapshot, hevents, hbuild, hexec⟩
  · rw [hexec]
    exact h
  · rw [hexec]
    exact h
  · rw [hexec]
    refine ⟨h.nonneg, h.le_length, ?_⟩
    intro taken htaken
    rcases List.mem_append.mp htaken with hold | hnew
    · exact h.snapshots taken hold
    · obtain rfl := List.mem_singleton.mp hnew
      have hlength := List.length_pos_iff.mpr hevents
      rw [(buildSnapshot_spec hbuild).2, snapshotIndex]
      change 0 ≤ _ ∧ _ ≤ (engine.events.length : Int)
      omega

theorem CursorInRange.of_eq (h : engine.CursorInRange) (hevents : engine'.events = engine.events)
    (hcursor : engine'.cursor = engine.cursor) (hsnapshots : engine'.snapshots = engine.snapshots) :
    engine'.CursorInRange := by
  constructor
  · rw [hcursor]
    exact h.nonneg
  · rw [hcursor, hevents]
    exact h.le_length
  · rw [hsnapshots, hevents]
    exact h.snapshots

theorem CursorInRange.discard {α : Type} {method : Method α}
    (h : (exec method engine).2.CursorInRange) :
    (exec (Functor.discard method) engine).2.CursorInRange := by
  rw [exec_discard_snd]
  exact h

theorem CursorInRange.perform (h : engine.CursorInRange) (text : ReplayText) (call : Call) :
    (exec (perform text call) engine).2.CursorInRange := by
  cases call with
  | play => exact h.of_eq rfl rfl rfl
  | pause => exact h.of_eq rfl rfl rfl
  | stepForward => exact CursorInRange.discard h.stepForward
  | stepBackward => exact CursorInRange.discard h.stepBackward
  | jumpToTimestamp timestamp =>
    exact CursorInRange.discard (h.jump _ (Int.natCast_nonneg _) le_rfl)
  | jumpToReason reasonCode => exact CursorInRange.discard (h.jump _ h.nonneg h.le_length)
  | jumpToEventType eventType => exact CursorInRange.discard (h.jump _ h.nonneg h.le_length)
  | setReplaySpeed speed => exact h.of_eq rfl rfl rfl
  | setFilterEventTypes eventTypes => exact h.of_eq rfl rfl rfl
  | createSnapshot request => exact CursorInRange.discard (h.createSnapshot text request)
  | restoreSnapshot snapshotId => exact CursorInRange.discard (h.restoreSnapshot snapshotId)
  | initializeSession request =>
    obtain ⟨hevents, hcursor, hsnapshots, _⟩ := initializeSession_spec engine request
    exact CursorInRange.discard (h.of_eq hevents hcursor hsnapshots)
  | createBranch request =>
    apply CursorInRange.discard
    rcases createBranch_cases engine request with ⟨x, hexec⟩ | ⟨_, branch, hexec⟩
    · rw [hexec]
      exact h
    · rw [hexec]
      exact h.of_eq rfl rfl rfl
  | appendBranchEvent request =>
    apply CursorInRange.discard
    rcases appendBranchEvent_cases text engine request with ⟨x, hexec⟩ | ⟨event, _, hexec⟩
    · rw [hexec]
      exact h.of_eq rfl rfl rfl
    · rw [hexec]
      exact h.of_eq rfl rfl rfl

theorem CursorInRange.after (h : engine.CursorInRange) (text : ReplayText) (calls : List Call) :
    (engine.after text calls).CursorInRange :=
  afterCalls_keeps (R := fun s t => CursorInRange s → CursorInRange t) (fun _ => id)
    (fun _ _ _ h h' => h' ∘ h) (fun call _ h => h.perform text call) h

theorem cursorInRange_new (events : List DeterministicEvent) :
    CursorInRange { events } :=
  ⟨le_rfl, Int.natCast_nonneg _, fun _ hmem => absurd hmem List.not_mem_nil⟩

/-- From a new engine the calls lead to the indices of the events and the end of the stream only. -/
theorem cursorInRange_after (text : ReplayText) (events : List DeterministicEvent)
    (calls : List Call) : (BacktestReplayEngine.after text { events } calls).CursorInRange :=
  (cursorInRange_new events).after text calls

/-! ### The round trip -/

/-- Whatever is called in between, the restored cursor is the one of the snapshot's engine exactly
if that pointed at an event. -/
theorem restoreSnapshot_cursor_iff (text : ReplayText) (engine created : BacktestReplayEngine)
    (request : CreateSnapshot) (snapshot : ReplaySnapshot) (calls : List Call)
    (hunused : ∀ earlier ∈ engine.snapshots, earlier.snapshotId ≠ request.snapshotId)
    (hcreate : exec (createSnapshot text request) engine = (.ok (some snapshot), created)) :
    (exec (restoreSnapshot request.snapshotId) (created.after text calls)).2.cursor =
        engine.cursor ↔
      0 ≤ engine.cursor ∧ engine.cursor < engine.events.length := by
  have hnone : engine.findSnapshot request.snapshotId = none := by
    apply List.find?_eq_none.mpr
    intro earlier hearlier
    rw [beq_iff_eq]
    exact hunused earlier hearlier
  obtain ⟨hfound, hevents, hcursor⟩ := findSnapshot_created hnone hcreate
  rw [restoreSnapshot_cursor (findSnapshot_after hfound text calls), hcursor]
  exact snapshotIndex_eq_cursor_iff hevents

/-- A snapshot without state. -/
def bareSnapshot : CreateSnapshot where
  snapshotId := "snap-1"
  strategyState := []
  legState := []
  portfolioState := []
  cashState := []
  greeks := []
  volatilityState := []
  openOrderIntents := []
  pendingFills := []
  lifecycleState := "open"
  sourceChecksums := []

def quoteAt (second : Int) : DeterministicEvent where
  eventId := "ev"
  timestamp := ⟨second * 1000000, some 0⟩
  eventType := .quote
  priority := 10
  sequenceNumber := second
  payload := []

theorem restoreSnapshot_cursor_iff_inside :
    ∃ snapshot created,
      exec (createSnapshot plainReplayText bareSnapshot)
          (BacktestReplayEngine.after plainReplayText { events := [quoteAt 0, quoteAt 1] }
            [.stepForward]) = (.ok (some snapshot), created) ∧
        ((exec (restoreSnapshot "snap-1") (created.after plainReplayText [.stepForward])).2.cursor =
            1 ↔ (0 : Int) ≤ 1 ∧ (1 : Int) < 2) := by
  refine ⟨_, _, rfl, ?_⟩
  exact restoreSnapshot_cursor_iff plainReplayText
    (BacktestReplayEngine.after plainReplayText { events := [quoteAt 0, quoteAt 1] }
      [.stepForward]) _ bareSnapshot _ [.stepForward]
    (fun _ hmem => absurd hmem List.not_mem_nil) rfl

/-- Behind the last event, the cursor comes back on the last event. -/
theorem restoreSnapshot_at_end :
    ¬ ∀ (text : ReplayText) (engine created : BacktestReplayEngine) (moves later : List Call)
      (request : CreateSnapshot) (snapshot : ReplaySnapshot),
        (∀ earlier ∈ (engine.after text moves).snapshots,
          earlier.snapshotId ≠ request.snapshotId) →
        exec (createSnapshot text request) (engine.after text moves) =
          (.ok (some snapshot), created) →
        (exec (restoreSnapshot request.snapshotId) (created.after text later)).2.cursor =
          (engine.after text moves).cursor := by
  intro hrestored
  have hcursor := hrestored plainReplayText { events := [quoteAt 0] } _ [.stepForward] []
    bareSnapshot _ (fun _ hmem => absurd hmem List.not_mem_nil) rfl
  exact absurd hcursor (by decide)

end OptionResearch.BacktestReplayEngine
