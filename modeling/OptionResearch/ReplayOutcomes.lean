import OptionResearch.ReplayEngine

/-!
# What the calls of the replay engine change

Moving the cursor touches nothing else, a snapshot is only ever added, and three methods write the
branches. `Outcome` lists what a call may do to the record of an engine, raising or not, and the
results on branches and snapshots are read off it.
-/

namespace OptionResearch.BacktestReplayEngine

open Effect

/-- Nothing but the view of the record has changed: its cursor, status, speed or filter. -/
structure SameRecord (engine engine' : BacktestReplayEngine) : Prop where
  events : engine'.events = engine.events
  snapshots : engine'.snapshots = engine.snapshots
  branches : engine'.branches = engine.branches
  branchEvents : engine'.branchEvents = engine.branchEvents

theorem sameRecord_refl (engine : BacktestReplayEngine) : SameRecord engine engine :=
  ⟨rfl, rfl, rfl, rfl⟩

theorem SameRecord.trans (engine engine' engine'' : BacktestReplayEngine)
    (h : SameRecord engine engine') (h' : SameRecord engine' engine'') :
    SameRecord engine engine'' :=
  ⟨h'.events.trans h.events, h'.snapshots.trans h.snapshots, h'.branches.trans h.branches,
    h'.branchEvents.trans h.branchEvents⟩

variable {text : ReplayText} {engine engine' : BacktestReplayEngine}

/-! ### The methods that only move about -/

theorem moveCursor_keeps (cursor : Int) : Keeps SameRecord (moveCursor cursor) :=
  keeps_modify fun _ => ⟨rfl, rfl, rfl, rfl⟩

theorem moveCursor_bind_keeps {α : Type} (cursor : Int) {next : Unit → Method α}
    (hnext : ∀ u, Keeps SameRecord (next u)) : Keeps SameRecord (moveCursor cursor >>= next) :=
  (moveCursor_keeps cursor).bind SameRecord.trans hnext

theorem pure_keeps {α : Type} (result : α) : Keeps SameRecord (pure result : Method α) :=
  keeps_pure sameRecord_refl result

theorem stepForward_keeps : Keeps SameRecord stepForward := by
  apply keeps_get_bind
  intro engine
  split_ifs
  · exact pure_keeps none
  · apply keeps_raising_bind sameRecord_refl
    intro event
    apply moveCursor_bind_keeps
    exact fun _ => pure_keeps _

theorem stepBackward_keeps : Keeps SameRecord stepBackward := by
  apply keeps_get_bind
  intro engine
  split_ifs
  · apply moveCursor_bind_keeps
    exact fun _ => pure_keeps none
  · apply moveCursor_bind_keeps
    intro _
    apply keeps_raising_bind sameRecord_refl
    exact fun _ => pure_keeps _

theorem jump_keeps (test : DeterministicEvent → Except Exc Bool)
    (fallback : BacktestReplayEngine → Int) : Keeps SameRecord (jump test fallback) := by
  apply keeps_get_bind
  intro engine
  apply keeps_raising_bind sameRecord_refl
  intro found
  apply moveCursor_bind_keeps
  exact fun _ => pure_keeps _

theorem restoreSnapshot_keeps (snapshotId : String) :
    Keeps SameRecord (restoreSnapshot snapshotId) := by
  apply keeps_get_bind
  intro engine
  cases engine.findSnapshot snapshotId with
  | none => exact pure_keeps none
  | some snapshot =>
    apply moveCursor_bind_keeps
    exact fun _ => pure_keeps _

theorem setting_keeps {α : Type} {write : BacktestReplayEngine → BacktestReplayEngine}
    (hwrite : ∀ engine, SameRecord engine (write engine)) (read : BacktestReplayEngine → α) :
    Keeps SameRecord (setting write read) := by
  apply keeps_modify_bind SameRecord.trans hwrite
  intro _
  apply keeps_get_bind
  exact fun engine => pure_keeps _

/-! ### The methods that write -/

theorem createSnapshot_cases (text : ReplayText) (engine : BacktestReplayEngine)
    (request : CreateSnapshot) :
    exec (createSnapshot text request) engine = (.ok none, engine) ∨
      (∃ x, exec (createSnapshot text request) engine = (.error x, engine)) ∨
      ∃ snapshot, engine.events ≠ [] ∧ engine.buildSnapshot text request = .ok snapshot ∧
        exec (createSnapshot text request) engine =
          (.ok (some snapshot), { engine with snapshots := engine.snapshots ++ [snapshot] }) := by
  rw [createSnapshot, exec_get_bind]
  by_cases hevents : engine.events.isEmpty
  · rw [if_pos hevents]
    exact .inl rfl
  · rw [if_neg hevents, exec_raising_bind]
    have hne : engine.events ≠ [] := by simpa using hevents
    cases hbuild : engine.buildSnapshot text request with
    | error x => exact .inr (.inl ⟨x, rfl⟩)
    | ok snapshot => exact .inr (.inr ⟨snapshot, hne, rfl, rfl⟩)

theorem createBranch_cases (engine : BacktestReplayEngine) (request : CreateBranch) :
    (∃ x, exec (createBranch request) engine = (.error x, engine)) ∨
      engine.assertBranchable request = .ok () ∧ ∃ branch, exec (createBranch request) engine =
        (.ok branch, { engine with
          branches := engine.branches.set request.branchId branch
          branchEvents := engine.branchEvents.store request.branchId
            (engine.inheritedEvents request) }) := by
  rw [createBranch, exec_get_bind, exec_raising_bind]
  cases hcheck : engine.assertBranchable request with
  | error x => exact .inl ⟨x, rfl⟩
  | ok u => exact .inr ⟨rfl, _, rfl⟩

theorem appendBranchEvent_cases (text : ReplayText) (engine : BacktestReplayEngine)
    (request : AppendBranchEvent) :
    (∃ x, exec (appendBranchEvent text request) engine =
      (.error x, { engine with
        branchEvents := (engine.branchEvents.setdefault request.branchId).1 })) ∨
      ∃ event,
        buildEvent text request (engine.branchTimeline request.branchId).length = .ok event ∧
        exec (appendBranchEvent text request) engine =
          (.ok event, { engine with
            branchEvents := (engine.branchEvents.setdefault request.branchId).1.push
              (engine.branchEvents.setdefault request.branchId).2 event }) := by
  rw [branchTimeline, ← NamedLists.read_setdefault, appendBranchEvent, exec_get_bind]
  rcases engine.branchEvents.setdefault request.branchId with ⟨branchEvents, events⟩
  dsimp only
  rw [exec_modify_bind, exec_raising_bind]
  cases hbuild : buildEvent text request (branchEvents.heap.read events).length with
  | error x => exact .inl ⟨x, rfl⟩
  | ok event => exact .inr ⟨event, rfl, rfl⟩

/-- A session declares its base branch and leaves the rest of the record and the cursor. -/
theorem initializeSession_spec (engine : BacktestReplayEngine) (request : InitializeSession) :
    (exec (initializeSession request) engine).2.events = engine.events ∧
      (exec (initializeSession request) engine).2.cursor = engine.cursor ∧
      (exec (initializeSession request) engine).2.snapshots = engine.snapshots ∧
      (exec (initializeSession request) engine).2.branches =
        (engine.declareBase request.baseBranchId).branches ∧
      (exec (initializeSession request) engine).2.branchEvents =
        (engine.branchEvents.setdefault request.baseBranchId).1 := by
  rw [initializeSession, exec_modify_bind, exec_modify_bind, exec_modify_bind]
  dsimp only [exec_pure, declareBase]
  by_cases hdeclared : engine.branches.contains request.baseBranchId = true
  · rw [if_pos hdeclared, if_pos hdeclared]
    exact ⟨rfl, rfl, rfl, rfl, rfl⟩
  · rw [if_neg hdeclared, if_neg hdeclared]
    exact ⟨rfl, rfl, rfl, rfl, rfl⟩

/-- What a call leaves behind, whether it returned or raised. -/
inductive Outcome (text : ReplayText) (engine : BacktestReplayEngine) :
    Call → BacktestReplayEngine → Prop
  | viewed {call : Call} {engine' : BacktestReplayEngine} (h : SameRecord engine engine') :
      Outcome text engine call engine'
  | snapped (request : CreateSnapshot) (snapshot : ReplaySnapshot) :
      Outcome text engine (.createSnapshot request)
        { engine with snapshots := engine.snapshots ++ [snapshot] }
  | opened (request : InitializeSession) {engine' : BacktestReplayEngine}
      (hevents : engine'.events = engine.events)
      (hsnapshots : engine'.snapshots = engine.snapshots)
      (hbranches : engine'.branches = (engine.declareBase request.baseBranchId).branches)
      (hbranchEvents : engine'.branchEvents =
        (engine.branchEvents.setdefault request.baseBranchId).1) :
      Outcome text engine (.initializeSession request) engine'
  | branched (request : CreateBranch) (branch : ReplayBranch)
      (hcheck : engine.assertBranchable request = .ok ()) :
      Outcome text engine (.createBranch request)
        { engine with
          branches := engine.branches.set request.branchId branch
          branchEvents := engine.branchEvents.store request.branchId
            (engine.inheritedEvents request) }
  | entered (request : AppendBranchEvent) :
      Outcome text engine (.appendBranchEvent request)
        { engine with branchEvents := (engine.branchEvents.setdefault request.branchId).1 }
  | appended (request : AppendBranchEvent) (event : ReplayTimelineEvent)
      (hbuild : buildEvent text request (engine.branchTimeline request.branchId).length =
        .ok event) :
      Outcome text engine (.appendBranchEvent request)
        { engine with
          branchEvents := (engine.branchEvents.setdefault request.branchId).1.push
            (engine.branchEvents.setdefault request.branchId).2 event }

theorem initializeSession_outcome (text : ReplayText) (engine : BacktestReplayEngine)
    (request : InitializeSession) : Outcome text engine (.initializeSession request)
      (exec (initializeSession request) engine).2 := by
  obtain ⟨hevents, _, hsnapshots, hbranches, hbranchEvents⟩ :=
    initializeSession_spec engine request
  exact .opened request hevents hsnapshots hbranches hbranchEvents

theorem createSnapshot_outcome (text : ReplayText) (engine : BacktestReplayEngine)
    (request : CreateSnapshot) : Outcome text engine (.createSnapshot request)
      (exec (createSnapshot text request) engine).2 := by
  rcases createSnapshot_cases text engine request with
    hexec | ⟨x, hexec⟩ | ⟨snapshot, _, _, hexec⟩
  · rw [hexec]
    exact .viewed (sameRecord_refl engine)
  · rw [hexec]
    exact .viewed (sameRecord_refl engine)
  · rw [hexec]
    exact .snapped request snapshot

theorem createBranch_outcome (text : ReplayText) (engine : BacktestReplayEngine)
    (request : CreateBranch) : Outcome text engine (.createBranch request)
      (exec (createBranch request) engine).2 := by
  rcases createBranch_cases engine request with ⟨x, hexec⟩ | ⟨hcheck, branch, hexec⟩
  · rw [hexec]
    exact .viewed (sameRecord_refl engine)
  · rw [hexec]
    exact .branched request branch hcheck

theorem appendBranchEvent_outcome (text : ReplayText) (engine : BacktestReplayEngine)
    (request : AppendBranchEvent) : Outcome text engine (.appendBranchEvent request)
      (exec (appendBranchEvent text request) engine).2 := by
  rcases appendBranchEvent_cases text engine request with ⟨x, hexec⟩ | ⟨event, hbuild, hexec⟩
  · rw [hexec]
    exact .entered request
  · rw [hexec]
    exact .appended request event hbuild

theorem Outcome.discard {α : Type} {method : Method α} {call : Call}
    (h : Outcome text engine call (exec method engine).2) :
    Outcome text engine call (exec (Functor.discard method) engine).2 := by
  rw [exec_discard_snd]
  exact h

/-- Every call has one of the outcomes. -/
theorem perform_outcome (text : ReplayText) (engine : BacktestReplayEngine) (call : Call) :
    Outcome text engine call (exec (perform text call) engine).2 := by
  have hview : ∀ {α : Type} {m : Method α} {call : Call}, Keeps SameRecord m →
      Outcome text engine call (exec (discard m) engine).2 :=
    fun hkeeps => .discard (.viewed (hkeeps engine))
  cases call with
  | play =>
    apply hview
    apply setting_keeps
    exact fun _ => ⟨rfl, rfl, rfl, rfl⟩
  | pause =>
    apply hview
    apply setting_keeps
    exact fun _ => ⟨rfl, rfl, rfl, rfl⟩
  | stepForward => exact hview stepForward_keeps
  | stepBackward => exact hview stepBackward_keeps
  | jumpToTimestamp timestamp => exact hview (jump_keeps _ _)
  | jumpToReason reasonCode => exact hview (jump_keeps _ _)
  | jumpToEventType eventType => exact hview (jump_keeps _ _)
  | setReplaySpeed speed =>
    apply hview
    apply setting_keeps
    exact fun _ => ⟨rfl, rfl, rfl, rfl⟩
  | setFilterEventTypes eventTypes =>
    apply hview
    apply setting_keeps
    exact fun _ => ⟨rfl, rfl, rfl, rfl⟩
  | restoreSnapshot snapshotId => exact hview (restoreSnapshot_keeps snapshotId)
  | createSnapshot request => exact .discard (createSnapshot_outcome text engine request)
  | initializeSession request => exact .discard (initializeSession_outcome text engine request)
  | createBranch request => exact .discard (createBranch_outcome text engine request)
  | appendBranchEvent request => exact .discard (appendBranchEvent_outcome text engine request)

end OptionResearch.BacktestReplayEngine
