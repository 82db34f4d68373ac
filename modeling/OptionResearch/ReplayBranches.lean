import OptionResearch.BranchedLogs
import OptionResearch.ReplayOutcomes

/-!
# Branch timelines

Seen through `branchTimeline`, an engine is a set of branching logs: no two branches share a list,
an append adds the next number to one timeline, and a new branch starts with a beginning of its
parent's. Only `create_branch` can lose events, those that its branch had before it was declared.
-/

namespace OptionResearch.BacktestReplayEngine

open Effect BranchedLogs ReplayTimelineEvent

variable {text : ReplayText} {engine engine' : BacktestReplayEngine} {call : Call}

/-- An engine without branches. -/
structure Unbranched (engine : BacktestReplayEngine) : Prop where
  branches : engine.branches = .empty
  branchEvents : engine.branchEvents = .empty

/-- No two branches share a list, and the events of every branch are numbered from zero. -/
structure Sound (engine : BacktestReplayEngine) : Prop where
  separate : engine.branchEvents.Separate
  numbered : ∀ branchId, Numbered eventSequence (engine.branchTimeline branchId)

theorem branchTimeline_eq (h : engine'.branchEvents = engine.branchEvents) :
    engine'.branchTimeline = engine.branchTimeline := by
  funext branchId
  rw [branchTimeline, branchTimeline, h]

theorem Unbranched.sound (h : engine.Unbranched) : engine.Sound := by
  constructor
  · rw [h.branchEvents]
    exact NamedLists.separate_empty
  · intro branchId
    rw [branchTimeline, h.branchEvents]
    exact numbered_nil

theorem eventSequence_buildEvent {request : AppendBranchEvent} {place : Nat}
    {event : ReplayTimelineEvent} (h : buildEvent text request place = .ok event) :
    event.eventSequence = place := by
  rw [buildEvent] at h
  obtain ⟨checksum, _, h⟩ := except_bind_eq_ok.mp h
  obtain ⟨payload, _, h⟩ := except_bind_eq_ok.mp h
  cases h
  rfl

theorem Sound.inheritedEvents_isBeginning (h : engine.Sound) (request : CreateBranch) :
    engine.inheritedEvents request <+: engine.branchTimeline request.parentBranchId := by
  rw [inheritedEvents]
  cases engine.findSnapshot request.rootSnapshotId with
  | none => exact List.prefix_rfl
  | some snapshot => exact (h.numbered request.parentBranchId).filter_isBeginning snapshot.cursor

/-! ### One call -/

/-- Where a call may replace a timeline, `admits` has it so. -/
def Admitted (admits : (String → List ReplayTimelineEvent) → String → Prop)
    (engine : BacktestReplayEngine) (call : Call) : Prop :=
  ∀ request, call = .createBranch request → engine.assertBranchable request = .ok () →
    admits engine.branchTimeline request.branchId

/-- Every call is a step of the branching logs. -/
theorem Outcome.step {admits : (String → List ReplayTimelineEvent) → String → Prop}
    (h : Outcome text engine call engine') (hsound : engine.Sound)
    (hadmitted : engine.Admitted admits call) :
    Step eventSequence admits engine.branchTimeline engine'.branchTimeline := by
  have hidle : ∀ {next : BacktestReplayEngine},
      next.branchTimeline = engine.branchTimeline →
        Step eventSequence admits engine.branchTimeline next.branchTimeline := by
    intro next hnext
    rw [hnext]
    exact .idle _
  cases h with
  | viewed hsame => exact hidle (branchTimeline_eq hsame.branchEvents)
  | snapped request snapshot => exact hidle rfl
  | opened request _ _ _ hbranchEvents =>
    apply hidle
    funext branchId
    rw [branchTimeline, hbranchEvents, hsound.separate.items_setdefault, branchTimeline]
  | branched request branch hcheck =>
    change Step _ _ _ (engine.branchEvents.store _ _).items
    rw [hsound.separate.items_store]
    exact .fork _ request.parentBranchId _ (hadmitted request rfl hcheck)
      (hsound.inheritedEvents_isBeginning request)
  | entered request => exact hidle (hsound.separate.items_setdefault request.branchId)
  | appended request event hbuild =>
    change Step _ _ _ (NamedLists.push _ _ event).items
    rw [hsound.separate.items_append]
    exact .append _ _ (eventSequence_buildEvent hbuild)

theorem Outcome.separate (h : Outcome text engine call engine')
    (hsound : engine.branchEvents.Separate) : engine'.branchEvents.Separate := by
  cases h with
  | viewed hsame =>
    rw [hsame.branchEvents]
    exact hsound
  | snapped request snapshot => exact hsound
  | opened request _ _ _ hbranchEvents =>
    rw [hbranchEvents]
    exact hsound.setdefault request.baseBranchId
  | branched request branch hcheck => exact hsound.store
  | entered request => exact hsound.setdefault request.branchId
  | appended request event hbuild => exact (hsound.setdefault request.branchId).push

theorem Outcome.sound (h : Outcome text engine call engine') (hsound : engine.Sound) :
    engine'.Sound := by
  have hstep : Step eventSequence (fun _ _ => True) engine.branchTimeline engine'.branchTimeline :=
    h.step hsound fun _ _ _ => trivial
  exact ⟨h.separate hsound.separate, hstep.numbered hsound.numbered⟩

/-! ### Sequences of calls -/

variable {calls : List Call}

theorem Sound.after (h : engine.Sound) (calls : List Call) : (engine.after text calls).Sound :=
  afterCalls_keeps (R := fun s t => s.Sound → t.Sound) (fun _ => id)
    (fun _ _ _ h h' => h' ∘ h) (fun call s => (perform_outcome text s call).sound) h

/-- A call that declares a branch finds no events under it. -/
def OverwritesNothing (engine : BacktestReplayEngine) (call : Call) : Prop :=
  engine.Admitted (fun timelines branchId => timelines branchId = []) call

/-- Calls that overwrite nothing lose nothing. -/
theorem Sound.extends_after (h : engine.Sound)
    (hcalls : CallsAllowed (perform text) OverwritesNothing engine calls) :
    Extends engine.branchTimeline (engine.after text calls).branchTimeline := by
  have hstep : ∀ s call, s.Sound → s.OverwritesNothing call →
      (exec (perform text call) s).2.Sound ∧
        Extends s.branchTimeline (exec (perform text call) s).2.branchTimeline := by
    intro s call hs hcall
    have houtcome := perform_outcome text s call
    exact ⟨houtcome.sound hs, (houtcome.step hs hcall).extends fun _ hempty => hempty⟩
  exact (afterCalls_related Sound (fun s t => Extends s.branchTimeline t.branchTimeline)
    (fun _ => extends_refl _) (fun _ _ _ => Extends.trans) hstep h hcalls).2

/-- An append leaves every other timeline as it was, and its own with the event it returns. -/
theorem Sound.appendBranchEvent_spec (h : engine.Sound) (text : ReplayText)
    (request : AppendBranchEvent) :
    (∀ other, other ≠ request.branchId →
        (exec (appendBranchEvent text request) engine).2.branchTimeline other =
          engine.branchTimeline other) ∧
      ∀ event, (exec (appendBranchEvent text request) engine).1 = .ok event →
        event ∈ (exec (appendBranchEvent text request) engine).2.branchTimeline
          request.branchId := by
  rcases appendBranchEvent_cases text engine request with ⟨x, hexec⟩ | ⟨event, _, hexec⟩
  · rw [hexec]
    constructor
    · intro other _
      exact congrFun (h.separate.items_setdefault request.branchId) other
    · intro event hevent
      cases hevent
  · rw [hexec]
    have happend := h.separate.items_append request.branchId event
    constructor
    · intro other hother
      refine (congrFun happend other).trans ?_
      rw [Function.update_of_ne hother]
      rfl
    · rintro _ ⟨⟩
      have hown := congrFun happend request.branchId
      rw [Function.update_self] at hown
      change event ∈ NamedLists.items _ request.branchId
      rw [hown]
      exact List.mem_append_right _ List.mem_cons_self

/-- A new branch starts with a beginning of its parent's timeline. -/
theorem Sound.createBranch_spec (h : engine.Sound) {request : CreateBranch} {branch : ReplayBranch}
    (hcreate : exec (createBranch request) engine = (.ok branch, engine')) :
    engine'.branchTimeline request.branchId <+: engine.branchTimeline request.parentBranchId := by
  rcases createBranch_cases engine request with ⟨x, hexec⟩ | ⟨_, created, hexec⟩
  · rw [hexec] at hcreate
    cases hcreate
  · rw [hexec] at hcreate
    cases hcreate
    change NamedLists.items _ request.branchId <+: _
    rw [h.separate.items_store, Function.update_self]
    exact h.inheritedEvents_isBeginning request

/-! ### Appends to declared branches -/

/-- An append goes to a declared branch. -/
def AppendsDeclared (engine : BacktestReplayEngine) (call : Call) : Prop :=
  ∀ request, call = .appendBranchEvent request → engine.branches.contains request.branchId

/-- Only declared branches have timelines. -/
structure SoundDeclared (engine : BacktestReplayEngine) : Prop extends Sound engine where
  declared : ∀ branchId, engine.branchEvents.contains branchId →
    engine.branches.contains branchId

theorem Unbranched.soundDeclared (h : engine.Unbranched) : engine.SoundDeclared := by
  refine ⟨h.sound, ?_⟩
  intro branchId hcontains
  rw [h.branchEvents] at hcontains
  cases hcontains

theorem contains_declareBase {branchId other : String} :
    (engine.declareBase branchId).branches.contains other =
      (other = branchId || engine.branches.contains other) := by
  rw [declareBase]
  by_cases hdeclared : engine.branches.contains branchId
  · rw [if_pos hdeclared]
    by_cases hother : other = branchId
    · simp [hother, hdeclared]
    · simp [hother]
  · rw [if_neg hdeclared, InsertionDict.contains_set]

/-- A branch that may be declared has no events. -/
theorem SoundDeclared.overwritesNothing (h : engine.SoundDeclared) :
    engine.OverwritesNothing call := by
  intro request _ hcheck
  have hundeclared : engine.branches.contains request.branchId = false := by
    rw [assertBranchable] at hcheck
    split_ifs at hcheck with _ hexists
    exact Bool.eq_false_iff.mpr hexists
  apply NamedLists.items_of_not_contains
  by_contra hcontains
  have hdeclared := h.declared request.branchId (Bool.eq_true_of_not_eq_false hcontains)
  rw [hundeclared] at hdeclared
  cases hdeclared

theorem Outcome.soundDeclared (h : Outcome text engine call engine') (hsound : engine.SoundDeclared)
    (hcall : engine.AppendsDeclared call) : engine'.SoundDeclared := by
  refine ⟨h.sound hsound.toSound, ?_⟩
  intro branchId hcontains
  have hdeclared := hsound.declared branchId
  -- an append enters at most its own branch
  have happend : ∀ request, call = .appendBranchEvent request →
      (engine.branchEvents.setdefault request.branchId).1.contains branchId →
        engine.branches.contains branchId := by
    intro request hrequest hentered
    rw [NamedLists.contains_setdefault, Bool.or_eq_true, decide_eq_true_eq] at hentered
    rcases hentered with hown | hother
    · rw [hown]
      exact hcall request hrequest
    · exact hdeclared hother
  cases h with
  | viewed hsame =>
    rw [hsame.branchEvents] at hcontains
    rw [hsame.branches]
    exact hdeclared hcontains
  | snapped request snapshot => exact hdeclared hcontains
  | opened request _ _ hbranches hbranchEvents =>
    rw [hbranchEvents, NamedLists.contains_setdefault, Bool.or_eq_true] at hcontains
    rw [hbranches, contains_declareBase, Bool.or_eq_true]
    exact hcontains.imp_right hdeclared
  | branched request branch hcheck =>
    rw [NamedLists.contains_store, Bool.or_eq_true] at hcontains
    rw [InsertionDict.contains_set, Bool.or_eq_true]
    exact hcontains.imp_right hdeclared
  | entered request => exact happend request rfl hcontains
  | appended request event hbuild => exact happend request rfl hcontains

theorem SoundDeclared.after (h : engine.SoundDeclared)
    (hcalls : CallsAllowed (perform text) AppendsDeclared engine calls) :
    (engine.after text calls).SoundDeclared ∧
      Extends engine.branchTimeline (engine.after text calls).branchTimeline := by
  have hstep : ∀ s call, s.SoundDeclared → s.AppendsDeclared call →
      (exec (perform text call) s).2.SoundDeclared ∧
        Extends s.branchTimeline (exec (perform text call) s).2.branchTimeline := by
    intro s call hs hcall
    have houtcome := perform_outcome text s call
    exact ⟨houtcome.soundDeclared hs hcall,
      (houtcome.step hs.toSound hs.overwritesNothing).extends fun _ hempty => hempty⟩
  exact afterCalls_related SoundDeclared (fun s t => Extends s.branchTimeline t.branchTimeline)
    (fun _ => extends_refl _) (fun _ _ _ => Extends.trans) hstep h hcalls

/-- After any calls that append to declared branches only: every timeline is numbered from zero, a
branch created next starts with a beginning of its parent's timeline, an append leaves the other
timelines alone, and no event leaves the timeline it was appended to. -/
theorem branchTimelines_isolated (text : ReplayText) (engine : BacktestReplayEngine)
    (calls : List Call) (hfresh : engine.Unbranched)
    (hdeclared : CallsAllowed (perform text) AppendsDeclared engine calls) :
    (∀ branchId, ((engine.after text calls).branchTimeline branchId).map eventSequence =
        List.range ((engine.after text calls).branchTimeline branchId).length) ∧
      (∀ request branch created,
        exec (createBranch request) (engine.after text calls) = (.ok branch, created) →
          created.branchTimeline request.branchId <+:
            (engine.after text calls).branchTimeline request.parentBranchId) ∧
      (∀ request other, other ≠ request.branchId →
        (exec (appendBranchEvent text request) (engine.after text calls)).2.branchTimeline other =
          (engine.after text calls).branchTimeline other) ∧
      ∀ request event appended later,
        (engine.after text calls).branches.contains request.branchId →
          exec (appendBranchEvent text request) (engine.after text calls) = (.ok event, appended) →
          CallsAllowed (perform text) AppendsDeclared appended later →
            event ∈ (appended.after text later).branchTimeline request.branchId := by
  have hsound : (engine.after text calls).SoundDeclared := (hfresh.soundDeclared.after hdeclared).1
  refine ⟨hsound.numbered, ?_, ?_, ?_⟩
  · intro request branch created hcreate
    exact hsound.createBranch_spec hcreate
  · intro request other hother
    exact (hsound.appendBranchEvent_spec text request).1 other hother
  · intro request event appended later hcontains happend hlater
    have hspec := (hsound.appendBranchEvent_spec text request).2 event
    rw [happend] at hspec
    have houtcome := appendBranchEvent_outcome text (engine.after text calls) request
    rw [happend] at houtcome
    have hnext : appended.SoundDeclared := by
      apply houtcome.soundDeclared hsound
      rintro _ ⟨⟩
      exact hcontains
    exact (hnext.after hlater).2.mem (hspec rfl)

/-- An event without payload for a branch. -/
def noteOn (branchId : String) : AppendBranchEvent where
  branchId
  eventType := "entry"
  severity := "info"
  strategyId := "s-1"
  symbol := "SPY"
  timestamp := ⟨0, some 0⟩
  tags := []
  payload := []

def openMain : InitializeSession where
  sessionId := "sess-1"
  runId := "run-1"
  timelineId := "tl-1"

def forkAlt : CreateBranch where
  branchId := "alt-1"
  parentBranchId := "main"
  rootSnapshotId := "snap-1"

theorem branchTimelines_isolated_fork :
    let engine := BacktestReplayEngine.after plainReplayText { events := [] }
      [.initializeSession openMain, .appendBranchEvent (noteOn "main"), .createBranch forkAlt,
        .appendBranchEvent (noteOn "alt-1")]
    (engine.branchTimeline "alt-1").length = 2 ∧
      ∀ branchId, (engine.branchTimeline branchId).map eventSequence =
        List.range (engine.branchTimeline branchId).length := by
  refine ⟨rfl, (branchTimelines_isolated plainReplayText { events := [] } _ ⟨rfl, rfl⟩ ?_).1⟩
  refine ⟨fun _ h => (nomatch h), ?_, fun _ h => (nomatch h), ?_, trivial⟩
  · rintro _ ⟨⟩
    rfl
  · rintro _ ⟨⟩
    rfl

/-! ### Appends to any branch -/

/-- After any calls at all, an event that an append returned stays in the timeline of its branch
as long as no branch is created over events. -/
theorem appended_event_kept (text : ReplayText) (engine appended : BacktestReplayEngine)
    (calls later : List Call) (request : AppendBranchEvent) (event : ReplayTimelineEvent)
    (hfresh : engine.Unbranched)
    (happend : exec (appendBranchEvent text request) (engine.after text calls) =
      (.ok event, appended))
    (hlater : CallsAllowed (perform text) OverwritesNothing appended later) :
    event ∈ (appended.after text later).branchTimeline request.branchId := by
  have hsound : (engine.after text calls).Sound := hfresh.sound.after calls
  have hspec := (hsound.appendBranchEvent_spec text request).2 event
  have houtcome := appendBranchEvent_outcome text (engine.after text calls) request
  rw [happend] at hspec houtcome
  exact ((houtcome.sound hsound).extends_after hlater).mem (hspec rfl)

theorem appended_event_kept_fork :
    ∃ event appended,
      exec (appendBranchEvent plainReplayText (noteOn "main"))
          (BacktestReplayEngine.after plainReplayText { events := [] }
            [.initializeSession openMain]) = (.ok event, appended) ∧
        event ∈ (appended.after plainReplayText
          [.createBranch forkAlt, .appendBranchEvent (noteOn "alt-1")]).branchTimeline "main" := by
  refine ⟨_, _, rfl, appended_event_kept plainReplayText { events := [] } _
    [.initializeSession openMain] _ (noteOn "main") _ ⟨rfl, rfl⟩ rfl ?_⟩
  refine ⟨?_, fun _ h => (nomatch h), trivial⟩
  rintro _ ⟨⟩ _
  rfl

/-- A branch declared after it received an event starts without the event. -/
theorem appended_event_lost :
    ¬ ∀ (text : ReplayText) (engine appended : BacktestReplayEngine) (calls later : List Call)
      (request : AppendBranchEvent) (event : ReplayTimelineEvent), engine.Unbranched →
        exec (appendBranchEvent text request) (engine.after text calls) = (.ok event, appended) →
          event ∈ (appended.after text later).branchTimeline request.branchId := by
  intro hkept
  have hmem := hkept plainReplayText { events := [] } _ []
    [.initializeSession openMain, .createBranch forkAlt] (noteOn "alt-1") _ ⟨rfl, rfl⟩ rfl
  exact absurd hmem List.not_mem_nil

end OptionResearch.BacktestReplayEngine
