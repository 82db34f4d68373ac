import OptionResearch.AsOfQueries
import OptionResearch.EngineLedger

/-!
# Open positions out of a run's history

`open_positions_as_of` over the `position_history` of a run. The history holds a row for each
position that is open after an event, and the closed positions at its end, so that a position that
outlives an event has several rows, of which the query returns all whose interval covers the time.
The query finds what was open exactly where nothing outlives an event.
-/

namespace OptionResearch

namespace AsOfQueries

/-- The test of `open_positions_as_of`. -/
def isOpenAsOf (asOf : DateTime) (position : PyObject PositionState) : Except Exc Bool := do
  let opened ← position.attr "opened_at" (·.openedAt)
  let closed ← position.attr "closed_at" (·.closedAt)
  return decide (opened.ensureAware ≤ asOf.ensureAware) &&
    closed.all fun time => decide (asOf.ensureAware < time.ensureAware)

def openPositionsAsOf (asOf : DateTime) (positions : List (PyObject PositionState)) :
    Except Exc (List (PyObject PositionState)) :=
  TimedRows.comprehend (isOpenAsOf asOf) positions

/-- What the two time stamps of a position say. -/
theorem isOpenAsOf_eq {asOf opened : DateTime} {closed : Option DateTime}
    {position : PyObject PositionState}
    (hopened : position.attr "opened_at" (·.openedAt) = .ok opened)
    (hclosed : position.attr "closed_at" (·.closedAt) = .ok closed) :
    isOpenAsOf asOf position =
      .ok (decide (opened ≤ asOf) && closed.all fun time => decide (asOf < time)) := by
  rw [isOpenAsOf, hopened, hclosed]
  have hle : decide (opened.ensureAware ≤ asOf.ensureAware) = decide (opened ≤ asOf) := by
    rw [decide_eq_decide, DateTime.le_iff, DateTime.instant_ensureAware,
      DateTime.instant_ensureAware, DateTime.le_iff]
  simp only [bind, Except.bind, pure, Except.pure, hle, DateTime.ensureAware_lt_iff]

end AsOfQueries

namespace BacktestingEngine

open Effect AsOfQueries

variable {σ : Type}

/-- The position that the engine goes on with in the place of `position`. -/
inductive Continues (strategy : StrategyObject σ) (position : PyObject PositionState) :
    PyObject PositionState → Prop
  | untouched : Continues strategy position position
  | marked {context : EventContext} {marked : PyObject PositionState} {e e' : σ}
      (step : exec (strategy.markPosition context position) e = (.ok marked, e')) :
      Continues strategy position marked
  | processed {context : EventContext} {processed : PyObject PositionState} {e e' : σ}
      (step : exec (strategy.processExpiration context position) e = (.ok processed, e')) :
      Continues strategy position processed

/-- Marking and expiration processing return the opening time they were given. -/
structure KeepsOpening (strategy : StrategyObject σ) : Prop where
  mark : ∀ {context position e marked e' opened},
    exec (strategy.markPosition context position) e = (.ok marked, e') →
      position.attr "opened_at" (·.openedAt) = .ok opened →
        marked.attr "opened_at" (·.openedAt) = .ok opened
  expiration : ∀ {context position e processed e' opened},
    exec (strategy.processExpiration context position) e = (.ok processed, e') →
      position.attr "opened_at" (·.openedAt) = .ok opened →
        processed.attr "opened_at" (·.openedAt) = .ok opened

section Turns

variable {engine : BacktestingEngine} {strategy : StrategyObject σ}
  {configuration : BacktestConfiguration} {lookup : Option (InformationLookup σ)}

theorem Continues.heldId_eq (hid : KeepsIdentity strategy) {position next : PyObject PositionState}
    {id : String} (h : Continues strategy position next) (hheld : heldId position = some id) :
    heldId next = some id := by
  cases h with
  | untouched => exact hheld
  | marked step => exact (hid.mark step).1 id hheld
  | processed step => exact (hid.expiration step).1 id hheld

theorem Continues.opened_eq (hopening : KeepsOpening strategy)
    {position next : PyObject PositionState} {opened : DateTime}
    (h : Continues strategy position next)
    (hopened : position.attr "opened_at" (·.openedAt) = .ok opened) :
    next.attr "opened_at" (·.openedAt) = .ok opened := by
  cases h with
  | untouched => exact hopened
  | marked step => exact hopening.mark step hopened
  | processed step => exact hopening.expiration step hopened

/-- A position is kept as it was marked, or closed at the time of the event under the id it was
marked with. -/
theorem evaluatePosition_continues {context : EventContext} {position : PyObject PositionState}
    {e e' : σ} {outcome : PositionOutcome}
    (h : exec (engine.evaluatePosition strategy context position) e = (.ok outcome, e')) :
    match outcome with
    | .kept marked => Continues strategy position marked
    | .closed closed _ => closed.closedAt = some context.event.timestamp ∧
        ∃ marked, Continues strategy position marked ∧ heldId marked = some closed.positionId := by
  obtain ⟨marked, e₁, hmark, hout⟩ := evaluatePosition_cases h
  cases outcome with
  | kept kept =>
    dsimp only at hout ⊢
    rw [hout]
    exact .marked hmark
  | closed closed row =>
    obtain ⟨hclosed, -⟩ := hout
    exact ⟨(closePosition_spec hclosed).2, marked, .marked hmark, positionId_closePosition hclosed⟩

/-- The position goes on among those that are open, or was closed. -/
def Followed (strategy : StrategyObject σ) (position : PyObject PositionState)
    (openPositions : List (PyObject PositionState)) (newlyClosed : List PositionState) : Prop :=
  (∃ next ∈ openPositions, Continues strategy position next) ∨
    ∃ closed ∈ newlyClosed, ∃ marked, Continues strategy position marked ∧
      heldId marked = some closed.positionId

theorem Manages.followed {context : EventContext} {positions : List (PyObject PositionState)}
    {e e' : σ} {outcome : Except Exc (List (PyObject PositionState) × List PositionState)}
    {rows : List LedgerRecord} (h : Manages engine strategy context positions e outcome rows e') :
    ∀ updated newlyClosed, outcome = .ok (updated, newlyClosed) →
      (∀ closed ∈ newlyClosed, closed.closedAt = some context.event.timestamp) ∧
        ∀ position ∈ positions, Followed strategy position updated newlyClosed := by
  induction h with
  | done e =>
    rintro updated newlyClosed ⟨⟩
    exact ⟨fun _ h => absurd h List.not_mem_nil, fun _ h => absurd h List.not_mem_nil⟩
  | raised step => exact fun _ _ h => (nomatch h)
  | @kept position marked rest _ _ _ outcome rows step tail ih =>
    rintro updated newlyClosed hok
    rcases outcome with x | ⟨updated', newlyClosed'⟩
    · cases hok
    · cases hok
      obtain ⟨htime, hrest⟩ := ih _ _ rfl
      refine ⟨htime, List.forall_mem_cons.mpr ⟨?_, fun other hother => ?_⟩⟩
      · exact .inl ⟨marked, List.mem_cons_self, evaluatePosition_continues step⟩
      · exact (hrest other hother).imp_left fun ⟨next, hnext, hcontinues⟩ =>
          ⟨next, List.mem_cons_of_mem _ hnext, hcontinues⟩
  | @closed position rest _ _ _ outcome rows closed row step tail ih =>
    rintro updated newlyClosed hok
    rcases outcome with x | ⟨updated', newlyClosed'⟩
    · cases hok
    · cases hok
      obtain ⟨htime, hrest⟩ := ih _ _ rfl
      obtain ⟨hclosed, hmarked⟩ := evaluatePosition_continues step
      refine ⟨List.forall_mem_cons.mpr ⟨hclosed, htime⟩,
        List.forall_mem_cons.mpr ⟨?_, fun other hother => ?_⟩⟩
      · exact .inr ⟨closed, List.mem_cons_self, hmarked⟩
      · exact (hrest other hother).imp_right fun ⟨last, hlast, hcontinues⟩ =>
          ⟨last, List.mem_cons_of_mem _ hlast, hcontinues⟩

theorem Refreshes.followed {context : EventContext} {positions : List (PyObject PositionState)}
    {e e' : σ} {outcome : Except Exc (List (PyObject PositionState))} {rows : List LedgerRecord}
    (h : Refreshes strategy context positions e outcome rows e') :
    ∀ refreshed, outcome = .ok refreshed →
      ∀ position ∈ positions, Followed strategy position refreshed [] := by
  induction h with
  | done e => exact fun _ _ _ h => absurd h List.not_mem_nil
  | raised positions e e' x => exact fun _ h => (nomatch h)
  | @refreshed position processed rest _ _ _ outcome _ _ step tail ih =>
    rintro refreshed hok
    rcases outcome with x | rest'
    · cases hok
    · cases hok
      refine List.forall_mem_cons.mpr ⟨?_, fun other hother => ?_⟩
      · exact .inl ⟨processed, List.mem_cons_self, .processed step⟩
      · exact (ih rest' rfl other hother).imp_left fun ⟨next, hnext, hcontinues⟩ =>
          ⟨next, List.mem_cons_of_mem _ hnext, hcontinues⟩

/-- What a step says of the positions it started from: they go on, or were closed at that time. -/
def Follows (strategy : StrategyObject σ) (time : DateTime) (s s' : BacktestEngineState) : Prop :=
  ∃ newlyClosed, s'.closedPositions = s.closedPositions ++ newlyClosed ∧
    (∀ position ∈ newlyClosed, position.closedAt = some time) ∧
    ∀ position ∈ s.openPositions, Followed strategy position s'.openPositions newlyClosed

theorem Follows.of_untouched {time : DateTime} {s s' : BacktestEngineState}
    (hopen : s.openPositions ⊆ s'.openPositions)
    (hclosed : s'.closedPositions = s.closedPositions) :
    Follows strategy time s s' :=
  ⟨[], by rw [hclosed, List.append_nil], fun _ h => absurd h List.not_mem_nil,
    fun position hmem => .inl ⟨position, hopen hmem, .untouched⟩⟩

theorem EntryStep.positions {context : EventContext} {s s' : BacktestEngineState} {e e' : σ}
    {r : Except Exc Unit} (h : EntryStep engine strategy context s e r s' e') :
    s.openPositions ⊆ s'.openPositions ∧ s'.closedPositions = s.closedPositions ∧
      s'.positionHistory = s.positionHistory ∧ s'.failedEvents = s.failedEvents := by
  cases h with
  | idle => exact ⟨List.Subset.refl _, rfl, rfl, rfl⟩
  | refused => exact ⟨List.Subset.refl _, rfl, rfl, rfl⟩
  | stored => exact ⟨List.subset_append_left _ _, rfl, rfl, rfl⟩
  | opened => exact ⟨List.subset_append_left _ _, rfl, rfl, rfl⟩

theorem LifecycleStep.recorded {context : EventContext} {s s' : BacktestEngineState} {e e' : σ}
    {r : Except Exc Unit} (h : LifecycleStep engine strategy context s e r s' e') :
    s'.positionHistory = s.positionHistory ∧ s'.failedEvents = s.failedEvents := by
  cases h with
  | entryRaised entry => exact entry.positions.2.2
  | loopRaised entry loop => exact entry.positions.2.2
  | finished entry loop => exact entry.positions.2.2

theorem LifecycleStep.follows {context : EventContext} {s s' : BacktestEngineState} {e e' : σ}
    (h : LifecycleStep engine strategy context s e (.ok ()) s' e') :
    Follows strategy context.event.timestamp s s' := by
  cases h with
  | finished entry loop =>
    obtain ⟨hopen, hclosed, -⟩ := entry.positions
    obtain ⟨htime, hfollowed⟩ := loop.followed _ _ rfl
    refine ⟨_, ?_, htime, fun position hmem => hfollowed position (hopen hmem)⟩
    rw [← hclosed]
    rfl

theorem DispatchStep.recorded {context : EventContext} {s s' : BacktestEngineState} {e e' : σ}
    {r : Except Exc Unit} (h : DispatchStep engine strategy context s e r s' e') :
    s'.positionHistory = s.positionHistory ∧ s'.failedEvents = s.failedEvents := by
  cases h with
  | lifecycle type step => exact step.recorded
  | valuation type => exact ⟨rfl, rfl⟩
  | expirationRaised type => exact ⟨rfl, rfl⟩
  | expiration type loop => exact ⟨rfl, rfl⟩
  | corporateAction type row => exact ⟨rfl, rfl⟩
  | risk type warning => exact ⟨rfl, rfl⟩
  | ignored lifecycle valuation => exact ⟨rfl, rfl⟩

theorem DispatchStep.follows {context : EventContext} {s s' : BacktestEngineState} {e e' : σ}
    (h : DispatchStep engine strategy context s e (.ok ()) s' e') :
    Follows strategy context.event.timestamp s s' := by
  cases h with
  | lifecycle type step => exact step.follows
  | valuation type => exact Follows.of_untouched (List.Subset.refl _) rfl
  | expiration type loop =>
    exact ⟨[], (List.append_nil _).symm, fun _ h => absurd h List.not_mem_nil,
      loop.followed _ rfl⟩
  | corporateAction type row => exact Follows.of_untouched (List.Subset.refl _) rfl
  | risk type warning => exact Follows.of_untouched (List.Subset.refl _) rfl
  | ignored lifecycle valuation => exact Follows.of_untouched (List.Subset.refl _) rfl

/-- What an event that does not fail does to the positions and to their history. -/
structure Turn (strategy : StrategyObject σ) (event : DeterministicEvent)
    (s s' : BacktestEngineState) : Prop where
  history : s'.positionHistory = s.positionHistory ++ s'.openPositions
  follows : Follows strategy event.timestamp s s'

/-- An event that fails is recorded as failed, any other one makes its turn. -/
theorem turn_or_failed (event : DeterministicEvent) (w : BacktestEngineState × σ) :
    (Turn strategy event w.1 (exec (engine.runEvent strategy configuration lookup event) w).2.1 ∧
      (exec (engine.runEvent strategy configuration lookup event) w).2.1.failedEvents =
        w.1.failedEvents) ∨
    ∃ failure, (exec (engine.runEvent strategy configuration lookup event) w).2.1.failedEvents =
      w.1.failedEvents ++ [failure] := by
  rcases w with ⟨s, e⟩
  rw [exec_runEvent]
  rcases hp : exec (engine.processEvent strategy configuration lookup event) (s, e) with
    ⟨x | _, s', e'⟩
  · refine .inr ⟨failedEvent event x, ?_⟩
    have hsame : s'.failedEvents = s.failedEvents := by
      cases processStep_processEvent engine strategy configuration lookup event hp with
      | blind unseen => rfl
      | raised seen taken step => exact step.recorded.2
    change s'.failedEvents ++ _ = _
    rw [hsame]
  · cases processStep_processEvent engine strategy configuration lookup event hp with
    | @finished _ _ _ _ s₁ seen taken step =>
      refine .inl ⟨⟨?_, step.follows⟩, step.recorded.2⟩
      change s₁.positionHistory ++ s₁.openPositions = _
      rw [step.recorded.1]
      rfl

end Turns

section Runs

variable (engine : BacktestingEngine) (strategy : StrategyObject σ)
  (configuration : BacktestConfiguration) (lookup : Option (InformationLookup σ))

/-- The query over a history finds, at the time of each event, the positions that were open after
it. -/
def FindsOpen (events : List DeterministicEvent) (env : σ)
    (history : List (PyObject PositionState)) : Prop :=
  ∀ pre event, pre ++ [event] <+: events →
    ∃ rows, openPositionsAsOf event.timestamp history = .ok rows ∧
      (rows.map heldId).Perm ((engine.after strategy configuration lookup (pre ++ [event])
        (initialState configuration, env)).1.openPositions.map heldId)

/-- No position outlives an event: only after the last one there are any, which were opened since
the one before; and those that were closed were opened after each event that they were not closed
by. -/
structure NothingOutlives (events : List DeterministicEvent) (env : σ) : Prop where
  between : ∀ pre event, pre ++ [event] <+: events → pre ++ [event] ≠ events →
    (engine.after strategy configuration lookup (pre ++ [event])
      (initialState configuration, env)).1.openPositions = []
  last : ∀ pre event, pre ++ [event] = events →
    ∀ position ∈ (engine.after strategy configuration lookup events
        (initialState configuration, env)).1.openPositions,
      ∃ opened closed, position.attr "opened_at" (·.openedAt) = .ok opened ∧
        position.attr "closed_at" (·.closedAt) = .ok closed ∧ opened ≤ event.timestamp ∧
        (∀ time ∈ closed, event.timestamp < time) ∧ ∀ earlier ∈ pre, earlier.timestamp < opened
  closed : ∀ position ∈ (engine.after strategy configuration lookup events
      (initialState configuration, env)).1.closedPositions,
    ∀ time ∈ position.closedAt, ∀ event ∈ events, event.timestamp < time →
      event.timestamp < position.openedAt

variable {engine strategy configuration lookup} {events : List DeterministicEvent} {env : σ}
  {w : BacktestEngineState × σ}

theorem failedEvents_prefix (pre post : List DeterministicEvent) :
    (engine.after strategy configuration lookup pre w).1.failedEvents <+:
      (engine.after strategy configuration lookup (pre ++ post) w).1.failedEvents := by
  induction post using List.reverseRecOn with
  | nil => exact (List.append_nil pre).symm ▸ List.prefix_rfl
  | append_singleton post event ih =>
    rw [← List.append_assoc, after_concat]
    rcases turn_or_failed event (engine.after strategy configuration lookup (pre ++ post) w) with
      ⟨-, hsame⟩ | ⟨failure, hfailed⟩
    · rw [hsame]
      exact ih
    · rw [hfailed]
      exact ih.trans (List.prefix_append _ _)

theorem failedEvents_eq_nil
    (hcomplete : (engine.after strategy configuration lookup events w).1.failedEvents = [])
    {pre : List DeterministicEvent} (hpre : pre <+: events) :
    (engine.after strategy configuration lookup pre w).1.failedEvents = [] := by
  obtain ⟨post, rfl⟩ := hpre
  exact List.prefix_nil.mp (hcomplete ▸ failedEvents_prefix pre post)

/-- In a run without failures every event makes its turn. -/
theorem turn_of_completed
    (hcomplete : (engine.after strategy configuration lookup events w).1.failedEvents = [])
    {pre : List DeterministicEvent} {event : DeterministicEvent}
    (hpre : pre ++ [event] <+: events) :
    Turn strategy event (engine.after strategy configuration lookup pre w).1
      (engine.after strategy configuration lookup (pre ++ [event]) w).1 := by
  have hnone := failedEvents_eq_nil hcomplete hpre
  rw [after_concat] at hnone ⊢
  rcases turn_or_failed event (engine.after strategy configuration lookup pre w) with
    ⟨hturn, -⟩ | ⟨failure, hfailed⟩
  · exact hturn
  · rw [hfailed] at hnone
    exact absurd hnone (List.append_ne_nil_of_right_ne_nil _ (List.cons_ne_nil _ _))

/-- The history and the closed positions of a run without failures only grow. -/
theorem recorded_extend
    (hcomplete : (engine.after strategy configuration lookup events w).1.failedEvents = [])
    {pre post : List DeterministicEvent} (hpre : pre ++ post <+: events) :
    (engine.after strategy configuration lookup pre w).1.positionHistory <+:
        (engine.after strategy configuration lookup (pre ++ post) w).1.positionHistory ∧
      (engine.after strategy configuration lookup pre w).1.closedPositions <+:
        (engine.after strategy configuration lookup (pre ++ post) w).1.closedPositions := by
  induction post using List.reverseRecOn with
  | nil =>
    rw [List.append_nil]
    exact ⟨List.prefix_rfl, List.prefix_rfl⟩
  | append_singleton post event ih =>
    rw [← List.append_assoc] at hpre ⊢
    obtain ⟨hhistory, hclosed⟩ := ih ((List.prefix_append _ _).trans hpre)
    have hturn : Turn strategy event _ _ := turn_of_completed hcomplete hpre
    obtain ⟨newlyClosed, hnew, -⟩ := hturn.follows
    rw [hturn.history, hnew]
    exact ⟨hhistory.trans (List.prefix_append _ _), hclosed.trans (List.prefix_append _ _)⟩

/-- A closed position bears the time of one of the events. -/
theorem exists_closedAt
    (hcomplete : (engine.after strategy configuration lookup events
      (initialState configuration, env)).1.failedEvents = [])
    {pre : List DeterministicEvent} (hpre : pre <+: events) :
    ∀ position ∈ (engine.after strategy configuration lookup pre
        (initialState configuration, env)).1.closedPositions,
      ∃ event ∈ pre, position.closedAt = some event.timestamp := by
  induction pre using List.reverseRecOn with
  | nil => exact fun _ h => absurd h List.not_mem_nil
  | append_singleton pre event ih =>
    obtain ⟨newlyClosed, hnew, htime, -⟩ := (turn_of_completed hcomplete hpre).follows
    rw [hnew]
    intro position hmem
    rcases List.mem_append.mp hmem with hmem | hmem
    · obtain ⟨earlier, hearlier, hclosed⟩ := ih ((List.prefix_append _ _).trans hpre) position hmem
      exact ⟨earlier, List.mem_append_left _ hearlier, hclosed⟩
    · exact ⟨event, List.mem_append_right _ List.mem_cons_self, htime position hmem⟩

/-- Where nothing outlives an event, the history is empty up to the last one. -/
theorem positionHistory_eq_nil
    (hcomplete : (engine.after strategy configuration lookup events
      (initialState configuration, env)).1.failedEvents = [])
    (hflat : engine.NothingOutlives strategy configuration lookup events env)
    {pre : List DeterministicEvent} (hpre : pre <+: events) (hne : pre ≠ events) :
    (engine.after strategy configuration lookup pre
      (initialState configuration, env)).1.positionHistory = [] := by
  induction pre using List.reverseRecOn with
  | nil => rfl
  | append_singleton pre event ih =>
    have hshorter : pre ≠ events := by
      rintro rfl
      have hlength := hpre.length_le
      rw [List.length_append, List.length_singleton] at hlength
      omega
    rw [(turn_of_completed hcomplete hpre).history, ih ((List.prefix_append _ _).trans hpre)
      hshorter, hflat.between pre event hpre hne]
    rfl

/-- The rows of closed positions, as the query reads them. -/
theorem isOpenAsOf_toObject (asOf : DateTime) (position : PositionState) :
    isOpenAsOf asOf position.toObject = .ok (decide (position.openedAt ≤ asOf) &&
      position.closedAt.all fun time => decide (asOf < time)) :=
  isOpenAsOf_eq rfl rfl

/-- Rows that all cover the time, before rows none of which does. -/
theorem openPositionsAsOf_append (covering : Bool) {asOf : DateTime}
    {rows others : List (PyObject PositionState)}
    (hrows : ∀ row ∈ rows, isOpenAsOf asOf row = .ok covering)
    (hothers : ∀ row ∈ others, isOpenAsOf asOf row = .ok false) :
    openPositionsAsOf asOf (rows ++ others) = .ok (if covering then rows else []) := by
  refine TimedRows.comprehend_eq_ok_iff.mpr ⟨fun row hrow => ?_, ?_⟩
  · rcases List.mem_append.mp hrow with hrow | hrow
    · exact ⟨covering, hrows row hrow⟩
    · exact ⟨false, hothers row hrow⟩
  · have hnone : others.filter (fun row => (isOpenAsOf asOf row).toOption.getD false) = [] :=
      List.filter_eq_nil_iff.mpr fun row hrow => by
        rw [hothers row hrow]
        exact Bool.false_ne_true
    rw [List.filter_append, hnone, List.append_nil]
    cases covering with
    | true =>
      refine (List.filter_eq_self.mpr fun row hrow => ?_).symm
      rw [hrows row hrow]
      rfl
    | false =>
      refine (List.filter_eq_nil_iff.mpr fun row hrow => ?_).symm
      rw [hrows row hrow]
      exact Bool.false_ne_true

/-- A closed position covers the time of no event, where nothing outlives one. -/
theorem isOpenAsOf_closed
    (hcomplete : (engine.after strategy configuration lookup events
      (initialState configuration, env)).1.failedEvents = [])
    (hflat : engine.NothingOutlives strategy configuration lookup events env)
    {event : DeterministicEvent} (hmem : event ∈ events) {position : PositionState}
    (hclosed : position ∈ (engine.after strategy configuration lookup events
      (initialState configuration, env)).1.closedPositions) :
    isOpenAsOf event.timestamp position.toObject = .ok false := by
  obtain ⟨closing, -, htime⟩ := exists_closedAt hcomplete List.prefix_rfl position hclosed
  rw [isOpenAsOf_toObject, htime, Option.all_some]
  by_cases hbefore : event.timestamp < closing.timestamp
  · have hopened := hflat.closed position hclosed _ htime event hmem hbefore
    rw [decide_eq_false (DateTime.not_le_iff.mpr hopened), Bool.false_and]
  · rw [decide_eq_false hbefore, Bool.and_false]

/-- The history of such a run is what its last event left open. -/
theorem positionHistory_of_nothingOutlives
    (hcomplete : (engine.after strategy configuration lookup events
      (initialState configuration, env)).1.failedEvents = [])
    (hflat : engine.NothingOutlives strategy configuration lookup events env)
    {init : List DeterministicEvent} {last : DeterministicEvent}
    (hevents : events = init ++ [last]) :
    (engine.after strategy configuration lookup events
      (initialState configuration, env)).1.positionHistory =
        (engine.after strategy configuration lookup events
          (initialState configuration, env)).1.openPositions := by
  have hinit : init ≠ events := by
    rw [hevents]
    exact fun heq => List.cons_ne_nil _ _ (List.self_eq_append_right.mp heq)
  have hturn := turn_of_completed hcomplete
    (hevents ▸ List.prefix_rfl : init ++ [last] <+: events)
  rw [← hevents] at hturn
  rw [hturn.history, positionHistory_eq_nil hcomplete hflat
    (hevents ▸ List.prefix_append init [last]) hinit, List.nil_append]

/-- Where nothing outlives an event, the query finds the open positions themselves. -/
theorem openPositionsAsOf_of_nothingOutlives
    (hcomplete : (engine.after strategy configuration lookup events
      (initialState configuration, env)).1.failedEvents = [])
    (hflat : engine.NothingOutlives strategy configuration lookup events env)
    {pre : List DeterministicEvent} {event : DeterministicEvent}
    (hpre : pre ++ [event] <+: events) :
    openPositionsAsOf event.timestamp
        ((engine.after strategy configuration lookup events
            (initialState configuration, env)).1.positionHistory ++
          (engine.after strategy configuration lookup events
            (initialState configuration, env)).1.closedPositions.map PositionState.toObject) =
      .ok (engine.after strategy configuration lookup (pre ++ [event])
        (initialState configuration, env)).1.openPositions := by
  have hmem : event ∈ events := hpre.subset (List.mem_append_right _ List.mem_cons_self)
  obtain ⟨init, last, hevents⟩ : ∃ init last, events = init ++ [last] :=
    (List.eq_nil_or_concat' events).resolve_left fun hnil => by
      rw [hnil] at hmem
      cases hmem
  rw [positionHistory_of_nothingOutlives hcomplete hflat hevents]
  have hclosedRows : ∀ row ∈ (engine.after strategy configuration lookup events
      (initialState configuration, env)).1.closedPositions.map PositionState.toObject,
      isOpenAsOf event.timestamp row = .ok false := by
    intro row hrow
    obtain ⟨position, hposition, rfl⟩ := List.mem_map.mp hrow
    exact isOpenAsOf_closed hcomplete hflat hmem hposition
  have hpositions := hflat.last init last hevents.symm
  by_cases hlast : pre ++ [event] = events
  · obtain rfl : event = last := by
      rw [hevents] at hlast
      exact List.cons.inj (List.append_inj' hlast rfl).2 |>.1
    rw [hlast]
    refine openPositionsAsOf_append true (fun position hposition => ?_) hclosedRows
    obtain ⟨opened, closed, hopened, hclosed, hle, hopen, -⟩ := hpositions position hposition
    have hall : (closed.all fun time => decide (event.timestamp < time)) = true := by
      cases closed with
      | none => rfl
      | some time => exact decide_eq_true (hopen time rfl)
    rw [isOpenAsOf_eq hopened hclosed, decide_eq_true hle, hall, Bool.and_true]
  · rw [hflat.between pre event hpre hlast]
    refine openPositionsAsOf_append false (fun position hposition => ?_) hclosedRows
    obtain ⟨opened, closed, hopened, hclosed, -, -, hearlier⟩ := hpositions position hposition
    have hinit : event ∈ init := by
      rw [hevents, List.prefix_concat_iff] at hpre
      exact (hpre.resolve_left (hevents ▸ hlast)).subset
        (List.mem_append_right _ List.mem_cons_self)
    rw [isOpenAsOf_eq hopened hclosed,
      decide_eq_false (DateTime.not_le_iff.mpr (hearlier event hinit)), Bool.false_and]

/-! ### Positions that outlive an event -/

theorem ledgerWhole_of_completed
    (hcomplete : (engine.after strategy configuration lookup events
      (initialState configuration, env)).1.failedEvents = []) :
    engine.LedgerWhole strategy configuration lookup events env := by
  rintro pre event ⟨hoccurs, x, hx⟩
  have hnone := failedEvents_eq_nil hcomplete hoccurs
  rw [after_concat, exec_runEvent] at hnone
  rcases hp : exec (engine.processEvent strategy configuration lookup event)
    (engine.after strategy configuration lookup pre (initialState configuration, env)) with
    ⟨x' | _, s', e'⟩
  · rw [hp] at hnone
    exact absurd hnone (List.append_ne_nil_of_right_ne_nil _ (List.cons_ne_nil _ _))
  · rw [hp] at hx
    cases hx

theorem createdIds_extend (pre post : List DeterministicEvent) :
    engine.createdIds strategy configuration lookup pre w <+:
      engine.createdIds strategy configuration lookup (pre ++ post) w := by
  induction post using List.reverseRecOn with
  | nil => exact (List.append_nil pre).symm ▸ List.prefix_rfl
  | append_singleton post event ih =>
    rw [← List.append_assoc, createdIds_concat]
    exact ih.trans (List.prefix_append _ _)

theorem map_heldId {positions : List (PyObject PositionState)} (h : Identified positions) :
    positions.map heldId = (positions.filterMap heldId).map some := by
  induction positions with
  | nil => rfl
  | cons position rest ih =>
    obtain ⟨id, hheld⟩ := h position List.mem_cons_self
    rw [List.map_cons, List.filterMap_cons, hheld, List.map_cons, ih h.tail]

/-- With a new id for each position, the open and the closed ones have different ids. -/
theorem ids_of_fresh (hid : KeepsIdentity strategy)
    (hcomplete : (engine.after strategy configuration lookup events
      (initialState configuration, env)).1.failedEvents = [])
    (hfresh : (engine.createdIds strategy configuration lookup events
      (initialState configuration, env)).Nodup)
    {pre : List DeterministicEvent} (hpre : pre <+: events) {s : BacktestEngineState}
    (hs : s = (engine.after strategy configuration lookup pre
      (initialState configuration, env)).1) :
    Identified s.openPositions ∧ (s.openIds ++ s.closedIds).Nodup := by
  obtain ⟨hsound, hids⟩ := ledgerSound_after hid (ledgerWhole_of_completed hcomplete) hpre
  rw [← hs] at hsound hids
  obtain ⟨post, rfl⟩ := hpre
  refine ⟨hsound.identified, hsound.conserved.nodup_iff.mpr ?_⟩
  rw [hids]
  exact hfresh.sublist (createdIds_extend pre post).sublist

variable (engine strategy configuration lookup) in
/-- The positions that are open after an event have no closing time and were opened by then. -/
def OpenedByThen (events : List DeterministicEvent) (env : σ) : Prop :=
  ∀ pre event, pre ++ [event] <+: events →
    ∀ position ∈ (engine.after strategy configuration lookup (pre ++ [event])
        (initialState configuration, env)).1.openPositions,
      position.attr "closed_at" (·.closedAt) = .ok none ∧
        ∃ opened, position.attr "opened_at" (·.openedAt) = .ok opened ∧ opened ≤ event.timestamp

/-- Such a position is found at each time from its opening on. -/
theorem isOpenAsOf_of_open {asOf opened : DateTime} {position : PyObject PositionState}
    (hclosed : position.attr "closed_at" (·.closedAt) = .ok none)
    (hopened : position.attr "opened_at" (·.openedAt) = .ok opened) (hle : opened ≤ asOf) :
    isOpenAsOf asOf position = .ok true := by
  rw [isOpenAsOf_eq hopened hclosed, decide_eq_true hle]
  rfl

/-- What the query finds among rows that cover the time. -/
theorem sublist_of_openPositionsAsOf {asOf : DateTime}
    {rows found covering : List (PyObject PositionState)}
    (h : openPositionsAsOf asOf rows = .ok found) (hsublist : covering.Sublist rows)
    (hcovering : ∀ row ∈ covering, isOpenAsOf asOf row = .ok true) : covering.Sublist found := by
  obtain ⟨-, rfl⟩ := TimedRows.comprehend_eq_ok_iff.mp h
  have hself : covering.filter (fun row => (isOpenAsOf asOf row).toOption.getD false) = covering :=
    List.filter_eq_self.mpr fun row hrow => by
      rw [hcovering row hrow]
      rfl
  exact hself ▸ hsublist.filter _

/-- Rows that cover the time of an event are of different positions that were open after it. -/
theorem FindsOpen.subperm {history : List (PyObject PositionState)}
    (h : engine.FindsOpen strategy configuration lookup events env history)
    {pre : List DeterministicEvent} {event : DeterministicEvent}
    (hpre : pre ++ [event] <+: events) {covering : List (PyObject PositionState)}
    (hsublist : covering.Sublist history)
    (hcovering : ∀ row ∈ covering, isOpenAsOf event.timestamp row = .ok true) :
    (covering.map heldId).Subperm ((engine.after strategy configuration lookup (pre ++ [event])
      (initialState configuration, env)).1.openPositions.map heldId) := by
  obtain ⟨found, hfound, hperm⟩ := h pre event hpre
  have hfoundRows := sublist_of_openPositionsAsOf hfound hsublist hcovering
  exact (hfoundRows.map heldId).subperm.trans hperm.subperm

/-- Two rows that cover the time of an event have different ids. -/
theorem FindsOpen.heldId_ne {history : List (PyObject PositionState)}
    (h : engine.FindsOpen strategy configuration lookup events env history)
    {pre : List DeterministicEvent} {event : DeterministicEvent} (hpre : pre ++ [event] <+: events)
    {s : BacktestEngineState} (hs : s = (engine.after strategy configuration lookup (pre ++ [event])
      (initialState configuration, env)).1)
    (hidentified : Identified s.openPositions) (hnodup : s.openIds.Nodup)
    {row other : PyObject PositionState} (hpair : [row, other].Sublist history)
    (hrow : isOpenAsOf event.timestamp row = .ok true)
    (hother : isOpenAsOf event.timestamp other = .ok true) : heldId row ≠ heldId other := by
  subst hs
  obtain ⟨ids, htwice, hsublist⟩ := h.subperm hpre hpair fun covering hcovering => by
    rcases List.mem_pair.mp hcovering with rfl | rfl
    · exact hrow
    · exact hother
  rw [map_heldId hidentified] at hsublist
  have honce := (hnodup.map (Option.some_injective _)).sublist hsublist
  rw [htwice.nodup_iff, List.map_cons, List.map_singleton, List.nodup_cons,
    List.mem_singleton] at honce
  exact honce.1

/-- A row that covers the time of an event has the id of a position that is open after it. -/
theorem FindsOpen.mem_openIds {history : List (PyObject PositionState)}
    (h : engine.FindsOpen strategy configuration lookup events env history)
    {pre : List DeterministicEvent} {event : DeterministicEvent} (hpre : pre ++ [event] <+: events)
    {s : BacktestEngineState} (hs : s = (engine.after strategy configuration lookup (pre ++ [event])
      (initialState configuration, env)).1)
    (hidentified : Identified s.openPositions) {row : PyObject PositionState} (hmem : row ∈ history)
    (hrow : isOpenAsOf event.timestamp row = .ok true) {id : String}
    (hheld : heldId row = some id) : id ∈ s.openIds := by
  subst hs
  have hfound := h.subperm hpre (List.singleton_sublist.mpr hmem) fun covering hcovering => by
    obtain rfl := List.mem_singleton.mp hcovering
    exact hrow
  have hmapped := hfound.subset (List.mem_map_of_mem List.mem_cons_self)
  rw [hheld, map_heldId hidentified,
    List.mem_map_of_injective (Option.some_injective _)] at hmapped
  exact hmapped

/-- The rows of two events in a row stand in the history one after the other. -/
theorem sublist_positionHistory
    (hcomplete : (engine.after strategy configuration lookup events w).1.failedEvents = [])
    {pre post : List DeterministicEvent} {event next : DeterministicEvent}
    (hevents : pre ++ [event] ++ [next] ++ post = events) :
    ((engine.after strategy configuration lookup (pre ++ [event]) w).1.openPositions ++
        (engine.after strategy configuration lookup (pre ++ [event] ++ [next]) w).1.openPositions
      ).Sublist (engine.after strategy configuration lookup events w).1.positionHistory := by
  have hnext : pre ++ [event] ++ [next] <+: events := ⟨post, hevents⟩
  have hall : pre ++ [event] ++ [next] ++ post <+: events := hevents ▸ List.prefix_rfl
  have hgrown := (recorded_extend hcomplete hall).1.sublist
  rw [hevents, (turn_of_completed hcomplete hnext).history,
    (turn_of_completed hcomplete ((List.prefix_append _ _).trans hnext)).history,
    List.append_assoc] at hgrown
  exact (List.sublist_append_right _ _).trans hgrown

/-- A position that outlives an event is found twice after it, or still after its closing. -/
theorem openPositions_eq_nil_of_findsOpen (hid : KeepsIdentity strategy)
    (hopening : KeepsOpening strategy)
    (hincreasing : events.Pairwise fun a b => a.timestamp < b.timestamp)
    (hcomplete : (engine.after strategy configuration lookup events
      (initialState configuration, env)).1.failedEvents = [])
    (hfresh : (engine.createdIds strategy configuration lookup events
      (initialState configuration, env)).Nodup)
    (hthen : engine.OpenedByThen strategy configuration lookup events env)
    {closedRows : List (PyObject PositionState)}
    (hfinds : engine.FindsOpen strategy configuration lookup events env
      ((engine.after strategy configuration lookup events
        (initialState configuration, env)).1.positionHistory ++ closedRows))
    {pre : List DeterministicEvent} {event : DeterministicEvent} (hpre : pre ++ [event] <+: events)
    (hne : pre ++ [event] ≠ events) :
    (engine.after strategy configuration lookup (pre ++ [event])
      (initialState configuration, env)).1.openPositions = [] := by
  obtain ⟨_ | ⟨next, post⟩, hevents⟩ := hpre
  · exact absurd ((List.append_nil _).symm.trans hevents) hne
  replace hevents : pre ++ [event] ++ [next] ++ post = events := by
    rw [← hevents, List.append_assoc _ [next] post, List.singleton_append]
  have hnext : pre ++ [event] ++ [next] <+: events := ⟨post, hevents⟩
  have hpre : pre ++ [event] <+: events := (List.prefix_append _ _).trans hnext
  by_contra hsome
  obtain ⟨position, hposition⟩ := List.exists_mem_of_ne_nil _ hsome
  obtain ⟨hclosed, opened, hopened, hle⟩ := hthen pre event hpre position hposition
  obtain ⟨hidentified, hnodup⟩ := ids_of_fresh hid hcomplete hfresh hpre rfl
  obtain ⟨id, hheld⟩ := hidentified position hposition
  have hrows := (sublist_positionHistory hcomplete hevents).trans
    (List.sublist_append_left _ closedRows)
  obtain ⟨newlyClosed, hnew, -, hfollowed⟩ := (turn_of_completed hcomplete hnext).follows
  rcases hfollowed position hposition with ⟨kept, hkept, hcontinues⟩ |
    ⟨closed, hmem, marked, hcontinues, hmarked⟩
  · -- Two rows of the position cover the time of the first event.
    obtain ⟨hkeptClosed, -, -, -⟩ := hthen _ next hnext kept hkept
    have hpair : [position, kept].Sublist _ :=
      (List.singleton_sublist.mpr hposition).append (List.singleton_sublist.mpr hkept)
    refine hfinds.heldId_ne hpre rfl hidentified (List.nodup_append.mp hnodup).1
      (hpair.trans hrows) (isOpenAsOf_of_open hclosed hopened hle)
      (isOpenAsOf_of_open hkeptClosed (hcontinues.opened_eq hopening hopened) hle) ?_
    rw [hheld, hcontinues.heldId_eq hid hheld]
  · -- Its row covers the time of the second event, after which it is closed.
    obtain ⟨hidentified', hnodup'⟩ := ids_of_fresh hid hcomplete hfresh hnext rfl
    have hlater : event.timestamp < next.timestamp := by
      rw [← hevents] at hincreasing
      exact (List.pairwise_append.mp (List.pairwise_append.mp hincreasing).1).2.2 event
        (List.mem_append_right _ List.mem_cons_self) next List.mem_cons_self
    have hopenId := hfinds.mem_openIds hnext rfl hidentified'
      (hrows.subset (List.mem_append_left _ hposition))
      (isOpenAsOf_of_open hclosed hopened (hle.trans hlater.le)) hheld
    have hclosedId : id ∈ (engine.after strategy configuration lookup (pre ++ [event] ++ [next])
        (initialState configuration, env)).1.closedIds := by
      have hsame : closed.positionId = id :=
        Option.some_inj.mp (hmarked.symm.trans (hcontinues.heldId_eq hid hheld))
      rw [BacktestEngineState.closedIds, hnew, ← hsame]
      exact List.mem_map_of_mem (List.mem_append_right _ hmem)
    exact (List.nodup_append.mp hnodup').2.2 id hopenId id hclosedId rfl

/-- Where nothing is open after an event, no row covers its time. -/
theorem FindsOpen.not_covering {history : List (PyObject PositionState)}
    (h : engine.FindsOpen strategy configuration lookup events env history)
    {pre : List DeterministicEvent} {event : DeterministicEvent} (hpre : pre ++ [event] <+: events)
    (hnone : (engine.after strategy configuration lookup (pre ++ [event])
      (initialState configuration, env)).1.openPositions = [])
    {row : PyObject PositionState} (hrow : row ∈ history) :
    isOpenAsOf event.timestamp row ≠ .ok true := by
  intro hcovers
  have hfound := h.subperm hpre (List.singleton_sublist.mpr hrow) fun other hother => by
    obtain rfl := List.mem_singleton.mp hother
    exact hcovers
  rw [hnone] at hfound
  exact List.not_mem_nil (hfound.subset (List.mem_map_of_mem List.mem_cons_self))

/-- An event that is not the latest is not the last. -/
theorem exists_prefix_of_later (hincreasing : events.Pairwise fun a b => a.timestamp < b.timestamp)
    {event later : DeterministicEvent} (hevent : event ∈ events) (hlater : later ∈ events)
    (hbefore : event.timestamp < later.timestamp) :
    ∃ pre, pre ++ [event] <+: events ∧ pre ++ [event] ≠ events := by
  obtain ⟨pre, post, hsplit⟩ := List.append_of_mem hevent
  refine ⟨pre, ⟨post, by rw [hsplit, List.append_assoc, List.singleton_append]⟩, ?_⟩
  rintro rfl
  rcases List.mem_append.mp hlater with hmem | hmem
  · have hearlier := (List.pairwise_append.mp hincreasing).2.2 later hmem event List.mem_cons_self
    exact lt_asymm hearlier hbefore
  · obtain rfl := List.mem_singleton.mp hmem
    exact lt_irrefl _ hbefore

/-- Where the query finds what was open, nothing outlived an event. -/
theorem nothingOutlives_of_findsOpen (hid : KeepsIdentity strategy)
    (hopening : KeepsOpening strategy)
    (hincreasing : events.Pairwise fun a b => a.timestamp < b.timestamp)
    (hcomplete : (engine.after strategy configuration lookup events
      (initialState configuration, env)).1.failedEvents = [])
    (hfresh : (engine.createdIds strategy configuration lookup events
      (initialState configuration, env)).Nodup)
    (hthen : engine.OpenedByThen strategy configuration lookup events env)
    (hfinds : engine.FindsOpen strategy configuration lookup events env
      ((engine.after strategy configuration lookup events
          (initialState configuration, env)).1.positionHistory ++
        (engine.after strategy configuration lookup events
          (initialState configuration, env)).1.closedPositions.map PositionState.toObject)) :
    engine.NothingOutlives strategy configuration lookup events env where
  between pre event hpre hne := openPositions_eq_nil_of_findsOpen hid hopening hincreasing hcomplete
    hfresh hthen hfinds hpre hne
  last pre event hevents position hposition := by
    rw [← hevents] at hposition
    obtain ⟨hclosed, opened, hopened, hle⟩ := hthen pre event (hevents ▸ List.prefix_rfl) position
      hposition
    refine ⟨opened, none, hopened, hclosed, hle, fun _ h => (nomatch h), fun earlier hearlier => ?_⟩
    by_contra hnot
    have hbefore : earlier.timestamp < event.timestamp := by
      rw [← hevents] at hincreasing
      exact (List.pairwise_append.mp hincreasing).2.2 earlier hearlier event List.mem_cons_self
    obtain ⟨before, hprefix, hne⟩ := exists_prefix_of_later hincreasing
      (hevents ▸ List.mem_append_left _ hearlier)
      (hevents ▸ List.mem_append_right _ List.mem_cons_self) hbefore
    have hnil := openPositions_eq_nil_of_findsOpen hid hopening hincreasing hcomplete
      hfresh hthen hfinds hprefix hne
    refine hfinds.not_covering hprefix hnil (List.mem_append_left _ ?_)
      (isOpenAsOf_of_open hclosed hopened (DateTime.not_lt_iff.mp hnot))
    have hturn : Turn strategy event _ _ :=
      turn_of_completed hcomplete (hevents ▸ List.prefix_rfl : pre ++ [event] <+: events)
    rw [← hevents, hturn.history]
    exact List.mem_append_right _ hposition
  closed position hposition time htime event hevent hbefore := by
    by_contra hnot
    obtain ⟨closing, hclosing, hstamp⟩ :=
      exists_closedAt hcomplete List.prefix_rfl position hposition
    obtain rfl : closing.timestamp = time := Option.some_inj.mp (hstamp.symm.trans htime)
    obtain ⟨before, hprefix, hne⟩ := exists_prefix_of_later hincreasing hevent hclosing hbefore
    have hnil := openPositions_eq_nil_of_findsOpen hid hopening hincreasing hcomplete
      hfresh hthen hfinds hprefix hne
    refine hfinds.not_covering hprefix hnil
      (List.mem_append_right _ (List.mem_map_of_mem hposition)) ?_
    rw [isOpenAsOf_toObject, decide_eq_true (DateTime.not_lt_iff.mp hnot), hstamp, Option.all_some,
      decide_eq_true hbefore]
    rfl

/-- In a run without failures the query over the position history finds what was open after each
event, if nothing outlives an event; and only then, if ids and opening times are kept, ids are new
and open positions have no closing time and were opened by then. -/
theorem positionHistory_findsOpen {env₁ e' : σ} {result : BacktestRunResult}
    {s : BacktestEngineState}
    (hinit : exec (strategy.initializeStrategy configuration) env = (.ok (), env₁))
    (hrun : exec (engine.run strategy configuration lookup events)
      (initialState configuration, env) = (.ok result, (s, e')))
    (hincreasing : events.Pairwise fun a b => a.timestamp < b.timestamp)
    (hcomplete : result.failedEvents = []) :
    (engine.NothingOutlives strategy configuration lookup events env₁ →
        engine.FindsOpen strategy configuration lookup events env₁ result.positionHistory) ∧
      (KeepsIdentity strategy → KeepsOpening strategy →
        (engine.createdIds strategy configuration lookup events
          (initialState configuration, env₁)).Nodup →
        engine.OpenedByThen strategy configuration lookup events env₁ →
        engine.FindsOpen strategy configuration lookup events env₁ result.positionHistory →
          engine.NothingOutlives strategy configuration lookup events env₁) := by
  obtain ⟨env₂, hinit₂, rfl, hbuild⟩ := exec_run_ok engine strategy configuration lookup hrun
  cases hinit.symm.trans hinit₂
  obtain ⟨_, _, hbuild⟩ := except_bind_eq_ok.mp hbuild
  cases hbuild
  constructor
  · intro hflat pre event hpre
    exact ⟨_, openPositionsAsOf_of_nothingOutlives hcomplete hflat hpre, .refl _⟩
  · intro hid hopening hfresh hthen hfinds
    exact nothingOutlives_of_findsOpen hid hopening hincreasing hcomplete hfresh hthen hfinds

end Runs

/-! ### A position held over two events -/

/-- The position `p-1`, open since that time. -/
def heldSince (opened : DateTime) : PositionState :=
  { positionId := "p-1", strategyId := "s1", lifecycleStatus := .open, openedAt := opened,
    closedAt := none, legs := [], realizedPnl := 0, unrealizedPnl := 0, metadata := [] }

/-- A strategy that opens a position at the lifecycle event of that number and holds it. -/
def holdingStrategy (opensAt : Int) : StrategyLifecycle Unit where
  strategyId := "s1"
  initializeStrategy _ := pure ()
  evaluateEntry context := pure
    { shouldOpen := context.event.sequenceNumber = opensAt, reasonCode := "entry" }
  createPosition context := pure (some (heldSince context.event.timestamp))
  markPosition _ position := pure position
  evaluateManagementRules _ _ := pure {}
  evaluateExit _ _ := pure {}
  evaluateRollEligibility _ _ := pure {}
  processExpiration _ position := pure position
  finalize _ := pure ()

theorem keepsIdentity_holdingStrategy (opensAt : Int) :
    KeepsIdentity (holdingStrategy opensAt).toObject where
  mark := by
    rintro context position e marked e' ⟨⟩
    exact ⟨fun _ => attr_toOption_toObject, fun _ => attr_toOption_toObject⟩
  expiration := by
    rintro context position e processed e' ⟨⟩
    exact ⟨fun _ => attr_toOption_toObject, fun _ => attr_toOption_toObject⟩

theorem attr_toObject {α : Type} {position : PyObject PositionState} {name : String}
    {read : PositionState → α} {a : α} (h : position.attr name read = .ok a) :
    position.value.toObject.attr name read = .ok a := by
  unfold PyObject.attr at h
  split_ifs at h
  exact h

theorem keepsOpening_holdingStrategy (opensAt : Int) :
    KeepsOpening (holdingStrategy opensAt).toObject where
  mark := by
    rintro context position e marked e' opened ⟨⟩
    exact attr_toObject
  expiration := by
    rintro context position e processed e' opened ⟨⟩
    exact attr_toObject

/-- A position that is opened at the last event is found there. -/
theorem positionHistory_findsOpen_last : ∃ result s,
    exec (researchEngine.run (holdingStrategy 2).toObject researchConfiguration none
      rollingEvents) (initialState researchConfiguration, ()) = (.ok result, (s, ())) ∧
    rollingEvents.Pairwise (fun a b => a.timestamp < b.timestamp) ∧ result.failedEvents = [] ∧
    s.openIds = ["p-1"] ∧
    researchEngine.FindsOpen (holdingStrategy 2).toObject researchConfiguration none rollingEvents
      () result.positionHistory ∧
    researchEngine.NothingOutlives (holdingStrategy 2).toObject researchConfiguration none
      rollingEvents () := by
  obtain ⟨result, s, hrun, hcomplete, hopen⟩ : ∃ result s,
      exec (researchEngine.run (holdingStrategy 2).toObject researchConfiguration none
        rollingEvents) (initialState researchConfiguration, ()) = (.ok result, (s, ())) ∧
      result.failedEvents = [] ∧ s.openIds = ["p-1"] := ⟨_, _, rfl, rfl, by decide⟩
  have hincreasing : rollingEvents.Pairwise fun a b => a.timestamp < b.timestamp := by decide
  have hheld : (researchEngine.after (holdingStrategy 2).toObject researchConfiguration none
      rollingEvents (initialState researchConfiguration, ())).1.openPositions =
        [(heldSince (eventAt .lifecycleEvaluation 2).timestamp).toObject] := rfl
  have hflat : researchEngine.NothingOutlives (holdingStrategy 2).toObject researchConfiguration
      none rollingEvents () := by
    refine ⟨fun pre event hpre hne => ?_, fun pre event hevents position hposition => ?_, ?_⟩
    · obtain ⟨rfl, rfl⟩ | ⟨rfl, rfl⟩ := rollingEvents_prefix hpre
      · rfl
      · exact absurd rfl hne
    · rw [hheld] at hposition
      obtain rfl := List.mem_singleton.mp hposition
      have hpre : pre ++ [event] <+: rollingEvents := hevents ▸ List.prefix_rfl
      obtain ⟨rfl, rfl⟩ | ⟨rfl, rfl⟩ := rollingEvents_prefix hpre
      · exact absurd (congrArg List.length hevents) (by decide)
      · exact ⟨_, _, rfl, rfl, by decide, fun _ h => (nomatch h), by decide⟩
    · exact fun _ h => absurd h List.not_mem_nil
  have hthen : researchEngine.OpenedByThen (holdingStrategy 2).toObject researchConfiguration none
      rollingEvents () := by
    intro pre event hpre position hposition
    obtain ⟨rfl, rfl⟩ | ⟨rfl, rfl⟩ := rollingEvents_prefix hpre
    · cases hposition
    · change position ∈ (researchEngine.after _ _ none rollingEvents _).1.openPositions at hposition
      rw [hheld] at hposition
      obtain rfl := List.mem_singleton.mp hposition
      exact ⟨rfl, _, rfl, by decide⟩
  have hfinds := (positionHistory_findsOpen rfl hrun hincreasing hcomplete).1 hflat
  exact ⟨result, s, hrun, hincreasing, hcomplete, hopen, hfinds,
    (positionHistory_findsOpen rfl hrun hincreasing hcomplete).2 (keepsIdentity_holdingStrategy 2)
      (keepsOpening_holdingStrategy 2) (by decide) hthen hfinds⟩

/-- Two rows of a position that is opened at the first event are found at the second. -/
theorem not_findsOpen_held : ∃ result s,
    KeepsIdentity (holdingStrategy 1).toObject ∧ KeepsOpening (holdingStrategy 1).toObject ∧
    rollingEvents.Pairwise (fun a b => a.timestamp < b.timestamp) ∧
    exec (researchEngine.run (holdingStrategy 1).toObject researchConfiguration none
      rollingEvents) (initialState researchConfiguration, ()) = (.ok result, (s, ())) ∧
    result.failedEvents = [] ∧ s.openIds = ["p-1"] ∧
    ¬ researchEngine.FindsOpen (holdingStrategy 1).toObject researchConfiguration none
      rollingEvents () result.positionHistory := by
  refine ⟨_, _, keepsIdentity_holdingStrategy 1, keepsOpening_holdingStrategy 1, by decide, rfl,
    rfl, by decide, fun hfinds => ?_⟩
  obtain ⟨rows, hrows, hperm⟩ := hfinds [eventAt .lifecycleEvaluation 1]
    (eventAt .lifecycleEvaluation 2) List.prefix_rfl
  have htwo : some 2 = some rows.length :=
    congrArg (fun answer => answer.toOption.map List.length) hrows
  have hone : rows.length = 1 := by
    rw [← List.length_map heldId, hperm.length_eq]
    rfl
  rw [hone] at htwo
  exact absurd htwo (by decide)

end BacktestingEngine
end OptionResearch
