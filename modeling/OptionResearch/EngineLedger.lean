import OptionResearch.EngineAtomicity
import OptionResearch.TradeReconstruction

/-!
# Positions and the trade ledger over a run

Three records of the same positions: the live tuples, the append-only trade ledger and the trades
rebuilt from it. An event keeps them in agreement as long as it does not fail after it has written
a closing row, or after it has stored a position it then writes no row for. The invariant is a
conservation law: the ids that were opened are the ids held and the ids closed, each once.
-/

namespace OptionResearch

open KeyedGroups TradeReconstructionService

/-- The id an open position answers with, if it has one. -/
def heldId (position : PyObject PositionState) : Option String :=
  (position.attr "position_id" (·.positionId)).toOption

/-- The strategy an open position answers with, if it has one. -/
def heldStrategy (position : PyObject PositionState) : Option String :=
  (position.attr "strategy_id" (·.strategyId)).toOption

/-- The ids of a ledger's rows of one type. -/
def idsOf (recordType : String) (rows : List LedgerRecord) : List String :=
  (rows.filter fun row => decide (row.recordType = recordType)).filterMap (·.positionId)

/-- The ids of the positions held open. -/
def BacktestEngineState.openIds (s : BacktestEngineState) : List String :=
  s.openPositions.filterMap heldId

/-- The ids of the positions closed so far. -/
def BacktestEngineState.closedIds (s : BacktestEngineState) : List String :=
  s.closedPositions.map (·.positionId)

/-- A row the lifecycle handler writes for the position `id` at `event`. -/
structure TradeRow (recordType : String) (event : DeterministicEvent) (id : String)
    (row : LedgerRecord) : Prop where
  type : row.recordType = recordType
  position : row.positionId = some id
  time : row.timestamp = event.timestamp
  readable : ∀ text, Readable text row

theorem idsOf_append (recordType : String) (rows rows' : List LedgerRecord) :
    idsOf recordType (rows ++ rows') = idsOf recordType rows ++ idsOf recordType rows' := by
  simp only [idsOf, List.filter_append, List.filterMap_append]

theorem mem_idsOf {recordType id : String} {rows : List LedgerRecord} :
    id ∈ idsOf recordType rows ↔
      ∃ row ∈ rows, row.recordType = recordType ∧ row.positionId = some id := by
  simp only [idsOf, List.mem_filterMap, List.mem_filter, decide_eq_true_eq, and_assoc]

theorem TradeRow.idsOf_cons {recordType other id : String} {event : DeterministicEvent}
    {row : LedgerRecord} (h : TradeRow recordType event id row) (rows : List LedgerRecord) :
    idsOf other (row :: rows) =
      if recordType = other then id :: idsOf other rows else idsOf other rows := by
  unfold idsOf
  rw [List.filter_cons, h.type]
  by_cases hother : recordType = other
  · rw [if_pos hother, if_pos (decide_eq_true hother), List.filterMap_cons, h.position]
  · rw [if_neg hother, if_neg (by simpa using hother)]

namespace BacktestingEngine

open Effect

variable {σ : Type}

/-- Marking and expiration processing return the position they were given. -/
structure KeepsIdentity (strategy : StrategyObject σ) : Prop where
  mark : ∀ {context position e marked e'},
    exec (strategy.markPosition context position) e = (.ok marked, e') →
      (∀ id, heldId position = some id → heldId marked = some id) ∧
      ∀ owner, heldStrategy position = some owner → heldStrategy marked = some owner
  expiration : ∀ {context position e processed e'},
    exec (strategy.processExpiration context position) e = (.ok processed, e') →
      (∀ id, heldId position = some id → heldId processed = some id) ∧
      ∀ owner, heldStrategy position = some owner → heldStrategy processed = some owner

section Steps

variable {engine : BacktestingEngine} {strategy : StrategyObject σ}
  {configuration : BacktestConfiguration} {lookup : Option (InformationLookup σ)}

theorem openRow_spec {context : EventContext} {decision : PyObject LifecycleDecision}
    {position : PyObject PositionState} {row : LedgerRecord}
    (h : engine.openRow strategy context decision position = .ok row) :
    ∃ id, heldId position = some id ∧ TradeRow "position_open" context.event id row := by
  unfold openRow at h
  obtain ⟨id, hid, h⟩ := except_bind_eq_ok.mp h
  obtain ⟨reasonCode, _, h⟩ := except_bind_eq_ok.mp h
  obtain ⟨metadata, _, h⟩ := except_bind_eq_ok.mp h
  cases h
  refine ⟨id, by rw [heldId, hid]; rfl, rfl, rfl, rfl, fun text => readable_of_absent ?_⟩
  exact (by decide : ∀ key ∈ amountKeys, key ∉ ["metadata"])

theorem positionId_closePosition {event : DeterministicEvent} {marked : PyObject PositionState}
    {closed : PositionState} (h : closePosition event marked = .ok closed) :
    heldId marked = some closed.positionId := by
  rw [heldId, (closePosition_spec h).1]
  rfl

/-- A position is closed under its own id, with a closing row of that id. -/
theorem evaluatePosition_spec (hid : KeepsIdentity strategy) {context : EventContext}
    {position : PyObject PositionState} {id : String} (hheld : heldId position = some id)
    {e e' : σ} {outcome : PositionOutcome}
    (h : exec (engine.evaluatePosition strategy context position) e = (.ok outcome, e')) :
    match outcome with
    | .kept marked => heldId marked = some id
    | .closed closed row =>
        closed.positionId = id ∧ TradeRow "position_close" context.event id row := by
  obtain ⟨marked, e₁, hmark, hout⟩ := evaluatePosition_cases h
  have hmarked : heldId marked = some id := (hid.mark hmark).1 id hheld
  cases outcome with
  | kept kept =>
    dsimp only at hout ⊢
    rw [hout]
    exact hmarked
  | closed closed row =>
    obtain ⟨hclosed, reasonCode, managementReason, shouldRoll, rfl⟩ := hout
    have hclosedId : closed.positionId = id :=
      Option.some.inj ((positionId_closePosition hclosed).symm.trans hmarked)
    refine ⟨hclosedId, rfl, congrArg some hclosedId, rfl, fun text => readable_of_absent ?_⟩
    exact (by decide : ∀ key ∈ amountKeys, key ∉ ["management_reason", "roll_eligible"])

/-- Every position of the list answers with an id. -/
def Identified (positions : List (PyObject PositionState)) : Prop :=
  ∀ position ∈ positions, ∃ id, heldId position = some id

theorem Identified.cons {position : PyObject PositionState} {id : String}
    {rest : List (PyObject PositionState)} (hheld : heldId position = some id)
    (hrest : Identified rest) : Identified (position :: rest) := by
  intro p hmem
  rcases List.mem_cons.mp hmem with rfl | hmem
  · exact ⟨id, hheld⟩
  · exact hrest p hmem

theorem Identified.tail {position : PyObject PositionState} {rest : List (PyObject PositionState)}
    (h : Identified (position :: rest)) : Identified rest :=
  fun p hmem => h p (List.mem_cons_of_mem _ hmem)

/-- The positions a finished loop started from are the ones it kept and the ones it closed. -/
theorem Manages.ids (hid : KeepsIdentity strategy) {context : EventContext}
    {positions : List (PyObject PositionState)} (hp : Identified positions) {e e' : σ}
    {outcome : Except Exc (List (PyObject PositionState) × List PositionState)}
    {rows : List LedgerRecord}
    (h : Manages engine strategy context positions e outcome rows e') :
    (∀ row ∈ rows, ∃ id, TradeRow "position_close" context.event id row) ∧
      ∀ updated newlyClosed, outcome = .ok (updated, newlyClosed) →
        Identified updated ∧
        (updated.filterMap heldId ++ newlyClosed.map (·.positionId)).Perm
          (positions.filterMap heldId) ∧
        idsOf "position_close" rows = newlyClosed.map (·.positionId) := by
  induction h with
  | done e =>
    refine ⟨fun _ h => absurd h List.not_mem_nil, ?_⟩
    rintro updated newlyClosed ⟨⟩
    exact ⟨hp, List.Perm.refl _, rfl⟩
  | raised step =>
    exact ⟨fun _ h => absurd h List.not_mem_nil, fun _ _ h => nomatch h⟩
  | @kept position marked rest _ _ _ outcome rows step tail ih =>
    obtain ⟨id, hheld⟩ := hp position List.mem_cons_self
    have hmarked : heldId marked = some id := evaluatePosition_spec hid hheld step
    have ih := ih hp.tail
    refine ⟨ih.1, ?_⟩
    rintro updated newlyClosed hok
    rcases outcome with x | ⟨updated', newlyClosed'⟩
    · cases hok
    · cases hok
      obtain ⟨hident, hperm, hrows⟩ := ih.2 _ _ rfl
      refine ⟨hident.cons hmarked, ?_, hrows⟩
      · rw [List.filterMap_cons, List.filterMap_cons, hmarked, hheld]
        exact hperm.cons id
  | @closed position rest _ _ _ outcome rows closed row step tail ih =>
    obtain ⟨id, hheld⟩ := hp position List.mem_cons_self
    obtain ⟨hclosed, hrow⟩ : closed.positionId = id ∧
        TradeRow "position_close" context.event id row := evaluatePosition_spec hid hheld step
    have ih := ih hp.tail
    constructor
    · intro r hr
      rcases List.mem_cons.mp hr with rfl | hr
      · exact ⟨_, hrow⟩
      · exact ih.1 r hr
    · rintro updated newlyClosed hok
      rcases outcome with x | ⟨updated', newlyClosed'⟩
      · cases hok
      · cases hok
        obtain ⟨hident, hperm, hrows⟩ := ih.2 _ _ rfl
        rw [hrow.idsOf_cons, if_pos rfl, hrows, List.filterMap_cons, hheld, List.map_cons, hclosed]
        exact ⟨hident, List.perm_middle.trans (hperm.cons _), rfl⟩

theorem Refreshes.ids (hid : KeepsIdentity strategy) {context : EventContext}
    {positions : List (PyObject PositionState)} (hp : Identified positions) {e e' : σ}
    {outcome : Except Exc (List (PyObject PositionState))} {rows : List LedgerRecord}
    (h : Refreshes strategy context positions e outcome rows e') :
    ∀ refreshed, outcome = .ok refreshed →
      Identified refreshed ∧ refreshed.filterMap heldId = positions.filterMap heldId := by
  induction h with
  | done e =>
    rintro _ ⟨⟩
    exact ⟨hp, rfl⟩
  | raised positions e e' x => exact fun _ h => nomatch h
  | @refreshed position processed rest _ _ _ outcome _ _ step tail ih =>
    obtain ⟨id, hheld⟩ := hp position List.mem_cons_self
    have hprocessed := (hid.expiration step).1 id hheld
    rintro refreshed hok
    rcases outcome with x | rest'
    · cases hok
    · cases hok
      obtain ⟨hident, hids⟩ := ih hp.tail rest' rfl
      constructor
      · exact hident.cons hprocessed
      · rw [List.filterMap_cons, List.filterMap_cons, hprocessed, hheld, hids]

end Steps

section Events

variable (engine : BacktestingEngine) (strategy : StrategyObject σ)
  (configuration : BacktestConfiguration) (lookup : Option (InformationLookup σ))

/-- The position `create_position` returns, if the entry half of the handler asks for one. -/
def createdBy (context : EventContext) (e : σ) : Option (PyObject PositionState) :=
  match exec (strategy.evaluateEntry context) e with
  | (.error _, _) => none
  | (.ok decision, e₁) =>
    match decision.attr "should_open" (·.shouldOpen) with
    | .ok true =>
      match exec (strategy.createPosition context) e₁ with
      | (.ok created, _) => created
      | (.error _, _) => none
    | _ => none

/-- The position created at this event. -/
def createdAt (event : DeterministicEvent) (w : BacktestEngineState × σ) :
    Option (PyObject PositionState) :=
  (engine.lifecycleContext lookup event w).bind fun start => createdBy strategy start.1 start.2

/-- The ids of the positions created in a run over `events` from `w`, in order. -/
def createdIds : List DeterministicEvent → BacktestEngineState × σ → List String
  | [], _ => []
  | event :: rest, w => ((engine.createdAt strategy lookup event w).bind heldId).toList ++
      createdIds rest (exec (engine.runEvent strategy configuration lookup event) w).2

/-- A position is stored whose row cannot be written, or a position is closed and its row written
before a callback raises. -/
def tearsBeforeRaising (context : EventContext) (positions : List (PyObject PositionState))
    (e : σ) : Bool :=
  match exec (strategy.evaluateEntry context) e with
  | (.error _, _) => false
  | (.ok decision, e₁) =>
    match decision.attr "should_open" (·.shouldOpen) with
    | .error _ => false
    | .ok true =>
      match exec (strategy.createPosition context) e₁ with
      | (.ok (some position), e₂) =>
        match engine.openRow strategy context decision position with
        | .error _ => true
        | .ok _ => engine.closesBeforeRaising strategy context (positions ++ [position]) e₂
      | _ => false
    | .ok false => engine.closesBeforeRaising strategy context positions e₁

/-- The lifecycle handler would run for this event and tear the ledger before it raises. -/
def eventTears (event : DeterministicEvent) (w : BacktestEngineState × σ) : Bool :=
  match engine.lifecycleContext lookup event w with
  | none => false
  | some (context, e) => engine.tearsBeforeRaising strategy context w.1.openPositions e

/-- What a run keeps true of the positions and the trade ledger. -/
structure LedgerSound (events : List DeterministicEvent) (s : BacktestEngineState) : Prop where
  identified : Identified s.openPositions
  conserved : (s.openIds ++ s.closedIds).Perm (idsOf "position_open" s.tradeLedger)
  closed : idsOf "position_close" s.tradeLedger = s.closedIds
  written : ∀ row ∈ s.tradeLedger, ∃ event ∈ events, ∃ id,
    TradeRow "position_open" event id row ∨ TradeRow "position_close" event id row

variable {engine strategy configuration lookup}

theorem LedgerSound.of_eq {events : List DeterministicEvent} {s s' : BacktestEngineState}
    (h : LedgerSound events s) (hopen : s'.openPositions = s.openPositions)
    (hclosed : s'.closedPositions = s.closedPositions) (hledger : s'.tradeLedger = s.tradeLedger) :
    LedgerSound events s' := by
  have hopenIds : s'.openIds = s.openIds := by
    rw [BacktestEngineState.openIds, hopen, BacktestEngineState.openIds]
  have hclosedIds : s'.closedIds = s.closedIds := by
    rw [BacktestEngineState.closedIds, hclosed, BacktestEngineState.closedIds]
  refine ⟨?_, ?_, ?_, ?_⟩
  · rw [hopen]
    exact h.identified
  · rw [hopenIds, hclosedIds, hledger]
    exact h.conserved
  · rw [hledger, hclosedIds]
    exact h.closed
  · rw [hledger]
    exact h.written

variable (engine) in
theorem commitsBeforeRaising_of_createdBy {context : EventContext} {e : σ}
    {position : PyObject PositionState} (h : createdBy strategy context e = some position)
    (positions : List (PyObject PositionState)) :
    engine.commitsBeforeRaising strategy context positions e = true := by
  unfold createdBy at h
  rcases hentry : exec (strategy.evaluateEntry context) e with ⟨x | decision, e₁⟩
  · simp only [hentry, reduceCtorEq] at h
  · simp only [hentry] at h
    rcases hopen : decision.attr "should_open" (·.shouldOpen) with x | _ | _
    · simp only [hopen, reduceCtorEq] at h
    · simp only [hopen, reduceCtorEq] at h
    · simp only [hopen] at h
      rcases hcreate : exec (strategy.createPosition context) e₁ with ⟨x | created, e₂⟩
      · simp only [hcreate, reduceCtorEq] at h
      · simp only [hcreate] at h
        subst h
        exact commitsBeforeRaising_of_created engine strategy hentry hopen hcreate positions

/-- Opening a position adds its id to the positions held and to the rows. -/
theorem EntryStep.ledgerSound {events : List DeterministicEvent} {context : EventContext}
    (hevent : context.event ∈ events) {s s' : BacktestEngineState} {e e' : σ}
    (h : EntryStep engine strategy context s e (.ok ()) s' e') (hs : LedgerSound events s) :
    LedgerSound events s' ∧ idsOf "position_open" s'.tradeLedger =
      idsOf "position_open" s.tradeLedger ++
        ((createdBy strategy context e).bind heldId).toList := by
  cases h with
  | idle entry shut =>
    have hnone : createdBy strategy context e = none := by simp only [createdBy, entry, shut]
    rw [hnone]
    exact ⟨hs, (List.append_nil _).symm⟩
  | @opened decision position row e₁ _ entry wanted created written =>
    obtain ⟨id, hheld, hrow⟩ := openRow_spec written
    have hsome : createdBy strategy context e = some position := by
      simp only [createdBy, entry, wanted, created]
    have hopen : ((s.addOpen position).appendTrade row).openIds = s.openIds ++ [id] := by
      change (s.openPositions ++ [position]).filterMap heldId = _
      rw [List.filterMap_append, List.filterMap_cons, hheld]
      rfl
    have hids (recordType : String) :
        idsOf recordType ((s.addOpen position).appendTrade row).tradeLedger =
          idsOf recordType s.tradeLedger ++ if "position_open" = recordType then [id] else [] := by
      change idsOf recordType (s.tradeLedger ++ [row]) = _
      rw [idsOf_append, hrow.idsOf_cons]
      rfl
    have hopened := hids "position_open"
    have hclosed := hids "position_close"
    rw [if_pos rfl] at hopened
    rw [if_neg (by decide), List.append_nil] at hclosed
    refine ⟨⟨?_, ?_, hclosed.trans hs.closed, ?_⟩, ?_⟩
    · intro p hmem
      rcases List.mem_append.mp hmem with hmem | hmem
      · exact hs.identified p hmem
      · obtain rfl := List.mem_singleton.mp hmem
        exact ⟨id, hheld⟩
    · rw [hopen, hopened]
      calc (s.openIds ++ [id] ++ s.closedIds).Perm (s.openIds ++ s.closedIds ++ [id]) := by
            rw [List.append_assoc, List.append_assoc]
            exact List.perm_append_comm.append_left _
        _ |>.Perm (idsOf "position_open" s.tradeLedger ++ [id]) := hs.conserved.append_right _
    · intro r hr
      rcases List.mem_append.mp hr with hr | hr
      · exact hs.written r hr
      · obtain rfl := List.mem_singleton.mp hr
        exact ⟨_, hevent, id, Or.inl hrow⟩
    · rw [hopened, hsome, Option.bind_some, hheld]
      rfl

/-- A finished loop moves ids from the positions held to the positions closed. -/
theorem Manages.ledgerSound (hid : KeepsIdentity strategy) {events : List DeterministicEvent}
    {context : EventContext} (hevent : context.event ∈ events) {s : BacktestEngineState}
    {e e' : σ} {updated : List (PyObject PositionState)} {newlyClosed : List PositionState}
    {rows : List LedgerRecord}
    (h : Manages engine strategy context s.openPositions e (.ok (updated, newlyClosed)) rows e')
    (hs : LedgerSound events s) :
    LedgerSound events ((s.appendTrades rows).commitLifecycle updated newlyClosed) ∧
      idsOf "position_open" (s.tradeLedger ++ rows) = idsOf "position_open" s.tradeLedger := by
  obtain ⟨hrows, hids⟩ := h.ids hid hs.identified
  obtain ⟨hident, hperm, hclosing⟩ := hids _ _ rfl
  have hnone : idsOf "position_open" rows = [] := by
    rw [List.eq_nil_iff_forall_not_mem]
    intro id hmem
    obtain ⟨row, hrow, htype, _⟩ := mem_idsOf.mp hmem
    obtain ⟨_, hclose⟩ := hrows row hrow
    exact absurd (htype.symm.trans hclose.type) (by decide)
  have hopened : idsOf "position_open" (s.tradeLedger ++ rows) =
      idsOf "position_open" s.tradeLedger := by
    rw [idsOf_append, hnone, List.append_nil]
  refine ⟨⟨hident, ?_, ?_, ?_⟩, hopened⟩
  · change (updated.filterMap heldId ++ (s.closedPositions ++ newlyClosed).map _).Perm
      (idsOf "position_open" (s.tradeLedger ++ rows))
    rw [hopened, List.map_append]
    calc (updated.filterMap heldId ++ (s.closedIds ++ newlyClosed.map (·.positionId))).Perm
          (updated.filterMap heldId ++ (newlyClosed.map (·.positionId) ++ s.closedIds)) :=
          List.perm_append_comm.append_left _
      _ |>.Perm (s.openIds ++ s.closedIds) := by
          rw [← List.append_assoc]
          exact hperm.append_right _
      _ |>.Perm (idsOf "position_open" s.tradeLedger) := hs.conserved
  · change idsOf "position_close" (s.tradeLedger ++ rows) =
      (s.closedPositions ++ newlyClosed).map _
    rw [idsOf_append, hs.closed, hclosing, List.map_append]
    rfl
  · intro row hrow
    rcases List.mem_append.mp hrow with hrow | hrow
    · exact hs.written row hrow
    · obtain ⟨id, hclose⟩ := hrows row hrow
      exact ⟨_, hevent, id, Or.inr hclose⟩

/-- The lifecycle handler, finished or failed without tearing the ledger. -/
theorem LifecycleStep.ledgerSound (hid : KeepsIdentity strategy)
    {events : List DeterministicEvent} {context : EventContext} (hevent : context.event ∈ events)
    {s s' : BacktestEngineState} {e e' : σ} {r : Except Exc Unit}
    (h : LifecycleStep engine strategy context s e r s' e')
    (hwhole : ∀ x, r = .error x →
      engine.tearsBeforeRaising strategy context s.openPositions e = false)
    (hs : LedgerSound events s) :
    LedgerSound events s' ∧ idsOf "position_open" s'.tradeLedger =
      idsOf "position_open" s.tradeLedger ++
        ((createdBy strategy context e).bind heldId).toList := by
  cases h with
  | entryRaised entry =>
    cases entry with
    | refused quiet =>
      have hnone : createdBy strategy context e = none := by
        rw [Option.eq_none_iff_forall_not_mem]
        intro position hmem
        have hcommits := commitsBeforeRaising_of_createdBy engine hmem []
        rw [quiet] at hcommits
        cases hcommits
      rw [hnone]
      exact ⟨hs, (List.append_nil _).symm⟩
    | stored entry wanted created unread =>
      have htears := hwhole _ rfl
      simp only [tearsBeforeRaising, entry, wanted, created, unread, reduceCtorEq] at htears
  | @loopRaised x s₁ e₁ _ rows entry loop =>
    have hwhole := hwhole _ rfl
    have hcloses : engine.closesBeforeRaising strategy context s₁.openPositions e₁ = false := by
      cases entry with
      | idle entry shut => simpa only [tearsBeforeRaising, entry, shut] using hwhole
      | opened entry wanted created written =>
        simp only [tearsBeforeRaising, entry, wanted, created, written] at hwhole
        exact hwhole
    rw [loop.rows_eq_nil_iff.mpr hcloses, BacktestEngineState.appendTrades_nil]
    exact entry.ledgerSound hevent hs
  | finished entry loop =>
    obtain ⟨hs₁, hids⟩ := entry.ledgerSound hevent hs
    obtain ⟨hsound, hopened⟩ := loop.ledgerSound hid hevent hs₁
    exact ⟨hsound, hopened.trans hids⟩

/-- The handlers keep the invariant: the lifecycle handler opens at most the position it creates,
the others open and close none. -/
theorem DispatchStep.ledgerSound (hid : KeepsIdentity strategy) {events : List DeterministicEvent}
    {event : DeterministicEvent} (hevent : runsLifecycle event.eventType = true → event ∈ events)
    {audits : List InformationSetAudit} {snap : PortfolioSnapshot} {row : LedgerRecord}
    {s s' : BacktestEngineState} {e e₁ e' : σ} {r : Except Exc Unit}
    (seen : exec (engine.informationSet lookup event) e = (.ok audits, e₁))
    (taken : snapshot s event.timestamp = .ok snap)
    (h : DispatchStep engine strategy (eventContext event audits s snap) (s.appendEvent row) e₁ r
      s' e')
    (hwhole : ∀ x, r = .error x → engine.eventTears strategy lookup event (s, e) = false)
    (hs : LedgerSound events s) :
    LedgerSound events s' ∧ idsOf "position_open" s'.tradeLedger =
      idsOf "position_open" s.tradeLedger ++
        ((engine.createdAt strategy lookup event (s, e)).bind heldId).toList := by
  have hstart := lifecycleContext_of_seen engine seen taken
  have hseen : LedgerSound events (s.appendEvent row) := hs.of_eq rfl rfl rfl
  have hkept {type : EventType} (htype : event.eventType = type)
      (hidle : runsLifecycle type = false) {s' : BacktestEngineState}
      (hsound : LedgerSound events s') (hledger : s'.tradeLedger = s.tradeLedger) :
      LedgerSound events s' ∧ idsOf "position_open" s'.tradeLedger =
        idsOf "position_open" s.tradeLedger ++
          ((engine.createdAt strategy lookup event (s, e)).bind heldId).toList := by
    have hquiet : engine.createdAt strategy lookup event (s, e) = none := by
      rw [createdAt, hstart, htype, hidle]
      rfl
    rw [hquiet, hledger]
    exact ⟨hsound, (List.append_nil _).symm⟩
  cases h with
  | lifecycle type step =>
    have htype : runsLifecycle event.eventType = true := type
    rw [if_pos htype] at hstart
    have hcreated : engine.createdAt strategy lookup event (s, e) =
        createdBy strategy (eventContext event audits s snap) e₁ := by
      rw [createdAt, hstart]
      rfl
    rw [hcreated]
    refine step.ledgerSound hid (hevent htype) (fun x hx => ?_) hseen
    have htears := hwhole x hx
    rw [eventTears, hstart] at htears
    exact htears
  | valuation type =>
    exact hkept type rfl (hs.of_eq rfl rfl rfl) rfl
  | expirationRaised type =>
    exact hkept type rfl (hs.of_eq rfl rfl rfl) rfl
  | @expiration refreshed rows _ type loop =>
    obtain ⟨hident, hids⟩ := loop.ids hid hs.identified _ rfl
    have hopenIds : (((s.appendEvent row).appendEvents rows).replaceOpen refreshed).openIds =
        s.openIds := hids
    refine hkept type rfl ?_ rfl
    refine ⟨hident, ?_, hs.closed, hs.written⟩
    rw [hopenIds]
    exact hs.conserved
  | corporateAction type row =>
    exact hkept type rfl (hs.of_eq rfl rfl rfl) rfl
  | risk type warning =>
    exact hkept type rfl (hs.of_eq rfl rfl rfl) rfl
  | ignored lifecycle valuation => exact hkept rfl lifecycle (hs.of_eq rfl rfl rfl) rfl

/-- One event keeps the invariant, unless it fails and tears the ledger. -/
theorem ProcessStep.ledgerSound (hid : KeepsIdentity strategy) {events : List DeterministicEvent}
    {event : DeterministicEvent} (hevent : runsLifecycle event.eventType = true → event ∈ events)
    {s s' : BacktestEngineState} {e e' : σ} {r : Except Exc Unit}
    (h : ProcessStep engine strategy configuration lookup event s e r s' e')
    (hwhole : ∀ x, r = .error x → engine.eventTears strategy lookup event (s, e) = false)
    (hs : LedgerSound events s) :
    LedgerSound events s' ∧ idsOf "position_open" s'.tradeLedger =
      idsOf "position_open" s.tradeLedger ++
        ((engine.createdAt strategy lookup event (s, e)).bind heldId).toList := by
  cases h with
  | blind unseen =>
    rw [createdAt, lifecycleContext_of_unseen engine unseen]
    exact ⟨hs, (List.append_nil _).symm⟩
  | raised seen taken step => exact step.ledgerSound hid hevent seen taken hwhole hs
  | finished seen taken step =>
    obtain ⟨hsound, hids⟩ := step.ledgerSound hid hevent seen taken hwhole hs
    exact ⟨hsound.of_eq rfl rfl rfl, hids⟩

variable (configuration) in
/-- One turn of the event loop keeps the invariant, unless it fails and tears the ledger. -/
theorem ledgerSound_runEvent (hid : KeepsIdentity strategy) {events : List DeterministicEvent}
    {event : DeterministicEvent} (hevent : runsLifecycle event.eventType = true → event ∈ events)
    {w : BacktestEngineState × σ}
    (hwhole : ∀ x, (exec (engine.processEvent strategy configuration lookup event) w).1 = .error x →
      engine.eventTears strategy lookup event w = false)
    (hs : LedgerSound events w.1) :
    LedgerSound events (exec (engine.runEvent strategy configuration lookup event) w).2.1 ∧
      idsOf "position_open"
          (exec (engine.runEvent strategy configuration lookup event) w).2.1.tradeLedger =
        idsOf "position_open" w.1.tradeLedger ++
          ((engine.createdAt strategy lookup event w).bind heldId).toList := by
  rcases w with ⟨s, e⟩
  rw [exec_runEvent]
  rcases hp : exec (engine.processEvent strategy configuration lookup event) (s, e) with
    ⟨x | _, s', e'⟩
  all_goals
    rw [hp] at hwhole
    obtain ⟨hsound, hids⟩ := (processStep_processEvent engine strategy configuration lookup event
      hp).ledgerSound hid hevent hwhole hs
  · exact ⟨hsound.of_eq rfl rfl rfl, hids⟩
  · exact ⟨hsound, hids⟩

variable (engine strategy configuration lookup)

/-- In the run over `events`, no event fails after tearing the ledger. -/
def LedgerWhole (events : List DeterministicEvent) (env : σ) : Prop :=
  ∀ pre event, engine.FailsAt strategy configuration lookup events env event pre →
    engine.eventTears strategy lookup event
      (engine.after strategy configuration lookup pre (initialState configuration, env)) = false

theorem createdIds_concat (events : List DeterministicEvent) (event : DeterministicEvent)
    (w : BacktestEngineState × σ) :
    engine.createdIds strategy configuration lookup (events ++ [event]) w =
      engine.createdIds strategy configuration lookup events w ++
        ((engine.createdAt strategy lookup event
          (engine.after strategy configuration lookup events w)).bind heldId).toList := by
  induction events generalizing w with
  | nil => simp only [List.nil_append, createdIds, after_nil, List.append_nil]
  | cons first rest ih => rw [List.cons_append, createdIds, ih, createdIds, after_cons,
      List.append_assoc]

variable {engine strategy configuration lookup}

/-- The events that reach the lifecycle handler. -/
def lifecycleEvents (events : List DeterministicEvent) : List DeterministicEvent :=
  events.filter fun event => runsLifecycle event.eventType

/-- After any part of the run the invariant holds and the ledger has a row for each position
created. -/
theorem ledgerSound_after (hid : KeepsIdentity strategy) {events : List DeterministicEvent}
    {env : σ} (hwhole : engine.LedgerWhole strategy configuration lookup events env)
    {pre : List DeterministicEvent} (hpre : pre <+: events) :
    LedgerSound (lifecycleEvents events) (engine.after strategy configuration lookup pre
        (initialState configuration, env)).1 ∧
      idsOf "position_open" (engine.after strategy configuration lookup pre
          (initialState configuration, env)).1.tradeLedger =
        engine.createdIds strategy configuration lookup pre (initialState configuration, env) := by
  induction pre using List.reverseRecOn with
  | nil =>
    refine ⟨⟨?_, List.Perm.refl _, rfl, ?_⟩, rfl⟩
    · exact fun _ h => absurd h List.not_mem_nil
    · exact fun _ h => absurd h List.not_mem_nil
  | append_singleton pre event ih =>
    obtain ⟨hs, hids⟩ := ih ((List.prefix_append pre [event]).trans hpre)
    have hmem : event ∈ events := hpre.subset (List.mem_append_right _ (List.mem_singleton_self _))
    have hevent (h : runsLifecycle event.eventType = true) : event ∈ lifecycleEvents events :=
      List.mem_filter.mpr ⟨hmem, h⟩
    obtain ⟨hsound, hrows⟩ := ledgerSound_runEvent configuration hid hevent
      (fun x hx => hwhole pre event ⟨hpre, x, hx⟩) hs
    rw [after_concat, createdIds_concat, ← hids]
    exact ⟨hsound, hrows⟩

/-- The ids with an opening row are the ids held and the ids closed, each once, and exactly the
closed ones are reported closed by the reconstruction. -/
structure PositionsAgree (text : PyText) (result : BacktestRunResult) (s : BacktestEngineState) :
    Prop where
  conserved : (s.openIds ++ s.closedIds).Perm (idsOf "position_open" result.tradeLedger)
  once : (idsOf "position_open" result.tradeLedger).Nodup
  reconstructed : ∃ trades, reconstructTrades text result.tradeLedger = .ok trades ∧
    ∀ id, (∃ trade ∈ trades, trade.positionId = id ∧ trade.finalState = "closed") ↔
      id ∈ s.closedIds

theorem LedgerSound.reconstructed {events : List DeterministicEvent} {s : BacktestEngineState}
    (hs : LedgerSound events s)
    (hclock : (∀ event ∈ events, event.timestamp.utcoffset.isSome = true) ∨
      ∀ event ∈ events, event.timestamp.utcoffset.isSome = false)
    (hnamed : "" ∉ s.closedIds) (text : PyText) :
    ∃ trades, reconstructTrades text s.tradeLedger = .ok trades ∧
      ∀ id, (∃ trade ∈ trades, trade.positionId = id ∧ trade.finalState = "closed") ↔
        id ∈ s.closedIds := by
  have hcomparable : Comparable s.tradeLedger := by
    refine hclock.imp (fun haware row hrow => ?_) fun hnaive row hrow => ?_
    all_goals obtain ⟨event, hevent, id, hopen | hclose⟩ := hs.written row hrow
    · exact hopen.time ▸ haware event hevent
    · exact hclose.time ▸ haware event hevent
    · exact hopen.time ▸ hnaive event hevent
    · exact hclose.time ▸ hnaive event hevent
  have hreadable : ∀ row ∈ s.tradeLedger, Readable text row := fun row hrow => by
    obtain ⟨event, _, id, hopen | hclose⟩ := hs.written row hrow
    · exact hopen.readable text
    · exact hclose.readable text
  obtain ⟨trades, htrades⟩ := exists_reconstructTrades hcomparable hreadable
  refine ⟨trades, htrades, fun id => ?_⟩
  rw [reconstructTrades_closed_iff htrades, ← hs.closed, mem_idsOf]
  constructor
  · rintro ⟨_, row, hrow, hid, htype⟩
    refine ⟨row, hrow, ?_, hid⟩
    obtain ⟨_, _, _, hopen | hclose⟩ := hs.written row hrow
    · rw [hopen.type] at htype
      exact absurd htype (by decide)
    · exact hclose.type
  · rintro ⟨row, hrow, htype, hid⟩
    refine ⟨?_, row, hrow, hid, by rw [htype]; decide⟩
    rintro rfl
    rw [← hs.closed] at hnamed
    exact hnamed (mem_idsOf.mpr ⟨row, hrow, htype, hid⟩)

/-- A run in which no event fails after tearing the ledger ends with positions, ledger and
reconstruction in agreement. -/
theorem positionsAgree_of_ledgerWhole (text : PyText) (hid : KeepsIdentity strategy)
    {events : List DeterministicEvent} {env env₁ e' : σ} {result : BacktestRunResult}
    {s : BacktestEngineState}
    (hinit : exec (strategy.initializeStrategy configuration) env = (.ok (), env₁))
    (hrun : exec (engine.run strategy configuration lookup events)
      (initialState configuration, env) = (.ok result, (s, e')))
    (hfresh : (engine.createdIds strategy configuration lookup events
      (initialState configuration, env₁)).Nodup)
    (hnamed : "" ∉ engine.createdIds strategy configuration lookup events
      (initialState configuration, env₁))
    (hclock : (∀ event ∈ lifecycleEvents events, event.timestamp.utcoffset.isSome = true) ∨
      ∀ event ∈ lifecycleEvents events, event.timestamp.utcoffset.isSome = false)
    (hwhole : engine.LedgerWhole strategy configuration lookup events env₁) :
    PositionsAgree text result s := by
  obtain ⟨env₂, hinit₂, hs, hbuild⟩ := exec_run_ok engine strategy configuration lookup hrun
  rw [hinit] at hinit₂
  cases hinit₂
  obtain ⟨hsound, hids⟩ := ledgerSound_after hid hwhole (List.prefix_refl events)
  rw [← hs] at hsound hids
  have hledger : result.tradeLedger = s.tradeLedger := by
    unfold buildResult at hbuild
    obtain ⟨_, _, hbuild⟩ := except_bind_eq_ok.mp hbuild
    cases hbuild
    rfl
  have hclosed : "" ∉ s.closedIds := by
    intro hmem
    have hopened := hsound.conserved.subset (List.mem_append_right _ hmem)
    rw [hids] at hopened
    exact hnamed hopened
  refine ⟨?_, ?_, ?_⟩
  · rw [hledger]
    exact hsound.conserved
  · rw [hledger, hids]
    exact hfresh
  · rw [hledger]
    exact hsound.reconstructed hclock hclosed text

end Events

/-! ### A closing row whose event fails -/

/-- A strategy that opens a position at every lifecycle event and closes `p-1` at the second; the
position named `unpriced` cannot be marked. -/
def rollingStrategy (unpriced : String) : StrategyLifecycle Unit where
  strategyId := "s1"
  initializeStrategy _ := pure ()
  evaluateEntry _ := pure { shouldOpen := true, reasonCode := "entry" }
  createPosition context := pure (some
    { positionId := if context.event.sequenceNumber = 1 then "p-1" else "p-2"
      strategyId := "s1", lifecycleStatus := .open, openedAt := context.event.timestamp,
      closedAt := none, legs := [], realizedPnl := 0, unrealizedPnl := 0, metadata := [] })
  markPosition _ position :=
    if position.positionId = unpriced then throw ⟨.other "RuntimeError", "no quote"⟩
    else pure position
  evaluateManagementRules _ _ := pure {}
  evaluateExit context position := pure
    { shouldClose := position.positionId = "p-1" ∧ context.event.sequenceNumber = 2 }
  evaluateRollEligibility _ _ := pure {}
  processExpiration _ position := pure position
  finalize _ := pure ()

/-- Two lifecycle events, in order. -/
def rollingEvents : List DeterministicEvent :=
  [eventAt .lifecycleEvaluation 1, eventAt .lifecycleEvaluation 2]

theorem attr_toOption_toObject {α : Type} {position : PyObject PositionState} {name : String}
    {read : PositionState → α} {a : α} (h : (position.attr name read).toOption = some a) :
    (position.value.toObject.attr name read).toOption = some a := by
  unfold PyObject.attr at h
  split_ifs at h
  · cases h
  · exact h

theorem keepsIdentity_rollingStrategy (unpriced : String) :
    KeepsIdentity (rollingStrategy unpriced).toObject where
  mark := by
    intro context position e marked e' h
    change exec ((if position.value.positionId = unpriced then _ else pure position.value) >>=
      fun p => pure p.toObject) e = _ at h
    split_ifs at h
    · cases h
    · cases h
      exact ⟨fun _ => attr_toOption_toObject, fun _ => attr_toOption_toObject⟩
  expiration := by
    rintro context position e processed e' ⟨⟩
    exact ⟨fun _ => attr_toOption_toObject, fun _ => attr_toOption_toObject⟩

theorem rollingEvents_prefix {pre : List DeterministicEvent} {event : DeterministicEvent}
    (h : pre ++ [event] <+: rollingEvents) :
    pre = [] ∧ event = eventAt .lifecycleEvaluation 1 ∨
      pre = [eventAt .lifecycleEvaluation 1] ∧ event = eventAt .lifecycleEvaluation 2 := by
  obtain ⟨post, hpost⟩ := h
  rcases pre with _ | ⟨first, _ | ⟨second, rest⟩⟩
  · obtain ⟨hevent, _⟩ := List.cons.inj hpost
    exact Or.inl ⟨rfl, hevent⟩
  · obtain ⟨hfirst, hpost⟩ := List.cons.inj hpost
    obtain ⟨hevent, _⟩ := List.cons.inj hpost
    exact Or.inr ⟨by rw [hfirst], hevent⟩
  · have hlen := congrArg List.length hpost
    simp [rollingEvents] at hlen

theorem positionsAgree_of_ledgerWhole_rolled : ∃ result s,
    exec (researchEngine.run (rollingStrategy "").toObject researchConfiguration none
      rollingEvents) (initialState researchConfiguration, ()) = (.ok result, (s, ())) ∧
    s.openIds = ["p-2"] ∧ s.closedIds = ["p-1"] ∧
    PositionsAgree researchEngine.text result s := by
  obtain ⟨result, s, hrun, hopen, hclosed⟩ : ∃ result s,
      exec (researchEngine.run (rollingStrategy "").toObject researchConfiguration none
        rollingEvents) (initialState researchConfiguration, ()) = (.ok result, (s, ())) ∧
      s.openIds = ["p-2"] ∧ s.closedIds = ["p-1"] := ⟨_, _, rfl, by decide, by decide⟩
  refine ⟨result, s, hrun, hopen, hclosed, ?_⟩
  refine positionsAgree_of_ledgerWhole researchEngine.text (keepsIdentity_rollingStrategy "") rfl
    hrun (by decide) (by decide) (Or.inl (by decide)) ?_
  rintro pre event ⟨hoccurs, x, hx⟩
  obtain ⟨rfl, rfl⟩ | ⟨rfl, rfl⟩ := rollingEvents_prefix hoccurs
  all_goals
    have hreturns : true = false := congrArg Except.isOk hx
    cases hreturns

/-- At the second event `p-1` is closed and its row written, then `p-2` cannot be marked: the
position stays open and is reported closed. -/
theorem not_positionsAgree : ∃ result s,
    KeepsIdentity (rollingStrategy "p-2").toObject ∧
    (researchEngine.createdIds (rollingStrategy "p-2").toObject researchConfiguration none
      rollingEvents (initialState researchConfiguration, ())).Nodup ∧
    exec (researchEngine.run (rollingStrategy "p-2").toObject researchConfiguration none
      rollingEvents) (initialState researchConfiguration, ()) = (.ok result, (s, ())) ∧
    ¬ PositionsAgree researchEngine.text result s := by
  refine ⟨_, _, keepsIdentity_rollingStrategy "p-2", by decide, rfl, ?_⟩
  rintro ⟨_, _, trades, htrades, hclosed⟩
  have hreported := (reconstructTrades_closed_iff htrades "p-1").mpr
    ⟨by decide, _, List.mem_cons_of_mem _ (List.mem_cons_of_mem _ List.mem_cons_self), rfl,
      by decide⟩
  exact absurd ((hclosed "p-1").mp hreported) (by decide)

end BacktestingEngine
end OptionResearch
