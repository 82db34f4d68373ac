import OptionResearch.ReplaySnapshots

/-!
# Moving about the events

A step leaves the cursor behind the event it returns, a jump leaves it on that event. The law of
navigation is that the next steps return the neighbours of the event a move has returned. It says
where the cursor has to stand, and only the steps leave it there.
-/

namespace OptionResearch.BacktestReplayEngine

open Effect

/-- The moves that return an event. -/
inductive Move where
  | stepForward
  | stepBackward
  | jumpToTimestamp (timestamp : DateTime)
  | jumpToReason (reasonCode : String)
  | jumpToEventType (eventType : String)

variable {text : ReplayText} {engine : BacktestReplayEngine}

/-- The number of the first event that passes a test. -/
def firstNumber (engine : BacktestReplayEngine) (test : DeterministicEvent → Except Exc Bool) :
    Except Exc (Option Nat) :=
  (firstEvent test 0 engine.events).map fun found => found.map (·.1)

namespace Move

def method (text : ReplayText) : Move → Method (Option DeterministicEvent)
  | .stepForward => BacktestReplayEngine.stepForward
  | .stepBackward => BacktestReplayEngine.stepBackward
  | .jumpToTimestamp timestamp => BacktestReplayEngine.jumpToTimestamp timestamp
  | .jumpToReason reasonCode => BacktestReplayEngine.jumpToReason text reasonCode
  | .jumpToEventType eventType => BacktestReplayEngine.jumpToEventType eventType

/-- The number of the event that a move returns; events of equal content have numbers of their
own. -/
def number (text : ReplayText) (engine : BacktestReplayEngine) : Move → Except Exc (Option Nat)
  | .stepForward =>
    .ok (if engine.cursor ≥ engine.events.length then none else some engine.cursor.toNat)
  | .stepBackward => .ok (if engine.cursor ≤ 1 then none else some (engine.cursor - 2).toNat)
  | .jumpToTimestamp timestamp =>
    engine.firstNumber fun event => event.timestamp.atOrAfter timestamp
  | .jumpToReason reasonCode =>
    engine.firstNumber fun event =>
      .ok (text.str (event.payload.get "reason_code" (.str "")) == reasonCode)
  | .jumpToEventType eventType =>
    engine.firstNumber fun event => .ok (event.eventType.value == eventType)

def IsStep (move : Move) : Prop := move = .stepForward ∨ move = .stepBackward

instance (move : Move) : Decidable move.IsStep :=
  match move with
  | .stepForward => .isTrue (.inl rfl)
  | .stepBackward => .isTrue (.inr rfl)
  | .jumpToTimestamp _ | .jumpToReason _ | .jumpToEventType _ => .isFalse nofun

/-- Where a move that returns event `i` leaves the cursor. -/
def cursorAfter (move : Move) (i : Nat) : Int := if move.IsStep then i + 1 else i

end Move

/-! ### What a move returns -/

theorem tupleItem_of_lt {α : Type} {items : List α} {index : Int} (hnonneg : 0 ≤ index)
    (h : index.toNat < items.length) : tupleItem items index = .ok items[index.toNat] := by
  rw [tupleItem, if_neg (by omega), if_neg (by omega), List.getElem?_eq_getElem h]

theorem firstEvent_getElem? {test : DeterministicEvent → Except Exc Bool} {start index : Nat}
    {events : List DeterministicEvent} {event : DeterministicEvent}
    (h : firstEvent test start events = .ok (some (index, event))) :
    start ≤ index ∧ events[index - start]? = some event := by
  induction events generalizing start with
  | nil => cases h
  | cons first rest ih =>
    rw [firstEvent] at h
    obtain ⟨passed, _, h⟩ := except_bind_eq_ok.mp h
    cases passed with
    | true =>
      cases h
      exact ⟨le_rfl, by rw [Nat.sub_self]; rfl⟩
    | false =>
      obtain ⟨hle, hevent⟩ := ih h
      have hsub : index - start = index - (start + 1) + 1 := by omega
      exact ⟨by omega, by rw [hsub, List.getElem?_cons_succ]; exact hevent⟩

/-- The number and the event of a jump belong together. -/
theorem exec_jump {test : DeterministicEvent → Except Exc Bool}
    {fallback : BacktestReplayEngine → Int} {i : Nat}
    (h : engine.firstNumber test = .ok (some i)) :
    ∃ hi : i < engine.events.length, exec (jump test fallback) engine =
      (.ok (some engine.events[i]), { engine with cursor := i }) := by
  obtain ⟨found, hfound, hi⟩ := except_map_eq_ok.mp h
  obtain ⟨⟨index, event⟩, rfl, rfl⟩ := Option.map_eq_some_iff.mp hi
  obtain ⟨_, hevent⟩ := firstEvent_getElem? hfound
  rw [Nat.sub_zero] at hevent
  obtain ⟨hlt, rfl⟩ := List.getElem?_eq_some_iff.mp hevent
  refine ⟨hlt, ?_⟩
  rw [jump, exec_get_bind, exec_raising_bind, hfound]
  rfl

/-- A move that returns event number `i` returns that event, and this is where its cursor is. -/
theorem Move.exec_method (h : engine.CursorInRange) {move : Move} {i : Nat}
    (hnumber : move.number text engine = .ok (some i)) :
    ∃ hi : i < engine.events.length, exec (move.method text) engine =
      (.ok (some engine.events[i]), { engine with cursor := move.cursorAfter i }) := by
  have hnonneg := h.nonneg
  have hle := h.le_length
  cases move with
  | stepForward =>
    rw [number] at hnumber
    split_ifs at hnumber with hend
    · cases hnumber
    · cases hnumber
      have hlt : engine.cursor.toNat < engine.events.length := by omega
      have hcursor : engine.cursor + 1 = engine.cursor.toNat + 1 := by omega
      refine ⟨hlt, ?_⟩
      rw [method, BacktestReplayEngine.stepForward, exec_get_bind, if_neg hend, exec_raising_bind,
        tupleItem_of_lt hnonneg hlt, hcursor]
      rfl
  | stepBackward =>
    rw [number] at hnumber
    split_ifs at hnumber with hstart
    · cases hnumber
    · cases hnumber
      have hlt : (engine.cursor - 2).toNat < engine.events.length := by omega
      have hcursor : engine.cursor - 1 = (engine.cursor - 2).toNat + 1 := by omega
      have hitem : engine.cursor - 1 - 1 = engine.cursor - 2 := by omega
      refine ⟨hlt, ?_⟩
      rw [method, BacktestReplayEngine.stepBackward, exec_get_bind, if_neg hstart, moveCursor,
        exec_modify_bind, exec_raising_bind, hitem, tupleItem_of_lt (by omega) hlt, hcursor]
      rfl
  | jumpToTimestamp timestamp => exact exec_jump hnumber
  | jumpToReason reasonCode => exact exec_jump hnumber
  | jumpToEventType eventType => exact exec_jump hnumber

/-! ### The neighbours -/

/-- The next step forward returns event `i + 1` and the next step backward event `i - 1`; there is
nothing behind the last event and before the first. -/
structure StandsAt (text : ReplayText) (engine : BacktestReplayEngine) (i : Nat) : Prop where
  forward : Move.number text engine .stepForward =
    .ok (if i + 1 < engine.events.length then some (i + 1) else none)
  backward : Move.number text engine .stepBackward = .ok (if i = 0 then none else some (i - 1))

/-- The law asks for a cursor behind the event. -/
theorem standsAt_iff (h : engine.CursorInRange) {i : Nat} (hi : i < engine.events.length) :
    StandsAt text engine i ↔ engine.cursor = i + 1 := by
  have hnonneg := h.nonneg
  have hle := h.le_length
  constructor
  · intro hstands
    have hforward := hstands.forward
    rw [Move.number, Except.ok.injEq] at hforward
    split_ifs at hforward with hend hlast hlast
    · omega
    · rw [Option.some.injEq] at hforward
      omega
  · intro hcursor
    constructor
    · rw [Move.number, hcursor]
      by_cases hlast : i + 1 < engine.events.length
      · rw [if_pos hlast, if_neg (by omega)]
        rfl
      · rw [if_neg hlast, if_pos (by omega)]
    · rw [Move.number, hcursor]
      by_cases hfirst : i = 0
      · rw [if_pos hfirst, if_pos (by omega)]
      · have hprevious : ((i : Int) + 1 - 2).toNat = i - 1 := by omega
        rw [if_neg hfirst, if_neg (by omega), hprevious]

/-- In every run, the law holds after a move that has returned event `i` exactly if the move was a
step. -/
theorem standsAt_after_move_iff (text : ReplayText) (start : BacktestReplayEngine)
    (hstart : start.CursorInRange) (calls : List Call) (move : Move) (i : Nat)
    (hnumber : move.number text (start.after text calls) = .ok (some i)) :
    StandsAt text (exec (move.method text) (start.after text calls)).2 i ↔
      move = .stepForward ∨ move = .stepBackward := by
  have hrange := hstart.after text calls
  obtain ⟨hi, hexec⟩ := Move.exec_method hrange hnumber
  have hmoved : (exec (move.method text) (start.after text calls)).2.CursorInRange := by
    rw [hexec]
    refine hrange.move ?_ ?_
    · rw [Move.cursorAfter]
      split_ifs <;> omega
    · rw [Move.cursorAfter]
      split_ifs <;> omega
  rw [standsAt_iff hmoved (by rw [hexec]; exact hi), hexec]
  change move.cursorAfter i = i + 1 ↔ move.IsStep
  rw [Move.cursorAfter]
  split_ifs with hstep
  · exact iff_of_true rfl hstep
  · exact iff_of_false (by omega) hstep

theorem standsAt_after_move_iff_forward :
    StandsAt plainReplayText (exec stepForward
        (BacktestReplayEngine.after plainReplayText { events := [quoteAt 0, quoteAt 1] }
          [.jumpToEventType "quote", .stepForward])).2 1 ↔
      Move.stepForward = .stepForward ∨ Move.stepForward = .stepBackward :=
  standsAt_after_move_iff plainReplayText { events := [quoteAt 0, quoteAt 1] }
    (cursorInRange_new _) [.jumpToEventType "quote", .stepForward] .stepForward 1 rfl

/-- The step after a jump returns the event of the jump again. -/
theorem not_standsAt_after_jump :
    ¬ ∀ (text : ReplayText) (events : List DeterministicEvent) (calls : List Call) (move : Move)
      (i : Nat),
        move.number text (BacktestReplayEngine.after text { events } calls) = .ok (some i) →
        StandsAt text
          (exec (move.method text) (BacktestReplayEngine.after text { events } calls)).2 i := by
  intro hlaw
  have hstands := hlaw plainReplayText [quoteAt 0, quoteAt 1] [] (.jumpToEventType "quote") 0 rfl
  have hforward : (Except.ok (some 0) : Except Exc (Option Nat)) = .ok (some 1) :=
    hstands.forward
  rw [Except.ok.injEq, Option.some.injEq] at hforward
  exact absurd hforward (by decide)

end OptionResearch.BacktestReplayEngine
