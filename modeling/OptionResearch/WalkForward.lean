import OptionResearch.PartialEffects
import OptionResearch.PythonValues
import OptionResearch.WhileTrue
import Mathlib.Tactic.Ring

/-!
# Walk-forward splits

`generate_splits` of `walk_forward.py`: training, validation and test windows laid over a date
range. A `date` is its proleptic ordinal, and arithmetic that leaves the calendar raises.
-/

namespace OptionResearch

/-- A `date`, from 0001-01-01 to 9999-12-31, by its ordinal. -/
structure OrdinalDate where
  toordinal : Int
  one_le : 1 ≤ toordinal
  le_max : toordinal ≤ 3652059
  deriving DecidableEq, Repr

namespace OrdinalDate

/-- `date.max`. -/
def maxDate : OrdinalDate := ⟨3652059, by decide, le_rfl⟩

instance : LE OrdinalDate := ⟨fun d e => d.toordinal ≤ e.toordinal⟩

instance : LT OrdinalDate := ⟨fun d e => d.toordinal < e.toordinal⟩

instance : DecidableLE OrdinalDate :=
  fun d e => inferInstanceAs (Decidable (d.toordinal ≤ e.toordinal))

instance : DecidableLT OrdinalDate :=
  fun d e => inferInstanceAs (Decidable (d.toordinal < e.toordinal))

theorem le_iff {d e : OrdinalDate} : d ≤ e ↔ d.toordinal ≤ e.toordinal := Iff.rfl

theorem lt_iff {d e : OrdinalDate} : d < e ↔ d.toordinal < e.toordinal := Iff.rfl

/-- `timedelta(days=days)`. -/
def timedelta (days : Int) : Except Exc Int :=
  if 999999999 < days.natAbs then
    .error ⟨.other "OverflowError", s!"days={days}; must have magnitude <= 999999999"⟩
  else .ok days

/-- `date + timedelta(days=days)`. -/
def addDays (date : OrdinalDate) (days : Int) : Except Exc OrdinalDate := do
  let delta ← timedelta days
  if h : 1 ≤ date.toordinal + delta ∧ date.toordinal + delta ≤ 3652059 then
    return ⟨date.toordinal + delta, h.1, h.2⟩
  else .error ⟨.other "OverflowError", "date value out of range"⟩

variable {date later : OrdinalDate} {days : Int}

/-- The sum exists exactly where the calendar has a day for it. -/
theorem addDays_eq_ok_iff :
    date.addDays days = .ok later ↔ later.toordinal = date.toordinal + days := by
  have hdate := date.one_le
  have hdate' := date.le_max
  have hlater := later.one_le
  have hlater' := later.le_max
  constructor
  · intro h
    obtain ⟨delta, hdelta, h⟩ := except_bind_eq_ok.mp h
    rw [timedelta] at hdelta
    split_ifs at hdelta
    cases hdelta
    split_ifs at h
    cases h
    rfl
  · intro h
    have hsmall : ¬ 999999999 < days.natAbs := by omega
    refine except_bind_eq_ok.mpr ⟨days, if_neg hsmall, ?_⟩
    rw [dif_pos (by omega)]
    obtain ⟨ordinal, _, _⟩ := later
    cases h
    rfl

variable (date days) in
theorem exists_addDays (hle : 1 ≤ date.toordinal + days)
    (hge : date.toordinal + days ≤ 3652059) : ∃ later, date.addDays days = .ok later :=
  ⟨⟨date.toordinal + days, hle, hge⟩, addDays_eq_ok_iff.mpr rfl⟩

end OrdinalDate

inductive WalkForwardMode where
  | anchored
  | rolling
  | expanding
  deriving DecidableEq, Repr

def WalkForwardMode.value : WalkForwardMode → String
  | .anchored => "anchored"
  | .rolling => "rolling"
  | .expanding => "expanding"

structure WalkForwardConfig where
  mode : WalkForwardMode
  trainingDays : Int
  validationDays : Int
  testDays : Int
  stepDays : Int
  purgeDays : Int := 0
  embargoDays : Int := 0
  regimeAware : Bool := false

structure WalkForwardSplit where
  splitId : String
  trainStart : OrdinalDate
  trainEnd : OrdinalDate
  validationStart : OrdinalDate
  validationEnd : OrdinalDate
  testStart : OrdinalDate
  testEnd : OrdinalDate
  purgeDays : Int
  embargoDays : Int
  metadata : Payload

/-- `WalkForwardSplitError(message)`. -/
def walkForwardSplitError (message : String) : Exc := ⟨.other "WalkForwardSplitError", message⟩

namespace WalkForwardEngine

/-- Where the training window starts. -/
def trainStart (anchor cursor : OrdinalDate) : WalkForwardMode → OrdinalDate
  | .anchored => anchor
  | .rolling => cursor
  | .expanding => anchor

def validateNoLookAhead (split : WalkForwardSplit) : Except Exc Unit :=
  if ¬ (split.trainStart ≤ split.trainEnd ∧ split.trainEnd < split.validationStart ∧
      split.validationStart ≤ split.validationEnd) then
    .error (walkForwardSplitError "invalid train/validation chronology")
  else if ¬ (split.validationEnd < split.testStart ∧ split.testStart ≤ split.testEnd) then
    .error (walkForwardSplitError "invalid validation/test chronology")
  else .ok ()

/-- The split whose training window starts there. -/
def splitFrom (config : WalkForwardConfig) (splitId : String) (trainStart : OrdinalDate) :
    Except Exc WalkForwardSplit := do
  let trainEnd ← trainStart.addDays (config.trainingDays - 1)
  let validationStart ← trainEnd.addDays (1 + config.purgeDays)
  let validationEnd ← validationStart.addDays (config.validationDays - 1)
  let testStart ← validationEnd.addDays (1 + config.embargoDays)
  let testEnd ← testStart.addDays (config.testDays - 1)
  return {
    splitId, trainStart, trainEnd, validationStart, validationEnd, testStart, testEnd
    purgeDays := config.purgeDays
    embargoDays := config.embargoDays
    metadata := [("mode", .str config.mode.value), ("regime_aware", .bool config.regimeAware)] }

/-- The variables of the loop. -/
structure LoopState where
  splits : List WalkForwardSplit
  cursor : OrdinalDate

/-- `f"wf-{number:04d}"`. -/
def splitId (number : Nat) : String := s!"wf-{Date.digits 4 number}"

variable (startDate endDate : OrdinalDate) (config : WalkForwardConfig)

/-- The body of the loop; `none` is its `break`. -/
def iterate (state : LoopState) : Except Exc (Option LoopState) := do
  let split ← splitFrom config (splitId (state.splits.length + 1))
    (trainStart startDate state.cursor config.mode)
  if endDate < split.testEnd then return none
  else
    validateNoLookAhead split
    let cursor ← state.cursor.addDays config.stepDays
    return some { splits := state.splits ++ [split], cursor }

def pass (state : LoopState) : Pass LoopState (Except Exc (List WalkForwardSplit)) :=
  match iterate startDate endDate config state with
  | .error e => .left (.error e)
  | .ok none => .left (.ok state.splits)
  | .ok (some next) => .again next

/-- `(end_date - start_date).days + 1`. -/
def totalDays : Int := endDate.toordinal - startDate.toordinal + 1

def minimumRequired : Int := config.trainingDays + config.validationDays + config.testDays

/-- The checks before the loop. -/
def assertGeneratable : Except Exc Unit :=
  if endDate ≤ startDate then
    .error (walkForwardSplitError "start_date must be before end_date")
  else if config.trainingDays ≤ 0 ∨ config.validationDays ≤ 0 ∨ config.testDays ≤ 0 then
    .error (walkForwardSplitError "training/validation/test days must be positive")
  else if config.stepDays ≤ 0 then
    .error (walkForwardSplitError "step_days must be positive")
  else .ok ()

/-- `generate_splits`; `none` while the loop has not been left after that many passes. -/
def generateSplits (passes : Nat) : Option (Except Exc (List WalkForwardSplit)) :=
  match assertGeneratable startDate endDate config with
  | .error e => some (.error e)
  | .ok () =>
    if totalDays startDate endDate < minimumRequired config then some (.ok [])
    else WhileTrue.run (pass startDate endDate config) passes ⟨[], startDate⟩

variable {startDate endDate config} {state next : LoopState}

/-! ### One split -/

/-- A range and a configuration that `generate_splits` accepts, with no negative gaps. -/
structure Accepted (startDate endDate : OrdinalDate) (config : WalkForwardConfig) : Prop where
  start_lt_end : startDate < endDate
  training_pos : 0 < config.trainingDays
  validation_pos : 0 < config.validationDays
  test_pos : 0 < config.testDays
  step_pos : 0 < config.stepDays
  purge_nonneg : 0 ≤ config.purgeDays
  embargo_nonneg : 0 ≤ config.embargoDays

/-- The days from the start of the training window to the end of the test window. -/
def span (config : WalkForwardConfig) : Int :=
  config.trainingDays + config.purgeDays + config.validationDays + config.embargoDays +
    config.testDays

/-- The windows have the configured lengths and the gaps between them the configured days. -/
structure WindowsOf (config : WalkForwardConfig) (split : WalkForwardSplit) : Prop where
  training : split.trainEnd.toordinal - split.trainStart.toordinal + 1 = config.trainingDays
  purge : split.validationStart.toordinal - split.trainEnd.toordinal - 1 = config.purgeDays
  validation :
    split.validationEnd.toordinal - split.validationStart.toordinal + 1 = config.validationDays
  embargo : split.testStart.toordinal - split.validationEnd.toordinal - 1 = config.embargoDays
  test : split.testEnd.toordinal - split.testStart.toordinal + 1 = config.testDays

variable {split : WalkForwardSplit} {identifier : String} {start : OrdinalDate}

theorem WindowsOf.testEnd_eq (h : WindowsOf config split) :
    split.testEnd.toordinal = split.trainStart.toordinal + span config - 1 := by
  obtain ⟨htraining, hpurge, hvalidation, hembargo, htest⟩ := h
  rw [span]
  omega

theorem splitFrom_spec (h : splitFrom config identifier start = .ok split) :
    split.splitId = identifier ∧ split.trainStart = start ∧ WindowsOf config split := by
  obtain ⟨trainEnd, htrainEnd, h⟩ := except_bind_eq_ok.mp h
  obtain ⟨validationStart, hvalidationStart, h⟩ := except_bind_eq_ok.mp h
  obtain ⟨validationEnd, hvalidationEnd, h⟩ := except_bind_eq_ok.mp h
  obtain ⟨testStart, htestStart, h⟩ := except_bind_eq_ok.mp h
  obtain ⟨testEnd, htestEnd, h⟩ := except_bind_eq_ok.mp h
  cases h
  rw [OrdinalDate.addDays_eq_ok_iff] at htrainEnd hvalidationStart hvalidationEnd
  rw [OrdinalDate.addDays_eq_ok_iff] at htestStart htestEnd
  refine ⟨rfl, rfl, ?_, ?_, ?_, ?_, ?_⟩ <;> dsimp only <;> omega

/-- There is a split wherever its test window still ends in the calendar. -/
theorem exists_splitFrom (h : Accepted startDate endDate config)
    (hle : start.toordinal + span config - 1 ≤ 3652059) :
    ∃ split, splitFrom config identifier start = .ok split := by
  obtain ⟨_, htraining, hvalidation, htest, _, hpurge, hembargo⟩ := h
  have hstart := start.one_le
  rw [span] at hle
  obtain ⟨trainEnd, htrainEnd⟩ :=
    start.exists_addDays (config.trainingDays - 1) (by omega) (by omega)
  have htrain := OrdinalDate.addDays_eq_ok_iff.mp htrainEnd
  obtain ⟨validationStart, hvalidationStart⟩ :=
    trainEnd.exists_addDays (1 + config.purgeDays) (by omega) (by omega)
  have hfirst := OrdinalDate.addDays_eq_ok_iff.mp hvalidationStart
  obtain ⟨validationEnd, hvalidationEnd⟩ :=
    validationStart.exists_addDays (config.validationDays - 1) (by omega) (by omega)
  have hlast := OrdinalDate.addDays_eq_ok_iff.mp hvalidationEnd
  obtain ⟨testStart, htestStart⟩ :=
    validationEnd.exists_addDays (1 + config.embargoDays) (by omega) (by omega)
  have htested := OrdinalDate.addDays_eq_ok_iff.mp htestStart
  obtain ⟨testEnd, htestEnd⟩ :=
    testStart.exists_addDays (config.testDays - 1) (by omega) (by omega)
  apply exists_bind_eq_ok htrainEnd
  apply exists_bind_eq_ok hvalidationStart
  apply exists_bind_eq_ok hvalidationEnd
  apply exists_bind_eq_ok htestStart
  exact exists_bind_eq_ok htestEnd ⟨_, rfl⟩

theorem validateNoLookAhead_ok (h : Accepted startDate endDate config)
    (hwindows : WindowsOf config split) : validateNoLookAhead split = .ok () := by
  obtain ⟨_, htraining, hvalidation, htest, _, hpurge, hembargo⟩ := h
  obtain ⟨_, _, _, _, _⟩ := hwindows
  rw [validateNoLookAhead]
  simp only [OrdinalDate.le_iff, OrdinalDate.lt_iff]
  rw [if_neg (by omega), if_neg (by omega)]

/-! ### One pass of the loop -/

/-- The ordinal on which the test window of the pass ends, if the calendar has it. -/
def reach (startDate : OrdinalDate) (config : WalkForwardConfig) (state : LoopState) : Int :=
  (trainStart startDate state.cursor config.mode).toordinal + span config - 1

/-- What one pass does, by the day its test window ends on. -/
inductive PassOutcome (startDate endDate : OrdinalDate) (config : WalkForwardConfig)
    (state : LoopState) : Pass LoopState (Except Exc (List WalkForwardSplit)) → Prop
  | beyondCalendar (e : Exc) (hreach : 3652059 < reach startDate config state) :
      PassOutcome startDate endDate config state (.left (.error e))
  | beyondRange (hreach : endDate.toordinal < reach startDate config state)
      (hmax : reach startDate config state ≤ 3652059) :
      PassOutcome startDate endDate config state (.left (.ok state.splits))
  | cursorBeyondCalendar (e : Exc) (hreach : reach startDate config state ≤ endDate.toordinal)
      (hcursor : 3652059 < state.cursor.toordinal + config.stepDays) :
      PassOutcome startDate endDate config state (.left (.error e))
  | appended (split : WalkForwardSplit) (cursor : OrdinalDate)
      (hsplit : splitFrom config (splitId (state.splits.length + 1))
        (trainStart startDate state.cursor config.mode) = .ok split)
      (hreach : reach startDate config state ≤ endDate.toordinal)
      (hcursor : cursor.toordinal = state.cursor.toordinal + config.stepDays) :
      PassOutcome startDate endDate config state (.again ⟨state.splits ++ [split], cursor⟩)

theorem pass_outcome (h : Accepted startDate endDate config) (state : LoopState) :
    PassOutcome startDate endDate config state (pass startDate endDate config state) := by
  rcases hsplit : splitFrom config (splitId (state.splits.length + 1))
      (trainStart startDate state.cursor config.mode) with e | split
  · have hiterate : iterate startDate endDate config state = .error e := by
      rw [iterate, hsplit]
      rfl
    rw [pass, hiterate]
    refine .beyondCalendar e ?_
    by_contra hle
    obtain ⟨split, hok⟩ := exists_splitFrom h (not_lt.mp hle)
    rw [hok] at hsplit
    cases hsplit
  · obtain ⟨_, hstart, hwindows⟩ := splitFrom_spec hsplit
    have hreach : split.testEnd.toordinal = reach startDate config state := by
      rw [hwindows.testEnd_eq, hstart, reach]
    by_cases hlate : endDate < split.testEnd
    · have hiterate : iterate startDate endDate config state = .ok none := by
        rw [iterate, hsplit]
        exact if_pos hlate
      rw [pass, hiterate]
      exact .beyondRange (hreach ▸ hlate) (hreach ▸ split.testEnd.le_max)
    · have hfits : reach startDate config state ≤ endDate.toordinal := hreach ▸ not_lt.mp hlate
      have hiterate : iterate startDate endDate config state =
          (state.cursor.addDays config.stepDays).bind fun cursor =>
            .ok (some ⟨state.splits ++ [split], cursor⟩) := by
        rw [iterate, hsplit]
        refine (if_neg hlate).trans ?_
        rw [validateNoLookAhead_ok h hwindows]
        rfl
      rcases hcursor : state.cursor.addDays config.stepDays with e | cursor
      · rw [pass, hiterate, hcursor]
        refine .cursorBeyondCalendar e hfits ?_
        by_contra hle
        have hone := state.cursor.one_le
        have hstep := h.step_pos
        obtain ⟨later, hok⟩ :=
          state.cursor.exists_addDays config.stepDays (by omega) (not_lt.mp hle)
        rw [hok] at hcursor
        cases hcursor
      · rw [pass, hiterate, hcursor]
        exact .appended split cursor hsplit hfits (OrdinalDate.addDays_eq_ok_iff.mp hcursor)

theorem Accepted.assertGeneratable_eq_ok (h : Accepted startDate endDate config) :
    assertGeneratable startDate endDate config = .ok () := by
  obtain ⟨hrange, htraining, hvalidation, htest, hstep, _, _⟩ := h
  have hnot : ¬ endDate ≤ startDate := Int.not_le.mpr hrange
  rw [assertGeneratable, if_neg hnot, if_neg (by omega), if_neg (by omega)]

theorem Accepted.minimumRequired_le_span (h : Accepted startDate endDate config) :
    minimumRequired config ≤ span config := by
  obtain ⟨_, _, _, _, _, hpurge, hembargo⟩ := h
  rw [minimumRequired, span]
  omega

/-! ### Termination -/

theorem pass_advances (h : Accepted startDate endDate config)
    (hpass : pass startDate endDate config state = .again next) :
    next.cursor.toordinal = state.cursor.toordinal + config.stepDays := by
  have houtcome := pass_outcome h state
  rw [hpass] at houtcome
  cases houtcome with
  | appended split cursor _ _ hcursor => exact hcursor

/-- The loop is left before the cursor leaves the calendar. -/
theorem exists_run (h : Accepted startDate endDate config) (state : LoopState) :
    ∃ outcome, WhileTrue.run (pass startDate endDate config) 3652060 state = some outcome := by
  apply WhileTrue.exists_run_of_measure (fun _ => True)
    (fun state => (3652059 - state.cursor.toordinal).toNat)
  · intro state next _ hpass
    have hadvance := pass_advances h hpass
    have hstep := h.step_pos
    have hmax := next.cursor.le_max
    exact ⟨trivial, by omega⟩
  · trivial
  · have hone := state.cursor.one_le
    omega

/-! ### Rolling splits -/

/-- The day on which the test window of the rolled split `k` ends. -/
def rolledEnd (startDate : OrdinalDate) (config : WalkForwardConfig) (k : Nat) : Int :=
  startDate.toordinal + k * config.stepDays + span config - 1

/-- How many rolled splits end in the range. -/
def rollingCount (startDate endDate : OrdinalDate) (config : WalkForwardConfig) : Nat :=
  ((totalDays startDate endDate - span config) / config.stepDays + 1).toNat

theorem lt_rollingCount_iff (h : Accepted startDate endDate config) {k : Nat} :
    k < rollingCount startDate endDate config ↔
      rolledEnd startDate config k ≤ endDate.toordinal := by
  have hstep := h.step_pos
  have hquotient : (k : Int) ≤ (totalDays startDate endDate - span config) / config.stepDays ↔
      k * config.stepDays ≤ totalDays startDate endDate - span config :=
    Int.le_ediv_iff_mul_le hstep
  rw [rollingCount, Int.lt_toNat, Int.lt_add_one_iff, hquotient, totalDays, rolledEnd]
  omega

/-- The split `k` of a rolling schedule. -/
structure Rolled (startDate endDate : OrdinalDate) (config : WalkForwardConfig) (k : Nat)
    (split : WalkForwardSplit) : Prop where
  splitId_eq : split.splitId = splitId (k + 1)
  trainStart_eq : split.trainStart.toordinal = startDate.toordinal + k * config.stepDays
  windows : WindowsOf config split
  in_range : split.testEnd ≤ endDate

/-- Every split that ends in the range, and no other, in their order. -/
structure RollingSchedule (startDate endDate : OrdinalDate) (config : WalkForwardConfig)
    (splits : List WalkForwardSplit) : Prop where
  complete : ∀ k : Nat, k < splits.length ↔ rolledEnd startDate config k ≤ endDate.toordinal
  rolled : ∀ k split, splits[k]? = some split → Rolled startDate endDate config k split

/-- What the rolling loop keeps: its cursor is where the next split starts. -/
structure RollingState (startDate endDate : OrdinalDate) (config : WalkForwardConfig)
    (state : LoopState) : Prop where
  cursor_eq : state.cursor.toordinal =
    startDate.toordinal + state.splits.length * config.stepDays
  rolled : ∀ k split, state.splits[k]? = some split → Rolled startDate endDate config k split

theorem RollingState.reach_eq (h : RollingState startDate endDate config state)
    (hmode : config.mode = .rolling) :
    reach startDate config state = rolledEnd startDate config state.splits.length := by
  rw [reach, hmode, rolledEnd, ← h.cursor_eq]
  rfl

theorem RollingState.length_le (h : RollingState startDate endDate config state)
    (hok : Accepted startDate endDate config) :
    state.splits.length ≤ rollingCount startDate endDate config := by
  rcases Nat.eq_zero_or_pos state.splits.length with hzero | hpos
  · omega
  · obtain ⟨last, hlast⟩ : ∃ last, state.splits.length = last + 1 :=
      ⟨_, (Nat.sub_add_cancel hpos).symm⟩
    have hlt : last < state.splits.length := by omega
    have hsplit : state.splits[last]? = some state.splits[last] := List.getElem?_eq_getElem hlt
    obtain ⟨_, hstart, hwindows, hrange⟩ := h.rolled last _ hsplit
    have hcount : last < rollingCount startDate endDate config := by
      rw [lt_rollingCount_iff hok, rolledEnd, ← hstart, ← hwindows.testEnd_eq]
      exact hrange
    omega

theorem RollingState.again (h : RollingState startDate endDate config state)
    (hok : Accepted startDate endDate config) (hmode : config.mode = .rolling)
    (hpass : pass startDate endDate config state = .again next) :
    RollingState startDate endDate config next := by
  have houtcome := pass_outcome hok state
  rw [hpass] at houtcome
  cases houtcome with
  | appended split cursor hsplit hreach hcursor =>
    obtain ⟨hid, hstart, hwindows⟩ := splitFrom_spec hsplit
    have hfirst : split.trainStart.toordinal = state.cursor.toordinal := by
      rw [hstart, hmode]
      rfl
    constructor
    · dsimp only
      rw [hcursor, h.cursor_eq, List.length_append, List.length_singleton]
      push_cast
      ring
    · intro k other hother
      dsimp only at hother
      rw [List.getElem?_append] at hother
      split_ifs at hother with hk
      · exact h.rolled k other hother
      · rw [List.getElem?_singleton] at hother
        split_ifs at hother with hzero
        cases hother
        obtain rfl : k = state.splits.length := by omega
        refine ⟨hid, hfirst.trans h.cursor_eq, hwindows, ?_⟩
        rw [OrdinalDate.le_iff, hwindows.testEnd_eq, hstart]
        exact hreach

/-- How a rolling loop is left: with the whole schedule, unless the window after it leaves the
calendar. -/
def RollingOutcome (startDate endDate : OrdinalDate) (config : WalkForwardConfig)
    (outcome : Except Exc (List WalkForwardSplit)) : Prop :=
  (∀ splits, outcome = .ok splits → RollingSchedule startDate endDate config splits) ∧
    ((∃ splits, outcome = .ok splits) ↔
      rolledEnd startDate config (rollingCount startDate endDate config) ≤ 3652059)

theorem RollingState.left (h : RollingState startDate endDate config state)
    (hok : Accepted startDate endDate config) (hmode : config.mode = .rolling)
    {outcome : Except Exc (List WalkForwardSplit)}
    (hpass : pass startDate endDate config state = .left outcome) :
    RollingOutcome startDate endDate config outcome := by
  have hcount := h.length_le hok
  have hfits := lt_rollingCount_iff hok (k := state.splits.length)
  have houtcome := pass_outcome hok state
  have hmax := endDate.le_max
  rw [← h.reach_eq hmode] at hfits
  rw [hpass] at houtcome
  cases houtcome with
  | beyondCalendar e hreach =>
    have hall : rollingCount startDate endDate config = state.splits.length := by omega
    refine ⟨fun splits hsplits => (nomatch hsplits), ?_⟩
    rw [hall, ← h.reach_eq hmode]
    constructor
    · rintro ⟨splits, hsplits⟩
      cases hsplits
    · intro hle
      omega
  | beyondRange hreach hbound =>
    have hall : rollingCount startDate endDate config = state.splits.length := by omega
    constructor
    · rintro splits ⟨⟩
      refine ⟨fun k => ?_, h.rolled⟩
      rw [← hall]
      exact lt_rollingCount_iff hok
    · rw [hall, ← h.reach_eq hmode]
      exact ⟨fun _ => hbound, fun _ => ⟨_, rfl⟩⟩
  | cursorBeyondCalendar e hreach hcursor =>
    have hmore : state.splits.length + 1 ≤ rollingCount startDate endDate config :=
      hfits.mpr hreach
    have hstep := h.cursor_eq
    have hscaled : ((state.splits.length + 1 : Nat) : Int) * config.stepDays ≤
        rollingCount startDate endDate config * config.stepDays :=
      Int.mul_le_mul_of_nonneg_right (Int.ofNat_le.mpr hmore) hok.step_pos.le
    have hspan : 1 ≤ span config := by
      have hminimum := hok.minimumRequired_le_span
      obtain ⟨_, htraining, hvalidation, htest, _, _, _⟩ := hok
      rw [minimumRequired] at hminimum
      omega
    refine ⟨fun splits hsplits => (nomatch hsplits), ?_⟩
    constructor
    · rintro ⟨splits, hsplits⟩
      cases hsplits
    · intro hle
      rw [rolledEnd] at hle
      push_cast at hscaled
      rw [Int.add_mul] at hscaled
      omega

/-! ### Whole runs -/

/-- The loop is left by its `break`, or is not entered. A rolling loop breaks unless the window
after the last one of its schedule leaves the calendar. In the other modes every window is the first
one, so the loop breaks in its first pass or only the cursor's overflow ends it. -/
def Completes (startDate endDate : OrdinalDate) (config : WalkForwardConfig) : Prop :=
  totalDays startDate endDate < minimumRequired config ∨
    match config.mode with
    | .rolling => rolledEnd startDate config (rollingCount startDate endDate config) ≤ 3652059
    | .anchored | .expanding =>
      endDate.toordinal < rolledEnd startDate config 0 ∧ rolledEnd startDate config 0 ≤ 3652059

theorem Accepted.generateSplits_eq (h : Accepted startDate endDate config) (passes : Nat) :
    generateSplits startDate endDate config passes =
      if totalDays startDate endDate < minimumRequired config then some (.ok [])
      else WhileTrue.run (pass startDate endDate config) passes ⟨[], startDate⟩ := by
  rw [generateSplits, h.assertGeneratable_eq_ok]

/-- The splits do not depend on the passes one allows for. -/
theorem generateSplits_unique {passes more : Nat}
    {outcome other : Except Exc (List WalkForwardSplit)}
    (hrun : generateSplits startDate endDate config passes = some outcome)
    (hother : generateSplits startDate endDate config more = some other) : outcome = other := by
  rw [generateSplits] at hrun hother
  cases hguard : assertGeneratable startDate endDate config with
  | error e =>
    rw [hguard] at hrun hother
    exact Option.some.inj (hrun.symm.trans hother)
  | ok _ =>
    rw [hguard] at hrun hother
    dsimp only at hrun hother
    split_ifs at hrun hother with hsmall
    · exact Option.some.inj (hrun.symm.trans hother)
    · exact WhileTrue.run_unique hrun hother

/-- A rolling loop that is left was left with its whole schedule or by an overflow. -/
theorem run_rolling (h : Accepted startDate endDate config) (hmode : config.mode = .rolling)
    {passes : Nat} {outcome : Except Exc (List WalkForwardSplit)}
    (hrun : WhileTrue.run (pass startDate endDate config) passes ⟨[], startDate⟩ = some outcome) :
    RollingOutcome startDate endDate config outcome := by
  have hfirst : RollingState startDate endDate config ⟨[], startDate⟩ := by
    refine ⟨?_, fun k split hsplit => (nomatch hsplit)⟩
    simp only [List.length_nil, Nat.cast_zero, Int.zero_mul, Int.add_zero]
  exact WhileTrue.run_post (RollingState startDate endDate config)
    (RollingOutcome startDate endDate config) (fun _ _ hstate => hstate.again h hmode)
    (fun _ _ hstate => hstate.left h hmode) hfirst hrun

/-- A loop whose windows all start at the anchor breaks only in its first pass. -/
theorem run_pinned (h : Accepted startDate endDate config) (hmode : config.mode ≠ .rolling)
    {passes : Nat} {outcome : Except Exc (List WalkForwardSplit)}
    (hrun : WhileTrue.run (pass startDate endDate config) passes ⟨[], startDate⟩ = some outcome) :
    (∃ splits, outcome = .ok splits) ↔
      endDate.toordinal < rolledEnd startDate config 0 ∧
        rolledEnd startDate config 0 ≤ 3652059 := by
  refine WhileTrue.run_post (fun _ => True)
    (fun outcome => (∃ splits, outcome = .ok splits) ↔
      endDate.toordinal < rolledEnd startDate config 0 ∧
        rolledEnd startDate config 0 ≤ 3652059) (fun _ _ _ _ => trivial) ?_ trivial hrun
  intro state result _ hpass
  have hreach : reach startDate config state = rolledEnd startDate config 0 := by
    rw [reach, rolledEnd, Nat.cast_zero, Int.zero_mul, Int.add_zero]
    cases hcase : config.mode with
    | rolling => exact absurd hcase hmode
    | anchored => rfl
    | expanding => rfl
  have houtcome := pass_outcome h state
  have hmax := endDate.le_max
  rw [hpass] at houtcome
  rw [← hreach]
  cases houtcome with
  | beyondCalendar e hbeyond =>
    constructor
    · rintro ⟨splits, hsplits⟩
      cases hsplits
    · intro hle
      omega
  | beyondRange hbeyond hbound => exact ⟨fun _ => ⟨hbeyond, hbound⟩, fun _ => ⟨_, rfl⟩⟩
  | cursorBeyondCalendar e hfits _ =>
    constructor
    · rintro ⟨splits, hsplits⟩
      cases hsplits
    · intro hle
      omega

/-- A range of two years. -/
def firstOf2024 : OrdinalDate := ⟨738886, by decide, by decide⟩

def lastOf2025 : OrdinalDate := ⟨739616, by decide, by decide⟩

def twoYearConfig (mode : WalkForwardMode) : WalkForwardConfig :=
  { mode, trainingDays := 180, validationDays := 60, testDays := 60, stepDays := 60
    purgeDays := 5, embargoDays := 5, regimeAware := true }

theorem accepted_twoYears (mode : WalkForwardMode) :
    Accepted firstOf2024 lastOf2025 (twoYearConfig mode) := by
  cases mode <;> constructor <;> decide

/-- The loop is always left, since the cursor cannot leave the calendar; it is left with splits
exactly where its `break` is reached. -/
theorem generateSplits_terminates (startDate endDate : OrdinalDate) (config : WalkForwardConfig)
    (h : Accepted startDate endDate config) :
    ∃ passes outcome, generateSplits startDate endDate config passes = some outcome ∧
      ((∃ splits, outcome = .ok splits) ↔ Completes startDate endDate config) := by
  rw [Completes]
  by_cases hsmall : totalDays startDate endDate < minimumRequired config
  · refine ⟨0, .ok [], ?_, iff_of_true ⟨[], rfl⟩ (.inl hsmall)⟩
    rw [h.generateSplits_eq, if_pos hsmall]
  · obtain ⟨outcome, hrun⟩ := exists_run h ⟨[], startDate⟩
    refine ⟨3652060, outcome, ?_, ?_⟩
    · rw [h.generateSplits_eq, if_neg hsmall, hrun]
    · rw [or_iff_right hsmall]
      cases hmode : config.mode with
      | rolling => exact (run_rolling h hmode hrun).2
      | anchored => exact run_pinned h (by rw [hmode]; decide) hrun
      | expanding => exact run_pinned h (by rw [hmode]; decide) hrun

/-- Two years of anchored splits end in an overflow. -/
theorem generateSplits_terminates_anchored :
    ∃ passes outcome,
      generateSplits firstOf2024 lastOf2025 (twoYearConfig .anchored) passes = some outcome ∧
        ¬ ∃ splits, outcome = .ok splits := by
  obtain ⟨passes, outcome, hrun, hreturns⟩ :=
    generateSplits_terminates firstOf2024 lastOf2025 (twoYearConfig .anchored)
      (accepted_twoYears .anchored)
  refine ⟨passes, outcome, hrun, fun hsplits => ?_⟩
  rcases hreturns.mp hsplits with hsmall | hfirst
  · exact absurd hsmall (by decide)
  · exact absurd hfirst.1 (by decide)

/-- Rolling splits are complete unless the window after the last of them, which the loop lays out
before it breaks, leaves the calendar. -/
theorem rollingSplits_complete_iff (startDate endDate : OrdinalDate) (config : WalkForwardConfig)
    (h : Accepted startDate endDate config) (hmode : config.mode = .rolling) :
    (∃ passes splits, generateSplits startDate endDate config passes = some (.ok splits) ∧
        RollingSchedule startDate endDate config splits) ↔
      totalDays startDate endDate < minimumRequired config ∨
        rolledEnd startDate config (rollingCount startDate endDate config) ≤ 3652059 := by
  simp only [h.generateSplits_eq]
  by_cases hsmall : totalDays startDate endDate < minimumRequired config
  · refine iff_of_true ⟨0, [], if_pos hsmall, ?_, fun k split hsplit => (nomatch hsplit)⟩
      (.inl hsmall)
    intro k
    have hspan := h.minimumRequired_le_span
    have hscaled : 0 ≤ (k : Int) * config.stepDays :=
      Int.mul_nonneg (Int.natCast_nonneg k) h.step_pos.le
    rw [totalDays] at hsmall
    rw [rolledEnd, List.length_nil]
    omega
  · rw [or_iff_right hsmall]
    simp only [if_neg hsmall]
    constructor
    · rintro ⟨passes, splits, hrun, _⟩
      exact (run_rolling h hmode hrun).2.mp ⟨splits, rfl⟩
    · intro hmax
      obtain ⟨outcome, hrun⟩ := exists_run h ⟨[], startDate⟩
      obtain ⟨hschedule, hreturns⟩ := run_rolling h hmode hrun
      obtain ⟨splits, rfl⟩ := hreturns.mpr hmax
      exact ⟨3652060, splits, hrun, hschedule splits rfl⟩

theorem rollingSplits_complete_twoYears :
    ∃ passes splits,
      generateSplits firstOf2024 lastOf2025 (twoYearConfig .rolling) passes = some (.ok splits) ∧
        RollingSchedule firstOf2024 lastOf2025 (twoYearConfig .rolling) splits :=
  (rollingSplits_complete_iff firstOf2024 lastOf2025 (twoYearConfig .rolling)
    (accepted_twoYears .rolling) rfl).mpr (.inr (by decide))

/-- In December 9999 one window of twenty days fits, and the next one has no dates. -/
theorem rollingSplits_overflow :
    ∃ startDate endDate config, Accepted startDate endDate config ∧ config.mode = .rolling ∧
      ¬ ∃ passes splits, generateSplits startDate endDate config passes = some (.ok splits) ∧
        RollingSchedule startDate endDate config splits := by
  have h : Accepted ⟨3652029, by decide, by decide⟩ OrdinalDate.maxDate
      { mode := .rolling, trainingDays := 10, validationDays := 5, testDays := 5
        stepDays := 20 } := by
    constructor <;> decide
  refine ⟨_, _, _, h, rfl, ?_⟩
  rintro ⟨passes, splits, hrun, _⟩
  rw [h.generateSplits_eq, if_neg (by decide)] at hrun
  exact absurd ((run_rolling h rfl hrun).2.mp ⟨splits, rfl⟩) (by decide)

end WalkForwardEngine
end OptionResearch
