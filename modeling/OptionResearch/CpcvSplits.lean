import Mathlib.Data.String.Basic
import OptionResearch.DealtGroups
import OptionResearch.MultipleTesting
import OptionResearch.PartialEffects
import OptionResearch.WalkForward

/-!
# Combinatorial purged cross validation

`generate_cpcv_splits` of the validation engine. The records are dealt to groups in the order of
their timestamps, and for every choice of test groups the records of the others go through a chain
of checks. Comparing a naive with an aware timestamp raises, and so does leaving the calendar.
-/

namespace OptionResearch

open DealtGroups StableSort

/-- What the splits read of a record. -/
structure ValidationRecord where
  timestamp : DateTime
  symbol : String
  regime : String
  candidateId : String
  labelEndTimestamp : Option DateTime := none
  volatilitySnapshotTimestamp : Option DateTime := none
  earningsEventTimestamp : Option DateTime := none
  corporateActionTimestamp : Option DateTime := none
  calibrationTimestamp : Option DateTime := none
  deriving DecidableEq

/-- The keyword arguments of `generate_cpcv_splits`. -/
structure CpcvArguments where
  nGroups : Int
  nTestGroups : Int
  purgeDays : Int := 0
  embargoDays : Int := 0
  symbolAware : Bool := true
  regimeAware : Bool := true

/-- The period of the test records, with what is purged before it and embargoed after it. -/
structure TestPeriod where
  testStart : DateTime
  testEnd : DateTime
  purgeStart : Option DateTime
  embargoEnd : Option DateTime

structure CpcvSplit where
  splitId : String
  groupIds : List ℕ
  trainGroupIds : List ℕ
  testGroupIds : List ℕ
  trainStart : DateTime
  trainEnd : DateTime
  period : TestPeriod
  symbolUniverse : List String
  regimeLabels : List String
  leakageWarnings : List String
  trainCount : ℕ
  testCount : ℕ

structure CpcvResult where
  nGroups : Int
  nTestGroups : Int
  splits : List CpcvSplit
  warnings : List String
  purgeDays : Int
  embargoDays : Int

namespace DateTime

/-- The comparison of two `datetime`s, for what it finds. -/
def compared (t u : DateTime) (verdict : Bool) : Except Exc Bool :=
  if t.utcoffset.isSome = u.utcoffset.isSome then .ok verdict
  else .error ⟨.typeError, "can't compare offset-naive and offset-aware datetimes"⟩

/-- `datetime.min` and `datetime.max`. -/
def InCalendar (t : DateTime) : Prop :=
  -62135596800000000 ≤ t.wall ∧ t.wall ≤ 253402300799999999

instance (t : DateTime) : Decidable t.InCalendar := inferInstanceAs (Decidable (_ ∧ _))

def checked (t : DateTime) : Except Exc DateTime :=
  if t.InCalendar then .ok t else .error ⟨.other "OverflowError", "date value out of range"⟩

/-- `t + timedelta(days=days)`. -/
def plusDays (t : DateTime) (days : Int) : Except Exc DateTime := do
  let delta ← OrdinalDate.timedelta days
  checked (t.addDays delta)

/-- `t - timedelta(days=days)`. -/
def minusDays (t : DateTime) (days : Int) : Except Exc DateTime := do
  let delta ← OrdinalDate.timedelta days
  checked (t.addDays (-delta))

end DateTime

/-- `min` of the timestamps. -/
def earliest : List ValidationRecord → Except Exc DateTime
  | [] => .error ⟨.valueError, "min() iterable argument is empty"⟩
  | record :: rest => .ok (rest.foldl
      (fun least other => if other.timestamp < least then other.timestamp else least)
      record.timestamp)

/-- `max` of the timestamps. -/
def latest : List ValidationRecord → Except Exc DateTime
  | [] => .error ⟨.valueError, "max() iterable argument is empty"⟩
  | record :: rest => .ok (rest.foldl
      (fun greatest other => if greatest < other.timestamp then other.timestamp else greatest)
      record.timestamp)

/-- `stamp and stamp >= bound`. -/
def notBefore (stamp : Option DateTime) (bound : DateTime) : Except Exc Bool :=
  match stamp with
  | none => .ok false
  | some t => t.compared bound (decide (bound ≤ t))

/-- `stamp and stamp > bound`. -/
def after (stamp : Option DateTime) (bound : DateTime) : Except Exc Bool :=
  match stamp with
  | none => .ok false
  | some t => t.compared bound (decide (bound < t))

namespace TestPeriod

variable (period : TestPeriod)

def purges (record : ValidationRecord) : Bool :=
  period.purgeStart.any fun purgeStart =>
    purgeStart ≤ record.timestamp && record.timestamp ≤ period.testEnd

def embargoes (record : ValidationRecord) : Bool :=
  period.embargoEnd.any fun embargoEnd =>
    period.testEnd < record.timestamp && record.timestamp ≤ embargoEnd

/-- The checks that a training record goes through, each with its warning. The timestamps of the
records are either all naive or all aware here, those the records carry along are not. -/
def checks (symbolAware regimeAware : Bool) (testSymbols testRegimes : List String)
    (record : ValidationRecord) : List (Except Exc Bool × String) :=
  [(notBefore record.labelEndTimestamp period.testStart, "overlapping-label leakage prevented"),
    (.ok (period.purges record), "purge leakage prevented"),
    (.ok (period.embargoes record), "embargo leakage prevented"),
    (after record.volatilitySnapshotTimestamp period.testStart,
      "volatility-surface leakage prevented"),
    (after record.earningsEventTimestamp period.testStart,
      "future earnings-event leakage prevented"),
    (after record.corporateActionTimestamp period.testStart,
      "corporate-action leakage prevented"),
    (after record.calibrationTimestamp period.testStart,
      "future calibration information prevented"),
    (.ok (symbolAware && decide (record.symbol ∈ testSymbols)), "symbol-aware leakage prevented"),
    (.ok (regimeAware && decide (record.regime ∈ testRegimes)), "regime-aware leakage prevented")]

end TestPeriod

/-- The warning of the first check that catches the record. -/
def firstLeak : List (Except Exc Bool × String) → Except Exc (Option String)
  | [] => .ok none
  | (check, warning) :: rest => do if ← check then return some warning else firstLeak rest

/-- The verdict on one of the training records. -/
def leakOf (trainRecords : List ValidationRecord) (period : TestPeriod)
    (symbolAware regimeAware : Bool) (record : ValidationRecord) : Except Exc (Option String) :=
  let late := trainRecords.filter fun record => period.testStart ≤ record.timestamp
  let testSymbols := late.map (·.symbol)
  let testRegimes := late.map (·.regime)
  firstLeak (period.checks symbolAware regimeAware testSymbols testRegimes record)

def applyLeakageFilters (trainRecords : List ValidationRecord) (period : TestPeriod)
    (symbolAware regimeAware : Bool) : Except Exc (List ValidationRecord × List String) := do
  let verdicts ← trainRecords.mapM fun record => do
    let leak ← leakOf trainRecords period symbolAware regimeAware record
    return (record, leak)
  let filtered := (verdicts.filter (·.2.isNone)).map (·.1)
  let warnings := verdicts.filterMap (·.2)
  if filtered.isEmpty then
    return (filtered, warnings ++ ["all training records were filtered out by leakage controls"])
  else return (filtered, warnings)

namespace CpcvArguments

variable (args : CpcvArguments)

/-- A bound that is only drawn where days are given. -/
def bound (days : Int) (moved : Int → Except Exc DateTime) : Except Exc (Option DateTime) :=
  if days = 0 then .ok none else do return some (← moved days)

def testPeriod (testRecords : List ValidationRecord) : Except Exc TestPeriod := do
  let testStart ← earliest testRecords
  let testEnd ← latest testRecords
  let purgeStart ← bound args.purgeDays testStart.minusDays
  let embargoEnd ← bound args.embargoDays testEnd.plusDays
  return ⟨testStart, testEnd, purgeStart, embargoEnd⟩

def trainGroupIds (testGroupIds : List ℕ) : List ℕ :=
  (List.range args.nGroups.toNat).filter (· ∉ testGroupIds)

def testRecords (ordered : List ValidationRecord) (testGroupIds : List ℕ) : List ValidationRecord :=
  itemsOf (deal args.nGroups.toNat ordered) testGroupIds

def trainRecords (ordered : List ValidationRecord) (testGroupIds : List ℕ) :
    List ValidationRecord :=
  itemsOf (deal args.nGroups.toNat ordered) (args.trainGroupIds testGroupIds)

/-- The choices of test groups. -/
def testGroupChoices : List (List ℕ) :=
  combinations args.nTestGroups.toNat (List.range args.nGroups.toNat)

/-- One pass of the loop over the choices of test groups. -/
def splitFor (ordered : List ValidationRecord) (testGroupIds : List ℕ) : Except Exc CpcvSplit := do
  let trainGroupIds := args.trainGroupIds testGroupIds
  let testRecords := args.testRecords ordered testGroupIds
  let period ← args.testPeriod testRecords
  let (filteredTrain, leakageWarnings) ← applyLeakageFilters
    (args.trainRecords ordered testGroupIds) period args.symbolAware args.regimeAware
  let trainStart ← earliest filteredTrain
  let trainEnd ← latest filteredTrain
  return {
    splitId := "cpcv-" ++ String.intercalate "-" ((trainGroupIds ++ testGroupIds).map toString)
    groupIds := List.range args.nGroups.toNat
    trainGroupIds
    testGroupIds
    trainStart
    trainEnd
    period
    symbolUniverse := sortBy id (ordered.map (·.symbol)).dedup
    regimeLabels := sortBy id (ordered.map (·.regime)).dedup
    leakageWarnings
    trainCount := filteredTrain.length
    testCount := testRecords.length }

end CpcvArguments

/-- The key that the records are sorted by. -/
def recordKey (record : ValidationRecord) : Int ×ₗ String ×ₗ String :=
  toLex (record.timestamp.instant, toLex (record.candidateId, record.symbol))

/-- The timestamps are either all naive or all aware. -/
def SameAwareness (records : List ValidationRecord) : Prop :=
  ∀ record ∈ records, ∀ other ∈ records,
    record.timestamp.utcoffset.isSome = other.timestamp.utcoffset.isSome

instance (records : List ValidationRecord) : Decidable (SameAwareness records) :=
  inferInstanceAs (Decidable (∀ record ∈ records, ∀ other ∈ records, _))

/-- `sorted(records, key=...)`, which compares every two kinds of timestamps that there are. -/
def sortRecords (records : List ValidationRecord) : Except Exc (List ValidationRecord) :=
  if SameAwareness records then .ok (sortBy recordKey records)
  else .error ⟨.typeError, "can't compare offset-naive and offset-aware datetimes"⟩

def generateCpcvSplits (records : List ValidationRecord) (args : CpcvArguments) :
    Except Exc CpcvResult := do
  if records.isEmpty then throw (validationDataError "records cannot be empty")
  else if args.nGroups ≤ 1 then throw (validationDataError "n_groups must be greater than 1")
  else if args.nTestGroups ≤ 0 ∨ args.nGroups ≤ args.nTestGroups then
    throw (validationDataError "n_test_groups must be between 1 and n_groups - 1")
  else
    let ordered ← sortRecords records
    let splits ← args.testGroupChoices.mapM (args.splitFor ordered)
    return {
      nGroups := args.nGroups
      nTestGroups := args.nTestGroups
      splits
      warnings := splits.flatMap (·.leakageWarnings)
      purgeDays := args.purgeDays
      embargoDays := args.embargoDays }

/-! ### What the parts of a pass compute -/

theorem foldl_pick (better R : DateTime → DateTime → Prop) [DecidableRel better]
    (htrans : ∀ t u v, R t u → R u v → R t v) (hrefl : ∀ t, R t t)
    (hbetter : ∀ t u, better u t → R u t) (hkept : ∀ t u, ¬ better u t → R t u)
    (records : List ValidationRecord) (start : DateTime) :
    ((∃ record ∈ records, record.timestamp = records.foldl (fun best other =>
        if better other.timestamp best then other.timestamp else best) start) ∨
      start = records.foldl (fun best other =>
        if better other.timestamp best then other.timestamp else best) start) ∧
    R (records.foldl (fun best other =>
        if better other.timestamp best then other.timestamp else best) start) start ∧
    ∀ record ∈ records, R (records.foldl (fun best other =>
        if better other.timestamp best then other.timestamp else best) start) record.timestamp := by
  induction records generalizing start with
  | nil => exact ⟨.inr rfl, hrefl start, fun _ h => absurd h List.not_mem_nil⟩
  | cons record rest ih =>
    rw [List.foldl_cons]
    split_ifs with hpick
    · obtain ⟨hfrom, hstart, hall⟩ := ih record.timestamp
      refine ⟨.inl ?_, htrans _ _ _ hstart (hbetter _ _ hpick), List.forall_mem_cons.mpr
        ⟨hstart, hall⟩⟩
      rcases hfrom with ⟨other, hother, heq⟩ | heq
      · exact ⟨other, List.mem_cons_of_mem _ hother, heq⟩
      · exact ⟨record, List.mem_cons_self, heq⟩
    · obtain ⟨hfrom, hstart, hall⟩ := ih start
      refine ⟨?_, hstart, List.forall_mem_cons.mpr
        ⟨htrans _ _ _ hstart (hkept _ _ hpick), hall⟩⟩
      exact hfrom.imp_left fun ⟨other, hother, heq⟩ => ⟨other, List.mem_cons_of_mem _ hother, heq⟩

variable {records ordered filtered : List ValidationRecord} {t : DateTime}

theorem earliest_spec (h : earliest records = .ok t) :
    (∃ record ∈ records, record.timestamp = t) ∧ ∀ record ∈ records, t ≤ record.timestamp := by
  cases records with
  | nil => cases h
  | cons record rest =>
      obtain ⟨hfrom, hstart, hall⟩ := foldl_pick (· < ·) (· ≤ ·)
        (fun _ _ _ => le_trans) le_refl (fun _ _ => le_of_lt) (fun _ _ => DateTime.not_lt_iff.mp)
        rest record.timestamp
      cases h
      refine ⟨?_, List.forall_mem_cons.mpr ⟨hstart, hall⟩⟩
      rcases hfrom with ⟨other, hother, heq⟩ | heq
      · exact ⟨other, List.mem_cons_of_mem _ hother, heq⟩
      · exact ⟨record, List.mem_cons_self, heq⟩

theorem latest_spec (h : latest records = .ok t) :
    (∃ record ∈ records, record.timestamp = t) ∧ ∀ record ∈ records, record.timestamp ≤ t := by
  cases records with
  | nil => cases h
  | cons record rest =>
      obtain ⟨hfrom, hstart, hall⟩ := foldl_pick (· > ·) (· ≥ ·)
        (fun _ _ _ h h' => le_trans h' h) le_refl (fun _ _ => le_of_lt)
        (fun _ _ => DateTime.not_lt_iff.mp) rest record.timestamp
      cases h
      refine ⟨?_, List.forall_mem_cons.mpr ⟨hstart, hall⟩⟩
      rcases hfrom with ⟨other, hother, heq⟩ | heq
      · exact ⟨other, List.mem_cons_of_mem _ hother, heq⟩
      · exact ⟨record, List.mem_cons_self, heq⟩

theorem exists_earliest_iff : (∃ t, earliest records = .ok t) ↔ records ≠ [] := by
  cases records with
  | nil => exact iff_of_false (fun ⟨_, h⟩ => nomatch h) fun h => h rfl
  | cons record rest => exact iff_of_true ⟨_, rfl⟩ (List.cons_ne_nil _ _)

theorem exists_latest_iff : (∃ t, latest records = .ok t) ↔ records ≠ [] := by
  cases records with
  | nil => exact iff_of_false (fun ⟨_, h⟩ => nomatch h) fun h => h rfl
  | cons record rest => exact iff_of_true ⟨_, rfl⟩ (List.cons_ne_nil _ _)

/-- A record passes where no check catches it. -/
theorem firstLeak_eq_none_iff {checks : List (Except Exc Bool × String)} :
    firstLeak checks = .ok none ↔ ∀ check ∈ checks, check.1 = .ok false := by
  induction checks with
  | nil => exact iff_of_true rfl fun _ h => absurd h List.not_mem_nil
  | cons check rest ih =>
      obtain ⟨verdict, warning⟩ := check
      rw [List.forall_mem_cons, ← ih, firstLeak]
      rcases verdict with e | _ | _
      · exact iff_of_false (fun h => nomatch h) fun h => nomatch h.1
      · exact ⟨fun h => ⟨rfl, h⟩, And.right⟩
      · exact iff_of_false (fun h => nomatch h) fun h => nomatch h.1

/-- The filter keeps the records that no check catches, and says so where none is left. -/
theorem applyLeakageFilters_spec {period : TestPeriod} {symbolAware regimeAware : Bool}
    {warnings : List String}
    (h : applyLeakageFilters records period symbolAware regimeAware = .ok (filtered, warnings)) :
    (∀ record, record ∈ filtered ↔
        record ∈ records ∧ leakOf records period symbolAware regimeAware record = .ok none) ∧
      (filtered = [] →
        "all training records were filtered out by leakage controls" ∈ warnings) := by
  obtain ⟨verdicts, hverdicts, h⟩ := except_bind_eq_ok.mp h
  obtain ⟨hitems, hfrom⟩ := mapM_eq_ok_mem hverdicts
  dsimp only at h
  have hfiltered : filtered = (verdicts.filter (·.2.isNone)).map (·.1) := by
    split_ifs at h <;> cases h <;> rfl
  constructor
  · intro record
    rw [hfiltered, List.mem_map]
    constructor
    · rintro ⟨⟨_, leak⟩, hverdict, rfl⟩
      obtain ⟨hverdict, hnone⟩ := List.mem_filter.mp hverdict
      obtain ⟨item, hitem, hleak⟩ := hfrom _ hverdict
      obtain ⟨leak', hleak', hpair⟩ := except_bind_eq_ok.mp hleak
      cases hpair
      exact ⟨hitem, hleak'.trans (congrArg Except.ok (Option.isNone_iff_eq_none.mp hnone))⟩
    · rintro ⟨hrecord, hleak⟩
      obtain ⟨verdict, hverdict, hpair⟩ := hitems record hrecord
      rw [hleak] at hpair
      cases hpair
      exact ⟨(record, none), List.mem_filter.mpr ⟨hverdict, rfl⟩, rfl⟩
  · intro hempty
    rw [← hfiltered, hempty] at h
    cases h
    exact List.mem_append_right _ List.mem_cons_self

theorem exists_applyLeakageFilters_iff {period : TestPeriod} {symbolAware regimeAware : Bool} :
    (∃ result, applyLeakageFilters records period symbolAware regimeAware = .ok result) ↔
      ∀ record ∈ records, ∃ leak,
        leakOf records period symbolAware regimeAware record = .ok leak := by
  constructor
  · rintro ⟨result, h⟩ record hrecord
    obtain ⟨verdicts, hverdicts, _⟩ := except_bind_eq_ok.mp h
    obtain ⟨_, _, hverdict⟩ := (mapM_eq_ok_mem hverdicts).1 record hrecord
    obtain ⟨leak, hleak, _⟩ := except_bind_eq_ok.mp hverdict
    exact ⟨leak, hleak⟩
  · intro h
    have hverdicts : ∀ record ∈ records, ∃ verdict : ValidationRecord × Option String, (do
        let leak ← leakOf records period symbolAware regimeAware record
        return (record, leak) : Except Exc _) = .ok verdict := by
      intro record hrecord
      obtain ⟨leak, hleak⟩ := h record hrecord
      exact ⟨(record, leak), except_bind_eq_ok.mpr ⟨leak, hleak, rfl⟩⟩
    obtain ⟨verdicts, hverdicts⟩ := exists_mapM_eq_ok hverdicts
    refine exists_bind_eq_ok hverdicts ?_
    dsimp only
    split_ifs <;> exact ⟨_, rfl⟩

/-- The days lead from the timestamp to another one. -/
def DateTime.Reaches (t : DateTime) (days : Int) : Prop :=
  days.natAbs ≤ 999999999 ∧ (t.addDays days).InCalendar

theorem timedelta_eq_ok_iff {days delta : Int} :
    OrdinalDate.timedelta days = .ok delta ↔ days.natAbs ≤ 999999999 ∧ delta = days := by
  rw [OrdinalDate.timedelta]
  split_ifs with hlarge
  · refine iff_of_false ?_ fun h => absurd h.1 (not_le.mpr hlarge)
    rintro ⟨⟩
  · rw [Except.ok.injEq]
    exact ⟨fun h => ⟨not_lt.mp hlarge, h.symm⟩, fun h => h.2.symm⟩

theorem DateTime.checked_eq_ok_iff {u : DateTime} :
    t.checked = .ok u ↔ t.InCalendar ∧ u = t := by
  rw [checked]
  split_ifs with hcalendar
  · rw [Except.ok.injEq]
    exact ⟨fun h => ⟨hcalendar, h.symm⟩, fun h => h.2.symm⟩
  · refine iff_of_false ?_ fun h => hcalendar h.1
    rintro ⟨⟩

theorem DateTime.plusDays_eq_ok_iff {u : DateTime} {days : Int} :
    t.plusDays days = .ok u ↔ t.Reaches days ∧ u = t.addDays days := by
  simp only [plusDays, except_bind_eq_ok, timedelta_eq_ok_iff, checked_eq_ok_iff]
  constructor
  · rintro ⟨_, ⟨hdays, rfl⟩, hcalendar, rfl⟩
    exact ⟨⟨hdays, hcalendar⟩, rfl⟩
  · rintro ⟨⟨hdays, hcalendar⟩, rfl⟩
    exact ⟨_, ⟨hdays, rfl⟩, hcalendar, rfl⟩

theorem DateTime.minusDays_eq_ok_iff {u : DateTime} {days : Int} :
    t.minusDays days = .ok u ↔ t.Reaches (-days) ∧ u = t.addDays (-days) := by
  simp only [minusDays, except_bind_eq_ok, timedelta_eq_ok_iff, checked_eq_ok_iff]
  constructor
  · rintro ⟨_, ⟨hdays, rfl⟩, hcalendar, rfl⟩
    exact ⟨⟨(Int.natAbs_neg _).trans_le hdays, hcalendar⟩, rfl⟩
  · rintro ⟨⟨hdays, hcalendar⟩, rfl⟩
    exact ⟨_, ⟨(Int.natAbs_neg _).symm.trans_le hdays, rfl⟩, hcalendar, rfl⟩

namespace CpcvArguments

variable {args : CpcvArguments} {period : TestPeriod}

/-- The period of the records, from the earliest to the latest of them. -/
structure IsPeriod (args : CpcvArguments) (records : List ValidationRecord)
    (period : TestPeriod) : Prop where
  testStart : earliest records = .ok period.testStart
  testEnd : latest records = .ok period.testEnd
  purgeStart : period.purgeStart =
    if args.purgeDays = 0 then none else some (period.testStart.addDays (-args.purgeDays))
  embargoEnd : period.embargoEnd =
    if args.embargoDays = 0 then none else some (period.testEnd.addDays args.embargoDays)

/-- What is purged before and embargoed after the period stays in the calendar. -/
def InRange (args : CpcvArguments) (testStart testEnd : DateTime) : Prop :=
  (args.purgeDays ≠ 0 → testStart.Reaches (-args.purgeDays)) ∧
    (args.embargoDays ≠ 0 → testEnd.Reaches args.embargoDays)

theorem bound_eq_ok_iff {days : Int} {moved : Int → Except Exc DateTime} {result : Option DateTime}
    {reached : Prop} (hmoved : ∀ u, moved days = .ok u ↔ reached ∧ u = t) :
    bound days moved = .ok result ↔
      (days ≠ 0 → reached) ∧ result = if days = 0 then none else some t := by
  rw [bound]
  split_ifs with hzero
  · rw [Except.ok.injEq]
    exact ⟨fun h => ⟨fun h => absurd hzero h, h.symm⟩, fun h => h.2.symm⟩
  · rw [except_bind_eq_ok]
    constructor
    · rintro ⟨u, hu, hresult⟩
      obtain ⟨hreached, rfl⟩ := (hmoved u).mp hu
      cases hresult
      exact ⟨fun _ => hreached, rfl⟩
    · rintro ⟨hreached, rfl⟩
      exact ⟨t, (hmoved t).mpr ⟨hreached hzero, rfl⟩, rfl⟩

theorem testPeriod_eq_ok_iff : args.testPeriod records = .ok period ↔
    args.IsPeriod records period ∧ args.InRange period.testStart period.testEnd := by
  constructor
  · intro h
    obtain ⟨testStart, hstart, h⟩ := except_bind_eq_ok.mp h
    obtain ⟨testEnd, hend, h⟩ := except_bind_eq_ok.mp h
    obtain ⟨purgeStart, hpurge, h⟩ := except_bind_eq_ok.mp h
    obtain ⟨embargoEnd, hembargo, h⟩ := except_bind_eq_ok.mp h
    cases h
    obtain ⟨hpurge, hpurge'⟩ :=
      (bound_eq_ok_iff fun _ => DateTime.minusDays_eq_ok_iff).mp hpurge
    obtain ⟨hembargo, hembargo'⟩ :=
      (bound_eq_ok_iff fun _ => DateTime.plusDays_eq_ok_iff).mp hembargo
    exact ⟨⟨hstart, hend, hpurge', hembargo'⟩, hpurge, hembargo⟩
  · rintro ⟨h, hpurge, hembargo⟩
    refine except_bind_eq_ok.mpr ⟨_, h.testStart, except_bind_eq_ok.mpr ⟨_, h.testEnd, ?_⟩⟩
    refine except_bind_eq_ok.mpr ⟨_, (bound_eq_ok_iff fun _ =>
      DateTime.minusDays_eq_ok_iff).mpr ⟨hpurge, h.purgeStart⟩, ?_⟩
    exact except_bind_eq_ok.mpr ⟨_, (bound_eq_ok_iff fun _ =>
      DateTime.plusDays_eq_ok_iff).mpr ⟨hembargo, h.embargoEnd⟩, rfl⟩

end CpcvArguments

end OptionResearch
