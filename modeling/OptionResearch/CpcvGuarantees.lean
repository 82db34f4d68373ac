import OptionResearch.CpcvSplits

/-!
# What the splits guarantee

The first choice of test groups has the earliest record, so that every training record is at or
after the start of its test period. The symbols and regimes to keep out are then those of the
training records themselves, and a filter that knows them leaves nothing. Without them the filter
keeps a training record out of the test period only where it purges.
-/

namespace OptionResearch

open DealtGroups StableSort

variable {records ordered filtered : List ValidationRecord} {args : CpcvArguments}
  {period : TestPeriod} {ids : List ℕ} {split : CpcvSplit} {result : CpcvResult}

/-! ### One record -/

/-- No check catches the record. -/
structure Passes (trainRecords : List ValidationRecord) (period : TestPeriod)
    (symbolAware regimeAware : Bool) (record : ValidationRecord) : Prop where
  label : notBefore record.labelEndTimestamp period.testStart = .ok false
  purge : period.purges record = false
  embargo : period.embargoes record = false
  later : ∀ stamp ∈ [record.volatilitySnapshotTimestamp, record.earningsEventTimestamp,
    record.corporateActionTimestamp, record.calibrationTimestamp],
      after stamp period.testStart = .ok false
  symbol : (symbolAware && decide (record.symbol ∈
    (trainRecords.filter (period.testStart ≤ ·.timestamp)).map (·.symbol))) = false
  regime : (regimeAware && decide (record.regime ∈
    (trainRecords.filter (period.testStart ≤ ·.timestamp)).map (·.regime))) = false

theorem leakOf_eq_none_iff {symbolAware regimeAware : Bool} {record : ValidationRecord} :
    leakOf records period symbolAware regimeAware record = .ok none ↔
      Passes records period symbolAware regimeAware record := by
  rw [leakOf, firstLeak_eq_none_iff]
  simp only [TestPeriod.checks, List.forall_mem_cons, Except.ok.injEq]
  constructor
  · rintro ⟨hlabel, hpurge, hembargo, hvolatility, hearnings, hcorporate, hcalibration, hsymbol,
      hregime, _⟩
    refine ⟨hlabel, hpurge, hembargo, ?_, hsymbol, hregime⟩
    simp only [List.forall_mem_cons]
    exact ⟨hvolatility, hearnings, hcorporate, hcalibration, fun _ h => absurd h List.not_mem_nil⟩
  · rintro ⟨hlabel, hpurge, hembargo, hlater, hsymbol, hregime⟩
    simp only [List.forall_mem_cons] at hlater
    obtain ⟨hvolatility, hearnings, hcorporate, hcalibration, _⟩ := hlater
    exact ⟨hlabel, hpurge, hembargo, hvolatility, hearnings, hcorporate, hcalibration, hsymbol,
      hregime, fun _ h => absurd h List.not_mem_nil⟩

/-! ### One pass -/

namespace CpcvArguments

/-- What a pass over a choice of test groups leaves behind. -/
structure Splits (args : CpcvArguments) (ordered : List ValidationRecord) (ids : List ℕ)
    (survivors : List ValidationRecord) (split : CpcvSplit) : Prop where
  testGroupIds : split.testGroupIds = ids
  period : args.IsPeriod (args.testRecords ordered ids) split.period
  inRange : args.InRange split.period.testStart split.period.testEnd
  filtered : applyLeakageFilters (args.trainRecords ordered ids) split.period args.symbolAware
    args.regimeAware = .ok (survivors, split.leakageWarnings)
  trainStart : earliest survivors = .ok split.trainStart
  trainCount : split.trainCount = survivors.length

theorem splitFor_spec (h : args.splitFor ordered ids = .ok split) :
    ∃ filtered, args.Splits ordered ids filtered split := by
  obtain ⟨period, hperiod, h⟩ := except_bind_eq_ok.mp h
  obtain ⟨⟨filtered, warnings⟩, hfiltered, h⟩ := except_bind_eq_ok.mp h
  obtain ⟨trainStart, hstart, h⟩ := except_bind_eq_ok.mp h
  obtain ⟨trainEnd, _, h⟩ := except_bind_eq_ok.mp h
  cases h
  obtain ⟨hperiod, hrange⟩ := testPeriod_eq_ok_iff.mp hperiod
  exact ⟨filtered, rfl, hperiod, hrange, hfiltered, hstart, rfl⟩

/-- A pass returns where the period exists, every training record can be judged and one is left. -/
theorem exists_splitFor (hperiod : args.IsPeriod (args.testRecords ordered ids) period)
    (hrange : args.InRange period.testStart period.testEnd)
    (hjudged : ∀ record ∈ args.trainRecords ordered ids, ∃ leak,
      leakOf (args.trainRecords ordered ids) period args.symbolAware args.regimeAware record =
        .ok leak)
    (hleft : ∃ record ∈ args.trainRecords ordered ids,
      leakOf (args.trainRecords ordered ids) period args.symbolAware args.regimeAware record =
        .ok none) : ∃ split, args.splitFor ordered ids = .ok split := by
  obtain ⟨⟨filtered, warnings⟩, hfiltered⟩ := exists_applyLeakageFilters_iff.mpr hjudged
  obtain ⟨record, hrecord⟩ := hleft
  have hne : filtered ≠ [] := by
    rintro rfl
    exact absurd (((applyLeakageFilters_spec hfiltered).1 record).mpr hrecord) List.not_mem_nil
  obtain ⟨trainStart, hstart⟩ := exists_earliest_iff.mpr hne
  obtain ⟨trainEnd, hend⟩ := exists_latest_iff.mpr hne
  exact exists_bind_eq_ok (testPeriod_eq_ok_iff.mpr ⟨hperiod, hrange⟩)
    (exists_bind_eq_ok hfiltered (exists_bind_eq_ok hstart (exists_bind_eq_ok hend ⟨_, rfl⟩)))

theorem mem_of_mem_trainRecords {record : ValidationRecord}
    (h : record ∈ args.trainRecords ordered ids) : record ∈ ordered := by
  have hbelow : ∀ g ∈ args.trainGroupIds ids, g < args.nGroups.toNat := fun g hg =>
    List.mem_range.mp (List.mem_of_mem_filter hg)
  obtain ⟨i, hi, _⟩ := (mem_itemsOf hbelow).mp h
  exact List.mem_of_getElem? hi

theorem IsPeriod.le (h : args.IsPeriod records period) : period.testStart ≤ period.testEnd := by
  obtain ⟨record, hrecord, hstart⟩ := (earliest_spec h.testStart).1
  exact hstart ▸ (latest_spec h.testEnd).2 record hrecord

end CpcvArguments

/-! ### The run -/

/-- The arguments that the checks of the function let through. -/
structure CpcvArguments.Accepted (args : CpcvArguments) : Prop where
  one_lt_nGroups : 1 < args.nGroups
  one_le_nTestGroups : 1 ≤ args.nTestGroups
  nTestGroups_lt : args.nTestGroups < args.nGroups

theorem generateCpcvSplits_spec (h : generateCpcvSplits records args = .ok result) :
    records ≠ [] ∧ args.Accepted ∧ SameAwareness records ∧
      args.testGroupChoices.mapM (args.splitFor (sortBy recordKey records)) = .ok result.splits ∧
      result.warnings = result.splits.flatMap (·.leakageWarnings) := by
  rw [generateCpcvSplits] at h
  split_ifs at h with hempty hgroups htest
  · obtain ⟨ordered, hordered, h⟩ := except_bind_eq_ok.mp h
    rw [sortRecords] at hordered
    split_ifs at hordered with hsame
    cases hordered
    obtain ⟨splits, hsplits, h⟩ := except_bind_eq_ok.mp h
    cases h
    rw [not_or] at htest
    exact ⟨by simpa using hempty, ⟨by omega, by omega, by omega⟩, hsame, hsplits, rfl⟩

theorem exists_generateCpcvSplits (hne : records ≠ []) (hargs : args.Accepted)
    (hsame : SameAwareness records)
    (hsplits : ∀ ids ∈ args.testGroupChoices,
      ∃ split, args.splitFor (sortBy recordKey records) ids = .ok split) :
    ∃ result, generateCpcvSplits records args = .ok result := by
  have hgroups := hargs.one_lt_nGroups
  have htest := hargs.one_le_nTestGroups
  have hlt := hargs.nTestGroups_lt
  obtain ⟨splits, hsplits⟩ := exists_mapM_eq_ok hsplits
  rw [generateCpcvSplits, if_neg (by simpa using hne), if_neg (by omega), if_neg (by omega)]
  exact exists_bind_eq_ok (if_pos hsame) (exists_bind_eq_ok hsplits ⟨_, rfl⟩)

/-- Every split is that of a choice, and every choice has one. -/
theorem splits_spec (h : generateCpcvSplits records args = .ok result) :
    (∀ split ∈ result.splits, ∃ ids ∈ args.testGroupChoices, ∃ filtered,
      args.Splits (sortBy recordKey records) ids filtered split) ∧
    ∀ ids ∈ args.testGroupChoices, ∃ split ∈ result.splits, ∃ filtered,
      args.Splits (sortBy recordKey records) ids filtered split := by
  obtain ⟨_, _, _, hsplits, _⟩ := generateCpcvSplits_spec h
  obtain ⟨hitems, hfrom⟩ := mapM_eq_ok_mem hsplits
  constructor
  · intro split hsplit
    obtain ⟨ids, hids, hfor⟩ := hfrom split hsplit
    exact ⟨ids, hids, CpcvArguments.splitFor_spec hfor⟩
  · intro ids hids
    obtain ⟨split, hsplit, hfor⟩ := hitems ids hids
    exact ⟨split, hsplit, CpcvArguments.splitFor_spec hfor⟩

/-! ### The first choice -/

theorem timestamp_le_of_recordKey_le {record other : ValidationRecord}
    (h : recordKey record ≤ recordKey other) : record.timestamp ≤ other.timestamp := by
  rcases Prod.Lex.le_iff.mp h with hlt | ⟨heq, _⟩
  · exact le_of_lt hlt
  · exact DateTime.le_iff.mpr heq.le

/-- In the first choice no training record is before the test period. -/
theorem testStart_le_of_first (hargs : args.Accepted)
    (hperiod : args.IsPeriod (args.testRecords (sortBy recordKey records)
      ((List.range args.nGroups.toNat).take args.nTestGroups.toNat)) period)
    {record : ValidationRecord} (hrecord : record ∈ records) :
    period.testStart ≤ record.timestamp := by
  have hgroups := hargs.one_lt_nGroups
  have htest := hargs.one_le_nTestGroups
  rcases hordered : sortBy recordKey records with _ | ⟨first, rest⟩
  · exact absurd (hordered ▸ mem_sortBy.mpr hrecord) List.not_mem_nil
  · have hhead : (sortBy recordKey records).head? = some first := by rw [hordered]; rfl
    have hfirst : first ∈ args.testRecords (sortBy recordKey records)
        ((List.range args.nGroups.toNat).take args.nTestGroups.toNat) := by
      refine (mem_itemsOf fun g hg => List.mem_range.mp (List.mem_of_mem_take hg)).mpr ⟨0, ?_, ?_⟩
      · rw [hordered]
        rfl
      · rw [Nat.zero_mod, List.mem_take_iff_getElem]
        refine ⟨0, ?_, List.getElem_range _⟩
        rw [List.length_range]
        omega
    exact ((earliest_spec hperiod.testStart).2 first hfirst).trans
      (timestamp_le_of_recordKey_le ((head?_sortBy hhead).2 record hrecord))

/-- A run that returns has not been told to keep out symbols or regimes. -/
theorem not_aware_of_generateCpcvSplits (h : generateCpcvSplits records args = .ok result) :
    args.symbolAware = false ∧ args.regimeAware = false := by
  obtain ⟨_, hargs, _⟩ := generateCpcvSplits_spec h
  have hlt := hargs.nTestGroups_lt
  have hfirst : (List.range args.nGroups.toNat).take args.nTestGroups.toNat ∈
      args.testGroupChoices := by
    refine List.mem_of_mem_head? (head?_combinations ?_)
    rw [List.length_range]
    omega
  obtain ⟨split, _, filtered, hsplit⟩ := (splits_spec h).2 _ hfirst
  obtain ⟨⟨record, hrecord, _⟩, _⟩ := earliest_spec hsplit.trainStart
  obtain ⟨hrecord, hleak⟩ := ((applyLeakageFilters_spec hsplit.filtered).1 record).mp hrecord
  have hlate : record ∈ (args.trainRecords (sortBy recordKey records)
      ((List.range args.nGroups.toNat).take args.nTestGroups.toNat)).filter
        (split.period.testStart ≤ ·.timestamp) :=
    List.mem_filter.mpr ⟨hrecord, decide_eq_true (testStart_le_of_first hargs hsplit.period
      (mem_sortBy.mp (CpcvArguments.mem_of_mem_trainRecords hrecord)))⟩
  have hpasses := leakOf_eq_none_iff.mp hleak
  have hsymbol := hpasses.symbol
  have hregime := hpasses.regime
  rw [decide_eq_true (List.mem_map_of_mem hlate), Bool.and_true] at hsymbol hregime
  exact ⟨hsymbol, hregime⟩

/-- The training records of a split that the filter leaves. -/
def CpcvSplit.Leaves (args : CpcvArguments) (ordered : List ValidationRecord) (split : CpcvSplit)
    (survivors : List ValidationRecord) : Prop :=
  applyLeakageFilters (args.trainRecords ordered split.testGroupIds) split.period args.symbolAware
    args.regimeAware = .ok (survivors, split.leakageWarnings) ∧
  split.trainCount = survivors.length

def recordAt (wall : Int) : ValidationRecord :=
  { timestamp := ⟨wall, none⟩, symbol := "SPY", regime := "calm", candidateId := "condor" }

def threeRecords : List ValidationRecord := [recordAt 0, recordAt 1, recordAt 2]

def plainArguments : CpcvArguments :=
  { nGroups := 2, nTestGroups := 1, symbolAware := false, regimeAware := false }

/-- The record is out of the test period, its label does not run into it, and it is neither purged
nor embargoed. -/
structure Separated (args : CpcvArguments) (period : TestPeriod) (record : ValidationRecord) :
    Prop where
  outside : ¬ (period.testStart ≤ record.timestamp ∧ record.timestamp ≤ period.testEnd)
  label : ∀ labelEnd ∈ record.labelEndTimestamp,
    ¬ (period.testStart ≤ labelEnd ∧ record.timestamp < period.testEnd)
  purge : ¬ (period.testStart.addDays (-args.purgeDays) ≤ record.timestamp ∧
    record.timestamp < period.testStart)
  embargo : ¬ (period.testEnd < record.timestamp ∧
    record.timestamp ≤ period.testEnd.addDays args.embargoDays)

/-- A check other than the purge catches the record. -/
def CaughtElsewhere (testStart : DateTime) (record : ValidationRecord) : Prop :=
  (∃ labelEnd ∈ record.labelEndTimestamp, testStart ≤ labelEnd) ∨
  ∃ stamp ∈ [record.volatilitySnapshotTimestamp, record.earningsEventTimestamp,
    record.corporateActionTimestamp, record.calibrationTimestamp], ∃ t ∈ stamp, testStart < t

/-- Without a purge, every training record within the test period is caught by another check. -/
def CpcvArguments.InsideCaught (args : CpcvArguments) (ordered : List ValidationRecord) : Prop :=
  ∀ ids ∈ args.testGroupChoices, ∀ testStart testEnd,
    earliest (args.testRecords ordered ids) = .ok testStart →
    latest (args.testRecords ordered ids) = .ok testEnd →
    ∀ record ∈ args.trainRecords ordered ids, testStart ≤ record.timestamp →
      record.timestamp ≤ testEnd → CaughtElsewhere testStart record

theorem notBefore_eq_true {stamp : Option DateTime} {bound : DateTime}
    (h : notBefore stamp bound = .ok true) : ∃ t ∈ stamp, bound ≤ t := by
  cases stamp with
  | none => cases h
  | some t =>
      rw [notBefore, DateTime.compared] at h
      split_ifs at h
      exact ⟨t, rfl, of_decide_eq_true (Except.ok.inj h)⟩

theorem after_eq_true {stamp : Option DateTime} {bound : DateTime}
    (h : after stamp bound = .ok true) : ∃ t ∈ stamp, bound < t := by
  cases stamp with
  | none => cases h
  | some t =>
      rw [after, DateTime.compared] at h
      split_ifs at h
      exact ⟨t, rfl, of_decide_eq_true (Except.ok.inj h)⟩

theorem not_le_of_notBefore {t bound : DateTime} (h : notBefore (some t) bound = .ok false) :
    ¬ bound ≤ t := by
  rw [notBefore, DateTime.compared] at h
  split_ifs at h
  exact of_decide_eq_false (Except.ok.inj h)

theorem not_lt_of_after {t bound : DateTime} (h : after (some t) bound = .ok false) :
    ¬ bound < t := by
  rw [after, DateTime.compared] at h
  split_ifs at h
  exact of_decide_eq_false (Except.ok.inj h)

/-- A verdict comes from a check that catches. -/
theorem exists_of_firstLeak {checks : List (Except Exc Bool × String)} {warning : String}
    (h : firstLeak checks = .ok (some warning)) : ∃ check ∈ checks, check.1 = .ok true := by
  induction checks with
  | nil => cases h
  | cons check rest ih =>
      obtain ⟨verdict, text⟩ := check
      rw [firstLeak] at h
      rcases verdict with e | _ | _
      · cases h
      · obtain ⟨check, hcheck, hcatches⟩ := ih h
        exact ⟨check, List.mem_cons_of_mem _ hcheck, hcatches⟩
      · exact ⟨_, List.mem_cons_self, rfl⟩

section Period

variable {record : ValidationRecord}

theorem purges_iff (hperiod : args.IsPeriod records period) (record : ValidationRecord) :
    period.purges record = true ↔
    args.purgeDays ≠ 0 ∧ period.testStart.addDays (-args.purgeDays) ≤ record.timestamp ∧
      record.timestamp ≤ period.testEnd := by
  rw [TestPeriod.purges, hperiod.purgeStart]
  split_ifs with hzero
  · exact iff_of_false Bool.false_ne_true fun h => h.1 hzero
  · rw [Option.any_some, Bool.and_eq_true, decide_eq_true_iff, decide_eq_true_iff]
    exact (and_iff_right hzero).symm

theorem embargoes_iff (hperiod : args.IsPeriod records period) (record : ValidationRecord) :
    period.embargoes record = true ↔
    args.embargoDays ≠ 0 ∧ period.testEnd < record.timestamp ∧
      record.timestamp ≤ period.testEnd.addDays args.embargoDays := by
  rw [TestPeriod.embargoes, hperiod.embargoEnd]
  split_ifs with hzero
  · exact iff_of_false Bool.false_ne_true fun h => h.1 hzero
  · rw [Option.any_some, Bool.and_eq_true, decide_eq_true_iff, decide_eq_true_iff]
    exact (and_iff_right hzero).symm

/-- Within the period an unpurged record passes, or is caught by a check of what it carries. -/
theorem caughtElsewhere_of_leak {warning : String} (hperiod : args.IsPeriod records period)
    (hpurge : args.purgeDays = 0) (hend : record.timestamp ≤ period.testEnd)
    (h : leakOf ordered period false false record = .ok (some warning)) :
    CaughtElsewhere period.testStart record := by
  obtain ⟨check, hcheck, hcatches⟩ := exists_of_firstLeak h
  simp only [TestPeriod.checks, List.mem_cons, List.not_mem_nil, or_false] at hcheck
  rcases hcheck with rfl | rfl | rfl | rfl | rfl | rfl | rfl | rfl | rfl
  · exact .inl (notBefore_eq_true hcatches)
  · exact absurd hpurge ((purges_iff hperiod record).mp (Except.ok.inj hcatches)).1
  · exact absurd ((embargoes_iff hperiod record).mp (Except.ok.inj hcatches)).2.1
      (DateTime.not_lt_iff.mpr hend)
  · exact .inr ⟨_, .head _, after_eq_true hcatches⟩
  · exact .inr ⟨_, .tail _ (.head _), after_eq_true hcatches⟩
  · exact .inr ⟨_, .tail _ (.tail _ (.head _)), after_eq_true hcatches⟩
  · exact .inr ⟨_, .tail _ (.tail _ (.tail _ (.head _))), after_eq_true hcatches⟩
  · cases hcatches
  · cases hcatches

theorem Passes.not_caughtElsewhere {symbolAware regimeAware : Bool}
    (h : Passes ordered period symbolAware regimeAware record) :
    ¬ CaughtElsewhere period.testStart record := by
  rintro (⟨labelEnd, hlabel, hle⟩ | ⟨stamp, hstamp, t, ht, hlt⟩)
  · have hcheck := h.label
    rw [hlabel] at hcheck
    exact not_le_of_notBefore hcheck hle
  · have hcheck := h.later stamp hstamp
    rw [ht] at hcheck
    exact not_lt_of_after hcheck hlt

/-- A record that passes is separated from the period, unless it is within it and unpurged. -/
theorem Passes.separated {symbolAware regimeAware : Bool}
    (h : Passes ordered period symbolAware regimeAware record)
    (hperiod : args.IsPeriod records period)
    (hinside : 0 < args.purgeDays ∨
      ¬ (period.testStart ≤ record.timestamp ∧ record.timestamp ≤ period.testEnd)) :
    Separated args period record := by
  have hpurges := (purges_iff hperiod record).not.mp (Bool.not_eq_true _ ▸ h.purge)
  have hembargoes :=
    (embargoes_iff hperiod record).not.mp (Bool.not_eq_true _ ▸ h.embargo)
  have hle := hperiod.le
  simp only [DateTime.le_iff, DateTime.lt_iff, DateTime.instant_addDays] at hpurges hembargoes
  simp only [DateTime.le_iff] at hinside hle
  constructor
  · simp only [DateTime.le_iff]
    omega
  · intro labelEnd hlabel hleak
    exact h.not_caughtElsewhere (.inl ⟨labelEnd, hlabel, hleak.1⟩)
  · simp only [DateTime.le_iff, DateTime.lt_iff, DateTime.instant_addDays]
    omega
  · simp only [DateTime.le_iff, DateTime.lt_iff, DateTime.instant_addDays]
    omega

end Period

/-- Where the function returns, its splits keep the training records out of the test periods exactly
where it purges, or where other checks catch every training record within a test period. -/
theorem generateCpcvSplits_separated_iff (h : generateCpcvSplits records args = .ok result)
    (hpurge : 0 ≤ args.purgeDays) :
    (∀ split ∈ result.splits, ∃ survivors,
      split.Leaves args (sortBy recordKey records) survivors ∧
        ∀ record ∈ survivors, Separated args split.period record) ↔
      0 < args.purgeDays ∨ args.InsideCaught (sortBy recordKey records) := by
  obtain ⟨hsymbol, hregime⟩ := not_aware_of_generateCpcvSplits h
  obtain ⟨hevery, hsome⟩ := splits_spec h
  constructor
  · intro hseparated
    rcases hpurge.lt_or_eq with hpos | hzero
    · exact .inl hpos
    · refine .inr fun ids hids testStart testEnd hstart hend record hrecord hle hge => ?_
      obtain ⟨split, hsplit, survivors, hfor⟩ := hsome ids hids
      obtain rfl := Except.ok.inj (hfor.period.testStart.symm.trans hstart)
      obtain rfl := Except.ok.inj (hfor.period.testEnd.symm.trans hend)
      obtain ⟨leak, hleak⟩ := exists_applyLeakageFilters_iff.mp ⟨_, hfor.filtered⟩ record hrecord
      rw [hsymbol, hregime] at hleak
      cases leak with
      | some warning => exact caughtElsewhere_of_leak hfor.period hzero.symm hge hleak
      | none =>
          -- the record is left, and within the period
          obtain ⟨survivors', ⟨hleft, _⟩, hall⟩ := hseparated split hsplit
          have hmem := ((applyLeakageFilters_spec hleft).1 record).mpr
            ⟨hfor.testGroupIds.symm ▸ hrecord, ?_⟩
          · exact absurd ⟨hle, hge⟩ (hall record hmem).outside
          · rw [hfor.testGroupIds, hsymbol, hregime]
            exact hleak
  · intro hcondition split hsplit
    obtain ⟨ids, hids, survivors, hfor⟩ := hevery split hsplit
    refine ⟨survivors, ⟨hfor.testGroupIds.symm ▸ hfor.filtered, hfor.trainCount⟩, ?_⟩
    intro record hrecord
    obtain ⟨hrecord, hleak⟩ := ((applyLeakageFilters_spec hfor.filtered).1 record).mp hrecord
    have hpasses := leakOf_eq_none_iff.mp hleak
    refine hpasses.separated hfor.period (hcondition.imp_right fun hcaught hinside => ?_)
    exact hpasses.not_caughtElsewhere (hcaught ids hids _ _ hfor.period.testStart
      hfor.period.testEnd record hrecord hinside.1 hinside.2)

theorem generateCpcvSplits_separated_iff_three :
    ∃ result, generateCpcvSplits threeRecords plainArguments = .ok result ∧
      ((∀ split ∈ result.splits, ∃ survivors,
        split.Leaves plainArguments (sortBy recordKey threeRecords) survivors ∧
          ∀ record ∈ survivors, Separated plainArguments split.period record) ↔
        0 < plainArguments.purgeDays ∨
          plainArguments.InsideCaught (sortBy recordKey threeRecords)) := by
  obtain ⟨result, h⟩ : ∃ result, generateCpcvSplits threeRecords plainArguments = .ok result :=
    ⟨_, rfl⟩
  exact ⟨result, h, generateCpcvSplits_separated_iff h le_rfl⟩

/-- The second record is dealt to the training group, between the two test records. -/
theorem not_separated_three :
    (0 ≤ plainArguments.purgeDays ∧ 0 ≤ plainArguments.embargoDays) ∧
    ∃ result, generateCpcvSplits threeRecords plainArguments = .ok result ∧
      ¬ ∀ split ∈ result.splits, ∃ survivors,
        split.Leaves plainArguments (sortBy recordKey threeRecords) survivors ∧
          ∀ record ∈ survivors, Separated plainArguments split.period record := by
  refine ⟨⟨le_rfl, le_rfl⟩, _, rfl, fun h => ?_⟩
  obtain ⟨survivors, ⟨hleft, _⟩, hall⟩ := h _ List.mem_cons_self
  cases hleft
  exact (hall (recordAt 1) List.mem_cons_self).outside ⟨by decide, by decide⟩

/-! ### When the function returns -/

/-- An error of the language, not of the function. -/
def Foreign {α : Type} (x : Except Exc α) : Prop :=
  ∀ e, x = .error e → e.kind ≠ .other "ValidationDataError"

section Foreign

variable {α β : Type}

theorem foreign_ok (a : α) : Foreign (.ok a : Except Exc α) := fun _ h => nomatch h

theorem foreign_error {e : Exc} (h : e.kind ≠ .other "ValidationDataError") :
    Foreign (.error e : Except Exc α) := by
  intro e' he
  cases he
  exact h

theorem Foreign.bind {x : Except Exc α} {f : α → Except Exc β} (hx : Foreign x)
    (hf : ∀ a, Foreign (f a)) : Foreign (x >>= f) := by
  cases x with
  | ok a => exact hf a
  | error e => exact foreign_error (hx e rfl)

theorem foreign_mapM {f : α → Except Exc β} (hf : ∀ a, Foreign (f a)) (items : List α) :
    Foreign (items.mapM f) := by
  induction items with
  | nil => exact foreign_ok _
  | cons item rest ih =>
      rw [List.mapM_cons]
      exact (hf item).bind fun _ => ih.bind fun _ => foreign_ok _

theorem foreign_earliest (records : List ValidationRecord) : Foreign (earliest records) := by
  cases records with
  | nil => exact foreign_error (by decide)
  | cons record rest => exact foreign_ok _

theorem foreign_latest (records : List ValidationRecord) : Foreign (latest records) := by
  cases records with
  | nil => exact foreign_error (by decide)
  | cons record rest => exact foreign_ok _

theorem foreign_moved (days : Int) (t : Int → DateTime) :
    Foreign (OrdinalDate.timedelta days >>= fun delta => (t delta).checked) := by
  refine Foreign.bind ?_ fun delta => ?_
  · rw [OrdinalDate.timedelta]
    split_ifs
    · exact foreign_error (by simp)
    · exact foreign_ok _
  · rw [DateTime.checked]
    split_ifs
    · exact foreign_ok _
    · exact foreign_error (by decide)

theorem foreign_bound {days : Int} {moved : Int → Except Exc DateTime}
    (h : Foreign (moved days)) : Foreign (CpcvArguments.bound days moved) := by
  rw [CpcvArguments.bound]
  split_ifs
  · exact foreign_ok _
  · exact h.bind fun _ => foreign_ok _

theorem foreign_compared (t u : DateTime) (verdict : Bool) : Foreign (t.compared u verdict) := by
  rw [DateTime.compared]
  split_ifs
  · exact foreign_ok _
  · exact foreign_error (by decide)

theorem foreign_firstLeak {checks : List (Except Exc Bool × String)}
    (h : ∀ check ∈ checks, Foreign check.1) : Foreign (firstLeak checks) := by
  induction checks with
  | nil => exact foreign_ok _
  | cons check rest ih =>
      rw [List.forall_mem_cons] at h
      refine h.1.bind fun caught => ?_
      split_ifs
      · exact foreign_ok _
      · exact ih h.2

theorem foreign_stamp (stamp : Option DateTime) (bound : DateTime) :
    Foreign (notBefore stamp bound) ∧ Foreign (after stamp bound) := by
  cases stamp with
  | none => exact ⟨foreign_ok _, foreign_ok _⟩
  | some t => exact ⟨foreign_compared _ _ _, foreign_compared _ _ _⟩

theorem foreign_leakOf (symbolAware regimeAware : Bool) (record : ValidationRecord) :
    Foreign (leakOf records period symbolAware regimeAware record) := by
  refine foreign_firstLeak ?_
  simp only [TestPeriod.checks, List.forall_mem_cons]
  exact ⟨(foreign_stamp _ _).1, foreign_ok _, foreign_ok _, (foreign_stamp _ _).2,
    (foreign_stamp _ _).2, (foreign_stamp _ _).2, (foreign_stamp _ _).2, foreign_ok _,
    foreign_ok _, fun _ h => absurd h List.not_mem_nil⟩

theorem foreign_splitFor (args : CpcvArguments) (ordered : List ValidationRecord)
    (ids : List ℕ) : Foreign (args.splitFor ordered ids) := by
  have hperiod : Foreign (args.testPeriod (args.testRecords ordered ids)) :=
    (foreign_earliest _).bind fun _ => (foreign_latest _).bind fun _ =>
      (foreign_bound (foreign_moved _ _)).bind fun _ =>
        (foreign_bound (foreign_moved _ _)).bind fun _ => foreign_ok _
  refine hperiod.bind fun period => Foreign.bind ?_ fun _ =>
    (foreign_earliest _).bind fun _ => (foreign_latest _).bind fun _ => foreign_ok _
  refine (foreign_mapM (fun record => (foreign_leakOf _ _ record).bind fun _ => foreign_ok _)
    _).bind fun verdicts => ?_
  dsimp only
  split_ifs <;> exact foreign_ok _

end Foreign

/-- The function either refuses its input or returns one split for every choice of test groups, and
says so where a split is left without training records. -/
def SplitsOrRefuses (records : List ValidationRecord) (args : CpcvArguments) : Prop :=
  (∃ e, generateCpcvSplits records args = .error e ∧ e.kind = .other "ValidationDataError") ∨
  ∃ result, generateCpcvSplits records args = .ok result ∧
    result.splits.map (·.testGroupIds) = args.testGroupChoices ∧
    ∀ split ∈ result.splits, ∃ survivors,
      split.Leaves args (sortBy recordKey records) survivors ∧ (survivors = [] →
        "all training records were filtered out by leakage controls" ∈ result.warnings)

/-- A naive and an aware timestamp only meet behind a check that catches the record. -/
def Judged (checks : List (Except Exc Bool × String)) : Prop :=
  ∀ before check rest, checks = before ++ check :: rest →
    (∀ earlier ∈ before, earlier.1 = .ok false) → ∃ caught, check.1 = .ok caught

theorem exists_firstLeak_iff {checks : List (Except Exc Bool × String)} :
    (∃ leak, firstLeak checks = .ok leak) ↔ Judged checks := by
  induction checks with
  | nil => exact iff_of_true ⟨_, rfl⟩ fun before check rest h => by simp at h
  | cons check rest ih =>
      obtain ⟨verdict, warning⟩ := check
      rcases verdict with e | _ | _
      · refine iff_of_false (fun ⟨_, h⟩ => nomatch h) fun h => ?_
        obtain ⟨caught, hcaught⟩ := h [] _ rest rfl fun _ h => absurd h List.not_mem_nil
        cases hcaught
      · rw [show firstLeak ((.ok false, warning) :: rest) = firstLeak rest from rfl, ih]
        constructor
        · rintro h (_ | ⟨first, before⟩) check rest' hsplit hbefore
          · cases hsplit
            exact ⟨_, rfl⟩
          · exact h before check rest' (List.cons.inj hsplit).2 (List.forall_mem_cons.mp hbefore).2
        · intro h before check rest' hsplit hbefore
          exact h (_ :: before) check rest' (congrArg _ hsplit)
            (List.forall_mem_cons.mpr ⟨rfl, hbefore⟩)
      · refine iff_of_true ⟨_, rfl⟩ fun before check rest' hsplit hbefore => ?_
        cases before with
        | nil =>
            cases hsplit
            exact ⟨_, rfl⟩
        | cons first before =>
            cases hsplit
            cases (List.forall_mem_cons.mp hbefore).1

/-- Timestamps can be compared, nothing is kept out by symbol or regime, every choice of test groups
has a record, and for each of them the calendar has the purge and the embargo, every training record
can be judged and one of them passes. -/
structure CanSplit (records : List ValidationRecord) (args : CpcvArguments) : Prop where
  sameAwareness : SameAwareness records
  notAware : args.symbolAware = false ∧ args.regimeAware = false
  reached : args.nGroups < records.length + args.nTestGroups
  choices : ∀ ids ∈ args.testGroupChoices, ∀ period,
    args.IsPeriod (args.testRecords (sortBy recordKey records) ids) period →
      args.InRange period.testStart period.testEnd ∧
      (∀ record ∈ args.trainRecords (sortBy recordKey records) ids,
        Judged (period.checks false false [] [] record)) ∧
      ∃ record ∈ args.trainRecords (sortBy recordKey records) ids,
        Passes (args.trainRecords (sortBy recordKey records) ids) period false false record

theorem CpcvArguments.IsPeriod.unique {period' : TestPeriod} (h : args.IsPeriod records period)
    (h' : args.IsPeriod records period') : period = period' := by
  obtain ⟨testStart, testEnd, purgeStart, embargoEnd⟩ := period
  obtain ⟨testStart', testEnd', purgeStart', embargoEnd'⟩ := period'
  obtain rfl : testStart = testStart' := Except.ok.inj (h.testStart.symm.trans h'.testStart)
  obtain rfl : testEnd = testEnd' := Except.ok.inj (h.testEnd.symm.trans h'.testEnd)
  obtain rfl : purgeStart = purgeStart' := h.purgeStart.trans h'.purgeStart.symm
  obtain rfl : embargoEnd = embargoEnd' := h.embargoEnd.trans h'.embargoEnd.symm
  rfl

/-- Every choice of test groups has a record exactly where too few groups are empty. -/
theorem forall_testRecords_ne_nil_iff (ordered : List ValidationRecord) (hargs : args.Accepted) :
    (∀ ids ∈ args.testGroupChoices, args.testRecords ordered ids ≠ []) ↔
      args.nGroups < ordered.length + args.nTestGroups := by
  have hgroups := hargs.one_lt_nGroups
  have htest := hargs.one_le_nTestGroups
  have hlt := hargs.nTestGroups_lt
  refine (forall_itemsOf_ne_nil_iff (by omega) (by omega)).trans ?_
  omega

theorem returns_iff (hne : records ≠ []) (hargs : args.Accepted) :
    (∃ result, generateCpcvSplits records args = .ok result) ↔ CanSplit records args := by
  have hlength : (sortBy recordKey records).length = records.length := sortBy_perm.length_eq
  constructor
  · rintro ⟨result, h⟩
    obtain ⟨hsymbol, hregime⟩ := not_aware_of_generateCpcvSplits h
    obtain ⟨_, _, hsame, _⟩ := generateCpcvSplits_spec h
    obtain ⟨_, hsome⟩ := splits_spec h
    refine ⟨hsame, ⟨hsymbol, hregime⟩, ?_, fun ids hids period hperiod => ?_⟩
    · rw [← hlength, ← forall_testRecords_ne_nil_iff _ hargs]
      intro ids hids
      obtain ⟨split, _, _, hfor⟩ := hsome ids hids
      exact exists_earliest_iff.mp ⟨_, hfor.period.testStart⟩
    · obtain ⟨split, _, survivors, hfor⟩ := hsome ids hids
      obtain rfl := hfor.period.unique hperiod
      have hfiltered := hfor.filtered
      rw [hsymbol, hregime] at hfiltered
      obtain ⟨⟨record, hrecord, _⟩, _⟩ := earliest_spec hfor.trainStart
      obtain ⟨hmem, hleak⟩ := ((applyLeakageFilters_spec hfiltered).1 record).mp hrecord
      exact ⟨hfor.inRange, fun record hrecord => exists_firstLeak_iff.mp
        (exists_applyLeakageFilters_iff.mp ⟨_, hfiltered⟩ record hrecord), record, hmem,
        leakOf_eq_none_iff.mp hleak⟩
  · intro h
    refine exists_generateCpcvSplits hne hargs h.sameAwareness fun ids hids => ?_
    have hrecords := (forall_testRecords_ne_nil_iff (sortBy recordKey records) hargs).mpr
      (hlength.symm ▸ h.reached) ids hids
    obtain ⟨testStart, hstart⟩ := exists_earliest_iff.mpr hrecords
    obtain ⟨testEnd, hend⟩ := exists_latest_iff.mpr hrecords
    have hperiod : args.IsPeriod (args.testRecords (sortBy recordKey records) ids)
        ⟨testStart, testEnd,
          if args.purgeDays = 0 then none else some (testStart.addDays (-args.purgeDays)),
          if args.embargoDays = 0 then none else some (testEnd.addDays args.embargoDays)⟩ :=
      ⟨hstart, hend, rfl, rfl⟩
    obtain ⟨hrange, hjudged, record, hrecord, hpasses⟩ := h.choices ids hids _ hperiod
    refine CpcvArguments.exists_splitFor hperiod hrange ?_ ⟨record, hrecord, ?_⟩
    · rw [h.notAware.1, h.notAware.2]
      exact fun record hrecord => exists_firstLeak_iff.mpr (hjudged record hrecord)
    · rw [h.notAware.1, h.notAware.2]
      exact leakOf_eq_none_iff.mpr hpasses

/-- On arguments that its checks let through, the function refuses or splits exactly where it can
split. -/
theorem generateCpcvSplits_total_iff (hne : records ≠ []) (hargs : args.Accepted) :
    SplitsOrRefuses records args ↔ CanSplit records args := by
  rw [← returns_iff hne hargs]
  constructor
  · rintro (⟨e, h, hkind⟩ | ⟨result, h, _⟩)
    · have hgroups := hargs.one_lt_nGroups
      have htest := hargs.one_le_nTestGroups
      have hlt := hargs.nTestGroups_lt
      have hforeign : Foreign (generateCpcvSplits records args) := by
        rw [generateCpcvSplits, if_neg (by simpa using hne), if_neg (by omega), if_neg (by omega)]
        refine Foreign.bind ?_ fun ordered =>
          (foreign_mapM (foreign_splitFor args ordered) _).bind fun _ => foreign_ok _
        rw [sortRecords]
        split_ifs
        · exact foreign_ok _
        · exact foreign_error (by decide)
      exact absurd hkind (hforeign e h)
    · exact ⟨result, h⟩
  · rintro ⟨result, h⟩
    obtain ⟨_, _, _, hsplits, hwarnings⟩ := generateCpcvSplits_spec h
    refine .inr ⟨result, h, ?_, fun split hsplit => ?_⟩
    · have hids := map_eq_of_mapM_eq_ok (g := CpcvSplit.testGroupIds) (h := id) hsplits
        fun ids split hfor => (CpcvArguments.splitFor_spec hfor).choose_spec.testGroupIds
      rwa [List.map_id] at hids
    · obtain ⟨ids, _, survivors, hfor⟩ := (splits_spec h).1 split hsplit
      refine ⟨survivors, ⟨hfor.testGroupIds.symm ▸ hfor.filtered, hfor.trainCount⟩, ?_⟩
      intro hempty
      rw [hwarnings]
      exact List.mem_flatMap_of_mem hsplit
        ((applyLeakageFilters_spec hfor.filtered).2 hempty)

theorem generateCpcvSplits_total_iff_three :
    SplitsOrRefuses threeRecords plainArguments ↔ CanSplit threeRecords plainArguments :=
  generateCpcvSplits_total_iff (List.cons_ne_nil _ _) ⟨by decide, by decide, by decide⟩

/-- With the default flags nothing is left to train on, and the least of no timestamps is asked
for. -/
theorem not_splitsOrRefuses_three :
    CpcvArguments.Accepted { nGroups := 2, nTestGroups := 1 } ∧
      ¬ SplitsOrRefuses threeRecords { nGroups := 2, nTestGroups := 1 } := by
  have hrun : generateCpcvSplits threeRecords { nGroups := 2, nTestGroups := 1 } =
    .error ⟨.valueError, "min() iterable argument is empty"⟩ := rfl
  refine ⟨⟨by decide, by decide, by decide⟩, ?_⟩
  rintro (⟨e, h, hkind⟩ | ⟨result, h, _⟩)
  · rw [hrun] at h
    cases h
    cases hkind
  · rw [hrun] at h
    cases h

end OptionResearch
