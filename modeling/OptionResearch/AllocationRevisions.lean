import OptionResearch.AsOfQueries
import Mathlib.Data.List.Perm.Basic

/-!
# Revisions of an allocation

Rows of one candidate revise each other. `allocation_vs_realized_as_of` keeps the revision that
comes last in the container, whatever its time: it reports the latest weights exactly where the
last revision has the weight of a newest one.
-/

namespace OptionResearch.AsOfQueries

open TimedRows

/-- What the query reads of a row up to the as-of time. -/
structure Revision where
  candidate : String
  time : DateTime
  row : Payload

variable (text : PyText) (asOf : DateTime)

/-- The reads of one turn of the comprehension: its test first, then its key. -/
def revisionOf (row : Payload) : Except Exc (Option Revision) := do
  let timestamp ← (← row.item "timestamp").ensureAware
  if timestamp ≤ asOf.ensureAware then
    let candidateId ← row.item "candidate_id"
    return some ⟨text.str candidateId, timestamp, row⟩
  else return none

/-- The revisions up to the as-of time, in the order of their rows. -/
def revisions (rows : List Payload) : List Revision :=
  rows.filterMap fun row => (revisionOf text asOf row).toOption.join

def Readable (rows : List Payload) : Prop :=
  ∀ row ∈ rows, ∃ revision, revisionOf text asOf row = .ok revision

def weightOf (row : Payload) : Except Exc ℚ := text.float (row.get "weight" (.float 0))

/-- The revisions of a candidate. -/
def ofCandidate (key : String) (revs : List Revision) : List Revision :=
  revs.filter fun revision => decide (revision.candidate = key)

/-- The weight is that of a newest revision of the candidate, and nothing where it has none. -/
def LatestWeight (revs : List Revision) (key : String) (weight : ℚ) : Prop :=
  (ofCandidate key revs = [] ∧ weight = 0) ∨
    ∃ revision ∈ ofCandidate key revs,
      (∀ other ∈ ofCandidate key revs, other.time ≤ revision.time) ∧
        weightOf text revision.row = .ok weight

/-- Every candidate with a row up to the as-of time is reported, with its latest weights. -/
def ReportsLatest (selected realized : List Payload) : Prop :=
  ∃ comparisons, allocationVsRealizedAsOf text asOf selected realized = .ok comparisons ∧
    (∀ key, key ∈ comparisons.map (·.candidateId) ↔
      ∃ revision ∈ revisions text asOf selected ++ revisions text asOf realized,
        revision.candidate = key) ∧
    ∀ comparison ∈ comparisons,
      LatestWeight text (revisions text asOf selected) comparison.candidateId
          comparison.selectedWeight ∧
        LatestWeight text (revisions text asOf realized) comparison.candidateId
          comparison.realizedWeight

/-- No two revisions of one candidate have one time. -/
def DistinctTimes (revs : List Revision) : Prop :=
  revs.Pairwise fun left right =>
    left.candidate = right.candidate → left.time.instant ≠ right.time.instant

/-- The order of the rows does not matter. -/
def Unordered (selected realized : List Payload) : Prop :=
  ∀ selected' realized', selected'.Perm selected → realized'.Perm realized →
    allocationVsRealizedAsOf text asOf selected' realized' =
      allocationVsRealizedAsOf text asOf selected realized

/-- The last revision of each candidate has the weight of a newest one. -/
def LastIsLatest (revs : List Revision) : Prop :=
  ∀ key revision, (ofCandidate key revs).getLast? = some revision →
    ∃ weight, weightOf text revision.row = .ok weight ∧ LatestWeight text revs key weight

/-- All revisions of a candidate have one weight. -/
def OneWeight (revs : List Revision) : Prop :=
  ∀ left ∈ revs, ∀ right ∈ revs, left.candidate = right.candidate →
    weightOf text left.row = weightOf text right.row

/-- The weight of the last revision of a candidate. -/
def lastWeight (revs : List Revision) (key : String) : Except Exc ℚ :=
  match (ofCandidate key revs).getLast? with
  | some revision => weightOf text revision.row
  | none => .ok 0

/-- The candidates of both sides, in order. -/
def candidates (left right : List Revision) : List String :=
  StableSort.sortBy id ((left ++ right).map (·.candidate)).dedup

variable {text asOf} {rows rows' selected realized : List Payload} {revs others : List Revision}
  {revision : Revision} {key : String} {weight : ℚ}

/-! ### The dictionary of last revisions -/

theorem mem_ofCandidate : revision ∈ ofCandidate key revs ↔
    revision ∈ revs ∧ revision.candidate = key := by
  rw [ofCandidate, List.mem_filter, decide_eq_true_iff]

/-- `latest[candidate] = row`. -/
def keep (latest : InsertionDict String Payload) (revision : Revision) :
    InsertionDict String Payload := latest.set revision.candidate revision.row

theorem byCandidate_eq_ok_iff {dict : InsertionDict String Payload} :
    byCandidate text asOf rows = .ok dict ↔
      Readable text asOf rows ∧ dict = (revisions text asOf rows).foldl keep .empty := by
  have hstep : (fun (latest : InsertionDict String Payload) (row : Payload) => do
      let timestamp ← (← row.item "timestamp").ensureAware
      if timestamp ≤ asOf.ensureAware then
        let candidateId ← row.item "candidate_id"
        return latest.set (text.str candidateId) row
      else return latest) = fun latest row => do
        let found ← revisionOf text asOf row
        return found.elim latest (keep latest) := by
    funext latest row
    rw [revisionOf]
    dsimp only [bind, Except.bind]
    cases row.item "timestamp" with
    | error e => rfl
    | ok value =>
      dsimp only
      cases value.ensureAware with
      | error e => rfl
      | ok timestamp =>
        dsimp only
        split_ifs
        · cases row.item "candidate_id" <;> rfl
        · rfl
  rw [byCandidate, hstep]
  exact foldlM_read_eq_ok_iff

theorem get?_foldl_keep (dict : InsertionDict String Payload) :
    (revs.foldl keep dict).get? key =
      ((ofCandidate key revs).getLast?.map (·.row)).or (dict.get? key) := by
  induction revs using List.reverseRecOn with
  | nil => rfl
  | append_singleton before revision ih =>
    rw [List.foldl_append, List.foldl_cons, List.foldl_nil, keep, InsertionDict.get?_set, ih]
    simp only [ofCandidate, List.filter_append, List.filter_singleton]
    by_cases hkey : revision.candidate = key
    · rw [if_pos hkey.symm, decide_eq_true hkey, cond_true, List.getLast?_concat]
      rfl
    · rw [if_neg (Ne.symm hkey), decide_eq_false hkey, cond_false, List.append_nil]

theorem mem_keys_foldl_keep :
    key ∈ (revs.foldl keep .empty).entries.map Prod.fst ↔
      ∃ revision ∈ revs, revision.candidate = key := by
  have hnone : (revs.foldl keep .empty).get? key = none ↔ ofCandidate key revs = [] := by
    rw [get?_foldl_keep, InsertionDict.get?_empty, Option.or_none, Option.map_eq_none_iff,
      List.getLast?_eq_none_iff]
  rw [← not_iff_not, ← Entries.lookup_eq_none_iff]
  refine hnone.trans ?_
  rw [ofCandidate, List.filter_eq_nil_iff]
  simp only [decide_eq_true_eq, not_exists, not_and]

theorem weightOf_get?_foldl_keep :
    weightOf text (((revs.foldl keep .empty).get? key).getD []) = lastWeight text revs key := by
  rw [get?_foldl_keep, InsertionDict.get?_empty, Option.or_none, lastWeight]
  cases (ofCandidate key revs).getLast? <;> rfl

theorem mem_candidates : key ∈ candidates revs others ↔
    ∃ revision ∈ revs ++ others, revision.candidate = key := by
  rw [candidates, StableSort.mem_sortBy, List.mem_dedup, List.mem_map]

/-- The candidates depend only on which revisions there are. -/
theorem candidates_congr {revs' others' : List Revision}
    (h : ∀ revision, revision ∈ revs ++ others ↔ revision ∈ revs' ++ others') :
    candidates revs others = candidates revs' others' := by
  apply StableSort.sortBy_eq_of_perm fun _ _ _ _ h => h
  rw [List.perm_ext_iff_of_nodup (List.nodup_dedup _) (List.nodup_dedup _)]
  intro key
  rw [List.mem_dedup, List.mem_dedup, List.mem_map, List.mem_map]
  simp only [h]

/-! ### The answer -/

/-- The comparison of the last weights of a candidate. -/
def compareLast (text : PyText) (revs others : List Revision) (key : String) :
    Except Exc AllocationComparison := do
  let selectedWeight ← lastWeight text revs key
  let realizedWeight ← lastWeight text others key
  return ⟨key, selectedWeight, realizedWeight, realizedWeight - selectedWeight⟩

theorem allocationVsRealized_eq (hselected : Readable text asOf selected)
    (hrealized : Readable text asOf realized) :
    allocationVsRealizedAsOf text asOf selected realized =
      (candidates (revisions text asOf selected) (revisions text asOf realized)).mapM
        (compareLast text (revisions text asOf selected) (revisions text asOf realized)) := by
  have hkeys : StableSort.sortBy id
      ((((revisions text asOf selected).foldl keep .empty).entries.map Prod.fst ++
        ((revisions text asOf realized).foldl keep .empty).entries.map Prod.fst).dedup) =
      candidates (revisions text asOf selected) (revisions text asOf realized) := by
    apply StableSort.sortBy_eq_of_perm fun _ _ _ _ h => h
    rw [List.perm_ext_iff_of_nodup (List.nodup_dedup _) (List.nodup_dedup _)]
    intro key
    rw [List.mem_dedup, List.mem_dedup, List.mem_append, mem_keys_foldl_keep, mem_keys_foldl_keep,
      List.mem_map]
    simp only [List.mem_append, or_and_right, exists_or]
  rw [allocationVsRealizedAsOf, byCandidate_eq_ok_iff.mpr ⟨hselected, rfl⟩,
    byCandidate_eq_ok_iff.mpr ⟨hrealized, rfl⟩]
  change (StableSort.sortBy id _).mapM _ = _
  rw [hkeys]
  congr 1
  funext key
  rw [compareLast, ← weightOf_get?_foldl_keep, ← weightOf_get?_foldl_keep]
  rfl

theorem readable_of_answer {comparisons : List AllocationComparison}
    (h : allocationVsRealizedAsOf text asOf selected realized = .ok comparisons) :
    Readable text asOf selected ∧ Readable text asOf realized := by
  obtain ⟨_, hselected, h⟩ := except_bind_eq_ok.mp h
  obtain ⟨_, hrealized, h⟩ := except_bind_eq_ok.mp h
  exact ⟨(byCandidate_eq_ok_iff.mp hselected).1, (byCandidate_eq_ok_iff.mp hrealized).1⟩

theorem compareLast_eq_ok_iff {comparison : AllocationComparison} :
    compareLast text revs others key = .ok comparison ↔
      lastWeight text revs key = .ok comparison.selectedWeight ∧
        lastWeight text others key = .ok comparison.realizedWeight ∧
        comparison.candidateId = key ∧
        comparison.weightDelta = comparison.realizedWeight - comparison.selectedWeight := by
  constructor
  · intro h
    obtain ⟨_, hselected, h⟩ := except_bind_eq_ok.mp h
    obtain ⟨_, hrealized, h⟩ := except_bind_eq_ok.mp h
    cases h
    exact ⟨hselected, hrealized, rfl, rfl⟩
  · rintro ⟨hselected, hrealized, rfl, hdelta⟩
    obtain ⟨key, selectedWeight, realizedWeight, weightDelta⟩ := comparison
    dsimp only at hdelta
    rw [compareLast, hselected, hrealized, hdelta]
    rfl

/-- Every candidate is compared by its last weights. -/
theorem answer_spec {comparisons : List AllocationComparison}
    (h : allocationVsRealizedAsOf text asOf selected realized = .ok comparisons) :
    (∀ key, key ∈ comparisons.map (·.candidateId) ↔
      ∃ revision ∈ revisions text asOf selected ++ revisions text asOf realized,
        revision.candidate = key) ∧
    ∀ comparison ∈ comparisons,
      lastWeight text (revisions text asOf selected) comparison.candidateId =
          .ok comparison.selectedWeight ∧
        lastWeight text (revisions text asOf realized) comparison.candidateId =
          .ok comparison.realizedWeight := by
  obtain ⟨hselected, hrealized⟩ := readable_of_answer h
  rw [allocationVsRealized_eq hselected hrealized] at h
  obtain ⟨hall, hfrom⟩ := mapM_eq_ok_mem h
  constructor
  · intro key
    rw [← mem_candidates, List.mem_map]
    constructor
    · rintro ⟨comparison, hmem, rfl⟩
      obtain ⟨key, hkey, hcompare⟩ := hfrom comparison hmem
      rw [(compareLast_eq_ok_iff.mp hcompare).2.2.1]
      exact hkey
    · intro hkey
      obtain ⟨comparison, hmem, hcompare⟩ := hall key hkey
      exact ⟨comparison, hmem, (compareLast_eq_ok_iff.mp hcompare).2.2.1⟩
  · intro comparison hmem
    obtain ⟨key, _, hcompare⟩ := hfrom comparison hmem
    obtain ⟨hleft, hright, hid, _⟩ := compareLast_eq_ok_iff.mp hcompare
    rw [hid]
    exact ⟨hleft, hright⟩

/-- Where the last weights are known, so is the answer. -/
theorem exists_answer (hselected : Readable text asOf selected)
    (hrealized : Readable text asOf realized)
    (hleft : ∀ key, ∃ weight, lastWeight text (revisions text asOf selected) key = .ok weight)
    (hright : ∀ key, ∃ weight, lastWeight text (revisions text asOf realized) key = .ok weight) :
    ∃ comparisons, allocationVsRealizedAsOf text asOf selected realized = .ok comparisons := by
  rw [allocationVsRealized_eq hselected hrealized]
  refine exists_mapM_eq_ok fun key _ => ?_
  obtain ⟨selectedWeight, hselectedWeight⟩ := hleft key
  obtain ⟨realizedWeight, hrealizedWeight⟩ := hright key
  exact ⟨⟨key, selectedWeight, realizedWeight, realizedWeight - selectedWeight⟩,
    compareLast_eq_ok_iff.mpr ⟨hselectedWeight, hrealizedWeight, rfl, rfl⟩⟩

/-! ### The latest weights -/

theorem LastIsLatest.exists_lastWeight (h : LastIsLatest text revs) (key : String) :
    ∃ weight, lastWeight text revs key = .ok weight ∧ LatestWeight text revs key weight := by
  rw [lastWeight]
  cases hlast : (ofCandidate key revs).getLast? with
  | none => exact ⟨0, rfl, .inl ⟨List.getLast?_eq_none_iff.mp hlast, rfl⟩⟩
  | some revision => exact h key revision hlast

/-- The weights reported are the latest exactly where the last ones are. -/
theorem reportsLatest_iff :
    ReportsLatest text asOf selected realized ↔
      Readable text asOf selected ∧ Readable text asOf realized ∧
        LastIsLatest text (revisions text asOf selected) ∧
        LastIsLatest text (revisions text asOf realized) := by
  constructor
  · rintro ⟨comparisons, hanswer, _, hlatest⟩
    obtain ⟨hselected, hrealized⟩ := readable_of_answer hanswer
    obtain ⟨hkeys, hlast⟩ := answer_spec hanswer
    have hreported : ∀ revision ∈ revisions text asOf selected ++ revisions text asOf realized,
        ∃ comparison ∈ comparisons, comparison.candidateId = revision.candidate :=
      fun revision hmem => List.mem_map.mp ((hkeys _).mpr ⟨revision, hmem, rfl⟩)
    refine ⟨hselected, hrealized, fun key revision hkey => ?_, fun key revision hkey => ?_⟩
    all_goals obtain ⟨hmem, rfl⟩ := mem_ofCandidate.mp (List.mem_of_getLast? hkey)
    · obtain ⟨comparison, hcomparison, hid⟩ := hreported revision (List.mem_append_left _ hmem)
      obtain ⟨hweight, _⟩ := hlast comparison hcomparison
      obtain ⟨hnewest, _⟩ := hlatest comparison hcomparison
      rw [hid, lastWeight, hkey] at hweight
      rw [hid] at hnewest
      exact ⟨comparison.selectedWeight, hweight, hnewest⟩
    · obtain ⟨comparison, hcomparison, hid⟩ := hreported revision (List.mem_append_right _ hmem)
      obtain ⟨_, hweight⟩ := hlast comparison hcomparison
      obtain ⟨_, hnewest⟩ := hlatest comparison hcomparison
      rw [hid, lastWeight, hkey] at hweight
      rw [hid] at hnewest
      exact ⟨comparison.realizedWeight, hweight, hnewest⟩
  · rintro ⟨hselected, hrealized, hleft, hright⟩
    obtain ⟨comparisons, hanswer⟩ := exists_answer hselected hrealized
      (fun key => (hleft.exists_lastWeight key).imp fun _ h => h.1)
      (fun key => (hright.exists_lastWeight key).imp fun _ h => h.1)
    obtain ⟨hkeys, hlast⟩ := answer_spec hanswer
    refine ⟨comparisons, hanswer, hkeys, fun comparison hcomparison => ?_⟩
    obtain ⟨hselectedWeight, hrealizedWeight⟩ := hlast comparison hcomparison
    obtain ⟨weight, hweight, hlatest⟩ := hleft.exists_lastWeight comparison.candidateId
    obtain ⟨weight', hweight', hlatest'⟩ := hright.exists_lastWeight comparison.candidateId
    obtain rfl := Except.ok.inj (hweight.symm.trans hselectedWeight)
    obtain rfl := Except.ok.inj (hweight'.symm.trans hrealizedWeight)
    exact ⟨hlatest, hlatest'⟩

/-! ### Other orders of the rows -/

theorem Readable.perm (h : Readable text asOf rows) (hperm : rows'.Perm rows) :
    Readable text asOf rows' := fun row hrow => h row (hperm.mem_iff.mp hrow)

theorem revisions_perm (hperm : rows'.Perm rows) :
    (revisions text asOf rows').Perm (revisions text asOf rows) := hperm.filterMap _

/-- A revision can be made the last one. -/
theorem exists_perm_last (h : revision ∈ revisions text asOf rows) :
    ∃ rows', rows'.Perm rows ∧
      lastWeight text (revisions text asOf rows') revision.candidate =
        weightOf text revision.row := by
  obtain ⟨row, hrow, hrevision⟩ := List.mem_filterMap.mp h
  obtain ⟨before, after, rfl⟩ := List.append_of_mem hrow
  refine ⟨before ++ after ++ [row], ?_, ?_⟩
  · rw [List.append_assoc]
    exact List.perm_append_comm.append_left _
  · have hlast : revisions text asOf (before ++ after ++ [row]) =
        revisions text asOf (before ++ after) ++ [revision] := by
      have hsingle : revisions text asOf [row] = [revision] := List.filterMap_cons_some hrevision
      rw [← hsingle]
      exact List.filterMap_append
    rw [lastWeight, hlast, ofCandidate, List.filter_append, List.filter_singleton,
      decide_eq_true rfl, cond_true, List.getLast?_concat]

theorem OneWeight.lastWeight_perm (h : OneWeight text revs) (hperm : others.Perm revs) :
    lastWeight text others key = lastWeight text revs key := by
  have hkey : (ofCandidate key others).Perm (ofCandidate key revs) := hperm.filter _
  have hnone : (ofCandidate key others).getLast? = none ↔
      (ofCandidate key revs).getLast? = none := by
    rw [List.getLast?_eq_none_iff, List.getLast?_eq_none_iff]
    exact ⟨fun h => (h ▸ hkey).nil_eq.symm, fun h => (h ▸ hkey).eq_nil⟩
  rw [lastWeight, lastWeight]
  cases hlast : (ofCandidate key revs).getLast? with
  | none =>
    rw [hnone.mpr hlast]
  | some revision =>
    cases hother : (ofCandidate key others).getLast? with
    | none =>
      rw [hnone.mp hother] at hlast
      cases hlast
    | some other =>
      obtain ⟨hmem, hid⟩ := mem_ofCandidate.mp (List.mem_of_getLast? hlast)
      obtain ⟨hmem', hid'⟩ := mem_ofCandidate.mp
        (hkey.mem_iff.mp (List.mem_of_getLast? hother))
      exact h other hmem' revision hmem (hid'.trans hid.symm)

/-- Where two answers are one, the last weights of its candidates are. -/
theorem lastWeight_eq_of_answer {selected' realized' : List Payload}
    {comparisons : List AllocationComparison}
    (hanswer : allocationVsRealizedAsOf text asOf selected realized = .ok comparisons)
    (hanswer' : allocationVsRealizedAsOf text asOf selected' realized' = .ok comparisons)
    (hkey : ∃ revision ∈ revisions text asOf selected ++ revisions text asOf realized,
      revision.candidate = key) :
    lastWeight text (revisions text asOf selected) key =
        lastWeight text (revisions text asOf selected') key ∧
      lastWeight text (revisions text asOf realized) key =
        lastWeight text (revisions text asOf realized') key := by
  obtain ⟨hkeys, hlast⟩ := answer_spec hanswer
  obtain ⟨_, hlast'⟩ := answer_spec hanswer'
  obtain ⟨comparison, hmem, rfl⟩ := List.mem_map.mp ((hkeys key).mpr hkey)
  obtain ⟨hleft, hright⟩ := hlast comparison hmem
  obtain ⟨hleft', hright'⟩ := hlast' comparison hmem
  exact ⟨hleft.trans hleft'.symm, hright.trans hright'.symm⟩

/-- Rows of distinct times may come in any order exactly where all rows of a candidate have one
weight. -/
theorem unordered_iff (hreports : ReportsLatest text asOf selected realized) :
    Unordered text asOf selected realized ↔
      OneWeight text (revisions text asOf selected) ∧
        OneWeight text (revisions text asOf realized) := by
  obtain ⟨hselected, hrealized, hleft, hright⟩ := reportsLatest_iff.mp hreports
  constructor
  · intro h
    obtain ⟨comparisons, hanswer, _, _⟩ := hreports
    have hone : ∀ revision ∈ revisions text asOf selected, weightOf text revision.row =
        lastWeight text (revisions text asOf selected) revision.candidate := by
      intro revision hmem
      obtain ⟨rows', hperm, hweight⟩ := exists_perm_last hmem
      rw [← hweight]
      exact (lastWeight_eq_of_answer ((h rows' realized hperm (List.Perm.refl _)).trans hanswer)
        hanswer ⟨revision, List.mem_append_left _ ((revisions_perm hperm).mem_iff.mpr hmem),
          rfl⟩).1
    have hother : ∀ revision ∈ revisions text asOf realized, weightOf text revision.row =
        lastWeight text (revisions text asOf realized) revision.candidate := by
      intro revision hmem
      obtain ⟨rows', hperm, hweight⟩ := exists_perm_last hmem
      rw [← hweight]
      exact (lastWeight_eq_of_answer ((h selected rows' (List.Perm.refl _) hperm).trans hanswer)
        hanswer ⟨revision, List.mem_append_right _ ((revisions_perm hperm).mem_iff.mpr hmem),
          rfl⟩).2
    constructor
    · intro left hmem right hmem' hid
      rw [hone left hmem, hone right hmem', hid]
    · intro left hmem right hmem' hid
      rw [hother left hmem, hother right hmem', hid]
  · rintro ⟨honeLeft, honeRight⟩ selected' realized' hperm hperm'
    have hcandidates : candidates (revisions text asOf selected') (revisions text asOf realized') =
        candidates (revisions text asOf selected) (revisions text asOf realized) :=
      candidates_congr fun _ =>
        ((revisions_perm hperm).append (revisions_perm hperm')).mem_iff
    rw [allocationVsRealized_eq (hselected.perm hperm) (hrealized.perm hperm'),
      allocationVsRealized_eq hselected hrealized, hcandidates]
    congr 1
    funext key
    rw [compareLast, compareLast, honeLeft.lastWeight_perm (revisions_perm hperm),
      honeRight.lastWeight_perm (revisions_perm hperm')]

/-- The comparison uses the latest rows exactly where the last row of each candidate has the weight
of a newest one, and where rows of distinct times all have one weight. -/
theorem allocationVsRealized_latest_iff (text : PyText) (asOf : DateTime)
    (selected realized : List Payload) :
    (ReportsLatest text asOf selected realized ∧
        (DistinctTimes (revisions text asOf selected) →
          DistinctTimes (revisions text asOf realized) →
            Unordered text asOf selected realized)) ↔
      (Readable text asOf selected ∧ Readable text asOf realized ∧
        LastIsLatest text (revisions text asOf selected) ∧
        LastIsLatest text (revisions text asOf realized)) ∧
        (DistinctTimes (revisions text asOf selected) →
          DistinctTimes (revisions text asOf realized) →
            OneWeight text (revisions text asOf selected) ∧
              OneWeight text (revisions text asOf realized)) := by
  constructor
  · rintro ⟨hreports, hunordered⟩
    refine ⟨reportsLatest_iff.mp hreports, fun hleft hright => ?_⟩
    exact (unordered_iff hreports).mp (hunordered hleft hright)
  · rintro ⟨hlatest, hone⟩
    have hreports := reportsLatest_iff.mpr hlatest
    refine ⟨hreports, fun hleft hright => ?_⟩
    exact (unordered_iff hreports).mpr (hone hleft hright)

/-- A row of a candidate. -/
def allocationRow (instant : Int) (weight : ℚ) : Payload :=
  [("timestamp", .datetime ⟨instant, some 0⟩), ("candidate_id", .str "a"),
    ("weight", .float weight)]

/-- Listed newest first, the older of two rows is reported. -/
theorem allocationVsRealized_newestFirst :
    ¬ ∀ (text : PyText) (asOf : DateTime) (selected realized : List Payload),
      Readable text asOf selected → Readable text asOf realized →
        ReportsLatest text asOf selected realized ∧
          (DistinctTimes (revisions text asOf selected) →
            DistinctTimes (revisions text asOf realized) →
              Unordered text asOf selected realized) := by
  intro h
  have hreadable : Readable plainText ⟨3, some 0⟩
      [allocationRow 2 (7 / 10), allocationRow 1 (3 / 10)] := by
    intro row hrow
    rcases List.mem_pair.mp hrow with rfl | rfl <;> exact ⟨_, rfl⟩
  obtain ⟨_, _, hlast, _⟩ := reportsLatest_iff.mp
    (h plainText ⟨3, some 0⟩ _ [] hreadable fun _ hrow => nomatch hrow).1
  obtain ⟨weight, hweight, hlatest⟩ := hlast "a" ⟨"a", ⟨1, some 0⟩, allocationRow 1 (3 / 10)⟩ rfl
  obtain rfl := Except.ok.inj hweight
  rcases hlatest with ⟨hnone, _⟩ | ⟨revision, hmem, hnewest, hnew⟩
  · cases hnone
  · have hmem : revision ∈ [(⟨"a", ⟨2, some 0⟩, allocationRow 2 (7 / 10)⟩ : Revision),
        ⟨"a", ⟨1, some 0⟩, allocationRow 1 (3 / 10)⟩] := hmem
    have hnewer := hnewest ⟨"a", ⟨2, some 0⟩, allocationRow 2 (7 / 10)⟩ List.mem_cons_self
    rcases List.mem_pair.mp hmem with rfl | rfl
    · exact absurd (Except.ok.inj hnew) (by decide +kernel)
    · exact absurd hnewer (by decide)

end OptionResearch.AsOfQueries
