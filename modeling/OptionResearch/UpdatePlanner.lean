import OptionResearch.StableSort
import OptionResearch.WalkForward
import Mathlib.Data.Prod.Lex

/-!
# Incremental update plans

`plan_incremental_update` of `planner.py`: the cached ranges that touch the requested one are
sorted and merged, and a cursor sweeps over the merged ranges and lays a window before each of
them. The windows are the maximal runs of days of the request that no cached range has.
-/

namespace OptionResearch

namespace OrdinalDate

instance : Max OrdinalDate := ⟨fun d e => if d ≤ e then e else d⟩

instance : Min OrdinalDate := ⟨fun d e => if d ≤ e then d else e⟩

theorem toordinal_max (d e : OrdinalDate) :
    (max d e).toordinal = max d.toordinal e.toordinal := by
  change (if d ≤ e then e else d).toordinal = _
  rw [max_def]
  exact apply_ite toordinal _ _ _

theorem toordinal_min (d e : OrdinalDate) :
    (min d e).toordinal = min d.toordinal e.toordinal := by
  change (if d ≤ e then d else e).toordinal = _
  rw [min_def]
  exact apply_ite toordinal _ _ _

end OrdinalDate

/-- Inclusive date range. -/
structure DateRange where
  start : OrdinalDate
  «end» : OrdinalDate
  ordered : start ≤ «end»
  deriving DecidableEq, Repr

structure IncrementalUpdatePlan where
  requested : DateRange
  cached : List DateRange
  missing : List DateRange
  deriving DecidableEq

namespace DateRange

/-- `DateRange(start=start, end=end)`, with `__post_init__`. -/
def make (start «end» : OrdinalDate) : Except Exc DateRange :=
  if h : start ≤ «end» then .ok ⟨start, «end», h⟩
  else .error ⟨.valueError, "DateRange start must be <= end"⟩

/-- The key of the sort in `_merge_ranges`. -/
def sortKey (range : DateRange) : Int ×ₗ Int :=
  toLex (range.start.toordinal, range.end.toordinal)

/-- The day lies in the range. -/
def Has (range : DateRange) (day : OrdinalDate) : Prop := range.start ≤ day ∧ day ≤ range.end

/-- The second range begins after the first one, and at least one day lies between them. -/
def Before (range other : DateRange) : Prop := range.end.toordinal + 1 < other.start.toordinal

end DateRange

namespace UpdatePlanner

/-- The loop of `_merge_ranges`; `previous` is the last range merged so far. -/
def mergeFrom (previous : DateRange) : List DateRange → Except Exc (List DateRange)
  | [] => return [previous]
  | current :: rest => do
    let following ← previous.end.addDays 1
    if current.start ≤ following then
      let merged ← DateRange.make previous.start (max previous.end current.end)
      mergeFrom merged rest
    else
      return previous :: (← mergeFrom current rest)

/-- `_merge_ranges`. -/
def mergeRanges (ranges : List DateRange) : Except Exc (List DateRange) :=
  match StableSort.sortBy DateRange.sortKey ranges with
  | [] => return []
  | first :: rest => mergeFrom first rest

variable (requested : DateRange)

/-- The window between the cursor and a cached range, if there is any. -/
def windowBefore (cursor : OrdinalDate) (cached : DateRange) : Except Exc (List DateRange) :=
  if cursor < cached.start then do
    let before ← cached.start.addDays (-1)
    return [← DateRange.make cursor (min before requested.end)]
  else pure []

/-- The loop over the merged ranges: the windows it appends and where it leaves the cursor. -/
def sweep (cursor : OrdinalDate) : List DateRange → Except Exc (List DateRange × OrdinalDate)
  | [] => return ([], cursor)
  | cached :: rest => do
    let window ← windowBefore requested cursor cached
    let following ← cached.end.addDays 1
    let cursor := max cursor following
    if requested.end < cursor then return (window, cursor)
    else
      let (missing, cursor) ← sweep cursor rest
      return (window ++ missing, cursor)

/-- The window after the last cached range. -/
def closing (cursor : OrdinalDate) : Except Exc (List DateRange) :=
  if cursor ≤ requested.end then do
    return [← DateRange.make cursor requested.end]
  else pure []

/-- The cached ranges that are not disjoint from the request. -/
def touching (cachedRanges : List DateRange) : List DateRange :=
  cachedRanges.filter fun cached =>
    !(decide (cached.end < requested.start) || decide (requested.end < cached.start))

def planIncrementalUpdate (cachedRanges : List DateRange) : Except Exc IncrementalUpdatePlan := do
  let normalizedCached ← mergeRanges (touching requested cachedRanges)
  let (missing, cursor) ← sweep requested requested.start normalizedCached
  let last ← closing requested cursor
  return {
    requested
    cached := normalizedCached
    missing := (missing ++ last).filter fun window => window.start ≤ window.end }

/-! ### Merging -/

open DateRange OrdinalDate

variable {requested} {range previous : DateRange} {ranges rest merged : List DateRange}
  {day start «end» cursor : OrdinalDate}

theorem make_eq_ok (h : start ≤ «end») : DateRange.make start «end» = .ok ⟨start, «end», h⟩ :=
  dif_pos h

theorem has_iff : range.Has day ↔
    range.start.toordinal ≤ day.toordinal ∧ day.toordinal ≤ range.end.toordinal := Iff.rfl

theorem start_le_end (range : DateRange) :
    range.start.toordinal ≤ range.end.toordinal := range.ordered

theorem exists_nextDay (h : day < maxDate) :
    ∃ following, day.addDays 1 = .ok following ∧ following.toordinal = day.toordinal + 1 := by
  have hone := day.one_le
  rw [lt_iff] at h
  have hmax : maxDate.toordinal = 3652059 := rfl
  obtain ⟨following, hfollowing⟩ := exists_addDays day 1 (by omega) (by omega)
  exact ⟨following, hfollowing, addDays_eq_ok_iff.mp hfollowing⟩

/-- What merging returns: ranges with gaps between them that have the same days. -/
structure Merged (lowest : OrdinalDate) (ranges merged : List DateRange) : Prop where
  separated : merged.Pairwise Before
  lowest_le : ∀ range ∈ merged, lowest ≤ range.start
  before_max : ∀ range ∈ merged, range.end < maxDate
  same_days : ∀ day, (∃ range ∈ merged, range.Has day) ↔ ∃ range ∈ ranges, range.Has day

theorem merged_singleton (hmax : previous.end < maxDate) :
    Merged previous.start [previous] [previous] := by
  refine ⟨List.pairwise_singleton _ _, ?_, ?_, fun _ => Iff.rfl⟩
  · intro range hrange
    obtain rfl := List.mem_singleton.mp hrange
    exact Int.le_refl _
  · intro range hrange
    obtain rfl := List.mem_singleton.mp hrange
    exact hmax

/-- A range with a gap after it is kept as it is. -/
theorem Merged.cons (h : Merged range.start ranges merged) (hmax : previous.end < maxDate)
    (hgap : previous.Before range) : Merged previous.start (previous :: ranges)
      (previous :: merged) := by
  have hprevious := start_le_end previous
  rw [Before] at hgap
  refine ⟨List.pairwise_cons.mpr ⟨fun later hlater => ?_, h.separated⟩, ?_, ?_, fun day => ?_⟩
  · have hlowest := h.lowest_le later hlater
    rw [le_iff] at hlowest
    rw [Before]
    omega
  · refine List.forall_mem_cons.mpr ⟨Int.le_refl _, fun later hlater => ?_⟩
    have hlowest := h.lowest_le later hlater
    rw [le_iff] at hlowest ⊢
    omega
  · exact List.forall_mem_cons.mpr ⟨hmax, h.before_max⟩
  · rw [List.exists_mem_cons_iff, List.exists_mem_cons_iff, h.same_days]

/-- Two ranges without a gap have the days of one that spans them. -/
theorem has_joined {current : DateRange} (hle : previous.start ≤ current.start)
    (htouch : current.start.toordinal ≤ previous.end.toordinal + 1)
    (hordered : previous.start ≤ max previous.end current.end) :
    (⟨previous.start, _, hordered⟩ : DateRange).Has day ↔ previous.Has day ∨ current.Has day := by
  have hprevious := start_le_end previous
  have hcurrent := start_le_end current
  rw [has_iff, has_iff, has_iff]
  dsimp only
  rw [toordinal_max]
  rw [le_iff] at hle
  omega

theorem mergeFrom_spec (hmax : previous.end < maxDate) (hsafe : ∀ range ∈ rest, range.end < maxDate)
    (hsorted : (previous :: rest).Pairwise fun left right => left.start ≤ right.start) :
    ∃ merged, mergeFrom previous rest = .ok merged ∧
      Merged previous.start (previous :: rest) merged := by
  induction rest generalizing previous with
  | nil => exact ⟨[previous], rfl, merged_singleton hmax⟩
  | cons current rest ih =>
    obtain ⟨hcurrent, hsafe⟩ := List.forall_mem_cons.mp hsafe
    obtain ⟨hfirst, hsorted⟩ := List.pairwise_cons.mp hsorted
    obtain ⟨hnext, hrest⟩ := List.pairwise_cons.mp hsorted
    obtain ⟨following, hfollowing, hday⟩ := exists_nextDay hmax
    have hle := hfirst current List.mem_cons_self
    by_cases htouch : current.start ≤ following
    · have hordered : previous.start ≤ max previous.end current.end := by
        have hprevious := start_le_end previous
        rw [le_iff, toordinal_max]
        omega
      have hmax' : max previous.end current.end < maxDate := by
        rw [lt_iff] at hmax hcurrent ⊢
        rw [toordinal_max]
        omega
      have hsorted' : (⟨previous.start, _, hordered⟩ :: rest).Pairwise
          fun left right : DateRange => left.start ≤ right.start :=
        List.pairwise_cons.mpr
          ⟨fun range hrange => hfirst range (List.mem_cons_of_mem _ hrange), hrest⟩
      obtain ⟨merged, hmerged, hspec⟩ := ih hmax' hsafe hsorted'
      refine ⟨merged, ?_, hspec.separated, hspec.lowest_le, hspec.before_max, fun day => ?_⟩
      · rw [mergeFrom, hfollowing]
        dsimp only [bind, Except.bind]
        rw [if_pos htouch, make_eq_ok hordered]
        exact hmerged
      · rw [le_iff, hday] at htouch
        rw [hspec.same_days, List.exists_mem_cons_iff, List.exists_mem_cons_iff,
          List.exists_mem_cons_iff, ← or_assoc, has_joined hle htouch]
    · obtain ⟨merged, hmerged, hspec⟩ := ih hcurrent hsafe hsorted
      have hgap : previous.Before current := by
        rw [le_iff, not_le, hday] at htouch
        exact htouch
      refine ⟨previous :: merged, ?_, hspec.cons hmax hgap⟩
      rw [mergeFrom, hfollowing]
      dsimp only [bind, Except.bind]
      rw [if_neg htouch, hmerged]
      rfl

theorem sortKey_injective (h : range.sortKey = previous.sortKey) : range = previous := by
  obtain ⟨hstart, hend⟩ := Prod.mk.inj (toLex.injective h)
  obtain ⟨⟨start, _, _⟩, ⟨stop, _, _⟩, _⟩ := range
  obtain ⟨⟨start', _, _⟩, ⟨stop', _, _⟩, _⟩ := previous
  cases hstart
  cases hend
  rfl

theorem mergeRanges_perm {others : List DateRange} (h : others.Perm ranges) :
    mergeRanges others = mergeRanges ranges := by
  rw [mergeRanges, mergeRanges,
    StableSort.sortBy_eq_of_perm (fun _ _ _ _ hkey => sortKey_injective hkey) h]

/-- The ranges are sorted by their first days. -/
theorem sortBy_start_le (ranges : List DateRange) :
    (StableSort.sortBy sortKey ranges).Pairwise fun left right => left.start ≤ right.start := by
  refine (StableSort.sortBy_sorted sortKey ranges).imp fun hle => ?_
  rcases Prod.Lex.toLex_le_toLex.mp hle with hlt | ⟨heq, _⟩
  · exact hlt.le
  · exact heq.le

theorem mergeRanges_spec (hsafe : ∀ range ∈ ranges, range.end < maxDate) :
    ∃ merged, mergeRanges ranges = .ok merged ∧ merged.Pairwise Before ∧
      (∀ range ∈ merged, range.end < maxDate) ∧
      ∀ day, (∃ range ∈ merged, range.Has day) ↔ ∃ range ∈ ranges, range.Has day := by
  have hmem : ∀ range, range ∈ StableSort.sortBy sortKey ranges ↔ range ∈ ranges :=
    fun _ => StableSort.mem_sortBy
  have hsorted := sortBy_start_le ranges
  rw [mergeRanges]
  cases hranges : StableSort.sortBy sortKey ranges with
  | nil =>
    refine ⟨[], rfl, List.Pairwise.nil, fun _ h => (nomatch h), fun day => ?_⟩
    simp only [← hmem, hranges]
  | cons first rest =>
    rw [hranges] at hsorted
    have hall : ∀ range ∈ first :: rest, range.end < maxDate := by
      rw [← hranges]
      exact fun range hrange => hsafe range ((hmem range).mp hrange)
    obtain ⟨hfirst, hrest⟩ := List.forall_mem_cons.mp hall
    obtain ⟨merged, hmerged, hspec⟩ := mergeFrom_spec hfirst hrest hsorted
    refine ⟨merged, hmerged, hspec.separated, hspec.before_max, fun day => ?_⟩
    rw [hspec.same_days, ← hranges]
    simp only [hmem]

/-! ### Sweeping -/

/-- The windows are the maximal runs of days from `first` on that no range has. -/
structure Gaps (requested : DateRange) (first : OrdinalDate) (ranges windows : List DateRange) :
    Prop where
  separated : windows.Pairwise Before
  inside : ∀ window ∈ windows, first ≤ window.start ∧ window.end ≤ requested.end
  exact : ∀ day, first ≤ day → day ≤ requested.end →
    ((∃ window ∈ windows, window.Has day) ↔ ∀ range ∈ ranges, ¬ range.Has day)

/-- The windows have the days from the cursor to the cached range. -/
structure Leading (requested : DateRange) (cursor : OrdinalDate) (cached : DateRange)
    (windows : List DateRange) : Prop where
  separated : windows.Pairwise Before
  inside : ∀ window ∈ windows, cursor ≤ window.start ∧ window.end ≤ requested.end
  before : ∀ window ∈ windows, window.end.toordinal < cached.start.toordinal
  exact : ∀ day, cursor ≤ day → day ≤ requested.end →
    ((∃ window ∈ windows, window.Has day) ↔ day < cached.start)

theorem windowBefore_spec (cached : DateRange) (hcursor : cursor ≤ requested.end) :
    ∃ windows, windowBefore requested cursor cached = .ok windows ∧
      Leading requested cursor cached windows := by
  rw [windowBefore]
  by_cases hlt : cursor < cached.start
  · have hone := cursor.one_le
    have hmax := cached.start.le_max
    have hlt' := lt_iff.mp hlt
    obtain ⟨before, hbefore⟩ := exists_addDays cached.start (-1) (by omega) (by omega)
    have hday := addDays_eq_ok_iff.mp hbefore
    have hordered : cursor ≤ min before requested.end := by
      rw [le_iff] at hcursor ⊢
      rw [toordinal_min]
      omega
    refine ⟨[⟨cursor, _, hordered⟩], ?_, List.pairwise_singleton _ _, ?_, ?_,
      fun day hfirst hlast => ?_⟩
    · rw [if_pos hlt, hbefore]
      dsimp only [bind, Except.bind]
      rw [make_eq_ok hordered]
      rfl
    · intro window hwindow
      obtain rfl := List.mem_singleton.mp hwindow
      refine ⟨Int.le_refl _, ?_⟩
      rw [le_iff, toordinal_min]
      omega
    · intro window hwindow
      obtain rfl := List.mem_singleton.mp hwindow
      rw [toordinal_min]
      omega
    · rw [List.exists_mem_cons_iff, has_iff, lt_iff]
      dsimp only
      rw [toordinal_min]
      rw [le_iff] at hfirst hlast
      constructor
      · rintro (hin | ⟨_, hnone, _⟩)
        · omega
        · cases hnone
      · intro hin
        exact .inl (by omega)
  · refine ⟨[], if_neg hlt, List.Pairwise.nil, fun _ h => (nomatch h), fun _ h => (nomatch h),
      fun day hfirst _ => ?_⟩
    rw [lt_iff] at hlt ⊢
    rw [le_iff] at hfirst
    refine iff_of_false (fun ⟨_, h, _⟩ => nomatch h) (by omega)

theorem gaps_nil (hcursor : cursor ≤ requested.end) :
    ∃ last, closing requested cursor = .ok last ∧ Gaps requested cursor [] last := by
  refine ⟨[⟨cursor, requested.end, hcursor⟩], ?_, List.pairwise_singleton _ _, ?_, ?_⟩
  · rw [closing, if_pos hcursor, make_eq_ok hcursor]
    rfl
  · intro window hwindow
    obtain rfl := List.mem_singleton.mp hwindow
    exact ⟨Int.le_refl _, Int.le_refl _⟩
  · intro day hfirst hlast
    exact iff_of_true ⟨_, List.mem_singleton_self _, hfirst, hlast⟩ fun _ h => nomatch h

/-- Up to the end of a cached range no later one has begun. -/
theorem not_has_iff_lt {cached : DateRange} (hbefore : ∀ range ∈ rest, cached.Before range)
    (hlast : day ≤ cached.end) :
    (∀ range ∈ cached :: rest, ¬ range.Has day) ↔ day < cached.start := by
  rw [le_iff] at hlast
  rw [List.forall_mem_cons, has_iff, lt_iff]
  constructor
  · rintro ⟨hnot, _⟩
    omega
  · intro hlt
    refine ⟨by omega, fun range hrange hin => ?_⟩
    have hstart := hbefore range hrange
    rw [Before] at hstart
    rw [has_iff] at hin
    have hcached := start_le_end cached
    omega

/-- Where the cached range reaches the end of the request, the windows before it are all. -/
theorem Leading.gaps {cached : DateRange} {windows : List DateRange}
    (h : Leading requested cursor cached windows) (hbefore : ∀ range ∈ rest, cached.Before range)
    (hreach : requested.end ≤ cached.end) : Gaps requested cursor (cached :: rest) windows where
  separated := h.separated
  inside := h.inside
  exact day hfirst hlast := by
    rw [h.exact day hfirst hlast, not_has_iff_lt hbefore (Int.le_trans hlast hreach)]

/-- The windows before a cached range and the gaps that follow it. -/
theorem Leading.append {cached : DateRange} {windows later : List DateRange} {next : OrdinalDate}
    (h : Leading requested cursor cached windows) (hbefore : ∀ range ∈ rest, cached.Before range)
    (hnext : next.toordinal = max cursor.toordinal (cached.end.toordinal + 1))
    (hgaps : Gaps requested next rest later) :
    Gaps requested cursor (cached :: rest) (windows ++ later) := by
  have hcached := start_le_end cached
  refine ⟨List.pairwise_append.mpr ⟨h.separated, hgaps.separated, ?_⟩, ?_, ?_⟩
  · intro window hwindow range hrange
    have hend := h.before window hwindow
    have hstart := (hgaps.inside range hrange).1
    rw [le_iff] at hstart
    rw [Before]
    omega
  · intro window hwindow
    rcases List.mem_append.mp hwindow with hwindow | hwindow
    · exact h.inside window hwindow
    · obtain ⟨hstart, hend⟩ := hgaps.inside window hwindow
      refine ⟨?_, hend⟩
      rw [le_iff] at hstart ⊢
      omega
  · intro day hfirst hlast
    simp only [List.mem_append, or_and_right, exists_or]
    rw [h.exact day hfirst hlast]
    by_cases hpast : next ≤ day
    · -- past the cached range, the windows are those of the rest
      rw [hgaps.exact day hpast hlast, List.forall_mem_cons, lt_iff, has_iff]
      rw [le_iff] at hpast
      constructor
      · rintro (hlt | hnone)
        · omega
        · exact ⟨by omega, hnone⟩
      · exact fun hnone => .inr hnone.2
    · -- up to the cached range, no later window has begun
      have hlater : ¬ ∃ window ∈ later, window.Has day := by
        rintro ⟨window, hwindow, hstart, _⟩
        exact hpast (Int.le_trans (hgaps.inside window hwindow).1 hstart)
      have hreached : day ≤ cached.end := by
        rw [le_iff] at hpast hfirst ⊢
        omega
      rw [or_iff_left hlater, not_has_iff_lt hbefore hreached]

/-- The sweep and the window after it lay out the gaps. -/
theorem sweep_spec (hcursor : cursor ≤ requested.end) (hseparated : ranges.Pairwise Before)
    (hsafe : ∀ range ∈ ranges, range.end < maxDate) :
    ∃ missing after last, sweep requested cursor ranges = .ok (missing, after) ∧
      closing requested after = .ok last ∧ Gaps requested cursor ranges (missing ++ last) := by
  induction ranges generalizing cursor with
  | nil =>
    obtain ⟨last, hlast, hgaps⟩ := gaps_nil hcursor
    exact ⟨[], cursor, last, rfl, hlast, hgaps⟩
  | cons cached rest ih =>
    obtain ⟨hcached, hsafe⟩ := List.forall_mem_cons.mp hsafe
    obtain ⟨hbefore, hseparated⟩ := List.pairwise_cons.mp hseparated
    obtain ⟨windows, hwindows, hleading⟩ := windowBefore_spec cached hcursor
    obtain ⟨following, hfollowing, hday⟩ := exists_nextDay hcached
    have hnext : (max cursor following).toordinal =
        max cursor.toordinal (cached.end.toordinal + 1) := by rw [toordinal_max, hday]
    by_cases hleave : requested.end < max cursor following
    · -- the loop breaks: the ranges that are left begin after the request
      have hreach : requested.end ≤ cached.end := by
        rw [lt_iff] at hleave
        rw [le_iff] at hcursor ⊢
        omega
      refine ⟨windows, max cursor following, [], ?_, if_neg ?_, ?_⟩
      · rw [sweep, hwindows, hfollowing]
        dsimp only [bind, Except.bind]
        rw [if_pos hleave]
        rfl
      · rw [lt_iff] at hleave
        rw [le_iff]
        omega
      · rw [List.append_nil]
        exact hleading.gaps hbefore hreach
    · have hstay : max cursor following ≤ requested.end := by
        rw [lt_iff] at hleave
        rw [le_iff]
        omega
      obtain ⟨missing, after, last, hsweep, hlast, hgaps⟩ := ih hstay hseparated hsafe
      refine ⟨windows ++ missing, after, last, ?_, hlast, ?_⟩
      · rw [sweep, hwindows, hfollowing]
        dsimp only [bind, Except.bind]
        rw [if_neg hleave, hsweep]
        rfl
      · rw [List.append_assoc]
        exact hleading.append hbefore hnext hgaps

/-! ### Plans -/

theorem mem_touching : range ∈ touching requested ranges ↔
    range ∈ ranges ∧ requested.start ≤ range.end ∧ range.start ≤ requested.end := by
  rw [touching, List.mem_filter, Bool.not_eq_true', Bool.or_eq_false_iff, decide_eq_false_iff_not,
    decide_eq_false_iff_not, lt_iff, lt_iff, not_lt, not_lt]
  rfl

/-- Of the touching ranges only those matter that lie before the last day there is: with these the
plan has the gaps of the request. -/
theorem planIncrementalUpdate_gaps (requested : DateRange) (cachedRanges : List DateRange)
    (hsafe : ∀ cached ∈ touching requested cachedRanges, cached.end < maxDate) :
    ∃ plan, planIncrementalUpdate requested cachedRanges = .ok plan ∧
      plan.missing.Pairwise Before ∧
      (∀ window ∈ plan.missing, requested.start ≤ window.start ∧ window.end ≤ requested.end) ∧
      (∀ day, requested.Has day →
        ((∃ window ∈ plan.missing, window.Has day) ↔
          ¬ ∃ cached ∈ cachedRanges, cached.Has day)) := by
  obtain ⟨merged, hmerged, hseparated, hmax, hdays⟩ := mergeRanges_spec hsafe
  obtain ⟨missing, after, last, hsweep, hlast, hgaps⟩ :=
    sweep_spec requested.ordered hseparated hmax
  have hall : (missing ++ last).filter (fun window => window.start ≤ window.end) =
      missing ++ last :=
    List.filter_eq_self.mpr fun window _ => decide_eq_true window.ordered
  have hplan : planIncrementalUpdate requested cachedRanges =
      .ok ⟨requested, merged, missing ++ last⟩ := by
    rw [planIncrementalUpdate, hmerged]
    dsimp only [bind, Except.bind]
    rw [hsweep]
    dsimp only
    rw [hlast]
    dsimp only
    rw [hall]
    rfl
  refine ⟨_, hplan, hgaps.separated, hgaps.inside, fun day hday => ?_⟩
  rw [hgaps.exact day hday.1 hday.2]
  have htouch : (∃ cached ∈ cachedRanges, cached.Has day) ↔
      ∃ range ∈ touching requested cachedRanges, range.Has day := by
    constructor
    · rintro ⟨cached, hcached, hin⟩
      exact ⟨cached, mem_touching.mpr ⟨hcached, Int.le_trans hday.1 hin.2,
        Int.le_trans hin.1 hday.2⟩, hin⟩
    · rintro ⟨range, hrange, hin⟩
      exact ⟨range, (mem_touching.mp hrange).1, hin⟩
  rw [htouch, ← hdays]
  simp only [not_exists, not_and]

/-- The order of the cached ranges does not matter. -/
theorem planIncrementalUpdate_perm {others cachedRanges : List DateRange}
    (hperm : others.Perm cachedRanges) :
    planIncrementalUpdate requested others = planIncrementalUpdate requested cachedRanges := by
  have htouching : (touching requested others).Perm (touching requested cachedRanges) :=
    hperm.filter _
  rw [planIncrementalUpdate, planIncrementalUpdate, mergeRanges_perm htouching]

/-- The missing windows are sorted, disjoint, not adjacent, within the request, and have exactly
the days of the request that no cached range has; the order of the cached ranges does not matter. -/
theorem planIncrementalUpdate_exact (requested : DateRange) (cachedRanges : List DateRange)
    (hsafe : ∀ cached ∈ cachedRanges, cached.end < maxDate) :
    ∃ plan, planIncrementalUpdate requested cachedRanges = .ok plan ∧
      plan.missing.Pairwise Before ∧
      (∀ window ∈ plan.missing, requested.start ≤ window.start ∧ window.end ≤ requested.end) ∧
      (∀ day, requested.Has day →
        ((∃ window ∈ plan.missing, window.Has day) ↔
          ¬ ∃ cached ∈ cachedRanges, cached.Has day)) ∧
      ∀ others, others.Perm cachedRanges →
        planIncrementalUpdate requested others = .ok plan := by
  obtain ⟨plan, hplan, hseparated, hinside, hdays⟩ := planIncrementalUpdate_gaps requested
    cachedRanges fun cached hcached => hsafe cached (mem_touching.mp hcached).1
  exact ⟨plan, hplan, hseparated, hinside, hdays,
    fun others hperm => (planIncrementalUpdate_perm hperm).trans hplan⟩

/-! ### Plans of ranges that end on the last day -/

/-- What merging leaves of the ranges, whatever day they end on. -/
structure Spanned (lowest : OrdinalDate) (ranges merged : List DateRange) : Prop where
  separated : merged.Pairwise Before
  lowest_le : ∀ range ∈ merged, lowest ≤ range.start
  starts : ∀ range ∈ merged, ∃ other ∈ ranges, range.start = other.start
  ends : ∀ range ∈ ranges, ∃ other ∈ merged, range.end ≤ other.end

/-- Two ranges spanned as one. -/
theorem Spanned.of_joined {joined current : DateRange}
    (h : Spanned joined.start (joined :: rest) merged)
    (hstart : joined.start = previous.start) (hprevious : previous.end ≤ joined.end)
    (hcurrent : current.end ≤ joined.end) :
    Spanned previous.start (previous :: current :: rest) merged where
  separated := h.separated
  lowest_le := hstart ▸ h.lowest_le
  starts := by
    intro range hrange
    obtain ⟨other, hother, heq⟩ := h.starts range hrange
    rcases List.mem_cons.mp hother with rfl | hother
    · exact ⟨previous, List.mem_cons_self, heq.trans hstart⟩
    · exact ⟨other, List.mem_cons_of_mem _ (List.mem_cons_of_mem _ hother), heq⟩
  ends := by
    obtain ⟨last, hlast, hend⟩ := h.ends _ List.mem_cons_self
    refine List.forall_mem_cons.mpr ⟨⟨last, hlast, Int.le_trans hprevious hend⟩,
      List.forall_mem_cons.mpr ⟨⟨last, hlast, Int.le_trans hcurrent hend⟩, ?_⟩⟩
    exact fun range hrange => h.ends range (List.mem_cons_of_mem _ hrange)

/-- A range that ends before the others begin is kept. -/
theorem Spanned.of_apart {current : DateRange} (h : Spanned current.start (current :: rest) merged)
    (hbefore : Before previous current) :
    Spanned previous.start (previous :: current :: rest) (previous :: merged) where
  separated := by
    refine List.pairwise_cons.mpr ⟨fun range hrange => ?_, h.separated⟩
    exact Int.lt_of_lt_of_le hbefore (h.lowest_le range hrange)
  lowest_le := by
    refine List.forall_mem_cons.mpr ⟨Int.le_refl _, fun range hrange => ?_⟩
    have hlowest := h.lowest_le range hrange
    have hprevious := start_le_end previous
    rw [Before] at hbefore
    rw [le_iff] at hlowest ⊢
    omega
  starts := by
    refine List.forall_mem_cons.mpr ⟨⟨previous, List.mem_cons_self, rfl⟩, ?_⟩
    intro range hrange
    obtain ⟨other, hother, hstart⟩ := h.starts range hrange
    exact ⟨other, List.mem_cons_of_mem _ hother, hstart⟩
  ends := by
    refine List.forall_mem_cons.mpr ⟨⟨previous, List.mem_cons_self, Int.le_refl _⟩, ?_⟩
    intro range hrange
    obtain ⟨other, hother, hend⟩ := h.ends range hrange
    exact ⟨other, List.mem_cons_of_mem _ hother, hend⟩

theorem mergeFrom_spanned
    (hsorted : (previous :: rest).Pairwise fun left right => left.start ≤ right.start)
    (h : mergeFrom previous rest = .ok merged) :
    Spanned previous.start (previous :: rest) merged := by
  induction rest generalizing previous merged with
  | nil =>
    cases h
    refine ⟨List.pairwise_singleton _ _, ?_, fun range hrange => ⟨range, hrange, rfl⟩,
      fun range hrange => ⟨range, hrange, Int.le_refl _⟩⟩
    intro range hrange
    obtain rfl := List.mem_singleton.mp hrange
    exact Int.le_refl _
  | cons current rest ih =>
    obtain ⟨hfirst, hsorted⟩ := List.pairwise_cons.mp hsorted
    obtain ⟨hnext, hrest⟩ := List.pairwise_cons.mp hsorted
    rw [mergeFrom] at h
    obtain ⟨following, hfollowing, h⟩ := except_bind_eq_ok.mp h
    have hday := addDays_eq_ok_iff.mp hfollowing
    by_cases htouch : current.start ≤ following
    · rw [if_pos htouch] at h
      obtain ⟨joined, hjoined, h⟩ := except_bind_eq_ok.mp h
      have hordered : previous.start ≤ max previous.end current.end := by
        have hprevious := start_le_end previous
        rw [le_iff, toordinal_max]
        omega
      rw [make_eq_ok hordered] at hjoined
      cases hjoined
      have hsorted' : (⟨previous.start, _, hordered⟩ :: rest).Pairwise
          fun left right : DateRange => left.start ≤ right.start :=
        List.pairwise_cons.mpr
          ⟨fun range hrange => hfirst range (List.mem_cons_of_mem _ hrange), hrest⟩
      refine (ih hsorted' h).of_joined rfl ?_ ?_
      · rw [le_iff, toordinal_max]
        omega
      · rw [le_iff, toordinal_max]
        omega
    · rw [if_neg htouch] at h
      obtain ⟨later, hlater, h⟩ := except_bind_eq_ok.mp h
      cases h
      rw [le_iff, not_le, hday] at htouch
      exact (ih hsorted hlater).of_apart htouch

/-- A sweep that returns has stepped past the end of every range that begins within the request. -/
theorem sweep_before_max {missing : List DateRange} {after : OrdinalDate}
    (hcursor : cursor ≤ requested.end) (hseparated : ranges.Pairwise Before)
    (hstarts : ∀ range ∈ ranges, range.start ≤ requested.end)
    (h : sweep requested cursor ranges = .ok (missing, after)) :
    ∀ range ∈ ranges, range.end < maxDate := by
  induction ranges generalizing cursor missing after with
  | nil => exact fun _ hrange => absurd hrange List.not_mem_nil
  | cons cached rest ih =>
    obtain ⟨hbefore, hseparated⟩ := List.pairwise_cons.mp hseparated
    rw [sweep] at h
    obtain ⟨window, -, h⟩ := except_bind_eq_ok.mp h
    obtain ⟨following, hfollowing, h⟩ := except_bind_eq_ok.mp h
    have hday := addDays_eq_ok_iff.mp hfollowing
    have hcached : cached.end < maxDate := by
      have hlast := following.le_max
      have hmax : maxDate.toordinal = 3652059 := rfl
      rw [lt_iff]
      omega
    refine List.forall_mem_cons.mpr ⟨hcached, ?_⟩
    by_cases hleave : requested.end < max cursor following
    · -- no range that is left begins within the request
      intro range hrange
      have hgap := hbefore range hrange
      have hstart := hstarts range (List.mem_cons_of_mem _ hrange)
      rw [Before] at hgap
      rw [lt_iff, toordinal_max] at hleave
      rw [le_iff] at hcursor hstart
      omega
    · have hstay : max cursor following ≤ requested.end := by
        rw [lt_iff] at hleave
        rw [le_iff]
        omega
      dsimp only at h
      rw [if_neg hleave] at h
      obtain ⟨⟨later, after'⟩, hsweep, -⟩ := except_bind_eq_ok.mp h
      exact ih hstay hseparated (fun range hrange => hstarts range (List.mem_cons_of_mem _ hrange))
        hsweep

/-- A plan is made only where every touching range ends before the last day there is. -/
theorem before_max_of_planIncrementalUpdate {plan : IncrementalUpdatePlan}
    (h : planIncrementalUpdate requested ranges = .ok plan) :
    ∀ range ∈ touching requested ranges, range.end < maxDate := by
  obtain ⟨merged, hmerged, h⟩ := except_bind_eq_ok.mp h
  obtain ⟨⟨missing, after⟩, hsweep, -⟩ := except_bind_eq_ok.mp h
  intro range hrange
  have hmem : ∀ other, other ∈ StableSort.sortBy sortKey (touching requested ranges) ↔
      other ∈ touching requested ranges := fun _ => StableSort.mem_sortBy
  have hsorted := sortBy_start_le (touching requested ranges)
  rw [mergeRanges] at hmerged
  cases hranges : StableSort.sortBy sortKey (touching requested ranges) with
  | nil =>
    rw [← hmem, hranges] at hrange
    cases hrange
  | cons first rest =>
    rw [hranges] at hmerged hsorted
    have hspanned := mergeFrom_spanned hsorted hmerged
    have hstarts : ∀ other ∈ merged, other.start ≤ requested.end := by
      intro other hother
      obtain ⟨source, hsource, hstart⟩ := hspanned.starts other hother
      rw [← hranges, hmem, mem_touching] at hsource
      exact hstart ▸ hsource.2.2
    obtain ⟨other, hother, hend⟩ := hspanned.ends range (by rw [← hranges, hmem]; exact hrange)
    have hmax := sweep_before_max requested.ordered hspanned.separated hstarts hsweep other hother
    rw [lt_iff] at hmax ⊢
    rw [le_iff] at hend
    omega

/-- The first ten days of 2026, of which some are cached. -/
def firstDays (start stop : Int) (h : 1 ≤ start ∧ start ≤ stop ∧ stop ≤ 10) : DateRange :=
  ⟨⟨739616 + start, by omega, by omega⟩, ⟨739616 + stop, by omega, by omega⟩, by
    rw [le_iff]
    dsimp only
    omega⟩

theorem planIncrementalUpdate_firstDays : ∃ plan,
    planIncrementalUpdate (firstDays 1 10 (by decide))
        [firstDays 6 8 (by decide), firstDays 1 2 (by decide), firstDays 5 7 (by decide)] =
      .ok plan ∧
    plan.missing = [firstDays 3 4 (by decide), firstDays 9 10 (by decide)] ∧
    planIncrementalUpdate (firstDays 1 10 (by decide))
        [firstDays 1 2 (by decide), firstDays 5 7 (by decide), firstDays 6 8 (by decide)] =
      .ok plan := by
  obtain ⟨plan, hplan, _, _, _, hperm⟩ := planIncrementalUpdate_exact (firstDays 1 10 (by decide))
    [firstDays 6 8 (by decide), firstDays 1 2 (by decide), firstDays 5 7 (by decide)] (by decide)
  refine ⟨plan, hplan, ?_, hperm _ (by decide)⟩
  obtain rfl := Except.ok.inj hplan
  rfl

end UpdatePlanner
end OptionResearch
