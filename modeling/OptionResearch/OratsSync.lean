import OptionResearch.UpdatePlanner
import Mathlib.Data.List.Dedup
import Mathlib.Data.String.Basic

/-!
# Requests to ORATS and their synchronization plans

`OratsDataRequest` of `data/orats/models.py` and `plan_orats_sync` of
`data/orats/synchronization.py`. A plan pools the valid partitions of all requested symbols before
it subtracts them from the requested days, so it is exact for each symbol only where the symbols
are covered alike.
-/

namespace OptionResearch

open UpdatePlanner OrdinalDate

inductive OratsDatasetKind where
  | optionQuotes
  | optionContracts
  | underlyingPrices
  | volatilityGreeks
  deriving DecidableEq, Repr

inductive OratsFrequency where
  | endOfDay
  | intraday
  deriving DecidableEq, Repr

/-- A request with what `__post_init__` makes sure of. -/
structure OratsDataRequest where
  dataset : OratsDatasetKind
  symbols : List String
  startDate : OrdinalDate
  endDate : OrdinalDate
  frequency : OratsFrequency := .endOfDay
  expirations : Option DateRange := none
  pageSize : Int := 1000
  resumeCursor : Option String := none
  some_symbol : symbols ≠ []
  distinct : symbols.Nodup
  ordered : startDate ≤ endDate
  page_bounds : 1 ≤ pageSize ∧ pageSize ≤ 10000

/-- `str.strip` and `str.upper`. -/
structure SymbolText where
  strip : String → String
  upper : String → String

/-- The symbols as a request keeps them. -/
def SymbolText.normalized (text : SymbolText) (symbols : List String) : List String :=
  StableSort.sortBy id (((symbols.filter fun symbol => text.strip symbol != "").map
    fun symbol => text.upper (text.strip symbol)).dedup)

theorem SymbolText.nodup_normalized (text : SymbolText) (symbols : List String) :
    (text.normalized symbols).Nodup :=
  StableSort.sortBy_perm.nodup_iff.mpr (List.nodup_dedup _)

namespace OratsDataRequest

/-- The constructor, with `__post_init__`. -/
def make (text : SymbolText) (dataset : OratsDatasetKind) (symbols : List String)
    (startDate endDate : OrdinalDate) (frequency : OratsFrequency)
    (expirationStart expirationEnd : Option OrdinalDate) (pageSize : Int)
    (resumeCursor : Option String) : Except Exc OratsDataRequest := do
  if hsymbols : text.normalized symbols = [] then
    .error ⟨.valueError, "At least one symbol is required"⟩
  else if hordered : startDate ≤ endDate then
    if hpage : 1 ≤ pageSize ∧ pageSize ≤ 10000 then
      let expirations ← match expirationStart, expirationEnd with
        | none, none => pure none
        | some first, some last =>
          if h : first ≤ last then pure (some ⟨first, last, h⟩)
          else .error ⟨.valueError, "expiration_start must be on or before expiration_end"⟩
        | _, _ => .error ⟨.valueError, "Both expiration bounds must be supplied together"⟩
      return { dataset, symbols := text.normalized symbols, startDate, endDate, frequency,
               expirations, pageSize, resumeCursor, some_symbol := hsymbols,
               distinct := text.nodup_normalized symbols, ordered := hordered,
               page_bounds := hpage }
    else .error ⟨.valueError, "page_size must be between 1 and 10000"⟩
  else .error ⟨.valueError, "start_date must be on or before end_date"⟩

/-- The requested days. -/
def requested (request : OratsDataRequest) : DateRange :=
  ⟨request.startDate, request.endDate, request.ordered⟩

end OratsDataRequest

structure OratsPartition where
  symbol : String
  dateRange : DateRange
  checksum : String
  schemaVersion : String
  normalizationVersion : String
  finalized : Bool := true
  deriving DecidableEq

structure OratsSyncPlan where
  available : List DateRange
  missing : List DateRange
  stale : List OratsPartition
  requiredDownloads : List (String × DateRange)
  noOp : Bool

section Plan

variable (request : OratsDataRequest) (existing : List OratsPartition)
  (schemaVersion normalizationVersion : String)

def matching : List OratsPartition :=
  existing.filter fun part => request.symbols.contains part.symbol

def stale : List OratsPartition :=
  (matching request existing).filter fun part =>
    part.schemaVersion != schemaVersion || part.normalizationVersion != normalizationVersion

def validRanges : List DateRange :=
  ((matching request existing).filter fun part =>
    !(stale request existing schemaVersion normalizationVersion).contains part &&
      part.finalized).map OratsPartition.dateRange

def planOratsSync : Except Exc OratsSyncPlan := do
  let stale := stale request existing schemaVersion normalizationVersion
  let datePlan ← planIncrementalUpdate request.requested
    (validRanges request existing schemaVersion normalizationVersion)
  let downloads := request.symbols.flatMap fun symbol =>
    datePlan.missing.map fun window => (symbol, window)
  return { available := datePlan.cached
           missing := datePlan.missing
           stale
           requiredDownloads := downloads
           noOp := downloads.isEmpty && stale.isEmpty }

end Plan

/-! ### What a plan is about -/

/-- The partition has the current versions. -/
def OratsPartition.Current (part : OratsPartition) (schemaVersion normalizationVersion : String) :
    Prop :=
  part.schemaVersion = schemaVersion ∧ part.normalizationVersion = normalizationVersion

/-- A finalized partition of the symbol itself, with the current versions, has the day. -/
def Covers (existing : List OratsPartition) (schemaVersion normalizationVersion symbol : String)
    (day : OrdinalDate) : Prop :=
  ∃ part ∈ existing, part.symbol = symbol ∧ part.Current schemaVersion normalizationVersion ∧
    part.finalized = true ∧ part.dateRange.Has day

variable {request : OratsDataRequest} {existing : List OratsPartition}
  {schemaVersion normalizationVersion : String} {part : OratsPartition} {range : DateRange}

theorem mem_matching : part ∈ matching request existing ↔
    part ∈ existing ∧ part.symbol ∈ request.symbols := by
  simp [matching]

theorem mem_stale : part ∈ stale request existing schemaVersion normalizationVersion ↔
    (part ∈ existing ∧ part.symbol ∈ request.symbols) ∧
      ¬ part.Current schemaVersion normalizationVersion := by
  rw [stale, List.mem_filter, mem_matching, OratsPartition.Current]
  simp only [Bool.or_eq_true, bne_iff_ne, ne_eq, not_and_or]

theorem mem_validRanges : range ∈ validRanges request existing schemaVersion normalizationVersion ↔
    ∃ part ∈ existing, part.symbol ∈ request.symbols ∧
      part.Current schemaVersion normalizationVersion ∧ part.finalized = true ∧
      part.dateRange = range := by
  rw [validRanges, List.mem_map]
  refine exists_congr fun part => ?_
  rw [List.mem_filter, mem_matching, Bool.and_eq_true, Bool.not_eq_true', ← Bool.not_eq_true,
    List.contains_iff_mem, mem_stale]
  tauto

/-- No partition is stale where those of the requested symbols are all current. -/
theorem stale_eq_nil_iff : stale request existing schemaVersion normalizationVersion = [] ↔
    ∀ part ∈ existing, part.symbol ∈ request.symbols →
      part.Current schemaVersion normalizationVersion := by
  rw [List.eq_nil_iff_forall_not_mem]
  constructor
  · intro hnone part hpart hsymbol
    by_contra hold
    exact hnone part (mem_stale.mpr ⟨⟨hpart, hsymbol⟩, hold⟩)
  · intro hall part hpart
    obtain ⟨⟨hmem, hsymbol⟩, hold⟩ := mem_stale.mp hpart
    exact hold (hall part hmem hsymbol)

/-- The pooled ranges have the days that some requested symbol is covered on. -/
theorem exists_validRanges_has {day : OrdinalDate} :
    (∃ range ∈ validRanges request existing schemaVersion normalizationVersion, range.Has day) ↔
      ∃ symbol ∈ request.symbols,
        Covers existing schemaVersion normalizationVersion symbol day := by
  constructor
  · rintro ⟨range, hrange, hday⟩
    obtain ⟨part, hpart, hsymbol, hcurrent, hfinalized, rfl⟩ := mem_validRanges.mp hrange
    exact ⟨part.symbol, hsymbol, part, hpart, rfl, hcurrent, hfinalized, hday⟩
  · rintro ⟨symbol, hsymbol, part, hpart, rfl, hcurrent, hfinalized, hday⟩
    exact ⟨_, mem_validRanges.mpr ⟨part, hpart, hsymbol, hcurrent, hfinalized, rfl⟩, hday⟩

/-- The requested symbols are covered alike: on each requested day all of them or none. -/
def CoveredAlike (request : OratsDataRequest) (existing : List OratsPartition)
    (schemaVersion normalizationVersion : String) : Prop :=
  ∀ day, request.requested.Has day → ∀ symbol ∈ request.symbols, ∀ other ∈ request.symbols,
    Covers existing schemaVersion normalizationVersion symbol day →
      Covers existing schemaVersion normalizationVersion other day

/-- No valid partition that touches the requested days ends on the last day there is. -/
def EndsBeforeMax (request : OratsDataRequest) (existing : List OratsPartition)
    (schemaVersion normalizationVersion : String) : Prop :=
  ∀ part ∈ existing, part.symbol ∈ request.symbols →
    part.Current schemaVersion normalizationVersion → part.finalized = true →
    request.startDate ≤ part.dateRange.end → part.dateRange.start ≤ request.endDate →
      part.dateRange.end < maxDate

/-- What a plan says of each symbol by itself. -/
structure ExactPlan (request : OratsDataRequest) (existing : List OratsPartition)
    (schemaVersion normalizationVersion : String) (plan : OratsSyncPlan) : Prop where
  downloads : ∀ symbol ∈ request.symbols, ∀ day, request.requested.Has day →
    ((∃ download ∈ plan.requiredDownloads, download.1 = symbol ∧ download.2.Has day) ↔
      ¬ Covers existing schemaVersion normalizationVersion symbol day)
  once : plan.requiredDownloads.Pairwise fun download other =>
    download.1 = other.1 → ∀ day, ¬ (download.2.Has day ∧ other.2.Has day)
  noOp : plan.noOp = true ↔
    (∀ symbol ∈ request.symbols, ∀ day, request.requested.Has day →
      Covers existing schemaVersion normalizationVersion symbol day) ∧
    ∀ part ∈ existing, part.symbol ∈ request.symbols →
      part.Current schemaVersion normalizationVersion

/-! ### Where a plan is exact -/

variable (request existing schemaVersion normalizationVersion)

theorem mem_downloads {missing : List DateRange} {symbols : List String}
    {download : String × DateRange} :
    download ∈ (symbols.flatMap fun symbol => missing.map fun window => (symbol, window)) ↔
      download.1 ∈ symbols ∧ download.2 ∈ missing := by
  obtain ⟨symbol, window⟩ := download
  simp

/-- Windows without a common day stay so for each of distinct symbols. -/
theorem downloads_once {missing : List DateRange} {symbols : List String}
    (hmissing : missing.Pairwise DateRange.Before) (hsymbols : symbols.Nodup) :
    (symbols.flatMap fun symbol => missing.map fun window => (symbol, window)).Pairwise
      fun download other => download.1 = other.1 →
        ∀ day, ¬ (download.2.Has day ∧ other.2.Has day) := by
  rw [List.pairwise_flatMap]
  constructor
  · intro symbol _
    rw [List.pairwise_map]
    refine hmissing.imp fun {window later} hbefore _ day hboth => ?_
    rw [DateRange.Before] at hbefore
    obtain ⟨hwindow, hlater⟩ := hboth
    rw [has_iff] at hwindow hlater
    dsimp only at hwindow hlater
    omega
  · refine hsymbols.imp fun {symbol other} hne download hdownload later hlater heq => ?_
    obtain ⟨window, -, rfl⟩ := List.mem_map.mp hdownload
    obtain ⟨window', -, rfl⟩ := List.mem_map.mp hlater
    exact absurd heq hne

/-- The download of each missing window for each requested symbol. -/
def downloadsOf (datePlan : IncrementalUpdatePlan) : List (String × DateRange) :=
  request.symbols.flatMap fun symbol => datePlan.missing.map fun window => (symbol, window)

/-- What a plan that is made consists of. -/
theorem planOratsSync_eq_ok_iff {plan : OratsSyncPlan} :
    planOratsSync request existing schemaVersion normalizationVersion = .ok plan ↔
      ∃ datePlan, planIncrementalUpdate request.requested
          (validRanges request existing schemaVersion normalizationVersion) = .ok datePlan ∧
        plan = {
          available := datePlan.cached
          missing := datePlan.missing
          stale := stale request existing schemaVersion normalizationVersion
          requiredDownloads := downloadsOf request datePlan
          noOp := (downloadsOf request datePlan).isEmpty &&
            (stale request existing schemaVersion normalizationVersion).isEmpty } := by
  rw [planOratsSync]
  constructor
  · intro h
    obtain ⟨datePlan, hplan, h⟩ := except_bind_eq_ok.mp h
    exact ⟨datePlan, hplan, (Except.ok.inj h).symm⟩
  · rintro ⟨datePlan, hplan, rfl⟩
    exact except_bind_eq_ok.mpr ⟨datePlan, hplan, rfl⟩

theorem touching_validRanges_iff :
    (∀ range ∈ touching request.requested
        (validRanges request existing schemaVersion normalizationVersion), range.end < maxDate) ↔
      EndsBeforeMax request existing schemaVersion normalizationVersion := by
  constructor
  · intro h part hpart hsymbol hcurrent hfinalized hstart hend
    exact h _ (mem_touching.mpr
      ⟨mem_validRanges.mpr ⟨part, hpart, hsymbol, hcurrent, hfinalized, rfl⟩, hstart, hend⟩)
  · intro h range hrange
    obtain ⟨hvalid, hstart, hend⟩ := mem_touching.mp hrange
    obtain ⟨part, hpart, hsymbol, hcurrent, hfinalized, rfl⟩ := mem_validRanges.mp hvalid
    exact h part hpart hsymbol hcurrent hfinalized hstart hend

/-- The plan of symbols that are covered alike. -/
theorem exactPlan_of_coveredAlike {datePlan : IncrementalUpdatePlan} {plan : OratsSyncPlan}
    (halike : CoveredAlike request existing schemaVersion normalizationVersion)
    (hseparated : datePlan.missing.Pairwise DateRange.Before)
    (hinside : ∀ window ∈ datePlan.missing,
      request.startDate ≤ window.start ∧ window.end ≤ request.endDate)
    (hdays : ∀ day, request.requested.Has day → ((∃ window ∈ datePlan.missing, window.Has day) ↔
      ¬ ∃ symbol ∈ request.symbols,
        Covers existing schemaVersion normalizationVersion symbol day))
    (hdownloads : plan.requiredDownloads = downloadsOf request datePlan)
    (hnoOp : plan.noOp = ((downloadsOf request datePlan).isEmpty &&
      (stale request existing schemaVersion normalizationVersion).isEmpty)) :
    ExactPlan request existing schemaVersion normalizationVersion plan := by
  have hpooled : ∀ symbol ∈ request.symbols, ∀ day, request.requested.Has day →
      ((∃ window ∈ datePlan.missing, window.Has day) ↔
        ¬ Covers existing schemaVersion normalizationVersion symbol day) := by
    intro symbol hsymbol day hday
    rw [hdays day hday]
    refine not_congr ⟨?_, fun hcovers => ⟨symbol, hsymbol, hcovers⟩⟩
    rintro ⟨other, hother, hcovers⟩
    exact halike day hday other hother symbol hsymbol hcovers
  constructor
  case downloads =>
    intro symbol hsymbol day hday
    rw [← hpooled symbol hsymbol day hday, hdownloads]
    constructor
    · rintro ⟨download, hdownload, -, hhas⟩
      exact ⟨download.2, (mem_downloads.mp hdownload).2, hhas⟩
    · rintro ⟨window, hwindow, hhas⟩
      exact ⟨(symbol, window), mem_downloads.mpr ⟨hsymbol, hwindow⟩, rfl, hhas⟩
  case once =>
    rw [hdownloads]
    exact downloads_once hseparated request.distinct
  case noOp =>
    rw [hnoOp, Bool.and_eq_true, List.isEmpty_iff, List.isEmpty_iff]
    refine and_congr ?_ stale_eq_nil_iff
    rw [List.eq_nil_iff_forall_not_mem]
    constructor
    · intro hnone symbol hsymbol day hday
      by_contra hcovers
      obtain ⟨window, hwindow, -⟩ := (hpooled symbol hsymbol day hday).mpr hcovers
      exact hnone (symbol, window) (mem_downloads.mpr ⟨hsymbol, hwindow⟩)
    · intro hall download hdownload
      obtain ⟨hsymbol, hwindow⟩ := mem_downloads.mp hdownload
      obtain ⟨hstart, hend⟩ := hinside download.2 hwindow
      have hordered := start_le_end download.2
      -- a window has its first day
      have hfirst : request.requested.Has download.2.start :=
        ⟨hstart, Int.le_trans hordered hend⟩
      exact (hpooled _ hsymbol _ hfirst).mp ⟨download.2, hwindow, Int.le_refl _, hordered⟩
        (hall _ hsymbol _ hfirst)

/-- A plan is made and exact for each symbol where the requested symbols are covered alike and no
valid partition ends on the last day there is, and nowhere else. -/
theorem planOratsSync_exact_iff :
    (∃ plan, planOratsSync request existing schemaVersion normalizationVersion = .ok plan ∧
        ExactPlan request existing schemaVersion normalizationVersion plan) ↔
      EndsBeforeMax request existing schemaVersion normalizationVersion ∧
        CoveredAlike request existing schemaVersion normalizationVersion := by
  constructor
  · rintro ⟨plan, hplan, hexact⟩
    obtain ⟨datePlan, hdatePlan, rfl⟩ :=
      (planOratsSync_eq_ok_iff request existing schemaVersion normalizationVersion).mp hplan
    refine ⟨(touching_validRanges_iff request existing schemaVersion normalizationVersion).mp
      (before_max_of_planIncrementalUpdate hdatePlan), ?_⟩
    intro day hday symbol hsymbol other hother hcovers
    by_contra hnot
    -- a download of the one symbol is one of the other
    obtain ⟨download, hdownload, -, hhas⟩ := (hexact.downloads other hother day hday).mpr hnot
    have hsame : (symbol, download.2) ∈ downloadsOf request datePlan :=
      mem_downloads.mpr ⟨hsymbol, (mem_downloads.mp hdownload).2⟩
    exact (hexact.downloads symbol hsymbol day hday).mp ⟨_, hsame, rfl, hhas⟩ hcovers
  · rintro ⟨hmax, halike⟩
    obtain ⟨datePlan, hdatePlan, hseparated, hinside, hdays⟩ := planIncrementalUpdate_gaps
      request.requested (validRanges request existing schemaVersion normalizationVersion)
      ((touching_validRanges_iff request existing schemaVersion normalizationVersion).mpr hmax)
    refine ⟨_, (planOratsSync_eq_ok_iff request existing schemaVersion normalizationVersion).mpr
      ⟨datePlan, hdatePlan, rfl⟩, ?_⟩
    refine exactPlan_of_coveredAlike request existing schemaVersion normalizationVersion halike
      hseparated hinside ?_ rfl rfl
    intro day hday
    rw [hdays day hday, exists_validRanges_has]

/-- Two symbols for one day. -/
def twoSymbols : OratsDataRequest where
  dataset := .optionQuotes
  symbols := ["AAPL", "MSFT"]
  startDate := ⟨739617, by decide, by decide⟩
  endDate := ⟨739617, by decide, by decide⟩
  some_symbol := by decide
  distinct := by decide
  ordered := by decide
  page_bounds := by decide

/-- The day of the first of them. -/
def appleDay : OratsPartition where
  symbol := "AAPL"
  dateRange := twoSymbols.requested
  checksum := "0"
  schemaVersion := "orats-eod-fixture-v1"
  normalizationVersion := "orats-canonical-v1"

/-- With the day of one symbol at hand, nothing is downloaded for the other. -/
theorem planOratsSync_twoSymbols_inexact :
    ¬ ∃ plan, planOratsSync twoSymbols [appleDay] "orats-eod-fixture-v1" "orats-canonical-v1" =
        .ok plan ∧
      ExactPlan twoSymbols [appleDay] "orats-eod-fixture-v1" "orats-canonical-v1" plan := by
  rintro ⟨plan, hplan, hexact⟩
  have hnothing : (planOratsSync twoSymbols [appleDay] "orats-eod-fixture-v1"
      "orats-canonical-v1").toOption.map OratsSyncPlan.noOp = some true := by decide
  rw [hplan] at hnothing
  have hcovered := (hexact.noOp.mp (Option.some.inj hnothing)).1 "MSFT"
    (List.mem_cons_of_mem _ List.mem_cons_self) twoSymbols.startDate
    ⟨Int.le_refl _, Int.le_refl _⟩
  obtain ⟨part, hpart, hsymbol, -⟩ := hcovered
  obtain rfl := List.mem_singleton.mp hpart
  exact absurd hsymbol (by decide)

end OptionResearch
