import OptionResearch.ResearchFills
import OptionResearch.SortedSearch

/-!
# The quote that each mode asks for

Of quotes at distinct times `QuoteSelector.select` returns the one at the time of the request, the
first from the delayed time on or the last up to the time of the request, whatever the order in
which they come. By default nothing later than the request is looked at. A negative delay is none.
-/

namespace OptionResearch
namespace QuoteSelector

variable {text : PyText} {selector : QuoteSelector} {requestTimestamp ts delayedTs : DateTime}
  {quotes others : List Payload} {policy : QuoteSelectionPolicy} {delaySeconds : ℚ} {mode : String}
  {row : Payload} {selection : QuoteSelectionResult}

/-! ### The row that is picked -/

/-- No two quotes are of the same moment. -/
def DistinctTimes (quotes : List Payload) : Prop :=
  (quotes.map fun row => (rowTime row).instant).Nodup

instance : Decidable (DistinctTimes quotes) :=
  inferInstanceAs (Decidable (quotes.map fun row => (rowTime row).instant).Nodup)

/-- The quote that a mode asks for. -/
def Asked (mode : String) (ts delayedTs : DateTime) (quotes : List Payload) (row : Payload) :
    Prop :=
  row ∈ quotes ∧
    if mode = "exact" then (rowTime row).instant = ts.instant
    else if mode = "next_after_delay" then
      delayedTs ≤ rowTime row ∧
        ∀ other ∈ quotes, delayedTs ≤ rowTime other → rowTime row ≤ rowTime other
    else rowTime row ≤ ts ∧ ∀ other ∈ quotes, rowTime other ≤ ts → rowTime other ≤ rowTime row

def ordered (quotes : List Payload) : List Payload :=
  StableSort.sortBy (fun row => (rowTime row).instant) quotes

theorem increasing_ordered (h : DistinctTimes quotes) :
    SortedScans.Increasing (fun row => (rowTime row).instant) (ordered quotes) :=
  StableSort.sortBy_strict h

/-- The default scan stops too late for nothing. -/
theorem takeWhile_ordered (quotes : List Payload) (ts : DateTime) :
    ((ordered quotes).takeWhile fun row => rowTime row ≤ ts) =
      (ordered quotes).filter fun row => rowTime row ≤ ts := by
  apply SortedScans.takeWhile_eq_filter
  refine (StableSort.sortBy_sorted _ quotes).imp fun {a b} hab hb => ?_
  exact decide_eq_true (le_trans hab (of_decide_eq_true hb))

theorem pick_eq_some_iff (h : DistinctTimes quotes) :
    pick mode ts delayedTs (ordered quotes) = some row ↔ Asked mode ts delayedTs quotes row := by
  have hmem : ∀ other, other ∈ ordered quotes ↔ other ∈ quotes := fun _ => StableSort.mem_sortBy
  rw [pick, Asked]
  split_ifs with hexact hnext
  · rw [SortedScans.find?_eq_some_iff (increasing_ordered h), SortedScans.Least, hmem]
    simp only [decide_eq_true_eq]
    refine and_congr_right fun _ => and_iff_left_of_imp fun hrow other _ hother => ?_
    exact (hrow.trans hother.symm).le
  · rw [SortedScans.find?_eq_some_iff (increasing_ordered h), SortedScans.Least, hmem]
    simp only [decide_eq_true_eq, hmem]
    exact Iff.rfl
  · rw [takeWhile_ordered, SortedScans.getLast?_filter_eq_some_iff (increasing_ordered h),
      SortedScans.Greatest, hmem]
    simp only [decide_eq_true_eq, hmem]
    exact Iff.rfl

theorem ordered_perm (h : DistinctTimes quotes) (hperm : quotes.Perm others) :
    ordered quotes = ordered others :=
  StableSort.sortBy_eq_of_perm (fun _ ha _ hb => List.inj_on_of_nodup_map h ha hb) hperm

/-- By default, what is later than the request plays no part. -/
theorem pick_of_later {later : List Payload} (hexact : mode ≠ "exact")
    (hnext : mode ≠ "next_after_delay") (h : DistinctTimes quotes)
    (hlater : ∀ row ∈ later, ts < rowTime row) (hperm : (quotes ++ later).Perm others) :
    pick mode ts delayedTs (ordered others) = pick mode ts delayedTs (ordered quotes) := by
  have hnone : (later.filter fun row => rowTime row ≤ ts) = [] := by
    rw [List.filter_eq_nil_iff]
    intro row hrow hle
    exact DateTime.not_le_iff.mpr (hlater row hrow) (of_decide_eq_true hle)
  have hfilter : (others.filter fun row => rowTime row ≤ ts).Perm
      (quotes.filter fun row => rowTime row ≤ ts) := by
    have hsame := (hperm.symm.filter fun row => rowTime row ≤ ts)
    rwa [List.filter_append, hnone, List.append_nil] at hsame
  have hsorted : ((ordered others).filter fun row => rowTime row ≤ ts) =
      (ordered quotes).filter fun row => rowTime row ≤ ts := by
    rw [ordered, ordered, StableSort.filter_sortBy, StableSort.filter_sortBy]
    refine StableSort.sortBy_eq_of_perm (fun a ha b hb => ?_) hfilter
    rw [hfilter.mem_iff] at ha hb
    exact List.inj_on_of_nodup_map h (List.mem_of_mem_filter ha) (List.mem_of_mem_filter hb)
  rw [pick, pick, if_neg hexact, if_neg hexact, if_neg hnext, if_neg hnext, takeWhile_ordered,
    takeWhile_ordered, hsorted]

/-! ### The selection -/

/-- The prices of a row are numbers or missing, and its flags can be listed. -/
structure Legible (text : PyText) (row : Payload) : Prop where
  prices : ∀ key ∈ ["bid", "ask", "last"], ∃ x, asFloat text (row.get key .none) = .ok x
  flags : ∃ flags, (row.get "quality_flags" (.list [])).iter = .ok flags

/-- The result without a quote. -/
def missingQuote (mode : String) : QuoteSelectionResult where
  selectedQuote := none
  selectedPrice := none
  quoteAgeSeconds := none
  spreadWidth := none
  qualityFlags := ["missing_quote"]
  staleData := true
  crossedMarket := false
  sourceManifest := .none
  diagnostics := [("policy_mode", .str mode)]

/-- The time from which `next_after_delay` takes a quote. -/
def delayed (requestTimestamp : DateTime) (delaySeconds : ℚ) : DateTime :=
  requestTimestamp.ensureAware.addSeconds (max 0 delaySeconds)

/-- The row that a call picks. -/
def picked (requestTimestamp : DateTime) (quotes : List Payload) (policy : QuoteSelectionPolicy)
    (delaySeconds : ℚ) : Option Payload :=
  pick policy.mode requestTimestamp.ensureAware (delayed requestTimestamp delaySeconds)
    (ordered quotes)

theorem select_congr (h : picked requestTimestamp others policy delaySeconds =
      picked requestTimestamp quotes policy delaySeconds) :
    selector.select text requestTimestamp others policy delaySeconds =
      selector.select text requestTimestamp quotes policy delaySeconds := by
  rw [picked, picked, ordered, ordered, delayed] at h
  rw [select, select]
  dsimp only
  rw [h]

theorem select_of_none (hfallback : policy.theoreticalFallbackEnabled = false)
    (h : picked requestTimestamp quotes policy delaySeconds = none) :
    selector.select text requestTimestamp quotes policy delaySeconds =
      .ok (missingQuote policy.mode) := by
  rw [picked, ordered, delayed] at h
  rw [select]
  dsimp only
  rw [h, hfallback]
  rfl

theorem select_of_some (hfallback : policy.theoreticalFallbackEnabled = false)
    (h : picked requestTimestamp quotes policy delaySeconds = some row) :
    (∀ selection, selector.select text requestTimestamp quotes policy delaySeconds =
        .ok selection → selection.selectedQuote = some row) ∧
      ((∃ selection, selector.select text requestTimestamp quotes policy delaySeconds =
        .ok selection) ↔ Legible text row) := by
  rw [picked, ordered, delayed] at h
  rw [select]
  dsimp only
  rw [h, hfallback]
  refine ⟨fun selection hselection => ?_, ?_, fun hlegible => ?_⟩
  · obtain ⟨bid, -, hselection⟩ := except_bind_eq_ok.mp hselection
    obtain ⟨ask, -, hselection⟩ := except_bind_eq_ok.mp hselection
    obtain ⟨last, -, hselection⟩ := except_bind_eq_ok.mp hselection
    obtain ⟨flags, -, hselection⟩ := except_bind_eq_ok.mp hselection
    obtain rfl := Except.ok.inj hselection
    rfl
  · rintro ⟨selection, hselection⟩
    obtain ⟨bid, hbid, hselection⟩ := except_bind_eq_ok.mp hselection
    obtain ⟨ask, hask, hselection⟩ := except_bind_eq_ok.mp hselection
    obtain ⟨last, hlast, hselection⟩ := except_bind_eq_ok.mp hselection
    obtain ⟨flags, hflags, -⟩ := except_bind_eq_ok.mp hselection
    refine ⟨fun key hkey => ?_, flags, hflags⟩
    simp only [List.mem_cons, List.not_mem_nil, or_false] at hkey
    rcases hkey with rfl | rfl | rfl
    · exact ⟨bid, hbid⟩
    · exact ⟨ask, hask⟩
    · exact ⟨last, hlast⟩
  · obtain ⟨bid, hbid⟩ := hlegible.prices "bid" (by simp)
    obtain ⟨ask, hask⟩ := hlegible.prices "ask" (by simp)
    obtain ⟨last, hlast⟩ := hlegible.prices "last" (by simp)
    obtain ⟨flags, hflags⟩ := hlegible.flags
    refine exists_bind_eq_ok hbid (exists_bind_eq_ok hask (exists_bind_eq_ok hlast ?_))
    exact exists_bind_eq_ok hflags ⟨_, rfl⟩

/-- A selection is the quote that the mode asks for, from the request time plus a delay that is not
negative. -/
theorem select_asked (text : PyText) (selector : QuoteSelector) (requestTimestamp : DateTime)
    (quotes : List Payload) (policy : QuoteSelectionPolicy) (delaySeconds : ℚ)
    (htimes : DistinctTimes quotes) (hfallback : policy.theoreticalFallbackEnabled = false) :
    (∀ row, Asked policy.mode requestTimestamp.ensureAware
        (requestTimestamp.ensureAware.addSeconds (max 0 delaySeconds)) quotes row →
      (∀ selection, selector.select text requestTimestamp quotes policy delaySeconds =
          .ok selection → selection.selectedQuote = some row) ∧
        ((∃ selection, selector.select text requestTimestamp quotes policy delaySeconds =
          .ok selection) ↔ Legible text row)) ∧
      (selector.select text requestTimestamp quotes policy delaySeconds =
          .ok (missingQuote policy.mode) ↔
        ¬ ∃ row, Asked policy.mode requestTimestamp.ensureAware
          (requestTimestamp.ensureAware.addSeconds (max 0 delaySeconds)) quotes row) ∧
      (∀ others, quotes.Perm others →
        selector.select text requestTimestamp others policy delaySeconds =
          selector.select text requestTimestamp quotes policy delaySeconds) ∧
      (policy.mode ≠ "exact" → policy.mode ≠ "next_after_delay" → ∀ later others,
        (∀ row ∈ later, requestTimestamp < rowTime row) → (quotes ++ later).Perm others →
          selector.select text requestTimestamp others policy delaySeconds =
            selector.select text requestTimestamp quotes policy delaySeconds) := by
  have hpicked : ∀ row, picked requestTimestamp quotes policy delaySeconds = some row ↔
      Asked policy.mode requestTimestamp.ensureAware
        (requestTimestamp.ensureAware.addSeconds (max 0 delaySeconds)) quotes row :=
    fun row => pick_eq_some_iff htimes
  refine ⟨fun row hrow => select_of_some hfallback ((hpicked row).mpr hrow), ⟨?_, ?_⟩, ?_, ?_⟩
  · rintro hmissing ⟨row, hrow⟩
    have hselected := (select_of_some hfallback ((hpicked row).mpr hrow)).1 _ hmissing
    exact nomatch hselected
  · intro hnone
    apply select_of_none hfallback
    cases hrow : picked requestTimestamp quotes policy delaySeconds with
    | none => rfl
    | some row => exact absurd ⟨row, (hpicked row).mp hrow⟩ hnone
  · intro others hperm
    apply select_congr
    rw [picked, picked, ordered_perm htimes hperm]
  · intro hexact hnext later others hlater hperm
    apply select_congr
    refine pick_of_later hexact hnext htimes (fun row hrow => ?_) hperm
    exact DateTime.ensureAware_lt_left_iff.mpr (hlater row hrow)

/-- A quote `seconds` after the epoch. -/
def quoteAt (seconds : Int) : Payload :=
  [("timestamp", .datetime ⟨seconds * 1000000, none⟩), ("bid", .float 1), ("ask", .float 1)]

/-- Of three quotes the second is the last up to the time of the request, and the third is not
missed. -/
theorem select_asked_quoteAt : ∃ selection,
    select plainText {} ⟨5000000, some 0⟩ [quoteAt 3, quoteAt 0] ⟨"", .bid, 1 / 2, false⟩ 0 =
        .ok selection ∧ selection.selectedQuote = some (quoteAt 3) ∧
      select plainText {} ⟨5000000, some 0⟩ [quoteAt 0, quoteAt 9, quoteAt 3]
        ⟨"", .bid, 1 / 2, false⟩ 0 = .ok selection := by
  obtain ⟨hasked, -, -, hlater⟩ := select_asked plainText {} ⟨5000000, some 0⟩
    [quoteAt 3, quoteAt 0] ⟨"", .bid, 1 / 2, false⟩ 0 (by decide) rfl
  have hrow : Asked "" ⟨5000000, some 0⟩ ((⟨5000000, some 0⟩ : DateTime).addSeconds (max 0 0))
      [quoteAt 3, quoteAt 0] (quoteAt 3) := by
    refine ⟨List.mem_cons_self, ?_⟩
    rw [if_neg (by decide), if_neg (by decide)]
    refine ⟨by decide, fun other hother _ => ?_⟩
    simp only [List.mem_cons, List.not_mem_nil, or_false] at hother
    rcases hother with rfl | rfl <;> decide
  have hlegible : Legible plainText (quoteAt 3) := by
    refine ⟨fun key hkey => ?_, [], rfl⟩
    simp only [List.mem_cons, List.not_mem_nil, or_false] at hkey
    rcases hkey with rfl | rfl | rfl <;> exact ⟨_, rfl⟩
  obtain ⟨hselected, hreturns⟩ := hasked _ hrow
  obtain ⟨selection, hselection⟩ := hreturns.mpr hlegible
  refine ⟨selection, hselection, hselected _ hselection, ?_⟩
  rw [← hselection]
  refine hlater (by decide) (by decide) [quoteAt 9] _ (fun row hrow => ?_) ?_
  · rw [List.mem_singleton.mp hrow]
    decide
  · exact (List.perm_append_singleton (quoteAt 3) [quoteAt 0, quoteAt 9]).symm

/-- With a delay of less than nothing, the first quote from the delayed time on may be missed. -/
theorem missed_after_negative_delay : ¬ ∀ (text : PyText) (selector : QuoteSelector)
    (requestTimestamp : DateTime) (quotes : List Payload) (policy : QuoteSelectionPolicy)
    (delaySeconds : ℚ) (row : Payload) (selection : QuoteSelectionResult),
      DistinctTimes quotes → policy.theoreticalFallbackEnabled = false →
      policy.mode = "next_after_delay" →
      Asked policy.mode requestTimestamp.ensureAware
        (requestTimestamp.ensureAware.addSeconds delaySeconds) quotes row →
      selector.select text requestTimestamp quotes policy delaySeconds = .ok selection →
      selection.selectedQuote = some row := by
  intro h
  have hrow : Asked "next_after_delay" ⟨5000000, some 0⟩
      ((⟨5000000, some 0⟩ : DateTime).addSeconds (-5)) [quoteAt 3] (quoteAt 3) := by
    refine ⟨List.mem_cons_self, ?_⟩
    rw [if_neg (by decide), if_pos rfl]
    refine ⟨by decide +kernel, fun other hother _ => ?_⟩
    rw [List.mem_singleton.mp hother]
  have hnone : picked ⟨5000000, some 0⟩ [quoteAt 3]
      ⟨"next_after_delay", .bid, 1 / 2, false⟩ (-5) = none :=
    Option.isNone_iff_eq_none.mp (by decide +kernel)
  have hmissed := h plainText {} ⟨5000000, some 0⟩ [quoteAt 3]
    ⟨"next_after_delay", .bid, 1 / 2, false⟩ (-5) (quoteAt 3) _ (by decide) rfl rfl hrow
    (select_of_none rfl hnone)
  exact nomatch hmissed

end QuoteSelector
end OptionResearch
