import OptionResearch.WalkForward
import Mathlib.Data.String.Basic
import Mathlib.Tactic.IntervalCases

/-!
# Clock readings in UTC and their texts

The proleptic Gregorian calendar as `datetime` counts it, readings of a UTC clock, and their ISO
texts. Numerals of one width compare as their numbers, so that texts with and without microseconds
compare as the instants they stand for.
-/

namespace OptionResearch

/-! ### The calendar -/

namespace Calendar

/-- `_is_leap`. -/
def isLeap (year : Nat) : Bool := year % 4 == 0 && (year % 100 != 0 || year % 400 == 0)

/-- `_days_before_year`. -/
def daysBeforeYear (year : Nat) : Nat :=
  (year - 1) * 365 + (year - 1) / 4 - (year - 1) / 100 + (year - 1) / 400

/-- `_days_in_month`. -/
def daysInMonth (leap : Bool) (month : Nat) : Nat :=
  if month = 2 ∧ leap then 29
  else [0, 31, 28, 31, 30, 31, 30, 31, 31, 30, 31, 30, 31].getD month 0

/-- `_days_before_month`. -/
def daysBeforeMonth (leap : Bool) (month : Nat) : Nat :=
  [0, 0, 31, 59, 90, 120, 151, 181, 212, 243, 273, 304, 334].getD month 0 +
    if 2 < month ∧ leap then 1 else 0

/-- `_ymd2ord`. -/
def toOrdinal (year month day : Nat) : Nat :=
  daysBeforeYear year + daysBeforeMonth (isLeap year) month + day

/-- The month and the day of the month, from the days of the year before it. -/
def monthDay (leap : Bool) (days : Nat) : Nat × Nat :=
  let month := (days + 50) / 32
  if daysBeforeMonth leap month > days then (month - 1, days - daysBeforeMonth leap (month - 1) + 1)
  else (month, days - daysBeforeMonth leap month + 1)

/-- `_ord2ymd`. -/
def ofOrdinal (ordinal : Nat) : Nat × Nat × Nat :=
  let days := ordinal - 1
  let n400 := days / 146097
  let n100 := days % 146097 / 36524
  let n4 := days % 146097 % 36524 / 1461
  let n1 := days % 146097 % 36524 % 1461 / 365
  let year := n400 * 400 + 1 + n100 * 100 + n4 * 4 + n1
  if n1 = 4 ∨ n100 = 4 then (year - 1, 12, 31)
  else (year, monthDay (n1 == 3 && (n4 != 24 || n100 == 3))
    (days % 146097 % 36524 % 1461 % 365))

/-- A day of a month of a year. -/
def Valid (year month day : Nat) : Prop :=
  1 ≤ year ∧ 1 ≤ month ∧ month ≤ 12 ∧ 1 ≤ day ∧ day ≤ daysInMonth (isLeap year) month

theorem isLeap_iff {year : Nat} :
    isLeap year = true ↔ 4 ∣ year ∧ (¬ 100 ∣ year ∨ 400 ∣ year) := by
  simp [isLeap, Nat.dvd_iff_mod_eq_zero]

theorem daysBeforeYear_succ {year : Nat} (h : 1 ≤ year) :
    daysBeforeYear (year + 1) = daysBeforeYear year + 365 + if isLeap year then 1 else 0 := by
  obtain ⟨y, rfl⟩ := Nat.exists_eq_add_of_le' h
  have hle : y / 100 ≤ y := Nat.div_le_self _ _
  have hdvd : (400 ∣ y + 1 → 100 ∣ y + 1) ∧ (100 ∣ y + 1 → 4 ∣ y + 1) :=
    ⟨(by decide : 100 ∣ 400).trans, (by decide : 4 ∣ 100).trans⟩
  simp only [daysBeforeYear, Nat.add_sub_cancel, Nat.succ_div, isLeap_iff]
  generalize y / 4 = fourth, y / 100 = hundredth, y / 400 = part at *
  by_cases h4 : 4 ∣ y + 1 <;> by_cases h100 : 100 ∣ y + 1 <;> by_cases h400 : 400 ∣ y + 1 <;>
    simp only [h4, h100, h400, if_true, if_false, true_and, false_and, not_true, not_false_iff,
      true_or, or_true, or_self, and_self] <;>
    omega

theorem daysInMonth_le : ∀ leap : Bool, ∀ month < 13, daysInMonth leap month ≤ 31 := by
  decide

theorem monthDay_spec : ∀ leap : Bool, ∀ days < 365,
    1 ≤ (monthDay leap days).1 ∧ (monthDay leap days).1 ≤ 12 ∧ 1 ≤ (monthDay leap days).2 ∧
      (monthDay leap days).2 ≤ daysInMonth leap (monthDay leap days).1 ∧
      daysBeforeMonth leap (monthDay leap days).1 + (monthDay leap days).2 = days + 1 := by
  decide +kernel

/-- A year's months follow one another, up to its end. -/
theorem daysBeforeMonth_add_daysInMonth : ∀ leap : Bool, ∀ month < 13, 1 ≤ month →
    daysBeforeMonth leap month + daysInMonth leap month =
      if month = 12 then 365 + (if leap then 1 else 0) else daysBeforeMonth leap (month + 1) := by
  decide

theorem daysBeforeMonth_le : ∀ leap : Bool, ∀ later < 13, ∀ month < later, 1 ≤ month →
    daysBeforeMonth leap (month + 1) ≤ daysBeforeMonth leap later := by
  decide

theorem daysBeforeYear_le {year later : Nat} (hyear : 1 ≤ year) (h : year < later) :
    daysBeforeYear (year + 1) ≤ daysBeforeYear later := by
  induction later, h using Nat.le_induction with
  | base => exact le_rfl
  | succ later hle ih => exact ih.trans (by rw [daysBeforeYear_succ (by omega)]; omega)

/-- What dates are compared by. -/
def dateKey (year month day : Nat) : ℕ ×ₗ ℕ ×ₗ ℕ := toLex (year, toLex (month, day))

/-- A day comes before the end of its year. -/
theorem Valid.toOrdinal_le {year month day : Nat} (h : Valid year month day) :
    toOrdinal year month day ≤ daysBeforeYear (year + 1) := by
  obtain ⟨hyear, hmonth, hmonth', -, hday⟩ := h
  have hends := daysBeforeMonth_add_daysInMonth (isLeap year) month (by omega) hmonth
  have hlast : daysBeforeMonth (isLeap year) month + daysInMonth (isLeap year) month ≤
      365 + if isLeap year then 1 else 0 := by
    by_cases h12 : month = 12
    · rw [if_pos h12] at hends
      exact hends.le
    · rw [if_neg h12] at hends
      have hnext := daysBeforeMonth_le (isLeap year) 12 (by omega) month (by omega) hmonth
      have hdecember := daysBeforeMonth_add_daysInMonth (isLeap year) 12 (by omega) (by omega)
      rw [if_pos rfl] at hdecember
      omega
  rw [daysBeforeYear_succ hyear, toOrdinal]
  omega

/-- Later dates have later ordinals. -/
theorem toOrdinal_lt {year month day year' month' day' : Nat} (h : Valid year month day)
    (h' : Valid year' month' day') (hlt : dateKey year month day < dateKey year' month' day') :
    toOrdinal year month day < toOrdinal year' month' day' := by
  have hend := h.toOrdinal_le
  obtain ⟨hyear, hmonth, hmonth', hday, hday'⟩ := h
  obtain ⟨-, hmonth₁, hmonth₂, hday₁, -⟩ := h'
  simp only [dateKey, Prod.Lex.toLex_lt_toLex] at hlt
  rcases hlt with hyears | ⟨rfl, hmonths | ⟨rfl, hdays⟩⟩
  · have hyears' := daysBeforeYear_le hyear hyears
    rw [toOrdinal] at hend ⊢
    rw [toOrdinal]
    omega
  · have hnext := daysBeforeMonth_le (isLeap year) month' (by omega) month hmonths hmonth
    have hends := daysBeforeMonth_add_daysInMonth (isLeap year) month (by omega) hmonth
    rw [if_neg (by omega)] at hends
    rw [toOrdinal, toOrdinal]
    omega
  · rw [toOrdinal, toOrdinal]
    omega

/-- The years before one that is written in centuries and cycles of four years. -/
theorem daysBeforeYear_cycles {n400 n100 n4 n1 : Nat} (h100 : n100 ≤ 3) (h4 : n4 ≤ 24)
    (h1 : n1 ≤ 3) :
    daysBeforeYear (n400 * 400 + 1 + n100 * 100 + n4 * 4 + n1) =
      n400 * 146097 + n100 * 36524 + n4 * 1461 + n1 * 365 := by
  have hyear : n400 * 400 + 1 + n100 * 100 + n4 * 4 + n1 - 1 =
      n400 * 400 + n100 * 100 + n4 * 4 + n1 := by omega
  have hfourth : (n400 * 400 + n100 * 100 + n4 * 4 + n1) / 4 = n400 * 100 + n100 * 25 + n4 := by
    omega
  have hcentury : (n400 * 400 + n100 * 100 + n4 * 4 + n1) / 100 = n400 * 4 + n100 := by omega
  have hcycle : (n400 * 400 + n100 * 100 + n4 * 4 + n1) / 400 = n400 := by omega
  rw [daysBeforeYear, hyear, hfourth, hcentury, hcycle]
  omega

theorem isLeap_cycles {n400 n100 n4 n1 : Nat} (h100 : n100 ≤ 3) (h4 : n4 ≤ 24) (h1 : n1 ≤ 3) :
    isLeap (n400 * 400 + 1 + n100 * 100 + n4 * 4 + n1) =
      (n1 == 3 && (n4 != 24 || n100 == 3)) := by
  have hfourth : (n400 * 400 + 1 + n100 * 100 + n4 * 4 + n1) % 4 = 0 ↔ n1 = 3 := by omega
  have hcentury : n1 = 3 →
      ((n400 * 400 + 1 + n100 * 100 + n4 * 4 + n1) % 100 = 0 ↔ n4 = 24) := by omega
  have hcycle : n1 = 3 → n4 = 24 →
      ((n400 * 400 + 1 + n100 * 100 + n4 * 4 + n1) % 400 = 0 ↔ n100 = 3) := by omega
  rw [Bool.eq_iff_iff]
  simp only [isLeap, Bool.and_eq_true, Bool.or_eq_true, beq_iff_eq, bne_iff_ne, hfourth]
  constructor
  · rintro ⟨h3, hrest⟩
    by_cases h24 : n4 = 24
    · exact ⟨h3, .inr ((hcycle h3 h24).mp (hrest.resolve_left fun h => h ((hcentury h3).mpr h24)))⟩
    · exact ⟨h3, .inl h24⟩
  · rintro ⟨h3, hrest⟩
    refine ⟨h3, ?_⟩
    by_cases h24 : n4 = 24
    · exact .inr ((hcycle h3 h24).mpr (hrest.resolve_left (not_not.mpr h24)))
    · exact .inl (mt (hcentury h3).mp h24)

/-- The last day of a leap year. -/
theorem last_day_of_leap_year {year ordinal : Nat} (hyear : 1 ≤ year) (hleap : isLeap year = true)
    (h : ordinal = daysBeforeYear year + 366) :
    Valid year 12 31 ∧ toOrdinal year 12 31 = ordinal := by
  refine ⟨⟨hyear, by omega, le_rfl, by omega, ?_⟩, ?_⟩
  · rw [hleap]
    decide
  · rw [toOrdinal, hleap, h]
    rfl

/-- `_ord2ymd` finds the date of an ordinal. -/
theorem ofOrdinal_spec {ordinal : Nat} (h : 1 ≤ ordinal) :
    Valid (ofOrdinal ordinal).1 (ofOrdinal ordinal).2.1 (ofOrdinal ordinal).2.2 ∧
      toOrdinal (ofOrdinal ordinal).1 (ofOrdinal ordinal).2.1 (ofOrdinal ordinal).2.2 =
        ordinal := by
  obtain ⟨days, rfl⟩ := Nat.exists_eq_add_of_le' h
  simp only [ofOrdinal, Nat.add_sub_cancel]
  have hdays : days = days / 146097 * 146097 + days % 146097 / 36524 * 36524 +
      days % 146097 % 36524 / 1461 * 1461 + days % 146097 % 36524 % 1461 / 365 * 365 +
      days % 146097 % 36524 % 1461 % 365 := by omega
  have hrest : days % 146097 % 36524 % 1461 % 365 < 365 := Nat.mod_lt _ (by decide)
  have hcentury : days % 146097 / 36524 = 4 → days % 146097 % 36524 / 1461 = 0 ∧
      days % 146097 % 36524 % 1461 / 365 = 0 ∧ days % 146097 % 36524 % 1461 % 365 = 0 := by omega
  have hyears : days % 146097 % 36524 % 1461 / 365 = 4 →
      days % 146097 % 36524 / 1461 ≠ 24 ∧ days % 146097 % 36524 % 1461 % 365 = 0 := by omega
  have h100 : days % 146097 / 36524 ≤ 4 := by omega
  have h4 : days % 146097 % 36524 / 1461 ≤ 24 := by omega
  have h1 : days % 146097 % 36524 % 1461 / 365 ≤ 4 := by omega
  generalize days / 146097 = n400, days % 146097 / 36524 = n100,
    days % 146097 % 36524 / 1461 = n4, days % 146097 % 36524 % 1461 / 365 = n1,
    days % 146097 % 36524 % 1461 % 365 = rest at *
  by_cases hlast : n1 = 4 ∨ n100 = 4
  · rw [if_pos hlast]
    dsimp only
    by_cases hfour : n100 = 4
    · obtain ⟨rfl, rfl, rfl⟩ := hcentury hfour
      have hyear : n400 * 400 + 1 + n100 * 100 + 0 * 4 + 0 - 1 =
          n400 * 400 + 1 + 3 * 100 + 24 * 4 + 3 := by omega
      rw [hyear]
      refine last_day_of_leap_year (by omega) ?_ ?_
      · rw [isLeap_cycles (by omega) (by omega) (by omega)]
        rfl
      · rw [daysBeforeYear_cycles (by omega) (by omega) (by omega)]
        omega
    · obtain rfl : n1 = 4 := hlast.resolve_right hfour
      obtain ⟨h24, rfl⟩ := hyears rfl
      have hyear : n400 * 400 + 1 + n100 * 100 + n4 * 4 + 4 - 1 =
          n400 * 400 + 1 + n100 * 100 + n4 * 4 + 3 := by omega
      rw [hyear]
      refine last_day_of_leap_year (by omega) ?_ ?_
      · rw [isLeap_cycles (by omega) (by omega) (by omega)]
        simp [h24]
      · rw [daysBeforeYear_cycles (by omega) (by omega) (by omega)]
        omega
  · rw [if_neg hlast]
    dsimp only
    rw [not_or] at hlast
    obtain ⟨hmonth, hmonth', hday, hday', hmonths⟩ :=
      monthDay_spec (n1 == 3 && (n4 != 24 || n100 == 3)) rest hrest
    have hleap := @isLeap_cycles n400 n100 n4 n1 (by omega) (by omega) (by omega)
    have hbefore := @daysBeforeYear_cycles n400 n100 n4 n1 (by omega) (by omega) (by omega)
    refine ⟨⟨by omega, hmonth, hmonth', hday, by rw [hleap]; exact hday'⟩, ?_⟩
    rw [toOrdinal, hleap, hbefore]
    omega

/-- The ordinals of dates are those up to that of 9999-12-31. -/
theorem ofOrdinal_year_le {ordinal : Nat} (h : 1 ≤ ordinal) (hmax : ordinal ≤ 3652059) :
    (ofOrdinal ordinal).1 ≤ 9999 := by
  obtain ⟨⟨hyear, -, -, hday, -⟩, hordinal⟩ := ofOrdinal_spec h
  by_contra hlate
  have hyears := daysBeforeYear_le (le_refl 1) (show 1 < (ofOrdinal ordinal).1 by omega)
  have hbefore : daysBeforeYear 10000 ≤ daysBeforeYear (ofOrdinal ordinal).1 :=
    daysBeforeYear_le (show 1 ≤ 9999 by decide) (show 9999 < (ofOrdinal ordinal).1 by omega)
  have hlast : daysBeforeYear 10000 = 3652059 := by decide
  rw [toOrdinal] at hordinal
  omega

end Calendar

/-! ### Numerals of one width -/

theorem append_lt_append_iff {xs us ys vs : List Char} (h : xs.length = us.length) :
    xs ++ ys < us ++ vs ↔ xs < us ∨ xs = us ∧ ys < vs := by
  induction xs generalizing us with
  | nil =>
    obtain rfl := List.eq_nil_of_length_eq_zero h.symm
    simp
  | cons x xs ih =>
    cases us with
    | nil => cases h
    | cons u us =>
      simp only [List.cons_append, List.cons_lt_cons_iff, ih (Nat.succ.inj h), List.cons.injEq]
      tauto

namespace Date

/-- A numeral is the numeral of its tens and one digit more. -/
theorem digits_succ {width n : Nat} (hwidth : 1 ≤ width) :
    (digits (width + 1) n).toList = (digits width (n / 10)).toList ++ [Nat.digitChar (n % 10)] := by
  have hdigits : ∀ m : Nat, (toString m).toList = Nat.toDigits 10 m := fun m => by
    rw [Nat.toString_eq_ofList_toDigits, String.toList_ofList]
  simp only [digits, String.toList_ofList, hdigits, List.leftpad]
  rcases Nat.lt_or_ge n 10 with hlt | hge
  · obtain ⟨width, rfl⟩ := Nat.exists_eq_add_of_le' hwidth
    rw [Nat.toDigits_of_lt_base hlt, Nat.div_eq_of_lt hlt, Nat.mod_eq_of_lt hlt]
    simp [Nat.toDigits_zero, List.replicate_succ']
  · rw [Nat.toDigits_of_base_le (by decide) hge]
    simp

theorem digits_one {n : Nat} (h : n < 10) : (digits 1 n).toList = [Nat.digitChar n] := by
  rw [digits, String.toList_ofList, Nat.toString_eq_ofList_toDigits, String.toList_ofList,
    Nat.toDigits_of_lt_base h]
  rfl

theorem digitChar_lt_iff : ∀ n < 10, ∀ m < 10, Nat.digitChar n < Nat.digitChar m ↔ n < m := by
  decide

/-- Numerals of one width are of that length and compare as their numbers. -/
theorem digits_spec {width : Nat} (hwidth : 1 ≤ width) :
    (∀ n < 10 ^ width, (digits width n).toList.length = width) ∧
      ∀ n < 10 ^ width, ∀ m < 10 ^ width,
        ((digits width n).toList < (digits width m).toList ↔ n < m) := by
  induction width, hwidth using Nat.le_induction with
  | base =>
    refine ⟨fun n hn => by rw [digits_one hn]; rfl, fun n hn m hm => ?_⟩
    rw [digits_one hn, digits_one hm, List.cons_lt_cons_iff]
    simp [digitChar_lt_iff n hn m hm]
  | succ width hwidth ih =>
    obtain ⟨hlength, hlt⟩ := ih
    have htens : ∀ n < 10 ^ (width + 1), n / 10 < 10 ^ width := fun n hn => by
      rw [Nat.pow_succ] at hn
      omega
    constructor
    · intro n hn
      rw [digits_succ hwidth, List.length_append, hlength _ (htens n hn)]
      rfl
    · intro n hn m hm
      have hsame : (digits width (n / 10)).toList = (digits width (m / 10)).toList ↔
          n / 10 = m / 10 :=
        ⟨fun h => digits_injective width (String.toList_injective h), fun h => by rw [h]⟩
      rw [digits_succ hwidth, digits_succ hwidth, append_lt_append_iff
        ((hlength _ (htens n hn)).trans (hlength _ (htens m hm)).symm),
        hlt _ (htens n hn) _ (htens m hm), hsame, List.cons_lt_cons_iff,
        digitChar_lt_iff _ (Nat.mod_lt _ (by decide)) _ (Nat.mod_lt _ (by decide))]
      simp only [List.not_lt_nil, and_false, or_false]
      omega

/-- A numeral in front decides first. -/
theorem digits_append_lt_iff {width n m : Nat} {xs ys : List Char} (hwidth : 1 ≤ width)
    (hn : n < 10 ^ width) (hm : m < 10 ^ width) :
    (digits width n).toList ++ xs < (digits width m).toList ++ ys ↔ n < m ∨ n = m ∧ xs < ys := by
  obtain ⟨hlength, hlt⟩ := digits_spec hwidth
  have hsame : (digits width n).toList = (digits width m).toList ↔ n = m :=
    ⟨fun h => digits_injective width (String.toList_injective h), fun h => by rw [h]⟩
  rw [append_lt_append_iff ((hlength n hn).trans (hlength m hm).symm), hlt n hn m hm, hsame]

end Date

/-! ### Readings of a UTC clock -/

/-- A `datetime` in UTC. -/
structure UtcTime where
  year : Nat
  month : Nat
  day : Nat
  hour : Nat
  minute : Nat
  second : Nat
  microsecond : Nat
  valid : Calendar.Valid year month day
  year_le : year ≤ 9999
  hour_lt : hour < 24
  minute_lt : minute < 60
  second_lt : second < 60
  microsecond_lt : microsecond < 1000000

namespace UtcTime

/-- The microseconds since 1970. -/
def instant (time : UtcTime) : Int :=
  ((Calendar.toOrdinal time.year time.month time.day : Int) - 719163) * 86400000000 +
    ((time.hour * 60 + time.minute) * 60 + time.second) * 1000000 + time.microsecond

/-- The fraction of the second, where there is one, and the offset. -/
def isoTail (microsecond : Nat) : String :=
  if microsecond = 0 then "+00:00" else "." ++ Date.digits 6 microsecond ++ "+00:00"

/-- `isoformat`. -/
def isoformat (time : UtcTime) : String :=
  Date.digits 4 time.year ++ "-" ++ Date.digits 2 time.month ++ "-" ++ Date.digits 2 time.day ++
    "T" ++ Date.digits 2 time.hour ++ ":" ++ Date.digits 2 time.minute ++ ":" ++
    Date.digits 2 time.second ++ isoTail time.microsecond

/-- What readings are compared by. -/
def key (time : UtcTime) : (ℕ ×ₗ ℕ ×ₗ ℕ) ×ₗ ℕ ×ₗ ℕ ×ₗ ℕ ×ₗ ℕ :=
  toLex (Calendar.dateKey time.year time.month time.day,
    toLex (time.hour, toLex (time.minute, toLex (time.second, time.microsecond))))

/-- The reading at an instant of the calendar. -/
def ofInstant (instant : Int) (hmin : -62135596800000000 ≤ instant)
    (hmax : instant ≤ 253402300799999999) : UtcTime :=
  let ordinal := (instant / 86400000000 + 719163).toNat
  let rest := (instant % 86400000000).toNat
  { year := (Calendar.ofOrdinal ordinal).1
    month := (Calendar.ofOrdinal ordinal).2.1
    day := (Calendar.ofOrdinal ordinal).2.2
    hour := rest / 3600000000
    minute := rest / 60000000 % 60
    second := rest / 1000000 % 60
    microsecond := rest % 1000000
    valid := (Calendar.ofOrdinal_spec (by omega)).1
    year_le := Calendar.ofOrdinal_year_le (by omega) (by omega)
    hour_lt := by omega
    minute_lt := by omega
    second_lt := by omega
    microsecond_lt := by omega }

theorem instant_ofInstant {instant : Int} (hmin : -62135596800000000 ≤ instant)
    (hmax : instant ≤ 253402300799999999) : (ofInstant instant hmin hmax).instant = instant := by
  have hordinal := (@Calendar.ofOrdinal_spec (instant / 86400000000 + 719163).toNat (by omega)).2
  simp only [UtcTime.instant, ofInstant, hordinal]
  omega

variable {time other : UtcTime}

theorem instant_lt_of_key (h : time.key < other.key) : time.instant < other.instant := by
  have hbounds := And.intro time.hour_lt (And.intro time.minute_lt (And.intro time.second_lt
    time.microsecond_lt))
  have hbounds' := And.intro other.hour_lt (And.intro other.minute_lt (And.intro other.second_lt
    other.microsecond_lt))
  simp only [key, Prod.Lex.toLex_lt_toLex] at h
  unfold instant
  rcases h with hdate | ⟨hdate, htime⟩
  · have hordinal := Calendar.toOrdinal_lt time.valid other.valid hdate
    omega
  · have hordinal : Calendar.toOrdinal time.year time.month time.day =
        Calendar.toOrdinal other.year other.month other.day := by
      obtain ⟨hyear, hrest⟩ := Prod.mk.inj (toLex.injective hdate)
      obtain ⟨hmonth, hday⟩ := Prod.mk.inj (toLex.injective hrest)
      rw [hyear, hmonth, hday]
    omega

theorem eq_of_key (h : time.key = other.key) : time = other := by
  obtain ⟨hdate, hrest⟩ := Prod.mk.inj (toLex.injective h)
  obtain ⟨hyear, hmonths⟩ := Prod.mk.inj (toLex.injective hdate)
  obtain ⟨hmonth, hday⟩ := Prod.mk.inj (toLex.injective hmonths)
  obtain ⟨hhour, hrest⟩ := Prod.mk.inj (toLex.injective hrest)
  obtain ⟨hminute, hrest⟩ := Prod.mk.inj (toLex.injective hrest)
  obtain ⟨hsecond, hmicrosecond⟩ := Prod.mk.inj (toLex.injective hrest)
  cases time
  cases other
  subst hyear hmonth hday hhour hminute hsecond hmicrosecond
  rfl

/-- Readings compare as their instants. -/
theorem instant_lt_iff : time.instant < other.instant ↔ time.key < other.key := by
  refine ⟨fun h => ?_, instant_lt_of_key⟩
  rcases lt_trichotomy time.key other.key with hlt | heq | hgt
  · exact hlt
  · rw [eq_of_key heq] at h
    exact absurd h (lt_irrefl _)
  · exact absurd h (instant_lt_of_key hgt).not_gt

theorem isoTail_pos {n : Nat} (hn : n ≠ 0) :
    (isoTail n).toList = '.' :: ((Date.digits 6 n).toList ++ "+00:00".toList) := by
  rw [isoTail, if_neg hn, String.toList_append, String.toList_append, List.append_assoc]
  exact List.singleton_append

/-- Without a fraction the offset follows at once; its sign comes before the point of a fraction. -/
theorem isoTail_lt_iff {n m : Nat} (hn : n < 1000000) (hm : m < 1000000) :
    (isoTail n).toList < (isoTail m).toList ↔ n < m := by
  have hzero : (isoTail 0).toList = '+' :: "00:00".toList := by decide
  rcases Nat.eq_zero_or_pos n with rfl | hnpos <;> rcases Nat.eq_zero_or_pos m with rfl | hmpos
  · simp
  · rw [hzero, isoTail_pos hmpos.ne', List.cons_lt_cons_iff]
    simp [hmpos]
  · rw [hzero, isoTail_pos hnpos.ne', List.cons_lt_cons_iff]
    simp
  · rw [isoTail_pos hnpos.ne', isoTail_pos hmpos.ne', List.cons_lt_cons_self,
      Date.digits_append_lt_iff (by decide) hn hm]
    simp

theorem toList_isoformat (time : UtcTime) :
    time.isoformat.toList = (Date.digits 4 time.year).toList ++
      '-' :: ((Date.digits 2 time.month).toList ++ '-' :: ((Date.digits 2 time.day).toList ++
        'T' :: ((Date.digits 2 time.hour).toList ++ ':' :: ((Date.digits 2 time.minute).toList ++
          ':' :: ((Date.digits 2 time.second).toList ++ (isoTail time.microsecond).toList))))) := by
  simp only [isoformat, String.toList_append, List.append_assoc]
  simp

/-- Texts compare as the readings. -/
theorem isoformat_lt_iff : time.isoformat < other.isoformat ↔ time.key < other.key := by
  have hyear : ∀ t : UtcTime, t.year < 10 ^ 4 := fun t => Nat.lt_of_le_of_lt t.year_le (by decide)
  have hmonth : ∀ t : UtcTime, t.month < 10 ^ 2 := fun t =>
    Nat.lt_of_le_of_lt t.valid.2.2.1 (by decide)
  have hday : ∀ t : UtcTime, t.day < 10 ^ 2 := fun t => by
    have hmonth := Calendar.daysInMonth_le (Calendar.isLeap t.year) t.month
      (Nat.lt_succ_of_le t.valid.2.2.1)
    have hday := t.valid.2.2.2.2
    omega
  have hhour : ∀ t : UtcTime, t.hour < 10 ^ 2 := fun t => t.hour_lt.trans (by decide)
  have hminute : ∀ t : UtcTime, t.minute < 10 ^ 2 := fun t => t.minute_lt.trans (by decide)
  have hsecond : ∀ t : UtcTime, t.second < 10 ^ 2 := fun t => t.second_lt.trans (by decide)
  rw [String.lt_iff_toList_lt, toList_isoformat, toList_isoformat,
    Date.digits_append_lt_iff (by decide) (hyear time) (hyear other), List.cons_lt_cons_self,
    Date.digits_append_lt_iff (by decide) (hmonth time) (hmonth other), List.cons_lt_cons_self,
    Date.digits_append_lt_iff (by decide) (hday time) (hday other), List.cons_lt_cons_self,
    Date.digits_append_lt_iff (by decide) (hhour time) (hhour other), List.cons_lt_cons_self,
    Date.digits_append_lt_iff (by decide) (hminute time) (hminute other), List.cons_lt_cons_self,
    Date.digits_append_lt_iff (by decide) (hsecond time) (hsecond other),
    isoTail_lt_iff time.microsecond_lt other.microsecond_lt]
  simp only [key, Calendar.dateKey, Prod.Lex.toLex_lt_toLex, EmbeddingLike.apply_eq_iff_eq,
    Prod.mk.injEq]
  simp only [and_or_left, or_assoc, and_assoc]

/-- Texts compare as the instants. -/
theorem isoformat_lt_iff_instant :
    time.isoformat < other.isoformat ↔ time.instant < other.instant :=
  isoformat_lt_iff.trans instant_lt_iff.symm

theorem isoformat_eq_iff_instant :
    time.isoformat = other.isoformat ↔ time.instant = other.instant := by
  rw [le_antisymm_iff, le_antisymm_iff, ← not_lt, ← not_lt, ← not_lt, ← not_lt,
    isoformat_lt_iff_instant, isoformat_lt_iff_instant]

end UtcTime

/-- `date.isoformat()`. -/
def OrdinalDate.isoformat (date : OrdinalDate) : String :=
  let (year, month, day) := Calendar.ofOrdinal date.toordinal.toNat
  Date.digits 4 year ++ "-" ++ Date.digits 2 month ++ "-" ++ Date.digits 2 day

namespace DateTime

/-- The instants of the calendar in UTC do not reach this one. -/
def OutOfRange (t : DateTime) : Prop :=
  ¬ (-62135596800000000 ≤ t.instant ∧ t.instant ≤ 253402300799999999)

/-- `t.astimezone(UTC)`, for an aware `datetime`. -/
def astimezoneUtc (t : DateTime) : Except Exc UtcTime :=
  if h : -62135596800000000 ≤ t.instant ∧ t.instant ≤ 253402300799999999 then
    .ok (UtcTime.ofInstant t.instant h.1 h.2)
  else .error ⟨.other "OverflowError", "date value out of range"⟩

theorem instant_of_astimezoneUtc {t : DateTime} {time : UtcTime} (h : t.astimezoneUtc = .ok time) :
    time.instant = t.instant := by
  rw [astimezoneUtc] at h
  split_ifs at h
  cases h
  exact UtcTime.instant_ofInstant _ _

end DateTime
end OptionResearch
