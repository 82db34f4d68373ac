import OptionResearch.InsertionDict
import OptionResearch.KeyedGroups
import OptionResearch.SmileInterpolation
import OptionResearch.SmileShape
import OptionResearch.StableSort
import OptionResearch.WalkForward

/-!
# The volatility cube

`implied_volatility/interpolation.py`: volatilities are stored by symbol, valuation date, tenor and
strike, and read off by interpolating along the strikes of each tenor and then between the tenors.
Outside the stored range the nearest value is taken.

A cube holds the value last written for each node. Its interpolation has the nodes' values at the
nodes, stays between the least and the greatest value of the slice, and depends on nothing but what
the slice holds: not on the order of the calls, nor on values that were overwritten, nor on other
symbols and dates.
-/

namespace OptionResearch

open SortedSearch KeyedGroups StableSort

section Cube

structure VolatilitySurfacePoint (K : Type) where
  symbol : String
  valuationDate : OrdinalDate
  strike : K
  tenorDays : ℤ
  impliedVolatility : K

/-- The arguments of `add_point`. -/
structure AddPoint (K : Type) where
  symbol : String
  valuationDate : OrdinalDate
  tenorDays : ℤ
  strike : K
  impliedVolatility : K

variable {K : Type} [Field K] [LinearOrder K]

/-- `_linear_interpolate`. -/
def linearInterpolate (x0 y0 x1 y1 x : K) : K := linear x0 y0 x1 y1 x

/-- The bisection all interpolators make: the end values outside the axis, a line between two
neighbours inside it. -/
def onAxis {ι : Type} [LinearOrder ι] (axis : List ι) (coordinate : ι → K)
    (value : Int → Except Exc K) (x : ι) : Except Exc K := do
  let idx := bisectLeft axis x
  if idx = 0 then value 0
  else if axis.length ≤ idx then value (-1)
  else
    let left ← listItem axis ((idx : Int) - 1)
    let right ← listItem axis idx
    return linearInterpolate (coordinate left) (← value ((idx : Int) - 1)) (coordinate right)
      (← value idx) (coordinate x)

structure SmileInterpolator (K : Type) where
  strikes : List K
  ivs : List K

def SmileInterpolator.evaluate (smile : SmileInterpolator K) (strike : K) : Except Exc K :=
  if smile.strikes = [] ∨ smile.strikes.length ≠ smile.ivs.length then
    .error ⟨.valueError, "smile data must have aligned non-empty strikes and ivs"⟩
  else onAxis smile.strikes id (listItem smile.ivs) strike

structure TermStructureInterpolator (K : Type) where
  tenors : List ℤ
  ivs : List K

def TermStructureInterpolator.evaluate (term : TermStructureInterpolator K)
    (tenorDays : ℤ) : Except Exc K :=
  if term.tenors = [] ∨ term.tenors.length ≠ term.ivs.length then
    .error ⟨.valueError, "term structure data must have aligned non-empty tenors and ivs"⟩
  else onAxis term.tenors Int.cast (listItem term.ivs) tenorDays

structure VolatilitySurfaceInterpolator (K : Type) where
  surfacePoints : List (VolatilitySurfacePoint K)

namespace VolatilitySurfaceInterpolator

variable (surface : VolatilitySurfaceInterpolator K)

def byTenor : List (ℤ × List (VolatilitySurfacePoint K)) :=
  groups (surface.surfacePoints.map fun point => (point.tenorDays, point))

/-- `sorted(by_tenor)`. -/
def tenors : List ℤ := sortBy id (surface.byTenor.map Prod.fst)

/-- The points of a tenor from the lowest strike to the highest. -/
def smileValue (strike : K) (tenor : ℤ) : Except Exc K :=
  match Entries.lookup tenor surface.byTenor with
  | none => .error ⟨.other "KeyError", toString tenor⟩
  | some items =>
      let points := sortBy (fun item : VolatilitySurfacePoint K => item.strike) items
      SmileInterpolator.evaluate
        ⟨points.map fun item => item.strike, points.map fun item => item.impliedVolatility⟩ strike

def evaluate (strike : K) (tenorDays : ℤ) : Except Exc K :=
  if surface.surfacePoints = [] then .error ⟨.valueError, "surface_points must not be empty"⟩
  else
    onAxis surface.tenors Int.cast
      (fun index => do surface.smileValue strike (← listItem surface.tenors index)) tenorDays

end VolatilitySurfaceInterpolator

/-- The points of one symbol on one date, by tenor and strike. -/
abbrev DateSlice (K : Type) [DecidableEq K] := InsertionDict ℤ (InsertionDict K K)

structure VolatilityCubeFramework (K : Type) [DecidableEq K] where
  cube : InsertionDict String (InsertionDict OrdinalDate (DateSlice K))

namespace VolatilityCubeFramework

variable (framework : VolatilityCubeFramework K)

def new : VolatilityCubeFramework K := ⟨.empty⟩

def addPoint (call : AddPoint K) : VolatilityCubeFramework K :=
  let dates := (framework.cube.get? call.symbol).getD .empty
  let slice := (dates.get? call.valuationDate).getD .empty
  let strikes := (slice.get? call.tenorDays).getD .empty
  ⟨framework.cube.set call.symbol (dates.set call.valuationDate
    (slice.set call.tenorDays (strikes.set call.strike call.impliedVolatility)))⟩

def dateSlice (symbol : String) (valuationDate : OrdinalDate) : DateSlice K :=
  (((framework.cube.get? symbol).getD .empty).get? valuationDate).getD .empty

def getSurface (symbol : String) (valuationDate : OrdinalDate) : List (VolatilitySurfacePoint K) :=
  (framework.dateSlice symbol valuationDate).entries.flatMap fun tenor =>
    tenor.2.entries.map fun entry =>
      { symbol := symbol, valuationDate := valuationDate, strike := entry.1,
        tenorDays := tenor.1, impliedVolatility := entry.2 }

def evaluate (symbol : String) (valuationDate : OrdinalDate) (strike : K) (tenorDays : ℤ) :
    Except Exc K :=
  VolatilitySurfaceInterpolator.evaluate ⟨framework.getSurface symbol valuationDate⟩ strike tenorDays

/-- The cube after the calls, in order. -/
def ofCalls (calls : List (AddPoint K)) : VolatilityCubeFramework K := calls.foldl addPoint new

end VolatilityCubeFramework

end Cube

/-! ### Along one axis -/

section Axis

variable {K ι : Type} [LinearOrder ι] {axis : List ι} {value : Int → Except Exc K} {x : ι}

theorem bisectLeft_getElem {i : ℕ} (hsorted : axis.Pairwise (· < ·)) (hi : i < axis.length) :
    bisectLeft axis axis[i] = i := by
  refine bisectLeft_eq (hsorted.imp le_of_lt) hi.le (fun j hj hlt => ?_) fun j hj hle => ?_
  · exact List.pairwise_iff_getElem.mp hsorted j i hj hi hlt
  · exact getElem_mono (hsorted.imp le_of_lt) hi hj hle

theorem listItem_neg_one {α : Type} {items : List α} (h : items ≠ []) :
    listItem items (-1) = .ok (items.getLast h) := by
  have hlast := listItem_last id h
  rwa [List.map_id] at hlast

/-- Two lists read off the same items agree on which item a place names. -/
theorem exists_item_of_listItem_map {α β : Type} {items : List α} {f : α → β} {index : Int} {b : β}
    (h : listItem (items.map f) index = .ok b) :
    ∃ item ∈ items, f item = b ∧
      ∀ {γ : Type} (g : α → γ), listItem (items.map g) index = .ok (g item) := by
  simp only [listItem, List.length_map, List.getElem?_map] at h ⊢
  generalize (if index < 0 then index + (items.length : Int) else index) = position at h ⊢
  by_cases hnegative : position < 0
  · simp only [if_pos hnegative] at h
    cases h
  · simp only [if_neg hnegative] at h ⊢
    cases hitem : items[position.toNat]? with
    | none => rw [hitem] at h; cases h
    | some item =>
        rw [hitem] at h
        cases h
        exact ⟨item, List.mem_of_getElem? hitem, rfl, fun _ => rfl⟩

/-- `listItem` finds what stands at a place counted from the left. -/
theorem listItem_pred {α : Type} {items : List α} {i : ℕ} (h : i + 1 < items.length) :
    listItem items (((i + 1 : ℕ) : Int) - 1) = .ok items[i] := by
  rw [show ((i + 1 : ℕ) : Int) - 1 = (i : Int) by omega]
  exact listItem_natCast (by omega)

variable [Field K] [LinearOrder K] {coordinate : ι → K} {At : ι → K → Prop}

/-- Every place of the axis has a value that `At` admits. -/
def ValuesAlong (axis : List ι) (value : Int → Except Exc K) (At : ι → K → Prop) : Prop :=
  ∀ index item, listItem axis index = .ok item → ∃ r, value index = .ok r ∧ At item r

/-- An interpolation takes the first value, the last value, or one on the line between neighbours. -/
theorem onAxis_cases (coordinate : ι → K) (hne : axis ≠ []) (hsorted : axis.Pairwise (· < ·))
    (hvalue : ValuesAlong axis value At) (x : ι) :
    (∃ r, onAxis axis coordinate value x = .ok r ∧ At (axis.head hne) r ∧ x ≤ axis.head hne) ∨
      (∃ r, onAxis axis coordinate value x = .ok r ∧ At (axis.getLast hne) r ∧
        ∀ item ∈ axis, item < x) ∨
      ∃ left right, left < x ∧ x ≤ right ∧ (x ∈ axis → x = right) ∧ ∃ y0 y1, At left y0 ∧
        At right y1 ∧ onAxis axis coordinate value x =
          .ok (linearInterpolate (coordinate left) y0 (coordinate right) y1 (coordinate x)) := by
  have hwindow := bisectLeft_spec (x := x) (hsorted.imp le_of_lt)
  have hpos : 0 < axis.length := List.length_pos_iff.mpr hne
  rcases hidx : bisectLeft axis x with _ | i
  · obtain ⟨r, hr, hat⟩ := hvalue 0 (axis[0]) (listItem_natCast hpos)
    refine .inl ⟨r, ?_, ?_, ?_⟩
    · rw [onAxis, hidx]
      exact hr
    · rwa [List.head_eq_getElem]
    · rw [List.head_eq_getElem]
      exact hwindow.after 0 hpos (by omega)
  · by_cases hend : axis.length ≤ i + 1
    · obtain ⟨r, hr, hat⟩ := hvalue (-1) (axis.getLast hne) (listItem_neg_one hne)
      refine .inr (.inl ⟨r, ?_, hat, ?_⟩)
      · rw [onAxis, hidx]
        simp only [Nat.add_eq_zero_iff, one_ne_zero, and_false, if_false, if_pos hend]
        exact hr
      · intro item hitem
        obtain ⟨j, hj, rfl⟩ := List.mem_iff_getElem.mp hitem
        exact hwindow.before j hj (by omega)
    · have hlt : i + 1 < axis.length := by omega
      have hleft : listItem axis (((i + 1 : ℕ) : Int) - 1) = .ok axis[i] := listItem_pred hlt
      have hright : listItem axis ((i + 1 : ℕ) : Int) = .ok axis[i + 1] := listItem_natCast hlt
      obtain ⟨y0, hy0, hat0⟩ := hvalue _ _ hleft
      obtain ⟨y1, hy1, hat1⟩ := hvalue _ _ hright
      refine .inr (.inr ⟨axis[i], axis[i + 1], hwindow.before i (by omega) (by omega),
        hwindow.after (i + 1) hlt (by omega), ?_, y0, y1, hat0, hat1, ?_⟩)
      · intro hmem
        obtain ⟨j, hj, rfl⟩ := List.mem_iff_getElem.mp hmem
        obtain rfl : j = i + 1 := (bisectLeft_getElem hsorted hj).symm.trans hidx
        rfl
      · rw [onAxis, hidx]
        simp only [Nat.add_eq_zero_iff, one_ne_zero, and_false, if_false, if_neg hend]
        rw [hleft, except_ok_bind, hright, except_ok_bind, hy0, except_ok_bind, hy1, except_ok_bind]
        rfl

variable [IsStrictOrderedRing K]

omit [LinearOrder ι] [IsStrictOrderedRing K] in
theorem linearInterpolate_right {x0 x1 y0 y1 : K} (h : x0 < x1) :
    linearInterpolate x0 y0 x1 y1 x1 = y1 := by
  have hne : x1 - x0 ≠ 0 := sub_ne_zero.mpr h.ne'
  rw [linearInterpolate, linear, if_neg h.ne']
  simp only [div_self hne, one_mul, add_sub_cancel]

/-- A point of a segment lies between its ends. -/
theorem linearInterpolate_mem {x0 x1 y0 y1 x lo hi : K} (hleft : x0 < x) (hright : x ≤ x1)
    (h0 : lo ≤ y0 ∧ y0 ≤ hi) (h1 : lo ≤ y1 ∧ y1 ≤ hi) :
    lo ≤ linearInterpolate x0 y0 x1 y1 x ∧ linearInterpolate x0 y0 x1 y1 x ≤ hi := by
  have hwidth : 0 < x1 - x0 := sub_pos.mpr (hleft.trans_le hright)
  rw [linearInterpolate, linear, if_neg (hleft.trans_le hright).ne']
  simp only
  generalize hw : (x - x0) / (x1 - x0) = w
  have hw0 : 0 ≤ w := hw ▸ div_nonneg (sub_nonneg.mpr hleft.le) hwidth.le
  have hw1 : w ≤ 1 := by
    rw [← hw, div_le_one hwidth]
    exact sub_le_sub_right hright x0
  have hmix : y0 + w * (y1 - y0) = (1 - w) * y0 + w * y1 := by ring
  rw [hmix]
  constructor
  · nlinarith [mul_nonneg (sub_nonneg.mpr hw1) (sub_nonneg.mpr h0.1),
      mul_nonneg hw0 (sub_nonneg.mpr h1.1)]
  · nlinarith [mul_nonneg (sub_nonneg.mpr hw1) (sub_nonneg.mpr h0.2),
      mul_nonneg hw0 (sub_nonneg.mpr h1.2)]

omit [IsStrictOrderedRing K] in
/-- On an item of the axis, the interpolation has the value of that item. -/
theorem onAxis_item (hne : axis ≠ []) (hsorted : axis.Pairwise (· < ·))
    (hcoordinate : StrictMono coordinate) (hvalue : ValuesAlong axis value At) (hx : x ∈ axis) :
    ∃ r, onAxis axis coordinate value x = .ok r ∧ At x r := by
  rcases onAxis_cases coordinate hne hsorted hvalue x with ⟨r, hr, hat, hle⟩ | ⟨r, hr, hat, hless⟩ |
    ⟨left, right, hleft, hright, hitem, y0, y1, hat0, hat1, hr⟩
  · have hhead : axis.head hne ≤ x := by
      obtain ⟨first, rest, rfl⟩ := List.exists_cons_of_ne_nil hne
      rcases List.mem_cons.mp hx with rfl | hrest
      · exact le_rfl
      · exact ((List.pairwise_cons.mp hsorted).1 x hrest).le
    rw [le_antisymm hhead hle] at hat
    exact ⟨r, hr, hat⟩
  · exact absurd (hless x hx) (lt_irrefl x)
  · obtain rfl := hitem hx
    exact ⟨y1, by rw [hr, linearInterpolate_right (hcoordinate hleft)], hat1⟩

/-- An interpolation never leaves the range of the values. -/
theorem onAxis_between {lo hi : K} (hne : axis ≠ []) (hsorted : axis.Pairwise (· < ·))
    (hcoordinate : StrictMono coordinate) (hvalue : ValuesAlong axis value At)
    (hrange : ∀ item r, At item r → lo ≤ r ∧ r ≤ hi) (x : ι) :
    ∃ r, onAxis axis coordinate value x = .ok r ∧ lo ≤ r ∧ r ≤ hi := by
  rcases onAxis_cases coordinate hne hsorted hvalue x with ⟨r, hr, hat, -⟩ | ⟨r, hr, hat, -⟩ |
    ⟨left, right, hleft, hright, -, y0, y1, hat0, hat1, hr⟩
  · exact ⟨r, hr, hrange _ r hat⟩
  · exact ⟨r, hr, hrange _ r hat⟩
  · exact ⟨_, hr, linearInterpolate_mem (hcoordinate hleft) (hcoordinate.monotone hright)
      (hrange _ y0 hat0) (hrange _ y1 hat1)⟩

end Axis

/-- Some item of a list has the least key. -/
theorem exists_least {α κ : Type} [LinearOrder κ] (key : α → κ) {items : List α} (h : items ≠ []) :
    ∃ least ∈ items, ∀ item ∈ items, key least ≤ key item := by
  have hne : sortBy key items ≠ [] := fun hnil => h (List.nil_perm.mp (hnil ▸ sortBy_perm))
  exact ⟨_, head?_sortBy (List.head?_eq_some_head hne)⟩

/-! ### One smile, one surface -/

section Surface

variable {K : Type} [Field K] [LinearOrder K] [IsStrictOrderedRing K]
  {points : List (VolatilitySurfacePoint K)}

/-- Where a point stands in its surface. -/
def VolatilitySurfacePoint.node (point : VolatilitySurfacePoint K) : ℤ × K :=
  (point.tenorDays, point.strike)

/-- What the points of a smile say at a strike. -/
def HasPoint (points : List (VolatilitySurfacePoint K)) (strike iv : K) : Prop :=
  ∃ point ∈ points, point.strike = strike ∧ point.impliedVolatility = iv

/-- The smile that `smile_value` builds. -/
def smileOf (points : List (VolatilitySurfacePoint K)) : SmileInterpolator K :=
  let sorted := sortBy (fun item : VolatilitySurfacePoint K => item.strike) points
  ⟨sorted.map fun item => item.strike, sorted.map fun item => item.impliedVolatility⟩

omit [Field K] [IsStrictOrderedRing K] in
theorem smileOf_strikes_ne_nil (hne : points ≠ []) : (smileOf points).strikes ≠ [] := by
  intro h
  have hlength : (smileOf points).strikes.length = points.length := by
    rw [smileOf, List.length_map, sortBy_perm.length_eq]
  rw [h] at hlength
  exact hne (List.length_eq_zero_iff.mp hlength.symm)

omit [IsStrictOrderedRing K] in
theorem evaluate_smileOf (hne : points ≠ []) (strike : K) :
    (smileOf points).evaluate strike =
      onAxis (smileOf points).strikes id (listItem (smileOf points).ivs) strike := by
  rw [SmileInterpolator.evaluate, if_neg]
  rintro (hnil | hlength)
  · exact smileOf_strikes_ne_nil hne hnil
  · exact hlength (by simp [smileOf])

omit [Field K] [IsStrictOrderedRing K] in
theorem valuesAlong_smileOf (points : List (VolatilitySurfacePoint K)) :
    ValuesAlong (smileOf points).strikes (listItem (smileOf points).ivs) (HasPoint points) := by
  intro index strike hstrike
  obtain ⟨point, hpoint, rfl, hvalue⟩ := exists_item_of_listItem_map hstrike
  exact ⟨point.impliedVolatility, hvalue _, point, mem_sortBy.mp hpoint, rfl, rfl⟩

omit [Field K] [IsStrictOrderedRing K] in
/-- Strikes that differ stand in strictly increasing order. -/
theorem smileOf_strikes_increasing (hdistinct : (points.map fun item => item.strike).Nodup) :
    (smileOf points).strikes.Pairwise (· < ·) :=
  List.pairwise_map.mpr (sortBy_strict hdistinct)

/-- A smile has a value at every strike: the volatility of a point that stands there, and in any case
one within the range of its points. -/
theorem smileOf_spec (hne : points ≠ []) (hdistinct : (points.map fun item => item.strike).Nodup)
    (strike : K) : ∃ r, (smileOf points).evaluate strike = .ok r ∧
      (∀ point ∈ points, point.strike = strike → r = point.impliedVolatility) ∧
      ∀ lo hi, (∀ point ∈ points, lo ≤ point.impliedVolatility ∧ point.impliedVolatility ≤ hi) →
        lo ≤ r ∧ r ≤ hi := by
  have hstrikes := smileOf_strikes_ne_nil hne
  have hsorted := smileOf_strikes_increasing hdistinct
  have hvalue := valuesAlong_smileOf points
  rw [evaluate_smileOf hne]
  obtain ⟨r, hr⟩ : ∃ r, onAxis (smileOf points).strikes id (listItem (smileOf points).ivs)
      strike = .ok r := by
    rcases onAxis_cases id hstrikes hsorted hvalue strike with
      ⟨r, hr, -⟩ | ⟨r, hr, -⟩ | ⟨_, _, -, -, -, _, _, -, -, hr⟩
    · exact ⟨r, hr⟩
    · exact ⟨r, hr⟩
    · exact ⟨_, hr⟩
  refine ⟨r, hr, ?_, ?_⟩
  · rintro point hpoint rfl
    have hmem : point.strike ∈ (smileOf points).strikes :=
      List.mem_map_of_mem (mem_sortBy.mpr hpoint)
    obtain ⟨r', hr', other, hother, hstrike, rfl⟩ :=
      onAxis_item hstrikes hsorted strictMono_id hvalue hmem
    obtain rfl : r = other.impliedVolatility := Except.ok.inj (hr.symm.trans hr')
    rw [List.inj_on_of_nodup_map hdistinct hother hpoint hstrike]
  · intro lo hi hrange
    obtain ⟨r', hr', hlo, hhi⟩ := onAxis_between hstrikes hsorted strictMono_id hvalue
      (fun strike iv ⟨point, hpoint, _, hiv⟩ => hiv ▸ hrange point hpoint) strike
    obtain rfl : r = r' := Except.ok.inj (hr.symm.trans hr')
    exact ⟨hlo, hhi⟩

/-- A term structure has its volatilities at its tenors, and stays within their range. -/
theorem TermStructureInterpolator.evaluate_spec {term : TermStructureInterpolator K}
    (hne : term.tenors ≠ []) (hsorted : term.tenors.Pairwise (· < ·))
    (hlength : term.tenors.length = term.ivs.length) {lo hi : K}
    (hrange : ∀ iv ∈ term.ivs, lo ≤ iv ∧ iv ≤ hi) (tenorDays : ℤ) :
    ∃ r, term.evaluate tenorDays = .ok r ∧ lo ≤ r ∧ r ≤ hi ∧
      (tenorDays ∈ term.tenors → (tenorDays, r) ∈ term.tenors.zip term.ivs) := by
  have htenors : term.tenors = (term.tenors.zip term.ivs).map Prod.fst :=
    (List.map_fst_zip hlength.le).symm
  have hivs : term.ivs = (term.tenors.zip term.ivs).map Prod.snd :=
    (List.map_snd_zip hlength.ge).symm
  have hvalue : ValuesAlong term.tenors (listItem term.ivs)
      fun tenor r => (tenor, r) ∈ term.tenors.zip term.ivs := by
    intro index tenor htenor
    rw [htenors] at htenor
    obtain ⟨entry, hentry, rfl, hvalue⟩ := exists_item_of_listItem_map htenor
    exact ⟨entry.2, by rw [hivs]; exact hvalue Prod.snd, hentry⟩
  have hevaluate : term.evaluate tenorDays =
      onAxis term.tenors Int.cast (listItem term.ivs) tenorDays := by
    rw [TermStructureInterpolator.evaluate, if_neg]
    rintro (hnil | hdiffer)
    · exact hne hnil
    · exact hdiffer hlength
  obtain ⟨r, hr, hlo, hhi⟩ := onAxis_between hne hsorted (Int.cast_strictMono (R := K)) hvalue
    (fun _ iv hiv => hrange iv (List.of_mem_zip hiv).2) tenorDays
  refine ⟨r, hevaluate.trans hr, hlo, hhi, fun hmem => ?_⟩
  obtain ⟨r', hr', hat⟩ := onAxis_item hne hsorted (Int.cast_strictMono (R := K)) hvalue hmem
  obtain rfl : r = r' := Except.ok.inj (hr.symm.trans hr')
  exact hat

/-- No two points stand at the same tenor and strike. -/
def Distinct (points : List (VolatilitySurfacePoint K)) : Prop :=
  (points.map VolatilitySurfacePoint.node).Nodup

/-- The points of a tenor. -/
def rowsAt (tenor : ℤ) (points : List (VolatilitySurfacePoint K)) :
    List (VolatilitySurfacePoint K) :=
  points.filter fun point => decide (point.tenorDays = tenor)

omit [Field K] [LinearOrder K] [IsStrictOrderedRing K] in
theorem mem_rowsAt {tenor : ℤ} {point : VolatilitySurfacePoint K} :
    point ∈ rowsAt tenor points ↔ point ∈ points ∧ point.tenorDays = tenor := by
  rw [rowsAt, List.mem_filter, decide_eq_true_eq]

omit [Field K] [LinearOrder K] [IsStrictOrderedRing K] in
theorem Distinct.eq_of_node (h : Distinct points) {a b : VolatilitySurfacePoint K}
    (ha : a ∈ points) (hb : b ∈ points) (hnode : a.node = b.node) : a = b :=
  List.inj_on_of_nodup_map h ha hb hnode

omit [Field K] [LinearOrder K] [IsStrictOrderedRing K] in
theorem Distinct.strikes (h : Distinct points) (tenor : ℤ) :
    ((rowsAt tenor points).map fun item => item.strike).Nodup := by
  have hpoints : points.Nodup := h.of_map
  refine List.Nodup.map_on ?_ (hpoints.filter _)
  intro a ha b hb hstrike
  obtain ⟨ha, hta⟩ := mem_rowsAt.mp ha
  obtain ⟨hb, htb⟩ := mem_rowsAt.mp hb
  exact h.eq_of_node ha hb (Prod.ext (hta.trans htb.symm) hstrike)

namespace VolatilitySurfaceInterpolator

omit [Field K] [LinearOrder K] [IsStrictOrderedRing K] in
theorem itemsOf_tenor (tenor : ℤ) (points : List (VolatilitySurfacePoint K)) :
    itemsOf tenor (points.map fun point => (point.tenorDays, point)) = rowsAt tenor points := by
  rw [itemsOf, List.filter_map, List.map_map]
  exact List.map_id _

omit [IsStrictOrderedRing K] in
theorem smileValue_eq (strike : K) {tenor : ℤ} (hrows : rowsAt tenor points ≠ []) :
    smileValue ⟨points⟩ strike tenor = (smileOf (rowsAt tenor points)).evaluate strike := by
  have hmem : (tenor, rowsAt tenor points) ∈ byTenor ⟨points⟩ :=
    mem_groups.mpr ⟨hrows, (itemsOf_tenor tenor points).symm⟩
  have hlookup : Entries.lookup tenor (byTenor ⟨points⟩) = some (rowsAt tenor points) :=
    (Entries.lookup_eq_some_iff (nodup_keys_groups _)).mpr hmem
  rw [smileValue, hlookup]
  rfl

omit [IsStrictOrderedRing K] in
theorem smileValue_eq_error (strike : K) {tenor : ℤ} (hrows : rowsAt tenor points = []) :
    smileValue ⟨points⟩ strike tenor = .error ⟨.other "KeyError", toString tenor⟩ := by
  have hlookup : Entries.lookup tenor (byTenor ⟨points⟩) = none := by
    rw [Option.eq_none_iff_forall_ne_some]
    intro rows h
    obtain ⟨hne, hrowsOf⟩ :=
      mem_groups.mp ((Entries.lookup_eq_some_iff (nodup_keys_groups _)).mp h)
    rw [itemsOf_tenor, hrows] at hrowsOf
    exact hne hrowsOf
  rw [smileValue, hlookup]

omit [Field K] [LinearOrder K] [IsStrictOrderedRing K] in
theorem mem_tenors {tenor : ℤ} :
    tenor ∈ tenors ⟨points⟩ ↔ ∃ point ∈ points, point.tenorDays = tenor := by
  have hgroup : tenor ∈ (byTenor ⟨points⟩).map Prod.fst ↔
      ∃ rows, (tenor, rows) ∈ byTenor ⟨points⟩ := by simp
  rw [tenors, mem_sortBy, hgroup, byTenor, exists_group_iff]
  simp only [List.mem_map, Prod.mk.injEq]
  constructor
  · rintro ⟨_, point, hpoint, htenor, -⟩
    exact ⟨point, hpoint, htenor⟩
  · rintro ⟨point, hpoint, htenor⟩
    exact ⟨point, point, hpoint, htenor, rfl⟩

omit [Field K] [LinearOrder K] [IsStrictOrderedRing K] in
theorem tenors_increasing : (tenors ⟨points⟩).Pairwise (· < ·) :=
  sortBy_strict ((List.map_id _).symm ▸ nodup_keys_groups _)

omit [Field K] [LinearOrder K] [IsStrictOrderedRing K] in
theorem tenors_ne_nil (hne : points ≠ []) : tenors ⟨points⟩ ≠ [] := by
  obtain ⟨point, hpoint⟩ := List.exists_mem_of_ne_nil _ hne
  exact List.ne_nil_of_mem (mem_tenors.mpr ⟨point, hpoint, rfl⟩)

omit [Field K] [LinearOrder K] [IsStrictOrderedRing K] in
theorem rowsAt_ne_nil {tenor : ℤ} (h : tenor ∈ tenors ⟨points⟩) : rowsAt tenor points ≠ [] := by
  obtain ⟨point, hpoint, htenor⟩ := mem_tenors.mp h
  exact List.ne_nil_of_mem (mem_rowsAt.mpr ⟨hpoint, htenor⟩)

omit [IsStrictOrderedRing K] in
/-- The smiles of a surface, at one strike. -/
theorem valuesAlong_tenors (strike : K) (At : ℤ → K → Prop)
    (hsmile : ∀ tenor ∈ tenors ⟨points⟩,
      ∃ r, (smileOf (rowsAt tenor points)).evaluate strike = .ok r ∧ At tenor r) :
    ValuesAlong (tenors ⟨points⟩)
      (fun index => do smileValue ⟨points⟩ strike (← listItem (tenors ⟨points⟩) index)) At := by
  intro index tenor htenor
  obtain ⟨tenor, hmem, rfl, -⟩ :=
    exists_item_of_listItem_map (f := id) (by rw [List.map_id]; exact htenor)
  obtain ⟨r, hr, hat⟩ := hsmile tenor hmem
  refine ⟨r, ?_, hat⟩
  simp only [id_eq] at htenor
  beta_reduce
  rw [htenor, except_ok_bind, smileValue_eq strike (rowsAt_ne_nil hmem)]
  exact hr

omit [IsStrictOrderedRing K] in
theorem evaluate_eq (hne : points ≠ []) (strike : K) (tenorDays : ℤ) :
    evaluate ⟨points⟩ strike tenorDays = onAxis (tenors ⟨points⟩) Int.cast
      (fun index => do smileValue ⟨points⟩ strike (← listItem (tenors ⟨points⟩) index))
      tenorDays := by
  rw [evaluate, if_neg hne]

/-- At a point of the surface, the interpolation returns its volatility. -/
theorem evaluate_point (hdistinct : Distinct points) {point : VolatilitySurfacePoint K}
    (hpoint : point ∈ points) :
    evaluate ⟨points⟩ point.strike point.tenorDays = .ok point.impliedVolatility := by
  have hne := List.ne_nil_of_mem hpoint
  have hvalue := valuesAlong_tenors point.strike
    (fun tenor r => ∀ other ∈ rowsAt tenor points, other.strike = point.strike →
      r = other.impliedVolatility) fun tenor htenor => by
    obtain ⟨r, hr, hat, -⟩ :=
      smileOf_spec (rowsAt_ne_nil htenor) (hdistinct.strikes tenor) point.strike
    exact ⟨r, hr, hat⟩
  have hmem : point.tenorDays ∈ tenors ⟨points⟩ := mem_tenors.mpr ⟨point, hpoint, rfl⟩
  obtain ⟨r, hr, hat⟩ := onAxis_item (tenors_ne_nil hne) tenors_increasing
    (Int.cast_strictMono (R := K)) hvalue hmem
  rw [evaluate_eq hne, hr, hat point (mem_rowsAt.mpr ⟨hpoint, rfl⟩) rfl]

/-- The interpolation of a surface stays within the range of its points. -/
theorem evaluate_between (hdistinct : Distinct points) (hne : points ≠ []) {lo hi : K}
    (hrange : ∀ point ∈ points, lo ≤ point.impliedVolatility ∧ point.impliedVolatility ≤ hi)
    (strike : K) (tenorDays : ℤ) :
    ∃ r, evaluate ⟨points⟩ strike tenorDays = .ok r ∧ lo ≤ r ∧ r ≤ hi := by
  have hvalue := valuesAlong_tenors strike (fun _ r => lo ≤ r ∧ r ≤ hi) fun tenor htenor => by
    obtain ⟨r, hr, -, hat⟩ := smileOf_spec (rowsAt_ne_nil htenor) (hdistinct.strikes tenor) strike
    exact ⟨r, hr, hat lo hi fun point hpoint => hrange point (mem_rowsAt.mp hpoint).1⟩
  rw [evaluate_eq hne]
  exact onAxis_between (tenors_ne_nil hne) tenors_increasing Int.cast_strictMono hvalue
    (fun _ _ h => h) tenorDays

omit [IsStrictOrderedRing K] in
/-- The order in which the points are listed does not matter. -/
theorem evaluate_perm {others : List (VolatilitySurfacePoint K)} (hdistinct : Distinct points)
    (hperm : points.Perm others) (strike : K) (tenorDays : ℤ) :
    evaluate ⟨points⟩ strike tenorDays = evaluate ⟨others⟩ strike tenorDays := by
  by_cases hne : points = []
  · rw [hne] at hperm ⊢
    rw [List.nil_perm.mp hperm]
  have hne' : others ≠ [] := fun hnil => hne (List.perm_nil.mp (hnil ▸ hperm))
  have htenors : tenors ⟨points⟩ = tenors ⟨others⟩ :=
    sortBy_eq_of_perm (fun _ _ _ _ h => h) (keys_groups_perm (hperm.map _))
  have hrows : ∀ tenor, (rowsAt tenor points).Perm (rowsAt tenor others) :=
    fun tenor => hperm.filter _
  have hsmiles : ∀ tenor, smileOf (rowsAt tenor points) = smileOf (rowsAt tenor others) := by
    intro tenor
    have hsorted : sortBy (fun item : VolatilitySurfacePoint K => item.strike)
        (rowsAt tenor points) = sortBy (fun item => item.strike) (rowsAt tenor others) :=
      sortBy_eq_of_perm
        (fun a ha b hb => List.inj_on_of_nodup_map (hdistinct.strikes tenor) ha hb) (hrows tenor)
    rw [smileOf, smileOf, hsorted]
  have hvalues : smileValue ⟨points⟩ strike = smileValue ⟨others⟩ strike := by
    funext tenor
    by_cases hempty : rowsAt tenor points = []
    · have hempty' : rowsAt tenor others = [] := List.nil_perm.mp (hempty ▸ hrows tenor)
      rw [smileValue_eq_error strike hempty, smileValue_eq_error strike hempty']
    · have hother : rowsAt tenor others ≠ [] :=
        fun hnil => hempty (List.perm_nil.mp (hnil ▸ hrows tenor))
      rw [smileValue_eq strike hempty, smileValue_eq strike hother, hsmiles tenor]
  rw [evaluate_eq hne, evaluate_eq hne', htenors, hvalues]

end VolatilitySurfaceInterpolator

end Surface

/-! ### The cube -/

namespace VolatilityCubeFramework

variable {K : Type} [LinearOrder K] {framework : VolatilityCubeFramework K}
  {calls others : List (AddPoint K)} {symbol : String} {valuationDate : OrdinalDate}

/-- The value stored at a node. -/
def stored (framework : VolatilityCubeFramework K) (symbol : String) (valuationDate : OrdinalDate)
    (tenorDays : ℤ) (strike : K) : Option K :=
  (((framework.dateSlice symbol valuationDate).get? tenorDays).getD .empty).get? strike

/-- The call writes the node. -/
def Writes (symbol : String) (valuationDate : OrdinalDate) (tenorDays : ℤ) (strike : K)
    (call : AddPoint K) : Prop :=
  call.symbol = symbol ∧ call.valuationDate = valuationDate ∧ call.tenorDays = tenorDays ∧
    call.strike = strike

instance (symbol : String) (valuationDate : OrdinalDate) (tenorDays : ℤ) (strike : K) :
    DecidablePred (Writes symbol valuationDate tenorDays strike) :=
  fun _ => inferInstanceAs (Decidable (_ ∧ _ ∧ _ ∧ _))

/-- What the calls wrote at a node last. -/
def lastWritten (calls : List (AddPoint K)) (symbol : String) (valuationDate : OrdinalDate)
    (tenorDays : ℤ) (strike : K) : Option K :=
  ((calls.filter (Writes symbol valuationDate tenorDays strike)).getLast?).map (·.impliedVolatility)

theorem stored_addPoint (call : AddPoint K) (tenorDays : ℤ) (strike : K) :
    (framework.addPoint call).stored symbol valuationDate tenorDays strike =
      if Writes symbol valuationDate tenorDays strike call then some call.impliedVolatility
      else framework.stored symbol valuationDate tenorDays strike := by
  simp only [stored, dateSlice, addPoint, InsertionDict.get?_set, Writes]
  by_cases hsymbol : symbol = call.symbol
  · subst hsymbol
    by_cases hdate : valuationDate = call.valuationDate
    · subst hdate
      by_cases htenor : tenorDays = call.tenorDays
      · subst htenor
        by_cases hstrike : strike = call.strike
        · subst hstrike
          simp [InsertionDict.get?_set]
        · simp [InsertionDict.get?_set, hstrike, Ne.symm hstrike]
      · simp [InsertionDict.get?_set, htenor, Ne.symm htenor]
    · simp [InsertionDict.get?_set, hdate, Ne.symm hdate]
  · simp [hsymbol, Ne.symm hsymbol]

/-- The cube holds the values last written. -/
theorem stored_ofCalls (calls : List (AddPoint K)) (tenorDays : ℤ) (strike : K) :
    (ofCalls calls).stored symbol valuationDate tenorDays strike =
      lastWritten calls symbol valuationDate tenorDays strike := by
  induction calls using List.reverseRecOn with
  | nil => rfl
  | append_singleton calls call ih =>
      have hconcat : ofCalls (calls ++ [call]) = (ofCalls calls).addPoint call := by
        rw [ofCalls, ofCalls, List.foldl_append, List.foldl_cons, List.foldl_nil]
      rw [hconcat, stored_addPoint, ih, lastWritten, lastWritten, List.filter_append]
      split_ifs with hwrites
      · rw [List.filter_singleton, decide_eq_true hwrites, cond_true, List.getLast?_concat]
        rfl
      · rw [List.filter_singleton, decide_eq_false hwrites, cond_false, List.append_nil]

theorem mem_getSurface {point : VolatilitySurfacePoint K} :
    point ∈ framework.getSurface symbol valuationDate ↔
      point.symbol = symbol ∧ point.valuationDate = valuationDate ∧
        framework.stored symbol valuationDate point.tenorDays point.strike =
          some point.impliedVolatility := by
  rw [getSurface, List.mem_flatMap]
  constructor
  · rintro ⟨⟨tenor, strikes⟩, htenor, hpoint⟩
    obtain ⟨entry, hentry, rfl⟩ := List.mem_map.mp hpoint
    refine ⟨rfl, rfl, ?_⟩
    rw [stored, InsertionDict.get?_eq_some_iff.mpr htenor, Option.getD_some]
    exact InsertionDict.get?_eq_some_iff.mpr hentry
  · rintro ⟨rfl, rfl, hstored⟩
    rw [stored] at hstored
    cases htenor : (framework.dateSlice point.symbol point.valuationDate).get? point.tenorDays with
    | none =>
        rw [htenor] at hstored
        cases hstored
    | some strikes =>
        rw [htenor, Option.getD_some] at hstored
        exact ⟨(point.tenorDays, strikes), InsertionDict.get?_eq_some_iff.mp htenor,
          List.mem_map.mpr ⟨(point.strike, point.impliedVolatility),
            InsertionDict.get?_eq_some_iff.mp hstored, rfl⟩⟩

theorem distinct_getSurface : Distinct (framework.getSurface symbol valuationDate) := by
  rw [Distinct, getSurface, List.map_flatMap, List.nodup_flatMap]
  constructor
  · rintro ⟨tenor, strikes⟩ -
    have hnodes : ((tenor, strikes).2.entries.map fun entry => (⟨symbol, valuationDate, entry.1,
        tenor, entry.2⟩ : VolatilitySurfacePoint K)).map VolatilitySurfacePoint.node =
        (strikes.entries.map Prod.fst).map fun strike => (tenor, strike) := by
      rw [List.map_map, List.map_map]
      rfl
    rw [hnodes]
    exact strikes.nodup_keys.map fun _ _ h => congrArg Prod.snd h
  · have hkeys := List.pairwise_map.mp (framework.dateSlice symbol valuationDate).nodup_keys
    refine hkeys.imp ?_
    rintro ⟨tenor, strikes⟩ ⟨tenor', strikes'⟩ hne node hnode hnode'
    obtain ⟨_, hpoint, rfl⟩ := List.mem_map.mp hnode
    obtain ⟨_, -, rfl⟩ := List.mem_map.mp hpoint
    obtain ⟨_, hpoint', heq⟩ := List.mem_map.mp hnode'
    obtain ⟨_, -, rfl⟩ := List.mem_map.mp hpoint'
    exact hne (congrArg Prod.fst heq).symm

section Values

variable [Field K] [IsStrictOrderedRing K]

/-- After any calls, in any order, a node evaluates to the volatility that was last written there. -/
theorem evaluate_written {tenorDays : ℤ} {strike iv : K}
    (h : lastWritten calls symbol valuationDate tenorDays strike = some iv) :
    (ofCalls calls).evaluate symbol valuationDate strike tenorDays = .ok iv := by
  have hpoint : (⟨symbol, valuationDate, strike, tenorDays, iv⟩ : VolatilitySurfacePoint K) ∈
      (ofCalls calls).getSurface symbol valuationDate :=
    mem_getSurface.mpr ⟨rfl, rfl, (stored_ofCalls calls tenorDays strike).trans h⟩
  exact VolatilitySurfaceInterpolator.evaluate_point distinct_getSurface hpoint

theorem evaluate_written_twice :
    (ofCalls [⟨"SPY", OrdinalDate.maxDate, 30, 400, (0.2 : ℚ)⟩,
      ⟨"SPY", OrdinalDate.maxDate, 60, 410, 0.3⟩,
      ⟨"SPY", OrdinalDate.maxDate, 30, 400, 0.25⟩]).evaluate "SPY" OrdinalDate.maxDate 400 30 =
        .ok 0.25 :=
  evaluate_written (by decide +kernel)

omit [IsStrictOrderedRing K] in
/-- Calls that leave the same values at the nodes of a slice evaluate alike everywhere on it, however
they were ordered and whatever else they wrote. -/
theorem evaluate_eq_of_written
    (h : ∀ tenorDays strike, lastWritten calls symbol valuationDate tenorDays strike =
      lastWritten others symbol valuationDate tenorDays strike) (strike : K) (tenorDays : ℤ) :
    (ofCalls calls).evaluate symbol valuationDate strike tenorDays =
      (ofCalls others).evaluate symbol valuationDate strike tenorDays := by
  apply VolatilitySurfaceInterpolator.evaluate_perm distinct_getSurface
  rw [List.perm_ext_iff_of_nodup distinct_getSurface.of_map distinct_getSurface.of_map]
  intro point
  rw [mem_getSurface, mem_getSurface, stored_ofCalls, stored_ofCalls, h]

theorem evaluate_eq_of_written_swapped :
    (ofCalls [⟨"SPY", OrdinalDate.maxDate, 30, 400, (0.2 : ℚ)⟩,
      ⟨"QQQ", OrdinalDate.maxDate, 30, 400, 0.5⟩]).evaluate "SPY" OrdinalDate.maxDate 405 45 =
      (ofCalls [⟨"SPY", OrdinalDate.maxDate, 30, 400, (0.2 : ℚ)⟩]).evaluate "SPY"
        OrdinalDate.maxDate 405 45 :=
  evaluate_eq_of_written (fun tenorDays strike => by
    have hother : ("QQQ" : String) ≠ "SPY" := by decide
    simp [lastWritten, List.filter_cons, Writes, hother]) 405 45

/-- A slice without a value raises; any other evaluates everywhere, within the range of the values it
holds. -/
theorem evaluate_within_slice (calls : List (AddPoint K)) (symbol : String)
    (valuationDate : OrdinalDate) (strike : K) (tenorDays : ℤ) :
    ((∀ tenor k, lastWritten calls symbol valuationDate tenor k = none) ∧
        (ofCalls calls).evaluate symbol valuationDate strike tenorDays =
          .error ⟨.valueError, "surface_points must not be empty"⟩) ∨
      ∃ r, (ofCalls calls).evaluate symbol valuationDate strike tenorDays = .ok r ∧
        ∃ tenor k lo tenor' k' hi,
          lastWritten calls symbol valuationDate tenor k = some lo ∧
            lastWritten calls symbol valuationDate tenor' k' = some hi ∧ lo ≤ r ∧ r ≤ hi := by
  by_cases hnil : (ofCalls calls).getSurface symbol valuationDate = []
  · refine .inl ⟨?_, ?_⟩
    · intro tenor k
      rw [← stored_ofCalls, Option.eq_none_iff_forall_ne_some]
      intro iv hiv
      have hpoint : (⟨symbol, valuationDate, k, tenor, iv⟩ : VolatilitySurfacePoint K) ∈
          (ofCalls calls).getSurface symbol valuationDate := mem_getSurface.mpr ⟨rfl, rfl, hiv⟩
      rw [hnil] at hpoint
      cases hpoint
    · rw [evaluate, VolatilitySurfaceInterpolator.evaluate, if_pos hnil]
  · obtain ⟨least, hleast, hlo⟩ := exists_least (fun point => point.impliedVolatility) hnil
    obtain ⟨greatest, hgreatest, hhi⟩ :=
      exists_least (fun point => OrderDual.toDual point.impliedVolatility) hnil
    have hwritten : ∀ point ∈ (ofCalls calls).getSurface symbol valuationDate,
        lastWritten calls symbol valuationDate point.tenorDays point.strike =
          some point.impliedVolatility := by
      intro point hpoint
      rw [← stored_ofCalls]
      exact (mem_getSurface.mp hpoint).2.2
    obtain ⟨r, hr, hlor, hrhi⟩ := VolatilitySurfaceInterpolator.evaluate_between
      distinct_getSurface hnil (fun point hpoint => ⟨hlo point hpoint, hhi point hpoint⟩) strike
      tenorDays
    exact .inr ⟨r, hr, least.tenorDays, least.strike, least.impliedVolatility, greatest.tenorDays,
      greatest.strike, greatest.impliedVolatility, hwritten least hleast,
      hwritten greatest hgreatest, hlor, hrhi⟩

theorem evaluate_within_slice_outside :
    let calls : List (AddPoint ℚ) := [⟨"SPY", .maxDate, 30, 400, 0.2⟩, ⟨"SPY", .maxDate, 60, 410, 0.3⟩]
    ((∀ tenor k, lastWritten calls "SPY" .maxDate tenor k = none) ∧
        (ofCalls calls).evaluate "SPY" .maxDate 500 90 =
          .error ⟨.valueError, "surface_points must not be empty"⟩) ∨
      ∃ r, (ofCalls calls).evaluate "SPY" .maxDate 500 90 = .ok r ∧
        ∃ tenor k lo tenor' k' hi, lastWritten calls "SPY" .maxDate tenor k = some lo ∧
          lastWritten calls "SPY" .maxDate tenor' k' = some hi ∧ lo ≤ r ∧ r ≤ hi :=
  evaluate_within_slice _ "SPY" .maxDate 500 90

end Values

end VolatilityCubeFramework

end OptionResearch
