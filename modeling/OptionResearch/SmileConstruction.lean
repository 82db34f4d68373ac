import OptionResearch.VolatilityCube
import OptionResearch.KeyedGroups
import OptionResearch.NeighbouringItems
import OptionResearch.SmileInterpolation
import OptionResearch.StableSort
import OptionResearch.WalkForward
import Mathlib.Algebra.Order.BigOperators.Group.List

/-!
# Building smiles and term structures

`SmileBuilder` and `TermStructureBuilder` of `implied_volatility/construction.py`: the observations
of one expiration become the nodes of a smile, and the smiles, read at one coordinate, become the
points of a term structure with the forward variance between neighbouring tenors.

Every build returns. A built smile has, at the coordinate of an observation that was good enough,
the average or the first of the observations there; between two observations it stays within the
range of all of them; and where duplicates are averaged the order of the observations does not
matter. A term structure passes its own diagnosis exactly where its tenors differ and the variance
never falls from one tenor to a later one. Spread over the time between the tenors, its forward
variances add up to the variance between the first and the last.
-/

namespace OptionResearch

open KeyedGroups StableSort SortedSearch

inductive SmileAxis where
  | strike
  | moneyness
  | logMoneyness
  | delta
  | forwardMoneyness
  deriving DecidableEq, Repr

/-- What the builders read of an observation. -/
structure VolatilityObservationRecord (K : Type) where
  expiration : OrdinalDate
  strike : K
  moneyness : K
  forwardMoneyness : Option K
  delta : Option K
  impliedVolatility : K
  confidenceScore : Option K
  observationId : Option String

/-- `math.log`, `math.sqrt`, and how a message shows a number. -/
structure ConstructionMath (K : Type) where
  log : K → K
  sqrt : K → K
  text : K → String

variable {K : Type} [Field K] [LinearOrder K]

/-- The least moneyness whose logarithm is taken. -/
def leastMoneyness : K := 1e-12

/-- `_axis_value`. -/
def axisValue (math : ConstructionMath K) (observation : VolatilityObservationRecord K) :
    SmileAxis → K
  | .strike => observation.strike
  | .moneyness => observation.moneyness
  | .logMoneyness => math.log (max observation.moneyness leastMoneyness)
  | .delta => observation.delta.getD 0
  | .forwardMoneyness => observation.forwardMoneyness.getD observation.moneyness

/-- `obs.confidence_score or 0.0`. -/
def VolatilityObservationRecord.quality (observation : VolatilityObservationRecord K) : K :=
  observation.confidenceScore.getD 0

/-- All of a `SmileBuildConfig`. -/
structure SmileBuilderConfig (K : Type) [OfScientific K] extends SmileBuildConfig where
  axis : SmileAxis := .strike
  minPoints : Int := 4
  qualityFloor : K := 0.5
  deduplicateByAverage : Bool := true

/-- All of a `SmileNode`. -/
structure BuiltNode (K : Type) extends SmileNode K where
  qualityScore : K
  sourceObservationId : Option String

structure SmileDiagnostics (K : Type) where
  pointCount : ℕ
  interpolation : InterpolationMethod
  extrapolation : ExtrapolationPolicy
  qualityFloor : K

/-- All of a `SmileBuildResult`. -/
structure BuiltSmile (K : Type) where
  expiration : OrdinalDate
  axis : SmileAxis
  nodes : List (BuiltNode K)
  warnings : List String
  diagnostics : SmileDiagnostics K

/-- What an evaluation reads of the smile. -/
def BuiltSmile.smile (built : BuiltSmile K) : SmileBuildResult K := ⟨built.nodes.map (·.toSmileNode)⟩

def mean (values : List K) : K := values.sum / values.length

namespace SmileBuilder

variable (math : ConstructionMath K) (config : SmileBuilderConfig K)

/-- The observations of the expiration that are good enough. -/
def kept (expiration : OrdinalDate) (observations : List (VolatilityObservationRecord K)) :
    List (VolatilityObservationRecord K) :=
  (observations.filter fun obs => decide (obs.expiration = expiration)).filter fun obs =>
    decide (config.qualityFloor ≤ obs.quality)

/-- The node of the observations at one coordinate. -/
def node (x : K) (rows : List (VolatilityObservationRecord K)) : Except Exc (BuiltNode K) := do
  let selected ← listItem rows 0
  if config.deduplicateByAverage = true ∧ 1 < rows.length then
    return { x := x, impliedVolatility := mean (rows.map (·.impliedVolatility)),
             qualityScore := mean (rows.map (·.quality)),
             sourceObservationId := selected.observationId }
  else
    return { x := x, impliedVolatility := selected.impliedVolatility,
             qualityScore := selected.quality, sourceObservationId := selected.observationId }

def build (expiration : OrdinalDate) (observations : List (VolatilityObservationRecord K)) :
    Except Exc (BuiltSmile K) := do
  let filtered := kept config expiration observations
  let sparse := if (filtered.length : Int) < config.minPoints then
    ["sparse strikes for smile construction"] else []
  let grouped := sortBy Prod.fst (groups (filtered.map fun obs =>
    (axisValue math obs config.axis, obs)))
  let duplicates := (grouped.filter fun group => decide (1 < group.2.length)).map fun group =>
    s!"duplicate axis point detected at {math.text group.1}"
  let nodes ← grouped.mapM fun group => node config group.1 group.2
  return { expiration := expiration, axis := config.axis, nodes := nodes,
           warnings := sparse ++ duplicates,
           diagnostics := ⟨nodes.length, config.interpolation, config.extrapolation,
             config.qualityFloor⟩ }

end SmileBuilder

/-! ### Term structures -/

structure TermPoint (K : Type) where
  tenorDays : ℤ
  impliedVolatility : K
  qualityScore : K
  deriving DecidableEq

structure TermStructureConfig (K : Type) [OfScientific K] where
  flatThreshold : K := 0.005
  monotonicTolerance : K := 0.01

structure ForwardVolatilityDiagnostic (K : Type) where
  startTenorDays : ℤ
  endTenorDays : ℤ
  startIv : K
  endIv : K
  forwardVariance : Option K
  forwardVolatility : Option K
  valid : Bool
  reason : Option String := none

structure TermStructureMetrics (K : Type) where
  frontBackDifference : K
  frontBackRatio : K
  annualizedSlope : K
  curvature : K
  tenorNormalizedSlope : K
  localForwardVariance : Option K
  forwardImpliedVolatility : Option K

inductive TermClassification where
  | contango
  | backwardation
  | flat
  | mixed
  deriving DecidableEq, Repr

structure TermStructureResult (K : Type) where
  points : List (TermPoint K)
  metrics : TermStructureMetrics K
  classification : TermClassification
  warnings : List String
  forwardDiagnostics : List (ForwardVolatilityDiagnostic K) := []

/-- A tenor in years. -/
def tenorYears (tenorDays : ℤ) : K := tenorDays / 365.0

/-- The variance up to a tenor. -/
def totalVariance (tenorDays : ℤ) (iv : K) : K := max iv 0 ^ 2 * tenorYears tenorDays

def computeForwardVolatility (math : ConstructionMath K) (startTenorDays endTenorDays : ℤ)
    (startIv endIv : K) : ForwardVolatilityDiagnostic K :=
  if endTenorDays ≤ startTenorDays then
    { startTenorDays := startTenorDays, endTenorDays := endTenorDays, startIv := startIv,
      endIv := endIv, forwardVariance := none, forwardVolatility := none, valid := false,
      reason := some "invalid tenor ordering" }
  else
    let forwardVar := (totalVariance endTenorDays endIv - totalVariance startTenorDays startIv) /
      max (tenorYears endTenorDays - tenorYears startTenorDays) 1e-12
    if forwardVar < 0 then
      { startTenorDays := startTenorDays, endTenorDays := endTenorDays, startIv := startIv,
        endIv := endIv, forwardVariance := some forwardVar, forwardVolatility := none,
        valid := false, reason := some "negative forward variance" }
    else
      { startTenorDays := startTenorDays, endTenorDays := endTenorDays, startIv := startIv,
        endIv := endIv, forwardVariance := some forwardVar,
        forwardVolatility := some (math.sqrt forwardVar), valid := true }

namespace TermStructureBuilder

variable (math : ConstructionMath K) (config : TermStructureConfig K)

/-- One smile read at the target: a point, or a warning where it has no value there. -/
def readSmile (valuationDate : OrdinalDate) (targetX : K)
    (read : List (TermPoint K) × List String) (smile : BuiltSmile K) :
    Except Exc (List (TermPoint K) × List String) := do
  let tenorDays := max (smile.expiration.toordinal - valuationDate.toordinal) 0
  match ← SmileEvaluator.evaluate ⟨smile.smile, {}⟩ targetX with
  | none => return (read.1, read.2 ++ [s!"no interpolation value at tenor={tenorDays}"])
  | some iv =>
      let quality := if smile.nodes.isEmpty then 0 else mean (smile.nodes.map (·.qualityScore))
      return (read.1 ++ [⟨tenorDays, iv, quality⟩], read.2)

/-- The forward volatility from each point to the next. -/
def forwards (points : List (TermPoint K)) : List (ForwardVolatilityDiagnostic K) :=
  (points.zip points.tail).map fun pair =>
    computeForwardVolatility math pair.1.tenorDays pair.2.tenorDays pair.1.impliedVolatility
      pair.2.impliedVolatility

/-- `math.copysign(1.0, move)` is `true` where the move is not down. -/
def monotonicSigns (points : List (TermPoint K)) : List Bool :=
  ((points.zip points.tail).filter fun pair =>
    decide (config.monotonicTolerance <
      |pair.2.impliedVolatility - pair.1.impliedVolatility|)).map fun pair =>
    decide (0 ≤ pair.2.impliedVolatility - pair.1.impliedVolatility)

def classify (points : List (TermPoint K)) (slope : K) : TermClassification :=
  if true ∈ monotonicSigns config points ∧ false ∈ monotonicSigns config points then .mixed
  else if |slope| ≤ config.flatThreshold then .flat
  else if 0 < slope then .contango
  else .backwardation

def emptyMetrics : TermStructureMetrics K where
  frontBackDifference := 0
  frontBackRatio := 1
  annualizedSlope := 0
  curvature := 0
  tenorNormalizedSlope := 0
  localForwardVariance := none
  forwardImpliedVolatility := none

/-- The figures of at least two points. -/
def metrics (points : List (TermPoint K)) (front back : TermPoint K) :
    Except Exc (TermStructureMetrics K) := do
  let diff := back.impliedVolatility - front.impliedVolatility
  let tenorSpanYears := max (((back.tenorDays - front.tenorDays : ℤ) : K) / 365.0) 1e-8
  let curvature ←
    if 3 ≤ points.length then do
      let mid ← listItem points (points.length / 2 : ℕ)
      pure (back.impliedVolatility - 2.0 * mid.impliedVolatility + front.impliedVolatility)
    else pure 0
  let first := (forwards math points).head?
  return { frontBackDifference := diff
           frontBackRatio := back.impliedVolatility / max front.impliedVolatility 1e-8
           annualizedSlope := diff / tenorSpanYears
           curvature := curvature
           tenorNormalizedSlope := diff / ((max (back.tenorDays - front.tenorDays) 1 : ℤ) : K)
           localForwardVariance := first.bind (·.forwardVariance)
           forwardImpliedVolatility := first.bind (·.forwardVolatility) }

def build (smiles : List (BuiltSmile K)) (valuationDate : OrdinalDate) (targetX : K) :
    Except Exc (TermStructureResult K) := do
  let (points, warnings) ←
    (sortBy (fun smile : BuiltSmile K => smile.expiration.toordinal) smiles).foldlM
      (readSmile valuationDate targetX) ([], [])
  if points.length < 2 then
    return { points := points, metrics := emptyMetrics, classification := .mixed,
             warnings := warnings ++ ["sparse tenor coverage"] }
  else
    let points := sortBy (fun point : TermPoint K => point.tenorDays) points
    let front ← listItem points 0
    let back ← listItem points (-1)
    let diagnostics := forwards math points
    let invalid := (diagnostics.filter fun diag => !diag.valid).map fun diag =>
      diag.reason.getD "invalid forward variance"
    let figures ← metrics math points front back
    return { points := points, metrics := figures,
             classification := classify config points figures.annualizedSlope,
             warnings := warnings ++ invalid, forwardDiagnostics := diagnostics }

end TermStructureBuilder

section Mean

variable {K : Type} [Field K] [LinearOrder K] [IsStrictOrderedRing K] {values : List K}

omit [LinearOrder K] [IsStrictOrderedRing K] in
@[simp] theorem mean_singleton (value : K) : mean [value] = value := by simp [mean]

theorem mean_between {lo hi : K} (hne : values ≠ [])
    (hrange : ∀ value ∈ values, lo ≤ value ∧ value ≤ hi) : lo ≤ mean values ∧ mean values ≤ hi := by
  have hpos : (0 : K) < values.length := Nat.cast_pos.mpr (List.length_pos_iff.mpr hne)
  have hlo := List.card_nsmul_le_sum values lo fun value h => (hrange value h).1
  have hhi := List.sum_le_card_nsmul values hi fun value h => (hrange value h).2
  rw [nsmul_eq_mul, mul_comm] at hlo hhi
  exact ⟨(le_div_iff₀ hpos).mpr hlo, (div_le_iff₀ hpos).mpr hhi⟩

omit [LinearOrder K] [IsStrictOrderedRing K] in
theorem mean_perm {others : List K} (h : values.Perm others) : mean values = mean others := by
  rw [mean, mean, h.sum_eq, h.length_eq]

end Mean

namespace SmileBuilder

variable {K : Type} [Field K] [LinearOrder K] {math : ConstructionMath K}
  {config : SmileBuilderConfig K} {expiration : OrdinalDate}
  {observations : List (VolatilityObservationRecord K)}

/-- The kept observations at one coordinate. -/
def rowsAt (math : ConstructionMath K) (config : SmileBuilderConfig K) (expiration : OrdinalDate)
    (observations : List (VolatilityObservationRecord K)) (x : K) :
    List (VolatilityObservationRecord K) :=
  (kept config expiration observations).filter fun obs =>
    decide (axisValue math obs config.axis = x)

/-- What a node says of its observations. -/
def representative (config : SmileBuilderConfig K) (rows : List (VolatilityObservationRecord K))
    (figure : VolatilityObservationRecord K → K) : K :=
  if config.deduplicateByAverage = true ∧ 1 < rows.length then mean (rows.map figure)
  else (rows.head?.map figure).getD 0

theorem mem_rowsAt {x : K} {obs : VolatilityObservationRecord K} :
    obs ∈ rowsAt math config expiration observations x ↔
      obs ∈ kept config expiration observations ∧ axisValue math obs config.axis = x := by
  rw [rowsAt, List.mem_filter, decide_eq_true_eq]

/-- The node of some observations. -/
def nodeOf (config : SmileBuilderConfig K) (x : K) (rows : List (VolatilityObservationRecord K)) :
    BuiltNode K where
  x := x
  impliedVolatility := representative config rows (·.impliedVolatility)
  qualityScore := representative config rows (·.quality)
  sourceObservationId := rows.head?.bind (·.observationId)

omit [LinearOrder K] in
theorem node_eq {x : K} {rows : List (VolatilityObservationRecord K)} (hne : rows ≠ []) :
    node config x rows = .ok (nodeOf config x rows) := by
  obtain ⟨selected, rest, rfl⟩ := List.exists_cons_of_ne_nil hne
  rw [node, show listItem (selected :: rest) 0 = .ok selected from rfl, except_ok_bind]
  simp only [nodeOf, representative]
  split_ifs <;> rfl

/-- The keyed observations a build groups. -/
def keyed (math : ConstructionMath K) (config : SmileBuilderConfig K) (expiration : OrdinalDate)
    (observations : List (VolatilityObservationRecord K)) :
    List (K × VolatilityObservationRecord K) :=
  (kept config expiration observations).map fun obs => (axisValue math obs config.axis, obs)

theorem itemsOf_keyed (x : K) : itemsOf x (keyed math config expiration observations) =
    rowsAt math config expiration observations x := by
  rw [itemsOf, keyed, List.filter_map, List.map_map]
  exact List.map_id _

theorem mem_grouped {x : K} {rows : List (VolatilityObservationRecord K)} :
    (x, rows) ∈ sortBy Prod.fst (groups (keyed math config expiration observations)) ↔
      rows ≠ [] ∧ rows = rowsAt math config expiration observations x := by
  rw [mem_sortBy, mem_groups, itemsOf_keyed]

/-- A build returns; its nodes stand from left to right, one at each coordinate of an observation. -/
theorem build_spec (math : ConstructionMath K) (config : SmileBuilderConfig K)
    (expiration : OrdinalDate) (observations : List (VolatilityObservationRecord K)) :
    ∃ built, build math config expiration observations = .ok built ∧
      (built.nodes.Pairwise fun a b => a.x < b.x) ∧
      ∀ node, node ∈ built.nodes ↔
        rowsAt math config expiration observations node.x ≠ [] ∧
          node = nodeOf config node.x (rowsAt math config expiration observations node.x) := by
  have hall : ∀ group ∈ sortBy Prod.fst (groups (keyed math config expiration observations)),
      node config group.1 group.2 = .ok (nodeOf config group.1 group.2) :=
    fun group hgroup => node_eq (mem_grouped.mp hgroup).1
  have hnodes := mapM_eq_ok_map hall
  refine ⟨_, except_bind_eq_ok.mpr ⟨_, hnodes, rfl⟩, ?_, ?_⟩
  · exact List.pairwise_map.mpr (sortBy_strict (nodup_keys_groups _))
  · intro node
    rw [List.mem_map]
    constructor
    · rintro ⟨⟨key, rows⟩, hgroup, rfl⟩
      obtain ⟨hne, hrowsAt⟩ := mem_grouped.mp hgroup
      exact hrowsAt ▸ ⟨hne, rfl⟩
    · rintro ⟨hne, hnode⟩
      exact ⟨(node.x, _), mem_grouped.mpr ⟨hne, rfl⟩, hnode.symm⟩

/-- The evaluator of a built smile. -/
def evaluatorOf (config : SmileBuilderConfig K) (built : BuiltSmile K) : SmileEvaluator K :=
  ⟨built.smile, config.toSmileBuildConfig⟩

variable [IsStrictOrderedRing K]

/-- A figure of the observations at a coordinate stays within their range. -/
theorem representative_between {rows : List (VolatilityObservationRecord K)}
    {figure : VolatilityObservationRecord K → K} {lo hi : K} (hne : rows ≠ [])
    (hrange : ∀ obs ∈ rows, lo ≤ figure obs ∧ figure obs ≤ hi) :
    lo ≤ representative config rows figure ∧ representative config rows figure ≤ hi := by
  rw [representative]
  split_ifs
  · apply mean_between
    · simpa using hne
    · intro value hvalue
      obtain ⟨obs, hobs, rfl⟩ := List.mem_map.mp hvalue
      exact hrange obs hobs
  · rw [List.head?_eq_some_head hne]
    exact hrange _ (List.head_mem hne)

omit [Field K] [IsStrictOrderedRing K] in
/-- Between two nodes of an increasing smile lies a cell, or the place is a node. -/
theorem exists_cell {nodes : List (SmileNode K)} (h : Increasing nodes) {a b : SmileNode K}
    (ha : a ∈ nodes) (hb : b ∈ nodes) {x : K} (hax : a.x ≤ x) (hxb : x ≤ b.x) :
    (∃ node ∈ nodes, node.x = x) ∨
      ∃ i, ∃ hlo : i < nodes.length, ∃ hi : i + 1 < nodes.length,
        nodes[i].x ≤ x ∧ x ≤ nodes[i + 1].x := by
  have hwindow := bisectLeft_spec (x := x) h.sorted
  have hlength : (nodes.map (·.x)).length = nodes.length := List.length_map _
  have hle := hwindow.hi_le
  obtain ⟨j, hj, rfl⟩ := List.mem_iff_getElem.mp hb
  have hpos : 0 < nodes.length := Nat.zero_lt_of_lt hj
  have hbefore : bisectLeft (nodes.map (·.x)) x ≤ j := by
    by_contra hlt
    have hless := hwindow.before j (by omega) (by omega)
    rw [List.getElem_map] at hless
    exact absurd hxb (not_le.mpr hless)
  rcases hidx : bisectLeft (nodes.map (·.x)) x with _ | i
  · have hfirst := hwindow.after 0 (by omega) (by omega)
    rw [List.getElem_map] at hfirst
    obtain ⟨k, hk, rfl⟩ := List.mem_iff_getElem.mp ha
    have hleft := (h.le hpos hk (Nat.zero_le k)).trans hax
    exact .inl ⟨nodes[0], List.getElem_mem hpos, le_antisymm hleft hfirst⟩
  · have hi : i + 1 < nodes.length := by omega
    have hleft := hwindow.before i (by omega) (by omega)
    have hright := hwindow.after (i + 1) (by omega) (by omega)
    rw [List.getElem_map] at hleft hright
    exact .inr ⟨i, Nat.lt_of_succ_lt hi, hi, hleft.le, hright⟩

/-- The smile built from any observations has the volatility of the kept observations at each of
their coordinates, and between any two of them a volatility within the range of all. -/
theorem evaluate_build (math : ConstructionMath K) (config : SmileBuilderConfig K)
    (expiration : OrdinalDate) (observations : List (VolatilityObservationRecord K)) :
    ∃ built, build math config expiration observations = .ok built ∧
      (∀ obs ∈ kept config expiration observations,
        (evaluatorOf config built).evaluate (axisValue math obs config.axis) =
          .ok (some (representative config
            (rowsAt math config expiration observations (axisValue math obs config.axis))
            (·.impliedVolatility)))) ∧
      ∀ lo hi, (∀ obs ∈ kept config expiration observations,
          lo ≤ obs.impliedVolatility ∧ obs.impliedVolatility ≤ hi) →
        ∀ a ∈ kept config expiration observations, ∀ b ∈ kept config expiration observations,
          ∀ x, axisValue math a config.axis ≤ x → x ≤ axisValue math b config.axis →
            ∃ y, (evaluatorOf config built).evaluate x = .ok (some y) ∧ lo ≤ y ∧ y ≤ hi := by
  obtain ⟨built, hbuilt, hsorted, hnodes⟩ := build_spec math config expiration observations
  have hincreasing : Increasing built.smile.nodes := List.pairwise_map.mpr hsorted
  obtain ⟨hnode, hcell⟩ := @SmileEvaluator.evaluate_shape K _ _ _ (evaluatorOf config built)
    hincreasing
  have hmem : ∀ obs ∈ kept config expiration observations,
      (⟨axisValue math obs config.axis, representative config
        (rowsAt math config expiration observations (axisValue math obs config.axis))
        (·.impliedVolatility)⟩ : SmileNode K) ∈ built.smile.nodes := by
    intro obs hobs
    refine List.mem_map.mpr ⟨nodeOf config (axisValue math obs config.axis) _, ?_, rfl⟩
    exact (hnodes _).mpr ⟨List.ne_nil_of_mem (mem_rowsAt.mpr ⟨hobs, rfl⟩), rfl⟩
  refine ⟨built, hbuilt, fun obs hobs => hnode _ (hmem obs hobs), ?_⟩
  intro lo hi hrange a ha b hb x hax hxb
  have hwithin : ∀ node ∈ built.smile.nodes,
      lo ≤ node.impliedVolatility ∧ node.impliedVolatility ≤ hi := by
    intro node hnode
    obtain ⟨built, hbuilt, rfl⟩ := List.mem_map.mp hnode
    obtain ⟨hne, heq⟩ := (hnodes built).mp hbuilt
    rw [heq]
    exact representative_between hne fun obs hobs => hrange obs (mem_rowsAt.mp hobs).1
  rcases exists_cell hincreasing (hmem a ha) (hmem b hb) hax hxb with
    ⟨node, hat, rfl⟩ | ⟨i, _, hi', hleft, hright⟩
  · exact ⟨_, hnode node hat, hwithin node hat⟩
  · obtain ⟨y, hy, hbetween⟩ := (hcell i hi').between x hleft hright
    have hi₀ := hwithin _ (List.getElem_mem (Nat.lt_of_succ_lt hi'))
    have hi₁ := hwithin _ (List.getElem_mem hi')
    obtain ⟨hlo, hhi⟩ := Set.mem_uIcc.mp hbetween |>.elim
      (fun h => (⟨hi₀.1.trans h.1, h.2.trans hi₁.2⟩ : lo ≤ y ∧ y ≤ hi))
      (fun h => ⟨hi₁.1.trans h.1, h.2.trans hi₀.2⟩)
    exact ⟨y, hy, hlo, hhi⟩

/-- Two observations of one strike and one of another. -/
def doubled : List (VolatilityObservationRecord ℚ) :=
  [⟨.maxDate, 100, 1, none, none, 0.2, some 1, none⟩,
    ⟨.maxDate, 100, 1, none, none, 0.3, some 0.5, none⟩,
    ⟨.maxDate, 110, 1.1, none, none, 0.18, some 1, none⟩]

theorem evaluate_build_doubled :
    ∃ built, build ⟨id, id, fun _ => ""⟩ {} .maxDate doubled = .ok built ∧
      (∀ obs ∈ kept {} .maxDate doubled,
        (evaluatorOf {} built).evaluate (axisValue ⟨id, id, fun _ => ""⟩ obs .strike) =
          .ok (some (representative {} (rowsAt ⟨id, id, fun _ => ""⟩ {} .maxDate doubled
            (axisValue ⟨id, id, fun _ => ""⟩ obs .strike)) (·.impliedVolatility)))) ∧
      ∀ lo hi, (∀ obs ∈ kept {} .maxDate doubled,
          lo ≤ obs.impliedVolatility ∧ obs.impliedVolatility ≤ hi) →
        ∀ a ∈ kept {} .maxDate doubled, ∀ b ∈ kept {} .maxDate doubled,
          ∀ x, axisValue ⟨id, id, fun _ => ""⟩ a .strike ≤ x →
            x ≤ axisValue ⟨id, id, fun _ => ""⟩ b .strike →
              ∃ y, (evaluatorOf {} built).evaluate x = .ok (some y) ∧ lo ≤ y ∧ y ≤ hi :=
  evaluate_build ⟨id, id, fun _ => ""⟩ {} .maxDate doubled

omit [LinearOrder K] [IsStrictOrderedRing K] in
/-- Averaged duplicates do not tell in which order they came. -/
theorem representative_perm {rows others : List (VolatilityObservationRecord K)}
    (haverage : config.deduplicateByAverage = true) (hperm : rows.Perm others)
    (figure : VolatilityObservationRecord K → K) :
    representative config rows figure = representative config others figure := by
  rw [representative, representative, ← hperm.length_eq]
  split_ifs with hmany
  · exact mean_perm (hperm.map figure)
  · match rows with
    | [] => rw [List.nil_perm.mp hperm]
    | [_] => rw [List.perm_singleton.mp hperm.symm]
    | _ :: _ :: _ => exact absurd ⟨haverage, by simp⟩ hmany

omit [IsStrictOrderedRing K] in
/-- Where duplicates are averaged, another order of the observations builds the same smile. -/
theorem build_smile_perm {others : List (VolatilityObservationRecord K)} (math : ConstructionMath K)
    (expiration : OrdinalDate) (haverage : config.deduplicateByAverage = true)
    (hperm : observations.Perm others) :
    ∃ built built', build math config expiration observations = .ok built ∧
      build math config expiration others = .ok built' ∧
      built.nodes.map (fun node => (node.toSmileNode, node.qualityScore)) =
        built'.nodes.map (fun node => (node.toSmileNode, node.qualityScore)) := by
  obtain ⟨built, hbuilt, hsorted, hnodes⟩ := build_spec math config expiration observations
  obtain ⟨built', hbuilt', hsorted', hnodes'⟩ := build_spec math config expiration others
  refine ⟨built, built', hbuilt, hbuilt', ?_⟩
  have hrows : ∀ x, (rowsAt math config expiration observations x).Perm
      (rowsAt math config expiration others x) :=
    fun x => ((hperm.filter _).filter _).filter _
  have hfigures : ∀ x, (nodeOf config x (rowsAt math config expiration observations x)).toSmileNode =
        (nodeOf config x (rowsAt math config expiration others x)).toSmileNode ∧
      (nodeOf config x (rowsAt math config expiration observations x)).qualityScore =
        (nodeOf config x (rowsAt math config expiration others x)).qualityScore := by
    intro x
    simp only [nodeOf, representative_perm haverage (hrows x), and_self]
  have hsame : ∀ figures : SmileNode K × K,
      figures ∈ built.nodes.map (fun node => (node.toSmileNode, node.qualityScore)) ↔
        figures ∈ built'.nodes.map (fun node => (node.toSmileNode, node.qualityScore)) := by
    have hempty : ∀ x, rowsAt math config expiration observations x = [] ↔
        rowsAt math config expiration others x = [] :=
      fun x => ⟨fun h => List.nil_perm.mp (h ▸ hrows x), fun h => List.perm_nil.mp (h ▸ hrows x)⟩
    intro figures
    rw [List.mem_map, List.mem_map]
    constructor
    · rintro ⟨node, hnode, rfl⟩
      obtain ⟨hne, heq⟩ := (hnodes node).mp hnode
      refine ⟨_, (hnodes' (nodeOf config node.x (rowsAt math config expiration others node.x))).mpr
        ⟨fun h => hne ((hempty _).mpr h), rfl⟩, ?_⟩
      rw [heq]
      exact Prod.ext (hfigures node.x).1.symm (hfigures node.x).2.symm
    · rintro ⟨node, hnode, rfl⟩
      obtain ⟨hne, heq⟩ := (hnodes' node).mp hnode
      refine ⟨_, (hnodes (nodeOf config node.x
        (rowsAt math config expiration observations node.x))).mpr
        ⟨fun h => hne ((hempty _).mp h), rfl⟩, ?_⟩
      rw [heq]
      exact Prod.ext (hfigures node.x).1 (hfigures node.x).2
  have hstrict : ∀ {nodes : List (BuiltNode K)}, (nodes.Pairwise fun a b => a.x < b.x) →
      (nodes.map fun node => (node.toSmileNode, node.qualityScore)).Pairwise
        fun a b => a.1.x < b.1.x := fun h => List.pairwise_map.mpr h
  have hperm' := (List.perm_ext_iff_of_nodup
    ((hstrict hsorted).imp fun {a b} hlt heq => absurd (heq ▸ hlt) (lt_irrefl _))
    ((hstrict hsorted').imp fun {a b} hlt heq => absurd (heq ▸ hlt) (lt_irrefl _))).mpr hsame
  exact hperm'.eq_of_pairwise (fun a b _ _ hab hba => absurd hba (lt_asymm hab)) (hstrict hsorted)
    (hstrict hsorted')

theorem build_smile_perm_doubled : ∃ built built',
    build ⟨id, id, fun _ => ""⟩ {} .maxDate doubled = .ok built ∧
      build ⟨id, id, fun _ => ""⟩ {} .maxDate doubled.reverse = .ok built' ∧
      built.nodes.map (fun node => (node.toSmileNode, node.qualityScore)) =
        built'.nodes.map (fun node => (node.toSmileNode, node.qualityScore)) :=
  build_smile_perm ⟨id, id, fun _ => ""⟩ .maxDate rfl (List.reverse_perm doubled).symm

end SmileBuilder

namespace TermStructureBuilder

variable {K : Type} [Field K] [LinearOrder K] [IsStrictOrderedRing K] {math : ConstructionMath K}
  {config : TermStructureConfig K} {smiles : List (BuiltSmile K)} {valuationDate : OrdinalDate}
  {targetX : K} {result : TermStructureResult K}

/-- The variance up to a point. -/
def varianceAt (point : TermPoint K) : K := totalVariance point.tenorDays point.impliedVolatility

/-- The later point has the later tenor and no less variance. -/
def Accrues (a b : TermPoint K) : Prop :=
  a.tenorDays < b.tenorDays ∧ varianceAt a ≤ varianceAt b

instance : Trans (Accrues : TermPoint K → TermPoint K → Prop) Accrues Accrues :=
  ⟨fun hab hbc => ⟨hab.1.trans hbc.1, hab.2.trans hbc.2⟩⟩

/-- Tenors that differ are at least a day apart. -/
theorem tenorYears_gap {a b : ℤ} (h : a < b) :
    0 < tenorYears (K := K) b - tenorYears a ∧
      max (tenorYears (K := K) b - tenorYears a) 1e-12 = tenorYears b - tenorYears a := by
  have hyear : (365.0 : K) = 365 := by norm_num
  have hday : (1 : K) ≤ (b : K) - a := by
    rw [← Int.cast_sub]
    exact_mod_cast Int.sub_pos_of_lt h
  have hgap : (1 : K) / 365 ≤ tenorYears b - tenorYears a := by
    rw [tenorYears, tenorYears, hyear, ← sub_div]
    gcongr
  have hleast : (1e-12 : K) ≤ 1 / 365 := by norm_num
  have hpos : (0 : K) < 1 / 365 := by norm_num
  exact ⟨hpos.trans_le hgap, max_eq_left (hleast.trans hgap)⟩

theorem valid_iff {a b : TermPoint K} :
    (computeForwardVolatility math a.tenorDays b.tenorDays a.impliedVolatility
      b.impliedVolatility).valid = true ↔ Accrues a b := by
  rw [computeForwardVolatility, Accrues]
  by_cases horder : b.tenorDays ≤ a.tenorDays
  · rw [if_pos horder]
    exact ⟨(nomatch ·), fun h => absurd h.1 (not_lt.mpr horder)⟩
  · have hlt := not_le.mp horder
    obtain ⟨hpos, hmax⟩ := tenorYears_gap (K := K) hlt
    rw [if_neg horder]
    simp only [hmax]
    by_cases hfall : (totalVariance b.tenorDays b.impliedVolatility -
        totalVariance a.tenorDays a.impliedVolatility) /
          (tenorYears b.tenorDays - tenorYears a.tenorDays) < 0
    · rw [if_pos hfall]
      refine ⟨(nomatch ·), fun h => ?_⟩
      have hnonneg := div_nonneg (sub_nonneg.mpr h.2) hpos.le
      exact absurd hfall (not_lt.mpr hnonneg)
    · rw [if_neg hfall]
      refine ⟨fun _ => ⟨hlt, ?_⟩, fun _ => rfl⟩
      by_contra hless
      exact hfall (div_neg_of_neg_of_pos (sub_neg.mpr (not_le.mp hless)) hpos)

/-- The variance a diagnostic says accrues between its tenors. -/
def ForwardGain (diag : ForwardVolatilityDiagnostic K) : K :=
  diag.forwardVariance.getD 0 * (tenorYears diag.endTenorDays - tenorYears diag.startTenorDays)

theorem forwardGain_eq {a b : TermPoint K} (h : a.tenorDays < b.tenorDays) :
    ForwardGain (computeForwardVolatility math a.tenorDays b.tenorDays a.impliedVolatility
      b.impliedVolatility) = varianceAt b - varianceAt a := by
  obtain ⟨hpos, hmax⟩ := tenorYears_gap (K := K) h
  rw [computeForwardVolatility, if_neg (not_le.mpr h)]
  simp only [hmax]
  split_ifs <;> exact div_mul_cancel₀ _ hpos.ne'

omit [IsStrictOrderedRing K] in
/-- What a build returns from at least two points. -/
theorem build_points (h : build math config smiles valuationDate targetX = .ok result)
    (hmany : 2 ≤ result.points.length) :
    (result.points.Pairwise fun a b => a.tenorDays ≤ b.tenorDays) ∧
      result.forwardDiagnostics = forwards math result.points := by
  rw [build] at h
  obtain ⟨⟨points, warnings⟩, -, h⟩ := except_bind_eq_ok.mp h
  simp only at h
  split_ifs at h with hfew
  · cases h
    exact absurd hmany (not_le.mpr hfew)
  · obtain ⟨front, -, h⟩ := except_bind_eq_ok.mp h
    obtain ⟨back, -, h⟩ := except_bind_eq_ok.mp h
    obtain ⟨figures, -, h⟩ := except_bind_eq_ok.mp h
    cases h
    exact ⟨sortBy_sorted _ _, rfl⟩

/-- A term structure built from any smiles has its points by tenor. All its forward variances are
valid exactly where every later point has a later tenor and no less variance than an earlier one;
and where the tenors differ, the forward variances over their times add up to the variance from the
first tenor to the last. -/
theorem forward_variances_sound
    (h : build math config smiles valuationDate targetX = .ok result)
    (hmany : 2 ≤ result.points.length) :
    (result.points.Pairwise fun a b => a.tenorDays ≤ b.tenorDays) ∧
      ((∀ diag ∈ result.forwardDiagnostics, diag.valid = true) ↔
        result.points.Pairwise Accrues) ∧
      ((result.points.Pairwise fun a b => a.tenorDays < b.tenorDays) →
        ∀ front ∈ result.points.head?, ∀ back ∈ result.points.getLast?,
          (result.forwardDiagnostics.map ForwardGain).sum = varianceAt back - varianceAt front) := by
  obtain ⟨hsorted, hdiagnostics⟩ := build_points h hmany
  rw [hdiagnostics, forwards]
  refine ⟨hsorted, ?_, ?_⟩
  · rw [List.forall_mem_map, ← forall_neighbours_iff_pairwise]
    exact forall₂_congr fun _ _ => valid_iff
  · intro hdiffer front hfront back hback
    have hne : result.points ≠ [] := List.ne_nil_of_length_pos (by omega)
    obtain rfl : result.points.head hne = front :=
      Option.some.inj ((List.head?_eq_some_head hne).symm.trans hfront)
    obtain rfl : result.points.getLast hne = back :=
      Option.some.inj ((List.getLast?_eq_some_getLast hne).symm.trans hback)
    have hneighbours : ∀ pair ∈ result.points.zip result.points.tail,
        pair.1.tenorDays < pair.2.tenorDays := forall_neighbours_iff.mpr hdiffer.isChain
    rw [← sum_gains varianceAt hne, List.map_map]
    exact congrArg List.sum (List.map_congr_left fun pair hpair =>
      forwardGain_eq (hneighbours pair hpair))

/-- A smile of one node, thirty days or a year out. -/
def flatSmile (expiration : OrdinalDate) (iv : ℚ) : BuiltSmile ℚ where
  expiration := expiration
  axis := .strike
  nodes := [⟨⟨100, iv⟩, 1, none⟩]
  warnings := []
  diagnostics := ⟨1, .linear, .none, 0.5⟩

/-- The points of two such smiles. -/
def flatPoints : List (TermPoint ℚ) := [⟨30, 0.2, 1⟩, ⟨365, 0.25, 1⟩]

theorem build_flat : ∃ result, build ⟨id, id, fun _ => ""⟩ {}
    [flatSmile ⟨1366, by decide, by decide⟩ 0.25, flatSmile ⟨1031, by decide, by decide⟩ 0.2]
    ⟨1001, by decide, by decide⟩ 100 = .ok result ∧ result.points = flatPoints := by
  refine ⟨_, rfl, ?_⟩
  decide +kernel

theorem forward_variances_sound_flat : ∃ result : TermStructureResult ℚ,
    result.points = flatPoints ∧
      (result.points.Pairwise fun a b => a.tenorDays ≤ b.tenorDays) ∧
      ((∀ diag ∈ result.forwardDiagnostics, diag.valid = true) ↔
        result.points.Pairwise Accrues) ∧
      ((result.points.Pairwise fun a b => a.tenorDays < b.tenorDays) →
        ∀ front ∈ result.points.head?, ∀ back ∈ result.points.getLast?,
          (result.forwardDiagnostics.map ForwardGain).sum =
            varianceAt back - varianceAt front) := by
  obtain ⟨result, hbuild, hpoints⟩ := build_flat
  exact ⟨result, hpoints, forward_variances_sound hbuild (by rw [hpoints]; decide)⟩

end TermStructureBuilder

end OptionResearch
