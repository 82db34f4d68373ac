import OptionResearch.ParameterRefinement

/-!
# Float domains and their bounds

The number of steps of a float range is a rounded quotient. Where rounding to the precision changes
no value, the values of the domain and of every domain near one of them stay within the bounds
exactly where the steps cut off less than a half step, or the range is a half step.
-/

namespace OptionResearch.ParameterDefinition

variable {name : String} {minimum maximum step : ℚ} {precision : Int}
  {definition : ParameterDefinition}

/-- Values that refinement can reach: those of the domain, and those near a value it has reached. -/
inductive Reached (definition : ParameterDefinition) : ParameterValue → Prop
  | grid {value : ParameterValue} (h : value ∈ definition.domain) : Reached definition value
  | near {parent value : ParameterValue} {width : Int} {values : List ParameterValue}
      (hparent : Reached definition parent) (hwidth : 0 ≤ width)
      (hvalues : definition.localDomain parent width = .ok values) (h : value ∈ values) :
      Reached definition value

/-- The precision keeps every decimal of the bounds and the steps. -/
def ExactDecimals (minimum step : ℚ) (precision : Int) : Prop :=
  ∃ m s : Int, minimum * 10 ^ precision = m ∧ step * 10 ^ precision = s

/-- The value is a number within the bounds. -/
def Within (minimum maximum : ℚ) (value : ParameterValue) : Prop :=
  ∃ q, value = .float q ∧ minimum ≤ q ∧ q ≤ maximum

theorem validate_floatRange_iff :
    (floatRange name minimum maximum step precision).validate = .ok () ↔
      0 < step ∧ minimum ≤ maximum := by
  rw [validate, assertRange]
  split_ifs with hstep hrange
  · simp [invalid, hstep.not_gt]
  · simp [invalid, hrange.not_ge]
  · simp [not_le.mp hstep, not_lt.mp hrange]

theorem roundTo_grid (hexact : ExactDecimals minimum step precision) (i : Int) :
    roundTo (minimum + i * step) precision = minimum + i * step := by
  obtain ⟨m, s, hm, hs⟩ := hexact
  apply roundTo_eq_self (n := m + i * s)
  push_cast
  rw [← hm, ← hs]
  ring

/-- How many steps the range has. -/
def stepCount (minimum maximum step : ℚ) : ℚ := (maximum - minimum) / step

theorem grid_le_iff (hstep : 0 < step) {x : ℚ} :
    minimum + x * step ≤ maximum ↔ x ≤ stepCount minimum maximum step := by
  rw [stepCount, le_div_iff₀ hstep]
  constructor <;> intro h <;> linarith

/-- Values that are whole steps from a start, as many as `steps` and one more. -/
theorem mem_gridValues (hexact : ExactDecimals minimum step precision) {low steps : Int}
    {value : ParameterValue} :
    (value ∈ (List.range (steps + 1).toNat).map fun (i : Nat) =>
        .float (roundTo (minimum + low * step + i * step) precision)) ↔
      ∃ k : Int, low ≤ k ∧ k - low ≤ steps ∧ value = .float (minimum + k * step) := by
  have hround : ∀ i : Int, roundTo (minimum + low * step + i * step) precision =
      minimum + ((low + i : Int) : ℚ) * step := by
    intro i
    have hsum : minimum + low * step + i * step = minimum + ((low + i : Int) : ℚ) * step := by
      push_cast
      ring
    rw [hsum, roundTo_grid hexact]
  rw [List.mem_map]
  constructor
  · rintro ⟨i, hi, rfl⟩
    rw [List.mem_range] at hi
    exact ⟨low + i, by omega, by omega, congrArg _ (hround i)⟩
  · rintro ⟨k, hlow, hle, rfl⟩
    obtain ⟨i, hi⟩ := Int.eq_ofNat_of_zero_le (Int.sub_nonneg_of_le hlow)
    refine ⟨i, List.mem_range.mpr (by omega), ?_⟩
    have hk : k = low + i := by omega
    rw [hk]
    exact congrArg _ (hround i)

/-- The values of the domain are whole steps from the minimum, up to the rounded number of steps. -/
theorem mem_domain_floatRange (hexact : ExactDecimals minimum step precision)
    {value : ParameterValue} :
    value ∈ (floatRange name minimum maximum step precision).domain ↔
      ∃ j : Int, 0 ≤ j ∧ j ≤ roundHalfEven (stepCount minimum maximum step) ∧
        value = .float (minimum + j * step) := by
  have hdomain : (floatRange name minimum maximum step precision).domain =
      (List.range (roundHalfEven (stepCount minimum maximum step) + 1).toNat).map fun (i : Nat) =>
        .float (roundTo (minimum + (0 : Int) * step + i * step) precision) := by
    rw [domain, stepCount]
    simp only [List.bind_eq_flatMap, List.pure_def, ← List.map_eq_flatMap, List.map_map,
      Int.cast_zero, zero_mul, add_zero]
    rfl
  rw [hdomain, mem_gridValues hexact]
  simp only [Int.sub_zero]

/-- The values near a whole number of steps are whole steps, too: from the lower end of the
neighbourhood on, as many as its rounded length. -/
theorem mem_localDomain_floatRange (hexact : ExactDecimals minimum step precision)
    (hstep : 0 < step) (j width : Int) :
    ∃ values, (floatRange name minimum maximum step precision).localDomain
        (.float (minimum + j * step)) width = .ok values ∧
      ∀ value, value ∈ values ↔ ∃ k : Int, max 0 (j - width) ≤ k ∧
        k - max 0 (j - width) ≤ roundHalfEven
          (min (stepCount minimum maximum step) ((j + width : Int) : ℚ) -
            ((max 0 (j - width) : Int) : ℚ)) ∧
        value = .float (minimum + k * step) := by
  have hlow : max minimum (minimum + j * step - step * width) =
      minimum + ((max 0 (j - width) : Int) : ℚ) * step := by
    have hshift : minimum + j * step - step * width = minimum + ((j - width : Int) : ℚ) * step := by
      push_cast
      ring
    rw [hshift, Int.cast_max, Int.cast_zero, max_mul_of_nonneg _ _ hstep.le, zero_mul,
      ← max_add_add_left, add_zero]
  have hhigh : (min maximum (minimum + j * step + step * width) -
      (minimum + ((max 0 (j - width) : Int) : ℚ) * step)) / step =
        min (stepCount minimum maximum step) ((j + width : Int) : ℚ) -
          ((max 0 (j - width) : Int) : ℚ) := by
    have hshift : minimum + j * step + step * width = minimum + ((j + width : Int) : ℚ) * step := by
      push_cast
      ring
    have hmax : maximum = minimum + stepCount minimum maximum step * step := by
      rw [stepCount, div_mul_cancel₀ _ hstep.ne', add_sub_cancel]
    have hmin : min maximum (minimum + ((j + width : Int) : ℚ) * step) =
        minimum + min (stepCount minimum maximum step) ((j + width : Int) : ℚ) * step := by
      rw [min_mul_of_nonneg _ _ hstep.le, ← min_add_add_left, ← hmax]
    rw [hshift, hmin, add_sub_add_left_eq_sub, ← sub_mul, mul_div_cancel_right₀ _ hstep.ne']
  refine ⟨_, rfl, fun value => ?_⟩
  rw [hlow, hhigh]
  exact mem_gridValues hexact

/-! ### Within the bounds -/

/-- The domain stays within the bounds exactly where the number of steps is rounded down. -/
theorem domain_within_iff (hexact : ExactDecimals minimum step precision) (hstep : 0 < step)
    (hrange : minimum ≤ maximum) :
    (∀ value ∈ (floatRange name minimum maximum step precision).domain,
        Within minimum maximum value) ↔
      (roundHalfEven (stepCount minimum maximum step) : ℚ) ≤ stepCount minimum maximum step := by
  have hcount : 0 ≤ stepCount minimum maximum step :=
    div_nonneg (sub_nonneg.mpr hrange) hstep.le
  constructor
  · intro h
    have hfloor : 0 ≤ (stepCount minimum maximum step).floor :=
      Rat.le_floor_iff.mpr (by simpa using hcount)
    have hsteps := hfloor.trans (floor_le_roundHalfEven _)
    obtain ⟨q, hq, -, hle⟩ := h _ ((mem_domain_floatRange hexact).mpr ⟨_, hsteps, le_rfl, rfl⟩)
    rw [← ParameterValue.float.inj hq] at hle
    exact (grid_le_iff hstep).mp hle
  · intro h value hvalue
    obtain ⟨j, hj, hle, rfl⟩ := (mem_domain_floatRange hexact).mp hvalue
    refine ⟨_, rfl, ?_, (grid_le_iff hstep).mpr ?_⟩
    · have hjq : (0 : ℚ) ≤ j := by exact_mod_cast hj
      linarith [mul_nonneg hjq hstep.le]
    · exact le_trans (by exact_mod_cast hle) h

/-- Less than a half step is cut off, or the range is a half step. -/
def CutsDown (minimum maximum step : ℚ) : Prop :=
  stepCount minimum maximum step - (stepCount minimum maximum step).floor < 1 / 2 ∨
    stepCount minimum maximum step = 1 / 2

theorem CutsDown.roundHalfEven_le (h : CutsDown minimum maximum step) :
    (roundHalfEven (stepCount minimum maximum step) : ℚ) ≤ stepCount minimum maximum step := by
  rcases h with hcut | hhalf
  · exact roundHalfEven_le_iff.mpr (.inl hcut)
  · rw [hhalf]
    decide +kernel

/-- A neighbourhood of a value within the bounds is rounded down, too. -/
theorem CutsDown.neighbourhood_le (h : CutsDown minimum maximum step) {j width : Int}
    (hj : (j : ℚ) ≤ stepCount minimum maximum step) (hwidth : 0 ≤ width) :
    (((max 0 (j - width) : Int) + roundHalfEven
        (min (stepCount minimum maximum step) ((j + width : Int) : ℚ) -
          ((max 0 (j - width) : Int) : ℚ)) : Int) : ℚ) ≤ stepCount minimum maximum step := by
  unfold CutsDown at h
  generalize stepCount minimum maximum step = steps at *
  rcases le_or_gt ((j + width : Int) : ℚ) steps with hwithin | hbeyond
  · rw [min_eq_right hwithin, ← Int.cast_sub, roundHalfEven_intCast, add_sub_cancel]
    exact hwithin
  · rw [min_eq_left hbeyond.le]
    rcases h with hcut | rfl
    · have hfloor := Rat.floor_le steps
      have hround : roundHalfEven (steps - ((max 0 (j - width) : Int) : ℚ)) =
          steps.floor - max 0 (j - width) := by
        apply roundHalfEven_eq_of_le <;> push_cast <;> linarith
      rw [hround, add_sub_cancel]
      exact hfloor
    · have hone : (j : ℚ) < 1 := by linarith
      have hzero : j < 1 := by exact_mod_cast hone
      rw [max_eq_left (by omega : j - width ≤ 0)]
      decide +kernel

/-- Where the steps are cut down, the values that refinement reaches are whole steps within the
bounds. -/
theorem Reached.exists_step (hexact : ExactDecimals minimum step precision) (hstep : 0 < step)
    (hcut : CutsDown minimum maximum step) {value : ParameterValue}
    (h : Reached (floatRange name minimum maximum step precision) value) :
    ∃ j : Int, 0 ≤ j ∧ (j : ℚ) ≤ stepCount minimum maximum step ∧
      value = .float (minimum + j * step) := by
  induction h with
  | grid hvalue =>
    obtain ⟨j, hj, hle, hvalue⟩ := (mem_domain_floatRange hexact).mp hvalue
    exact ⟨j, hj, le_trans (by exact_mod_cast hle) hcut.roundHalfEven_le, hvalue⟩
  | near _ hwidth hvalues hmem ih =>
    obtain ⟨j, hj, hle, rfl⟩ := ih
    obtain ⟨values', hvalues', hiff⟩ := mem_localDomain_floatRange hexact hstep j _
    obtain rfl := Except.ok.inj (hvalues.symm.trans hvalues')
    obtain ⟨k, hlow, hhigh, hvalue⟩ := (hiff _).mp hmem
    refine ⟨k, by omega, le_trans ?_ (hcut.neighbourhood_le hle hwidth), hvalue⟩
    exact_mod_cast (by omega)

/-- A half step above an even number of steps is rounded up around the last but one value. -/
theorem exists_reached_beyond (hexact : ExactDecimals minimum step precision) (hstep : 0 < step)
    {last : Int} (hpos : 0 < last)
    (htie : stepCount minimum maximum step = last + 1 / 2)
    (hlast : last ≤ roundHalfEven (stepCount minimum maximum step)) :
    Reached (floatRange name minimum maximum step precision)
      (.float (minimum + ((last + 1 : Int) : ℚ) * step)) := by
  have hgrid : Reached (floatRange name minimum maximum step precision)
      (.float (minimum + last * step)) :=
    .grid ((mem_domain_floatRange hexact).mpr ⟨last, hpos.le, hlast, rfl⟩)
  obtain ⟨values, hvalues, hiff⟩ :=
    @mem_localDomain_floatRange name minimum maximum step precision hexact hstep last 1
  refine .near hgrid zero_le_one hvalues ((hiff _).mpr ⟨last + 1, ?_, ?_, rfl⟩)
  · omega
  · have hlow : max 0 (last - 1) = last - 1 := max_eq_right (by omega)
    have hround : roundHalfEven (min (stepCount minimum maximum step) ((last + 1 : Int) : ℚ) -
        ((last - 1 : Int) : ℚ)) = 2 := by
      have hmin : min (stepCount minimum maximum step) ((last + 1 : Int) : ℚ) -
          ((last - 1 : Int) : ℚ) = 3 / 2 := by
        rw [htie, min_eq_left (by push_cast; linarith)]
        push_cast
        ring
      rw [hmin]
      decide +kernel
    rw [hlow, hround]
    omega

/-- The domain and every domain near a value that refinement reaches stay within the bounds exactly
where less than a half step is cut off, or the range is a half step. -/
theorem floatRange_within_iff (hvalid : (floatRange name minimum maximum step precision).validate =
    .ok ()) (hexact : ExactDecimals minimum step precision) :
    (∀ value, Reached (floatRange name minimum maximum step precision) value →
        Within minimum maximum value) ↔
      CutsDown minimum maximum step := by
  obtain ⟨hstep, hrange⟩ := validate_floatRange_iff.mp hvalid
  constructor
  · intro h
    have hdown := (domain_within_iff hexact hstep hrange).mp fun value hvalue =>
      h value (.grid hvalue)
    rcases roundHalfEven_le_iff.mp hdown with hcut | ⟨htie, heven⟩
    · exact .inl hcut
    · right
      by_contra hhalf
      have hcount : 0 ≤ stepCount minimum maximum step :=
        div_nonneg (sub_nonneg.mpr hrange) hstep.le
      have hsteps : stepCount minimum maximum step =
          (stepCount minimum maximum step).floor + 1 / 2 := by linarith
      have hnonneg : 0 ≤ (stepCount minimum maximum step).floor :=
        Rat.le_floor_iff.mpr (by simpa using hcount)
      have hne : (stepCount minimum maximum step).floor ≠ 0 := by
        intro hzero
        rw [hzero, Int.cast_zero, zero_add] at hsteps
        exact hhalf hsteps
      obtain ⟨q, hq, -, hle⟩ := h _ (exists_reached_beyond hexact hstep
        (lt_of_le_of_ne hnonneg (Ne.symm hne)) hsteps (floor_le_roundHalfEven _))
      rw [← ParameterValue.float.inj hq] at hle
      have hbeyond := (grid_le_iff hstep).mp hle
      have hlt := Rat.lt_floor_add_one (stepCount minimum maximum step)
      exact absurd hbeyond (not_le.mpr hlt)
  · intro hcut value hvalue
    obtain ⟨j, hj, hle, rfl⟩ := hvalue.exists_step hexact hstep hcut
    refine ⟨_, rfl, ?_, (grid_le_iff hstep).mpr hle⟩
    have hjq : (0 : ℚ) ≤ j := by exact_mod_cast hj
    linarith [mul_nonneg hjq hstep.le]

theorem floatRange_within_iff_tenths : Within 0 1 (.float (9 / 10)) :=
  (@floatRange_within_iff "delta" 0 1 (3 / 10) 1
    (validate_floatRange_iff.mpr ⟨by norm_num, by norm_num⟩)
    ⟨0, 3, by norm_num, by norm_num⟩).mpr (.inl (by decide +kernel)) _ (.grid (by decide +kernel))

/-- Two steps of three fifths are rounded up to from one, beyond the maximum. -/
theorem floatRange_beyond_maximum :
    ¬ ∀ (name : String) (minimum maximum step : ℚ) (precision : Int),
      (floatRange name minimum maximum step precision).validate = .ok () →
      ExactDecimals minimum step precision →
      ∀ value, Reached (floatRange name minimum maximum step precision) value →
        Within minimum maximum value := by
  intro h
  have hdomain : ParameterValue.float (6 / 5) ∈ (floatRange "delta" 0 1 (3 / 5) 1).domain := by
    decide +kernel
  obtain ⟨q, hq, -, hle⟩ :=
    h "delta" 0 1 (3 / 5) 1 (validate_floatRange_iff.mpr ⟨by norm_num, by norm_num⟩)
      ⟨0, 6, by norm_num, by norm_num⟩ _ (.grid hdomain)
  rw [← ParameterValue.float.inj hq] at hle
  norm_num at hle

end OptionResearch.ParameterDefinition
