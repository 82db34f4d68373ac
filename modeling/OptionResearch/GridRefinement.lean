import OptionResearch.FloatDomains
import OptionResearch.RefinementAlignment

/-!
# Refinement of well-listed spaces

For well-listed conditionals, refinement stays in the grid where the values that pass near a parent
are values of their domains. Integers, categories, flags and ordered values always are; a float
range loses its grid where its steps cut off a half.
-/

namespace OptionResearch

namespace ParameterDefinition

variable {definition : ParameterDefinition} {parent value other : ParameterValue} {width : Int}
  {values : List ParameterValue}

/-- Near a parent, a value that equals one of the domain is one of the domain. -/
theorem mem_domain_of_canonical (hvalues : definition.localDomain parent width = .ok values)
    (hvalue : value ∈ values) (hother : other ∈ definition.domain)
    (hequal : other.canonical = value.canonical) : value ∈ definition.domain := by
  cases definition with
  | integerRange name minimum maximum step =>
    obtain ⟨n, -, rfl⟩ := List.mem_map.mp hother
    unfold localDomain at hvalues
    dsimp only at hvalues
    split at hvalues
    · cases hvalues
    · cases hvalues
      obtain ⟨m, -, rfl⟩ := List.mem_map.mp hvalue
      have hcast : (n : ℚ) = m := Sum.inl.inj hequal
      rwa [← Int.cast_inj.mp hcast]
  | floatRange name minimum maximum step precision =>
    obtain ⟨q, -, rfl⟩ := List.mem_map.mp hother
    unfold localDomain at hvalues
    dsimp only at hvalues
    split at hvalues
    · cases hvalues
      obtain ⟨r, -, rfl⟩ := List.mem_map.mp hvalue
      have hfloat := Sum.inl.inj hequal
      rwa [← hfloat]
    · cases hvalues
  | categorical name choices =>
    cases hvalues
    exact hvalue
  | boolean name =>
    cases hvalues
    exact hvalue
  | orderedDiscrete name ordered =>
    unfold localDomain at hvalues
    dsimp only at hvalues
    split at hvalues
    · cases hvalues
      exact hvalue
    · cases hvalues
      exact List.mem_of_mem_take (List.mem_of_mem_drop hvalue)

/-! ### Staying on the grid -/

/-- Near a value of the domain there are values of the domain only, the value itself among them. -/
def StaysOnGrid (definition : ParameterDefinition) (width : Int) : Prop :=
  ∀ parent ∈ definition.domain, ∀ values, definition.localDomain parent width = .ok values →
    (∀ value ∈ values, value ∈ definition.domain) ∧
      ∃ value ∈ values, value.canonical = parent.canonical

theorem rangeUp_eq_map (start stop step : Int) :
    rangeUp start stop step =
      (List.range ((stop - start + step - 1) / step).toNat).map fun (i : Nat) =>
        start + i * step := by
  unfold rangeUp
  simp only [List.bind_eq_flatMap, List.pure_def, ← List.map_eq_flatMap, List.map_map]
  rfl

theorem mem_rangeUp_iff {start stop step n : Int} (hstep : 0 < step) :
    n ∈ rangeUp start stop step ↔ ∃ i : Int, 0 ≤ i ∧ n = start + i * step ∧ n < stop := by
  have hcount : ∀ i : Int, i < (stop - start + step - 1) / step ↔ start + i * step < stop := by
    intro i
    rw [Int.lt_iff_add_one_le, Int.le_ediv_iff_mul_le hstep]
    constructor <;> intro h <;> linarith
  rw [rangeUp_eq_map, List.mem_map]
  constructor
  · rintro ⟨i, hi, rfl⟩
    rw [List.mem_range] at hi
    exact ⟨i, Int.natCast_nonneg i, rfl, (hcount i).mp (by omega)⟩
  · rintro ⟨i, hi, rfl, hlt⟩
    obtain ⟨k, rfl⟩ := Int.eq_ofNat_of_zero_le hi
    have hk := (hcount k).mpr hlt
    exact ⟨k, List.mem_range.mpr (by omega), rfl⟩

theorem staysOnGrid_integerRange {name : String} {minimum maximum step : Int} (hstep : 0 < step)
    (hwidth : 0 ≤ width) : StaysOnGrid (integerRange name minimum maximum step) width := by
  rintro parent hparent values hvalues
  obtain ⟨n, hn, rfl⟩ := List.mem_map.mp hparent
  obtain ⟨i, hi, rfl, hlt⟩ := (mem_rangeUp_iff hstep).mp hn
  cases hvalues
  have hspan : 0 ≤ step * width := mul_nonneg hstep.le hwidth
  have hbelow : 0 ≤ i * step := mul_nonneg hi hstep.le
  -- the lower end is a whole number of steps above the minimum
  obtain ⟨j, hj, hle, hlow⟩ : ∃ j : Int, 0 ≤ j ∧ j ≤ i ∧
      max minimum (minimum + i * step - step * width) = minimum + j * step := by
    rcases le_total 0 (i - width) with hpos | hneg
    · refine ⟨i - width, hpos, by omega, ?_⟩
      have hshift : minimum + i * step - step * width = minimum + (i - width) * step := by ring
      rw [hshift, max_eq_right]
      linarith [mul_nonneg hpos hstep.le]
    · refine ⟨0, le_rfl, hi, ?_⟩
      rw [zero_mul, add_zero, max_eq_left]
      have hback : (i - width) * step ≤ 0 := mul_nonpos_of_nonpos_of_nonneg hneg hstep.le
      linarith
  constructor
  · intro value hvalue
    obtain ⟨m, hm, rfl⟩ := List.mem_map.mp hvalue
    obtain ⟨k, hk, rfl, hhigh⟩ := (mem_rangeUp_iff hstep).mp hm
    refine List.mem_map.mpr ⟨_, (mem_rangeUp_iff hstep).mpr ⟨j + k, by omega, ?_, ?_⟩, rfl⟩
    · rw [hlow]
      ring
    · exact hhigh.trans_le (by omega)
  · refine ⟨_, List.mem_map.mpr ⟨_, (mem_rangeUp_iff hstep).mpr
      ⟨i - j, by omega, ?_, ?_⟩, rfl⟩, rfl⟩
    · rw [hlow]
      ring
    · omega

theorem staysOnGrid_orderedDiscrete {name : String} {ordered : List ParameterValue}
    (hwidth : 0 ≤ width) : StaysOnGrid (orderedDiscrete name ordered) width := by
  intro parent hparent values hvalues
  unfold localDomain at hvalues
  dsimp only at hvalues
  split at hvalues
  · rename_i hnone
    rw [List.findIdx?_eq_none_iff] at hnone
    have hself := hnone parent hparent
    rw [ParameterValue.equals_iff.mpr rfl] at hself
    cases hself
  · rename_i index hindex
    cases hvalues
    refine ⟨fun value hvalue => List.mem_of_mem_take (List.mem_of_mem_drop hvalue), ?_⟩
    obtain ⟨hlt, hequals, -⟩ := List.findIdx?_eq_some_iff_getElem.mp hindex
    refine ⟨ordered[index], ?_, ParameterValue.equals_iff.mp hequals⟩
    rw [List.mem_iff_getElem?]
    refine ⟨index - (max 0 ((index : Int) - width)).toNat, ?_⟩
    rw [List.getElem?_drop, List.getElem?_take_of_lt (by omega),
      Nat.add_sub_cancel' (by omega), List.getElem?_eq_getElem hlt]

/-- A float range without a half step stays on its grid. -/
theorem staysOnGrid_floatRange {name : String} {minimum maximum step : ℚ} {precision : Int}
    (hexact : ExactDecimals minimum step precision) (hstep : 0 < step) (hwidth : 0 ≤ width)
    (hhalf : stepCount minimum maximum step - (stepCount minimum maximum step).floor ≠ 1 / 2) :
    StaysOnGrid (floatRange name minimum maximum step precision) width := by
  intro parent hparent values hvalues
  obtain ⟨j, hj, hle, rfl⟩ := (mem_domain_floatRange hexact).mp hparent
  obtain ⟨values', hvalues', hiff⟩ := mem_localDomain_floatRange hexact hstep j width
  obtain rfl := Except.ok.inj (hvalues.symm.trans hvalues')
  obtain ⟨hlast, hself⟩ : max 0 (j - width) + roundHalfEven
        (min (stepCount minimum maximum step) ((j + width : Int) : ℚ) -
          ((max 0 (j - width) : Int) : ℚ)) ≤ roundHalfEven (stepCount minimum maximum step) ∧
      j ≤ max 0 (j - width) + roundHalfEven
        (min (stepCount minimum maximum step) ((j + width : Int) : ℚ) -
          ((max 0 (j - width) : Int) : ℚ)) := by
    rcases le_or_gt ((j + width : Int) : ℚ) (stepCount minimum maximum step) with hwithin | hbeyond
    · rw [min_eq_right hwithin, ← Int.cast_sub, roundHalfEven_intCast, add_sub_cancel]
      exact ⟨(Rat.le_floor_iff.mpr hwithin).trans (floor_le_roundHalfEven _), by omega⟩
    · rw [min_eq_left hbeyond.le, roundHalfEven_sub_intCast hhalf, add_sub_cancel]
      exact ⟨le_rfl, hle⟩
  constructor
  · intro value hvalue
    obtain ⟨k, hlow, hhigh, rfl⟩ := (hiff value).mp hvalue
    exact (mem_domain_floatRange hexact).mpr ⟨k, by omega, by omega, rfl⟩
  · exact ⟨_, (hiff _).mpr ⟨j, by omega, by omega, rfl⟩, rfl⟩

end ParameterDefinition

namespace ParameterSpaceGenerator

variable {text : PyText} {generator : ParameterSpaceGenerator} {space : ParameterSpace}
  {candidates parents : List Candidate} {parent : Candidate} {width : Int}
  {params left right : Parameters} {choice choice' : String → ParameterValue}

/-- Equal parameters are settled alike. -/
theorem sameParameters_settle (conditionals : List ConditionalParameterRule)
    (h : SameParameters left right) :
    SameParameters (settle conditionals left) (settle conditionals right) := by
  induction conditionals generalizing left right with
  | nil => exact h
  | cons conditional rest ih =>
    rw [settle_cons, settle_cons]
    apply ih
    intro name
    rw [get?_step, get?_step, holds_congr h]
    split_ifs
    · rfl
    · exact h name

theorem sameParameters_outcome (h : ∀ name ∈ parameterNames space,
    (choice name).canonical = (choice' name).canonical) :
    SameParameters (outcome space choice) (outcome space choice') := by
  apply sameParameters_settle
  intro name
  rw [get?_parametersOf, get?_parametersOf]
  split_ifs with hname
  · exact congrArg some (h name hname)
  · rfl

/-- No rule raises on the grid or near a parent, every parent has every parameter, the values that
pass near one are values of their domains, and every parent has values near some parent that custom
rules let pass. -/
structure NearGrid (text : PyText) (generator : ParameterSpaceGenerator) (space : ParameterSpace)
    (parents : List Candidate) (width : Int) : Prop where
  grid : ∀ params ∈ outcomes space,
    ∃ passed, passesRules text generator space params = .ok passed
  near : ∀ parent ∈ parents, ∀ params ∈ nearOutcomes space width parent,
    ∃ passed, passesRules text generator space params = .ok passed
  complete : ∀ parent ∈ parents, ∀ name ∈ parameterNames space,
    parent.parameters.get? name ≠ none
  gridValues : ∀ parent ∈ parents, ∀ params ∈ nearOutcomes space width parent,
    accepted text generator space params = true → ∀ definition ∈ space.parameters, ∀ value,
      params.get? definition.name = some value → value ∈ definition.domain
  around : ∀ parent ∈ parents, ∃ other ∈ parents, ∃ choice : String → ParameterValue,
    (∀ name ∈ parameterNames space, choice name ∈ nearDomain space other width name ∧
      (parent.parameters.get? name).map ParameterValue.canonical =
        some (choice name).canonical) ∧
    passesCustomRules generator (outcome space choice) space.customRules = .ok true

/-- Near a parent, a value that equals one of its domain is one of its domain. -/
theorem mem_domain_of_near (hnames : (space.parameters.map (·.name)).Nodup)
    {definition : ParameterDefinition} (hdefinition : definition ∈ space.parameters)
    {value other : ParameterValue} (hvalue : value ∈ nearDomain space parent width definition.name)
    (hother : other ∈ definition.domain) (hequal : other.canonical = value.canonical) :
    value ∈ definition.domain := by
  unfold nearDomain at hvalue
  split at hvalue
  · rename_i values hvalues
    unfold parentDomain at hvalues
    rw [get?_parameterMap hnames hdefinition] at hvalues
    dsimp only at hvalues
    split at hvalues
    · cases hvalues
    · exact ParameterDefinition.mem_domain_of_canonical hvalues hvalue hother hequal
  · exact absurd hvalue List.not_mem_nil

theorem Aligned.nearGrid (hnames : (space.parameters.map (·.name)).Nodup)
    (h : Aligned text generator space parents width) :
    NearGrid text generator space parents width where
  grid := h.grid
  near := h.near
  complete := h.complete
  gridValues := by
    intro parent hparent params hnear haccepted definition hdefinition value hvalue
    obtain ⟨left, hleft, -, hsame⟩ := h.produced parent hparent params hnear haccepted
    obtain ⟨choice', hchoice', rfl⟩ := (mem_outcomes_iff hnames).mp hleft
    obtain ⟨choice, hchoice, rfl⟩ := (mem_nearOutcomes_iff hnames).mp hnear
    obtain ⟨hname, rfl⟩ := get?_outcome_eq_some hvalue
    obtain ⟨other, hother, hequal⟩ := hsame.symm.get?_eq_some hvalue
    obtain ⟨-, rfl⟩ := get?_outcome_eq_some hother
    exact mem_domain_of_near hnames hdefinition (hchoice _ hname) (hchoice' definition hdefinition)
      hequal
  around := by
    intro parent hparent
    obtain ⟨other, hother, params, hnear, haccepted, hsame⟩ := h.kept parent hparent
    obtain ⟨choice, hchoice, rfl⟩ := (mem_nearOutcomes_iff hnames).mp hnear
    refine ⟨other, hother, choice, fun name hname => ⟨hchoice name hname, ?_⟩,
      (passesRules_eq_ok_true_iff.mp (accepted_iff.mp haccepted)).2.2⟩
    obtain ⟨value, hvalue⟩ :=
      Option.ne_none_iff_exists'.mp (h.complete parent hparent name hname)
    obtain ⟨value', hvalue', hequal⟩ := hsame.symm.get?_eq_some hvalue
    obtain ⟨-, rfl⟩ := get?_outcome_eq_some hvalue'
    rw [hvalue]
    exact congrArg some hequal.symm

/-- Values of the domains that conditionals leave are on the grid. What is dropped may be off it: it
is chosen anew. -/
theorem outcome_mem_outcomes (hnames : (space.parameters.map (·.name)).Nodup)
    (hwell : WellListed space.conditionals) {base : String → ParameterValue}
    (hbase : InDomains space base)
    (hvalues : ∀ definition ∈ space.parameters, ∀ value,
      (outcome space choice).get? definition.name = some value → value ∈ definition.domain) :
    outcome space choice ∈ outcomes space := by
  let onGrid : String → ParameterValue := fun name =>
    if (outcome space choice).get? name = none then base name else choice name
  have honGrid : InDomains space onGrid := by
    intro definition hdefinition
    by_cases hdropped : (outcome space choice).get? definition.name = none
    · simp only [onGrid, if_pos hdropped]
      exact hbase definition hdefinition
    · obtain ⟨value, hvalue⟩ := Option.ne_none_iff_exists'.mp hdropped
      simp only [onGrid, if_neg hdropped]
      rw [← (get?_outcome_eq_some hvalue).2]
      exact hvalues definition hdefinition value hvalue
  have hconforms : Conforms space onGrid (outcome space choice) := by
    intro name
    have hname := conforms_outcome hwell choice name
    split_ifs at hname ⊢
    · simp only [onGrid, if_neg (hname ▸ Option.some_ne_none _ : _ ≠ none)]
      exact hname
    · exact hname
  have heq := outcome_eq_of_get? hnames (hconforms.get?_eq hwell)
  exact (mem_outcomes_iff hnames).mpr ⟨onGrid, honGrid, heq⟩

/-- Parameters that have every parameter are what values equal to theirs come to. -/
theorem sameParameters_of_complete {base : String → ParameterValue}
    (hbase : params = outcome space base)
    (hcomplete : ∀ name ∈ parameterNames space, params.get? name ≠ none)
    (hequal : ∀ name ∈ parameterNames space,
      (params.get? name).map ParameterValue.canonical = some (choice name).canonical) :
    SameParameters (outcome space choice) params := by
  rw [hbase]
  apply sameParameters_outcome
  intro name hname
  obtain ⟨value, hvalue⟩ := Option.ne_none_iff_exists'.mp (hcomplete name hname)
  have hname := hequal name hname
  rw [hvalue] at hname
  rw [hbase] at hvalue
  rw [← (get?_outcome_eq_some hvalue).2]
  exact (Option.some.inj hname).symm

theorem NearGrid.aligned (hvalid : validateParameterSpace space = .ok ())
    (hgenerate : generateExhaustive text generator space = .ok candidates)
    (hparents : ∀ parent ∈ parents, parent ∈ candidates) (hwell : WellListed space.conditionals)
    (h : NearGrid text generator space parents width) :
    Aligned text generator space parents width where
  grid := h.grid
  near := h.near
  complete := h.complete
  produced := by
    intro parent hparent params hnear haccepted
    have hnames := names_nodup_of_validate hvalid
    have hvalues := h.gridValues parent hparent params hnear haccepted
    obtain ⟨choice, hchoice, rfl⟩ := (mem_nearOutcomes_iff hnames).mp hnear
    obtain ⟨base, hbase, -⟩ := (mem_outcomes_iff hnames).mp
      (mem_generateExhaustive hvalid hgenerate (hparents parent hparent)).1
    exact ⟨_, outcome_mem_outcomes hnames hwell hbase hvalues, haccepted, .refl _⟩
  kept := by
    intro parent hparent
    have hnames := names_nodup_of_validate hvalid
    obtain ⟨hparams, hpasses⟩ := mem_generateExhaustive hvalid hgenerate (hparents parent hparent)
    obtain ⟨base, -, hbase⟩ := (mem_outcomes_iff hnames).mp hparams
    obtain ⟨other, hother, choice, hchoice, hcustom⟩ := h.around parent hparent
    have hsame : SameParameters (outcome space choice) parent.parameters :=
      sameParameters_of_complete hbase (h.complete parent hparent) fun name hname =>
        (hchoice name hname).2
    obtain ⟨hdependencies, hforbidden, -⟩ :=
      passesRules_eq_ok_true_iff.mp (accepted_iff.mp hpasses)
    refine ⟨other, hother, _, (mem_nearOutcomes_iff hnames).mpr
      ⟨choice, fun name hname => (hchoice name hname).1, rfl⟩, ?_, hsame⟩
    rw [accepted_iff, passesRules_eq_ok_true_iff, passesDependencies_congr hsame,
      forbiddenReason_congr hsame]
    exact ⟨hdependencies, hforbidden, hcustom⟩

/-- Near a complete parent of the grid, a parameter that stays on its grid has values of its domain
only, one of them equal to the value that the parent has. -/
theorem nearDomain_of_staysOnGrid (hnames : (space.parameters.map (·.name)).Nodup)
    (hparent : parent.parameters ∈ outcomes space)
    (hcomplete : ∀ name ∈ parameterNames space, parent.parameters.get? name ≠ none)
    {definition : ParameterDefinition} (hdefinition : definition ∈ space.parameters)
    (hstays : definition.StaysOnGrid width) : ∃ value,
      parent.parameters.get? definition.name = some value ∧
        (∀ other ∈ nearDomain space parent width definition.name, other ∈ definition.domain) ∧
        ∃ other ∈ nearDomain space parent width definition.name,
          other.canonical = value.canonical := by
  have hname := mem_parameterNames.mpr (List.mem_map_of_mem hdefinition)
  obtain ⟨value, hvalue⟩ := Option.ne_none_iff_exists'.mp (hcomplete _ hname)
  obtain ⟨choice, hchoice, hparams⟩ := (mem_outcomes_iff hnames).mp hparent
  have hmem : value ∈ definition.domain := by
    rw [hparams] at hvalue
    rw [(get?_outcome_eq_some hvalue).2]
    exact hchoice definition hdefinition
  obtain ⟨values, hvalues⟩ := exists_localDomain hmem width
  have hdomain : nearDomain space parent width definition.name = values := by
    rw [nearDomain, parentDomain_eq hnames hdefinition hvalue, hvalues]
  rw [hdomain]
  exact ⟨value, hvalue, hstays value hmem values hvalues⟩

/-- Without custom rules, complete parents of a space whose parameters stay on their grids are near
the grid. -/
theorem nearGrid_of_staysOnGrid (hvalid : validateParameterSpace space = .ok ())
    (hgenerate : generateExhaustive text generator space = .ok candidates)
    (hparents : ∀ parent ∈ parents, parent ∈ candidates)
    (hcustom : generator.customRuleEvaluator = none)
    (hgrid : ∀ params ∈ outcomes space,
      ∃ passed, passesRules text generator space params = .ok passed)
    (hcomplete : ∀ parent ∈ parents, ∀ name ∈ parameterNames space,
      parent.parameters.get? name ≠ none)
    (hstays : ∀ definition ∈ space.parameters, definition.StaysOnGrid width) :
    NearGrid text generator space parents width := by
  have hnames := names_nodup_of_validate hvalid
  have hnear : ∀ parent ∈ parents, ∀ definition ∈ space.parameters, ∃ value,
      parent.parameters.get? definition.name = some value ∧
        (∀ other ∈ nearDomain space parent width definition.name, other ∈ definition.domain) ∧
        ∃ other ∈ nearDomain space parent width definition.name,
          other.canonical = value.canonical := fun parent hparent definition hdefinition =>
    nearDomain_of_staysOnGrid hnames
      (mem_generateExhaustive hvalid hgenerate (hparents parent hparent)).1
      (hcomplete parent hparent) hdefinition (hstays definition hdefinition)
  have houtcomes : ∀ parent ∈ parents, ∀ params ∈ nearOutcomes space width parent,
      ∃ choice, InDomains space choice ∧ params = outcome space choice := by
    intro parent hparent params hparams
    obtain ⟨choice, hchoice, rfl⟩ := (mem_nearOutcomes_iff hnames).mp hparams
    refine ⟨choice, fun definition hdefinition => ?_, rfl⟩
    obtain ⟨-, -, hsubset, -⟩ := hnear parent hparent definition hdefinition
    exact hsubset _ (hchoice _ (mem_parameterNames.mpr (List.mem_map_of_mem hdefinition)))
  refine ⟨hgrid, ?_, hcomplete, ?_, ?_⟩
  · intro parent hparent params hparams
    exact hgrid params ((mem_outcomes_iff hnames).mpr (houtcomes parent hparent params hparams))
  · intro parent hparent params hparams _ definition hdefinition value hvalue
    obtain ⟨choice, hchoice, rfl⟩ := houtcomes parent hparent params hparams
    rw [(get?_outcome_eq_some hvalue).2]
    exact hchoice definition hdefinition
  · intro parent hparent
    have hexists : ∀ name, ∃ value, name ∈ parameterNames space →
        value ∈ nearDomain space parent width name ∧
          (parent.parameters.get? name).map ParameterValue.canonical =
            some value.canonical := by
      intro name
      by_cases hname : name ∈ parameterNames space
      · obtain ⟨definition, hdefinition, rfl⟩ := List.mem_map.mp (mem_parameterNames.mp hname)
        obtain ⟨value, hvalue, -, other, hother, hequal⟩ :=
          hnear parent hparent definition hdefinition
        refine ⟨other, fun _ => ⟨hother, ?_⟩⟩
        rw [hvalue]
        exact congrArg some hequal.symm
      · exact ⟨default, fun hmem => absurd hmem hname⟩
    choose choice hchoice using hexists
    refine ⟨parent, hparent, choice, fun name hname => hchoice name hname, ?_⟩
    cases space.customRules with
    | nil => rfl
    | cons rule rest => rw [passesCustomRules, hcustom]

/-- At a limit that does not slice, refinement of any parents raises. -/
theorem not_refines_of_not_slices (hwidth : 0 ≤ width) (hne : parents ≠ []) {limit : Option Int}
    (hlimit : ¬ Slices limit) : ¬ Refines text generator space parents width limit := by
  rintro ⟨sliced, hsliced, -⟩
  rw [coarseToFine_eq hne hwidth] at hsliced
  obtain ⟨refined, -, hsliced⟩ := except_bind_eq_ok.mp hsliced
  exact not_islice hlimit _ _ hsliced

/-- Refinement of generated parents, at every limit that slices, returns different parameters of the
grid with the parents among them exactly where there are no parents or they are aligned with the
grid; for well-listed conditionals that is where they are near its values. At any other limit it
raises. -/
theorem coarseToFine_refines_iff (text : PyText) (generator : ParameterSpaceGenerator)
    (space : ParameterSpace) (candidates parents : List Candidate) (width : Int)
    (hvalid : validateParameterSpace space = .ok ())
    (hgenerate : generateExhaustive text generator space = .ok candidates)
    (hparents : ∀ parent ∈ parents, parent ∈ candidates) (hwidth : 0 ≤ width) :
    ((∀ limit, Slices limit → Refines text generator space parents width limit) ↔
        parents = [] ∨ Aligned text generator space parents width) ∧
      (WellListed space.conditionals →
        ((∀ limit, Slices limit → Refines text generator space parents width limit) ↔
          parents = [] ∨ NearGrid text generator space parents width)) ∧
      ∀ limit, ¬ Slices limit → parents ≠ [] →
        ¬ Refines text generator space parents width limit := by
  refine ⟨refines_iff_aligned hvalid hgenerate hparents hwidth, fun hwell => ?_,
    fun limit hlimit hne => not_refines_of_not_slices hwidth hne hlimit⟩
  rw [refines_iff_aligned hvalid hgenerate hparents hwidth]
  exact or_congr_right ⟨fun h => h.nearGrid (names_nodup_of_validate hvalid),
    fun h => h.aligned hvalid hgenerate hparents hwell⟩

theorem coarseToFine_refines_iff_flag :
    ∃ candidates,
      generateExhaustive plainText {} { parameters := [.boolean "flag"] } = .ok candidates ∧
        Refines plainText {} { parameters := [.boolean "flag"] } candidates 1 none := by
  obtain ⟨candidates, hgenerate, hflags⟩ : ∃ candidates,
      generateExhaustive plainText {} { parameters := [.boolean "flag"] } = .ok candidates ∧
        candidates.map (fun candidate => candidate.parameters.get? "flag") =
          [some (.bool false), some (.bool true)] := ⟨_, rfl, rfl⟩
  refine ⟨candidates, hgenerate, ?_⟩
  have hiff := coarseToFine_refines_iff plainText {} { parameters := [.boolean "flag"] }
    candidates candidates 1 rfl hgenerate (fun _ hmem => hmem) (by decide)
  refine (hiff.2.1 ⟨List.Pairwise.nil, fun _ hmem => absurd hmem List.not_mem_nil⟩).mpr (.inr ?_)
    none fun _ hstop => by cases hstop
  refine nearGrid_of_staysOnGrid rfl hgenerate (fun _ hmem => hmem) rfl ?_ ?_ ?_
  · exact fun params _ => ⟨true, rfl⟩
  · intro parent hparent name hname hnone
    obtain rfl := List.mem_singleton.mp (mem_parameterNames.mp hname)
    have hflag : parent.parameters.get? "flag" = none := hnone
    have hmem := List.mem_map_of_mem (f := fun candidate : Candidate =>
      candidate.parameters.get? "flag") hparent
    rw [hflags, hflag] at hmem
    simp at hmem
  · intro definition hdefinition parent hparent values hvalues
    obtain rfl := List.mem_singleton.mp hdefinition
    cases hvalues
    exact ⟨fun _ hvalue => hvalue, parent, hparent, rfl⟩

/-- A generated candidate without the flag has no mode to refine around. -/
theorem coarseToFine_raises_without_mode :
    ¬ ∀ (text : PyText) (generator : ParameterSpaceGenerator) (space : ParameterSpace)
        (candidates parents : List Candidate) (width : Int),
        validateParameterSpace space = .ok () →
        generateExhaustive text generator space = .ok candidates →
        (∀ parent ∈ parents, parent ∈ candidates) → 0 ≤ width →
        ∀ limit, Slices limit → Refines text generator space parents width limit := by
  intro h
  obtain ⟨first, rest, hgenerate, hraises⟩ : ∃ first rest,
      generateExhaustive plainText {} flaggedSpace = .ok (first :: rest) ∧
        coarseToFine plainText {} flaggedSpace [first] 1 none = .error (keyError "mode") :=
    ⟨_, _, rfl, rfl⟩
  obtain ⟨refined, hrefined, -⟩ := h plainText {} flaggedSpace _ [first] 1 rfl hgenerate
    (fun parent hmem => List.mem_singleton.mp hmem ▸ List.mem_cons_self) (by decide) none
    fun _ hstop => by cases hstop
  rw [hraises] at hrefined
  cases hrefined

end ParameterSpaceGenerator
end OptionResearch
