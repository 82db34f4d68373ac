import Mathlib.Data.List.Flatten
import OptionResearch.ParameterEquality
import OptionResearch.ParameterGrid

/-!
# Exhaustive generation with conditional parameters

A conditional parameter is dropped from a combination where what it depends on is missing or has
another value than the allowed ones. The conditionals are gone through once, in the order in which
they are listed: where none drops a parameter that it or an earlier one looks at, what is left is
what the conditionals say. Combinations that differ in dropped parameters only leave the same
parameters, and each of them becomes a candidate.
-/

namespace OptionResearch

/-! ### Two positions of a product -/

section Product

variable {κ α : Type} [DecidableEq κ] [Inhabited α] {domainOf : κ → List α} {keys : List κ}

/-- Two values of one domain give two combinations, in the order of the values. -/
theorem update_sublist_product {choice : κ → α} {key : κ} {x y : α} (hkeys : keys.Nodup)
    (hkey : key ∈ keys) (hxy : [x, y].Sublist (domainOf key))
    (hchoice : ∀ other ∈ keys, choice other ∈ domainOf other) :
    [keys.map (Function.update choice key x), keys.map (Function.update choice key y)].Sublist
      (product (keys.map domainOf)) := by
  induction keys with
  | nil => exact absurd hkey List.not_mem_nil
  | cons first rest ih =>
    obtain ⟨hfirst, hrest⟩ := List.nodup_cons.mp hkeys
    have hothers : ∀ other ∈ rest, choice other ∈ domainOf other :=
      fun other hother => hchoice other (List.mem_cons_of_mem _ hother)
    simp only [List.map_cons, product]
    rcases List.mem_cons.mp hkey with rfl | hkey
    · have hsame : ∀ value, rest.map (Function.update choice key value) = rest.map choice := by
        intro value
        apply List.map_congr_left
        intro other hother
        exact Function.update_of_ne (fun heq : other = key => hfirst (heq ▸ hother)) value choice
      have hmem : rest.map choice ∈ product (rest.map domainOf) :=
        (mem_product_map_iff hrest).mpr ⟨choice, rfl, hothers⟩
      have hone : ∀ value, [value :: rest.map choice].Sublist
          ((product (rest.map domainOf)).map (value :: ·)) :=
        fun value => List.singleton_sublist.mpr (List.mem_map_of_mem hmem)
      rw [hsame, hsame, Function.update_self, Function.update_self]
      have htwo := (hone x).append (hone y)
      refine htwo.trans ?_
      have hflat := hxy.flatMap fun value => (product (rest.map domainOf)).map (value :: ·)
      simpa using hflat
    · have hne : first ≠ key := fun heq => hfirst (heq ▸ hkey)
      rw [Function.update_of_ne hne, Function.update_of_ne hne]
      have hrestTwo := (ih hrest hkey hothers).map (choice first :: ·)
      refine hrestTwo.trans ?_
      rw [List.flatMap_def]
      exact List.sublist_flatten_of_mem
        (List.mem_map_of_mem (hchoice first List.mem_cons_self))

omit [DecidableEq κ] [Inhabited α] in
/-- Of two combinations, the later one has a later value of some domain. -/
theorem pairwise_product : (product (keys.map domainOf)).Pairwise fun combo combo' =>
    ∀ choice choice' : κ → α, combo = keys.map choice → combo' = keys.map choice' →
      ∃ key ∈ keys, [choice key, choice' key].Sublist (domainOf key) := by
  induction keys with
  | nil => exact List.pairwise_singleton _ _
  | cons first rest ih =>
    rw [List.map_cons, product, List.pairwise_flatMap]
    constructor
    · intro value _
      rw [List.pairwise_map]
      refine ih.imp fun {combo combo'} h choice choice' hcombo hcombo' => ?_
      rw [List.map_cons, List.cons.injEq] at hcombo hcombo'
      obtain ⟨key, hkey, hsub⟩ := h choice choice' hcombo.2 hcombo'.2
      exact ⟨key, List.mem_cons_of_mem _ hkey, hsub⟩
    · rw [List.pairwise_iff_forall_sublist]
      intro x y hxy combo hcombo combo' hcombo' choice choice' heq heq'
      obtain ⟨tail, -, rfl⟩ := List.mem_map.mp hcombo
      obtain ⟨tail', -, rfl⟩ := List.mem_map.mp hcombo'
      rw [List.map_cons, List.cons.injEq] at heq heq'
      refine ⟨first, List.mem_cons_self, ?_⟩
      rwa [← heq.1, ← heq'.1]

end Product

namespace ParameterSpaceGenerator

variable {text : PyText} {generator : ParameterSpaceGenerator} {space : ParameterSpace}
  {candidates : List Candidate} {params : Parameters} {choice : String → ParameterValue}

/-! ### What the conditionals say -/

/-- One value of its domain for every parameter. -/
def InDomains (space : ParameterSpace) (choice : String → ParameterValue) : Prop :=
  ∀ definition ∈ space.parameters, choice definition.name ∈ definition.domain

/-- The parameters of a choice, a conditional one exactly where its conditionals hold. -/
def Conforms (space : ParameterSpace) (choice : String → ParameterValue) (params : Parameters) :
    Prop :=
  ∀ name, params.get? name =
    if name ∈ space.parameters.map (·.name) ∧
        ∀ conditional ∈ space.conditionals, conditional.parameter = name →
          Holds conditional params = true
    then some (choice name) else none

/-- The parameters of some choice that satisfy every dependency and no forbidden combination. -/
structure Admitted (text : PyText) (space : ParameterSpace) (params : Parameters) : Prop where
  conforms : ∃ choice, InDomains space choice ∧ Conforms space choice params
  dependencies : passesDependencies text params space.dependencies = .ok true
  forbidden : forbiddenReason space.forbiddenCombinations params = none

/-- No conditional drops a parameter that it or an earlier one depends on. -/
def WellListed (conditionals : List ConditionalParameterRule) : Prop :=
  conditionals.Pairwise (fun earlier later => later.parameter ≠ earlier.dependsOn) ∧
    ∀ conditional ∈ conditionals, conditional.parameter ≠ conditional.dependsOn

/-- What the conditionals leave of a choice. -/
def outcome (space : ParameterSpace) (choice : String → ParameterValue) : Parameters :=
  applyConditionals space (parametersOf (parameterNames space) ((parameterNames space).map choice))

/-! ### One conditional after the other -/

/-- `_apply_conditionals`, for the conditionals that are left. -/
def settle (conditionals : List ConditionalParameterRule) (params : Parameters) : Parameters :=
  conditionals.foldl (fun filtered conditional =>
    if Holds conditional filtered then filtered else filtered.pop conditional.parameter) params

theorem applyConditionals_eq_settle :
    applyConditionals space params = settle space.conditionals params := rfl

theorem settle_cons (conditional : ConditionalParameterRule)
    (rest : List ConditionalParameterRule) :
    settle (conditional :: rest) params =
      settle rest (if Holds conditional params then params
        else params.pop conditional.parameter) := rfl

theorem wellListed_cons {conditional : ConditionalParameterRule}
    {rest : List ConditionalParameterRule} :
    WellListed (conditional :: rest) ↔
      (∀ later ∈ conditional :: rest, later.parameter ≠ conditional.dependsOn) ∧
        WellListed rest := by
  unfold WellListed
  rw [List.pairwise_cons]
  simp only [List.forall_mem_cons]
  tauto

/-- One step drops the conditional's parameter or nothing. -/
theorem get?_step (conditional : ConditionalParameterRule) (name : String) :
    (if Holds conditional params then params else params.pop conditional.parameter).get? name =
      if conditional.parameter = name ∧ Holds conditional params = false then none
      else params.get? name := by
  by_cases hholds : Holds conditional params = true
  · rw [if_pos hholds, if_neg fun h => by simp [hholds] at h]
  · rw [if_neg hholds, InsertionDict.get?_pop]
    have hfalse : Holds conditional params = false := by simpa using hholds
    by_cases hname : name = conditional.parameter
    · rw [if_pos hname, if_pos ⟨hname.symm, hfalse⟩]
    · rw [if_neg hname, if_neg fun h => hname h.1.symm]

/-- A name that no conditional can drop keeps its value. -/
theorem get?_settle_of_not_parameter {conditionals : List ConditionalParameterRule} {name : String}
    (h : ∀ conditional ∈ conditionals, conditional.parameter ≠ name) :
    (settle conditionals params).get? name = params.get? name := by
  induction conditionals generalizing params with
  | nil => rfl
  | cons conditional rest ih =>
    rw [settle_cons, ih fun later hlater => h later (List.mem_cons_of_mem _ hlater), get?_step,
      if_neg fun hdropped => h conditional List.mem_cons_self hdropped.1]

theorem holds_of_get? {conditional : ConditionalParameterRule} {others : Parameters}
    (h : params.get? conditional.dependsOn = others.get? conditional.dependsOn) :
    Holds conditional params = Holds conditional others := by
  unfold Holds
  rw [h]

theorem ite_dropped {α : Type} {named others : Prop} [Decidable named] [Decidable others]
    {holds : Bool} {value : Option α} :
    (if others then if named ∧ holds = false then none else value else none) =
      if (named → holds = true) ∧ others then value else none := by
  cases holds <;> by_cases hnamed : named <;> simp [hnamed]

/-- Well-listed conditionals leave a name exactly where its conditionals hold of what is left. -/
theorem get?_settle {conditionals : List ConditionalParameterRule} (h : WellListed conditionals)
    (name : String) :
    (settle conditionals params).get? name =
      if ∀ conditional ∈ conditionals, conditional.parameter = name →
          Holds conditional (settle conditionals params) = true
      then params.get? name else none := by
  induction conditionals generalizing params with
  | nil => rw [if_pos fun _ hmem => absurd hmem List.not_mem_nil]; rfl
  | cons conditional rest ih =>
    obtain ⟨hfirst, hrest⟩ := wellListed_cons.mp h
    have hdependsOn : (settle (conditional :: rest) params).get? conditional.dependsOn =
        params.get? conditional.dependsOn := get?_settle_of_not_parameter hfirst
    have hholds := holds_of_get? hdependsOn
    rw [settle_cons] at hholds ⊢
    rw [ih hrest, get?_step]
    simp only [List.forall_mem_cons, hholds]
    exact ite_dropped

/-- Nothing else is left where a name is left exactly where its conditionals hold. -/
theorem get?_eq_settle {conditionals : List ConditionalParameterRule} (h : WellListed conditionals)
    {left : Parameters}
    (hleft : ∀ name, left.get? name =
      if ∀ conditional ∈ conditionals, conditional.parameter = name →
          Holds conditional left = true
      then params.get? name else none) (name : String) :
    left.get? name = (settle conditionals params).get? name := by
  induction conditionals generalizing params with
  | nil =>
    rw [hleft, if_pos fun _ hmem => absurd hmem List.not_mem_nil]
    rfl
  | cons conditional rest ih =>
    obtain ⟨hfirst, hrest⟩ := wellListed_cons.mp h
    have hdependsOn : left.get? conditional.dependsOn = params.get? conditional.dependsOn := by
      rw [hleft, if_pos fun later hlater heq => absurd heq (hfirst later hlater)]
    have hholds := holds_of_get? hdependsOn
    rw [settle_cons]
    apply ih hrest
    intro name
    rw [hleft, get?_step]
    simp only [List.forall_mem_cons, hholds]
    exact ite_dropped.symm

theorem conforms_outcome (hwell : WellListed space.conditionals)
    (choice : String → ParameterValue) : Conforms space choice (outcome space choice) := by
  intro name
  rw [outcome, applyConditionals_eq_settle, get?_settle hwell, get?_parametersOf]
  split_ifs with hall hname hboth hboth
  · rfl
  · exact absurd ⟨mem_parameterNames.mp hname, hall⟩ hboth
  · exact absurd (mem_parameterNames.mpr hboth.1) hname
  · rfl
  · rename_i hboth
    exact absurd hboth.2 hall
  · rfl

/-- A choice has one outcome only that conforms. -/
theorem Conforms.get?_eq (h : Conforms space choice params)
    (hwell : WellListed space.conditionals) (name : String) :
    params.get? name = (outcome space choice).get? name := by
  rw [outcome, applyConditionals_eq_settle]
  apply get?_eq_settle hwell
  intro name
  rw [h name, get?_parametersOf]
  split_ifs with hboth hall hname hall hname
  · rfl
  · exact absurd (mem_parameterNames.mpr hboth.1) hname
  · exact absurd hboth.2 hall
  · exact absurd ⟨mem_parameterNames.mp hname, hall⟩ hboth
  · rfl
  · rfl

/-- A name that is left has kept its value. -/
theorem get?_settle_cases (conditionals : List ConditionalParameterRule) (params : Parameters)
    (name : String) :
    (settle conditionals params).get? name = none ∨
      (settle conditionals params).get? name = params.get? name := by
  induction conditionals generalizing params with
  | nil => exact .inr rfl
  | cons conditional rest ih =>
    rw [settle_cons]
    rcases ih (if Holds conditional params then params else params.pop conditional.parameter)
      with hnone | hsame
    · exact .inl hnone
    · rw [hsame, get?_step]
      split_ifs
      · exact .inl rfl
      · exact .inr rfl

/-- Whatever is dropped has a conditional that does not hold of what is left, in any listing. -/
theorem exists_not_holds_of_dropped {conditionals : List ConditionalParameterRule} {name : String}
    {value : ParameterValue} (hvalue : params.get? name = some value)
    (h : (settle conditionals params).get? name = none) :
    ∃ conditional ∈ conditionals, conditional.parameter = name ∧
      Holds conditional (settle conditionals params) = false := by
  induction conditionals generalizing params with
  | nil =>
    have hnone : params.get? name = none := h
    rw [hvalue] at hnone
    cases hnone
  | cons conditional rest ih =>
    have hstep : (if Holds conditional params then params
        else params.pop conditional.parameter).get? name = _ := get?_step conditional name
    rw [settle_cons] at h ⊢
    by_cases hdropped : conditional.parameter = name ∧ Holds conditional params = false
    · refine ⟨conditional, List.mem_cons_self, hdropped.1, ?_⟩
      rcases get?_settle_cases (conditional :: rest) params conditional.dependsOn
        with hlost | hsame
      · rw [settle_cons] at hlost
        rw [Holds, hlost, Option.any_none]
      · rw [settle_cons] at hsame
        rw [holds_of_get? hsame, hdropped.2]
    · rw [if_neg hdropped, hvalue] at hstep
      obtain ⟨later, hlater, hname, hholds⟩ := ih hstep h
      exact ⟨later, List.mem_cons_of_mem _ hlater, hname, hholds⟩

theorem Conforms.holds (h : Conforms space choice params) :
    ∀ conditional ∈ space.conditionals, params.get? conditional.parameter ≠ none →
      Holds conditional params = true := by
  intro conditional hmem hleft
  have hname := h conditional.parameter
  by_contra hnot
  rw [if_neg fun hboth => hnot (hboth.2 conditional hmem rfl)] at hname
  exact hleft hname

/-- In any listing, an outcome conforms exactly where what is left has its conditionals hold. -/
theorem conforms_outcome_iff :
    Conforms space choice (outcome space choice) ↔
      ∀ conditional ∈ space.conditionals,
        (outcome space choice).get? conditional.parameter ≠ none →
          Holds conditional (outcome space choice) = true := by
  refine ⟨Conforms.holds, fun h name => ?_⟩
  cases hleft : (outcome space choice).get? name with
  | none =>
    rw [if_neg]
    rintro ⟨hname, hall⟩
    have hvalue : (parametersOf (parameterNames space)
        ((parameterNames space).map choice)).get? name = _ := get?_parametersOf name
    rw [if_pos (mem_parameterNames.mpr hname)] at hvalue
    obtain ⟨conditional, hmem, hparameter, hfalse⟩ := exists_not_holds_of_dropped hvalue hleft
    have htrue := hall conditional hmem hparameter
    rw [outcome, applyConditionals_eq_settle, hfalse] at htrue
    exact Bool.false_ne_true htrue
  | some value =>
    have hkept := get?_settle_cases space.conditionals
      (parametersOf (parameterNames space) ((parameterNames space).map choice)) name
    rw [← applyConditionals_eq_settle, ← outcome, hleft, get?_parametersOf] at hkept
    have hsome := hkept.resolve_left (Option.some_ne_none value)
    split_ifs at hsome with hname
    rw [hsome, if_pos]
    refine ⟨mem_parameterNames.mp hname, fun conditional hmem hparameter => ?_⟩
    apply h conditional hmem
    rw [hparameter, hleft]
    exact Option.some_ne_none value

/-! ### The combinations that pass -/

/-- What is left of every combination. -/
def outcomes (space : ParameterSpace) : List Parameters :=
  (product ((parameterNames space).map (domainOf space))).map fun combo =>
    applyConditionals space (parametersOf (parameterNames space) combo)

/-- Parameters pass where dependencies, forbidden combinations and custom rules let them. -/
theorem passesRules_eq_ok_true_iff :
    passesRules text generator space params = .ok true ↔
      passesDependencies text params space.dependencies = .ok true ∧
        forbiddenReason space.forbiddenCombinations params = none ∧
          passesCustomRules generator params space.customRules = .ok true := by
  unfold passesRules
  rw [except_bind_eq_ok]
  constructor
  · rintro ⟨passed, hdependencies, h⟩
    cases passed with
    | false => cases h
    | true =>
      rw [if_pos rfl] at h
      split_ifs at h with hforbidden
      · cases h
      · exact ⟨hdependencies, by simpa using hforbidden, h⟩
  · rintro ⟨hdependencies, hforbidden, hcustom⟩
    exact ⟨true, hdependencies, by rw [if_pos rfl, hforbidden]; exact hcustom⟩

/-- No rule raises where the dependencies do not and the custom rules pass what these and the
forbidden combinations leave. -/
theorem exists_passesRules {passed : Bool}
    (hdependencies : passesDependencies text params space.dependencies = .ok passed)
    (hcustom : passed = true → forbiddenReason space.forbiddenCombinations params = none →
      passesCustomRules generator params space.customRules = .ok true) :
    ∃ passed, passesRules text generator space params = .ok passed := by
  unfold passesRules
  rw [hdependencies]
  dsimp only [bind, Except.bind]
  cases passed with
  | false => exact ⟨false, rfl⟩
  | true =>
    rw [if_pos rfl]
    cases hforbidden : forbiddenReason space.forbiddenCombinations params with
    | some reason => exact ⟨false, rfl⟩
    | none => exact ⟨true, hcustom rfl hforbidden⟩

theorem exists_generateFrom_iff (hmax : space.maxCandidates = none) {keys : List String}
    {index : Nat} {combos : List (List ParameterValue)} {generated : List Candidate} :
    (∃ candidates, generateFrom text generator space keys index combos generated = .ok candidates) ↔
      ∀ combo ∈ combos, ∃ passed, passesRules text generator space
        (applyConditionals space (parametersOf keys combo)) = .ok passed := by
  induction combos generalizing index generated with
  | nil => exact ⟨fun _ _ hmem => absurd hmem List.not_mem_nil, fun _ => ⟨generated, rfl⟩⟩
  | cons combo rest ih =>
    rw [List.forall_mem_cons, generateFrom, hmax]
    cases hrules : passesRules text generator space
        (applyConditionals space (parametersOf keys combo)) with
    | error e => simp [bind, Except.bind]
    | ok passed =>
      cases passed with
      | false =>
        rw [except_ok_bind, if_neg Bool.false_ne_true, ih]
        simp
      | true =>
        rw [except_ok_bind, if_pos rfl]
        dsimp only
        rw [Option.any_none, if_neg Bool.false_ne_true, ih]
        simp

theorem nodup_parameterNames (hnames : (space.parameters.map (·.name)).Nodup) :
    (parameterNames space).Nodup := StableSort.sortBy_perm.nodup_iff.mpr hnames

theorem exists_domains (hnames : (space.parameters.map (·.name)).Nodup) :
    (parameterNames space).mapM (domainForParam space) =
      .ok ((parameterNames space).map (domainOf space)) := by
  apply mapM_eq_ok_map
  intro name hname
  obtain ⟨definition, hdefinition, rfl⟩ := List.mem_map.mp (mem_parameterNames.mp hname)
  rw [domainForParam, domainOf_name hnames hdefinition, find?_name hnames hdefinition]

/-- The combinations are the choices from the domains. -/
theorem mem_combinations_iff (hnames : (space.parameters.map (·.name)).Nodup)
    {combo : List ParameterValue} :
    combo ∈ product ((parameterNames space).map (domainOf space)) ↔
      ∃ choice, combo = (parameterNames space).map choice ∧ InDomains space choice := by
  rw [mem_product_map_iff (nodup_parameterNames hnames)]
  refine exists_congr fun choice => and_congr_right fun _ => ?_
  constructor
  · intro h definition hdefinition
    rw [← domainOf_name hnames hdefinition]
    exact h _ (mem_parameterNames.mpr (List.mem_map_of_mem hdefinition))
  · intro h name hname
    obtain ⟨definition, hdefinition, rfl⟩ := List.mem_map.mp (mem_parameterNames.mp hname)
    rw [domainOf_name hnames hdefinition]
    exact h definition hdefinition

theorem mem_outcomes_iff (hnames : (space.parameters.map (·.name)).Nodup) :
    params ∈ outcomes space ↔ ∃ choice, InDomains space choice ∧ params = outcome space choice := by
  unfold outcomes
  rw [List.mem_map]
  constructor
  · rintro ⟨combo, hcombo, rfl⟩
    obtain ⟨choice, rfl, hchoice⟩ := (mem_combinations_iff hnames).mp hcombo
    exact ⟨choice, hchoice, rfl⟩
  · rintro ⟨choice, hchoice, rfl⟩
    exact ⟨_, (mem_combinations_iff hnames).mpr ⟨choice, rfl, hchoice⟩, rfl⟩

theorem generateExhaustive_eq (hvalid : validateParameterSpace space = .ok ()) :
    generateExhaustive text generator space =
      generateFrom text generator space (parameterNames space) 1
        (product ((parameterNames space).map (domainOf space))) [] := by
  unfold generateExhaustive
  rw [hvalid, except_ok_bind]
  dsimp only
  rw [exists_domains (names_nodup_of_validate hvalid), except_ok_bind]

/-- A space is generated exactly where no rule raises on what is left of a combination. -/
theorem exists_generateExhaustive_iff (hvalid : validateParameterSpace space = .ok ())
    (hmax : space.maxCandidates = none) :
    (∃ candidates, generateExhaustive text generator space = .ok candidates) ↔
      ∀ params ∈ outcomes space,
        ∃ passed, passesRules text generator space params = .ok passed := by
  rw [generateExhaustive_eq hvalid, exists_generateFrom_iff hmax, outcomes, List.forall_mem_map]

/-- The candidates are what is left of the combinations that pass. -/
theorem map_parameters_generateExhaustive (hvalid : validateParameterSpace space = .ok ())
    (hmax : space.maxCandidates = none)
    (h : generateExhaustive text generator space = .ok candidates) :
    candidates.map (·.parameters) =
      (outcomes space).filter (accepted text generator space) := by
  rw [generateExhaustive_eq hvalid] at h
  exact map_parameters_generateFrom hmax h

/-! ### The order of the names -/

theorem entries_parametersOf {keys : List String} (hkeys : keys.Nodup)
    (choice : String → ParameterValue) :
    (parametersOf keys (keys.map choice)).entries.map Prod.fst = keys := by
  have hzip : (keys.zip (keys.map choice)).map Prod.fst = keys :=
    List.map_fst_zip (by rw [List.length_map])
  have hofEntries : (parametersOf keys (keys.map choice)).entries = keys.zip (keys.map choice) :=
    InsertionDict.entries_ofEntries (by rw [hzip]; exact hkeys)
  rw [hofEntries, hzip]

theorem keys_settle_sublist (conditionals : List ConditionalParameterRule) (params : Parameters) :
    ((settle conditionals params).entries.map Prod.fst).Sublist (params.entries.map Prod.fst) := by
  induction conditionals generalizing params with
  | nil => exact List.Sublist.refl _
  | cons conditional rest ih =>
    rw [settle_cons]
    refine (ih _).trans ?_
    split_ifs
    · exact List.Sublist.refl _
    · exact List.filter_sublist.map Prod.fst

/-- What is left has its names in one order, so that its values decide it. -/
theorem outcome_eq_of_get? (hnames : (space.parameters.map (·.name)).Nodup)
    {choice' : String → ParameterValue}
    (h : ∀ name, (outcome space choice).get? name = (outcome space choice').get? name) :
    outcome space choice = outcome space choice' := by
  have hkeys := nodup_parameterNames hnames
  have hentries : ∀ choice, (outcome space choice).entries =
      (parameterNames space).filterMap fun key =>
        ((outcome space choice).get? key).map (key, ·) := by
    intro choice
    apply Entries.eq_filterMap_lookup hkeys
    have hsub := keys_settle_sublist space.conditionals
      (parametersOf (parameterNames space) ((parameterNames space).map choice))
    rwa [entries_parametersOf hkeys] at hsub
  have hsame : (outcome space choice).entries = (outcome space choice').entries := by
    rw [hentries, hentries]
    simp only [h]
  cases hleft : outcome space choice
  cases hright : outcome space choice'
  rw [hleft, hright] at hsame
  cases hsame
  rfl

end ParameterSpaceGenerator
end OptionResearch
