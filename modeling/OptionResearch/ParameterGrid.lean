import OptionResearch.ParameterSpaces

/-!
# The grid of a parameter space

Where no rule and no limit takes anything out, the generated candidates are the whole grid: every
choice of one value from each parameter's domain, and nothing else.
-/

namespace OptionResearch

/-- The combinations of some domains are the choices of a value from each. -/
theorem mem_product_map_iff {κ α : Type} [DecidableEq κ] [Inhabited α] {domainOf : κ → List α}
    {keys : List κ} (hkeys : keys.Nodup) {combo : List α} :
    combo ∈ product (keys.map domainOf) ↔
      ∃ choice : κ → α, combo = keys.map choice ∧ ∀ key ∈ keys, choice key ∈ domainOf key := by
  induction keys generalizing combo with
  | nil =>
    rw [List.map_nil, product, List.mem_singleton]
    constructor
    · rintro rfl
      exact ⟨fun _ => default, rfl, fun _ h => absurd h List.not_mem_nil⟩
    · rintro ⟨_, rfl, _⟩
      rfl
  | cons key rest ih =>
    obtain ⟨hkey, hrest⟩ := List.nodup_cons.mp hkeys
    rw [List.map_cons, product, List.mem_flatMap]
    constructor
    · rintro ⟨value, hvalue, hcombo⟩
      obtain ⟨others, hothers, rfl⟩ := List.mem_map.mp hcombo
      obtain ⟨choice, rfl, hchoice⟩ := (ih hrest).mp hothers
      have hupdate : ∀ other ∈ rest, Function.update choice key value other = choice other := by
        intro other hother
        exact Function.update_of_ne (fun heq : other = key => hkey (heq ▸ hother)) value choice
      refine ⟨Function.update choice key value, ?_, ?_⟩
      · rw [List.map_cons, Function.update_self, List.map_congr_left hupdate]
      · intro other hother
        rcases List.mem_cons.mp hother with rfl | hother
        · rw [Function.update_self]
          exact hvalue
        · rw [hupdate other hother]
          exact hchoice other hother
    · rintro ⟨choice, rfl, hchoice⟩
      refine ⟨choice key, hchoice key List.mem_cons_self, ?_⟩
      exact List.mem_map_of_mem ((ih hrest).mpr
        ⟨choice, rfl, fun other hother => hchoice other (List.mem_cons_of_mem _ hother)⟩)

instance : Inhabited ParameterValue := ⟨.int 0⟩

/-- The parameters of a choice. -/
theorem get?_parametersOf {keys : List String} {choice : String → ParameterValue} (name : String) :
    (parametersOf keys (keys.map choice)).get? name =
      if name ∈ keys then some (choice name) else none := by
  have hfold : ∀ params : Parameters,
      ((keys.zip (keys.map choice)).foldl (fun params entry =>
        params.set entry.1 entry.2) params).get? name =
        if name ∈ keys then some (choice name) else params.get? name := by
    induction keys with
    | nil => exact fun _ => rfl
    | cons key rest ih =>
      intro params
      rw [List.map_cons, List.zip_cons_cons, List.foldl_cons, ih, InsertionDict.get?_set]
      by_cases hrest : name ∈ rest
      · rw [if_pos hrest, if_pos (List.mem_cons_of_mem _ hrest)]
      · rw [if_neg hrest]
        by_cases hkey : name = key
        · rw [if_pos hkey, if_pos (hkey ▸ List.mem_cons_self), hkey]
        · rw [if_neg hkey, if_neg fun hmem => (List.mem_cons.mp hmem).elim hkey hrest]
  exact hfold .empty

namespace ParameterSpaceGenerator

variable {text : PyText} {generator : ParameterSpaceGenerator} {space : ParameterSpace}
  {candidates : List Candidate} {definition : ParameterDefinition}

/-- Nothing takes a combination out of the space. -/
structure RuleFree (space : ParameterSpace) : Prop where
  conditionals_eq : space.conditionals = []
  dependencies_eq : space.dependencies = []
  forbidden_eq : space.forbiddenCombinations = []
  customRules_eq : space.customRules = []
  maxCandidates_eq : space.maxCandidates = none

/-- A choice of one value for every parameter of the space. -/
def InGrid (space : ParameterSpace) (params : Parameters) : Prop :=
  ∃ choice : String → ParameterValue,
    (∀ definition ∈ space.parameters, choice definition.name ∈ definition.domain) ∧
      ∀ name, params.get? name =
        if name ∈ space.parameters.map (·.name) then some (choice name) else none

theorem names_nodup_of_validate (h : validateParameterSpace space = .ok ()) :
    (space.parameters.map (·.name)).Nodup := by
  by_contra hnot
  rw [validateParameterSpace, if_pos hnot] at h
  cases h

theorem find?_name (hnames : (space.parameters.map (·.name)).Nodup)
    (hmem : definition ∈ space.parameters) :
    space.parameters.find? (·.name == definition.name) = some definition := by
  cases hfound : space.parameters.find? (·.name == definition.name) with
  | none => exact absurd (beq_self_eq_true _) (List.find?_eq_none.mp hfound definition hmem)
  | some found =>
    have hname : found.name = definition.name := by simpa using List.find?_some hfound
    rw [List.inj_on_of_nodup_map hnames (List.mem_of_find?_eq_some hfound) hmem hname]

/-- The domain that is looked up by name. -/
def domainOf (space : ParameterSpace) (name : String) : List ParameterValue :=
  ((space.parameters.find? (·.name == name)).map (·.domain)).getD []

theorem domainOf_name (hnames : (space.parameters.map (·.name)).Nodup)
    (hmem : definition ∈ space.parameters) :
    domainOf space definition.name = definition.domain := by
  rw [domainOf, find?_name hnames hmem]
  rfl

/-- The rules let the parameters pass. -/
def accepted (text : PyText) (generator : ParameterSpaceGenerator) (space : ParameterSpace)
    (params : Parameters) : Bool :=
  match passesRules text generator space params with
  | .ok passed => passed
  | .error _ => false

theorem accepted_iff :
    accepted text generator space params = true ↔
      passesRules text generator space params = .ok true := by
  unfold accepted
  split
  · rename_i hpasses
    rw [hpasses, Except.ok.injEq]
  · rename_i hpasses
    rw [hpasses]
    simp

/-- The candidates are what is left of the combinations that pass. -/
theorem map_parameters_generateFrom (hmax : space.maxCandidates = none) {keys : List String}
    {index : Nat} {combos : List (List ParameterValue)} {generated : List Candidate}
    (h : generateFrom text generator space keys index combos generated = .ok candidates) :
    candidates.map (·.parameters) = generated.map (·.parameters) ++
      (combos.map fun combo => applyConditionals space (parametersOf keys combo)).filter
        (accepted text generator space) := by
  induction combos generalizing index generated with
  | nil =>
    cases h
    exact (List.append_nil _).symm
  | cons combo rest ih =>
    obtain ⟨passed, hrules, h⟩ := except_bind_eq_ok.mp h
    rw [List.map_cons]
    cases passed with
    | false =>
      have hnot : ¬ accepted text generator space
          (applyConditionals space (parametersOf keys combo)) = true := by
        rw [accepted_iff, hrules]
        simp
      rw [if_neg Bool.false_ne_true] at h
      rw [List.filter_cons_of_neg hnot, ih h]
    | true =>
      rw [if_pos rfl, hmax] at h
      dsimp only at h
      rw [Option.any_none, if_neg Bool.false_ne_true] at h
      rw [List.filter_cons_of_pos (accepted_iff.mpr hrules), ih h, List.map_append,
        List.append_assoc]
      rfl

theorem generateFrom_parameters (hfree : RuleFree space) {keys : List String} {index : Nat}
    {combos : List (List ParameterValue)} {generated : List Candidate}
    (h : generateFrom text generator space keys index combos generated = .ok candidates) :
    candidates.map (·.parameters) =
      generated.map (·.parameters) ++ combos.map (parametersOf keys) := by
  have haccepted : ∀ params : Parameters, accepted text generator space params = true := by
    intro params
    rw [accepted_iff, passesRules, hfree.dependencies_eq, hfree.forbidden_eq,
      hfree.customRules_eq]
    rfl
  have hparameters : ∀ combo : List ParameterValue,
      applyConditionals space (parametersOf keys combo) = parametersOf keys combo := by
    intro combo
    rw [applyConditionals, hfree.conditionals_eq]
    rfl
  rw [map_parameters_generateFrom hfree.maxCandidates_eq h,
    List.filter_eq_self.mpr fun params _ => haccepted params,
    List.map_congr_left fun combo _ => hparameters combo]

theorem domains_eq_map_domainOf {names : List String} {domains : List (List ParameterValue)}
    (h : names.mapM (domainForParam space) = .ok domains) :
    domains = names.map (domainOf space) := by
  rw [← List.map_id domains]
  apply map_eq_of_mapM_eq_ok h
  intro name domain hdomain
  rw [domainForParam] at hdomain
  rw [domainOf]
  split at hdomain
  · rename_i hfound
    cases hdomain
    rw [hfound]
    rfl
  · cases hdomain

theorem mem_parameterNames {name : String} :
    name ∈ parameterNames space ↔ name ∈ space.parameters.map (·.name) := StableSort.mem_sortBy

/-- The combinations, read as parameters, are the grid. -/
theorem inGrid_iff_exists_combo (hnames : (space.parameters.map (·.name)).Nodup)
    {params : Parameters} :
    InGrid space params ↔
      ∃ combo ∈ product ((parameterNames space).map (domainOf space)), ∀ name,
        (parametersOf (parameterNames space) combo).get? name = params.get? name := by
  have hkeys : (parameterNames space).Nodup := StableSort.sortBy_perm.nodup_iff.mpr hnames
  constructor
  · rintro ⟨choice, hchoice, hget⟩
    refine ⟨(parameterNames space).map choice, ?_, fun name => ?_⟩
    · refine (mem_product_map_iff hkeys).mpr ⟨choice, rfl, fun name hname => ?_⟩
      obtain ⟨definition, hdefinition, rfl⟩ := List.mem_map.mp (mem_parameterNames.mp hname)
      rw [domainOf_name hnames hdefinition]
      exact hchoice definition hdefinition
    · rw [get?_parametersOf, hget]
      exact if_congr mem_parameterNames rfl rfl
  · rintro ⟨combo, hcombo, hget⟩
    obtain ⟨choice, rfl, hchoice⟩ := (mem_product_map_iff hkeys).mp hcombo
    refine ⟨choice, fun definition hdefinition => ?_, fun name => ?_⟩
    · rw [← domainOf_name hnames hdefinition]
      exact hchoice _ (mem_parameterNames.mpr (List.mem_map_of_mem hdefinition))
    · rw [← hget, get?_parametersOf]
      exact if_congr mem_parameterNames rfl rfl

/-- Without rules the generated parameters are the grid. -/
theorem generateExhaustive_grid (hfree : RuleFree space)
    (h : generateExhaustive text generator space = .ok candidates) :
    (∀ candidate ∈ candidates, InGrid space candidate.parameters) ∧
      ∀ params, InGrid space params →
        ∃ candidate ∈ candidates, ∀ name, candidate.parameters.get? name = params.get? name := by
  obtain ⟨_, hvalid, h⟩ := except_bind_eq_ok.mp h
  obtain ⟨domains, hdomains, h⟩ := except_bind_eq_ok.mp h
  have hnames := names_nodup_of_validate hvalid
  have hall := generateFrom_parameters hfree h
  rw [List.map_nil, List.nil_append, domains_eq_map_domainOf hdomains] at hall
  constructor
  · intro candidate hcandidate
    have hparameters := List.mem_map_of_mem (f := (·.parameters)) hcandidate
    rw [hall] at hparameters
    obtain ⟨combo, hcombo, heq⟩ := List.mem_map.mp hparameters
    exact (inGrid_iff_exists_combo hnames).mpr ⟨combo, hcombo, fun name => by rw [heq]⟩
  · intro params hgrid
    obtain ⟨combo, hcombo, hget⟩ := (inGrid_iff_exists_combo hnames).mp hgrid
    have hparameters := List.mem_map_of_mem (f := parametersOf (parameterNames space)) hcombo
    rw [← hall] at hparameters
    obtain ⟨candidate, hcandidate, heq⟩ := List.mem_map.mp hparameters
    exact ⟨candidate, hcandidate, fun name => by rw [heq, hget name]⟩

end ParameterSpaceGenerator
end OptionResearch
