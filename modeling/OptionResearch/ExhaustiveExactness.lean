import OptionResearch.ConditionalGrid

/-!
# Exactness of exhaustive generation

For well-listed conditionals the candidates are the admitted parameters, each one once, exactly
where no rule raises, custom rules take out none of them, and no admitted parameters lack a
parameter of several values or have a value that occurs twice in its domain.
-/

namespace OptionResearch.ParameterSpaceGenerator

variable {text : PyText} {generator : ParameterSpaceGenerator} {space : ParameterSpace}
  {candidates : List Candidate} {params : Parameters} {choice : String → ParameterValue}

/-- The candidates are the admitted parameters, each one once. -/
def Exact (text : PyText) (generator : ParameterSpaceGenerator) (space : ParameterSpace) : Prop :=
  ∃ candidates, generateExhaustive text generator space = .ok candidates ∧
    (∀ candidate ∈ candidates, Admitted text space candidate.parameters) ∧
    (∀ params, Admitted text space params →
      ∃ candidate ∈ candidates, ∀ name, candidate.parameters.get? name = params.get? name) ∧
    candidates.Pairwise fun a b => ¬ SameParameters a.parameters b.parameters

/-- The candidates are exact where no rule raises and the combinations that pass leave the admitted
parameters, each one once. -/
theorem exact_iff_outcomes (hvalid : validateParameterSpace space = .ok ())
    (hmax : space.maxCandidates = none) :
    Exact text generator space ↔
      (∀ params ∈ outcomes space,
        ∃ passed, passesRules text generator space params = .ok passed) ∧
      (∀ params ∈ outcomes space, accepted text generator space params = true →
        Admitted text space params) ∧
      (∀ params, Admitted text space params → ∃ left ∈ outcomes space,
        accepted text generator space left = true ∧ ∀ name, left.get? name = params.get? name) ∧
      (outcomes space).Pairwise fun left right => accepted text generator space left = true →
        accepted text generator space right = true → ¬ SameParameters left right := by
  rw [← exists_generateExhaustive_iff hvalid hmax]
  have hmem : ∀ candidates, generateExhaustive text generator space = .ok candidates →
      ∀ params, (∃ candidate ∈ candidates, candidate.parameters = params) ↔
        params ∈ outcomes space ∧ accepted text generator space params = true := by
    intro candidates hgenerate params
    rw [← List.mem_filter, ← map_parameters_generateExhaustive hvalid hmax hgenerate, List.mem_map]
  have hpairwise : ∀ candidates, generateExhaustive text generator space = .ok candidates →
      ((candidates.Pairwise fun a b => ¬ SameParameters a.parameters b.parameters) ↔
        (outcomes space).Pairwise fun left right => accepted text generator space left = true →
          accepted text generator space right = true → ¬ SameParameters left right) := by
    intro candidates hgenerate
    rw [← List.pairwise_filter, ← map_parameters_generateExhaustive hvalid hmax hgenerate,
      List.pairwise_map]
  constructor
  · rintro ⟨candidates, hgenerate, hsound, hcomplete, hdistinct⟩
    refine ⟨⟨candidates, hgenerate⟩, ?_, ?_, (hpairwise candidates hgenerate).mp hdistinct⟩
    · intro params houtcome haccepted
      obtain ⟨candidate, hcandidate, rfl⟩ :=
        (hmem candidates hgenerate params).mpr ⟨houtcome, haccepted⟩
      exact hsound candidate hcandidate
    · intro params hadmitted
      obtain ⟨candidate, hcandidate, hget⟩ := hcomplete params hadmitted
      obtain ⟨houtcome, haccepted⟩ := (hmem candidates hgenerate _).mp ⟨candidate, hcandidate, rfl⟩
      exact ⟨_, houtcome, haccepted, hget⟩
  · rintro ⟨⟨candidates, hgenerate⟩, hsound, hcomplete, hdistinct⟩
    refine ⟨candidates, hgenerate, ?_, ?_, (hpairwise candidates hgenerate).mpr hdistinct⟩
    · intro candidate hcandidate
      obtain ⟨houtcome, haccepted⟩ := (hmem candidates hgenerate _).mp ⟨candidate, hcandidate, rfl⟩
      exact hsound _ houtcome haccepted
    · intro params hadmitted
      obtain ⟨left, houtcome, haccepted, hget⟩ := hcomplete params hadmitted
      obtain ⟨candidate, hcandidate, rfl⟩ :=
        (hmem candidates hgenerate left).mpr ⟨houtcome, haccepted⟩
      exact ⟨candidate, hcandidate, hget⟩

/-! ### Well-listed conditionals -/

/-- No dependency raises and no custom rule takes an admitted combination out, and what an admitted
one lacks has one value only, what it has occurs once in its domain. -/
structure OneEach (text : PyText) (generator : ParameterSpaceGenerator) (space : ParameterSpace) :
    Prop where
  returns : ∀ choice params, InDomains space choice → Conforms space choice params →
    ∃ passed, passesDependencies text params space.dependencies = .ok passed
  custom : ∀ choice, InDomains space choice → Admitted text space (outcome space choice) →
    passesCustomRules generator (outcome space choice) space.customRules = .ok true
  dropped : ∀ params, Admitted text space params → ∀ definition ∈ space.parameters,
    params.get? definition.name = none → definition.domain.length = 1
  once : ∀ params, Admitted text space params → ∀ definition ∈ space.parameters, ∀ value,
    params.get? definition.name = some value → definition.domain.countP (value.equals ·) = 1

theorem Admitted.congr {others : Parameters} (h : Admitted text space params)
    (hsame : SameParameters params others)
    (hconforms : ∃ choice, InDomains space choice ∧ Conforms space choice others) :
    Admitted text space others where
  conforms := hconforms
  dependencies := by rw [← passesDependencies_congr hsame, h.dependencies]
  forbidden := by rw [← forbiddenReason_congr hsame, h.forbidden]

/-- What conforming parameters lack can be chosen anew. -/
theorem Conforms.update_of_none {name : String} (h : Conforms space choice params)
    (hnone : params.get? name = none) (value : ParameterValue) :
    Conforms space (Function.update choice name value) params := by
  intro other
  by_cases hother : other = name
  · subst hother
    have hother := h other
    rw [hnone] at hother
    rw [hnone]
    split_ifs at hother ⊢
    rfl
  · rw [Function.update_of_ne hother]
    exact h other

/-- What conforming parameters have can be replaced by an equal value. -/
theorem Conforms.set_of_equal {name : String} {value other : ParameterValue}
    (h : Conforms space choice params) (hvalue : params.get? name = some value)
    (hequal : value.canonical = other.canonical) :
    SameParameters params (params.set name other) ∧
      Conforms space (Function.update choice name other) (params.set name other) := by
  have hsame : SameParameters params (params.set name other) := by
    intro third
    rw [InsertionDict.get?_set]
    split_ifs with hthird
    · rw [hthird, hvalue]
      exact congrArg some hequal
    · rfl
  refine ⟨hsame, fun third => ?_⟩
  simp only [← holds_congr hsame]
  rw [InsertionDict.get?_set]
  by_cases hthird : third = name
  · subst hthird
    have hthird := h third
    rw [hvalue] at hthird
    rw [if_pos rfl, Function.update_self]
    split_ifs at hthird ⊢
    rfl
  · rw [if_neg hthird, Function.update_of_ne hthird]
    exact h third

theorem inDomains_update (hnames : (space.parameters.map (·.name)).Nodup)
    (h : InDomains space choice) {definition : ParameterDefinition}
    (hdefinition : definition ∈ space.parameters) {value : ParameterValue}
    (hvalue : value ∈ definition.domain) :
    InDomains space (Function.update choice definition.name value) := by
  intro other hother
  by_cases hname : other.name = definition.name
  · obtain rfl := List.inj_on_of_nodup_map hnames hother hdefinition hname
    rwa [Function.update_self]
  · rw [Function.update_of_ne hname]
    exact h other hother

/-- Two values of a domain leave two outcomes, in the order of the values. -/
theorem update_sublist_outcomes (hnames : (space.parameters.map (·.name)).Nodup)
    (h : InDomains space choice) {definition : ParameterDefinition}
    (hdefinition : definition ∈ space.parameters) {x y : ParameterValue}
    (hxy : [x, y].Sublist definition.domain) :
    [outcome space (Function.update choice definition.name x),
      outcome space (Function.update choice definition.name y)].Sublist (outcomes space) := by
  have hchoice : ∀ name ∈ parameterNames space, choice name ∈ domainOf space name := by
    intro name hname
    obtain ⟨other, hother, rfl⟩ := List.mem_map.mp (mem_parameterNames.mp hname)
    rw [domainOf_name hnames hother]
    exact h other hother
  have hname : definition.name ∈ parameterNames space :=
    mem_parameterNames.mpr (List.mem_map_of_mem hdefinition)
  rw [← domainOf_name hnames hdefinition] at hxy
  exact (update_sublist_product (nodup_parameterNames hnames) hname hxy hchoice).map fun combo =>
    applyConditionals space (parametersOf (parameterNames space) combo)

theorem exists_pair_sublist {α : Type} {items : List α} (hne : items ≠ [])
    (hlength : items.length ≠ 1) : ∃ x y, [x, y].Sublist items := by
  rcases items with _ | ⟨x, _ | ⟨y, rest⟩⟩
  · exact absurd rfl hne
  · exact absurd rfl hlength
  · exact ⟨x, y, ((List.nil_sublist rest).cons_cons y).cons_cons x⟩

section Listed

variable (hvalid : validateParameterSpace space = .ok ()) (hmax : space.maxCandidates = none)
include hvalid hmax

/-- In an exact space, an admitted outcome passes. -/
theorem Exact.accepted_outcome (h : Exact text generator space)
    (hadmitted : Admitted text space (outcome space choice)) :
    accepted text generator space (outcome space choice) = true := by
  obtain ⟨-, -, hcomplete, -⟩ := (exact_iff_outcomes hvalid hmax).mp h
  obtain ⟨left, hleft, haccepted, hget⟩ := hcomplete _ hadmitted
  have hnames := names_nodup_of_validate hvalid
  obtain ⟨choice', -, rfl⟩ := (mem_outcomes_iff hnames).mp hleft
  rwa [outcome_eq_of_get? hnames hget] at haccepted

/-- In an exact space, two values of a domain do not leave equal admitted outcomes. -/
theorem Exact.not_same (h : Exact text generator space) (hchoice : InDomains space choice)
    {definition : ParameterDefinition} (hdefinition : definition ∈ space.parameters)
    {x y : ParameterValue} (hxy : [x, y].Sublist definition.domain)
    (hx : Admitted text space (outcome space (Function.update choice definition.name x)))
    (hy : Admitted text space (outcome space (Function.update choice definition.name y))) :
    ¬ SameParameters (outcome space (Function.update choice definition.name x))
      (outcome space (Function.update choice definition.name y)) := by
  obtain ⟨-, -, -, hdistinct⟩ := (exact_iff_outcomes hvalid hmax).mp h
  have hnames := names_nodup_of_validate hvalid
  have hpair := hdistinct.sublist (update_sublist_outcomes hnames hchoice hdefinition hxy)
  rw [List.pairwise_pair] at hpair
  exact hpair (h.accepted_outcome hvalid hmax hx) (h.accepted_outcome hvalid hmax hy)

end Listed

section WellListed

variable (hwell : WellListed space.conditionals)
include hwell

/-- Conforming parameters are the outcome of their choice. -/
theorem Conforms.same_outcome (h : Conforms space choice params) :
    SameParameters params (outcome space choice) := .of_get? (h.get?_eq hwell)

theorem Admitted.outcome (h : Admitted text space params) (hchoice : InDomains space choice)
    (hconforms : Conforms space choice params) :
    Admitted text space (outcome space choice) :=
  h.congr (hconforms.same_outcome hwell) ⟨choice, hchoice, conforms_outcome hwell choice⟩

/-- In an exact space, no two values of a domain can be given to one admitted dictionary. -/
theorem Exact.not_both (h : Exact text generator space) (params : Parameters)
    (hvalid : validateParameterSpace space = .ok ()) (hmax : space.maxCandidates = none)
    (hchoice : InDomains space choice) {definition : ParameterDefinition}
    (hdefinition : definition ∈ space.parameters) {x y : ParameterValue}
    (hxy : [x, y].Sublist definition.domain)
    (hboth : ∀ value ∈ [x, y], ∃ others, SameParameters params others ∧
      Admitted text space others ∧
        Conforms space (Function.update choice definition.name value) others) : False := by
  have hnames := names_nodup_of_validate hvalid
  have hout : ∀ value ∈ [x, y],
      Admitted text space
          (ParameterSpaceGenerator.outcome space (Function.update choice definition.name value)) ∧
        SameParameters params
          (ParameterSpaceGenerator.outcome space
            (Function.update choice definition.name value)) := by
    intro value hvalue
    obtain ⟨others, hsame, hadmitted, hconforms⟩ := hboth value hvalue
    have hdomains := inDomains_update hnames hchoice hdefinition (hxy.subset hvalue)
    exact ⟨hadmitted.outcome hwell hdomains hconforms,
      hsame.trans (hconforms.same_outcome hwell)⟩
  obtain ⟨hx, hsamex⟩ := hout x (by simp)
  obtain ⟨hy, hsamey⟩ := hout y (by simp)
  exact h.not_same hvalid hmax hchoice hdefinition hxy hx hy (hsamex.symm.trans hsamey)

theorem Exact.oneEach (h : Exact text generator space)
    (hvalid : validateParameterSpace space = .ok ()) (hmax : space.maxCandidates = none) :
    OneEach text generator space := by
  have hnames := names_nodup_of_validate hvalid
  refine ⟨?_, ?_, ?_, ?_⟩
  · intro choice params hchoice hconforms
    obtain ⟨hreturns, -⟩ := (exact_iff_outcomes hvalid hmax).mp h
    obtain ⟨_, hpasses⟩ := hreturns _ ((mem_outcomes_iff hnames).mpr ⟨choice, hchoice, rfl⟩)
    obtain ⟨passed, hdependencies, -⟩ := except_bind_eq_ok.mp hpasses
    rw [passesDependencies_congr (hconforms.same_outcome hwell)]
    exact ⟨passed, hdependencies⟩
  · intro choice hchoice hadmitted
    have haccepted := h.accepted_outcome hvalid hmax hadmitted
    exact (passesRules_eq_ok_true_iff.mp (accepted_iff.mp haccepted)).2.2
  · intro params hadmitted definition hdefinition hnone
    obtain ⟨choice, hchoice, hconforms⟩ := hadmitted.conforms
    by_contra hlength
    have hne := List.ne_nil_of_mem (hchoice definition hdefinition)
    obtain ⟨x, y, hxy⟩ := exists_pair_sublist hne hlength
    refine h.not_both hwell params hvalid hmax hchoice hdefinition hxy fun value _ => ?_
    exact ⟨params, .refl params, hadmitted, hconforms.update_of_none hnone value⟩
  · intro params hadmitted definition hdefinition value hvalue
    obtain ⟨choice, hchoice, hconforms⟩ := hadmitted.conforms
    have hmem : value ∈ definition.domain := by
      have hname := hconforms definition.name
      rw [hvalue] at hname
      split_ifs at hname
      rw [Option.some.inj hname]
      exact hchoice definition hdefinition
    have hequal : value ∈ definition.domain.filter (value.equals ·) :=
      List.mem_filter.mpr ⟨hmem, ParameterValue.equals_iff.mpr rfl⟩
    by_contra hcount
    rw [List.countP_eq_length_filter] at hcount
    obtain ⟨x, y, hpair⟩ := exists_pair_sublist (List.ne_nil_of_mem hequal) hcount
    have hxy := hpair.trans List.filter_sublist
    refine h.not_both hwell params hvalid hmax hchoice hdefinition hxy fun other hother => ?_
    have hcanonical := ParameterValue.equals_iff.mp (List.mem_filter.mp (hpair.subset hother)).2
    obtain ⟨hsame, hset⟩ := hconforms.set_of_equal hvalue hcanonical
    have hdomains := inDomains_update hnames hchoice hdefinition (hxy.subset hother)
    exact ⟨_, hsame, hadmitted.congr hsame ⟨_, hdomains, hset⟩, hset⟩

/-- Equal outcomes of two combinations would need a second value of a dropped parameter, or an equal
value of one that is left. -/
theorem OneEach.not_same (h : OneEach text generator space) {choice' : String → ParameterValue}
    (hadmitted : Admitted text space (ParameterSpaceGenerator.outcome space choice))
    {definition : ParameterDefinition} (hdefinition : definition ∈ space.parameters)
    (hsub : [choice definition.name, choice' definition.name].Sublist definition.domain) :
    ¬ SameParameters (ParameterSpaceGenerator.outcome space choice)
      (ParameterSpaceGenerator.outcome space choice') := by
  intro hsame
  have hname := conforms_outcome hwell choice definition.name
  have hname' := conforms_outcome hwell choice' definition.name
  cases hvalue : (ParameterSpaceGenerator.outcome space choice).get? definition.name with
  | none =>
    have hone := h.dropped _ hadmitted definition hdefinition hvalue
    have htwo := hsub.length_le
    rw [hone] at htwo
    simp at htwo
  | some value =>
    obtain ⟨value', hvalue', hequal⟩ := hsame.get?_eq_some hvalue
    rw [hvalue] at hname
    rw [hvalue'] at hname'
    split_ifs at hname hname'
    obtain rfl := Option.some.inj hname
    obtain rfl := Option.some.inj hname'
    have hone := h.once _ hadmitted definition hdefinition _ hvalue
    have htwo := hsub.countP_le (p := ((choice definition.name).equals ·))
    have hself : (choice definition.name).equals (choice definition.name) = true :=
      ParameterValue.equals_iff.mpr rfl
    have hother : (choice definition.name).equals (choice' definition.name) = true :=
      ParameterValue.equals_iff.mpr hequal.symm
    rw [hone, List.countP_cons_of_pos hself, List.countP_cons_of_pos hother] at htwo
    simp at htwo

theorem OneEach.exact (h : OneEach text generator space)
    (hvalid : validateParameterSpace space = .ok ()) (hmax : space.maxCandidates = none) :
    Exact text generator space := by
  have hnames := names_nodup_of_validate hvalid
  have hconforms := conforms_outcome hwell
  have hadmitted : ∀ choice, InDomains space choice →
      accepted text generator space (outcome space choice) = true →
        Admitted text space (outcome space choice) := by
    intro choice hchoice haccepted
    obtain ⟨hdependencies, hforbidden, -⟩ :=
      passesRules_eq_ok_true_iff.mp (accepted_iff.mp haccepted)
    exact ⟨⟨choice, hchoice, hconforms choice⟩, hdependencies, hforbidden⟩
  refine (exact_iff_outcomes hvalid hmax).mpr ⟨?_, ?_, ?_, ?_⟩
  · intro params hparams
    obtain ⟨choice, hchoice, rfl⟩ := (mem_outcomes_iff hnames).mp hparams
    obtain ⟨passed, hdependencies⟩ := h.returns choice _ hchoice (hconforms choice)
    refine exists_passesRules hdependencies fun hpassed hforbidden => ?_
    subst hpassed
    exact h.custom choice hchoice ⟨⟨choice, hchoice, hconforms choice⟩, hdependencies, hforbidden⟩
  · intro params hparams haccepted
    obtain ⟨choice, hchoice, rfl⟩ := (mem_outcomes_iff hnames).mp hparams
    exact hadmitted choice hchoice haccepted
  · intro params hparams
    obtain ⟨choice, hchoice, hparamsConform⟩ := hparams.conforms
    have houtcome := hparams.outcome hwell hchoice hparamsConform
    refine ⟨_, (mem_outcomes_iff hnames).mpr ⟨choice, hchoice, rfl⟩, ?_, fun name =>
      (hparamsConform.get?_eq hwell name).symm⟩
    exact accepted_iff.mpr (passesRules_eq_ok_true_iff.mpr
      ⟨houtcome.dependencies, houtcome.forbidden, h.custom choice hchoice houtcome⟩)
  · unfold outcomes
    rw [List.pairwise_map]
    refine pairwise_product.imp_of_mem fun {combo combo'} hcombo hcombo' hpair => ?_
    obtain ⟨choice, rfl, hchoice⟩ := (mem_combinations_iff hnames).mp hcombo
    obtain ⟨choice', rfl, -⟩ := (mem_combinations_iff hnames).mp hcombo'
    intro haccepted _
    obtain ⟨name, hname, hsub⟩ := hpair choice choice' rfl rfl
    obtain ⟨definition, hdefinition, rfl⟩ := List.mem_map.mp (mem_parameterNames.mp hname)
    rw [domainOf_name hnames hdefinition] at hsub
    exact h.not_same hwell (hadmitted choice hchoice haccepted) hdefinition hsub

end WellListed

/-- Where no parameter is left without its conditionals holding, the outcomes that pass are
admitted. -/
theorem admitted_outcomes_iff (hnames : (space.parameters.map (·.name)).Nodup) :
    (∀ params ∈ outcomes space, accepted text generator space params = true →
        Admitted text space params) ↔
      ∀ params ∈ outcomes space, accepted text generator space params = true →
        ∀ conditional ∈ space.conditionals, params.get? conditional.parameter ≠ none →
          Holds conditional params = true := by
  refine forall₃_congr fun params hparams haccepted => ?_
  obtain ⟨choice, hchoice, rfl⟩ := (mem_outcomes_iff hnames).mp hparams
  constructor
  · rintro ⟨⟨choice', -, hconforms⟩, -, -⟩
    exact hconforms.holds
  · intro hholds
    obtain ⟨hdependencies, hforbidden, -⟩ :=
      passesRules_eq_ok_true_iff.mp (accepted_iff.mp haccepted)
    exact ⟨⟨choice, hchoice, conforms_outcome_iff.mpr hholds⟩, hdependencies, hforbidden⟩

/-- A valid space without a limit is generated exactly where no rule raises, no combination that
passes leaves a parameter without its conditionals holding, every admitted dictionary is left by a
combination that passes and no equal ones are left twice. For well-listed conditionals that is where
every admitted dictionary has one choice only. -/
theorem generateExhaustive_exact_iff (text : PyText) (generator : ParameterSpaceGenerator)
    (space : ParameterSpace) (hvalid : validateParameterSpace space = .ok ())
    (hmax : space.maxCandidates = none) :
    (Exact text generator space ↔
        (∀ params ∈ outcomes space,
          ∃ passed, passesRules text generator space params = .ok passed) ∧
        (∀ params ∈ outcomes space, accepted text generator space params = true →
          ∀ conditional ∈ space.conditionals, params.get? conditional.parameter ≠ none →
            Holds conditional params = true) ∧
        (∀ params, Admitted text space params → ∃ left ∈ outcomes space,
          accepted text generator space left = true ∧
            ∀ name, left.get? name = params.get? name) ∧
        (outcomes space).Pairwise fun left right => accepted text generator space left = true →
          accepted text generator space right = true → ¬ SameParameters left right) ∧
      (WellListed space.conditionals →
        (Exact text generator space ↔ OneEach text generator space)) := by
  constructor
  · rw [exact_iff_outcomes hvalid hmax, admitted_outcomes_iff (names_nodup_of_validate hvalid)]
  · intro hwell
    exact ⟨fun h => h.oneEach hwell hvalid hmax, fun h => h.exact hwell hvalid hmax⟩

/-- A mode that only the flag turns on. -/
def flaggedSpace : ParameterSpace where
  parameters := [.boolean "flag", .categorical "mode" ["fast", "slow"]]
  conditionals := [⟨"mode", "flag", [.bool true]⟩]

theorem generateExhaustive_exact_iff_flagged :
    Exact plainText {} flaggedSpace ↔ OneEach plainText {} flaggedSpace := by
  have hwell : WellListed flaggedSpace.conditionals := by
    refine ⟨List.pairwise_singleton _ _, fun conditional hmem => ?_⟩
    obtain rfl := List.mem_singleton.mp hmem
    decide
  exact (generateExhaustive_exact_iff plainText {} flaggedSpace rfl rfl).2 hwell

/-- Without the flag, both modes leave the same parameters, and both become candidates. -/
theorem generateExhaustive_repeats : ¬ Exact plainText {} flaggedSpace := by
  rintro ⟨candidates, hgenerate, -, -, hdistinct⟩
  have hcomputed : (generateExhaustive plainText {} flaggedSpace).map
      (·.map fun candidate => candidate.parameters.entries) =
        .ok [[("flag", .bool false)], [("flag", .bool false)],
          [("flag", .bool true), ("mode", .str "fast")],
          [("flag", .bool true), ("mode", .str "slow")]] := rfl
  rw [hgenerate] at hcomputed
  have hentries := Except.ok.inj hcomputed
  dsimp only at hentries
  have hpair : (candidates.map fun candidate => candidate.parameters.entries).Pairwise
      fun a b => a ≠ b := by
    rw [List.pairwise_map]
    refine hdistinct.imp fun hdiffer heq => hdiffer fun name => ?_
    rw [InsertionDict.get?, InsertionDict.get?, heq]
  rw [hentries] at hpair
  exact absurd hpair (by decide +kernel)

end OptionResearch.ParameterSpaceGenerator
