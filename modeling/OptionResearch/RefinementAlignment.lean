import OptionResearch.ExhaustiveExactness
import OptionResearch.ParameterRefinement

/-!
# Refinement and the grid

Where refinement returns, it keeps the first of all equal parameters that the combinations near the
parents leave. They are those of the grid exactly where no parent lacks a parameter, whatever passes
near one has grid values, and every parent's values are near some parent.
-/

namespace OptionResearch.ParameterSpaceGenerator

open FirstOccurrences

variable {text : PyText} {generator : ParameterSpaceGenerator} {space : ParameterSpace}
  {candidates parents : List Candidate} {parent : Candidate} {width : Int}
  {params left right : Parameters} {choice : String → ParameterValue}

/-! ### Equal parameters have one key -/

theorem mem_itemsKey_iff {name : String} {value : ℚ ⊕ ParameterValue} :
    (name, value) ∈ itemsKey params ↔
      (params.get? name).map ParameterValue.canonical = some value := by
  unfold itemsKey
  rw [List.mem_map, Option.map_eq_some_iff]
  constructor
  · rintro ⟨⟨name', value'⟩, hmem, heq⟩
    cases heq
    exact ⟨value', InsertionDict.get?_eq_some_iff.mpr (StableSort.mem_sortBy.mp hmem), rfl⟩
  · rintro ⟨value', hvalue, rfl⟩
    exact ⟨(name, value'),
      StableSort.mem_sortBy.mpr (InsertionDict.get?_eq_some_iff.mp hvalue), rfl⟩

theorem pairwise_itemsKey (params : Parameters) :
    (itemsKey params).Pairwise fun a b => a.1 < b.1 :=
  List.pairwise_map.mpr (StableSort.sortBy_strict params.nodup_keys)

theorem itemsKey_eq_iff : itemsKey left = itemsKey right ↔ SameParameters left right := by
  constructor
  · intro h name
    apply Option.ext
    intro value
    rw [← mem_itemsKey_iff, ← mem_itemsKey_iff, h]
  · intro h
    have hne : ∀ params, (itemsKey params).Nodup := fun params =>
      (pairwise_itemsKey params).imp fun hlt heq => hlt.ne (congrArg Prod.fst heq)
    have hperm : (itemsKey left).Perm (itemsKey right) := by
      refine (List.perm_ext_iff_of_nodup (hne left) (hne right)).mpr fun entry => ?_
      rw [← Prod.mk.eta (p := entry), mem_itemsKey_iff, mem_itemsKey_iff, h]
    refine hperm.eq_of_pairwise ?_ (pairwise_itemsKey left) (pairwise_itemsKey right)
    intro a b _ _ hab hba
    exact absurd hba hab.asymm

theorem pairwise_dedupeCandidates (candidates : List Candidate) :
    (dedupeCandidates candidates).Pairwise fun a b =>
      ¬ SameParameters a.parameters b.parameters :=
  pairwise_firsts.imp fun hne hsame => hne (itemsKey_eq_iff.mpr hsame)

theorem exists_mem_dedupeCandidates {candidate : Candidate} (h : candidate ∈ candidates) :
    ∃ kept ∈ dedupeCandidates candidates,
      SameParameters kept.parameters candidate.parameters := by
  obtain ⟨kept, hkept, hkey⟩ : ∃ kept ∈ dedupeCandidates candidates,
      itemsKey kept.parameters = itemsKey candidate.parameters := exists_mem_firsts h
  exact ⟨kept, hkept, itemsKey_eq_iff.mp hkey⟩

/-! ### The combinations near the parents -/

/-- The domain of a key near a parent, where it has one. -/
def nearDomain (space : ParameterSpace) (parent : Candidate) (width : Int) (key : String) :
    List ParameterValue :=
  match parentDomain space parent width key with
  | .ok values => values
  | .error _ => []

/-- What is left of every combination near a parent. -/
def nearOutcomes (space : ParameterSpace) (width : Int) (parent : Candidate) : List Parameters :=
  (product ((parameterNames space).map (nearDomain space parent width))).map fun combo =>
    applyConditionals space (parametersOf (parameterNames space) combo)

/-- Every parameter has a domain near the parent. -/
def HasDomains (space : ParameterSpace) (width : Int) (parent : Candidate) : Prop :=
  ∀ key ∈ parameterNames space, ∃ values, parentDomain space parent width key = .ok values

theorem mem_nearOutcomes_iff (hnames : (space.parameters.map (·.name)).Nodup) :
    params ∈ nearOutcomes space width parent ↔
      ∃ choice, (∀ key ∈ parameterNames space, choice key ∈ nearDomain space parent width key) ∧
        params = outcome space choice := by
  unfold nearOutcomes
  rw [List.mem_map]
  constructor
  · rintro ⟨combo, hcombo, rfl⟩
    obtain ⟨choice, rfl, hchoice⟩ :=
      (mem_product_map_iff (nodup_parameterNames hnames)).mp hcombo
    exact ⟨choice, hchoice, rfl⟩
  · rintro ⟨choice, hchoice, rfl⟩
    exact ⟨_, (mem_product_map_iff (nodup_parameterNames hnames)).mpr ⟨choice, rfl, hchoice⟩, rfl⟩

theorem mapM_parentDomain (h : HasDomains space width parent) :
    (parameterNames space).mapM (parentDomain space parent width) =
      .ok ((parameterNames space).map (nearDomain space parent width)) := by
  apply mapM_eq_ok_map
  intro key hkey
  obtain ⟨values, hvalues⟩ := h key hkey
  rw [nearDomain, hvalues]

/-- Near one parent, refinement returns where no rule raises, and appends what passes. -/
theorem refineFrom_spec (keys : List String) (combos : List (List ParameterValue))
    (refined : List Candidate) :
    ((∃ refined', refineFrom text generator space keys combos refined = .ok refined') ↔
        ∀ params ∈ combos.map fun combo => applyConditionals space (parametersOf keys combo),
          ∃ passed, passesRules text generator space params = .ok passed) ∧
      ∀ refined', refineFrom text generator space keys combos refined = .ok refined' →
        refined'.map (·.parameters) = refined.map (·.parameters) ++
          (combos.map fun combo => applyConditionals space (parametersOf keys combo)).filter
            (accepted text generator space) := by
  induction combos generalizing refined with
  | nil =>
    refine ⟨⟨fun _ _ hmem => absurd hmem List.not_mem_nil, fun _ => ⟨refined, rfl⟩⟩, ?_⟩
    intro refined' h
    cases h
    exact (List.append_nil _).symm
  | cons combo rest ih =>
    rw [List.map_cons, List.forall_mem_cons, refineFrom]
    cases hrules : passesRules text generator space
        (applyConditionals space (parametersOf keys combo)) with
    | error e =>
      refine ⟨by simp [bind, Except.bind], fun refined' h => ?_⟩
      cases h
    | ok passed =>
      rw [except_ok_bind]
      cases passed with
      | false =>
        have hnot : ¬ accepted text generator space
            (applyConditionals space (parametersOf keys combo)) = true := by
          rw [accepted_iff, hrules]
          simp
        rw [if_neg Bool.false_ne_true, List.filter_cons_of_neg hnot, (ih refined).1]
        exact ⟨by simp, (ih refined).2⟩
      | true =>
        rw [if_pos rfl, List.filter_cons_of_pos (accepted_iff.mpr hrules), (ih _).1]
        refine ⟨by simp, fun refined' h => ?_⟩
        rw [(ih _).2 refined' h, List.map_append, List.append_assoc]
        rfl

/-- Around all parents, refinement returns where every parameter has a domain near each of them and
no rule raises, and appends what passes. -/
theorem refineParents_spec (parents refined : List Candidate) :
    ((∃ refined', refineParents text generator space width parents refined = .ok refined') ↔
        ∀ parent ∈ parents, HasDomains space width parent ∧
          ∀ params ∈ nearOutcomes space width parent,
            ∃ passed, passesRules text generator space params = .ok passed) ∧
      ∀ refined', refineParents text generator space width parents refined = .ok refined' →
        refined'.map (·.parameters) = refined.map (·.parameters) ++
          (parents.flatMap (nearOutcomes space width)).filter
            (accepted text generator space) := by
  induction parents generalizing refined with
  | nil =>
    refine ⟨⟨fun _ _ hmem => absurd hmem List.not_mem_nil, fun _ => ⟨refined, rfl⟩⟩, ?_⟩
    intro refined' h
    cases h
    exact (List.append_nil _).symm
  | cons parent rest ih =>
    rw [List.forall_mem_cons, refineParents]
    have hspec := @refineFrom_spec text generator space (parameterNames space)
      (product ((parameterNames space).map (nearDomain space parent width))) refined
    constructor
    · constructor
      · rintro ⟨refined', h⟩
        obtain ⟨domains, hdomains, hbody⟩ := except_bind_eq_ok.mp h
        obtain ⟨next, hnext, hnexts⟩ := except_bind_eq_ok.mp hbody
        have hhas : HasDomains space width parent := exists_mapM_eq_ok_iff.mp ⟨domains, hdomains⟩
        rw [mapM_parentDomain hhas] at hdomains
        cases hdomains
        exact ⟨⟨hhas, hspec.1.mp ⟨next, hnext⟩⟩, (ih next).1.mp ⟨refined', hnexts⟩⟩
      · rintro ⟨⟨hhas, hrules⟩, hrest⟩
        obtain ⟨next, hnext⟩ := hspec.1.mpr hrules
        obtain ⟨refined', h⟩ := (ih next).1.mpr hrest
        refine ⟨refined', ?_⟩
        rw [mapM_parentDomain hhas, except_ok_bind, hnext, except_ok_bind, h]
    · intro refined' h
      obtain ⟨domains, hdomains, hbody⟩ := except_bind_eq_ok.mp h
      obtain ⟨next, hnext, hnexts⟩ := except_bind_eq_ok.mp hbody
      have hhas : HasDomains space width parent := exists_mapM_eq_ok_iff.mp ⟨domains, hdomains⟩
      rw [mapM_parentDomain hhas] at hdomains
      cases hdomains
      rw [(ih next).2 refined' hnexts, hspec.2 next hnext, List.append_assoc, ← List.filter_append,
        List.flatMap_cons]
      rfl

/-! ### What refinement returns -/

/-- The limits that `islice` takes. -/
def Slices (limit : Option Int) : Prop :=
  ∀ stop, limit = some stop → 0 ≤ stop ∧ stop ≤ 9223372036854775807

theorem exists_islice {α : Type} {limit : Option Int} (h : Slices limit) (items : List α) :
    ∃ sliced, islice items limit = .ok sliced ∧ sliced.Sublist items ∧
      (limit = none → sliced = items) := by
  cases limit with
  | none => exact ⟨items, rfl, List.Sublist.refl _, fun _ => rfl⟩
  | some stop =>
    refine ⟨items.take stop.toNat, if_pos (h stop rfl), List.take_sublist _ _, fun hnone => ?_⟩
    cases hnone

theorem not_islice {α : Type} {limit : Option Int} (h : ¬ Slices limit) (items sliced : List α) :
    islice items limit ≠ .ok sliced := by
  cases limit with
  | none => exact absurd (fun stop hstop => by cases hstop) h
  | some stop =>
    have hnot : ¬ (0 ≤ stop ∧ stop ≤ 9223372036854775807) := fun hstop => h fun other hother => by
      obtain rfl := Option.some.inj hother
      exact hstop
    rw [islice, if_neg hnot]
    intro heq
    cases heq

/-- The space without a limit on its candidates. -/
def unlimited (space : ParameterSpace) : ParameterSpace := { space with maxCandidates := none }

/-- The parameters are those of a candidate of the whole grid. -/
def Produced (text : PyText) (generator : ParameterSpaceGenerator) (space : ParameterSpace)
    (params : Parameters) : Prop :=
  ∃ exhaustive, generateExhaustive text generator (unlimited space) = .ok exhaustive ∧
    ∃ candidate ∈ exhaustive, SameParameters candidate.parameters params

/-- Refinement returns different parameters of the grid, and without a limit all its parents. -/
def Refines (text : PyText) (generator : ParameterSpaceGenerator) (space : ParameterSpace)
    (parents : List Candidate) (width : Int) (limit : Option Int) : Prop :=
  ∃ refined, coarseToFine text generator space parents width limit = .ok refined ∧
    (refined.Pairwise fun a b => ¬ SameParameters a.parameters b.parameters) ∧
    (∀ candidate ∈ refined, Produced text generator space candidate.parameters) ∧
    (limit = none → ∀ parent ∈ parents,
      ∃ candidate ∈ refined, SameParameters candidate.parameters parent.parameters)

/-- No rule raises on the grid or near a parent, every parent has every parameter, what passes near
one passes on the grid, and every parent is near some parent. -/
structure Aligned (text : PyText) (generator : ParameterSpaceGenerator) (space : ParameterSpace)
    (parents : List Candidate) (width : Int) : Prop where
  grid : ∀ params ∈ outcomes space,
    ∃ passed, passesRules text generator space params = .ok passed
  near : ∀ parent ∈ parents, ∀ params ∈ nearOutcomes space width parent,
    ∃ passed, passesRules text generator space params = .ok passed
  complete : ∀ parent ∈ parents, ∀ name ∈ parameterNames space,
    parent.parameters.get? name ≠ none
  produced : ∀ parent ∈ parents, ∀ params ∈ nearOutcomes space width parent,
    accepted text generator space params = true →
      ∃ left ∈ outcomes space, accepted text generator space left = true ∧
        SameParameters left params
  kept : ∀ parent ∈ parents, ∃ other ∈ parents, ∃ params ∈ nearOutcomes space width other,
    accepted text generator space params = true ∧ SameParameters params parent.parameters

/-! ### The parents -/

/-- What holds of the candidates so far and of what is left of each combination that passes holds of
all candidates. -/
theorem generateFrom_invariant {P : Candidate → Prop} {keys : List String} {index : Nat}
    {combos : List (List ParameterValue)} {generated : List Candidate}
    (h : generateFrom text generator space keys index combos generated = .ok candidates)
    (hgenerated : ∀ candidate ∈ generated, P candidate)
    (hcombos : ∀ combo ∈ combos, ∀ id,
      accepted text generator space (applyConditionals space (parametersOf keys combo)) = true →
        P ⟨id, applyConditionals space (parametersOf keys combo)⟩) :
    ∀ candidate ∈ candidates, P candidate := by
  induction combos generalizing index generated with
  | nil =>
    cases h
    exact hgenerated
  | cons combo rest ih =>
    obtain ⟨hcombo, hrest⟩ := List.forall_mem_cons.mp hcombos
    obtain ⟨passed, hrules, h⟩ := except_bind_eq_ok.mp h
    cases passed with
    | false => exact ih h hgenerated hrest
    | true =>
      have hnext : ∀ candidate ∈ generated ++
          [⟨candidateId index, applyConditionals space (parametersOf keys combo)⟩],
          P candidate := by
        rw [List.forall_mem_append, List.forall_mem_singleton]
        exact ⟨hgenerated, hcombo _ (accepted_iff.mpr hrules)⟩
      rw [if_pos rfl] at h
      dsimp only at h
      split_ifs at h
      · cases h
        exact hnext
      · exact ih h hnext hrest

/-- A generated candidate is what is left of a combination that passes. -/
theorem mem_generateExhaustive (hvalid : validateParameterSpace space = .ok ())
    (h : generateExhaustive text generator space = .ok candidates) (hmem : parent ∈ candidates) :
    parent.parameters ∈ outcomes space ∧
      accepted text generator space parent.parameters = true := by
  rw [generateExhaustive_eq hvalid] at h
  refine generateFrom_invariant (P := fun candidate => candidate.parameters ∈ outcomes space ∧
    accepted text generator space candidate.parameters = true) h ?_ ?_ parent hmem
  · exact fun _ hnone => absurd hnone List.not_mem_nil
  · exact fun combo hcombo _ haccepted => ⟨List.mem_map_of_mem hcombo, haccepted⟩

theorem get?_parameterMap (hnames : (space.parameters.map (·.name)).Nodup)
    {definition : ParameterDefinition} (hdefinition : definition ∈ space.parameters) :
    (parameterMap space).get? definition.name = some definition := by
  have hkeys : ((space.parameters.map fun param => (param.name, param)).map Prod.fst).Nodup := by
    rw [List.map_map]
    exact hnames
  exact (InsertionDict.get?_ofEntries hkeys).mpr (List.mem_map.mpr ⟨definition, hdefinition, rfl⟩)

/-- Near a value of its domain, a parameter has a domain. -/
theorem exists_localDomain {definition : ParameterDefinition} {value : ParameterValue}
    (h : value ∈ definition.domain) (width : Int) :
    ∃ values, definition.localDomain value width = .ok values := by
  cases definition with
  | integerRange name minimum maximum step =>
    obtain ⟨n, -, rfl⟩ := List.mem_map.mp h
    exact ⟨_, rfl⟩
  | floatRange name minimum maximum step precision =>
    obtain ⟨q, -, rfl⟩ := List.mem_map.mp h
    exact ⟨_, rfl⟩
  | categorical name choices => exact ⟨_, rfl⟩
  | boolean name => exact ⟨_, rfl⟩
  | orderedDiscrete name values =>
    unfold ParameterDefinition.localDomain
    dsimp only
    split
    · exact ⟨_, rfl⟩
    · exact ⟨_, rfl⟩

/-- What a choice leaves of a name is its own value. -/
theorem get?_outcome_eq_some {name : String} {value : ParameterValue}
    (h : (outcome space choice).get? name = some value) :
    name ∈ parameterNames space ∧ value = choice name := by
  have hkept := get?_settle_cases space.conditionals
    (parametersOf (parameterNames space) ((parameterNames space).map choice)) name
  rw [← applyConditionals_eq_settle, ← outcome, h, get?_parametersOf] at hkept
  have hsome := hkept.resolve_left (Option.some_ne_none value)
  split_ifs at hsome with hname
  exact ⟨hname, Option.some.inj hsome⟩

theorem parentDomain_eq (hnames : (space.parameters.map (·.name)).Nodup)
    {definition : ParameterDefinition} (hdefinition : definition ∈ space.parameters)
    {value : ParameterValue} (hvalue : parent.parameters.get? definition.name = some value) :
    parentDomain space parent width definition.name = definition.localDomain value width := by
  rw [parentDomain, get?_parameterMap hnames hdefinition, hvalue]

/-- A generated parent has domains near it exactly where it has every parameter. -/
theorem hasDomains_iff (hnames : (space.parameters.map (·.name)).Nodup)
    (hparent : parent.parameters ∈ outcomes space) :
    HasDomains space width parent ↔
      ∀ name ∈ parameterNames space, parent.parameters.get? name ≠ none := by
  obtain ⟨choice, hchoice, hparameters⟩ := (mem_outcomes_iff hnames).mp hparent
  refine forall₂_congr fun name hname => ?_
  obtain ⟨definition, hdefinition, rfl⟩ := List.mem_map.mp (mem_parameterNames.mp hname)
  constructor
  · rintro ⟨values, hvalues⟩ hnone
    rw [parentDomain, get?_parameterMap hnames hdefinition, hnone] at hvalues
    cases hvalues
  · intro hsome
    obtain ⟨value, hvalue⟩ := Option.ne_none_iff_exists'.mp hsome
    rw [parentDomain_eq hnames hdefinition hvalue]
    rw [hparameters] at hvalue
    rw [(get?_outcome_eq_some hvalue).2]
    exact exists_localDomain (hchoice definition hdefinition) width

/-! ### Refinement and alignment -/

theorem produced_iff (hvalid : validateParameterSpace space = .ok ()) :
    Produced text generator space params ↔
      (∀ params ∈ outcomes space,
        ∃ passed, passesRules text generator space params = .ok passed) ∧
      ∃ left ∈ outcomes space, accepted text generator space left = true ∧
        SameParameters left params := by
  have hvalid' : validateParameterSpace (unlimited space) = .ok () := hvalid
  have hreturns : (∃ exhaustive,
      generateExhaustive text generator (unlimited space) = .ok exhaustive) ↔
        ∀ params ∈ outcomes space,
          ∃ passed, passesRules text generator space params = .ok passed :=
    exists_generateExhaustive_iff hvalid' rfl
  have hmem : ∀ exhaustive,
      generateExhaustive text generator (unlimited space) = .ok exhaustive →
        ((∃ candidate ∈ exhaustive, SameParameters candidate.parameters params) ↔
          ∃ left ∈ outcomes space, accepted text generator space left = true ∧
            SameParameters left params) := by
    intro exhaustive hexhaustive
    have houtcomes : (outcomes (unlimited space)).filter
        (accepted text generator (unlimited space)) =
          (outcomes space).filter (accepted text generator space) := rfl
    have hmap := map_parameters_generateExhaustive hvalid' rfl hexhaustive
    have hleft : (∃ candidate ∈ exhaustive, SameParameters candidate.parameters params) ↔
        ∃ left ∈ exhaustive.map (·.parameters), SameParameters left params := by
      simp only [List.mem_map, exists_exists_and_eq_and]
    rw [hleft, hmap, houtcomes]
    simp only [List.mem_filter, and_assoc]
  rw [← hreturns]
  constructor
  · rintro ⟨exhaustive, hexhaustive, hcandidate⟩
    exact ⟨⟨exhaustive, hexhaustive⟩, (hmem exhaustive hexhaustive).mp hcandidate⟩
  · rintro ⟨⟨exhaustive, hexhaustive⟩, hleft⟩
    exact ⟨exhaustive, hexhaustive, (hmem exhaustive hexhaustive).mpr hleft⟩

/-! ### Refinement and alignment -/

theorem coarseToFine_eq (hne : parents ≠ []) (hwidth : 0 ≤ width) (limit : Option Int) :
    coarseToFine text generator space parents width limit = (do
      let refined ← refineParents text generator space width parents []
      islice (dedupeCandidates refined) limit) := by
  rw [coarseToFine, if_neg (by omega), if_neg (by simpa using hne)]

/-- What refinement keeps is equal to whatever passes near a parent, and nothing else. -/
theorem exists_refined_iff {refined : List Candidate}
    (h : refineParents text generator space width parents [] = .ok refined) :
    (∃ candidate ∈ dedupeCandidates refined, SameParameters candidate.parameters params) ↔
      ∃ parent ∈ parents, ∃ left ∈ nearOutcomes space width parent,
        accepted text generator space left = true ∧ SameParameters left params := by
  have hmap := (refineParents_spec parents []).2 refined h
  rw [List.map_nil, List.nil_append] at hmap
  have hleft : ∀ left, left ∈ refined.map (·.parameters) ↔
      ∃ parent ∈ parents, left ∈ nearOutcomes space width parent ∧
        accepted text generator space left = true := by
    intro left
    rw [hmap, List.mem_filter, List.mem_flatMap]
    constructor
    · rintro ⟨⟨parent, hparent, hnear⟩, haccepted⟩
      exact ⟨parent, hparent, hnear, haccepted⟩
    · rintro ⟨parent, hparent, hnear, haccepted⟩
      exact ⟨⟨parent, hparent, hnear⟩, haccepted⟩
  constructor
  · rintro ⟨candidate, hcandidate, hsame⟩
    have hmem := List.mem_map_of_mem (f := (·.parameters)) (firsts_sublist.subset hcandidate)
    obtain ⟨parent, hparent, hnear, haccepted⟩ := (hleft _).mp hmem
    exact ⟨parent, hparent, _, hnear, haccepted, hsame⟩
  · rintro ⟨parent, hparent, left, hnear, haccepted, hsame⟩
    obtain ⟨candidate, hcandidate, rfl⟩ :=
      List.mem_map.mp ((hleft left).mpr ⟨parent, hparent, hnear, haccepted⟩)
    obtain ⟨kept, hkept, hequal⟩ := exists_mem_dedupeCandidates hcandidate
    exact ⟨kept, hkept, hequal.trans hsame⟩

theorem hasDomains_of_generated (hvalid : validateParameterSpace space = .ok ())
    (hgenerate : generateExhaustive text generator space = .ok candidates)
    (hparents : ∀ parent ∈ parents, parent ∈ candidates) (hparent : parent ∈ parents) :
    HasDomains space width parent ↔
      ∀ name ∈ parameterNames space, parent.parameters.get? name ≠ none :=
  hasDomains_iff (names_nodup_of_validate hvalid)
    (mem_generateExhaustive hvalid hgenerate (hparents parent hparent)).1

/-- Where no limit is given, what refinement of generated parents should return aligns them with the
grid. -/
theorem Refines.aligned (h : Refines text generator space parents width none)
    (hvalid : validateParameterSpace space = .ok ())
    (hgenerate : generateExhaustive text generator space = .ok candidates)
    (hparents : ∀ parent ∈ parents, parent ∈ candidates) (hwidth : 0 ≤ width) (hne : parents ≠ []) :
    Aligned text generator space parents width := by
  obtain ⟨sliced, hrefined, -, hproduced, hkept⟩ := h
  rw [coarseToFine_eq hne hwidth] at hrefined
  obtain ⟨refined, hall, hsliced⟩ := except_bind_eq_ok.mp hrefined
  obtain rfl := Except.ok.inj hsliced
  have hreturns := (refineParents_spec parents []).1.mp ⟨refined, hall⟩
  have hgrid : ∀ candidate ∈ dedupeCandidates refined,
      ∃ left ∈ outcomes space, accepted text generator space left = true ∧
        SameParameters left candidate.parameters :=
    fun candidate hcandidate => ((produced_iff hvalid).mp (hproduced candidate hcandidate)).2
  refine ⟨?_, ?_, ?_, ?_, ?_⟩
  · obtain ⟨parent, hparent⟩ := List.exists_mem_of_ne_nil _ hne
    obtain ⟨candidate, hcandidate, -⟩ := hkept rfl parent hparent
    exact ((produced_iff hvalid).mp (hproduced candidate hcandidate)).1
  · exact fun parent hparent => (hreturns parent hparent).2
  · exact fun parent hparent => (hasDomains_of_generated hvalid hgenerate hparents hparent).mp
      (hreturns parent hparent).1
  · intro parent hparent params hnear haccepted
    obtain ⟨candidate, hcandidate, hsame⟩ := (exists_refined_iff hall).mpr
      ⟨parent, hparent, params, hnear, haccepted, .refl params⟩
    obtain ⟨left, hleft, hpasses, hequal⟩ := hgrid candidate hcandidate
    exact ⟨left, hleft, hpasses, hequal.trans hsame⟩
  · exact fun parent hparent => (exists_refined_iff hall).mp (hkept rfl parent hparent)

theorem Aligned.refines (h : Aligned text generator space parents width)
    (hvalid : validateParameterSpace space = .ok ())
    (hgenerate : generateExhaustive text generator space = .ok candidates)
    (hparents : ∀ parent ∈ parents, parent ∈ candidates) (hwidth : 0 ≤ width) (hne : parents ≠ [])
    {limit : Option Int} (hlimit : Slices limit) :
    Refines text generator space parents width limit := by
  obtain ⟨refined, hall⟩ := (refineParents_spec parents []).1.mpr fun parent hparent =>
    ⟨(hasDomains_of_generated hvalid hgenerate hparents hparent).mpr (h.complete parent hparent),
      h.near parent hparent⟩
  obtain ⟨sliced, hsliced, hsub, heq⟩ := exists_islice hlimit (dedupeCandidates refined)
  refine ⟨sliced, ?_, (pairwise_dedupeCandidates refined).sublist hsub, ?_, ?_⟩
  · rw [coarseToFine_eq hne hwidth, hall, except_ok_bind, hsliced]
  · intro candidate hcandidate
    obtain ⟨parent, hparent, params, hparams, haccepted, hsame⟩ :=
      (exists_refined_iff hall).mp ⟨candidate, hsub.subset hcandidate, .refl _⟩
    obtain ⟨left, hleft, hpasses, hequal⟩ := h.produced parent hparent params hparams haccepted
    exact (produced_iff hvalid).mpr ⟨h.grid, left, hleft, hpasses, hequal.trans hsame⟩
  · intro hnone parent hparent
    rw [heq hnone]
    exact (exists_refined_iff hall).mpr (h.kept parent hparent)

/-- Refinement of generated parents is as it should be, at every limit that slices, exactly where
there are none or they are aligned with the grid. -/
theorem refines_iff_aligned (hvalid : validateParameterSpace space = .ok ())
    (hgenerate : generateExhaustive text generator space = .ok candidates)
    (hparents : ∀ parent ∈ parents, parent ∈ candidates) (hwidth : 0 ≤ width) :
    (∀ limit, Slices limit → Refines text generator space parents width limit) ↔
      parents = [] ∨ Aligned text generator space parents width := by
  rcases eq_or_ne parents [] with rfl | hne
  · refine iff_of_true (fun limit _ => ⟨[], ?_, List.Pairwise.nil, ?_, ?_⟩) (.inl rfl)
    · rw [coarseToFine, if_neg (by omega)]
      rfl
    · exact fun _ hmem => absurd hmem List.not_mem_nil
    · exact fun _ _ hmem => absurd hmem List.not_mem_nil
  rw [or_iff_right hne]
  exact ⟨fun h => (h none fun _ hstop => by cases hstop).aligned hvalid hgenerate hparents hwidth hne,
    fun h _ hlimit => h.refines hvalid hgenerate hparents hwidth hne hlimit⟩

end OptionResearch.ParameterSpaceGenerator
