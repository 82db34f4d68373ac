import OptionResearch.RoundedNumbers
import OptionResearch.OptimizationModels
import OptionResearch.PartialEffects
import OptionResearch.StableSort
import Mathlib.Data.String.Basic

/-!
# Parameter spaces

`ParameterSpaceGenerator.generate_exhaustive` of `parameter_space.py`: the product of the domains in
the order of the parameters' names, less what the rules across parameters take out.
-/

namespace OptionResearch

/-- A rule by name: whether the parameters pass it, and why not. It may raise. -/
abbrev CustomRuleEvaluator := String → Parameters → Except Exc (Bool × Option String)

structure ParameterSpaceGenerator where
  customRuleEvaluator : Option CustomRuleEvaluator := none

/-- `range(start, stop, step)` for a positive step. -/
def rangeUp (start stop step : Int) : List Int :=
  (List.range ((stop - start + step - 1) / step).toNat).map fun i => start + i * step

namespace ParameterDefinition

/-- The values of a parameter, `_domain_for_param`. -/
def domain : ParameterDefinition → List ParameterValue
  | .integerRange _ minimum maximum step => (rangeUp minimum (maximum + 1) step).map .int
  | .floatRange _ minimum maximum step precision =>
    (List.range (roundHalfEven ((maximum - minimum) / step) + 1).toNat).map fun i =>
      .float (roundTo (minimum + i * step) precision)
  | .categorical _ choices => choices.map .str
  | .boolean _ => [.bool false, .bool true]
  | .orderedDiscrete _ values => values

/-- `OptimizationValidationError(message)`. -/
def invalid (message : String) : Except Exc Unit :=
  .error ⟨.other "OptimizationValidationError", message⟩

/-- The check of a range's bounds. -/
def assertRange {α : Type} [Zero α] [LE α] [LT α] [DecidableLE α] [DecidableLT α] (name : String)
    (minimum maximum step : α) : Except Exc Unit :=
  if step ≤ 0 then invalid s!"parameter '{name}' step must be > 0"
  else if maximum < minimum then invalid s!"parameter '{name}' minimum must be <= maximum"
  else .ok ()

def validate : ParameterDefinition → Except Exc Unit
  | .integerRange name minimum maximum step => assertRange name minimum maximum step
  | .floatRange name minimum maximum step _ => assertRange name minimum maximum step
  | .categorical name choices =>
    if choices.isEmpty then invalid s!"parameter '{name}' requires at least one categorical choice"
    else .ok ()
  | .boolean _ => .ok ()
  | .orderedDiscrete name values =>
    if values.isEmpty then invalid s!"parameter '{name}' requires at least one ordered value"
    else .ok ()

end ParameterDefinition

/-- `itertools.product(*domains)`. -/
def product {α : Type} : List (List α) → List (List α)
  | [] => [[]]
  | domain :: rest => domain.flatMap fun value => (product rest).map (value :: ·)

/-- `{key: value for key, value in zip(keys, combo)}`. -/
def parametersOf (keys : List String) (combo : List ParameterValue) : Parameters :=
  (keys.zip combo).foldl (fun params entry => params.set entry.1 entry.2) .empty

namespace ParameterSpaceGenerator

def validateParameterSpace (space : ParameterSpace) : Except Exc Unit := do
  let names := space.parameters.map (·.name)
  if ¬ names.Nodup then ParameterDefinition.invalid "parameter names must be unique"
  else space.parameters.forM (·.validate)

def domainForParam (space : ParameterSpace) (name : String) : Except Exc (List ParameterValue) :=
  match space.parameters.find? (·.name == name) with
  | some param => .ok param.domain
  | none => .error ⟨.other "CandidateGenerationError", s!"parameter '{name}' not found"⟩

/-- A parameter whose condition does not hold is dropped. -/
def applyConditionals (space : ParameterSpace) (params : Parameters) : Parameters :=
  space.conditionals.foldl (fun filtered conditional =>
    if (filtered.get? conditional.dependsOn).any fun value =>
        conditional.allowedValues.any value.equals then filtered
    else filtered.pop conditional.parameter) params

/-- `float(left)` and `float(right)`, compared. -/
def compareFloats (text : PyText) (test : ℚ → ℚ → Bool) (left right : ParameterValue) :
    Except Exc Bool := do
  let leftFloat ← text.float left.toPyValue
  let rightFloat ← text.float right.toPyValue
  return test leftFloat rightFloat

/-- Whether two values satisfy the operator of a rule; one that is not known is satisfied. -/
def satisfies (text : PyText) (operator : String) (left right : ParameterValue) : Except Exc Bool :=
  if operator = "<" then compareFloats text (fun l r => decide (l < r)) left right
  else if operator = "<=" then compareFloats text (fun l r => decide (l ≤ r)) left right
  else if operator = ">" then compareFloats text (fun l r => decide (r < l)) left right
  else if operator = ">=" then compareFloats text (fun l r => decide (r ≤ l)) left right
  else if operator = "==" then .ok (left.equals right)
  else .ok true

def passesDependencies (text : PyText) (params : Parameters) :
    List DependentParameterRule → Except Exc Bool
  | [] => .ok true
  | rule :: rest =>
    match params.get? rule.leftParameter, params.get? rule.rightParameter with
    | some left, some right => do
      if ← satisfies text rule.operator left right then passesDependencies text params rest
      else return false
    | _, _ => .ok false

def forbiddenReason (rules : List ForbiddenParameterCombination) (params : Parameters) :
    Option String :=
  (rules.find? fun rule => rule.values.all fun entry =>
    (params.get? entry.1).any fun value => value.equals entry.2).map (·.reason)

/-- `_passes_custom_rules`, for the rules by name. -/
def passesCustomRules (generator : ParameterSpaceGenerator) (params : Parameters) :
    List String → Except Exc Bool
  | [] => .ok true
  | rule :: rest =>
    match generator.customRuleEvaluator with
    | none => .ok true
    | some evaluate => do
      let (passed, _) ← evaluate rule params
      if passed then passesCustomRules generator params rest else return false

variable (text : PyText) (generator : ParameterSpaceGenerator) (space : ParameterSpace)

/-- The rules that turn parameters down. -/
def passesRules (params : Parameters) : Except Exc Bool := do
  if ← passesDependencies text params space.dependencies then
    if (forbiddenReason space.forbiddenCombinations params).isSome then return false
    else passesCustomRules generator params space.customRules
  else return false

/-- `f"cand-{index:07d}"`. -/
def candidateId (index : Nat) : String := "cand-" ++ Date.digits 7 index

/-- The loop of `generate_exhaustive`, from the combination of that index on. -/
def generateFrom (keys : List String) :
    Nat → List (List ParameterValue) → List Candidate → Except Exc (List Candidate)
  | _, [], generated => .ok generated
  | index, combo :: rest, generated => do
    let filtered := applyConditionals space (parametersOf keys combo)
    if ← passesRules text generator space filtered then
      let generated := generated ++ [⟨candidateId index, filtered⟩]
      if space.maxCandidates.any fun limit => limit ≤ generated.length then return generated
      else generateFrom keys (index + 1) rest generated
    else generateFrom keys (index + 1) rest generated

def parameterNames : List String := StableSort.sortBy id (space.parameters.map (·.name))

def generateExhaustive : Except Exc (List Candidate) := do
  validateParameterSpace space
  let keys := parameterNames space
  let domains ← keys.mapM (domainForParam space)
  generateFrom text generator space keys 1 (product domains) []

/-! ### Candidate ids -/

variable {text generator space}

theorem candidateId_injective : Function.Injective candidateId := by
  intro index other h
  exact Date.digits_injective 7 ((String.append_right_inj "cand-").mp h)

/-- The ids are distinct, and those of combinations before `index`. -/
def NumberedBelow (index : Nat) (generated : List Candidate) : Prop :=
  (generated.map (·.candidateId)).Nodup ∧
    ∀ candidate ∈ generated, ∃ i < index, candidate.candidateId = candidateId i

theorem NumberedBelow.mono {index : Nat} {generated : List Candidate}
    (h : NumberedBelow index generated) : NumberedBelow (index + 1) generated := by
  refine ⟨h.1, fun candidate hmem => ?_⟩
  obtain ⟨i, hi, hid⟩ := h.2 candidate hmem
  exact ⟨i, Nat.lt_succ_of_lt hi, hid⟩

theorem NumberedBelow.append {index : Nat} {generated : List Candidate}
    (h : NumberedBelow index generated) (params : Parameters) :
    NumberedBelow (index + 1) (generated ++ [⟨candidateId index, params⟩]) := by
  constructor
  · rw [List.map_append, List.map_singleton]
    apply h.1.append (List.nodup_singleton _)
    rw [List.disjoint_singleton]
    intro hmem
    obtain ⟨candidate, hcandidate, hid⟩ := List.mem_map.mp hmem
    obtain ⟨i, hi, hid'⟩ := h.2 candidate hcandidate
    exact hi.ne (candidateId_injective (hid'.symm.trans hid))
  · intro candidate hmem
    rcases List.mem_append.mp hmem with hold | hnew
    · obtain ⟨i, hi, hid⟩ := h.2 candidate hold
      exact ⟨i, Nat.lt_succ_of_lt hi, hid⟩
    · obtain rfl := List.mem_singleton.mp hnew
      exact ⟨index, Nat.lt_succ_self index, rfl⟩

theorem generateFrom_numbered {keys : List String} {index : Nat}
    {combos : List (List ParameterValue)} {generated candidates : List Candidate}
    (h : generateFrom text generator space keys index combos generated = .ok candidates)
    (hgenerated : NumberedBelow index generated) : ∃ last, NumberedBelow last candidates := by
  induction combos generalizing index generated with
  | nil =>
    cases h
    exact ⟨index, hgenerated⟩
  | cons combo rest ih =>
    obtain ⟨passed, _, h⟩ := except_bind_eq_ok.mp h
    have happended := hgenerated.append (applyConditionals space (parametersOf keys combo))
    cases passed with
    | false => exact ih h hgenerated.mono
    | true =>
      rw [if_pos rfl] at h
      dsimp only at h
      split_ifs at h
      · cases h
        exact ⟨index + 1, happended⟩
      · exact ih h happended

/-- No two candidates have one id, and the ids are numbered ones. -/
theorem generateExhaustive_numbered {candidates : List Candidate}
    (h : generateExhaustive text generator space = .ok candidates) :
    (candidates.map (·.candidateId)).Nodup ∧
      ∀ candidate ∈ candidates, ∃ index, candidate.candidateId = candidateId index := by
  obtain ⟨_, _, h⟩ := except_bind_eq_ok.mp h
  obtain ⟨domains, _, h⟩ := except_bind_eq_ok.mp h
  obtain ⟨last, hnodup, hbelow⟩ :=
    generateFrom_numbered h ⟨List.nodup_nil, fun _ hmem => absurd hmem List.not_mem_nil⟩
  refine ⟨hnodup, fun candidate hmem => ?_⟩
  obtain ⟨index, _, hindex⟩ := hbelow candidate hmem
  exact ⟨index, hindex⟩

end ParameterSpaceGenerator
end OptionResearch
