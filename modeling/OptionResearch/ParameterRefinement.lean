import OptionResearch.FirstOccurrences
import OptionResearch.ParameterEquality

/-!
# Refinement around chosen candidates

`ParameterSpaceGenerator.coarse_to_fine` of `parameter_space.py`: around each parent the product of
the domains near its values, less what the rules take out; of equal parameters the first ones stay.
-/

namespace OptionResearch

/-- The integer that passes `isinstance(value, int)`; a `bool` is one, too. -/
def ParameterValue.int? : ParameterValue → Option Int
  | .int n => some n
  | .bool b => some (if b then 1 else 0)
  | _ => none

/-- `islice(items, stop)`. -/
def islice {α : Type} (items : List α) : Option Int → Except Exc (List α)
  | none => .ok items
  | some stop =>
    if 0 ≤ stop ∧ stop ≤ 9223372036854775807 then .ok (items.take stop.toNat)
    else .error ⟨.valueError,
      "Stop argument for islice() must be None or an integer: 0 <= x <= sys.maxsize."⟩

namespace ParameterDefinition

/-- The values near a parent's value, `_local_domain`. -/
def localDomain (parent : ParameterValue) (width : Int) :
    ParameterDefinition → Except Exc (List ParameterValue)
  | .integerRange _ minimum maximum step =>
    match parent.int? with
    | none => .error ⟨.other "AssertionError", ""⟩
    | some parentValue =>
      let low := max minimum (parentValue - step * width)
      let high := min maximum (parentValue + step * width)
      .ok ((rangeUp low (high + 1) step).map .int)
  | .floatRange _ minimum maximum step precision =>
    match parent with
    | .float parentValue =>
      let low := max minimum (parentValue - step * width)
      let high := min maximum (parentValue + step * width)
      let steps := roundHalfEven ((high - low) / step)
      .ok ((List.range (steps + 1).toNat).map fun (i : Nat) =>
        .float (roundTo (low + i * step) precision))
    | _ => .error ⟨.other "AssertionError", ""⟩
  | .categorical _ choices => .ok (choices.map .str)
  | .boolean _ => .ok [.bool false, .bool true]
  | .orderedDiscrete _ values =>
    match values.findIdx? (·.equals parent) with
    | none => .ok values
    | some idx =>
      let low := max 0 (idx - width)
      let high := min ((values.length : Int) - 1) (idx + width)
      .ok ((values.take (high + 1).toNat).drop low.toNat)

end ParameterDefinition

namespace ParameterSpaceGenerator

variable (text : PyText) (generator : ParameterSpaceGenerator) (space : ParameterSpace)

/-- `{param.name: param for param in space.parameters}`. -/
def parameterMap : InsertionDict String ParameterDefinition :=
  .ofEntries (space.parameters.map fun param => (param.name, param))

def keyError (key : String) : Exc := ⟨.other "KeyError", s!"'{key}'"⟩

/-- The domain of a key near a parent. -/
def parentDomain (parent : Candidate) (width : Int) (key : String) :
    Except Exc (List ParameterValue) :=
  match (parameterMap space).get? key with
  | none => .error (keyError key)
  | some param =>
    match parent.parameters.get? key with
    | none => .error (keyError key)
    | some value => param.localDomain value width

/-- `f"ref-{len(refined) + 1:07d}"`. -/
def refinementId (refined : Nat) : String := "ref-" ++ Date.digits 7 (refined + 1)

/-- The loop over the combinations near one parent. -/
def refineFrom (keys : List String) :
    List (List ParameterValue) → List Candidate → Except Exc (List Candidate)
  | [], refined => .ok refined
  | combo :: rest, refined => do
    let filtered := applyConditionals space (parametersOf keys combo)
    if ← passesRules text generator space filtered then
      refineFrom keys rest (refined ++ [⟨refinementId refined.length, filtered⟩])
    else refineFrom keys rest refined

/-- The loop over the parents. -/
def refineParents (width : Int) : List Candidate → List Candidate → Except Exc (List Candidate)
  | [], refined => .ok refined
  | parent :: rest, refined => do
    let domains ← (parameterNames space).mapM (parentDomain space parent width)
    let refined ← refineFrom text generator space (parameterNames space) (product domains) refined
    refineParents width rest refined

/-- `tuple(sorted(parameters.items()))`, up to `==`. -/
def itemsKey (params : Parameters) : List (String × (ℚ ⊕ ParameterValue)) :=
  (StableSort.sortBy Prod.fst params.entries).map fun entry => (entry.1, entry.2.canonical)

/-- `_dedupe_candidates`. -/
def dedupeCandidates (candidates : List Candidate) : List Candidate :=
  FirstOccurrences.firsts (fun item => itemsKey item.parameters) candidates

def coarseToFine (topCandidates : List Candidate) (refinementWidth : Int)
    (candidateLimit : Option Int) : Except Exc (List Candidate) :=
  if refinementWidth < 0 then
    .error ⟨.other "CandidateGenerationError", "refinement_width must be non-negative"⟩
  else if topCandidates.isEmpty then .ok []
  else do
    let refined ← refineParents text generator space refinementWidth topCandidates []
    islice (dedupeCandidates refined) candidateLimit

end ParameterSpaceGenerator
end OptionResearch
