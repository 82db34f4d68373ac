import OptionResearch.ParameterSpaces

/-!
# Parameters that compare equal

Two values are equal where they are the same number, whatever their types, or the same text, and two
dictionaries where they hold equal values under the same names. Conditions, dependencies and
forbidden combinations do not tell equal parameters apart.
-/

namespace OptionResearch

namespace ParameterValue

/-- What values compare by. -/
def canonical (value : ParameterValue) : ℚ ⊕ ParameterValue :=
  match value.number? with
  | some q => .inl q
  | none => .inr value

theorem equals_iff {value other : ParameterValue} :
    value.equals other = true ↔ value.canonical = other.canonical := by
  rw [equals, canonical, canonical]
  cases value.number? <;> cases other.number? <;> simp

theorem equals_congr {value other : ParameterValue} (h : value.canonical = other.canonical)
    (third : ParameterValue) : value.equals third = other.equals third := by
  rw [Bool.eq_iff_iff, equals_iff, equals_iff, h]

theorem equals_congr_right {value other : ParameterValue} (h : value.canonical = other.canonical)
    (third : ParameterValue) : third.equals value = third.equals other := by
  rw [Bool.eq_iff_iff, equals_iff, equals_iff, h]

/-- Equal values are read as the same `float`. -/
theorem float_congr {value other : ParameterValue} (h : value.canonical = other.canonical)
    (text : PyText) : text.float value.toPyValue = text.float other.toPyValue := by
  have hread : ∀ (value : ParameterValue) (q : ℚ), value.number? = some q →
      text.float value.toPyValue = .ok q := by
    intro value q hq
    cases value with
    | str s => cases hq
    | _ =>
      obtain rfl := Option.some.inj hq
      rfl
  unfold canonical at h
  cases hleft : value.number? with
  | none =>
    cases hright : other.number? with
    | none =>
      rw [hleft, hright] at h
      rw [Sum.inr.inj h]
    | some r =>
      rw [hleft, hright] at h
      cases h
  | some q =>
    cases hright : other.number? with
    | none =>
      rw [hleft, hright] at h
      cases h
    | some r =>
      rw [hleft, hright] at h
      rw [hread value q hleft, hread other r hright, Sum.inl.inj h]

end ParameterValue

/-- The dictionaries are equal: they have the same keys, with equal values. -/
def SameParameters (left right : Parameters) : Prop :=
  ∀ name, (left.get? name).map ParameterValue.canonical =
    (right.get? name).map ParameterValue.canonical

variable {left right third : Parameters}

theorem SameParameters.refl (params : Parameters) : SameParameters params params := fun _ => rfl

theorem SameParameters.symm (h : SameParameters left right) : SameParameters right left :=
  fun name => (h name).symm

theorem SameParameters.trans (h : SameParameters left right) (h' : SameParameters right third) :
    SameParameters left third := fun name => (h name).trans (h' name)

theorem SameParameters.of_get? (h : ∀ name, left.get? name = right.get? name) :
    SameParameters left right := fun name => by rw [h]

theorem SameParameters.get?_eq_none_iff (h : SameParameters left right) {name : String} :
    left.get? name = none ↔ right.get? name = none := by
  rw [← Option.map_eq_none_iff (f := ParameterValue.canonical), h name, Option.map_eq_none_iff]

/-- Under a name that one dictionary has, the other has an equal value. -/
theorem SameParameters.get?_eq_some (h : SameParameters left right) {name : String}
    {value : ParameterValue} (hvalue : left.get? name = some value) :
    ∃ other, right.get? name = some other ∧ other.canonical = value.canonical := by
  have hname := h name
  rw [hvalue] at hname
  exact Option.map_eq_some_iff.mp hname.symm

namespace ParameterSpaceGenerator

/-- The conditional leaves the parameters as they are. -/
def Holds (conditional : ConditionalParameterRule) (params : Parameters) : Bool :=
  (params.get? conditional.dependsOn).any fun value => conditional.allowedValues.any value.equals

/-- A test that does not tell equal values apart gives the same result on equal dictionaries. -/
theorem any_congr {test : ParameterValue → Bool}
    (htest : ∀ value other : ParameterValue, value.canonical = other.canonical →
      test value = test other) {left right : Option ParameterValue}
    (h : left.map ParameterValue.canonical = right.map ParameterValue.canonical) :
    left.any test = right.any test := by
  cases left with
  | none => rw [Option.map_eq_none_iff.mp h.symm]
  | some value =>
    obtain ⟨other, rfl, hcanonical⟩ := Option.map_eq_some_iff.mp h.symm
    exact htest value other hcanonical.symm

theorem holds_congr (h : SameParameters left right) (conditional : ConditionalParameterRule) :
    Holds conditional left = Holds conditional right := by
  refine any_congr (fun value other hcanonical => ?_) (h _)
  apply congrArg (conditional.allowedValues.any ·)
  funext allowed
  exact ParameterValue.equals_congr hcanonical allowed

theorem compareFloats_congr {text : PyText} {test : ℚ → ℚ → Bool}
    {left right left' right' : ParameterValue} (hleft : left.canonical = left'.canonical)
    (hright : right.canonical = right'.canonical) :
    compareFloats text test left right = compareFloats text test left' right' := by
  unfold compareFloats
  rw [ParameterValue.float_congr hleft, ParameterValue.float_congr hright]

theorem satisfies_congr {text : PyText} {operator : String}
    {left right left' right' : ParameterValue} (hleft : left.canonical = left'.canonical)
    (hright : right.canonical = right'.canonical) :
    satisfies text operator left right = satisfies text operator left' right' := by
  have hequals : left.equals right = left'.equals right' :=
    (ParameterValue.equals_congr hleft right).trans (ParameterValue.equals_congr_right hright left')
  unfold satisfies
  rw [compareFloats_congr hleft hright, compareFloats_congr hleft hright,
    compareFloats_congr hleft hright, compareFloats_congr hleft hright, hequals]

theorem passesDependencies_congr (h : SameParameters left right) (text : PyText)
    (rules : List DependentParameterRule) :
    passesDependencies text left rules = passesDependencies text right rules := by
  induction rules with
  | nil => rfl
  | cons rule rest ih =>
    unfold passesDependencies
    cases hl : left.get? rule.leftParameter with
    | none => rw [h.get?_eq_none_iff.mp hl]
    | some value =>
      obtain ⟨value', hl', hvalue⟩ := h.get?_eq_some hl
      rw [hl']
      cases hr : left.get? rule.rightParameter with
      | none => rw [h.get?_eq_none_iff.mp hr]
      | some other =>
        obtain ⟨other', hr', hother⟩ := h.get?_eq_some hr
        rw [hr']
        dsimp only
        rw [satisfies_congr hvalue.symm hother.symm, ih]

theorem forbiddenReason_congr (h : SameParameters left right)
    (rules : List ForbiddenParameterCombination) :
    forbiddenReason rules left = forbiddenReason rules right := by
  unfold forbiddenReason
  congr 2
  funext rule
  congr 1
  funext entry
  exact any_congr (fun value other hcanonical => ParameterValue.equals_congr hcanonical _) (h _)

end ParameterSpaceGenerator
end OptionResearch
