import OptionResearch.CacheManager

/-!
# Values that went through JSON

`json.loads(json.dumps(value))` of values that JSON can write: tuples come back as lists. And what a
loader reads of such a value: members of enumerations by their texts, and the keywords of a
constructor.
-/

namespace OptionResearch

namespace PyValue

mutual

/-- JSON has no text of a time. -/
def representable : PyValue → Bool
  | .datetime _ => false
  | .list items => representableItems items
  | .tuple items => representableItems items
  | .dict entries => representableEntries entries
  | _ => true

def representableItems : List PyValue → Bool
  | [] => true
  | item :: rest => item.representable && representableItems rest

def representableEntries : List (String × PyValue) → Bool
  | [] => true
  | (_, value) :: rest => value.representable && representableEntries rest

end

mutual

/-- What is read of the text that was written. -/
def jsonNormal : PyValue → PyValue
  | .list items => .list (jsonNormalItems items)
  | .tuple items => .list (jsonNormalItems items)
  | .dict entries => .dict (jsonNormalEntries entries)
  | value => value

def jsonNormalItems : List PyValue → List PyValue
  | [] => []
  | item :: rest => item.jsonNormal :: jsonNormalItems rest

def jsonNormalEntries : List (String × PyValue) → List (String × PyValue)
  | [] => []
  | (key, value) :: rest => (key, value.jsonNormal) :: jsonNormalEntries rest

end

/-- `json.loads(json.dumps(value))`. -/
def jsonRoundTrip (value : PyValue) : Except Exc PyValue :=
  if value.representable then .ok value.jsonNormal
  else .error ⟨.typeError, "Object of type datetime is not JSON serializable"⟩

/-- `value.get(key, default)`. -/
def getKey (value : PyValue) (key : String) (default : PyValue) : Except Exc PyValue := do
  return Payload.get (← value.asDict) key default

/-- The keywords of `Class(**value)`, where the class has the parameters. -/
def keywords (className : String) (parameters : List String) (value : PyValue) :
    Except Exc Payload :=
  match value with
  | .dict entries =>
    match entries.find? fun entry => !parameters.contains entry.1 with
    | some entry => .error ⟨.typeError,
        s!"{className}.__init__() got an unexpected keyword argument '{entry.1}'"⟩
    | Option.none => .ok entries
  | value => .error ⟨.typeError,
      s!"argument after ** must be a mapping, not {value.typeName}"⟩

@[simp] theorem jsonNormal_tuple (items : List PyValue) :
    jsonNormal (.tuple items) = .list (jsonNormalItems items) := rfl

@[simp] theorem jsonNormal_dict (entries : Payload) :
    jsonNormal (.dict entries) = .dict (jsonNormalEntries entries) := rfl

@[simp] theorem jsonNormal_str (s : String) : jsonNormal (.str s) = .str s := rfl

@[simp] theorem jsonNormal_int (n : Int) : jsonNormal (.int n) = .int n := rfl

@[simp] theorem jsonNormal_bool (b : Bool) : jsonNormal (.bool b) = .bool b := rfl

@[simp] theorem jsonNormalEntries_nil : jsonNormalEntries [] = [] := rfl

@[simp] theorem jsonNormalEntries_cons (key : String) (value : PyValue) (rest : Payload) :
    jsonNormalEntries ((key, value) :: rest) =
      (key, value.jsonNormal) :: jsonNormalEntries rest := rfl

@[simp] theorem jsonNormalItems_eq_map (items : List PyValue) :
    jsonNormalItems items = items.map jsonNormal := by
  induction items with
  | nil => rfl
  | cons item rest ih =>
    change item.jsonNormal :: jsonNormalItems rest = _
    rw [ih, List.map_cons]

@[simp] theorem representableItems_eq_all (items : List PyValue) :
    representableItems items = items.all representable := by
  induction items with
  | nil => rfl
  | cons item rest ih =>
    change (item.representable && representableItems rest) = _
    rw [ih, List.all_cons]

@[simp] theorem representable_str (s : String) : representable (.str s) = true := rfl

@[simp] theorem representable_int (n : Int) : representable (.int n) = true := rfl

@[simp] theorem representable_bool (b : Bool) : representable (.bool b) = true := rfl

@[simp] theorem representable_none : representable .none = true := rfl

@[simp] theorem representable_tuple (items : List PyValue) :
    representable (.tuple items) = items.all representable :=
  representableItems_eq_all items

@[simp] theorem representable_dict (entries : Payload) :
    representable (.dict entries) = representableEntries entries := rfl

@[simp] theorem representableEntries_nil : representableEntries [] = true := rfl

@[simp] theorem representableEntries_cons (key : String) (value : PyValue) (rest : Payload) :
    representableEntries ((key, value) :: rest) =
      (value.representable && representableEntries rest) := rfl

theorem jsonRoundTrip_eq_ok {value : PyValue} (h : value.representable = true) :
    value.jsonRoundTrip = .ok value.jsonNormal := if_pos h

/-! ### Values of declared types -/

/-- `str`. -/
inductive IsText : PyValue → Prop
  | str (s : String) : IsText (.str s)

/-- `int`. -/
inductive IsInteger : PyValue → Prop
  | int (n : Int) : IsInteger (.int n)

/-- `float`, which an `int` may stand for. -/
inductive IsNumber : PyValue → Prop
  | int (n : Int) : IsNumber (.int n)
  | float (q : ℚ) : IsNumber (.float q)

/-- `T | None`. -/
inductive IsOptional (T : PyValue → Prop) : PyValue → Prop
  | none : IsOptional T .none
  | some {value : PyValue} (h : T value) : IsOptional T value

/-- `tuple[T, ...]`. -/
inductive IsTupleOf (T : PyValue → Prop) : PyValue → Prop
  | tuple {items : List PyValue} (h : ∀ item ∈ items, T item) : IsTupleOf T (.tuple items)

/-- `tuple[T, T]`. -/
inductive IsPairOf (T : PyValue → Prop) : PyValue → Prop
  | pair {first second : PyValue} (hfirst : T first) (hsecond : T second) :
    IsPairOf T (.tuple [first, second])

theorem IsText.representable {value : PyValue} (h : value.IsText) :
    value.representable = true := by
  obtain ⟨s⟩ := h
  exact representable_str s

theorem IsText.jsonNormal {value : PyValue} (h : value.IsText) : value.jsonNormal = value := by
  obtain ⟨s⟩ := h
  exact jsonNormal_str s

theorem map_jsonNormal_texts {items : List PyValue} (h : ∀ item ∈ items, item.IsText) :
    items.map PyValue.jsonNormal = items :=
  (List.map_congr_left fun item hitem => (h item hitem).jsonNormal).trans (List.map_id' items)

theorem IsInteger.representable {value : PyValue} (h : value.IsInteger) :
    value.representable = true := by
  obtain ⟨n⟩ := h
  rfl

theorem IsNumber.representable {value : PyValue} (h : value.IsNumber) :
    value.representable = true := by
  cases h <;> rfl

theorem IsOptional.representable {T : PyValue → Prop} {value : PyValue} (h : IsOptional T value)
    (hT : ∀ value, T value → value.representable = true) : value.representable = true := by
  cases h with
  | none => rfl
  | some h => exact hT value h

theorem IsOptional.jsonNormal {T : PyValue → Prop} {value : PyValue} (h : IsOptional T value)
    (hT : ∀ value, T value → value.jsonNormal = value) : value.jsonNormal = value := by
  cases h with
  | none => rfl
  | some h => exact hT value h

theorem IsTupleOf.representable {T : PyValue → Prop} {value : PyValue} (h : IsTupleOf T value)
    (hT : ∀ value, T value → value.representable = true) : value.representable = true := by
  obtain ⟨h⟩ := h
  rw [representable_tuple, List.all_eq_true]
  exact fun item hitem => hT item (h item hitem)

theorem IsPairOf.representable {T : PyValue → Prop} {value : PyValue} (h : IsPairOf T value)
    (hT : ∀ value, T value → value.representable = true) : value.representable = true := by
  obtain ⟨hfirst, hsecond⟩ := h
  rw [representable_tuple, List.all_cons, List.all_cons, List.all_nil, hT _ hfirst, hT _ hsecond]
  rfl

/-- A tuple comes back as a list. -/
theorem IsTupleOf.jsonNormal_ne {T : PyValue → Prop} {value : PyValue} (h : IsTupleOf T value) :
    value.jsonNormal ≠ value := by
  obtain ⟨-⟩ := h
  rw [jsonNormal_tuple]
  exact nofun

end PyValue

/-- An enumeration of texts: its members in their order, and the text of each, which finds it. -/
structure PyEnum (E : Type) where
  className : String
  members : List E
  value : E → String
  find_value : ∀ e, members.find? (fun member => value member = value e) = some e

namespace PyEnum

variable {E : Type} (enum : PyEnum E)

/-- `Class(value)`. -/
def parse (text : PyText) (value : PyValue) : Except Exc E :=
  let refusal := ⟨.valueError, s!"{text.repr value} is not a valid {enum.className}"⟩
  match value with
  | .str s =>
    match enum.members.find? fun member => enum.value member = s with
    | some member => .ok member
    | none => .error refusal
  | _ => .error refusal

/-- A member is read off its own text. -/
@[simp] theorem parse_value (text : PyText) (e : E) :
    enum.parse text (.str (enum.value e)) = .ok e := by
  rw [parse, enum.find_value e]

end PyEnum
end OptionResearch
