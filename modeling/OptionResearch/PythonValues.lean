import Mathlib.Algebra.Order.Field.Rat
import Mathlib.Data.Prod.Lex
import Mathlib.Order.Lattice

/-!
# The values the source's modules pass around

Timestamps, exceptions, dynamically typed payloads and the objects a callback hands back. Numbers
the source keeps as `float` are exact rationals here. The texts that only label data (`sha256`
digests, `repr`, `isoformat`) are functions of a `PyText`.
-/

namespace OptionResearch

/-- A `datetime`: a clock reading in microseconds and the UTC offset it was read at, absent when
the value is naive. -/
structure DateTime where
  wall : Int
  utcoffset : Option Int
  deriving DecidableEq, Repr

namespace DateTime

/-- The position on the UTC time line; a naive reading counts as UTC. -/
def instant (t : DateTime) : Int := t.wall - t.utcoffset.getD 0

instance : Preorder DateTime where
  le t u := t.instant ≤ u.instant
  lt t u := t.instant < u.instant
  le_refl t := Int.le_refl t.instant
  le_trans _ _ _ := Int.le_trans
  lt_iff_le_not_ge _ _ := Int.lt_iff_le_and_not_ge

theorem le_iff {t u : DateTime} : t ≤ u ↔ t.instant ≤ u.instant := Iff.rfl

theorem lt_iff {t u : DateTime} : t < u ↔ t.instant < u.instant := Iff.rfl

instance : DecidableLE DateTime := fun t u => inferInstanceAs (Decidable (t.instant ≤ u.instant))

instance : DecidableLT DateTime := fun t u => inferInstanceAs (Decidable (t.instant < u.instant))

theorem not_le_iff {t u : DateTime} : ¬ t ≤ u ↔ u < t := not_le (a := t.instant)

theorem not_lt_iff {t u : DateTime} : ¬ t < u ↔ u ≤ t := not_lt (a := t.instant)

/-- `_ensure_aware`, which every module of the source repeats: a naive value is read as UTC. -/
def ensureAware (t : DateTime) : DateTime :=
  match t.utcoffset with
  | none => { t with utcoffset := some 0 }
  | some _ => t

@[simp] theorem instant_ensureAware (t : DateTime) : t.ensureAware.instant = t.instant := by
  rcases t with ⟨wall, _ | offset⟩ <;> rfl

theorem ensureAware_lt_iff {t u : DateTime} : t.ensureAware < u.ensureAware ↔ t < u := by
  rw [lt_iff, lt_iff, instant_ensureAware, instant_ensureAware]

theorem le_ensureAware_iff {t u : DateTime} : t ≤ u.ensureAware ↔ t ≤ u := by
  rw [le_iff, le_iff, instant_ensureAware]

theorem ensureAware_lt_left_iff {t u : DateTime} : t.ensureAware < u ↔ t < u := by
  rw [lt_iff, lt_iff, instant_ensureAware]

/-- `t + timedelta(days=days)`. -/
def addDays (t : DateTime) (days : Int) : DateTime :=
  { t with wall := t.wall + days * 86400000000 }

@[simp] theorem instant_addDays (t : DateTime) (days : Int) :
    (t.addDays days).instant = t.instant + days * 86400000000 := by
  simp only [addDays, instant]
  omega

end DateTime

/-- A `date` of the calendar. -/
structure Date where
  year : Nat
  month : Nat
  day : Nat
  deriving DecidableEq, Repr

namespace Date

/-- What `date`s compare by. -/
def ordering (date : Date) : ℕ ×ₗ ℕ ×ₗ ℕ := toLex (date.year, toLex (date.month, date.day))

theorem ordering_injective {date other : Date} (h : date.ordering = other.ordering) :
    date = other := by
  cases date
  cases other
  obtain ⟨hyear, hrest⟩ := Prod.mk.inj (toLex.injective h)
  obtain ⟨hmonth, hday⟩ := Prod.mk.inj (toLex.injective hrest)
  exact mk.injEq .. ▸ ⟨hyear, hmonth, hday⟩

/-- A number in at least `width` digits. -/
def digits (width n : Nat) : String := String.ofList (((toString n).toList).leftpad width '0')

/-- Different numbers have different digits, however wide. -/
theorem digits_injective (width : Nat) : Function.Injective (digits width) := by
  have hread : ∀ n, Nat.ofDigitChars 10 (digits width n).toList 0 = n := by
    intro n
    have hdigits : (toString n).toList = Nat.toDigits 10 n := by
      change (Nat.repr n).toList = _
      rw [Nat.repr_eq_ofList_toDigits, String.toList_ofList]
    rw [digits, String.toList_ofList, List.leftpad, hdigits, Nat.ofDigitChars_append,
      Nat.ofDigitChars_replicate_zero, Nat.mul_zero,
      Nat.ofDigitChars_toDigits (by decide) (by decide)]
  intro n m h
  rw [← hread n, h, hread]

def isoformat (date : Date) : String :=
  s!"{digits 4 date.year}-{digits 2 date.month}-{digits 2 date.day}"

end Date

/-- The exception classes the modelled code raises itself, and those a callback may bring. -/
inductive ExcKind where
  | attributeError
  | typeError
  | valueError
  | noLookAheadError
  | eventClockError
  | strategyLifecycleError
  | invalidTransitionError
  | other (name : String)
  deriving DecidableEq, Repr

/-- An exception instance (of a subclass of `Exception`); `message` is its `str`. -/
structure Exc where
  kind : ExcKind
  message : String
  deriving DecidableEq, Repr

/-- `x / y`. -/
def divide {K : Type} [Zero K] [Div K] [DecidableEq K] (x y : K) : Except Exc K :=
  if y = 0 then .error ⟨.other "ZeroDivisionError", "division by zero"⟩ else .ok (x / y)

theorem divide_eq_ok {K : Type} [Zero K] [Div K] [DecidableEq K] {x y : K} (h : y ≠ 0) :
    divide x y = .ok (x / y) := if_neg h

/-- `items[index]`, from the end where the index is negative. -/
def listItem {α : Type} (items : List α) (index : Int) : Except Exc α :=
  let position := if index < 0 then index + items.length else index
  match if position < 0 then none else items[position.toNat]? with
  | some item => .ok item
  | none => .error ⟨.other "IndexError", "list index out of range"⟩

theorem listItem_natCast {α : Type} {items : List α} {i : ℕ} (h : i < items.length) :
    listItem items i = .ok items[i] := by
  have hnonneg : ¬ (i : Int) < 0 := by omega
  rw [listItem, if_neg hnonneg, if_neg hnonneg, Int.toNat_natCast, List.getElem?_eq_getElem h]

/-- A value whose static type is `Any`. -/
inductive PyValue where
  | none
  | bool (b : Bool)
  | int (n : Int)
  | float (q : ℚ)
  | str (s : String)
  | datetime (t : DateTime)
  | list (items : List PyValue)
  | tuple (items : List PyValue)
  | dict (entries : List (String × PyValue))

/-- A `dict[str, Any]`, in insertion order. -/
abbrev Payload := List (String × PyValue)

namespace PyValue

def typeName : PyValue → String
  | .none => "NoneType"
  | .bool _ => "bool"
  | .int _ => "int"
  | .float _ => "float"
  | .str _ => "str"
  | .datetime _ => "datetime.datetime"
  | .list _ => "list"
  | .tuple _ => "tuple"
  | .dict _ => "dict"

/-- `for item in value`. -/
def iter : PyValue → Except Exc (List PyValue)
  | .list items => .ok items
  | .tuple items => .ok items
  | .dict entries => .ok (entries.map fun entry => .str entry.1)
  | .str s => .ok (s.toList.map fun c => .str (String.singleton c))
  | value => .error ⟨.typeError, s!"'{value.typeName}' object is not iterable"⟩

/-- The receiver of `value.get(...)`. -/
def asDict : PyValue → Except Exc Payload
  | .dict entries => .ok entries
  | value => .error ⟨.attributeError, s!"'{value.typeName}' object has no attribute 'get'"⟩

/-- `payload[key] = value`: an existing key keeps its place. -/
def setItem (payload : Payload) (entry : String × PyValue) : Payload :=
  if payload.any (fun e => e.1 == entry.1) then
    payload.map fun e => if e.1 == entry.1 then entry else e
  else payload ++ [entry]

/-- One item of the iterable form of `dict(...)`: any two-element iterable whose first element is
a text, the only keys a `Payload` has. -/
def asPair (item : PyValue) : Except Exc (String × PyValue) := do
  match ← item.iter with
  | [.str key, value] => .ok (key, value)
  | [key, _] => .error ⟨.typeError, s!"unsupported key type: '{key.typeName}'"⟩
  | _ =>
    .error ⟨.valueError, "dictionary update sequence element has the wrong length; 2 is required"⟩

/-- `dict(value)`: a mapping is copied, an iterable of pairs is read as its items. -/
def toDict : PyValue → Except Exc Payload
  | .dict entries => .ok entries
  | value => do
    let items ← value.iter
    let pairs ← items.mapM asPair
    .ok (pairs.foldl setItem [])

/-- `isinstance(value, datetime)` and the value it then is. -/
def datetime? : PyValue → Option DateTime
  | .datetime t => some t
  | _ => Option.none

/-- `isinstance(value, (int, float))` and the number it then is; a `bool` is an `int`. -/
def number? : PyValue → Option ℚ
  | .bool b => some (if b then 1 else 0)
  | .int n => some n
  | .float q => some q
  | _ => Option.none

end PyValue

/-- `payload.get(key, default)`. -/
def Payload.get (payload : Payload) (key : String) (default : PyValue) : PyValue :=
  (payload.lookup key).getD default

namespace Payload

theorem lookup_replace (payload : Payload) (key other : String) (value : PyValue) :
    (payload.map fun e => if e.1 == key then (key, value) else e).lookup other =
      if other = key then (payload.lookup key).map fun _ => value else payload.lookup other := by
  induction payload with
  | nil => split_ifs <;> rfl
  | cons entry rest ih =>
    rcases entry with ⟨k, v⟩
    rw [List.map_cons, List.lookup_cons]
    by_cases hk : k = key
    · subst hk
      rw [if_pos (beq_self_eq_true k), List.lookup_cons, ih]
      by_cases ho : other = k
      · simp [ho]
      · have hne : (other == k) = false := by simpa using ho
        simp [ho, List.lookup_cons, hne]
    · have hkey : (key == k) = false := by simpa using fun h : key = k => hk h.symm
      rw [if_neg (by simpa using hk), List.lookup_cons, ih]
      by_cases ho : other = key
      · simp [ho, hkey]
      · simp [ho, List.lookup_cons]

/-- A key set is read back, and every other key reads as before. -/
theorem get_setItem (payload : Payload) (key other : String) (value default : PyValue) :
    Payload.get (PyValue.setItem payload (key, value)) other default =
      if other = key then value else payload.get other default := by
  have hmem : payload.any (fun e => e.1 == key) = (payload.lookup key).isSome := by
    induction payload with
    | nil => rfl
    | cons entry rest ih =>
      rcases entry with ⟨k, v⟩
      rw [List.any_cons, ih, List.lookup_cons]
      by_cases hk : k = key
      · simp [hk]
      · have hne : (key == k) = false := by simpa using fun h : key = k => hk h.symm
        simp [hk, hne]
  unfold PyValue.setItem Payload.get
  dsimp only
  rw [hmem]
  rcases hfound : payload.lookup key with _ | old
  · rw [if_neg (by decide), List.lookup_append]
    by_cases ho : other = key
    · simp [ho, hfound]
    · have hne : (other == key) = false := by simpa using ho
      simp [ho, hne, List.lookup_cons]
  · rw [if_pos (by rfl), lookup_replace, hfound]
    split_ifs <;> rfl

end Payload

/-- `int(x)` of a number: toward zero. -/
def truncate (x : ℚ) : Int := x.num.tdiv x.den

@[simp] theorem truncate_intCast (n : Int) : truncate n = n := by
  simp only [truncate, Rat.num_intCast, Rat.den_intCast, Nat.cast_one, Int.tdiv_one]

theorem truncate_nonneg {x : ℚ} (h : 0 ≤ x) : 0 ≤ truncate x :=
  Int.tdiv_nonneg (Rat.num_nonneg.mpr h) (Int.natCast_nonneg _)

theorem truncate_le {x : ℚ} {n : Int} (hx : 0 ≤ x) (h : x ≤ n) : truncate x ≤ n := by
  have hden : (0 : Int) < x.den := Int.natCast_pos.mpr x.den_pos
  have hnum : x.num ≤ n * x.den := by
    have hscaled : x * x.den ≤ n * x.den := mul_le_mul_of_nonneg_right h (Nat.cast_nonneg' _)
    rw [Rat.mul_den_eq_num] at hscaled
    exact_mod_cast hscaled
  rw [truncate, Int.tdiv_eq_ediv_of_nonneg (Rat.num_nonneg.mpr hx)]
  exact Int.ediv_le_of_le_mul hden hnum

/-- The texts of values: they label rows and messages and decide nothing. `parseFloat` reads a
numeral back, `none` where `float` raises. -/
structure PyText where
  sha256 : String → String
  repr : PyValue → String
  isoformat : DateTime → String
  parseFloat : String → Option ℚ

/-- `str(value)`. -/
def PyText.str (text : PyText) : PyValue → String
  | .str s => s
  | value => text.repr value

/-- `float(value)`. -/
def PyText.float (text : PyText) : PyValue → Except Exc ℚ
  | .bool b => .ok (if b then 1 else 0)
  | .int n => .ok n
  | .float q => .ok q
  | .str s => match text.parseFloat s with
    | some q => .ok q
    | none => .error ⟨.valueError, s!"could not convert string to float: {text.repr (.str s)}"⟩
  | value => .error ⟨.typeError,
      s!"float() argument must be a string or a real number, not '{value.typeName}'"⟩

/-- The text of `sorted(payload.items())`. -/
def PyText.sortedItems (text : PyText) (payload : Payload) : String :=
  text.repr (.list ((payload.mergeSort (fun a b => decide (a.1 ≤ b.1))).map fun entry =>
    .tuple [.str entry.1, entry.2]))

/-- Texts for small runs of the model. -/
def plainText : PyText where
  sha256 := id
  repr _ := ""
  isoformat t := toString t.wall
  parseFloat _ := none

/-- What a callback hands back where a `T` is annotated. Its attributes are those of `value`,
except the ones named in `missing`, whose reading raises: `None` misses all of them, an instance
of the annotated class none. -/
structure PyObject (T : Type) where
  typeName : String
  value : T
  missing : List String

namespace PyObject

variable {T α : Type}

/-- Reading the attribute `name`. -/
def attr (o : PyObject T) (name : String) (read : T → α) : Except Exc α :=
  if name ∈ o.missing then
    .error ⟨.attributeError, s!"'{o.typeName}' object has no attribute '{name}'"⟩
  else .ok (read o.value)

/-- An instance of the annotated class. -/
def ofInstance (typeName : String) (value : T) : PyObject T := ⟨typeName, value, []⟩

end PyObject
end OptionResearch
