import OptionResearch.CpcvSplits
import OptionResearch.InsertionDict
import OptionResearch.IsoTimestamps

/-!
# The rows that providers and files hand over

The values of a row, the exceptions that reading one may raise, and the records of
`data/integration/models.py` that tell where a row came from and why it was set aside. How a text
reads as a number, a date or a time is given by a `RowText`.
-/

namespace OptionResearch

/-- A `float`. -/
inductive Number where
  | finite (value : ℚ)
  | infinity (negative : Bool)
  | nan
  deriving DecidableEq

namespace Number

/-- `x < y`. -/
def lt : Number → Number → Bool
  | .finite x, .finite y => decide (x < y)
  | .finite _, .infinity negative => !negative
  | .infinity negative, .finite _ => negative
  | .infinity negative, .infinity other => negative && !other
  | _, _ => false

/-- `x <= y`. -/
def le : Number → Number → Bool
  | .finite x, .finite y => decide (x ≤ y)
  | .finite _, .infinity negative => !negative
  | .infinity negative, .finite _ => negative
  | .infinity negative, .infinity other => negative || !other
  | _, _ => false

/-- `x == y`, which no NaN meets. -/
def same : Number → Number → Bool
  | .nan, _ => false
  | x, y => x == y

/-- `abs(x - y)`. -/
def distance (x : Number) (y : ℚ) : Number :=
  match x with
  | .finite x => .finite |x - y|
  | .infinity _ => .infinity false
  | .nan => .nan

end Number

/-- A value of a row: what JSON and CSV texts hold. -/
inductive Scalar where
  | null
  | str (text : String)
  | int (value : Int)
  | float (value : Number)
  deriving DecidableEq

namespace Scalar

/-- `value in (None, "")`. -/
def blank : Scalar → Bool
  | .null => true
  | .str text => text == ""
  | _ => false

/-- `bool(value)`. -/
def truthy : Scalar → Bool
  | .null => false
  | .str text => text != ""
  | .int value => value != 0
  | .float value => value != .finite 0

end Scalar

/-- A row, as a mapping from fields to values. -/
abbrev Row := InsertionDict String Scalar

/-- `row.get(field)`. -/
def InsertionDict.getValue (row : Row) (field : String) : Scalar := (row.get? field).getD .null

/-- `row[field]`. -/
def InsertionDict.item {β : Type} (row : InsertionDict String β) (field : String) : Except Exc β :=
  match row.get? field with
  | some value => .ok value
  | none => .error ⟨.other "KeyError", "'" ++ field ++ "'"⟩

/-- `row.get(field, default)`. -/
def InsertionDict.getOr (row : Row) (field : String) (default : Scalar) : Scalar :=
  (row.get? field).getD default

/-- The number of a record whose numbers are floats already. -/
def InsertionDict.number? (record : Row) (field : String) : Option Number :=
  match record.get? field with
  | some (.float number) => some number
  | _ => none

/-- How texts are read and written. Readers have nothing to give where the reading raises a
`ValueError`; the offset is that of a clock in New York. -/
structure RowText where
  strip : String → String
  upper : String → String
  lower : String → String
  readFloat : String → Option Number
  readInt : String → Option Int
  readDate : String → Option OrdinalDate
  readDateTime : String → Option DateTime
  writeFloat : Number → String
  fixed : Nat → Number → String
  newYorkOffset : Int → Int
  writeJson : Row → String
  sha256 : String → String

/-- The least integer that is too large for a `float`. -/
def floatLimit : Nat := 2 ^ 1024 - 2 ^ 970

/-- The digits an integer may have where it is written out. -/
def maxDigits : Nat := 4300

namespace RowText

variable (text : RowText)

/-- `float(value)`. -/
def float : Scalar → Except Exc Number
  | .null =>
    .error ⟨.typeError, "float() argument must be a string or a real number, not 'NoneType'"⟩
  | .str s =>
    match text.readFloat s with
    | some number => .ok number
    | none => .error ⟨.valueError, "could not convert string to float"⟩
  | .int n =>
    if n.natAbs < floatLimit then .ok (.finite n)
    else .error ⟨.other "OverflowError", "int too large to convert to float"⟩
  | .float number => .ok number

/-- `int(value)`. -/
def int : Scalar → Except Exc Int
  | .null =>
    .error ⟨.typeError, "int() argument must be a string, a bytes-like object or a real number"⟩
  | .str s =>
    match text.readInt s with
    | some n => .ok n
    | none => .error ⟨.valueError, "invalid literal for int() with base 10"⟩
  | .int n => .ok n
  | .float (.finite value) => .ok (value.num.tdiv value.den)
  | .float (.infinity _) =>
    .error ⟨.other "OverflowError", "cannot convert float infinity to integer"⟩
  | .float .nan => .error ⟨.valueError, "cannot convert float NaN to integer"⟩

/-- `str(value)`. -/
def str : Scalar → Except Exc String
  | .null => .ok "None"
  | .str s => .ok s
  | .int n =>
    if n.natAbs < 10 ^ maxDigits then .ok (toString n)
    else .error ⟨.valueError, "Exceeds the limit (4300 digits) for integer string conversion"⟩
  | .float number => .ok (text.writeFloat number)

/-- `date.fromisoformat(s)`. -/
def date (s : String) : Except Exc OrdinalDate :=
  match text.readDate s with
  | some date => .ok date
  | none => .error ⟨.valueError, "Invalid isoformat string"⟩

/-- `datetime.fromisoformat(s.replace("Z", "+00:00"))`. -/
def dateTime (s : String) : Except Exc DateTime :=
  match text.readDateTime
      (String.ofList (s.toList.flatMap fun c => if c = 'Z' then "+00:00".toList else [c])) with
  | some time => .ok time
  | none => .error ⟨.valueError, "Invalid isoformat string"⟩

/-- An integer that is not written out. -/
def tooLong : Scalar → Bool
  | .int n => decide (10 ^ maxDigits ≤ n.natAbs)
  | _ => false

theorem exists_str_of_not_tooLong {text : RowText} {value : Scalar} (h : tooLong value = false) :
    ∃ written, text.str value = .ok written := by
  cases value with
  | int n =>
    rw [tooLong, decide_eq_false_iff_not, not_le] at h
    exact ⟨toString n, by rw [str, if_pos h]⟩
  | _ => exact ⟨_, rfl⟩

/-- `json.dumps(row, sort_keys=True, default=str)`. -/
def dumps (row : Row) : Except Exc String :=
  if row.entries.any fun entry => tooLong entry.2 then
    .error ⟨.valueError, "Exceeds the limit (4300 digits) for integer string conversion"⟩
  else .ok (text.writeJson row)

/-- The `datetime` of a clock in New York. -/
def newYork (wall : Int) : DateTime := ⟨wall, some (text.newYorkOffset wall)⟩

end RowText

/-- A number is read back from a key that starts with it. -/
theorem number_eq_of_key {p q : Nat} {c d : String} (h : s!"{p}:{c}" = s!"{q}:{d}") : p = q := by
  have hread : ∀ (n : Nat) (rest : String),
      (s!"{n}:{rest}").toList.takeWhile (· ≠ ':') = (toString n).toList := by
    intro n rest
    have hdigits : ∀ c ∈ (toString n).toList, decide (c ≠ ':') = true := by
      intro c hc
      rw [Nat.toString_eq_ofList_toDigits, String.toList_ofList] at hc
      have hdigit := Nat.isDigit_of_mem_toDigits (by decide) (by decide) hc
      exact decide_eq_true (by rintro rfl; exact absurd hdigit (by decide))
    rw [String.toList_append, String.toList_append, List.append_assoc,
      List.takeWhile_append_of_pos hdigits]
    exact List.append_nil _
  have hdigits : (toString p).toList = (toString q).toList :=
    (hread p c).symm.trans (h ▸ hread q d)
  apply Date.digits_injective 0
  rw [Date.digits, hdigits, Date.digits]

/-- An exception of the class that the caller looks out for, or another one. -/
inductive Fault (ε : Type) where
  | raised (error : ε)
  | foreign (error : Exc)

instance {ε : Type} : MonadLift (Except Exc) (Except (Fault ε)) := ⟨Except.mapError Fault.foreign⟩

theorem mapError_eq_ok_iff {ε δ α : Type} {x : Except ε α} {f : ε → δ} {a : α} :
    x.mapError f = .ok a ↔ x = .ok a := by
  cases x <;> simp [Except.mapError]

/-- `except (KeyError, TypeError, ValueError)`. -/
def Exc.Caught (error : Exc) : Prop := error.kind ∈ [.other "KeyError", .typeError, .valueError]

instance (error : Exc) : Decidable error.Caught := inferInstanceAs (Decidable (_ ∈ _))

/-- An exception that is caught is raised again as one with the message. -/
def Exc.caughtAs (message : String) (error : Exc) : Fault String :=
  if error.Caught then .raised message else .foreign error

/-! ### What is raised -/

/-- An exception of this kind is raised. -/
def Raises {α : Type} (P : Exc → Prop) (x : Except Exc α) : Prop :=
  ∃ error, x = .error error ∧ P error

/-- What is raised is not caught. -/
abbrev Uncaught {α : Type} (x : Except Exc α) : Prop := Raises (fun error => ¬ error.Caught) x

section Raises

variable {α β : Type} {P : Exc → Prop} {x : Except Exc α} {f : α → Except Exc β}

theorem raises_bind : Raises P (x >>= f) ↔ Raises P x ∨ ∃ a, x = .ok a ∧ Raises P (f a) := by
  cases x <;> simp [Raises, bind, Except.bind]

theorem raises_map {g : α → β} : Raises P (x.map g) ↔ Raises P x := by
  cases x <;> simp [Raises, Except.map]

@[simp] theorem raises_functor_map {g : α → β} : Raises P (g <$> x) ↔ Raises P x := raises_map

theorem raises_mapError {g : Exc → Exc} :
    Raises P (x.mapError g) ↔ Raises (fun error => P (g error)) x := by
  cases x <;> simp [Raises, Except.mapError]

@[simp] theorem raises_error {error : Exc} : Raises P (.error error : Except Exc α) ↔ P error := by
  simp [Raises]

@[simp] theorem not_raises_ok {a : α} : ¬ Raises P (.ok a : Except Exc α) := by
  rintro ⟨error, ⟨⟩, -⟩

@[simp] theorem not_raises_pure {a : α} : ¬ Raises P (pure a : Except Exc α) := not_raises_ok

theorem not_raises_foldlM {σ ι : Type} {step : σ → ι → Except Exc σ}
    (h : ∀ state item, ¬ Raises P (step state item)) (items : List ι) (state : σ) :
    ¬ Raises P (items.foldlM step state) := by
  induction items generalizing state with
  | nil => exact not_raises_ok
  | cons item rest ih =>
    rw [List.foldlM_cons, raises_bind]
    rintro (hitem | ⟨next, -, hrest⟩)
    · exact h state item hitem
    · exact ih next hrest

theorem uncaught_bind :
    Uncaught (x >>= f) ↔ Uncaught x ∨ ∃ a, x = .ok a ∧ Uncaught (f a) := raises_bind

theorem uncaught_map {g : α → β} : Uncaught (x.map g) ↔ Uncaught x := raises_map

theorem mapError_caughtAs_foreign_iff {message : String} :
    (∃ error, x.mapError (Exc.caughtAs message) = .error (.foreign error)) ↔ Uncaught x := by
  cases x with
  | ok a => simp [Except.mapError]
  | error raised =>
    by_cases hcaught : raised.Caught <;> simp [Except.mapError, Exc.caughtAs, hcaught]

/-- An integer that is too large to be read as a number. -/
def Scalar.TooLarge (value : Scalar) : Prop := ∃ n, value = .int n ∧ floatLimit ≤ n.natAbs

namespace RowText

variable {text : RowText} {value : Scalar} {row : Row} {field s : String}

theorem raises_item (h : Raises P (row.item field)) :
    P ⟨.other "KeyError", "'" ++ field ++ "'"⟩ := by
  rw [InsertionDict.item] at h
  split at h
  · exact absurd h not_raises_ok
  · exact raises_error.mp h

/-- Writing out a value raises value errors. -/
theorem raises_str (h : Raises P (text.str value)) : ∃ message, P ⟨.valueError, message⟩ := by
  unfold str at h
  split at h
  · exact absurd h not_raises_ok
  · exact absurd h not_raises_ok
  · split_ifs at h
    · exact absurd h not_raises_ok
    · exact ⟨_, raises_error.mp h⟩
  · exact absurd h not_raises_ok

theorem raises_date (h : Raises P (text.date s)) : ∃ message, P ⟨.valueError, message⟩ := by
  rw [date] at h
  split at h
  · exact absurd h not_raises_ok
  · exact ⟨_, raises_error.mp h⟩

theorem raises_dateTime (h : Raises P (text.dateTime s)) : ∃ message, P ⟨.valueError, message⟩ := by
  rw [dateTime] at h
  split at h
  · exact absurd h not_raises_ok
  · exact ⟨_, raises_error.mp h⟩

theorem raises_float_str (h : Raises P (text.float (.str s))) :
    ∃ message, P ⟨.valueError, message⟩ := by
  rw [float] at h
  split at h
  · exact absurd h not_raises_ok
  · exact ⟨_, raises_error.mp h⟩

@[simp] theorem not_uncaught_item : ¬ Uncaught (row.item field) := fun h =>
  raises_item h (by simp [Exc.Caught])

@[simp] theorem not_uncaught_str : ¬ Uncaught (text.str value) := fun h => by
  obtain ⟨message, h⟩ := raises_str h
  exact h (by simp [Exc.Caught])

@[simp] theorem not_uncaught_date : ¬ Uncaught (text.date s) := fun h => by
  obtain ⟨message, h⟩ := raises_date h
  exact h (by simp [Exc.Caught])

@[simp] theorem not_uncaught_dateTime : ¬ Uncaught (text.dateTime s) := fun h => by
  obtain ⟨message, h⟩ := raises_dateTime h
  exact h (by simp [Exc.Caught])

theorem uncaught_float : Uncaught (text.float value) ↔ value.TooLarge := by
  unfold float Scalar.TooLarge
  split
  · simp [Exc.Caught]
  · split <;> simp [Exc.Caught]
  · split_ifs with hsmall
    · simpa using hsmall
    · simpa [Exc.Caught] using hsmall
  · simp

end RowText

theorem DateTime.raises_astimezoneUtc {t : DateTime} :
    Raises P t.astimezoneUtc ↔
      t.OutOfRange ∧ P ⟨.other "OverflowError", "date value out of range"⟩ := by
  rw [astimezoneUtc, OutOfRange]
  split_ifs with hrange
  · simp [hrange]
  · simp [hrange]

theorem DateTime.uncaught_astimezoneUtc {t : DateTime} :
    Uncaught t.astimezoneUtc ↔ t.OutOfRange :=
  raises_astimezoneUtc.trans (by simp [Exc.Caught])

end Raises

/-! ### Where rows come from and why they are set aside -/

inductive QuarantineReason where
  | malformedTimestamp
  | invalidStrike
  | invalidExpiration
  | crossedMarket
  | impossiblePrice
  | missingRequiredIdentifier
  | schemaMismatch
  | checksumFailure
  | encodingFailure
  | ambiguousColumn
  deriving DecidableEq, Repr

namespace QuarantineReason

def value : QuarantineReason → String
  | .malformedTimestamp => "malformed_timestamp"
  | .invalidStrike => "invalid_strike"
  | .invalidExpiration => "invalid_expiration"
  | .crossedMarket => "crossed_market"
  | .impossiblePrice => "impossible_price"
  | .missingRequiredIdentifier => "missing_required_identifier"
  | .schemaMismatch => "schema_mismatch"
  | .checksumFailure => "checksum_failure"
  | .encodingFailure => "encoding_failure"
  | .ambiguousColumn => "ambiguous_column"

def all : List QuarantineReason :=
  [.malformedTimestamp, .invalidStrike, .invalidExpiration, .crossedMarket, .impossiblePrice,
    .missingRequiredIdentifier, .schemaMismatch, .checksumFailure, .encodingFailure,
    .ambiguousColumn]

/-- The reason whose value is the message, a schema mismatch otherwise. -/
def ofMessage (message : String) : QuarantineReason :=
  (all.find? fun reason => reason.value = message).getD .schemaMismatch

/-- A reason is found again from its value. -/
@[simp] theorem ofMessage_value (reason : QuarantineReason) : ofMessage reason.value = reason := by
  cases reason <;> rfl

end QuarantineReason

structure SourceMetadata where
  sourceFile : String
  sourceChecksum : String
  sourceRow : Nat
  mappingVersion : String
  deriving DecidableEq

structure QuarantineRecord (R : Type) where
  reason : QuarantineReason
  detail : String
  rawRecord : R
  source : SourceMetadata

end OptionResearch
