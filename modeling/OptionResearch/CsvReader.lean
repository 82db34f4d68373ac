import OptionResearch.InsertionDict
import Mathlib.Data.String.Basic

/-!
# Reading CSV texts

The reader of the `csv` module in its `excel` dialect, character by character over the lines of a
text, and the rows that `DictReader` makes of its records. The reader stops at a field above the
limit; what it has read by then stays read. Where its lines are those of a file, it raises nothing
else.
-/

namespace OptionResearch

inductive CsvState where
  | startRecord
  | startField
  | inField
  | inQuotedField
  | quoteInQuotedField
  | eatCrnl
  deriving DecidableEq, Repr

/-- `csv.Error`. -/
inductive CsvError where
  | fieldLimit
  | newline
  deriving DecidableEq, Repr

/-- Where the reader is in a record. -/
structure CsvParser where
  state : CsvState := .startRecord
  field : List Char := []
  fields : List String := []

/-- `csv.field_size_limit()`. -/
def csvFieldLimit : Nat := 131072

def isLineEnd (c : Char) : Bool := c == '\n' || c == '\r'

namespace CsvParser

/-- `parse_save_field`. -/
def saveField (parser : CsvParser) (state : CsvState) : CsvParser :=
  ⟨state, [], parser.fields ++ [String.ofList parser.field]⟩

/-- `parse_add_char`. -/
def addChar (parser : CsvParser) (c : Char) (state : CsvState) : Except CsvError CsvParser :=
  if csvFieldLimit ≤ parser.field.length then .error .fieldLimit
  else .ok { parser with field := parser.field ++ [c], state }

section Reader

variable (delimiter : Char)

/-- A character where a field starts; there is none at the end of a line. -/
def atStart (parser : CsvParser) : Option Char → Except CsvError CsvParser
  | none => .ok (parser.saveField .startRecord)
  | some c =>
    if isLineEnd c then .ok (parser.saveField .eatCrnl)
    else if c = '"' then .ok { parser with state := .inQuotedField }
    else if c = delimiter then .ok (parser.saveField .startField)
    else parser.addChar c .inField

/-- A character in a field without quotes, or after the closing one. -/
def atEnd (parser : CsvParser) : Option Char → Except CsvError CsvParser
  | none => .ok (parser.saveField .startRecord)
  | some c =>
    if isLineEnd c then .ok (parser.saveField .eatCrnl)
    else if c = delimiter then .ok (parser.saveField .startField)
    else parser.addChar c .inField

/-- `parse_process_char`. -/
def processChar (parser : CsvParser) (char : Option Char) : Except CsvError CsvParser :=
  match parser.state, char with
  | .startRecord, none => .ok parser
  | .startRecord, some c =>
    if isLineEnd c then .ok { parser with state := .eatCrnl }
    else parser.atStart delimiter (some c)
  | .startField, c => parser.atStart delimiter c
  | .inField, c => parser.atEnd delimiter c
  | .inQuotedField, none => .ok parser
  | .inQuotedField, some c =>
    if c = '"' then .ok { parser with state := .quoteInQuotedField }
    else parser.addChar c .inQuotedField
  | .quoteInQuotedField, c =>
    -- two quotes stand for one
    if c = some '"' then parser.addChar '"' .inQuotedField else parser.atEnd delimiter c
  | .eatCrnl, none => .ok { parser with state := .startRecord }
  | .eatCrnl, some c => if isLineEnd c then .ok parser else .error .newline

/-- A line and its end. -/
def processLine (parser : CsvParser) (line : List Char) : Except CsvError CsvParser := do
  (← line.foldlM (fun parser c => parser.processChar delimiter (some c)) parser).processChar
    delimiter none

/-- The records of the lines, up to where the reader fails. -/
def records (parser : CsvParser) : List (List Char) → List (List String) × Option CsvError
  | [] =>
    if parser.field ≠ [] ∨ parser.state = .inQuotedField then
      ([(parser.saveField .startRecord).fields], none)
    else ([], none)
  | line :: rest =>
    match parser.processLine delimiter line with
    | .error error => ([], some error)
    | .ok parser =>
      if parser.state = .startRecord then
        let (later, failure) := records {} rest
        (parser.fields :: later, failure)
      else records parser rest

end Reader
end CsvParser

/-- The lines of a text, with their ends. -/
def splitLines : List Char → List (List Char)
  | [] => []
  | '\r' :: '\n' :: rest => ['\r', '\n'] :: splitLines rest
  | c :: rest =>
    if isLineEnd c then [c] :: splitLines rest
    else
      match splitLines rest with
      | [] => [[c]]
      | line :: lines => (c :: line) :: lines

/-- A row of a `DictReader`: the values of the columns, and the fields that are too many. -/
structure CsvRow where
  values : InsertionDict String (Option String)
  rest : Option (List String) := none

/-- The row of a record. The columns that have no field come last, in their order. -/
def CsvRow.ofRecord (header record : List String) : CsvRow where
  values := (header.drop record.length).foldl (fun values column => values.set column none)
    (.ofEntries (header.zip (record.map some)))
  rest := if header.length < record.length then some (record.drop header.length) else none

/-- What a `DictReader` reads of a text, up to where it fails. -/
def readDicts (delimiter : Char) (text : String) : List CsvRow × Option CsvError :=
  let (records, failure) := CsvParser.records delimiter {} (splitLines text.toList)
  match records with
  | [] => ([], failure)
  | header :: records => ((records.filter (· ≠ [])).map (CsvRow.ofRecord header), failure)

example : (readDicts ',' "a,b\r\n1,\"2,\"\"3\"\n\n4\n5,6,7").1.map
    (fun row => (row.values.entries, row.rest)) =
      [([("a", some "1"), ("b", some "2,\"3")], none), ([("a", some "4"), ("b", none)], none),
        ([("a", some "5"), ("b", some "6")], some ["7"])] := by
  decide +kernel

/-! ### Why a reader fails -/

variable {delimiter : Char}

namespace CsvParser

variable {parser next : CsvParser} {c : Char}

theorem addChar_spec {state : CsvState} (hstate : state ≠ .eatCrnl) :
    parser.addChar c state ≠ .error .newline ∧
      (parser.addChar c state = .ok next → next.state ≠ .eatCrnl) := by
  rw [addChar]
  split_ifs
  · simp
  · refine ⟨by simp, ?_⟩
    rintro ⟨⟩
    exact hstate

theorem atEnd_spec :
    parser.atEnd delimiter (some c) ≠ .error .newline ∧
      (parser.atEnd delimiter (some c) = .ok next → next.state = .eatCrnl →
        isLineEnd c = true) := by
  rw [atEnd]
  split_ifs with hend
  · exact ⟨by simp, fun _ _ => hend⟩
  · refine ⟨by simp, ?_⟩
    rintro ⟨⟩ ⟨⟩
  · obtain ⟨hfails, hstate⟩ := @addChar_spec parser next c .inField (by decide)
    exact ⟨hfails, fun h heat => absurd heat (hstate h)⟩

theorem atStart_spec :
    parser.atStart delimiter (some c) ≠ .error .newline ∧
      (parser.atStart delimiter (some c) = .ok next → next.state = .eatCrnl →
        isLineEnd c = true) := by
  rw [atStart]
  split_ifs with hend
  · exact ⟨by simp, fun _ _ => hend⟩
  · refine ⟨by simp, ?_⟩
    rintro ⟨⟩ ⟨⟩
  · refine ⟨by simp, ?_⟩
    rintro ⟨⟩ ⟨⟩
  · obtain ⟨hfails, hstate⟩ := @addChar_spec parser next c .inField (by decide)
    exact ⟨hfails, fun h heat => absurd heat (hstate h)⟩

/-- The reader fails at a new line only where it eats line ends and the character is none, and eats
them after a character only where that is one. -/
theorem processChar_spec :
    (parser.processChar delimiter (some c) = .error .newline →
      parser.state = .eatCrnl ∧ isLineEnd c = false) ∧
    (parser.processChar delimiter (some c) = .ok next → next.state = .eatCrnl →
      isLineEnd c = true) := by
  unfold processChar
  cases hstate : parser.state with
  | startRecord =>
    dsimp only
    split_ifs with hend
    · exact ⟨by simp, fun _ _ => hend⟩
    · obtain ⟨hfails, heat⟩ := @atStart_spec delimiter parser next c
      exact ⟨fun h => absurd h hfails, fun h hnext => absurd (heat h hnext) hend⟩
  | startField =>
    obtain ⟨hfails, heat⟩ := @atStart_spec delimiter parser next c
    exact ⟨fun h => absurd h hfails, heat⟩
  | inField =>
    obtain ⟨hfails, heat⟩ := @atEnd_spec delimiter parser next c
    exact ⟨fun h => absurd h hfails, heat⟩
  | inQuotedField =>
    dsimp only
    split_ifs
    · refine ⟨by simp, ?_⟩
      rintro ⟨⟩ ⟨⟩
    · obtain ⟨hfails, hnext⟩ := @addChar_spec parser next c .inQuotedField (by decide)
      exact ⟨fun h => absurd h hfails, fun h heat => absurd heat (hnext h)⟩
  | quoteInQuotedField =>
    dsimp only
    split_ifs
    · obtain ⟨hfails, hnext⟩ := @addChar_spec parser next '"' .inQuotedField (by decide)
      exact ⟨fun h => absurd h hfails, fun h heat => absurd heat (hnext h)⟩
    · obtain ⟨hfails, heat⟩ := @atEnd_spec delimiter parser next c
      exact ⟨fun h => absurd h hfails, heat⟩
  | eatCrnl =>
    dsimp only
    split_ifs with hend
    · exact ⟨by simp, fun _ _ => hend⟩
    · exact ⟨fun _ => ⟨rfl, Bool.eq_false_iff.mpr hend⟩, by simp⟩

/-- At the end of a line the reader does not fail, and no longer eats line ends. -/
theorem processChar_end :
    ∃ next, parser.processChar delimiter none = .ok next ∧ next.state ≠ .eatCrnl := by
  obtain ⟨state, field, fields⟩ := parser
  cases state <;> simp [processChar, atStart, atEnd, saveField]

end CsvParser

/-- Line ends come last in a line. -/
def EndsLast : List Char → Prop
  | [] => True
  | c :: rest => (isLineEnd c = true → ∀ d ∈ rest, isLineEnd d = true) ∧ EndsLast rest

theorem endsLast_of_mem_splitLines (chars : List Char) :
    ∀ line ∈ splitLines chars, EndsLast line := by
  fun_induction splitLines chars with
  | case1 => exact fun line h => absurd h List.not_mem_nil
  | case2 rest ih =>
    intro line hline
    rcases List.mem_cons.mp hline with rfl | hrest
    · exact ⟨fun _ => by simp [isLineEnd], fun _ => by simp, trivial⟩
    · exact ih line hrest
  | case3 c rest _ hend ih =>
    intro line hline
    rcases List.mem_cons.mp hline with rfl | hrest
    · exact ⟨fun _ => by simp, trivial⟩
    · exact ih line hrest
  | case4 c rest _ hend _ ih =>
    intro line hline
    obtain rfl := List.mem_singleton.mp hline
    exact ⟨fun h => absurd h hend, trivial⟩
  | case5 c rest _ hend first lines hlines ih =>
    intro line hline
    rw [hlines] at ih
    rcases List.mem_cons.mp hline with rfl | hrest
    · exact ⟨fun h => absurd h hend, ih first List.mem_cons_self⟩
    · exact ih line (List.mem_cons_of_mem _ hrest)

namespace CsvParser

theorem processLine_spec {parser : CsvParser} {line : List Char} (hline : EndsLast line)
    (hstate : parser.state = .eatCrnl → ∀ c ∈ line, isLineEnd c = true) :
    parser.processLine delimiter line ≠ .error .newline ∧
      ∀ next, parser.processLine delimiter line = .ok next → next.state ≠ .eatCrnl := by
  induction line generalizing parser with
  | nil =>
    obtain ⟨next, hnext, heat⟩ := @processChar_end delimiter parser
    have hline : parser.processLine delimiter [] = .ok next := hnext
    rw [hline]
    refine ⟨by simp, ?_⟩
    rintro _ ⟨⟩
    exact heat
  | cons c rest ih =>
    have hcons : parser.processLine delimiter (c :: rest) =
        (parser.processChar delimiter (some c)).bind fun next =>
          next.processLine delimiter rest := by
      rw [processLine, List.foldlM_cons]
      cases parser.processChar delimiter (some c) <;> rfl
    rw [hcons]
    cases hchar : parser.processChar delimiter (some c) with
    | error error =>
      refine ⟨?_, fun next h => nomatch h⟩
      rintro ⟨⟩
      obtain ⟨heat, hnot⟩ := (@processChar_spec delimiter parser parser c).1 hchar
      rw [hstate heat c List.mem_cons_self] at hnot
      cases hnot
    | ok next =>
      refine ih hline.2 fun heat => ?_
      exact hline.1 ((@processChar_spec delimiter parser next c).2 hchar heat)

/-- On the lines of a text, the reader fails only at a field above the limit. -/
theorem failure_of_records {lines : List (List Char)} (hlines : ∀ line ∈ lines, EndsLast line)
    {parser : CsvParser} (hstate : parser.state ≠ .eatCrnl) {error : CsvError}
    (h : (records delimiter parser lines).2 = some error) : error = .fieldLimit := by
  induction lines generalizing parser with
  | nil =>
    rw [records] at h
    split_ifs at h
  | cons line rest ih =>
    obtain ⟨hfails, hnext⟩ := @processLine_spec delimiter parser line
      (hlines line List.mem_cons_self) fun heat => absurd heat hstate
    have hrest : ∀ line ∈ rest, EndsLast line := fun line h =>
      hlines line (List.mem_cons_of_mem _ h)
    rw [records] at h
    cases hline : parser.processLine delimiter line with
    | error raised =>
      rw [hline] at h
      cases h
      cases error with
      | fieldLimit => rfl
      | newline => exact absurd hline hfails
    | ok next =>
      rw [hline] at h
      dsimp only at h
      split_ifs at h
      · exact ih hrest (by decide) h
      · exact ih hrest (hnext next hline) h

end CsvParser

/-- Reading a file fails at a field above the limit only. -/
theorem failure_of_readDicts {text : String} {error : CsvError}
    (h : (readDicts delimiter text).2 = some error) : error = .fieldLimit := by
  apply CsvParser.failure_of_records (endsLast_of_mem_splitLines text.toList)
    (show ({} : CsvParser).state ≠ .eatCrnl by decide)
  rw [readDicts] at h
  dsimp only at h
  split at h
  · exact h
  · exact h

/-- A row has fields that are too many exactly where its record is longer than the header. -/
theorem CsvRow.rest_ofRecord {header record : List String} :
    (CsvRow.ofRecord header record).rest.isSome ↔ header.length < record.length := by
  rw [CsvRow.ofRecord]
  split_ifs with h <;> simp [h]

end OptionResearch
