import OptionResearch.EarlyExit
import OptionResearch.RowValues

/-!
# The validation of market data records

`ValidationEngine` of `data/validation/engine.py`: quality checks on records that collect all issues,
or leave at the first one of a severity that fails. The second mode finds a prefix of what the first
one finds, and both count what they found.
-/

namespace OptionResearch

inductive ValidationSeverity where
  | info
  | warning
  | error
  | critical
  deriving DecidableEq, Repr

def ValidationSeverity.value : ValidationSeverity → String
  | .info => "info"
  | .warning => "warning"
  | .error => "error"
  | .critical => "critical"

inductive ValidationMode where
  | failFast
  | collectAll
  deriving DecidableEq, Repr

structure ValidationIssue where
  code : String
  message : String
  recordId : Option String := none
  severity : ValidationSeverity := .error
  deriving DecidableEq

structure ValidationSummary where
  totalRecords : Nat
  totalIssues : Nat
  bySeverity : InsertionDict String Nat
  byCode : InsertionDict String Nat

structure ValidationPolicy where
  mode : ValidationMode := .collectAll
  failOnSeverities : List ValidationSeverity := [.error, .critical]
  severityOverrides : InsertionDict String ValidationSeverity := .empty

structure ValidationReport where
  valid : Bool
  issues : List ValidationIssue
  summary : ValidationSummary
  mode : ValidationMode

/-- A value of a record; a tuple is a list. -/
inductive RecordValue where
  | none
  | bool (b : Bool)
  | int (n : Int)
  | float (x : Number)
  | str (s : String)
  | datetime (t : DateTime)
  | list (items : List RecordValue)
  | dict (entries : List (String × RecordValue))

/-- How values are written and times are read. -/
structure RecordText where
  str : RecordValue → String
  fromIsoformat : String → Option DateTime

namespace RecordValue

def typeName : RecordValue → String
  | .none => "NoneType"
  | .bool _ => "bool"
  | .int _ => "int"
  | .float _ => "float"
  | .str _ => "str"
  | .datetime _ => "datetime.datetime"
  | .list _ => "list"
  | .dict _ => "dict"

/-- `bool(value)`. -/
def truth : RecordValue → Bool
  | .none => false
  | .bool b => b
  | .int n => n != 0
  | .float x => x != .finite 0
  | .str s => s != ""
  | .datetime _ => true
  | .list items => !items.isEmpty
  | .dict entries => !entries.isEmpty

/-- The items of a `for` loop. -/
def iter : RecordValue → Except Exc (List RecordValue)
  | .list items => .ok items
  | .dict entries => .ok (entries.map fun entry => .str entry.1)
  | .str s => .ok (s.toList.map fun c => .str (String.singleton c))
  | value => .error ⟨.typeError, s!"'{value.typeName}' object is not iterable"⟩

/-- The receiver of `value.get(...)`. -/
def asDict : RecordValue → Except Exc (List (String × RecordValue))
  | .dict entries => .ok entries
  | value => .error ⟨.attributeError, s!"'{value.typeName}' object has no attribute 'get'"⟩

/-- `isinstance(value, (int, float))` and the number it then is. -/
def number? : RecordValue → Option Number
  | .bool b => some (.finite (if b then 1 else 0))
  | .int n => some (.finite n)
  | .float x => some x
  | _ => Option.none

/-- `isinstance(value, str)` and the text it then is. -/
def str? : RecordValue → Option String
  | .str s => some s
  | _ => Option.none

end RecordValue

/-- A `dict[str, Any]`. -/
abbrev DataRecord := List (String × RecordValue)

def DataRecord.get (record : DataRecord) (key : String) : RecordValue :=
  (record.lookup key).getD .none

namespace ValidationEngine

open EarlyExit

abbrev Check := EarlyExit.Check Exc ValidationIssue

variable (text : RecordText) (policy : ValidationPolicy)

/-- Whether the severity of an issue fails a record. -/
def fails (issue : ValidationIssue) : Bool := policy.failOnSeverities.contains issue.severity

/-- `mode == FAIL_FAST and issue.severity in fail_on_severities`. -/
def leaves (issue : ValidationIssue) : Bool :=
  policy.mode = .failFast && fails policy issue

def issue (code message recordId : String) : ValidationIssue where
  code := code
  message := message
  recordId := some recordId
  severity := (policy.severityOverrides.get? code).getD .error

/-- `add_issue`, and the `break` after it. -/
def addIssue (code message recordId : String) : Check :=
  let issue := issue policy code message recordId
  add (leaves policy issue) issue

/-- `if condition: if add_issue(...): break`. -/
def addIf (condition : Bool) (code message recordId : String) : Check :=
  if condition then addIssue policy code message recordId else done

/-- `str(record.get("id", ""))`. -/
def recordId (record : DataRecord) : String :=
  text.str ((record.lookup "id").getD (.str ""))

/-- `isinstance(value, (int, float)) and value <= 0`. -/
def notPositive (value : RecordValue) : Bool :=
  value.number?.any fun x => x.le (.finite 0)

/-- `isinstance(value, (int, float)) and not low <= value <= high`. -/
def outside (low high : ℚ) (value : RecordValue) : Bool :=
  value.number?.any fun x => !(Number.le (.finite low) x && x.le (.finite high))

def checkItem (recordId : String) (item : RecordValue) : Check :=
  reading item.asDict fun (fields : DataRecord) =>
    andThen
      (addIf policy (notPositive (fields.get "strike")) "invalid_strike" "Strike must be positive"
        recordId)
      (addIf policy ((fields.get "expiration").str?.all (· == "")) "invalid_expiration"
        "Expiration is missing" recordId)

def checkChain (recordId : String) (chain : RecordValue) : Check :=
  if chain.truth = false then
    addIssue policy "missing_option_chain" "Option chain is missing" recordId
  else nested (leaves policy) (reading chain.iter (each (checkItem policy recordId)))

/-- `timestamp.replace("Z", "+00:00")`. -/
def withOffset (timestamp : String) : String :=
  String.ofList (timestamp.toList.flatMap fun c => if c = 'Z' then "+00:00".toList else [c])

def checkTimestamp (recordId : String) (timestamp : RecordValue) : Check :=
  match timestamp.str? with
  | none => addIssue policy "malformed_timestamp" "Timestamp must be a string" recordId
  | some timestamp =>
    addIf policy (text.fromIsoformat (withOffset timestamp)).isNone "malformed_timestamp"
      "Timestamp is not parsable" recordId

def checkGreek (recordId : String) (record : DataRecord) (greekName : String) : Check :=
  addIf policy (outside (-1) 1 (record.get greekName) && greekName != "theta") "invalid_greeks"
    (greekName ++ " is outside the expected range") recordId

/-- The checks of one record, whose identifier is a duplicate or not. -/
def checkRecord (duplicate : Bool) (record : DataRecord) : Check :=
  let recordId := recordId text record
  andThen (addIf policy duplicate "duplicate_record" "Duplicate record detected" recordId) <|
  andThen (checkChain policy recordId (record.get "option_chain")) <|
  andThen (checkTimestamp text policy recordId (record.get "timestamp")) <|
  andThen
    (addIf policy (outside 0 1 (record.get "implied_volatility")) "invalid_implied_volatility"
      "Implied volatility is outside the expected range" recordId) <|
  andThen
    (nested (leaves policy)
      (each (checkGreek policy recordId record) ["delta", "gamma", "theta", "vega", "rho"])) <|
  addIf policy (notPositive (record.get "underlying_price")) "missing_underlying_price"
    "Underlying price must be positive" recordId

/-- The loop over the records, after those of the identifiers `seenIds`. -/
def checkRecords (seenIds : List String) : List DataRecord → Check
  | [] => done
  | record :: rest =>
    let seen := seenIds.contains (recordId text record)
    andThen (checkRecord text policy seen record)
      (checkRecords (if seen then seenIds else recordId text record :: seenIds) rest)

/-- `counts[key] = counts.get(key, 0) + 1`. -/
def count (counts : InsertionDict String Nat) (key : String) : InsertionDict String Nat :=
  counts.set key ((counts.get? key).getD 0 + 1)

/-- `_build_summary`. -/
def buildSummary (records : List DataRecord) (issues : List ValidationIssue) : ValidationSummary where
  totalRecords := records.length
  totalIssues := issues.length
  bySeverity := issues.foldl (fun counts issue => count counts issue.severity.value) .empty
  byCode := issues.foldl (fun counts issue => count counts issue.code) .empty

def validateRecords (records : List DataRecord) : Except Exc ValidationReport := do
  let (_, issues) ← checkRecords text policy [] records []
  return {
    valid := !issues.any (fails policy)
    issues := issues
    summary := buildSummary records issues
    mode := policy.mode }

/-! ### The two modes -/

section

variable {text : RecordText} {policy : ValidationPolicy}

/-- A policy in one of the modes. -/
abbrev inMode (policy : ValidationPolicy) (mode : ValidationMode) : ValidationPolicy :=
  { policy with mode }

theorem agrees_addIssue (code message recordId : String) :
    Agrees (fails policy) (addIssue (inMode policy .collectAll) code message recordId)
      (addIssue (inMode policy .failFast) code message recordId) :=
  agrees_add (issue policy code message recordId)

theorem agrees_addIf (condition : Bool) (code message recordId : String) :
    Agrees (fails policy) (addIf (inMode policy .collectAll) condition code message recordId)
      (addIf (inMode policy .failFast) condition code message recordId) := by
  rw [addIf, addIf]
  split_ifs
  · exact agrees_addIssue code message recordId
  · exact agrees_done

theorem agrees_checkItem (recordId : String) (item : RecordValue) :
    Agrees (fails policy) (checkItem (inMode policy .collectAll) recordId item)
      (checkItem (inMode policy .failFast) recordId item) :=
  agrees_reading fun _ => (agrees_addIf _ _ _ _).andThen (agrees_addIf _ _ _ _)

theorem agrees_checkChain (recordId : String) (chain : RecordValue) :
    Agrees (fails policy) (checkChain (inMode policy .collectAll) recordId chain)
      (checkChain (inMode policy .failFast) recordId chain) := by
  rw [checkChain, checkChain]
  split_ifs
  · exact agrees_addIssue _ _ _
  · exact (agrees_reading (agrees_each (agrees_checkItem recordId))).nested

theorem agrees_checkTimestamp (recordId : String) (timestamp : RecordValue) :
    Agrees (fails policy) (checkTimestamp text (inMode policy .collectAll) recordId timestamp)
      (checkTimestamp text (inMode policy .failFast) recordId timestamp) := by
  rw [checkTimestamp, checkTimestamp]
  cases timestamp.str? with
  | none => exact agrees_addIssue _ _ _
  | some timestamp => exact agrees_addIf _ _ _ _

theorem agrees_checkRecord (duplicate : Bool) (record : DataRecord) :
    Agrees (fails policy) (checkRecord text (inMode policy .collectAll) duplicate record)
      (checkRecord text (inMode policy .failFast) duplicate record) := by
  have hgreeks : ∀ greekName,
      Agrees (fails policy)
        (checkGreek (inMode policy .collectAll) (recordId text record) record greekName)
        (checkGreek (inMode policy .failFast) (recordId text record) record greekName) :=
    fun greekName => agrees_addIf _ _ _ _
  refine (agrees_addIf _ _ _ _).andThen ((agrees_checkChain _ _).andThen ?_)
  refine (agrees_checkTimestamp _ _).andThen ((agrees_addIf _ _ _ _).andThen ?_)
  exact (agrees_each hgreeks _).nested.andThen (agrees_addIf _ _ _ _)

theorem agrees_checkRecords (seenIds : List String) (records : List DataRecord) :
    Agrees (fails policy) (checkRecords text (inMode policy .collectAll) seenIds records)
      (checkRecords text (inMode policy .failFast) seenIds records) := by
  induction records generalizing seenIds with
  | nil => exact agrees_done
  | cons record rest ih => exact (agrees_checkRecord _ record).andThen (ih _)

/-! ### The counts -/

/-- The number of all that is counted. -/
def counted (counts : InsertionDict String Nat) : Nat := counts.values.sum

theorem sum_assign (key : String) (entries : List (String × Nat)) :
    ((Entries.assign key ((Entries.lookup key entries).getD 0 + 1) entries).map Prod.snd).sum =
      (entries.map Prod.snd).sum + 1 := by
  induction entries with
  | nil => rfl
  | cons entry rest ih =>
    rw [Entries.assign, Entries.lookup]
    split_ifs
    · simp only [List.map_cons, List.sum_cons, Option.getD_some]
      omega
    · simp only [List.map_cons, List.sum_cons, ih]
      omega

theorem counted_count (counts : InsertionDict String Nat) (key : String) :
    counted (count counts key) = counted counts + 1 := sum_assign key counts.entries

/-- Whatever the issues are counted by, the counts add up. -/
theorem counted_foldl (keyOf : ValidationIssue → String) (issues : List ValidationIssue)
    (counts : InsertionDict String Nat) :
    counted (issues.foldl (fun counts issue => count counts (keyOf issue)) counts) =
      counted counts + issues.length := by
  induction issues generalizing counts with
  | nil => rfl
  | cons issue rest ih =>
    rw [List.foldl_cons, ih, counted_count, List.length_cons]
    omega

end

/-- The counts of a report add up to its issues. -/
structure CountsAddUp (report : ValidationReport) : Prop where
  total : report.summary.totalIssues = report.issues.length
  byCode : counted report.summary.byCode = report.summary.totalIssues
  bySeverity : counted report.summary.bySeverity = report.summary.totalIssues

variable {text policy}

theorem validateRecords_spec {records : List DataRecord} {report : ValidationReport}
    (h : validateRecords text policy records = .ok report) :
    report.valid = !report.issues.any (fails policy) ∧ CountsAddUp report ∧
      ∃ left, checkRecords text policy [] records [] = .ok (left, report.issues) := by
  obtain ⟨⟨left, issues⟩, hissues, h⟩ := except_bind_eq_ok.mp h
  cases h
  refine ⟨rfl, ⟨rfl, ?_, ?_⟩, left, hissues⟩
  · exact (counted_foldl (·.code) issues .empty).trans (Nat.zero_add _)
  · exact (counted_foldl (·.severity.value) issues .empty).trans (Nat.zero_add _)

/-- Where collecting all issues returns, failing fast returns them up to and with the first that
fails; both find the records valid or not, and the counts of both add up. -/
theorem validateRecords_failFast (text : RecordText) (policy : ValidationPolicy)
    (records : List DataRecord) (report : ValidationReport)
    (hcollect : validateRecords text { policy with mode := .collectAll } records = .ok report) :
    ∃ report', validateRecords text { policy with mode := .failFast } records = .ok report' ∧
      report'.issues = upToFirst (fails policy) report.issues ∧ report'.valid = report.valid ∧
      CountsAddUp report ∧ CountsAddUp report' := by
  obtain ⟨hvalid, hcounts, left, hissues⟩ := validateRecords_spec hcollect
  have hrun := (agrees_checkRecords [] records).run hissues
  obtain ⟨report', hfast⟩ : ∃ report',
      validateRecords text { policy with mode := .failFast } records = .ok report' :=
    exists_bind_eq_ok hrun ⟨_, rfl⟩
  obtain ⟨hvalid', hcounts', left', hissues'⟩ := validateRecords_spec hfast
  have hfound : report'.issues = upToFirst (fails policy) report.issues :=
    (congrArg Prod.snd (Except.ok.inj (hrun.symm.trans hissues'))).symm
  refine ⟨report', hfast, hfound, ?_, hcounts, hcounts'⟩
  rw [hvalid, hvalid', hfound]
  exact congrArg _ (any_upToFirst report.issues)

/-- Texts for small runs of the model. -/
def plainRecordText : RecordText where
  str value := value.str?.getD ""
  fromIsoformat _ := none

/-- A record without anything but an identifier. -/
def bareRecord : DataRecord := [("id", .str "1")]

theorem validateRecords_failFast_bare : ∃ report report',
    validateRecords plainRecordText { mode := .collectAll } [bareRecord] = .ok report ∧
      validateRecords plainRecordText { mode := .failFast } [bareRecord] = .ok report' ∧
      report.issues.length = 2 ∧ report'.issues = upToFirst (fails {}) report.issues := by
  obtain ⟨report, hcollect, hlength⟩ : ∃ report,
      validateRecords plainRecordText { mode := .collectAll } [bareRecord] = .ok report ∧
        report.issues.length = 2 := ⟨_, rfl, rfl⟩
  obtain ⟨report', hfast, hfound, -⟩ :=
    validateRecords_failFast plainRecordText {} [bareRecord] report hcollect
  exact ⟨report, report', hcollect, hfast, hlength, hfound⟩

end ValidationEngine
end OptionResearch
