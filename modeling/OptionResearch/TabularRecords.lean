import OptionResearch.TabularIngestion

/-!
# Records of ingested tables

What normalization and validation leave in a record, for rows whose fields are nothing, finite
numbers, or texts that spell neither a NaN nor an instant out of the calendar's range. Every number
of such a record is one, and nothing that is raised on such a row escapes.
-/

namespace OptionResearch

theorem InsertionDict.getValue_set {row : Row} {field other : String} {value : Scalar} :
    (row.set field value).getValue other = if other = field then value else row.getValue other := by
  rw [getValue, get?_set]
  split_ifs <;> rfl

theorem InsertionDict.getValue_of_item {row : Row} {field : String} {value : Scalar}
    (h : row.item field = .ok value) : row.getValue field = value := by
  rw [item] at h
  split at h
  · next found hfound =>
    cases h
    rw [getValue, hfound]
    rfl
  · cases h

namespace Number

variable {x y : Number}

theorem lt_of_not_le (hx : x ≠ .nan) (hy : y ≠ .nan) (h : x.le y = false) : y.lt x = true := by
  rcases x with x | negative | _ <;> rcases y with y | other | _ <;> simp_all [lt, le]

theorem le_of_not_lt (hx : x ≠ .nan) (hy : y ≠ .nan) (h : x.lt y = false) : y.le x = true := by
  rcases x with x | negative | _ <;> rcases y with y | other | _ <;> simp_all [lt, le]
  case infinity.infinity => cases negative <;> simp_all

theorem same_iff (hx : x ≠ .nan) : x.same y = true ↔ x = y := by
  rcases x with x | negative | _ <;> simp_all [same]

end Number

theorem Scalar.same_iff {value other : Scalar} (h : value ≠ .float .nan) :
    value.same other = true ↔ value = other := by
  rcases value with _ | s | n | x <;> rcases other with _ | t | m | y
  case float.float =>
    rw [same, Number.same_iff fun hx => h (congrArg float hx), float.injEq]
  all_goals simp [same]

namespace TabularIngestion

open OptionResearch.LocalDatasetProvider (SetsAside Aborts setsAside_valueError
  not_aborts_mapColumns not_aborts_setIdentifiers aborts_normalizeCells)

/-! ### Fields -/

section Text

variable (text : RowText)

/-- A text spells neither a NaN nor an instant that is out of the calendar's range. -/
def Plain (s : String) : Prop :=
  text.readFloat s ≠ some .nan ∧ ∀ time, text.dateTime s = .ok time → ¬ time.OutOfRange

/-- What is written for `None` and for finite numbers is plain. -/
structure WritesPlainly : Prop where
  none : Plain text "None"
  int (n : Int) : Plain text (toString n)
  float (value : ℚ) : Plain text (text.writeFloat (.finite value))

/-- A field is nothing, a finite number, or a text that is plain without the space around it. -/
def Admissible : Scalar → Prop
  | .null => True
  | .str s => Plain text (text.strip s)
  | .int _ => True
  | .float number => ∃ value, number = .finite value

/-- A row whose columns are all named by texts, with fields of these kinds. -/
structure SourceRow.Admissible (row : SourceRow) : Prop where
  columns : row.rest = none
  fields : ∀ entry ∈ row.values.entries, TabularIngestion.Admissible text entry.2

/-- What is written for a value is plain. -/
def Legible (value : Scalar) : Prop := ∀ s, text.str value = .ok s → Plain text s

end Text

section Record

variable {text : RowText} {row : SourceRow} {source : SourceMetadata} {output cells record : Row}

theorem legible_null (htext : WritesPlainly text) : Legible text .null := by
  rintro s ⟨⟩
  exact htext.none

theorem legible_mapCell (htext : WritesPlainly text) (hrow : row.Admissible text)
    {cells : Row × List RepairRecord} (hcells : ∀ field, Legible text (cells.1.getValue field))
    (column : String × String) (field : String) :
    Legible text ((mapCell text row source cells column).1.getValue field) := by
  have hadmissible : Admissible text (row.values.getValue column.1) := by
    rw [InsertionDict.getValue]
    cases hget : row.values.get? column.1 with
    | none => trivial
    | some value => exact hrow.fields _ (InsertionDict.get?_eq_some_iff.mp hget)
  rw [mapCell]
  generalize row.values.getValue column.1 = value at hadmissible ⊢
  by_cases hfield : field = column.2
  · cases value with
    | null =>
      dsimp only
      rw [InsertionDict.getValue_set, if_pos hfield]
      exact legible_null htext
    | str s =>
      dsimp only
      rw [InsertionDict.getValue_set, if_pos hfield]
      split_ifs
      · exact legible_null htext
      · rintro t ⟨⟩
        exact hadmissible
    | int n =>
      dsimp only
      rw [InsertionDict.getValue_set, if_pos hfield]
      intro s hs
      rw [RowText.str] at hs
      split_ifs at hs
      cases hs
      exact htext.int n
    | float number =>
      dsimp only
      rw [InsertionDict.getValue_set, if_pos hfield]
      obtain ⟨value, rfl⟩ := hadmissible
      rintro s ⟨⟩
      exact htext.float value
  · cases value <;> dsimp only <;> rw [InsertionDict.getValue_set, if_neg hfield] <;>
      exact hcells field

theorem legible_mapCells (htext : WritesPlainly text) (hrow : row.Admissible text)
    {mapping : InsertionDict String String} (field : String) :
    Legible text ((mapCells text row mapping source).1.getValue field) := by
  suffices hfold : ∀ (columns : List (String × String)) (cells : Row × List RepairRecord),
      (∀ field, Legible text (cells.1.getValue field)) →
        ∀ field,
          Legible text ((columns.foldl (mapCell text row source) cells).1.getValue field) from
    hfold mapping.entries (.empty, []) (fun _ => legible_null htext) field
  intro columns
  induction columns with
  | nil => exact fun cells h => h
  | cons column rest ih => exact fun cells h => ih _ (legible_mapCell htext hrow h column)

/-! ### Normalization -/

theorem setIdentifiers_spec (h : setIdentifiers text output = .ok cells) :
    (∃ symbol, cells.getValue "symbol" = .str symbol) ∧
      ∀ field, field ≠ "symbol" → field ≠ "option_type" →
        cells.getValue field = output.getValue field := by
  obtain ⟨symbol, -, h⟩ := except_bind_eq_ok.mp h
  obtain ⟨optionType, -, h⟩ := except_bind_eq_ok.mp h
  cases h
  refine ⟨⟨symbol, ?_⟩, fun field hsymbol htype => ?_⟩
  · rw [InsertionDict.getValue_set, if_neg (by decide), InsertionDict.getValue_set, if_pos rfl]
  · rw [InsertionDict.getValue_set, if_neg htype, InsertionDict.getValue_set, if_neg hsymbol]

theorem readNumber_spec {field : String} (hlegible : Legible text (output.getValue field))
    (h : readNumber text output field = .ok cells) :
    ∃ number, number ≠ .nan ∧ cells = output.set field (.float number) := by
  obtain ⟨value, hvalue, h⟩ := except_bind_eq_ok.mp h
  obtain ⟨s, hs, h⟩ := except_bind_eq_ok.mp h
  obtain ⟨number, hnumber, h⟩ := except_bind_eq_ok.mp h
  cases h
  refine ⟨number, ?_, rfl⟩
  rintro rfl
  rw [RowText.float] at hnumber
  split at hnumber
  · next hread =>
    cases hnumber
    exact (hlegible s (InsertionDict.getValue_of_item hvalue ▸ hs)).1 hread
  · cases hnumber

/-- Nothing, or a number that is one. -/
def Numeric (value : Scalar) : Prop :=
  value = .null ∨ ∃ number, value = .float number ∧ number ≠ .nan

/-- Reading the numbers leaves one in each of their fields that is given, and the other fields as
they are. -/
theorem readNumbers_spec {fields : List String} (hnodup : fields.Nodup)
    (hlegible : ∀ field ∈ fields, Legible text (output.getValue field))
    (h : fields.foldlM (fun output field =>
      if output.getValue field = .null then .ok output else readNumber text output field) output =
        .ok cells) :
    (∀ field ∈ fields, Numeric (cells.getValue field)) ∧
      ∀ field ∉ fields, cells.getValue field = output.getValue field := by
  induction fields generalizing output with
  | nil =>
    cases h
    exact ⟨fun _ hfield => absurd hfield List.not_mem_nil, fun _ _ => rfl⟩
  | cons first rest ih =>
    obtain ⟨hfirst, hrest⟩ := List.nodup_cons.mp hnodup
    rw [List.foldlM_cons] at h
    obtain ⟨next, hnext, h⟩ := except_bind_eq_ok.mp h
    have hstep : Numeric (next.getValue first) ∧
        ∀ field, field ≠ first → next.getValue field = output.getValue field := by
      split_ifs at hnext with hnull
      · cases hnext
        exact ⟨.inl hnull, fun _ _ => rfl⟩
      · obtain ⟨number, hnumber, rfl⟩ :=
          readNumber_spec (hlegible first List.mem_cons_self) hnext
        refine ⟨.inr ⟨number, ?_, hnumber⟩, fun field hfield => ?_⟩
        · rw [InsertionDict.getValue_set, if_pos rfl]
        · rw [InsertionDict.getValue_set, if_neg hfield]
    obtain ⟨hnumbers, hothers⟩ := ih hrest (fun field hfield => by
      rw [hstep.2 field fun heq => hfirst (heq ▸ hfield)]
      exact hlegible field (List.mem_cons_of_mem _ hfield)) h
    refine ⟨List.forall_mem_cons.mpr ⟨?_, hnumbers⟩, fun field hfield => ?_⟩
    · rw [hothers first hfirst]
      exact hstep.1
    · rw [List.mem_cons, not_or] at hfield
      rw [hothers field hfield.2, hstep.2 field hfield.1]

/-- The fields of a record that are numbers, the symbol, and the times. -/
structure Normal (record : Row) : Prop where
  symbol : ∃ symbol, record.getValue "symbol" = .str symbol
  expiration : ∃ date : OrdinalDate, record.getValue "expiration" = .str date.isoformat
  strike : ∃ strike, record.getValue "strike" = .float strike ∧ strike ≠ .nan
  numbers : ∀ field ∈ optionalNumbers, Numeric (record.getValue field)
  quoteTime : ∃ time : UtcTime, record.getValue "quote_timestamp" = .str time.isoformat

theorem readCells_spec {time : DateTime} (hlegible : ∀ field, field ≠ "symbol" →
      field ≠ "option_type" → Legible text (output.getValue field))
    (h : readCells text output = .ok (cells, time)) :
    cells.getValue "symbol" = output.getValue "symbol" ∧
      (∃ date : OrdinalDate, cells.getValue "expiration" = .str date.isoformat) ∧
      (∃ strike, cells.getValue "strike" = .float strike ∧ strike ≠ .nan) ∧
      (∀ field ∈ optionalNumbers, Numeric (cells.getValue field)) ∧ ¬ time.OutOfRange := by
  obtain ⟨priced, hstrike, h⟩ := except_bind_eq_ok.mp h
  obtain ⟨strike, hnan, rfl⟩ := readNumber_spec (hlegible _ (by decide) (by decide)) hstrike
  obtain ⟨numbered, hnumbers, h⟩ := except_bind_eq_ok.mp h
  have hdistinct : ∀ field ∈ optionalNumbers, field ≠ "strike" ∧ field ≠ "symbol" ∧
      field ≠ "option_type" ∧ field ≠ "expiration" := by decide
  obtain ⟨hnumeric, hothers⟩ := readNumbers_spec (by decide) (fun field hfield => by
    obtain ⟨hstrike, hsymbol, htype, -⟩ := hdistinct field hfield
    rw [InsertionDict.getValue_set, if_neg hstrike]
    exact hlegible field hsymbol htype) hnumbers
  obtain ⟨expiration, -, h⟩ := except_bind_eq_ok.mp h
  obtain ⟨dated, -, h⟩ := except_bind_eq_ok.mp h
  obtain ⟨date, -, h⟩ := except_bind_eq_ok.mp h
  obtain ⟨value, hvalue, h⟩ := except_bind_eq_ok.mp h
  obtain ⟨s, hs, h⟩ := except_bind_eq_ok.mp h
  obtain ⟨found, hfound, h⟩ := except_bind_eq_ok.mp h
  split_ifs at h
  cases h
  have hquote := InsertionDict.getValue_of_item hvalue
  rw [InsertionDict.getValue_set, if_neg (by decide), hothers _ (by decide),
    InsertionDict.getValue_set, if_neg (by decide)] at hquote
  refine ⟨?_, ⟨date, ?_⟩, ⟨strike, ?_, hnan⟩, fun field hfield => ?_, ?_⟩
  · rw [InsertionDict.getValue_set, if_neg (by decide), hothers _ (by decide),
      InsertionDict.getValue_set, if_neg (by decide)]
  · rw [InsertionDict.getValue_set, if_pos rfl]
  · rw [InsertionDict.getValue_set, if_neg (by decide), hothers _ (by decide),
      InsertionDict.getValue_set, if_pos rfl]
  · rw [InsertionDict.getValue_set, if_neg (hdistinct field hfield).2.2.2]
    exact hnumeric field hfield
  · exact (hlegible _ (by decide) (by decide) s (hquote ▸ hs)).2 _ hfound

/-- Normalization leaves the fields of a record as they have to be. -/
theorem normal_of_normalizeRow (htext : WritesPlainly text) (hrow : row.Admissible text)
    {mapping : InsertionDict String String} {repairs : List RepairRecord}
    (h : normalizeRow text row mapping source = .ok (record, repairs)) : Normal record := by
  obtain ⟨output, houtput, h⟩ := except_bind_eq_ok.mp h
  obtain ⟨normalized, hnormalized, h⟩ := except_bind_eq_ok.mp h
  cases h
  obtain ⟨⟨symbol, hsymbol⟩, hothers⟩ := setIdentifiers_spec houtput
  obtain ⟨⟨cells, time⟩, hcells, h⟩ := except_bind_eq_ok.mp (mapError_eq_ok_iff.mp hnormalized)
  obtain ⟨utc, -, h⟩ := except_bind_eq_ok.mp h
  cases h
  obtain ⟨hkept, ⟨date, hdate⟩, ⟨strike, hstrike, hnan⟩, hnumbers, -⟩ :=
    readCells_spec (fun field hsymbol htype => by
      rw [hothers field hsymbol htype]
      exact legible_mapCells htext hrow field) hcells
  have hframe : ∀ field, field ≠ "quote_timestamp" →
      (cells.set "quote_timestamp" (.str utc.isoformat)).getValue field = cells.getValue field :=
    fun field hfield => by rw [InsertionDict.getValue_set, if_neg hfield]
  have hdistinct : ∀ field ∈ optionalNumbers, field ≠ "quote_timestamp" := by decide
  exact
    { symbol := ⟨symbol, by rw [hframe _ (by decide), hkept, hsymbol]⟩
      expiration := ⟨date, by rw [hframe _ (by decide), hdate]⟩
      strike := ⟨strike, by rw [hframe _ (by decide), hstrike], hnan⟩
      numbers := fun field hfield => by
        rw [hframe field (hdistinct field hfield)]
        exact hnumbers field hfield
      quoteTime := ⟨utc, by rw [InsertionDict.getValue_set, if_pos rfl]⟩ }

/-! ### Validation -/

/-- What an accepted record is: it has a symbol, is a call or a put, its strike is positive, its
prices are not negative where they are given, and its market is not crossed. -/
structure Sound (record : Row) : Prop where
  symbol : ∃ symbol, record.getValue "symbol" = .str symbol ∧ symbol ≠ ""
  expiration : ∃ date : OrdinalDate, record.getValue "expiration" = .str date.isoformat
  strike : ∃ strike, record.getValue "strike" = .float strike ∧
    Number.lt (.finite 0) strike = true
  optionType : record.getValue "option_type" ∈ [Scalar.str "C", .str "P"]
  quoteTime : ∃ time : UtcTime, record.getValue "quote_timestamp" = .str time.isoformat
  prices : ∀ field ∈ ["bid", "ask", "last", "underlying_price"], record.getValue field = .null ∨
    ∃ price, record.getValue field = .float price ∧ Number.le (.finite 0) price = true
  uncrossed : ∀ bid ask, record.getValue "bid" = .float bid → record.getValue "ask" = .float ask →
    bid.le ask = true

theorem number?_of_getValue {field : String} {number : Number}
    (h : record.getValue field = .float number) : record.number? field = some number := by
  rw [InsertionDict.getValue] at h
  rw [InsertionDict.number?]
  cases hget : record.get? field with
  | none =>
    rw [hget] at h
    cases h
  | some value =>
    rw [hget] at h
    cases h
    rfl

theorem ne_nan_of_numeric {field : String} {number : Number}
    (h : Numeric (record.getValue field)) (hnumber : record.getValue field = .float number) :
    number ≠ .nan := by
  obtain hnull | ⟨other, hother, hnan⟩ := h
  · rw [hnull] at hnumber
    cases hnumber
  · rw [hother] at hnumber
    cases hnumber
    exact hnan

/-- What validation passes is sound, where the fields are as they have to be. -/
theorem sound_of_validateRow (hnormal : Normal record) (h : validateRow record = none) :
    Sound record := by
  unfold validateRow at h
  split_ifs at h with hidentifiers hstrike hprices hcrossed
  rw [not_or, not_not] at hidentifiers
  have hzero : Number.finite 0 ≠ .nan := Number.noConfusion
  have hnan : ∀ field ∈ optionalNumbers, ∀ number, record.getValue field = .float number →
      number ≠ .nan := fun field hfield number => ne_nan_of_numeric (hnormal.numbers field hfield)
  have hlisted : ∀ field ∈ ["bid", "ask", "last", "underlying_price"], field ∈ optionalNumbers := by
    decide
  obtain ⟨symbol, hsymbol⟩ := hnormal.symbol
  obtain ⟨strike, hstrikeValue, hstrikeNan⟩ := hnormal.strike
  refine ⟨⟨symbol, hsymbol, ?_⟩, hnormal.expiration, ⟨strike, hstrikeValue, ?_⟩, hidentifiers.2,
    hnormal.quoteTime, fun field hfield => ?_, fun bid ask hbid hask => ?_⟩
  · rintro rfl
    rw [hsymbol] at hidentifiers
    exact absurd hidentifiers.1 (by decide)
  · rw [number?_of_getValue hstrikeValue, Option.any_some] at hstrike
    exact Number.lt_of_not_le hstrikeNan hzero (Bool.eq_false_iff.mpr hstrike)
  · obtain hnull | ⟨price, hprice, -⟩ := hnormal.numbers field (hlisted field hfield)
    · exact .inl hnull
    · have hnegative := List.any_eq_false.mp (Bool.eq_false_iff.mpr hprices) field hfield
      rw [number?_of_getValue hprice, Option.any_some] at hnegative
      have hnumber := hnan field (hlisted field hfield) price hprice
      exact .inr ⟨price, hprice,
        Number.le_of_not_lt hnumber hzero (Bool.eq_false_iff.mpr hnegative)⟩
  · rw [number?_of_getValue hbid, number?_of_getValue hask, Option.any_some, Option.any_some]
      at hcrossed
    exact Number.le_of_not_lt (hnan _ (by decide) ask hask) (hnan _ (by decide) bid hbid)
      (Bool.eq_false_iff.mpr hcrossed)

variable {profile : SchemaProfile} {explicit : InsertionDict String String}

theorem sound_of_readRow (htext : WritesPlainly text) (hrow : row.Admissible text)
    {repairs : List RepairRecord}
    (h : readRow text profile explicit row source = .ok (record, repairs)) : Sound record := by
  obtain ⟨mapping, -, h⟩ := except_bind_eq_ok.mp h
  obtain ⟨⟨found, others⟩, hfound, h⟩ := except_bind_eq_ok.mp h
  dsimp only at h
  split at h
  · cases h
  · next hvalid =>
    cases h
    exact sound_of_validateRow (normal_of_normalizeRow htext hrow hfound) hvalid

/-! ### What is raised -/

theorem not_aborts_resolveColumns {columns : List String} :
    ¬ Aborts (resolveColumns text columns profile explicit) := by
  intro h
  rcases raises_bind.mp h with hmapped | ⟨mapping, -, hmissing⟩
  · exact not_aborts_mapColumns hmapped
  · dsimp only at hmissing
    split_ifs at hmissing
    · exact raises_error.mp hmissing (setsAside_valueError _)
    · exact not_raises_pure hmissing

/-- What is raised on an admissible row is set aside. -/
theorem not_aborts_readRow (htext : WritesPlainly text) (hrow : row.Admissible text) :
    ¬ Aborts (readRow text profile explicit row source) := by
  intro h
  rcases raises_bind.mp h with hmapping | ⟨mapping, -, h⟩
  · rw [resolveMapping, hrow.columns] at hmapping
    exact not_aborts_resolveColumns hmapping
  rcases raises_bind.mp h with hnormalize | ⟨⟨record, repairs⟩, -, h⟩
  · rcases raises_bind.mp hnormalize with hidentifiers | ⟨output, houtput, h⟩
    · exact not_aborts_setIdentifiers hidentifiers
    · rcases raises_bind.mp h with hcells | ⟨record, -, h⟩
      · obtain ⟨cells, time, hread, hrange⟩ := aborts_normalizeCells.mp hcells
        obtain ⟨-, hothers⟩ := setIdentifiers_spec houtput
        exact (readCells_spec (fun field hsymbol htype => by
          rw [hothers field hsymbol htype]
          exact legible_mapCells htext hrow field) hread).2.2.2.2 hrange
      · exact not_raises_pure h
  · dsimp only at h
    split at h
    · exact raises_error.mp h (setsAside_valueError _)
    · exact not_raises_ok h

end Record
end TabularIngestion
end OptionResearch
