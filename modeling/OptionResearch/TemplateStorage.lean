import OptionResearch.BinomialTree
import OptionResearch.JsonNormalForm

/-!
# The storage of strategy templates

`serialize_template` and `load_template` of `strategy_library.py`. A dataclass does not check its
annotations, so that a field holds whatever value its constructor got. The loader makes tuples of
the lists that JSON leaves of them, but for the entry requirements and the optimizer contract, which
it builds from the stored keywords as they are: no template comes back equal.
-/

namespace OptionResearch.StrategyLibrary

/-! ### Enumerations -/

inductive StrategyFamily where
  | directional
  | vertical
  | iron
  | butterflyCondor
  | volatility
  | calendarDiagonal
  | coveredReplacement
  | ratioBackspread
  | lizardVariants
  | boxArbitrage
  | custom
  deriving DecidableEq

def strategyFamily : PyEnum StrategyFamily where
  className := "StrategyFamily"
  members := [.directional, .vertical, .iron, .butterflyCondor, .volatility, .calendarDiagonal,
    .coveredReplacement, .ratioBackspread, .lizardVariants, .boxArbitrage, .custom]
  value
    | .directional => "directional"
    | .vertical => "vertical"
    | .iron => "iron"
    | .butterflyCondor => "butterfly_condor"
    | .volatility => "volatility"
    | .calendarDiagonal => "calendar_diagonal"
    | .coveredReplacement => "covered_replacement"
    | .ratioBackspread => "ratio_backspread"
    | .lizardVariants => "lizard_variants"
    | .boxArbitrage => "box_arbitrage"
    | .custom => "custom"
  find_value e := by cases e <;> decide

inductive AccountType where
  | cash
  | margin
  | portfolioMargin
  deriving DecidableEq

def accountType : PyEnum AccountType where
  className := "AccountType"
  members := [.cash, .margin, .portfolioMargin]
  value
    | .cash => "cash"
    | .margin => "margin"
    | .portfolioMargin => "portfolio_margin"
  find_value e := by cases e <;> decide

inductive UnderlyingSupport where
  | equity
  | etf
  | index
  | futures
  deriving DecidableEq

def underlyingSupport : PyEnum UnderlyingSupport where
  className := "UnderlyingSupport"
  members := [.equity, .etf, .index, .futures]
  value
    | .equity => "equity"
    | .etf => "etf"
    | .index => "index"
    | .futures => "futures"
  find_value e := by cases e <;> decide

inductive StrategyBias where
  | bullish
  | bearish
  | neutral
  | variable
  deriving DecidableEq

def strategyBias : PyEnum StrategyBias where
  className := "StrategyBias"
  members := [.bullish, .bearish, .neutral, .variable]
  value
    | .bullish => "bullish"
    | .bearish => "bearish"
    | .neutral => "neutral"
    | .variable => "variable"
  find_value e := by cases e <;> decide

inductive RiskLevel where
  | low
  | medium
  | high
  | unbounded
  deriving DecidableEq

def riskLevel : PyEnum RiskLevel where
  className := "RiskLevel"
  members := [.low, .medium, .high, .unbounded]
  value
    | .low => "low"
    | .medium => "medium"
    | .high => "high"
    | .unbounded => "unbounded"
  find_value e := by cases e <;> decide

inductive LegKind where
  | call
  | put
  | stock
  | cash
  deriving DecidableEq

def legKind : PyEnum LegKind where
  className := "LegKind"
  members := [.call, .put, .stock, .cash]
  value
    | .call => "call"
    | .put => "put"
    | .stock => "stock"
    | .cash => "cash"
  find_value e := by cases e <;> decide

inductive LegDirection where
  | buy
  | sell
  deriving DecidableEq

def legDirection : PyEnum LegDirection where
  className := "LegDirection"
  members := [.buy, .sell]
  value
    | .buy => "buy"
    | .sell => "sell"
  find_value e := by cases e <;> decide

inductive SettlementType where
  | physical
  | cash
  deriving DecidableEq

def settlementType : PyEnum SettlementType where
  className := "SettlementType"
  members := [.physical, .cash]
  value
    | .physical => "physical"
    | .cash => "cash"
  find_value e := by cases e <;> decide

def optionType : PyEnum OptionType where
  className := "OptionType"
  members := [.call, .put]
  value
    | .call => "call"
    | .put => "put"
  find_value e := by cases e <;> decide

def exerciseStyle : PyEnum ExerciseStyle where
  className := "ExerciseStyle"
  members := [.european, .american]
  value
    | .european => "european"
    | .american => "american"
  find_value e := by cases e <;> decide

/-! ### Templates -/

structure StrategyTemplateLeg where
  label : PyValue
  legKind : LegKind
  direction : LegDirection
  quantityRatio : Int := 1
  contractMultiplier : Int := 100
  optionTypeRequirement : Option OptionType := none
  strikeOrderHint : PyValue := .none
  expirationOrderHint : PyValue := .none
  exerciseStyleRequirement : Option ExerciseStyle := none
  settlementRequirement : Option SettlementType := none
  legGroup : PyValue := .none
  required : Bool := true
  metadata : Payload := []

structure EntryRequirements where
  requiredData : PyValue := .tuple []
  liquidityThreshold : PyValue := .none
  bidAskWidthThreshold : PyValue := .none
  ivRankThreshold : PyValue := .none
  ivPercentileThreshold : PyValue := .none
  qualityScoreThreshold : PyValue := .none
  earningsTiming : PyValue := .none
  eventRestrictions : PyValue := .tuple []

/-- The fields that the loader makes tuples of are lists of their items. -/
structure CompatibilityRules where
  supportedUnderlyings : List UnderlyingSupport
  supportedExerciseStyles : List ExerciseStyle
  supportedSettlementStyles : List SettlementType
  supportedAccountTypes : List AccountType
  supportedLifecyclePolicies : List PyValue
  supportedRollPolicies : List PyValue
  supportsAdjustedContracts : Bool := false

structure RiskClassification where
  directionalBias : StrategyBias
  volatilityBias : StrategyBias
  thetaBias : StrategyBias
  gammaBias : StrategyBias
  vegaBias : StrategyBias
  eventSensitivity : RiskLevel
  assignmentSensitivity : RiskLevel
  dividendSensitivity : RiskLevel
  marginComplexity : RiskLevel
  liquiditySensitivity : RiskLevel
  tailRisk : RiskLevel
  definedRisk : Bool
  multiExpiry : Bool
  hasStockComponent : Bool
  americanStyleSensitivity : RiskLevel

structure OptimizerParameterContract where
  deltaRanges : PyValue := .tuple []
  dteRanges : PyValue := .tuple []
  widthRanges : PyValue := .tuple []
  ratioChoices : PyValue := .tuple []
  strikeSelectionModes : PyValue := .tuple []
  termStructureFilters : PyValue := .tuple []
  ivRankFilters : PyValue := .tuple []
  ivPercentileFilters : PyValue := .tuple []
  historicalVolatilityFilters : PyValue := .tuple []
  realizedVolatilityFilters : PyValue := .tuple []
  earningsTiming : PyValue := .tuple []
  qualityThresholds : PyValue := .tuple []
  liquidityThresholds : PyValue := .tuple []
  capitalConstraints : PyValue := .tuple []
  managementPolicyCompatibility : PyValue := .tuple []
  rollPolicyCompatibility : PyValue := .tuple []

structure TemplateDeprecation where
  isDeprecated : Bool := false
  deprecatedAfter : PyValue := .none
  replacementIdentifier : PyValue := .none
  reason : PyValue := .none

structure StrategyTemplate where
  name : PyValue
  canonicalIdentifier : PyValue
  version : PyValue
  aliases : List PyValue
  family : StrategyFamily
  legs : List StrategyTemplateLeg
  entryRequirements : EntryRequirements
  compatibility : CompatibilityRules
  riskClassification : RiskClassification
  optimizerContract : OptimizerParameterContract
  knownLimitations : List PyValue := []
  metadata : Payload := []
  deprecation : TemplateDeprecation := {}

/-! ### Annotations -/

open PyValue (IsText IsInteger IsNumber IsOptional IsTupleOf IsPairOf representableEntries)

/-- The fields hold values of their declared types, and the metadata ones that JSON can write. -/
structure StrategyTemplateLeg.Annotated (leg : StrategyTemplateLeg) : Prop where
  label : leg.label.IsText
  strikeOrderHint : IsOptional IsText leg.strikeOrderHint
  expirationOrderHint : IsOptional IsText leg.expirationOrderHint
  legGroup : IsOptional IsText leg.legGroup
  metadata : representableEntries leg.metadata = true

structure EntryRequirements.Annotated (entry : EntryRequirements) : Prop where
  requiredData : IsTupleOf IsText entry.requiredData
  liquidityThreshold : IsOptional IsNumber entry.liquidityThreshold
  bidAskWidthThreshold : IsOptional IsNumber entry.bidAskWidthThreshold
  ivRankThreshold : IsOptional IsNumber entry.ivRankThreshold
  ivPercentileThreshold : IsOptional IsNumber entry.ivPercentileThreshold
  qualityScoreThreshold : IsOptional IsNumber entry.qualityScoreThreshold
  earningsTiming : IsOptional IsText entry.earningsTiming
  eventRestrictions : IsTupleOf IsText entry.eventRestrictions

structure CompatibilityRules.Annotated (rules : CompatibilityRules) : Prop where
  supportedLifecyclePolicies : ∀ policy ∈ rules.supportedLifecyclePolicies, policy.IsText
  supportedRollPolicies : ∀ policy ∈ rules.supportedRollPolicies, policy.IsText

structure OptimizerParameterContract.Annotated (optimizer : OptimizerParameterContract) :
    Prop where
  deltaRanges : IsTupleOf (IsPairOf IsNumber) optimizer.deltaRanges
  dteRanges : IsTupleOf (IsPairOf IsInteger) optimizer.dteRanges
  widthRanges : IsTupleOf (IsPairOf IsNumber) optimizer.widthRanges
  ratioChoices : IsTupleOf (IsTupleOf IsInteger) optimizer.ratioChoices
  strikeSelectionModes : IsTupleOf IsText optimizer.strikeSelectionModes
  termStructureFilters : IsTupleOf IsText optimizer.termStructureFilters
  ivRankFilters : IsTupleOf (IsPairOf IsNumber) optimizer.ivRankFilters
  ivPercentileFilters : IsTupleOf (IsPairOf IsNumber) optimizer.ivPercentileFilters
  historicalVolatilityFilters :
    IsTupleOf (IsPairOf IsNumber) optimizer.historicalVolatilityFilters
  realizedVolatilityFilters : IsTupleOf (IsPairOf IsNumber) optimizer.realizedVolatilityFilters
  earningsTiming : IsTupleOf IsText optimizer.earningsTiming
  qualityThresholds : IsTupleOf IsNumber optimizer.qualityThresholds
  liquidityThresholds : IsTupleOf IsNumber optimizer.liquidityThresholds
  capitalConstraints : IsTupleOf IsNumber optimizer.capitalConstraints
  managementPolicyCompatibility : IsTupleOf IsText optimizer.managementPolicyCompatibility
  rollPolicyCompatibility : IsTupleOf IsText optimizer.rollPolicyCompatibility

/-- A deprecation without its date. -/
structure TemplateDeprecation.Annotated (deprecation : TemplateDeprecation) : Prop where
  deprecatedAfter : deprecation.deprecatedAfter = .none
  replacementIdentifier : IsOptional IsText deprecation.replacementIdentifier
  reason : IsOptional IsText deprecation.reason

structure StrategyTemplate.Annotated (template : StrategyTemplate) : Prop where
  name : template.name.IsText
  canonicalIdentifier : template.canonicalIdentifier.IsText
  version : template.version.IsText
  aliases : ∀ name ∈ template.aliases, name.IsText
  legs : ∀ leg ∈ template.legs, leg.Annotated
  entryRequirements : template.entryRequirements.Annotated
  compatibility : template.compatibility.Annotated
  optimizerContract : template.optimizerContract.Annotated
  knownLimitations : ∀ limitation ∈ template.knownLimitations, limitation.IsText
  metadata : representableEntries template.metadata = true
  deprecation : template.deprecation.Annotated

/-! ### `asdict` -/

/-- A member of an enumeration is its text. -/
def member {E : Type} (enum : PyEnum E) (e : E) : PyValue := .str (enum.value e)

def memberOrNone {E : Type} (enum : PyEnum E) : Option E → PyValue
  | none => .none
  | some e => member enum e

def legDict (leg : StrategyTemplateLeg) : Payload :=
  [("label", leg.label), ("leg_kind", member legKind leg.legKind),
    ("direction", member legDirection leg.direction), ("quantity_ratio", .int leg.quantityRatio),
    ("contract_multiplier", .int leg.contractMultiplier),
    ("option_type_requirement", memberOrNone optionType leg.optionTypeRequirement),
    ("strike_order_hint", leg.strikeOrderHint),
    ("expiration_order_hint", leg.expirationOrderHint),
    ("exercise_style_requirement", memberOrNone exerciseStyle leg.exerciseStyleRequirement),
    ("settlement_requirement", memberOrNone settlementType leg.settlementRequirement),
    ("leg_group", leg.legGroup), ("required", .bool leg.required),
    ("metadata", .dict leg.metadata)]

def entryRequirementsDict (entry : EntryRequirements) : Payload :=
  [("required_data", entry.requiredData), ("liquidity_threshold", entry.liquidityThreshold),
    ("bid_ask_width_threshold", entry.bidAskWidthThreshold),
    ("iv_rank_threshold", entry.ivRankThreshold),
    ("iv_percentile_threshold", entry.ivPercentileThreshold),
    ("quality_score_threshold", entry.qualityScoreThreshold),
    ("earnings_timing", entry.earningsTiming), ("event_restrictions", entry.eventRestrictions)]

def compatibilityDict (rules : CompatibilityRules) : Payload :=
  [("supported_underlyings",
      .tuple (rules.supportedUnderlyings.map (member underlyingSupport))),
    ("supported_exercise_styles",
      .tuple (rules.supportedExerciseStyles.map (member exerciseStyle))),
    ("supported_settlement_styles",
      .tuple (rules.supportedSettlementStyles.map (member settlementType))),
    ("supported_account_types", .tuple (rules.supportedAccountTypes.map (member accountType))),
    ("supported_lifecycle_policies", .tuple rules.supportedLifecyclePolicies),
    ("supported_roll_policies", .tuple rules.supportedRollPolicies),
    ("supports_adjusted_contracts", .bool rules.supportsAdjustedContracts)]

def riskDict (risk : RiskClassification) : Payload :=
  [("directional_bias", member strategyBias risk.directionalBias),
    ("volatility_bias", member strategyBias risk.volatilityBias),
    ("theta_bias", member strategyBias risk.thetaBias),
    ("gamma_bias", member strategyBias risk.gammaBias),
    ("vega_bias", member strategyBias risk.vegaBias),
    ("event_sensitivity", member riskLevel risk.eventSensitivity),
    ("assignment_sensitivity", member riskLevel risk.assignmentSensitivity),
    ("dividend_sensitivity", member riskLevel risk.dividendSensitivity),
    ("margin_complexity", member riskLevel risk.marginComplexity),
    ("liquidity_sensitivity", member riskLevel risk.liquiditySensitivity),
    ("tail_risk", member riskLevel risk.tailRisk), ("defined_risk", .bool risk.definedRisk),
    ("multi_expiry", .bool risk.multiExpiry),
    ("has_stock_component", .bool risk.hasStockComponent),
    ("american_style_sensitivity", member riskLevel risk.americanStyleSensitivity)]

def optimizerDict (optimizer : OptimizerParameterContract) : Payload :=
  [("delta_ranges", optimizer.deltaRanges), ("dte_ranges", optimizer.dteRanges),
    ("width_ranges", optimizer.widthRanges), ("ratio_choices", optimizer.ratioChoices),
    ("strike_selection_modes", optimizer.strikeSelectionModes),
    ("term_structure_filters", optimizer.termStructureFilters),
    ("iv_rank_filters", optimizer.ivRankFilters),
    ("iv_percentile_filters", optimizer.ivPercentileFilters),
    ("historical_volatility_filters", optimizer.historicalVolatilityFilters),
    ("realized_volatility_filters", optimizer.realizedVolatilityFilters),
    ("earnings_timing", optimizer.earningsTiming),
    ("quality_thresholds", optimizer.qualityThresholds),
    ("liquidity_thresholds", optimizer.liquidityThresholds),
    ("capital_constraints", optimizer.capitalConstraints),
    ("management_policy_compatibility", optimizer.managementPolicyCompatibility),
    ("roll_policy_compatibility", optimizer.rollPolicyCompatibility)]

def deprecationDict (deprecation : TemplateDeprecation) : Payload :=
  [("is_deprecated", .bool deprecation.isDeprecated),
    ("deprecated_after", deprecation.deprecatedAfter),
    ("replacement_identifier", deprecation.replacementIdentifier),
    ("reason", deprecation.reason)]

def serializeTemplate (template : StrategyTemplate) : Payload :=
  [("name", template.name), ("canonical_identifier", template.canonicalIdentifier),
    ("version", template.version), ("aliases", .tuple template.aliases),
    ("family", member strategyFamily template.family),
    ("legs", .tuple (template.legs.map fun leg => .dict (legDict leg))),
    ("entry_requirements", .dict (entryRequirementsDict template.entryRequirements)),
    ("compatibility", .dict (compatibilityDict template.compatibility)),
    ("risk_classification", .dict (riskDict template.riskClassification)),
    ("optimizer_contract", .dict (optimizerDict template.optimizerContract)),
    ("known_limitations", .tuple template.knownLimitations),
    ("metadata", .dict template.metadata),
    ("deprecation", .dict (deprecationDict template.deprecation)),
    ("schema_version", .str "strategy-template-schema-v1")]

/-! ### `load_template` -/

/-- How texts are written, and integers read. -/
structure TemplateText extends PyText where
  parseInt : String → Option Int

variable (text : TemplateText)

/-- `int(value)`. -/
def intOf : PyValue → Except Exc Int
  | .int n => .ok n
  | .bool b => .ok (if b then 1 else 0)
  | .float q => .ok (truncate q)
  | .str s => match text.parseInt s with
    | some n => .ok n
    | none => .error ⟨.valueError,
        s!"invalid literal for int() with base 10: {text.repr (.str s)}"⟩
  | value => .error ⟨.typeError, s!"int() argument must be a string, a bytes-like object or a real " ++
      s!"number, not '{value.typeName}'"⟩

/-- `None if value is None else Class(value)`. -/
def parseOrNone {E : Type} (enum : PyEnum E) (value : PyValue) : Except Exc (Option E) :=
  match value with
  | .none => .ok none
  | value => (enum.parse text.toPyText value).map some

def loadLeg (leg : PyValue) : Except Exc StrategyTemplateLeg := do
  return {
    label := ← leg.subscript "label"
    legKind := ← legKind.parse text.toPyText (← leg.subscript "leg_kind")
    direction := ← legDirection.parse text.toPyText (← leg.subscript "direction")
    quantityRatio := ← intOf text (← leg.getKey "quantity_ratio" (.int 1))
    contractMultiplier := ← intOf text (← leg.getKey "contract_multiplier" (.int 100))
    optionTypeRequirement :=
      ← parseOrNone text optionType (← leg.getKey "option_type_requirement" .none)
    strikeOrderHint := ← leg.getKey "strike_order_hint" .none
    expirationOrderHint := ← leg.getKey "expiration_order_hint" .none
    exerciseStyleRequirement :=
      ← parseOrNone text exerciseStyle (← leg.getKey "exercise_style_requirement" .none)
    settlementRequirement :=
      ← parseOrNone text settlementType (← leg.getKey "settlement_requirement" .none)
    legGroup := ← leg.getKey "leg_group" .none
    required := (← leg.getKey "required" (.bool true)).truth
    metadata := ← (← leg.getKey "metadata" (.dict [])).toDict }

/-- `EntryRequirements(**value)`. -/
def loadEntryRequirements (value : PyValue) : Except Exc EntryRequirements := do
  let given ← value.keywords "EntryRequirements"
    ["required_data", "liquidity_threshold", "bid_ask_width_threshold", "iv_rank_threshold",
      "iv_percentile_threshold", "quality_score_threshold", "earnings_timing",
      "event_restrictions"]
  return {
    requiredData := Payload.get given "required_data" (.tuple [])
    liquidityThreshold := Payload.get given "liquidity_threshold" .none
    bidAskWidthThreshold := Payload.get given "bid_ask_width_threshold" .none
    ivRankThreshold := Payload.get given "iv_rank_threshold" .none
    ivPercentileThreshold := Payload.get given "iv_percentile_threshold" .none
    qualityScoreThreshold := Payload.get given "quality_score_threshold" .none
    earningsTiming := Payload.get given "earnings_timing" .none
    eventRestrictions := Payload.get given "event_restrictions" (.tuple []) }

def loadCompatibility (compatibility : PyValue) : Except Exc CompatibilityRules := do
  return {
    supportedUnderlyings := ← (← (← compatibility.subscript "supported_underlyings").iter).mapM
      (underlyingSupport.parse text.toPyText)
    supportedExerciseStyles :=
      ← (← (← compatibility.subscript "supported_exercise_styles").iter).mapM
        (exerciseStyle.parse text.toPyText)
    supportedSettlementStyles :=
      ← (← (← compatibility.subscript "supported_settlement_styles").iter).mapM
        (settlementType.parse text.toPyText)
    supportedAccountTypes :=
      ← (← (← compatibility.subscript "supported_account_types").iter).mapM
        (accountType.parse text.toPyText)
    supportedLifecyclePolicies := ← (← compatibility.subscript "supported_lifecycle_policies").iter
    supportedRollPolicies := ← (← compatibility.subscript "supported_roll_policies").iter
    supportsAdjustedContracts :=
      (← compatibility.getKey "supports_adjusted_contracts" (.bool false)).truth }

def loadRisk (risk : PyValue) : Except Exc RiskClassification := do
  return {
    directionalBias := ← strategyBias.parse text.toPyText (← risk.subscript "directional_bias")
    volatilityBias := ← strategyBias.parse text.toPyText (← risk.subscript "volatility_bias")
    thetaBias := ← strategyBias.parse text.toPyText (← risk.subscript "theta_bias")
    gammaBias := ← strategyBias.parse text.toPyText (← risk.subscript "gamma_bias")
    vegaBias := ← strategyBias.parse text.toPyText (← risk.subscript "vega_bias")
    eventSensitivity := ← riskLevel.parse text.toPyText (← risk.subscript "event_sensitivity")
    assignmentSensitivity :=
      ← riskLevel.parse text.toPyText (← risk.subscript "assignment_sensitivity")
    dividendSensitivity :=
      ← riskLevel.parse text.toPyText (← risk.subscript "dividend_sensitivity")
    marginComplexity := ← riskLevel.parse text.toPyText (← risk.subscript "margin_complexity")
    liquiditySensitivity :=
      ← riskLevel.parse text.toPyText (← risk.subscript "liquidity_sensitivity")
    tailRisk := ← riskLevel.parse text.toPyText (← risk.subscript "tail_risk")
    definedRisk := (← risk.subscript "defined_risk").truth
    multiExpiry := (← risk.subscript "multi_expiry").truth
    hasStockComponent := (← risk.subscript "has_stock_component").truth
    americanStyleSensitivity :=
      ← riskLevel.parse text.toPyText (← risk.subscript "american_style_sensitivity") }

/-- `OptimizerParameterContract(**value)`. -/
def loadOptimizer (value : PyValue) : Except Exc OptimizerParameterContract := do
  let given ← value.keywords "OptimizerParameterContract"
    ["delta_ranges", "dte_ranges", "width_ranges", "ratio_choices", "strike_selection_modes",
      "term_structure_filters", "iv_rank_filters", "iv_percentile_filters",
      "historical_volatility_filters", "realized_volatility_filters", "earnings_timing",
      "quality_thresholds", "liquidity_thresholds", "capital_constraints",
      "management_policy_compatibility", "roll_policy_compatibility"]
  return {
    deltaRanges := Payload.get given "delta_ranges" (.tuple [])
    dteRanges := Payload.get given "dte_ranges" (.tuple [])
    widthRanges := Payload.get given "width_ranges" (.tuple [])
    ratioChoices := Payload.get given "ratio_choices" (.tuple [])
    strikeSelectionModes := Payload.get given "strike_selection_modes" (.tuple [])
    termStructureFilters := Payload.get given "term_structure_filters" (.tuple [])
    ivRankFilters := Payload.get given "iv_rank_filters" (.tuple [])
    ivPercentileFilters := Payload.get given "iv_percentile_filters" (.tuple [])
    historicalVolatilityFilters := Payload.get given "historical_volatility_filters" (.tuple [])
    realizedVolatilityFilters := Payload.get given "realized_volatility_filters" (.tuple [])
    earningsTiming := Payload.get given "earnings_timing" (.tuple [])
    qualityThresholds := Payload.get given "quality_thresholds" (.tuple [])
    liquidityThresholds := Payload.get given "liquidity_thresholds" (.tuple [])
    capitalConstraints := Payload.get given "capital_constraints" (.tuple [])
    managementPolicyCompatibility :=
      Payload.get given "management_policy_compatibility" (.tuple [])
    rollPolicyCompatibility := Payload.get given "roll_policy_compatibility" (.tuple []) }

def loadDeprecation (deprecation : PyValue) : Except Exc TemplateDeprecation := do
  return {
    isDeprecated := (← deprecation.getKey "is_deprecated" (.bool false)).truth
    deprecatedAfter := ← deprecation.getKey "deprecated_after" .none
    replacementIdentifier := ← deprecation.getKey "replacement_identifier" .none
    reason := ← deprecation.getKey "reason" .none }

def strategyLibraryError (message : String) : Exc := ⟨.other "StrategyLibraryError", message⟩

def loadTemplate (payload : Payload) : Except Exc StrategyTemplate := do
  let schemaVersion := Payload.get payload "schema_version" (.str "strategy-template-schema-v1")
  match schemaVersion with
  | .str "strategy-template-schema-v1" => pure ()
  | value => throw (strategyLibraryError s!"unsupported schema version: {text.str value}")
  let compatibility ← Payload.item payload "compatibility"
  let risk ← Payload.item payload "risk_classification"
  let optimizer ← Payload.item payload "optimizer_contract"
  let deprecation := Payload.get payload "deprecation" (.dict [])
  return {
    name := ← Payload.item payload "name"
    canonicalIdentifier := ← Payload.item payload "canonical_identifier"
    version := ← Payload.item payload "version"
    aliases := ← (Payload.get payload "aliases" (.tuple [])).iter
    family := ← strategyFamily.parse text.toPyText (← Payload.item payload "family")
    legs := ← (← (← Payload.item payload "legs").iter).mapM (loadLeg text)
    entryRequirements :=
      ← loadEntryRequirements (Payload.get payload "entry_requirements" (.dict []))
    compatibility := ← loadCompatibility text compatibility
    riskClassification := ← loadRisk text risk
    optimizerContract := ← loadOptimizer optimizer
    knownLimitations := ← (Payload.get payload "known_limitations" (.tuple [])).iter
    metadata := ← (Payload.get payload "metadata" (.dict [])).toDict
    deprecation := ← loadDeprecation deprecation }

/-! ### What a stored template is loaded as -/

def reloadedLeg (leg : StrategyTemplateLeg) : StrategyTemplateLeg :=
  { leg with
    label := leg.label.jsonNormal
    strikeOrderHint := leg.strikeOrderHint.jsonNormal
    expirationOrderHint := leg.expirationOrderHint.jsonNormal
    legGroup := leg.legGroup.jsonNormal
    metadata := PyValue.jsonNormalEntries leg.metadata }

def reloadedEntryRequirements (entry : EntryRequirements) : EntryRequirements where
  requiredData := entry.requiredData.jsonNormal
  liquidityThreshold := entry.liquidityThreshold.jsonNormal
  bidAskWidthThreshold := entry.bidAskWidthThreshold.jsonNormal
  ivRankThreshold := entry.ivRankThreshold.jsonNormal
  ivPercentileThreshold := entry.ivPercentileThreshold.jsonNormal
  qualityScoreThreshold := entry.qualityScoreThreshold.jsonNormal
  earningsTiming := entry.earningsTiming.jsonNormal
  eventRestrictions := entry.eventRestrictions.jsonNormal

def reloadedCompatibility (rules : CompatibilityRules) : CompatibilityRules :=
  { rules with
    supportedLifecyclePolicies := rules.supportedLifecyclePolicies.map PyValue.jsonNormal
    supportedRollPolicies := rules.supportedRollPolicies.map PyValue.jsonNormal }

def reloadedOptimizer (optimizer : OptimizerParameterContract) : OptimizerParameterContract where
  deltaRanges := optimizer.deltaRanges.jsonNormal
  dteRanges := optimizer.dteRanges.jsonNormal
  widthRanges := optimizer.widthRanges.jsonNormal
  ratioChoices := optimizer.ratioChoices.jsonNormal
  strikeSelectionModes := optimizer.strikeSelectionModes.jsonNormal
  termStructureFilters := optimizer.termStructureFilters.jsonNormal
  ivRankFilters := optimizer.ivRankFilters.jsonNormal
  ivPercentileFilters := optimizer.ivPercentileFilters.jsonNormal
  historicalVolatilityFilters := optimizer.historicalVolatilityFilters.jsonNormal
  realizedVolatilityFilters := optimizer.realizedVolatilityFilters.jsonNormal
  earningsTiming := optimizer.earningsTiming.jsonNormal
  qualityThresholds := optimizer.qualityThresholds.jsonNormal
  liquidityThresholds := optimizer.liquidityThresholds.jsonNormal
  capitalConstraints := optimizer.capitalConstraints.jsonNormal
  managementPolicyCompatibility := optimizer.managementPolicyCompatibility.jsonNormal
  rollPolicyCompatibility := optimizer.rollPolicyCompatibility.jsonNormal

def reloadedDeprecation (deprecation : TemplateDeprecation) : TemplateDeprecation :=
  { deprecation with
    deprecatedAfter := deprecation.deprecatedAfter.jsonNormal
    replacementIdentifier := deprecation.replacementIdentifier.jsonNormal
    reason := deprecation.reason.jsonNormal }

/-- Every field that the loader takes as it is comes back in its JSON form. -/
def reloaded (template : StrategyTemplate) : StrategyTemplate where
  name := template.name.jsonNormal
  canonicalIdentifier := template.canonicalIdentifier.jsonNormal
  version := template.version.jsonNormal
  aliases := template.aliases.map PyValue.jsonNormal
  family := template.family
  legs := template.legs.map reloadedLeg
  entryRequirements := reloadedEntryRequirements template.entryRequirements
  compatibility := reloadedCompatibility template.compatibility
  riskClassification := template.riskClassification
  optimizerContract := reloadedOptimizer template.optimizerContract
  knownLimitations := template.knownLimitations.map PyValue.jsonNormal
  metadata := PyValue.jsonNormalEntries template.metadata
  deprecation := reloadedDeprecation template.deprecation

variable {text}

theorem jsonNormal_memberOrNone {E : Type} (enum : PyEnum E) (e : Option E) :
    (memberOrNone enum e).jsonNormal = memberOrNone enum e := by
  cases e <;> rfl

theorem parseOrNone_memberOrNone {E : Type} (enum : PyEnum E) (e : Option E) :
    parseOrNone text enum (memberOrNone enum e) = .ok e := by
  cases e with
  | none => rfl
  | some e =>
    change (enum.parse text.toPyText (.str (enum.value e))).map some = _
    rw [PyEnum.parse_value]
    rfl

/-- The stored texts of members are the members. -/
theorem mapM_parse_member {E : Type} (enum : PyEnum E) (es : List E) :
    es.mapM (enum.parse text.toPyText ∘ PyValue.jsonNormal ∘ member enum) = .ok es := by
  have hes : ∀ e ∈ es, (enum.parse text.toPyText ∘ PyValue.jsonNormal ∘ member enum) e = .ok e := by
    intro e _
    rw [Function.comp_apply, Function.comp_apply, member, PyValue.jsonNormal_str]
    exact enum.parse_value text.toPyText e
  simpa only [List.map_id'] using mapM_eq_ok_map hes

theorem loadLeg_stored (leg : StrategyTemplateLeg) :
    loadLeg text (.dict (PyValue.jsonNormalEntries (legDict leg))) = .ok (reloadedLeg leg) := by
  simp [legDict, loadLeg, reloadedLeg, PyValue.subscript, PyValue.getKey, PyValue.asDict,
    Payload.item, Payload.get, List.lookup_cons, member, intOf, PyValue.truth, PyValue.toDict,
    jsonNormal_memberOrNone, parseOrNone_memberOrNone, except_ok_bind, pure, Except.pure]

theorem loadEntryRequirements_stored (entry : EntryRequirements) :
    loadEntryRequirements (.dict (PyValue.jsonNormalEntries (entryRequirementsDict entry))) =
      .ok (reloadedEntryRequirements entry) := by
  simp [entryRequirementsDict, loadEntryRequirements, reloadedEntryRequirements,
    PyValue.keywords, Payload.get, List.lookup_cons, except_ok_bind, pure, Except.pure]

theorem loadCompatibility_stored (rules : CompatibilityRules) :
    loadCompatibility text (.dict (PyValue.jsonNormalEntries (compatibilityDict rules))) =
      .ok (reloadedCompatibility rules) := by
  simp [compatibilityDict, loadCompatibility, reloadedCompatibility, PyValue.subscript,
    PyValue.getKey, PyValue.asDict, Payload.item, Payload.get, List.lookup_cons, PyValue.iter,
    PyValue.truth, mapM_parse_member, except_ok_bind, pure, Except.pure]

theorem loadRisk_stored (risk : RiskClassification) :
    loadRisk text (.dict (PyValue.jsonNormalEntries (riskDict risk))) = .ok risk := by
  simp [riskDict, loadRisk, PyValue.subscript, Payload.item, List.lookup_cons, member,
    PyValue.truth, except_ok_bind, pure, Except.pure]

theorem loadOptimizer_stored (optimizer : OptimizerParameterContract) :
    loadOptimizer (.dict (PyValue.jsonNormalEntries (optimizerDict optimizer))) =
      .ok (reloadedOptimizer optimizer) := by
  simp [optimizerDict, loadOptimizer, reloadedOptimizer, PyValue.keywords, Payload.get,
    List.lookup_cons, except_ok_bind, pure, Except.pure]

theorem loadDeprecation_stored (deprecation : TemplateDeprecation) :
    loadDeprecation (.dict (PyValue.jsonNormalEntries (deprecationDict deprecation))) =
      .ok (reloadedDeprecation deprecation) := by
  simp [deprecationDict, loadDeprecation, reloadedDeprecation, PyValue.getKey, PyValue.asDict,
    Payload.get, List.lookup_cons, PyValue.truth, except_ok_bind, pure, Except.pure]

theorem load_stored (template : StrategyTemplate) :
    loadTemplate text (PyValue.jsonNormalEntries (serializeTemplate template)) =
      .ok (reloaded template) := by
  have hlegs : template.legs.mapM (loadLeg text ∘ PyValue.jsonNormal ∘ fun leg =>
      .dict (legDict leg)) = .ok (template.legs.map reloadedLeg) :=
    mapM_eq_ok_map fun leg _ => by
      rw [Function.comp_apply, Function.comp_apply, PyValue.jsonNormal_dict, loadLeg_stored]
  simp [serializeTemplate, loadTemplate, reloaded, Payload.item, Payload.get, List.lookup_cons,
    hlegs, member, PyValue.iter, PyValue.toDict, loadEntryRequirements_stored,
    loadCompatibility_stored, loadRisk_stored, loadOptimizer_stored, loadDeprecation_stored,
    except_ok_bind, pure, Except.pure]

/-! ### What JSON can write -/

theorem representable_memberOrNone {E : Type} (enum : PyEnum E) (e : Option E) :
    (memberOrNone enum e).representable = true := by
  cases e <;> rfl

theorem representable_optionalText {value : PyValue} (h : IsOptional IsText value) :
    value.representable = true := h.representable fun _ => IsText.representable

theorem representable_optionalNumber {value : PyValue} (h : IsOptional IsNumber value) :
    value.representable = true := h.representable fun _ => IsNumber.representable

theorem representable_texts {value : PyValue} (h : IsTupleOf IsText value) :
    value.representable = true := h.representable fun _ => IsText.representable

theorem representable_numbers {value : PyValue} (h : IsTupleOf IsNumber value) :
    value.representable = true := h.representable fun _ => IsNumber.representable

theorem representable_ranges {value : PyValue} (h : IsTupleOf (IsPairOf IsNumber) value) :
    value.representable = true :=
  h.representable fun _ hpair => hpair.representable fun _ => IsNumber.representable

theorem legDict_representable {leg : StrategyTemplateLeg} (h : leg.Annotated) :
    representableEntries (legDict leg) = true := by
  simp [legDict, member, representable_memberOrNone,
    h.label.representable, representable_optionalText h.strikeOrderHint,
    representable_optionalText h.expirationOrderHint, representable_optionalText h.legGroup,
    h.metadata]

theorem entryRequirementsDict_representable {entry : EntryRequirements} (h : entry.Annotated) :
    representableEntries (entryRequirementsDict entry) = true := by
  simp [entryRequirementsDict, representable_texts h.requiredData,
    representable_optionalNumber h.liquidityThreshold,
    representable_optionalNumber h.bidAskWidthThreshold,
    representable_optionalNumber h.ivRankThreshold,
    representable_optionalNumber h.ivPercentileThreshold,
    representable_optionalNumber h.qualityScoreThreshold,
    representable_optionalText h.earningsTiming, representable_texts h.eventRestrictions]

theorem compatibilityDict_representable {rules : CompatibilityRules} (h : rules.Annotated) :
    representableEntries (compatibilityDict rules) = true := by
  have hlifecycle := fun policy hpolicy => (h.supportedLifecyclePolicies policy hpolicy).representable
  have hroll := fun policy hpolicy => (h.supportedRollPolicies policy hpolicy).representable
  simpa [compatibilityDict, member] using ⟨hlifecycle, hroll⟩

theorem riskDict_representable (risk : RiskClassification) :
    representableEntries (riskDict risk) = true := by
  simp [riskDict, member]

theorem optimizerDict_representable {optimizer : OptimizerParameterContract}
    (h : optimizer.Annotated) : representableEntries (optimizerDict optimizer) = true := by
  have hdte := h.dteRanges.representable fun _ hpair =>
    hpair.representable fun _ => IsInteger.representable
  have hratio := h.ratioChoices.representable fun _ hratios =>
    hratios.representable fun _ => IsInteger.representable
  simp [optimizerDict, representable_ranges h.deltaRanges, hdte,
    representable_ranges h.widthRanges, hratio, representable_texts h.strikeSelectionModes,
    representable_texts h.termStructureFilters, representable_ranges h.ivRankFilters,
    representable_ranges h.ivPercentileFilters, representable_ranges h.historicalVolatilityFilters,
    representable_ranges h.realizedVolatilityFilters, representable_texts h.earningsTiming,
    representable_numbers h.qualityThresholds, representable_numbers h.liquidityThresholds,
    representable_numbers h.capitalConstraints,
    representable_texts h.managementPolicyCompatibility,
    representable_texts h.rollPolicyCompatibility]

theorem deprecationDict_representable {deprecation : TemplateDeprecation}
    (h : deprecation.Annotated) : representableEntries (deprecationDict deprecation) = true := by
  simp [deprecationDict, h.deprecatedAfter,
    representable_optionalText h.replacementIdentifier, representable_optionalText h.reason]

theorem serializeTemplate_representable {template : StrategyTemplate} (h : template.Annotated) :
    representableEntries (serializeTemplate template) = true := by
  have haliases := fun name hname => (h.aliases name hname).representable
  have hlegs := fun leg hleg => legDict_representable (h.legs leg hleg)
  have hlimitations := fun limitation hlimitation =>
    (h.knownLimitations limitation hlimitation).representable
  simpa [serializeTemplate, member, h.name.representable, h.canonicalIdentifier.representable,
    h.version.representable, entryRequirementsDict_representable h.entryRequirements,
    compatibilityDict_representable h.compatibility, riskDict_representable,
    optimizerDict_representable h.optimizerContract, h.metadata,
    deprecationDict_representable h.deprecation] using ⟨haliases, hlegs, hlimitations⟩

/-! ### No template comes back -/

variable (text) in
/-- The template that is loaded of its stored form is the template. -/
def RoundTrips (template : StrategyTemplate) : Prop :=
  ∃ payload, (PyValue.dict (serializeTemplate template)).jsonRoundTrip = .ok (.dict payload) ∧
    loadTemplate text payload = .ok template

theorem jsonRoundTrip_serializeTemplate {template : StrategyTemplate} (h : template.Annotated) :
    (PyValue.dict (serializeTemplate template)).jsonRoundTrip =
      .ok (.dict (PyValue.jsonNormalEntries (serializeTemplate template))) := by
  have hwritten : (PyValue.dict (serializeTemplate template)).representable = true := by
    rw [PyValue.representable_dict]
    exact serializeTemplate_representable h
  rw [PyValue.jsonRoundTrip_eq_ok hwritten, PyValue.jsonNormal_dict]

/-- A template round-trips exactly if it is what its stored form is loaded as. -/
theorem roundTrips_iff {template : StrategyTemplate} (h : template.Annotated) :
    RoundTrips text template ↔ reloaded template = template := by
  constructor
  · rintro ⟨payload, hpayload, hloaded⟩
    rw [jsonRoundTrip_serializeTemplate h] at hpayload
    cases hpayload
    rw [load_stored] at hloaded
    exact Except.ok.inj hloaded
  · intro hreloaded
    exact ⟨_, jsonRoundTrip_serializeTemplate h, by rw [load_stored, hreloaded]⟩

/-- The keywords of the entry requirements keep the lists that JSON left. -/
theorem reloaded_ne {template : StrategyTemplate} (h : template.Annotated) :
    reloaded template ≠ template := by
  intro hreloaded
  have hrequired : template.entryRequirements.requiredData.jsonNormal =
      template.entryRequirements.requiredData :=
    congrArg (fun loaded => loaded.entryRequirements.requiredData) hreloaded
  exact h.entryRequirements.requiredData.jsonNormal_ne hrequired

theorem not_roundTrips {template : StrategyTemplate} (h : template.Annotated) :
    ¬RoundTrips text template :=
  fun hround => reloaded_ne h ((roundTrips_iff h).mp hround)

/-! ### The long put of the library -/

def longPut : StrategyTemplate where
  name := .str "long_put"
  canonicalIdentifier := .str "directional.long_put"
  version := .str "8A-v1"
  aliases := [.str "buy_put"]
  family := .directional
  legs := [{
    label := .str "long_put"
    legKind := .put
    direction := .buy
    optionTypeRequirement := some .put
    legGroup := .str "directional" }]
  entryRequirements := { requiredData := .tuple [.str "quotes", .str "greeks", .str "iv"] }
  compatibility := {
    supportedUnderlyings := [.equity, .etf, .index]
    supportedExerciseStyles := [.american, .european]
    supportedSettlementStyles := [.physical, .cash]
    supportedAccountTypes := [.cash, .margin, .portfolioMargin]
    supportedLifecyclePolicies := [.str "profit_target", .str "stop_loss"]
    supportedRollPolicies := [.str "time_roll", .str "delta_roll"] }
  riskClassification := {
    directionalBias := .variable
    volatilityBias := .variable
    thetaBias := .variable
    gammaBias := .variable
    vegaBias := .variable
    eventSensitivity := .medium
    assignmentSensitivity := .medium
    dividendSensitivity := .medium
    marginComplexity := .medium
    liquiditySensitivity := .medium
    tailRisk := .medium
    definedRisk := true
    multiExpiry := false
    hasStockComponent := false
    americanStyleSensitivity := .medium }
  optimizerContract := { dteRanges := .tuple [.tuple [.int 7, .int 540]] }
  metadata := [("analytics_readiness", .dict [("pop", .bool true)])]

theorem longPut_annotated : longPut.Annotated where
  name := .str _
  canonicalIdentifier := .str _
  version := .str _
  aliases := by simpa [longPut] using IsText.str _
  legs := by
    intro leg hleg
    obtain rfl := List.mem_singleton.mp hleg
    exact ⟨.str _, .none, .none, .some (.str _), rfl⟩
  entryRequirements := {
    requiredData := .tuple (by simpa [longPut] using ⟨IsText.str _, IsText.str _, IsText.str _⟩)
    liquidityThreshold := .none
    bidAskWidthThreshold := .none
    ivRankThreshold := .none
    ivPercentileThreshold := .none
    qualityScoreThreshold := .none
    earningsTiming := .none
    eventRestrictions := .tuple nofun }
  compatibility := {
    supportedLifecyclePolicies := by simpa [longPut] using ⟨IsText.str _, IsText.str _⟩
    supportedRollPolicies := by simpa [longPut] using ⟨IsText.str _, IsText.str _⟩ }
  optimizerContract := {
    deltaRanges := .tuple nofun
    dteRanges := .tuple (by simpa [longPut] using IsPairOf.pair (.int 7) (.int 540))
    widthRanges := .tuple nofun
    ratioChoices := .tuple nofun
    strikeSelectionModes := .tuple nofun
    termStructureFilters := .tuple nofun
    ivRankFilters := .tuple nofun
    ivPercentileFilters := .tuple nofun
    historicalVolatilityFilters := .tuple nofun
    realizedVolatilityFilters := .tuple nofun
    earningsTiming := .tuple nofun
    qualityThresholds := .tuple nofun
    liquidityThresholds := .tuple nofun
    capitalConstraints := .tuple nofun
    managementPolicyCompatibility := .tuple nofun
    rollPolicyCompatibility := .tuple nofun }
  knownLimitations := nofun
  metadata := rfl
  deprecation := ⟨rfl, .none, .none⟩

/-- Texts for small runs of the model, of which the loading of a stored template needs none. -/
def plainText : TemplateText where
  sha256 := id
  repr _ := ""
  isoformat _ := ""
  parseFloat _ := none
  parseInt _ := none

theorem not_roundTrips_longPut : ¬RoundTrips plainText longPut :=
  not_roundTrips longPut_annotated

/-- Its required data is loaded as a list. -/
theorem loads_other_longPut :
    ¬∀ template : StrategyTemplate, template.Annotated → RoundTrips plainText template :=
  fun hround => reloaded_ne longPut_annotated
    ((roundTrips_iff longPut_annotated).mp (hround longPut longPut_annotated))

/-! ### What does come back -/

theorem reloadedLeg_eq {leg : StrategyTemplateLeg} (h : leg.Annotated)
    (hmetadata : PyValue.jsonNormalEntries leg.metadata = leg.metadata) : reloadedLeg leg = leg := by
  have hoptional : ∀ value, IsOptional IsText value → value.jsonNormal = value :=
    fun _ hvalue => hvalue.jsonNormal fun _ => IsText.jsonNormal
  rw [reloadedLeg, h.label.jsonNormal, hoptional _ h.strikeOrderHint,
    hoptional _ h.expirationOrderHint, hoptional _ h.legGroup, hmetadata]

theorem reloadedCompatibility_eq {rules : CompatibilityRules} (h : rules.Annotated) :
    reloadedCompatibility rules = rules := by
  rw [reloadedCompatibility, PyValue.map_jsonNormal_texts h.supportedLifecyclePolicies,
    PyValue.map_jsonNormal_texts h.supportedRollPolicies]

theorem reloadedDeprecation_eq {deprecation : TemplateDeprecation} (h : deprecation.Annotated) :
    reloadedDeprecation deprecation = deprecation := by
  have hdate : deprecation.deprecatedAfter.jsonNormal = deprecation.deprecatedAfter := by
    rw [h.deprecatedAfter]
    rfl
  rw [reloadedDeprecation, hdate, h.replacementIdentifier.jsonNormal fun _ => IsText.jsonNormal,
    h.reason.jsonNormal fun _ => IsText.jsonNormal]

/-- Where the metadata is as JSON has it, all but the two records that are built from the stored
keywords comes back. -/
theorem reloaded_otherwise {template : StrategyTemplate} (h : template.Annotated)
    (hmetadata : PyValue.jsonNormalEntries template.metadata = template.metadata)
    (hlegs : ∀ leg ∈ template.legs, PyValue.jsonNormalEntries leg.metadata = leg.metadata) :
    reloaded template = { template with
      entryRequirements := reloadedEntryRequirements template.entryRequirements
      optimizerContract := reloadedOptimizer template.optimizerContract } := by
  have hlegs' : template.legs.map reloadedLeg = template.legs :=
    (List.map_congr_left fun leg hleg => reloadedLeg_eq (h.legs leg hleg) (hlegs leg hleg)).trans
      (List.map_id' template.legs)
  rw [reloaded, h.name.jsonNormal, h.canonicalIdentifier.jsonNormal, h.version.jsonNormal,
    PyValue.map_jsonNormal_texts h.aliases, hlegs', reloadedCompatibility_eq h.compatibility,
    PyValue.map_jsonNormal_texts h.knownLimitations, hmetadata,
    reloadedDeprecation_eq h.deprecation]

end OptionResearch.StrategyLibrary
