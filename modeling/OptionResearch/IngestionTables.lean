import OptionResearch.KeyedTables
import OptionResearch.PythonValues

/-!
# The tables of the bulk ingestion

The DTOs of `database/dtos.py` that `BulkIngestionService` ingests, and for each of them its table in
`database/models/entities.py` and the statements of `database/repositories/market_data.py`: the
unique key, the columns that an upsert overwrites, the primary key where the DTO brings one, and the
check constraints. A row has the columns of its DTO; an identifier that the database gives is none
of them.
-/

namespace OptionResearch

namespace DateTime

/-- What `==` and `hash` see of a `datetime`. -/
def equality (t : DateTime) : Bool × Int := (t.utcoffset.isSome, t.instant)

/-- A `DateTime` column of SQLite keeps the clock reading alone. -/
def stored (t : DateTime) : DateTime := { t with utcoffset := none }

end DateTime

structure OptionContractDTO where
  providerId : Int
  providerContractId : String
  underlyingId : Int
  optionRoot : String
  occSymbol : Option String
  callPut : String
  strike : ℚ
  expiration : Date
  exerciseStyle : String
  settlementType : String
  multiplier : ℚ
  currency : String
  exchangeId : Option Int
  firstSeenAt : DateTime
  lastSeenAt : DateTime
  isActive : Bool

structure OptionQuoteDTO where
  id : Int
  contractId : Int
  quoteTimestamp : DateTime
  bid : Option ℚ
  ask : Option ℚ
  last : Option ℚ
  bidSize : Option Int
  askSize : Option Int
  volume : Option Int
  openInterest : Option Int
  impliedVolatility : Option ℚ
  delta : Option ℚ
  gamma : Option ℚ
  theta : Option ℚ
  vega : Option ℚ
  rho : Option ℚ
  underlyingPrice : Option ℚ
  providerId : Int
  manifestId : Int

structure UnderlyingPriceDTO where
  id : Int
  underlyingId : Int
  priceTimestamp : DateTime
  price : ℚ
  providerId : Int
  manifestId : Int
  deriving DecidableEq

structure DividendDTO where
  underlyingId : Int
  exDate : Date
  payDate : Option Date
  amount : ℚ
  currency : String
  providerId : Int
  manifestId : Int

structure EarningsEventDTO where
  underlyingId : Int
  eventDate : Date
  eventTimestamp : Option DateTime
  fiscalPeriod : Option String
  providerId : Int
  manifestId : Int

structure CorporateActionDTO where
  underlyingId : Int
  actionDate : Date
  actionType : String
  ratio : Option ℚ
  description : Option String
  providerId : Int
  manifestId : Int
  announcementTimestamp : Option DateTime := none
  providerActionId : Option String := none
  cashAmount : Option ℚ := none
  multiplierAfter : Option ℚ := none
  deliverableAfter : Option String := none
  sourceMetadata : Option Payload := none

structure InterestRateCurveDTO where
  providerId : Int
  manifestId : Int
  asOfDate : Date
  tenorDays : Int
  rate : Option ℚ

structure DatasetManifestDTO where
  providerId : Int
  datasetName : String
  datasetVersion : String
  schemaVersion : String
  symbolScope : List String
  startDate : Date
  endDate : Date
  createdTimestamp : DateTime
  checksum : String
  rowCount : Int
  sourceMetadata : Payload := []

/-- A `column >= 0` constraint, which NULL passes. -/
def nonNegative {α : Type} [LE α] [DecidableLE α] [Zero α] (value : Option α) : Bool :=
  value.all fun x => decide (0 ≤ x)

open KeyedTables

/-- What an ingestion is made of for one DTO: the name in its report, the key under which a payload
is deduplicated, the row of a DTO, the table, and what of a row an upsert can change or finds equal.
An upsert leaves of the old row only what that omits. -/
structure Ingestion (D P K : Type) where
  entityName : String
  dedupeKey : D → P
  stored : D → D
  table : Table D K Int
  apart : D → D
  keepsKeys : KeepsKeys table table.overwrite
  key_apart : ∀ row, table.key (apart row) = table.key row
  apart_overwrite : ∀ old new, table.key old = table.key new →
    apart (table.overwrite old new) = apart new
  overwrite_of_apart : ∀ old new, table.key old = table.key new → apart old = apart new →
    table.overwrite old new = old

/-- An upsert that overwrites all columns but those of the key. -/
def Ingestion.overwritingAll {D P K : Type} (entityName : String) (dedupeKey : D → P)
    (stored : D → D) (key : D → K) (overwrite : D → D → D) (accepts : D → Bool)
    (hoverwrite : ∀ old new, key old = key new → overwrite old new = new) :
    Ingestion D P K where
  entityName := entityName
  dedupeKey := dedupeKey
  stored := stored
  table := { key, overwrite, primary := fun _ => none, accepts }
  apart := id
  keepsKeys :=
    { key := fun old new hkey => (congrArg key (hoverwrite old new hkey)).trans hkey.symm
      primary := fun _ _ => rfl }
  key_apart _ := rfl
  apart_overwrite := hoverwrite
  overwrite_of_apart old new hkey hsame := (hoverwrite old new hkey).trans hsame.symm

/-! ### Tables whose identifiers the database gives -/

def contractsIngestion : Ingestion OptionContractDTO (Int × String) (Int × String) :=
  .overwritingAll "option_contracts"
    (fun item => (item.providerId, item.providerContractId))
    (fun dto =>
      { dto with firstSeenAt := dto.firstSeenAt.stored, lastSeenAt := dto.lastSeenAt.stored })
    (fun row => (row.providerId, row.providerContractId))
    (fun old new =>
      { old with
        underlyingId := new.underlyingId
        optionRoot := new.optionRoot
        occSymbol := new.occSymbol
        callPut := new.callPut
        strike := new.strike
        expiration := new.expiration
        exerciseStyle := new.exerciseStyle
        settlementType := new.settlementType
        multiplier := new.multiplier
        currency := new.currency
        exchangeId := new.exchangeId
        firstSeenAt := new.firstSeenAt
        lastSeenAt := new.lastSeenAt
        isActive := new.isActive })
    (fun row => decide (0 ≤ row.strike) && decide (0 < row.multiplier))
    (by
      intro old new hkey
      obtain ⟨hprovider, hcontract⟩ := Prod.mk.inj hkey
      cases old
      cases new
      cases hprovider
      cases hcontract
      rfl)

def dividendsIngestion :
    Ingestion DividendDTO (Int × Date × Int × Int) (Int × Date × Int × Int) :=
  .overwritingAll "dividends"
    (fun item => (item.underlyingId, item.exDate, item.providerId, item.manifestId))
    id
    (fun row => (row.underlyingId, row.exDate, row.providerId, row.manifestId))
    (fun old new =>
      { old with payDate := new.payDate, amount := new.amount, currency := new.currency })
    (fun row => decide (0 ≤ row.amount))
    (by
      rintro ⟨_, _, _, _, _, _, _⟩ ⟨_, _, _, _, _, _, _⟩ hkey
      cases hkey
      rfl)

def earningsIngestion :
    Ingestion EarningsEventDTO (Int × Date × Int × Int) (Int × Date × Int × Int) :=
  .overwritingAll "earnings_events"
    (fun item => (item.underlyingId, item.eventDate, item.providerId, item.manifestId))
    (fun dto => { dto with eventTimestamp := dto.eventTimestamp.map DateTime.stored })
    (fun row => (row.underlyingId, row.eventDate, row.providerId, row.manifestId))
    (fun old new =>
      { old with eventTimestamp := new.eventTimestamp, fiscalPeriod := new.fiscalPeriod })
    (fun _ => true)
    (by
      rintro ⟨_, _, _, _, _, _⟩ ⟨_, _, _, _, _, _⟩ hkey
      cases hkey
      rfl)

def corporateActionsIngestion :
    Ingestion CorporateActionDTO (Int × Date × String × Int × Int)
      (Int × Date × String × Int × Int) :=
  .overwritingAll "corporate_actions"
    (fun item =>
      (item.underlyingId, item.actionDate, item.actionType, item.providerId, item.manifestId))
    (fun dto =>
      { dto with announcementTimestamp := dto.announcementTimestamp.map DateTime.stored })
    (fun row =>
      (row.underlyingId, row.actionDate, row.actionType, row.providerId, row.manifestId))
    (fun old new =>
      { old with
        announcementTimestamp := new.announcementTimestamp
        providerActionId := new.providerActionId
        ratio := new.ratio
        cashAmount := new.cashAmount
        multiplierAfter := new.multiplierAfter
        deliverableAfter := new.deliverableAfter
        description := new.description
        sourceMetadata := new.sourceMetadata })
    (fun _ => true)
    (by
      rintro ⟨_, _, _, _, _, _, _, _, _, _, _, _, _⟩ ⟨_, _, _, _, _, _, _, _, _, _, _, _, _⟩ hkey
      cases hkey
      rfl)

def interestRatesIngestion :
    Ingestion InterestRateCurveDTO (Int × Int × Date × Int) (Int × Int × Date × Int) :=
  .overwritingAll "interest_rate_curves"
    (fun item => (item.providerId, item.manifestId, item.asOfDate, item.tenorDays))
    id
    (fun row => (row.providerId, row.manifestId, row.asOfDate, row.tenorDays))
    (fun old new => { old with rate := new.rate })
    (fun row => decide (0 ≤ row.tenorDays))
    (by
      rintro ⟨_, _, _, _, _⟩ ⟨_, _, _, _, _⟩ hkey
      cases hkey
      rfl)

def manifestsIngestion :
    Ingestion DatasetManifestDTO (Int × String × String) (Int × String × String) :=
  .overwritingAll "dataset_manifests"
    (fun item => (item.providerId, item.datasetName, item.datasetVersion))
    (fun dto => { dto with createdTimestamp := dto.createdTimestamp.stored })
    (fun row => (row.providerId, row.datasetName, row.datasetVersion))
    (fun old new =>
      { old with
        schemaVersion := new.schemaVersion
        symbolScope := new.symbolScope
        startDate := new.startDate
        endDate := new.endDate
        createdTimestamp := new.createdTimestamp
        checksum := new.checksum
        rowCount := new.rowCount
        sourceMetadata := new.sourceMetadata })
    (fun _ => true)
    (by
      rintro ⟨_, _, _, _, _, _, _, _, _, _, _⟩ ⟨_, _, _, _, _, _, _, _, _, _, _⟩ hkey
      cases hkey
      rfl)

/-! ### Tables whose identifiers the DTOs bring -/

def pricesIngestion :
    Ingestion UnderlyingPriceDTO (Int × (Bool × Int) × Int × Int) (Int × DateTime × Int × Int) where
  entityName := "underlying_prices"
  dedupeKey item :=
    (item.underlyingId, item.priceTimestamp.equality, item.providerId, item.manifestId)
  stored dto := { dto with priceTimestamp := dto.priceTimestamp.stored }
  table :=
    { key := fun row => (row.underlyingId, row.priceTimestamp, row.providerId, row.manifestId)
      overwrite := fun old new => { old with price := new.price }
      primary := fun row => some row.id
      accepts := fun row => decide (0 ≤ row.price) }
  apart row := { row with id := 0 }
  keepsKeys := { key := fun _ _ _ => rfl, primary := fun _ _ => rfl }
  key_apart _ := rfl
  apart_overwrite := by
    rintro ⟨_, _, _, _, _, _⟩ ⟨_, _, _, _, _, _⟩ hkey
    cases hkey
    rfl
  overwrite_of_apart := by
    rintro ⟨_, _, _, _, _, _⟩ ⟨_, _, _, _, _, _⟩ - hsame
    cases hsame
    rfl

def quotesIngestion :
    Ingestion OptionQuoteDTO (Int × (Bool × Int) × Int × Int) (Int × DateTime × Int × Int) where
  entityName := "option_quotes"
  dedupeKey item :=
    (item.contractId, item.quoteTimestamp.equality, item.providerId, item.manifestId)
  stored dto := { dto with quoteTimestamp := dto.quoteTimestamp.stored }
  table :=
    { key := fun row => (row.contractId, row.quoteTimestamp, row.providerId, row.manifestId)
      overwrite := fun old new =>
        { old with
          bid := new.bid
          ask := new.ask
          last := new.last
          bidSize := new.bidSize
          askSize := new.askSize
          volume := new.volume
          openInterest := new.openInterest
          impliedVolatility := new.impliedVolatility
          delta := new.delta
          gamma := new.gamma
          theta := new.theta
          vega := new.vega
          rho := new.rho
          underlyingPrice := new.underlyingPrice }
      primary := fun row => some row.id
      accepts := fun row =>
        nonNegative row.bid && nonNegative row.ask && nonNegative row.last &&
          (row.bid.all fun bid => row.ask.all fun ask => decide (bid ≤ ask)) &&
          nonNegative row.bidSize && nonNegative row.askSize && nonNegative row.volume &&
          nonNegative row.openInterest && nonNegative row.impliedVolatility &&
          nonNegative row.underlyingPrice }
  apart row := { row with id := 0 }
  keepsKeys := { key := fun _ _ _ => rfl, primary := fun _ _ => rfl }
  key_apart _ := rfl
  apart_overwrite := by
    intro old new hkey
    obtain ⟨hcontract, htime, hprovider, hmanifest⟩ :
        old.contractId = new.contractId ∧ old.quoteTimestamp = new.quoteTimestamp ∧
          old.providerId = new.providerId ∧ old.manifestId = new.manifestId := by
      simpa only [Prod.mk.injEq] using hkey
    simp only [hcontract, htime, hprovider, hmanifest]
  overwrite_of_apart := by
    intro old new _ hsame
    cases old
    cases new
    cases hsame
    rfl

end OptionResearch
