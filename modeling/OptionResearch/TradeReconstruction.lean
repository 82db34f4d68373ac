import Mathlib.Data.List.Sort
import OptionResearch.BacktestModels
import OptionResearch.KeyedGroups

/-!
# Trades and cycles rebuilt from the ledger

`reconstruct_trades` and `reconstruct_cycles` of `reconstruction.py`. Rows are grouped by position
in order of first appearance, each group is sorted by time and sequence number, and the trades are
grouped again by strategy. A trade is reported closed exactly when its position has a closing row.
-/

namespace OptionResearch

open KeyedGroups

structure ReconstructedTrade where
  tradeId : String
  strategyId : String
  positionId : String
  entryIntents : List Payload
  fills : List Payload
  managementActions : List Payload
  rolls : List Payload
  adjustments : List Payload
  expirationEvents : List Payload
  closingFills : List Payload
  realizedPnl : ℚ
  fees : ℚ
  cashMovements : ℚ
  finalState : String
  sourceEventIds : List String
  sourceChecksums : List String

structure StrategyCycle where
  cycleId : String
  strategyId : String
  initialPosition : String
  childPositions : List String
  rollChain : List String
  cumulativeDebitCredit : ℚ
  cumulativeFees : ℚ
  cumulativePnl : ℚ
  maximumCapitalUsage : ℚ
  totalHoldingDurationSeconds : ℚ
  finalResult : String
  lifecycleReasons : List String

namespace TradeReconstructionService

variable (text : PyText)

/-- A row under the position it belongs to; rows without one are skipped. -/
def positionRow (record : LedgerRecord) : Option (String × LedgerRecord) :=
  match record.positionId with
  | none => none
  | some positionId => if positionId = "" then none else some (positionId, record)

/-- The order of the key `(timestamp, sequence_number)`. -/
def RowLe (a b : LedgerRecord) : Prop :=
  a.timestamp < b.timestamp ∨ a.timestamp ≤ b.timestamp ∧ a.sequenceNumber ≤ b.sequenceNumber

instance : DecidableRel RowLe := fun a b => inferInstanceAs (Decidable
  (a.timestamp < b.timestamp ∨ a.timestamp ≤ b.timestamp ∧ a.sequenceNumber ≤ b.sequenceNumber))

/-- All timestamps are aware, or all are naive. -/
def Comparable (records : List LedgerRecord) : Prop :=
  (∀ row ∈ records, row.timestamp.utcoffset.isSome = true) ∨
    ∀ row ∈ records, row.timestamp.utcoffset.isSome = false

instance (records : List LedgerRecord) : Decidable (Comparable records) :=
  inferInstanceAs (Decidable (_ ∨ _))

/-- `sorted(records, key=...)`. Sorting a list that mixes aware and naive timestamps compares an
aware with a naive one sooner or later. -/
def sortRows (records : List LedgerRecord) : Except Exc (List LedgerRecord) :=
  if Comparable records then .ok (records.insertionSort RowLe)
  else .error ⟨.typeError, "can't compare offset-naive and offset-aware datetimes"⟩

def payloadsOf (recordTypes : List String) (ordered : List LedgerRecord) : List Payload :=
  (ordered.filter fun row => decide (row.recordType ∈ recordTypes)).map (·.payload)

/-- The payloads of the rows whose type starts with `roll`. -/
def rollPayloads (ordered : List LedgerRecord) : List Payload :=
  (ordered.filter fun row => "roll".toList.isPrefixOf row.recordType.toList).map (·.payload)

/-- `sum(float(row.payload.get(key, 0.0)) for row in ordered)`. -/
def payloadTotal (key : String) (ordered : List LedgerRecord) : Except Exc ℚ := do
  let amounts ← ordered.mapM fun row => text.float (row.payload.get key (.float 0))
  return amounts.sum

/-- The record types that close a position. -/
def closingTypes : List String := ["position_close", "closing_fill"]

/-- The trade of one position. -/
def reconstructTrade (positionId : String) (records : List LedgerRecord) :
    Except Exc ReconstructedTrade := do
  let ordered ← sortRows records
  match ordered with
  | [] => .error ⟨.other "IndexError", "list index out of range"⟩
  | first :: _ =>
    let realizedPnl ← payloadTotal text "realized_pnl" ordered
    let fees ← payloadTotal text "fees" ordered
    let cash ← payloadTotal text "cash_movement" ordered
    let closing := payloadsOf closingTypes ordered
    return {
      tradeId := s!"{first.strategyId}:{positionId}"
      strategyId := first.strategyId
      positionId
      entryIntents := payloadsOf ["position_open", "entry_plan"] ordered
      fills := payloadsOf ["fill", "partial_fill"] ordered
      managementActions := payloadsOf ["management"] ordered
      rolls := rollPayloads ordered
      adjustments := payloadsOf ["adjustment"] ordered
      expirationEvents := payloadsOf ["expiration"] ordered
      closingFills := closing
      realizedPnl
      fees
      cashMovements := cash
      finalState := if closing = [] then "open" else "closed"
      sourceEventIds := ordered.map fun row => text.str (row.payload.get "event_id" (.str ""))
      sourceChecksums := ordered.map (·.rowChecksum) }

def reconstructTrades (ledgers : List LedgerRecord) : Except Exc (List ReconstructedTrade) :=
  (groups (ledgers.filterMap positionRow)).mapM fun group =>
    reconstructTrade text group.1 group.2

/-- `max(values or [0.0])`. -/
def maxOrZero : List ℚ → ℚ
  | [] => 0
  | first :: rest => rest.foldl max first

/-- The cycle of one strategy. -/
def reconstructCycle (strategyId : String) (rows : List ReconstructedTrade) :
    Except Exc StrategyCycle := do
  let ordered := rows.insertionSort fun a b => a.tradeId ≤ b.tradeId
  match ordered with
  | [] => .error ⟨.other "IndexError", "list index out of range"⟩
  | initial :: rest =>
    let capitalUsage ← (ordered.flatMap (·.entryIntents)).mapM fun payload =>
      text.float (payload.get "capital_usage" (.float 0))
    let reasons := (ordered.flatMap (·.managementActions)).map fun payload =>
      text.str (payload.get "reason_code" (.str ""))
    return {
      cycleId := s!"cycle:{strategyId}:{initial.positionId}"
      strategyId
      initialPosition := initial.positionId
      childPositions := rest.map (·.positionId)
      rollChain := (ordered.filter fun item => !item.rolls.isEmpty).map (·.tradeId)
      cumulativeDebitCredit := (ordered.map (·.cashMovements)).sum
      cumulativeFees := (ordered.map (·.fees)).sum
      cumulativePnl := (ordered.map (·.realizedPnl)).sum
      maximumCapitalUsage := maxOrZero capitalUsage
      totalHoldingDurationSeconds := ordered.length * 60
      finalResult := if ordered.all (·.finalState == "closed") then "closed" else "open"
      lifecycleReasons := reasons.filter (· ≠ "") }

def reconstructCycles (trades : List ReconstructedTrade) : Except Exc (List StrategyCycle) :=
  (groups (trades.map fun trade => (trade.strategyId, trade))).mapM fun group =>
    reconstructCycle text group.1 group.2

variable {text}

theorem positionRow_eq_some_iff {record row : LedgerRecord} {id : String} :
    positionRow record = some (id, row) ↔
      row = record ∧ record.positionId = some id ∧ id ≠ "" := by
  unfold positionRow
  cases record.positionId with
  | none => simp
  | some positionId =>
    simp only [Option.some.injEq]
    by_cases h : positionId = ""
    · rw [if_pos h]
      constructor
      · intro hnone
        cases hnone
      · rintro ⟨_, rfl, hne⟩
        exact absurd h hne
    · rw [if_neg h, Option.some.injEq, Prod.mk.injEq]
      constructor
      · rintro ⟨rfl, rfl⟩
        exact ⟨rfl, rfl, h⟩
      · rintro ⟨rfl, rfl, _⟩
        exact ⟨rfl, rfl⟩

theorem mem_positionRows {ledgers : List LedgerRecord} {row : LedgerRecord} {id : String} :
    (id, row) ∈ ledgers.filterMap positionRow ↔
      row ∈ ledgers ∧ row.positionId = some id ∧ id ≠ "" := by
  rw [List.mem_filterMap]
  constructor
  · rintro ⟨record, hmem, hsome⟩
    obtain ⟨rfl, hid, hne⟩ := positionRow_eq_some_iff.mp hsome
    exact ⟨hmem, hid, hne⟩
  · rintro ⟨hmem, hid, hne⟩
    exact ⟨row, hmem, positionRow_eq_some_iff.mpr ⟨rfl, hid, hne⟩⟩

theorem mem_of_sortRows {records ordered : List LedgerRecord}
    (h : sortRows records = .ok ordered) (row : LedgerRecord) : row ∈ ordered ↔ row ∈ records := by
  unfold sortRows at h
  split_ifs at h
  cases h
  exact List.mem_insertionSort RowLe

theorem payloadsOf_eq_nil_iff {recordTypes : List String} {ordered : List LedgerRecord} :
    payloadsOf recordTypes ordered = [] ↔ ∀ row ∈ ordered, row.recordType ∉ recordTypes := by
  simp [payloadsOf, List.filter_eq_nil_iff]

/-- The trade of a position is closed exactly when one of its rows closes it. -/
theorem reconstructTrade_closed_iff {positionId : String} {records : List LedgerRecord}
    {trade : ReconstructedTrade} (h : reconstructTrade text positionId records = .ok trade) :
    trade.positionId = positionId ∧
      (trade.finalState = "closed" ↔ ∃ row ∈ records, row.recordType ∈ closingTypes) := by
  unfold reconstructTrade at h
  obtain ⟨ordered, hsort, h⟩ := except_bind_eq_ok.mp h
  have hmem := mem_of_sortRows hsort
  cases ordered with
  | nil => cases h
  | cons first rest =>
    obtain ⟨realizedPnl, _, h⟩ := except_bind_eq_ok.mp h
    obtain ⟨fees, _, h⟩ := except_bind_eq_ok.mp h
    obtain ⟨cash, _, h⟩ := except_bind_eq_ok.mp h
    cases h
    refine ⟨rfl, ?_⟩
    dsimp only
    split_ifs with hnil
    · rw [payloadsOf_eq_nil_iff] at hnil
      constructor
      · intro hclosed
        exact absurd hclosed (by decide)
      · rintro ⟨row, hrow, htype⟩
        exact absurd htype (hnil row ((hmem row).mpr hrow))
    · rw [payloadsOf_eq_nil_iff] at hnil
      push Not at hnil
      obtain ⟨row, hrow, htype⟩ := hnil
      exact ⟨fun _ => ⟨row, (hmem row).mp hrow, htype⟩, fun _ => rfl⟩

/-- A position is reported closed exactly when the ledger has a closing row of it. -/
theorem reconstructTrades_closed_iff {ledgers : List LedgerRecord}
    {trades : List ReconstructedTrade} (h : reconstructTrades text ledgers = .ok trades)
    (id : String) :
    (∃ trade ∈ trades, trade.positionId = id ∧ trade.finalState = "closed") ↔
      id ≠ "" ∧ ∃ row ∈ ledgers, row.positionId = some id ∧ row.recordType ∈ closingTypes := by
  obtain ⟨hall, hfrom⟩ := mapM_eq_ok_mem h
  constructor
  · rintro ⟨trade, htrade, rfl, hclosed⟩
    obtain ⟨⟨key, rows⟩, hgroup, htrade⟩ := hfrom trade htrade
    obtain ⟨hkey, hiff⟩ := reconstructTrade_closed_iff htrade
    obtain ⟨row, hrow, htype⟩ := hiff.mp hclosed
    rw [(mem_groups.mp hgroup).2] at hrow
    obtain ⟨hmem, hid, hne⟩ := mem_positionRows.mp (mem_itemsOf.mp hrow)
    rw [hkey]
    exact ⟨hne, row, hmem, hid, htype⟩
  · rintro ⟨hne, row, hmem, hid, htype⟩
    have hitem : (id, row) ∈ ledgers.filterMap positionRow := mem_positionRows.mpr ⟨hmem, hid, hne⟩
    obtain ⟨rows, hgroup⟩ := exists_group_iff.mpr ⟨row, hitem⟩
    have hrow : row ∈ rows := by
      rw [(mem_groups.mp hgroup).2]
      exact mem_itemsOf.mpr hitem
    obtain ⟨trade, hmemTrade, htrade⟩ := hall _ hgroup
    obtain ⟨hkey, hiff⟩ := reconstructTrade_closed_iff htrade
    exact ⟨trade, hmemTrade, hkey, hiff.mpr ⟨row, hrow, htype⟩⟩

/-- The payload keys whose amounts a trade sums up. -/
def amountKeys : List String := ["realized_pnl", "fees", "cash_movement"]

/-- The amounts a trade sums up can be read from this row. -/
def Readable (text : PyText) (row : LedgerRecord) : Prop :=
  ∀ key ∈ amountKeys, ∃ amount, text.float (row.payload.get key (.float 0)) = .ok amount

theorem readable_of_absent {row : LedgerRecord}
    (h : ∀ key ∈ amountKeys, key ∉ row.payload.map Prod.fst) : Readable text row := by
  intro key hkey
  have hnone : row.payload.lookup key = none := by
    rw [List.lookup_eq_none_iff]
    intro entry hentry
    have hne : key ≠ entry.1 := fun heq => h key hkey (List.mem_map.mpr ⟨entry, hentry, heq.symm⟩)
    simpa using hne
  exact ⟨0, by rw [Payload.get, hnone]; rfl⟩

theorem Comparable.sublist {records rows : List LedgerRecord} (h : Comparable records)
    (hsub : ∀ row ∈ rows, row ∈ records) : Comparable rows := by
  rcases h with haware | hnaive
  · exact Or.inl fun row hrow => haware row (hsub row hrow)
  · exact Or.inr fun row hrow => hnaive row (hsub row hrow)

theorem exists_payloadTotal {key : String} {ordered : List LedgerRecord}
    (hkey : key ∈ amountKeys)
    (h : ∀ row ∈ ordered, Readable text row) :
    ∃ total, payloadTotal text key ordered = .ok total := by
  obtain ⟨amounts, hamounts⟩ := exists_mapM_eq_ok fun row hrow => h row hrow key hkey
  exact ⟨amounts.sum, by rw [payloadTotal, hamounts]; rfl⟩

theorem exists_reconstructTrade {positionId : String} {records : List LedgerRecord}
    (hne : records ≠ []) (hc : Comparable records) (h : ∀ row ∈ records, Readable text row) :
    ∃ trade, reconstructTrade text positionId records = .ok trade := by
  have hsort : sortRows records = .ok (records.insertionSort RowLe) := if_pos hc
  have hread : ∀ row ∈ records.insertionSort RowLe, Readable text row := fun row hrow =>
    h row ((mem_of_sortRows hsort row).mp hrow)
  obtain ⟨pnl, hpnl⟩ := exists_payloadTotal (by decide : "realized_pnl" ∈ amountKeys) hread
  obtain ⟨fees, hfees⟩ := exists_payloadTotal (by decide : "fees" ∈ amountKeys) hread
  obtain ⟨cash, hcash⟩ := exists_payloadTotal (by decide : "cash_movement" ∈ amountKeys) hread
  unfold reconstructTrade
  rw [hsort]
  rcases hordered : records.insertionSort RowLe with _ | ⟨first, rest⟩
  · have hlen := congrArg List.length hordered
    rw [List.length_insertionSort] at hlen
    exact absurd (List.length_eq_zero_iff.mp hlen) hne
  · rw [hordered] at hpnl hfees hcash
    simp only [bind, Except.bind, hpnl, hfees, hcash]
    exact ⟨_, rfl⟩

/-- A ledger of comparable, readable rows is reconstructed. -/
theorem exists_reconstructTrades {ledgers : List LedgerRecord} (hc : Comparable ledgers)
    (h : ∀ row ∈ ledgers, Readable text row) :
    ∃ trades, reconstructTrades text ledgers = .ok trades := by
  refine exists_mapM_eq_ok fun group hgroup => ?_
  obtain ⟨hne, hrows⟩ := mem_groups.mp hgroup
  have hsub : ∀ row ∈ group.2, row ∈ ledgers := fun row hrow => by
    rw [hrows] at hrow
    exact (mem_positionRows.mp (mem_itemsOf.mp hrow)).1
  exact exists_reconstructTrade hne (hc.sublist hsub) fun row hrow => h row (hsub row hrow)

end TradeReconstructionService
end OptionResearch
