import Mathlib.Data.List.Pairwise
import Mathlib.Data.String.Basic
import OptionResearch.StableSort
import OptionResearch.TradeReconstruction

/-!
# Reconstruction conserves the ledger

Every row with a position goes into the trade of its position, and what the trades and the cycles
add up to is what these rows add up to. Rows of one position whose times or sequence numbers differ
are sorted the same way from any order of the ledger, so that another order gives the same trades
and the same cycles; only the order in which they are listed follows the first appearance of the
positions and of the strategies.
-/

namespace OptionResearch.TradeReconstructionService

open KeyedGroups StableSort

variable {text : PyText}

/-- The row belongs to a position. -/
def HasPosition (row : LedgerRecord) : Prop := (positionRow row).isSome = true

instance : DecidablePred HasPosition := fun _ => inferInstanceAs (Decidable (_ = true))

/-- What the row says of a key, zero where it cannot be read. -/
def amountOf (text : PyText) (key : String) (row : LedgerRecord) : ℚ :=
  match text.float (row.payload.get key (.float 0)) with
  | .ok amount => amount
  | .error _ => 0

/-- What rows come to under a key. -/
def ledgerTotal (text : PyText) (key : String) (rows : List LedgerRecord) : ℚ :=
  (rows.map (amountOf text key)).sum

/-- `a.timestamp == b.timestamp and a.sequence_number == b.sequence_number`. -/
def SameKey (a b : LedgerRecord) : Prop :=
  a.timestamp.utcoffset.isSome = b.timestamp.utcoffset.isSome ∧
    a.timestamp.instant = b.timestamp.instant ∧ a.sequenceNumber = b.sequenceNumber

/-- The trade is made of these rows and adds them up. -/
structure MadeOf (text : PyText) (trade : ReconstructedTrade) (rows : List LedgerRecord) :
    Prop where
  nonempty : rows ≠ []
  position : ∀ row ∈ rows, row.positionId = some trade.positionId
  realizedPnl : trade.realizedPnl = ledgerTotal text "realized_pnl" rows
  fees : trade.fees = ledgerTotal text "fees" rows
  cashMovements : trade.cashMovements = ledgerTotal text "cash_movement" rows

/-! ### One position -/

/-- The sort key of a row. -/
def rowKey (row : LedgerRecord) : Int ×ₗ Int := toLex (row.timestamp.instant, row.sequenceNumber)

theorem rowLe_iff {a b : LedgerRecord} : RowLe a b ↔ rowKey a ≤ rowKey b := by
  rw [rowKey, rowKey, Prod.Lex.toLex_le_toLex]
  unfold RowLe
  rw [DateTime.lt_iff, DateTime.le_iff]
  dsimp only
  omega

theorem insertionSort_rowLe (records : List LedgerRecord) :
    records.insertionSort RowLe = sortBy rowKey records := by
  have hle : RowLe = fun a b => rowKey a ≤ rowKey b := by
    funext a b
    exact propext rowLe_iff
  unfold sortBy
  congr 1

theorem Comparable.perm {records rows : List LedgerRecord} (hperm : records.Perm rows) :
    Comparable records ↔ Comparable rows :=
  ⟨fun h => h.sublist fun _ hrow => hperm.mem_iff.mpr hrow,
    fun h => h.sublist fun _ hrow => hperm.mem_iff.mp hrow⟩

/-- Rows of different keys are sorted the same way from any order. -/
theorem sortRows_eq_of_perm {records rows : List LedgerRecord}
    (hkey : ∀ a ∈ records, ∀ b ∈ records, SameKey a b → a = b) (hperm : records.Perm rows) :
    sortRows records = sortRows rows := by
  unfold sortRows
  by_cases hc : Comparable records
  · rw [if_pos hc, if_pos ((Comparable.perm hperm).mp hc), insertionSort_rowLe, insertionSort_rowLe]
    congr 1
    refine sortBy_eq_of_perm (fun a ha b hb hab => hkey a ha b hb ?_) hperm
    have hawareness : a.timestamp.utcoffset.isSome = b.timestamp.utcoffset.isSome := by
      rcases hc with haware | hnaive
      · rw [haware a ha, haware b hb]
      · rw [hnaive a ha, hnaive b hb]
    have hpair := toLex.injective hab
    exact ⟨hawareness, (Prod.mk.inj hpair).1, (Prod.mk.inj hpair).2⟩
  · rw [if_neg hc, if_neg fun h => hc ((Comparable.perm hperm).mpr h)]

theorem reconstructTrade_eq_of_perm {id : String} {records rows : List LedgerRecord}
    (hkey : ∀ a ∈ records, ∀ b ∈ records, SameKey a b → a = b) (hperm : records.Perm rows) :
    reconstructTrade text id records = reconstructTrade text id rows := by
  unfold reconstructTrade
  rw [sortRows_eq_of_perm hkey hperm]

theorem ledgerTotal_perm {key : String} {records rows : List LedgerRecord}
    (hperm : records.Perm rows) : ledgerTotal text key records = ledgerTotal text key rows :=
  (hperm.map _).sum_eq

/-- A total that is returned is the total of readable amounts. -/
theorem payloadTotal_eq_ok_iff {key : String} {ordered : List LedgerRecord} {total : ℚ} :
    payloadTotal text key ordered = .ok total ↔
      (∀ row ∈ ordered, ∃ amount, text.float (row.payload.get key (.float 0)) = .ok amount) ∧
        total = ledgerTotal text key ordered := by
  have hread : ∀ row, (∃ amount, text.float (row.payload.get key (.float 0)) = .ok amount) →
      text.float (row.payload.get key (.float 0)) = .ok (amountOf text key row) := by
    rintro row ⟨amount, hamount⟩
    rw [amountOf, hamount]
  unfold payloadTotal
  rw [except_bind_eq_ok]
  constructor
  · rintro ⟨amounts, hamounts, htotal⟩
    have hall := exists_mapM_eq_ok_iff.mp ⟨amounts, hamounts⟩
    rw [mapM_eq_ok_map fun row hrow => hread row (hall row hrow)] at hamounts
    cases hamounts
    cases htotal
    exact ⟨hall, rfl⟩
  · rintro ⟨hall, rfl⟩
    exact ⟨_, mapM_eq_ok_map fun row hrow => hread row (hall row hrow), rfl⟩

theorem sortRows_eq_ok_iff {records ordered : List LedgerRecord} :
    sortRows records = .ok ordered ↔
      Comparable records ∧ ordered = records.insertionSort RowLe := by
  unfold sortRows
  split_ifs with h
  · simp [h, eq_comm]
  · simp [h]

/-- What a reconstructed trade says of its rows. -/
theorem madeOf_reconstructTrade {id : String} {records : List LedgerRecord}
    {trade : ReconstructedTrade} (hid : ∀ row ∈ records, row.positionId = some id)
    (h : reconstructTrade text id records = .ok trade) :
    trade.positionId = id ∧ trade.tradeId = s!"{trade.strategyId}:{id}" ∧
      Comparable records ∧ (∀ row ∈ records, Readable text row) ∧ MadeOf text trade records := by
  unfold reconstructTrade at h
  obtain ⟨ordered, hsort, h⟩ := except_bind_eq_ok.mp h
  obtain ⟨hc, hordered⟩ := sortRows_eq_ok_iff.mp hsort
  have hperm : ordered.Perm records := by
    rw [hordered]
    exact List.perm_insertionSort _ _
  cases ordered with
  | nil => cases h
  | cons first rest =>
    obtain ⟨pnl, hpnl, h⟩ := except_bind_eq_ok.mp h
    obtain ⟨fees, hfees, h⟩ := except_bind_eq_ok.mp h
    obtain ⟨cash, hcash, h⟩ := except_bind_eq_ok.mp h
    cases h
    obtain ⟨hreadPnl, hpnl⟩ := payloadTotal_eq_ok_iff.mp hpnl
    obtain ⟨hreadFees, hfees⟩ := payloadTotal_eq_ok_iff.mp hfees
    obtain ⟨hreadCash, hcash⟩ := payloadTotal_eq_ok_iff.mp hcash
    refine ⟨rfl, rfl, hc, fun row hrow => ?_, ?_⟩
    · have hrow := hperm.mem_iff.mpr hrow
      intro key hkey
      simp only [amountKeys, List.mem_cons, List.not_mem_nil, or_false] at hkey
      rcases hkey with rfl | rfl | rfl
      · exact hreadPnl row hrow
      · exact hreadFees row hrow
      · exact hreadCash row hrow
    · exact {
        nonempty := fun hnil => by
          rw [hnil] at hperm
          exact absurd hperm.length_eq (by simp)
        position := hid
        realizedPnl := hpnl.trans (ledgerTotal_perm hperm)
        fees := hfees.trans (ledgerTotal_perm hperm)
        cashMovements := hcash.trans (ledgerTotal_perm hperm) }

/-! ### The whole ledger -/

/-- The rows of one position. -/
def rowsOf (ledgers : List LedgerRecord) (id : String) : List LedgerRecord :=
  ledgers.filter fun row => row.positionId = some id

theorem hasPosition_iff {row : LedgerRecord} :
    HasPosition row ↔ ∃ id, row.positionId = some id ∧ id ≠ "" := by
  unfold HasPosition
  rw [Option.isSome_iff_exists]
  constructor
  · rintro ⟨⟨id, row'⟩, h⟩
    obtain ⟨-, hid, hne⟩ := positionRow_eq_some_iff.mp h
    exact ⟨id, hid, hne⟩
  · rintro ⟨id, hid, hne⟩
    exact ⟨(id, row), positionRow_eq_some_iff.mpr ⟨rfl, hid, hne⟩⟩

theorem map_snd_positionRows (ledgers : List LedgerRecord) :
    (ledgers.filterMap positionRow).map Prod.snd = ledgers.filter HasPosition := by
  induction ledgers with
  | nil => rfl
  | cons row rest ih =>
    cases hrow : positionRow row with
    | none =>
      have hno : ¬ HasPosition row := by
        unfold HasPosition
        rw [hrow]
        exact Bool.false_ne_true
      rw [List.filterMap_cons_none hrow, List.filter_cons_of_neg (by simpa using hno), ih]
    | some keyed =>
      have hyes : HasPosition row := by
        unfold HasPosition
        rw [hrow]
        rfl
      obtain ⟨rfl, -, -⟩ := positionRow_eq_some_iff.mp hrow
      rw [List.filterMap_cons_some hrow, List.map_cons, ih,
        List.filter_cons_of_pos (by simpa using hyes)]

theorem itemsOf_positionRows (ledgers : List LedgerRecord) {id : String} (hne : id ≠ "") :
    itemsOf id (ledgers.filterMap positionRow) = rowsOf ledgers id := by
  induction ledgers with
  | nil => rfl
  | cons row rest ih =>
    unfold rowsOf itemsOf at ih ⊢
    by_cases hid : row.positionId = some id
    · rw [List.filterMap_cons_some (positionRow_eq_some_iff.mpr ⟨rfl, hid, hne⟩),
        List.filter_cons_of_pos (by simp), List.map_cons, ih,
        List.filter_cons_of_pos (by simpa using hid)]
    · rw [List.filter_cons_of_neg (by simpa using hid), ← ih]
      cases hrow : positionRow row with
      | none => rw [List.filterMap_cons_none hrow]
      | some keyed =>
        obtain ⟨-, hkeyed, -⟩ := positionRow_eq_some_iff.mp hrow
        have hother : keyed.1 ≠ id := by
          rintro rfl
          exact hid hkeyed
        rw [List.filterMap_cons_some hrow, List.filter_cons_of_neg (by simpa using hother)]

/-- A position of the ledger, with its rows. -/
theorem mem_groups_positionRows {ledgers : List LedgerRecord} {id : String}
    {rows : List LedgerRecord} :
    (id, rows) ∈ groups (ledgers.filterMap positionRow) ↔
      id ≠ "" ∧ rows ≠ [] ∧ rows = rowsOf ledgers id := by
  rw [mem_groups]
  constructor
  · rintro ⟨hne, hrows⟩
    obtain ⟨row, hrow⟩ := List.exists_mem_of_ne_nil _ hne
    rw [hrows] at hrow
    have hid := (mem_positionRows.mp (mem_itemsOf.mp hrow)).2.2
    exact ⟨hid, hne, hrows.trans (itemsOf_positionRows ledgers hid)⟩
  · rintro ⟨hid, hne, hrows⟩
    exact ⟨hne, hrows.trans (itemsOf_positionRows ledgers hid).symm⟩

theorem position_of_mem_rowsOf {ledgers : List LedgerRecord} {id : String} {row : LedgerRecord}
    (h : row ∈ rowsOf ledgers id) : row ∈ ledgers ∧ row.positionId = some id := by
  obtain ⟨hmem, hid⟩ := List.mem_filter.mp h
  exact ⟨hmem, of_decide_eq_true hid⟩

/-- The ledger is reconstructed exactly where the rows of each position have comparable times and
the amounts of every row with a position can be read. -/
theorem exists_reconstructTrades_iff {ledgers : List LedgerRecord} :
    (∃ trades, reconstructTrades text ledgers = .ok trades) ↔
      (∀ id, id ≠ "" → Comparable (rowsOf ledgers id)) ∧
        ∀ row ∈ ledgers, HasPosition row → Readable text row := by
  unfold reconstructTrades
  rw [exists_mapM_eq_ok_iff]
  constructor
  · intro h
    have hid : ∀ id row, id ≠ "" → row ∈ rowsOf ledgers id →
        Comparable (rowsOf ledgers id) ∧ ∀ row ∈ rowsOf ledgers id, Readable text row := by
      intro id row hne hrow
      obtain ⟨trade, htrade⟩ := h (id, rowsOf ledgers id)
        (mem_groups_positionRows.mpr ⟨hne, List.ne_nil_of_mem hrow, rfl⟩)
      obtain ⟨-, -, hc, hread, -⟩ :=
        madeOf_reconstructTrade (fun row hrow => (position_of_mem_rowsOf hrow).2) htrade
      exact ⟨hc, hread⟩
    refine ⟨fun id hne => ?_, fun row hrow hposition => ?_⟩
    · rcases List.eq_nil_or_concat (rowsOf ledgers id) with hnil | ⟨rest, row, hrows⟩
      · rw [hnil]
        exact Or.inl fun row hrow => absurd hrow List.not_mem_nil
      · exact (hid id row hne (by rw [hrows]; simp)).1
    · obtain ⟨id, hrowId, hne⟩ := hasPosition_iff.mp hposition
      have hmem : row ∈ rowsOf ledgers id :=
        List.mem_filter.mpr ⟨hrow, decide_eq_true hrowId⟩
      exact (hid id row hne hmem).2 row hmem
  · rintro ⟨hc, hread⟩ ⟨id, rows⟩ hgroup
    obtain ⟨hid, hne, rfl⟩ := mem_groups_positionRows.mp hgroup
    refine exists_reconstructTrade hne (hc id hid) fun row hrow => ?_
    obtain ⟨hmem, hrowId⟩ := position_of_mem_rowsOf hrow
    exact hread row hmem (hasPosition_iff.mpr ⟨id, hrowId, hid⟩)

/-- The trades go with the positions, one by one. -/
theorem forall₂_reconstructTrades {ledgers : List LedgerRecord} {trades : List ReconstructedTrade}
    (h : reconstructTrades text ledgers = .ok trades) :
    List.Forall₂ (fun (group : String × List LedgerRecord) trade =>
        trade.positionId = group.1 ∧ trade.tradeId = s!"{trade.strategyId}:{group.1}" ∧
          MadeOf text trade group.2)
      (groups (ledgers.filterMap positionRow)) trades := by
  have hall : ∀ group ∈ groups (ledgers.filterMap positionRow),
      ∀ row ∈ group.2, row.positionId = some group.1 := by
    rintro ⟨id, rows⟩ hgroup row hrow
    obtain ⟨-, -, rfl⟩ := mem_groups_positionRows.mp hgroup
    exact (position_of_mem_rowsOf hrow).2
  have hforall := (List.forall₂_and_left _ _).mpr ⟨hall, forall₂_of_mapM_eq_ok h⟩
  refine hforall.imp fun group trade hgroup => ?_
  obtain ⟨hid, htradeId, -, -, hmade⟩ := madeOf_reconstructTrade hgroup.1 hgroup.2
  exact ⟨hid, htradeId, hmade⟩

theorem map_positionId_reconstructTrades {ledgers : List LedgerRecord}
    {trades : List ReconstructedTrade} (h : reconstructTrades text ledgers = .ok trades) :
    trades.map (·.positionId) = (groups (ledgers.filterMap positionRow)).map Prod.fst := by
  have hforall := forall₂_reconstructTrades h
  clear h
  generalize groups (ledgers.filterMap positionRow) = gs at hforall
  induction hforall with
  | nil => rfl
  | cons hhead _ ih => rw [List.map_cons, List.map_cons, hhead.1, ih]

theorem nodup_positionId_reconstructTrades {ledgers : List LedgerRecord}
    {trades : List ReconstructedTrade} (h : reconstructTrades text ledgers = .ok trades) :
    (trades.map (·.positionId)).Nodup := by
  rw [map_positionId_reconstructTrades h]
  exact nodup_keys_groups _

/-- The rows with a position are shared out among the trades. -/
theorem exists_parts_reconstructTrades {ledgers : List LedgerRecord}
    {trades : List ReconstructedTrade} (h : reconstructTrades text ledgers = .ok trades) :
    ∃ parts, List.Forall₂ (MadeOf text) trades parts ∧
      parts.flatten.Perm (ledgers.filter HasPosition) := by
  refine ⟨(groups (ledgers.filterMap positionRow)).map Prod.snd, ?_, ?_⟩
  · rw [List.forall₂_map_right_iff]
    exact ((forall₂_reconstructTrades h).imp fun _ _ hgroup => hgroup.2.2).flip
  · rw [← map_snd_positionRows, ← List.flatMap_def]
    exact flatMap_groups_perm _

theorem tradeId_eq_reconstructTrades {ledgers : List LedgerRecord}
    {trades : List ReconstructedTrade} (h : reconstructTrades text ledgers = .ok trades) :
    ∀ trade ∈ trades, trade.tradeId = s!"{trade.strategyId}:{trade.positionId}" := by
  have hforall := forall₂_reconstructTrades h
  clear h
  generalize groups (ledgers.filterMap positionRow) = gs at hforall
  induction hforall with
  | nil => exact fun trade htrade => absurd htrade List.not_mem_nil
  | cons hhead _ ih =>
    intro trade htrade
    rcases List.mem_cons.mp htrade with rfl | htrade
    · rw [hhead.2.1, hhead.1]
    · exact ih trade htrade

/-- A figure that every trade has from its rows comes to what the rows with a position come to. -/
theorem sum_reconstructTrades {ledgers : List LedgerRecord} {trades : List ReconstructedTrade}
    {figure : ReconstructedTrade → ℚ} {key : String}
    (hfigure : ∀ trade rows, MadeOf text trade rows → figure trade = ledgerTotal text key rows)
    (h : reconstructTrades text ledgers = .ok trades) :
    (trades.map figure).sum = ledgerTotal text key (ledgers.filter HasPosition) := by
  rw [ledgerTotal, ← map_snd_positionRows]
  refine sum_mapM_groups h fun id trade htrade => hfigure trade _ ?_
  have hid : ∀ row ∈ itemsOf id (ledgers.filterMap positionRow), row.positionId = some id :=
    fun row hrow => (mem_positionRows.mp (mem_itemsOf.mp hrow)).2.1
  exact (madeOf_reconstructTrade hid htrade).2.2.2.2

/-- With keys that differ, another order of the ledger gives the same trades. -/
theorem reconstructTrades_perm {ledgers others : List LedgerRecord}
    {trades : List ReconstructedTrade} (hkeys : ledgers.Pairwise fun a b => ¬ SameKey a b)
    (hperm : ledgers.Perm others) (h : reconstructTrades text ledgers = .ok trades) :
    ∃ trades', reconstructTrades text others = .ok trades' ∧ trades.Perm trades' := by
  have hkey : ∀ a ∈ ledgers, ∀ b ∈ ledgers, SameKey a b → a = b := by
    intro a ha b hb hab
    by_contra hne
    have : Std.Symm fun a b : LedgerRecord => ¬ SameKey a b :=
      ⟨fun a b hno hba => hno ⟨hba.1.symm, hba.2.1.symm, hba.2.2.symm⟩⟩
    exact hkeys.forall ha hb hne hab
  refine mapM_groups_perm (f := reconstructTrade text) (hperm.filterMap positionRow) ?_ h
  intro id rows hrows
  refine reconstructTrade_eq_of_perm (fun a ha b hb => ?_) hrows
  exact hkey a (mem_positionRows.mp (mem_itemsOf.mp ha)).1 b
    (mem_positionRows.mp (mem_itemsOf.mp hb)).1

/-! ### Cycles -/

theorem insertionSort_tradeId (rows : List ReconstructedTrade) :
    (rows.insertionSort fun a b => a.tradeId ≤ b.tradeId) = sortBy (·.tradeId) rows := by
  unfold sortBy
  congr 1

/-- A cycle adds up its trades. -/
theorem cumulative_reconstructCycle {strategyId : String} {rows : List ReconstructedTrade}
    {cycle : StrategyCycle} (h : reconstructCycle text strategyId rows = .ok cycle) :
    cycle.cumulativePnl = (rows.map (·.realizedPnl)).sum ∧
      cycle.cumulativeFees = (rows.map (·.fees)).sum ∧
        cycle.cumulativeDebitCredit = (rows.map (·.cashMovements)).sum := by
  unfold reconstructCycle at h
  have hperm : (rows.insertionSort fun a b => a.tradeId ≤ b.tradeId).Perm rows :=
    List.perm_insertionSort _ _
  revert h hperm
  generalize (rows.insertionSort fun a b => a.tradeId ≤ b.tradeId) = ordered
  intro h hperm
  cases ordered with
  | nil => cases h
  | cons initial rest =>
    obtain ⟨usage, -, h⟩ := except_bind_eq_ok.mp h
    cases h
    exact ⟨(hperm.map _).sum_eq, (hperm.map _).sum_eq, (hperm.map _).sum_eq⟩

theorem sum_reconstructCycles {trades : List ReconstructedTrade} {cycles : List StrategyCycle}
    {figure : StrategyCycle → ℚ} {amount : ReconstructedTrade → ℚ}
    (hfigure : ∀ strategyId rows cycle, reconstructCycle text strategyId rows = .ok cycle →
      figure cycle = (rows.map amount).sum)
    (h : reconstructCycles text trades = .ok cycles) :
    (cycles.map figure).sum = (trades.map amount).sum := by
  have hsum : (cycles.map figure).sum =
      (((trades.map fun trade => (trade.strategyId, trade)).map Prod.snd).map amount).sum :=
    sum_mapM_groups h fun strategyId cycle hcycle => hfigure strategyId _ cycle hcycle
  rwa [List.map_map, List.map_map] at hsum

/-- A strategy has its cycle exactly where the capital of its entry intents can be read. -/
theorem exists_reconstructCycle_iff {strategyId : String} {rows : List ReconstructedTrade} :
    (∃ cycle, reconstructCycle text strategyId rows = .ok cycle) ↔
      rows ≠ [] ∧ ∀ trade ∈ rows, ∀ payload ∈ trade.entryIntents,
        ∃ amount, text.float (payload.get "capital_usage" (.float 0)) = .ok amount := by
  have hmem : ∀ trade, trade ∈ rows ↔
      trade ∈ rows.insertionSort fun a b => a.tradeId ≤ b.tradeId :=
    fun trade => (List.mem_insertionSort _).symm
  have hlen := List.length_insertionSort (fun a b : ReconstructedTrade => a.tradeId ≤ b.tradeId)
    rows
  unfold reconstructCycle
  simp only [hmem]
  revert hlen
  generalize (rows.insertionSort fun a b => a.tradeId ≤ b.tradeId) = ordered
  intro hlen
  cases ordered with
  | nil =>
    have hnil : rows = [] := List.length_eq_zero_iff.mp hlen.symm
    simp [hnil]
  | cons initial rest =>
    have hne : rows ≠ [] := by
      rintro rfl
      simp at hlen
    have husage : (∃ usage, (((initial :: rest).flatMap (·.entryIntents)).mapM
          fun payload => text.float (payload.get "capital_usage" (.float 0))) = .ok usage) ↔
        ∀ payload, ∀ trade ∈ initial :: rest, payload ∈ trade.entryIntents →
          ∃ amount, text.float (payload.get "capital_usage" (.float 0)) = .ok amount := by
      rw [exists_mapM_eq_ok_iff]
      simp only [List.mem_flatMap, forall_exists_index, and_imp]
    constructor
    · rintro ⟨cycle, hcycle⟩
      obtain ⟨usage, husages, -⟩ := except_bind_eq_ok.mp hcycle
      exact ⟨hne, fun trade htrade payload hpayload =>
        husage.mp ⟨usage, husages⟩ payload trade htrade hpayload⟩
    · rintro ⟨-, hread⟩
      obtain ⟨usage, husages⟩ := husage.mpr fun payload trade htrade hpayload =>
        hread trade htrade payload hpayload
      exact ⟨_, except_bind_eq_ok.mpr ⟨usage, husages, rfl⟩⟩

/-- Trades have their cycles exactly where the capital of the entry intents can be read. -/
theorem exists_reconstructCycles_iff {trades : List ReconstructedTrade} :
    (∃ cycles, reconstructCycles text trades = .ok cycles) ↔
      ∀ trade ∈ trades, ∀ payload ∈ trade.entryIntents,
        ∃ amount, text.float (payload.get "capital_usage" (.float 0)) = .ok amount := by
  have hmem : ∀ strategyId trade,
      trade ∈ itemsOf strategyId (trades.map fun trade => (trade.strategyId, trade)) ↔
        trade ∈ trades ∧ trade.strategyId = strategyId := by
    intro strategyId trade
    rw [mem_itemsOf, List.mem_map]
    constructor
    · rintro ⟨trade', htrade, heq⟩
      cases heq
      exact ⟨htrade, rfl⟩
    · rintro ⟨htrade, rfl⟩
      exact ⟨trade, htrade, rfl⟩
  unfold reconstructCycles
  rw [exists_mapM_eq_ok_iff]
  constructor
  · intro h trade htrade
    have hitem := (hmem trade.strategyId trade).mpr ⟨htrade, rfl⟩
    have hgroup := h (trade.strategyId, _) (mem_groups.mpr ⟨List.ne_nil_of_mem hitem, rfl⟩)
    exact (exists_reconstructCycle_iff.mp hgroup).2 trade hitem
  · rintro hread ⟨strategyId, rows⟩ hgroup
    obtain ⟨hne, rfl⟩ := mem_groups.mp hgroup
    refine exists_reconstructCycle_iff.mpr ⟨hne, fun trade htrade => ?_⟩
    exact hread trade ((hmem strategyId trade).mp htrade).1

theorem reconstructCycle_eq_of_perm {strategyId : String} {rows others : List ReconstructedTrade}
    (hkey : ∀ a ∈ rows, ∀ b ∈ rows, a.tradeId = b.tradeId → a = b) (hperm : rows.Perm others) :
    reconstructCycle text strategyId rows = reconstructCycle text strategyId others := by
  unfold reconstructCycle
  rw [insertionSort_tradeId, insertionSort_tradeId, sortBy_eq_of_perm hkey hperm]

/-- Trades of different positions give the same cycles in any order. -/
theorem reconstructCycles_perm {trades others : List ReconstructedTrade}
    {cycles : List StrategyCycle} (hnodup : (trades.map (·.positionId)).Nodup)
    (hid : ∀ trade ∈ trades, trade.tradeId = s!"{trade.strategyId}:{trade.positionId}")
    (hperm : trades.Perm others) (h : reconstructCycles text trades = .ok cycles) :
    ∃ cycles', reconstructCycles text others = .ok cycles' ∧ cycles.Perm cycles' := by
  refine mapM_groups_perm (f := reconstructCycle text) (hperm.map _) ?_ h
  intro strategyId rows hrows
  have hmem : ∀ trade ∈ itemsOf strategyId (trades.map fun trade => (trade.strategyId, trade)),
      trade ∈ trades ∧ trade.strategyId = strategyId := by
    intro trade htrade
    obtain ⟨trade', hmem, heq⟩ := List.mem_map.mp (mem_itemsOf.mp htrade)
    cases heq
    exact ⟨hmem, rfl⟩
  refine reconstructCycle_eq_of_perm (fun a ha b hb hab => ?_) hrows
  obtain ⟨hamem, hastrategy⟩ := hmem a ha
  obtain ⟨hbmem, hbstrategy⟩ := hmem b hb
  rw [hid a hamem, hid b hbmem, hastrategy, hbstrategy] at hab
  exact List.inj_on_of_nodup_map hnodup hamem hbmem ((String.append_right_inj _).mp hab)

/-! ### Conservation -/

/-- The three figures are what the rows with a position come to. -/
def AddsUp (text : PyText) (ledgers : List LedgerRecord) (realizedPnl fees cashMovements : ℚ) :
    Prop :=
  realizedPnl = ledgerTotal text "realized_pnl" (ledgers.filter HasPosition) ∧
    fees = ledgerTotal text "fees" (ledgers.filter HasPosition) ∧
      cashMovements = ledgerTotal text "cash_movement" (ledgers.filter HasPosition)

theorem addsUp_reconstructTrades {ledgers : List LedgerRecord} {trades : List ReconstructedTrade}
    (h : reconstructTrades text ledgers = .ok trades) :
    AddsUp text ledgers (trades.map (·.realizedPnl)).sum (trades.map (·.fees)).sum
      (trades.map (·.cashMovements)).sum :=
  ⟨sum_reconstructTrades (fun _ _ hmade => hmade.realizedPnl) h,
    sum_reconstructTrades (fun _ _ hmade => hmade.fees) h,
    sum_reconstructTrades (fun _ _ hmade => hmade.cashMovements) h⟩

theorem addsUp_reconstructCycles {ledgers : List LedgerRecord} {trades : List ReconstructedTrade}
    {cycles : List StrategyCycle} (htrades : reconstructTrades text ledgers = .ok trades)
    (h : reconstructCycles text trades = .ok cycles) :
    AddsUp text ledgers (cycles.map (·.cumulativePnl)).sum (cycles.map (·.cumulativeFees)).sum
      (cycles.map (·.cumulativeDebitCredit)).sum := by
  rw [sum_reconstructCycles (fun _ _ _ hcycle => (cumulative_reconstructCycle hcycle).1) h,
    sum_reconstructCycles (fun _ _ _ hcycle => (cumulative_reconstructCycle hcycle).2.1) h,
    sum_reconstructCycles (fun _ _ _ hcycle => (cumulative_reconstructCycle hcycle).2.2) h]
  exact addsUp_reconstructTrades htrades

/-- A ledger is reconstructed exactly where the rows of each position have comparable times and the
amounts of the rows with a position can be read. Its rows with a position are then shared out among
trades of different positions, the trades and the cycles come to what these rows come to, and with
times or sequence numbers that differ any other order of the ledger gives the same trades and the
same cycles, listed in another order at most. -/
theorem reconstruction_conserves_ledger (text : PyText) (ledgers : List LedgerRecord) :
    ((∃ trades, reconstructTrades text ledgers = .ok trades) ↔
        (∀ id, id ≠ "" → Comparable (rowsOf ledgers id)) ∧
          ∀ row ∈ ledgers, HasPosition row → Readable text row) ∧
      ∀ trades, reconstructTrades text ledgers = .ok trades →
        (trades.map (·.positionId)).Nodup ∧
          (∃ parts, List.Forall₂ (MadeOf text) trades parts ∧
            parts.flatten.Perm (ledgers.filter HasPosition)) ∧
          AddsUp text ledgers (trades.map (·.realizedPnl)).sum (trades.map (·.fees)).sum
            (trades.map (·.cashMovements)).sum ∧
          ((∃ cycles, reconstructCycles text trades = .ok cycles) ↔
            ∀ trade ∈ trades, ∀ payload ∈ trade.entryIntents,
              ∃ amount, text.float (payload.get "capital_usage" (.float 0)) = .ok amount) ∧
          (∀ cycles, reconstructCycles text trades = .ok cycles →
            AddsUp text ledgers (cycles.map (·.cumulativePnl)).sum
              (cycles.map (·.cumulativeFees)).sum (cycles.map (·.cumulativeDebitCredit)).sum) ∧
          (ledgers.Pairwise (fun a b => ¬ SameKey a b) → ∀ others, ledgers.Perm others →
            ∃ trades', reconstructTrades text others = .ok trades' ∧ trades.Perm trades' ∧
              ∀ cycles, reconstructCycles text trades = .ok cycles →
                ∃ cycles', reconstructCycles text trades' = .ok cycles' ∧
                  cycles.Perm cycles') := by
  refine ⟨exists_reconstructTrades_iff, fun trades h => ?_⟩
  have hnodup := nodup_positionId_reconstructTrades h
  refine ⟨hnodup, exists_parts_reconstructTrades h, addsUp_reconstructTrades h,
    exists_reconstructCycles_iff, fun cycles hcycles => addsUp_reconstructCycles h hcycles, ?_⟩
  intro hkeys others hperm
  obtain ⟨trades', htrades', hsame⟩ := reconstructTrades_perm hkeys hperm h
  refine ⟨trades', htrades', hsame, fun cycles hcycles => ?_⟩
  exact reconstructCycles_perm hnodup (tradeId_eq_reconstructTrades h) hsame hcycles

/-- A fill of a position, with the cash it moved. -/
def fillRow (strategyId positionId : String) (sequenceNumber : Int) (cash : PyValue) :
    LedgerRecord where
  timestamp := ⟨0, some 0⟩
  strategyId
  positionId := some positionId
  recordType := "fill"
  reasonCode := ""
  sequenceNumber
  payload := [("cash_movement", cash)]
  manifestReference := .none
  softwareVersion := none
  rowChecksum := ""

theorem reconstruction_conserves_ledger_two_strategies :
    ∃ trades, reconstructTrades plainText [fillRow "s" "p" 0 (.int 5), fillRow "t" "q" 1 (.int 7)] =
        .ok trades ∧ (trades.map (·.cashMovements)).sum = 12 := by
  have hread : ∀ row ∈ [fillRow "s" "p" 0 (.int 5), fillRow "t" "q" 1 (.int 7)],
      HasPosition row → Readable plainText row := by
    intro row hrow _ key hkey
    simp only [amountKeys, List.mem_cons, List.not_mem_nil, or_false] at hkey hrow
    rcases hrow with rfl | rfl <;> rcases hkey with rfl | rfl | rfl <;> exact ⟨_, rfl⟩
  have hc : ∀ id, id ≠ "" →
      Comparable (rowsOf [fillRow "s" "p" 0 (.int 5), fillRow "t" "q" 1 (.int 7)] id) := by
    intro id _
    refine Or.inl fun row hrow => ?_
    obtain ⟨hmem, -⟩ := position_of_mem_rowsOf hrow
    simp only [List.mem_cons, List.not_mem_nil, or_false] at hmem
    rcases hmem with rfl | rfl <;> rfl
  have h := reconstruction_conserves_ledger plainText
    [fillRow "s" "p" 0 (.int 5), fillRow "t" "q" 1 (.int 7)]
  obtain ⟨trades, htrades⟩ := h.1.mpr ⟨hc, hread⟩
  refine ⟨trades, htrades, ?_⟩
  rw [(h.2 trades htrades).2.2.1.2.2]
  decide +kernel

/-- Two ledgers of the same rows, with keys that differ, whose cycles are listed differently, and a
row whose amount is no number. -/
theorem cycles_listed_by_first_appearance :
    [fillRow "s" "p" 0 (.int 5), fillRow "t" "q" 1 (.int 7)].Pairwise (fun a b => ¬ SameKey a b) ∧
      (reconstructTrades plainText [fillRow "s" "p" 0 (.int 5), fillRow "t" "q" 1 (.int 7)] >>=
          reconstructCycles plainText).map (·.map (·.strategyId)) = .ok ["s", "t"] ∧
      (reconstructTrades plainText [fillRow "t" "q" 1 (.int 7), fillRow "s" "p" 0 (.int 5)] >>=
          reconstructCycles plainText).map (·.map (·.strategyId)) = .ok ["t", "s"] ∧
      ∃ e, reconstructTrades plainText [fillRow "s" "p" 0 (.str "x")] = .error e := by
  refine ⟨?_, rfl, rfl, ⟨_, rfl⟩⟩
  simp [SameKey, fillRow]

end OptionResearch.TradeReconstructionService
