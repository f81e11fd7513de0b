import TransactionMonitoring.Faults

/-! The ClickHouse warehouse.

A table is the list of its rows in the order they were inserted; one `INSERT` is
atomic and appends all of its rows.  Tables are `ReplacingMergeTree`: an ordinary
read sees every row, a `FINAL` read keeps for each key the row with the highest
version column and, among equals, the one inserted last.  A process serves one
network, so the `network` column is left out.
-/
namespace TransactionMonitoring.Warehouse

/-- `TransactionInput`, as far as the warehouse stores it. -/
structure TransactionInput where
  txHash : String
  index : Nat
  address : String
  amount : Nat
  isReference : Bool
  isCollateral : Bool
  isUnspentAttempt : Bool
deriving DecidableEq, Repr

/-- `TransactionOutput`, as far as the warehouse stores it. -/
structure TransactionOutput where
  address : String
  amount : Nat
  isCollateral : Bool
  /-- The explicit on-chain index; `none` is the position in the outputs list. -/
  outputIndex : Option Nat
deriving DecidableEq, Repr

/-- `NormalizedTransaction`.  The parser stamps `ingestion_timestamp`, so a whole-batch
retry writes the same stamp again. -/
structure NormalizedTransaction where
  txHash : String
  slot : Option Nat
  inputs : List TransactionInput
  outputs : List TransactionOutput
  /-- The inputs the ledger consumed: reference inputs never count. -/
  inputCount : Nat
  /-- The serialized Ogmios payload, `none` when there is none. -/
  rawData : Option String
  ingestionTimestamp : Nat
deriving DecidableEq, Repr

/-- A row of `transactions`. -/
structure TxRow where
  txHash : String
  slot : Option Nat
  inputCount : Nat
  rawData : String
  rawDataTruncated : Bool
  ingestionTimestamp : Nat
deriving DecidableEq, Repr

/-- A row of `transaction_inputs`. -/
structure InputRow where
  txHash : String
  inputIndex : Nat
  inputTxHash : String
  inputIndexInTx : Nat
  address : String
  amount : Nat
  isReference : Bool
  isCollateral : Bool
  isUnspentAttempt : Bool
  ingestionTimestamp : Nat
deriving DecidableEq, Repr

/-- A row of `transaction_outputs`. -/
structure OutputRow where
  txHash : String
  outputIndex : Nat
  address : String
  amount : Nat
  isCollateral : Bool
  ingestionTimestamp : Nat
deriving DecidableEq, Repr

/-- `_serialize_raw_data`: a payload over `RAW_DATA_MAX_BYTES` is stored empty with
the flag set, never as a prefix. -/
def serializeRawData (maxBytes : Nat) (rawData : Option String) : String × Bool :=
  match rawData with
  | none => ("", false)
  | some rawJson => if 0 < maxBytes ∧ maxBytes < rawJson.length then ("", true) else (rawJson, false)

/-- The `transactions` row of one transaction. -/
def txRow (maxBytes : Nat) (tx : NormalizedTransaction) : TxRow where
  txHash := tx.txHash
  slot := tx.slot
  inputCount := tx.inputCount
  rawData := (serializeRawData maxBytes tx.rawData).1
  rawDataTruncated := (serializeRawData maxBytes tx.rawData).2
  ingestionTimestamp := tx.ingestionTimestamp

/-- The `transaction_inputs` rows of one transaction. -/
def inputRows (tx : NormalizedTransaction) : List InputRow :=
  tx.inputs.mapIdx fun idx inp =>
    ⟨tx.txHash, idx, inp.txHash, inp.index, inp.address, inp.amount, inp.isReference,
      inp.isCollateral, inp.isUnspentAttempt, tx.ingestionTimestamp⟩

/-- The `transaction_outputs` rows of one transaction: an explicit on-chain index
wins over the list position. -/
def outputRows (tx : NormalizedTransaction) : List OutputRow :=
  tx.outputs.mapIdx fun idx out =>
    ⟨tx.txHash, out.outputIndex.getD idx, out.address, out.amount, out.isCollateral,
      tx.ingestionTimestamp⟩

theorem inputRows_hash {tx : NormalizedTransaction} {row : InputRow} (member : row ∈ inputRows tx) :
    row.txHash = tx.txHash := by
  obtain ⟨idx, below, rfl⟩ := List.mem_mapIdx.mp member
  rfl

theorem outputRows_hash {tx : NormalizedTransaction} {row : OutputRow} (member : row ∈ outputRows tx) :
    row.txHash = tx.txHash := by
  obtain ⟨idx, below, rfl⟩ := List.mem_mapIdx.mp member
  rfl

/-- A row of `tx_class_scores`: its key, its version and the degradation markers of
`evidence._meta`.  The scores themselves decide nothing here. -/
structure ScoreRow where
  txHash : String
  analyzedAt : Nat
  /-- `raw_data_unavailable`. -/
  rawDataUnavailable : Bool
  /-- `scorer_failed`. -/
  scorerFailed : List String
  /-- `enrichment_unavailable`. -/
  enrichmentUnavailable : List String
deriving DecidableEq, Repr

/-- The three ingestion tables and the score table. -/
structure Tables where
  transactions : List TxRow
  transactionInputs : List InputRow
  transactionOutputs : List OutputRow
  txClassScores : List ScoreRow
deriving DecidableEq, Repr

def Tables.empty : Tables := ⟨[], [], [], []⟩

/-- Every input and output the ingester builds a row for has a row in the child tables. -/
def Complete (tables : Tables) (tx : NormalizedTransaction) : Prop :=
  (∀ row ∈ inputRows tx, ∃ stored ∈ tables.transactionInputs,
    stored.txHash = row.txHash ∧ stored.inputIndex = row.inputIndex) ∧
  ∀ row ∈ outputRows tx, ∃ stored ∈ tables.transactionOutputs,
    stored.txHash = row.txHash ∧ stored.outputIndex = row.outputIndex

instance (tables : Tables) (tx : NormalizedTransaction) : Decidable (Complete tables tx) :=
  inferInstanceAs (Decidable (_ ∧ _))

/-! ## The unanalyzed poll -/

/-- The poll's input witness: no consumed input, or some input row is visible. -/
def inputsVisible (tables : Tables) (since : Option Nat) (row : TxRow) : Bool :=
  row.inputCount = 0 ||
    tables.transactionInputs.any fun input =>
      input.txHash = row.txHash && decide (∀ bound ∈ since, bound ≤ input.ingestionTimestamp)

/-- The poll's anti-join side: a score row for the hash inside the bound. -/
def scoredSince (tables : Tables) (since : Option Nat) (txHash : String) : Bool :=
  tables.txClassScores.any fun score =>
    score.txHash = txHash && decide (∀ bound ∈ since, bound ≤ score.analyzedAt)

/-- The `WHERE` part of `get_unanalyzed_transactions`. -/
def pollAdmits (tables : Tables) (since : Option Nat) (row : TxRow) : Bool :=
  !scoredSince tables since row.txHash &&
    decide (∀ bound ∈ since, bound ≤ row.ingestionTimestamp) && inputsVisible tables since row

/-- An order in which the poll may see its rows: oldest first, rows of one stamp in
any order.  The read is not `FINAL`, so a hash may stand in it more than once. -/
structure PollOrder (tables : Tables) (since : Option Nat) (order : List TxRow) : Prop where
  admitted : order.Perm (tables.transactions.filter (pollAdmits tables since))
  oldestFirst : order.Pairwise fun first second =>
    first.ingestionTimestamp ≤ second.ingestionTimestamp

/-- `get_unanalyzed_transactions`: the oldest rows the poll admits, one batch of them. -/
def getUnanalyzedTransactions (order : List TxRow) (batchSize : Nat) : List TxRow :=
  order.take batchSize

theorem PollOrder.mem_iff {tables : Tables} {since : Option Nat} {order : List TxRow}
    (ordered : PollOrder tables since order) (row : TxRow) :
    row ∈ order ↔ row ∈ tables.transactions ∧ pollAdmits tables since row = true := by
  rw [ordered.admitted.mem_iff, List.mem_filter]

theorem PollOrder.exists (tables : Tables) (since : Option Nat) :
    ∃ order, PollOrder tables since order := by
  obtain ⟨order, admitted, oldestFirst⟩ := Faults.exists_ordered
    (fun (first second : TxRow) => first.ingestionTimestamp ≤ second.ingestionTimestamp)
    (fun _ _ _ => Nat.le_trans) (fun _ _ => Nat.le_total _ _)
    (tables.transactions.filter (pollAdmits tables since))
  exact ⟨order, admitted, oldestFirst⟩

end TransactionMonitoring.Warehouse
