import TransactionMonitoring.HashChain
import TransactionMonitoring.Rollback

/-! The roll-forward handler of the chain-sync client.

A block is parsed, its payloads go to the raw store, its rows to the warehouse, and the
checkpoint is written last.  A frame that does not decode is salvaged transaction by
transaction: what was lost is counted in a quarantine record first, the rest takes the
ordinary path.  Whatever raises on the way leaves the checkpoint where it was.

The parser is a parameter.  Which transactions of an undecodable frame decode on their own
is part of the delivery; the header fields the scan finds are the block's own.
-/
namespace TransactionMonitoring.RollForward
open Faults Warehouse Rollback

/-- A transaction of a block as Ogmios sends it. -/
structure RawTx where
  id : String
  /-- The element is a JSON object. -/
  isObject : Bool
  body : String
deriving DecidableEq, Repr

/-- What `parse_ogmios_transaction` reads off the transaction itself. -/
structure ParsedTx where
  txHash : String
  inputs : List TransactionInput
  outputs : List TransactionOutput
  inputCount : Nat
  rawData : Option String
deriving DecidableEq, Repr

/-- The normalized transaction of a block's slot, stamped when it was parsed. -/
def ParsedTx.normalized (slot stamp : Nat) (parsed : ParsedTx) : NormalizedTransaction :=
  ⟨parsed.txHash, some slot, parsed.inputs, parsed.outputs, parsed.inputCount, parsed.rawData, stamp⟩

structure Block where
  id : String
  parent : Option String
  /-- The slot the chain places the block in. -/
  slotNo : Nat
  /-- The block as sent carries its slot; epoch-boundary blocks do not. -/
  hasSlot : Bool
  txs : List RawTx
deriving DecidableEq, Repr

def Block.slot (block : Block) : Option Nat := if block.hasSlot then some block.slotNo else none

def Block.point (block : Block) : Point := ⟨block.slotNo, block.id⟩

/-- How the frame of a block arrives: decoded, or undecodable, and then which header
fields the scan finds and which transactions decode on their own. -/
inductive Delivery where
  | decoded
  | undecodable (idFound slotFound : Bool) (decodes : RawTx → Bool)

structure Settings where
  rawStoreEnabled : Bool
  rawDataMaxBytes : Nat
  clickhouseInsertMaxRetries : Nat
  rollback : Rollback.Settings
deriving DecidableEq, Repr

/-- A row of `quarantined_blocks`. -/
structure Quarantined where
  blockId : String
  slot : Nat
  txsRecovered : Nat
  txsLost : Nat
deriving DecidableEq, Repr

/-- Everything the client keeps across a crash. -/
structure Archive where
  store : Store
  /-- Hashes whose payload is in the raw store. -/
  rawConfirmed : List String
  /-- The transactions handed to `write_parse_failed`, whose own failure is only logged. -/
  parseFailed : List RawTx
  quarantinedBlocks : List Quarantined
deriving DecidableEq, Repr

def Archive.empty : Archive := ⟨Store.empty, [], [], []⟩

/-- What becomes of the statements of one `insert_transactions_batch`. -/
structure InsertFaults where
  transactions : Outcome
  inputs : Outcome
  outputs : Outcome
deriving DecidableEq, Repr

/-- What becomes of the steps of one roll-forward. -/
structure ForwardFaults where
  recordQuarantined : Outcome
  /-- After how many transactions a crash cuts the parse loop, if one does. -/
  parseCut : Option Nat
  /-- The hashes whose raw payload gets written, and whether some write raises. -/
  rawWritten : List String
  rawRaises : Bool
  /-- The attempts of the warehouse insert. -/
  inserts : List InsertFaults
  confirmLifecycle : Outcome
  saveSyncPoint : Outcome
deriving DecidableEq, Repr

/-- What a handler leaves: the archive, whether it wrote the checkpoint and whether it returned. -/
structure Handled where
  archive : Archive
  saved : Bool
  returned : Bool
deriving DecidableEq, Repr

section
variable (settings : Settings) (parse : RawTx → Option ParsedTx)

/-! ## Parsing -/

/-- The parser reads objects only. -/
def parseTx (tx : RawTx) : Option ParsedTx := if tx.isObject then parse tx else none

structure ParsedBlock where
  normalized : List ParsedTx
  handed : List RawTx
  returned : Bool
deriving DecidableEq, Repr

/-- `_parse_block_txs`.  A transaction that does not parse is handed to the parse-failed
store, if that is enabled, and skipped; an element that is no object raises, because the
error handler asks it for its id. -/
def parseBlockTxs : List RawTx → ParsedBlock
  | [] => ⟨[], [], true⟩
  | tx :: rest =>
      let later := parseBlockTxs rest
      match parseTx parse tx with
      | some parsed => { later with normalized := parsed :: later.normalized }
      | none =>
          if tx.isObject then
            { later with handed := if settings.rawStoreEnabled then tx :: later.handed else later.handed }
          else ⟨[], [], false⟩

/-! ## Persisting -/

/-- `_write_raw_payloads`; a failed write raises only where the raw store is load-bearing. -/
def writeRawPayloads (faults : ForwardFaults) (normalized : List ParsedTx) (archive : Archive) :
    Archive × Bool :=
  if settings.rawStoreEnabled then
    let written := (normalized.filter fun tx => tx.rawData.isSome && tx.txHash ∈ faults.rawWritten).map
      ParsedTx.txHash
    ({ archive with rawConfirmed := archive.rawConfirmed ++ written },
      !(faults.rawRaises && decide (0 < settings.rawDataMaxBytes)))
  else (archive, true)

/-- One `INSERT`; no rows send no statement. -/
def insertRows {ρ : Type} (outcome : Outcome) (rows table : List ρ) : List ρ × Bool :=
  if rows.isEmpty then (table, true)
  else (if outcome.applies then table ++ rows else table, outcome.returns)

/-- `insert_transactions_batch`: three statements in turn, up to the first that raises. -/
def insertTransactionsBatch (faults : InsertFaults) (txs : List NormalizedTransaction) (tables : Tables) :
    Tables × Bool :=
  let transactions := insertRows faults.transactions (txs.map (txRow settings.rawDataMaxBytes))
    tables.transactions
  let tables := { tables with transactions := transactions.1 }
  if transactions.2 then
    let inputs := insertRows faults.inputs (txs.flatMap inputRows) tables.transactionInputs
    let tables := { tables with transactionInputs := inputs.1 }
    if inputs.2 then
      let outputs := insertRows faults.outputs (txs.flatMap outputRows) tables.transactionOutputs
      ({ tables with transactionOutputs := outputs.1 }, outputs.2)
    else (tables, false)
  else (tables, false)

/-- The attempts of `_insert_block_with_retry`; it raises when they are used up. -/
def insertAttempts (txs : List NormalizedTransaction) (tables : Tables) : List InsertFaults → Tables × Bool
  | [] => (tables, false)
  | faults :: rest =>
      let ran := insertTransactionsBatch settings faults txs tables
      if ran.2 then ran else insertAttempts txs ran.1 rest

/-- `_insert_block_with_retry`. -/
def insertBlockWithRetry (faults : ForwardFaults) (txs : List NormalizedTransaction) (tables : Tables) :
    Tables × Bool :=
  insertAttempts settings txs tables (faults.inserts.take settings.clickhouseInsertMaxRetries)

/-- `batch_upsert_lifecycle_confirmed`. -/
def confirmLifecycle (slot : Nat) (normalized : List ParsedTx) (rows : List Lifecycle) : List Lifecycle :=
  rows.filter (fun row => row.txHash ∉ normalized.map ParsedTx.txHash) ++
    normalized.map fun tx => ⟨tx.txHash, some slot, .confirmed⟩

/-- `save_sync_point`. -/
def saveSyncPoint (faults : ForwardFaults) (point : Point) (archive : Archive) : Handled :=
  if faults.saveSyncPoint.applies then
    ⟨{ archive with store := { archive.store with syncCheckpoint := some point } }, true,
      faults.saveSyncPoint.returns⟩
  else ⟨archive, false, faults.saveSyncPoint.returns⟩

/-- The persistence steps of a block some of whose transactions parsed. -/
def persistBlock (faults : ForwardFaults) (slot stamp : Nat) (normalized : List ParsedTx)
    (archive : Archive) : Archive × Bool :=
  let written := writeRawPayloads settings faults normalized archive
  if written.2 then
    let inserted := insertBlockWithRetry settings faults
      (normalized.map (ParsedTx.normalized slot stamp)) written.1.store.tables
    let store := { written.1.store with tables := inserted.1 }
    if inserted.2 then
      -- a lifecycle failure is logged and passed over
      let lifecycle := if faults.confirmLifecycle.applies then
          confirmLifecycle slot normalized store.txLifecycle
        else store.txLifecycle
      ({ written.1 with store := { store with txLifecycle := lifecycle } }, true)
    else ({ written.1 with store := store }, false)
  else (written.1, false)

/-- `_handle_roll_forward`, for the slot and the transactions the frame gave. -/
def handleRollForward (faults : ForwardFaults) (stamp : Nat) (id : String) (slot : Option Nat)
    (txs : List RawTx) (archive : Archive) : Handled :=
  match slot with
  | none => ⟨archive, false, txs.isEmpty⟩
  | some slot =>
      if txs.isEmpty then saveSyncPoint faults ⟨slot, id⟩ archive
      else
        match faults.parseCut with
        | some count =>
            let parsed := parseBlockTxs settings parse (txs.take count)
            ⟨{ archive with parseFailed := archive.parseFailed ++ parsed.handed }, false, false⟩
        | none =>
            let parsed := parseBlockTxs settings parse txs
            let archive := { archive with parseFailed := archive.parseFailed ++ parsed.handed }
            if parsed.returned then
              if parsed.normalized.isEmpty then saveSyncPoint faults ⟨slot, id⟩ archive
              else
                let persisted := persistBlock settings faults slot stamp parsed.normalized archive
                if persisted.2 then saveSyncPoint faults ⟨slot, id⟩ persisted.1
                else ⟨persisted.1, false, false⟩
            else ⟨archive, false, false⟩

/-- `record_quarantined_block`: the record of a block is replaced by a later one. -/
def recordQuarantinedBlock (record : Quarantined) (records : List Quarantined) : List Quarantined :=
  records.filter (fun other => other.blockId ≠ record.blockId) ++ [record]

/-- `_quarantine_undecodable_block`. -/
def quarantineUndecodableBlock (faults : ForwardFaults) (stamp : Nat) (block : Block)
    (idFound slotFound : Bool) (decodes : RawTx → Bool) (archive : Archive) : Handled :=
  match (if slotFound then block.slot else none) with
  | none => ⟨archive, false, false⟩
  | some slot =>
      if idFound && block.id ≠ "" then
        let recovered := block.txs.filter decodes
        let lost := (block.txs.filter fun tx => !decodes tx).length
        let archive := if faults.recordQuarantined.applies then { archive with
            quarantinedBlocks := recordQuarantinedBlock ⟨block.id, slot, recovered.length, lost⟩
              archive.quarantinedBlocks }
          else archive
        if faults.recordQuarantined.returns then
          handleRollForward settings parse faults stamp block.id (some slot) recovered archive
        else ⟨archive, false, false⟩
      else ⟨archive, false, false⟩

/-- What the chain loop does with the next block. -/
def handleBlock (faults : ForwardFaults) (stamp : Nat) (block : Block) (delivery : Delivery)
    (archive : Archive) : Handled :=
  match delivery with
  | .decoded => handleRollForward settings parse faults stamp block.id block.slot block.txs archive
  | .undecodable idFound slotFound decodes =>
      quarantineUndecodableBlock settings parse faults stamp block idFound slotFound decodes archive

/-! ## What a block is owed -/

/-- The transaction's row and every row of its inputs and outputs are in the warehouse. -/
def Persisted (tables : Tables) (slot : Nat) (parsed : ParsedTx) : Prop :=
  ∃ stamp, txRow settings.rawDataMaxBytes (parsed.normalized slot stamp) ∈ tables.transactions ∧
    Complete tables (parsed.normalized slot stamp)

/-- The same, and a `FINAL` read returns that row, so no rollback to a later slot takes it
for an orphan. -/
def Secure (tables : Tables) (slot : Nat) (parsed : ParsedTx) : Prop :=
  ∃ stamp, Replacing.final TxRow.txHash TxRow.ingestionTimestamp tables.transactions parsed.txHash =
      some (txRow settings.rawDataMaxBytes (parsed.normalized slot stamp)) ∧
    Complete tables (parsed.normalized slot stamp)

/-- Every transaction of the block is held if it parses, handed to the parse-failed store
if that is enabled, or counted as lost in the block's quarantine record.  A block without a
slot carries none. -/
structure AccountsFor (held : ParsedTx → Prop) (archive : Archive) (block : Block) : Prop where
  slotless : block.slot = none → block.txs = []
  each : ∃ kept lost, block.txs.Perm (kept ++ lost) ∧
    (∀ tx ∈ kept, ∀ parsed, parseTx parse tx = some parsed → held parsed) ∧
    (∀ tx ∈ kept, parseTx parse tx = none → settings.rawStoreEnabled = true → tx ∈ archive.parseFailed) ∧
    (lost = [] ∨ ∃ record ∈ archive.quarantinedBlocks, record.blockId = block.id ∧
      record.txsLost = lost.length)

/-- Nothing of the block is missing from the archive. -/
def Accounted (archive : Archive) (block : Block) : Prop :=
  AccountsFor settings parse (Persisted settings archive.store.tables block.slotNo) archive block

def Secured (archive : Archive) (block : Block) : Prop :=
  AccountsFor settings parse (Secure settings archive.store.tables block.slotNo) archive block

end

section
variable {settings : Settings} {parse : RawTx → Option ParsedTx} {before after : Archive} {block : Block}

/-- A block stays accounted for while what is held stays held and no record of it goes. -/
theorem AccountsFor.mono {held holds : ParsedTx → Prop}
    (accounts : AccountsFor settings parse held before block)
    (kept : ∀ tx ∈ block.txs, ∀ parsed, parseTx parse tx = some parsed → held parsed → holds parsed)
    (handed : before.parseFailed ⊆ after.parseFailed)
    (records : ∀ record ∈ before.quarantinedBlocks, record.blockId = block.id →
      record ∈ after.quarantinedBlocks) :
    AccountsFor settings parse holds after block := by
  obtain ⟨keptTxs, lost, shape, parsed, unparsed, counted⟩ := accounts.each
  refine ⟨accounts.slotless, keptTxs, lost, shape, ?_, ?_, ?_⟩
  · intro tx member result found
    have among : tx ∈ block.txs := shape.mem_iff.mpr (List.mem_append_left _ member)
    exact kept tx among result found (parsed tx member result found)
  · exact fun tx member failed enabled => handed (unparsed tx member failed enabled)
  · rcases counted with none | ⟨record, member, same, count⟩
    · exact Or.inl none
    · exact Or.inr ⟨record, records record member same, same, count⟩

theorem Secured.accounted {archive : Archive} (secured : Secured settings parse archive block) :
    Accounted settings parse archive block := by
  refine AccountsFor.mono secured ?_ (List.Subset.refl _) (fun _ member _ => member)
  rintro tx - parsed - ⟨stamp, found, complete⟩
  exact ⟨stamp, (Replacing.final_mem _ _ found).1, complete⟩

end

/-! ## The warehouse insert -/

section
variable {settings : Settings} {txs : List NormalizedTransaction}

/-- The tables after some of the batch's statements, sent any number of times. -/
structure Appended (settings : Settings) (txs : List NormalizedTransaction) (before after : Tables) :
    Prop where
  transactions : ∃ rows, after.transactions = before.transactions ++ rows ∧
    rows ⊆ txs.map (txRow settings.rawDataMaxBytes)
  inputs : before.transactionInputs ⊆ after.transactionInputs
  outputs : before.transactionOutputs ⊆ after.transactionOutputs

theorem Appended.refl (tables : Tables) : Appended settings txs tables tables :=
  ⟨⟨[], by simp, by simp⟩, List.Subset.refl _, List.Subset.refl _⟩

theorem Appended.trans {first second third : Tables} (before : Appended settings txs first second)
    (after : Appended settings txs second third) : Appended settings txs first third := by
  obtain ⟨early, shapeEarly, fromEarly⟩ := before.transactions
  obtain ⟨late, shapeLate, fromLate⟩ := after.transactions
  refine ⟨⟨early ++ late, ?_, List.append_subset.mpr ⟨fromEarly, fromLate⟩⟩,
    List.Subset.trans before.inputs after.inputs, List.Subset.trans before.outputs after.outputs⟩
  rw [shapeLate, shapeEarly, List.append_assoc]

/-- All rows of the batch are among the tables' rows. -/
structure Holds (settings : Settings) (txs : List NormalizedTransaction) (before after : Tables) :
    Prop where
  transactions : ∃ rows, after.transactions = before.transactions ++ rows ∧
    txs.map (txRow settings.rawDataMaxBytes) ⊆ rows
  inputs : txs.flatMap inputRows ⊆ after.transactionInputs
  outputs : txs.flatMap outputRows ⊆ after.transactionOutputs

private theorem insertRows_subset {ρ : Type} (outcome : Outcome) (rows table : List ρ) :
    table ⊆ (insertRows outcome rows table).1 := by
  unfold insertRows
  split
  · exact List.Subset.refl _
  · dsimp only
    split
    · exact List.subset_append_left _ _
    · exact List.Subset.refl _

private theorem insertRows_appends {ρ : Type} (outcome : Outcome) (rows table : List ρ) :
    ∃ added, (insertRows outcome rows table).1 = table ++ added ∧ added ⊆ rows := by
  unfold insertRows
  split
  · exact ⟨[], by simp, by simp⟩
  · dsimp only
    split
    · exact ⟨rows, rfl, List.Subset.refl _⟩
    · exact ⟨[], by simp, by simp⟩

private theorem insertRows_returned {ρ : Type} {outcome : Outcome} {rows table : List ρ}
    (returned : (insertRows outcome rows table).2 = true) :
    ∃ added, (insertRows outcome rows table).1 = table ++ added ∧ rows ⊆ added := by
  unfold insertRows at returned ⊢
  split
  · rename_i empty
    exact ⟨[], by simp, by simp [List.isEmpty_iff.mp empty]⟩
  · rename_i some
    simp only [some] at returned
    rw [if_pos (Outcome.applies_of_returns returned)]
    exact ⟨rows, rfl, List.Subset.refl _⟩

private theorem insertTransactionsBatch_appended (faults : InsertFaults) (tables : Tables) :
    Appended settings txs tables (insertTransactionsBatch settings faults txs tables).1 := by
  have transactions := insertRows_appends faults.transactions (txs.map (txRow settings.rawDataMaxBytes))
    tables.transactions
  have inputs := insertRows_subset faults.inputs (txs.flatMap inputRows) tables.transactionInputs
  have outputs := insertRows_subset faults.outputs (txs.flatMap outputRows) tables.transactionOutputs
  simp only [insertTransactionsBatch]
  split
  · split
    · exact ⟨transactions, inputs, outputs⟩
    · exact ⟨transactions, inputs, List.Subset.refl _⟩
  · exact ⟨transactions, List.Subset.refl _, List.Subset.refl _⟩

private theorem insertTransactionsBatch_holds {faults : InsertFaults} {tables : Tables}
    (returned : (insertTransactionsBatch settings faults txs tables).2 = true) :
    Holds settings txs tables (insertTransactionsBatch settings faults txs tables).1 := by
  simp only [insertTransactionsBatch] at returned ⊢
  split at returned
  · rename_i first
    split at returned
    · rename_i second
      simp only [first, second, if_true]
      obtain ⟨inputs, shapeInputs, allInputs⟩ := insertRows_returned second
      obtain ⟨outputs, shapeOutputs, allOutputs⟩ := insertRows_returned returned
      refine ⟨insertRows_returned first, ?_, ?_⟩
      · rw [shapeInputs]
        exact List.Subset.trans allInputs (List.subset_append_right _ _)
      · rw [shapeOutputs]
        exact List.Subset.trans allOutputs (List.subset_append_right _ _)
    · cases returned
  · cases returned

private theorem insertAttempts_appended (attempts : List InsertFaults) (tables : Tables) :
    Appended settings txs tables (insertAttempts settings txs tables attempts).1 := by
  induction attempts generalizing tables with
  | nil => exact Appended.refl tables
  | cons faults rest ih =>
    simp only [insertAttempts]
    split
    · exact insertTransactionsBatch_appended faults tables
    · exact (insertTransactionsBatch_appended faults tables).trans (ih _)

private theorem insertAttempts_holds {attempts : List InsertFaults} {tables : Tables}
    (returned : (insertAttempts settings txs tables attempts).2 = true) :
    Holds settings txs tables (insertAttempts settings txs tables attempts).1 := by
  induction attempts generalizing tables with
  | nil => cases returned
  | cons faults rest ih =>
    simp only [insertAttempts] at returned ⊢
    split at returned
    · rename_i done
      simp only [done, if_true]
      exact insertTransactionsBatch_holds done
    · rename_i failed
      simp only [failed]
      have later := ih returned
      obtain ⟨early, shapeEarly, -⟩ := (insertTransactionsBatch_appended faults tables).transactions
      obtain ⟨late, shapeLate, all⟩ := later.transactions
      refine ⟨⟨early ++ late, ?_, List.Subset.trans all (List.subset_append_right _ _)⟩, later.inputs, later.outputs⟩
      rw [← List.append_assoc, ← shapeEarly]
      exact shapeLate

end

/-! ## One block -/

section
variable {settings : Settings} {parse : RawTx → Option ParsedTx}

private theorem mem_normalized {txs : List RawTx} {parsed : ParsedTx}
    (member : parsed ∈ (parseBlockTxs settings parse txs).normalized) :
    ∃ tx ∈ txs, parseTx parse tx = some parsed := by
  induction txs with
  | nil => cases member
  | cons tx rest ih =>
    have later : parsed ∈ (parseBlockTxs settings parse rest).normalized →
        ∃ other ∈ tx :: rest, parseTx parse other = some parsed := by
      intro among
      obtain ⟨other, inRest, found⟩ := ih among
      exact ⟨other, List.mem_cons_of_mem _ inRest, found⟩
    simp only [parseBlockTxs] at member
    split at member
    · rename_i result found
      rcases List.mem_cons.mp member with rfl | among
      · exact ⟨tx, List.mem_cons_self, found⟩
      · exact later among
    · split at member
      · exact later member
      · cases member

/-- A block that was parsed to its end has every transaction normalized or handed over. -/
private theorem parsed_all {txs : List RawTx} (returned : (parseBlockTxs settings parse txs).returned = true)
    {tx : RawTx} (member : tx ∈ txs) :
    (∀ parsed, parseTx parse tx = some parsed → parsed ∈ (parseBlockTxs settings parse txs).normalized) ∧
    (parseTx parse tx = none → settings.rawStoreEnabled = true →
      tx ∈ (parseBlockTxs settings parse txs).handed) := by
  induction txs with
  | nil => cases member
  | cons first rest ih =>
    simp only [parseBlockTxs] at returned ⊢
    split at returned
    · rename_i result found
      dsimp only
      rcases List.mem_cons.mp member with rfl | among
      · refine ⟨fun parsed same => ?_, fun failed => ?_⟩
        · rw [found] at same
          obtain rfl := Option.some.inj same
          exact List.mem_cons_self
        · rw [found] at failed
          cases failed
      · obtain ⟨normalized, handed⟩ := ih returned among
        exact ⟨fun parsed same => List.mem_cons_of_mem _ (normalized parsed same), handed⟩
    · rename_i failed
      split at returned
      · rename_i object
        simp only [object, if_true]
        rcases List.mem_cons.mp member with rfl | among
        · refine ⟨fun parsed same => ?_, fun _ enabled => ?_⟩
          · rw [failed] at same
            cases same
          · simp [enabled]
        · obtain ⟨normalized, handed⟩ := ih returned among
          refine ⟨normalized, fun unparsed enabled => ?_⟩
          simp only [enabled, if_true]
          exact List.mem_cons_of_mem _ (handed unparsed enabled)
      · cases returned

private theorem writeRawPayloads_frame (faults : ForwardFaults) (normalized : List ParsedTx)
    (archive : Archive) :
    (writeRawPayloads settings faults normalized archive).1.store = archive.store ∧
    (writeRawPayloads settings faults normalized archive).1.parseFailed = archive.parseFailed ∧
    (writeRawPayloads settings faults normalized archive).1.quarantinedBlocks =
      archive.quarantinedBlocks := by
  unfold writeRawPayloads
  split <;> exact ⟨rfl, rfl, rfl⟩

/-- Nothing but the tables and the bookkeeping of the persistence steps changes. -/
private theorem persistBlock_spec (faults : ForwardFaults) (slot stamp : Nat) (normalized : List ParsedTx)
    (archive : Archive) :
    Appended settings (normalized.map (ParsedTx.normalized slot stamp)) archive.store.tables
      (persistBlock settings faults slot stamp normalized archive).1.store.tables ∧
    (persistBlock settings faults slot stamp normalized archive).1.parseFailed = archive.parseFailed ∧
    (persistBlock settings faults slot stamp normalized archive).1.quarantinedBlocks =
      archive.quarantinedBlocks ∧
    (persistBlock settings faults slot stamp normalized archive).1.store.syncCheckpoint =
      archive.store.syncCheckpoint := by
  obtain ⟨store, failed, records⟩ := @writeRawPayloads_frame settings faults normalized archive
  have appended : ∀ tables, Appended settings (normalized.map (ParsedTx.normalized slot stamp)) tables
      (insertBlockWithRetry settings faults (normalized.map (ParsedTx.normalized slot stamp)) tables).1 :=
    fun tables => insertAttempts_appended _ tables
  simp only [persistBlock]
  split
  · split
    · exact ⟨store ▸ appended _, failed, records, store ▸ rfl⟩
    · exact ⟨store ▸ appended _, failed, records, store ▸ rfl⟩
  · exact ⟨store ▸ Appended.refl _, failed, records, store ▸ rfl⟩

private theorem persistBlock_holds {faults : ForwardFaults} {slot stamp : Nat} {normalized : List ParsedTx}
    {archive : Archive} (returned : (persistBlock settings faults slot stamp normalized archive).2 = true) :
    Holds settings (normalized.map (ParsedTx.normalized slot stamp)) archive.store.tables
      (persistBlock settings faults slot stamp normalized archive).1.store.tables := by
  have store := (@writeRawPayloads_frame settings faults normalized archive).1
  simp only [persistBlock] at returned ⊢
  split at returned
  · rename_i written
    split at returned
    · rename_i inserted
      simp only [written, inserted, if_true]
      have holds := insertAttempts_holds inserted
      rw [store] at holds ⊢
      exact holds
    · cases returned
  · cases returned

/-- What a delivery of a block may do to the archive, wherever it stops. -/
structure Grown (settings : Settings) (parse : RawTx → Option ParsedTx) (stamp : Nat) (block : Block)
    (before after : Archive) : Prop where
  transactions : ∃ rows, after.store.tables.transactions = before.store.tables.transactions ++ rows ∧
    ∀ row ∈ rows, ∃ tx ∈ block.txs, ∃ parsed, parseTx parse tx = some parsed ∧
      row = txRow settings.rawDataMaxBytes (parsed.normalized block.slotNo stamp)
  inputs : before.store.tables.transactionInputs ⊆ after.store.tables.transactionInputs
  outputs : before.store.tables.transactionOutputs ⊆ after.store.tables.transactionOutputs
  parseFailed : before.parseFailed ⊆ after.parseFailed
  records : ∀ record ∈ before.quarantinedBlocks, record.blockId ≠ block.id →
    record ∈ after.quarantinedBlocks

/-- A handler that stops where it wrote no checkpoint. -/
private theorem saveSyncPoint_spec (faults : ForwardFaults) (point : Point) (archive : Archive) :
    (saveSyncPoint faults point archive).archive.store.tables = archive.store.tables ∧
    (saveSyncPoint faults point archive).archive.parseFailed = archive.parseFailed ∧
    (saveSyncPoint faults point archive).archive.quarantinedBlocks = archive.quarantinedBlocks ∧
    (saveSyncPoint faults point archive).archive.store.syncCheckpoint =
      if (saveSyncPoint faults point archive).saved then some point
      else archive.store.syncCheckpoint := by
  unfold saveSyncPoint
  split <;> simp

variable {block : Block} {stamp : Nat} {faults : ForwardFaults} {archive : Archive}

theorem Grown.refl : Grown settings parse stamp block archive archive :=
  ⟨⟨[], by simp, by simp⟩, List.Subset.refl _, List.Subset.refl _, List.Subset.refl _,
    fun _ member _ => member⟩

private theorem Grown.save {before : Archive} (grown : Grown settings parse stamp block before archive)
    (point : Point) : Grown settings parse stamp block before (saveSyncPoint faults point archive).archive := by
  obtain ⟨tables, failed, records, -⟩ := saveSyncPoint_spec faults point archive
  refine ⟨?_, ?_, ?_, ?_, ?_⟩
  · rw [tables]
    exact grown.transactions
  · rw [tables]
    exact grown.inputs
  · rw [tables]
    exact grown.outputs
  · rw [failed]
    exact grown.parseFailed
  · rw [records]
    exact grown.records

private theorem Grown.hand (handed : List RawTx) :
    Grown settings parse stamp block archive { archive with parseFailed := archive.parseFailed ++ handed } :=
  ⟨⟨[], by simp, by simp⟩, List.Subset.refl _, List.Subset.refl _, List.subset_append_left _ _,
    fun _ member _ => member⟩

private theorem Grown.persist {txs : List RawTx} (among : txs ⊆ block.txs) {ready : Archive}
    (grown : Grown settings parse stamp block archive ready)
    (same : ready.store.tables = archive.store.tables) :
    Grown settings parse stamp block archive (persistBlock settings faults block.slotNo stamp
      (parseBlockTxs settings parse txs).normalized ready).1 := by
  obtain ⟨appended, failed, records, -⟩ := persistBlock_spec faults block.slotNo stamp
    (parseBlockTxs settings parse txs).normalized ready
  rw [same] at appended
  obtain ⟨rows, shape, fromBatch⟩ := appended.transactions
  refine ⟨⟨rows, shape, fun row member => ?_⟩, appended.inputs, appended.outputs, ?_, ?_⟩
  · obtain ⟨normal, inBatch, rfl⟩ := List.mem_map.mp (fromBatch member)
    obtain ⟨parsed, inBlock, rfl⟩ := List.mem_map.mp inBatch
    obtain ⟨tx, member, found⟩ := mem_normalized inBlock
    exact ⟨tx, among member, parsed, found, rfl⟩
  · rw [failed]
    exact grown.parseFailed
  · rw [records]
    exact grown.records

private theorem handleRollForward_grown {txs : List RawTx} (among : txs ⊆ block.txs) (id : String) :
    Grown settings parse stamp block archive
      (handleRollForward settings parse faults stamp id (some block.slotNo) txs archive).archive := by
  simp only [handleRollForward]
  split
  · exact Grown.refl.save _
  · split
    · exact Grown.hand _
    · split
      · split
        · exact (Grown.hand _).save _
        · split
          · exact (Grown.persist among (Grown.hand _) rfl).save _
          · exact Grown.persist among (Grown.hand _) rfl
      · exact Grown.hand _

private theorem handleRollForward_checkpoint (id : String) (slot : Option Nat) (txs : List RawTx) :
    (handleRollForward settings parse faults stamp id slot txs archive).archive.store.syncCheckpoint =
      if (handleRollForward settings parse faults stamp id slot txs archive).saved then
        slot.map fun slot => ⟨slot, id⟩
      else archive.store.syncCheckpoint := by
  cases slot with
  | none => rfl
  | some slot =>
    simp only [handleRollForward]
    split
    · exact (saveSyncPoint_spec faults _ _).2.2.2
    · split
      · rfl
      · split
        · split
          · exact (saveSyncPoint_spec faults _ _).2.2.2
          · split
            · rw [(saveSyncPoint_spec faults _ _).2.2.2, (persistBlock_spec faults slot stamp _ _).2.2.2]
              rfl
            · exact (persistBlock_spec faults slot stamp _ _).2.2.2
        · rfl

/-- A roll-forward that reached its checkpoint write has handed over and persisted what
the block's transactions parsed to. -/
private theorem handleRollForward_done {id : String} {txs : List RawTx}
    (reached : (handleRollForward settings parse faults stamp id (some block.slotNo) txs archive).saved = true ∨
      (handleRollForward settings parse faults stamp id (some block.slotNo) txs archive).returned = true) :
    txs = [] ∨ (parseBlockTxs settings parse txs).returned = true ∧
      (parseBlockTxs settings parse txs).handed ⊆
        (handleRollForward settings parse faults stamp id (some block.slotNo) txs archive).archive.parseFailed ∧
      ((parseBlockTxs settings parse txs).normalized = [] ∨
        Holds settings ((parseBlockTxs settings parse txs).normalized.map
          (ParsedTx.normalized block.slotNo stamp)) archive.store.tables
          (handleRollForward settings parse faults stamp id (some block.slotNo) txs archive).archive.store.tables) := by
  simp only [handleRollForward] at reached ⊢
  by_cases empty : txs.isEmpty = true
  · exact Or.inl (List.isEmpty_iff.mp empty)
  · simp only [empty, Bool.false_eq_true, if_false] at reached ⊢
    cases cut : faults.parseCut with
    | some count => simp [cut] at reached
    | none =>
    simp only [cut] at reached ⊢
    by_cases parsed : (parseBlockTxs settings parse txs).returned = true
    · simp only [parsed, if_true] at reached ⊢
      refine Or.inr ⟨trivial, ?_⟩
      by_cases none : (parseBlockTxs settings parse txs).normalized.isEmpty = true
      · simp only [none, if_true]
        refine ⟨?_, Or.inl (List.isEmpty_iff.mp none)⟩
        rw [(saveSyncPoint_spec faults _ _).2.1]
        exact List.subset_append_right _ _
      · simp only [none, Bool.false_eq_true, if_false] at reached ⊢
        split at reached
        · rename_i persisted
          simp only [persisted, if_true]
          refine ⟨?_, Or.inr ?_⟩
          · rw [(saveSyncPoint_spec faults _ _).2.1, (persistBlock_spec faults block.slotNo stamp _ _).2.1]
            exact List.subset_append_right _ _
          · rw [(saveSyncPoint_spec faults _ _).1]
            exact persistBlock_holds persisted
        · simp at reached
    · simp [parsed] at reached

theorem Grown.trans {first second third : Archive} (before : Grown settings parse stamp block first second)
    (after : Grown settings parse stamp block second third) :
    Grown settings parse stamp block first third := by
  obtain ⟨early, shapeEarly, fromEarly⟩ := before.transactions
  obtain ⟨late, shapeLate, fromLate⟩ := after.transactions
  refine ⟨⟨early ++ late, ?_, ?_⟩, List.Subset.trans before.inputs after.inputs,
    List.Subset.trans before.outputs after.outputs, List.Subset.trans before.parseFailed after.parseFailed, ?_⟩
  · rw [shapeLate, shapeEarly, List.append_assoc]
  · intro row member
    rcases List.mem_append.mp member with inEarly | inLate
    · exact fromEarly row inEarly
    · exact fromLate row inLate
  · exact fun record member other => after.records record (before.records record member other) other

private theorem Grown.quarantine {record : Quarantined} (same : record.blockId = block.id) :
    Grown settings parse stamp block archive { archive with
      quarantinedBlocks := recordQuarantinedBlock record archive.quarantinedBlocks } := by
  refine ⟨⟨[], by simp, by simp⟩, List.Subset.refl _, List.Subset.refl _, List.Subset.refl _, ?_⟩
  intro other member different
  refine List.mem_append_left _ (List.mem_filter.mpr ⟨member, ?_⟩)
  simpa [same] using different

theorem slotNo_of_slot {slot : Nat} (slotted : block.slot = some slot) : block.slotNo = slot := by
  simp only [Block.slot] at slotted
  split_ifs at slotted
  exact Option.some.inj slotted

/-- A slot that the scan of an undecodable frame finds is the block's own. -/
theorem slot_of_found {slotFound : Bool} {slot : Nat}
    (found : (if slotFound then block.slot else none) = some slot) : block.slot = some slot := by
  split_ifs at found
  exact found

/-- Wherever the handling of a block stops, the archive has only grown by that block. -/
theorem handleBlock_grown (delivery : Delivery) :
    Grown settings parse stamp block archive
      (handleBlock settings parse faults stamp block delivery archive).archive := by
  cases delivery with
  | decoded =>
    simp only [handleBlock, Block.slot]
    split
    · exact handleRollForward_grown (List.Subset.refl _) _
    · exact Grown.refl
  | undecodable idFound slotFound decodes =>
    simp only [handleBlock, quarantineUndecodableBlock]
    split
    · exact Grown.refl
    · rename_i slot found
      obtain rfl := slotNo_of_slot (slot_of_found found)
      split
      · have recorded : Grown settings parse stamp block archive
            (if faults.recordQuarantined.applies then { archive with
                quarantinedBlocks := recordQuarantinedBlock ⟨block.id, block.slotNo,
                  (block.txs.filter decodes).length, (block.txs.filter fun tx => !decodes tx).length⟩
                  archive.quarantinedBlocks }
              else archive) := by
          split
          · exact Grown.quarantine rfl
          · exact Grown.refl
        split
        · exact recorded.trans (handleRollForward_grown (List.filter_subset_self _) _)
        · exact recorded
      · exact Grown.refl

/-- The checkpoint is the block's point if it was written and as it was if not. -/
theorem handleBlock_checkpoint (delivery : Delivery) :
    (handleBlock settings parse faults stamp block delivery archive).archive.store.syncCheckpoint =
      if (handleBlock settings parse faults stamp block delivery archive).saved then some block.point
      else archive.store.syncCheckpoint := by
  cases delivery with
  | decoded =>
    simp only [handleBlock, Block.slot]
    split
    · exact handleRollForward_checkpoint _ _ _
    · rfl
  | undecodable idFound slotFound decodes =>
    simp only [handleBlock, quarantineUndecodableBlock]
    split
    · rfl
    · rename_i slot found
      obtain rfl := slotNo_of_slot (slot_of_found found)
      split
      · have unmoved : ∀ ready : Archive, ready = (if faults.recordQuarantined.applies then { archive with
              quarantinedBlocks := recordQuarantinedBlock ⟨block.id, block.slotNo,
                (block.txs.filter decodes).length, (block.txs.filter fun tx => !decodes tx).length⟩
                archive.quarantinedBlocks }
            else archive) → ready.store.syncCheckpoint = archive.store.syncCheckpoint := by
          rintro ready rfl
          split <;> rfl
        split
        · rw [handleRollForward_checkpoint, unmoved _ rfl]
          rfl
        · exact unmoved _ rfl
      · rfl

/-- A row of the batch is what a `FINAL` read returns for its hash right after the insert. -/
private theorem secure_of_holds {slot : Nat} {before after : Tables} {normalized : List ParsedTx}
    (holds : Holds settings (normalized.map (ParsedTx.normalized slot stamp)) before after)
    {source : ParsedTx → Prop} (added : ∃ rows, after.transactions = before.transactions ++ rows ∧
      ∀ row ∈ rows, ∃ parsed, source parsed ∧
        row = txRow settings.rawDataMaxBytes (parsed.normalized slot stamp))
    (older : ∀ row ∈ before.transactions, row.ingestionTimestamp ≤ stamp)
    {parsed : ParsedTx} (member : parsed ∈ normalized)
    (distinct : ∀ other, source other → other.txHash = parsed.txHash → other = parsed) :
    Secure settings after slot parsed := by
  obtain ⟨rows, shape, fromBatch⟩ := added
  obtain ⟨same, again, all⟩ := holds.transactions
  obtain rfl : rows = same := List.append_cancel_left (shape.symm.trans again)
  have inRows : txRow settings.rawDataMaxBytes (parsed.normalized slot stamp) ∈ rows :=
    all (List.mem_map_of_mem (List.mem_map_of_mem member))
  refine ⟨stamp, ?_, ?_⟩
  · rw [shape, Replacing.final_append_of_newer]
    · obtain ⟨row, found⟩ := Option.isSome_iff_exists.mp
        ((Replacing.final_isSome_iff TxRow.txHash TxRow.ingestionTimestamp rows parsed.txHash).mpr
          ⟨_, inRows, rfl⟩)
      obtain ⟨among, keyed⟩ := Replacing.final_mem _ _ found
      obtain ⟨other, inBatch, rfl⟩ := fromBatch row among
      obtain rfl := distinct other inBatch keyed
      exact found
    · intro old inBefore row among
      obtain ⟨other, -, rfl⟩ := fromBatch row among
      exact older old inBefore
    · exact ⟨_, inRows, rfl⟩
  · constructor
    · intro row inInputs
      exact ⟨row, holds.inputs (List.mem_flatMap.mpr ⟨_, List.mem_map_of_mem member, inInputs⟩), rfl, rfl⟩
    · intro row inOutputs
      exact ⟨row, holds.outputs (List.mem_flatMap.mpr ⟨_, List.mem_map_of_mem member, inOutputs⟩), rfl, rfl⟩

/-- The parsed hashes of a block. -/
def hashes (parse : RawTx → Option ParsedTx) (block : Block) : List String :=
  (block.txs.filterMap (parseTx parse)).map ParsedTx.txHash

private theorem parsed_eq_of_hash {block : Block} (distinct : (hashes parse block).Nodup)
    {first second : RawTx} (one : first ∈ block.txs) (two : second ∈ block.txs) {left right : ParsedTx}
    (parsedLeft : parseTx parse first = some left) (parsedRight : parseTx parse second = some right)
    (same : left.txHash = right.txHash) : left = right := by
  refine List.inj_on_of_nodup_map distinct ?_ ?_ same
  · exact List.mem_filterMap.mpr ⟨first, one, parsedLeft⟩
  · exact List.mem_filterMap.mpr ⟨second, two, parsedRight⟩

/-- What the ordinary path makes of the transactions it was given. -/
private theorem handleRollForward_secures {id : String} {txs : List RawTx} (among : txs ⊆ block.txs)
    (distinct : (hashes parse block).Nodup)
    (older : ∀ row ∈ archive.store.tables.transactions, row.ingestionTimestamp ≤ stamp)
    (reached : (handleRollForward settings parse faults stamp id (some block.slotNo) txs archive).saved = true ∨
      (handleRollForward settings parse faults stamp id (some block.slotNo) txs archive).returned = true)
    {tx : RawTx} (member : tx ∈ txs) :
    (∀ parsed, parseTx parse tx = some parsed → Secure settings
      (handleRollForward settings parse faults stamp id (some block.slotNo) txs archive).archive.store.tables
        block.slotNo parsed) ∧
    (parseTx parse tx = none → settings.rawStoreEnabled = true → tx ∈
      (handleRollForward settings parse faults stamp id (some block.slotNo) txs archive).archive.parseFailed) := by
  rcases handleRollForward_done reached with rfl | ⟨returned, handed, holds⟩
  · cases member
  · obtain ⟨normalized, unparsed⟩ := parsed_all returned member
    refine ⟨fun parsed found => ?_, fun failed enabled => handed (unparsed failed enabled)⟩
    have inBatch := normalized parsed found
    rcases holds with none | holds
    · rw [none] at inBatch
      cases inBatch
    · obtain ⟨rows, shape, fromBlock⟩ := (handleRollForward_grown among id).transactions
      have added : ∀ row ∈ rows, ∃ other, (∃ source ∈ block.txs, parseTx parse source = some other) ∧
          row = txRow settings.rawDataMaxBytes (other.normalized block.slotNo stamp) := by
        intro row inRows
        obtain ⟨source, inBlock, other, otherFound, rfl⟩ := fromBlock row inRows
        exact ⟨other, ⟨source, inBlock, otherFound⟩, rfl⟩
      refine secure_of_holds holds ⟨rows, shape, added⟩ older inBatch ?_
      rintro other ⟨source, inBlock, otherFound⟩ same
      exact parsed_eq_of_hash distinct inBlock (among member) otherFound found same

/-- The handler keeps whatever its archive had on record for quarantined blocks. -/
private theorem handleRollForward_records (id : String) (slot : Option Nat) (txs : List RawTx) :
    (handleRollForward settings parse faults stamp id slot txs archive).archive.quarantinedBlocks =
      archive.quarantinedBlocks := by
  cases slot with
  | none => rfl
  | some slot =>
    simp only [handleRollForward]
    split
    · exact (saveSyncPoint_spec faults _ _).2.2.1
    · split
      · rfl
      · split
        · split
          · exact (saveSyncPoint_spec faults _ _).2.2.1
          · split
            · rw [(saveSyncPoint_spec faults _ _).2.2.1, (persistBlock_spec faults slot stamp _ _).2.2.1]
            · exact (persistBlock_spec faults slot stamp _ _).2.2.1
        · rfl

/-- A block whose handling reached the checkpoint write is accounted for. -/
theorem handleBlock_secured {delivery : Delivery} (distinct : (hashes parse block).Nodup)
    (older : ∀ row ∈ archive.store.tables.transactions, row.ingestionTimestamp ≤ stamp)
    (reached : (handleBlock settings parse faults stamp block delivery archive).saved = true ∨
      (handleBlock settings parse faults stamp block delivery archive).returned = true) :
    Secured settings parse (handleBlock settings parse faults stamp block delivery archive).archive block := by
  cases delivery with
  | decoded =>
    simp only [handleBlock] at reached ⊢
    cases slotted : block.slot with
    | none =>
      simp only [slotted, handleRollForward, Bool.false_eq_true, false_or] at reached ⊢
      have empty : block.txs = [] := List.isEmpty_iff.mp reached
      exact ⟨fun _ => empty, [], [], by simp [empty], by simp, by simp, Or.inl rfl⟩
    | some slot =>
      obtain rfl := slotNo_of_slot slotted
      rw [slotted] at reached
      have secures := fun tx (member : tx ∈ block.txs) =>
        handleRollForward_secures (List.Subset.refl block.txs) distinct older reached member
      refine ⟨fun slotless => ?_, block.txs, [], by simp, fun tx member => (secures tx member).1,
        fun tx member => (secures tx member).2, Or.inl rfl⟩
      rw [slotted] at slotless
      cases slotless
  | undecodable idFound slotFound decodes =>
    simp only [handleBlock, quarantineUndecodableBlock] at reached ⊢
    split at reached
    · simp at reached
    · rename_i slot found
      have slotted := slot_of_found found
      obtain rfl := slotNo_of_slot slotted
      split at reached
      · rename_i identified
        split at reached
        · rename_i recorded
          have applied := Outcome.applies_of_returns recorded
          simp only [identified, recorded, applied, if_true] at reached ⊢
          have secures := fun tx (member : tx ∈ block.txs.filter decodes) =>
            handleRollForward_secures (List.filter_subset_self _) distinct (by exact older) reached member
          refine ⟨fun slotless => ?_, block.txs.filter decodes, block.txs.filter fun tx => !decodes tx,
            ?_, fun tx member => (secures tx member).1, fun tx member => (secures tx member).2, Or.inr ?_⟩
          · rw [slotted] at slotless
            cases slotless
          · exact (List.filter_append_perm decodes block.txs).symm
          · rw [handleRollForward_records]
            exact ⟨_, List.mem_append_right _ List.mem_cons_self, rfl, rfl⟩
        · simp at reached
      · simp at reached

end

end TransactionMonitoring.RollForward
