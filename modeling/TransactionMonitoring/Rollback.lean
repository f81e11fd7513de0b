import TransactionMonitoring.Replacing
import TransactionMonitoring.Repurge
import TransactionMonitoring.Warehouse

/-! The rollback handler of the chain-sync client.

`_handle_roll_backward` works through the warehouse, the queue of score repurges, the
clustering tables and the checkpoint, one statement after the other.  Any of them may
raise; the handler then stops and the node is expected to send the rollback again.  The
faults of one run say what became of each statement it may reach.

The hashes it works on are read from `transactions`, the table it deletes from last.  The
statements after that delete are therefore never repeated: the main result says exactly
when a sequence of failed runs and one that completes still does for every orphaned
transaction what a single undisturbed run does.
-/
namespace TransactionMonitoring.Rollback
open Faults Warehouse Repurge

structure Point where
  slot : Nat
  id : String
deriving DecidableEq, Repr

/-- The `point` of a `rollBackward`: Ogmios sends the string `origin` when the rollback
leaves the volatile chain. -/
inductive RollbackPoint where
  | origin
  | block (point : Point)
deriving DecidableEq, Repr

inductive LifecycleStatus where
  | confirmed
  | rolledBack
deriving DecidableEq, Repr

/-- A row of `tx_lifecycle`. -/
structure Lifecycle where
  txHash : String
  slot : Option Nat
  status : LifecycleStatus
deriving DecidableEq, Repr

/-- What the handler reads and writes.  A table whose rows matter through their hash only
is the list of its hashes. -/
structure Store where
  tables : Tables
  utxoFeatures : List String
  txScriptFeatures : List String
  addressTransactions : List String
  pendingScoreRepurges : List String
  txContractAnomaly : List String
  txClassifications : List String
  txLifecycle : List Lifecycle
  syncCheckpoint : Option Point
deriving DecidableEq, Repr

def Store.empty : Store := ⟨Tables.empty, [], [], [], [], [], [], [], none⟩

structure Settings where
  rollbackCleanupEnabled : Bool
  clusteringEnabled : Bool
deriving DecidableEq, Repr

/-- The tables of `_ROLLBACK_CLEANUP_TABLES`. -/
inductive CleanupTable where
  | transactionInputs
  | transactionOutputs
  | utxoFeatures
  | txScriptFeatures
  | addressTransactions
  | txClassScores
  | transactions
deriving DecidableEq, Repr

/-- `_ROLLBACK_CLEANUP_TABLES`, in its order. -/
def rollbackCleanupTables : List CleanupTable :=
  [.transactionInputs, .transactionOutputs, .utxoFeatures, .txScriptFeatures, .addressTransactions,
    .txClassScores, .transactions]

/-- What becomes of each statement of one run. -/
structure RunFaults where
  markLifecycle : Outcome
  /-- The `SELECT` of the orphaned hashes returns. -/
  select : Bool
  delete : CleanupTable → Outcome
  enqueue : Outcome
  deleteAnomaly : Outcome
  deleteClassifications : Outcome
  saveSyncPoint : Outcome

def RunFaults.none : RunFaults :=
  ⟨.answered, true, fun _ => .answered, .answered, .answered, .answered, .answered⟩

/-! ## The handler -/

/-- `mark_lifecycle_rolled_back`. -/
def markLifecycleRolledBack (slot : Nat) (rows : List Lifecycle) : List Lifecycle :=
  rows.map fun row =>
    if row.status = .confirmed ∧ ∃ confirmed ∈ row.slot, slot < confirmed then
      { row with status := .rolledBack }
    else row

/-- The hashes `delete_rolled_back_txs` selects: those whose `FINAL` row is above the slot. -/
def orphanHashes (transactions : List TxRow) (slot : Nat) : List String :=
  ((Replacing.finalRows TxRow.txHash TxRow.ingestionTimestamp transactions).filter fun row =>
    decide (∃ confirmed ∈ row.slot, slot < confirmed)).map TxRow.txHash

/-- `DELETE FROM table WHERE tx_hash IN hashes`. -/
def deleteFrom (hashes : List String) (store : Store) : CleanupTable → Store
  | .transactionInputs => { store with tables := { store.tables with
      transactionInputs := store.tables.transactionInputs.filter fun row => row.txHash ∉ hashes } }
  | .transactionOutputs => { store with tables := { store.tables with
      transactionOutputs := store.tables.transactionOutputs.filter fun row => row.txHash ∉ hashes } }
  | .utxoFeatures => { store with utxoFeatures := store.utxoFeatures.filter (· ∉ hashes) }
  | .txScriptFeatures => { store with txScriptFeatures := store.txScriptFeatures.filter (· ∉ hashes) }
  | .addressTransactions =>
      { store with addressTransactions := store.addressTransactions.filter (· ∉ hashes) }
  | .txClassScores => { store with tables := { store.tables with
      txClassScores := store.tables.txClassScores.filter fun row => row.txHash ∉ hashes } }
  | .transactions => { store with tables := { store.tables with
      transactions := store.tables.transactions.filter fun row => row.txHash ∉ hashes } }

/-- The deletes in turn, up to the first that raises; the flag says that all returned. -/
def deleteTables (delete : CleanupTable → Outcome) (hashes : List String) (store : Store) :
    List CleanupTable → Store × Bool
  | [] => (store, true)
  | table :: rest =>
      let store := if (delete table).applies then deleteFrom hashes store table else store
      if (delete table).returns then deleteTables delete hashes store rest else (store, false)

/-- `delete_rolled_back_txs`; `none` when it raises. -/
def deleteRolledBackTxs (faults : RunFaults) (slot : Nat) (store : Store) :
    Store × Option (List String) :=
  if faults.select then
    let hashes := orphanHashes store.tables.transactions slot
    if hashes = [] then (store, some [])
    else
      let purged := deleteTables faults.delete hashes store rollbackCleanupTables
      (purged.1, if purged.2 then some hashes else none)
  else (store, none)

/-- `delete_clustering_rows`: both deletes under one `try` that only logs. -/
def deleteClusteringRows (settings : Settings) (faults : RunFaults) (hashes : List String)
    (store : Store) : Store :=
  if settings.clusteringEnabled then
    let store := if faults.deleteAnomaly.applies then
        { store with txContractAnomaly := store.txContractAnomaly.filter (· ∉ hashes) }
      else store
    if faults.deleteAnomaly.returns && faults.deleteClassifications.applies then
      { store with txClassifications := store.txClassifications.filter (· ∉ hashes) }
    else store
  else store

/-- `save_sync_point` at the end of the handler, skipped for an empty block id. -/
def saveSyncPoint (faults : RunFaults) (point : Point) (store : Store) : Store × Bool :=
  if point.id = "" then (store, true)
  else (if faults.saveSyncPoint.applies then { store with syncCheckpoint := some point } else store,
    faults.saveSyncPoint.returns)

/-- The lifecycle update of the handler; a failure is logged and passed over. -/
def markRolledBack (faults : RunFaults) (slot : Nat) (store : Store) : Store :=
  if faults.markLifecycle.applies then
    { store with txLifecycle := markLifecycleRolledBack slot store.txLifecycle }
  else store

/-- The cleanup and the checkpoint of the handler; the flag says that it returned. -/
def cleanUp (settings : Settings) (faults : RunFaults) (point : Point) (store : Store) : Store × Bool :=
  if settings.rollbackCleanupEnabled then
    let purged := deleteRolledBackTxs faults point.slot store
    match purged.2 with
    | none => (purged.1, false)
    | some [] => saveSyncPoint faults point purged.1
    | some hashes =>
        let queued := if faults.enqueue.applies then { purged.1 with
            pendingScoreRepurges := addPending hashes purged.1.pendingScoreRepurges }
          else purged.1
        if faults.enqueue.returns then
          saveSyncPoint faults point (deleteClusteringRows settings faults hashes queued)
        else (queued, false)
  else saveSyncPoint faults point store

/-- `_handle_roll_backward`; the flag says that it returned.  The event it emits and the
mempool reset cannot raise, and the repurge task it schedules lives in memory only. -/
def handleRollBackward (settings : Settings) (faults : RunFaults) (point : RollbackPoint)
    (store : Store) : Store × Bool :=
  match point with
  | .origin => (store, true)
  | .block point => cleanUp settings faults point (markRolledBack faults point.slot store)

/-! ## Retries -/

/-- The store, and the hashes whose queued repurge has been carried out. -/
structure Progress where
  store : Store
  repurged : List String
deriving DecidableEq, Repr

/-- A run of the handler, after a reconnect that carried out some queued repurges. -/
structure Retry where
  repurged : List String
  faults : RunFaults

/-- `_replay_pending_score_repurges` for some of the queued hashes. -/
def replay (hashes : List String) (progress : Progress) : Progress where
  store := { progress.store with
    pendingScoreRepurges := clearPending hashes progress.store.pendingScoreRepurges }
  repurged := progress.repurged ++ progress.store.pendingScoreRepurges.filter (· ∈ hashes)

section
variable (settings : Settings) (point : RollbackPoint)

/-- One run; the flag says that the handler returned. -/
def attempt (progress : Progress) (retry : Retry) : Progress × Bool :=
  let ready := replay retry.repurged progress
  let ran := handleRollBackward settings retry.faults point ready.store
  ({ ready with store := ran.1 }, ran.2)

/-- Failed runs followed by one that completes, if that is what the retries are. -/
def retryUntilDone (progress : Progress) : List Retry → Option Progress
  | [] => none
  | retry :: rest =>
      let ran := attempt settings point progress retry
      if ran.2 then (if rest.isEmpty then some ran.1 else none) else retryUntilDone ran.1 rest

/-- The orphaned hashes an undisturbed run works on. -/
def owed (store : Store) : List String :=
  match point with
  | .origin => []
  | .block point =>
      if settings.rollbackCleanupEnabled then orphanHashes store.tables.transactions point.slot else []

/-- The hash is queued for its score repurge, or that has been carried out. -/
def Registered (progress : Progress) (txHash : String) : Prop :=
  txHash ∈ progress.store.pendingScoreRepurges ∨ txHash ∈ progress.repurged

instance (progress : Progress) (txHash : String) : Decidable (Registered progress txHash) :=
  inferInstanceAs (Decidable (_ ∨ _))

/-- What an undisturbed run leaves for an orphaned hash. -/
def Done (progress : Progress) (txHash : String) : Prop :=
  Registered progress txHash ∧ (settings.clusteringEnabled = true →
    txHash ∉ progress.store.txContractAnomaly ∧ txHash ∉ progress.store.txClassifications)

instance (progress : Progress) (txHash : String) : Decidable (Done settings progress txHash) :=
  inferInstanceAs (Decidable (_ ∧ _))

end

/-! ## The decisive run -/

/-- Every delete before the one from `transactions` returns. -/
def childrenReturn (delete : CleanupTable → Outcome) : Bool :=
  rollbackCleanupTables.dropLast.all fun table => (delete table).returns

/-- The run's `DELETE FROM transactions` is reached and takes effect. -/
def RunFaults.purges (faults : RunFaults) : Bool :=
  faults.select && childrenReturn faults.delete && (faults.delete .transactions).applies

/-- That delete also returns and the hashes are queued. -/
def RunFaults.queues (faults : RunFaults) : Bool :=
  (faults.delete .transactions).returns && faults.enqueue.applies

/-- The queueing also returns and the anomaly rows are deleted. -/
def RunFaults.clearsAnomaly (faults : RunFaults) : Bool :=
  (faults.delete .transactions).returns && faults.enqueue.returns && faults.deleteAnomaly.applies

/-- That delete also returns and the classifications are deleted. -/
def RunFaults.clearsClassifications (faults : RunFaults) : Bool :=
  (faults.delete .transactions).returns && faults.enqueue.returns && faults.deleteAnomaly.returns &&
    faults.deleteClassifications.applies

/-! ## What each run does to an orphaned hash -/

theorem mem_orphanHashes {transactions : List TxRow} {slot : Nat} {txHash : String} :
    txHash ∈ orphanHashes transactions slot ↔
      ∃ row, Replacing.final TxRow.txHash TxRow.ingestionTimestamp transactions txHash = some row ∧
        ∃ confirmed ∈ row.slot, slot < confirmed := by
  simp only [orphanHashes, List.mem_map, List.mem_filter, Replacing.mem_finalRows, decide_eq_true_eq]
  constructor
  · rintro ⟨row, ⟨found, above⟩, rfl⟩
    exact ⟨row, found, above⟩
  · rintro ⟨row, found, above⟩
    have keyed := (Replacing.final_mem _ _ found).2
    refine ⟨row, ⟨?_, above⟩, keyed⟩
    rw [keyed]
    exact found

/-- Only a rollback to a block owes anything, and only hashes above its slot. -/
theorem mem_owed {settings : Settings} {point : RollbackPoint} {store : Store} {txHash : String}
    (member : txHash ∈ owed settings point store) :
    ∃ target, point = .block target ∧ txHash ∈ orphanHashes store.tables.transactions target.slot := by
  cases point with
  | origin => cases member
  | block target =>
    simp only [owed] at member
    split at member
    · exact ⟨target, rfl, member⟩
    · cases member

/-- The purge leaves no orphaned hash behind. -/
private theorem orphanHashes_purged (transactions : List TxRow) (slot : Nat) :
    orphanHashes (transactions.filter fun row => row.txHash ∉ orphanHashes transactions slot) slot = [] := by
  rw [List.eq_nil_iff_forall_not_mem]
  intro txHash member
  obtain ⟨row, found, above⟩ := mem_orphanHashes.mp member
  obtain ⟨kept, keyed⟩ := Replacing.final_mem _ _ found
  have absent : txHash ∉ orphanHashes transactions slot := by
    simpa [keyed] using (List.mem_filter.mp kept).2
  rw [Replacing.final_filter_of_kept] at found
  · exact absent (mem_orphanHashes.mpr ⟨row, found, above⟩)
  · rintro other - rfl
    simpa using absent

@[simp] theorem deleteFrom_pending (hashes : List String) (store : Store) (table : CleanupTable) :
    (deleteFrom hashes store table).pendingScoreRepurges = store.pendingScoreRepurges := by
  cases table <;> rfl

@[simp] theorem deleteFrom_anomaly (hashes : List String) (store : Store) (table : CleanupTable) :
    (deleteFrom hashes store table).txContractAnomaly = store.txContractAnomaly := by
  cases table <;> rfl

@[simp] theorem deleteFrom_classifications (hashes : List String) (store : Store) (table : CleanupTable) :
    (deleteFrom hashes store table).txClassifications = store.txClassifications := by
  cases table <;> rfl

theorem deleteFrom_transactions {hashes : List String} {store : Store} {table : CleanupTable}
    (child : table ≠ .transactions) :
    (deleteFrom hashes store table).tables.transactions = store.tables.transactions := by
  cases table with
  | transactions => exact absurd rfl child
  | _ => rfl

section
variable (delete : CleanupTable → Outcome) (hashes : List String)

/-- The deletes touch neither the queue nor the clustering tables. -/
private theorem deleteTables_frame (store : Store) (tables : List CleanupTable) :
    (deleteTables delete hashes store tables).1.pendingScoreRepurges = store.pendingScoreRepurges ∧
    (deleteTables delete hashes store tables).1.txContractAnomaly = store.txContractAnomaly ∧
    (deleteTables delete hashes store tables).1.txClassifications = store.txClassifications := by
  induction tables generalizing store with
  | nil => exact ⟨rfl, rfl, rfl⟩
  | cons table rest ih =>
    have first : ∀ deleted : Store, deleted = (if (delete table).applies then deleteFrom hashes store table
          else store) → deleted.pendingScoreRepurges = store.pendingScoreRepurges ∧
        deleted.txContractAnomaly = store.txContractAnomaly ∧
        deleted.txClassifications = store.txClassifications := by
      rintro deleted rfl
      split <;> simp
    simp only [deleteTables]
    split
    · obtain ⟨pending, anomaly, classifications⟩ := ih _
      obtain ⟨pendingFirst, anomalyFirst, classificationsFirst⟩ := first _ rfl
      exact ⟨pending.trans pendingFirst, anomaly.trans anomalyFirst,
        classifications.trans classificationsFirst⟩
    · exact first _ rfl

private theorem deleteTables_append (store : Store) (first second : List CleanupTable) :
    deleteTables delete hashes store (first ++ second) =
      if (deleteTables delete hashes store first).2 then
        deleteTables delete hashes (deleteTables delete hashes store first).1 second
      else deleteTables delete hashes store first := by
  induction first generalizing store with
  | nil => rfl
  | cons table rest ih =>
    simp only [List.cons_append, deleteTables]
    split
    · exact ih _
    · simp

private theorem deleteTables_returned (store : Store) (tables : List CleanupTable) :
    (deleteTables delete hashes store tables).2 = tables.all fun table => (delete table).returns := by
  induction tables generalizing store with
  | nil => rfl
  | cons table rest ih =>
    simp only [deleteTables, List.all_cons]
    split
    · rename_i returned
      rw [ih, returned, Bool.true_and]
    · rename_i raised
      simp [raised]

private theorem deleteTables_children (store : Store) {tables : List CleanupTable}
    (children : .transactions ∉ tables) :
    (deleteTables delete hashes store tables).1.tables.transactions = store.tables.transactions := by
  induction tables generalizing store with
  | nil => rfl
  | cons table rest ih =>
    have child : table ≠ .transactions := fun same => children (same ▸ List.mem_cons_self)
    have first : (if (delete table).applies then deleteFrom hashes store table else store).tables.transactions
        = store.tables.transactions := by
      split
      · exact deleteFrom_transactions child
      · rfl
    simp only [deleteTables]
    split
    · exact (ih _ fun later => children (List.mem_cons_of_mem _ later)).trans first
    · exact first

end

/-- The tables that decide what a run still owes a hash are the same. -/
structure SameBooks (before after : Store) : Prop where
  transactions : after.tables.transactions = before.tables.transactions
  pending : after.pendingScoreRepurges = before.pendingScoreRepurges
  anomaly : after.txContractAnomaly = before.txContractAnomaly
  classifications : after.txClassifications = before.txClassifications

theorem SameBooks.refl (store : Store) : SameBooks store store := ⟨rfl, rfl, rfl, rfl⟩

theorem SameBooks.trans {first second third : Store} (before : SameBooks first second)
    (after : SameBooks second third) : SameBooks first third :=
  ⟨after.transactions.trans before.transactions, after.pending.trans before.pending,
    after.anomaly.trans before.anomaly, after.classifications.trans before.classifications⟩

private theorem saveSyncPoint_books (faults : RunFaults) (point : Point) (store : Store) :
    SameBooks store (saveSyncPoint faults point store).1 := by
  unfold saveSyncPoint
  split
  · exact SameBooks.refl store
  · dsimp only
    split
    · exact ⟨rfl, rfl, rfl, rfl⟩
    · exact SameBooks.refl store

section
variable {faults : RunFaults} {slot : Nat} {store : Store}

/-- The seven deletes: the rows of `transactions` go exactly if the six before returned
and the last one took effect. -/
private theorem deleteTables_cleanup (delete : CleanupTable → Outcome) (hashes : List String)
    (store : Store) :
    (deleteTables delete hashes store rollbackCleanupTables).2 =
      (childrenReturn delete && (delete .transactions).returns) ∧
    (deleteTables delete hashes store rollbackCleanupTables).1.tables.transactions =
      if childrenReturn delete && (delete .transactions).applies then
        store.tables.transactions.filter fun row => row.txHash ∉ hashes
      else store.tables.transactions := by
  have shape : rollbackCleanupTables = rollbackCleanupTables.dropLast ++ [.transactions] := rfl
  have children : (deleteTables delete hashes store rollbackCleanupTables.dropLast).1.tables.transactions =
      store.tables.transactions := deleteTables_children delete hashes store (by decide)
  have returned : (deleteTables delete hashes store rollbackCleanupTables.dropLast).2 =
      childrenReturn delete := deleteTables_returned delete hashes store _
  rw [shape, deleteTables_append, returned]
  cases reached : childrenReturn delete with
  | true =>
    simp only [if_true, Bool.true_and, deleteTables]
    cases delete .transactions with
    | answered => simp [deleteFrom, children]
    | lost => simp [children]
    | late => simp [deleteFrom, children]
  | false =>
    rw [reached] at returned
    simp [returned, children]

/-- A run that does not get as far as the last delete raises and leaves the books alone. -/
private theorem deleteRolledBackTxs_unpurged (orphaned : orphanHashes store.tables.transactions slot ≠ [])
    (unpurged : faults.purges = false) :
    (deleteRolledBackTxs faults slot store).2 = none ∧
      SameBooks store (deleteRolledBackTxs faults slot store).1 := by
  unfold deleteRolledBackTxs
  split
  · rename_i selected
    simp only [orphaned, if_false]
    obtain ⟨returned, transactions⟩ := deleteTables_cleanup faults.delete
      (orphanHashes store.tables.transactions slot) store
    obtain ⟨pending, anomaly, classifications⟩ := deleteTables_frame faults.delete
      (orphanHashes store.tables.transactions slot) store rollbackCleanupTables
    have stopped : (childrenReturn faults.delete && (faults.delete .transactions).applies) = false := by
      simpa [RunFaults.purges, selected] using unpurged
    have raised : (childrenReturn faults.delete && (faults.delete .transactions).returns) = false := by
      by_contra all
      rw [Bool.not_eq_false, Bool.and_eq_true] at all
      simp [all.1, Outcome.applies_of_returns all.2] at stopped
    rw [stopped] at transactions
    rw [returned, raised]
    exact ⟨rfl, transactions, pending, anomaly, classifications⟩
  · exact ⟨rfl, SameBooks.refl store⟩

/-- A run whose last delete takes effect leaves no orphan behind, whether or not it saw
that delete return. -/
private theorem deleteRolledBackTxs_purged (orphaned : orphanHashes store.tables.transactions slot ≠ [])
    (purged : faults.purges = true) :
    (deleteRolledBackTxs faults slot store).2 =
      (if (faults.delete .transactions).returns then some (orphanHashes store.tables.transactions slot)
        else none) ∧
    orphanHashes (deleteRolledBackTxs faults slot store).1.tables.transactions slot = [] ∧
    (deleteRolledBackTxs faults slot store).1.pendingScoreRepurges = store.pendingScoreRepurges ∧
    (deleteRolledBackTxs faults slot store).1.txContractAnomaly = store.txContractAnomaly ∧
    (deleteRolledBackTxs faults slot store).1.txClassifications = store.txClassifications := by
  simp only [RunFaults.purges, Bool.and_eq_true] at purged
  obtain ⟨⟨selected, reached⟩, applied⟩ := purged
  obtain ⟨returned, transactions⟩ := deleteTables_cleanup faults.delete
    (orphanHashes store.tables.transactions slot) store
  simp only [reached, applied, Bool.true_and, Bool.and_true, if_true] at returned transactions
  simp only [deleteRolledBackTxs, selected, if_true, orphaned, if_false, returned, transactions]
  exact ⟨trivial, orphanHashes_purged _ _, deleteTables_frame _ _ _ _⟩

end

section
variable {settings : Settings} {faults : RunFaults} {point : RollbackPoint} {store : Store}

private theorem deleteClusteringRows_tables (hashes : List String) :
    (deleteClusteringRows settings faults hashes store).tables = store.tables := by
  unfold deleteClusteringRows
  split
  · dsimp only
    split <;> split <;> rfl
  · rfl

private theorem deleteClusteringRows_pending (hashes : List String) :
    (deleteClusteringRows settings faults hashes store).pendingScoreRepurges =
      store.pendingScoreRepurges := by
  unfold deleteClusteringRows
  split
  · dsimp only
    split <;> split <;> rfl
  · rfl

private theorem deleteClusteringRows_rows (enabled : settings.clusteringEnabled = true)
    (hashes : List String) :
    (deleteClusteringRows settings faults hashes store).txContractAnomaly =
      (if faults.deleteAnomaly.applies then store.txContractAnomaly.filter (· ∉ hashes)
        else store.txContractAnomaly) ∧
    (deleteClusteringRows settings faults hashes store).txClassifications =
      (if faults.deleteAnomaly.returns && faults.deleteClassifications.applies then
        store.txClassifications.filter (· ∉ hashes) else store.txClassifications) := by
  simp only [deleteClusteringRows, enabled, if_true]
  cases faults.deleteAnomaly.applies <;>
    cases faults.deleteAnomaly.returns && faults.deleteClassifications.applies <;>
    exact ⟨rfl, rfl⟩

private theorem markRolledBack_books (slot : Nat) : SameBooks store (markRolledBack faults slot store) := by
  unfold markRolledBack
  split
  · exact ⟨rfl, rfl, rfl, rfl⟩
  · exact SameBooks.refl store

/-- With nothing owed a run leaves the books alone. -/
private theorem handleRollBackward_settled (nothing : owed settings point store = []) :
    SameBooks store (handleRollBackward settings faults point store).1 := by
  cases point with
  | origin => exact SameBooks.refl store
  | block point =>
    have marked : SameBooks store (markRolledBack faults point.slot store) := markRolledBack_books point.slot
    refine marked.trans ?_
    simp only [handleRollBackward, cleanUp]
    split
    · rename_i enabled
      have none : orphanHashes (markRolledBack faults point.slot store).tables.transactions point.slot = [] := by
        rw [marked.transactions]
        simpa [owed, enabled] using nothing
      cases selected : faults.select with
      | true =>
        simp only [deleteRolledBackTxs, selected, none, if_true]
        exact saveSyncPoint_books _ _ _
      | false =>
        simp only [deleteRolledBackTxs, selected]
        exact SameBooks.refl _
    · exact saveSyncPoint_books _ _ _

/-- While hashes are owed, a run that does not get as far as the last delete raises and
leaves the books alone. -/
private theorem handleRollBackward_unpurged (orphaned : owed settings point store ≠ [])
    (unpurged : faults.purges = false) :
    (handleRollBackward settings faults point store).2 = false ∧
      SameBooks store (handleRollBackward settings faults point store).1 := by
  cases point with
  | origin => exact absurd rfl orphaned
  | block point =>
    have marked : SameBooks store (markRolledBack faults point.slot store) := markRolledBack_books point.slot
    have enabled : settings.rollbackCleanupEnabled = true := by
      by_contra disabled
      simp [owed, disabled] at orphaned
    have some : orphanHashes (markRolledBack faults point.slot store).tables.transactions point.slot ≠ [] := by
      rw [marked.transactions]
      simpa [owed, enabled] using orphaned
    obtain ⟨raised, books⟩ := deleteRolledBackTxs_unpurged some unpurged
    simp only [handleRollBackward, cleanUp, enabled, if_true, raised]
    exact ⟨trivial, marked.trans books⟩

/-- What a run that deleted the rows of `transactions` leaves of an orphaned hash. -/
structure Purged (settings : Settings) (faults : RunFaults) (before after : Store) (txHash : String) :
    Prop where
  pending : txHash ∈ after.pendingScoreRepurges ↔
    txHash ∈ before.pendingScoreRepurges ∨ faults.queues = true
  anomaly : settings.clusteringEnabled = true →
    (txHash ∈ after.txContractAnomaly ↔ txHash ∈ before.txContractAnomaly ∧ faults.clearsAnomaly = false)
  classifications : settings.clusteringEnabled = true →
    (txHash ∈ after.txClassifications ↔
      txHash ∈ before.txClassifications ∧ faults.clearsClassifications = false)

private theorem not_mem_deleted {txHash : String} {hashes rows : List String} (member : txHash ∈ hashes) :
    txHash ∉ rows.filter (· ∉ hashes) := by
  simp [List.mem_filter, member]

private theorem cleanUp_purged {point : Point} (enabled : settings.rollbackCleanupEnabled = true)
    (orphaned : orphanHashes store.tables.transactions point.slot ≠ []) (purges : faults.purges = true) :
    orphanHashes (cleanUp settings faults point store).1.tables.transactions point.slot = [] ∧
    ∀ txHash ∈ orphanHashes store.tables.transactions point.slot,
      Purged settings faults store (cleanUp settings faults point store).1 txHash := by
  obtain ⟨returned, settled, pending, anomaly, classifications⟩ := deleteRolledBackTxs_purged orphaned purges
  obtain ⟨first, rest, shape⟩ := List.exists_cons_of_ne_nil orphaned
  simp only [cleanUp, enabled, if_true, returned]
  cases deleted : (faults.delete .transactions).returns with
  | false =>
    refine ⟨by simpa using settled, fun txHash member => ⟨?_, fun _ => ?_, fun _ => ?_⟩⟩
    · simp [pending, RunFaults.queues, deleted]
    · simp [anomaly, RunFaults.clearsAnomaly, deleted]
    · simp [classifications, RunFaults.clearsClassifications, deleted]
  | true =>
    simp only [if_true, shape]
    cases enqueued : faults.enqueue with
    | lost =>
      refine ⟨by simpa using settled, fun txHash member => ⟨?_, fun _ => ?_, fun _ => ?_⟩⟩
      · simp [pending, RunFaults.queues, enqueued]
      · simp [anomaly, RunFaults.clearsAnomaly, enqueued]
      · simp [classifications, RunFaults.clearsClassifications, enqueued]
    | late =>
      refine ⟨by simpa using settled, fun txHash member => ⟨?_, fun _ => ?_, fun _ => ?_⟩⟩
      · have queued : faults.queues = true := by simp [RunFaults.queues, enqueued, deleted]
        simpa [mem_addPending, queued] using Or.inr (List.mem_cons.mp member)
      · simp [anomaly, RunFaults.clearsAnomaly, enqueued]
      · simp [classifications, RunFaults.clearsClassifications, enqueued]
    | answered =>
      have saved := saveSyncPoint_books faults point (deleteClusteringRows settings faults (first :: rest)
        { (deleteRolledBackTxs faults point.slot store).1 with
          pendingScoreRepurges := addPending (first :: rest)
            (deleteRolledBackTxs faults point.slot store).1.pendingScoreRepurges })
      simp only [Outcome.applies_answered, Outcome.returns_answered, if_true]
      refine ⟨?_, fun txHash member => ⟨?_, fun clustering => ?_, fun clustering => ?_⟩⟩
      · rw [saved.transactions, deleteClusteringRows_tables]
        exact settled
      · have queued : faults.queues = true := by simp [RunFaults.queues, enqueued, deleted]
        rw [saved.pending, deleteClusteringRows_pending, mem_addPending]
        exact ⟨fun _ => Or.inr queued, fun _ => Or.inr member⟩
      · have reached : faults.clearsAnomaly = faults.deleteAnomaly.applies := by
          simp [RunFaults.clearsAnomaly, deleted, enqueued]
        rw [saved.anomaly, (deleteClusteringRows_rows clustering _).1, reached]
        cases faults.deleteAnomaly.applies with
        | true => exact ⟨fun kept => absurd kept (not_mem_deleted member), by simp⟩
        | false => simp [anomaly]
      · have reached : faults.clearsClassifications =
            (faults.deleteAnomaly.returns && faults.deleteClassifications.applies) := by
          simp [RunFaults.clearsClassifications, deleted, enqueued]
        rw [saved.classifications, (deleteClusteringRows_rows clustering _).2, reached]
        cases faults.deleteAnomaly.returns && faults.deleteClassifications.applies with
        | true => exact ⟨fun kept => absurd kept (not_mem_deleted member), by simp⟩
        | false => simp [classifications]

/-- The decisive run: nothing is owed afterwards, and each owed hash is queued and purged
exactly if the run got that far. -/
private theorem handleRollBackward_purged (orphaned : owed settings point store ≠ [])
    (purges : faults.purges = true) :
    owed settings point (handleRollBackward settings faults point store).1 = [] ∧
    ∀ txHash ∈ owed settings point store,
      Purged settings faults store (handleRollBackward settings faults point store).1 txHash := by
  cases point with
  | origin => exact absurd rfl orphaned
  | block point =>
    have marked : SameBooks store (markRolledBack faults point.slot store) := markRolledBack_books point.slot
    have enabled : settings.rollbackCleanupEnabled = true := by
      by_contra disabled
      simp [owed, disabled] at orphaned
    have same : ∀ other : Store, owed settings (.block point) other =
        orphanHashes other.tables.transactions point.slot := fun other => by simp [owed, enabled]
    rw [same, ← marked.transactions] at orphaned
    obtain ⟨settled, each⟩ := cleanUp_purged enabled orphaned purges
    refine ⟨by rw [same]; exact settled, fun txHash member => ?_⟩
    rw [same, ← marked.transactions] at member
    obtain ⟨pending, anomaly, classifications⟩ := each txHash member
    rw [marked.pending] at pending
    rw [marked.anomaly] at anomaly
    rw [marked.classifications] at classifications
    exact ⟨pending, anomaly, classifications⟩

end

/-! ## What a run spares -/

/-- Rows have at most gone, and only those of the hashes listed: any other hash keeps its
rows and a `FINAL` read of it returns what it did. -/
structure Spared (hashes : List String) (before after : Tables) : Prop where
  subset : after.transactions ⊆ before.transactions
  transactions : ∀ txHash ∉ hashes,
    Replacing.final TxRow.txHash TxRow.ingestionTimestamp after.transactions txHash =
      Replacing.final TxRow.txHash TxRow.ingestionTimestamp before.transactions txHash
  inputs : ∀ row ∈ before.transactionInputs, row.txHash ∉ hashes → row ∈ after.transactionInputs
  outputs : ∀ row ∈ before.transactionOutputs, row.txHash ∉ hashes → row ∈ after.transactionOutputs

theorem Spared.refl (hashes : List String) (tables : Tables) : Spared hashes tables tables :=
  ⟨List.Subset.refl _, fun _ _ => rfl, fun _ member _ => member, fun _ member _ => member⟩

theorem Spared.trans {hashes : List String} {first second third : Tables}
    (before : Spared hashes first second) (after : Spared hashes second third) :
    Spared hashes first third :=
  ⟨List.Subset.trans after.subset before.subset,
    fun txHash spared => (after.transactions txHash spared).trans (before.transactions txHash spared),
    fun row member spared => after.inputs row (before.inputs row member spared) spared,
    fun row member spared => after.outputs row (before.outputs row member spared) spared⟩

section
variable {hashes : List String} {delete : CleanupTable → Outcome}

private theorem deleteFrom_spares (store : Store) (table : CleanupTable) :
    Spared hashes store.tables (deleteFrom hashes store table).tables := by
  cases table with
  | transactions =>
    refine ⟨List.filter_subset_self _, ?_, fun _ member _ => member, fun _ member _ => member⟩
    intro txHash spared
    refine Replacing.final_filter_of_kept _ _ ?_
    rintro row - rfl
    simpa using spared
  | transactionInputs =>
    refine ⟨List.Subset.refl _, fun _ _ => rfl, ?_, fun _ member _ => member⟩
    intro row member spared
    exact List.mem_filter.mpr ⟨member, by simpa using spared⟩
  | transactionOutputs =>
    refine ⟨List.Subset.refl _, fun _ _ => rfl, fun _ member _ => member, ?_⟩
    intro row member spared
    exact List.mem_filter.mpr ⟨member, by simpa using spared⟩
  | _ => exact ⟨List.Subset.refl _, fun _ _ => rfl, fun _ member _ => member, fun _ member _ => member⟩

private theorem deleteTables_spares (store : Store) (tables : List CleanupTable) :
    Spared hashes store.tables (deleteTables delete hashes store tables).1.tables := by
  induction tables generalizing store with
  | nil => exact Spared.refl _ _
  | cons table rest ih =>
    have first : Spared hashes store.tables
        (if (delete table).applies then deleteFrom hashes store table else store).tables := by
      split
      · exact deleteFrom_spares store table
      · exact Spared.refl _ _
    simp only [deleteTables]
    split
    · exact first.trans (ih _)
    · exact first

private theorem deleteTables_checkpoint (store : Store) (tables : List CleanupTable) :
    (deleteTables delete hashes store tables).1.syncCheckpoint = store.syncCheckpoint := by
  induction tables generalizing store with
  | nil => rfl
  | cons table rest ih =>
    have first : (if (delete table).applies then deleteFrom hashes store table else store).syncCheckpoint =
        store.syncCheckpoint := by
      split
      · cases table <;> rfl
      · rfl
    simp only [deleteTables]
    split
    · exact (ih _).trans first
    · exact first

end

section
variable {settings : Settings} {faults : RunFaults} {point : RollbackPoint} {store : Store}

private theorem deleteRolledBackTxs_checkpoint (slot : Nat) :
    (deleteRolledBackTxs faults slot store).1.syncCheckpoint = store.syncCheckpoint := by
  unfold deleteRolledBackTxs
  split
  · dsimp only
    split
    · rfl
    · exact deleteTables_checkpoint store _
  · rfl

private theorem deleteClusteringRows_checkpoint (hashes : List String) :
    (deleteClusteringRows settings faults hashes store).syncCheckpoint = store.syncCheckpoint := by
  unfold deleteClusteringRows
  split
  · dsimp only
    split <;> split <;> rfl
  · rfl

private theorem saveSyncPoint_tables (point : Point) :
    (saveSyncPoint faults point store).1.tables = store.tables := by
  unfold saveSyncPoint
  split
  · rfl
  · dsimp only
    split <;> rfl

/-- The tables after a run are those the purge left. -/
private theorem cleanUp_tables (point : Point) :
    (cleanUp settings faults point store).1.tables =
      if settings.rollbackCleanupEnabled then (deleteRolledBackTxs faults point.slot store).1.tables
      else store.tables := by
  simp only [cleanUp]
  split
  · split
    · rfl
    · exact saveSyncPoint_tables point
    · split
      · rw [saveSyncPoint_tables, deleteClusteringRows_tables]
        split <;> rfl
      · dsimp only
        split <;> rfl
  · exact saveSyncPoint_tables point

/-- A run touches only the hashes whose `FINAL` row is above the slot it rolls back to. -/
theorem handleRollBackward_spares :
    Spared (owed settings point store) store.tables
      (handleRollBackward settings faults point store).1.tables := by
  cases point with
  | origin => exact Spared.refl _ _
  | block target =>
    have same : (markRolledBack faults target.slot store).tables = store.tables := by
      unfold markRolledBack
      split <;> rfl
    simp only [handleRollBackward, owed, cleanUp_tables]
    rw [← same]
    split
    · unfold deleteRolledBackTxs
      split
      · dsimp only
        split
        · exact Spared.refl _ _
        · exact deleteTables_spares _ _
      · exact Spared.refl _ _
    · exact Spared.refl _ _

private theorem saveSyncPoint_checkpoint (target : Point) :
    (saveSyncPoint faults target store).1.syncCheckpoint = store.syncCheckpoint ∨
      (saveSyncPoint faults target store).1.syncCheckpoint = some target := by
  unfold saveSyncPoint
  split
  · exact Or.inl rfl
  · dsimp only
    split
    · exact Or.inr rfl
    · exact Or.inl rfl

/-- A run leaves the checkpoint where it was or puts it at the point it rolls back to. -/
theorem handleRollBackward_checkpoint :
    (handleRollBackward settings faults point store).1.syncCheckpoint = store.syncCheckpoint ∨
      ∃ target, point = .block target ∧
        (handleRollBackward settings faults point store).1.syncCheckpoint = some target := by
  cases point with
  | origin => exact Or.inl rfl
  | block target =>
    have marked : (markRolledBack faults target.slot store).syncCheckpoint = store.syncCheckpoint := by
      unfold markRolledBack
      split <;> rfl
    have saved : ∀ ready : Store, ready.syncCheckpoint = store.syncCheckpoint →
        (saveSyncPoint faults target ready).1.syncCheckpoint = store.syncCheckpoint ∨
          ∃ point, RollbackPoint.block target = .block point ∧
            (saveSyncPoint faults target ready).1.syncCheckpoint = some point := by
      intro ready same
      rcases saveSyncPoint_checkpoint target with kept | moved
      · exact Or.inl (kept.trans same)
      · exact Or.inr ⟨target, rfl, moved⟩
    have purged := (@deleteRolledBackTxs_checkpoint faults (markRolledBack faults target.slot store)
      target.slot).trans marked
    simp only [handleRollBackward, cleanUp]
    split
    · split
      · exact Or.inl purged
      · exact saved _ purged
      · split
        · refine saved _ ?_
          rw [deleteClusteringRows_checkpoint]
          split
          · exact purged
          · exact purged
        · refine Or.inl ?_
          dsimp only
          split
          · exact purged
          · exact purged
    · exact saved _ marked

end

/-! ## Every sequence of retries -/

/-- What decides a hash for good, read off the inputs: the first run whose delete from
`transactions` takes effect.  Everything after that statement is done in that run or never. -/
def Carried (settings : Settings) (progress : Progress) (retries : List Retry) (txHash : String) : Prop :=
  ∃ decisive, retries.find? (fun retry => retry.faults.purges) = some decisive ∧
    (Registered progress txHash ∨ decisive.faults.queues = true) ∧
    (settings.clusteringEnabled = true →
      (txHash ∉ progress.store.txContractAnomaly ∨ decisive.faults.clearsAnomaly = true) ∧
      (txHash ∉ progress.store.txClassifications ∨ decisive.faults.clearsClassifications = true))

/-- Nothing about the hash has changed. -/
structure SameStanding (txHash : String) (before after : Progress) : Prop where
  registered : Registered after txHash ↔ Registered before txHash
  anomaly : txHash ∈ after.store.txContractAnomaly ↔ txHash ∈ before.store.txContractAnomaly
  classifications : txHash ∈ after.store.txClassifications ↔ txHash ∈ before.store.txClassifications

section
variable {settings : Settings} {point : RollbackPoint} {txHash : String}

private theorem registered_replay (hashes : List String) (progress : Progress) :
    Registered (replay hashes progress) txHash ↔ Registered progress txHash := by
  simp only [Registered, replay, clearPending, List.mem_filter, List.mem_append, decide_eq_true_eq]
  by_cases among : txHash ∈ hashes
  · simp [among, or_comm]
  · simp [among]

private theorem standing_of_books {progress : Progress} {hashes : List String} {after : Store}
    (books : SameBooks (replay hashes progress).store after) :
    SameStanding txHash progress { replay hashes progress with store := after } where
  registered := by
    refine Iff.trans ?_ (registered_replay hashes progress)
    simp only [Registered, books.pending]
  anomaly := by simp only [books.anomaly, replay]
  classifications := by simp only [books.classifications, replay]

private theorem owed_congr {before after : Store}
    (same : after.tables.transactions = before.tables.transactions) :
    owed settings point after = owed settings point before := by
  cases point with
  | origin => rfl
  | block point => simp only [owed, same]

/-- Once nothing is owed, retries change nothing about any hash. -/
private theorem standing_of_settled {progress final : Progress} {retries : List Retry}
    (nothing : owed settings point progress.store = [])
    (completed : retryUntilDone settings point progress retries = some final) :
    SameStanding txHash progress final := by
  induction retries generalizing progress with
  | nil => cases completed
  | cons retry rest ih =>
    have books : SameBooks (replay retry.repurged progress).store
        (attempt settings point progress retry).1.store :=
      handleRollBackward_settled (by rw [← nothing]; exact owed_congr rfl)
    have stands : SameStanding txHash progress (attempt settings point progress retry).1 :=
      standing_of_books books
    simp only [retryUntilDone] at completed
    split at completed
    · split at completed
      · obtain rfl := Option.some.inj completed
        exact stands
      · cases completed
    · have later := ih (by rw [← nothing]; exact owed_congr books.transactions) completed
      exact ⟨later.registered.trans stands.registered, later.anomaly.trans stands.anomaly,
        later.classifications.trans stands.classifications⟩

private theorem done_congr {before after : Progress} (same : SameStanding txHash before after) :
    Done settings after txHash ↔ Done settings before txHash := by
  simp only [Done, same.registered, same.anomaly, same.classifications]

private theorem carried_congr {before after : Progress} (retries : List Retry)
    (same : SameStanding txHash before after) :
    Carried settings after retries txHash ↔ Carried settings before retries txHash := by
  simp only [Carried, same.registered, same.anomaly, same.classifications]

/-- The decisive run settles a hash as its faults say. -/
private theorem done_of_purged {progress : Progress} {retry : Retry} {rest : List Retry}
    (purges : retry.faults.purges = true) {after : Store}
    (purged : Purged settings retry.faults (replay retry.repurged progress).store after txHash) :
    Done settings { replay retry.repurged progress with store := after } txHash ↔
      Carried settings progress (retry :: rest) txHash := by
  have registered : Registered { replay retry.repurged progress with store := after } txHash ↔
      Registered progress txHash ∨ retry.faults.queues = true := by
    rw [← registered_replay retry.repurged progress]
    simp only [Registered, purged.pending]
    tauto
  have found : (retry :: rest).find? (fun retry => retry.faults.purges) = some retry := by
    simp [purges]
  simp only [Done, Carried, found, registered, Option.some.injEq, exists_eq_left']
  refine and_congr Iff.rfl (imp_congr_right fun clustering => ?_)
  rw [purged.anomaly clustering, purged.classifications clustering, not_and_or, not_and_or,
    Bool.not_eq_false, Bool.not_eq_false]
  rfl

/-- One owed hash over any sequence of retries that completes. -/
private theorem done_iff_carried {progress final : Progress} {retries : List Retry}
    (orphan : txHash ∈ owed settings point progress.store)
    (completed : retryUntilDone settings point progress retries = some final) :
    Done settings final txHash ↔ Carried settings progress retries txHash := by
  induction retries generalizing progress with
  | nil => cases completed
  | cons retry rest ih =>
    have ready : owed settings point (replay retry.repurged progress).store =
        owed settings point progress.store := owed_congr rfl
    have owing : owed settings point (replay retry.repurged progress).store ≠ [] := by
      rw [ready]
      exact List.ne_nil_of_mem orphan
    simp only [retryUntilDone] at completed
    cases purges : retry.faults.purges with
    | true =>
      obtain ⟨nothing, each⟩ := handleRollBackward_purged owing purges
      have decided : Done settings (attempt settings point progress retry).1 txHash ↔
          Carried settings progress (retry :: rest) txHash :=
        done_of_purged purges (each txHash (ready ▸ orphan))
      split at completed
      · split at completed
        · obtain rfl := Option.some.inj completed
          exact decided
        · cases completed
      · exact (done_congr (standing_of_settled nothing completed)).trans decided
    | false =>
      obtain ⟨raised, books⟩ := handleRollBackward_unpurged owing purges
      have failed : (attempt settings point progress retry).2 = false := raised
      have stands : SameStanding txHash progress (attempt settings point progress retry).1 :=
        standing_of_books books
      simp only [failed, Bool.false_eq_true, if_false] at completed
      have still : txHash ∈ owed settings point (attempt settings point progress retry).1.store := by
        rw [show owed settings point (attempt settings point progress retry).1.store =
          owed settings point (replay retry.repurged progress).store from owed_congr books.transactions, ready]
        exact orphan
      rw [ih still completed, carried_congr rest stands]
      simp only [Carried, List.find?_cons, purges]

/-- A run with no failure queues every orphaned hash and purges its clustering rows. -/
theorem undisturbed_run_done (progress : Progress)
    (orphan : txHash ∈ owed settings point progress.store) :
    Done settings (attempt settings point progress ⟨[], RunFaults.none⟩).1 txHash := by
  have ready : owed settings point (replay [] progress).store = owed settings point progress.store :=
    owed_congr rfl
  have owing : owed settings point (replay [] progress).store ≠ [] := by
    rw [ready]
    exact List.ne_nil_of_mem orphan
  have purged := (handleRollBackward_purged owing (by decide : RunFaults.none.purges = true)).2 txHash
    (ready ▸ orphan)
  have decided : Done settings (attempt settings point progress ⟨[], RunFaults.none⟩).1 txHash ↔
      Carried settings progress [⟨[], RunFaults.none⟩] txHash := done_of_purged (by decide) purged
  exact decided.mpr ⟨⟨[], RunFaults.none⟩, rfl, Or.inr rfl, fun _ => ⟨Or.inr rfl, Or.inr rfl⟩⟩

end

/-- **Retry safety of the rollback.**  Any number of failed runs followed by one that
completes does for every orphaned hash what an undisturbed run does if and only if the
first run whose delete from `transactions` took effect did it. -/
theorem rollback_retry_safe_iff (settings : Settings) (point : RollbackPoint) {progress final : Progress}
    {retries : List Retry} (completed : retryUntilDone settings point progress retries = some final) :
    (∀ txHash ∈ owed settings point progress.store, Done settings final txHash) ↔
      ∀ txHash ∈ owed settings point progress.store, Carried settings progress retries txHash :=
  forall₂_congr fun _ orphan => done_iff_carried orphan completed

private def sampleSettings : Settings := ⟨true, true⟩

/-- One orphaned transaction with a clustering verdict. -/
private def orphanedStore : Progress where
  store := { Store.empty with
    tables := { Tables.empty with transactions := [⟨"tx1", some 10, 1, "", false, 100⟩] }
    txContractAnomaly := ["tx1"]
    txClassifications := ["tx1"]
    syncCheckpoint := some ⟨10, "block10"⟩ }
  repurged := []

/-- The queueing fails once; the rollback is sent again and completes. -/
private def enqueueFailsOnce : List Retry :=
  [⟨[], { RunFaults.none with enqueue := .lost }⟩, ⟨[], RunFaults.none⟩]

private def afterRetry : Progress :=
  (retryUntilDone sampleSettings (.block ⟨5, "block5"⟩) orphanedStore enqueueFailsOnce).getD orphanedStore

theorem rollback_retry_safe_iff_enqueue_fails :
    (∀ txHash ∈ owed sampleSettings (.block ⟨5, "block5"⟩) orphanedStore.store,
      Done sampleSettings afterRetry txHash) ↔
    ∀ txHash ∈ owed sampleSettings (.block ⟨5, "block5"⟩) orphanedStore.store,
      Carried sampleSettings orphanedStore enqueueFailsOnce txHash :=
  rollback_retry_safe_iff sampleSettings (.block ⟨5, "block5"⟩)
    (show retryUntilDone _ _ orphanedStore enqueueFailsOnce = some afterRetry by decide)

/-- After the retry the orphaned hash is neither queued nor repurged and keeps its
clustering verdict, because its row in `transactions` was already gone. -/
theorem enqueue_failure_loses_repurge :
    retryUntilDone sampleSettings (.block ⟨5, "block5"⟩) orphanedStore enqueueFailsOnce = some afterRetry ∧
    "tx1" ∈ owed sampleSettings (.block ⟨5, "block5"⟩) orphanedStore.store ∧
    ¬ Registered afterRetry "tx1" ∧ "tx1" ∈ afterRetry.store.txContractAnomaly ∧
    "tx1" ∈ afterRetry.store.txClassifications ∧ ¬ Done sampleSettings afterRetry "tx1" := by
  decide

end TransactionMonitoring.Rollback
