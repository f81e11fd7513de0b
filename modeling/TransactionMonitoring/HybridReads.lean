import Mathlib.Data.List.Sort
import TransactionMonitoring.Replacing

/-! The transactions of a contract with backfilled history.

A read spans the host's tables and the local ones: the host rows of the chosen hashes, and the
local rows of those that the host's address index does not know.  The index and the host's
transactions are tables of their own, with retention of their own.
-/
namespace TransactionMonitoring.HybridReads

open Replacing (final finalRows)

/-- A row of the host's `transactions`, with the columns that are read. -/
structure HostTransaction where
  network : String
  txHash : String
  fee : Nat
  txSizeBytes : Nat
  inputCount : Nat
  outputCount : Nat
  totalInputValue : Option Nat
  totalOutputValue : Nat
  timestamp : Nat
  ingestionTimestamp : Nat
deriving DecidableEq

/-- A row of the host's `address_transactions`. -/
structure AddressTransaction where
  network : String
  address : String
  slot : Nat
  txHash : String
deriving DecidableEq

/-- A row of the host's `tx_script_features`. -/
structure ScriptFeatures where
  network : String
  txHash : String
  redeemersCount : Nat
deriving DecidableEq

/-- A row of the host's `transaction_inputs` or `transaction_outputs`, with the keys of its
`assets` object. -/
structure Bundle where
  network : String
  txHash : String
  units : List String
deriving DecidableEq

/-- A row of the engine's own `transactions`. -/
structure LocalTransaction where
  target : String
  txHash : String
  slot : Nat
  fees : Nat
  size : Nat
  inputCount : Nat
  outputCount : Nat
  totalInputLovelace : Nat
  totalOutputLovelace : Nat
  distinctAssets : Nat
  redeemerCount : Nat
  blockTime : Nat
  ingestedAt : Nat
deriving DecidableEq

structure HostDb where
  transactions : List HostTransaction
  addressTransactions : List AddressTransaction
  scriptFeatures : List ScriptFeatures
  inputs : List Bundle
  outputs : List Bundle

structure Database where
  host : HostDb
  transactions : List LocalTransaction

/-- The parameters of a read; a window of zero is unbounded. -/
structure Scope where
  network : String
  target : String
  window : Nat

/-- The engine's transaction columns. -/
structure ShapedTx where
  txHash : String
  fees : Nat
  size : Nat
  inputCount : Nat
  outputCount : Nat
  totalInputLovelace : Nat
  totalOutputLovelace : Nat
  netLovelace : Int
  distinctAssets : Nat
  redeemerCount : Nat
  blockTime : Nat
deriving DecidableEq

/-- `transactions FINAL` of the host. -/
def HostDb.finalTransactions (host : HostDb) : List HostTransaction :=
  finalRows (fun row : HostTransaction => (row.network, row.txHash)) HostTransaction.ingestionTimestamp
    host.transactions

/-- `transactions FINAL` of the engine. -/
def Database.finalTransactions (db : Database) : List LocalTransaction :=
  finalRows (fun row : LocalTransaction => (row.target, row.txHash)) LocalTransaction.ingestedAt db.transactions

variable (db : Database) (scope : Scope)

/-- `_host_addr_index`. -/
def hostAddrIndex : List AddressTransaction :=
  db.host.addressTransactions.filter fun row => row.network = scope.network ∧ row.address = scope.target

/-- The `FINAL` rows of the target that were downloaded. -/
def localRows : List LocalTransaction := db.finalTransactions.filter fun row => row.target = scope.target

/-! ### `_hashes_expr` -/

/-- `SELECT tx_hash, max(slot) … GROUP BY tx_hash`. -/
def newestSlots (rows : List (String × Nat)) : List (String × Nat) :=
  (rows.map Prod.fst).dedup.map fun txHash =>
    (txHash, ((rows.filter fun row => row.1 = txHash).map Prod.snd).foldl max 0)

/-- The hashes of both sides with their newest slots. -/
def unionSlots : List (String × Nat) :=
  newestSlots
    (newestSlots ((hostAddrIndex db scope).map fun row => (row.txHash, row.slot)) ++
      newestSlots ((localRows db scope).map fun row => (row.txHash, row.slot)))

/-- The most recent hashes. -/
def hashesExpr : List String :=
  let newest := (unionSlots db scope).insertionSort fun first second => second.2 ≤ first.2
  (if scope.window = 0 then newest else newest.take scope.window).map Prod.fst

/-! ### `_tx_shaped` -/

/-- `tx_script_features` grouped by hash, and zero for a hash without a row. -/
def redeemerCount (txHash : String) : Nat :=
  ((db.host.scriptFeatures.filter fun row => row.network = scope.network ∧ row.txHash = txHash).map
    ScriptFeatures.redeemersCount).foldl max 0

/-- The distinct units of a hash's outputs and inputs, zero without any. -/
def distinctAssets (txHash : String) : Nat :=
  ((db.host.outputs ++ db.host.inputs).filter fun row =>
    row.network = scope.network ∧ row.txHash = txHash).flatMap Bundle.units |>.dedup.length

/-- One row of the host arm: both joins find at most one row for it. -/
def hostShaped (row : HostTransaction) : ShapedTx where
  txHash := row.txHash
  fees := row.fee
  size := row.txSizeBytes
  inputCount := row.inputCount
  outputCount := row.outputCount
  totalInputLovelace := row.totalInputValue.getD 0
  totalOutputLovelace := row.totalOutputValue
  netLovelace := row.totalOutputValue - row.totalInputValue.getD 0
  distinctAssets := distinctAssets db scope row.txHash
  redeemerCount := redeemerCount db scope row.txHash
  blockTime := row.timestamp

def localShaped (row : LocalTransaction) : ShapedTx where
  txHash := row.txHash
  fees := row.fees
  size := row.size
  inputCount := row.inputCount
  outputCount := row.outputCount
  totalInputLovelace := row.totalInputLovelace
  totalOutputLovelace := row.totalOutputLovelace
  netLovelace := row.totalOutputLovelace - row.totalInputLovelace
  distinctAssets := row.distinctAssets
  redeemerCount := row.redeemerCount
  blockTime := row.blockTime

/-- `_tx_shaped` of the host-backed repo. -/
def hostArm (hashes : List String) : List ShapedTx :=
  (db.host.finalTransactions.filter fun row => row.network = scope.network ∧ row.txHash ∈ hashes).map
    (hostShaped db scope)

/-- The rows that the hybrid repo adds. -/
def localArm (hashes : List String) : List ShapedTx :=
  (db.finalTransactions.filter fun row => row.target = scope.target ∧ row.txHash ∈ hashes ∧
    row.txHash ∉ (hostAddrIndex db scope).map AddressTransaction.txHash).map localShaped

/-- `_tx_shaped`. -/
def txShaped (hashes : List String) : List ShapedTx := hostArm db scope hashes ++ localArm db scope hashes

/-- `_windowed_tx`. -/
def windowedTx : List ShapedTx := txShaped db scope (hashesExpr db scope)

/-! ## One row for each hash -/

/-- The host has a transaction of this hash. -/
def HostHas (txHash : String) : Prop :=
  ∃ row ∈ db.host.transactions, row.network = scope.network ∧ row.txHash = txHash

/-- The backfill has downloaded a transaction of this hash. -/
def LocalHas (txHash : String) : Prop :=
  ∃ row ∈ db.transactions, row.target = scope.target ∧ row.txHash = txHash

/-- The host's address index has the hash for the target. -/
def Indexed (txHash : String) : Prop := txHash ∈ (hostAddrIndex db scope).map AddressTransaction.txHash

/-- A hash has one row at most, and the host's where the host has the transaction. -/
structure Single (hashes : List String) (relation : List ShapedTx) : Prop where
  distinct : (relation.map ShapedTx.txHash).Nodup
  hostFirst : ∀ row ∈ db.host.finalTransactions, row.network = scope.network → row.txHash ∈ hashes →
    relation.filter (fun shaped => shaped.txHash = row.txHash) = [hostShaped db scope row]

variable {db scope}

private theorem nodup_hostArm (hashes : List String) :
    ((hostArm db scope hashes).map ShapedTx.txHash).Nodup := by
  unfold hostArm
  rw [List.map_map]
  have keys : ((db.host.finalTransactions.filter fun row => row.network = scope.network ∧ row.txHash ∈ hashes).map
      fun row => (row.network, row.txHash)).Nodup :=
    (Replacing.keys_finalRows _ _ _).sublist (List.filter_sublist.map _)
  exact Replacing.nodup_map_of_fixed keys fun row member => (of_decide_eq_true (List.mem_filter.mp member).2).1

private theorem nodup_localArm (hashes : List String) :
    ((localArm db scope hashes).map ShapedTx.txHash).Nodup := by
  unfold localArm
  rw [List.map_map]
  have keys : ((db.finalTransactions.filter fun row => row.target = scope.target ∧ row.txHash ∈ hashes ∧
      row.txHash ∉ (hostAddrIndex db scope).map AddressTransaction.txHash).map
        fun row => (row.target, row.txHash)).Nodup :=
    (Replacing.keys_finalRows _ _ _).sublist (List.filter_sublist.map _)
  exact Replacing.nodup_map_of_fixed keys fun row member => (of_decide_eq_true (List.mem_filter.mp member).2).1

theorem mem_hostArm_iff {hashes : List String} {txHash : String} :
    txHash ∈ (hostArm db scope hashes).map ShapedTx.txHash ↔ txHash ∈ hashes ∧ HostHas db scope txHash := by
  have finals := Replacing.exists_mem_finalRows_iff
    (fun row : HostTransaction => (row.network, row.txHash)) HostTransaction.ingestionTimestamp
    db.host.transactions (scope.network, txHash)
  simp only [Prod.mk.injEq] at finals
  rw [HostHas, ← finals]
  simp only [hostArm, List.map_map, List.mem_map, List.mem_filter, decide_eq_true_eq, Function.comp_apply,
    HostDb.finalTransactions]
  constructor
  · rintro ⟨row, ⟨member, here, chosen⟩, rfl⟩
    exact ⟨chosen, row, member, here, rfl⟩
  · rintro ⟨chosen, row, member, here, rfl⟩
    exact ⟨row, ⟨member, here, chosen⟩, rfl⟩

theorem exists_final_iff {txHash : String} :
    (∃ row ∈ db.finalTransactions, row.target = scope.target ∧ row.txHash = txHash) ↔ LocalHas db scope txHash := by
  have finals := Replacing.exists_mem_finalRows_iff
    (fun row : LocalTransaction => (row.target, row.txHash)) LocalTransaction.ingestedAt
    db.transactions (scope.target, txHash)
  simp only [Prod.mk.injEq] at finals
  exact finals

theorem mem_localArm_iff {hashes : List String} {txHash : String} :
    txHash ∈ (localArm db scope hashes).map ShapedTx.txHash ↔
      txHash ∈ hashes ∧ LocalHas db scope txHash ∧ ¬ Indexed db scope txHash := by
  rw [← exists_final_iff]
  simp only [localArm, List.map_map, List.mem_map (l := db.finalTransactions.filter _), List.mem_filter,
    decide_eq_true_eq, Function.comp_apply, Indexed]
  constructor
  · rintro ⟨row, ⟨member, here, chosen, unknown⟩, rfl⟩
    exact ⟨chosen, ⟨row, member, here, rfl⟩, unknown⟩
  · rintro ⟨chosen, ⟨row, member, here, rfl⟩, unknown⟩
    exact ⟨row, ⟨member, here, chosen, unknown⟩, rfl⟩

/-- The guard asks the index; what it has to keep apart are the host's transactions. -/
theorem single_txShaped_iff (hashes : List String) :
    Single db scope hashes (txShaped db scope hashes) ↔
      ∀ txHash ∈ hashes, HostHas db scope txHash → LocalHas db scope txHash → Indexed db scope txHash := by
  constructor
  · intro single txHash chosen host downloaded
    by_contra unknown
    have distinct := single.distinct
    rw [txShaped, List.map_append] at distinct
    exact (List.nodup_append.mp distinct).2.2 txHash (mem_hostArm_iff.mpr ⟨chosen, host⟩) txHash
      (mem_localArm_iff.mpr ⟨chosen, downloaded, unknown⟩) rfl
  · intro known
    have apart : ∀ txHash ∈ (hostArm db scope hashes).map ShapedTx.txHash,
        txHash ∉ (localArm db scope hashes).map ShapedTx.txHash := by
      intro txHash host downloaded
      obtain ⟨chosen, has⟩ := mem_hostArm_iff.mp host
      obtain ⟨_, also, unknown⟩ := mem_localArm_iff.mp downloaded
      exact unknown (known txHash chosen has also)
    constructor
    · rw [txShaped, List.map_append]
      refine List.nodup_append.mpr ⟨nodup_hostArm hashes, nodup_localArm hashes, ?_⟩
      rintro txHash host _ downloaded rfl
      exact apart txHash host downloaded
    · intro row member here chosen
      have shaped : hostShaped db scope row ∈ hostArm db scope hashes :=
        List.mem_map_of_mem (List.mem_filter.mpr ⟨member, by simp [here, chosen]⟩)
      have none : (localArm db scope hashes).filter (fun shaped => shaped.txHash = row.txHash) = [] := by
        refine List.filter_eq_nil_iff.mpr fun other among same => ?_
        refine apart row.txHash (List.mem_map.mpr ⟨_, shaped, rfl⟩) ?_
        exact List.mem_map.mpr ⟨other, among, of_decide_eq_true same⟩
      have alone := Replacing.filter_key_of_nodup ShapedTx.txHash (nodup_hostArm hashes) shaped
      rw [txShaped, List.filter_append, none, List.append_nil]
      exact alone

theorem mem_newestSlots {rows : List (String × Nat)} {txHash : String} :
    txHash ∈ (newestSlots rows).map Prod.fst ↔ txHash ∈ rows.map Prod.fst := by
  simp [newestSlots]

theorem mem_localRows_iff {txHash : String} :
    txHash ∈ (localRows db scope).map LocalTransaction.txHash ↔ LocalHas db scope txHash := by
  rw [← exists_final_iff]
  simp [localRows, Database.finalTransactions, and_assoc]

/-- Only what the index or the backfill knows of is ever in the window. -/
theorem mem_hashesExpr {txHash : String} (chosen : txHash ∈ hashesExpr db scope) :
    Indexed db scope txHash ∨ LocalHas db scope txHash := by
  obtain ⟨⟨txHash, slot⟩, taken, rfl⟩ := List.mem_map.mp chosen
  have member : (txHash, slot) ∈ unionSlots db scope := by
    refine (List.mem_insertionSort fun first second : String × Nat => second.2 ≤ first.2).mp ?_
    by_cases unbounded : scope.window = 0
    · rwa [if_pos unbounded] at taken
    · rw [if_neg unbounded] at taken
      exact List.mem_of_mem_take taken
  have grouped := List.mem_map_of_mem (f := Prod.fst) member
  rw [unionSlots, mem_newestSlots, List.map_append, List.mem_append, mem_newestSlots, mem_newestSlots, List.map_map,
    List.map_map] at grouped
  exact grouped.imp_right mem_localRows_iff.mp

/-- **Exactly when a hash has one row.**  The guard of the local arm asks the address index.  A
transaction that the index has lost and the host still has comes from both sides, in every
relation its hash is chosen for; the window chooses it once it has been downloaded. -/
theorem relation_single_iff (db : Database) (scope : Scope) :
    (∀ hashes, Single db scope hashes (txShaped db scope hashes) ↔
      ∀ txHash ∈ hashes, HostHas db scope txHash → LocalHas db scope txHash → Indexed db scope txHash) ∧
    (Single db scope (hashesExpr db scope) (windowedTx db scope) ↔
      ∀ txHash ∈ hashesExpr db scope, HostHas db scope txHash → Indexed db scope txHash) := by
  refine ⟨single_txShaped_iff, (single_txShaped_iff _).trans ?_⟩
  constructor
  · intro known txHash chosen host
    rcases mem_hashesExpr chosen with indexed | downloaded
    · exact indexed
    · exact known txHash chosen host downloaded
  · intro known txHash chosen host _
    exact known txHash chosen host

/-- The host has both transactions of the contract; its address index has expired the older one,
which was then downloaded as history from below the index's earliest slot. -/
private def expiredIndex : Database where
  host :=
    { transactions :=
        [⟨"preprod", "old", 170000, 300, 1, 2, some 5000000, 4830000, 1000, 1⟩,
          ⟨"preprod", "new", 170000, 300, 1, 2, some 4830000, 4660000, 2000, 2⟩]
      addressTransactions := [⟨"preprod", "addr", 90, "new"⟩]
      scriptFeatures := []
      inputs := []
      outputs := [] }
  transactions := [⟨"addr", "old", 50, 170000, 301, 1, 2, 5000000, 4830000, 0, 0, 1000, 3⟩]

theorem expired_hash_twice :
    let scope : Scope := ⟨"preprod", "addr", 100⟩
    (windowedTx expiredIndex scope).map (fun row => (row.txHash, row.size)) =
        [("old", 300), ("new", 300), ("old", 301)] ∧
      ¬ Single expiredIndex scope (hashesExpr expiredIndex scope) (windowedTx expiredIndex scope) := by
  have listed : (windowedTx expiredIndex ⟨"preprod", "addr", 100⟩).map (fun row => (row.txHash, row.size)) =
      [("old", 300), ("new", 300), ("old", 301)] := by decide
  refine ⟨listed, fun single => ?_⟩
  have distinct := single.distinct
  have hashes := congrArg (List.map Prod.fst) listed
  rw [List.map_map] at hashes
  rw [show ShapedTx.txHash = Prod.fst ∘ fun row : ShapedTx => (row.txHash, row.size) from rfl, hashes] at distinct
  exact absurd distinct (by decide)

end TransactionMonitoring.HybridReads
