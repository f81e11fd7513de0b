import Mathlib.Algebra.BigOperators.Group.List.Defs
import Mathlib.Algebra.GroupWithZero.Nat
import Mathlib.Data.Finset.Lattice.Lemmas

/-! Parsing of block transactions and resolution of their inputs.

The node sends inputs as references.  `resolve_input_amounts` takes the transactions of one
batch and fills in addresses and amounts: first from the outputs of the batch itself, then
from the outputs the warehouse has stored.  Which references it asks the warehouse for
depends on the whole batch.

A raw transaction is the payload by field; one that the parser rejects is marked as such.
The order of a transaction's address list is arbitrary, so it is a finite set.
-/
namespace TransactionMonitoring.Enrichment

/-- A reference to an output, `(tx_hash, index)`. -/
structure OutputRef where
  txHash : String
  index : Nat
deriving DecidableEq, Repr

/-- An output in the payload. -/
structure RawOutput where
  address : String
  lovelace : Nat
  assets : Option (List (String × Nat))
deriving DecidableEq, Repr

/-- A transaction as Ogmios sends it in a block. -/
structure RawTx where
  id : String
  /-- The parser does not raise on it. -/
  parses : Bool
  /-- Phase-2 validation passed. -/
  scriptValid : Bool
  fee : Nat
  inputs : List OutputRef
  references : List OutputRef
  collaterals : List OutputRef
  outputs : List RawOutput
  collateralReturn : Option RawOutput
  withdrawals : List (String × Nat)
deriving DecidableEq, Repr

/-- `TransactionInput`. -/
structure TransactionInput where
  txHash : String
  index : Nat
  address : String
  amount : Nat
  assets : Option (List (String × Nat))
  isReference : Bool
  isCollateral : Bool
  isUnspentAttempt : Bool
deriving DecidableEq, Repr

def TransactionInput.ref (input : TransactionInput) : OutputRef := ⟨input.txHash, input.index⟩

/-- `TransactionOutput`. -/
structure TransactionOutput where
  address : String
  amount : Nat
  assets : Option (List (String × Nat))
  isCollateral : Bool
  outputIndex : Option Nat
deriving DecidableEq, Repr

/-- `NormalizedTransaction`, as far as it depends on the transaction and its inputs. -/
structure NormalizedTransaction where
  txHash : String
  fee : Nat
  inputs : List TransactionInput
  outputs : List TransactionOutput
  totalInputValue : Option Nat
  withdrawalTotal : Nat
  addresses : Finset String
  scriptValid : Bool
deriving DecidableEq

/-! ## The parser -/

/-- An input as the parser leaves it: its address and amount are not known. -/
def unresolved (isReference isCollateral isUnspentAttempt : Bool) (ref : OutputRef) : TransactionInput :=
  ⟨ref.txHash, ref.index, "", 0, none, isReference, isCollateral, isUnspentAttempt⟩

/-- The outputs the ledger created: the regular ones, or the collateral return of a failed
transaction at the index after them. -/
def createdOutputs (tx : RawTx) : List TransactionOutput :=
  if tx.scriptValid then
    tx.outputs.map fun out => ⟨out.address, out.lovelace, out.assets, false, none⟩
  else
    tx.collateralReturn.toList.map fun out =>
      ⟨out.address, out.lovelace, out.assets, true, some tx.outputs.length⟩

/-- `parse_ogmios_transaction`. -/
def parseOgmiosTransaction (tx : RawTx) : Option NormalizedTransaction :=
  if tx.parses then
    some {
      txHash := tx.id
      fee := tx.fee
      inputs := tx.inputs.map (unresolved false false (!tx.scriptValid)) ++
        tx.references.map (unresolved true false false) ++ tx.collaterals.map (unresolved false true false)
      outputs := createdOutputs tx
      totalInputValue := none
      withdrawalTotal := (tx.withdrawals.map Prod.snd).sum
      addresses := ((createdOutputs tx).map TransactionOutput.address).toFinset ∪
        ((tx.withdrawals.map Prod.fst).filter (· ≠ "")).toFinset
      scriptValid := tx.scriptValid }
  else none

/-! ## Resolution -/

/-- What a reference resolves to. -/
structure ResolvedRef where
  address : String
  amount : Nat
deriving DecidableEq, Repr

/-- `consumed_by_ledger`. -/
def TransactionInput.consumedByLedger (scriptValid : Bool) (input : TransactionInput) : Bool :=
  if input.isReference then false
  else if scriptValid then !input.isCollateral && !input.isUnspentAttempt
  else input.isCollateral

/-- `_withdrawal_total`. -/
def withdrawalTotal (tx : NormalizedTransaction) : Nat := if tx.scriptValid then tx.withdrawalTotal else 0

/-- `_flow_addresses`. -/
def flowAddresses (scriptValid : Bool) (inputs : List TransactionInput) : Finset String :=
  ((inputs.filter fun input => input.address ≠ "" && !input.isReference &&
    (!input.isCollateral || !scriptValid)).map TransactionInput.address).toFinset

/-- The copy `_resolve_tx_inputs` makes of an input it resolves; the batch path brings no
assets, so the input keeps its own. -/
def TransactionInput.resolve (resolved : ResolvedRef) (input : TransactionInput) : TransactionInput :=
  { input with address := resolved.address, amount := resolved.amount }

/-- `_resolve_tx_inputs`: the inputs, the total and whether an input newly resolved. -/
def resolveTxInputs (tx : NormalizedTransaction) (lookup : OutputRef → Option ResolvedRef) :
    List TransactionInput → List TransactionInput × Nat × Bool
  | [] => ([], withdrawalTotal tx, false)
  | input :: rest =>
      let later := resolveTxInputs tx lookup rest
      let value := fun (input : TransactionInput) =>
        if input.consumedByLedger tx.scriptValid then input.amount else 0
      if input.isReference then (input :: later.1, later.2.1, later.2.2)
      else if 0 < input.amount then (input :: later.1, later.2.1 + value input, later.2.2)
      else
        match lookup input.ref with
        | some resolved =>
            (input.resolve resolved :: later.1, later.2.1 + value (input.resolve resolved), true)
        | none => (input :: later.1, later.2.1, later.2.2)

/-- The outputs of a transaction by reference. -/
def outputRefs (tx : NormalizedTransaction) : List (OutputRef × ResolvedRef) :=
  tx.outputs.mapIdx fun idx out => (⟨tx.txHash, out.outputIndex.getD idx⟩, ⟨out.address, out.amount⟩)

/-- `intra_block`, as a lookup: a later entry replaces an earlier one. -/
def intraBlock (txs : List NormalizedTransaction) (ref : OutputRef) : Option ResolvedRef :=
  ((txs.flatMap outputRefs).reverse.find? fun entry => entry.1 = ref).map Prod.snd

/-- An unresolved input whose reference is worth a lookup in the warehouse. -/
def worthLookup (tx : NormalizedTransaction) (input : TransactionInput) : Bool :=
  !input.isReference && !(input.isCollateral && tx.scriptValid) && decide (input.amount = 0)

/-- `cross_block_refs`. -/
def crossBlockRefs (txs : List NormalizedTransaction) : List OutputRef :=
  txs.flatMap fun tx => ((tx.inputs.filter (worthLookup tx)).map TransactionInput.ref).filter fun ref =>
    (intraBlock txs ref).isNone

/-- `get_outputs_for_refs`, over the `FINAL` rows of `transaction_outputs` by key. -/
def getOutputsForRefs (warehouse : OutputRef → Option ResolvedRef) (refs : List OutputRef)
    (ref : OutputRef) : Option ResolvedRef :=
  if ref ∈ refs then warehouse ref else none

/-- The merged lookup: the batch's own outputs come first. -/
def batchLookup (warehouse : OutputRef → Option ResolvedRef) (txs : List NormalizedTransaction)
    (ref : OutputRef) : Option ResolvedRef :=
  (intraBlock txs ref).or (getOutputsForRefs warehouse (crossBlockRefs txs) ref)

/-- What resolution makes of one transaction. -/
def resolveTx (lookup : OutputRef → Option ResolvedRef) (tx : NormalizedTransaction) : NormalizedTransaction :=
  let resolved := resolveTxInputs tx lookup tx.inputs
  if resolved.2.2 ∨ 0 < withdrawalTotal tx then
    { tx with
      inputs := resolved.1
      totalInputValue := if 0 < resolved.2.1 then some resolved.2.1 else none
      addresses := tx.addresses ∪ flowAddresses tx.scriptValid resolved.1 }
  else tx

/-- `resolve_input_amounts`. -/
def resolveInputAmounts (warehouse : OutputRef → Option ResolvedRef) (txs : List NormalizedTransaction) :
    List NormalizedTransaction :=
  txs.map (resolveTx (batchLookup warehouse txs))

/-! ## Transactions fresh from the parser -/

/-- Nothing about the inputs is known yet. -/
structure Fresh (tx : NormalizedTransaction) : Prop where
  total : tx.totalInputValue = none
  inputs : ∀ input ∈ tx.inputs, input.address = "" ∧ input.amount = 0

theorem fresh_of_parsed {raw : RawTx} {tx : NormalizedTransaction}
    (parsed : parseOgmiosTransaction raw = some tx) : Fresh tx := by
  unfold parseOgmiosTransaction at parsed
  split at parsed
  · obtain rfl := Option.some.inj parsed
    refine ⟨rfl, fun input member => ?_⟩
    simp only [List.mem_append, List.mem_map] at member
    rcases member with (⟨ref, -, rfl⟩ | ⟨ref, -, rfl⟩) | ⟨ref, -, rfl⟩
    · exact ⟨rfl, rfl⟩
    · exact ⟨rfl, rfl⟩
    · exact ⟨rfl, rfl⟩
  · cases parsed

/-- What an input shows of a lookup: nothing found is shown as no address and no value. -/
def shown (found : Option ResolvedRef) : ResolvedRef := found.getD ⟨"", 0⟩

/-- An input after resolution. -/
def showInput (lookup : OutputRef → Option ResolvedRef) (input : TransactionInput) : TransactionInput :=
  if input.isReference then input else input.resolve (shown (lookup input.ref))

/-- The value the ledger consumed, as the inputs show it. -/
def consumedValue (tx : NormalizedTransaction) (inputs : List TransactionInput) : Nat :=
  withdrawalTotal tx + (inputs.map fun input =>
    if input.consumedByLedger tx.scriptValid then input.amount else 0).sum

section
variable {lookup other : OutputRef → Option ResolvedRef} {tx : NormalizedTransaction}

private theorem resolve_blank {input : TransactionInput} (blank : input.address = "" ∧ input.amount = 0) :
    input.resolve ⟨"", 0⟩ = input := by
  obtain ⟨address, amount⟩ := blank
  cases input
  subst address amount
  rfl

/-- Over fresh inputs resolution is one map, and the total is read off its result. -/
private theorem resolveTxInputs_fresh {inputs : List TransactionInput}
    (fresh : ∀ input ∈ inputs, input.address = "" ∧ input.amount = 0) :
    (resolveTxInputs tx lookup inputs).1 = inputs.map (showInput lookup) ∧
    (resolveTxInputs tx lookup inputs).2.1 = consumedValue tx (inputs.map (showInput lookup)) ∧
    ((resolveTxInputs tx lookup inputs).2.2 = false → inputs.map (showInput lookup) = inputs) := by
  induction inputs with
  | nil => exact ⟨rfl, rfl, fun _ => rfl⟩
  | cons input rest ih =>
    obtain ⟨blank, fresh⟩ := List.forall_mem_cons.mp fresh
    obtain ⟨shape, total, unchanged⟩ := ih fresh
    simp only [resolveTxInputs, blank.2, Nat.lt_irrefl, if_false]
    split
    · rename_i reference
      have same : showInput lookup input = input := by simp [showInput, reference]
      have nothing : input.consumedByLedger tx.scriptValid = false := by
        simp [TransactionInput.consumedByLedger, reference]
      refine ⟨by simp [shape, same], ?_, fun still => by simp [unchanged still, same]⟩
      simp [total, consumedValue, same, nothing]
    · rename_i spent
      split
      · rename_i resolved found
        have same : showInput lookup input = input.resolve resolved := by
          simp [showInput, spent, found, shown]
        refine ⟨by simp [shape, same], ?_, by simp⟩
        simp only [total, consumedValue, List.map_cons, List.sum_cons, same]
        omega
      · rename_i missing
        have same : showInput lookup input = input := by
          simp [showInput, spent, missing, shown, resolve_blank blank]
        refine ⟨by simp [shape, same], ?_, fun still => by simp [unchanged still, same]⟩
        simp [total, consumedValue, same, blank.2]

/-- A fresh input without an address is no party to the flow. -/
private theorem flowAddresses_fresh (fresh : Fresh tx) : flowAddresses tx.scriptValid tx.inputs = ∅ := by
  rw [flowAddresses, List.toFinset_eq_empty_iff, List.map_eq_nil_iff, List.filter_eq_nil_iff]
  intro input member
  simp [(fresh.inputs input member).1]

private theorem consumedValue_fresh (fresh : Fresh tx) : consumedValue tx tx.inputs = withdrawalTotal tx := by
  have none : tx.inputs.map (fun input => if input.consumedByLedger tx.scriptValid then input.amount else 0) =
      tx.inputs.map fun _ => 0 :=
    List.map_congr_left fun input member => by simp [(fresh.inputs input member).2]
  simp [consumedValue, none]

/-- What resolution makes of a fresh transaction is determined by what its inputs show. -/
theorem resolveTx_fresh (fresh : Fresh tx) :
    resolveTx lookup tx = { tx with
      inputs := tx.inputs.map (showInput lookup)
      totalInputValue := if 0 < consumedValue tx (tx.inputs.map (showInput lookup)) then
          some (consumedValue tx (tx.inputs.map (showInput lookup)))
        else none
      addresses := tx.addresses ∪ flowAddresses tx.scriptValid (tx.inputs.map (showInput lookup)) } := by
  obtain ⟨shape, total, unchanged⟩ := @resolveTxInputs_fresh lookup tx tx.inputs fresh.inputs
  unfold resolveTx
  simp only [shape, total]
  split
  · rfl
  · rename_i idle
    rw [not_or, Bool.not_eq_true, Nat.not_lt, Nat.le_zero] at idle
    rw [unchanged idle.1, flowAddresses_fresh fresh, consumedValue_fresh fresh, idle.2]
    simp only [Nat.lt_irrefl, if_false, Finset.union_empty, ← fresh.total]

/-- Two lookups give a fresh transaction the same row exactly if every input that is not a
reference input shows the same of both. -/
theorem resolveTx_eq_iff (fresh : Fresh tx) :
    resolveTx lookup tx = resolveTx other tx ↔
      ∀ input ∈ tx.inputs, input.isReference = false →
        shown (lookup input.ref) = shown (other input.ref) := by
  have inputs : tx.inputs.map (showInput lookup) = tx.inputs.map (showInput other) ↔
      ∀ input ∈ tx.inputs, input.isReference = false →
        shown (lookup input.ref) = shown (other input.ref) := by
    rw [List.map_inj_left]
    refine forall₂_congr fun input _ => ?_
    cases reference : input.isReference with
    | true => simp [showInput, reference]
    | false =>
      simp only [showInput, reference, Bool.false_eq_true, if_false, true_implies]
      constructor
      · intro same
        have address := congrArg TransactionInput.address same
        have amount := congrArg TransactionInput.amount same
        cases left : shown (lookup input.ref)
        cases right : shown (other input.ref)
        rw [left, right] at address amount
        simp only [TransactionInput.resolve] at address amount
        rw [address, amount]
      · intro same
        rw [same]
  rw [← inputs, resolveTx_fresh fresh, resolveTx_fresh fresh]
  constructor
  · intro same
    exact congrArg NormalizedTransaction.inputs same
  · intro same
    rw [same]

end

end TransactionMonitoring.Enrichment
