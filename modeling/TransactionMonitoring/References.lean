import TransactionMonitoring.JsonValue
import Mathlib.Data.List.Dedup
import Mathlib.Data.List.Infix
import Mathlib.Data.List.Sort
import Mathlib.Data.String.Basic

/-! Resolution of a batch's inputs for the scorers.

`enrich_inputs_with_resolved_addresses` patches the raw payloads of a batch in place: an
input's address comes from the stored inputs of its own transaction, its value from the raw
payload of the transaction it references.  One loop reads the payloads of all referenced
transactions; the JSON decoder is a parameter that answers nothing where it raises.
-/
namespace TransactionMonitoring.References

/-- An input of a raw payload, by the members the step reads or writes. -/
structure RawInput where
  transaction : Option String
  index : Option Nat
  address : Option String
  value : Option Json

/-- `raw_data` of a row: empty, no object, or an object with its inputs. -/
inductive RawData where
  | missing
  | other
  | payload (inputs : List RawInput)

structure Row where
  txHash : String
  rawData : RawData

/-- A row of `transaction_inputs`. -/
structure InputRow where
  txHash : String
  inputIndex : Nat
  address : String
deriving DecidableEq, Repr

/-- A row of `transactions`; one transaction may have several until they merge. -/
structure StoredTx where
  txHash : String
  rawData : String
deriving DecidableEq, Repr

/-- The two tables; nothing where the read fails. -/
structure Store where
  transactionInputs : Option (List InputRow)
  transactions : Option (List StoredTx)

def RawData.inputs : RawData → List RawInput
  | .payload inputs => inputs
  | _ => []

def RawData.present : RawData → Bool
  | .missing => false
  | _ => true

/-- The transaction an input references; an empty id references none. -/
def RawInput.reference (input : RawInput) : Option String := input.transaction.filter (· ≠ "")

/-! ## The referenced transactions -/

/-- `ref_tx_hashes`. -/
def refTxHashes (rows : List Row) : List String :=
  (rows.flatMap fun row => row.rawData.inputs.filterMap RawInput.reference).dedup

/-- The transactions that are looked up: all, or the first ones up to the cap. -/
def fetched (maxRefTxs : Nat) (rows : List Row) : List String :=
  if maxRefTxs < (refTxHashes rows).length then ((refTxHashes rows).insertionSort (· ≤ ·)).take maxRefTxs
  else refTxHashes rows

variable (loads : String → Option Json)

/-- The outputs a payload enumerates: nothing where decoding or enumerating raises. -/
def outputsOf (rawData : String) : Option (List Json) :=
  match loads rawData with
  | none => none
  | some (.dict members) =>
      match (Json.dict members).get "outputs" with
      | none => some []
      | some (.list outputs) => some outputs
      | some (.text chars) => some (chars.toList.map fun char => .text (String.singleton char))
      | some (.dict members) => some (members.map fun member => .text member.1)
      | some _ => none
  | some _ => some []

/-- An output of a referenced transaction, by its hash and index. -/
structure RefOutput where
  txHash : String
  index : Nat
  output : Json

/-- The entries one stored row adds to `ref_outputs`. -/
def refOutputsOf (txHash : String) (outputs : List Json) : List RefOutput :=
  outputs.mapIdx fun index output => ⟨txHash, index, output⟩

/-- `ref_outputs`: one exception ends the loop and keeps what was read before it. -/
def readOutputs : List StoredTx → List RefOutput
  | [] => []
  | tx :: rest =>
      match outputsOf loads tx.rawData with
      | none => []
      | some outputs => refOutputsOf tx.txHash outputs ++ readOutputs rest

/-- An entry of `ref_outputs`; a later one replaces an earlier one. -/
def refOutput (refOutputs : List RefOutput) (txHash : String) (index : Nat) : Option Json :=
  (refOutputs.reverse.find? fun entry => entry.txHash = txHash ∧ entry.index = index).map RefOutput.output

/-! ## Patching -/

/-- The value of an output that is true and has one; nothing where the test or the access
raises. -/
def valueOf : Json → Option (Option Json)
  | .dict members => some ((Json.dict members).get "value")
  | .list items => if items.any (fun item => match item with | .text text => text == "value" | _ => false) then none
      else some none
  | .text text => if "value".toList <:+: text.toList then none else some none
  | .null => some none
  | .bool value => if value then none else some none
  | .int value => if value = 0 then some none else none
  | .float shown => if shown = "0.0" ∨ shown = "-0.0" then some none else none

/-- The value the referenced output gives an input that has none. -/
def resolvedValue (refOutputs : List RefOutput) (input : RawInput) : Option (Option Json) :=
  match input.value, input.reference, input.index with
  | none, some txHash, some index =>
      match refOutput refOutputs txHash index with
      | some output => valueOf output
      | none => some none
  | _, _, _ => some none

/-- `addr_map`, of the rows read for the batch. -/
def storedAddress (inputRows : List InputRow) (txHash : String) (index : Nat) : Option String :=
  (inputRows.reverse.find? fun row => row.txHash = txHash ∧ row.inputIndex = index).map InputRow.address

/-- A patched input; where reading its value raises it has its address already. -/
def patchInput (inputRows : List InputRow) (refOutputs : List RefOutput) (txHash : String) (index : Nat)
    (input : RawInput) : RawInput :=
  { input with
    address := input.address.or (storedAddress inputRows txHash index)
    value := input.value.or ((resolvedValue refOutputs input).getD none) }

/-- Reading the value of the input raises. -/
def raises (refOutputs : List RefOutput) (input : RawInput) : Bool := (resolvedValue refOutputs input).isNone

/-- The inputs of a row and whether patching them raised; an exception leaves the rest alone. -/
def patchInputs (inputRows : List InputRow) (refOutputs : List RefOutput) (txHash : String) :
    Nat → List RawInput → List RawInput × Bool
  | _, [] => ([], false)
  | index, input :: rest =>
      let patched := patchInput inputRows refOutputs txHash index input
      if raises refOutputs input then (patched :: rest, true)
      else
        let later := patchInputs inputRows refOutputs txHash (index + 1) rest
        (patched :: later.1, later.2)

def patchRow (inputRows : List InputRow) (refOutputs : List RefOutput) (row : Row) : Row × Bool :=
  match row.rawData with
  | .payload inputs =>
      let patched := patchInputs inputRows refOutputs row.txHash 0 inputs
      ({ row with rawData := .payload patched.1 }, patched.2)
  | _ => (row, false)

def patchRows (inputRows : List InputRow) (refOutputs : List RefOutput) : List Row → List Row × Bool
  | [] => ([], false)
  | row :: rest =>
      let patched := patchRow inputRows refOutputs row
      if patched.2 then (patched.1 :: rest, true)
      else
        let later := patchRows inputRows refOutputs rest
        (patched.1 :: later.1, later.2)

/-- The rows with the failures `_mark_enrichment_failed` records for each, and whether the call
raised. -/
structure Enriched where
  rows : List (Row × List String)
  raised : Bool

/-- `enrich_inputs_with_resolved_addresses`. -/
def enrichInputs (maxRefTxs : Nat) (store : Store) (rows : List Row) : Enriched :=
  let txHashes := (rows.filter fun row => row.rawData.present).map Row.txHash
  if txHashes = [] then ⟨rows.map fun row => (row, []), false⟩
  else
    match store.transactionInputs with
    | none => ⟨rows.map fun row => (row, ["input_addresses"]), false⟩
    | some inputRows =>
        let refOutputs := match store.transactions with
          | none => []
          | some txs => readOutputs loads (txs.filter fun tx => tx.txHash ∈ fetched maxRefTxs rows)
        let patched := patchRows (inputRows.filter fun row => row.txHash ∈ txHashes) refOutputs rows
        ⟨patched.1.map fun row => (row, []), patched.2⟩

/-! ## Isolation -/

/-- The stored rows of one transaction. -/
def Store.own (store : Store) (txHash : String) : List StoredTx :=
  (store.transactions.getD []).filter fun tx => tx.txHash = txHash

/-- The outputs an input finds where only the transaction it references is stored. -/
def ownOutputs (store : Store) (input : RawInput) : List RefOutput :=
  match input.reference with
  | some txHash => readOutputs loads (store.own txHash)
  | none => []

/-- The row as it is patched from its own stored inputs and, each input for itself, from the
stored row of the transaction it references. -/
def alone (store : Store) (row : Row) : Row :=
  match row.rawData with
  | .payload inputs =>
      { row with rawData := .payload (inputs.mapIdx fun index input =>
          patchInput ((store.transactionInputs.getD []).filter fun stored => stored.txHash = row.txHash)
            (ownOutputs loads store input) row.txHash index input) }
  | _ => row

/-- Two stores that hold the same of a row's own references resolve it alike. -/
theorem alone_congr {store other : Store} {row : Row} (inputs : store.transactionInputs = other.transactionInputs)
    (same : ∀ input ∈ row.rawData.inputs, ∀ txHash, input.reference = some txHash →
      store.own txHash = other.own txHash) :
    alone loads store row = alone loads other row := by
  unfold alone
  cases payload : row.rawData with
  | missing | other => rfl
  | payload listed =>
    rw [payload] at same
    have outputs : ∀ input ∈ listed, ownOutputs loads store input = ownOutputs loads other input := by
      intro input member
      unfold ownOutputs
      cases reference : input.reference with
      | none => rfl
      | some txHash => simp only [same input member txHash reference]
    simp only [Row.mk.injEq, true_and, RawData.payload.injEq]
    apply List.ext_getElem
    · simp only [List.length_mapIdx]
    · intro index here _
      rw [List.length_mapIdx] at here
      simp only [List.getElem_mapIdx, inputs, outputs _ (List.getElem_mem here)]

/-- A reference of the row could not be read: the read failed, left it out, or met a payload it
could not take outputs from. -/
def Unread (maxRefTxs : Nat) (store : Store) (rows : List Row) (row : Row) : Prop :=
  ∃ txHash ∈ row.rawData.inputs.filterMap RawInput.reference,
    store.transactions = none ∨ txHash ∉ fetched maxRefTxs rows ∨
      ∃ tx ∈ store.own txHash, outputsOf loads tx.rawData = none

/-- What the call owes a row: it is patched from its own references alone, or left as it was and
marked; and it is marked if a reference could not be read. -/
def RowIsolated (maxRefTxs : Nat) (store : Store) (rows : List Row) (row : Row)
    (patched : Row × List String) : Prop :=
  (patched.1 = alone loads store row ∨ (patched.1 = row ∧ patched.2 ≠ [])) ∧
    (Unread loads maxRefTxs store rows row → patched.2 ≠ [])

/-- The call returns, and no row's resolution depends on another's references. -/
def Isolated (maxRefTxs : Nat) (store : Store) (rows : List Row) : Prop :=
  (enrichInputs loads maxRefTxs store rows).raised = false ∧
    List.Forall₂ (RowIsolated loads maxRefTxs store rows) rows (enrichInputs loads maxRefTxs store rows).rows

/-- Every reference of the batch is looked up and every stored payload of it gives outputs. -/
structure ReadInFull (maxRefTxs : Nat) (store : Store) (rows : List Row) : Prop where
  few : (refTxHashes rows).length ≤ maxRefTxs
  read : refTxHashes rows ≠ [] → store.transactions ≠ none
  payloads : ∀ txHash ∈ refTxHashes rows, ∀ tx ∈ store.own txHash, outputsOf loads tx.rawData ≠ none

/-- The outputs of a batch read in full can also all be tested for a value. -/
structure Readable (maxRefTxs : Nat) (store : Store) (rows : List Row) : Prop
    extends ReadInFull loads maxRefTxs store rows where
  values : ∀ row ∈ rows, ∀ input ∈ row.rawData.inputs, raises (ownOutputs loads store input) input = false

theorem mem_refTxHashes {rows : List Row} {txHash : String} :
    txHash ∈ refTxHashes rows ↔ ∃ row ∈ rows, ∃ input ∈ row.rawData.inputs, input.reference = some txHash := by
  simp only [refTxHashes, List.mem_dedup, List.mem_flatMap, List.mem_filterMap]

theorem fetched_of_few {maxRefTxs : Nat} {rows : List Row} (few : (refTxHashes rows).length ≤ maxRefTxs) :
    fetched maxRefTxs rows = refTxHashes rows :=
  if_neg (Nat.not_lt_of_le few)

/-- The cap leaves a reference out. -/
theorem exists_not_fetched {maxRefTxs : Nat} {rows : List Row} (many : maxRefTxs < (refTxHashes rows).length) :
    ∃ txHash ∈ refTxHashes rows, txHash ∉ fetched maxRefTxs rows := by
  by_contra all
  simp only [not_exists, not_and, not_not] at all
  have distinct : (refTxHashes rows).Nodup := List.nodup_dedup _
  have longer := (List.subperm_of_subset distinct all).length_le
  rw [fetched, if_pos many, List.length_take] at longer
  omega

section Lookups

/-- Rows of other keys have no part in a lookup. -/
private theorem find_reverse_filter {α : Type} {list : List α} {wanted kept : α → Bool}
    (keeps : ∀ element, wanted element = true → kept element = true) :
    (list.filter kept).reverse.find? wanted = list.reverse.find? wanted := by
  rw [← List.filter_reverse, List.find?_filter]
  congr 1
  funext element
  cases found : wanted element with
  | true => simp [keeps element found]
  | false => simp

theorem storedAddress_filter {inputRows : List InputRow} {txHash : String} {index : Nat} {kept : InputRow → Bool}
    (keeps : ∀ row, row.txHash = txHash → kept row = true) :
    storedAddress (inputRows.filter kept) txHash index = storedAddress inputRows txHash index := by
  unfold storedAddress
  rw [find_reverse_filter]
  intro row found
  exact keeps row (of_decide_eq_true found).1

theorem refOutput_filter (refOutputs : List RefOutput) (txHash : String) (index : Nat) :
    refOutput (refOutputs.filter fun entry => entry.txHash = txHash) txHash index =
      refOutput refOutputs txHash index := by
  unfold refOutput
  rw [find_reverse_filter]
  intro entry found
  exact decide_eq_true (of_decide_eq_true found).1

variable {loads}

private theorem refOutputsOf_filter (txHash other : String) (outputs : List Json) :
    (refOutputsOf other outputs).filter (fun entry => entry.txHash = txHash) =
      if other = txHash then refOutputsOf other outputs else [] := by
  have named : ∀ entry ∈ refOutputsOf other outputs, entry.txHash = other := by
    intro entry member
    obtain ⟨index, _, rfl⟩ := List.mem_mapIdx.mp member
    rfl
  split
  · rename_i same
    exact List.filter_eq_self.mpr fun entry member => decide_eq_true ((named entry member).trans same)
  · rename_i different
    exact List.filter_eq_nil_iff.mpr fun entry member => by simpa [named entry member] using different

/-- Where every payload is read, the entries of a transaction are those of its own rows. -/
private theorem readOutputs_filter {txs : List StoredTx} (txHash : String)
    (read : ∀ tx ∈ txs, outputsOf loads tx.rawData ≠ none) :
    (readOutputs loads txs).filter (fun entry => entry.txHash = txHash) =
      readOutputs loads (txs.filter fun tx => tx.txHash = txHash) := by
  induction txs with
  | nil => rfl
  | cons tx rest ih =>
    obtain ⟨here, later⟩ := List.forall_mem_cons.mp read
    obtain ⟨outputs, found⟩ := Option.ne_none_iff_exists'.mp here
    simp only [readOutputs, found, List.filter_append, refOutputsOf_filter, ih later, List.filter_cons,
      decide_eq_true_eq]
    split
    · simp only [readOutputs, found]
    · rfl

/-- The batch's lookup of a reference is the lookup in the transaction's own rows. -/
private theorem refOutput_own {store : Store} {txs : List StoredTx} {refs : List String} {txHash : String}
    (stored : store.transactions = some txs) (listed : txHash ∈ refs)
    (read : ∀ txHash ∈ refs, ∀ tx ∈ store.own txHash, outputsOf loads tx.rawData ≠ none) (index : Nat) :
    refOutput (readOutputs loads (txs.filter fun tx => tx.txHash ∈ refs)) txHash index =
      refOutput (readOutputs loads (store.own txHash)) txHash index := by
  have own (hash : String) : store.own hash = txs.filter fun tx => tx.txHash = hash := by rw [Store.own, stored]; rfl
  have readable : ∀ tx ∈ txs.filter (fun tx => tx.txHash ∈ refs), outputsOf loads tx.rawData ≠ none := by
    intro tx member
    obtain ⟨member, listed⟩ := List.mem_filter.mp member
    apply read tx.txHash (of_decide_eq_true listed)
    rw [own]
    exact List.mem_filter.mpr ⟨member, decide_eq_true rfl⟩
  have same : (txs.filter fun tx => tx.txHash ∈ refs).filter (fun tx => tx.txHash = txHash) = store.own txHash := by
    rw [own, List.filter_filter]
    apply List.filter_congr
    intro tx _
    by_cases hash : tx.txHash = txHash
    · simp [hash, listed]
    · simp [hash]
  have restricted (list : List StoredTx) (all : ∀ tx ∈ list, outputsOf loads tx.rawData ≠ none) :
      refOutput (readOutputs loads list) txHash index =
        refOutput (readOutputs loads (list.filter fun tx => tx.txHash = txHash)) txHash index := by
    rw [← readOutputs_filter txHash all, refOutput_filter]
  rw [restricted _ readable, same]

private theorem resolvedValue_own {maxRefTxs : Nat} {store : Store} {rows : List Row} {row : Row} {input : RawInput}
    (readable : ReadInFull loads maxRefTxs store rows) (member : row ∈ rows) (listed : input ∈ row.rawData.inputs) :
    resolvedValue (match store.transactions with
      | none => []
      | some txs => readOutputs loads (txs.filter fun tx => tx.txHash ∈ fetched maxRefTxs rows)) input =
        resolvedValue (ownOutputs loads store input) input := by
  unfold resolvedValue ownOutputs
  cases referenced : input.reference with
  | none => cases input.value <;> rfl
  | some txHash =>
    have known := mem_refTxHashes.mpr ⟨row, member, input, listed, referenced⟩
    obtain ⟨txs, stored⟩ := Option.ne_none_iff_exists'.mp (readable.read (List.ne_nil_of_mem known))
    rw [fetched_of_few readable.few, stored]
    cases input.value with
    | some _ => rfl
    | none =>
      cases input.index with
      | none => rfl
      | some index => simp only [refOutput_own stored known readable.payloads]

end Lookups

section Patching
variable {loads} {inputRows : List InputRow} {refOutputs : List RefOutput} {txHash : String}

private theorem patchInputs_quiet {inputs : List RawInput} (start : Nat)
    (quiet : ∀ input ∈ inputs, raises refOutputs input = false) :
    patchInputs inputRows refOutputs txHash start inputs =
      (inputs.mapIdx fun index input => patchInput inputRows refOutputs txHash (start + index) input, false) := by
  induction inputs generalizing start with
  | nil => rfl
  | cons input rest ih =>
    obtain ⟨here, later⟩ := List.forall_mem_cons.mp quiet
    simp only [patchInputs, here, Bool.false_eq_true, if_false, ih (start + 1) later, List.mapIdx_cons, Nat.add_zero]
    congr 3
    funext index input
    rw [Nat.add_right_comm, Nat.add_assoc]

private theorem patchInputs_raised {inputs : List RawInput} {start : Nat}
    (quiet : (patchInputs inputRows refOutputs txHash start inputs).2 = false) :
    ∀ input ∈ inputs, raises refOutputs input = false := by
  induction inputs generalizing start with
  | nil => exact fun _ member => nomatch member
  | cons input rest ih =>
    rw [patchInputs] at quiet
    split at quiet
    · cases quiet
    · rename_i here
      exact List.forall_mem_cons.mpr ⟨by simpa using here, ih quiet⟩

private theorem patchRow_raised {row : Row} (quiet : (patchRow inputRows refOutputs row).2 = false) :
    ∀ input ∈ row.rawData.inputs, raises refOutputs input = false := by
  obtain ⟨_, rawData⟩ := row
  cases rawData with
  | payload inputs => exact patchInputs_raised quiet
  | missing | other => exact fun _ member => nomatch member

private theorem patchRows_raised {rows : List Row} (quiet : (patchRows inputRows refOutputs rows).2 = false) :
    ∀ row ∈ rows, ∀ input ∈ row.rawData.inputs, raises refOutputs input = false := by
  induction rows with
  | nil => exact fun _ member => nomatch member
  | cons row rest ih =>
    rw [patchRows] at quiet
    split at quiet
    · cases quiet
    · rename_i here
      exact List.forall_mem_cons.mpr ⟨patchRow_raised (by simpa using here), ih quiet⟩

private theorem patchRows_quiet {rows : List Row} {result : Row → Row}
    (quiet : ∀ row ∈ rows, patchRow inputRows refOutputs row = (result row, false)) :
    patchRows inputRows refOutputs rows = (rows.map result, false) := by
  induction rows with
  | nil => rfl
  | cons row rest ih =>
    obtain ⟨here, later⟩ := List.forall_mem_cons.mp quiet
    simp only [patchRows, here, Bool.false_eq_true, if_false, ih later, List.map_cons]

end Patching

/-- Once every reference is read, each row is patched from its own references alone. -/
private theorem patchRow_readable {maxRefTxs : Nat} {store : Store} {rows : List Row} {row : Row}
    {inputRows : List InputRow} (stored : store.transactionInputs = some inputRows)
    (readable : Readable loads maxRefTxs store rows) (member : row ∈ rows) :
    patchRow
        (inputRows.filter fun stored => stored.txHash ∈ (rows.filter fun row => row.rawData.present).map Row.txHash)
        (match store.transactions with
          | none => []
          | some txs => readOutputs loads (txs.filter fun tx => tx.txHash ∈ fetched maxRefTxs rows)) row =
      (alone loads store row, false) := by
  unfold patchRow alone
  cases payload : row.rawData with
  | missing | other => rfl
  | payload inputs =>
    have listed : ∀ input ∈ inputs, input ∈ row.rawData.inputs := by
      rw [payload]
      exact fun _ member => member
    have same : ∀ input ∈ inputs, resolvedValue (match store.transactions with
        | none => []
        | some txs => readOutputs loads (txs.filter fun tx => tx.txHash ∈ fetched maxRefTxs rows)) input =
          resolvedValue (ownOutputs loads store input) input :=
      fun input inside => resolvedValue_own readable.toReadInFull member (listed input inside)
    have present : row.txHash ∈ (rows.filter fun row => row.rawData.present).map Row.txHash := by
      apply List.mem_map_of_mem
      exact List.mem_filter.mpr ⟨member, by rw [payload]; rfl⟩
    have quiet : ∀ input ∈ inputs, raises (match store.transactions with
        | none => []
        | some txs => readOutputs loads (txs.filter fun tx => tx.txHash ∈ fetched maxRefTxs rows)) input = false := by
      intro input inside
      rw [raises, same input inside]
      exact readable.values row member input (listed input inside)
    simp only [patchInputs_quiet 0 quiet, Nat.zero_add, Prod.mk.injEq, and_true, Row.mk.injEq, true_and,
      RawData.payload.injEq]
    apply List.ext_getElem
    · simp only [List.length_mapIdx]
    · intro index here _
      rw [List.length_mapIdx] at here
      simp only [List.getElem_mapIdx, patchInput, same _ (List.getElem_mem here), stored, Option.getD_some]
      rw [storedAddress_filter, storedAddress_filter]
      · exact fun stored same => decide_eq_true same
      · exact fun stored same => decide_eq_true (same ▸ present)

private theorem present_of_referenced {rows : List Row} {txHash : String} (referenced : txHash ∈ refTxHashes rows) :
    (rows.filter fun row => row.rawData.present).map Row.txHash ≠ [] := by
  obtain ⟨row, member, input, inside, _⟩ := mem_refTxHashes.mp referenced
  have present : row.rawData.present = true := by
    cases payload : row.rawData with
    | missing | other => rw [payload] at inside; cases inside
    | payload inputs => rfl
  exact List.ne_nil_of_mem (List.mem_map_of_mem (List.mem_filter.mpr ⟨member, present⟩))

private theorem absent_of_empty {rows : List Row} {row : Row}
    (empty : (rows.filter fun row => row.rawData.present).map Row.txHash = []) (member : row ∈ rows) :
    row.rawData = .missing := by
  rw [List.map_eq_nil_iff, List.filter_eq_nil_iff] at empty
  have absent := empty row member
  cases payload : row.rawData with
  | missing => rfl
  | other | payload => exact absurd (by rw [payload]; rfl) absent

/-- A row that is read in full is owed nothing but its own resolution. -/
private theorem not_unread {maxRefTxs : Nat} {store : Store} {rows : List Row} {row : Row}
    (readable : ReadInFull loads maxRefTxs store rows) (member : row ∈ rows) :
    ¬ Unread loads maxRefTxs store rows row := by
  rintro ⟨txHash, referenced, unread⟩
  obtain ⟨input, inside, reference⟩ := List.mem_filterMap.mp referenced
  have known := mem_refTxHashes.mpr ⟨row, member, input, inside, reference⟩
  rcases unread with failed | left | ⟨tx, own, bad⟩
  · exact readable.read (List.ne_nil_of_mem known) failed
  · rw [fetched_of_few readable.few] at left
    exact left known
  · exact readable.payloads txHash known tx own bad

/-- Where no row has an unread reference the batch is read in full. -/
private theorem readInFull_of_read {maxRefTxs : Nat} {store : Store} {rows : List Row}
    (read : ∀ row ∈ rows, ¬ Unread loads maxRefTxs store rows row) : ReadInFull loads maxRefTxs store rows := by
  have reads : ∀ txHash ∈ refTxHashes rows, ¬ (store.transactions = none ∨ txHash ∉ fetched maxRefTxs rows ∨
      ∃ tx ∈ store.own txHash, outputsOf loads tx.rawData = none) := by
    intro txHash known unread
    obtain ⟨row, member, input, inside, reference⟩ := mem_refTxHashes.mp known
    exact read row member ⟨txHash, List.mem_filterMap.mpr ⟨input, inside, reference⟩, unread⟩
  have few : (refTxHashes rows).length ≤ maxRefTxs := by
    by_contra many
    obtain ⟨txHash, known, left⟩ := exists_not_fetched (Nat.lt_of_not_le many)
    exact reads txHash known (.inr (.inl left))
  have answered : refTxHashes rows ≠ [] → store.transactions ≠ none := by
    intro some failed
    obtain ⟨txHash, known⟩ := List.exists_mem_of_ne_nil _ some
    exact reads txHash known (.inl failed)
  exact ⟨few, answered, fun txHash known tx own bad => reads txHash known (.inr (.inr ⟨tx, own, bad⟩))⟩

/-- The rows of a batch are resolved in isolation exactly if the read of their own inputs fails,
so that all are marked, or every reference of the batch can be read. -/
theorem isolated_iff (maxRefTxs : Nat) (store : Store) (rows : List Row) :
    Isolated loads maxRefTxs store rows ↔
      store.transactionInputs = none ∨ Readable loads maxRefTxs store rows := by
  unfold Isolated enrichInputs
  by_cases empty : (rows.filter fun row => row.rawData.present).map Row.txHash = []
  · have none : refTxHashes rows = [] := by
      by_contra some
      obtain ⟨txHash, known⟩ := List.exists_mem_of_ne_nil _ some
      exact present_of_referenced known empty
    have readable : Readable loads maxRefTxs store rows := by
      refine ⟨⟨by simp [none], fun some => absurd none some, by simp [none]⟩, fun row member input inside => ?_⟩
      rw [absent_of_empty empty member] at inside
      cases inside
    simp only [empty, if_true, true_and, List.forall₂_map_right_iff, List.forall₂_same]
    refine iff_of_true (fun row member => ⟨.inl ?_, fun unread => absurd unread ?_⟩) (.inr readable)
    · rw [alone, absent_of_empty empty member]
    · exact not_unread loads readable.toReadInFull member
  · rw [if_neg empty]
    cases stored : store.transactionInputs with
    | none =>
      simp only [true_or, iff_true, true_and, List.forall₂_map_right_iff, List.forall₂_same]
      exact fun row _ => ⟨.inr ⟨rfl, List.cons_ne_nil _ _⟩, fun _ => List.cons_ne_nil _ _⟩
    | some inputRows =>
      simp only [reduceCtorEq, false_or, List.forall₂_map_right_iff]
      constructor
      · rintro ⟨returns, owed⟩
        have full : ReadInFull loads maxRefTxs store rows := by
          refine readInFull_of_read loads fun row member unread => ?_
          obtain ⟨index, bound, rfl⟩ := List.mem_iff_getElem.mp member
          obtain ⟨same, each⟩ := List.forall₂_iff_get.mp owed
          exact (each index bound (same ▸ bound)).2 unread rfl
        refine ⟨full, fun row member input inside => ?_⟩
        rw [raises, ← resolvedValue_own full member inside]
        exact patchRows_raised returns row member input inside
      · intro readable
        have quiet := patchRows_quiet fun row member => patchRow_readable loads stored readable member
        simp only [quiet, true_and, List.forall₂_map_right_iff, List.forall₂_same]
        exact fun row member => ⟨.inl rfl, fun unread => absurd unread (not_unread loads readable.toReadInFull member)⟩

/-- A payload that was stored empty for its size cuts the loop short: the transaction after it
gives the second row no value, and neither row is marked. -/
theorem not_isolated_after_an_empty_payload :
    ¬ Isolated
      (fun text => if text = "" then none
        else some (.dict [("outputs", .list [.dict [("value", .int 5000000)]])]))
      2000
      ⟨some [], some [⟨"large", ""⟩, ⟨"small", "\x7b\"outputs\": [\x7b\"value\": 5000000\x7d]\x7d"⟩]⟩
      [⟨"spends-large", .payload [⟨some "large", some 0, none, none⟩]⟩,
        ⟨"spends-small", .payload [⟨some "small", some 0, none, none⟩]⟩] := by
  rintro ⟨-, owed⟩
  obtain ⟨alike | ⟨-, marked⟩, -⟩ := (List.forall₂_iff_get.mp owed).2 1 (by decide) (by decide)
  · have value := congrArg (fun row : Row => row.rawData.inputs.map fun input => input.value.isSome) alike
    exact absurd value (by decide)
  · exact marked rfl

end TransactionMonitoring.References
