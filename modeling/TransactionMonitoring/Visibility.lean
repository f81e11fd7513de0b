import TransactionMonitoring.Runs
import TransactionMonitoring.Warehouse

/-! The ingester's batch INSERTs against the engine's polls.

`insert_transactions_batch` writes `transactions`, `transaction_inputs` and
`transaction_outputs` as three statements with no transaction around them.  Any of
them may raise, before or after its effect, and the caller may run the whole batch
again or give up; several writers are under way at once.  The poll lets a transaction
through on the strength of its input rows alone.

Each batch remembers which of its statements have ever taken effect.  The invariant
is that the tables hold exactly what those statements wrote, so a poll can be judged
by the progress of the batches.
-/
namespace TransactionMonitoring.Visibility
open Warehouse Faults

/-- The statement a batch is about to send. -/
inductive Phase where
  | transactions
  | inputs
  | outputs
  | returned
  | raised
deriving DecidableEq, Repr

/-- One call of `insert_transactions_batch`, its retries included. -/
structure Batch where
  txs : List NormalizedTransaction
  phase : Phase
  transactionsLanded : Bool
  inputsLanded : Bool
  outputsLanded : Bool
deriving DecidableEq, Repr

/-- The warehouse and every batch that was ever begun. -/
structure State where
  tables : Tables
  batches : List Batch
deriving DecidableEq, Repr

def State.initial : State := ⟨Tables.empty, []⟩

inductive Event where
  /-- A writer calls `insert_transactions_batch`. -/
  | start (txs : List NormalizedTransaction)
  /-- Its next INSERT is sent. -/
  | insert (batch : Nat) (outcome : Outcome)
  /-- The caller runs a batch that raised again from its first INSERT. -/
  | retry (batch : Nat)
  /-- The engine persists score rows. -/
  | score (rows : List ScoreRow)
  /-- The engine polls; the read changes nothing. -/
  | poll
deriving DecidableEq, Repr

/-- The phase after an INSERT: the next one if it returned, `raised` otherwise. -/
def advance (next : Phase) (outcome : Outcome) : Phase :=
  if outcome.returns then next else .raised

/-- The next INSERT of one batch.  An empty child list sends no statement. -/
def insertStep (maxBytes : Nat) (tables : Tables) (batch : Batch) (outcome : Outcome) :
    Option (Tables × Batch) :=
  match batch.phase with
  | .transactions =>
      if outcome.applies then
        some ({ tables with transactions := tables.transactions ++ batch.txs.map (txRow maxBytes) },
          { batch with phase := advance .inputs outcome, transactionsLanded := true })
      else some (tables, { batch with phase := .raised })
  | .inputs =>
      if batch.txs.flatMap inputRows = [] then some (tables, { batch with phase := .outputs })
      else if outcome.applies then
        some ({ tables with
            transactionInputs := tables.transactionInputs ++ batch.txs.flatMap inputRows },
          { batch with phase := advance .outputs outcome, inputsLanded := true })
      else some (tables, { batch with phase := .raised })
  | .outputs =>
      if batch.txs.flatMap outputRows = [] then some (tables, { batch with phase := .returned })
      else if outcome.applies then
        some ({ tables with
            transactionOutputs := tables.transactionOutputs ++ batch.txs.flatMap outputRows },
          { batch with phase := advance .returned outcome, outputsLanded := true })
      else some (tables, { batch with phase := .raised })
  | .returned | .raised => none

/-- One step of the writers and the engine. -/
def step (maxBytes : Nat) (state : State) : Event → Option State
  | .start txs => some { state with batches := state.batches ++ [⟨txs, .transactions, false, false, false⟩] }
  | .insert index outcome => do
      let batch ← state.batches[index]?
      let (tables, batch) ← insertStep maxBytes state.tables batch outcome
      some ⟨tables, state.batches.set index batch⟩
  | .retry index => do
      let batch ← state.batches[index]?
      if batch.phase = .raised then
        some { state with batches := state.batches.set index { batch with phase := .transactions } }
      else none
  | .score rows =>
      some { state with tables :=
        { state.tables with txClassScores := state.tables.txClassScores ++ rows } }
  | .poll => some state

/-! ## The tables are what the landed statements wrote -/

/-- The tables hold exactly the rows of the statements that took effect. -/
structure Written (maxBytes : Nat) (state : State) : Prop where
  transactions : ∀ row, row ∈ state.tables.transactions ↔
    ∃ batch ∈ state.batches, batch.transactionsLanded = true ∧
      row ∈ batch.txs.map (txRow maxBytes)
  inputs : ∀ row, row ∈ state.tables.transactionInputs ↔
    ∃ batch ∈ state.batches, batch.inputsLanded = true ∧ row ∈ batch.txs.flatMap inputRows
  outputs : ∀ row, row ∈ state.tables.transactionOutputs ↔
    ∃ batch ∈ state.batches, batch.outputsLanded = true ∧ row ∈ batch.txs.flatMap outputRows

private theorem written_initial (maxBytes : Nat) : Written maxBytes State.initial := by
  constructor <;> simp [State.initial, Tables.empty]

/-- A batch as `insertStep` leaves it: same transactions, and each table either as it
was or with the batch's rows appended and the statement marked as landed. -/
private structure Moved (maxBytes : Nat) (before after : Tables) (old new : Batch) : Prop where
  txs : new.txs = old.txs
  transactions : after.transactions = before.transactions ∧
      new.transactionsLanded = old.transactionsLanded ∨
    after.transactions = before.transactions ++ old.txs.map (txRow maxBytes) ∧
      new.transactionsLanded = true
  inputs : after.transactionInputs = before.transactionInputs ∧ new.inputsLanded = old.inputsLanded ∨
    after.transactionInputs = before.transactionInputs ++ old.txs.flatMap inputRows ∧
      new.inputsLanded = true
  outputs : after.transactionOutputs = before.transactionOutputs ∧
      new.outputsLanded = old.outputsLanded ∨
    after.transactionOutputs = before.transactionOutputs ++ old.txs.flatMap outputRows ∧
      new.outputsLanded = true

private theorem insertStep_moved {maxBytes : Nat} {before after : Tables} {old new : Batch}
    {outcome : Outcome} (stepped : insertStep maxBytes before old outcome = some (after, new)) :
    Moved maxBytes before after old new := by
  unfold insertStep at stepped
  cases phase : old.phase with
  | transactions =>
    simp only [phase] at stepped
    split at stepped <;> obtain ⟨rfl, rfl⟩ := stepped <;> constructor <;> simp
  | inputs =>
    simp only [phase] at stepped
    split at stepped
    · obtain ⟨rfl, rfl⟩ := stepped
      constructor <;> simp
    · split at stepped <;> obtain ⟨rfl, rfl⟩ := stepped <;> constructor <;> simp
  | outputs =>
    simp only [phase] at stepped
    split at stepped
    · obtain ⟨rfl, rfl⟩ := stepped
      constructor <;> simp
    · split at stepped <;> obtain ⟨rfl, rfl⟩ := stepped <;> constructor <;> simp
  | returned => simp [phase] at stepped
  | raised => simp [phase] at stepped

/-- One table under one statement of one batch. -/
private theorem written_table {ρ : Type} {before after : List ρ} {batches : List Batch} {index : Nat}
    {old new : Batch} {landed : Batch → Bool} {rowsOf : List NormalizedTransaction → List ρ}
    (found : batches[index]? = some old) (same : new.txs = old.txs)
    (moved : after = before ∧ landed new = landed old ∨
      after = before ++ rowsOf old.txs ∧ landed new = true)
    (written : ∀ row, row ∈ before ↔ ∃ batch ∈ batches, landed batch = true ∧ row ∈ rowsOf batch.txs)
    (row : ρ) : row ∈ after ↔
      ∃ batch ∈ batches.set index new, landed batch = true ∧ row ∈ rowsOf batch.txs := by
  have gains : landed old = true ∧ row ∈ rowsOf old.txs → landed new = true ∧ row ∈ rowsOf new.txs := by
    rintro ⟨done, member⟩
    rw [same]
    rcases moved with ⟨_, kept⟩ | ⟨_, now⟩
    · exact ⟨kept.trans done, member⟩
    · exact ⟨now, member⟩
  rw [Runs.exists_mem_set_iff found gains, same]
  rcases moved with ⟨rfl, kept⟩ | ⟨rfl, now⟩
  · rw [written, kept]
    constructor
    · exact Or.inl
    · rintro (earlier | ⟨done, member⟩)
      · exact earlier
      · exact ⟨old, List.mem_of_getElem? found, done, member⟩
  · rw [List.mem_append, written]
    simp [now]

private theorem written_step {maxBytes : Nat} {state next : State} {event : Event}
    (written : Written maxBytes state) (stepped : step maxBytes state event = some next) :
    Written maxBytes next := by
  cases event with
  | start txs =>
    obtain rfl : _ = next := by simpa [step] using stepped
    constructor
    · intro row
      simp [written.transactions row]
    · intro row
      simp [written.inputs row]
    · intro row
      simp [written.outputs row]
  | insert index outcome =>
    simp only [step, Option.bind_eq_bind, Option.bind_eq_some_iff] at stepped
    obtain ⟨old, found, ⟨tables, new⟩, inserted, shape⟩ := stepped
    obtain rfl : _ = next := by simpa using shape
    have moved := insertStep_moved inserted
    exact ⟨written_table found moved.txs moved.transactions written.transactions,
      written_table found moved.txs moved.inputs written.inputs,
      written_table found moved.txs moved.outputs written.outputs⟩
  | retry index =>
    simp only [step, Option.bind_eq_bind, Option.bind_eq_some_iff] at stepped
    obtain ⟨old, found, shape⟩ := stepped
    split at shape
    · obtain rfl : _ = next := by simpa using shape
      exact ⟨written_table found rfl (Or.inl ⟨rfl, rfl⟩) written.transactions,
        written_table found rfl (Or.inl ⟨rfl, rfl⟩) written.inputs,
        written_table found rfl (Or.inl ⟨rfl, rfl⟩) written.outputs⟩
    · cases shape
  | score rows =>
    obtain rfl : _ = next := by simpa [step] using stepped
    exact ⟨written.transactions, written.inputs, written.outputs⟩
  | poll =>
    obtain rfl : _ = next := by simpa [step] using stepped
    exact written

private theorem written_of_run {maxBytes : Nat} {events : List Event} {state : State}
    (reached : Runs.run (step maxBytes) State.initial events = some state) :
    Written maxBytes state := by
  exact Runs.invariant (step maxBytes) written_step (written_initial maxBytes) reached

/-! ## When a poll sees whole transactions -/

/-- Every input of the transaction was in an inputs INSERT that took effect. -/
def InputsLanded (state : State) (tx : NormalizedTransaction) : Prop :=
  ∀ row ∈ inputRows tx, ∃ batch ∈ state.batches, batch.inputsLanded = true ∧
    ∃ sent ∈ batch.txs.flatMap inputRows, sent.txHash = row.txHash ∧ sent.inputIndex = row.inputIndex

/-- Every output of the transaction was in an outputs INSERT that took effect. -/
def OutputsLanded (state : State) (tx : NormalizedTransaction) : Prop :=
  ∀ row ∈ outputRows tx, ∃ batch ∈ state.batches, batch.outputsLanded = true ∧
    ∃ sent ∈ batch.txs.flatMap outputRows,
      sent.txHash = row.txHash ∧ sent.outputIndex = row.outputIndex

/-- The transaction is not below the bound, and has not been scored within it. -/
def Due (state : State) (since : Option Nat) (tx : NormalizedTransaction) : Prop :=
  (∀ bound ∈ since, bound ≤ tx.ingestionTimestamp) ∧
    ∀ score ∈ state.tables.txClassScores, score.txHash = tx.txHash → ∃ bound ∈ since, score.analyzedAt < bound

/-- The window opens with an inputs INSERT that took effect, and where the transaction consumes
nothing already with the transactions INSERT. -/
def Opened (state : State) (since : Option Nat) (tx : NormalizedTransaction) : Prop :=
  tx.inputCount = 0 ∨ ∃ batch ∈ state.batches, batch.inputsLanded = true ∧ ∃ sent ∈ batch.txs,
    sent.txHash = tx.txHash ∧ sent.inputs ≠ [] ∧ ∀ bound ∈ since, bound ≤ sent.ingestionTimestamp

/-- It closes with the outputs INSERT, and where nothing is consumed not before the inputs INSERT. -/
def Closed (state : State) (tx : NormalizedTransaction) : Prop :=
  InputsLanded state tx ∧ OutputsLanded state tx

/-- No batch whose transactions INSERT took effect stands in the window of one of its transactions. -/
def NoTornBatch (state : State) (since : Option Nat) : Prop :=
  ∀ batch ∈ state.batches, batch.transactionsLanded = true → ∀ tx ∈ batch.txs,
    Due state since tx → Opened state since tx → Closed state tx

/-- Every transaction a poll can return has all of its child rows visible. -/
def PollsComplete (maxBytes : Nat) (state : State) (since : Option Nat) : Prop :=
  ∀ order batchSize, PollOrder state.tables since order →
    ∀ batch ∈ state.batches, batch.transactionsLanded = true → ∀ tx ∈ batch.txs,
      txRow maxBytes tx ∈ getUnanalyzedTransactions order batchSize → Complete state.tables tx

/-- Visible child rows are the rows of landed statements. -/
private theorem complete_iff_landed {maxBytes : Nat} {state : State} (written : Written maxBytes state)
    (tx : NormalizedTransaction) :
    Complete state.tables tx ↔ InputsLanded state tx ∧ OutputsLanded state tx := by
  unfold Complete InputsLanded OutputsLanded
  simp only [written.inputs, written.outputs]
  constructor
  · rintro ⟨inputs, outputs⟩
    refine ⟨fun row member => ?_, fun row member => ?_⟩
    · obtain ⟨stored, ⟨batch, begun, landed, sent⟩, key⟩ := inputs row member
      exact ⟨batch, begun, landed, stored, sent, key⟩
    · obtain ⟨stored, ⟨batch, begun, landed, sent⟩, key⟩ := outputs row member
      exact ⟨batch, begun, landed, stored, sent, key⟩
  · rintro ⟨inputs, outputs⟩
    refine ⟨fun row member => ?_, fun row member => ?_⟩
    · obtain ⟨batch, begun, landed, stored, sent, key⟩ := inputs row member
      exact ⟨stored, ⟨batch, begun, landed, sent⟩, key⟩
    · obtain ⟨batch, begun, landed, stored, sent, key⟩ := outputs row member
      exact ⟨stored, ⟨batch, begun, landed, sent⟩, key⟩

private theorem scoredSince_eq_false_iff {state : State} {since : Option Nat} {txHash : String} :
    scoredSince state.tables since txHash = false ↔
      ∀ score ∈ state.tables.txClassScores, score.txHash = txHash → ∃ bound ∈ since, score.analyzedAt < bound := by
  unfold scoredSince
  simp only [List.any_eq_false, Bool.and_eq_true, decide_eq_true_eq, not_and, not_forall, Nat.not_le, exists_prop]

/-- The rows of an inputs INSERT are those of its transactions that have inputs. -/
private theorem mem_inputs_iff {txs : List NormalizedTransaction} {txHash : String} {since : Option Nat} :
    (∃ row ∈ txs.flatMap inputRows, row.txHash = txHash ∧ ∀ bound ∈ since, bound ≤ row.ingestionTimestamp) ↔
      ∃ sent ∈ txs, sent.txHash = txHash ∧ sent.inputs ≠ [] ∧ ∀ bound ∈ since, bound ≤ sent.ingestionTimestamp := by
  constructor
  · rintro ⟨row, member, same, recent⟩
    obtain ⟨sent, among, own⟩ := List.mem_flatMap.mp member
    obtain ⟨idx, below, rfl⟩ := List.mem_mapIdx.mp own
    exact ⟨sent, among, same, List.ne_nil_of_length_pos (Nat.lt_of_le_of_lt (Nat.zero_le _) below), recent⟩
  · rintro ⟨sent, among, same, some_, recent⟩
    obtain ⟨first, rest, shape⟩ := List.exists_cons_of_ne_nil some_
    refine ⟨_, List.mem_flatMap.mpr ⟨sent, among, List.mem_mapIdx.mpr ⟨0, ?_, rfl⟩⟩, same, recent⟩
    exact List.length_pos_iff.mpr some_

/-- The poll's witness is an inputs INSERT that took effect, its bound and its anti-join are the scores. -/
private theorem pollAdmits_iff {maxBytes : Nat} {state : State} (written : Written maxBytes state)
    (since : Option Nat) (tx : NormalizedTransaction) :
    pollAdmits state.tables since (txRow maxBytes tx) = true ↔ Due state since tx ∧ Opened state since tx := by
  have witness : inputsVisible state.tables since (txRow maxBytes tx) = true ↔ Opened state since tx := by
    unfold inputsVisible Opened
    rw [Bool.or_eq_true, decide_eq_true_eq, List.any_eq_true]
    refine or_congr Iff.rfl ?_
    simp only [written.inputs, Bool.and_eq_true, decide_eq_true_eq]
    constructor
    · rintro ⟨row, ⟨batch, begun, landed, member⟩, same, recent⟩
      exact ⟨batch, begun, landed, mem_inputs_iff.mp ⟨row, member, same, recent⟩⟩
    · rintro ⟨batch, begun, landed, sent⟩
      obtain ⟨row, member, same, recent⟩ := mem_inputs_iff.mpr sent
      exact ⟨row, ⟨batch, begun, landed, member⟩, same, recent⟩
  unfold pollAdmits
  rw [Bool.and_eq_true, Bool.and_eq_true, Bool.not_eq_true', decide_eq_true_eq, witness]
  constructor
  · rintro ⟨⟨unscored, recent⟩, opened⟩
    exact ⟨⟨recent, scoredSince_eq_false_iff.mp unscored⟩, opened⟩
  · rintro ⟨⟨recent, unscored⟩, opened⟩
    exact ⟨⟨scoredSince_eq_false_iff.mpr unscored, recent⟩, opened⟩

/-- **Visibility, exactly.**  In every reachable state the polls return only whole
transactions if and only if no batch stands between its INSERTs: the poll witnesses the
inputs only, so the window opens at the inputs INSERT (at the transactions INSERT when
`input_count` is zero) and closes with the outputs INSERT. -/
theorem polls_complete_iff {maxBytes : Nat} {events : List Event} {state : State}
    (reached : Runs.run (step maxBytes) State.initial events = some state) (since : Option Nat) :
    PollsComplete maxBytes state since ↔ NoTornBatch state since := by
  have written := written_of_run reached
  constructor
  · intro complete batch begun landed tx member due opened
    obtain ⟨order, ordered⟩ := PollOrder.exists state.tables since
    refine (complete_iff_landed written tx).mp
      (complete order order.length ordered batch begun landed tx member ?_)
    rw [getUnanalyzedTransactions, List.take_length, ordered.mem_iff, written.transactions]
    exact ⟨⟨batch, begun, landed, List.mem_map_of_mem member⟩, (pollAdmits_iff written since tx).mpr ⟨due, opened⟩⟩
  · intro whole order batchSize ordered batch begun landed tx member polled
    have admitted := ((ordered.mem_iff _).mp (List.mem_of_mem_take polled)).2
    obtain ⟨due, opened⟩ := (pollAdmits_iff written since tx).mp admitted
    exact (complete_iff_landed written tx).mpr (whole batch begun landed tx member due opened)

private def sampleTx : NormalizedTransaction where
  txHash := "aa01"
  slot := some 100
  inputs := [⟨"ff00", 0, "addr_sender", 7, false, false, false⟩]
  outputs := [⟨"addr_receiver", 5, false, none⟩]
  inputCount := 1
  rawData := none
  ingestionTimestamp := 1000

/-- The transactions INSERT and the inputs INSERT have returned, the outputs INSERT has
not been sent. -/
private def tornRun : List Event := [.start [sampleTx], .insert 0 .answered, .insert 0 .answered]

private def tornState : State where
  tables := ⟨[txRow 0 sampleTx], inputRows sampleTx, [], []⟩
  batches := [⟨[sampleTx], .outputs, true, true, false⟩]

theorem polls_complete_iff_torn_run :
    Runs.run (step 0) State.initial tornRun = some tornState ∧
      (PollsComplete 0 tornState none ↔ NoTornBatch tornState none) :=
  ⟨by decide, @polls_complete_iff 0 tornRun tornState (by decide) none⟩

/-- A poll between the inputs INSERT and the outputs INSERT returns a transaction none
of whose outputs can be read. -/
theorem poll_returns_tx_without_outputs :
    ¬ ∀ (maxBytes : Nat) (events : List Event) (state : State) (since : Option Nat),
      Runs.run (step maxBytes) State.initial events = some state →
        PollsComplete maxBytes state since := by
  intro complete
  have whole := complete 0 tornRun tornState none (by decide) [txRow 0 sampleTx] 100
    ⟨by decide, by decide⟩ ⟨[sampleTx], .outputs, true, true, false⟩ (by decide) (by decide)
    sampleTx (by decide) (by decide)
  exact absurd whole (by decide)

end TransactionMonitoring.Visibility
