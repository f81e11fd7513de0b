import TransactionMonitoring.Runs

/-! The lifecycle rows of transactions.

`tx_lifecycle` has one row per transaction, written from three places: the mempool inserts a
pending row, a block upserts a confirmed one, and rollbacks and the housekeeping task mark
rows in place.  Each statement sets some of the columns and leaves the others.

Times are in milliseconds; `now` is what `CURRENT_TIMESTAMP` gives the statement.
-/
namespace TransactionMonitoring.Lifecycle

inductive Status where
  | pending
  | confirmed
  | rolledBack
  | dropped
deriving DecidableEq, Repr

/-- A row of `tx_lifecycle`. -/
structure Row where
  txId : String
  network : String
  status : Status
  firstSeenAt : Option Int
  confirmedAt : Option Int
  rolledBackAt : Option Int
  droppedAt : Option Int
  blockHash : Option String
  slot : Option Nat
  height : Option Nat
  latencyMs : Option Int
  updatedAt : Int
deriving DecidableEq, Repr

/-- What a confirmed upsert is given. -/
structure Confirmation where
  txId : String
  network : String
  confirmedAt : Int
  blockHash : String
  slot : Nat
  height : Nat
deriving DecidableEq, Repr

/-! ## The statements -/

/-- `upsert_lifecycle_pending`: an existing row stays as it is. -/
def upsertLifecyclePending (now : Int) (txId network : String) (firstSeenAt : Int) (rows : List Row) :
    List Row :=
  if rows.any (fun row => row.txId = txId) then rows
  else rows ++ [⟨txId, network, .pending, some firstSeenAt, none, none, none, none, none, none, none, now⟩]

/-- The `DO UPDATE` of a confirmed upsert. -/
def Row.confirm (now : Int) (confirmation : Confirmation) (row : Row) : Row :=
  { row with
    status := .confirmed
    confirmedAt := some confirmation.confirmedAt
    blockHash := some confirmation.blockHash
    slot := some confirmation.slot
    height := some confirmation.height
    rolledBackAt := none
    latencyMs := row.firstSeenAt.map (confirmation.confirmedAt - ·)
    updatedAt := now }

/-- `upsert_lifecycle_confirmed`. -/
def upsertLifecycleConfirmed (now : Int) (rows : List Row) (confirmation : Confirmation) : List Row :=
  if rows.any (fun row => row.txId = confirmation.txId) then
    rows.map fun row => if row.txId = confirmation.txId then row.confirm now confirmation else row
  else
    rows ++ [⟨confirmation.txId, confirmation.network, .confirmed, none, some confirmation.confirmedAt, none,
      none, some confirmation.blockHash, some confirmation.slot, some confirmation.height, none, now⟩]

/-- `batch_upsert_lifecycle_confirmed`: the same statement for each record in turn. -/
def batchUpsertLifecycleConfirmed (now : Int) (records : List Confirmation) (rows : List Row) : List Row :=
  records.foldl (upsertLifecycleConfirmed now) rows

/-- `mark_lifecycle_rolled_back`. -/
def markLifecycleRolledBack (now : Int) (rollbackSlot : Nat) (network : String) (rows : List Row) : List Row :=
  rows.map fun row =>
    if row.network = network ∧ (∃ slot ∈ row.slot, rollbackSlot < slot) ∧ row.status = .confirmed then
      { row with status := .rolledBack, rolledBackAt := some now, updatedAt := now }
    else row

/-- `mark_dropped_pending_txs`. -/
def markDroppedPendingTxs (now : Int) (network : String) (olderThanSeconds : Int) (rows : List Row) :
    List Row :=
  rows.map fun row =>
    if row.network = network ∧ row.status = .pending ∧
        ∃ seen ∈ row.firstSeenAt, seen < now - olderThanSeconds * 1000 then
      { row with status := .dropped, droppedAt := some now, updatedAt := now }
    else row

/-- `prune_terminal_lifecycle`. -/
def pruneTerminalLifecycle (now : Int) (network : String) (olderThanDays : Int) (rows : List Row) : List Row :=
  rows.filter fun row => ¬ (row.network = network ∧ (row.status = .dropped ∨ row.status = .rolledBack) ∧
    row.updatedAt < now - olderThanDays * 86400000)

inductive Event where
  | pending (txId network : String) (firstSeenAt : Int)
  | confirmed (confirmation : Confirmation)
  | confirmedBatch (records : List Confirmation)
  | rollBack (rollbackSlot : Nat) (network : String)
  | dropStale (network : String) (olderThanSeconds : Int)
  | prune (network : String) (olderThanDays : Int)
deriving DecidableEq, Repr

def execute (now : Int) (rows : List Row) : Event → List Row
  | .pending txId network firstSeenAt => upsertLifecyclePending now txId network firstSeenAt rows
  | .confirmed confirmation => upsertLifecycleConfirmed now rows confirmation
  | .confirmedBatch records => batchUpsertLifecycleConfirmed now records rows
  | .rollBack rollbackSlot network => markLifecycleRolledBack now rollbackSlot network rows
  | .dropStale network olderThanSeconds => markDroppedPendingTxs now network olderThanSeconds rows
  | .prune network olderThanDays => pruneTerminalLifecycle now network olderThanDays rows

/-- One statement, run at some time. -/
def step (rows : List Row) (event : Int × Event) : Option (List Row) := some (execute event.1 rows event.2)

/-! ## The shape of a row -/

/-- Which columns the status of a row determines. -/
def Row.Shaped (row : Row) : Prop :=
  (row.status = .confirmed → row.rolledBackAt = none ∧ row.droppedAt = none ∧ row.blockHash.isSome ∧
    row.slot.isSome ∧ row.confirmedAt.isSome) ∧
  (row.status = .rolledBack → row.rolledBackAt.isSome) ∧
  (row.status = .dropped → row.droppedAt.isSome) ∧
  (row.status = .pending → row.rolledBackAt = none ∧ row.droppedAt = none)

instance (row : Row) : Decidable row.Shaped :=
  inferInstanceAs (Decidable (_ ∧ _ ∧ _ ∧ _))

def Shaped (rows : List Row) : Prop := ∀ row ∈ rows, row.Shaped

/-- The transaction has not been marked as dropped. -/
def Undropped (confirmation : Confirmation) (rows : List Row) : Prop :=
  ∀ row ∈ rows, row.txId = confirmation.txId → row.droppedAt = none

/-- No transaction that was marked as dropped is confirmed. -/
def ConfirmsUndropped (rows : List Row) : Int × Event → Prop
  | (_, .confirmed confirmation) => Undropped confirmation rows
  | (_, .confirmedBatch records) => ∀ confirmation ∈ records, Undropped confirmation rows
  | _ => True

section
variable {now : Int} {rows : List Row} {confirmation : Confirmation}

/-- A confirmed row has every column the shape asks for, but keeps `dropped_at`. -/
private theorem confirm_shaped_iff {row : Row} :
    (row.confirm now confirmation).Shaped ↔ row.droppedAt = none := by
  simp [Row.Shaped, Row.confirm]

private theorem upsert_shaped_iff (shaped : Shaped rows) :
    Shaped (upsertLifecycleConfirmed now rows confirmation) ↔ Undropped confirmation rows := by
  unfold upsertLifecycleConfirmed
  split
  · constructor
    · intro after row member same
      have updated := after _ (List.mem_map_of_mem (f := fun row =>
        if row.txId = confirmation.txId then row.confirm now confirmation else row) member)
      simp only [same, if_true] at updated
      exact confirm_shaped_iff.mp updated
    · intro clear other member
      obtain ⟨row, inRows, rfl⟩ := List.mem_map.mp member
      split
      · rename_i same
        exact confirm_shaped_iff.mpr (clear row inRows same)
      · exact shaped row inRows
  · rename_i absent
    constructor
    · intro _ row member same
      exact absurd (List.any_eq_true.mpr ⟨row, member, decide_eq_true same⟩) absent
    · intro _ row member
      rcases List.mem_append.mp member with old | new
      · exact shaped row old
      · obtain rfl := List.mem_singleton.mp new
        simp [Row.Shaped]

/-- Confirming one transaction leaves `dropped_at` of every row as it is. -/
private theorem undropped_upsert_iff {other : Confirmation} :
    Undropped other (upsertLifecycleConfirmed now rows confirmation) ↔ Undropped other rows := by
  unfold upsertLifecycleConfirmed
  split
  · constructor
    · intro after row member same
      have updated := after _ (List.mem_map_of_mem (f := fun row =>
        if row.txId = confirmation.txId then row.confirm now confirmation else row) member)
      split_ifs at updated
      · exact updated same
      · exact updated same
    · intro clear moved member same
      obtain ⟨row, inRows, rfl⟩ := List.mem_map.mp member
      split_ifs at same ⊢
      · exact clear row inRows same
      · exact clear row inRows same
  · constructor
    · exact fun after row member same => after row (List.mem_append_left _ member) same
    · intro clear row member same
      rcases List.mem_append.mp member with old | new
      · exact clear row old same
      · obtain rfl := List.mem_singleton.mp new
        rfl

/-- Some row is confirmed although it was dropped. -/
def Spoiled (rows : List Row) : Prop := ∃ row ∈ rows, row.status = .confirmed ∧ row.droppedAt ≠ none

private theorem Spoiled.not_shaped (spoiled : Spoiled rows) : ¬ Shaped rows := by
  obtain ⟨row, member, confirmed, dropped⟩ := spoiled
  intro shaped
  exact dropped ((shaped row member).1 confirmed).2.1

private theorem Spoiled.upsert (spoiled : Spoiled rows) :
    Spoiled (upsertLifecycleConfirmed now rows confirmation) := by
  obtain ⟨row, member, confirmed, dropped⟩ := spoiled
  unfold upsertLifecycleConfirmed
  split
  · refine ⟨_, List.mem_map_of_mem member, ?_⟩
    split
    · exact ⟨rfl, dropped⟩
    · exact ⟨confirmed, dropped⟩
  · exact ⟨row, List.mem_append_left _ member, confirmed, dropped⟩

private theorem spoiled_of_dropped (dropped : ¬ Undropped confirmation rows) :
    Spoiled (upsertLifecycleConfirmed now rows confirmation) := by
  simp only [Undropped, not_forall] at dropped
  obtain ⟨row, member, same, dropped⟩ := dropped
  unfold upsertLifecycleConfirmed
  rw [if_pos (List.any_eq_true.mpr ⟨row, member, decide_eq_true same⟩)]
  refine ⟨_, List.mem_map_of_mem member, ?_⟩
  rw [if_pos same]
  exact ⟨rfl, dropped⟩

private theorem batch_shaped_iff {records : List Confirmation} (shaped : Shaped rows) :
    Shaped (batchUpsertLifecycleConfirmed now records rows) ↔
      ∀ confirmation ∈ records, Undropped confirmation rows := by
  unfold batchUpsertLifecycleConfirmed
  induction records generalizing rows with
  | nil => simpa using shaped
  | cons first rest ih =>
    rw [List.foldl_cons, List.forall_mem_cons]
    by_cases clear : Undropped first rows
    · rw [ih ((upsert_shaped_iff shaped).mpr clear)]
      simp only [undropped_upsert_iff, clear, true_and]
    · -- a spoiled row stays so to the end of the batch
      have spoiled : ∀ (records : List Confirmation) (rows : List Row), Spoiled rows →
          Spoiled (records.foldl (upsertLifecycleConfirmed now) rows) := by
        intro records
        induction records with
        | nil => exact fun _ spoiled => spoiled
        | cons next later ih => exact fun rows spoiled => ih _ spoiled.upsert
      have never := (spoiled rest _ (@spoiled_of_dropped now rows first clear)).not_shaped
      simp [clear, never]

/-- Any other statement keeps the shape: a row it changes gets what its new status asks for. -/
private theorem mark_shaped {mark : Row → Row} (shaped : Shaped rows)
    (kept : ∀ row ∈ rows, row.Shaped → (mark row).Shaped) : Shaped (rows.map mark) := by
  intro other member
  obtain ⟨row, inRows, rfl⟩ := List.mem_map.mp member
  exact kept row inRows (shaped row inRows)

private theorem step_shaped_iff {event : Int × Event} {next : List Row} (shaped : Shaped rows)
    (stepped : step rows event = some next) : Shaped next ↔ ConfirmsUndropped rows event := by
  obtain ⟨now, event⟩ := event
  obtain rfl := Option.some.inj stepped
  cases event with
  | confirmed confirmation => exact upsert_shaped_iff shaped
  | confirmedBatch records => exact batch_shaped_iff shaped
  | pending txId network firstSeenAt =>
    refine iff_of_true ?_ trivial
    simp only [execute, upsertLifecyclePending]
    split
    · exact shaped
    · intro row member
      rcases List.mem_append.mp member with old | new
      · exact shaped row old
      · obtain rfl := List.mem_singleton.mp new
        simp [Row.Shaped]
  | rollBack rollbackSlot network =>
    refine iff_of_true (mark_shaped shaped fun row _ shape => ?_) trivial
    dsimp only
    split
    · simp [Row.Shaped]
    · exact shape
  | dropStale network olderThanSeconds =>
    refine iff_of_true (mark_shaped shaped fun row _ shape => ?_) trivial
    dsimp only
    split
    · simp [Row.Shaped]
    · exact shape
  | prune network olderThanDays =>
    exact iff_of_true (fun row member => shaped row (List.mem_of_mem_filter member)) trivial

end

/-- **The shape of lifecycle rows.**  Every row of every state a run reaches has the columns
its status asks for exactly if the run confirms no transaction that was marked as dropped. -/
theorem lifecycle_rows_shaped_iff (events : List (Int × Event)) :
    Runs.EveryStep step (fun rows event => ∀ next, step rows event = some next → ∀ row ∈ next, row.Shaped)
        [] events ↔
      Runs.EveryStep step ConfirmsUndropped [] events := by
  refine Runs.everyStep_iff step (fun rows event => ⟨_, rfl⟩)
    (fun shaped stepped => step_shaped_iff shaped stepped) ?_
  simp [Shaped]

/-- A transaction waits too long, is dropped, and then turns up in a block. -/
private def confirmedAfterDrop : List (Int × Event) :=
  [(0, .pending "aa01" "preprod" 0), (7200000, .dropStale "preprod" 3600),
    (7300000, .confirmedBatch [⟨"aa01", "preprod", 7300000, "bb01", 42, 7⟩])]

/-- The confirmed row still carries `dropped_at`. -/
theorem confirmed_row_keeps_dropped_at :
    ∃ row, Runs.run step [] confirmedAfterDrop = some [row] ∧ row.status = .confirmed ∧
      row.droppedAt = some 7200000 ∧ ¬ row.Shaped :=
  ⟨⟨"aa01", "preprod", .confirmed, some 0, some 7300000, none, some 7200000, some "bb01", some 42, some 7,
    some 7300000, 7300000⟩, by decide, by decide, by decide, by decide⟩

end TransactionMonitoring.Lifecycle
