import TransactionMonitoring.Lifecycle

/-! The latency of confirmed transactions.

The handler of a block reads the clock first and stamps the confirmed rows with what it read, after
it has resolved inputs and stored the block, with retries.  The mempool loop reads the clock when it
comes upon a transaction and stamps the pending row.  Both wait in between, so a pending row can get
into the table with the later stamp before the block confirms it.

Times are in microseconds here, as the database has them; the latency is rounded to milliseconds.
-/
namespace TransactionMonitoring.Latency

open Lifecycle (Confirmation Row markDroppedPendingTxs markLifecycleRolledBack pruneTerminalLifecycle
  upsertLifecyclePending)
open Runs

/-- A `numeric` of microseconds over 1000, assigned to a `BIGINT`: halves go away from zero. -/
def roundMs (micros : Int) : Int := if 0 ≤ micros then (micros + 500) / 1000 else -((500 - micros) / 1000)

/-- The `DO UPDATE` of a confirmed upsert. -/
def confirm (now : Int) (confirmation : Confirmation) (row : Row) : Row :=
  { row.confirm now confirmation with
    latencyMs := row.firstSeenAt.map fun seen => roundMs (confirmation.confirmedAt - seen) }

/-- The statement of `batch_upsert_lifecycle_confirmed`. -/
def upsertConfirmed (now : Int) (rows : List Row) (confirmation : Confirmation) : List Row :=
  if rows.any (fun row => row.txId = confirmation.txId) then
    rows.map fun row => if row.txId = confirmation.txId then confirm now confirmation row else row
  else
    rows ++ [⟨confirmation.txId, confirmation.network, .confirmed, none, some confirmation.confirmedAt, none,
      none, some confirmation.blockHash, some confirmation.slot, some confirmation.height, none, now⟩]

/-- `batch_upsert_lifecycle_confirmed`. -/
def batchUpsertLifecycleConfirmed (now : Int) (records : List Confirmation) (rows : List Row) : List Row :=
  records.foldl (upsertConfirmed now) rows

structure Settings where
  network : String
  /-- `CLICKHOUSE_INSERT_MAX_RETRIES`. -/
  insertMaxRetries : ℕ

/-- Where the handler of a block waits. -/
inductive Stage where
  | resolving
  | storing
  | inserting (attempt : ℕ)
  | confirming
deriving DecidableEq, Repr

/-- `_handle_roll_forward`, past its clock read. -/
structure Handler where
  now : Int
  txIds : List String
  blockId : String
  slot : ℕ
  height : ℕ
  stage : Stage
deriving DecidableEq, Repr

/-- `confirmed_records`. -/
def Handler.records (handler : Handler) (network : String) : List Confirmation :=
  handler.txIds.map fun txId => ⟨txId, network, handler.now, handler.blockId, handler.slot, handler.height⟩

/-- The mempool loop at a transaction, past its clock read. -/
structure Sighting where
  txId : String
  now : Int
deriving DecidableEq, Repr

structure State where
  clock : Int
  rows : List Row
  handler : Option Handler
  sighting : Option Sighting
deriving DecidableEq, Repr

inductive Event where
  | tick (micros : ℕ)
  /-- The mempool loop comes upon a transaction. -/
  | see (txId : String)
  | insertPending (raised : Bool)
  /-- The session of the mempool loop ends. -/
  | leave
  /-- A block arrives; these of its transactions parse. -/
  | rollForward (txIds : List String) (blockId : String) (slot height : ℕ)
  | resolved
  | stored
  | insertAttempt (raised : Bool)
  | confirmed (raised : Bool)
  /-- The session of the chain sync ends. -/
  | abort
  | rollBack (rollbackSlot : ℕ)
  | dropStale (olderThanSeconds : Int)
  | prune (olderThanDays : Int)
deriving DecidableEq, Repr

/-- The handler goes on to a stage, if it is at another. -/
def State.advance (state : State) (before after : Stage) : Option State :=
  match state.handler with
  | none => none
  | some handler =>
      if handler.stage = before then some { state with handler := some { handler with stage := after } } else none

def step (settings : Settings) (state : State) : Event → Option State
  | .tick micros => some { state with clock := state.clock + micros }
  | .see txId => if state.sighting = none then some { state with sighting := some ⟨txId, state.clock⟩ } else none
  | .insertPending raised =>
      state.sighting.map fun sighting =>
        { state with
          sighting := none
          rows := if raised then state.rows
            else upsertLifecyclePending state.clock sighting.txId settings.network sighting.now state.rows }
  | .leave => some { state with sighting := none }
  | .rollForward txIds blockId slot height =>
      if state.handler = none then
        some { state with
          handler := if txIds = [] then none else some ⟨state.clock, txIds, blockId, slot, height, .resolving⟩ }
      else none
  | .resolved => state.advance .resolving .storing
  | .stored => state.advance .storing (.inserting 1)
  | .insertAttempt raised =>
      match state.handler with
      | some handler =>
          match handler.stage with
          | .inserting attempt =>
              if !raised then some { state with handler := some { handler with stage := .confirming } }
              else if attempt < settings.insertMaxRetries then
                some { state with handler := some { handler with stage := .inserting (attempt + 1) } }
              -- `BlockPersistError`: the block is not settled and comes again.
              else some { state with handler := none }
          | _ => none
      | none => none
  | .confirmed raised =>
      match state.handler with
      | some handler =>
          if handler.stage = .confirming then
            some { state with
              handler := none
              rows := if raised then state.rows
                else batchUpsertLifecycleConfirmed state.clock (handler.records settings.network) state.rows }
          else none
      | none => none
  | .abort => some { state with handler := none }
  | .rollBack rollbackSlot =>
      if state.handler = none then
        some { state with rows := markLifecycleRolledBack state.clock rollbackSlot settings.network state.rows }
      else none
  -- These two count in milliseconds.
  | .dropStale olderThanSeconds =>
      some { state with
        rows := markDroppedPendingTxs state.clock settings.network (olderThanSeconds * 1000) state.rows }
  | .prune olderThanDays =>
      some { state with
        rows := pruneTerminalLifecycle state.clock settings.network (olderThanDays * 1000) state.rows }

/-- No row has a negative latency. -/
def Nonnegative (rows : List Row) : Prop := ∀ row ∈ rows, ∀ latency ∈ row.latencyMs, 0 ≤ latency

/-- No transaction of the records was first seen half a millisecond after `now`, or later. -/
def Earlier (now : Int) (txIds : List String) (rows : List Row) : Prop :=
  ∀ row ∈ rows, row.txId ∈ txIds → ∀ seen ∈ row.firstSeenAt, seen < now + 500

/-- A block that is confirmed finds no row of its transactions that was first seen after the handler read the clock,
by half a millisecond or more. -/
def NoneSeenLater (state : State) : Event → Prop
  | .confirmed false =>
      ∀ handler ∈ state.handler, handler.stage = .confirming → Earlier handler.now handler.txIds state.rows
  | _ => True

section
variable {now stamp : Int} {rows : List Row} {confirmation : Confirmation}

theorem roundMs_nonneg_iff (micros : Int) : 0 ≤ roundMs micros ↔ -500 < micros := by
  unfold roundMs
  split <;> omega

/-! ## One statement -/

theorem upsert_nonnegative (nonnegative : Nonnegative rows)
    (earlier : Earlier confirmation.confirmedAt [confirmation.txId] rows) :
    Nonnegative (upsertConfirmed now rows confirmation) := by
  unfold upsertConfirmed
  split
  · intro other member latency given
    obtain ⟨row, inRows, rfl⟩ := List.mem_map.mp member
    split at given
    · rename_i same
      obtain ⟨seen, first, rfl⟩ := Option.map_eq_some_iff.mp given
      have before := earlier row inRows (by simpa using same) seen first
      exact (roundMs_nonneg_iff _).mpr (by omega)
    · exact nonnegative row inRows latency given
  · intro row member latency given
    rcases List.mem_append.mp member with old | new
    · exact nonnegative row old latency given
    · obtain rfl := List.mem_singleton.mp new
      cases given

/-- A row keeps its identity and its first sight. -/
theorem upsert_earlier_iff {txIds : List String} :
    Earlier stamp txIds (upsertConfirmed now rows confirmation) ↔ Earlier stamp txIds rows := by
  unfold upsertConfirmed
  split
  · unfold Earlier
    rw [List.forall_mem_map]
    refine forall_congr' fun row => imp_congr_right fun _ => ?_
    split
    · rfl
    · rfl
  · constructor
    · exact fun earlier row member => earlier row (List.mem_append_left _ member)
    · intro earlier row member named seen first
      rcases List.mem_append.mp member with old | new
      · exact earlier row old named seen first
      · obtain rfl := List.mem_singleton.mp new
        cases first

/-- Some row was first seen too late for the time it is confirmed at. -/
def Spoiled (stamp : Int) (rows : List Row) : Prop :=
  ∃ row ∈ rows, ∃ seen ∈ row.firstSeenAt, stamp + 500 ≤ seen ∧ row.latencyMs = some (roundMs (stamp - seen))

theorem Spoiled.not_nonnegative (spoiled : Spoiled stamp rows) : ¬ Nonnegative rows := by
  obtain ⟨row, member, seen, -, late, latency⟩ := spoiled
  intro nonnegative
  have positive := (roundMs_nonneg_iff _).mp (nonnegative row member _ latency)
  omega

theorem Spoiled.upsert (spoiled : Spoiled confirmation.confirmedAt rows) :
    Spoiled confirmation.confirmedAt (upsertConfirmed now rows confirmation) := by
  obtain ⟨row, member, seen, first, late, latency⟩ := spoiled
  unfold upsertConfirmed
  split
  · refine ⟨_, List.mem_map_of_mem member, seen, ?_⟩
    split
    · exact ⟨first, late, by simp only [confirm, Option.mem_def.mp first, Option.map_some]⟩
    · exact ⟨first, late, latency⟩
  · exact ⟨row, List.mem_append_left _ member, seen, first, late, latency⟩

theorem spoiled_of_late (late : ¬ Earlier confirmation.confirmedAt [confirmation.txId] rows) :
    Spoiled confirmation.confirmedAt (upsertConfirmed now rows confirmation) := by
  simp only [Earlier, Classical.not_forall, exists_prop] at late
  obtain ⟨row, member, named, seen, first, late⟩ := late
  have same : row.txId = confirmation.txId := by simpa using named
  unfold upsertConfirmed
  rw [if_pos (List.any_eq_true.mpr ⟨row, member, decide_eq_true same⟩)]
  refine ⟨_, List.mem_map_of_mem member, seen, ?_⟩
  rw [if_pos same]
  exact ⟨first, Int.not_lt.mp late, by simp only [confirm, Option.mem_def.mp first, Option.map_some]⟩

/-! ## A batch -/

theorem earlier_cons_iff {txId : String} {txIds : List String} :
    Earlier stamp (txId :: txIds) rows ↔ Earlier stamp [txId] rows ∧ Earlier stamp txIds rows := by
  simp only [Earlier, List.mem_cons, List.not_mem_nil, or_false, or_imp, forall_and]

/-- A row that is spoiled stays so to the end of the batch. -/
theorem Spoiled.batch (records : List Confirmation) (stamped : ∀ record ∈ records, record.confirmedAt = stamp)
    (spoiled : Spoiled stamp rows) : Spoiled stamp (batchUpsertLifecycleConfirmed now records rows) := by
  induction records generalizing rows with
  | nil => exact spoiled
  | cons record rest ih =>
    obtain ⟨rfl, later⟩ := List.forall_mem_cons.mp stamped
    exact ih later spoiled.upsert

theorem batch_nonnegative_iff (records : List Confirmation) (stamped : ∀ record ∈ records, record.confirmedAt = stamp)
    (nonnegative : Nonnegative rows) : Nonnegative (batchUpsertLifecycleConfirmed now records rows) ↔
      Earlier stamp (records.map Confirmation.txId) rows := by
  induction records generalizing rows with
  | nil => exact iff_of_true nonnegative (by simp [Earlier])
  | cons record rest ih =>
    obtain ⟨rfl, later⟩ := List.forall_mem_cons.mp stamped
    rw [List.map_cons, earlier_cons_iff]
    by_cases earlier : Earlier record.confirmedAt [record.txId] rows
    · rw [and_iff_right earlier, ← @upsert_earlier_iff now _ _ record]
      exact ih later (upsert_nonnegative nonnegative earlier)
    · exact iff_of_false (Spoiled.batch rest later (spoiled_of_late earlier)).not_nonnegative fun both =>
        earlier both.1

end

/-! ## Steps and runs -/

section
variable {settings : Settings} {state next : State} {event : Event}

/-- A statement that leaves latencies as they are. -/
theorem Nonnegative.map {rows : List Row} {mark : Row → Row} (nonnegative : Nonnegative rows)
    (kept : ∀ row, (mark row).latencyMs = row.latencyMs) : Nonnegative (rows.map mark) := by
  intro other member latency given
  obtain ⟨row, inRows, rfl⟩ := List.mem_map.mp member
  exact nonnegative row inRows latency (kept row ▸ given)

theorem pending_nonnegative {rows : List Row} (now : Int) (txId network : String) (seen : Int)
    (nonnegative : Nonnegative rows) : Nonnegative (upsertLifecyclePending now txId network seen rows) := by
  unfold upsertLifecyclePending
  split
  · exact nonnegative
  · intro row member latency given
    rcases List.mem_append.mp member with old | new
    · exact nonnegative row old latency given
    · obtain rfl := List.mem_singleton.mp new
      cases given

theorem step_advance {before after : Stage} (stepped : state.advance before after = some next) :
    ∃ handler, state.handler = some handler ∧
      next = { state with handler := some { handler with stage := after } } := by
  unfold State.advance at stepped
  cases found : state.handler with
  | none =>
    rw [found] at stepped
    cases stepped
  | some handler =>
    rw [found] at stepped
    dsimp only at stepped
    split at stepped
    · exact ⟨handler, rfl, (Option.some.inj stepped).symm⟩
    · cases stepped

/-- After an attempt the handler is gone, or at a later stage. -/
theorem step_insertAttempt {raised : Bool} (stepped : step settings state (.insertAttempt raised) = some next) :
    ∃ handler, state.handler = some handler ∧ (next = { state with handler := none } ∨
      ∃ stage, next = { state with handler := some { handler with stage := stage } }) := by
  cases found : state.handler with
  | none =>
    rw [step, found] at stepped
    cases stepped
  | some handler =>
    rw [step, found] at stepped
    dsimp only at stepped
    refine ⟨handler, rfl, ?_⟩
    cases stage : handler.stage with
    | inserting attempt =>
      rw [stage] at stepped
      dsimp only at stepped
      split at stepped
      · exact .inr ⟨_, (Option.some.inj stepped).symm⟩
      · split at stepped
        · exact .inr ⟨_, (Option.some.inj stepped).symm⟩
        · exact .inl (Option.some.inj stepped).symm
    | _ =>
      rw [stage] at stepped
      cases stepped

theorem step_confirmed {raised : Bool} (stepped : step settings state (.confirmed raised) = some next) :
    ∃ handler, state.handler = some handler ∧ handler.stage = .confirming ∧ next = { state with
      handler := none
      rows := if raised then state.rows
        else batchUpsertLifecycleConfirmed state.clock (handler.records settings.network) state.rows } := by
  cases found : state.handler with
  | none =>
    rw [step, found] at stepped
    cases stepped
  | some handler =>
    rw [step, found] at stepped
    dsimp only at stepped
    split at stepped
    · rename_i there
      exact ⟨handler, rfl, there, (Option.some.inj stepped).symm⟩
    · cases stepped

/-- What a step does to the rows. -/
theorem step_rows (stepped : step settings state event = some next) :
    (next.rows = state.rows ∧ event ≠ .confirmed false) ∨
    (∃ sighting ∈ state.sighting, event = .insertPending false ∧
      next.rows = upsertLifecyclePending state.clock sighting.txId settings.network sighting.now state.rows) ∨
    (∃ handler ∈ state.handler, event = .confirmed false ∧ handler.stage = .confirming ∧
      next.rows = batchUpsertLifecycleConfirmed state.clock (handler.records settings.network) state.rows) ∨
    (∃ slot, event = .rollBack slot ∧
      next.rows = markLifecycleRolledBack state.clock slot settings.network state.rows) ∨
    (∃ seconds, event = .dropStale seconds ∧
      next.rows = markDroppedPendingTxs state.clock settings.network (seconds * 1000) state.rows) ∨
    ∃ days, event = .prune days ∧
      next.rows = pruneTerminalLifecycle state.clock settings.network (days * 1000) state.rows := by
  cases event with
  | tick _ | leave | abort =>
    obtain rfl := Option.some.inj stepped
    exact .inl ⟨rfl, nofun⟩
  | see _ | rollForward _ _ _ _ =>
    dsimp only [step] at stepped
    split at stepped
    · obtain rfl := Option.some.inj stepped
      exact .inl ⟨rfl, nofun⟩
    · cases stepped
  | resolved | stored =>
    obtain ⟨_, _, rfl⟩ := step_advance stepped
    exact .inl ⟨rfl, nofun⟩
  | insertPending raised =>
    obtain ⟨sighting, found, rfl⟩ := Option.map_eq_some_iff.mp stepped
    cases raised with
    | true => exact .inl ⟨rfl, nofun⟩
    | false => exact .inr (.inl ⟨sighting, found, rfl, rfl⟩)
  | insertAttempt raised =>
    obtain ⟨_, _, rfl | ⟨_, rfl⟩⟩ := step_insertAttempt stepped
    · exact .inl ⟨rfl, nofun⟩
    · exact .inl ⟨rfl, nofun⟩
  | confirmed raised =>
    obtain ⟨handler, found, there, rfl⟩ := step_confirmed stepped
    cases raised with
    | true => exact .inl ⟨rfl, nofun⟩
    | false => exact .inr (.inr (.inl ⟨handler, found, rfl, there, rfl⟩))
  | rollBack slot =>
    dsimp only [step] at stepped
    split at stepped
    · obtain rfl := Option.some.inj stepped
      exact .inr (.inr (.inr (.inl ⟨slot, rfl, rfl⟩)))
    · cases stepped
  | dropStale seconds =>
    obtain rfl := Option.some.inj stepped
    exact .inr (.inr (.inr (.inr (.inl ⟨seconds, rfl, rfl⟩))))
  | prune days =>
    obtain rfl := Option.some.inj stepped
    exact .inr (.inr (.inr (.inr (.inr ⟨days, rfl, rfl⟩))))

theorem records_stamped (handler : Handler) (network : String) :
    ∀ record ∈ handler.records network, record.confirmedAt = handler.now := by
  intro record member
  obtain ⟨txId, -, rfl⟩ := List.mem_map.mp member
  rfl

theorem records_txIds (handler : Handler) (network : String) :
    (handler.records network).map Confirmation.txId = handler.txIds := by
  rw [Handler.records, List.map_map]
  exact List.map_id _

/-- A step brings a negative latency exactly if it confirms a block with a transaction seen later. -/
theorem step_nonnegative_iff (nonnegative : Nonnegative state.rows) :
    (∀ next, step settings state event = some next → Nonnegative next.rows) ↔ NoneSeenLater state event := by
  constructor
  · intro kept
    unfold NoneSeenLater
    split
    · intro handler found there
      have stepped : step settings state (.confirmed false) = some { state with
          handler := none
          rows := batchUpsertLifecycleConfirmed state.clock (handler.records settings.network) state.rows } := by
        simp [step, Option.mem_def.mp found, there]
      rw [← records_txIds handler settings.network]
      exact (batch_nonnegative_iff _ (records_stamped handler settings.network) nonnegative).mp (kept _ stepped)
    · trivial
  · intro earlier next stepped
    obtain ⟨same, -⟩ | ⟨sighting, -, rfl, rows⟩ | ⟨handler, found, rfl, there, rows⟩ | ⟨slot, rfl, rows⟩ |
      ⟨seconds, rfl, rows⟩ | ⟨days, rfl, rows⟩ := step_rows stepped
    · exact same ▸ nonnegative
    · exact rows ▸ pending_nonnegative _ _ _ _ nonnegative
    · rw [rows, batch_nonnegative_iff _ (records_stamped handler settings.network) nonnegative, records_txIds]
      exact earlier handler found there
    · refine rows ▸ nonnegative.map fun row => ?_
      split <;> rfl
    · refine rows ▸ nonnegative.map fun row => ?_
      split <;> rfl
    · exact rows ▸ fun row member => nonnegative row (List.mem_of_mem_filter member)

end

/-- Nothing is stored and nobody at work; the clock shows any time. -/
def start (clock : Int) : State := ⟨clock, [], none, none⟩

/-- **Every state that a run reaches has latencies of zero or more exactly if no block of the run is confirmed over a
row that was first seen after its handler read the clock, by half a millisecond or more.** -/
theorem latencies_nonnegative_iff (settings : Settings) (clock : Int) (events : List Event) :
    EveryStep (step settings) (fun state event => ∀ next, step settings state event = some next →
        Nonnegative next.rows) (start clock) events ↔
      EveryStep (step settings) NoneSeenLater (start clock) events := by
  have empty : Nonnegative (start clock).rows := by simp [Nonnegative, start]
  have always := everyStep_of_forall (step settings) (fun _ _ => trivial : ∀ (_ : State) (_ : Event), True)
    (start clock) events
  exact everyStep_iff_of (step settings) (fun nonnegative _ => step_nonnegative_iff nonnegative) empty always

/-! ## Where a later sight comes from -/

/-- A pending row that gets in while the handler of its block is at work was not stamped after the handler read the
clock, by half a millisecond or more. -/
def NoneBetween (state : State) : Event → Prop
  | .insertPending false => ∀ handler ∈ state.handler, ∀ sighting ∈ state.sighting, sighting.txId ∈ handler.txIds →
      sighting.now < handler.now + 500
  | _ => True

/-- No stamp is of the future, and the rows of a block at work were first seen in time. -/
structure Clocked (state : State) : Prop where
  rows : ∀ row ∈ state.rows, ∀ seen ∈ row.firstSeenAt, seen ≤ state.clock
  sighting : ∀ sighting ∈ state.sighting, sighting.now ≤ state.clock
  handler : ∀ handler ∈ state.handler, Earlier handler.now handler.txIds state.rows

section
variable {settings : Settings} {state next : State} {event : Event}

/-- A row that was never seen pending, or one of before with its first sight. -/
def Kept (rows : List Row) (row : Row) : Prop :=
  row.firstSeenAt = none ∨ ∃ old ∈ rows, row.txId = old.txId ∧ row.firstSeenAt = old.firstSeenAt

/-- A step that stamps nothing: its sighting and its handler, if there are any, are those of before. -/
theorem Clocked.unstamped (clocked : Clocked state) (clock : next.clock = state.clock)
    (rows : ∀ row ∈ next.rows, Kept state.rows row) (sighting : ∀ sight ∈ next.sighting, sight ∈ state.sighting)
    (handler : ∀ later ∈ next.handler, ∃ earlier ∈ state.handler, later.now = earlier.now ∧
      later.txIds = earlier.txIds) : Clocked next := by
  refine ⟨fun row member seen first => ?_, fun sight found => ?_, fun later found row member named seen first => ?_⟩
  · rw [clock]
    rcases rows row member with never | ⟨old, before, -, same⟩
    · rw [never] at first
      cases first
    · exact clocked.rows old before seen (same ▸ first)
  · rw [clock]
    exact clocked.sighting sight (sighting sight found)
  · obtain ⟨earlier, present, now, txIds⟩ := handler later found
    rw [now]
    rw [txIds] at named
    rcases rows row member with never | ⟨old, before, txId, same⟩
    · rw [never] at first
      cases first
    · exact clocked.handler earlier present old before (txId ▸ named) seen (same ▸ first)

theorem mem_pending {now seen : Int} {txId network : String} {rows : List Row} {row : Row}
    (member : row ∈ upsertLifecyclePending now txId network seen rows) :
    row ∈ rows ∨ row.txId = txId ∧ row.firstSeenAt = some seen := by
  unfold upsertLifecyclePending at member
  split at member
  · exact .inl member
  · rcases List.mem_append.mp member with old | new
    · exact .inl old
    · obtain rfl := List.mem_singleton.mp new
      exact .inr ⟨rfl, rfl⟩

theorem kept_self (rows : List Row) : ∀ row ∈ rows, Kept rows row := fun row member => .inr ⟨row, member, rfl, rfl⟩

theorem kept_map {mark : Row → Row} (rows : List Row)
    (same : ∀ row, (mark row).txId = row.txId ∧ (mark row).firstSeenAt = row.firstSeenAt) :
    ∀ row ∈ rows.map mark, Kept rows row := by
  intro other member
  obtain ⟨row, inRows, rfl⟩ := List.mem_map.mp member
  exact .inr ⟨row, inRows, same row⟩

theorem kept_batch (now : Int) (records : List Confirmation) (rows : List Row) :
    ∀ row ∈ batchUpsertLifecycleConfirmed now records rows, Kept rows row := by
  induction records generalizing rows with
  | nil => exact kept_self rows
  | cons record rest ih =>
    intro row member
    rcases ih (upsertConfirmed now rows record) row member with never | ⟨middle, between, txId, same⟩
    · exact .inl never
    · unfold upsertConfirmed at between
      split at between
      · obtain ⟨old, inRows, rfl⟩ := List.mem_map.mp between
        refine .inr ⟨old, inRows, ?_⟩
        by_cases named : old.txId = record.txId
        · rw [if_pos named] at txId same
          exact ⟨txId, same⟩
        · rw [if_neg named] at txId same
          exact ⟨txId, same⟩
      · rcases List.mem_append.mp between with old | new
        · exact .inr ⟨middle, old, txId, same⟩
        · obtain rfl := List.mem_singleton.mp new
          exact .inl same

/-- The clock moves on past every stamp. -/
theorem Clocked.ticked (clocked : Clocked state) (micros : ℕ) :
    Clocked { state with clock := state.clock + micros } := by
  refine ⟨fun row member seen first => ?_, fun sight found => ?_, clocked.handler⟩
  · have past := clocked.rows row member seen first
    dsimp only
    omega
  · have past := clocked.sighting sight found
    dsimp only
    omega

/-- A transaction seen is stamped with the sighting's clock read, which is not of the future. -/
theorem Clocked.pending {sighting : Sighting} (clocked : Clocked state) (found : sighting ∈ state.sighting)
    (between : NoneBetween state (.insertPending false)) (network : String) :
    Clocked { state with
      sighting := none
      rows := upsertLifecyclePending state.clock sighting.txId network sighting.now state.rows } := by
  refine ⟨fun row member seen first => ?_, fun _ => nofun, fun handler present row member named seen first => ?_⟩
  · rcases mem_pending member with old | ⟨-, new⟩
    · exact clocked.rows row old seen first
    · obtain rfl := Option.some.inj (new.symm.trans first)
      exact clocked.sighting sighting found
  · rcases mem_pending member with old | ⟨txId, new⟩
    · exact clocked.handler handler present row old named seen first
    · obtain rfl := Option.some.inj (new.symm.trans first)
      exact between handler present sighting found (txId ▸ named)

/-- A handler that reads the clock finds every stamp past. -/
theorem Clocked.begun {handler : Handler} (clocked : Clocked state) (now : handler.now = state.clock) :
    Clocked { state with handler := some handler } := by
  refine ⟨clocked.rows, clocked.sighting, fun other found row member _ seen first => ?_⟩
  obtain rfl := Option.some.inj found
  have past := clocked.rows row member seen first
  omega

theorem Clocked.after_step (clocked : Clocked state) (between : NoneBetween state event)
    (stepped : step settings state event = some next) : Clocked next := by
  have same : ∀ later ∈ state.handler, ∃ earlier ∈ state.handler, later.now = earlier.now ∧
      later.txIds = earlier.txIds := fun handler found => ⟨handler, found, rfl, rfl⟩
  cases event with
  | tick micros =>
    obtain rfl := Option.some.inj stepped
    exact clocked.ticked micros
  | see txId =>
    dsimp only [step] at stepped
    split at stepped
    · obtain rfl := Option.some.inj stepped
      refine ⟨clocked.rows, ?_, clocked.handler⟩
      rintro sight ⟨⟩
      exact Int.le_refl _
    · cases stepped
  | insertPending raised =>
    obtain ⟨sighting, found, rfl⟩ := Option.map_eq_some_iff.mp stepped
    cases raised with
    | true => exact clocked.unstamped rfl (kept_self _) (fun _ => nofun) same
    | false => exact clocked.pending found between _
  | leave =>
    obtain rfl := Option.some.inj stepped
    exact clocked.unstamped rfl (kept_self _) (fun _ => nofun) same
  | rollForward txIds blockId slot height =>
    dsimp only [step] at stepped
    split at stepped
    · obtain rfl := Option.some.inj stepped
      split
      · exact ⟨clocked.rows, clocked.sighting, fun _ => nofun⟩
      · exact clocked.begun rfl
    · cases stepped
  | resolved | stored =>
    obtain ⟨handler, found, rfl⟩ := step_advance stepped
    refine clocked.unstamped rfl (kept_self _) (fun _ present => present) ?_
    rintro later ⟨⟩
    exact ⟨handler, found, rfl, rfl⟩
  | insertAttempt raised =>
    obtain ⟨handler, found, rfl | ⟨stage, rfl⟩⟩ := step_insertAttempt stepped
    · exact clocked.unstamped rfl (kept_self _) (fun _ present => present) fun _ => nofun
    · refine clocked.unstamped rfl (kept_self _) (fun _ present => present) ?_
      rintro later ⟨⟩
      exact ⟨handler, found, rfl, rfl⟩
  | confirmed raised =>
    obtain ⟨handler, found, there, rfl⟩ := step_confirmed stepped
    refine clocked.unstamped rfl (fun row member => ?_) (fun _ present => present) fun _ => nofun
    cases raised with
    | true => exact kept_self _ row member
    | false => exact kept_batch _ _ _ row member
  | abort =>
    obtain rfl := Option.some.inj stepped
    exact clocked.unstamped rfl (kept_self _) (fun _ present => present) fun _ => nofun
  | rollBack slot =>
    dsimp only [step] at stepped
    split at stepped
    · obtain rfl := Option.some.inj stepped
      refine clocked.unstamped rfl (kept_map _ fun row => ?_) (fun _ present => present) same
      split <;> exact ⟨rfl, rfl⟩
    · cases stepped
  | dropStale seconds =>
    obtain rfl := Option.some.inj stepped
    refine clocked.unstamped rfl (kept_map _ fun row => ?_) (fun _ present => present) same
    split <;> exact ⟨rfl, rfl⟩
  | prune days =>
    obtain rfl := Option.some.inj stepped
    exact clocked.unstamped rfl (fun row member => kept_self _ row (List.mem_of_mem_filter member))
      (fun _ present => present) same

end

/-- A late sight in the table got there between a handler's clock read and its confirmation: where no such row gets
in, no confirmation finds one. -/
theorem none_seen_later_of_none_between (settings : Settings) (clock : Int) (events : List Event)
    (between : EveryStep (step settings) NoneBetween (start clock) events) :
    EveryStep (step settings) NoneSeenLater (start clock) events := by
  have clocked : Clocked (start clock) := ⟨by simp [start], by simp [start], by simp [start]⟩
  refine everyStep_of_kept (step settings) (fun met held => held.after_step met) (fun _ held => ?_) clocked between
  unfold NoneSeenLater
  split
  · exact fun handler found _ => held.handler handler found
  · trivial

/-- The block is read at 0, the transaction is seen in the mempool a second later, and both are written. -/
private def seenMeanwhile : List Event :=
  [.rollForward ["aa01"] "bb01" 42 7, .tick 1000000, .see "aa01", .insertPending false, .resolved, .stored,
    .insertAttempt false, .confirmed false]

theorem latency_of_minus_one_second :
    ∃ state, run (step ⟨"preprod", 5⟩) (start 0) seenMeanwhile = some state ∧
      (∃ row ∈ state.rows, row.latencyMs = some (-1000)) ∧ ¬ Nonnegative state.rows := by
  refine ⟨⟨1000000, [⟨"aa01", "preprod", .confirmed, some 1000000, some 0, none, none, some "bb01", some 42, some 7,
    some (-1000), 1000000⟩], none, none⟩, by decide +kernel, ⟨_, List.mem_singleton.mpr rfl, rfl⟩, ?_⟩
  intro nonnegative
  exact absurd (nonnegative _ (List.mem_singleton.mpr rfl) (-1000) rfl) (by decide)

end TransactionMonitoring.Latency
