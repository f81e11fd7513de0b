import TransactionMonitoring.Faults
import TransactionMonitoring.Runs

/-! The score-repurge protocol.

A rollback deletes the score rows of the orphaned transactions, but an engine batch that
had fetched them may still insert a score row afterwards; that row would block re-scoring
for good.  So the rollback queues the hashes in `pending_score_repurges` and schedules a
task that deletes their score rows again after a delay, and every (re)connect replays what
is queued.

The rollback handler and the replay run one after the other in the chain-sync session; the
delayed tasks and the engine's batches run beside it.  Every statement is a step of its
own.  A crash loses the tasks, the batches and the session, never a table.

Which purge a batch or a score row is stale for is recorded in fields that no code reads.
-/
namespace TransactionMonitoring.Repurge
open Faults

/-- A score row, with the rollbacks that purged its transaction between the batch's fetch
and its insert. -/
structure Score where
  txHash : String
  staleFor : List Nat
deriving DecidableEq, Repr

/-- An engine batch between its fetch and its insert, with the purges of its hashes since. -/
structure Batch where
  hashes : List String
  purged : List (String × Nat)
deriving DecidableEq, Repr

inductive TaskPhase where
  | sleeping
  /-- The score rows are deleted, the queue rows are not cleared yet. -/
  | clearing
deriving DecidableEq, Repr

/-- A `_delayed_score_repurge`. -/
structure Task where
  hashes : List String
  wakeAt : Nat
  phase : TaskPhase
deriving DecidableEq, Repr

/-- Where the chain-sync session stands. -/
inductive Session where
  | offline
  /-- `_replay_pending_score_repurges` has read the queue. -/
  | replaying (hashes : List String)
  /-- It has deleted the score rows. -/
  | replayed (hashes : List String)
  | syncing
  /-- `_handle_roll_backward` has purged and not yet queued. -/
  | enqueueing (rollback : Nat) (hashes : List String)
deriving DecidableEq, Repr

structure State where
  now : Nat
  /-- `_running`. -/
  running : Bool
  session : Session
  txClassScores : List Score
  pendingScoreRepurges : List String
  repurgeTasks : List Task
  batches : List Batch
  /-- How many rollbacks have purged so far. -/
  rollbacks : Nat
  /-- When the delay of a rollback ends for a hash it queued. -/
  delayEnds : String → Nat → Option Nat

def State.initial : State := ⟨0, true, .offline, [], [], [], [], 0, fun _ _ => none⟩

inductive Event where
  | advance (seconds : Nat)
  /-- The engine's poll returns. -/
  | fetch (hashes : List String)
  /-- The batch's `insert_class_scores`; deferred rows are left out, and a batch that ends
  without an insert writes none. -/
  | insert (index : Nat) (written : List String) (outcome : Outcome)
  /-- A (re)connect; `read` says whether `get_pending_score_repurges` returned. -/
  | connect (read : Bool)
  | replayDelete (outcome : Outcome)
  | replayClear (outcome : Outcome)
  /-- A rollback's purge reaches `tx_class_scores`. -/
  | purge (hashes : List String)
  /-- `add_pending_score_repurges` returned and the task is scheduled. -/
  | enqueue
  /-- The connection drops. -/
  | disconnect
  /-- A delayed task wakes and deletes the score rows, unless the client is stopping. -/
  | wake (index : Nat) (outcome : Outcome)
  | clear (index : Nat) (outcome : Outcome)
  /-- `disconnect()`: the client stops. -/
  | stop
  /-- The process dies and starts again. -/
  | crash
deriving DecidableEq, Repr

/-- `delete_score_rows`. -/
def deleteScoreRows (hashes : List String) (scores : List Score) : List Score :=
  scores.filter fun score => score.txHash ∉ hashes

/-- `clear_pending_score_repurges`. -/
def clearPending (hashes pending : List String) : List String :=
  pending.filter (· ∉ hashes)

/-- `add_pending_score_repurges`: a hash that is queued already stays queued once. -/
def addPending (hashes pending : List String) : List String :=
  pending ++ hashes.filter (· ∉ pending)

def Batch.purge (batch : Batch) (rollback : Nat) (hashes : List String) : Batch :=
  { batch with purged := batch.purged ++ (batch.hashes.filter (· ∈ hashes)).map fun txHash => (txHash, rollback) }

/-- The score row a batch writes for one of its hashes. -/
def Batch.score (batch : Batch) (txHash : String) : Score :=
  ⟨txHash, (batch.purged.filter fun entry => entry.1 = txHash).map Prod.snd⟩

/-- No repurge delay of the hash has elapsed since the batch fetched it. -/
def OnTime (state : State) (batch : Batch) (txHash : String) : Prop :=
  ∀ entry ∈ batch.purged, entry.1 = txHash → ∀ ends ∈ state.delayEnds txHash entry.2, state.now < ends

instance (state : State) (batch : Batch) (txHash : String) : Decidable (OnTime state batch txHash) :=
  inferInstanceAs (Decidable (∀ _ ∈ _, _))

/-- One step; `delay` is `ROLLBACK_SCORE_REPURGE_DELAY_SECONDS`. -/
def step (delay : Nat) (state : State) : Event → Option State
  | .advance seconds => some { state with now := state.now + seconds }
  | .fetch hashes => some { state with batches := state.batches ++ [⟨hashes, []⟩] }
  | .insert index written outcome =>
      match state.batches[index]? with
      | none => none
      | some batch =>
          if written ⊆ batch.hashes ∧ ∀ txHash ∈ written, OnTime state batch txHash then
            let rows := if outcome.applies then written.map batch.score else []
            some { state with
              txClassScores := state.txClassScores ++ rows
              batches := state.batches.eraseIdx index }
          else none
  | .connect read =>
      if state.session = .offline ∧ state.running = true then
        if read = true ∧ state.pendingScoreRepurges ≠ [] then
          some { state with session := .replaying state.pendingScoreRepurges }
        else some { state with session := .syncing }
      else none
  | .replayDelete outcome =>
      match state.session with
      | .replaying hashes => some { state with
          txClassScores := if outcome.applies then deleteScoreRows hashes state.txClassScores
            else state.txClassScores
          session := if outcome.returns then .replayed hashes else .syncing }
      | _ => none
  | .replayClear outcome =>
      match state.session with
      | .replayed hashes => some { state with
          pendingScoreRepurges := if outcome.applies then clearPending hashes state.pendingScoreRepurges
            else state.pendingScoreRepurges
          session := .syncing }
      | _ => none
  | .purge hashes =>
      if state.session = .syncing ∧ hashes ≠ [] then some { state with
        txClassScores := deleteScoreRows hashes state.txClassScores
        batches := state.batches.map fun batch => batch.purge state.rollbacks hashes
        session := .enqueueing state.rollbacks hashes
        rollbacks := state.rollbacks + 1 }
      else none
  | .enqueue =>
      match state.session with
      | .enqueueing rollback hashes => some { state with
          pendingScoreRepurges := addPending hashes state.pendingScoreRepurges
          repurgeTasks := state.repurgeTasks ++ [⟨hashes, state.now + delay, .sleeping⟩]
          delayEnds := fun txHash other =>
            if other = rollback ∧ txHash ∈ hashes then some (state.now + delay)
            else state.delayEnds txHash other
          session := .syncing }
      | _ => none
  | .disconnect => if state.session = .syncing then some { state with session := .offline } else none
  | .wake index outcome =>
      match state.repurgeTasks[index]? with
      | none => none
      | some task =>
          if task.phase = .sleeping ∧ task.wakeAt ≤ state.now then
            if state.running then some { state with
              txClassScores := if outcome.applies then deleteScoreRows task.hashes state.txClassScores
                else state.txClassScores
              repurgeTasks := if outcome.returns then
                  state.repurgeTasks.set index { task with phase := .clearing }
                else state.repurgeTasks.eraseIdx index }
            else some { state with repurgeTasks := state.repurgeTasks.eraseIdx index }
          else none
  | .clear index outcome =>
      match state.repurgeTasks[index]? with
      | none => none
      | some task =>
          if task.phase = .clearing then some { state with
            pendingScoreRepurges := if outcome.applies then
                clearPending task.hashes state.pendingScoreRepurges
              else state.pendingScoreRepurges
            repurgeTasks := state.repurgeTasks.eraseIdx index }
          else none
  | .stop => some { state with running := false }
  | .crash => some { state with running := true, session := .offline, repurgeTasks := [], batches := [] }

/-! ## What the protocol owes -/

/-- The hash is queued, or a live task will still delete its score rows. -/
def Covered (state : State) (txHash : String) : Prop :=
  txHash ∈ state.pendingScoreRepurges ∨
    (state.running = true ∧
      ∃ task ∈ state.repurgeTasks, task.phase = .sleeping ∧ txHash ∈ task.hashes)

instance (state : State) (txHash : String) : Decidable (Covered state txHash) :=
  inferInstanceAs (Decidable (_ ∨ _))

/-- Every stale score row is covered once the delay of a rollback it is stale for has elapsed. -/
def NoStaleScoreLeft (state : State) : Prop :=
  ∀ score ∈ state.txClassScores,
    (∃ rollback ∈ score.staleFor, ∃ ends ∈ state.delayEnds score.txHash rollback, ends ≤ state.now) →
      Covered state score.txHash

instance (state : State) : Decidable (NoStaleScoreLeft state) :=
  inferInstanceAs (Decidable (∀ _ ∈ _, _))

/-- The hashes whose queue rows the event removes. -/
def cleared (state : State) : Event → List String
  | .replayClear outcome =>
      match state.session with
      | .replayed hashes => if outcome.applies then hashes else []
      | _ => []
  | .clear index outcome =>
      match state.repurgeTasks[index]? with
      | some task => if outcome.applies then task.hashes else []
      | none => []
  | _ => []

/-- No stale score row of the hash is in the table, and no batch in flight can still
insert one. -/
def Settled (state : State) (txHash : String) : Prop :=
  (∀ score ∈ state.txClassScores, score.txHash = txHash → score.staleFor = []) ∧
    ∀ batch ∈ state.batches, (∃ entry ∈ batch.purged, entry.1 = txHash) → ¬ OnTime state batch txHash

instance (state : State) (txHash : String) : Decidable (Settled state txHash) :=
  inferInstanceAs (Decidable (_ ∧ _))

/-- Queue rows are cleared only for settled hashes. -/
def ClearsSettled (state : State) (event : Event) : Prop :=
  ∀ txHash ∈ cleared state event, Settled state txHash

instance (state : State) (event : Event) : Decidable (ClearsSettled state event) :=
  inferInstanceAs (Decidable (∀ _ ∈ _, _))

/-! ## The invariant -/

/-- While queue rows are cleared for settled hashes only, every stale row, and every batch
that may still write one, has its hash queued. -/
structure Queued (state : State) : Prop where
  scores : ∀ score ∈ state.txClassScores, ∀ rollback ∈ score.staleFor,
    (state.delayEnds score.txHash rollback).isSome → score.txHash ∈ state.pendingScoreRepurges
  batches : ∀ batch ∈ state.batches, ∀ entry ∈ batch.purged,
    (state.delayEnds entry.1 entry.2).isSome → OnTime state batch entry.1 →
      entry.1 ∈ state.pendingScoreRepurges
  fresh : ∀ txHash rollback, state.rollbacks ≤ rollback → state.delayEnds txHash rollback = none
  session : ∀ rollback hashes, state.session = .enqueueing rollback hashes → rollback < state.rollbacks

private theorem queued_initial : Queued State.initial where
  scores := by simp [State.initial]
  batches := by simp [State.initial]
  fresh := fun _ _ _ => rfl
  session := by simp [State.initial]

section
variable {state next : State}

/-- A step that only drops rows and batches and keeps the queue keeps the invariant. -/
private theorem queued_mono (queued : Queued state) (scores : next.txClassScores ⊆ state.txClassScores)
    (batches : next.batches ⊆ state.batches)
    (pending : state.pendingScoreRepurges ⊆ next.pendingScoreRepurges) (later : state.now ≤ next.now)
    (delayEnds : next.delayEnds = state.delayEnds) (rollbacks : next.rollbacks = state.rollbacks)
    (session : ∀ rollback hashes, next.session = .enqueueing rollback hashes →
      state.session = .enqueueing rollback hashes) : Queued next where
  scores := by
    intro score member rollback stale ended
    rw [delayEnds] at ended
    exact pending (queued.scores score (scores member) rollback stale ended)
  batches := by
    intro batch member entry purged ended onTime
    rw [delayEnds] at ended
    refine pending (queued.batches batch (batches member) entry purged ended ?_)
    intro other among same ends found
    rw [← delayEnds] at found
    exact Nat.lt_of_le_of_lt later (onTime other among same ends found)
  fresh := by
    intro txHash rollback beyond
    rw [delayEnds]
    exact queued.fresh txHash rollback (rollbacks ▸ beyond)
  session := by
    intro rollback hashes current
    rw [rollbacks]
    exact queued.session rollback hashes (session rollback hashes current)

private theorem deleteScoreRows_subset (hashes : List String) (scores : List Score) :
    deleteScoreRows hashes scores ⊆ scores := List.filter_subset_self _

/-- A step that only moves the session and the tasks on keeps the invariant. -/
private theorem queued_session (queued : Queued state) (session : Session) (tasks : List Task)
    (still : ∀ rollback hashes, session = .enqueueing rollback hashes →
      state.session = .enqueueing rollback hashes) :
    Queued { state with session := session, repurgeTasks := tasks } :=
  queued_mono queued (List.Subset.refl _) (List.Subset.refl _) (List.Subset.refl _) (Nat.le_refl _) rfl rfl still

/-- So does one that deletes score rows, or tries to. -/
private theorem queued_delete (queued : Queued state) (applied : Bool) (hashes : List String) (session : Session)
    (tasks : List Task)
    (still : ∀ rollback hashes, session = .enqueueing rollback hashes →
      state.session = .enqueueing rollback hashes) :
    Queued { state with
      txClassScores := if applied then deleteScoreRows hashes state.txClassScores else state.txClassScores
      session := session
      repurgeTasks := tasks } := by
  refine queued_mono queued ?_ (List.Subset.refl _) (List.Subset.refl _) (Nat.le_refl _) rfl rfl still
  dsimp only
  split
  · exact deleteScoreRows_subset _ _
  · exact List.Subset.refl _

/-- Clearing settled hashes loses no protection. -/
private theorem queued_clear (queued : Queued state) {hashes : List String}
    (settled : ∀ txHash ∈ hashes, Settled state txHash) (session : Session)
    (idle : ∀ rollback hashes, session = .enqueueing rollback hashes →
      state.session = .enqueueing rollback hashes) (tasks : List Task) :
    Queued { state with
      pendingScoreRepurges := clearPending hashes state.pendingScoreRepurges
      session := session
      repurgeTasks := tasks } where
  scores := by
    intro score member rollback stale ended
    refine List.mem_filter.mpr ⟨queued.scores score member rollback stale ended, ?_⟩
    rw [decide_eq_true_iff]
    intro among
    have clean := (settled score.txHash among).1 score member rfl
    rw [clean] at stale
    cases stale
  batches := by
    intro batch member entry purged ended onTime
    refine List.mem_filter.mpr ⟨queued.batches batch member entry purged ended onTime, ?_⟩
    rw [decide_eq_true_iff]
    intro among
    exact (settled entry.1 among).2 batch member ⟨entry, purged, rfl⟩ onTime
  fresh := queued.fresh
  session := fun rollback hashes current => queued.session rollback hashes (idle rollback hashes current)

/-- A batch that inserts on time writes rows whose hashes are queued. -/
private theorem queued_insert (queued : Queued state) {batch : Batch} (flying : batch ∈ state.batches)
    {written : List String} (onTime : ∀ txHash ∈ written, OnTime state batch txHash)
    (batches : List Batch) (rest : batches ⊆ state.batches) :
    Queued { state with
      txClassScores := state.txClassScores ++ written.map batch.score
      batches := batches } where
  scores := by
    intro score member rollback stale ended
    rcases List.mem_append.mp member with earlier | inserted
    · exact queued.scores score earlier rollback stale ended
    · obtain ⟨txHash, among, rfl⟩ := List.mem_map.mp inserted
      obtain ⟨⟨purgedHash, other⟩, found, rfl⟩ := List.mem_map.mp stale
      obtain ⟨purged, same⟩ := List.mem_filter.mp found
      obtain rfl : purgedHash = txHash := by simpa using same
      exact queued.batches batch flying _ purged ended (onTime purgedHash among)
  batches := fun other member => queued.batches other (rest member)
  fresh := queued.fresh
  session := queued.session

/-- A purge leaves no row of its hashes, and its own delay has not begun. -/
private theorem queued_purge (queued : Queued state) (hashes : List String) :
    Queued { state with
      txClassScores := deleteScoreRows hashes state.txClassScores
      batches := state.batches.map fun batch => batch.purge state.rollbacks hashes
      session := .enqueueing state.rollbacks hashes
      rollbacks := state.rollbacks + 1 } where
  scores := fun score member => queued.scores score (deleteScoreRows_subset _ _ member)
  batches := by
    intro batch member entry purged ended onTime
    obtain ⟨before, flying, rfl⟩ := List.mem_map.mp member
    rcases List.mem_append.mp purged with earlier | now
    · refine queued.batches before flying entry earlier ended ?_
      intro other among same
      exact onTime other (List.mem_append_left _ among) same
    · obtain ⟨txHash, -, rfl⟩ := List.mem_map.mp now
      rw [queued.fresh txHash state.rollbacks (Nat.le_refl _)] at ended
      cases ended
  fresh := fun txHash rollback beyond => queued.fresh txHash rollback (Nat.le_of_succ_le beyond)
  session := by
    intro rollback others current
    obtain ⟨rfl, -⟩ := Session.enqueueing.inj current
    exact Nat.lt_succ_self _

theorem mem_addPending {hashes pending : List String} {txHash : String} :
    txHash ∈ addPending hashes pending ↔ txHash ∈ pending ∨ txHash ∈ hashes := by
  simp only [addPending, List.mem_append, List.mem_filter, decide_eq_true_eq]
  by_cases queued : txHash ∈ pending <;> simp [queued]

/-- Queueing the hashes starts their delay. -/
private theorem queued_enqueue (queued : Queued state) {rollback ends : Nat} {hashes : List String}
    (current : state.session = .enqueueing rollback hashes) (tasks : List Task) :
    Queued { state with
      pendingScoreRepurges := addPending hashes state.pendingScoreRepurges
      repurgeTasks := tasks
      delayEnds := fun txHash other =>
        if other = rollback ∧ txHash ∈ hashes then some ends else state.delayEnds txHash other
      session := .syncing } where
  scores := by
    intro score member other stale ended
    rw [mem_addPending]
    by_cases among : score.txHash ∈ hashes
    · exact Or.inr among
    · simp only [among, and_false, if_false] at ended
      exact Or.inl (queued.scores score member other stale ended)
  batches := by
    intro batch member entry purged ended onTime
    rw [mem_addPending]
    by_cases among : entry.1 ∈ hashes
    · exact Or.inr among
    · simp only [OnTime, among, and_false, if_false] at ended onTime
      exact Or.inl (queued.batches batch member entry purged ended onTime)
  fresh := by
    intro txHash other beyond
    have earlier := queued.session rollback hashes current
    have different : other ≠ rollback := by
      rintro rfl
      dsimp only at beyond
      omega
    simpa [different] using queued.fresh txHash other beyond
  session := by simp

end

/-! ## Every step -/

private theorem queued_step {delay : Nat} {state next : State} {event : Event}
    (settled : ClearsSettled state event) (queued : Queued state)
    (stepped : step delay state event = some next) : Queued next := by
  cases event with
  | advance seconds =>
    obtain rfl := Option.some.inj stepped
    exact queued_mono queued (List.Subset.refl _) (List.Subset.refl _) (List.Subset.refl _)
      (Nat.le_add_right _ _) rfl rfl fun _ _ same => same
  | fetch hashes =>
    obtain rfl := Option.some.inj stepped
    refine ⟨queued.scores, ?_, queued.fresh, queued.session⟩
    intro batch member entry purged
    rcases List.mem_append.mp member with earlier | new
    · exact queued.batches batch earlier entry purged
    · obtain rfl := List.mem_singleton.mp new
      cases purged
  | insert index written outcome =>
    simp only [step] at stepped
    split at stepped
    · cases stepped
    · rename_i batch found
      split at stepped
      · rename_i allowed
        obtain rfl := Option.some.inj stepped
        have flying := List.mem_of_getElem? found
        cases outcome.applies with
        | true => exact queued_insert queued flying allowed.2 _ (List.eraseIdx_subset)
        | false =>
          exact queued_mono queued (by simp) List.eraseIdx_subset (List.Subset.refl _) (Nat.le_refl _)
            rfl rfl fun _ _ same => same
      · cases stepped
  | connect read =>
    simp only [step] at stepped
    split at stepped
    · split at stepped
      · obtain rfl := Option.some.inj stepped
        exact queued_session queued _ _ (by simp)
      · obtain rfl := Option.some.inj stepped
        exact queued_session queued _ _ (by simp)
    · cases stepped
  | replayDelete outcome =>
    simp only [step] at stepped
    split at stepped
    · obtain rfl := Option.some.inj stepped
      refine queued_delete queued _ _ _ _ ?_
      split
      · simp
      · simp
    · cases stepped
  | replayClear outcome =>
    simp only [step] at stepped
    split at stepped
    · rename_i hashes replayed
      obtain rfl := Option.some.inj stepped
      cases applied : outcome.applies with
      | true =>
        have all : ∀ txHash ∈ hashes, Settled state txHash := by
          simpa [ClearsSettled, cleared, replayed, applied] using settled
        exact queued_clear queued all .syncing (by simp) _
      | false =>
        exact queued_session queued _ _ (by simp)
    · cases stepped
  | purge hashes =>
    simp only [step] at stepped
    split at stepped
    · obtain rfl := Option.some.inj stepped
      exact queued_purge queued hashes
    · cases stepped
  | enqueue =>
    simp only [step] at stepped
    split at stepped
    · rename_i rollback hashes current
      obtain rfl := Option.some.inj stepped
      exact queued_enqueue queued current _
    · cases stepped
  | disconnect =>
    simp only [step] at stepped
    split at stepped
    · obtain rfl := Option.some.inj stepped
      exact queued_session queued _ _ (by simp)
    · cases stepped
  | wake index outcome =>
    simp only [step] at stepped
    split at stepped
    · cases stepped
    · split at stepped
      · split at stepped
        · obtain rfl := Option.some.inj stepped
          exact queued_delete queued _ _ _ _ fun _ _ same => same
        · obtain rfl := Option.some.inj stepped
          exact queued_session queued _ _ fun _ _ same => same
      · cases stepped
  | clear index outcome =>
    simp only [step] at stepped
    split at stepped
    · cases stepped
    · rename_i task found
      split at stepped
      · obtain rfl := Option.some.inj stepped
        cases applied : outcome.applies with
        | true =>
          have all : ∀ txHash ∈ task.hashes, Settled state txHash := by
            simpa [ClearsSettled, cleared, found, applied] using settled
          exact queued_clear queued all state.session (fun _ _ same => same) _
        | false =>
          exact queued_session queued _ _ fun _ _ same => same
      · cases stepped
  | stop =>
    obtain rfl := Option.some.inj stepped
    exact queued_mono queued (List.Subset.refl _) (List.Subset.refl _) (List.Subset.refl _)
      (Nat.le_refl _) rfl rfl fun _ _ same => same
  | crash =>
    obtain rfl := Option.some.inj stepped
    exact queued_mono queued (List.Subset.refl _) (List.nil_subset _) (List.Subset.refl _)
      (Nat.le_refl _) rfl rfl (by simp)

/-! ## Whole runs -/

/-- **Score repurges are not lost.**  In every run that clears queue rows for settled
hashes only, no stale score row is left without a queue row or a live task once the delay
has elapsed. -/
theorem stale_scores_covered (delay : Nat) {events : List Event} {state : State}
    (settled : Runs.EveryStep (step delay) ClearsSettled State.initial events)
    (reached : Runs.run (step delay) State.initial events = some state) : NoStaleScoreLeft state := by
  have queued : Queued state :=
    Runs.invariant_of_step (step delay) queued_step queued_initial settled reached
  rintro score member ⟨rollback, stale, ends, found, -⟩
  refine Or.inl (queued.scores score member rollback stale ?_)
  rw [Option.mem_def] at found
  rw [found]
  rfl

/-- A batch inserts its stale row inside the delay, the process crashes and the reconnect
replays the queue. -/
private def crashInsideDelay : List Event :=
  [.connect true, .fetch ["tx1"], .purge ["tx1"], .enqueue, .insert 0 ["tx1"] .answered, .advance 10,
    .crash, .advance 60, .connect true, .replayDelete .lost, .disconnect]

private def afterCrash : State := (Runs.run (step 60) State.initial crashInsideDelay).getD State.initial

/-- The replay after the crash failed, and the stale row is still queued. -/
theorem stale_scores_covered_after_crash :
    NoStaleScoreLeft afterCrash ∧ afterCrash.txClassScores ≠ [] :=
  ⟨stale_scores_covered 60 (by decide)
    (show Runs.run (step 60) State.initial crashInsideDelay = some afterCrash from rfl), by decide⟩

/-- A reconnect inside the delay replays and clears the queue while the batch is still in
flight; the batch inserts and the process crashes before the delayed task wakes. -/
private def reconnectInsideDelay : List Event :=
  [.connect true, .fetch ["tx1"], .purge ["tx1"], .enqueue, .disconnect, .advance 5, .connect true,
    .replayDelete .answered, .replayClear .answered, .insert 0 ["tx1"] .answered, .crash, .advance 60,
    .connect true]

private def afterReconnect : State :=
  (Runs.run (step 60) State.initial reconnectInsideDelay).getD State.initial

/-- The stale row outlives the delay with nothing left that would delete it. -/
theorem stale_score_outlives_replay :
    Runs.run (step 60) State.initial reconnectInsideDelay = some afterReconnect ∧
      ¬ NoStaleScoreLeft afterReconnect :=
  ⟨rfl, by decide⟩

end TransactionMonitoring.Repurge
