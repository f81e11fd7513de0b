import TransactionMonitoring.Backfill
import TransactionMonitoring.History

/-! What a backfill reports about itself.

`complete` is about the surroundings of the run: whether Kupo could vouch for its answer,
whether there was a checkpoint before the earliest target and whether the chain could give
times.  The targets the walk did not ingest are a list of their own.
-/
namespace TransactionMonitoring.BackfillReport
open Backfill Enrichment

/-- What is read of Kupo's `/health`. -/
structure Health where
  connectionStatus : Option String
  mostRecentCheckpoint : Option Int
deriving DecidableEq, Repr

structure ChainPoint where
  slot : Nat
  headerHash : String
deriving DecidableEq, Repr

/-- The reasons a run collects in `degraded`. -/
inductive Caveat where
  | healthUnknown
  | notConnected (status : Option String)
  | indexedOnlyTo (checkpoint : Int) (latestSlot : Nat)
  | noEarlierCheckpoint
  | chainTimeUnavailable
deriving DecidableEq, Repr

/-- `_kupo_completeness_reason`; no health is a failed probe. -/
def kupoCompletenessReason (health : Option Health) (latestSlot : Nat) : Option Caveat :=
  match health with
  | none => some .healthUnknown
  | some answer =>
      if answer.connectionStatus ≠ some "connected" then some (.notConnected answer.connectionStatus)
      else
        match answer.mostRecentCheckpoint with
        | none => none
        | some checkpoint => if checkpoint < latestSlot then some (.indexedOnlyTo checkpoint latestSlot) else none

/-- What a run meets besides the points of its targets. -/
structure Surroundings where
  health : Option Health
  /-- `ancestor_point` of the earliest target. -/
  anchor : Option ChainPoint
  /-- `slot_time_converter` returned one. -/
  chainTime : Bool
  replies : List Reply

/-- `degraded`, at the end of the run. -/
def Surroundings.degraded (run : Surroundings) (latestSlot : Nat) : List Caveat :=
  (kupoCompletenessReason run.health latestSlot).toList ++
  (if run.anchor.isNone then [.noEarlierCheckpoint] else []) ++
  (if run.chainTime then [] else [.chainTimeUnavailable])

/-- `BackfillResult`; `degraded_reason` is the list of its reasons. -/
structure Report extends BackfillResult where
  complete : Bool
  degradedReason : List Caveat
deriving DecidableEq, Repr

def Walk.report (needed : List String) (degraded : List Caveat) (walk : Walk) : Report :=
  { walk.result needed with complete := degraded.isEmpty, degradedReason := degraded }

/-- The result of `backfill_address`, if it returns one. -/
def backfillReport (warehouse : OutputRef → Option ResolvedRef) (points : List TxPoint) (run : Surroundings) :
    Option Report :=
  match backfillAddress warehouse points run.replies with
  | .finished walk =>
      some (Walk.report (neededOf points) (if points = [] then [] else run.degraded (latestOf points)) walk)
  | .waiting _ => none
  | .raised _ _ => none

/-! ## What the walk takes in -/

/-- A block after the last target, where the walk stops. -/
def isPast (latestSlot : Nat) : Reply → Bool
  | .forward block _ => block.slot.any (latestSlot < ·)
  | _ => false

/-- The replies up to the block the walk stops at. -/
def delivered (latestSlot : Nat) (replies : List Reply) : List Reply :=
  replies.takeWhile fun reply => !isPast latestSlot reply

section
variable {warehouse : OutputRef → Option ResolvedRef} {needed : List String} {latest : Nat}
  {walk last : Walk} {before replies : List Reply} {reply : Reply}

theorem nextReply_past (past : isPast latest reply = true) :
    nextReply warehouse needed latest walk reply = .stop := by
  cases reply with
  | forward block stores =>
    cases slotted : block.slot with
    | none => simp [isPast, slotted] at past
    | some slot =>
      have beyond : latest < slot := by simpa [isPast, slotted] using past
      simp [nextReply, slotted, beyond]
  | _ => cases past

theorem within_of_not_past (within : isPast latest reply = false) : reply.Within latest := by
  cases reply with
  | forward block stores =>
    intro slot slotted
    obtain slotted : block.slot = some slot := slotted
    simpa [isPast, slotted] using within
  | _ => trivial

/-- A walk that ends has seen every target exactly if every target came up to where it ended. -/
theorem scan_found_iff (tracks : Tracks needed before walk)
    (ended : scan warehouse needed latest walk replies = .finished last) :
    needed ⊆ last.seen ↔ FoundAll needed (before ++ delivered latest replies) := by
  induction replies generalizing before walk with
  | nil =>
    simp only [scan] at ended
    split at ended
    · obtain rfl := Outcome.finished.inj ended
      rw [tracks.subset_iff, delivered, List.takeWhile_nil, List.append_nil]
    · cases ended
  | cons reply rest ih =>
    simp only [scan] at ended
    split at ended
    · rename_i all
      obtain rfl := Outcome.finished.inj ended
      exact iff_of_true all (foundAll_mono (tracks.subset_iff.mp all))
    · cases past : isPast latest reply with
      | true =>
        rw [nextReply_past past] at ended
        obtain rfl := Outcome.finished.inj ended
        rw [tracks.subset_iff, delivered, List.takeWhile_cons_of_neg (by simp [past]), List.append_nil]
      | false =>
        rw [delivered, List.takeWhile_cons_of_pos (by simp [past]), ← delivered]
        rcases nextReply_cases warehouse tracks (within_of_not_past past) with
          ⟨next, goes, tracks, -⟩ | ⟨failure, fails, -⟩
        · rw [goes] at ended
          rw [ih tracks ended, List.append_assoc, List.singleton_append]
        · rw [fails] at ended
          cases ended

/-- The rows written are those of the targets seen. -/
def Ingested (walk : Walk) : Prop := walk.rows.map NormalizedTransaction.txHash = walk.seen

theorem ingested_of_nextReply {next : Walk} (ingested : Ingested walk)
    (goes : nextReply warehouse needed latest walk reply = .resume next) : Ingested next := by
  unfold nextReply at goes
  split at goes
  · cases goes
  · cases goes
  · split at goes
    · cases goes
    · obtain rfl := Next.resume.inj goes
      exact ingested
  · obtain rfl := Next.resume.inj goes
    exact ingested
  · obtain rfl := Next.resume.inj goes
    exact ingested
  · rename_i block stores
    split at goes
    · obtain rfl := Next.resume.inj goes
      exact ingested
    · split at goes
      · cases goes
      · simp only [ingestBlockTargets] at goes
        have seen := @parseTargets_seen needed walk.seen block.txs
        split at goes
        · rename_i none
          obtain rfl := Next.resume.inj goes
          rw [none, List.map_nil, List.append_nil] at seen
          exact ingested.trans seen.symm
        · split at goes
          · obtain rfl := Next.resume.inj goes
            have rows : (walk.rows ++ backfillRows (storedOutputs warehouse walk.rows) needed walk.seen block).map
                NormalizedTransaction.txHash = (parseTargets needed walk.seen block.txs).2 := by
              rw [List.map_append, ingested, seen, backfillRows, resolveInputAmounts, List.map_map]
              congr 1
              exact List.map_congr_left fun tx _ => resolveTx_txHash _ tx
            exact rows
          · cases goes

theorem ingested_of_scan (ingested : Ingested walk)
    (ended : scan warehouse needed latest walk replies = .finished last) : Ingested last := by
  induction replies generalizing walk with
  | nil =>
    simp only [scan] at ended
    split at ended
    · obtain rfl := Outcome.finished.inj ended
      exact ingested
    · cases ended
  | cons reply rest ih =>
    simp only [scan] at ended
    split at ended
    · obtain rfl := Outcome.finished.inj ended
      exact ingested
    · split at ended
      · rename_i next goes
        exact ih (ingested_of_nextReply ingested goes) ended
      · obtain rfl := Outcome.finished.inj ended
        exact ingested
      · cases ended

end

/-! ## The report -/

/-- Nothing around the run stands in the way of a complete answer. -/
structure Vouched (run : Surroundings) (latestSlot : Nat) : Prop where
  kupo : ∃ answer, run.health = some answer ∧ answer.connectionStatus = some "connected" ∧
    ∀ checkpoint ∈ answer.mostRecentCheckpoint, (latestSlot : Int) ≤ checkpoint
  anchored : run.anchor.isSome = true
  timed : run.chainTime = true

theorem kupoCompletenessReason_none_iff {health : Option Health} {latestSlot : Nat} :
    kupoCompletenessReason health latestSlot = none ↔
      ∃ answer, health = some answer ∧ answer.connectionStatus = some "connected" ∧
        ∀ checkpoint ∈ answer.mostRecentCheckpoint, (latestSlot : Int) ≤ checkpoint := by
  cases health with
  | none => simp [kupoCompletenessReason]
  | some answer =>
    simp only [kupoCompletenessReason, Option.some.injEq, exists_eq_left']
    split
    · rename_i other
      simp [other]
    · rename_i connected
      rw [not_not] at connected
      cases answer.mostRecentCheckpoint with
      | none => simp [connected]
      | some checkpoint =>
        simp only [connected, Option.mem_def, Option.some.injEq, forall_eq', true_and]
        split
        · rename_i behind
          exact iff_of_false nofun (not_le.mpr behind)
        · rename_i reached
          exact iff_of_true rfl (not_lt.mp reached)

theorem degraded_nil_iff {run : Surroundings} {latestSlot : Nat} :
    run.degraded latestSlot = [] ↔ Vouched run latestSlot := by
  have anchored : (if run.anchor.isNone then [Caveat.noEarlierCheckpoint] else []) = [] ↔
      run.anchor.isSome = true := by
    cases run.anchor with
    | none => simp
    | some point => simp
  have timed : (if run.chainTime then [] else [Caveat.chainTimeUnavailable]) = [] ↔ run.chainTime = true := by
    cases run.chainTime with
    | false => simp
    | true => simp
  simp only [Surroundings.degraded, List.append_eq_nil_iff, Option.toList_eq_nil_iff, anchored, timed,
    kupoCompletenessReason_none_iff]
  constructor
  · rintro ⟨⟨kupo, anchored⟩, timed⟩
    exact ⟨kupo, anchored, timed⟩
  · rintro ⟨kupo, anchored, timed⟩
    exact ⟨⟨kupo, anchored⟩, timed⟩

/-- A result accounts for every target: it is ingested or reported missing, and `complete`
says that nothing was reported about the run's surroundings.  Nothing is missing exactly if
every target parses in a block that came before the walk stopped. -/
theorem report_accounts_for_targets (warehouse : OutputRef → Option ResolvedRef) (points : List TxPoint)
    (run : Surroundings) (report : Report) (reported : backfillReport warehouse points run = some report) :
    (report.complete = true ↔ points = [] ∨ Vouched run (latestOf points)) ∧
    (∀ hash, hash ∈ report.missingTxHashes ↔ hash ∈ neededOf points ∧
      hash ∉ (backfillAddress warehouse points run.replies).rows.map NormalizedTransaction.txHash) ∧
    (report.missingTxHashes = [] ↔
      FoundAll (neededOf points) (delivered (latestOf points) run.replies)) := by
  unfold backfillReport at reported
  split at reported
  case h_2 => cases reported
  case h_3 => cases reported
  rename_i walk ended
  obtain rfl := Option.some.inj reported
  have missing : ∀ hash, hash ∈ (walk.result (neededOf points)).missingTxHashes ↔
      hash ∈ neededOf points ∧ hash ∉ walk.seen := by
    intro hash
    simp [Walk.result, List.mem_insertionSort]
  have nothing : (walk.result (neededOf points)).missingTxHashes = [] ↔ neededOf points ⊆ walk.seen := by
    rw [List.eq_nil_iff_forall_not_mem]
    refine forall_congr' fun hash => ?_
    rw [missing hash, not_and, not_not]
  have walked : Ingested walk ∧ (neededOf points ⊆ walk.seen ↔
      FoundAll (neededOf points) (delivered (latestOf points) run.replies)) := by
    unfold backfillAddress at ended
    split at ended
    · rename_i none
      obtain rfl := Outcome.finished.inj ended
      refine ⟨rfl, iff_of_true ?_ ?_⟩
      · simp [none, neededOf]
      · intro hash named
        simp [none, neededOf] at named
    · have start : Tracks (neededOf points) [] emptyWalk := by
        refine ⟨fun hash => ?_, fun hash member => ?_, ?_⟩
        · simp [emptyWalk]
        · cases member
        · simp [emptyWalk]
      have nothingYet : Ingested emptyWalk := rfl
      refine ⟨ingested_of_scan nothingYet ended, ?_⟩
      rw [scan_found_iff start ended, List.nil_append]
  refine ⟨?_, ?_, ?_⟩
  · rw [Walk.report, List.isEmpty_iff, ← degraded_nil_iff]
    split
    · rename_i none
      exact iff_of_true rfl (Or.inl none)
    · rename_i some
      exact (or_iff_right some).symm
  · intro hash
    rw [Walk.report, missing hash, ended, ← walked.1]
    rfl
  · rw [Walk.report, nothing]
    exact walked.2

private def targetTx (id : String) (parses : Bool) : RawTx :=
  ⟨id, parses, true, 1, [⟨"old", 0⟩], [], [], [⟨"b", 8, none⟩], none, []⟩

private def targetBlock : Block := ⟨some 100, [targetTx "aa" true, targetTx "bb" false], by decide⟩
private def nextBlock : Block := ⟨some 130, [], List.nodup_nil⟩

private def calm : Surroundings :=
  ⟨some ⟨some "connected", some 500⟩, some ⟨90, "h90"⟩, true,
    [.backward, .forward targetBlock true, .forward nextBlock true]⟩

private def noOutputs (_ : OutputRef) : Option ResolvedRef := none

theorem report_accounts_for_one_target :
    let points : List TxPoint := [⟨"aa", 100⟩]
    let report : Report := ⟨⟨1, 1, 1, []⟩, true, []⟩
    backfillReport noOutputs points calm = some report ∧
    (report.complete = true ↔ points = [] ∨ Vouched calm (latestOf points)) ∧
    (∀ hash, hash ∈ report.missingTxHashes ↔ hash ∈ neededOf points ∧
      hash ∉ (backfillAddress noOutputs points calm.replies).rows.map NormalizedTransaction.txHash) ∧
    (report.missingTxHashes = [] ↔ FoundAll (neededOf points) (delivered (latestOf points) calm.replies)) := by
  have reported : backfillReport noOutputs [⟨"aa", 100⟩] calm = some ⟨⟨1, 1, 1, []⟩, true, []⟩ := by decide
  exact ⟨reported, report_accounts_for_targets _ _ _ _ reported⟩

/-- One target does not parse and another is in no block; the result is complete all the same,
and the sidecar settles the address's history on it. -/
theorem complete_with_missing_targets :
    backfillReport noOutputs [⟨"aa", 100⟩, ⟨"bb", 100⟩, ⟨"cc", 120⟩] calm =
      some ⟨⟨3, 1, 1, ["bb", "cc"]⟩, true, []⟩ ∧
    History.checkHostJob (.job ⟨"done", some 200, true, 1⟩) = .landed 1 := by
  decide

end TransactionMonitoring.BackfillReport
