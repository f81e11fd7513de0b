import Mathlib.Data.List.Sort
import TransactionMonitoring.Enrichment

/-! On-demand backfill of an address's transactions.

An index names the transactions that touch the address; a chain-sync session of its own
walks the blocks from a point before the earliest of them and ingests the targets it meets.
Live ingestion sends every transaction of a block through parsing and input resolution,
backfill only the targets.

The ids of a block's transactions are distinct.
-/
namespace TransactionMonitoring.Backfill
open Enrichment

structure Block where
  slot : Option Nat
  txs : List RawTx
  distinct : (txs.map RawTx.id).Nodup

/-- The block's transactions as live ingestion parses them. -/
def Block.parsed (block : Block) : List NormalizedTransaction := block.txs.filterMap parseOgmiosTransaction

/-- The rows live ingestion writes for a block without cached resolutions. -/
def liveRows (warehouse : OutputRef → Option ResolvedRef) (block : Block) : List NormalizedTransaction :=
  resolveInputAmounts warehouse block.parsed

/-- The loop of `_ingest_block_targets`: the targets that parse, and `seen` with them. -/
def parseTargets (needed seen : List String) : List RawTx → List NormalizedTransaction × List String
  | [] => ([], seen)
  | tx :: rest =>
      if tx.id ∉ needed ∨ tx.id ∈ seen then parseTargets needed seen rest
      else
        match parseOgmiosTransaction tx with
        | none => parseTargets needed seen rest
        | some parsed =>
            let later := parseTargets needed (seen ++ [tx.id]) rest
            (parsed :: later.1, later.2)

/-- The rows `_ingest_block_targets` writes. -/
def backfillRows (warehouse : OutputRef → Option ResolvedRef) (needed seen : List String) (block : Block) :
    List NormalizedTransaction :=
  resolveInputAmounts warehouse (parseTargets needed seen block.txs).1

/-! ## Live and backfilled rows -/

/-- The transaction asks the warehouse for this output, if its batch has it not. -/
def Asks (tx : NormalizedTransaction) (ref : OutputRef) : Prop :=
  ∃ input ∈ tx.inputs, worthLookup tx input = true ∧ input.ref = ref

instance (tx : NormalizedTransaction) (ref : OutputRef) : Decidable (Asks tx ref) :=
  inferInstanceAs (Decidable (∃ input ∈ tx.inputs, _ ∧ _))

/-- No spending or collateral input of a target depends on a transaction of the block that
is not one: none has an output there, and none is alone in asking the warehouse for what a
validated target only puts up as collateral. -/
def TargetsStandAlone (warehouse : OutputRef → Option ResolvedRef) (needed : List String) (block : Block) :
    Prop :=
  ∀ tx ∈ block.parsed, tx.txHash ∈ needed → ∀ input ∈ tx.inputs, input.isReference = false →
    shown (intraBlock (block.parsed.filter (·.txHash ∉ needed)) input.ref) = shown none ∧
    (input.isCollateral = true → tx.scriptValid = true → shown (warehouse input.ref) ≠ shown none →
      (∃ other ∈ block.parsed, Asks other input.ref) →
      ∃ other ∈ block.parsed, other.txHash ∈ needed ∧ Asks other input.ref)

instance (warehouse : OutputRef → Option ResolvedRef) (needed : List String) (block : Block) :
    Decidable (TargetsStandAlone warehouse needed block) :=
  inferInstanceAs (Decidable (∀ tx ∈ block.parsed, _ → ∀ input ∈ tx.inputs, _ → _ ∧ _))

section
variable {needed seen : List String} {txs : List NormalizedTransaction} {ref : OutputRef}

theorem parsed_hash {raw : RawTx} {tx : NormalizedTransaction} (parsed : parseOgmiosTransaction raw = some tx) :
    tx.txHash = raw.id := by
  unfold parseOgmiosTransaction at parsed
  split at parsed
  · obtain rfl := Option.some.inj parsed
    rfl
  · cases parsed

/-- The targets of a block with distinct ids, none of them met before. -/
theorem parseTargets_eq {raws : List RawTx} (distinct : (raws.map RawTx.id).Nodup)
    (unmet : ∀ raw ∈ raws, raw.id ∉ seen) :
    (parseTargets needed seen raws).1 =
      (raws.filterMap parseOgmiosTransaction).filter fun tx => tx.txHash ∈ needed := by
  induction raws generalizing seen with
  | nil => rfl
  | cons raw rest ih =>
    rw [List.map_cons, List.nodup_cons] at distinct
    obtain ⟨here, unmet⟩ := List.forall_mem_cons.mp unmet
    simp only [parseTargets, here, or_false]
    split
    · rename_i other
      rw [ih distinct.2 unmet]
      cases parsed : parseOgmiosTransaction raw with
      | none => simp [parsed]
      | some tx => simp [parsed, parsed_hash parsed, other]
    · rename_i target
      rw [not_not] at target
      split
      · rename_i failed
        simp [failed, ih distinct.2 unmet]
      · rename_i tx parsed
        have fresh : ∀ other ∈ rest, other.id ∉ seen ++ [raw.id] := by
          intro other member
          rw [List.mem_append, not_or, List.mem_singleton]
          refine ⟨unmet other member, fun same => distinct.1 ?_⟩
          rw [← same]
          exact List.mem_map_of_mem member
        simp [parsed, parsed_hash parsed, target, ih distinct.2 fresh]

/-- Only the transaction a reference names has outputs there. -/
private theorem intraBlock_named :
    intraBlock txs ref = intraBlock (txs.filter (·.txHash = ref.txHash)) ref := by
  have same : ∀ list : List NormalizedTransaction, intraBlock list ref =
      (((list.flatMap outputRefs).filter fun entry => entry.1 = ref).getLast?).map Prod.snd := by
    intro list
    rw [intraBlock, ← List.head?_filter, List.filter_reverse, List.head?_reverse]
  rw [same, same]
  congr 2
  induction txs with
  | nil => rfl
  | cons tx rest ih =>
    rw [List.flatMap_cons, List.filter_append, ih, List.filter_cons]
    split
    · rw [List.flatMap_cons, List.filter_append]
    · rename_i other
      have none : (outputRefs tx).filter (fun entry => entry.1 = ref) = [] := by
        rw [List.filter_eq_nil_iff]
        intro entry member
        obtain ⟨idx, below, rfl⟩ := List.mem_mapIdx.mp member
        simp only [decide_eq_true_eq]
        rintro rfl
        exact other (by simp)
      rw [none, List.nil_append]

private theorem intraBlock_filter (kept : String → Bool) :
    intraBlock (txs.filter fun tx => kept tx.txHash) ref =
      if kept ref.txHash then intraBlock txs ref else none := by
  rw [intraBlock_named, List.filter_filter]
  have shape : (txs.filter fun tx => decide (tx.txHash = ref.txHash) && kept tx.txHash) =
      if kept ref.txHash then txs.filter (·.txHash = ref.txHash) else [] := by
    split
    · rename_i named
      refine List.filter_congr fun tx _ => ?_
      by_cases same : tx.txHash = ref.txHash
      · simp [same, named]
      · simp [same]
    · rename_i unnamed
      rw [List.filter_eq_nil_iff]
      intro tx _
      by_cases same : tx.txHash = ref.txHash
      · simp [same, unnamed]
      · simp [same]
  rw [shape]
  split
  · exact intraBlock_named.symm
  · rfl

private theorem mem_crossBlockRefs :
    ref ∈ crossBlockRefs txs ↔ (∃ tx ∈ txs, Asks tx ref) ∧ intraBlock txs ref = none := by
  simp only [crossBlockRefs, List.mem_flatMap, List.mem_filter, List.mem_map, Option.isNone_iff_eq_none, Asks]
  constructor
  · rintro ⟨tx, member, ⟨input, ⟨inTx, worth⟩, rfl⟩, none⟩
    exact ⟨⟨tx, member, input, inTx, worth, rfl⟩, none⟩
  · rintro ⟨⟨tx, member, input, inTx, worth, rfl⟩, none⟩
    exact ⟨tx, member, ⟨input, ⟨inTx, worth⟩, rfl⟩, none⟩

/-- The warehouse answers for what some transaction of the batch asks and the batch has not. -/
private theorem batchLookup_eq {warehouse : OutputRef → Option ResolvedRef} :
    batchLookup warehouse txs ref = (intraBlock txs ref).or
      (if ∃ tx ∈ txs, Asks tx ref then warehouse ref else none) := by
  unfold batchLookup getOutputsForRefs
  cases found : intraBlock txs ref with
  | some resolved => rfl
  | none => simp only [mem_crossBlockRefs, found, and_true, Option.none_or]

private theorem mem_of_intraBlock {resolved : ResolvedRef} (found : intraBlock txs ref = some resolved) :
    ∃ tx ∈ txs, tx.txHash = ref.txHash := by
  by_contra absent
  push Not at absent
  have none : txs.filter (·.txHash = ref.txHash) = [] := by
    rw [List.filter_eq_nil_iff]
    intro tx member
    simpa using absent tx member
  rw [intraBlock_named, none] at found
  cases found

end

theorem resolveTx_txHash (lookup : OutputRef → Option ResolvedRef) (tx : NormalizedTransaction) :
    (resolveTx lookup tx).txHash = tx.txHash := by
  simp only [resolveTx]
  split
  · rfl
  · rfl

/-- The transactions of the block that the backfill is after. -/
def Block.targets (block : Block) (needed : List String) : List NormalizedTransaction :=
  block.parsed.filter fun tx => tx.txHash ∈ needed

section
variable {warehouse : OutputRef → Option ResolvedRef} {needed : List String} {block : Block}
  {tx : NormalizedTransaction} {input : TransactionInput}

theorem Block.mem_targets : tx ∈ block.targets needed ↔ tx ∈ block.parsed ∧ tx.txHash ∈ needed := by
  simp [Block.targets]

private theorem fresh_of_mem_parsed (member : tx ∈ block.parsed) : Fresh tx := by
  obtain ⟨raw, -, parsed⟩ := List.mem_filterMap.mp member
  exact fresh_of_parsed parsed

/-- Before the block is stored, the warehouse has nothing the block itself provides. -/
private theorem unstored_of_intraBlock {ref : OutputRef} {resolved : ResolvedRef}
    (unstored : ∀ tx ∈ block.txs, ∀ index, warehouse ⟨tx.id, index⟩ = none)
    (found : intraBlock block.parsed ref = some resolved) : warehouse ref = none := by
  obtain ⟨provider, member, named⟩ := mem_of_intraBlock found
  obtain ⟨raw, inBlock, parsed⟩ := List.mem_filterMap.mp member
  have answer := unstored raw inBlock ref.index
  rwa [← parsed_hash parsed, named] at answer

/-- Every input a target really spends is asked for by the target itself; only an input put
up as collateral can depend on who else asks. -/
private theorem asked_alike_iff (member : tx ∈ block.parsed) (target : tx.txHash ∈ needed)
    (inTx : input ∈ tx.inputs) (spent : input.isReference = false) :
    shown (if ∃ other ∈ block.targets needed, Asks other input.ref then warehouse input.ref else none) =
        shown (if ∃ other ∈ block.parsed, Asks other input.ref then warehouse input.ref else none) ↔
      (input.isCollateral = true → tx.scriptValid = true → shown (warehouse input.ref) ≠ shown none →
        (∃ other ∈ block.parsed, Asks other input.ref) →
        ∃ other ∈ block.parsed, other.txHash ∈ needed ∧ Asks other input.ref) := by
  have asked : (∃ other ∈ block.targets needed, Asks other input.ref) ↔
      ∃ other ∈ block.parsed, other.txHash ∈ needed ∧ Asks other input.ref := by
    simp only [Block.mem_targets, and_assoc]
  rw [if_congr asked rfl rfl]
  by_cases byTarget : ∃ other ∈ block.parsed, other.txHash ∈ needed ∧ Asks other input.ref
  · obtain ⟨other, inBlock, named, asks⟩ := byTarget
    have anyone : ∃ other ∈ block.parsed, Asks other input.ref := ⟨other, inBlock, asks⟩
    rw [if_pos ⟨other, inBlock, named, asks⟩, if_pos anyone]
    exact iff_of_true rfl fun _ _ _ _ => ⟨other, inBlock, named, asks⟩
  · rw [if_neg byTarget]
    have idle : input.isCollateral = true ∧ tx.scriptValid = true := by
      by_contra worth
      refine byTarget ⟨tx, member, target, input, inTx, ?_, rfl⟩
      simp only [worthLookup, spent, ((fresh_of_mem_parsed member).inputs input inTx).2]
      cases collateral : input.isCollateral with
      | false => simp
      | true => simpa [collateral] using worth
    by_cases anyone : ∃ other ∈ block.parsed, Asks other input.ref
    · rw [if_pos anyone]
      simp only [idle, anyone, byTarget, true_implies, not_true_eq_false, imp_false, ne_eq, not_not]
      exact eq_comm
    · rw [if_neg anyone]
      exact iff_of_true rfl fun _ _ _ other => absurd other anyone

/-- What backfill and live ingestion show of one input of a target. -/
private theorem lookup_alike_iff
    (unstored : ∀ tx ∈ block.txs, ∀ index, warehouse ⟨tx.id, index⟩ = none)
    (member : tx ∈ block.parsed) (target : tx.txHash ∈ needed)
    (inTx : input ∈ tx.inputs) (spent : input.isReference = false) :
    shown (batchLookup warehouse (block.targets needed) input.ref) =
        shown (batchLookup warehouse block.parsed input.ref) ↔
      shown (intraBlock (block.parsed.filter (·.txHash ∉ needed)) input.ref) = shown none ∧
      (input.isCollateral = true → tx.scriptValid = true → shown (warehouse input.ref) ≠ shown none →
        (∃ other ∈ block.parsed, Asks other input.ref) →
        ∃ other ∈ block.parsed, other.txHash ∈ needed ∧ Asks other input.ref) := by
  have kept : intraBlock (block.targets needed) input.ref =
      if input.ref.txHash ∈ needed then intraBlock block.parsed input.ref else none := by
    rw [Block.targets, intraBlock_filter (fun hash => decide (hash ∈ needed))]
    simp
  have dropped : intraBlock (block.parsed.filter (·.txHash ∉ needed)) input.ref =
      if input.ref.txHash ∈ needed then none else intraBlock block.parsed input.ref := by
    rw [intraBlock_filter (fun hash => decide (hash ∉ needed))]
    simp
  rw [batchLookup_eq, batchLookup_eq, kept, dropped]
  cases found : intraBlock block.parsed input.ref with
  | none =>
    simp only [ite_self, Option.none_or, true_and]
    exact asked_alike_iff member target inTx spent
  | some resolved =>
    have empty := unstored_of_intraBlock unstored found
    by_cases named : input.ref.txHash ∈ needed
    · simp [named, empty]
    · simp only [named, if_false, empty, ite_self, Option.none_or, Option.some_or, ne_eq, not_true_eq_false,
        false_implies, implies_true, and_true]
      exact eq_comm

/-- Backfill writes for the targets of a block the rows live ingestion writes for them
exactly if the targets do not depend on the transactions it leaves out. -/
theorem backfill_rows_agree_iff (warehouse : OutputRef → Option ResolvedRef) (needed : List String)
    (block : Block) (unstored : ∀ tx ∈ block.txs, ∀ index, warehouse ⟨tx.id, index⟩ = none) :
    backfillRows warehouse needed [] block =
        (liveRows warehouse block).filter (fun tx => tx.txHash ∈ needed) ↔
      TargetsStandAlone warehouse needed block := by
  have targets : (parseTargets needed [] block.txs).1 = block.targets needed :=
    parseTargets_eq block.distinct fun _ _ => List.not_mem_nil
  have live : (liveRows warehouse block).filter (fun tx => tx.txHash ∈ needed) =
      (block.targets needed).map (resolveTx (batchLookup warehouse block.parsed)) := by
    simp only [liveRows, resolveInputAmounts, List.filter_map, Block.targets, Function.comp_def,
      resolveTx_txHash]
  rw [backfillRows, targets, live, resolveInputAmounts, List.map_inj_left, TargetsStandAlone]
  simp only [Block.mem_targets, and_imp]
  refine forall₃_congr fun tx member target => ?_
  rw [resolveTx_eq_iff (fresh_of_mem_parsed member)]
  exact forall₃_congr fun input inTx spent => lookup_alike_iff unstored member target inTx spent

end

/-- Spends a stored output and pays `b`. -/
private def parentTx : RawTx :=
  ⟨"parent", true, true, 1, [⟨"old", 0⟩], [], [], [⟨"b", 8, none⟩], none, []⟩

/-- Spends the output of `parentTx`. -/
private def childTx : RawTx :=
  ⟨"child", true, true, 1, [⟨"parent", 0⟩], [], [], [⟨"c", 7, none⟩], none, []⟩

private def chainedBlock : Block := ⟨some 5, [parentTx, childTx], by decide⟩

private def oldOutputs (ref : OutputRef) : Option ResolvedRef :=
  if ref.txHash = "old" then some ⟨"a", 9⟩ else none

private theorem chained_unstored :
    ∀ tx ∈ chainedBlock.txs, ∀ index, oldOutputs ⟨tx.id, index⟩ = none := by
  intro tx member index
  simp only [chainedBlock, List.mem_cons, List.not_mem_nil, or_false] at member
  rcases member with rfl | rfl
  · rfl
  · rfl

theorem backfill_rows_agree_both_targets :
    (∀ tx ∈ chainedBlock.txs, ∀ index, oldOutputs ⟨tx.id, index⟩ = none) ∧
    (backfillRows oldOutputs ["parent", "child"] [] chainedBlock =
        (liveRows oldOutputs chainedBlock).filter (fun tx => tx.txHash ∈ ["parent", "child"]) ↔
      TargetsStandAlone oldOutputs ["parent", "child"] chainedBlock) ∧
    TargetsStandAlone oldOutputs ["parent", "child"] chainedBlock :=
  ⟨chained_unstored, backfill_rows_agree_iff _ _ _ chained_unstored, by decide⟩

/-- The target spends an output of a transaction that backfill passes over: live ingestion
writes the payer's address and the value, backfill an unresolved input. -/
theorem backfill_misses_chained_input :
    (∀ tx ∈ chainedBlock.txs, ∀ index, oldOutputs ⟨tx.id, index⟩ = none) ∧
    backfillRows oldOutputs ["child"] [] chainedBlock ≠
      (liveRows oldOutputs chainedBlock).filter (fun tx => tx.txHash ∈ ["child"]) ∧
    (backfillRows oldOutputs ["child"] [] chainedBlock).map NormalizedTransaction.totalInputValue = [none] ∧
    (liveRows oldOutputs chainedBlock).map NormalizedTransaction.totalInputValue = [some 9, some 8] :=
  ⟨chained_unstored, by decide, by decide, by decide⟩

/-! ## The walk -/

/-- What comes back for one `nextBlock` request. -/
inductive Reply where
  /-- A block, and whether its targets can be resolved and stored. -/
  | forward (block : Block) (stores : Bool)
  | backward
  /-- A result without a direction or without a block. -/
  | empty
  /-- A JSON-RPC error. -/
  | error
  /-- A frame nested too deep to decode. -/
  | undecodable
  /-- The connection is closed; one that resumes is opened again at the same intersection. -/
  | closed (resumes : Bool)

inductive Failure where
  /-- `FrameUndecodableError`. -/
  | frameUndecodable
  /-- `BackfillError`. -/
  | nextBlock
  | dropped
  | store
deriving DecidableEq, Repr

/-- The variables of the walk, and the rows written so far. -/
structure Walk where
  seen : List String
  blocksScanned : Nat
  txsIngested : Nat
  reconnects : Nat
  rows : List NormalizedTransaction
deriving DecidableEq

/-- `_SCAN_RECONNECT_ATTEMPTS`. -/
def scanReconnectAttempts : Nat := 1

/-- What the loop does after a reply. -/
inductive Next where
  | resume (walk : Walk)
  | stop
  | raise (failure : Failure)
deriving DecidableEq

section
variable (warehouse : OutputRef → Option ResolvedRef) (needed : List String) (latest : Nat)

/-- The outputs stored by now: the walk's own rows replace what was there. -/
def storedOutputs (rows : List NormalizedTransaction) (ref : OutputRef) : Option ResolvedRef :=
  (intraBlock rows ref).or (warehouse ref)

/-- `_ingest_block_targets`. -/
def ingestBlockTargets (walk : Walk) (block : Block) (stores : Bool) : Next :=
  let targets := parseTargets needed walk.seen block.txs
  let scanned := { walk with seen := targets.2, blocksScanned := walk.blocksScanned + 1 }
  if targets.1 = [] then .resume scanned
  else if stores then
    .resume { scanned with
      txsIngested := walk.txsIngested + targets.1.length
      rows := walk.rows ++ backfillRows (storedOutputs warehouse walk.rows) needed walk.seen block }
  else .raise .store

/-- One round of the loop in `backfill_address`. -/
def nextReply (walk : Walk) : Reply → Next
  | .error => .raise .nextBlock
  | .undecodable => .raise .frameUndecodable
  | .closed resumes =>
      if scanReconnectAttempts < walk.reconnects + 1 ∨ resumes = false then .raise .dropped
      else .resume { walk with reconnects := walk.reconnects + 1 }
  | .backward => .resume walk
  | .empty => .resume walk
  | .forward block stores =>
      match block.slot with
      | none => .resume walk
      | some slot => if latest < slot then .stop else ingestBlockTargets warehouse needed walk block stores

/-- The end of the walk, if the replies take it there. -/
inductive Outcome where
  | waiting (walk : Walk)
  | finished (walk : Walk)
  | raised (walk : Walk) (failure : Failure)
deriving DecidableEq

/-- The loop `while needed - seen`, over the connections. -/
def scan (walk : Walk) : List Reply → Outcome
  | [] => if needed ⊆ walk.seen then .finished walk else .waiting walk
  | reply :: rest =>
      if needed ⊆ walk.seen then .finished walk
      else
        match nextReply warehouse needed latest walk reply with
        | .resume next => scan next rest
        | .stop => .finished walk
        | .raise failure => .raised walk failure

end

/-- A transaction of the address, as the index reports it. -/
structure TxPoint where
  txHash : String
  slot : Nat
deriving DecidableEq, Repr

/-- `needed`. -/
def neededOf (points : List TxPoint) : List String := (points.map TxPoint.txHash).dedup

/-- `latest`. -/
def latestOf (points : List TxPoint) : Nat := (points.map TxPoint.slot).foldr max 0

def emptyWalk : Walk := ⟨[], 0, 0, 0, []⟩

/-- `backfill_address`, after the intersection with the chain. -/
def backfillAddress (warehouse : OutputRef → Option ResolvedRef) (points : List TxPoint)
    (replies : List Reply) : Outcome :=
  if points = [] then .finished emptyWalk
  else scan warehouse (neededOf points) (latestOf points) emptyWalk replies

/-- `BackfillResult`, as far as the walk decides it. -/
structure BackfillResult where
  requestedTxs : Nat
  blocksScanned : Nat
  txsIngested : Nat
  missingTxHashes : List String
deriving DecidableEq, Repr

def Walk.result (needed : List String) (walk : Walk) : BackfillResult :=
  ⟨needed.length, walk.blocksScanned, walk.txsIngested,
    (needed.filter (· ∉ walk.seen)).insertionSort (· ≤ ·)⟩

inductive JobStatus where
  | running
  | done
  | failed
deriving DecidableEq, Repr

/-- The client's view of a job. -/
structure Job where
  status : JobStatus
  result : Option BackfillResult
  error : Option String
deriving DecidableEq, Repr

/-- `_safe_job_error`, for what the walk raises. -/
def safeJobError : Failure → String
  | .frameUndecodable => "Backfill failed unexpectedly; see server logs"
  | .nextBlock | .dropped | .store => "Backfill failed during the chain scan; see server logs"

/-- `_run`, before the time limit. -/
def runJob (needed : List String) : Outcome → Job
  | .waiting _ => ⟨.running, none, none⟩
  | .finished walk => ⟨.done, some (walk.result needed), none⟩
  | .raised _ failure => ⟨.failed, none, some (safeJobError failure)⟩

/-- The rows written by the end. -/
def Outcome.rows : Outcome → List NormalizedTransaction
  | .waiting walk | .finished walk | .raised walk _ => walk.rows

/-! ## Containment -/

/-- The transactions a reply brings that parse, by hash. -/
def Reply.parseable : Reply → List String
  | .forward block _ => if block.slot.isSome then block.parsed.map NormalizedTransaction.txHash else []
  | _ => []

/-- The reply is no block after the last target. -/
def Reply.Within (latest : Nat) : Reply → Prop
  | .forward block _ => ∀ slot ∈ block.slot, slot ≤ latest
  | _ => True

/-- Every target is in some block of the replies. -/
def FoundAll (needed : List String) (replies : List Reply) : Prop :=
  ∀ hash ∈ needed, ∃ reply ∈ replies, hash ∈ reply.parseable

/-- The job cannot go on from this reply: a frame that does not decode, an error, a second
lost connection, or new targets that cannot be stored. -/
def Ends (needed : List String) (before : List Reply) : Reply → Prop
  | .error => True
  | .undecodable => True
  | .closed resumes => resumes = false ∨ ∃ resumed, Reply.closed resumed ∈ before
  | .backward => False
  | .empty => False
  | .forward block stores => stores = false ∧
      ∃ hash ∈ needed, hash ∈ (Reply.forward block stores).parseable ∧
        ∀ reply ∈ before, hash ∉ reply.parseable

/-- Whenever the job cannot go on, it has found every target before. -/
def Survives (needed : List String) (before : List Reply) : List Reply → Prop
  | [] => True
  | reply :: rest =>
      (Ends needed before reply → FoundAll needed before) ∧ Survives needed (before ++ [reply]) rest

/-- The job ends with a result, and every target of the replies that parses has its row. -/
def Contained (needed : List String) (between : List Reply) (outcome : Outcome) : Prop :=
  (runJob needed outcome).status = .done ∧
  ∀ hash ∈ needed, (∃ reply ∈ between, hash ∈ reply.parseable) → ∃ row ∈ outcome.rows, row.txHash = hash

/-- What the walk knows after these replies. -/
structure Tracks (needed : List String) (before : List Reply) (walk : Walk) : Prop where
  seen : ∀ hash, hash ∈ walk.seen ↔ hash ∈ needed ∧ ∃ reply ∈ before, hash ∈ reply.parseable
  rows : ∀ hash ∈ walk.seen, ∃ row ∈ walk.rows, row.txHash = hash
  reconnects : 0 < walk.reconnects ↔ ∃ resumed, Reply.closed resumed ∈ before

section
variable {warehouse : OutputRef → Option ResolvedRef} {needed seen : List String} {latest : Nat}
  {walk : Walk} {before rest : List Reply} {reply : Reply}

theorem parseTargets_seen {raws : List RawTx} :
    (parseTargets needed seen raws).2 =
      seen ++ (parseTargets needed seen raws).1.map NormalizedTransaction.txHash := by
  induction raws generalizing seen with
  | nil => simp [parseTargets]
  | cons raw rest ih =>
    simp only [parseTargets]
    split
    · exact ih
    · split
      · exact ih
      · rename_i tx parsed
        simp [ih, parsed_hash parsed]

/-- The targets a block adds are those that parse and are new. -/
private theorem mem_parseTargets {raws : List RawTx} {hash : String} :
    hash ∈ (parseTargets needed seen raws).1.map NormalizedTransaction.txHash ↔
      hash ∈ needed ∧ hash ∉ seen ∧
        hash ∈ (raws.filterMap parseOgmiosTransaction).map NormalizedTransaction.txHash := by
  induction raws generalizing seen with
  | nil => simp [parseTargets]
  | cons raw rest ih =>
    simp only [parseTargets]
    split
    · rename_i passed
      rw [ih]
      cases parsed : parseOgmiosTransaction raw with
      | none => simp [parsed]
      | some tx =>
        have other : hash ∈ needed → hash ∉ seen → hash ≠ tx.txHash := by
          rintro named unseen rfl
          rw [parsed_hash parsed] at named unseen
          exact passed.elim (absurd named) unseen
        simp only [List.filterMap_cons, parsed, List.map_cons, List.mem_cons]
        constructor
        · rintro ⟨named, unseen, later⟩
          exact ⟨named, unseen, Or.inr later⟩
        · rintro ⟨named, unseen, here | later⟩
          · exact absurd here (other named unseen)
          · exact ⟨named, unseen, later⟩
    · rename_i target
      rw [not_or, not_not] at target
      split
      · rename_i failed
        rw [ih]
        simp [failed]
      · rename_i tx parsed
        simp only [List.filterMap_cons, parsed, List.map_cons, List.mem_cons, ih, List.mem_append,
          List.not_mem_nil, or_false, parsed_hash parsed]
        by_cases here : hash = raw.id
        · subst here
          simp [target]
        · simp [here]

theorem foundAll_mono {more : List Reply} (found : FoundAll needed before) :
    FoundAll needed (before ++ more) := by
  intro hash named
  obtain ⟨reply, member, brings⟩ := found hash named
  exact ⟨reply, List.mem_append_left _ member, brings⟩

private theorem survives_of_foundAll (found : FoundAll needed before) : Survives needed before rest := by
  induction rest generalizing before with
  | nil => trivial
  | cons reply rest ih => exact ⟨fun _ => found, ih (foundAll_mono found)⟩

theorem Tracks.subset_iff (tracks : Tracks needed before walk) :
    needed ⊆ walk.seen ↔ FoundAll needed before := by
  constructor
  · intro all hash named
    exact ((tracks.seen hash).mp (all named)).2
  · intro found hash named
    exact (tracks.seen hash).mpr ⟨named, found hash named⟩

/-- A reply that brings no transactions leaves what was seen as it is. -/
private theorem seen_idle (tracks : Tracks needed before walk) (nothing : reply.parseable = []) (hash : String) :
    hash ∈ walk.seen ↔ hash ∈ needed ∧ ∃ earlier ∈ before ++ [reply], hash ∈ earlier.parseable := by
  rw [tracks.seen]
  simp only [List.mem_append, List.mem_singleton, or_and_right, exists_or, exists_eq_left, nothing,
    List.not_mem_nil, or_false]

private theorem Tracks.idle (tracks : Tracks needed before walk) (nothing : reply.parseable = [])
    (connected : ∀ resumed, reply ≠ .closed resumed) : Tracks needed (before ++ [reply]) walk where
  seen := seen_idle tracks nothing
  rows := tracks.rows
  reconnects := by
    rw [tracks.reconnects]
    refine exists_congr fun resumed => ?_
    rw [List.mem_append, List.mem_singleton]
    exact (or_iff_left (connected resumed).symm).symm

private theorem Tracks.reconnect (tracks : Tracks needed before walk) (resumes : Bool) :
    Tracks needed (before ++ [.closed resumes]) { walk with reconnects := walk.reconnects + 1 } where
  seen := by
    have same := @seen_idle needed walk before (.closed resumes) tracks rfl
    exact same
  rows := tracks.rows
  reconnects := by
    refine iff_of_true (Nat.succ_pos _) ⟨resumes, ?_⟩
    rw [List.mem_append, List.mem_singleton]
    exact Or.inr rfl

/-- The targets a block brings that no earlier block brought. -/
private theorem mem_newTargets {block : Block} {slot : Nat} {stores : Bool} (slotted : block.slot = some slot)
    (hash : String) :
    hash ∈ (parseTargets needed walk.seen block.txs).1.map NormalizedTransaction.txHash ↔
      hash ∈ needed ∧ hash ∉ walk.seen ∧ hash ∈ (Reply.forward block stores).parseable := by
  have brings : (Reply.forward block stores).parseable = block.parsed.map NormalizedTransaction.txHash := by
    simp [Reply.parseable, slotted]
  rw [mem_parseTargets, brings]
  rfl

/-- What the walk has seen after a block. -/
private theorem seen_after_block {block : Block} {slot : Nat} {stores : Bool} (tracks : Tracks needed before walk)
    (slotted : block.slot = some slot) (hash : String) :
    hash ∈ (parseTargets needed walk.seen block.txs).2 ↔
      hash ∈ needed ∧ ∃ earlier ∈ before ++ [.forward block stores], hash ∈ earlier.parseable := by
  rw [parseTargets_seen, List.mem_append, @mem_newTargets _ _ _ _ stores slotted]
  simp only [List.mem_append, List.mem_singleton, or_and_right, exists_or, exists_eq_left]
  rw [tracks.seen]
  by_cases named : hash ∈ needed
  · by_cases earlier : ∃ reply ∈ before, hash ∈ reply.parseable
    · simp [named, earlier]
    · simp [named, earlier]
  · simp [named]

/-- A block's targets are stored and tracked, or the job ends over them. -/
private theorem ingestBlockTargets_cases {block : Block} {slot : Nat} {stores : Bool}
    (tracks : Tracks needed before walk) (slotted : block.slot = some slot) :
    (∃ next, ingestBlockTargets warehouse needed walk block stores = .resume next ∧
      Tracks needed (before ++ [.forward block stores]) next ∧
      ¬Ends needed before (.forward block stores)) ∨
    (ingestBlockTargets warehouse needed walk block stores = .raise .store ∧
      Ends needed before (.forward block stores)) := by
  have new := @mem_newTargets needed walk block slot stores slotted
  have seen := @seen_after_block needed walk before block slot stores tracks slotted
  have reconnects : 0 < walk.reconnects ↔
      ∃ resumed, Reply.closed resumed ∈ before ++ [.forward block stores] := by
    rw [tracks.reconnects]
    simp
  simp only [ingestBlockTargets]
  split
  · rename_i none
    refine Or.inl ⟨_, rfl, ⟨seen, ?_, reconnects⟩, ?_⟩
    · intro hash member
      rw [parseTargets_seen, none, List.map_nil, List.append_nil] at member
      exact tracks.rows hash member
    · rintro ⟨-, hash, named, here, unmet⟩
      have added : hash ∈ (parseTargets needed walk.seen block.txs).1.map NormalizedTransaction.txHash := by
        refine (new hash).mpr ⟨named, fun met => ?_, here⟩
        obtain ⟨-, reply, member, brought⟩ := (tracks.seen hash).mp met
        exact unmet reply member brought
      rw [none] at added
      cases added
  · rename_i some
    split
    · rename_i stored
      refine Or.inl ⟨_, rfl, ⟨seen, ?_, reconnects⟩, ?_⟩
      · intro hash member
        rw [parseTargets_seen, List.mem_append] at member
        rcases member with earlier | added
        · obtain ⟨row, written, named⟩ := tracks.rows hash earlier
          exact ⟨row, List.mem_append_left _ written, named⟩
        · obtain ⟨tx, target, rfl⟩ := List.mem_map.mp added
          refine ⟨resolveTx _ tx, List.mem_append_right _ (List.mem_map_of_mem target), ?_⟩
          exact resolveTx_txHash _ tx
      · rintro ⟨unstored, -⟩
        rw [stored] at unstored
        cases unstored
    · rename_i unstored
      obtain ⟨tx, target⟩ := List.exists_mem_of_ne_nil _ some
      obtain ⟨named, unseen, here⟩ := (new tx.txHash).mp (List.mem_map_of_mem target)
      refine Or.inr ⟨rfl, by simpa using unstored, tx.txHash, named, here, ?_⟩
      intro reply member brought
      exact unseen ((tracks.seen _).mpr ⟨named, reply, member, brought⟩)

variable (warehouse) in
/-- A reply up to the last target either leaves the walk tracking or ends the job. -/
theorem nextReply_cases (tracks : Tracks needed before walk) (within : reply.Within latest) :
    (∃ next, nextReply warehouse needed latest walk reply = .resume next ∧
      Tracks needed (before ++ [reply]) next ∧ ¬Ends needed before reply) ∨
    ∃ failure, nextReply warehouse needed latest walk reply = .raise failure ∧ Ends needed before reply := by
  cases reply with
  | error => exact Or.inr ⟨_, rfl, trivial⟩
  | undecodable => exact Or.inr ⟨_, rfl, trivial⟩
  | backward => exact Or.inl ⟨_, rfl, tracks.idle rfl (fun _ => by simp), id⟩
  | empty => exact Or.inl ⟨_, rfl, tracks.idle rfl (fun _ => by simp), id⟩
  | closed resumes =>
    have again : scanReconnectAttempts < walk.reconnects + 1 ↔ ∃ resumed, Reply.closed resumed ∈ before := by
      rw [← tracks.reconnects, scanReconnectAttempts]
      omega
    simp only [nextReply]
    split
    · rename_i lost
      exact Or.inr ⟨_, rfl, lost.symm.imp_right again.mp⟩
    · rename_i kept
      exact Or.inl ⟨_, rfl, tracks.reconnect resumes, fun lost => kept (lost.symm.imp_left again.mpr)⟩
  | forward block stores =>
    cases slotted : block.slot with
    | none =>
      have nothing : (Reply.forward block stores).parseable = [] := by simp [Reply.parseable, slotted]
      refine Or.inl ⟨walk, by simp [nextReply, slotted], tracks.idle nothing (fun _ => by simp), ?_⟩
      rintro ⟨-, hash, -, here, -⟩
      rw [nothing] at here
      cases here
    | some slot =>
      have inRange : ¬latest < slot := Nat.not_lt.mpr (within slot slotted)
      simp only [nextReply, slotted, inRange, if_false]
      rcases ingestBlockTargets_cases tracks slotted with goes | ends
      · exact Or.inl goes
      · exact Or.inr ⟨_, ends⟩

private theorem Tracks.finished (tracks : Tracks needed before walk)
    (found : ∀ hash ∈ needed, (∃ reply ∈ before ++ rest, hash ∈ reply.parseable) →
      ∃ reply ∈ before, hash ∈ reply.parseable) :
    Contained needed (before ++ rest) (.finished walk) := by
  refine ⟨rfl, fun hash named brought => ?_⟩
  exact tracks.rows hash ((tracks.seen hash).mpr ⟨named, found hash named brought⟩)

/-- From any point of the walk on, up to a block after the last target. -/
private theorem scan_contained_iff {past : Block} {slot : Nat} {stores : Bool}
    (tracks : Tracks needed before walk) (within : ∀ reply ∈ rest, reply.Within latest)
    (slotted : past.slot = some slot) (beyond : latest < slot) :
    Contained needed (before ++ rest)
        (scan warehouse needed latest walk (rest ++ [.forward past stores])) ↔
      Survives needed before rest := by
  induction rest generalizing before walk with
  | nil =>
    refine iff_of_true ?_ trivial
    have ended : scan warehouse needed latest walk [.forward past stores] = .finished walk := by
      simp only [scan, nextReply, slotted, beyond, if_true, ite_self]
    rw [List.nil_append, ended]
    exact tracks.finished fun _ _ brought => by simpa using brought
  | cons reply rest ih =>
    rw [List.cons_append, scan]
    split
    · rename_i all
      have found := tracks.subset_iff.mp all
      exact iff_of_true (tracks.finished fun hash named _ => found hash named) (survives_of_foundAll found)
    · rename_i some
      rw [tracks.subset_iff] at some
      obtain ⟨here, within⟩ := List.forall_mem_cons.mp within
      rcases nextReply_cases warehouse tracks here with ⟨next, goes, tracks, harmless⟩ | ⟨failure, fails, ends⟩
      · have later := ih tracks within
        rw [List.append_assoc, List.singleton_append] at later
        simp only [goes, later, Survives, harmless, false_implies, true_and]
      · simp only [fails, Survives, ends, true_implies, some, false_and, iff_false]
        rintro ⟨failed, -⟩
        cases failed

end

/-- The walk up to the last target loses nothing but what it cannot read exactly if the job
meets no undecodable frame, nor another failure, before it has found every target. -/
theorem backfill_contained_iff (warehouse : OutputRef → Option ResolvedRef) (points : List TxPoint)
    (between : List Reply) (past : Block) (slot : Nat) (stores : Bool)
    (within : ∀ reply ∈ between, reply.Within (latestOf points))
    (slotted : past.slot = some slot) (beyond : latestOf points < slot) :
    Contained (neededOf points) between
        (backfillAddress warehouse points (between ++ [.forward past stores])) ↔
      Survives (neededOf points) [] between := by
  have start : Tracks (neededOf points) [] emptyWalk := by
    refine ⟨fun hash => ?_, fun hash member => ?_, ?_⟩
    · simp [emptyWalk]
    · cases member
    · simp [emptyWalk]
  unfold backfillAddress
  split
  · rename_i none
    subst none
    refine iff_of_true ⟨rfl, fun hash named => ?_⟩ (survives_of_foundAll fun hash named => ?_)
    · cases named
    · cases named
  · exact scan_contained_iff start within slotted beyond

private def parentBlock : Block := ⟨some 5, [parentTx], by decide⟩
private def childBlock : Block := ⟨some 6, [childTx], by decide⟩
private def pastBlock : Block := ⟨some 7, [], by decide⟩

private theorem parent_within :
    ∀ reply ∈ [Reply.forward parentBlock true, .undecodable], reply.Within (latestOf [⟨"parent", 5⟩]) := by
  intro reply member
  simp only [List.mem_cons, List.not_mem_nil, or_false] at member
  rcases member with rfl | rfl
  · rintro slot ⟨⟩
    decide
  · trivial

theorem backfill_contained_before_bad_frame :
    (∀ reply ∈ [Reply.forward parentBlock true, .undecodable], reply.Within (latestOf [⟨"parent", 5⟩])) ∧
    pastBlock.slot = some 7 ∧ latestOf [⟨"parent", 5⟩] < 7 ∧
    Contained (neededOf [⟨"parent", 5⟩]) [.forward parentBlock true, .undecodable]
      (backfillAddress oldOutputs [⟨"parent", 5⟩]
        ([.forward parentBlock true, .undecodable] ++ [.forward pastBlock true])) := by
  refine ⟨parent_within, rfl, by decide, ?_⟩
  refine (backfill_contained_iff oldOutputs _ _ pastBlock 7 true parent_within rfl (by decide)).mpr ?_
  refine ⟨fun ends => ?_, fun _ hash named => ?_, trivial⟩
  · obtain ⟨stores, -⟩ := ends
    cases stores
  · refine ⟨_, List.mem_singleton_self _, ?_⟩
    revert hash
    decide

/-- A frame that does not decode, between two blocks with a target each: the job fails and
the second target, in a block that decodes, is not ingested. -/
theorem bad_frame_strands_later_target :
    (∀ reply ∈ [Reply.forward parentBlock true, .undecodable, .forward childBlock true],
      reply.Within (latestOf [⟨"parent", 5⟩, ⟨"child", 6⟩])) ∧
    ¬Contained (neededOf [⟨"parent", 5⟩, ⟨"child", 6⟩])
      [.forward parentBlock true, .undecodable, .forward childBlock true]
      (backfillAddress oldOutputs [⟨"parent", 5⟩, ⟨"child", 6⟩]
        [.forward parentBlock true, .undecodable, .forward childBlock true, .forward pastBlock true]) ∧
    (runJob ["parent", "child"] (backfillAddress oldOutputs [⟨"parent", 5⟩, ⟨"child", 6⟩]
      [.forward parentBlock true, .undecodable, .forward childBlock true, .forward pastBlock true])) =
      ⟨.failed, none, some "Backfill failed unexpectedly; see server logs"⟩ ∧
    "child" ∈ (Reply.forward childBlock true).parseable ∧
    (backfillAddress oldOutputs [⟨"parent", 5⟩, ⟨"child", 6⟩]
      [.forward parentBlock true, .undecodable, .forward childBlock true, .forward pastBlock true]).rows.map
        NormalizedTransaction.txHash = ["parent"] := by
  refine ⟨?_, ?_, by decide, by decide, by decide⟩
  · intro reply member
    simp only [List.mem_cons, List.not_mem_nil, or_false] at member
    rcases member with rfl | rfl | rfl
    · rintro slot ⟨⟩
      decide
    · trivial
    · rintro slot ⟨⟩
      decide
  · rintro ⟨done, -⟩
    revert done
    decide

end TransactionMonitoring.Backfill
