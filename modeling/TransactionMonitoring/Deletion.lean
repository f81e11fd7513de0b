import TransactionMonitoring.Jobs
import TransactionMonitoring.Publish

/-! Deleting a watched contract.

`delete_contract` purges the tables of the sidecar one after the other under `enqueue_lock`, when
no job of the target is running.  Renames, label writes, the feed and classify requests read
first and write later; the worker runs jobs and records their failures.  Each storage call is a
step of its own, except inside the other sections under the lock.
-/
namespace TransactionMonitoring.Deletion
open TransactionMonitoring.Faults

inductive Table where
  | clusterLabels
  | anomalyScores
  | transactions
  | txUtxos
  | txUtxoAssets
  | ingestCursor
  | clusterRuns
  | anomalyRuns
  | jobs
  | txLabels
  | clusterModels
  | txClassifications
  | txContractAnomaly
  | contracts
deriving DecidableEq, Repr

/-- The order of the purge: the two tables keyed by run, then `_TARGET_KEYED_TABLES`. -/
def purgeOrder : List Table :=
  [.clusterLabels, .anomalyScores, .transactions, .txUtxos, .txUtxoAssets, .ingestCursor, .clusterRuns,
    .anomalyRuns, .jobs, .txLabels, .clusterModels, .txClassifications, .txContractAnomaly, .contracts]

/-- A row of `contracts`. -/
structure Contract extends Feed.Contract where
  label : String
deriving DecidableEq, Repr

/-- A row of `tx_labels`. -/
structure TxLabel where
  target : String
  txHash : String
  label : Verdicts.Label
  source : Publish.LabelSource
  deleted : Bool
deriving DecidableEq, Repr

/-- A row of `tx_contract_anomaly`. -/
structure Anomaly where
  target : String
  txHash : String
deriving DecidableEq, Repr

/-- A row of `cluster_runs` with its rows of `cluster_labels`. -/
structure ClusterRun where
  runId : String
  target : String
  members : List (String × Int)
deriving DecidableEq, Repr

/-- The tables that the calls below read and write. -/
structure Tables where
  contracts : List Contract
  jobs : Jobs.Table
  labels : List TxLabel
  anomalies : List Anomaly
  runs : List ClusterRun
deriving DecidableEq

/-- `get_contract`. -/
def Tables.getContract (tables : Tables) (target : String) : Option Contract :=
  tables.contracts.find? (·.target = target)

/-- `save_contract`. -/
def Tables.saveContract (tables : Tables) (contract : Contract) : Tables :=
  { tables with contracts := tables.contracts.filter (·.target ≠ contract.target) ++ [contract] }

def withoutJobs (jobs : Jobs.Table) (target : String) : Jobs.Table where
  rows := jobs.rows.filter (·.target ≠ target)
  ids := jobs.ids.sublist (List.filter_sublist.map Jobs.Job.jobId)

/-- `ALTER TABLE … DELETE` of a target's rows in one table. -/
def Tables.purge (tables : Tables) (target : String) : Table → Tables
  | .clusterLabels =>
      { tables with runs := tables.runs.map fun run => if run.target = target then { run with members := [] } else run }
  | .clusterRuns => { tables with runs := tables.runs.filter (·.target ≠ target) }
  | .jobs => { tables with jobs := withoutJobs tables.jobs target }
  | .txLabels => { tables with labels := tables.labels.filter (·.target ≠ target) }
  | .txContractAnomaly => { tables with anomalies := tables.anomalies.filter (·.target ≠ target) }
  | .contracts => { tables with contracts := tables.contracts.filter (·.target ≠ target) }
  | .anomalyScores | .transactions | .txUtxos | .txUtxoAssets | .ingestCursor | .anomalyRuns | .clusterModels
  | .txClassifications => tables

/-- The table holds a row of the target. -/
def Tables.Has (tables : Tables) (target : String) : Table → Prop
  | .clusterRuns => ∃ run ∈ tables.runs, run.target = target
  | .jobs => ∃ job ∈ tables.jobs.rows, job.target = target
  | .txLabels => ∃ label ∈ tables.labels, label.target = target
  | .txContractAnomaly => ∃ anomaly ∈ tables.anomalies, anomaly.target = target
  | .contracts => ∃ contract ∈ tables.contracts, contract.target = target
  | .clusterLabels | .anomalyScores | .transactions | .txUtxos | .txUtxoAssets | .ingestCursor | .anomalyRuns
  | .clusterModels | .txClassifications => False

instance (tables : Tables) (target : String) : (table : Table) → Decidable (tables.Has target table)
  | .clusterRuns => inferInstanceAs (Decidable (∃ run ∈ tables.runs, run.target = target))
  | .jobs => inferInstanceAs (Decidable (∃ job ∈ tables.jobs.rows, job.target = target))
  | .txLabels => inferInstanceAs (Decidable (∃ label ∈ tables.labels, label.target = target))
  | .txContractAnomaly => inferInstanceAs (Decidable (∃ anomaly ∈ tables.anomalies, anomaly.target = target))
  | .contracts => inferInstanceAs (Decidable (∃ contract ∈ tables.contracts, contract.target = target))
  | .clusterLabels | .anomalyScores | .transactions | .txUtxos | .txUtxoAssets | .ingestCursor | .anomalyRuns
  | .clusterModels | .txClassifications => isFalse id

/-- A manual verdict, or its removal. -/
inductive Action where
  | label (verdict : Verdicts.Label)
  | clear
deriving DecidableEq, Repr

/-- The rows of `set_tx_labels` and `clear_tx_labels`. -/
def labelRows (target : String) (txHashes : List String) (source : Publish.LabelSource) : Action → List TxLabel
  | .label verdict => txHashes.map fun txHash => ⟨target, txHash, verdict, source, false⟩
  | .clear => txHashes.map fun txHash => ⟨target, txHash, .benign, .cluster, true⟩

/-- Where a call stands: what it has read and is about to do. -/
inductive Stage where
  | renaming (contract : Contract) (label : String)
  /-- `classify_new_contract`, or one contract of a `feed_tick`, before the lock. -/
  | enqueueing (request : Jobs.Request)
  | foundRun (target runId : String) (clusterId : Int) (action : Action)
  | labelling (target : String) (txHashes : List String) (source : Publish.LabelSource) (action : Action)
  /-- `_sync_host_projection`. -/
  | syncing (target : String)
  | deleting (target : String)
  | answered (status : Nat)
deriving DecidableEq, Repr

def Stage.target : Stage → Option String
  | .renaming contract _ => some contract.target
  | .enqueueing request => some request.target
  | .foundRun target _ _ _ | .labelling target _ _ _ | .syncing target | .deleting target => some target
  | .answered _ => none

/-- A call; `checked` where it began by reading a row of its target, `overlapped` where a purge of
its target was under way since. -/
structure Call where
  checked : Bool
  overlapped : Bool
  stage : Stage
deriving DecidableEq, Repr

/-- What is left to do after a pipeline has raised. -/
inductive Cleanup where
  /-- `process_contract` saves the contract as failed. -/
  | saveContract
  /-- `update_job` reads the row and inserts it again. -/
  | readJob (changes : Jobs.Changes)
  | writeJob (job : Jobs.Job)
deriving DecidableEq, Repr

def cleanups (kind : Feed.JobKind) (error : String) : List Cleanup :=
  match kind with
  | .onboard => [.saveContract, .readJob (Jobs.pipelineFailed kind error), .readJob (Jobs.failed error)]
  | .classify => [.readJob (Jobs.pipelineFailed kind error), .readJob (Jobs.failed error)]

inductive Worker where
  | idle
  | running (jobId target : String) (kind : Feed.JobKind)
  | failed (jobId target : String) (overlapped : Bool) (left : List Cleanup)
deriving DecidableEq, Repr

/-- The section of `delete_contract` under the lock, with the tables still to purge. -/
structure Purge where
  call : Nat
  target : String
  left : List Table
deriving DecidableEq, Repr

structure State where
  tables : Tables
  queue : List String
  /-- Every job id drawn so far. -/
  issued : List String
  worker : Worker
  calls : List Call
  lock : Option Purge
  /-- The targets whose deletion has returned success, not created again since. -/
  deleted : List String
deriving DecidableEq

def start (tables : Tables) (queue : List String) : State :=
  ⟨tables, queue, tables.jobs.rows.map Jobs.Job.jobId, .idle, [], none, []⟩

/-- A write of the pipeline that runs a job. -/
inductive Work where
  /-- `set_stage`. -/
  | stage (status : Jobs.Status) (detail : String) (txsDone : Option Nat)
  | saveContract (contract : Contract)
  | cluster (runId : String) (members : List (String × Int))
  /-- One insert of `publish_contract_anomaly`. -/
  | publish (txHashes : List String)
deriving DecidableEq, Repr

inductive Event where
  | rename (target label : String)
  | saveRenamed (call now : Nat) (insert : Outcome)
  | classifyNew (target : String)
  /-- A `feed_tick` lists the contract. -/
  | feed (target : String) (now : Int)
  /-- The section under the lock of a classify request or of a feed tick. -/
  | enqueue (call : Nat) (jobId : String) (insert : Outcome)
  | labelTx (target txHash : String) (action : Action)
  | labelCluster (runId : String) (clusterId : Int) (action : Action)
  | readMembers (call : Nat)
  | insertLabels (call : Nat) (insert : Outcome)
  /-- One insert of `publish_contract_anomaly`: the rows of these transactions. -/
  | publish (call : Nat) (txHashes : List String) (insert : Outcome)
  | finish (call : Nat)
  | delete (target : String)
  | lock (call : Nat)
  | purge (outcome : Outcome)
  | succeed
  /-- The section under the lock of `create_contract`. -/
  | create (target targetType label jobId : String) (targetTxs reprocess now : Nat) (save insert : Outcome)
  | pick (answered : Bool) (error : String)
  | work (work : Work) (outcome : Outcome) (error : String)
  /-- Any other call of the pipeline raises. -/
  | raised (error : String)
  | cleanup (contract : Contract) (outcome : Outcome)
  | close
deriving DecidableEq, Repr

/-- A purge of the target is under way. -/
def State.BeingPurged (state : State) (target : String) : Prop := ∃ purge ∈ state.lock, purge.target = target

instance (state : State) (target : String) : Decidable (state.BeingPurged target) :=
  inferInstanceAs (Decidable (∃ purge ∈ state.lock, purge.target = target))

/-- A call begins with this stage; one that checks nothing has `checked` false. -/
def State.begin (state : State) (checked : Bool) (target : String) (stage : Stage) : State :=
  { state with calls := state.calls ++ [⟨checked, decide (state.BeingPurged target), stage⟩] }

def State.move (state : State) (index : Nat) (call : Call) (stage : Stage) : State :=
  { state with calls := state.calls.set index { call with stage } }

/-- A call answers with this status. -/
def State.answer (state : State) (index status : Nat) : State :=
  { state with calls := state.calls.set index ⟨false, false, .answered status⟩ }

def State.refuse (state : State) (status : Nat) : State :=
  { state with calls := state.calls ++ [⟨false, false, .answered status⟩] }

/-- Every call and failing job of the target has been overlapped by its purge. -/
def Call.overlap (target : String) (call : Call) : Call :=
  if call.stage.target = some target then { call with overlapped := true } else call

def Worker.overlap (target : String) : Worker → Worker
  | .failed jobId job overlapped left => .failed jobId job (overlapped || decide (job = target)) left
  | .idle => .idle
  | .running jobId job kind => .running jobId job kind

/-- `200`, or what an exception becomes. -/
def statusOf (outcome : Outcome) : Nat := if outcome.returns then 200 else 500

/-- The status of `reject_if_target_busy`. -/
def rejection (state : State) (request : Jobs.Request) : Nat :=
  if Jobs.targetInJobs state.tables.jobs.nonterminal request.target then 409 else 429

/-- The row of `create_contract`; a name set before is kept where the request has none. -/
def newContract (tables : Tables) (target targetType label : String) (now : Nat) : Contract where
  target
  targetType
  status := .pending
  driftScore := 0
  fitCoverage := Feed.coverageUnknown
  lastFitAt := 0
  updatedAt := now
  label := if label = "" then ((tables.getContract target).map Contract.label).getD "" else label

/-- A client has created the contract. -/
def State.created (state : State) (contract : Contract) : State :=
  { state with
    tables := state.tables.saveContract contract
    deleted := state.deleted.filter (· ≠ contract.target) }

/-- `create_job`, and `enqueue` where it returned. -/
def State.enqueueJob (state : State) (job : Jobs.Job) (insert : Outcome) : State :=
  { state with
    tables := if insert.applies then { state.tables with jobs := state.tables.jobs.put job } else state.tables
    queue := if insert.returns then state.queue ++ [job.jobId] else state.queue
    issued := job.jobId :: state.issued }

/-- What a write of the pipeline does to the tables, and whether it returned. -/
def Tables.work (tables : Tables) (jobId target : String) (outcome : Outcome) : Work → Tables × Bool
  | .stage status detail txsDone =>
      let (jobs, returned) := Jobs.updateJob tables.jobs jobId ⟨status, some detail, txsDone, none⟩ outcome
      ({ tables with jobs }, returned)
  | .saveContract contract =>
      (if outcome.applies then tables.saveContract { contract with target } else tables, outcome.returns)
  | .cluster runId members =>
      (if outcome.applies then { tables with runs := tables.runs ++ [⟨runId, target, members⟩] } else tables,
        outcome.returns)
  | .publish txHashes =>
      (if outcome.applies then { tables with anomalies := tables.anomalies ++ txHashes.map (⟨target, ·⟩) } else tables,
        outcome.returns)

/-- The pipelines set neither status themselves. -/
def Work.Possible : Work → Prop
  | .stage status _ _ => status ≠ .queued ∧ status ≠ .failed
  | .saveContract _ | .cluster _ _ | .publish _ => True

instance : (work : Work) → Decidable work.Possible
  | .stage status _ _ => inferInstanceAs (Decidable (status ≠ .queued ∧ status ≠ .failed))
  | .saveContract _ | .cluster _ _ | .publish _ => isTrue trivial

/-- Both pipelines return after `done`. -/
def Work.Last : Work → Prop
  | .stage status _ _ => status = .done
  | .saveContract _ | .cluster _ _ | .publish _ => False

instance : (work : Work) → Decidable work.Last
  | .stage status _ _ => inferInstanceAs (Decidable (status = .done))
  | .saveContract _ | .cluster _ _ | .publish _ => isFalse id

section Calls
variable (settings : Jobs.Settings)

/-- The steps of the requests and of the feed. -/
@[simp] def callStep (state : State) : Event → Option State
  | .rename target label =>
      match state.tables.getContract target with
      | some contract => some (state.begin true target (.renaming contract label))
      | none => some (state.refuse 404)
  | .saveRenamed index now insert =>
      match state.calls[index]? with
      | some ⟨_, _, .renaming contract label⟩ =>
          some { state.answer index (statusOf insert) with
            tables :=
              if insert.applies then state.tables.saveContract { contract with label, updatedAt := now }
              else state.tables }
      | _ => none
  | .classifyNew target =>
      match state.tables.getContract target with
      | some contract =>
          some (state.begin true target (.enqueueing (.classifyNew contract.target contract.targetType)))
      | none => some (state.refuse 404)
  | .feed target now =>
      match state.tables.getContract target with
      | some contract => some (state.begin true target (.enqueueing (.feed contract.toContract now)))
      | none => none
  | .enqueue index jobId insert =>
      match state.calls[index]?, state.lock with
      | some ⟨_, _, .enqueueing request⟩, none =>
          if jobId ∈ state.issued then none
          else if request.Rejected settings state.tables.jobs.nonterminal then
            some (state.answer index (rejection state request))
          else
            match request.job settings jobId with
            | none => some (state.answer index 200)
            | some job =>
                some ((state.answer index (statusOf insert)).enqueueJob job insert)
      | _, _ => none
  | .labelTx target txHash action => some (state.begin false target (.labelling target [txHash] .manualTx action))
  | .labelCluster runId clusterId action =>
      match state.tables.runs.find? (·.runId = runId) with
      | some run => some (state.begin true run.target (.foundRun run.target runId clusterId action))
      | none => some (state.refuse 404)
  | .readMembers index =>
      match state.calls[index]? with
      | some ⟨checked, overlapped, .foundRun target runId clusterId action⟩ =>
          let rows := (state.tables.runs.filter (·.runId = runId)).flatMap ClusterRun.members
          let txHashes := (rows.filter (·.2 = clusterId)).map Prod.fst
          if clusterId < 0 then some (state.answer index 422)
          else if txHashes = [] ∧ action ≠ .clear then some (state.answer index 404)
          else some (state.move index ⟨checked, overlapped, .foundRun target runId clusterId action⟩
            (.labelling target txHashes .cluster action))
      | _ => none
  | .insertLabels index insert =>
      match state.calls[index]? with
      | some ⟨checked, overlapped, .labelling target txHashes source action⟩ =>
          let written := if insert.applies then
            { state.tables with labels := state.tables.labels ++ labelRows target txHashes source action }
          else state.tables
          if insert.returns then
            let call : Call := ⟨checked, overlapped, .labelling target txHashes source action⟩
            some { state.move index call (.syncing target) with
              tables := written }
          else some { state.answer index 500 with tables := written }
      | _ => none
  | .publish index txHashes insert =>
      match state.calls[index]? with
      | some ⟨_, _, .syncing target⟩ =>
          let written := if insert.applies then
            { state.tables with anomalies := state.tables.anomalies ++ txHashes.map (⟨target, ·⟩) } else state.tables
          -- What a projection sync raises is logged, and the label write stands.
          if insert.returns then some { state with tables := written }
          else some { state.answer index 200 with tables := written }
      | _ => none
  | .finish index =>
      match state.calls[index]? with
      | some ⟨_, _, .syncing _⟩ => some (state.answer index 200)
      | _ => none
  | .delete target =>
      match state.tables.getContract target with
      | some _ => some (state.begin true target (.deleting target))
      | none => some (state.refuse 404)
  | .lock index =>
      match state.calls[index]?, state.lock with
      | some ⟨_, _, .deleting target⟩, none =>
          if Jobs.targetInJobs state.tables.jobs.nonterminal target then some (state.answer index 409)
          else some { state with
            calls := state.calls.map (Call.overlap target)
            worker := state.worker.overlap target
            lock := some ⟨index, target, purgeOrder⟩ }
      | _, _ => none
  | .purge outcome =>
      match state.lock with
      | some ⟨index, target, table :: left⟩ =>
          let purged := if outcome.applies then state.tables.purge target table else state.tables
          if outcome.returns then some { state with tables := purged, lock := some ⟨index, target, left⟩ }
          else some { state.answer index 500 with tables := purged, lock := none }
      | _ => none
  | .succeed =>
      match state.lock with
      | some ⟨index, target, []⟩ =>
          some { state.answer index 200 with lock := none, deleted := target :: state.deleted }
      | _ => none
  | .create target targetType label jobId targetTxs reprocess now save insert =>
      let request := Jobs.Request.createContract target targetType targetTxs reprocess
      if state.lock ≠ none ∨ jobId ∈ state.issued then none
      else if request.Rejected settings state.tables.jobs.nonterminal then some (state.refuse (rejection state request))
      else
        let saved :=
          if save.applies then state.created (newContract state.tables target targetType label now) else state
        match save.returns, request.job settings jobId with
        | true, some job => some (saved.enqueueJob job insert)
        | _, _ => some saved
  | _ => none

/-- The steps of the job worker. -/
@[simp] def workerStep (state : State) : Event → Option State
  | .pick answered error =>
      match state.worker, state.queue with
      | .idle, jobId :: rest =>
          match state.tables.jobs.find jobId with
          | none => some { state with queue := rest }
          | some job =>
              if answered = false then
                -- `get_job` has raised.
                some { state with
                  queue := rest
                  worker := .failed jobId job.target (decide (state.BeingPurged job.target))
                    [.readJob (Jobs.failed error)] }
              else if job.Terminal then some { state with queue := rest }
              else some { state with queue := rest, worker := .running jobId job.target job.kind }
      | _, _ => none
  | .work work outcome error =>
      match state.worker with
      | .running jobId target kind =>
          if ¬ work.Possible then none
          else
            let (tables, returned) := state.tables.work jobId target outcome work
            some { state with
              tables
              worker :=
                if returned = false then .failed jobId target false (cleanups kind error)
                else if work.Last then .idle
                else .running jobId target kind }
      | _ => none
  | .raised error =>
      match state.worker with
      | .running jobId target kind => some { state with worker := .failed jobId target false (cleanups kind error) }
      | _ => none
  | .cleanup contract outcome =>
      match state.worker with
      | .failed jobId target overlapped (.saveContract :: left) =>
          some { state with
            tables := if outcome.applies then state.tables.saveContract { contract with target } else state.tables
            worker := .failed jobId target overlapped left }
      | .failed jobId target overlapped (.readJob changes :: left) =>
          let read := if outcome.returns then state.tables.jobs.find jobId else none
          some { state with
            worker := .failed jobId target overlapped
              (match read with
              | some job => .writeJob (changes.merge job) :: left
              | none => left) }
      | .failed jobId target overlapped (.writeJob job :: left) =>
          some { state with
            tables := if outcome.applies then { state.tables with jobs := state.tables.jobs.put job } else state.tables
            worker := .failed jobId target overlapped left }
      | _ => none
  | .close =>
      match state.worker with
      | .failed _ _ _ [] => some { state with worker := .idle }
      | _ => none
  | _ => none

def step (state : State) (event : Event) : Option State :=
  (callStep settings state event).or (workerStep state event)

end Calls

/-! ## Rows of a deleted target -/

/-- The table has been purged of the target's rows for good, or its purge has passed it. -/
def State.Closed (state : State) (target : String) (table : Table) : Prop :=
  target ∈ state.deleted ∨ ∃ purge ∈ state.lock, purge.target = target ∧ table ∉ purge.left

instance (state : State) (target : String) (table : Table) : Decidable (state.Closed target table) :=
  inferInstanceAs (Decidable (_ ∨ ∃ purge ∈ state.lock, purge.target = target ∧ table ∉ purge.left))

/-- The target is deleted or being purged. -/
def State.Touched (state : State) (target : String) : Prop := target ∈ state.deleted ∨ state.BeingPurged target

/-- A row about to be written; `excused` where the writer began with a check of the target and no
purge of it was under way since. -/
structure Write where
  table : Table
  target : String
  excused : Bool
deriving DecidableEq, Repr

section Writes
variable (settings : Jobs.Settings)

/-- The write of a call, or of the worker after a failure, that this event makes. -/
def writes (state : State) : Event → Option Write
  | .saveRenamed index _ insert =>
      match state.calls[index]? with
      | some ⟨checked, overlapped, .renaming contract _⟩ =>
          if insert.applies then some ⟨.contracts, contract.target, checked && !overlapped⟩ else none
      | _ => none
  | .enqueue index jobId insert =>
      match state.calls[index]? with
      | some ⟨checked, overlapped, .enqueueing request⟩ =>
          if insert.applies ∧ request.job settings jobId ≠ none ∧
              ¬ request.Rejected settings state.tables.jobs.nonterminal then
            some ⟨.jobs, request.target, checked && !overlapped⟩
          else none
      | _ => none
  | .insertLabels index insert =>
      match state.calls[index]? with
      | some ⟨checked, overlapped, .labelling target txHashes _ _⟩ =>
          if insert.applies ∧ txHashes ≠ [] then some ⟨.txLabels, target, checked && !overlapped⟩ else none
      | _ => none
  | .publish index txHashes insert =>
      match state.calls[index]? with
      | some ⟨checked, overlapped, .syncing target⟩ =>
          if insert.applies ∧ txHashes ≠ [] then some ⟨.txContractAnomaly, target, checked && !overlapped⟩ else none
      | _ => none
  | .cleanup _ outcome =>
      match state.worker with
      | .failed _ target overlapped (.saveContract :: _) =>
          if outcome.applies then some ⟨.contracts, target, !overlapped⟩ else none
      | .failed _ _ overlapped (.writeJob job :: _) =>
          if outcome.applies then some ⟨.jobs, job.target, !overlapped⟩ else none
      | _ => none
  | _ => none

/-- A write that a purge of its target overlaps, or that no check precedes, does not come after
the purge of its table. -/
def Timely (state : State) (event : Event) : Prop :=
  ∀ write ∈ writes settings state event, write.excused = true ∨ ¬ state.Closed write.target write.table

instance (state : State) (event : Event) : Decidable (Timely settings state event) :=
  inferInstanceAs (Decidable (∀ write ∈ writes settings state event, write.excused = true ∨ ¬ state.Closed _ _))

end Writes

/-- The write that is left ends this job. -/
def Cleanup.Ends (jobId target : String) : Cleanup → Prop
  | .saveContract => True
  | .readJob changes => changes.status = .failed
  | .writeJob job => job.jobId = jobId ∧ job.target = target ∧ job.Terminal

/-- What each phase of the worker's job has established. -/
def State.WorkerKept (state : State) : Prop :=
  match state.worker with
  | .idle => True
  | .running jobId target _ =>
      jobId ∈ state.issued ∧
        ∃ job ∈ state.tables.jobs.rows, job.jobId = jobId ∧ job.target = target ∧ ¬ job.Terminal
  | .failed jobId target overlapped left =>
      jobId ∈ state.issued ∧ (∀ job ∈ state.tables.jobs.rows, job.jobId = jobId → job.target = target) ∧
        (overlapped = false → ¬ state.Touched target) ∧
        ∀ cleanup ∈ left, cleanup.Ends jobId target

structure Kept (state : State) : Prop where
  closed : ∀ target table, state.Closed target table → ¬ state.tables.Has target table
  /-- No job of a target being purged is running or waiting. -/
  quiet : ∀ purge ∈ state.lock, ∀ job ∈ state.tables.jobs.rows, job.target = purge.target → job.Terminal
  issued : ∀ job ∈ state.tables.jobs.rows, job.jobId ∈ state.issued
  calls : ∀ call ∈ state.calls, call.checked = true → call.overlapped = false →
    ∀ target ∈ call.stage.target, ¬ state.Touched target
  worker : state.WorkerKept

theorem State.Closed.touched {state : State} {target : String} {table : Table} (closed : state.Closed target table) :
    state.Touched target := by
  rcases closed with deleted | ⟨purge, held, same, _⟩
  · exact Or.inl deleted
  · exact Or.inr ⟨purge, held, same⟩

/-- The only rows that come to the tables are the target's in one table. -/
def Adds (tables next : Tables) (target : String) (table : Table) : Prop :=
  ∀ other changed, next.Has other changed → tables.Has other changed ∨ (other = target ∧ changed = table)

theorem adds_saveContract (tables : Tables) (contract : Contract) :
    Adds tables (tables.saveContract contract) contract.target .contracts := by
  intro other changed present
  cases changed with
  | contracts =>
    obtain ⟨row, member, rfl⟩ := present
    rcases List.mem_append.mp member with kept | new
    · exact Or.inl ⟨row, (List.mem_filter.mp kept).1, rfl⟩
    · obtain rfl := List.mem_singleton.mp new
      exact Or.inr ⟨rfl, rfl⟩
  | _ => exact Or.inl present

theorem adds_putJob (tables : Tables) (job : Jobs.Job) :
    Adds tables { tables with jobs := tables.jobs.put job } job.target .jobs := by
  intro other changed present
  cases changed with
  | jobs =>
    obtain ⟨row, member, rfl⟩ := present
    rcases Jobs.mem_put.mp member with ⟨kept, _⟩ | rfl
    · exact Or.inl ⟨row, kept, rfl⟩
    · exact Or.inr ⟨rfl, rfl⟩
  | _ => exact Or.inl present

theorem target_of_labelRows {target : String} {txHashes : List String} {source : Publish.LabelSource}
    {action : Action} {row : TxLabel} (member : row ∈ labelRows target txHashes source action) :
    row.target = target := by
  cases action with
  | label verdict =>
    obtain ⟨txHash, _, rfl⟩ := List.mem_map.mp member
    rfl
  | clear =>
    obtain ⟨txHash, _, rfl⟩ := List.mem_map.mp member
    rfl

theorem adds_labels (tables : Tables) (target : String) (txHashes : List String) (source : Publish.LabelSource)
    (action : Action) :
    Adds tables { tables with labels := tables.labels ++ labelRows target txHashes source action } target
      .txLabels := by
  intro other changed present
  cases changed with
  | txLabels =>
    obtain ⟨row, member, rfl⟩ := present
    rcases List.mem_append.mp member with kept | new
    · exact Or.inl ⟨row, kept, rfl⟩
    · exact Or.inr ⟨target_of_labelRows new, rfl⟩
  | _ => exact Or.inl present

theorem adds_anomalies (tables : Tables) (target : String) (txHashes : List String) :
    Adds tables { tables with anomalies := tables.anomalies ++ txHashes.map (⟨target, ·⟩) } target
      .txContractAnomaly := by
  intro other changed present
  cases changed with
  | txContractAnomaly =>
    obtain ⟨row, member, rfl⟩ := present
    rcases List.mem_append.mp member with kept | new
    · exact Or.inl ⟨row, kept, rfl⟩
    · obtain ⟨txHash, _, rfl⟩ := List.mem_map.mp new
      exact Or.inr ⟨rfl, rfl⟩
  | _ => exact Or.inl present

theorem adds_run (tables : Tables) (run : ClusterRun) :
    Adds tables { tables with runs := tables.runs ++ [run] } run.target .clusterRuns := by
  intro other changed present
  cases changed with
  | clusterRuns =>
    obtain ⟨row, member, rfl⟩ := present
    rcases List.mem_append.mp member with kept | new
    · exact Or.inl ⟨row, kept, rfl⟩
    · obtain rfl := List.mem_singleton.mp new
      exact Or.inr ⟨rfl, rfl⟩
  | _ => exact Or.inl present

/-- Purging a table takes its rows of the target and adds none anywhere. -/
theorem has_of_purge {tables : Tables} {target other : String} {table changed : Table}
    (present : (tables.purge target table).Has other changed) :
    tables.Has other changed ∧ ¬ (other = target ∧ changed = table) := by
  cases table with
  | clusterLabels =>
    cases changed with
    | clusterRuns =>
      obtain ⟨run, member, rfl⟩ := present
      obtain ⟨before, found, rfl⟩ := List.mem_map.mp member
      refine ⟨⟨before, found, ?_⟩, fun same => nomatch same.2⟩
      split
      · rfl
      · rfl
    | clusterLabels => cases present
    | _ => exact ⟨present, fun same => nomatch same.2⟩
  | clusterRuns | jobs | txLabels | txContractAnomaly | contracts =>
    cases changed with
    | clusterRuns | jobs | txLabels | txContractAnomaly | contracts =>
      first
      | exact ⟨present, fun same => nomatch same.2⟩
      | obtain ⟨row, member, rfl⟩ := present
        obtain ⟨found, apart⟩ := List.mem_filter.mp member
        exact ⟨⟨row, found, rfl⟩, fun same => of_decide_eq_true apart same.1⟩
    | _ => cases present
  | _ =>
    refine ⟨present, ?_⟩
    rintro ⟨_, rfl⟩
    exact present

/-! ## Steps of the calls -/

section Steps
variable {state : State}

/-- Calls that begin, move on or answer leave everything else as it is. -/
theorem Kept.withCalls (kept : Kept state) {calls : List Call}
    (checked : ∀ call ∈ calls, call.checked = true → call.overlapped = false →
      ∀ target ∈ call.stage.target, ¬ state.Touched target) : Kept { state with calls } :=
  ⟨kept.closed, kept.quiet, kept.issued, checked, kept.worker⟩

theorem Kept.answer (kept : Kept state) (index status : Nat) : Kept (state.answer index status) := by
  refine kept.withCalls (Runs.forall_mem_set kept.calls ?_ index)
  intro checked
  cases checked

theorem Kept.refuse (kept : Kept state) (status : Nat) : Kept (state.refuse status) := by
  refine kept.withCalls (Runs.forall_mem_concat kept.calls ?_)
  intro checked
  cases checked

/-- A call keeps its target on its way. -/
theorem Kept.move (kept : Kept state) {index : Nat} {call : Call} (found : state.calls[index]? = some call)
    {stage : Stage} (same : stage.target = call.stage.target) : Kept (state.move index call stage) := by
  refine kept.withCalls (Runs.forall_mem_set kept.calls ?_ index)
  intro checked apart target named
  exact kept.calls call (List.mem_of_getElem? found) checked apart target (same ▸ named)

/-- A call that has just read a row of its target begins before any purge of it, or is overlapped. -/
theorem Kept.begin (kept : Kept state) {checked : Bool} {target : String} {stage : Stage}
    (named : stage.target = some target) (read : checked = true → target ∉ state.deleted) :
    Kept (state.begin checked target stage) := by
  refine kept.withCalls (Runs.forall_mem_concat kept.calls ?_)
  intro sure apart other same
  obtain rfl : target = other := Option.some.inj (named.symm.trans same)
  rintro (deleted | purged)
  · exact read sure deleted
  · exact (of_decide_eq_false apart) purged

theorem Kept.not_deleted_of_contract (kept : Kept state) {target : String} {contract : Contract}
    (found : state.tables.getContract target = some contract) :
    contract.target = target ∧ target ∉ state.deleted := by
  have same : contract.target = target := by simpa using List.find?_some found
  refine ⟨same, fun deleted => kept.closed target .contracts (Or.inl deleted) ?_⟩
  exact ⟨contract, List.mem_of_find?_eq_some found, same⟩

/-- A call that begins by reading the contract. -/
theorem Kept.beginFound (kept : Kept state) {target : String} {contract : Contract}
    (found : state.tables.getContract target = some contract) {stage : Stage}
    (named : contract.target = target → stage.target = some target) : Kept (state.begin true target stage) := by
  obtain ⟨same, present⟩ := kept.not_deleted_of_contract found
  exact kept.begin (named same) fun _ => present

/-- Rows come only to tables that are not closed to their target. -/
theorem Kept.closed_of_adds (kept : Kept state) {tables : Tables} {target : String} {table : Table}
    (adds : Adds state.tables tables target table) (unclosed : ¬ state.Closed target table) :
    ∀ other changed, state.Closed other changed → ¬ tables.Has other changed := by
  intro other changed closed present
  rcases adds other changed present with before | ⟨rfl, rfl⟩
  · exact kept.closed other changed closed before
  · exact unclosed closed

/-- A write that leaves the jobs as they are, if it takes effect. -/
theorem Kept.write (kept : Kept state) {next : Tables} {target : String} {table : Table}
    (adds : Adds state.tables next target table) (jobs : next.jobs = state.tables.jobs) {applies : Bool}
    (unclosed : applies = true → ¬ state.Closed target table) :
    Kept { state with tables := if applies then next else state.tables } := by
  cases applies with
  | false => exact kept
  | true =>
    refine ⟨kept.closed_of_adds adds (unclosed rfl), ?_, ?_, kept.calls, ?_⟩
    · simp only [↓reduceIte, jobs]
      exact kept.quiet
    · simp only [↓reduceIte, jobs]
      exact kept.issued
    · have worker := kept.worker
      unfold State.WorkerKept at worker ⊢
      simp only [↓reduceIte, jobs]
      exact worker

/-- A write may follow where it is excused: its target is neither deleted nor being purged. -/
theorem Kept.unclosed (kept : Kept state) {settings : Jobs.Settings} {event : Event} (met : Timely settings state event)
    {call : Call} (member : call ∈ state.calls) {target : String} {table : Table}
    (named : call.stage.target = some target)
    (write : writes settings state event = some ⟨table, target, call.checked && !call.overlapped⟩) :
    ¬ state.Closed target table := by
  rcases met _ write with excused | unclosed
  · obtain ⟨checked, apart⟩ : call.checked = true ∧ call.overlapped = false := by simpa using excused
    intro closed
    exact kept.calls call member checked apart target named closed.touched
  · exact unclosed

/-- A job of an id never drawn before comes to a target that no purge has closed. -/
theorem Kept.enqueueJob (kept : Kept state) {job : Jobs.Job} {insert : Outcome} (fresh : job.jobId ∉ state.issued)
    (free : state.lock = none) (unclosed : insert.applies = true → ¬ state.Closed job.target .jobs) :
    Kept (state.enqueueJob job insert) := by
  have apart : ∀ jobId ∈ state.issued, jobId ≠ job.jobId := by
    rintro jobId drawn rfl
    exact fresh drawn
  have worker := kept.worker
  cases applies : insert.applies with
  | false =>
    simp only [State.enqueueJob, applies]
    refine ⟨kept.closed, kept.quiet, fun row member => List.mem_cons_of_mem _ (kept.issued row member), kept.calls, ?_⟩
    unfold State.WorkerKept at worker ⊢
    cases running : state.worker with
    | idle => trivial
    | running jobId target kind =>
      rw [running] at worker
      exact ⟨List.mem_cons_of_mem _ worker.1, worker.2⟩
    | failed jobId target overlapped left =>
      rw [running] at worker
      exact ⟨List.mem_cons_of_mem _ worker.1, worker.2⟩
  | true =>
    simp only [State.enqueueJob, applies, ↓reduceIte]
    refine ⟨kept.closed_of_adds (adds_putJob state.tables job) (unclosed applies), ?_, ?_, kept.calls, ?_⟩
    · intro purge held
      rw [show state.lock = none from free] at held
      cases held
    · intro row member
      rcases Jobs.mem_put.mp member with ⟨before, _⟩ | rfl
      · exact List.mem_cons_of_mem _ (kept.issued row before)
      · exact List.mem_cons_self ..
    · unfold State.WorkerKept at worker ⊢
      cases running : state.worker with
      | idle => trivial
      | running jobId target kind =>
        rw [running] at worker
        obtain ⟨drawn, row, member, rfl, same, live⟩ := worker
        exact ⟨List.mem_cons_of_mem _ drawn, row, Jobs.mem_put.mpr (Or.inl ⟨member, apart _ drawn⟩), rfl, same, live⟩
      | failed jobId target overlapped left =>
        rw [running] at worker
        obtain ⟨drawn, rows, rest⟩ := worker
        refine ⟨List.mem_cons_of_mem _ drawn, ?_, rest⟩
        intro row member same
        rcases Jobs.mem_put.mp member with ⟨before, _⟩ | rfl
        · exact rows row before same
        · exact absurd same.symm (apart _ drawn)

/-- What the worker has established lasts while no other target is deleted or purged and its jobs stay. -/
theorem Kept.worker_mono (kept : Kept state) {next : State} (worker : next.worker = state.worker)
    (issued : next.issued = state.issued) (touched : ∀ target, next.Touched target → state.Touched target)
    (rows : ∀ job ∈ next.tables.jobs.rows, job ∈ state.tables.jobs.rows)
    (live : ∀ job ∈ state.tables.jobs.rows, ¬ job.Terminal → job ∈ next.tables.jobs.rows) : next.WorkerKept := by
  have before := kept.worker
  unfold State.WorkerKept at before ⊢
  rw [worker, issued]
  cases running : state.worker with
  | idle => trivial
  | running jobId target kind =>
    rw [running] at before
    obtain ⟨drawn, row, member, same, own, alive⟩ := before
    exact ⟨drawn, row, live row member alive, same, own, alive⟩
  | failed jobId target overlapped left =>
    rw [running] at before
    obtain ⟨drawn, own, apart, written⟩ := before
    exact ⟨drawn, fun row member => own row (rows row member),
      fun clear now => apart clear (touched target now), written⟩

theorem Kept.calls_mono (kept : Kept state) {next : State} (calls : next.calls = state.calls)
    (touched : ∀ target, next.Touched target → state.Touched target) :
    ∀ call ∈ next.calls, call.checked = true → call.overlapped = false →
      ∀ target ∈ call.stage.target, ¬ next.Touched target := by
  rw [calls]
  intro call member checked apart target named now
  exact kept.calls call member checked apart target named (touched target now)

theorem Kept.created (kept : Kept state) (free : state.lock = none) (contract : Contract) :
    Kept (state.created contract) := by
  have touched : ∀ target, (state.created contract).Touched target → state.Touched target := by
    rintro target (deleted | purged)
    · exact Or.inl (List.mem_filter.mp deleted).1
    · exact Or.inr purged
  refine ⟨?_, kept.quiet, kept.issued, kept.calls_mono rfl touched,
    kept.worker_mono rfl rfl touched (fun _ member => member) (fun _ member _ => member)⟩
  rintro target table (deleted | ⟨purge, held, _⟩) present
  · obtain ⟨before, other⟩ := List.mem_filter.mp deleted
    rcases adds_saveContract state.tables contract target table present with earlier | ⟨rfl, _⟩
    · exact kept.closed target table (Or.inl before) earlier
    · exact (of_decide_eq_true other) rfl
  · rw [show (state.created contract).lock = none from free] at held
    cases held

theorem Kept.unlock (kept : Kept state) : Kept { state with lock := none } := by
  have touched : ∀ target, ({ state with lock := none } : State).Touched target → state.Touched target := by
    rintro target (deleted | ⟨purge, held, _⟩)
    · exact Or.inl deleted
    · cases held
  refine ⟨?_, (fun purge held => nomatch held), kept.issued, kept.calls_mono rfl touched,
    kept.worker_mono rfl rfl touched (fun _ member => member) (fun _ member _ => member)⟩
  rintro target table (deleted | ⟨purge, held, _⟩)
  · exact kept.closed target table (Or.inl deleted)
  · cases held

theorem mem_purgeOrder (table : Table) : table ∈ purgeOrder := by
  cases table <;> decide

theorem Kept.lock (kept : Kept state) {index : Nat} {target : String}
    (idle : ¬ Jobs.targetInJobs state.tables.jobs.nonterminal target) :
    Kept { state with
      calls := state.calls.map (Call.overlap target)
      worker := state.worker.overlap target
      lock := some ⟨index, target, purgeOrder⟩ } := by
  have untouched : ∀ other, other ≠ target → ¬ state.Touched other → ¬ (({ state with
      calls := state.calls.map (Call.overlap target)
      worker := state.worker.overlap target
      lock := some ⟨index, target, purgeOrder⟩ } : State).Touched other) := by
    rintro other apart before (deleted | ⟨purge, held, same⟩)
    · exact before (Or.inl deleted)
    · obtain rfl := Option.some.inj held
      exact apart same.symm
  refine ⟨?_, ?_, kept.issued, ?_, ?_⟩
  · rintro other table (deleted | ⟨purge, held, _, passed⟩)
    · exact kept.closed other table (Or.inl deleted)
    · obtain rfl := Option.some.inj held
      exact absurd (mem_purgeOrder table) passed
  · intro purge held job member same
    obtain rfl := Option.some.inj held
    by_contra live
    exact idle ⟨job, List.mem_filter.mpr ⟨member, by simpa using live⟩, same⟩
  · intro call member checked apart other named
    obtain ⟨before, found, rfl⟩ := List.mem_map.mp member
    unfold Call.overlap at checked apart named
    split at apart
    · cases apart
    · rename_i elsewhere
      rw [if_neg elsewhere] at checked named
      refine untouched other ?_ (kept.calls before found checked apart other named)
      rintro rfl
      exact elsewhere named
  · have worker := kept.worker
    unfold State.WorkerKept at worker ⊢
    cases running : state.worker with
    | idle => trivial
    | running jobId job kind =>
      rw [running] at worker
      exact worker
    | failed jobId job overlapped left =>
      rw [running] at worker
      obtain ⟨drawn, own, apart, written⟩ := worker
      refine ⟨drawn, own, ?_, written⟩
      intro clear
      obtain ⟨was, elsewhere⟩ : overlapped = false ∧ job ≠ target := by simpa using clear
      exact untouched job elsewhere (apart was)

theorem jobs_of_purge {tables : Tables} {target : String} {table : Table} {job : Jobs.Job}
    (member : job ∈ (tables.purge target table).jobs.rows) : job ∈ tables.jobs.rows := by
  cases table with
  | jobs => exact (List.mem_filter.mp member).1
  | _ => exact member

theorem job_survives_purge {tables : Tables} {target : String} (table : Table) {job : Jobs.Job}
    (member : job ∈ tables.jobs.rows) (other : job.target ≠ target) : job ∈ (tables.purge target table).jobs.rows := by
  cases table with
  | jobs => exact List.mem_filter.mpr ⟨member, by simpa using other⟩
  | _ => exact member

theorem Kept.purge (kept : Kept state) {index : Nat} {target : String} {table : Table} {left : List Table}
    (held : state.lock = some ⟨index, target, table :: left⟩) :
    Kept { state with tables := state.tables.purge target table, lock := some ⟨index, target, left⟩ } := by
  have touched : ∀ other, ({ state with
      tables := state.tables.purge target table
      lock := some ⟨index, target, left⟩ } : State).Touched other → state.Touched other := by
    rintro other (deleted | ⟨purge, now, same⟩)
    · exact Or.inl deleted
    · obtain rfl := Option.some.inj now
      exact Or.inr ⟨_, held, same⟩
  have quiet := kept.quiet _ held
  refine ⟨?_, ?_, fun job member => kept.issued job (jobs_of_purge member), kept.calls_mono rfl touched,
    kept.worker_mono rfl rfl touched (fun _ member => jobs_of_purge member) ?_⟩
  · rintro other changed (deleted | ⟨purge, now, same, passed⟩) present
    · exact kept.closed other changed (Or.inl deleted) (has_of_purge present).1
    · obtain rfl := Option.some.inj now
      obtain ⟨before, apart⟩ := has_of_purge present
      refine kept.closed other changed (Or.inr ⟨_, held, same, ?_⟩) before
      intro waiting
      rcases List.mem_cons.mp waiting with first | later
      · exact apart ⟨same.symm, first⟩
      · exact passed later
  · intro purge now job member same
    obtain rfl := Option.some.inj now
    exact quiet job (jobs_of_purge member) same
  · intro job member live
    exact job_survives_purge table member fun same => live (quiet job member same)

theorem Kept.succeed (kept : Kept state) {index : Nat} {target : String}
    (held : state.lock = some ⟨index, target, []⟩) :
    Kept { state with lock := none, deleted := target :: state.deleted } := by
  have touched : ∀ other, ({ state with lock := none, deleted := target :: state.deleted } : State).Touched other →
      state.Touched other := by
    rintro other (deleted | ⟨purge, now, _⟩)
    · rcases List.mem_cons.mp deleted with rfl | before
      · exact Or.inr ⟨_, held, rfl⟩
      · exact Or.inl before
    · cases now
  refine ⟨?_, (fun purge now => nomatch now), kept.issued, kept.calls_mono rfl touched,
    kept.worker_mono rfl rfl touched (fun _ member => member) (fun _ member _ => member)⟩
  rintro other table (deleted | ⟨purge, now, _⟩)
  · rcases List.mem_cons.mp deleted with rfl | before
    · exact kept.closed other table (Or.inr ⟨_, held, rfl, List.not_mem_nil⟩)
    · exact kept.closed other table (Or.inl before)
  · cases now

/-! ## Steps of the worker -/

theorem Kept.withWorker (kept : Kept state) (worker : Worker) (queue : List String)
    (established : ({ state with worker, queue } : State).WorkerKept) : Kept { state with worker, queue } :=
  ⟨kept.closed, kept.quiet, kept.issued, kept.calls, established⟩

/-- Two rows of one job are one row. -/
theorem one_of_jobId {jobs : Jobs.Table} {row other : Jobs.Job} (member : row ∈ jobs.rows) (found : other ∈ jobs.rows)
    (same : row.jobId = other.jobId) : row = other :=
  List.inj_on_of_nodup_map jobs.ids member found same

theorem Kept.not_deleted_of_job (kept : Kept state) {job : Jobs.Job} (member : job ∈ state.tables.jobs.rows) :
    job.target ∉ state.deleted :=
  fun deleted => kept.closed job.target .jobs (Or.inl deleted) ⟨job, member, rfl⟩

/-- While a job of a target is not over, the target is neither deleted nor being purged. -/
theorem Kept.untouched_of_live (kept : Kept state) {job : Jobs.Job} (member : job ∈ state.tables.jobs.rows)
    (live : ¬ job.Terminal) : ¬ state.Touched job.target := by
  rintro (deleted | ⟨purge, held, same⟩)
  · exact kept.not_deleted_of_job member deleted
  · exact live (kept.quiet purge held job member same.symm)

section Running
variable {jobId target : String} {kind : Feed.JobKind} (kept : Kept state)
  (running : state.worker = .running jobId target kind)
include kept running

theorem Kept.running_job : jobId ∈ state.issued ∧
    ∃ job ∈ state.tables.jobs.rows, job.jobId = jobId ∧ job.target = target ∧ ¬ job.Terminal := by
  have worker := kept.worker
  unfold State.WorkerKept at worker
  rw [running] at worker
  exact worker

theorem Kept.running_untouched : ¬ state.Touched target := by
  obtain ⟨_, job, member, _, rfl, live⟩ := kept.running_job running
  exact kept.untouched_of_live member live

theorem Kept.running_own {row : Jobs.Job} (member : row ∈ state.tables.jobs.rows) (same : row.jobId = jobId) :
    row.target = target := by
  obtain ⟨_, job, found, own, rfl, _⟩ := kept.running_job running
  exact congrArg Jobs.Job.target (one_of_jobId member found (same.trans own.symm))

end Running

theorem ends_of_cleanups {kind : Feed.JobKind} {error jobId target : String} :
    ∀ cleanup ∈ cleanups kind error, cleanup.Ends jobId target := by
  cases kind with
  | onboard => simp [cleanups, Cleanup.Ends, Jobs.pipelineFailed, Jobs.failed]
  | classify => simp [cleanups, Cleanup.Ends, Jobs.pipelineFailed, Jobs.failed]

theorem Kept.fail (kept : Kept state) {jobId target : String} {kind : Feed.JobKind}
    (running : state.worker = .running jobId target kind) (error : String) :
    Kept { state with worker := .failed jobId target false (cleanups kind error) } := by
  apply kept.withWorker
  have untouched := kept.running_untouched running
  exact ⟨(kept.running_job running).1, fun row member => kept.running_own running member,
    fun _ => untouched, ends_of_cleanups⟩

/-- Job rows come that are terminal and not purged already, or of a target that is not touched. -/
theorem Kept.setJobs (kept : Kept state) (idle : state.worker = .idle) {jobs : Jobs.Table}
    (rows : ∀ job ∈ jobs.rows, job ∈ state.tables.jobs.rows ∨
      (job.jobId ∈ state.issued ∧ ¬ state.Closed job.target .jobs ∧ (job.Terminal ∨ ¬ state.Touched job.target))) :
    Kept { state with tables := { state.tables with jobs } } := by
  refine ⟨?_, ?_, ?_, kept.calls, ?_⟩
  · intro other table closed present
    cases table with
    | jobs =>
      obtain ⟨job, member, rfl⟩ := present
      rcases rows job member with before | ⟨_, unclosed, _⟩
      · exact kept.closed job.target .jobs closed ⟨job, before, rfl⟩
      · exact unclosed closed
    | _ => exact kept.closed other _ closed present
  · intro purge held job member same
    rcases rows job member with before | ⟨_, _, terminal | untouched⟩
    · exact kept.quiet purge held job before same
    · exact terminal
    · exact absurd (Or.inr ⟨purge, held, same.symm⟩) untouched
  · intro job member
    rcases rows job member with before | ⟨drawn, _⟩
    · exact kept.issued job before
    · exact drawn
  · unfold State.WorkerKept
    simp only [idle]

theorem Kept.idle (kept : Kept state) : Kept { state with worker := .idle } :=
  kept.withWorker .idle state.queue trivial

/-- `set_stage` of a running job. -/
theorem Kept.setStage (kept : Kept state) {jobId target : String} {kind : Feed.JobKind}
    (running : state.worker = .running jobId target kind) (changes : Jobs.Changes) (outcome : Outcome) :
    Kept { state with
      tables := { state.tables with jobs := (Jobs.updateJob state.tables.jobs jobId changes outcome).1 }
      worker := .idle } := by
  have untouched := kept.running_untouched running
  apply kept.idle.setJobs rfl
  intro job member
  rcases Jobs.mem_updateJob member with before | ⟨current, found, own, rfl⟩
  · exact Or.inl before
  · have same : current.target = target := kept.running_own running found own
    have apart : ¬ state.Touched current.target := same ▸ untouched
    exact Or.inr ⟨kept.issued current found, fun closed => apart closed.touched, Or.inr apart⟩

/-- A write of a running pipeline that leaves the jobs as they are. -/
theorem Kept.writeByWorker (kept : Kept state) {jobId target : String} {kind : Feed.JobKind}
    (running : state.worker = .running jobId target kind) {next : Tables} {table : Table}
    (adds : Adds state.tables next target table) (jobs : next.jobs = state.tables.jobs) (applies returned : Bool)
    (error : String) :
    Kept { state with
      tables := if applies then next else state.tables
      worker := if returned = false then .failed jobId target false (cleanups kind error)
        else .running jobId target kind } := by
  have untouched := kept.running_untouched running
  have wrote := kept.write adds jobs fun (_ : applies = true) closed => untouched closed.touched
  cases returned with
  | false => exact wrote.fail running error
  | true =>
    apply wrote.withWorker
    have worker := wrote.worker
    unfold State.WorkerKept at worker ⊢
    simp only [running] at worker
    exact worker

theorem Kept.work (kept : Kept state) {next : State} {work : Work} {outcome : Outcome} {error : String}
    (stepped : workerStep state (.work work outcome error) = some next) : Kept next := by
  simp only [workerStep] at stepped
  split at stepped
  · rename_i jobId target kind running
    split at stepped
    · cases stepped
    · rename_i possible
      obtain rfl := Option.some.inj stepped
      cases work with
      | stage status detail txsDone =>
        have staged := kept.setStage running ⟨status, some detail, txsDone, none⟩ outcome
        have drawn := (kept.running_job running).1
        by_cases raised : (state.tables.work jobId target outcome (.stage status detail txsDone)).2 = false
        · rw [if_pos raised]
          apply staged.withWorker
          have untouched := kept.running_untouched running
          refine ⟨drawn, ?_, fun _ => untouched, ends_of_cleanups⟩
          intro row member same
          rcases Jobs.mem_updateJob member with before | ⟨current, found, own, rfl⟩
          · exact kept.running_own running before same
          · have mine : current.target = target := kept.running_own running found own
            exact mine
        · rw [if_neg raised]
          by_cases finished : (Work.stage status detail txsDone).Last
          · rw [if_pos finished]
            exact staged
          · rw [if_neg finished]
            apply staged.withWorker
            obtain ⟨current, found, own, merged⟩ :=
              Jobs.merged_of_updateJob_returns (Bool.eq_true_of_not_eq_false raised)
            have mine : current.target = target := kept.running_own running found own
            refine ⟨drawn, _, merged, own, mine, ?_⟩
            rintro (done | failed)
            · exact finished done
            · exact (not_not.mp possible).2 failed
      | saveContract contract =>
        exact kept.writeByWorker running (adds_saveContract state.tables { contract with target }) rfl
          outcome.applies outcome.returns error
      | cluster runId members =>
        exact kept.writeByWorker running (adds_run state.tables ⟨runId, target, members⟩) rfl
          outcome.applies outcome.returns error
      | publish txHashes =>
        exact kept.writeByWorker running (adds_anomalies state.tables target txHashes) rfl
          outcome.applies outcome.returns error
  · cases stepped

theorem Kept.pick (kept : Kept state) {next : State} {answered : Bool} {error : String}
    (stepped : workerStep state (.pick answered error) = some next) : Kept next := by
  simp only [workerStep] at stepped
  split at stepped
  · rename_i jobId rest idle queued
    have worker : ({ state with queue := rest } : State).WorkerKept := by
      unfold State.WorkerKept
      simp only [idle]
    split at stepped
    · obtain rfl := Option.some.inj stepped
      exact ⟨kept.closed, kept.quiet, kept.issued, kept.calls, worker⟩
    · rename_i job found
      have member : job ∈ state.tables.jobs.rows := List.mem_of_find?_eq_some found
      have own : job.jobId = jobId := by simpa using List.find?_some found
      have drawn : jobId ∈ state.issued := own ▸ kept.issued job member
      split at stepped
      · obtain rfl := Option.some.inj stepped
        apply kept.withWorker
        refine ⟨drawn, ?_, ?_, ?_⟩
        · intro row present same
          exact congrArg Jobs.Job.target (one_of_jobId present member (same.trans own.symm))
        · rintro clear (deleted | purged)
          · exact kept.not_deleted_of_job member deleted
          · exact (of_decide_eq_false clear) purged
        · intro cleanup left
          obtain rfl := List.mem_singleton.mp left
          rfl
      · split at stepped
        · obtain rfl := Option.some.inj stepped
          exact ⟨kept.closed, kept.quiet, kept.issued, kept.calls, worker⟩
        · rename_i live
          obtain rfl := Option.some.inj stepped
          apply kept.withWorker
          exact ⟨drawn, job, member, own, rfl, live⟩
  · cases stepped

theorem Kept.failed_job (kept : Kept state) {jobId target : String} {overlapped : Bool} {left : List Cleanup}
    (failed : state.worker = .failed jobId target overlapped left) :
    jobId ∈ state.issued ∧ (∀ job ∈ state.tables.jobs.rows, job.jobId = jobId → job.target = target) ∧
      (overlapped = false → ¬ state.Touched target) ∧ ∀ cleanup ∈ left, cleanup.Ends jobId target := by
  have worker := kept.worker
  unfold State.WorkerKept at worker
  rw [failed] at worker
  exact worker

theorem Kept.unclosed_of_failed (kept : Kept state) {settings : Jobs.Settings} {event : Event}
    (met : Timely settings state event) {jobId target : String} {overlapped : Bool} {left : List Cleanup}
    (failed : state.worker = .failed jobId target overlapped left) {table : Table}
    (write : writes settings state event = some ⟨table, target, !overlapped⟩) : ¬ state.Closed target table := by
  obtain ⟨_, _, apart, _⟩ := kept.failed_job failed
  rcases met _ write with excused | unclosed
  · have clear : overlapped = false := by simpa using excused
    exact fun closed => apart clear closed.touched
  · exact unclosed

theorem Kept.cleanup (kept : Kept state) {settings : Jobs.Settings} {next : State} {contract : Contract}
    {outcome : Outcome} (met : Timely settings state (.cleanup contract outcome))
    (stepped : workerStep state (.cleanup contract outcome) = some next) : Kept next := by
  simp only [workerStep] at stepped
  split at stepped
  · rename_i jobId target overlapped left failed
    obtain ⟨drawn, own, apart, ends⟩ := kept.failed_job failed
    obtain rfl := Option.some.inj stepped
    have wrote := kept.write (adds_saveContract state.tables { contract with target }) rfl
      fun (applies : outcome.applies = true) => kept.unclosed_of_failed met failed (by simp [writes, failed, applies])
    apply wrote.withWorker
    obtain ⟨_, rows, _, _⟩ := wrote.failed_job failed
    exact ⟨drawn, rows, apart, (List.forall_mem_cons.mp ends).2⟩
  · rename_i jobId target overlapped changes left failed
    obtain ⟨drawn, own, apart, ends⟩ := kept.failed_job failed
    obtain ⟨status, later⟩ := List.forall_mem_cons.mp ends
    obtain rfl := Option.some.inj stepped
    apply kept.withWorker
    refine ⟨drawn, own, apart, ?_⟩
    intro cleanup member
    split at member
    · rename_i job read
      rcases List.mem_cons.mp member with rfl | rest
      · have found : state.tables.jobs.find jobId = some job := by
          split at read
          · exact read
          · cases read
        have same : job.jobId = jobId := by simpa using List.find?_some found
        exact ⟨same, own job (List.mem_of_find?_eq_some found) same, Or.inr status⟩
      · exact later cleanup rest
    · exact later cleanup member
  · rename_i jobId target overlapped job left failed
    obtain ⟨drawn, own, apart, ends⟩ := kept.failed_job failed
    obtain ⟨⟨same, mine, terminal⟩, later⟩ := List.forall_mem_cons.mp ends
    obtain rfl := Option.some.inj stepped
    cases applies : outcome.applies with
    | false =>
      apply kept.withWorker
      exact ⟨drawn, own, apart, later⟩
    | true =>
      have unclosed : ¬ state.Closed job.target .jobs :=
        mine ▸ kept.unclosed_of_failed met failed (by simp [writes, failed, applies, mine])
      have wrote : Kept { state with
          tables := { state.tables with jobs := state.tables.jobs.put job }, worker := .idle } := by
        apply kept.idle.setJobs rfl
        intro row member
        rcases Jobs.mem_put.mp member with ⟨before, _⟩ | rfl
        · exact Or.inl before
        · exact Or.inr ⟨same ▸ drawn, unclosed, Or.inl terminal⟩
      apply wrote.withWorker
      refine ⟨drawn, ?_, apart, later⟩
      intro row member keyed
      rcases Jobs.mem_put.mp member with ⟨before, _⟩ | rfl
      · exact own row before keyed
      · exact mine
  · cases stepped

theorem kept_workerStep {settings : Jobs.Settings} {next : State} {event : Event}
    (met : Timely settings state event) (kept : Kept state) (stepped : workerStep state event = some next) :
    Kept next := by
  cases event with
  | pick answered error => exact kept.pick stepped
  | work work outcome error => exact kept.work stepped
  | raised error =>
    simp only [workerStep] at stepped
    split at stepped
    · rename_i jobId target kind running
      obtain rfl := Option.some.inj stepped
      exact kept.fail running error
    · cases stepped
  | cleanup contract outcome => exact kept.cleanup met stepped
  | close =>
    simp only [workerStep] at stepped
    split at stepped
    · obtain rfl := Option.some.inj stepped
      exact kept.idle
    · cases stepped
  | _ => cases stepped

section CallSteps
variable {settings : Jobs.Settings} {next : State} (kept : Kept state)
include kept

theorem kept_saveRenamed {index now : Nat} {insert : Outcome}
    (met : Timely settings state (.saveRenamed index now insert))
    (stepped : callStep settings state (.saveRenamed index now insert) = some next) : Kept next := by
  simp only [callStep] at stepped
  split at stepped
  · rename_i checked overlapped contract label found
    obtain rfl := Option.some.inj stepped
    have wrote := kept.write (adds_saveContract state.tables { contract with label, updatedAt := now }) rfl
      fun (applies : insert.applies = true) =>
        kept.unclosed met (List.mem_of_getElem? found) rfl (by simp [writes, found, applies])
    exact wrote.answer index (statusOf insert)
  · cases stepped

theorem kept_enqueue {index : Nat} {jobId : String} {insert : Outcome}
    (met : Timely settings state (.enqueue index jobId insert))
    (stepped : callStep settings state (.enqueue index jobId insert) = some next) : Kept next := by
  simp only [callStep] at stepped
  split at stepped
  · rename_i checked overlapped request found free
    split at stepped
    · cases stepped
    · rename_i fresh
      split at stepped
      · obtain rfl := Option.some.inj stepped
        exact kept.answer index _
      · rename_i accepted
        split at stepped
        · obtain rfl := Option.some.inj stepped
          exact kept.answer index 200
        · rename_i job created
          obtain ⟨same, keyed, _⟩ := Jobs.of_job created
          obtain rfl := Option.some.inj stepped
          apply (kept.answer index (statusOf insert)).enqueueJob (keyed ▸ fresh) free
          intro applies
          rw [same]
          exact kept.unclosed met (List.mem_of_getElem? found) rfl
            (by simp [writes, found, applies, accepted, created])
  · cases stepped

theorem kept_readMembers {index : Nat}
    (stepped : callStep settings state (.readMembers index) = some next) : Kept next := by
  simp only [callStep] at stepped
  split at stepped
  · rename_i checked overlapped target runId clusterId action found
    split at stepped
    · obtain rfl := Option.some.inj stepped
      exact kept.answer index 422
    · split at stepped
      · obtain rfl := Option.some.inj stepped
        exact kept.answer index 404
      · obtain rfl := Option.some.inj stepped
        exact kept.move found rfl
  · cases stepped

theorem kept_insertLabels {index : Nat} {insert : Outcome}
    (met : Timely settings state (.insertLabels index insert))
    (stepped : callStep settings state (.insertLabels index insert) = some next) : Kept next := by
  simp only [callStep] at stepped
  split at stepped
  · rename_i checked overlapped target txHashes source action found
    have wrote : Kept { state with tables := if insert.applies then
        { state.tables with labels := state.tables.labels ++ labelRows target txHashes source action }
        else state.tables } := by
      by_cases empty : txHashes = []
      · subst empty
        cases action <;> simpa [labelRows] using kept
      · exact kept.write (adds_labels state.tables target txHashes source action) rfl fun applies =>
          kept.unclosed met (List.mem_of_getElem? found) rfl (by simp [writes, found, applies, empty])
    split at stepped
    · obtain rfl := Option.some.inj stepped
      exact wrote.move found rfl
    · obtain rfl := Option.some.inj stepped
      exact wrote.answer index 500
  · cases stepped

theorem kept_publish {index : Nat} {txHashes : List String} {insert : Outcome}
    (met : Timely settings state (.publish index txHashes insert))
    (stepped : callStep settings state (.publish index txHashes insert) = some next) : Kept next := by
  simp only [callStep] at stepped
  split at stepped
  · rename_i checked overlapped target found
    have wrote : Kept { state with tables := if insert.applies then
        { state.tables with anomalies := state.tables.anomalies ++ txHashes.map (⟨target, ·⟩) }
        else state.tables } := by
      by_cases empty : txHashes = []
      · subst empty
        simpa using kept
      · exact kept.write (adds_anomalies state.tables target txHashes) rfl fun applies =>
          kept.unclosed met (List.mem_of_getElem? found) rfl (by simp [writes, found, applies, empty])
    split at stepped
    · obtain rfl := Option.some.inj stepped
      exact wrote
    · obtain rfl := Option.some.inj stepped
      exact wrote.answer index 200
  · cases stepped

theorem kept_lock {index : Nat}
    (stepped : callStep settings state (.lock index) = some next) : Kept next := by
  simp only [callStep] at stepped
  split at stepped
  · rename_i checked overlapped target found _
    split at stepped
    · obtain rfl := Option.some.inj stepped
      exact kept.answer index 409
    · rename_i idle
      obtain rfl := Option.some.inj stepped
      exact kept.lock idle
  · cases stepped

theorem kept_purge {outcome : Outcome}
    (stepped : callStep settings state (.purge outcome) = some next) : Kept next := by
  simp only [callStep] at stepped
  split at stepped
  · rename_i index target table left held
    cases outcome with
    | answered =>
      obtain rfl := Option.some.inj stepped
      exact kept.purge held
    | lost =>
      obtain rfl := Option.some.inj stepped
      exact (kept.answer index 500).unlock
    | late =>
      obtain rfl := Option.some.inj stepped
      exact ((kept.purge held).answer index 500).unlock
  · cases stepped

theorem kept_create {target targetType label jobId : String} {targetTxs reprocess now : Nat} {save insert : Outcome}
    (stepped : callStep settings state (.create target targetType label jobId targetTxs reprocess now save insert) =
      some next) : Kept next := by
  simp only [callStep] at stepped
  split at stepped
  · cases stepped
  · rename_i guard
    obtain ⟨free, fresh⟩ : state.lock = none ∧ jobId ∉ state.issued := by simpa using guard
    split at stepped
    · obtain rfl := Option.some.inj stepped
      exact kept.refuse _
    · have saved : Kept (if save.applies then
          state.created (newContract state.tables target targetType label now) else state) := by
        cases save.applies with
        | false => exact kept
        | true => exact kept.created free _
      split at stepped
      · rename_i job returned created
        obtain ⟨same, keyed, _⟩ := Jobs.of_job created
        obtain rfl := Option.some.inj stepped
        simp only [Outcome.applies_of_returns returned, ↓reduceIte] at saved ⊢
        refine saved.enqueueJob (keyed ▸ fresh) free ?_
        rintro _ (deleted | ⟨purge, held, _⟩)
        · exact of_decide_eq_true (List.mem_filter.mp deleted).2 same
        · rw [show (state.created _).lock = none from free] at held
          cases held
      · obtain rfl := Option.some.inj stepped
        exact saved

theorem kept_callStep {event : Event} (met : Timely settings state event)
    (stepped : callStep settings state event = some next) : Kept next := by
  cases event with
  | rename target label =>
    simp only [callStep] at stepped
    split at stepped
    · rename_i contract found
      obtain rfl := Option.some.inj stepped
      exact kept.beginFound found (congrArg some)
    · obtain rfl := Option.some.inj stepped
      exact kept.refuse 404
  | saveRenamed index now insert => exact kept_saveRenamed kept met stepped
  | classifyNew target =>
    simp only [callStep] at stepped
    split at stepped
    · rename_i contract found
      obtain rfl := Option.some.inj stepped
      exact kept.beginFound found (congrArg some)
    · obtain rfl := Option.some.inj stepped
      exact kept.refuse 404
  | feed target now =>
    simp only [callStep] at stepped
    split at stepped
    · rename_i contract found
      obtain rfl := Option.some.inj stepped
      exact kept.beginFound found (congrArg some)
    · cases stepped
  | enqueue index jobId insert => exact kept_enqueue kept met stepped
  | labelTx target txHash action =>
    obtain rfl := Option.some.inj stepped
    exact kept.begin rfl fun checked => nomatch checked
  | labelCluster runId clusterId action =>
    simp only [callStep] at stepped
    split at stepped
    · rename_i run found
      obtain rfl := Option.some.inj stepped
      refine kept.begin rfl fun _ deleted => ?_
      exact kept.closed run.target .clusterRuns (Or.inl deleted) ⟨run, List.mem_of_find?_eq_some found, rfl⟩
    · obtain rfl := Option.some.inj stepped
      exact kept.refuse 404
  | readMembers index => exact kept_readMembers kept stepped
  | insertLabels index insert => exact kept_insertLabels kept met stepped
  | publish index txHashes insert => exact kept_publish kept met stepped
  | finish index =>
    simp only [callStep] at stepped
    split at stepped
    · obtain rfl := Option.some.inj stepped
      exact kept.answer index 200
    · cases stepped
  | delete target =>
    simp only [callStep] at stepped
    split at stepped
    · rename_i contract found
      obtain rfl := Option.some.inj stepped
      exact kept.beginFound found fun _ => rfl
    · obtain rfl := Option.some.inj stepped
      exact kept.refuse 404
  | lock index => exact kept_lock kept stepped
  | purge outcome => exact kept_purge kept stepped
  | succeed =>
    simp only [callStep] at stepped
    split at stepped
    · rename_i index target held
      obtain rfl := Option.some.inj stepped
      exact (kept.answer index 200).succeed held
    · cases stepped
  | create target targetType label jobId targetTxs reprocess now save insert => exact kept_create kept stepped
  | _ => cases stepped

end CallSteps

end Steps

/-! ## Runs -/

theorem kept_step {settings : Jobs.Settings} {state next : State} {event : Event}
    (met : Timely settings state event) (kept : Kept state) (stepped : step settings state event = some next) :
    Kept next := by
  rcases Option.or_eq_some_iff.mp stepped with called | ⟨_, worked⟩
  · exact kept_callStep kept met called
  · exact kept_workerStep met kept worked

theorem kept_start (tables : Tables) (queue : List String) : Kept (start tables queue) where
  closed := by
    rintro target table (deleted | ⟨purge, held, _⟩)
    · cases deleted
    · cases held
  quiet := fun purge held => nomatch held
  issued := fun job member => List.mem_map_of_mem member
  calls := fun call member => nomatch member
  worker := trivial

/-- In every run whose overlapped and unchecked writes come before the purge of their table, a
target whose deletion has returned success has no row until a client creates it again. -/
theorem deletion_is_final (settings : Jobs.Settings) (tables : Tables) (queue : List String) {events : List Event}
    {last : State} (met : Runs.EveryStep (step settings) (Timely settings) (start tables queue) events)
    (reached : Runs.run (step settings) (start tables queue) events = some last) :
    ∀ target ∈ last.deleted, ∀ table, ¬ last.tables.Has target table := by
  have kept : Kept last := by
    refine Runs.invariant_of_step (step settings) ?_ (kept_start tables queue) met reached
    exact fun timely kept stepped => kept_step timely kept stepped
  intro target deleted table
  exact kept.closed target table (Or.inl deleted)

private def small : Jobs.Settings := ⟨⟨1/2, 1/2, 3600, 5⟩, 3⟩

private def noTables : Tables := ⟨[], ⟨[], List.nodup_nil⟩, [], [], []⟩

/-- A contract is created, its job runs to its end, and a transaction is labelled. -/
private def watched : List Event :=
  [.create "addr1" "address" "dex" "job1" 100 0 10 .answered .answered, .pick true "",
    .work (.saveContract ⟨⟨"addr1", "address", .done, 0, 1, 0, 20⟩, "dex"⟩) .answered "",
    .work (.cluster "run1" [("tx1", 0)]) .answered "", .work (.publish ["tx1"]) .answered "",
    .work (.stage .done "1 txs" (some 1)) .answered "",
    .labelTx "addr1" "tx1" (.label .malicious), .insertLabels 0 .answered, .publish 0 ["tx1"] .answered, .finish 0]

/-- The purge of every table, and its success. -/
private def purged : List Event := List.replicate purgeOrder.length (.purge .answered) ++ [.succeed]

/-- The contract is deleted, and renamed and labelled by its run afterwards in vain. -/
private def deletedAndRenamed : List Event :=
  watched ++ [.delete "addr1", .lock 1] ++ purged ++ [.rename "addr1" "old dex", .labelCluster "run1" 0 .clear]

theorem deletion_is_final_renamed_after :
    ∃ last, Runs.run (step small) (start noTables []) deletedAndRenamed = some last ∧
      last.deleted = ["addr1"] ∧ ∀ target ∈ last.deleted, ∀ table, ¬ last.tables.Has target table := by
  have met : Runs.EveryStep (step small) (Timely small) (start noTables []) deletedAndRenamed := by decide +kernel
  exact ⟨_, rfl, by decide +kernel, deletion_is_final small noTables [] met rfl⟩

/-- A rename has read the contract before its deletion and saves it afterwards, and a label of
one transaction asks for no contract: both rows stay. -/
theorem deletion_undone_by_rename_and_label :
    ∃ last, Runs.run (step small) (start noTables [])
        (watched ++ [.rename "addr1" "old dex", .delete "addr1", .lock 2] ++ purged ++
          [.saveRenamed 1 30 .answered, .labelTx "addr1" "tx1" (.label .benign), .insertLabels 3 .answered]) =
          some last ∧
      "addr1" ∈ last.deleted ∧ last.tables.Has "addr1" .contracts ∧ last.tables.Has "addr1" .txLabels := by
  refine ⟨_, rfl, ?_, ?_, ?_⟩
  · decide +kernel
  · decide +kernel
  · decide +kernel

end TransactionMonitoring.Deletion
