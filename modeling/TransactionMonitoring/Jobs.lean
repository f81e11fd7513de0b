import TransactionMonitoring.Feed
import TransactionMonitoring.Runs

/-! The sidecar's background jobs.

A job is a row of the `jobs` table and an entry of an in-memory queue that one worker thread
drains.  Every storage call of the requests, the feed and the worker may fail, and a write that
raises may still have taken effect; the worker may die, to be respawned by the next enqueue, and
the process may restart.
-/
namespace TransactionMonitoring.Jobs
open TransactionMonitoring.Faults

inductive Status where
  | queued
  | checking
  | downloading
  | clustering
  | scoring
  | done
  | failed
deriving DecidableEq, Repr

/-- A row of `jobs`. -/
structure Job where
  jobId : String
  target : String
  targetType : String
  maxTxs : Nat
  reprocess : Nat
  kind : Feed.JobKind
  status : Status
  stageDetail : String
  txsDone : Nat
  error : String
deriving DecidableEq, Repr

/-- `_TERMINAL_JOB_STATUSES`. -/
def Job.Terminal (job : Job) : Prop := job.status = .done ∨ job.status = .failed

instance (job : Job) : Decidable job.Terminal :=
  inferInstanceAs (Decidable (job.status = .done ∨ job.status = .failed))

/-- What `jobs FINAL` answers: one row for each job. -/
structure Table where
  rows : List Job
  ids : (rows.map Job.jobId).Nodup
deriving DecidableEq

def Table.find (table : Table) (jobId : String) : Option Job := table.rows.find? (·.jobId = jobId)

/-- An inserted row replaces the older one of its job. -/
def Table.put (table : Table) (job : Job) : Table where
  rows := table.rows.filter (·.jobId ≠ job.jobId) ++ [job]
  ids := by
    rw [List.map_append]
    refine List.Nodup.append (table.ids.sublist (List.filter_sublist.map Job.jobId)) (List.nodup_singleton _) ?_
    intro jobId kept new
    obtain rfl := List.mem_singleton.mp new
    obtain ⟨row, member, same⟩ := List.mem_map.mp kept
    simp [same] at member

/-- `nonterminal_jobs`. -/
def Table.nonterminal (table : Table) : List Job := table.rows.filter fun job => ¬ job.Terminal

/-- The keyword arguments of `update_job`. -/
structure Changes where
  status : Status
  stageDetail : Option String
  txsDone : Option Nat
  error : Option String
deriving DecidableEq, Repr

def Changes.merge (changes : Changes) (job : Job) : Job :=
  { job with
    status := changes.status
    stageDetail := changes.stageDetail.getD job.stageDetail
    txsDone := changes.txsDone.getD job.txsDone
    error := changes.error.getD job.error }

/-- `update_job`, and whether it returned. -/
def updateJob (table : Table) (jobId : String) (changes : Changes) (outcome : Outcome) : Table × Bool :=
  match table.find jobId with
  -- `raise KeyError(job_id)`
  | none => (table, false)
  | some current => (if outcome.applies then table.put (changes.merge current) else table, outcome.returns)

/-- Where the worker thread stands. -/
inductive Worker where
  | dead
  | waiting
  /-- The job is popped and its repository not opened yet. -/
  | opening (jobId : String)
  | reading (jobId : String)
  | running (jobId : String) (kind : Feed.JobKind)
  /-- The pipeline has raised and records it. -/
  | failing (jobId : String) (kind : Feed.JobKind)
  /-- The exception has reached `_run_job`. -/
  | backstop (jobId : String)
  | closing
deriving DecidableEq, Repr

/-- The job the worker runs. -/
def Worker.job : Worker → Option String
  | .opening jobId | .reading jobId | .running jobId _ | .failing jobId _ | .backstop jobId => some jobId
  | .dead | .waiting | .closing => none

structure State where
  jobs : Table
  queue : List String
  worker : Worker
deriving DecidableEq

/-- `start`: the non-terminal jobs are queued again. -/
def started (jobs : Table) : State := ⟨jobs, jobs.nonterminal.map Job.jobId, .waiting⟩

/-- `enqueue`. -/
def State.enqueue (state : State) (jobId : String) : State :=
  { state with
    queue := state.queue ++ [jobId]
    worker := if state.worker = .dead then .waiting else state.worker }

structure Settings where
  feed : Feed.Settings
  maxInflightJobs : Nat
deriving DecidableEq, Repr

/-- Who asks for a job. -/
inductive Request where
  | createContract (target targetType : String) (targetTxs reprocess : Nat)
  | classifyNew (target targetType : String)
  /-- One contract of a `feed_tick`. -/
  | feed (contract : Feed.Contract) (now : Int)
deriving DecidableEq, Repr

def Request.target : Request → String
  | .createContract target _ _ _ | .classifyNew target _ => target
  | .feed contract _ => contract.target

/-- The row `create_job` inserts; `none` where the feed skips the contract. -/
def Request.job (settings : Settings) (jobId : String) : Request → Option Job
  | .createContract target targetType targetTxs reprocess =>
      some ⟨jobId, target, targetType, targetTxs, reprocess, .onboard, .queued, "", 0, ""⟩
  | .classifyNew target targetType => some ⟨jobId, target, targetType, 0, 0, .classify, .queued, "", 0, ""⟩
  | .feed contract now =>
      (Feed.decideJob contract settings.feed now).map fun decision =>
        ⟨jobId, contract.target, contract.targetType, 0, decision.2, decision.1, .queued, "", 0, ""⟩

/-- `target_in_jobs`. -/
def targetInJobs (jobs : List Job) (target : String) : Prop := ∃ job ∈ jobs, job.target = target

instance (jobs : List Job) (target : String) : Decidable (targetInJobs jobs target) :=
  inferInstanceAs (Decidable (∃ job ∈ jobs, job.target = target))

/-- `reject_if_target_busy`, and the feed's check, which has no cap. -/
def Request.Rejected (settings : Settings) (inflight : List Job) : Request → Prop
  | .createContract target _ _ _ | .classifyNew target _ =>
      targetInJobs inflight target ∨ settings.maxInflightJobs ≤ inflight.length
  | .feed contract _ => targetInJobs inflight contract.target

instance (settings : Settings) (inflight : List Job) :
    (request : Request) → Decidable (request.Rejected settings inflight)
  | .createContract target _ _ _ | .classifyNew target _ =>
      inferInstanceAs (Decidable (targetInJobs inflight target ∨ settings.maxInflightJobs ≤ inflight.length))
  | .feed contract _ => inferInstanceAs (Decidable (targetInJobs inflight contract.target))

/-- The row a request comes to insert, unless it is rejected or an earlier call of it raised. -/
def admitted (settings : Settings) (state : State) (request : Request) (jobId : String) (prepared : Bool) :
    Option Job :=
  if prepared = false ∨ request.Rejected settings state.jobs.nonterminal then none
  else request.job settings jobId

/-- `_MAX_ERROR_DETAIL`. -/
def maxErrorDetail : Nat := 500

/-- What `_run_job` writes when a job has raised. -/
def failed (error : String) : Changes where
  status := .failed
  stageDetail := none
  txsDone := none
  error := some (String.ofList (error.toList.take maxErrorDetail))

/-- What a pipeline writes when it has raised: `process_contract` clears the detail too. -/
def pipelineFailed (kind : Feed.JobKind) (error : String) : Changes :=
  match kind with
  | .onboard => { failed error with stageDetail := some "" }
  | .classify => failed error

inductive Event where
  /-- The section under `enqueue_lock`; `prepared` where every call before the insert returned. -/
  | request (request : Request) (jobId : String) (prepared : Bool) (insert : Outcome)
  | pop
  | openRepo (opened : Bool)
  | getJob (answered : Bool)
  /-- `set_stage`. -/
  | stage (status : Status) (detail : String) (txsDone : Option Nat) (update : Outcome)
  /-- Any other call of the pipeline raises. -/
  | raised
  | recordFailure (error : String) (update : Outcome)
  | backstop (error : String) (update : Outcome)
  | close
  /-- A `BaseException` ends the thread. -/
  | die
  /-- The process starts again; `answered` where it could read the non-terminal jobs. -/
  | restart (answered : Bool)
deriving DecidableEq, Repr

def step (settings : Settings) (state : State) : Event → Option State
  | .request request jobId prepared insert =>
      match admitted settings state request jobId prepared with
      | none => some state
      | some job =>
          let created := if insert.applies then { state with jobs := state.jobs.put job } else state
          some (if insert.returns then created.enqueue jobId else created)
  | .pop =>
      match state.worker, state.queue with
      | .waiting, jobId :: rest => some { state with queue := rest, worker := .opening jobId }
      | _, _ => none
  | .openRepo opened =>
      match state.worker with
      -- `_worker` catches what `repo_factory` raises.
      | .opening jobId => some { state with worker := if opened then .reading jobId else .waiting }
      | _ => none
  | .getJob answered =>
      match state.worker with
      | .reading jobId =>
          if answered then
            match state.jobs.find jobId with
            | none => some { state with worker := .closing }
            | some job =>
                if job.Terminal then some { state with worker := .closing }
                else some { state with worker := .running jobId job.kind }
          else some { state with worker := .backstop jobId }
      | _ => none
  | .stage status detail txsDone update =>
      match state.worker with
      | .running jobId kind =>
          if status = .queued ∨ status = .failed then none
          else
            let (jobs, returned) := updateJob state.jobs jobId ⟨status, some detail, txsDone, none⟩ update
            if returned then
              -- Both pipelines return after `done`.
              some { state with jobs, worker := if status = .done then .closing else .running jobId kind }
            else some { state with jobs, worker := .failing jobId kind }
      | _ => none
  | .raised =>
      match state.worker with
      | .running jobId kind => some { state with worker := .failing jobId kind }
      | _ => none
  | .recordFailure error update =>
      match state.worker with
      | .failing jobId kind =>
          some { state with
            jobs := (updateJob state.jobs jobId (pipelineFailed kind error) update).1
            worker := .backstop jobId }
      | _ => none
  | .backstop error update =>
      match state.worker with
      | .backstop jobId =>
          some { state with
            jobs := (updateJob state.jobs jobId (failed error) update).1
            worker := .closing }
      | _ => none
  | .close => if state.worker = .closing then some { state with worker := .waiting } else none
  | .die => if state.worker = .dead then none else some { state with worker := .dead }
  | .restart answered => some (if answered then started state.jobs else ⟨state.jobs, [], .waiting⟩)

/-! ## Stranded jobs -/

/-- The job waits in the queue or is being run. -/
def State.Held (state : State) (jobId : String) : Prop := jobId ∈ state.queue ∨ state.worker.job = some jobId

instance (state : State) (jobId : String) : Decidable (state.Held jobId) :=
  inferInstanceAs (Decidable (jobId ∈ state.queue ∨ state.worker.job = some jobId))

def NoneStranded (state : State) : Prop := ∀ job ∈ state.jobs.rows, ¬ job.Terminal → state.Held job.jobId

instance (state : State) : Decidable (NoneStranded state) :=
  inferInstanceAs (Decidable (∀ job ∈ state.jobs.rows, ¬ job.Terminal → state.Held job.jobId))

/-- The job has no row or a terminal one. -/
def Table.Finished (table : Table) (jobId : String) : Prop := ∀ job ∈ table.rows, job.jobId = jobId → job.Terminal

instance (table : Table) (jobId : String) : Decidable (table.Finished jobId) :=
  inferInstanceAs (Decidable (∀ job ∈ table.rows, job.jobId = jobId → job.Terminal))

/-- The job the worker gives up at this event without having recorded its end. -/
def dropped (state : State) : Event → Option String
  | .openRepo opened =>
      match state.worker with
      | .opening jobId => if opened then none else some jobId
      | _ => none
  | .backstop _ update =>
      match state.worker with
      | .backstop jobId => if update.applies then none else some jobId
      | _ => none
  | .die => state.worker.job
  | _ => none

/-- A created job reaches the queue, a job given up is finished or queued again, and a restart
reads the jobs it has to resume. -/
def Settles (settings : Settings) (state : State) : Event → Prop
  | .request request jobId prepared insert =>
      insert = .late → admitted settings state request jobId prepared ≠ none → state.Held jobId
  | .restart answered => answered = true ∨ state.jobs.nonterminal = []
  | event => ∀ jobId ∈ dropped state event, state.jobs.Finished jobId ∨ jobId ∈ state.queue

instance (settings : Settings) (state : State) : (event : Event) → Decidable (Settles settings state event)
  | .request request jobId prepared insert =>
      inferInstanceAs (Decidable
        (insert = .late → admitted settings state request jobId prepared ≠ none → state.Held jobId))
  | .restart answered => inferInstanceAs (Decidable (answered = true ∨ state.jobs.nonterminal = []))
  | .pop | .openRepo _ | .getJob _ | .stage _ _ _ _ | .raised | .recordFailure _ _ | .backstop _ _ | .close | .die =>
      inferInstanceAs (Decidable (∀ jobId ∈ dropped state _, state.jobs.Finished jobId ∨ jobId ∈ state.queue))

@[simp] theorem mem_put {table : Table} {job row : Job} :
    row ∈ (table.put job).rows ↔ (row ∈ table.rows ∧ row.jobId ≠ job.jobId) ∨ row = job := by
  simp [Table.put]

theorem finished_of_find_none {table : Table} {jobId : String} (absent : table.find jobId = none) :
    table.Finished jobId := by
  intro job member same
  have other := List.find?_eq_none.mp absent job member
  simp [same] at other

theorem finished_of_find {table : Table} {jobId : String} {job : Job} (found : table.find jobId = some job)
    (terminal : job.Terminal) : table.Finished jobId := by
  intro row member same
  have keyed : job.jobId = jobId := by simpa using List.find?_some found
  obtain rfl : row = job :=
    List.inj_on_of_nodup_map table.ids member (List.mem_of_find?_eq_some found) (same.trans keyed.symm)
  exact terminal

/-- An update leaves the other rows as they are and merges its changes into its job's. -/
theorem mem_updateJob {table : Table} {jobId : String} {changes : Changes} {outcome : Outcome} {row : Job}
    (member : row ∈ (updateJob table jobId changes outcome).1.rows) :
    row ∈ table.rows ∨ ∃ current ∈ table.rows, current.jobId = jobId ∧ row = changes.merge current := by
  unfold updateJob at member
  split at member
  · exact Or.inl member
  · rename_i current found
    dsimp only at member
    split at member
    · rcases mem_put.mp member with ⟨kept, _⟩ | merged
      · exact Or.inl kept
      · have keyed : current.jobId = jobId := by simpa using List.find?_some found
        exact Or.inr ⟨current, List.mem_of_find?_eq_some found, keyed, merged⟩
    · exact Or.inl member

theorem own_of_mem_updateJob {table : Table} {jobId : String} {changes : Changes} {outcome : Outcome} {row : Job}
    (member : row ∈ (updateJob table jobId changes outcome).1.rows) : row ∈ table.rows ∨ row.jobId = jobId := by
  rcases mem_updateJob member with before | ⟨current, _, keyed, rfl⟩
  · exact Or.inl before
  · exact Or.inr keyed

/-- An update that returned has found the job and left it merged. -/
theorem merged_of_updateJob_returns {table : Table} {jobId : String} {changes : Changes} {outcome : Outcome}
    (returned : (updateJob table jobId changes outcome).2 = true) :
    ∃ current ∈ table.rows, current.jobId = jobId ∧
      changes.merge current ∈ (updateJob table jobId changes outcome).1.rows := by
  unfold updateJob at returned ⊢
  split at returned
  · cases returned
  · rename_i current found
    have keyed : current.jobId = jobId := by simpa using List.find?_some found
    exact ⟨current, List.mem_of_find?_eq_some found, keyed, by simp [Outcome.applies_of_returns returned]⟩

/-- An update that takes effect gives the job's row the new status, if there is one. -/
theorem status_of_updateJob {table : Table} {jobId : String} {changes : Changes} {outcome : Outcome}
    (applies : outcome.applies = true) {row : Job}
    (member : row ∈ (updateJob table jobId changes outcome).1.rows) (same : row.jobId = jobId) :
    row.status = changes.status := by
  unfold updateJob at member
  split at member
  · rename_i absent
    have other := List.find?_eq_none.mp absent row member
    simp [same] at other
  · rename_i current found
    have keyed : current.jobId = jobId := by simpa using List.find?_some found
    simp only [applies, ↓reduceIte, mem_put] at member
    rcases member with ⟨_, apart⟩ | rfl
    · exact absurd (same.trans keyed.symm) apart
    · rfl

theorem applies_of_updateJob_returns {table : Table} {jobId : String} {changes : Changes} {outcome : Outcome}
    (returned : (updateJob table jobId changes outcome).2 = true) : outcome.applies = true := by
  unfold updateJob at returned
  split at returned
  · cases returned
  · exact Outcome.applies_of_returns returned

theorem updateJob_of_lost {table : Table} {jobId : String} {changes : Changes} {outcome : Outcome}
    (lost : outcome.applies = false) : (updateJob table jobId changes outcome).1 = table := by
  unfold updateJob
  split
  · rfl
  · simp [lost]

/-- The job of a request is queued, for its target and under the id it is given. -/
theorem of_job {settings : Settings} {request : Request} {jobId : String} {job : Job}
    (created : request.job settings jobId = some job) :
    job.target = request.target ∧ job.jobId = jobId ∧ job.status = .queued := by
  cases request with
  | createContract target targetType targetTxs reprocess =>
    obtain rfl := Option.some.inj created
    exact ⟨rfl, rfl, rfl⟩
  | classifyNew target targetType =>
    obtain rfl := Option.some.inj created
    exact ⟨rfl, rfl, rfl⟩
  | feed contract now =>
    obtain ⟨decision, _, rfl⟩ := Option.map_eq_some_iff.mp created
    exact ⟨rfl, rfl, rfl⟩

/-- A job that is created is queued and keeps the id it was given. -/
theorem of_admitted {settings : Settings} {state : State} {request : Request} {jobId : String} {prepared : Bool}
    {job : Job} (created : admitted settings state request jobId prepared = some job) :
    job.jobId = jobId ∧ job.status = .queued := by
  unfold admitted at created
  split at created
  · cases created
  · exact (of_job created).2

/-- The worker moves on with its job, or ends it. -/
theorem NoneStranded.advance {state next : State} {jobId : String} (kept : NoneStranded state)
    (running : state.worker.job = some jobId) (queue : next.queue = state.queue)
    (rows : ∀ row ∈ next.jobs.rows, row ∈ state.jobs.rows ∨ row.jobId = jobId)
    (ends : next.worker.job = some jobId ∨ next.jobs.Finished jobId ∨ jobId ∈ state.queue) :
    NoneStranded next := by
  intro row member live
  by_cases same : row.jobId = jobId
  · rcases ends with still | finished | queued
    · exact Or.inr (same ▸ still)
    · exact absurd (finished row member same) live
    · exact Or.inl (queue ▸ same ▸ queued)
  · have before : row ∈ state.jobs.rows := (rows row member).resolve_right same
    rcases kept row before live with waiting | held
    · exact Or.inl (queue ▸ waiting)
    · exact absurd (Option.some.inj (held.symm.trans running)) same

theorem finished_of_updateJob {table : Table} {jobId : String} {changes : Changes} {outcome : Outcome}
    (applies : outcome.applies = true) (terminal : changes.status = .done ∨ changes.status = .failed) :
    (updateJob table jobId changes outcome).1.Finished jobId := by
  intro row member same
  have status := status_of_updateJob applies member same
  simpa [Job.Terminal, status] using terminal

theorem noneStranded_request {settings : Settings} {state next : State} (kept : NoneStranded state)
    {request : Request} {jobId : String} {prepared : Bool} {insert : Outcome}
    (met : Settles settings state (.request request jobId prepared insert))
    (stepped : step settings state (.request request jobId prepared insert) = some next) : NoneStranded next := by
  simp only [step] at stepped
  split at stepped
  · obtain rfl := Option.some.inj stepped
    exact kept
  · rename_i job created
    obtain ⟨keyed, _⟩ := of_admitted created
    obtain rfl := Option.some.inj stepped
    cases insert with
    | lost => exact kept
    | answered =>
      intro row member live
      rcases mem_put.mp member with ⟨before, _⟩ | rfl
      · rcases kept row before live with waiting | held
        · exact Or.inl (List.mem_append_left _ waiting)
        · refine Or.inr ?_
          have alive : state.worker ≠ .dead := by
            intro dead
            simp [dead, Worker.job] at held
          simpa [State.enqueue, alive] using held
      · exact Or.inl (List.mem_append_right _ (keyed ▸ List.mem_singleton_self _))
    | late =>
      have held := met rfl (by simp [created])
      intro row member live
      rcases mem_put.mp member with ⟨before, _⟩ | rfl
      · exact kept row before live
      · exact keyed ▸ held

theorem noneStranded_started (jobs : Table) : NoneStranded (started jobs) := by
  intro job member live
  refine Or.inl (List.mem_map_of_mem (List.mem_filter.mpr ⟨member, ?_⟩))
  simpa using live

theorem noneStranded_restart {settings : Settings} {state next : State} {answered : Bool}
    (met : Settles settings state (.restart answered))
    (stepped : step settings state (.restart answered) = some next) : NoneStranded next := by
  obtain rfl := Option.some.inj stepped
  rcases met with rfl | nothing
  · exact noneStranded_started state.jobs
  · have finished : ∀ job ∈ state.jobs.rows, job.Terminal := by
      simpa [Table.nonterminal] using nothing
    cases answered with
    | true => exact noneStranded_started state.jobs
    | false =>
      intro job member live
      exact absurd (finished job member) live

section Steps
variable {settings : Settings} {state next : State} (kept : NoneStranded state)
include kept

theorem noneStranded_pop (stepped : step settings state .pop = some next) : NoneStranded next := by
  simp only [step] at stepped
  split at stepped
  · rename_i jobId rest idle queued
    obtain rfl := Option.some.inj stepped
    intro job member live
    rcases kept job member live with waiting | held
    · rw [queued] at waiting
      rcases List.mem_cons.mp waiting with first | later
      · exact Or.inr (congrArg some first.symm)
      · exact Or.inl later
    · simp [idle, Worker.job] at held
  · cases stepped

theorem noneStranded_getJob {answered : Bool}
    (stepped : step settings state (.getJob answered) = some next) : NoneStranded next := by
  simp only [step] at stepped
  split at stepped
  · rename_i jobId reading
    have running : state.worker.job = some jobId := by rw [reading]; rfl
    split at stepped
    · split at stepped
      · rename_i absent
        obtain rfl := Option.some.inj stepped
        exact kept.advance running rfl (fun row member => Or.inl member)
          (Or.inr (Or.inl (finished_of_find_none absent)))
      · rename_i job found
        split at stepped
        · rename_i terminal
          obtain rfl := Option.some.inj stepped
          exact kept.advance running rfl (fun row member => Or.inl member)
            (Or.inr (Or.inl (finished_of_find found terminal)))
        · obtain rfl := Option.some.inj stepped
          exact kept.advance running rfl (fun row member => Or.inl member) (Or.inl rfl)
    · obtain rfl := Option.some.inj stepped
      exact kept.advance running rfl (fun row member => Or.inl member) (Or.inl rfl)
  · cases stepped

theorem noneStranded_stage {status : Status} {detail : String} {txsDone : Option Nat} {update : Outcome}
    (stepped : step settings state (.stage status detail txsDone update) = some next) : NoneStranded next := by
  simp only [step] at stepped
  split at stepped
  · rename_i jobId kind working
    have running : state.worker.job = some jobId := by rw [working]; rfl
    have rows : ∀ row ∈ (updateJob state.jobs jobId ⟨status, some detail, txsDone, none⟩ update).1.rows,
        row ∈ state.jobs.rows ∨ row.jobId = jobId :=
      fun row member => own_of_mem_updateJob member
    split at stepped
    · cases stepped
    · split at stepped
      · rename_i returned
        obtain rfl := Option.some.inj stepped
        refine kept.advance running rfl rows ?_
        by_cases ended : status = .done
        · exact Or.inr (Or.inl (finished_of_updateJob (applies_of_updateJob_returns returned) (Or.inl ended)))
        · exact Or.inl (by simp [ended, Worker.job])
      · obtain rfl := Option.some.inj stepped
        exact kept.advance running rfl rows (Or.inl rfl)
  · cases stepped

theorem noneStranded_backstop {error : String} {update : Outcome}
    (met : Settles settings state (.backstop error update))
    (stepped : step settings state (.backstop error update) = some next) : NoneStranded next := by
  simp only [step] at stepped
  split at stepped
  · rename_i jobId last
    obtain rfl := Option.some.inj stepped
    refine kept.advance (by rw [last]; rfl) rfl (fun row member => own_of_mem_updateJob member) ?_
    cases applies : update.applies with
    | true => exact Or.inr (Or.inl (finished_of_updateJob applies (Or.inr rfl)))
    | false =>
      dsimp only
      rw [updateJob_of_lost applies]
      exact Or.inr (met jobId (by simp [dropped, last, applies]))
  · cases stepped

theorem noneStranded_step {event : Event} (met : Settles settings state event)
    (stepped : step settings state event = some next) : NoneStranded next := by
  cases event with
  | request request jobId prepared insert => exact noneStranded_request kept met stepped
  | pop => exact noneStranded_pop kept stepped
  | openRepo opened =>
    simp only [step] at stepped
    split at stepped
    · rename_i jobId opening
      obtain rfl := Option.some.inj stepped
      refine kept.advance (by rw [opening]; rfl) rfl (fun row member => Or.inl member) ?_
      cases opened with
      | true => exact Or.inl rfl
      | false => exact Or.inr (met jobId (by simp [dropped, opening]))
    · cases stepped
  | getJob answered => exact noneStranded_getJob kept stepped
  | stage status detail txsDone update => exact noneStranded_stage kept stepped
  | raised =>
    simp only [step] at stepped
    split at stepped
    · rename_i jobId kind working
      obtain rfl := Option.some.inj stepped
      exact kept.advance (by rw [working]; rfl) rfl (fun row member => Or.inl member) (Or.inl rfl)
    · cases stepped
  | recordFailure error update =>
    simp only [step] at stepped
    split at stepped
    · rename_i jobId kind failing
      obtain rfl := Option.some.inj stepped
      exact kept.advance (by rw [failing]; rfl) rfl (fun row member => own_of_mem_updateJob member)
        (Or.inl rfl)
    · cases stepped
  | backstop error update => exact noneStranded_backstop kept met stepped
  | close =>
    simp only [step] at stepped
    split at stepped
    · rename_i closing
      obtain rfl := Option.some.inj stepped
      intro job member live
      rcases kept job member live with waiting | held
      · exact Or.inl waiting
      · simp [closing, Worker.job] at held
    · cases stepped
  | die =>
    simp only [step] at stepped
    split at stepped
    · cases stepped
    · obtain rfl := Option.some.inj stepped
      intro job member live
      rcases kept job member live with waiting | held
      · exact Or.inl waiting
      · rcases met job.jobId held with finished | waiting
        · exact absurd (finished job member rfl) live
        · exact Or.inl waiting
  | restart answered => exact noneStranded_restart met stepped

end Steps

/-- A job the worker has given up is stranded unless it is finished or queued again. -/
theorem NoneStranded.settled {state next : State} (kept : NoneStranded next) (queue : next.queue = state.queue)
    (jobs : next.jobs = state.jobs) (idle : next.worker.job = none) (jobId : String) :
    state.jobs.Finished jobId ∨ jobId ∈ state.queue := by
  by_cases queued : jobId ∈ state.queue
  · exact Or.inr queued
  · refine Or.inl ?_
    rintro job member rfl
    by_contra live
    rcases kept job (jobs ▸ member) live with waiting | held
    · exact queued (queue ▸ waiting)
    · rw [idle] at held
      cases held

theorem settles_of_noneStranded {settings : Settings} {state : State} {event : Event}
    (kept : ∀ next, step settings state event = some next → NoneStranded next) :
    Settles settings state event := by
  cases event with
  | request request jobId prepared insert =>
    rintro rfl accepted
    obtain ⟨job, created⟩ := Option.ne_none_iff_exists'.mp accepted
    obtain ⟨keyed, queued⟩ := of_admitted created
    have next := kept { state with jobs := state.jobs.put job } (by simp [step, created])
    have held := next job (by simp) (by simp [Job.Terminal, queued])
    exact keyed ▸ held
  | openRepo opened =>
    intro jobId given
    simp only [dropped] at given
    split at given
    · rename_i job opening
      cases opened with
      | true => cases given
      | false =>
        have next := kept { state with worker := .waiting } (by simp [step, opening])
        exact next.settled rfl rfl rfl jobId
    · cases given
  | backstop error update =>
    intro jobId given
    simp only [dropped] at given
    split at given
    · rename_i job last
      split at given
      · cases given
      · rename_i lost
        have same : (updateJob state.jobs job (failed error) update).1 = state.jobs :=
          updateJob_of_lost (Bool.eq_false_of_not_eq_true lost)
        have next := kept { state with worker := .closing } (by simp only [step, last, same])
        exact next.settled rfl rfl rfl jobId
    · cases given
  | die =>
    intro jobId given
    have alive : state.worker ≠ .dead := by
      intro dead
      simp [dropped, dead, Worker.job] at given
    have next := kept { state with worker := .dead } (by simp [step, alive])
    exact next.settled rfl rfl rfl jobId
  | restart answered =>
    cases answered with
    | true => exact Or.inl rfl
    | false =>
      refine Or.inr (List.eq_nil_iff_forall_not_mem.mpr ?_)
      intro job member
      obtain ⟨present, live⟩ := List.mem_filter.mp member
      have next := kept ⟨state.jobs, [], .waiting⟩ rfl
      rcases next job present (of_decide_eq_true live) with waiting | held
      · cases waiting
      · cases held
  | pop | getJob answered | stage status detail txsDone update | raised | recordFailure error update | close =>
    intro jobId given
    cases given

/-! ## Runs -/

/-- After every step no job is stranded exactly where every step settles what it touches; in the
runs where every step does, a target that is refused as busy has a job queued or being run. -/
theorem no_stranded_job (settings : Settings) (jobs : Table) (events : List Event) :
    (Runs.EveryStep (step settings)
        (fun state event => ∀ next, step settings state event = some next → NoneStranded next) (started jobs) events ↔
      Runs.EveryStep (step settings) (Settles settings) (started jobs) events) ∧
    (Runs.EveryStep (step settings) (Settles settings) (started jobs) events →
      ∀ last, Runs.run (step settings) (started jobs) events = some last →
        NoneStranded last ∧
          ∀ target, targetInJobs last.jobs.nonterminal target →
            ∃ job ∈ last.jobs.rows, job.target = target ∧ last.Held job.jobId) := by
  constructor
  · refine Runs.everyStep_congr_of_kept (step settings) ?_ ?_ (noneStranded_started jobs)
    · exact fun met kept stepped => noneStranded_step kept met stepped
    · intro state event held
      exact ⟨settles_of_noneStranded, fun met next stepped => noneStranded_step held met stepped⟩
  · intro met last reached
    have kept : NoneStranded last := by
      refine Runs.invariant_of_step (step settings) ?_ (noneStranded_started jobs) met reached
      exact fun cond kept stepped => noneStranded_step kept cond stepped
    refine ⟨kept, ?_⟩
    rintro target ⟨job, member, rfl⟩
    obtain ⟨present, live⟩ := List.mem_filter.mp member
    exact ⟨job, present, rfl, kept job present (of_decide_eq_true live)⟩

private def small : Settings := ⟨⟨1/2, 1/2, 3600, 5⟩, 3⟩

private def noJobs : Table := ⟨[], List.nodup_nil⟩

/-- A pipeline fails and cannot record it, the backstop can; the worker dies idle and the next
request respawns it. -/
private def failedAndRespawned : List Event :=
  [.request (.createContract "addr1" "address" 100 0) "job1" true .answered, .pop, .openRepo true, .getJob true,
    .stage .checking "fetching metadata" none .answered, .raised, .recordFailure "boom" .lost,
    .backstop "boom" .late, .close, .die, .request (.classifyNew "addr1" "address") "job2" true .answered]

theorem no_stranded_job_failed_and_respawned :
    ∃ last, Runs.run (step small) (started noJobs) failedAndRespawned = some last ∧
      NoneStranded last ∧ last.queue = ["job2"] := by
  have met : Runs.EveryStep (step small) (Settles small) (started noJobs) failedAndRespawned := by decide +kernel
  obtain ⟨kept, _⟩ := (no_stranded_job small noJobs failedAndRespawned).2 met _ rfl
  exact ⟨_, rfl, kept, by decide +kernel⟩

/-- The repository cannot be opened for a popped job: the worker waits for the next job while
the row stays queued and refuses its target. -/
theorem no_stranded_job_unopened :
    ∃ last, Runs.run (step small) (started noJobs)
        [.request (.createContract "addr1" "address" 100 0) "job1" true .answered, .pop, .openRepo false] =
          some last ∧
      ¬ NoneStranded last ∧ last.queue = [] ∧ last.worker = .waiting ∧
      targetInJobs last.jobs.nonterminal "addr1" := by
  refine ⟨_, rfl, ?_, rfl, rfl, ?_⟩
  · decide +kernel
  · decide +kernel

end TransactionMonitoring.Jobs
