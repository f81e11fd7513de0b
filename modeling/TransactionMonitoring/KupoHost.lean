import TransactionMonitoring.History
import TransactionMonitoring.Runs

/-! The Kupo flavor against the host whose backfill it triggers.

The host keeps one job an address, in memory.  Ticks, each at its own cap, interleave with the
host finishing or failing its job, with an operator's triggers for the same address and with
restarts; every exchange with the host may fail.  A job remembers what it was asked for.
-/
namespace TransactionMonitoring.KupoHost
open History

inductive JobStatus where
  | running
  | done
  | failed
deriving DecidableEq, Repr

def JobStatus.text : JobStatus → String
  | .running => "running"
  | .done => "done"
  | .failed => "failed"

/-- The host's `_Job` of the address. -/
structure Job where
  status : JobStatus
  /-- `max_txs` of the request, or the host's default. -/
  asked : Int
  /-- `asked` under the host's own cap. -/
  maxTxs : Int
  createdBeforeSlot : Option Int
  complete : Bool
  txsIngested : Int
deriving DecidableEq, Repr

structure HostSettings where
  kupoConfigured : Bool
  backfillDefaultMaxTxs : Int
  backfillMaxTxsCap : Int
  backfillMaxConcurrent : Nat
deriving DecidableEq, Repr

/-- What the host meets beside the address's own job. -/
structure HostInputs where
  /-- Jobs running for other addresses. -/
  others : Nat
  /-- The audit row was written. -/
  audited : Bool
deriving DecidableEq, Repr

/-- `start_backfill`: the status it answers and the address's job after it. -/
def startBackfill (host : HostSettings) (job : Option Job) (maxTxs createdBeforeSlot : Option Int)
    (inputs : HostInputs) : Nat × Option Job :=
  if host.kupoConfigured = false then (503, job)
  else if ∃ existing ∈ job, existing.status = .running then (409, job)
  else if host.backfillMaxConcurrent ≤ inputs.others then (429, job)
  else
    let asked := maxTxs.getD host.backfillDefaultMaxTxs
    -- The reservation is released when the audit fails.
    if inputs.audited = false then (500, none)
    else (202, some ⟨.running, asked, min asked host.backfillMaxTxsCap, createdBeforeSlot, false, 0⟩)

/-- `_public`: the view `backfill_status` returns. -/
def Job.view (job : Job) : JobView := ⟨job.status.text, job.createdBeforeSlot, job.complete, job.txsIngested⟩

/-- What may stand between the flavor and the host's status. -/
inductive StatusFault where
  | unreachable
  | status (code : Nat)
  | nonJson
  | raised
deriving DecidableEq, Repr

def StatusFault.reply : StatusFault → StatusReply
  | .unreachable => .unreachable
  | .status code => .status code
  | .nonJson => .nonJson
  | .raised => .raised

/-- `backfill_status`, as the flavor sees it. -/
def statusReply (job : Option Job) : Option StatusFault → StatusReply
  | some fault => fault.reply
  | none => (job.map fun job => StatusReply.job job.view).getD (.status 404)

/-- What becomes of a trigger on its way. -/
inductive Passage where
  | answered
  /-- It never reached the host. -/
  | lost
  /-- The host took it, and its answer was lost. -/
  | late
  /-- Something before the host answered in its place. -/
  | rejected (code : Nat)
deriving DecidableEq, Repr

def Passage.reply (passage : Passage) (code : Nat) : PostReply :=
  match passage with
  | .answered => .status code
  | .lost | .late => .unreachable
  | .rejected other => .status other

def Passage.arrives : Passage → Bool
  | .answered | .late => true
  | .lost | .rejected _ => false

/-- One run of the flavor. -/
structure Tick where
  maxTxs : Int
  markerRead : Bool
  statusFault : Option StatusFault
  boundary : BoundaryRead
  passage : Passage
  host : HostInputs
deriving DecidableEq, Repr

inductive Event where
  | tick (tick : Tick)
  | operator (maxTxs createdBeforeSlot : Option Int) (inputs : HostInputs)
  /-- The running job ends without an error. -/
  | finish (complete : Bool) (txsIngested : Int)
  | fail
  /-- The oldest finished jobs are evicted. -/
  | evict
  | restart
deriving DecidableEq, Repr

structure State where
  marker : Option Cursor
  job : Option Job
  /-- The jobs the flavor has been told about. -/
  reported : List Job
deriving DecidableEq, Repr

/-- Nothing is marked yet; the host may be at work for somebody else. -/
def start (job : Option Job) : State := ⟨none, job, []⟩

variable (settings : Settings) (host : HostSettings)

/-- What the run of a tick is given: the trigger it may send asks for its cap below the boundary. -/
def Tick.inputs (tick : Tick) (job : Option Job) : KupoInputs where
  status := statusReply job tick.statusFault
  boundary := tick.boundary
  post :=
    let floorSlot := match tick.boundary with
      | .established boundary => some boundary.floorSlot
      | .raised | .notEstablished => none
    tick.passage.reply (startBackfill host job (some (clampedCap settings tick.maxTxs)) floorSlot tick.host).1

def Tick.ran (tick : Tick) (state : State) : KupoRan :=
  runKupo settings "address" tick.maxTxs tick.markerRead state.marker (tick.inputs settings host state.job)

/-- The job after a trigger. -/
def arrive (tick : Tick) (job : Option Job) : Option Trigger → Option Job
  | some trigger =>
      if tick.passage.arrives then
        (startBackfill host job (some trigger.maxTxs) (some trigger.createdBeforeSlot) tick.host).2
      else job
  | none => job

/-- The tick asks the host for its job and is told. -/
def Polls (state : State) (tick : Tick) : Prop :=
  tick.markerRead = true ∧ Awaits state.marker ∧ tick.statusFault = none

instance (state : State) (tick : Tick) : Decidable (Polls state tick) :=
  inferInstanceAs (Decidable (tick.markerRead = true ∧ Awaits state.marker ∧ tick.statusFault = none))

def step (state : State) : Event → Option State
  | .tick tick =>
      let ran := tick.ran settings host state
      some
        { marker := ran.marker
          job := arrive host tick state.job ran.posted
          reported := state.reported ++ if Polls state tick then state.job.toList else [] }
  | .operator maxTxs createdBeforeSlot inputs =>
      some { state with job := (startBackfill host state.job maxTxs createdBeforeSlot inputs).2 }
  | .finish complete txsIngested =>
      match state.job with
      | some job =>
          if job.status = .running then
            some { state with job := some { job with status := .done, complete, txsIngested } }
          else none
      | none => none
  | .fail =>
      match state.job with
      | some job =>
          if job.status = .running then some { state with job := some { job with status := .failed } } else none
      | none => none
  | .evict => if ∃ job ∈ state.job, job.status = .running then none else some { state with job := none }
  | .restart => some { state with job := none }

/-- A job whose report settles a marker: bounded, done and complete. -/
def Job.Lands (job : Job) : Prop := job.status = .done ∧ job.createdBeforeSlot ≠ none ∧ job.complete = true

instance (job : Job) : Decidable job.Lands :=
  inferInstanceAs (Decidable (job.status = .done ∧ job.createdBeforeSlot ≠ none ∧ job.complete = true))

/-- A marker settled as landed at some cap is owed to a job that was asked for no less. -/
def Earned (state : State) : Prop :=
  ∀ cursor ∈ state.marker, cursor.source = kupoSource → cursor.done = true → kupoGaveUp state.marker = false →
    ∃ job ∈ state.reported, job.Lands ∧ cursor.txsSeen ≤ job.asked

/-- A tick that is told of such a job has no larger cap than the job was asked for. -/
def CapAsked (state : State) : Event → Prop
  | .tick tick => Polls state tick → ∀ job ∈ state.job, job.Lands → clampedCap settings tick.maxTxs ≤ job.asked
  | .operator _ _ _ | .finish _ _ | .fail | .evict | .restart => True

instance (state : State) (event : Event) : Decidable (CapAsked settings state event) :=
  match event with
  | .tick tick => inferInstanceAs (Decidable
      (Polls state tick → ∀ job ∈ state.job, job.Lands → clampedCap settings tick.maxTxs ≤ job.asked))
  | .operator _ _ _ | .finish _ _ | .fail | .evict | .restart => isTrue trivial

/-! ## Steps -/

/-- The flavor takes a job for landed only when the host says so of a bounded job. -/
theorem lands_of_checked {job : Option Job} {fault : Option StatusFault} {ingested : Int}
    (checked : checkHostJob (statusReply job fault) = .landed ingested) :
    fault = none ∧ ∃ found ∈ job, found.Lands := by
  cases fault with
  | some fault =>
    cases fault with
    | unreachable => cases checked
    | status code =>
      simp only [statusReply, StatusFault.reply, checkHostJob] at checked
      split at checked
      · cases checked
      · cases checked
    | nonJson => cases checked
    | raised => cases checked
  | none =>
    refine ⟨rfl, ?_⟩
    cases job with
    | none => cases checked
    | some found =>
      refine ⟨found, rfl, ?_⟩
      simp only [statusReply, Option.map_some, Option.getD_some, checkHostJob, Job.view] at checked
      cases status : found.status with
      | running => simp [status, JobStatus.text] at checked
      | failed => simp [status, JobStatus.text] at checked
      | done =>
        cases bound : found.createdBeforeSlot with
        | none => simp [status, bound, JobStatus.text] at checked
        | some slot =>
          cases complete : found.complete with
          | false => simp [status, bound, complete, JobStatus.text] at checked
          | true => exact ⟨status, by simp [bound], complete⟩

variable {settings host} {state : State}

/-- A marker left alone stays earned, whatever else is reported. -/
theorem earned_mono (earned : Earned state) {job : Option Job} (more : List Job) :
    Earned ⟨state.marker, job, state.reported ++ more⟩ := by
  intro cursor marked kupo done landed
  obtain ⟨found, member, lands, within⟩ := earned cursor marked kupo done landed
  exact ⟨found, List.mem_append_left _ member, lands, within⟩

/-- An unsettled marker has nothing to earn, and one that gave up neither. -/
theorem earned_of_mark {done : Bool} {txsSeen attempts : Int} {flag : Flag} (other : done = false ∨ flag = .gaveUp)
    (job : Option Job) (reported : List Job) : Earned ⟨some (mark done txsSeen attempts flag), job, reported⟩ := by
  intro cursor marked _ settled landed
  obtain rfl := Option.some.inj marked
  rcases other with rfl | rfl
  · cases settled
  · rw [kupoGaveUp_gaveUp] at landed
    cases landed

theorem earned_tick {tick : Tick} (earned : Earned state) (asked : CapAsked settings state (.tick tick)) {next : State}
    (stepped : step settings host state (.tick tick) = some next) : Earned next := by
  obtain rfl := Option.some.inj stepped
  cases read : tick.markerRead with
  | false =>
    have ran : tick.ran settings host state = ⟨state.marker, failedRun, none⟩ := by simp [Tick.ran, runKupo, read]
    rw [ran]
    exact earned_mono earned _
  | true =>
    have ran : tick.ran settings host state =
        kupoRun (clampedCap settings tick.maxTxs) state.marker (tick.inputs settings host state.job) := by
      simp [Tick.ran, runKupo, read]
    rcases kupoRun_cases (clampedCap settings tick.maxTxs) state.marker (tick.inputs settings host state.job) with
      ⟨_, same, _⟩ | ⟨_, result, _, shape⟩ | ⟨awaits, ingested, checked, shape⟩ | ⟨_, _, shape⟩
    · rw [ran, same]
      exact earned_mono earned _
    · rw [ran, shape]
      exact earned_mono earned _
    · obtain ⟨unfaulted, job, found, lands⟩ := lands_of_checked checked
      have polls : Polls state tick := ⟨read, awaits, unfaulted⟩
      intro cursor marked _ _ _
      rw [ran, shape] at marked
      obtain rfl := Option.some.inj marked
      refine ⟨job, ?_, lands, asked polls job found lands⟩
      rw [if_pos polls]
      exact List.mem_append_right _ (Option.mem_toList.mpr found)
    · rcases kupoTrigger_cases (clampedCap settings tick.maxTxs) state.marker (spentAttempts state.marker)
          (tick.inputs settings host state.job) with
        ⟨_, marked, _⟩ | ⟨_, same, _⟩ | ⟨_, _, _, flag, _, marked⟩
      · rw [ran, shape, marked]
        exact earned_of_mark (Or.inr rfl) _ _
      · rw [ran, shape, same]
        exact earned_mono earned _
      · rw [ran, shape, marked]
        exact earned_of_mark (Or.inl rfl) _ _

theorem earned_step {event : Event} {next : State} (asked : CapAsked settings state event) (earned : Earned state)
    (stepped : step settings host state event = some next) : Earned next := by
  cases event with
  | tick tick => exact earned_tick earned asked stepped
  | operator maxTxs createdBeforeSlot inputs =>
    obtain rfl := Option.some.inj stepped
    exact earned
  | finish complete txsIngested =>
    simp only [step] at stepped
    split at stepped
    · split at stepped
      · obtain rfl := Option.some.inj stepped
        exact earned
      · cases stepped
    · cases stepped
  | fail =>
    simp only [step] at stepped
    split at stepped
    · split at stepped
      · obtain rfl := Option.some.inj stepped
        exact earned
      · cases stepped
    · cases stepped
  | evict =>
    simp only [step] at stepped
    split at stepped
    · cases stepped
    · obtain rfl := Option.some.inj stepped
      exact earned
  | restart =>
    obtain rfl := Option.some.inj stepped
    exact earned

/-- **A landed marker is earned** along every run in which the cap has not outgrown what the
host's job was asked for by the time the flavor hears that it landed. -/
theorem landed_is_earned_of_cap_asked {job : Option Job} {events : List Event} {last : State}
    (met : Runs.EveryStep (step settings host) (CapAsked settings) (start job) events)
    (reached : Runs.run (step settings host) (start job) events = some last) : Earned last := by
  refine Runs.invariant_of_step (step settings host) ?_ ?_ met reached
  · exact fun asked earned stepped => earned_step asked earned stepped
  · intro cursor marked
    cases marked

private def sampleSettings : Settings := ⟨true, true, 500, 5000, 0, 200, 500⟩

private def sampleHost : HostSettings := ⟨true, 500, 5000, 2⟩

private def tickAt (maxTxs : Int) : Event :=
  .tick ⟨maxTxs, true, none, .established ⟨900, 90, 5⟩, .answered, ⟨0, true⟩⟩

/-- An operator's unbounded job is passed over, the flavor's own job of 100 lands at 100. -/
theorem landed_at_what_was_asked :
    ∃ state, Runs.run (step sampleSettings sampleHost) (start none)
        [.operator (some 10) none ⟨0, true⟩, tickAt 100, .finish true 10, tickAt 100, .finish true 60, tickAt 100] =
          some state ∧
      Earned state ∧ state.marker = some (mark true 100 1 .none) := by
  have met : Runs.EveryStep (step sampleSettings sampleHost) (CapAsked sampleSettings) (start none)
      [.operator (some 10) none ⟨0, true⟩, tickAt 100, .finish true 10, tickAt 100, .finish true 60, tickAt 100] := by
    decide +kernel
  exact ⟨_, rfl, landed_is_earned_of_cap_asked met rfl, by decide +kernel⟩

/-- Triggered at 100, reported landed when the cap was 200: nothing asked for the other 100. -/
theorem landed_at_a_raised_cap :
    ∃ state, Runs.run (step sampleSettings sampleHost) (start none) [tickAt 100, .finish true 100, tickAt 200] =
        some state ∧
      ¬ Earned state ∧ state.marker = some (mark true 200 1 .none) ∧ state.reported.map Job.asked = [100] := by
  refine ⟨_, rfl, fun earned => ?_, by decide +kernel, by decide +kernel⟩
  obtain ⟨job, member, _, within⟩ := earned (mark true 200 1 .none) (by decide +kernel) rfl rfl (by decide +kernel)
  revert job
  decide +kernel

end TransactionMonitoring.KupoHost
