import Mathlib.Data.List.Sort
import Mathlib.Data.String.Basic
import TransactionMonitoring.Bech32
import TransactionMonitoring.Dictionary
import TransactionMonitoring.Runs

/-! The store of backfill jobs.

One dictionary has the newest job of each address.  A request checks it and reserves its place in one
go, waits for the audit row, and then starts the task that settles the job; between these points
other requests and tasks go on.  Requests and tasks hold the job itself, so a job is a place in a
heap here, and the dictionary maps to places.
-/
namespace TransactionMonitoring.BackfillJobs

open Runs

structure Settings where
  cardanoNetwork : String
  kupoConfigured : Bool
  backfillDefaultMaxTxs : Int
  backfillMaxTxsCap : Int
  backfillMaxConcurrent : ℕ
  /-- As the message shows it. -/
  backfillTimeoutSeconds : String
  backfillJobRetention : ℕ

inductive Status where
  | running
  | done
  | failed
deriving DecidableEq, Repr

structure JobResult where
  requestedTxs : ℕ
  txsIngested : ℕ
  blocksScanned : ℕ
  missingTxHashes : List String
  complete : Bool
  degradedReason : Option String
deriving DecidableEq, Repr

/-- `_Job`. -/
structure Job where
  status : Status
  address : String
  network : String
  maxTxs : Int
  startedAt : String
  createdBeforeSlot : Option Int
  result : Option JobResult
  error : Option String
deriving DecidableEq, Repr

def Job.key (job : Job) : String × String := (job.network, job.address)

structure BackfillRequest where
  address : String
  maxTxs : Option Int
  createdBeforeSlot : Option Int
deriving DecidableEq, Repr

/-- What ends a scan without a result. -/
inductive Failure where
  | timeout
  | kupoUnavailable
  | kupo
  | backfill
  | other
deriving DecidableEq, Repr

/-- How the scan of a job ends. -/
inductive Outcome where
  | returned (result : JobResult)
  | raised (failure : Failure)
deriving DecidableEq, Repr

structure State where
  objects : List Job
  /-- `_jobs`. -/
  jobs : List ((String × String) × ℕ)
  /-- The jobs whose requests await the audit row. -/
  auditing : List ℕ
  /-- The jobs whose tasks are alive. -/
  tasks : List ℕ
deriving DecidableEq

def empty : State := ⟨[], [], [], []⟩

/-- The job at the place is running. -/
def State.running (state : State) (id : ℕ) : Bool := state.objects[id]?.any fun job => job.status = .running

/-- The requests and the tasks that hold a job. -/
def State.holders (state : State) : List ℕ := state.auditing ++ state.tasks

section
variable (settings : Settings)

/-- `address_network_class`. -/
def addressNetworkClass (address : String) : Option String :=
  match Bech32.decodeAddressBytes address.toList with
  | none => none
  | some [] => none
  | some (header :: _) => if header % 16 = 1 then some "mainnet" else some "testnet"

/-- `_network_mismatch`. -/
def networkMismatch (address network : String) : Option String :=
  let expected := if network = "mainnet" then "mainnet" else "testnet"
  ((addressNetworkClass address).filter (· ≠ expected)).map fun addrClass =>
    "Address is a " ++ addrClass ++ " address but this instance monitors " ++ network ++ " (a " ++ expected ++
      " network); a backfill would find nothing."

/-- `ADDRESS_RE`. -/
def addressRe (address : String) : Bool :=
  (address.toList.all fun char => char.isAlphanum || char = '_') && 10 ≤ address.length && address.length ≤ 200

/-- `_safe_job_error`. -/
def safeJobError : Failure → String
  | .timeout => "Backfill exceeded the " ++ settings.backfillTimeoutSeconds ++ "s time limit"
  | .kupoUnavailable => "Backfill unavailable: Kupo is not configured"
  | .kupo => "Kupo request failed; see server logs"
  | .backfill => "Backfill failed during the chain scan; see server logs"
  | .other => "Backfill failed unexpectedly; see server logs"

/-- `_run`, once the scan has ended. -/
def settled (job : Job) : Outcome → Job
  | .returned result => { job with result := some result, status := .done }
  | .raised failure => { job with status := .failed, error := some (safeJobError settings failure) }

/-- The status and the detail that a request is refused with. -/
def refusal (state : State) (req : BackfillRequest) : Option (ℕ × String) :=
  if !addressRe req.address then some (422, "Invalid address format")
  else
    match networkMismatch req.address settings.cardanoNetwork with
    | some mismatch => some (422, mismatch)
    | none =>
        if !settings.kupoConfigured then some (503, "Backfill unavailable: KUPO_URL is not configured")
        else if (state.jobs.lookup (settings.cardanoNetwork, req.address)).any state.running then
          some (409, "A backfill for this address is already running")
        else if settings.backfillMaxConcurrent ≤ state.jobs.countP fun entry => state.running entry.2 then
          some (429, "Too many backfills already running; retry once one finishes")
        else none

/-- The reservation. -/
def newJob (req : BackfillRequest) (now : String) : Job where
  status := .running
  address := req.address
  network := settings.cardanoNetwork
  maxTxs := min (req.maxTxs.getD settings.backfillDefaultMaxTxs) settings.backfillMaxTxsCap
  startedAt := now
  createdBeforeSlot := req.createdBeforeSlot
  result := none
  error := none

/-- The entries of jobs that have ended. -/
def State.finished (state : State) : List ((String × String) × ℕ) :=
  state.jobs.filter fun entry => !state.running entry.2

/-- When the job at the place started. -/
def State.startedAt (state : State) (id : ℕ) : String := (state.objects[id]?.map Job.startedAt).getD ""

/-- `dict.pop`. -/
def pop (jobs : List ((String × String) × ℕ)) (key : String × String) : List ((String × String) × ℕ) :=
  jobs.filter fun entry => entry.1 ≠ key

/-- The entries beyond the retention, oldest first. -/
def State.excess (state : State) : List ((String × String) × ℕ) :=
  (state.finished.insertionSort fun first later => state.startedAt first.2 ≤ state.startedAt later.2).take
    (state.finished.length - settings.backfillJobRetention)

/-- `_evict_finished_jobs`. -/
def evictFinishedJobs (state : State) : State :=
  { state with jobs := (state.excess settings).foldl (fun jobs entry => pop jobs entry.1) state.jobs }

/-- What the event loop does between two points where it may switch. -/
inductive Event where
  /-- A request comes in, at a time, and is refused or goes on to the audit. -/
  | start (req : BackfillRequest) (now : String)
  /-- The audit row is written and the request is accepted. -/
  | audited (id : ℕ)
  | auditRaised (id : ℕ)
  /-- The scan of a job ends. -/
  | settle (id : ℕ) (outcome : Outcome)
deriving DecidableEq, Repr

/-- `start_backfill` up to the audit. -/
def reserve (state : State) (req : BackfillRequest) (now : String) : State :=
  { state with
    objects := state.objects ++ [newJob settings req now]
    jobs := Dictionary.insert (fun key other => decide (key = other)) state.jobs
      (settings.cardanoNetwork, req.address) state.objects.length
    auditing := state.auditing ++ [state.objects.length] }

/-- `start_backfill` after the audit. -/
def launch (state : State) (id : ℕ) : State :=
  evictFinishedJobs settings { state with auditing := state.auditing.erase id, tasks := state.tasks ++ [id] }

/-- `start_backfill` where the audit raises. -/
def release (state : State) (id : ℕ) (job : Job) : State :=
  { state with auditing := state.auditing.erase id, jobs := pop state.jobs job.key }

/-- The end of a task. -/
def finish (state : State) (id : ℕ) (job : Job) (outcome : Outcome) : State :=
  { state with objects := state.objects.set id (settled settings job outcome), tasks := state.tasks.erase id }

def step (state : State) : Event → Option State
  | .start req now => if (refusal settings state req).isSome then some state else some (reserve settings state req now)
  | .audited id => if id ∈ state.auditing then some (launch settings state id) else none
  | .auditRaised id => if id ∈ state.auditing then state.objects[id]?.map (release state id) else none
  | .settle id outcome =>
      if id ∈ state.tasks then state.objects[id]?.map fun job => finish settings state id job outcome else none

end

/-! ## The dictionary -/

section
variable {jobs : List ((String × String) × ℕ)} {key : String × String} {id : ℕ}

theorem mem_pop {entry : (String × String) × ℕ} : entry ∈ pop jobs key ↔ entry ∈ jobs ∧ entry.1 ≠ key := by
  simp [pop]

theorem mem_foldl_pop {entry : (String × String) × ℕ} (popped : List ((String × String) × ℕ)) :
    entry ∈ popped.foldl (fun jobs entry => pop jobs entry.1) jobs ↔
      entry ∈ jobs ∧ ∀ gone ∈ popped, entry.1 ≠ gone.1 := by
  induction popped generalizing jobs with
  | nil => simp
  | cons gone rest ih => rw [List.foldl_cons, ih, mem_pop, List.forall_mem_cons, and_assoc]

theorem foldl_pop_sublist (popped : List ((String × String) × ℕ)) :
    (popped.foldl (fun jobs entry => pop jobs entry.1) jobs).Sublist jobs := by
  induction popped generalizing jobs with
  | nil => exact List.Sublist.refl _
  | cons gone rest ih => exact ih.trans List.filter_sublist

/-- Setting a key replaces its entry. -/
theorem mem_insert {entry : (String × String) × ℕ} :
    entry ∈ Dictionary.insert (fun key other => decide (key = other)) jobs key id ↔
      entry = (key, id) ∨ entry ∈ jobs ∧ entry.1 ≠ key := by
  unfold Dictionary.insert
  split
  · rename_i known
    obtain ⟨old, member, same⟩ := List.any_eq_true.mp known
    rw [List.mem_map]
    constructor
    · rintro ⟨old, member, rfl⟩
      by_cases same : old.1 = key
      · simp [same]
      · simp [same, member]
    · rintro (rfl | ⟨member, other⟩)
      · exact ⟨old, member, by rw [if_pos same, of_decide_eq_true same]⟩
      · exact ⟨entry, member, by rw [if_neg (by simpa using other)]⟩
  · rename_i unknown
    rw [List.mem_append, List.mem_singleton, or_comm]
    refine or_congr_right (iff_self_and.mpr fun member same => unknown ?_)
    exact List.any_eq_true.mpr ⟨entry, member, decide_eq_true same⟩

theorem insert_keyed (keyed : (jobs.map Prod.fst).Nodup) :
    ((Dictionary.insert (fun key other => decide (key = other)) jobs key id).map Prod.fst).Nodup := by
  rw [Dictionary.keys_insert]
  split
  · exact keyed
  · rename_i unknown
    refine List.nodup_append_comm.mp (List.nodup_cons.mpr ⟨fun known => unknown ?_, keyed⟩)
    obtain ⟨entry, member, same⟩ := List.mem_map.mp known
    exact List.any_eq_true.mpr ⟨entry, member, decide_eq_true same⟩

theorem lookup_of_mem (keyed : (jobs.map Prod.fst).Nodup) (member : (key, id) ∈ jobs) :
    jobs.lookup key = some id := by
  induction jobs with
  | nil => cases member
  | cons entry rest ih =>
    rw [List.map_cons, List.nodup_cons] at keyed
    rcases List.mem_cons.mp member with rfl | later
    · exact List.lookup_cons_self
    · have other : (key == entry.1) = false := by
        refine beq_eq_false_iff_ne.mpr fun same => keyed.1 ?_
        exact List.mem_map.mpr ⟨(key, id), later, same⟩
      rw [List.lookup_cons, other]
      exact ih keyed.2 later

/-- Of a dictionary the entries with one key are one. -/
theorem entry_unique (keyed : (jobs.map Prod.fst).Nodup) {first second : (String × String) × ℕ}
    (one : first ∈ jobs) (two : second ∈ jobs) (same : first.1 = second.1) : first = second :=
  List.inj_on_of_nodup_map keyed one two same

end

/-! ## What holds in every state -/

/-- The jobs that run are the ones that a request or a task holds, and the dictionary has them all. -/
structure Sound (settings : Settings) (state : State) : Prop where
  keyed : (state.jobs.map Prod.fst).Nodup
  named : ∀ entry ∈ state.jobs, ∃ job, state.objects[entry.2]? = some job ∧ job.key = entry.1
  held : ∀ id, id ∈ state.holders ↔ state.running id = true ∧ id ∈ state.jobs.map Prod.snd
  distinct : state.holders.Nodup
  bounded : state.holders.length ≤ settings.backfillMaxConcurrent

section
variable {settings : Settings} {state next : State} {id : ℕ}

theorem sound_empty : Sound settings empty := by
  refine ⟨List.nodup_nil, by simp [empty], fun id => ?_, List.nodup_nil, Nat.zero_le _⟩
  simp [State.holders, empty]

theorem Sound.ids_nodup (sound : Sound settings state) : (state.jobs.map Prod.snd).Nodup := by
  refine List.Nodup.map_on (fun first one second two same => ?_) (List.Nodup.of_map _ sound.keyed)
  obtain ⟨job, found, key⟩ := sound.named first one
  obtain ⟨other, foundOther, keyOther⟩ := sound.named second two
  rw [same, foundOther, Option.some_inj] at found
  exact entry_unique sound.keyed one two (key.symm.trans (found ▸ keyOther))

/-- The running jobs of the dictionary are counted by their holders. -/
theorem Sound.countP_running (sound : Sound settings state) :
    (state.jobs.countP fun entry => state.running entry.2) = state.holders.length := by
  have perm : ((state.jobs.map Prod.snd).filter state.running).Perm state.holders := by
    refine (List.perm_ext_iff_of_nodup (sound.ids_nodup.filter _) sound.distinct).mpr fun id => ?_
    rw [List.mem_filter, sound.held, and_comm]
  rw [← perm.length_eq, ← List.countP_eq_length_filter, List.countP_map]
  rfl

theorem running_iff : state.running id = true ↔ ∃ job, state.objects[id]? = some job ∧ job.status = .running := by
  simp [State.running, Option.any_eq_true]

/-! ### A request comes in -/

/-- A request that is not refused finds no running job of its address, and fewer than may run. -/
theorem of_not_refused {req : BackfillRequest} (sound : Sound settings state)
    (accepted : refusal settings state req = none) :
    (∀ id, ((settings.cardanoNetwork, req.address), id) ∈ state.jobs → state.running id = false) ∧
      state.holders.length < settings.backfillMaxConcurrent := by
  unfold refusal at accepted
  split at accepted
  · cases accepted
  cases mismatch : networkMismatch req.address settings.cardanoNetwork with
  | some mismatch =>
    rw [mismatch] at accepted
    cases accepted
  | none =>
    rw [mismatch] at accepted
    dsimp only at accepted
    split at accepted
    · cases accepted
    split at accepted
    · cases accepted
    rename_i free
    split at accepted
    · cases accepted
    rename_i few
    refine ⟨fun id member => ?_, ?_⟩
    · rw [lookup_of_mem sound.keyed member] at free
      simpa using free
    · rw [sound.countP_running] at few
      omega

theorem Sound.lt_length (sound : Sound settings state) {entry : (String × String) × ℕ}
    (member : entry ∈ state.jobs) : entry.2 < state.objects.length := by
  obtain ⟨job, found, -⟩ := sound.named entry member
  exact (List.getElem?_eq_some_iff.mp found).1

theorem Sound.after_reserve {req : BackfillRequest} (sound : Sound settings state)
    (accepted : refusal settings state req = none) (now : String) :
    Sound settings (reserve settings state req now) := by
  obtain ⟨idle, few⟩ := of_not_refused sound accepted
  have fresh (id : ℕ) (held : id ∈ state.holders) : id < state.objects.length := by
    obtain ⟨entry, member, rfl⟩ := List.mem_map.mp ((sound.held id).mp held).2
    exact sound.lt_length member
  have holders : (reserve settings state req now).holders.Perm (state.objects.length :: state.holders) := by
    simp only [State.holders, reserve, List.append_assoc]
    exact List.perm_middle
  have running (id : ℕ) (existing : id < state.objects.length) :
      (reserve settings state req now).running id = state.running id := by
    simp [State.running, reserve, List.getElem?_append_left existing]
  have runs : (reserve settings state req now).running state.objects.length = true := by
    simp [State.running, reserve, newJob]
  constructor
  · exact insert_keyed sound.keyed
  · intro entry member
    rcases mem_insert.mp member with rfl | ⟨old, -⟩
    · exact ⟨newJob settings req now, by simp [reserve], rfl⟩
    · obtain ⟨job, found, key⟩ := sound.named entry old
      exact ⟨job, by rw [reserve, List.getElem?_append_left (sound.lt_length old), found], key⟩
  · intro id
    rw [holders.mem_iff, List.mem_cons, sound.held]
    constructor
    · rintro (rfl | ⟨isRunning, known⟩)
      · exact ⟨runs, List.mem_map.mpr ⟨_, mem_insert.mpr (.inl rfl), rfl⟩⟩
      · obtain ⟨entry, member, rfl⟩ := List.mem_map.mp known
        refine ⟨(running _ (sound.lt_length member)).trans isRunning,
          List.mem_map.mpr ⟨entry, mem_insert.mpr (.inr ⟨member, fun same => ?_⟩), rfl⟩⟩
        rw [idle entry.2 (same ▸ member)] at isRunning
        cases isRunning
    · rintro ⟨isRunning, known⟩
      obtain ⟨entry, member, rfl⟩ := List.mem_map.mp known
      rcases mem_insert.mp member with rfl | ⟨old, -⟩
      · exact .inl rfl
      · rw [running _ (sound.lt_length old)] at isRunning
        exact .inr ⟨isRunning, List.mem_map_of_mem old⟩
  · exact holders.nodup_iff.mpr (List.nodup_cons.mpr ⟨fun held => lt_irrefl _ (fresh _ held), sound.distinct⟩)
  · rw [holders.length_eq, List.length_cons]
    exact few

/-! ### A request is accepted -/

theorem mem_excess {entry : (String × String) × ℕ} (gone : entry ∈ state.excess settings) : entry ∈ state.finished :=
  (List.mem_insertionSort _).mp (List.mem_of_mem_take gone)

theorem mem_finished {entry : (String × String) × ℕ} :
    entry ∈ state.finished ↔ entry ∈ state.jobs ∧ state.running entry.2 = false := by
  simp [State.finished]

/-- No running job is evicted. -/
theorem mem_evict_of_running (keyed : (state.jobs.map Prod.fst).Nodup) {entry : (String × String) × ℕ}
    (member : entry ∈ state.jobs) (isRunning : state.running entry.2 = true) :
    entry ∈ (evictFinishedJobs settings state).jobs := by
  refine (mem_foldl_pop _).mpr ⟨member, fun gone beyond same => ?_⟩
  obtain ⟨known, ended⟩ := mem_finished.mp (mem_excess beyond)
  rw [entry_unique keyed member known same, ended] at isRunning
  cases isRunning

/-- What is evicted is all that is finished beyond the retention. -/
theorem finished_evict_le (keyed : (state.jobs.map Prod.fst).Nodup) :
    (evictFinishedJobs settings state).finished.length ≤ settings.backfillJobRetention := by
  let older (first later : (String × String) × ℕ) : Prop := state.startedAt first.2 ≤ state.startedAt later.2
  let sorted := state.finished.insertionSort older
  let excess := state.finished.length - settings.backfillJobRetention
  have perm : sorted.Perm state.finished := List.perm_insertionSort older _
  -- What stays finished is among the entries behind the excess.
  have kept : (evictFinishedJobs settings state).finished ⊆ sorted.drop excess := by
    intro entry member
    obtain ⟨stays, ended⟩ := mem_finished.mp member
    obtain ⟨known, spared⟩ := (mem_foldl_pop _).mp stays
    have listed : entry ∈ sorted := perm.mem_iff.mpr (mem_finished.mpr ⟨known, ended⟩)
    rw [← List.take_append_drop excess sorted] at listed
    exact (List.mem_append.mp listed).resolve_left fun gone => spared entry gone rfl
  have distinct : (evictFinishedJobs settings state).finished.Nodup := by
    refine (List.Nodup.sublist ?_ (List.Nodup.of_map _ keyed)).filter _
    exact foldl_pop_sublist _
  calc (evictFinishedJobs settings state).finished.length
      ≤ (sorted.drop excess).length := (List.subperm_of_subset distinct kept).length_le
    _ = state.finished.length - excess := by rw [List.length_drop, perm.length_eq]
    _ ≤ settings.backfillJobRetention := by omega

theorem Sound.after_evict (sound : Sound settings state) : Sound settings (evictFinishedJobs settings state) := by
  have fewer : (evictFinishedJobs settings state).jobs.Sublist state.jobs := foldl_pop_sublist _
  refine ⟨sound.keyed.sublist (fewer.map _), fun entry member => sound.named entry (fewer.subset member), fun id => ?_,
    sound.distinct, sound.bounded⟩
  rw [show (evictFinishedJobs settings state).holders = state.holders from rfl, sound.held]
  refine and_congr_right fun isRunning => ⟨fun known => ?_, fun known => (fewer.map _).subset known⟩
  obtain ⟨entry, member, rfl⟩ := List.mem_map.mp known
  exact List.mem_map_of_mem (mem_evict_of_running sound.keyed member isRunning)

/-- The task takes the job from the request. -/
theorem Sound.handOn (sound : Sound settings state) (waiting : id ∈ state.auditing) :
    Sound settings { state with auditing := state.auditing.erase id, tasks := state.tasks ++ [id] } := by
  have perm : (state.auditing.erase id ++ (state.tasks ++ [id])).Perm state.holders := by
    rw [← List.append_assoc]
    refine (List.perm_append_singleton id _).trans ?_
    rw [← List.cons_append]
    exact (List.perm_cons_erase waiting).symm.append_right _
  exact ⟨sound.keyed, sound.named, fun other => perm.mem_iff.trans (sound.held other),
    perm.nodup_iff.mpr sound.distinct, perm.length_eq.trans_le sound.bounded⟩

/-! ### An audit raises, a scan ends -/

/-- A held job is the one of the entry that has its key. -/
theorem Sound.holds_key (sound : Sound settings state) (held : id ∈ state.holders) :
    ∃ job, state.objects[id]? = some job ∧ job.status = .running ∧ (job.key, id) ∈ state.jobs := by
  obtain ⟨isRunning, known⟩ := (sound.held id).mp held
  obtain ⟨entry, member, rfl⟩ := List.mem_map.mp known
  obtain ⟨job, found, key⟩ := sound.named entry member
  obtain ⟨other, same, status⟩ := running_iff.mp isRunning
  obtain rfl := Option.some.inj (found.symm.trans same)
  exact ⟨job, found, status, by rwa [key]⟩

/-- Releasing a reservation takes its own entry and no other. -/
theorem mem_release (sound : Sound settings state) (waiting : id ∈ state.auditing) {job : Job}
    (found : state.objects[id]? = some job) {entry : (String × String) × ℕ} :
    entry ∈ (release state id job).jobs ↔ entry ∈ state.jobs ∧ entry.2 ≠ id := by
  obtain ⟨own, foundOwn, -, member⟩ := sound.holds_key (List.mem_append_left _ waiting)
  obtain rfl := Option.some.inj (found.symm.trans foundOwn)
  refine mem_pop.trans (and_congr_right fun known => not_congr ⟨fun same => ?_, ?_⟩)
  · exact congrArg Prod.snd (entry_unique sound.keyed known member same)
  · rintro rfl
    exact congrArg Prod.fst (List.inj_on_of_nodup_map sound.ids_nodup known member rfl)

theorem Sound.after_release (sound : Sound settings state) (waiting : id ∈ state.auditing) {job : Job}
    (found : state.objects[id]? = some job) : Sound settings (release state id job) := by
  have holders : (release state id job).holders = state.holders.erase id :=
    (List.erase_append_left _ waiting).symm
  have fewer : (release state id job).jobs.Sublist state.jobs := List.filter_sublist
  refine ⟨sound.keyed.sublist (fewer.map _), fun entry member => sound.named entry (fewer.subset member),
    fun other => ?_, ?_, ?_⟩
  · rw [holders, sound.distinct.mem_erase_iff, sound.held, and_left_comm]
    refine and_congr_right fun _ => ?_
    simp only [List.mem_map, mem_release sound waiting found]
    constructor
    · rintro ⟨different, entry, member, rfl⟩
      exact ⟨entry, ⟨member, different⟩, rfl⟩
    · rintro ⟨entry, ⟨member, different⟩, rfl⟩
      exact ⟨different, entry, member, rfl⟩
  · rw [holders]
    exact sound.distinct.erase id
  · rw [holders]
    exact List.length_erase_le.trans sound.bounded

theorem settled_key (job : Job) (outcome : Outcome) :
    (settled settings job outcome).key = job.key ∧ (settled settings job outcome).status ≠ .running := by
  cases outcome with
  | returned result => exact ⟨rfl, nofun⟩
  | raised failure => exact ⟨rfl, nofun⟩

/-- Only the job itself ceases to run. -/
theorem running_finish {job : Job} (found : state.objects[id]? = some job) (outcome : Outcome) (other : ℕ) :
    (finish settings state id job outcome).running other = true ↔ other ≠ id ∧ state.running other = true := by
  rw [running_iff, running_iff]
  by_cases same : other = id
  · subst same
    have inside := (List.getElem?_eq_some_iff.mp found).1
    simp [finish, inside, (settled_key job outcome).2]
  · simp [finish, same, List.getElem?_set_ne (Ne.symm same)]

theorem Sound.after_finish (sound : Sound settings state) (alive : id ∈ state.tasks) {job : Job}
    (found : state.objects[id]? = some job) (outcome : Outcome) :
    Sound settings (finish settings state id job outcome) := by
  have apart : id ∉ state.auditing := fun waiting =>
    (List.nodup_append.mp sound.distinct).2.2 id waiting id alive rfl
  have holders : (finish settings state id job outcome).holders = state.holders.erase id :=
    (List.erase_append_right _ apart).symm
  refine ⟨sound.keyed, fun entry member => ?_, fun other => ?_, ?_, ?_⟩
  · obtain ⟨named, foundNamed, key⟩ := sound.named entry member
    by_cases same : entry.2 = id
    · refine ⟨settled settings job outcome, ?_, ?_⟩
      · have inside := (List.getElem?_eq_some_iff.mp found).1
        simp [finish, same, inside]
      · rw [same, found] at foundNamed
        rw [(settled_key job outcome).1, Option.some.inj foundNamed, key]
    · refine ⟨named, ?_, key⟩
      rw [finish, List.getElem?_set_ne (Ne.symm same), foundNamed]
  · rw [holders, sound.distinct.mem_erase_iff, sound.held, running_finish found, and_assoc]
    rfl
  · rw [holders]
    exact sound.distinct.erase id
  · rw [holders]
    exact List.length_erase_le.trans sound.bounded

/-! ### Steps and runs -/

/-- What a step does. -/
theorem step_cases {event : Event} (stepped : step settings state event = some next) :
    (∃ req now, event = .start req now ∧ (next = state ∨
      refusal settings state req = none ∧ next = reserve settings state req now)) ∨
    (∃ id, event = .audited id ∧ id ∈ state.auditing ∧ next = launch settings state id) ∨
    (∃ id job, event = .auditRaised id ∧ id ∈ state.auditing ∧ state.objects[id]? = some job ∧
      next = release state id job) ∨
    ∃ id outcome job, event = .settle id outcome ∧ id ∈ state.tasks ∧ state.objects[id]? = some job ∧
      next = finish settings state id job outcome := by
  cases event with
  | start req now =>
    refine .inl ⟨req, now, rfl, ?_⟩
    dsimp only [step] at stepped
    cases refused : refusal settings state req with
    | some _ => exact .inl (by simpa [refused] using stepped.symm)
    | none => exact .inr ⟨rfl, by simpa [refused] using stepped.symm⟩
  | audited id =>
    dsimp only [step] at stepped
    split at stepped
    · rename_i waiting
      exact .inr (.inl ⟨id, rfl, waiting, (Option.some.inj stepped).symm⟩)
    · cases stepped
  | auditRaised id =>
    dsimp only [step] at stepped
    split at stepped
    · rename_i waiting
      obtain ⟨job, found, rfl⟩ := Option.map_eq_some_iff.mp stepped
      exact .inr (.inr (.inl ⟨id, job, rfl, waiting, found, rfl⟩))
    · cases stepped
  | settle id outcome =>
    dsimp only [step] at stepped
    split at stepped
    · rename_i alive
      obtain ⟨job, found, rfl⟩ := Option.map_eq_some_iff.mp stepped
      exact .inr (.inr (.inr ⟨id, outcome, job, rfl, alive, found, rfl⟩))
    · cases stepped

theorem Sound.after_step {event : Event} (sound : Sound settings state)
    (stepped : step settings state event = some next) : Sound settings next := by
  obtain ⟨req, now, rfl, rfl | ⟨accepted, rfl⟩⟩ | ⟨id, rfl, waiting, rfl⟩ | ⟨id, job, rfl, waiting, found, rfl⟩ |
    ⟨id, outcome, job, rfl, alive, found, rfl⟩ := step_cases stepped
  · exact sound
  · exact sound.after_reserve accepted now
  · exact (sound.handOn waiting).after_evict
  · exact sound.after_release waiting found
  · exact sound.after_finish alive found outcome

theorem sound_run {events : List Event} (reached : run (step settings) empty events = some state) :
    Sound settings state :=
  invariant (step settings) Sound.after_step sound_empty reached

/-- A running job stays in the dictionary through every step but the release by its own request. -/
theorem Sound.kept {event : Event} (sound : Sound settings state) (stepped : step settings state event = some next)
    {entry : (String × String) × ℕ} (member : entry ∈ state.jobs) (isRunning : state.running entry.2 = true)
    (other : event ≠ .auditRaised entry.2) : entry ∈ next.jobs := by
  obtain ⟨req, now, rfl, rfl | ⟨accepted, rfl⟩⟩ | ⟨id, rfl, waiting, rfl⟩ | ⟨id, job, rfl, waiting, found, rfl⟩ |
    ⟨id, outcome, job, rfl, alive, found, rfl⟩ := step_cases stepped
  · exact member
  · refine mem_insert.mpr (.inr ⟨member, fun same => ?_⟩)
    rw [(of_not_refused sound accepted).1 entry.2 (same ▸ member)] at isRunning
    cases isRunning
  · exact mem_evict_of_running (sound.handOn waiting).keyed member isRunning
  · exact (mem_release sound waiting found).mpr ⟨member, fun same => other (same ▸ rfl)⟩
  · exact member

/-- A live task can settle its job in whatever way the scan ends, and the job then no longer runs. -/
theorem Sound.settles (sound : Sound settings state) (alive : id ∈ state.tasks) (outcome : Outcome) :
    ∃ next, step settings state (.settle id outcome) = some next ∧ next.running id = false := by
  obtain ⟨job, found, -, -⟩ := sound.holds_key (List.mem_append_right _ alive)
  refine ⟨finish settings state id job outcome, by simp [step, alive, found], ?_⟩
  exact Bool.eq_false_iff.mpr fun still => ((running_finish found outcome id).mp still).1 rfl

end

/-- What holds of the store in a state. -/
structure Guarded (settings : Settings) (state : State) : Prop where
  /-- Of the jobs that run, in the dictionary or held by a request or a task, one at most is of an address. -/
  one : ∀ first second job other, state.objects[first]? = some job → state.objects[second]? = some other →
    (first ∈ state.holders ∨ first ∈ state.jobs.map Prod.snd ∧ job.status = .running) →
    (second ∈ state.holders ∨ second ∈ state.jobs.map Prod.snd ∧ other.status = .running) →
    job.key = other.key → first = second
  total : (state.jobs.countP fun entry => state.running entry.2) ≤ settings.backfillMaxConcurrent ∧
    state.holders.length ≤ settings.backfillMaxConcurrent
  held : ∀ entry ∈ state.jobs, state.running entry.2 = true → entry.2 ∈ state.auditing ∨
    entry.2 ∈ state.tasks ∧ ∀ outcome, ∃ next, step settings state (.settle entry.2 outcome) = some next ∧
      next.running entry.2 = false

theorem Sound.guarded {settings : Settings} {state : State} (sound : Sound settings state) :
    Guarded settings state := by
  have holds (id : ℕ) (job : Job) (found : state.objects[id]? = some job)
      (runs : id ∈ state.holders ∨ id ∈ state.jobs.map Prod.snd ∧ job.status = .running) :
      (job.key, id) ∈ state.jobs := by
    have held : id ∈ state.holders := by
      rcases runs with held | ⟨known, status⟩
      · exact held
      · exact (sound.held id).mpr ⟨running_iff.mpr ⟨job, found, status⟩, known⟩
    obtain ⟨own, foundOwn, -, member⟩ := sound.holds_key held
    rwa [Option.some.inj (found.symm.trans foundOwn)]
  refine ⟨fun first second job other found foundOther one two same => ?_, ⟨?_, sound.bounded⟩,
    fun entry member isRunning => ?_⟩
  · have member := holds first job found one
    exact congrArg Prod.snd (entry_unique sound.keyed member (holds second other foundOther two) same)
  · exact sound.countP_running.trans_le sound.bounded
  · rcases List.mem_append.mp ((sound.held entry.2).mpr ⟨isRunning, List.mem_map_of_mem member⟩) with waiting | alive
    · exact .inl waiting
    · exact .inr ⟨alive, sound.settles alive⟩

/-- **In every state that requests, audits and scans reach, the store is guarded; a running job leaves the
dictionary only where its own audit raises; and each accepted request leaves no more finished jobs than are
retained.** -/
theorem store_guarded (settings : Settings) (events : List Event) (state : State)
    (reached : run (step settings) empty events = some state) :
    Guarded settings state ∧
      (∀ event next, step settings state event = some next → ∀ entry ∈ state.jobs, state.running entry.2 = true →
        event ≠ .auditRaised entry.2 → entry ∈ next.jobs) ∧
      ∀ id next, step settings state (.audited id) = some next →
        next.finished.length ≤ settings.backfillJobRetention := by
  have sound := sound_run reached
  refine ⟨sound.guarded, fun event next stepped entry => sound.kept stepped, fun id next stepped => ?_⟩
  obtain ⟨_, _, ⟨⟩, _⟩ | ⟨_, ⟨⟩, waiting, rfl⟩ | ⟨_, _, ⟨⟩, _⟩ | ⟨_, _, _, ⟨⟩, _⟩ := step_cases stepped
  exact finished_evict_le (sound.handOn waiting).keyed

private def oneAtATime : Settings := ⟨"mainnet", true, 500, 5000, 1, "3600", 1⟩

private def firstAddress : BackfillRequest := ⟨"DdzFFzCqrhs", none, none⟩

private def secondAddress : BackfillRequest := ⟨"DdzFFzCqrht", some 9000, some 120⟩

/-- The second request is refused while the first job runs, loses its audit row the next time, and is accepted
the third time. -/
private def contested : List Event :=
  [.start firstAddress "t1", .audited 0, .start secondAddress "t2", .settle 0 (.raised .timeout),
    .start secondAddress "t3", .auditRaised 1, .start secondAddress "t4"]

private def contestedState : State where
  objects := [⟨.failed, "DdzFFzCqrhs", "mainnet", 500, "t1", none, none,
      some "Backfill exceeded the 3600s time limit"⟩,
    ⟨.running, "DdzFFzCqrht", "mainnet", 5000, "t3", some 120, none, none⟩,
    ⟨.running, "DdzFFzCqrht", "mainnet", 5000, "t4", some 120, none, none⟩]
  jobs := [(("mainnet", "DdzFFzCqrhs"), 0), (("mainnet", "DdzFFzCqrht"), 2)]
  auditing := [2]
  tasks := []

theorem store_guarded_contested :
    Guarded oneAtATime contestedState ∧ contestedState.running 2 = true ∧
      ∃ next, step oneAtATime contestedState (.audited 2) = some next ∧ next.finished.length = 1 :=
  have reached : run (step oneAtATime) empty contested = some contestedState := by decide +kernel
  ⟨(store_guarded oneAtATime contested contestedState reached).1, by decide,
    launch oneAtATime contestedState 2, rfl, by decide +kernel⟩

end TransactionMonitoring.BackfillJobs
