import TransactionMonitoring.DeadLetter

/-! How often the sweep retries a dead-lettered alert.

The counter a row carries is the budget: a failed retry adds one to it and gives the row
up once it reaches the limit.  An escalation replaces the row in place, and the counter
is not among the columns it sets.
-/
namespace TransactionMonitoring.DeadLetter
open Faults

/-- The row under the key, which is the table's primary key. -/
def rowOf (rows : List FailedNotification) (key : Key) : Option FailedNotification :=
  rows.find? fun row => row.key = key

/-- `count` failed retries of the key's row lead from one table to another.  Each was
made when the row was due and is counted on the row as the sweep listed it; in between,
other statements leave the row as it is. -/
inductive FailedRetries (settings : Settings) (key : Key) (first : List FailedNotification) :
    Nat → List FailedNotification → Prop where
  | start : FailedRetries settings key first 0 first
  | apart {count rows later} (before : FailedRetries settings key first count rows)
      (same : rowOf later key = rowOf rows key) : FailedRetries settings key first count later
  | retried {count rows row} (now : Nat) (before : FailedRetries settings key first count rows)
      (listed : rowOf rows key = some row) (due : isDue settings now row = true) :
      FailedRetries settings key first (count + 1)
        (markFailedAttempt rows now key row.band (settings.notifyRetryMaxAttempts ≤ row.attempts + 1))

/-- The row under the key is retried `count` times and is then abandoned. -/
def Abandons (settings : Settings) (key : Key) (rows : List FailedNotification) (count : Nat) : Prop :=
  ∃ later row, FailedRetries settings key rows count later ∧ rowOf later key = some row ∧
    row.abandoned = true

/-- A live delivery whose every channel failed sends `record_failed_notification`, which
takes effect. -/
def Records (settings : Settings) (state : State) (delivery : Delivery) (next : State) : Prop :=
  ∃ index outcome, state.deliveries[index]? = some (delivery, .record) ∧ outcome.applies = true ∧
    step settings state (.deliver index (.statement outcome)) = some next

theorem key_of_rowOf {rows : List FailedNotification} {key : Key} {row : FailedNotification}
    (found : rowOf rows key = some row) : row.key = key := by
  simpa using List.find?_some found

theorem mem_of_rowOf {rows : List FailedNotification} {key : Key} {row : FailedNotification}
    (found : rowOf rows key = some row) : row ∈ rows :=
  List.mem_of_find?_eq_some found

/-- A statement that updates rows in place updates the key's row. -/
private theorem rowOf_map {update : FailedNotification → FailedNotification}
    (keyed : ∀ row, (update row).key = row.key) (rows : List FailedNotification) (key : Key) :
    rowOf (rows.map update) key = (rowOf rows key).map update := by
  unfold rowOf
  rw [List.find?_map]
  congr 2
  funext row
  simp [keyed]

/-- What `mark_failed_attempt` does to the row under its key. -/
theorem rowOf_markFailedAttempt {rows : List FailedNotification} {key : Key} {row : FailedNotification}
    (found : rowOf rows key = some row) (now : Nat) (band : Band) (abandoned : Bool) :
    rowOf (markFailedAttempt rows now key band abandoned) key =
      some { row with
        attempts := row.attempts + 1, lastAttemptAt := now, abandoned := abandoned
        ownAttempts := if row.band = band then row.ownAttempts + 1 else row.ownAttempts } := by
  unfold markFailedAttempt
  rw [rowOf_map, found]
  · simp [key_of_rowOf found]
  · intro other
    split <;> rfl

/-- An escalation keeps the counter of the row it replaces. -/
theorem rowOf_recordFailedNotification_of_lower {rows : List FailedNotification} {delivery : Delivery}
    {row : FailedNotification} (found : rowOf rows delivery.key = some row)
    (lower : row.band.rank < delivery.band.rank) (now : Nat) :
    rowOf (recordFailedNotification rows now delivery) delivery.key =
      some { row with
        band := delivery.band, groupKey := delivery.group, attackClass := delivery.attackClass
        abandoned := false, ownAttempts := 1 } := by
  have keyed := key_of_rowOf found
  unfold recordFailedNotification
  rw [if_pos, rowOf_map, found]
  · simp [keyed, lower]
  · intro other
    split <;> rfl
  · exact List.any_eq_true.mpr ⟨row, mem_of_rowOf found, by simpa using keyed⟩

/-- A first failure starts the counter at one. -/
theorem rowOf_recordFailedNotification_of_absent {rows : List FailedNotification} {delivery : Delivery}
    (absent : rowOf rows delivery.key = none) (now : Nat) :
    rowOf (recordFailedNotification rows now delivery) delivery.key =
      some ⟨delivery.key, delivery.band, delivery.group, delivery.attackClass, 1, false, now, now, 1⟩ := by
  have missing : rows.any (fun row => row.key = delivery.key) = false := by
    simpa [rowOf, List.find?_eq_none] using absent
  unfold recordFailedNotification
  rw [missing]
  simp only [rowOf] at absent
  simp [rowOf, List.find?_append, absent]

/-! ## The budget of a row -/

/-- After `count` failed retries the counter has grown by as many, and the row is given up
from the first of them on that met the limit. -/
private theorem rowOf_of_failedRetries {settings : Settings} {key : Key}
    {first later : List FailedNotification} {row : FailedNotification} {count : Nat}
    (found : rowOf first key = some row) (live : row.abandoned = false)
    (retries : FailedRetries settings key first count later) :
    ∃ after, rowOf later key = some after ∧ after.attempts = row.attempts + count ∧
      (after.abandoned = false → count = 0 ∨ row.attempts + count < settings.notifyRetryMaxAttempts) ∧
      (after.abandoned = true → 0 < count ∧ settings.notifyRetryMaxAttempts ≤ row.attempts + count ∧
        (count = 1 ∨ row.attempts + count ≤ settings.notifyRetryMaxAttempts)) := by
  induction retries with
  | start =>
    refine ⟨row, found, rfl, fun _ => Or.inl rfl, fun given => ?_⟩
    rw [live] at given
    cases given
  | apart before same ih =>
    rw [same]
    exact ih
  | @retried count rows listedRow now before listed due ih =>
    obtain ⟨after, reached, attempts, pending, _⟩ := ih
    obtain rfl : after = listedRow := Option.some.inj (reached.symm.trans listed)
    have notGiven : after.abandoned = false := by
      simp only [isDue, Bool.and_eq_true, Bool.not_eq_true'] at due
      exact due.1
    refine ⟨_, rowOf_markFailedAttempt listed now _ _, ?_, ?_, ?_⟩
    · simp only [attempts]
      omega
    · intro kept
      simp only [decide_eq_false_iff_not] at kept
      omega
    · intro given
      simp only [decide_eq_true_eq] at given
      have below := pending notGiven
      omega

/-- A row that is not yet given up can be retried, once its backoff has elapsed. -/
private theorem due_later {row : FailedNotification} (settings : Settings) (live : row.abandoned = false) :
    ∃ now, isDue settings now row = true := by
  refine ⟨row.lastAttemptAt +
    settings.notifyRetryBackoffSeconds * 2 ^ min (row.attempts - 1) retryBackoffMaxDoublings, ?_⟩
  simp [isDue, live]

/-- Failing retries go on until the limit is met. -/
private theorem failedRetries_reach {settings : Settings} {key : Key} {first : List FailedNotification}
    {row : FailedNotification} (found : rowOf first key = some row) (live : row.abandoned = false)
    (count : Nat) (within : count = 0 ∨ count ≤ max 1 (settings.notifyRetryMaxAttempts - row.attempts)) :
    ∃ later, FailedRetries settings key first count later := by
  induction count with
  | zero => exact ⟨first, .start⟩
  | succ count ih =>
    obtain ⟨rows, before⟩ := ih (by omega)
    obtain ⟨after, listed, attempts, _, given⟩ := rowOf_of_failedRetries found live before
    have notGiven : after.abandoned = false := by
      rw [← Bool.not_eq_true]
      intro abandoned
      have spent := given abandoned
      omega
    obtain ⟨now, due⟩ := due_later settings notGiven
    exact ⟨_, .retried now before listed due⟩

/-- The number of retries before a row is abandoned is what its counter leaves of the limit,
and one at least. -/
theorem abandons_iff {settings : Settings} {key : Key} {rows : List FailedNotification}
    {row : FailedNotification} (found : rowOf rows key = some row) (live : row.abandoned = false)
    (count : Nat) :
    Abandons settings key rows count ↔ count = max 1 (settings.notifyRetryMaxAttempts - row.attempts) := by
  constructor
  · rintro ⟨later, after, retries, reached, abandoned⟩
    obtain ⟨last, same, _, _, given⟩ := rowOf_of_failedRetries found live retries
    obtain rfl : last = after := Option.some.inj (same.symm.trans reached)
    have spent := given abandoned
    omega
  · intro spent
    obtain ⟨later, retries⟩ := failedRetries_reach found live count (Or.inr (Nat.le_of_eq spent))
    obtain ⟨after, reached, _, pending, _⟩ := rowOf_of_failedRetries found live retries
    refine ⟨later, after, retries, reached, ?_⟩
    rw [← Bool.not_eq_false]
    intro kept
    have left := pending kept
    omega

/-! ## In the running system -/

/-- What the sweep sends when a retry of the row has failed, whichever way, is one failed
retry as long as the row is the one it listed. -/
theorem failedRetries_of_count {settings : Settings} {state next : State} {sweep : Sweep} {inTry : Bool}
    (working : state.sweep = some sweep) (counting : sweep.phase = .count inTry)
    (listed : rowOf state.failedNotifications sweep.row.key = some sweep.row)
    (due : isDue settings state.now sweep.row = true)
    (stepped : step settings state (.retry (.statement .answered)) = some next) :
    FailedRetries settings sweep.row.key state.failedNotifications 1 next.failedNotifications := by
  have written : next.failedNotifications =
      (countFailedAttempt settings state sweep).failedNotifications := by
    simp only [step, working, sweepStep, counting, Option.bind_eq_bind, Option.bind_some] at stepped
    obtain rfl := Option.some.inj stepped
    rfl
  rw [written]
  exact .retried state.now .start listed due

/-- One tick of the sweep whose first row routes to channels that cannot deliver is one
failed retry of it. -/
theorem failedRetries_of_tick {settings : Settings} {state : State} {order rest : List FailedNotification}
    {row : FailedNotification} (idle : state.sweep = none)
    (listing : order.Perm (state.failedNotifications.filter (isDue settings state.now)))
    (oldest : order.Pairwise fun first second => first.firstFailedAt ≤ second.firstFailedAt)
    (taken : order.take settings.notifyRetryMaxPerTick = row :: rest)
    (found : rowOf state.failedNotifications row.key = some row) :
    ∃ later, Runs.run (step settings) state
        [.list order, .retry (.route .gap), .retry (.statement .answered)] = some later ∧
      FailedRetries settings row.key state.failedNotifications 1 later.failedNotifications := by
  have due : isDue settings state.now row = true := by
    have member : row ∈ order := List.mem_of_mem_take (taken ▸ List.mem_cons_self)
    exact (List.mem_filter.mp (listing.mem_iff.mp member)).2
  let sweep : Sweep := ⟨row, rest, .count true, none⟩
  let later : State := { countFailedAttempt settings { state with sweep := some sweep } sweep with
    sweep := nextRow rest }
  have ran : Runs.run (step settings) state
      [.list order, .retry (.route .gap), .retry (.statement .answered)] = some later := by
    simp only [Runs.run, step, idle, listing, oldest, taken, nextRow, sweepStep, and_self, if_true,
      Option.bind_eq_bind, Option.bind_some, Outcome.applies_answered, Outcome.returns_answered,
      Bool.not_true, Bool.false_and, Bool.false_eq_true, if_false]
    rfl
  exact ⟨later, ran, .retried state.now .start found due⟩

/-- Every row has counted the live failure it was inserted for. -/
def Counting (state : State) : Prop :=
  ∀ row ∈ state.failedNotifications, 1 ≤ row.attempts

private theorem counting_recordFailedNotification {rows : List FailedNotification} {now : Nat}
    {delivery : Delivery} (counting : ∀ row ∈ rows, 1 ≤ row.attempts) :
    ∀ row ∈ recordFailedNotification rows now delivery, 1 ≤ row.attempts := by
  intro row member
  unfold recordFailedNotification at member
  split at member
  · obtain ⟨old, oldMember, rfl⟩ := List.mem_map.mp member
    have counted := counting old oldMember
    split <;> exact counted
  · rcases List.mem_append.mp member with old | inserted
    · exact counting row old
    · obtain rfl := List.mem_singleton.mp inserted
      exact Nat.le_refl 1

private theorem counting_deliver {settings : Settings} {state next : State} {delivery : Delivery}
    {phase after : DeliveryPhase} {reply : Reply} (counting : Counting state)
    (stepped : deliverStep settings state delivery phase reply = some (next, after)) : Counting next := by
  obtain ⟨_, _, _, rows, _⟩ := deliverStep_frame stepped
  intro row member
  rcases rows with same | ⟨_, recorded⟩
  · exact counting row (same ▸ member)
  · exact counting_recordFailedNotification counting row (recorded ▸ member)

private theorem counting_sweep {settings : Settings} {state next : State} {sweep : Sweep} {reply : Reply}
    (counting : Counting state) (stepped : sweepStep settings state sweep reply = some next) :
    Counting next := by
  unfold sweepStep at stepped
  split at stepped
  · obtain rfl := Option.some.inj stepped
    exact counting
  · obtain rfl := Option.some.inj stepped
    exact counting
  · obtain rfl := Option.some.inj stepped
    exact counting
  · obtain rfl := Option.some.inj stepped
    exact counting
  · simp only [Option.bind_eq_bind, Option.bind_eq_some_iff] at stepped
    obtain ⟨⟨middle, after⟩, moved, shape⟩ := stepped
    obtain rfl := Option.some.inj shape
    exact (counting_deliver counting moved : Counting middle)
  · obtain rfl := Option.some.inj stepped
    split
    · intro row member
      exact counting row (List.mem_of_mem_filter member)
    · exact counting
  · obtain rfl := Option.some.inj stepped
    split
    · intro row member
      obtain ⟨old, oldMember, rfl⟩ := List.mem_map.mp member
      have counted := counting old oldMember
      split
      · exact Nat.le_add_left 1 old.attempts
      · exact counted
    · exact counting
  · cases stepped

private theorem counting_step {settings : Settings} {state next : State} {event : Event}
    (counting : Counting state) (stepped : step settings state event = some next) : Counting next := by
  cases event with
  | tick seconds =>
    obtain rfl := Option.some.inj stepped
    exact counting
  | emit delivery =>
    obtain rfl := Option.some.inj stepped
    exact counting
  | deliver index reply =>
    simp only [step, Option.bind_eq_bind, Option.bind_eq_some_iff] at stepped
    obtain ⟨⟨delivery, phase⟩, _, ⟨middle, after⟩, moved, shape⟩ := stepped
    obtain rfl := Option.some.inj shape
    exact (counting_deliver counting moved : Counting middle)
  | list order =>
    simp only [step] at stepped
    split at stepped
    · obtain rfl := Option.some.inj stepped
      exact counting
    · cases stepped
  | retry reply =>
    simp only [step, Option.bind_eq_bind, Option.bind_eq_some_iff] at stepped
    obtain ⟨sweep, _, moved⟩ := stepped
    exact counting_sweep counting moved
  | prune olderThanDays =>
    obtain rfl := Option.some.inj stepped
    intro row member
    exact counting row (List.mem_of_mem_filter member)

theorem counting_of_run {settings : Settings} {events : List Event} {state : State}
    (reached : Runs.run (step settings) State.initial events = some state) : Counting state := by
  apply Runs.invariant (step settings) counting_step ?_ reached
  intro row member
  cases member

theorem Records.rows {settings : Settings} {state next : State} {delivery : Delivery}
    (records : Records settings state delivery next) :
    next.failedNotifications =
      recordFailedNotification state.failedNotifications state.now delivery := by
  obtain ⟨index, outcome, found, applied, stepped⟩ := records
  simp only [step, found, deliverStep, applied, Option.bind_eq_bind, Option.bind_some, if_true] at stepped
  obtain rfl := Option.some.inj stepped
  rfl

/-- How often a replaced row is retried: its counter goes on from where the lower band left it. -/
theorem Records.abandons_of_lower {settings : Settings} {state next : State} {delivery : Delivery}
    {row : FailedNotification} (records : Records settings state delivery next)
    (found : rowOf state.failedNotifications delivery.key = some row)
    (lower : row.band.rank < delivery.band.rank) (count : Nat) :
    Abandons settings delivery.key next.failedNotifications count ↔
      count = max 1 (settings.notifyRetryMaxAttempts - row.attempts) := by
  rw [records.rows]
  exact abandons_iff (rowOf_recordFailedNotification_of_lower found lower state.now) rfl count

/-- How often a new row is retried. -/
theorem Records.abandons_of_absent {settings : Settings} {state next : State} {delivery : Delivery}
    (records : Records settings state delivery next)
    (absent : rowOf state.failedNotifications delivery.key = none) (count : Nat) :
    Abandons settings delivery.key next.failedNotifications count ↔
      count = max 1 (settings.notifyRetryMaxAttempts - 1) := by
  rw [records.rows]
  exact abandons_iff (rowOf_recordFailedNotification_of_absent absent state.now) rfl count

/-- **An escalation has a fresh budget exactly if nothing of it was spent.**  In every
reachable state in which a higher band replaces a row, the row is retried as often as a new
row would be if and only if no failed retry was counted on it since it was inserted, or the
limit leaves any row a single retry. -/
theorem escalation_budget_fresh_iff {settings : Settings} {history : List Event} {state next : State}
    {delivery : Delivery} {row : FailedNotification} {blank fresh : State} {alert : Delivery}
    (reached : Runs.run (step settings) State.initial history = some state)
    (replaces : Records settings state delivery next)
    (found : rowOf state.failedNotifications delivery.key = some row)
    (lower : row.band.rank < delivery.band.rank)
    (inserts : Records settings blank alert fresh)
    (absent : rowOf blank.failedNotifications alert.key = none) :
    (∀ count, Abandons settings delivery.key next.failedNotifications count ↔
        Abandons settings alert.key fresh.failedNotifications count) ↔
      row.attempts = 1 ∨ settings.notifyRetryMaxAttempts ≤ 2 := by
  have counted := counting_of_run reached row (mem_of_rowOf found)
  simp only [replaces.abandons_of_lower found lower, inserts.abandons_of_absent absent]
  constructor
  · intro same
    have budgets := (same (max 1 (settings.notifyRetryMaxAttempts - row.attempts))).mp rfl
    omega
  · intro unspent count
    have budgets : max 1 (settings.notifyRetryMaxAttempts - row.attempts) =
        max 1 (settings.notifyRetryMaxAttempts - 1) := by omega
    rw [budgets]

private def budgetSettings : Settings := ⟨8, 60, 20, 60⟩

private def budgetKey : Key := ⟨"mainnet", "aa01", "scorer"⟩

private def budgetAlert (band : Band) : Delivery := ⟨budgetKey, band, "phishing", none, true⟩

/-- A delivery up to the statement that records its failure. -/
private def failTo (index : Nat) (band : Band) : List Event :=
  [.emit (budgetAlert band), .deliver index (.statement .answered), .deliver index (.statement .answered),
    .deliver index (.dispatch (some false))]

private def budgetRow : FailedNotification :=
  ⟨budgetKey, .high, none, "phishing", 1, false, 0, 0, 1⟩

private def recordsHigh : Event := .deliver 0 (.statement .answered)

/-- A minute later the sweep retries the High alert, in vain. -/
private def retryHigh : List Event :=
  [.tick 60, .list [budgetRow], .retry (.route .gap), .retry (.statement .answered)]

private def retriedRow : FailedNotification :=
  ⟨budgetKey, .high, none, "phishing", 2, false, 0, 60, 2⟩

private def beforeEscalation : State where
  now := 60
  failedNotifications := [retriedRow]
  notifiedAlerts := []
  notifiedAlertGroups := []
  deliveries := [(budgetAlert .high, .finished .failed), (budgetAlert .critical, .record)]
  sweep := none
  delivered := []
  lost := []

private def beforeFirstFailure : State where
  now := 0
  failedNotifications := []
  notifiedAlerts := []
  notifiedAlertGroups := []
  deliveries := [(budgetAlert .high, .record)]
  sweep := none
  delivered := []
  lost := []

private theorem beforeEscalation_reached :
    Runs.run (step budgetSettings) State.initial
      (failTo 0 .high ++ [recordsHigh] ++ retryHigh ++ failTo 1 .critical) = some beforeEscalation := by
  decide

private theorem records_of_found {settings : Settings} {state : State} {delivery : Delivery} {index : Nat}
    (found : state.deliveries[index]? = some (delivery, .record)) :
    ∃ next, Records settings state delivery next := by
  have stepped : ∃ next, step settings state (.deliver index (.statement .answered)) = some next := by
    simp only [step, found, deliverStep, Option.bind_eq_bind, Option.bind_some]
    exact ⟨_, rfl⟩
  obtain ⟨next, moved⟩ := stepped
  exact ⟨next, index, .answered, found, rfl, moved⟩

/-- A High alert retried once and then replaced at Critical, where the limit is eight. -/
theorem escalation_budget_fresh_retried :
    ∃ next fresh, Records budgetSettings beforeEscalation (budgetAlert .critical) next ∧
      Records budgetSettings beforeFirstFailure (budgetAlert .high) fresh ∧
      ¬ ∀ count, Abandons budgetSettings budgetKey next.failedNotifications count ↔
        Abandons budgetSettings budgetKey fresh.failedNotifications count := by
  obtain ⟨next, replaces⟩ := @records_of_found budgetSettings beforeEscalation
    (budgetAlert .critical) 1 rfl
  obtain ⟨fresh, inserts⟩ := @records_of_found budgetSettings beforeFirstFailure
    (budgetAlert .high) 0 rfl
  refine ⟨next, fresh, replaces, inserts, ?_⟩
  have decided := @escalation_budget_fresh_iff budgetSettings _ beforeEscalation next _ retriedRow
    beforeFirstFailure fresh _ beforeEscalation_reached replaces (by decide) (by decide) inserts (by decide)
  intro same
  have unspent := decided.mp same
  exact absurd unspent (by decide)

/-- The High alert used one retry; the Critical alert that replaces it is given up after six
where a new one has seven. -/
theorem escalation_budget_not_fresh :
    ¬ ∀ (settings : Settings) (history : List Event) (state next blank fresh : State)
        (delivery alert : Delivery) (row : FailedNotification),
      Runs.run (step settings) State.initial history = some state →
      Records settings state delivery next →
      rowOf state.failedNotifications delivery.key = some row →
      row.band.rank < delivery.band.rank →
      Records settings blank alert fresh → rowOf blank.failedNotifications alert.key = none →
      ∀ count, Abandons settings delivery.key next.failedNotifications count ↔
        Abandons settings alert.key fresh.failedNotifications count := by
  intro always
  obtain ⟨next, replaces⟩ := @records_of_found budgetSettings beforeEscalation
    (budgetAlert .critical) 1 rfl
  obtain ⟨fresh, inserts⟩ := @records_of_found budgetSettings beforeFirstFailure
    (budgetAlert .high) 0 rfl
  have same := always budgetSettings _ _ next _ fresh _ _ retriedRow beforeEscalation_reached replaces
    (by decide) (by decide) inserts (by decide)
  have replaced := @Records.abandons_of_lower _ _ _ _ retriedRow replaces (by decide) (by decide) 7
  have new := inserts.abandons_of_absent (by decide) 7
  exact absurd (replaced.mp ((same 7).mpr (new.mpr (by decide)))) (by decide)

end TransactionMonitoring.DeadLetter
