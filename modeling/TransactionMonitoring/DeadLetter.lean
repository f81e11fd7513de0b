import Mathlib.Algebra.Group.Nat.Defs
import Mathlib.Order.RelClasses
import TransactionMonitoring.Runs
import TransactionMonitoring.Faults

/-! The dead-letter store for scorer alerts.

A live delivery whose every channel failed is upserted into `failed_notifications`;
a retry sweep lists the due rows, delivers each against the current routing and then
deletes the row or counts an attempt, by key.  The sweep works from the rows as it
listed them, while live deliveries of the same key go on.

Every statement is its own step, and any of them may raise.  Three things in the state
are bookkeeping for the statements and have no column: the attempts counted for the
alert now in a row, the deliveries that succeeded, and the alerts that left the store
without an excuse.
-/
namespace TransactionMonitoring.DeadLetter
open Faults

/-- The risk bands that can be routed; `score_to_band` yields no other. -/
inductive Band where
  | informational
  | moderate
  | high
  | critical
deriving DecidableEq, Repr

/-- `_BAND_RANK`. -/
def Band.rank : Band → Nat
  | .informational => 0
  | .moderate => 1
  | .high => 2
  | .critical => 3

/-- The key of the dedup ledger and of the dead-letter store. -/
structure Key where
  network : String
  txHash : String
  source : String
deriving DecidableEq, Repr

/-- A row of `failed_notifications`. -/
structure FailedNotification where
  key : Key
  band : Band
  groupKey : Option String
  /-- The part of the stored payload that routing reads. -/
  attackClass : String
  attempts : Nat
  abandoned : Bool
  firstFailedAt : Nat
  lastAttemptAt : Nat
  /-- Bookkeeping: the failed attempts of the alert at this band, its live failure included. -/
  ownAttempts : Nat
deriving DecidableEq, Repr

/-- A row of `notified_alert_groups`. -/
structure GroupClaim where
  network : String
  groupKey : String
  source : String
  band : Band
  notifiedAt : Nat
deriving DecidableEq, Repr

structure Settings where
  notifyRetryMaxAttempts : Nat
  notifyRetryBackoffSeconds : Nat
  notifyRetryMaxPerTick : Nat
  notifyGroupWindowMinutes : Nat
deriving DecidableEq, Repr

/-- One call of `_deliver_with_dedup`. -/
structure Delivery where
  key : Key
  band : Band
  attackClass : String
  group : Option String
  recordFailure : Bool
deriving DecidableEq, Repr

/-- How a delivery ends.  The first two are both `DELIVER_DUPLICATE`. -/
inductive Status where
  | alreadyNotified
  | groupCollapsed
  | sent
  | failed
  | raised
deriving DecidableEq, Repr

/-- Where a delivery stands between its statements. -/
inductive DeliveryPhase where
  | check
  | checkGroup
  | dispatch
  | record
  | claim
  | claimGroup
  | finished (status : Status)
deriving DecidableEq, Repr

/-- Why the sweep may be done with an alert. -/
inductive Reason where
  | delivered
  | claimed
  | collapsed
  | withdrawn
deriving DecidableEq, Repr

/-- Where the sweep stands with the row it works on. -/
inductive SweepPhase where
  | route
  | deliver (delivery : Delivery) (phase : DeliveryPhase)
  | delete
  /-- `_count_failed_attempt`; inside the `try` an exception leads to one more. -/
  | count (inTry : Bool)
deriving DecidableEq, Repr

/-- `_retry_tick` at work: the row as it was listed, the rows still to come. -/
structure Sweep where
  row : FailedNotification
  rest : List FailedNotification
  phase : SweepPhase
  reason : Option Reason
deriving DecidableEq, Repr

structure State where
  now : Nat
  failedNotifications : List FailedNotification
  notifiedAlerts : List (Key × Band)
  notifiedAlertGroups : List GroupClaim
  deliveries : List (Delivery × DeliveryPhase)
  sweep : Option Sweep
  /-- Bookkeeping: every key and band some channel delivered. -/
  delivered : List (Key × Band)
  /-- Bookkeeping: alerts removed or abandoned without an excuse. -/
  lost : List (Key × Band)
deriving DecidableEq, Repr

def State.initial : State := ⟨0, [], [], [], [], none, [], []⟩

/-! ## The statements -/

/-- `already_notified`. -/
def alreadyNotified (claims : List (Key × Band)) (key : Key) (band : Band) : Bool :=
  claims.any fun claim => claim.1 = key && band.rank ≤ claim.2.rank

/-- `claim_notification`: insert, or raise the band of the key's row. -/
def claimNotification (claims : List (Key × Band)) (key : Key) (band : Band) : List (Key × Band) :=
  if claims.any (fun claim => claim.1 = key) then
    claims.map fun claim => if claim.1 = key ∧ claim.2.rank < band.rank then (key, band) else claim
  else claims ++ [(key, band)]

/-- `already_notified_group`: notified at this band or above inside the window. -/
def alreadyNotifiedGroup (groups : List GroupClaim) (key : Key) (group : String) (band : Band)
    (windowMinutes now : Nat) : Bool :=
  0 < windowMinutes && groups.any fun claim =>
    claim.network = key.network && claim.groupKey = group && claim.source = key.source &&
      band.rank ≤ claim.band.rank && now < claim.notifiedAt + 60 * windowMinutes

/-- `claim_notification_group`: the band keeps its maximum, the window restarts. -/
def claimNotificationGroup (groups : List GroupClaim) (key : Key) (group : String) (band : Band)
    (now : Nat) : List GroupClaim :=
  let mine (claim : GroupClaim) : Bool :=
    claim.network = key.network && claim.groupKey = group && claim.source = key.source
  if groups.any mine then
    groups.map fun claim =>
      if mine claim then
        { claim with band := if claim.band.rank < band.rank then band else claim.band, notifiedAt := now }
      else claim
  else groups ++ [⟨key.network, group, key.source, band, now⟩]

/-- `record_failed_notification`: a higher band replaces the pending row and keeps its
attempt counter; a same or lower one leaves it alone. -/
def recordFailedNotification (rows : List FailedNotification) (now : Nat) (delivery : Delivery) :
    List FailedNotification :=
  if rows.any (fun row => row.key = delivery.key) then
    rows.map fun row =>
      if row.key = delivery.key ∧ row.band.rank < delivery.band.rank then
        { row with band := delivery.band, groupKey := delivery.group,
                   attackClass := delivery.attackClass, abandoned := false, ownAttempts := 1 }
      else row
  else rows ++ [⟨delivery.key, delivery.band, delivery.group, delivery.attackClass, 1, false, now, now, 1⟩]

/-- `mark_failed_attempt`, for an attempt made at `band`. -/
def markFailedAttempt (rows : List FailedNotification) (now : Nat) (key : Key) (band : Band)
    (abandoned : Bool) : List FailedNotification :=
  rows.map fun row =>
    if row.key = key then
      { row with attempts := row.attempts + 1, lastAttemptAt := now, abandoned := abandoned,
                 ownAttempts := if row.band = band then row.ownAttempts + 1 else row.ownAttempts }
    else row

/-- `delete_failed_notification`. -/
def deleteFailedNotification (rows : List FailedNotification) (key : Key) : List FailedNotification :=
  rows.filter fun row => row.key ≠ key

/-- `_RETRY_BACKOFF_MAX_DOUBLINGS`. -/
def retryBackoffMaxDoublings : Nat := 6

/-- The `WHERE` part of `due_failed_notifications`. -/
def isDue (settings : Settings) (now : Nat) (row : FailedNotification) : Bool :=
  !row.abandoned && row.lastAttemptAt +
    settings.notifyRetryBackoffSeconds * 2 ^ min (row.attempts - 1) retryBackoffMaxDoublings ≤ now

/-- An alert may leave the store when it was delivered or claimed at its band or above,
was collapsed into an open group window, lost its route, or used up its own attempts.
`reason` is what the sweep found out about the band it listed. -/
def excused (settings : Settings) (delivered : List (Key × Band)) (reason : Option Reason)
    (listed : Band) (row : FailedNotification) : Bool :=
  alreadyNotified delivered row.key row.band ||
  settings.notifyRetryMaxAttempts ≤ row.ownAttempts ||
  match reason with
  | some .delivered | some .claimed | some .collapsed => row.band.rank ≤ listed.rank
  | some .withdrawn => row.band = listed
  | none => false

/-- The alerts of a key that leave the store unexcused. -/
def unexcused (settings : Settings) (delivered : List (Key × Band)) (reason : Option Reason)
    (listed : Band) (rows : List FailedNotification) (key : Key) : List (Key × Band) :=
  (rows.filter fun row => row.key = key && !excused settings delivered reason listed row).map
    fun row => (row.key, row.band)

/-! ## The steps -/

/-- What the sweep's routing lookup finds. -/
inductive Route where
  /-- The payload does not validate, or the lookup raises. -/
  | unprocessable
  /-- `selected_channels` is empty. -/
  | silenced
  /-- Channels are selected, none can deliver. -/
  | gap
  | resolved
deriving DecidableEq, Repr

/-- What the outside answers to the next statement of a task. -/
inductive Reply where
  | route (found : Route)
  /-- `dispatch`: some channel delivered, all failed, or it raised. -/
  | dispatch (delivered : Option Bool)
  | statement (outcome : Outcome)
deriving DecidableEq, Repr

/-- `_deliver_with_dedup` up to its first statement: a window of zero turns grouping off. -/
def beginDelivery (settings : Settings) (delivery : Delivery) : Delivery :=
  if settings.notifyGroupWindowMinutes = 0 then { delivery with group := none } else delivery

/-- The next statement of `_deliver_with_dedup`.  A ledger that cannot be read never
suppresses, one that cannot be written never fails the delivery. -/
def deliverStep (settings : Settings) (state : State) (delivery : Delivery) :
    DeliveryPhase → Reply → Option (State × DeliveryPhase)
  | .check, .statement outcome =>
      if outcome.returns && alreadyNotified state.notifiedAlerts delivery.key delivery.band then
        some (state, .finished .alreadyNotified)
      else some (state, .checkGroup)
  | .checkGroup, .statement outcome =>
      match delivery.group with
      | none => some (state, .dispatch)
      | some group =>
          if outcome.returns && alreadyNotifiedGroup state.notifiedAlertGroups delivery.key group
              delivery.band settings.notifyGroupWindowMinutes state.now then
            some (state, .finished .groupCollapsed)
          else some (state, .dispatch)
  | .dispatch, .dispatch (some true) =>
      some ({ state with delivered := state.delivered ++ [(delivery.key, delivery.band)] }, .claim)
  | .dispatch, .dispatch (some false) =>
      some (state, if delivery.recordFailure then .record else .finished .failed)
  | .dispatch, .dispatch none => some (state, .finished .raised)
  | .record, .statement outcome =>
      let rows := recordFailedNotification state.failedNotifications state.now delivery
      some (if outcome.applies then { state with failedNotifications := rows } else state,
        .finished .failed)
  | .claim, .statement outcome =>
      let claims := claimNotification state.notifiedAlerts delivery.key delivery.band
      some (if outcome.applies then { state with notifiedAlerts := claims } else state,
        if delivery.group.isSome then .claimGroup else .finished .sent)
  | .claimGroup, .statement outcome => do
      let group ← delivery.group
      let groups := claimNotificationGroup state.notifiedAlertGroups delivery.key group delivery.band
        state.now
      some (if outcome.applies then { state with notifiedAlertGroups := groups } else state,
        .finished .sent)
  | _, _ => none

/-- The sweep moves on to the next row it listed. -/
def nextRow : List FailedNotification → Option Sweep
  | [] => none
  | row :: rest => some ⟨row, rest, .route, none⟩

/-- What `_retry_tick` does once its delivery has ended. -/
def afterDelivery (sweep : Sweep) : Status → Sweep
  | .alreadyNotified => { sweep with phase := .delete, reason := some .claimed }
  | .groupCollapsed => { sweep with phase := .delete, reason := some .collapsed }
  | .sent => { sweep with phase := .delete, reason := some .delivered }
  | .failed => { sweep with phase := .count true }
  | .raised => { sweep with phase := .count false }

/-- The sweep awaits its delivery until that has ended. -/
def continueSweep (sweep : Sweep) (delivery : Delivery) : DeliveryPhase → Sweep
  | .finished status => afterDelivery sweep status
  | phase => { sweep with phase := .deliver delivery phase }

/-- The statement `_count_failed_attempt` sends: the budget is judged by the row as it
was listed. -/
def countFailedAttempt (settings : Settings) (state : State) (sweep : Sweep) : State :=
  let giveUp := decide (settings.notifyRetryMaxAttempts ≤ sweep.row.attempts + 1)
  let rows := markFailedAttempt state.failedNotifications state.now sweep.row.key sweep.row.band giveUp
  { state with
    failedNotifications := rows
    lost := if giveUp then
        state.lost ++ unexcused settings state.delivered sweep.reason sweep.row.band rows sweep.row.key
      else state.lost }

/-- The statement `delete_failed_notification` the sweep sends when it is done with a row. -/
def deleteRow (settings : Settings) (state : State) (sweep : Sweep) : State :=
  { state with
    failedNotifications := deleteFailedNotification state.failedNotifications sweep.row.key
    lost := state.lost ++ unexcused settings state.delivered sweep.reason sweep.row.band
      state.failedNotifications sweep.row.key }

/-- The next statement of `_retry_tick`. -/
def sweepStep (settings : Settings) (state : State) (sweep : Sweep) (reply : Reply) : Option State :=
  match sweep.phase, reply with
  | .route, .route .unprocessable => some { state with sweep := some { sweep with phase := .count false } }
  | .route, .route .silenced =>
      some { state with sweep := some { sweep with phase := .delete, reason := some .withdrawn } }
  | .route, .route .gap => some { state with sweep := some { sweep with phase := .count true } }
  | .route, .route .resolved =>
      let delivery := beginDelivery settings
        ⟨sweep.row.key, sweep.row.band, sweep.row.attackClass, sweep.row.groupKey, false⟩
      some { state with sweep := some { sweep with phase := .deliver delivery .check } }
  | .deliver delivery phase, reply => do
      let (state, phase) ← deliverStep settings state delivery phase reply
      some { state with sweep := some (continueSweep sweep delivery phase) }
  | .delete, .statement outcome =>
      let written := if outcome.applies then deleteRow settings state sweep else state
      let next := if outcome.returns then nextRow sweep.rest else some { sweep with phase := .count false }
      some { written with sweep := next }
  | .count inTry, .statement outcome =>
      let written := if outcome.applies then countFailedAttempt settings state sweep else state
      let next := if !outcome.returns && inTry then some { sweep with phase := .count false }
        else nextRow sweep.rest
      some { written with sweep := next }
  | _, _ => none

inductive Event where
  | tick (seconds : Nat)
  /-- A live delivery is scheduled. -/
  | emit (delivery : Delivery)
  | deliver (index : Nat) (reply : Reply)
  /-- `_retry_tick` lists the due rows, oldest failure first. -/
  | list (order : List FailedNotification)
  | retry (reply : Reply)
  /-- `prune_failed_notifications`. -/
  | prune (olderThanDays : Nat)
deriving DecidableEq, Repr

/-- One step of the live deliveries, the sweep and the clock. -/
def step (settings : Settings) (state : State) : Event → Option State
  | .tick seconds => some { state with now := state.now + seconds }
  | .emit delivery =>
      let begun := (beginDelivery settings delivery, DeliveryPhase.check)
      some { state with deliveries := state.deliveries ++ [begun] }
  | .deliver index reply => do
      let (delivery, phase) ← state.deliveries[index]?
      let (state, phase) ← deliverStep settings state delivery phase reply
      some { state with deliveries := state.deliveries.set index (delivery, phase) }
  | .list order =>
      if state.sweep = none ∧ order.Perm (state.failedNotifications.filter (isDue settings state.now)) ∧
          order.Pairwise (fun first second => first.firstFailedAt ≤ second.firstFailedAt) then
        some { state with sweep := nextRow (order.take settings.notifyRetryMaxPerTick) }
      else none
  | .retry reply => do
      let sweep ← state.sweep
      sweepStep settings state sweep reply
  | .prune olderThanDays =>
      let kept := state.failedNotifications.filter fun row =>
        !(row.abandoned && row.lastAttemptAt + olderThanDays * 86400 < state.now)
      some { state with failedNotifications := kept }

/-! ## When no alert is lost -/

/-- The sweep is about to delete the row or to count an attempt on it. -/
def Sweep.writes (sweep : Sweep) : Bool :=
  match sweep.phase with
  | .delete | .count _ => true
  | .route | .deliver _ _ => false

/-- No retry has been counted on a row that the delivery would replace. -/
def EscalatesFresh (rows : List FailedNotification) (delivery : Delivery) : Prop :=
  ∀ row ∈ rows, row.key = delivery.key → row.band.rank < delivery.band.rank → row.attempts = 1

/-- The row under the key is still the one that was listed: neither replaced at another
band nor created anew. -/
def Unchanged (rows : List FailedNotification) (listed : FailedNotification) : Prop :=
  ∀ row ∈ rows, row.key = listed.key → row.band = listed.band ∧ listed.attempts ≤ row.attempts

/-- The condition on one step: an escalation replaces only a row on which no retry has
been counted, and the sweep deletes or counts only on the row it listed. -/
def Undisturbed (state : State) : Event → Prop
  | .deliver index _ => ∀ task ∈ state.deliveries[index]?,
      task.2 = .record → EscalatesFresh state.failedNotifications task.1
  | .retry _ => ∀ sweep ∈ state.sweep,
      sweep.writes = true → Unchanged state.failedNotifications sweep.row
  | _ => True

instance (rows : List FailedNotification) (delivery : Delivery) :
    Decidable (EscalatesFresh rows delivery) :=
  inferInstanceAs (Decidable (∀ row ∈ rows, _))

instance (rows : List FailedNotification) (listed : FailedNotification) :
    Decidable (Unchanged rows listed) :=
  inferInstanceAs (Decidable (∀ row ∈ rows, _))

instance (state : State) (event : Event) : Decidable (Undisturbed state event) :=
  match event with
  | .deliver index _ => inferInstanceAs (Decidable (∀ task ∈ state.deliveries[index]?, _))
  | .retry _ => inferInstanceAs (Decidable (∀ sweep ∈ state.sweep, _))
  | .tick _ | .emit _ | .list _ | .prune _ => isTrue trivial

/-- The counter of every row is the number of its own attempts, the sweep deletes only
for a reason and never dead-letters, and nothing has been lost. -/
structure Sound (state : State) : Prop where
  counted : ∀ row ∈ state.failedNotifications, row.attempts = row.ownAttempts
  reasoned : ∀ sweep, state.sweep = some sweep → sweep.phase = .delete → sweep.reason ≠ none
  retriesOnly : ∀ sweep, state.sweep = some sweep → ∀ delivery phase,
    sweep.phase = .deliver delivery phase → delivery.recordFailure = false ∧ phase ≠ .record
  kept : state.lost = []

private theorem sound_initial : Sound State.initial := by
  constructor <;> simp [State.initial]

/-- A delivery touches neither the sweep nor what was lost, and the dead-letter rows
only when it records its failure. -/
theorem deliverStep_frame {settings : Settings} {state next : State} {delivery : Delivery}
    {phase after : DeliveryPhase} {reply : Reply}
    (stepped : deliverStep settings state delivery phase reply = some (next, after)) :
    next.sweep = state.sweep ∧ next.deliveries = state.deliveries ∧ next.lost = state.lost ∧
      (next.failedNotifications = state.failedNotifications ∨
        phase = .record ∧ next.failedNotifications =
          recordFailedNotification state.failedNotifications state.now delivery) ∧
      (after = .record → delivery.recordFailure = true) := by
  unfold deliverStep at stepped
  split at stepped
  · split at stepped <;> obtain ⟨rfl, rfl⟩ := stepped <;> simp
  · split at stepped
    · obtain ⟨rfl, rfl⟩ := stepped
      simp
    · split at stepped <;> obtain ⟨rfl, rfl⟩ := stepped <;> simp
  · obtain ⟨rfl, rfl⟩ := stepped
    simp
  · obtain ⟨rfl, rfl⟩ := stepped
    refine ⟨rfl, rfl, rfl, Or.inl rfl, ?_⟩
    cases delivery.recordFailure <;> simp
  · obtain ⟨rfl, rfl⟩ := stepped
    simp
  · obtain ⟨rfl, rfl⟩ := stepped
    split <;> simp
  · obtain ⟨rfl, rfl⟩ := stepped
    split <;> split <;> simp
  · simp only [Option.bind_eq_bind, Option.bind_eq_some_iff] at stepped
    obtain ⟨group, _, shape⟩ := stepped
    obtain ⟨rfl, rfl⟩ := shape
    split <;> simp
  · cases stepped

private theorem recordFailedNotification_counted {rows : List FailedNotification} {now : Nat}
    {delivery : Delivery} (counted : ∀ row ∈ rows, row.attempts = row.ownAttempts)
    (fresh : EscalatesFresh rows delivery) :
    ∀ row ∈ recordFailedNotification rows now delivery, row.attempts = row.ownAttempts := by
  intro row member
  unfold recordFailedNotification at member
  split at member
  · obtain ⟨old, oldMember, rfl⟩ := List.mem_map.mp member
    split
    · rename_i escalated
      exact fresh old oldMember escalated.1 escalated.2
    · exact counted old oldMember
  · rcases List.mem_append.mp member with old | inserted
    · exact counted row old
    · obtain rfl := List.mem_singleton.mp inserted
      rfl

private theorem sound_deliver {settings : Settings} {state next : State} {index : Nat} {reply : Reply}
    (sound : Sound state) (undisturbed : Undisturbed state (.deliver index reply))
    (stepped : step settings state (.deliver index reply) = some next) : Sound next := by
  simp only [step, Option.bind_eq_bind, Option.bind_eq_some_iff] at stepped
  obtain ⟨⟨delivery, phase⟩, found, ⟨middle, after⟩, moved, shape⟩ := stepped
  obtain rfl : _ = next := by simpa using shape
  obtain ⟨sameSweep, _, sameLost, rows, _⟩ := deliverStep_frame moved
  refine ⟨?_, ?_, ?_, sameLost.trans sound.kept⟩
  · rcases rows with same | ⟨recording, recorded⟩
    · simpa [same] using sound.counted
    · subst recording
      simpa [recorded] using
        recordFailedNotification_counted sound.counted (undisturbed _ found rfl)
  · simpa [sameSweep] using sound.reasoned
  · simpa [sameSweep] using sound.retriesOnly

private theorem unexcused_eq_nil {settings : Settings} {delivered : List (Key × Band)}
    {reason : Option Reason} {listed : Band} {rows : List FailedNotification} {key : Key}
    (allExcused : ∀ row ∈ rows, row.key = key → excused settings delivered reason listed row = true) :
    unexcused settings delivered reason listed rows key = [] := by
  unfold unexcused
  rw [List.map_eq_nil_iff, List.filter_eq_nil_iff]
  intro row member
  simp only [Bool.and_eq_true, decide_eq_true_eq, Bool.not_eq_true', not_and, Bool.not_eq_false]
  exact allExcused row member

private theorem excused_of_reason {settings : Settings} {delivered : List (Key × Band)}
    {reason : Option Reason} {listed : Band} {row : FailedNotification} (reasoned : reason ≠ none)
    (same : row.band = listed) : excused settings delivered reason listed row = true := by
  subst same
  unfold excused
  cases reason with
  | none => exact absurd rfl reasoned
  | some why => cases why <;> simp

private theorem excused_of_attempts {settings : Settings} {delivered : List (Key × Band)}
    {reason : Option Reason} {listed : Band} {row : FailedNotification}
    (spent : settings.notifyRetryMaxAttempts ≤ row.ownAttempts) :
    excused settings delivered reason listed row = true := by
  simp [excused, spent]

private theorem nextRow_fresh {rest : List FailedNotification} {sweep : Sweep}
    (started : nextRow rest = some sweep) : sweep.phase = .route := by
  cases rest with
  | nil => cases started
  | cons row later =>
    obtain rfl : _ = sweep := by simpa [nextRow] using started
    rfl

/-- What a sweep that neither deletes nor delivers leaves of the invariant. -/
private theorem Sound.withSweep {state : State} {sweep : Option Sweep} (sound : Sound state)
    (reasoned : ∀ next, sweep = some next → next.phase = .delete → next.reason ≠ none)
    (retriesOnly : ∀ next, sweep = some next → ∀ delivery phase,
      next.phase = .deliver delivery phase → delivery.recordFailure = false ∧ phase ≠ .record) :
    Sound { state with sweep := sweep } :=
  ⟨sound.counted, reasoned, retriesOnly, sound.kept⟩

/-- A sweep whose next phase is to count, or to route its next row. -/
private theorem Sound.withPlainSweep {state : State} {sweep : Option Sweep} (sound : Sound state)
    (plain : ∀ next, sweep = some next → next.phase = .route ∨ ∃ inTry, next.phase = .count inTry) :
    Sound { state with sweep := sweep } := by
  apply sound.withSweep
  · intro next shape deleting
    rcases plain next shape with routing | ⟨inTry, counting⟩
    · simp [routing] at deleting
    · simp [counting] at deleting
  · intro next shape delivery phase delivering
    rcases plain next shape with routing | ⟨inTry, counting⟩
    · simp [routing] at delivering
    · simp [counting] at delivering

private theorem sound_deleteRow {settings : Settings} {state : State} {sweep : Sweep}
    (sound : Sound state) (reasoned : sweep.reason ≠ none)
    (unchanged : Unchanged state.failedNotifications sweep.row) : Sound (deleteRow settings state sweep) := by
  refine ⟨?_, sound.reasoned, sound.retriesOnly, ?_⟩
  · intro row member
    exact sound.counted row (List.mem_of_mem_filter member)
  · simp only [deleteRow, sound.kept, List.nil_append]
    apply unexcused_eq_nil
    intro row member keyed
    exact excused_of_reason reasoned (unchanged row member keyed).1

private theorem sound_countFailedAttempt {settings : Settings} {state : State} {sweep : Sweep}
    (sound : Sound state) (unchanged : Unchanged state.failedNotifications sweep.row) :
    Sound (countFailedAttempt settings state sweep) := by
  refine ⟨?_, sound.reasoned, sound.retriesOnly, ?_⟩
  · intro row member
    obtain ⟨old, oldMember, rfl⟩ := List.mem_map.mp member
    split
    · rename_i keyed
      simp [(unchanged old oldMember keyed).1, sound.counted old oldMember]
    · exact sound.counted old oldMember
  · simp only [countFailedAttempt, sound.kept, List.nil_append]
    split
    · rename_i giveUp
      apply unexcused_eq_nil
      intro row member keyed
      obtain ⟨old, oldMember, rfl⟩ := List.mem_map.mp member
      by_cases hit : old.key = sweep.row.key
      · obtain ⟨sameBand, more⟩ := unchanged old oldMember hit
        have own := sound.counted old oldMember
        apply excused_of_attempts
        simp only [decide_eq_true_eq] at giveUp
        simp only [hit, sameBand, if_true]
        omega
      · simp only [hit, if_false] at keyed
    · rfl

@[simp] private theorem beginDelivery_recordFailure (settings : Settings) (delivery : Delivery) :
    (beginDelivery settings delivery).recordFailure = delivery.recordFailure := by
  unfold beginDelivery
  split <;> rfl

/-- The sweep's own delivery never writes a dead-letter row. -/
private theorem sound_sweepDelivery {settings : Settings} {state middle : State} {sweep : Sweep}
    {delivery : Delivery} {phase after : DeliveryPhase} {reply : Reply} (sound : Sound state)
    (retrying : delivery.recordFailure = false) (notRecording : phase ≠ .record)
    (delivered : deliverStep settings state delivery phase reply = some (middle, after)) :
    Sound { middle with sweep := some (continueSweep sweep delivery after) } := by
  obtain ⟨sameSweep, _, sameLost, rows, recording⟩ := deliverStep_frame delivered
  have same : middle.failedNotifications = state.failedNotifications := by
    rcases rows with same | ⟨atRecord, _⟩
    · exact same
    · exact absurd atRecord notRecording
  have middleSound : Sound middle :=
    ⟨by simpa [same] using sound.counted, by simpa [sameSweep] using sound.reasoned,
      by simpa [sameSweep] using sound.retriesOnly, sameLost.trans sound.kept⟩
  cases after with
  | finished status =>
    cases status with
    | failed => exact middleSound.withPlainSweep (by simp [continueSweep, afterDelivery])
    | raised => exact middleSound.withPlainSweep (by simp [continueSweep, afterDelivery])
    | alreadyNotified => apply middleSound.withSweep <;> simp [continueSweep, afterDelivery]
    | groupCollapsed => apply middleSound.withSweep <;> simp [continueSweep, afterDelivery]
    | sent => apply middleSound.withSweep <;> simp [continueSweep, afterDelivery]
  | record => simp [retrying] at recording
  | check => apply middleSound.withSweep <;> simp [continueSweep, retrying]
  | checkGroup => apply middleSound.withSweep <;> simp [continueSweep, retrying]
  | dispatch => apply middleSound.withSweep <;> simp [continueSweep, retrying]
  | claim => apply middleSound.withSweep <;> simp [continueSweep, retrying]
  | claimGroup => apply middleSound.withSweep <;> simp [continueSweep, retrying]

private theorem sound_retry {settings : Settings} {state next : State} {reply : Reply}
    (sound : Sound state) (undisturbed : Undisturbed state (.retry reply))
    (stepped : step settings state (.retry reply) = some next) : Sound next := by
  simp only [step, Option.bind_eq_bind, Option.bind_eq_some_iff] at stepped
  obtain ⟨sweep, running, moved⟩ := stepped
  unfold sweepStep at moved
  split at moved
  · obtain rfl : _ = next := by simpa using moved
    exact sound.withPlainSweep (by simp)
  · obtain rfl : _ = next := by simpa using moved
    exact sound.withSweep (by simp) (by simp)
  · obtain rfl : _ = next := by simpa using moved
    exact sound.withPlainSweep (by simp)
  · obtain rfl : _ = next := by simpa using moved
    refine sound.withSweep (by simp) ?_
    intro running' shape delivery phase delivering
    obtain rfl := Option.some.inj shape
    obtain ⟨rfl, rfl⟩ := SweepPhase.deliver.inj delivering
    simp
  · rename_i delivery phase delivering
    simp only [Option.bind_eq_bind, Option.bind_eq_some_iff] at moved
    obtain ⟨⟨middle, after⟩, delivered, shape⟩ := moved
    obtain ⟨retrying, notRecording⟩ := sound.retriesOnly sweep running delivery phase delivering
    obtain rfl : _ = next := by simpa using shape
    exact sound_sweepDelivery sound retrying notRecording delivered
  · rename_i outcome deleting
    obtain rfl : _ = next := by simpa using moved
    have reasoned := sound.reasoned sweep running deleting
    have unchanged := undisturbed sweep running (by simp [Sweep.writes, deleting])
    have written : Sound (if outcome.applies then deleteRow settings state sweep else state) := by
      split
      · exact sound_deleteRow sound reasoned unchanged
      · exact sound
    refine written.withPlainSweep ?_
    intro later shape
    split at shape
    · exact Or.inl (nextRow_fresh shape)
    · obtain rfl := Option.some.inj shape
      exact Or.inr ⟨false, rfl⟩
  · rename_i inTry outcome counting
    obtain rfl : _ = next := by simpa using moved
    have unchanged := undisturbed sweep running (by simp [Sweep.writes, counting])
    have written : Sound (if outcome.applies then countFailedAttempt settings state sweep else state) := by
      split
      · exact sound_countFailedAttempt sound unchanged
      · exact sound
    refine written.withPlainSweep ?_
    intro later shape
    split at shape
    · obtain rfl := Option.some.inj shape
      exact Or.inr ⟨false, rfl⟩
    · exact Or.inl (nextRow_fresh shape)
  · cases moved

private theorem sound_step {settings : Settings} {state next : State} {event : Event}
    (undisturbed : Undisturbed state event) (sound : Sound state)
    (stepped : step settings state event = some next) : Sound next := by
  cases event with
  | tick seconds =>
    obtain rfl : _ = next := by simpa [step] using stepped
    exact ⟨sound.counted, sound.reasoned, sound.retriesOnly, sound.kept⟩
  | emit delivery =>
    obtain rfl : _ = next := by simpa [step] using stepped
    exact ⟨sound.counted, sound.reasoned, sound.retriesOnly, sound.kept⟩
  | deliver index reply => exact sound_deliver sound undisturbed stepped
  | list order =>
    simp only [step] at stepped
    split at stepped
    · obtain rfl : _ = next := by simpa using stepped
      exact sound.withPlainSweep fun later shape => Or.inl (nextRow_fresh shape)
    · cases stepped
  | retry reply => exact sound_retry sound undisturbed stepped
  | prune olderThanDays =>
    obtain rfl : _ = next := by simpa [step] using stepped
    refine ⟨?_, sound.reasoned, sound.retriesOnly, sound.kept⟩
    intro row member
    exact sound.counted row (List.mem_of_mem_filter member)

/-- **No alert is lost while the sweep is undisturbed.**  In every run in which no
escalation replaces a row that already counts a retry, and in which the sweep deletes
or counts only while the row is the one it listed, every alert that is removed from the
store or abandoned was delivered or claimed at its band or above, lost its route, was
collapsed into its group, or used up its own attempts. -/
theorem no_alert_lost_undisturbed {settings : Settings} {events : List Event} {state : State}
    (reached : Runs.run (step settings) State.initial events = some state)
    (undisturbed : Runs.EveryStep (step settings) Undisturbed State.initial events) :
    state.lost = [] :=
  (Runs.invariant_of_step (step settings) sound_step sound_initial undisturbed reached).kept

private def sampleSettings : Settings := ⟨8, 60, 20, 60⟩

private def sampleKey : Key := ⟨"mainnet", "aa01", "scorer"⟩

private def liveAlert (band : Band) : Delivery := ⟨sampleKey, band, "phishing", none, true⟩

private def pendingRow (band : Band) : FailedNotification :=
  ⟨sampleKey, band, none, "phishing", 1, false, 0, 0, 1⟩

/-- A High alert whose every channel fails, dead-lettered and listed a minute later. -/
private def failAndList : List Event :=
  [.emit (liveAlert .high), .deliver 0 (.statement .answered), .deliver 0 (.statement .answered),
    .deliver 0 (.dispatch (some false)), .deliver 0 (.statement .answered), .tick 60,
    .list [pendingRow .high]]

/-- The sweep re-routes the row, delivers it and records the claim. -/
private def redeliver : List Event :=
  [.retry (.route .resolved), .retry (.statement .answered), .retry (.statement .answered),
    .retry (.dispatch (some true)), .retry (.statement .answered)]

/-- The transaction is scored again, at Critical, and that alert fails as well. -/
private def escalate : List Event :=
  [.emit (liveAlert .critical), .deliver 1 (.statement .answered), .deliver 1 (.statement .answered),
    .deliver 1 (.dispatch (some false)), .deliver 1 (.statement .answered)]

private def deleteDelivered : List Event := [.retry (.statement .answered)]

private def redeliveredState : State where
  now := 60
  failedNotifications := []
  notifiedAlerts := [(sampleKey, .high)]
  notifiedAlertGroups := []
  deliveries := [(liveAlert .high, .finished .failed)]
  sweep := none
  delivered := [(sampleKey, .high)]
  lost := []

/-- The sweep delivers a dead-lettered alert and deletes its row undisturbed. -/
theorem no_alert_lost_redelivered :
    Runs.EveryStep (step sampleSettings) Undisturbed State.initial
      (failAndList ++ redeliver ++ deleteDelivered) ∧ redeliveredState.lost = [] :=
  ⟨by decide, @no_alert_lost_undisturbed sampleSettings (failAndList ++ redeliver ++ deleteDelivered)
    redeliveredState (by decide) (by decide)⟩

/-- The sweep delivers the High alert it listed; before it deletes the row by key, the
same transaction's Critical alert has failed and replaced it.  The delete removes the
Critical alert, which nobody ever received. -/
theorem escalation_lost_to_sweep :
    ¬ ∀ (settings : Settings) (events : List Event) (state : State),
      Runs.run (step settings) State.initial events = some state → state.lost = [] := by
  intro kept
  have empty := kept sampleSettings (failAndList ++ redeliver ++ escalate ++ deleteDelivered)
    { redeliveredState with
      deliveries := [(liveAlert .high, .finished .failed), (liveAlert .critical, .finished .failed)]
      lost := [(sampleKey, .critical)] } (by decide)
  exact absurd empty (by decide)

end TransactionMonitoring.DeadLetter
