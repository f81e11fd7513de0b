import Mathlib.Data.List.Nodup
import Mathlib.Data.List.TakeDrop
import TransactionMonitoring.DeadLetter

/-! The poller for contract anomalies.

Each tick re-reads the whole flagged set and walks it from its head: a finding that has been
delivered is free, a send spends budget whether it succeeds or not.  What fails is not claimed
and is met again by the next tick, ahead of everything behind it.
-/
namespace TransactionMonitoring.AnomalyPoller

open DeadLetter (Band Key Status alreadyNotified claimNotification)

/-- Whether a payload can be built for a finding. -/
inductive Payload where
  | full
  | degraded
  | neither
deriving DecidableEq, Repr

/-- A flagged transaction with what each step of its handling comes to; `none` raises. -/
structure Finding where
  txHash : String
  /-- `ca.resolve`: the band of the winning row, if there is one. -/
  winner : Option (Option Band)
  /-- Whether `resolve_dispatch` finds a channel. -/
  routed : Option Bool
  payload : Payload
  /-- Whether `dispatch` delivers on some channel. -/
  sends : Option Bool
deriving DecidableEq, Repr

/-- `flagged_for_network`, in its order: a dictionary by transaction hash. -/
structure Flagged where
  findings : List Finding
  distinct : (findings.map Finding.txHash).Nodup

/-- `notified_alerts`, and everything that some channel has delivered. -/
structure Ledger where
  claims : List (Key × Band)
  sent : List (Key × Band)
deriving DecidableEq, Repr

section
variable (network : String)

/-- The dedup stream of the poller. -/
def Finding.key (finding : Finding) : Key := ⟨network, finding.txHash, "contract_anomaly"⟩

/-- `_deliver_with_dedup` as the poller calls it: without a group and without a dead letter. -/
def deliverWithDedup (ledger : Ledger) (finding : Finding) (band : Band) : Ledger × Status :=
  if alreadyNotified ledger.claims (finding.key network) band then (ledger, .alreadyNotified)
  else
    match finding.sends with
    | none => (ledger, .raised)
    | some false => (ledger, .failed)
    | some true =>
        ({ claims := claimNotification ledger.claims (finding.key network) band
           sent := ledger.sent ++ [(finding.key network, band)] }, .sent)

/-- `status != DELIVER_DUPLICATE`, of a delivery that returns. -/
def spends : Status → Bool
  | .sent | .failed => true
  | .alreadyNotified | .groupCollapsed | .raised => false

/-- The body of the loop, and whether it spends budget; an exception skips the finding. -/
def handle (ledger : Ledger) (finding : Finding) : Ledger × Bool :=
  match finding.winner, finding.routed with
  | some (some band), some true =>
      if finding.payload = .neither then (ledger, false)
      else
        let delivered := deliverWithDedup network ledger finding band
        (delivered.1, spends delivered.2)
  | _, _ => (ledger, false)

variable (budget : Nat)

/-- The loop over the flagged set. -/
def scan (ledger : Ledger) (attempts : Nat) : List Finding → Ledger
  | [] => ledger
  | finding :: rest =>
      if budget ≤ attempts then ledger
      else
        let handled := handle network ledger finding
        scan handled.1 (if handled.2 then attempts + 1 else attempts) rest

/-- `_contract_anomaly_tick`. -/
def contractAnomalyTick (flagged : Flagged) (ledger : Ledger) : Ledger := scan network budget ledger 0 flagged.findings

/-- The ledger after so many ticks over one flagged set, with nothing claimed before. -/
def ticks (flagged : Flagged) : Nat → Ledger
  | 0 => ⟨[], []⟩
  | count + 1 => contractAnomalyTick network budget flagged (ticks flagged count)

end

/-! ## How far the ticks get -/

/-- A routed finding: it has a winner whose band goes to some channel. -/
def Finding.isRouted (finding : Finding) : Bool :=
  finding.winner.any Option.isSome && finding.routed = some true

/-- A send of the finding is tried, and `dispatch` returns. -/
def Finding.isTried (finding : Finding) : Bool :=
  finding.isRouted && finding.payload ≠ .neither && finding.sends.isSome

/-- A routed finding whose send succeeds. -/
def Finding.isDeliverable (finding : Finding) : Bool := finding.isTried && finding.sends = some true

/-- A routed finding whose send fails on every channel. -/
def Finding.isFailing (finding : Finding) : Bool := finding.isTried && finding.sends = some false

/-- The sends that come up in a tick, in their order. -/
def Flagged.tried (flagged : Flagged) : List Finding := flagged.findings.filter Finding.isTried

/-- How many of the sends the ticks get to: each tick spends budget on the failing ones it has
met before, and what is left on new ones. -/
def reach (budget : Nat) (tried : List Finding) : Nat → Nat
  | 0 => 0
  | count + 1 =>
      let covered := reach budget tried count
      covered + (budget - (tried.take covered).countP Finding.isFailing)

/-! ### The ledger of what has been delivered -/

section
variable {network : String}

def Finding.band (finding : Finding) : Band := finding.winner.join.getD .informational

def Finding.entry (network : String) (finding : Finding) : Key × Band := (finding.key network, finding.band)

/-- The ledger once these findings have been delivered. -/
def recorded (network : String) (done : List Finding) : Ledger :=
  ⟨done.map (Finding.entry network), done.map (Finding.entry network)⟩

/-- No finding that has been delivered has the hash. -/
def Fresh (done : List Finding) (finding : Finding) : Prop := ∀ other ∈ done, other.txHash ≠ finding.txHash

theorem alreadyNotified_of_mem {done : List Finding} {finding : Finding} (member : finding ∈ done) :
    alreadyNotified (done.map (Finding.entry network)) (finding.key network) finding.band = true := by
  refine List.any_eq_true.mpr ⟨_, List.mem_map_of_mem member, ?_⟩
  simp [Finding.entry]

theorem alreadyNotified_of_fresh {done : List Finding} {finding : Finding} (fresh : Fresh done finding)
    (band : Band) : alreadyNotified (done.map (Finding.entry network)) (finding.key network) band = false := by
  refine List.any_eq_false.mpr fun claim member => ?_
  obtain ⟨other, among, rfl⟩ := List.mem_map.mp member
  simp [Finding.entry, Finding.key, fresh other among]

theorem claimNotification_of_fresh {done : List Finding} {finding : Finding} (fresh : Fresh done finding)
    (band : Band) : claimNotification (done.map (Finding.entry network)) (finding.key network) band =
      done.map (Finding.entry network) ++ [(finding.key network, band)] := by
  refine if_neg ?_
  rw [Bool.not_eq_true]
  refine List.any_eq_false.mpr fun claim member => ?_
  obtain ⟨other, among, rfl⟩ := List.mem_map.mp member
  simp [Finding.entry, Finding.key, fresh other among]

/-! ### One finding -/

/-- What is tried is handed to `_deliver_with_dedup`. -/
theorem handle_of_tried (ledger : Ledger) {finding : Finding} (tried : finding.isTried = true) :
    handle network ledger finding =
      ((deliverWithDedup network ledger finding finding.band).1,
        spends (deliverWithDedup network ledger finding finding.band).2) := by
  obtain ⟨txHash, winner, routed, payload, sends⟩ := finding
  rcases winner with _ | _ | band
  · simp [Finding.isTried, Finding.isRouted] at tried
  · simp [Finding.isTried, Finding.isRouted] at tried
  · obtain ⟨⟨rfl, built⟩, _⟩ : (routed = some true ∧ payload ≠ .neither) ∧ sends.isSome := by
      simpa [Finding.isTried, Finding.isRouted] using tried
    simp [handle, built, Finding.band]

theorem handle_of_not_tried (ledger : Ledger) {finding : Finding} (skipped : finding.isTried = false) :
    handle network ledger finding = (ledger, false) := by
  obtain ⟨txHash, winner, routed, payload, sends⟩ := finding
  rcases winner with _ | _ | band
  · rfl
  · rfl
  · rcases routed with _ | _ | _
    · rfl
    · rfl
    · by_cases unbuilt : payload = .neither
      · simp [handle, unbuilt]
      · obtain rfl : sends = none := by simpa [Finding.isTried, Finding.isRouted, unbuilt] using skipped
        simp only [handle, if_neg unbuilt, deliverWithDedup]
        by_cases claimed : alreadyNotified ledger.claims ⟨network, txHash, "contract_anomaly"⟩ band = true
        · simp [Finding.key, claimed, spends]
        · simp [Finding.key, claimed, spends]

theorem handle_delivered {done : List Finding} {finding : Finding} (deliverable : finding.isDeliverable = true)
    (member : finding ∈ done) : handle network (recorded network done) finding = (recorded network done, false) := by
  have tried : finding.isTried = true := (Bool.and_eq_true_iff.mp deliverable).1
  rw [handle_of_tried _ tried]
  simp [deliverWithDedup, spends, recorded, alreadyNotified_of_mem member]

theorem handle_deliverable {done : List Finding} {finding : Finding} (deliverable : finding.isDeliverable = true)
    (fresh : Fresh done finding) :
    handle network (recorded network done) finding = (recorded network (done ++ [finding]), true) := by
  obtain ⟨tried, sends⟩ := Bool.and_eq_true_iff.mp deliverable
  rw [handle_of_tried _ tried]
  simp [deliverWithDedup, spends, recorded, alreadyNotified_of_fresh fresh, claimNotification_of_fresh fresh,
    of_decide_eq_true sends, Finding.entry]

theorem handle_failing {done : List Finding} {finding : Finding} (failing : finding.isFailing = true)
    (fresh : Fresh done finding) :
    handle network (recorded network done) finding = (recorded network done, true) := by
  obtain ⟨tried, sends⟩ := Bool.and_eq_true_iff.mp failing
  rw [handle_of_tried _ tried]
  simp [deliverWithDedup, spends, recorded, alreadyNotified_of_fresh fresh, of_decide_eq_true sends]

theorem failing_or_deliverable {finding : Finding} (tried : finding.isTried = true) :
    finding.isFailing = true ∨ finding.isDeliverable = true := by
  have returns : finding.sends.isSome = true := (Bool.and_eq_true_iff.mp tried).2
  obtain ⟨delivered, sends⟩ := Option.isSome_iff_exists.mp returns
  cases delivered with
  | false => exact Or.inl (by simp [Finding.isFailing, tried, sends])
  | true => exact Or.inr (by simp [Finding.isDeliverable, tried, sends])

theorem failing_not_deliverable {finding : Finding} (failing : finding.isFailing = true) :
    finding.isDeliverable = false := by
  have fails : finding.sends = some false := of_decide_eq_true (Bool.and_eq_true_iff.mp failing).2
  simp [Finding.isDeliverable, fails]

theorem deliverable_not_failing {finding : Finding} (deliverable : finding.isDeliverable = true) :
    ¬ finding.isFailing = true := by
  intro failing
  rw [failing_not_deliverable failing] at deliverable
  cases deliverable

/-! ### One tick -/

variable {budget : Nat}

/-- A walk over a list whose first sends have been met before. -/
theorem scan_recorded {findings done : List Finding} {covered attempts : Nat}
    (distinct : (findings.map Finding.txHash).Nodup)
    (known : ∀ finding ∈ (findings.filter Finding.isTried).take covered,
      finding.isDeliverable = true → finding ∈ done)
    (unclaimed : ∀ finding ∈ (findings.filter Finding.isTried).take covered,
      finding.isFailing = true → Fresh done finding)
    (ahead : ∀ finding ∈ (findings.filter Finding.isTried).drop covered, Fresh done finding) :
    scan network budget (recorded network done) attempts findings =
      recorded network (done ++ (((findings.filter Finding.isTried).drop covered).take
        (budget - attempts - ((findings.filter Finding.isTried).take covered).countP Finding.isFailing)).filter
          Finding.isDeliverable) := by
  induction findings generalizing done covered attempts with
  | nil => simp [scan]
  | cons finding rest ih =>
    obtain ⟨new, others⟩ := List.nodup_cons.mp distinct
    by_cases spent : budget ≤ attempts
    · have none : budget - attempts = 0 := by omega
      simp [scan, spent, none]
    by_cases tried : finding.isTried = true
    · rw [List.filter_cons_of_pos tried] at known unclaimed ahead ⊢
      cases covered with
      | zero =>
        have fresh : Fresh done finding := ahead finding List.mem_cons_self
        obtain ⟨left, size⟩ : ∃ left, budget - attempts = left + 1 := ⟨budget - attempts - 1, by omega⟩
        have less : budget - (attempts + 1) = left := by omega
        have later : ∀ other ∈ rest.filter Finding.isTried, Fresh done other :=
          fun other member => ahead other (.tail _ member)
        rcases failing_or_deliverable tried with failing | deliverable
        · have undelivered : finding.isDeliverable = false := failing_not_deliverable failing
          rw [scan, if_neg spent, handle_failing failing fresh]
          have next := @ih done 0 (attempts + 1) others (by simp) (by simp) later
          simpa [size, less, undelivered] using next
        · rw [scan, if_neg spent, handle_deliverable deliverable fresh]
          have laterFresh : ∀ other ∈ rest.filter Finding.isTried, Fresh (done ++ [finding]) other := by
            intro other member claimed among
            rcases List.mem_append.mp among with earlier | last
            · exact later other member claimed earlier
            · obtain rfl := List.mem_singleton.mp last
              intro same
              exact new (same ▸ List.mem_map_of_mem (List.mem_of_mem_filter member))
          have next := @ih (done ++ [finding]) 0 (attempts + 1) others (by simp) (by simp) laterFresh
          simpa [size, less, deliverable] using next
      | succ covered =>
        rw [List.take_succ_cons] at known unclaimed ⊢
        rw [List.drop_succ_cons] at ahead ⊢
        have knownLater := fun other member => known other (.tail _ member)
        have unclaimedLater := fun other member => unclaimed other (.tail _ member)
        rcases failing_or_deliverable tried with failing | deliverable
        · have fresh : Fresh done finding := unclaimed finding List.mem_cons_self failing
          rw [scan, if_neg spent, handle_failing failing fresh, List.countP_cons_of_pos failing]
          have next := @ih done covered (attempts + 1) others knownLater unclaimedLater ahead
          have budgeted : ∀ count, budget - (attempts + 1) - count = budget - attempts - (count + 1) := by omega
          rwa [budgeted] at next
        · have undelivered : ¬ finding.isFailing = true := deliverable_not_failing deliverable
          rw [scan, if_neg spent, handle_delivered deliverable (known finding List.mem_cons_self deliverable),
            List.countP_cons_of_neg undelivered]
          exact ih others knownLater unclaimedLater ahead
    · have skipped : finding.isTried = false := by simpa using tried
      rw [List.filter_cons_of_neg tried] at known unclaimed ahead ⊢
      rw [scan, if_neg spent, handle_of_not_tried _ skipped]
      exact ih others known unclaimed ahead

variable {flagged : Flagged}

/-- What the ticks have delivered: the deliverable ones among the sends they have got to. -/
def Flagged.delivered (flagged : Flagged) (budget count : Nat) : List Finding :=
  (flagged.tried.take (reach budget flagged.tried count)).filter Finding.isDeliverable

theorem nodup_tried (flagged : Flagged) : (flagged.tried.map Finding.txHash).Nodup :=
  flagged.distinct.sublist (List.filter_sublist.map _)

theorem tick_recorded (count : Nat) :
    contractAnomalyTick network budget flagged (recorded network (flagged.delivered budget count)) =
      recorded network (flagged.delivered budget (count + 1)) := by
  have same : ∀ finding ∈ flagged.tried, ∀ other ∈ flagged.tried, other.txHash = finding.txHash → other = finding :=
    fun finding member other among => List.inj_on_of_nodup_map (nodup_tried flagged) among member
  have scanned := @scan_recorded network budget flagged.findings (flagged.delivered budget count)
    (reach budget flagged.tried count) 0 flagged.distinct ?_ ?_ ?_
  · rw [contractAnomalyTick, scanned, Nat.sub_zero]
    rw [Flagged.delivered, Flagged.delivered, reach, List.take_add, List.filter_append, Flagged.tried]
  · intro finding member deliverable
    exact List.mem_filter.mpr ⟨member, deliverable⟩
  · intro finding member failing other claimed equal
    obtain ⟨among, deliverable⟩ := List.mem_filter.mp claimed
    obtain rfl := same finding (List.mem_of_mem_take member) other (List.mem_of_mem_take among) equal
    exact deliverable_not_failing deliverable failing
  · intro finding member other claimed equal
    obtain ⟨among, _⟩ := List.mem_filter.mp claimed
    obtain rfl := same finding (List.mem_of_mem_drop member) other (List.mem_of_mem_take among) equal
    have apart := nodup_tried flagged
    rw [← List.take_append_drop (reach budget flagged.tried count) flagged.tried, List.map_append] at apart
    exact (List.nodup_append.mp apart).2.2 _ (List.mem_map_of_mem among) _ (List.mem_map_of_mem member) rfl

theorem ticks_recorded (count : Nat) :
    ticks network budget flagged count = recorded network (flagged.delivered budget count) := by
  induction count with
  | zero => simp [ticks, recorded, Flagged.delivered, reach]
  | succ count ih => rw [ticks, ih, tick_recorded]

/-- How often a finding's alert has been delivered. -/
def Ledger.deliveries (ledger : Ledger) (finding : Finding) : Nat :=
  (ledger.sent.map fun entry => entry.1.txHash).count finding.txHash

/-- No alert is ever delivered twice, and it is delivered once the ticks get to its send. -/
theorem deliveries_eq_one_iff {finding : Finding} (member : finding ∈ flagged.findings)
    (deliverable : finding.isDeliverable = true) (count : Nat) :
    (ticks network budget flagged count).deliveries finding = 1 ↔
      finding ∈ flagged.tried.take (reach budget flagged.tried count) := by
  have hashes : ((ticks network budget flagged count).sent.map fun entry => entry.1.txHash) =
      (flagged.delivered budget count).map Finding.txHash := by
    simp [ticks_recorded, recorded, Finding.entry, Finding.key, Function.comp_def]
  have distinct : ((flagged.delivered budget count).map Finding.txHash).Nodup :=
    (nodup_tried flagged).sublist ((List.filter_sublist.trans (List.take_sublist _ _)).map _)
  rw [Ledger.deliveries, hashes]
  constructor
  · intro once
    have listed : finding.txHash ∈ (flagged.delivered budget count).map Finding.txHash :=
      List.count_pos_iff.mp (by omega)
    obtain ⟨other, claimed, equal⟩ := List.mem_map.mp listed
    obtain ⟨reached, _⟩ := List.mem_filter.mp claimed
    have among : other ∈ flagged.findings := List.mem_of_mem_filter (List.mem_of_mem_take reached)
    obtain rfl := List.inj_on_of_nodup_map flagged.distinct among member equal
    exact reached
  · intro reached
    exact List.count_eq_one_of_mem distinct (List.mem_map_of_mem (List.mem_filter.mpr ⟨reached, deliverable⟩))

theorem reach_mono (tried : List Finding) {count later : Nat} (earlier : count ≤ later) :
    reach budget tried count ≤ reach budget tried later := by
  induction earlier with
  | refl => exact Nat.le_refl _
  | step _ ih => exact Nat.le_trans ih (Nat.le_add_right _ _)

/-- Where nothing fails, each tick gets its whole budget further. -/
theorem reach_of_none_failing {tried : List Finding} (none : ∀ finding ∈ tried, finding.isFailing = false)
    (count : Nat) : reach budget tried count = count * budget := by
  induction count with
  | zero => simp [reach]
  | succ count ih =>
    have zero : (tried.take (count * budget)).countP Finding.isFailing = 0 := by
      refine List.countP_eq_zero.mpr fun finding member => ?_
      simp [none finding (List.mem_of_mem_take member)]
    rw [reach, ih, zero, Nat.sub_zero, Nat.succ_mul]

/-- As many failing findings as the budget allows sends: the ticks never get past them. -/
theorem reach_le_of_starved {tried : List Finding} {ahead : Nat}
    (starved : budget ≤ (tried.take ahead).countP Finding.isFailing) (count : Nat) :
    reach budget tried count ≤ ahead := by
  induction count with
  | zero => exact Nat.zero_le _
  | succ count ih =>
    -- of the failing ones up to `ahead`, those not yet met are among the sends in between
    have between : (tried.take ahead).countP Finding.isFailing ≤
        (tried.take (reach budget tried count)).countP Finding.isFailing + (ahead - reach budget tried count) := by
      obtain ⟨rest, size⟩ : ∃ rest, ahead = reach budget tried count + rest :=
        ⟨ahead - reach budget tried count, by omega⟩
      rw [size, List.take_add, List.countP_append]
      have few : ((tried.drop (reach budget tried count)).take rest).countP Finding.isFailing ≤ rest :=
        Nat.le_trans List.countP_le_length (List.length_take_le _ _)
      omega
    rw [reach]
    omega

theorem delivered_of_none_failing (none : ∀ finding ∈ flagged.tried, finding.isFailing = false) {count : Nat}
    (offered : flagged.findings.countP Finding.isRouted ≤ count * budget) {finding : Finding}
    (member : finding ∈ flagged.findings) (deliverable : finding.isDeliverable = true) :
    (ticks network budget flagged count).deliveries finding = 1 := by
  have routed : flagged.tried.length ≤ flagged.findings.countP Finding.isRouted := by
    rw [Flagged.tried, ← List.countP_eq_length_filter]
    refine List.countP_mono_left fun other _ tried => ?_
    exact (Bool.and_eq_true_iff.mp (Bool.and_eq_true_iff.mp tried).1).1
  rw [deliveries_eq_one_iff member deliverable, reach_of_none_failing none, List.take_of_length_le (by omega)]
  exact List.mem_filter.mpr ⟨member, (Bool.and_eq_true_iff.mp deliverable).1⟩

theorem never_delivered_of_starved {ahead : Nat}
    (starved : budget ≤ (flagged.tried.take ahead).countP Finding.isFailing)
    {finding : Finding} (member : finding ∈ flagged.tried.drop ahead) (deliverable : finding.isDeliverable = true)
    (count : Nat) : (ticks network budget flagged count).deliveries finding ≠ 1 := by
  have among : finding ∈ flagged.findings := List.mem_of_mem_filter (List.mem_of_mem_drop member)
  rw [Ne, deliveries_eq_one_iff among deliverable]
  intro reached
  have earlier := List.take_subset_take_left _ (reach_le_of_starved starved count) reached
  have apart : flagged.tried.Nodup := List.Nodup.of_map Finding.txHash (nodup_tried flagged)
  rw [← List.take_append_drop ahead flagged.tried] at apart
  exact (List.nodup_append.mp apart).2.2 _ earlier _ member rfl

/-- **Exactly when the poller drains.**  The deliverable findings have all been delivered once the
ticks offer a send for every routed finding if and only if so many ticks get to each of them, with
the failing ones ahead of it paid for again in every tick. -/
theorem drains_iff (network : String) (flagged : Flagged) {budget : Nat} (positive : 1 ≤ budget) :
    (∀ count, flagged.findings.countP Finding.isRouted ≤ count * budget →
      ∀ finding ∈ flagged.findings, finding.isDeliverable = true →
        (ticks network budget flagged count).deliveries finding = 1) ↔
    ∀ finding ∈ flagged.tried.drop (reach budget flagged.tried
        ((flagged.findings.countP Finding.isRouted + budget - 1) / budget)), finding.isDeliverable = false := by
  set enough := (flagged.findings.countP Finding.isRouted + budget - 1) / budget with rounded
  have least : ∀ count, flagged.findings.countP Finding.isRouted ≤ count * budget ↔ enough ≤ count := by
    intro count
    rw [rounded, Nat.div_le_iff_le_mul_add_pred positive, Nat.mul_comm]
    omega
  constructor
  · intro drained finding member
    by_contra undelivered
    have deliverable : finding.isDeliverable = true := by simpa using undelivered
    have among : finding ∈ flagged.findings := List.mem_of_mem_filter (List.mem_of_mem_drop member)
    have reached := (deliveries_eq_one_iff among deliverable enough).mp
      (drained enough ((least enough).mpr (Nat.le_refl _)) finding among deliverable)
    have apart : flagged.tried.Nodup := List.Nodup.of_map Finding.txHash (nodup_tried flagged)
    rw [← List.take_append_drop (reach budget flagged.tried enough) flagged.tried] at apart
    exact (List.nodup_append.mp apart).2.2 _ reached _ member rfl
  · intro covered count offered finding member deliverable
    have tried : finding ∈ flagged.tried :=
      List.mem_filter.mpr ⟨member, (Bool.and_eq_true_iff.mp deliverable).1⟩
    rw [← List.take_append_drop (reach budget flagged.tried enough) flagged.tried] at tried
    rcases List.mem_append.mp tried with reached | missed
    · refine (deliveries_eq_one_iff member deliverable count).mpr ?_
      exact List.take_subset_take_left _ (reach_mono _ ((least count).mp offered)) reached
    · rw [covered finding missed] at deliverable
      cases deliverable

end

/-- One failing finding among three, with budget for two sends a tick. -/
private def failingSecond : Flagged where
  findings :=
    [⟨"first", some (some .high), some true, .full, some true⟩,
      ⟨"second", some (some .critical), some true, .degraded, some false⟩,
      ⟨"third", some (some .high), some true, .full, some true⟩]
  distinct := by decide

theorem drains_iff_failing_second :
    (ticks "preprod" 2 failingSecond 2).deliveries ⟨"third", some (some .high), some true, .full, some true⟩ = 1 :=
  (drains_iff "preprod" failingSecond (by decide)).mpr (by decide) 2 (by decide) _ (by decide) rfl

/-- A critical finding whose channel is down, ahead of a high one that could be delivered. -/
private def failingHead : Flagged where
  findings :=
    [⟨"critical", some (some .critical), some true, .full, some false⟩,
      ⟨"high", some (some .high), some true, .full, some true⟩]
  distinct := by decide

theorem failing_head_starves :
    failingHead.findings.countP Finding.isRouted ≤ 2 * 1 ∧
      ticks "preprod" 1 failingHead 2 = ⟨[], []⟩ ∧
      ¬ ∀ count, failingHead.findings.countP Finding.isRouted ≤ count * 1 →
        ∀ finding ∈ failingHead.findings, finding.isDeliverable = true →
          (ticks "preprod" 1 failingHead count).deliveries finding = 1 := by
  have silent : ticks "preprod" 1 failingHead 2 = ⟨[], []⟩ := by decide
  refine ⟨by decide, silent, fun drained => ?_⟩
  have once := drained 2 (by decide) _ (.tail _ List.mem_cons_self) rfl
  rw [silent] at once
  exact absurd once (by decide)

end TransactionMonitoring.AnomalyPoller
