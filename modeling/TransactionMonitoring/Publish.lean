import TransactionMonitoring.Feed
import TransactionMonitoring.VerdictLocality

/-! Publishing contract-anomaly verdicts to the host.

`publish_contract_anomaly` reconciles `tx_contract_anomaly` for one watched target from
three sources: the stored online classifications, the canonical batch run and the
manual labels.  What none of them flags any more is retracted by a `normal` tombstone.
The store below is the part of the sidecar's database for one network, target and the
shape feature set, the only one that is ever published.
-/
namespace TransactionMonitoring.Publish
open Verdicts Replacing

/-- Who a run was made by. -/
inductive Origin where
  | system
  | custom
deriving DecidableEq, Repr

/-- Whether a label was applied to a whole cluster or to one transaction. -/
inductive LabelSource where
  | cluster
  | manualTx
deriving DecidableEq, Repr

/-- A row of `tx_labels`; clearing a label inserts a row with `deleted` set. -/
structure TxLabel where
  txHash : String
  label : Label
  source : LabelSource
  deleted : Bool
  updatedAt : Nat
deriving DecidableEq, Repr

/-- A row of `cluster_runs` or of `anomaly_runs`. -/
structure Run where
  runId : String
  origin : Origin
  createdAt : Nat
deriving DecidableEq, Repr

/-- A row of `cluster_labels`. -/
structure ClusterLabel where
  runId : String
  txHash : String
  clusterId : Int
deriving DecidableEq, Repr

/-- A row of `anomaly_scores`. -/
structure AnomalyScore where
  runId : String
  txHash : String
  votes : Nat
deriving DecidableEq, Repr

/-- A row of `cluster_models`. -/
structure ClusterModel where
  modelId : String
  runId : String
  createdAt : Nat
deriving DecidableEq, Repr

/-- A row of `tx_classifications`: what one model made of one transaction. -/
structure TxClassification where
  txHash : String
  modelId : String
  clusterId : Int
  votes : Nat
  verdict : Verdict
  scoredAt : Nat
deriving DecidableEq, Repr

/-- A row of `tx_contract_anomaly`. -/
structure ContractAnomaly where
  txHash : String
  clusterId : Int
  votes : Nat
  verdict : Verdict
  modelId : String
  unclusterableFit : Nat
  publishedAt : Nat
deriving DecidableEq, Repr

structure Store where
  txLabels : List TxLabel
  clusterRuns : List Run
  clusterLabels : List ClusterLabel
  anomalyRuns : List Run
  anomalyScores : List AnomalyScore
  clusterModels : List ClusterModel
  txClassifications : List TxClassification
  contractAnomaly : List ContractAnomaly
  /-- The host's address index for the target. -/
  hostKnown : List String
  /-- The target's rolling window; a standalone repo has none. -/
  window : Option (List String)
  /-- `fit_coverage` of the contract row, if there is one. -/
  fitCoverage : Option Rat
deriving DecidableEq, Repr

/-- `FLAG_VOTE_THRESHOLD`. -/
def flagVoteThreshold : Nat := 2

/-! ## Reads -/

/-- The label row of a transaction that is in force: `FINAL` and not deleted. -/
def activeLabel (store : Store) (txHash : String) : Option TxLabel :=
  (final TxLabel.txHash TxLabel.updatedAt store.txLabels txHash).filter fun row => !row.deleted

/-- `labels_for_target`. -/
def labelsForTarget (store : Store) (txHash : String) : Option Label :=
  (activeLabel store txHash).map TxLabel.label

/-- `cluster_labeled_hashes`. -/
def clusterLabeledHashes (store : Store) (txHash : String) : Bool :=
  (activeLabel store txHash).any fun row => row.source = .cluster

/-- Of two runs the one `ORDER BY created_at DESC, run_id DESC` lists first. -/
def laterRun (best : Option Run) (run : Run) : Option Run :=
  match best with
  | none => some run
  | some old =>
      if old.createdAt < run.createdAt ∨ old.createdAt = run.createdAt ∧ old.runId < run.runId
      then some run else some old

/-- `latest_canonical_run` and `latest_canonical_anomaly_run`: the newest system run. -/
def latestSystemRun (runs : List Run) : Option Run :=
  ((finalRows Run.runId Run.createdAt runs).filter fun run => run.origin = .system).foldl laterRun none

/-- `run_tx_labels`. -/
def runTxLabels (store : Store) (runId : String) : List (String × Int) :=
  dict ((store.clusterLabels.filter fun row => row.runId = runId).map
    fun row => (row.txHash, row.clusterId))

/-- `anomaly_votes_for_run`, zero for a transaction without a score. -/
def anomalyVotesForRun (store : Store) (runId : String) (txHash : String) : Nat :=
  (get ((store.anomalyScores.filter fun row => row.runId = runId).map
    fun row => (row.txHash, row.votes)) txHash).getD 0

/-- The canonical run's membership (`_run_membership` with `canonical=True`). -/
def canonicalMembership (store : Store) : List (String × Int) :=
  match latestSystemRun store.clusterRuns with
  | some run => runTxLabels store run.runId
  | none => []

/-- The votes of the canonical anomaly run, none when there is no such run. -/
def canonicalVotes (store : Store) (txHash : String) : Nat :=
  match latestSystemRun store.anomalyRuns with
  | some run => anomalyVotesForRun store run.runId txHash
  | none => 0

/-- `latest_cluster_model`. -/
def latestClusterModel (store : Store) : Option ClusterModel :=
  final (fun _ => ()) ClusterModel.createdAt store.clusterModels ()

/-- The classification of a transaction a `FINAL` read sees, whichever model wrote it. -/
def classification (store : Store) (txHash : String) : Option TxClassification :=
  final TxClassification.txHash TxClassification.scoredAt store.txClassifications txHash

/-- `_resolve_verdicts`. -/
def resolveVerdicts (store : Store) (clusterOf : List (String × Int)) (votes : String → Nat) :
    List (String × Verdict) :=
  (computeVerdicts clusterOf (labelsForTarget store) votes flagVoteThreshold
    (some (clusterLabeledHashes store))).1

/-- `_host_known_only`. -/
def hostKnownOnly (store : Store) (hashes : List String) : List String :=
  hashes.filter fun txHash => txHash ∈ store.hostKnown

/-! ## The publish paths -/

/-- `_reconciliation_version`: never at or below a version already in the table. -/
def reconciliationVersion (rows : List ContractAnomaly) (now : Nat) : Nat :=
  let current := rows.foldl (fun best row => max best row.publishedAt) 0
  if now ≤ current then current + 1 else now

/-- The `WHERE` of `_publish_online`: a flagged stored verdict that no benign label
overrides, or a malicious label. -/
def onlineSelects (store : Store) (row : TxClassification) : Bool :=
  (row.verdict.flagged && labelsForTarget store row.txHash ≠ some .benign) ||
    labelsForTarget store row.txHash = some .malicious

/-- The rows `_publish_online` copies across. -/
def onlineRows (store : Store) (unclusterable publishedAt : Nat) : List ContractAnomaly :=
  let selected := (finalRows TxClassification.txHash TxClassification.scoredAt
    store.txClassifications).filter (onlineSelects store)
  let kept := hostKnownOnly store (selected.map TxClassification.txHash)
  (selected.filter fun row => row.txHash ∈ kept).map fun row =>
    { txHash := row.txHash
      clusterId := row.clusterId
      votes := row.votes
      verdict := if labelsForTarget store row.txHash = some .malicious then .malicious else row.verdict
      modelId := row.modelId
      unclusterableFit := unclusterable
      publishedAt := publishedAt }

/-- The rows `_publish_batch` writes for the canonical run's flagged members. -/
def batchRows (store : Store) (unclusterable publishedAt : Nat) : List ContractAnomaly :=
  match latestSystemRun store.clusterRuns with
  | none => []
  | some run =>
      let membership := runTxLabels store run.runId
      let votes := canonicalVotes store
      let flagged := (resolveVerdicts store membership votes).filter fun entry => entry.2.flagged
      let kept := hostKnownOnly store (flagged.map Prod.fst)
      (flagged.filter fun entry => entry.1 ∈ kept).map fun entry =>
        { txHash := entry.1
          clusterId := (get membership entry.1).getD (-1)
          votes := votes entry.1
          verdict := entry.2
          modelId := ((latestSystemRun store.anomalyRuns).getD run).runId
          unclusterableFit := unclusterable
          publishedAt := publishedAt }

/-- A row written for a label or as a tombstone carries no cluster or score. -/
def bareRow (verdict : Verdict) (unclusterable publishedAt : Nat) (txHash : String) : ContractAnomaly :=
  ⟨txHash, -1, 0, verdict, "", unclusterable, publishedAt⟩

/-- The transactions whose label in force is malicious. -/
def maliciousLabeled (store : Store) : List String :=
  ((finalRows TxLabel.txHash TxLabel.updatedAt store.txLabels).filter fun row =>
    !row.deleted && row.label = .malicious).map TxLabel.txHash

/-- `_publish_labels`: malicious labels the other two paths did not publish. -/
def labelRows (store : Store) (unclusterable publishedAt : Nat) (exclude : List String) :
    List ContractAnomaly :=
  (hostKnownOnly store ((maliciousLabeled store).filter fun txHash => txHash ∉ exclude)).map
    (bareRow .malicious unclusterable publishedAt)

/-- The `FINAL` row of a transaction is not a tombstone. -/
def surfaced (rows : List ContractAnomaly) (txHash : String) : Bool :=
  (final ContractAnomaly.txHash ContractAnomaly.publishedAt rows txHash).any fun row =>
    row.verdict ≠ .normal

/-- The number of flagged rows a `FINAL` read counts. -/
def flaggedCount (rows : List ContractAnomaly) : Nat :=
  (finalRows ContractAnomaly.txHash ContractAnomaly.publishedAt rows).countP fun row =>
    row.verdict ≠ .normal

/-- Inside the rolling window, where there is one. -/
def inWindow (store : Store) (txHash : String) : Bool :=
  store.window.all fun members => txHash ∈ members

/-- `_retract_stale`: a tombstone for every surfaced transaction of the window that this
pass did not publish. -/
def staleRows (store : Store) (rows : List ContractAnomaly) (unclusterable publishedAt : Nat)
    (keep : List String) : List ContractAnomaly :=
  let current := ((finalRows ContractAnomaly.txHash ContractAnomaly.publishedAt rows).filter
    fun row => row.verdict ≠ .normal).map ContractAnomaly.txHash
  let stale := (current.filter fun txHash => txHash ∉ keep).filter (inWindow store)
  stale.map (bareRow .normal unclusterable publishedAt)

/-- What the driver's documentation says of a datetime passed as a query parameter: it is written
out in whole seconds.  Timestamps count microseconds. -/
def WholeSeconds (bind : Nat → Nat) : Prop := ∀ stamp, bind stamp = stamp / 1000000 * 1000000

/-- `publish_contract_anomaly`: the store after the pass and the flagged rows it counts.  `bind` is
what the driver makes of the version that `_publish_online` passes as a query parameter; the other
paths insert theirs as a column. -/
def publishContractAnomaly (settings : Feed.Settings) (bind : Nat → Nat) (store : Store) (now : Nat) : Store × Nat :=
  let publishedAt := reconciliationVersion store.contractAnomaly now
  let unclusterable :=
    if Feed.modelUnclusterable settings (store.fitCoverage.getD Feed.coverageUnknown) then 1 else 0
  let online := onlineRows store unclusterable (bind publishedAt)
  let batch := batchRows store unclusterable publishedAt
  let exclude := (online ++ batch).map ContractAnomaly.txHash
  let labels := labelRows store unclusterable publishedAt exclude
  let labelFlagged := labels.map ContractAnomaly.txHash ++
    (maliciousLabeled store).filter fun txHash => txHash ∈ exclude
  let rows := store.contractAnomaly ++ (online ++ batch ++ labels)
  let stale := staleRows store rows unclusterable publishedAt (exclude ++ labelFlagged)
  ({ store with contractAnomaly := rows ++ stale }, flaggedCount (rows ++ stale))

/-! ## What the verdict should be -/

/-- The current model's online assignments. -/
def onlineAssignments (store : Store) : List TxClassification :=
  (finalRows TxClassification.txHash TxClassification.scoredAt store.txClassifications).filter
    fun row => (latestClusterModel store).any fun model => model.modelId = row.modelId

/-- The canonical membership with the current model's assignments folded in. -/
def effectiveMembership (store : Store) : List (String × Int) :=
  let assigned := (onlineAssignments store).map fun row => (row.txHash, row.clusterId)
  (canonicalMembership store).filter (fun entry => entry.1 ∉ assigned.map Prod.fst) ++ assigned

/-- The canonical votes with the current model's folded in. -/
def effectiveVotes (store : Store) (txHash : String) : Nat :=
  (get ((onlineAssignments store).map fun row => (row.txHash, row.votes)) txHash).getD
    (canonicalVotes store txHash)

/-- The verdict a live read shows: the `compute_verdicts` precedence over the effective
membership, and for a transaction in no cluster its own label. -/
def effectiveVerdict (store : Store) (txHash : String) : Option Verdict :=
  match get (resolveVerdicts store (effectiveMembership store) (effectiveVotes store)) txHash with
  | some verdict => some verdict
  | none => (labelsForTarget store txHash).map Label.verdict

def effectivelyFlagged (store : Store) (txHash : String) : Bool :=
  (effectiveVerdict store txHash).any Verdict.flagged

/-! ## What one pass publishes -/

/-- A classification of the transaction was stored as malicious or anomaly, under the
labels and the model of its time. -/
def storedFlagged (store : Store) (txHash : String) : Bool :=
  (classification store txHash).any fun row => row.verdict.flagged

/-- The canonical run resolves the transaction to malicious or anomaly. -/
def batchFlagged (store : Store) (txHash : String) : Bool :=
  (resolveVerdicts store (canonicalMembership store) (canonicalVotes store)).any fun entry =>
    entry.1 = txHash && entry.2.flagged

theorem publishedAt_lt_reconciliationVersion {rows : List ContractAnomaly} (now : Nat) :
    ∀ row ∈ rows, row.publishedAt < reconciliationVersion rows now := by
  have bounded : ∀ (rest : List ContractAnomaly) (best : Nat),
      best ≤ rest.foldl (fun best row => max best row.publishedAt) best ∧
        ∀ row ∈ rest, row.publishedAt ≤ rest.foldl (fun best row => max best row.publishedAt) best := by
    intro rest
    induction rest with
    | nil => simp
    | cons first later ih =>
      intro best
      obtain ⟨start, members⟩ := ih (max best first.publishedAt)
      simp only [List.foldl_cons, List.mem_cons, forall_eq_or_imp]
      exact ⟨by omega, by omega, members⟩
  intro row member
  have highest := (bounded rows 0).2 row member
  unfold reconciliationVersion
  dsimp only
  split <;> omega

theorem mem_hostKnownOnly {store : Store} {hashes : List String} {txHash : String} :
    txHash ∈ hostKnownOnly store hashes ↔ txHash ∈ hashes ∧ txHash ∈ store.hostKnown := by
  simp [hostKnownOnly]

private theorem mem_maliciousLabeled {store : Store} {txHash : String} :
    txHash ∈ maliciousLabeled store ↔ labelsForTarget store txHash = some .malicious := by
  simp only [maliciousLabeled, List.mem_map, List.mem_filter, mem_finalRows, labelsForTarget,
    activeLabel, Option.map_eq_some_iff, Option.filter_eq_some_iff]
  constructor
  · rintro ⟨row, ⟨found, active⟩, rfl⟩
    simp only [Bool.and_eq_true, decide_eq_true_eq] at active
    exact ⟨row, ⟨found, active.1⟩, active.2⟩
  · rintro ⟨row, ⟨found, active⟩, malicious⟩
    obtain ⟨_, rfl⟩ := final_mem _ _ found
    exact ⟨row, ⟨found, by simp [malicious, active]⟩, rfl⟩

section
variable {store : Store} {unclusterable publishedAt : Nat} {txHash : String}

theorem mem_onlineRows (known : txHash ∈ store.hostKnown) :
    txHash ∈ (onlineRows store unclusterable publishedAt).map ContractAnomaly.txHash ↔
      (classification store txHash).any (onlineSelects store) = true := by
  simp only [onlineRows, List.map_map, List.mem_map, List.mem_filter, mem_finalRows,
    Function.comp_apply, decide_eq_true_eq, mem_hostKnownOnly, Option.any_eq_true, classification]
  constructor
  · rintro ⟨row, ⟨⟨found, selected⟩, _⟩, rfl⟩
    exact ⟨row, found, selected⟩
  · rintro ⟨row, found, selected⟩
    obtain ⟨_, rfl⟩ := final_mem _ _ found
    exact ⟨row, ⟨⟨found, selected⟩, ⟨row, ⟨found, selected⟩, rfl⟩, known⟩, rfl⟩

private theorem mem_batchRows (known : txHash ∈ store.hostKnown) :
    txHash ∈ (batchRows store unclusterable publishedAt).map ContractAnomaly.txHash ↔
      batchFlagged store txHash = true := by
  unfold batchRows batchFlagged canonicalMembership
  cases latestSystemRun store.clusterRuns with
  | none => simp [resolveVerdicts, computeVerdicts]
  | some run =>
    simp only [List.map_map, List.mem_map, List.mem_filter, Function.comp_apply, decide_eq_true_eq,
      mem_hostKnownOnly, List.any_eq_true, Bool.and_eq_true]
    constructor
    · rintro ⟨entry, ⟨⟨member, flagged⟩, _⟩, rfl⟩
      exact ⟨entry, member, rfl, flagged⟩
    · rintro ⟨entry, member, rfl, flagged⟩
      exact ⟨entry, ⟨⟨member, flagged⟩, ⟨entry, ⟨member, flagged⟩, rfl⟩, known⟩, rfl⟩

private theorem mem_labelRows (known : txHash ∈ store.hostKnown) (exclude : List String) :
    txHash ∈ (labelRows store unclusterable publishedAt exclude).map ContractAnomaly.txHash ↔
      labelsForTarget store txHash = some .malicious ∧ txHash ∉ exclude := by
  simp [labelRows, bareRow, Function.comp_def, mem_hostKnownOnly, mem_maliciousLabeled, known]

theorem onlineRows_flagged {row : ContractAnomaly}
    (written : row ∈ onlineRows store unclusterable publishedAt) :
    row.verdict ≠ .normal ∧ row.publishedAt = publishedAt := by
  simp only [onlineRows, List.mem_map, List.mem_filter] at written
  obtain ⟨source, ⟨⟨_, selected⟩, _⟩, rfl⟩ := written
  refine ⟨?_, rfl⟩
  dsimp only
  split
  · decide
  · rename_i unlabeled
    simp only [onlineSelects, unlabeled, decide_false, Bool.or_false, Bool.and_eq_true] at selected
    intro normal
    simp [normal, Verdict.flagged] at selected

theorem batchRows_flagged {row : ContractAnomaly}
    (written : row ∈ batchRows store unclusterable publishedAt) :
    row.verdict ≠ .normal ∧ row.publishedAt = publishedAt := by
  unfold batchRows at written
  split at written
  · simp at written
  · simp only [List.mem_map, List.mem_filter] at written
    obtain ⟨entry, ⟨⟨_, flagged⟩, _⟩, rfl⟩ := written
    refine ⟨?_, rfl⟩
    intro normal
    have shape : entry.2 = .normal := normal
    simp [shape, Verdict.flagged] at flagged

theorem labelRows_flagged {row : ContractAnomaly} {exclude : List String}
    (written : row ∈ labelRows store unclusterable publishedAt exclude) :
    row.verdict ≠ .normal ∧ row.publishedAt = publishedAt := by
  obtain ⟨hash, _, rfl⟩ := List.mem_map.mp written
  simp [bareRow]

/-- Whatever a pass writes before it retracts is flagged and not above its version. -/
theorem rows_flagged {row : ContractAnomaly} {onlineStamp : Nat} {exclude : List String}
    (rounded : onlineStamp ≤ publishedAt)
    (written : row ∈ onlineRows store unclusterable onlineStamp ++ batchRows store unclusterable publishedAt ++
      labelRows store unclusterable publishedAt exclude) :
    row.verdict ≠ .normal ∧ row.publishedAt ≤ publishedAt := by
  rcases List.mem_append.mp written with earlier | label
  · rcases List.mem_append.mp earlier with online | batch
    · obtain ⟨positive, stamp⟩ := onlineRows_flagged online
      exact ⟨positive, stamp ▸ rounded⟩
    · obtain ⟨positive, stamp⟩ := batchRows_flagged batch
      exact ⟨positive, Nat.le_of_eq stamp⟩
  · obtain ⟨positive, stamp⟩ := labelRows_flagged label
    exact ⟨positive, Nat.le_of_eq stamp⟩

end

theorem WholeSeconds.le {bind : Nat → Nat} (seconds : WholeSeconds bind) (stamp : Nat) : bind stamp ≤ stamp := by
  rw [seconds stamp]
  exact Nat.div_mul_le_self stamp 1000000

/-- A surfaced transaction stays surfaced whatever flagged rows are appended. -/
theorem surfaced_append {old written : List ContractAnomaly} {txHash : String}
    (flagged : ∀ row ∈ written, row.verdict ≠ .normal) (raised : surfaced old txHash = true) :
    surfaced (old ++ written) txHash = true := by
  obtain ⟨before, standing, positive⟩ := (Option.any_eq_true _ _).mp raised
  unfold surfaced
  cases shape : final ContractAnomaly.txHash ContractAnomaly.publishedAt written txHash with
  | none =>
    have unwritten : ∀ row ∈ written, row.txHash ≠ txHash := by
      intro row member same
      have found := (final_isSome_iff ContractAnomaly.txHash ContractAnomaly.publishedAt written txHash).mpr
        ⟨row, member, same⟩
      simp [shape] at found
    rw [final_append_of_absent _ _ unwritten]
    exact raised
  | some row =>
    have fresh := flagged row (final_mem _ _ shape).1
    rw [final_append_of_some _ _ shape, standing]
    simp only [newer]
    split
    · simp [fresh]
    · exact positive

/-- A table to which one pass appends flagged rows and then a tombstone for whatever else
is surfaced in the window: a transaction of the window is surfaced afterwards exactly if
the pass wrote a flagged row for it, and no older tombstone is stamped above that row. -/
theorem surfaced_after_pass {store : Store} {old written : List ContractAnomaly}
    {unclusterable publishedAt : Nat} {keep : List String} {txHash : String}
    (newest : ∀ row ∈ old, row.publishedAt < publishedAt)
    (flagged : ∀ row ∈ written, row.verdict ≠ .normal ∧ row.publishedAt ≤ publishedAt)
    (kept : ∀ hash, hash ∈ keep ↔ hash ∈ written.map ContractAnomaly.txHash)
    (inside : inWindow store txHash = true) :
    surfaced (old ++ written ++ staleRows store (old ++ written) unclusterable publishedAt keep) txHash = true ↔
      txHash ∈ written.map ContractAnomaly.txHash ∧ surfaced (old ++ written) txHash = true := by
  have tombstone : ∀ row ∈ staleRows store (old ++ written) unclusterable publishedAt keep,
      row.verdict = .normal ∧ row.publishedAt = publishedAt ∧ row.txHash ∉ keep := by
    intro row member
    simp only [staleRows, List.mem_map, List.mem_filter, decide_eq_true_eq] at member
    obtain ⟨hash, ⟨⟨_, outside⟩, _⟩, rfl⟩ := member
    exact ⟨rfl, rfl, outside⟩
  have notNewer : ∀ before ∈ old ++ written, before.publishedAt ≤ publishedAt := by
    intro before member
    rcases List.mem_append.mp member with earlier | now
    · exact Nat.le_of_lt (newest before earlier)
    · exact (flagged before now).2
  by_cases published : txHash ∈ written.map ContractAnomaly.txHash
  · have noTombstone : ∀ row ∈ staleRows store (old ++ written) unclusterable publishedAt keep,
        row.txHash ≠ txHash := by
      intro row member same
      exact (tombstone row member).2.2 ((kept _).mpr (same ▸ published))
    have settled : surfaced (old ++ written ++ staleRows store (old ++ written) unclusterable publishedAt keep) txHash =
        surfaced (old ++ written) txHash := by
      unfold surfaced
      rw [final_append_of_absent _ _ noTombstone]
    rw [settled]
    exact (and_iff_right published).symm
  · simp only [published, false_and, iff_false, Bool.not_eq_true]
    by_cases retracted : ∃ row ∈ staleRows store (old ++ written) unclusterable publishedAt keep,
        row.txHash = txHash
    · unfold surfaced
      rw [final_append_of_newer _ _ (fun before earlier after now => by
        rw [(tombstone after now).2.1]
        exact notNewer before earlier) retracted]
      cases shape : final ContractAnomaly.txHash ContractAnomaly.publishedAt
          (staleRows store (old ++ written) unclusterable publishedAt keep) txHash with
      | none => rfl
      | some winner => simp [(tombstone winner (final_mem _ _ shape).1).1]
    · have unretracted : ∀ row ∈ staleRows store (old ++ written) unclusterable publishedAt keep,
          row.txHash ≠ txHash := fun row member same => retracted ⟨row, member, same⟩
      unfold surfaced
      rw [final_append_of_absent _ _ unretracted]
      cases shape : final ContractAnomaly.txHash ContractAnomaly.publishedAt (old ++ written) txHash with
      | none => rfl
      | some winner =>
        by_contra positive
        simp only [Option.any_some, Bool.not_eq_false, decide_eq_true_eq] at positive
        obtain ⟨_, rfl⟩ := final_mem _ _ shape
        apply retracted
        refine ⟨bareRow .normal unclusterable publishedAt winner.txHash, ?_, rfl⟩
        refine List.mem_map_of_mem (List.mem_filter.mpr ⟨List.mem_filter.mpr ⟨?_, ?_⟩, inside⟩)
        · refine List.mem_map_of_mem (List.mem_filter.mpr ⟨?_, by simpa using positive⟩)
          exact (mem_finalRows _ _).mpr shape
        · simpa [kept] using published

/-- The pass flags a host-known transaction whose label is malicious, or which has no
label and a flagged stored classification or batch verdict. -/
theorem published_iff {store : Store} {unclusterable onlineStamp publishedAt : Nat} {txHash : String}
    (known : txHash ∈ store.hostKnown) :
    let online := onlineRows store unclusterable onlineStamp
    let batch := batchRows store unclusterable publishedAt
    let labels := labelRows store unclusterable publishedAt ((online ++ batch).map ContractAnomaly.txHash)
    txHash ∈ (online ++ batch ++ labels).map ContractAnomaly.txHash ↔
      labelsForTarget store txHash = some .malicious ∨ labelsForTarget store txHash = none ∧
        (storedFlagged store txHash = true ∨ batchFlagged store txHash = true) := by
  intro online batch labels
  have batchLabel : ∀ label, labelsForTarget store txHash = some label →
      batchFlagged store txHash = true → label = .malicious := by
    intro label own flagged
    simp only [batchFlagged, List.any_eq_true, Bool.and_eq_true, decide_eq_true_eq] at flagged
    obtain ⟨⟨hash, verdict⟩, member, rfl, flagged⟩ := flagged
    have resolved : verdict = label.verdict := computeVerdicts_of_label own member
    cases label with
    | malicious => rfl
    | benign => simp [resolved, Label.verdict, Verdict.flagged] at flagged
  have onlineIff : txHash ∈ online.map ContractAnomaly.txHash ↔
      ∃ row, classification store txHash = some row ∧ onlineSelects store row = true := by
    rw [mem_onlineRows known, Option.any_eq_true]
  have sameHash : ∀ row, classification store txHash = some row → row.txHash = txHash :=
    fun row found => (final_mem _ _ found).2
  simp only [List.map_append, List.mem_append, mem_labelRows known, onlineIff, mem_batchRows known,
    labels, batch]
  cases own : labelsForTarget store txHash with
  | none =>
    simp only [reduceCtorEq, false_and, or_false, false_or, true_and, storedFlagged, Option.any_eq_true]
    have selects : ∀ row, classification store txHash = some row →
        (onlineSelects store row = true ↔ row.verdict.flagged = true) := by
      intro row found
      simp [onlineSelects, sameHash row found, own]
    constructor
    · rintro (⟨row, found, selected⟩ | flagged)
      · exact Or.inl ⟨row, found, (selects row found).mp selected⟩
      · exact Or.inr flagged
    · rintro (⟨row, found, flagged⟩ | flagged)
      · exact Or.inl ⟨row, found, (selects row found).mpr flagged⟩
      · exact Or.inr flagged
  | some label =>
    cases label with
    | malicious =>
      simp only [true_and, true_or, iff_true]
      by_cases earlier : (∃ row, classification store txHash = some row ∧
          onlineSelects store row = true) ∨ batchFlagged store txHash = true
      · exact Or.inl earlier
      · exact Or.inr earlier
    | benign =>
      simp only [Option.some.injEq, reduceCtorEq, false_and, or_false, iff_false, not_or]
      refine ⟨?_, fun flagged => ?_⟩
      · rintro ⟨row, found, selected⟩
        simp [onlineSelects, sameHash row found, own] at selected
      · cases batchLabel .benign own flagged

/-- A transaction's own label is its effective verdict. -/
private theorem effectivelyFlagged_of_label {store : Store} {txHash : String} {label : Label}
    (own : labelsForTarget store txHash = some label) :
    effectivelyFlagged store txHash = label.verdict.flagged := by
  unfold effectivelyFlagged effectiveVerdict
  cases resolved : get (resolveVerdicts store (effectiveMembership store) (effectiveVotes store)) txHash with
  | none => simp [own]
  | some verdict =>
    obtain ⟨⟨hash, _⟩, found, rfl⟩ := Option.map_eq_some_iff.mp resolved
    obtain ⟨member, rfl⟩ := final_mem _ _ found
    simp [computeVerdicts_of_label own member]

/-- The host sees the transaction as a contract anomaly exactly if its effective verdict
is malicious or anomaly. -/
def Authoritative (store published : Store) : Prop :=
  ∀ txHash ∈ store.hostKnown, inWindow store txHash = true →
    (surfaced published.contractAnomaly txHash = true ↔ effectivelyFlagged store txHash = true)

/-! ## When the sources of a pass are current -/

/-- The model that wrote the row has not been superseded. -/
def ofCurrentModel (store : Store) (row : TxClassification) : Bool :=
  (latestClusterModel store).any fun model => model.modelId = row.modelId

/-- What a cluster makes of a member without a label of its own: the label in force on the
cluster decides, else the votes. -/
def flaggedInCluster (store : Store) (membership : List (String × Int)) (clusterId : Int) (votes : Nat) : Bool :=
  match inherited membership (labelsForTarget store) (some (clusterLabeledHashes store)) clusterId with
  | some label => label.verdict.flagged
  | none => decide (flagVoteThreshold ≤ votes)

/-- The transaction is a member of the canonical run, and its cluster there flags it, under the
labels that the members in `membership` bring along. -/
def flaggedInRun (store : Store) (membership : List (String × Int)) (txHash : String) : Bool :=
  (get (canonicalMembership store) txHash).any fun clusterId =>
    flaggedInCluster store membership clusterId (canonicalVotes store txHash)

/-- Nothing the pass copies or resolves for the transaction is out of date. -/
structure UpToDate (store : Store) (txHash : String) : Prop where
  /-- A flag that a superseded model stored is borne out by the canonical run. -/
  superseded : ∀ row, classification store txHash = some row → ofCurrentModel store row = false →
    row.verdict.flagged = true → flaggedInRun store (effectiveMembership store) txHash = true
  /-- A flag that the current model stored is borne out by the labels now in force, else by its votes. -/
  frozen : ∀ row, classification store txHash = some row → ofCurrentModel store row = true →
    row.verdict.flagged = true →
      flaggedInCluster store (effectiveMembership store) row.clusterId row.votes = true
  /-- No label that came later flags what the current model stored as unremarkable. -/
  relabeled : ∀ row, classification store txHash = some row → ofCurrentModel store row = true →
    row.verdict.flagged = false → flaggedInRun store (canonicalMembership store) txHash = false →
      flaggedInCluster store (effectiveMembership store) row.clusterId row.votes = false
  /-- The current model, where it scored a member of the canonical run, does not clear what the run flags. -/
  reassigned : ∀ row, classification store txHash = some row → ofCurrentModel store row = true →
    flaggedInRun store (canonicalMembership store) txHash = true →
      flaggedInCluster store (effectiveMembership store) row.clusterId row.votes = true
  /-- The transactions assigned online bring no label along that clears a member of the run, or flags one
  that nothing else flags. -/
  joined : (∀ row, classification store txHash = some row → ofCurrentModel store row = false) →
    (flaggedInRun store (canonicalMembership store) txHash = true →
      flaggedInRun store (effectiveMembership store) txHash = true) ∧
    (flaggedInRun store (effectiveMembership store) txHash = true →
      flaggedInRun store (canonicalMembership store) txHash = true ∨ storedFlagged store txHash = true)

/-- Neither the current model nor the canonical run flags the transaction under the labels now in force. -/
structure Unremarkable (store : Store) (txHash : String) : Prop where
  assigned : ∀ row, classification store txHash = some row → ofCurrentModel store row = true →
    flaggedInCluster store (effectiveMembership store) row.clusterId row.votes = false
  unassigned : (∀ row, classification store txHash = some row → ofCurrentModel store row = false) →
    flaggedInRun store (effectiveMembership store) txHash = false

/-- Only `_publish_online` writes for the transaction. -/
def onlyOnline (store : Store) (txHash : String) : Bool :=
  (classification store txHash).any (onlineSelects store) && !batchFlagged store txHash

/-- Only `_publish_online` writes for the transaction, and the host reads a tombstone stamped later than the
second it writes. -/
def overtaken (bind : Nat → Nat) (store : Store) (now : Nat) (txHash : String) : Bool :=
  onlyOnline store txHash &&
    (final ContractAnomaly.txHash ContractAnomaly.publishedAt store.contractAnomaly txHash).any fun row =>
      row.verdict = .normal && bind (reconciliationVersion store.contractAnomaly now) < row.publishedAt

/-- Nothing the pass reads for the transaction is out of date, and no tombstone hides what it copies. -/
structure SourceCurrent (bind : Nat → Nat) (store : Store) (now : Nat) (txHash : String) : Prop where
  labeled : labelsForTarget store txHash = some .malicious → overtaken bind store now txHash = false
  shown : labelsForTarget store txHash = none → overtaken bind store now txHash = false → UpToDate store txHash
  hidden : labelsForTarget store txHash = none → overtaken bind store now txHash = true → Unremarkable store txHash

/-- For every transaction the pass decides on. -/
def SourcesCurrent (bind : Nat → Nat) (store : Store) (now : Nat) : Prop :=
  ∀ txHash ∈ store.hostKnown, inWindow store txHash = true → SourceCurrent bind store now txHash

section
variable {store : Store} {txHash : String}

private theorem canonicalMembership_distinct (store : Store) :
    ((canonicalMembership store).map Prod.fst).Nodup := by
  unfold canonicalMembership
  split
  · exact dict_distinct _
  · exact List.nodup_nil

/-- Where an assignment of the current model is read from. -/
private theorem mem_onlineAssignments {row : TxClassification} :
    row ∈ onlineAssignments store ↔ classification store row.txHash = some row ∧ ofCurrentModel store row = true := by
  unfold onlineAssignments
  rw [List.mem_filter, mem_finalRows]
  exact Iff.rfl

private theorem assigned_distinct {β : Type} (store : Store) (value : TxClassification → β) :
    (((onlineAssignments store).map fun row => (row.txHash, value row)).map Prod.fst).Nodup := by
  rw [List.map_map]
  exact (keys_finalRows TxClassification.txHash TxClassification.scoredAt store.txClassifications).sublist
    (List.filter_sublist.map _)

private theorem get_assigned {β : Type} (value : TxClassification → β) {row : TxClassification}
    (found : classification store txHash = some row) (current : ofCurrentModel store row = true) :
    get ((onlineAssignments store).map fun row => (row.txHash, value row)) txHash = some (value row) := by
  obtain ⟨-, rfl⟩ := final_mem _ _ found
  rw [← mem_iff_get (assigned_distinct store value)]
  exact List.mem_map_of_mem (mem_onlineAssignments.mpr ⟨found, current⟩)

private theorem not_assigned (none_ : ∀ row, classification store txHash = some row → ofCurrentModel store row = false)
    {row : TxClassification} (member : row ∈ onlineAssignments store) : row.txHash ≠ txHash := by
  rintro rfl
  obtain ⟨found, current⟩ := mem_onlineAssignments.mp member
  rw [none_ row found] at current
  cases current

private theorem get_eq_none_of_absent {β : Type} {pairs : List (String × β)} (absent : txHash ∉ pairs.map Prod.fst) :
    get pairs txHash = none := by
  unfold Verdicts.get
  rw [Option.map_eq_none_iff, ← Option.not_isSome_iff_eq_none, final_isSome_iff]
  rintro ⟨entry, member, rfl⟩
  exact absent (List.mem_map_of_mem member)

private theorem get_assigned_of_none {β : Type} (value : TxClassification → β)
    (none_ : ∀ row, classification store txHash = some row → ofCurrentModel store row = false) :
    get ((onlineAssignments store).map fun row => (row.txHash, value row)) txHash = none := by
  refine get_eq_none_of_absent fun member => ?_
  rw [List.map_map] at member
  obtain ⟨row, among, same⟩ := List.mem_map.mp member
  exact not_assigned none_ among same

/-- Where the current model assigned the transaction, that is where it belongs. -/
private theorem get_effectiveMembership {row : TxClassification} (found : classification store txHash = some row)
    (current : ofCurrentModel store row = true) : get (effectiveMembership store) txHash = some row.clusterId := by
  have assigned := get_assigned TxClassification.clusterId found current
  have present : ∃ entry ∈ (onlineAssignments store).map (fun row => (row.txHash, row.clusterId)),
      Prod.fst entry = txHash := by
    obtain ⟨-, rfl⟩ := final_mem _ _ found
    exact ⟨_, List.mem_map_of_mem (mem_onlineAssignments.mpr ⟨found, current⟩), rfl⟩
  unfold Verdicts.get at assigned ⊢
  unfold effectiveMembership
  rw [final_append_of_newer _ _ (fun _ _ _ _ => Nat.le_refl _) present]
  exact assigned

private theorem get_effectiveMembership_of_none
    (none_ : ∀ row, classification store txHash = some row → ofCurrentModel store row = false) :
    get (effectiveMembership store) txHash = get (canonicalMembership store) txHash := by
  have absent : ∀ entry ∈ (onlineAssignments store).map (fun row => (row.txHash, row.clusterId)),
      Prod.fst entry ≠ txHash := by
    intro entry member
    obtain ⟨row, among, rfl⟩ := List.mem_map.mp member
    exact not_assigned none_ among
  unfold Verdicts.get effectiveMembership
  rw [final_append_of_absent _ _ absent]
  refine congrArg _ (final_filter_of_kept _ _ fun entry _ keyed => decide_eq_true fun assigned => ?_)
  obtain ⟨other, among, same⟩ := List.mem_map.mp assigned
  exact absent other among (same.trans keyed)

/-- Without a label of its own a member is flagged as its cluster has it. -/
private theorem flagged_memberVerdict (unlabeled : labelsForTarget store txHash = none)
    (membership : List (String × Int)) (votes : String → Nat) (clusterId : Int) :
    (memberVerdict membership (labelsForTarget store) votes flagVoteThreshold (some (clusterLabeledHashes store))
      txHash clusterId).flagged = flaggedInCluster store membership clusterId (votes txHash) := by
  unfold memberVerdict flaggedInCluster
  rw [unlabeled]
  cases inherited membership (labelsForTarget store) (some (clusterLabeledHashes store)) clusterId with
  | some label => rfl
  | none =>
    dsimp only
    split
    · next many => exact (decide_eq_true many).symm
    · next few => exact (decide_eq_false few).symm

private theorem effectivelyFlagged_eq (unlabeled : labelsForTarget store txHash = none) :
    effectivelyFlagged store txHash = (get (effectiveMembership store) txHash).any fun clusterId =>
      flaggedInCluster store (effectiveMembership store) clusterId (effectiveVotes store txHash) := by
  have resolved : get (resolveVerdicts store (effectiveMembership store) (effectiveVotes store)) txHash = _ :=
    verdictOf_eq (effectiveMembership store) (labelsForTarget store) txHash
  unfold effectivelyFlagged effectiveVerdict
  rw [resolved, unlabeled]
  cases get (effectiveMembership store) txHash with
  | none => rfl
  | some clusterId => exact flagged_memberVerdict unlabeled _ _ clusterId

private theorem batchFlagged_eq (unlabeled : labelsForTarget store txHash = none) :
    batchFlagged store txHash = flaggedInRun store (canonicalMembership store) txHash := by
  rw [Bool.eq_iff_iff]
  unfold batchFlagged flaggedInRun resolveVerdicts computeVerdicts
  rw [List.any_eq_true, Option.any_eq_true]
  constructor
  · rintro ⟨entry, member, met⟩
    obtain ⟨⟨hash, clusterId⟩, among, rfl⟩ := List.mem_map.mp member
    obtain ⟨same, flagged⟩ := Bool.and_eq_true_iff.mp met
    obtain rfl : hash = txHash := of_decide_eq_true same
    refine ⟨clusterId, (mem_iff_get (canonicalMembership_distinct store)).mp among, ?_⟩
    rw [← flagged_memberVerdict unlabeled]
    exact flagged
  · rintro ⟨clusterId, found, flagged⟩
    refine ⟨_, List.mem_map_of_mem ((mem_iff_get (canonicalMembership_distinct store)).mpr found), ?_⟩
    rw [Bool.and_eq_true_iff]
    refine ⟨decide_eq_true rfl, ?_⟩
    rw [← flagged_memberVerdict unlabeled] at flagged
    exact flagged

/-- The current model assigned the transaction: its cluster and its votes decide. -/
private theorem effectivelyFlagged_of_current (unlabeled : labelsForTarget store txHash = none)
    {row : TxClassification} (found : classification store txHash = some row)
    (current : ofCurrentModel store row = true) :
    effectivelyFlagged store txHash =
      flaggedInCluster store (effectiveMembership store) row.clusterId row.votes := by
  rw [effectivelyFlagged_eq unlabeled, get_effectiveMembership found current]
  unfold effectiveVotes
  rw [get_assigned TxClassification.votes found current]
  rfl

/-- It did not: the canonical run decides. -/
private theorem effectivelyFlagged_of_none (unlabeled : labelsForTarget store txHash = none)
    (none_ : ∀ row, classification store txHash = some row → ofCurrentModel store row = false) :
    effectivelyFlagged store txHash = flaggedInRun store (effectiveMembership store) txHash := by
  rw [effectivelyFlagged_eq unlabeled, get_effectiveMembership_of_none none_]
  unfold effectiveVotes
  rw [get_assigned_of_none TxClassification.votes none_]
  rfl

/-- What the pass writes for an unlabeled transaction is what it should be exactly where nothing it reads is
out of date.  The cases are whether the current model assigned the transaction. -/
private theorem upToDate_iff (unlabeled : labelsForTarget store txHash = none) :
    (storedFlagged store txHash = true ∨ batchFlagged store txHash = true ↔
      effectivelyFlagged store txHash = true) ↔ UpToDate store txHash := by
  rw [batchFlagged_eq unlabeled]
  by_cases assigned : ∃ row, classification store txHash = some row ∧ ofCurrentModel store row = true
  · obtain ⟨row, found, current⟩ := assigned
    have stored : storedFlagged store txHash = row.verdict.flagged := by
      unfold storedFlagged
      rw [found]
      rfl
    have only : ∀ other, classification store txHash = some other → other = row := fun other also =>
      Option.some.inj (also.symm.trans found)
    rw [effectivelyFlagged_of_current unlabeled found current, stored]
    constructor
    · intro agree
      refine ⟨fun other also superseded => ?_, fun other also _ flagged => ?_, fun other also _ plain unflagged => ?_,
        fun other also _ flagged => ?_, fun none_ => ?_⟩
      · rw [only other also, current] at superseded
        cases superseded
      · rw [only other also] at flagged ⊢
        exact agree.mp (.inl flagged)
      · rw [only other also] at plain ⊢
        refine Bool.eq_false_iff.mpr fun flagged => ?_
        obtain now | then_ := agree.mpr flagged
        · rw [plain] at now
          cases now
        · rw [unflagged] at then_
          cases then_
      · rw [only other also]
        exact agree.mp (.inr flagged)
      · have superseded := none_ row found
        rw [current] at superseded
        cases superseded
    · intro fresh
      constructor
      · rintro (flagged | flagged)
        · exact fresh.frozen row found current flagged
        · exact fresh.reassigned row found current flagged
      · intro flagged
        by_contra neither
        obtain ⟨plain, unflagged⟩ := not_or.mp neither
        rw [fresh.relabeled row found current (Bool.eq_false_iff.mpr plain)
          (Bool.eq_false_iff.mpr unflagged)] at flagged
        cases flagged
  · have none_ : ∀ row, classification store txHash = some row → ofCurrentModel store row = false := fun row found =>
      Bool.eq_false_iff.mpr fun current => assigned ⟨row, found, current⟩
    have absurd_ : ∀ row, classification store txHash = some row → ofCurrentModel store row ≠ true := fun row found =>
      Bool.eq_false_iff.mp (none_ row found)
    rw [effectivelyFlagged_of_none unlabeled none_]
    constructor
    · intro agree
      refine ⟨fun row found _ flagged => agree.mp (.inl ?_), fun row found current =>
        absurd current (absurd_ row found),
        fun row found current => absurd current (absurd_ row found),
        fun row found current => absurd current (absurd_ row found), fun _ => ⟨fun flagged => agree.mp (.inr flagged),
        fun flagged => (agree.mpr flagged).symm⟩⟩
      unfold storedFlagged
      rw [found]
      exact flagged
    · intro fresh
      constructor
      · rintro (flagged | flagged)
        · obtain ⟨row, found, flagged⟩ := (Option.any_eq_true _ _).mp flagged
          exact fresh.superseded row found (none_ row found) flagged
        · exact (fresh.joined none_).1 flagged
      · exact fun flagged => ((fresh.joined none_).2 flagged).symm

/-- The effective verdict raises nothing exactly where neither the current model nor the run does. -/
private theorem unremarkable_iff (unlabeled : labelsForTarget store txHash = none) :
    effectivelyFlagged store txHash = false ↔ Unremarkable store txHash := by
  by_cases assigned : ∃ row, classification store txHash = some row ∧ ofCurrentModel store row = true
  · obtain ⟨row, found, current⟩ := assigned
    rw [effectivelyFlagged_of_current unlabeled found current]
    constructor
    · intro plain
      refine ⟨fun other also _ => ?_, fun none_ => ?_⟩
      · obtain rfl : other = row := Option.some.inj (also.symm.trans found)
        exact plain
      · have superseded := none_ row found
        rw [current] at superseded
        cases superseded
    · exact fun plain => plain.assigned row found current
  · have none_ : ∀ row, classification store txHash = some row → ofCurrentModel store row = false := fun row found =>
      Bool.eq_false_iff.mpr fun current => assigned ⟨row, found, current⟩
    rw [effectivelyFlagged_of_none unlabeled none_]
    constructor
    · intro plain
      refine ⟨fun row found current => ?_, fun _ => plain⟩
      rw [none_ row found] at current
      cases current
    · exact fun plain => plain.unassigned none_

/-- The newest flagged row of a transaction carries the version of the pass, but its second where only the
online path writes for it. -/
theorem stamp_of_written {bind : Nat → Nat} (seconds : WholeSeconds bind) {unclusterable publishedAt : Nat}
    {exclude : List String} (known : txHash ∈ store.hostKnown)
    (excluded : exclude = (onlineRows store unclusterable (bind publishedAt) ++
      batchRows store unclusterable publishedAt).map ContractAnomaly.txHash) {fresh : ContractAnomaly}
    (shape : final ContractAnomaly.txHash ContractAnomaly.publishedAt
      (onlineRows store unclusterable (bind publishedAt) ++ batchRows store unclusterable publishedAt ++
        labelRows store unclusterable publishedAt exclude) txHash = some fresh) :
    fresh.publishedAt = if onlyOnline store txHash then bind publishedAt else publishedAt := by
  obtain ⟨among, own⟩ := final_mem _ _ shape
  -- A row of the batch or the label path is the newest there is.
  have newest : ∀ row ∈ onlineRows store unclusterable (bind publishedAt) ++
      batchRows store unclusterable publishedAt ++ labelRows store unclusterable publishedAt exclude,
      row.txHash = txHash → row.publishedAt = publishedAt → fresh.publishedAt = publishedAt := by
    intro row listed same stamp
    obtain ⟨won, isFinal, le⟩ := le_final ContractAnomaly.txHash ContractAnomaly.publishedAt listed
    rw [same, shape] at isFinal
    obtain rfl := Option.some.inj isFinal
    exact Nat.le_antisymm (rows_flagged (seconds.le publishedAt) among).2 (stamp ▸ le)
  have inBatch : batchFlagged store txHash = true → fresh.publishedAt = publishedAt := by
    intro both
    have resolved : txHash ∈ (batchRows store unclusterable publishedAt).map ContractAnomaly.txHash :=
      (mem_batchRows known).mpr both
    obtain ⟨row, listed, same⟩ := List.mem_map.mp resolved
    exact newest row (List.mem_append_left _ (List.mem_append_right _ listed)) same (batchRows_flagged listed).2
  cases only : onlyOnline store txHash with
  | true =>
    obtain ⟨selected, unresolved⟩ := Bool.and_eq_true_iff.mp only
    rw [if_pos rfl]
    rcases List.mem_append.mp among with earlier | label
    · rcases List.mem_append.mp earlier with copied | resolved
      · exact (onlineRows_flagged copied).2
      · have both := (mem_batchRows known).mp (List.mem_map.mpr ⟨fresh, resolved, own⟩)
        simp [both] at unresolved
    · have outside := ((mem_labelRows known exclude).mp (List.mem_map.mpr ⟨fresh, label, own⟩)).2
      have copied : txHash ∈ (onlineRows store unclusterable (bind publishedAt)).map ContractAnomaly.txHash :=
        (mem_onlineRows known).mpr selected
      rw [excluded, List.map_append] at outside
      exact absurd (List.mem_append_left _ copied) outside
  | false =>
    rw [if_neg Bool.false_ne_true]
    rcases List.mem_append.mp among with earlier | label
    · rcases List.mem_append.mp earlier with copied | resolved
      · have selected := (mem_onlineRows known).mp (List.mem_map.mpr ⟨fresh, copied, own⟩)
        refine inBatch ?_
        simpa [onlyOnline, selected] using only
      · exact (batchRows_flagged resolved).2
    · exact (labelRows_flagged label).2

/-- Of the transactions that get a flagged row in a pass, those are surfaced whose row no older tombstone
overtakes. -/
private theorem surfaced_written_iff {bind : Nat → Nat} (seconds : WholeSeconds bind) {unclusterable now : Nat}
    {written : List ContractAnomaly} {exclude : List String} (known : txHash ∈ store.hostKnown)
    (excluded : exclude = (onlineRows store unclusterable (bind (reconciliationVersion store.contractAnomaly now)) ++
      batchRows store unclusterable (reconciliationVersion store.contractAnomaly now)).map ContractAnomaly.txHash)
    (shape : written = onlineRows store unclusterable (bind (reconciliationVersion store.contractAnomaly now)) ++
      batchRows store unclusterable (reconciliationVersion store.contractAnomaly now) ++
      labelRows store unclusterable (reconciliationVersion store.contractAnomaly now) exclude)
    (published : txHash ∈ written.map ContractAnomaly.txHash) :
    surfaced (store.contractAnomaly ++ written) txHash = true ↔ overtaken bind store now txHash = false := by
  obtain ⟨row, member, keyed⟩ := List.mem_map.mp published
  obtain ⟨fresh, found⟩ := Option.isSome_iff_exists.mp ((final_isSome_iff ContractAnomaly.txHash
    ContractAnomaly.publishedAt written txHash).mpr ⟨row, member, keyed⟩)
  have positive : fresh.verdict ≠ .normal := by
    have among := (final_mem _ _ found).1
    rw [shape] at among
    exact (rows_flagged (seconds.le _) among).1
  have stamp := stamp_of_written seconds known excluded (shape ▸ found)
  unfold surfaced overtaken
  rw [final_append_of_some _ _ found]
  cases standing : final ContractAnomaly.txHash ContractAnomaly.publishedAt store.contractAnomaly txHash with
  | none => simp [newer, positive]
  | some before =>
    have below := publishedAt_lt_reconciliationVersion now before (final_mem _ _ standing).1
    cases only : onlyOnline store txHash with
    | true =>
      rw [only, if_pos rfl] at stamp
      by_cases newer_ : before.publishedAt ≤ fresh.publishedAt
      · have notAbove : ¬bind (reconciliationVersion store.contractAnomaly now) < before.publishedAt := by omega
        simp [newer, newer_, positive, notAbove]
      · have above : bind (reconciliationVersion store.contractAnomaly now) < before.publishedAt := by omega
        simp [newer, newer_, above]
    | false =>
      rw [only, if_neg Bool.false_ne_true] at stamp
      have newer_ : before.publishedAt ≤ fresh.publishedAt := by omega
      simp [newer, newer_, positive]

end

/-- **Authoritative publish, exactly.**  For every store the pass leaves the host with the
effective verdicts if and only if nothing it reads is out of date and no tombstone hides what it
copies.  `_publish_online` copies a stored verdict whatever model and labels produced it, in a row
that carries the second of the pass, and `_retract_stale` keeps what was copied. -/
theorem publish_authoritative_iff (settings : Feed.Settings) (bind : Nat → Nat) (seconds : WholeSeconds bind)
    (store : Store) (now : Nat) :
    Authoritative store (publishContractAnomaly settings bind store now).1 ↔ SourcesCurrent bind store now := by
  have surfacedIff : ∀ txHash ∈ store.hostKnown, inWindow store txHash = true →
      (surfaced (publishContractAnomaly settings bind store now).1.contractAnomaly txHash = true ↔
        (labelsForTarget store txHash = some .malicious ∨ labelsForTarget store txHash = none ∧
          (storedFlagged store txHash = true ∨ batchFlagged store txHash = true)) ∧
        overtaken bind store now txHash = false) := by
    intro txHash known inside
    refine Iff.trans (surfaced_after_pass ?_ ?_ ?_ inside) ?_
    · exact publishedAt_lt_reconciliationVersion now
    · exact fun row member => rows_flagged (seconds.le _) member
    · intro hash
      simp only [List.map_append, List.mem_append, List.mem_filter, decide_eq_true_eq]
      tauto
    · rw [and_congr_left_iff.mpr fun _ => (published_iff known).symm]
      exact and_congr_right fun written => surfaced_written_iff seconds known rfl rfl written
  refine forall₃_congr fun txHash known inside => ?_
  rw [surfacedIff txHash known inside]
  cases own : labelsForTarget store txHash with
  | none =>
    simp only [reduceCtorEq, false_or, true_and]
    cases hides : overtaken bind store now txHash with
    | true =>
      simp only [Bool.true_eq_false, and_false, false_iff, Bool.not_eq_true]
      rw [unremarkable_iff own]
      refine ⟨fun plain => ⟨fun malicious => ?_, fun _ shows => ?_, fun _ _ => plain⟩, fun current =>
        current.hidden own hides⟩
      · rw [own] at malicious
        cases malicious
      · rw [hides] at shows
        cases shows
    | false =>
      simp only [and_true]
      rw [upToDate_iff own]
      refine ⟨fun fresh => ⟨fun _ => hides, fun _ _ => fresh, fun _ hidden => ?_⟩, fun current =>
        current.shown own hides⟩
      rw [hides] at hidden
      cases hidden
  | some label =>
    have unlabeled : labelsForTarget store txHash ≠ none := by simp [own]
    rw [effectivelyFlagged_of_label own]
    cases label with
    | malicious =>
      simp only [true_or, true_and, Label.verdict, Verdict.flagged, iff_true]
      exact ⟨fun shows => ⟨fun _ => shows, fun none_ => absurd none_ unlabeled, fun none_ => absurd none_ unlabeled⟩,
        fun current => current.labeled own⟩
    | benign =>
      simp only [Option.some.injEq, reduceCtorEq, false_and, or_false, Label.verdict, Verdict.flagged,
        Bool.false_eq_true, true_iff]
      refine ⟨fun malicious => ?_, fun none_ => absurd none_ unlabeled, fun none_ => absurd none_ unlabeled⟩
      rw [own] at malicious
      cases malicious

/-- `aa01` was flagged online by `model_1`.  Since then the contract was re-fit: the
transaction is an unremarkable member of `run_2`, on which the current `model_2` is fit. -/
private def refitStore : Store where
  txLabels := []
  clusterRuns := [⟨"run_1", .system, 100⟩, ⟨"run_2", .system, 200⟩]
  clusterLabels := [⟨"run_2", "aa01", 0⟩, ⟨"run_2", "bb02", 0⟩]
  anomalyRuns := [⟨"anom_2", .system, 200⟩]
  anomalyScores := [⟨"anom_2", "aa01", 0⟩, ⟨"anom_2", "bb02", 0⟩]
  clusterModels := [⟨"model_1", "run_1", 100⟩, ⟨"model_2", "run_2", 200⟩]
  txClassifications := [⟨"aa01", "model_1", -1, 2, .anomaly, 150⟩]
  contractAnomaly := [⟨"aa01", -1, 2, .anomaly, "model_1", 0, 150⟩]
  hostKnown := ["aa01", "bb02"]
  window := some ["aa01", "bb02"]
  fitCoverage := some 1

/-- A human flags the transaction after all: the pass publishes that. -/
theorem label_is_published :
    let store := { refitStore with txLabels := [⟨"aa01", .malicious, .manualTx, false, 250⟩], hostKnown := ["aa01"] }
    Authoritative store
      (publishContractAnomaly ⟨0, 0, 0, 4⟩ (fun stamp => stamp / 1000000 * 1000000) store 300000000).1 := by
  intro store
  refine (publish_authoritative_iff ⟨0, 0, 0, 4⟩ _ (fun _ => rfl) store 300000000).mpr fun txHash known _ => ?_
  obtain rfl : txHash = "aa01" := by simpa [store] using known
  refine ⟨fun _ => by decide, fun none_ => ?_, fun none_ => ?_⟩
  · exact absurd none_ (by decide)
  · exact absurd none_ (by decide)

/-- The current shape model was fit on the latest canonical run. -/
def FitOnCanonicalRun (store : Store) : Prop :=
  ∃ model ∈ latestClusterModel store, ∃ run ∈ latestSystemRun store.clusterRuns, model.runId = run.runId

instance (store : Store) : Decidable (FitOnCanonicalRun store) :=
  inferInstanceAs (Decidable (∃ model ∈ latestClusterModel store, _))

/-- A transaction flagged by a superseded model is published again after the re-fit that
cleared it, instead of being retracted. -/
theorem superseded_flag_republished :
    ¬ ∀ (settings : Feed.Settings) (bind : Nat → Nat) (store : Store) (now : Nat), WholeSeconds bind →
      FitOnCanonicalRun store → Authoritative store (publishContractAnomaly settings bind store now).1 := by
  intro authoritative
  have agrees := authoritative ⟨0, 0, 0, 4⟩ (fun stamp => stamp / 1000000 * 1000000) refitStore 300000000
    (fun _ => rfl) (by decide) "aa01" (by decide) (by decide)
  exact absurd (agrees.mp (by decide)) (by decide)

end TransactionMonitoring.Publish
