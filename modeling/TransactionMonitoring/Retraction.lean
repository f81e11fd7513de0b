import TransactionMonitoring.Publish

/-! Retracting a host alert by a benign label.

A label is written for one transaction, and the next pass of `publish_contract_anomaly`
reconciles the host's table.  `_retract_stale` retracts inside the rolling window only: its
comment has a benign label keep a transaction there, which nothing does.
-/
namespace TransactionMonitoring.Publish
open Verdicts Replacing

/-- `label_transaction`, up to the sync of the host's table, which is a pass of its own. -/
def labelTransaction (store : Store) (txHash : String) (verdict : Label) (updatedAt : Nat) : Store :=
  { store with txLabels := store.txLabels ++ [⟨txHash, verdict, .manualTx, false, updatedAt⟩] }

/-- The verdict of a transaction's `FINAL` row. -/
def finalVerdict (rows : List ContractAnomaly) (txHash : String) : Option Verdict :=
  (final ContractAnomaly.txHash ContractAnomaly.publishedAt rows txHash).map ContractAnomaly.verdict

/-- The flagged rows of one pass. -/
def flaggedRows (bind : Nat → Nat) (store : Store) (unclusterable publishedAt : Nat) : List ContractAnomaly :=
  let online := onlineRows store unclusterable (bind publishedAt)
  let batch := batchRows store unclusterable publishedAt
  online ++ batch ++ labelRows store unclusterable publishedAt ((online ++ batch).map ContractAnomaly.txHash)

/-- A pass flags the transaction: the host knows it, and its label in force is malicious, or it
has none and a stored classification or the canonical run flags it. -/
def PassFlags (store : Store) (txHash : String) : Prop :=
  txHash ∈ store.hostKnown ∧
    (labelsForTarget store txHash = some .malicious ∨ labelsForTarget store txHash = none ∧
      (storedFlagged store txHash = true ∨ batchFlagged store txHash = true))

section
variable {store : Store} {bind : Nat → Nat} {unclusterable publishedAt : Nat} {txHash : String}

/-- Every path is bounded by what the host knows. -/
theorem known_of_flaggedRows
    (written : txHash ∈ (flaggedRows bind store unclusterable publishedAt).map ContractAnomaly.txHash) :
    txHash ∈ store.hostKnown := by
  obtain ⟨row, member, rfl⟩ := List.mem_map.mp written
  rcases List.mem_append.mp member with earlier | label
  · rcases List.mem_append.mp earlier with online | batch
    · obtain ⟨source, kept, rfl⟩ := List.mem_map.mp online
      have selected := of_decide_eq_true (List.mem_filter.mp kept).2
      exact (mem_hostKnownOnly.mp selected).2
    · unfold batchRows at batch
      split at batch
      · cases batch
      · obtain ⟨entry, kept, rfl⟩ := List.mem_map.mp batch
        have selected := of_decide_eq_true (List.mem_filter.mp kept).2
        exact (mem_hostKnownOnly.mp selected).2
  · obtain ⟨hash, kept, rfl⟩ := List.mem_map.mp label
    exact (mem_hostKnownOnly.mp kept).2

theorem mem_flaggedRows_iff :
    txHash ∈ (flaggedRows bind store unclusterable publishedAt).map ContractAnomaly.txHash ↔
      PassFlags store txHash := by
  constructor
  · intro written
    have known := known_of_flaggedRows written
    exact ⟨known, (published_iff known).mp written⟩
  · rintro ⟨known, flags⟩
    exact (published_iff known).mpr flags

theorem flaggedRows_flagged (rounded : ∀ stamp, bind stamp ≤ stamp) {row : ContractAnomaly}
    (written : row ∈ flaggedRows bind store unclusterable publishedAt) :
    row.verdict ≠ .normal ∧ row.publishedAt ≤ publishedAt := rows_flagged (rounded publishedAt) written

/-- Outside the window a pass leaves what is surfaced. -/
theorem surfaced_outside {old written : List ContractAnomaly} {keep : List String}
    (flagged : ∀ row ∈ written, row.verdict ≠ .normal) (outside : inWindow store txHash = false)
    (raised : surfaced old txHash = true) :
    surfaced (old ++ written ++ staleRows store (old ++ written) unclusterable publishedAt keep) txHash = true := by
  have unretracted : ∀ row ∈ staleRows store (old ++ written) unclusterable publishedAt keep, row.txHash ≠ txHash := by
    intro row member same
    obtain ⟨hash, kept, rfl⟩ := List.mem_map.mp member
    have inside : inWindow store hash = true := (List.mem_filter.mp kept).2
    change hash = txHash at same
    rw [same, outside] at inside
    cases inside
  have still := surfaced_append flagged raised
  unfold surfaced at still ⊢
  rw [final_append_of_absent _ _ unretracted]
  exact still

/-- A surfaced transaction stays surfaced over a pass exactly if the pass flags it or it lies
outside the window.  That its new row may come below the old one does not matter, both being flagged. -/
theorem surfaced_publish_iff (settings : Feed.Settings) (rounded : ∀ stamp, bind stamp ≤ stamp) (now : Nat)
    (raised : surfaced store.contractAnomaly txHash = true) :
    surfaced (publishContractAnomaly settings bind store now).1.contractAnomaly txHash = true ↔
      PassFlags store txHash ∨ inWindow store txHash = false := by
  have flagged : ∀ unclusterable publishedAt, ∀ row ∈ flaggedRows bind store unclusterable publishedAt,
      row.verdict ≠ .normal ∧ row.publishedAt ≤ publishedAt :=
    fun _ _ _ member => flaggedRows_flagged rounded member
  cases window : inWindow store txHash with
  | true =>
    simp only [Bool.true_eq_false, or_false]
    refine Iff.trans (surfaced_after_pass (publishedAt_lt_reconciliationVersion now) (flagged _ _) ?_ window) ?_
    · intro hash
      simp only [List.map_append, List.mem_append, List.mem_filter, decide_eq_true_eq]
      tauto
    · refine Iff.trans (and_iff_left ?_) mem_flaggedRows_iff
      exact surfaced_append (fun row member => (flagged _ _ row member).1) raised
  | false =>
    simp only [or_true, iff_true]
    exact surfaced_outside (fun row member => (flagged _ _ row member).1) window raised

/-- A surfaced transaction has a row, and keeps one. -/
theorem finalVerdict_normal_iff {old new : List ContractAnomaly} (raised : surfaced old txHash = true) :
    finalVerdict (old ++ new) txHash = some .normal ↔ surfaced (old ++ new) txHash = false := by
  have present : (final ContractAnomaly.txHash ContractAnomaly.publishedAt old txHash).isSome := by
    obtain ⟨row, found, -⟩ := (Option.any_eq_true _ _).mp raised
    exact Option.isSome_iff_exists.mpr ⟨row, found⟩
  obtain ⟨row, member, keyed⟩ := (final_isSome_iff _ _ _ _).mp present
  have kept := (final_isSome_iff ContractAnomaly.txHash ContractAnomaly.publishedAt (old ++ new) txHash).mpr
    ⟨row, List.mem_append_left new member, keyed⟩
  obtain ⟨winner, found⟩ := Option.isSome_iff_exists.mp kept
  simp [finalVerdict, surfaced, found]

/-- The label written is in force unless the table has a later one. -/
theorem labelsForTarget_labelTransaction {updatedAt : Nat} (verdict : Label)
    (newest : ∀ row ∈ store.txLabels, row.txHash = txHash → row.updatedAt ≤ updatedAt) :
    labelsForTarget (labelTransaction store txHash verdict updatedAt) txHash = some verdict := by
  have inForce : final TxLabel.txHash TxLabel.updatedAt (labelTransaction store txHash verdict updatedAt).txLabels
      txHash = some ⟨txHash, verdict, .manualTx, false, updatedAt⟩ := by
    simp only [labelTransaction]
    rw [final_append, List.filter_cons_of_pos (by simp), List.filter_nil, List.foldl_cons, List.foldl_nil]
    cases before : final TxLabel.txHash TxLabel.updatedAt store.txLabels txHash with
    | none => rfl
    | some old =>
      obtain ⟨member, keyed⟩ := final_mem _ _ before
      simp [newer, newest old member keyed]
  rw [labelsForTarget, activeLabel, inForce]
  rfl

end

/-- **A benign label clears a host alert, exactly.**  The `FINAL` verdict of a surfaced
transaction is normal after the label and a pass if and only if the transaction lies inside the
rolling window and the pass does not flag it; it does not flag it where the table has no label of
the transaction that is stamped later than this one, so the window alone decides then.  Of the driver
it matters only that it moves no stamp forward. -/
theorem benign_label_clears_iff (settings : Feed.Settings) (bind : Nat → Nat) (rounded : ∀ stamp, bind stamp ≤ stamp)
    (store : Store) (txHash : String) (updatedAt now : Nat)
    (raised : surfaced store.contractAnomaly txHash = true) :
    let labelled := labelTransaction store txHash .benign updatedAt
    let published := (publishContractAnomaly settings bind labelled now).1
    (finalVerdict published.contractAnomaly txHash = some .normal ↔
        inWindow store txHash = true ∧ ¬PassFlags labelled txHash) ∧
      ((∀ row ∈ store.txLabels, row.txHash = txHash → row.updatedAt ≤ updatedAt) →
        (finalVerdict published.contractAnomaly txHash = some .normal ↔ inWindow store txHash = true)) := by
  intro labelled published
  have raisedThen : surfaced labelled.contractAnomaly txHash = true := raised
  have sameWindow : inWindow labelled txHash = inWindow store txHash := rfl
  have exactly : finalVerdict published.contractAnomaly txHash = some .normal ↔
      inWindow store txHash = true ∧ ¬PassFlags labelled txHash := by
    have normal : finalVerdict published.contractAnomaly txHash = some .normal ↔
        surfaced published.contractAnomaly txHash = false := by
      simp only [published, publishContractAnomaly, List.append_assoc]
      exact finalVerdict_normal_iff raisedThen
    rw [normal, ← Bool.not_eq_true, surfaced_publish_iff settings rounded now raisedThen, sameWindow, not_or,
      Bool.not_eq_false]
    exact And.comm
  refine ⟨exactly, ?_⟩
  intro newest
  have label := labelsForTarget_labelTransaction Label.benign newest
  have cleared : ¬PassFlags labelled txHash := by
    rintro ⟨-, malicious | ⟨none, -⟩⟩
    · rw [label] at malicious
      cases malicious
    · rw [label] at none
      cases none
  rw [exactly]
  exact and_iff_left cleared

/-- `aa01` was flagged and published; the window has moved past it since. -/
def agedOutStore : Store where
  txLabels := []
  clusterRuns := [⟨"run_1", .system, 100⟩]
  clusterLabels := [⟨"run_1", "bb02", 0⟩]
  anomalyRuns := [⟨"anom_1", .system, 100⟩]
  anomalyScores := [⟨"anom_1", "bb02", 0⟩]
  clusterModels := [⟨"model_1", "run_1", 100⟩]
  txClassifications := [⟨"aa01", "model_1", -1, 2, .anomaly, 150⟩]
  contractAnomaly := [⟨"aa01", -1, 2, .anomaly, "model_1", 0, 150⟩]
  hostKnown := ["aa01", "bb02"]
  window := some ["bb02"]
  fitCoverage := some 1

/-- In the window the label retracts the alert. -/
theorem benign_label_clears_in_window :
    finalVerdict (publishContractAnomaly ⟨0, 0, 0, 4⟩ (fun stamp => stamp / 1000000 * 1000000)
      (labelTransaction { agedOutStore with window := some ["aa01", "bb02"] } "aa01" .benign 200) 300).1.contractAnomaly
      "aa01" = some .normal := by
  have exactly := benign_label_clears_iff ⟨0, 0, 0, 4⟩ (fun stamp => stamp / 1000000 * 1000000)
    (fun stamp => Nat.div_mul_le_self stamp 1000000)
    { agedOutStore with window := some ["aa01", "bb02"] } "aa01" 200 300 (by decide)
  apply (exactly.2 _).mpr
  · decide
  · intro row member
    cases member

/-- Outside the window the alert stands, its transaction labelled benign or not. -/
theorem benign_label_keeps_aged_out_alert :
    ¬∀ (settings : Feed.Settings) (bind : Nat → Nat) (store : Store) (txHash : String) (updatedAt now : Nat),
      WholeSeconds bind → surfaced store.contractAnomaly txHash = true →
      (∀ row ∈ store.txLabels, row.txHash = txHash → row.updatedAt ≤ updatedAt) →
      let published := (publishContractAnomaly settings bind (labelTransaction store txHash .benign updatedAt) now).1
      finalVerdict published.contractAnomaly txHash = some .normal := by
  intro clears
  have cleared := clears ⟨0, 0, 0, 4⟩ (fun stamp => stamp / 1000000 * 1000000) agedOutStore "aa01" 200 300
    (fun _ => rfl) (by decide) (by simp [agedOutStore])
  exact absurd cleared (by decide)

end TransactionMonitoring.Publish
