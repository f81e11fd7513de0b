import Mathlib.Algebra.Order.Field.Rat
import TransactionMonitoring.Faults
import TransactionMonitoring.Feed

/-! A re-fit that fails before its own fit is saved.

The pipeline saves the contract's row several times, each time from a dictionary with only some
of the columns; the others get their defaults.  When it raises, the row is read back, marked
failed and saved once more.
-/
namespace TransactionMonitoring.RefitFailure

open Faults (Outcome)
open Feed (Status)

/-- A row of `contracts`. -/
structure ContractRow where
  target : String
  targetType : String
  label : String
  present : Bool
  isScript : Bool
  scriptType : String
  balanceLovelace : Nat
  assetCount : Nat
  sampleTokens : String
  txCount : Nat
  status : Status
  requestedMaxTxs : Nat
  targetTxs : Nat
  driftScore : Rat
  fitCoverage : Rat
  lastFitAt : Nat
deriving DecidableEq, Repr

/-- A contract as the pipeline hands it to `save_contract`; `target` and `target_type` are required. -/
structure ContractDict where
  target : String
  targetType : String
  label : Option String
  present : Option Bool
  isScript : Option Bool
  scriptType : Option String
  balanceLovelace : Option Nat
  assetCount : Option Nat
  sampleTokens : Option String
  txCount : Option Nat
  status : Option Status
  requestedMaxTxs : Option Nat
  targetTxs : Option Nat
  driftScore : Option Rat
  fitCoverage : Option Rat
  lastFitAt : Option Nat
deriving DecidableEq, Repr

/-- The row that `save_contract` inserts: `_CONTRACT_DEFAULTS` where the dictionary says nothing. -/
def saveContract (contract : ContractDict) : ContractRow where
  target := contract.target
  targetType := contract.targetType
  label := contract.label.getD ""
  present := contract.present.getD false
  isScript := contract.isScript.getD false
  scriptType := contract.scriptType.getD ""
  balanceLovelace := contract.balanceLovelace.getD 0
  assetCount := contract.assetCount.getD 0
  sampleTokens := contract.sampleTokens.getD "[]"
  txCount := contract.txCount.getD 0
  status := contract.status.getD .pending
  requestedMaxTxs := contract.requestedMaxTxs.getD 0
  targetTxs := contract.targetTxs.getD 0
  driftScore := contract.driftScore.getD 0
  fitCoverage := contract.fitCoverage.getD (-1)
  lastFitAt := contract.lastFitAt.getD 0

/-- What `get_contract` returns for a row: every column. -/
def ContractRow.toDict (row : ContractRow) : ContractDict where
  target := row.target
  targetType := row.targetType
  label := some row.label
  present := some row.present
  isScript := some row.isScript
  scriptType := some row.scriptType
  balanceLovelace := some row.balanceLovelace
  assetCount := some row.assetCount
  sampleTokens := some row.sampleTokens
  txCount := some row.txCount
  status := some row.status
  requestedMaxTxs := some row.requestedMaxTxs
  targetTxs := some row.targetTxs
  driftScore := some row.driftScore
  fitCoverage := some row.fitCoverage
  lastFitAt := some row.lastFitAt

/-- `TargetMeta`, with the label the pipeline puts in it. -/
structure TargetMeta where
  present : Bool
  isScript : Bool
  scriptType : String
  balanceLovelace : Nat
  assetCount : Nat
  sampleTokens : String
  registryLabel : String
deriving DecidableEq, Repr

/-- `_MIN_TXS_FOR_ANALYSIS`. -/
def minTxsForAnalysis : Nat := 3

/-- One call of `process_contract` and what it meets on its way. -/
structure Refit where
  target : String
  targetType : String
  /-- `max_txs`, with zero for none. -/
  maxTxs : Nat
  fetched : TargetMeta
  /-- A history source answers for a host-backed target. -/
  backfills : Bool
  /-- The source is not host-backed and `reprocess` is off. -/
  downloads : Bool
  historyOutstanding : Bool
  /-- The transactions that the feature matrix is built from. -/
  txCount : Nat
  fitCoverage : Rat
  /-- The time at which the fit is saved. -/
  now : Nat
deriving DecidableEq, Repr

/-- The parts of the pipeline up to the save of its fit. -/
inductive Stage where
  | label
  | processing
  | history
  | download
  | features
  | tooFew
  | done
  | clustering
  | shapeAnomaly
  | graphAnomaly
  | fit
deriving DecidableEq, Repr

/-- A part that may raise, with the dictionary it saves. -/
structure Statement where
  stage : Stage
  saved : Option ContractDict
deriving DecidableEq, Repr

section
variable (refit : Refit)

/-- The dictionary before anything has been looked up. -/
def initialContract : ContractDict where
  target := refit.target
  targetType := refit.targetType
  label := none
  present := none
  isScript := none
  scriptType := none
  balanceLovelace := none
  assetCount := none
  sampleTokens := none
  txCount := none
  status := some .pending
  requestedMaxTxs := some refit.maxTxs
  targetTxs := some refit.maxTxs
  driftScore := none
  fitCoverage := none
  lastFitAt := none

/-- `max_txs or` the stored column. -/
def depth (stored : Option Nat) : Nat := if refit.maxTxs = 0 then stored.getD 0 else refit.maxTxs

variable (existing : Option ContractRow)

/-- The dictionary that is saved once the metadata has been fetched. -/
def processingContract : ContractDict :=
  let preset := (existing.map ContractRow.label).getD ""
  { initialContract refit with
    label := some (if preset = "" then refit.fetched.registryLabel else preset)
    present := some refit.fetched.present
    isScript := some refit.fetched.isScript
    scriptType := some refit.fetched.scriptType
    balanceLovelace := some refit.fetched.balanceLovelace
    assetCount := some refit.fetched.assetCount
    sampleTokens := some refit.fetched.sampleTokens
    status := some .processing
    requestedMaxTxs := some (depth refit (existing.map ContractRow.requestedMaxTxs))
    targetTxs := some (depth refit (existing.map ContractRow.targetTxs)) }

/-- The dictionary of a contract with too few transactions. -/
def tooFewContract : ContractDict :=
  { processingContract refit existing with
    status := some (if refit.historyOutstanding then .pending else .done)
    txCount := some refit.txCount }

/-- The dictionary of the new fit. -/
def fitContract : ContractDict :=
  { processingContract refit existing with
    status := some .done
    txCount := some refit.txCount
    fitCoverage := some refit.fitCoverage
    lastFitAt := some refit.now }

/-- `process_contract` behind its lookup of the row, up to the save of its fit. -/
def beforeFit : List Statement :=
  [⟨.label, none⟩, ⟨.processing, some (processingContract refit existing)⟩] ++
    (if refit.backfills then [⟨.history, none⟩] else []) ++ (if refit.downloads then [⟨.download, none⟩] else []) ++
      [⟨.features, none⟩] ++
    (if refit.txCount < minTxsForAnalysis then [⟨.tooFew, some (tooFewContract refit existing)⟩, ⟨.done, none⟩]
      else [⟨.clustering, none⟩, ⟨.shapeAnomaly, none⟩, ⟨.graphAnomaly, none⟩])

/-- The same with the save of the fit. -/
def statements : List Statement :=
  beforeFit refit existing ++
    if refit.txCount < minTxsForAnalysis then [] else [⟨.fit, some (fitContract refit existing)⟩]

end

/-- The stored row and the dictionary when the statement at a position raises; the raising
statement may have taken effect. -/
def raiseAt (stored : Option ContractRow) (contract : ContractDict) :
    List Statement → Nat → Outcome → Option ContractRow × ContractDict
  | [], _, _ => (stored, contract)
  | statement :: _, 0, outcome =>
      let contract := statement.saved.getD contract
      (if statement.saved.isSome && outcome.applies then some (saveContract contract) else stored, contract)
  | statement :: rest, position + 1, outcome =>
      let contract := statement.saved.getD contract
      raiseAt (if statement.saved.isSome then some (saveContract contract) else stored) contract rest position outcome

/-- The failure path: what is stored, or else the dictionary, is saved as failed. -/
def failurePath (stored : Option ContractRow) (contract : ContractDict) (getContract save : Outcome) :
    Option ContractRow :=
  let existing := if getContract.returns then stored else none
  let failed := { (existing.map ContractRow.toDict).getD contract with status := some .failed }
  if save.applies then some (saveContract failed) else stored

/-- A failure: the position and outcome of the statement that raises, and the outcomes of the two
statements of the failure path. -/
structure Failure where
  position : Nat
  raised : Outcome
  getContract : Outcome
  save : Outcome
deriving DecidableEq, Repr

/-- The row that a failed `process_contract` leaves behind. -/
def leftBehind (refit : Refit) (existing : Option ContractRow) (failure : Failure) : Option ContractRow :=
  let reached := raiseAt existing (initialContract refit) (statements refit existing) failure.position failure.raised
  failurePath reached.1 reached.2 failure.getContract failure.save

/-- A statement raises before the new fit is saved. -/
def Failure.BeforeFit (failure : Failure) (refit : Refit) (existing : Option ContractRow) : Prop :=
  failure.raised ≠ .answered ∧
    (failure.position < (beforeFit refit existing).length ∨
      failure.position = (beforeFit refit existing).length ∧ ¬ refit.txCount < minTxsForAnalysis ∧
        failure.raised = .lost)

/-- Every column but the status and the fetched metadata is as it was. -/
def KeepsFit (prior left : ContractRow) : Prop :=
  { left with
    status := prior.status, label := prior.label, present := prior.present, isScript := prior.isScript,
    scriptType := prior.scriptType, balanceLovelace := prior.balanceLovelace, assetCount := prior.assetCount,
    sampleTokens := prior.sampleTokens } = prior

/-- The new fit says what the prior row says. -/
structure SameFit (refit : Refit) (prior : ContractRow) : Prop where
  target : refit.target = prior.target
  targetType : refit.targetType = prior.targetType
  requestedMaxTxs : depth refit (some prior.requestedMaxTxs) = prior.requestedMaxTxs
  targetTxs : depth refit (some prior.targetTxs) = prior.targetTxs
  txCount : refit.txCount = prior.txCount
  driftScore : prior.driftScore = 0
  fitCoverage : refit.fitCoverage = prior.fitCoverage
  lastFitAt : refit.now = prior.lastFitAt

/-- Nothing has been saved when the pipeline raises, and the failure path works from the stored
row or saves nothing; or the new fit, saved by the failure path only, is the prior one again. -/
def Failure.Spares (failure : Failure) (refit : Refit) (prior : ContractRow) : Prop :=
  (failure.position = 0 ∨ failure.position = 1 ∧ failure.raised = .lost) ∧
      (failure.getContract.returns = true ∨ failure.save.applies = false) ∨
    failure.position = (beforeFit refit (some prior)).length ∧ failure.getContract.returns = false ∧
      failure.save.applies = true ∧ SameFit refit prior

@[simp] theorem saveContract_toDict (row : ContractRow) : saveContract row.toDict = row := rfl

/-! ## What the failure path makes of a row -/

/-- The row a failure leaves keeps the fit of the prior one. -/
def Spared (prior : ContractRow) (left : Option ContractRow) : Prop := ∃ row, left = some row ∧ KeepsFit prior row

theorem KeepsFit.lastFitAt_eq {prior left : ContractRow} (kept : KeepsFit prior left) :
    left.lastFitAt = prior.lastFitAt := by
  have columns := congrArg ContractRow.lastFitAt kept
  exact columns

section
variable {prior : ContractRow} {contract : ContractDict} {getContract save : Outcome}

theorem not_spared_of_unfitted (fitted : prior.lastFitAt ≠ 0) {left : Option ContractRow}
    (unfitted : ∀ row, left = some row → row.lastFitAt = 0) : ¬ Spared prior left := by
  rintro ⟨row, found, kept⟩
  exact fitted (kept.lastFitAt_eq ▸ unfitted row found)

/-- Nothing has been saved: the stored row, marked failed, is what it was. -/
theorem failurePath_prior (fitted : prior.lastFitAt ≠ 0) (unfitted : contract.lastFitAt = none) :
    Spared prior (failurePath (some prior) contract getContract save) ↔
      getContract.returns = true ∨ save.applies = false := by
  cases read : getContract.returns with
  | true =>
    refine iff_of_true ?_ (Or.inl rfl)
    cases applied : save.applies with
    | true => exact ⟨{ prior with status := .failed }, by simp [failurePath, read, applied]; rfl, rfl⟩
    | false => exact ⟨prior, by simp [failurePath, applied], rfl⟩
  | false =>
    cases applied : save.applies with
    | true =>
      refine iff_of_false (not_spared_of_unfitted fitted ?_) (by simp)
      rintro row found
      obtain rfl : saveContract { contract with status := some .failed } = row := by
        simpa [failurePath, read, applied] using found
      simp [saveContract, unfitted]
    | false => exact iff_of_true ⟨prior, by simp [failurePath, applied], rfl⟩ (Or.inr rfl)

/-- A row without a fit has been saved, and no other is at hand. -/
theorem failurePath_unfitted {stored : Option ContractRow} (without : ∀ row, stored = some row → row.lastFitAt = 0)
    (unfitted : contract.lastFitAt = none) :
    ∀ row, failurePath stored contract getContract save = some row → row.lastFitAt = 0 := by
  intro row found
  cases applied : save.applies with
  | false => exact without row (by simpa [failurePath, applied] using found)
  | true =>
    cases chosen : (if getContract.returns then stored else none) with
    | none =>
      obtain rfl : saveContract { contract with status := some .failed } = row := by
        simpa [failurePath, applied, chosen] using found
      simp [saveContract, unfitted]
    | some old =>
      obtain rfl : saveContract { old.toDict with status := some .failed } = row := by
        simpa [failurePath, applied, chosen] using found
      have same : stored = some old := by
        by_cases read : getContract.returns = true
        · simpa [read] using chosen
        · simp [read] at chosen
      simpa [saveContract, ContractRow.toDict] using without old same

end

/-! ## What has been saved when a statement raises -/

/-- None of the dictionaries records a fit. -/
def Unfitted (list : List Statement) : Prop :=
  ∀ statement ∈ list, ∀ contract, statement.saved = some contract → contract.lastFitAt = none

private theorem Unfitted.head {statement : Statement} {rest : List Statement} (unfitted : Unfitted (statement :: rest))
    {contract : ContractDict} (silent : contract.lastFitAt = none) :
    (statement.saved.getD contract).lastFitAt = none := by
  cases saved : statement.saved with
  | none => exact silent
  | some new => exact unfitted statement List.mem_cons_self new saved

/-- What is stored behind a statement has no fit either. -/
private theorem Unfitted.stored {statement : Statement} {rest : List Statement}
    (unfitted : Unfitted (statement :: rest)) {contract : ContractDict} (silent : contract.lastFitAt = none)
    {stored : Option ContractRow} (without : ∀ row, stored = some row → row.lastFitAt = 0) (applies : Bool) :
    ∀ row, (if applies then some (saveContract (statement.saved.getD contract)) else stored) = some row →
      row.lastFitAt = 0 := by
  intro row found
  cases applies with
  | false => exact without row found
  | true =>
    obtain rfl := Option.some.inj found
    simp [saveContract, unfitted.head silent]

theorem raiseAt_unfitted {list : List Statement} (unfitted : Unfitted list) {stored : Option ContractRow}
    {contract : ContractDict} (without : ∀ row, stored = some row → row.lastFitAt = 0)
    (silent : contract.lastFitAt = none) (position : Nat) (outcome : Outcome) :
    (∀ row, (raiseAt stored contract list position outcome).1 = some row → row.lastFitAt = 0) ∧
      (raiseAt stored contract list position outcome).2.lastFitAt = none := by
  induction list generalizing stored contract position with
  | nil => exact ⟨without, silent⟩
  | cons statement rest ih =>
    have later : Unfitted rest := fun other member => unfitted other (.tail _ member)
    cases position with
    | zero => exact ⟨unfitted.stored silent without _, unfitted.head silent⟩
    | succ position => exact ih later (unfitted.stored silent without _) (unfitted.head silent) position

theorem raiseAt_append_of_lt {list rest : List Statement} {position : Nat} (inside : position < list.length)
    (stored : Option ContractRow) (contract : ContractDict) (outcome : Outcome) :
    raiseAt stored contract (list ++ rest) position outcome = raiseAt stored contract list position outcome := by
  induction list generalizing stored contract position with
  | nil => cases inside
  | cons statement others ih =>
    cases position with
    | zero => rfl
    | succ position => exact ih (Nat.lt_of_succ_lt_succ inside) _ _

/-- The save of the fit raises without effect: only the dictionary has the fit. -/
theorem raiseAt_append_lost {list : List Statement} (unfitted : Unfitted list) {stored : Option ContractRow}
    {contract : ContractDict} (without : ∀ row, stored = some row → row.lastFitAt = 0)
    (silent : contract.lastFitAt = none) (fit : ContractDict) :
    (∀ row, (raiseAt stored contract (list ++ [⟨.fit, some fit⟩]) list.length .lost).1 = some row →
      row.lastFitAt = 0) ∧ (raiseAt stored contract (list ++ [⟨.fit, some fit⟩]) list.length .lost).2 = fit := by
  induction list generalizing stored contract with
  | nil => exact ⟨without, rfl⟩
  | cons statement rest ih =>
    have later : Unfitted rest := fun other member => unfitted other (.tail _ member)
    exact ih later (unfitted.stored silent without _) (unfitted.head silent)

/-- The statements behind the first save. -/
def afterProcessing (refit : Refit) (existing : Option ContractRow) : List Statement :=
  (beforeFit refit existing).drop 2

theorem beforeFit_eq (refit : Refit) (existing : Option ContractRow) :
    beforeFit refit existing =
      ⟨.label, none⟩ :: ⟨.processing, some (processingContract refit existing)⟩ :: afterProcessing refit existing := by
  simp [afterProcessing, beforeFit]

theorem unfitted_afterProcessing (refit : Refit) (existing : Option ContractRow) :
    Unfitted (afterProcessing refit existing) := by
  intro statement member contract saved
  have listed : statement = ⟨.tooFew, some (tooFewContract refit existing)⟩ ∨ statement.saved = none := by
    simp only [afterProcessing, beforeFit, List.append_assoc, List.cons_append, List.nil_append, List.drop_succ_cons,
      List.drop_zero, List.mem_append, List.mem_cons] at member
    rcases member with history | download | rfl | finish
    · by_cases asked : refit.backfills = true
      · simp only [if_pos asked, List.mem_singleton] at history
        exact Or.inr (by rw [history])
      · simp [asked] at history
    · by_cases asked : refit.downloads = true
      · simp only [if_pos asked, List.mem_singleton] at download
        exact Or.inr (by rw [download])
      · simp [asked] at download
    · exact Or.inr rfl
    · by_cases few : refit.txCount < minTxsForAnalysis
      · rw [if_pos few] at finish
        rcases List.mem_cons.mp finish with first | second
        · exact Or.inl first
        · exact Or.inr (by rw [List.mem_singleton.mp second])
      · rw [if_neg few] at finish
        refine Or.inr ?_
        simp only [List.mem_cons, List.not_mem_nil, or_false] at finish
        rcases finish with rfl | rfl | rfl <;> rfl
  rcases listed with rfl | none
  · obtain rfl := Option.some.inj saved
    rfl
  · rw [none] at saved
    cases saved

theorem raiseAt_isSome {list : List Statement} {stored : Option ContractRow} (present : stored.isSome)
    (contract : ContractDict) (position : Nat) (outcome : Outcome) :
    (raiseAt stored contract list position outcome).1.isSome := by
  induction list generalizing stored contract position with
  | nil => exact present
  | cons statement rest ih =>
    cases position with
    | zero =>
      simp only [raiseAt]
      split
      · rfl
      · exact present
    | succ position =>
      refine ih ?_ _ position
      split
      · rfl
      · exact present

theorem keepsFit_fitContract_iff (refit : Refit) (prior : ContractRow) :
    KeepsFit prior (saveContract { fitContract refit (some prior) with status := some .failed }) ↔
      SameFit refit prior := by
  constructor
  · intro kept
    exact ⟨congrArg ContractRow.target kept, congrArg ContractRow.targetType kept,
      congrArg ContractRow.requestedMaxTxs kept, congrArg ContractRow.targetTxs kept,
      congrArg ContractRow.txCount kept, (congrArg ContractRow.driftScore kept).symm,
      congrArg ContractRow.fitCoverage kept, congrArg ContractRow.lastFitAt kept⟩
  · rintro ⟨target, targetType, requestedMaxTxs, targetTxs, txCount, driftScore, fitCoverage, lastFitAt⟩
    simp [KeepsFit, saveContract, fitContract, processingContract, initialContract, target, targetType,
      requestedMaxTxs, targetTxs, txCount, driftScore.symm, fitCoverage, lastFitAt]

/-- The new fit was lost with its save; the failure path saves it if it does not find the row. -/
theorem failurePath_fit {prior : ContractRow} (fitted : prior.lastFitAt ≠ 0) {refit : Refit}
    {stored : Option ContractRow} (without : ∀ row, stored = some row → row.lastFitAt = 0)
    (present : stored.isSome) {getContract save : Outcome} :
    Spared prior (failurePath stored (fitContract refit (some prior)) getContract save) ↔
      getContract.returns = false ∧ save.applies = true ∧ SameFit refit prior := by
  obtain ⟨row, rfl⟩ := Option.isSome_iff_exists.mp present
  have unfitted : row.lastFitAt = 0 := without row rfl
  cases applied : save.applies with
  | false =>
    refine iff_of_false (not_spared_of_unfitted fitted ?_) (by simp)
    intro other found
    exact without other (by simpa [failurePath, applied] using found)
  | true =>
    cases read : getContract.returns with
    | true =>
      refine iff_of_false (not_spared_of_unfitted fitted ?_) (by simp)
      intro other found
      obtain rfl : saveContract { row.toDict with status := some .failed } = other := by
        simpa [failurePath, read, applied] using found
      exact unfitted
    | false =>
      have left : failurePath (some row) (fitContract refit (some prior)) getContract save =
          some (saveContract { fitContract refit (some prior) with status := some .failed }) := by
        simp [failurePath, read, applied]
      rw [← keepsFit_fitContract_iff, Spared, left]
      simp

/-! ## The whole pipeline -/

section
variable (refit : Refit) {prior : ContractRow} {failure : Failure}

theorem two_lt_length_beforeFit (existing : Option ContractRow) : 2 < (beforeFit refit existing).length := by
  simp only [beforeFit, List.length_append, List.length_cons, List.length_nil]
  omega

/-- The label raises, or the first save does so without effect. -/
private theorem spared_at_start (fitted : prior.lastFitAt ≠ 0)
    (start : failure.position = 0 ∨ failure.position = 1 ∧ failure.raised = .lost) :
    Spared prior (leftBehind refit (some prior) failure) ↔
      failure.getContract.returns = true ∨ failure.save.applies = false := by
  obtain ⟨position, raised, getContract, save⟩ := failure
  rcases start with rfl | ⟨rfl, rfl⟩
  · rw [leftBehind, statements, beforeFit_eq]
    exact failurePath_prior fitted rfl
  · rw [leftBehind, statements, beforeFit_eq]
    exact failurePath_prior fitted rfl

private theorem processing_without_fit (existing : Option ContractRow) :
    ∀ row, some (saveContract (processingContract refit existing)) = some row → row.lastFitAt = 0 := by
  rintro row found
  obtain rfl := Option.some.inj found
  rfl

private theorem raiseAt_processing (existing : Option ContractRow) (rest : List Statement) (further : Nat)
    (outcome : Outcome) :
    raiseAt existing (initialContract refit)
        (⟨.label, none⟩ :: ⟨.processing, some (processingContract refit existing)⟩ :: rest) (further + 2) outcome =
      raiseAt (some (saveContract (processingContract refit existing))) (processingContract refit existing) rest
        further outcome :=
  rfl

/-- The first save has taken effect and the fit has not been reached. -/
private theorem not_spared_between (fitted : prior.lastFitAt ≠ 0)
    (later : 1 < failure.position ∨ failure.position = 1 ∧ failure.raised = .late)
    (inside : failure.position < (beforeFit refit (some prior)).length) :
    ¬ Spared prior (leftBehind refit (some prior) failure) := by
  obtain ⟨position, raised, getContract, save⟩ := failure
  have silent : (processingContract refit (some prior)).lastFitAt = none := rfl
  refine not_spared_of_unfitted fitted ?_
  -- the row saved as `processing` is stored
  rw [leftBehind, statements, raiseAt_append_of_lt inside, beforeFit_eq]
  rcases later with beyond | ⟨rfl, rfl⟩
  · obtain ⟨further, rfl⟩ : ∃ further, position = further + 2 := Nat.exists_eq_add_of_le' beyond
    have reached := raiseAt_unfitted (unfitted_afterProcessing refit (some prior))
      (processing_without_fit refit (some prior)) silent further raised
    exact failurePath_unfitted reached.1 reached.2
  · exact failurePath_unfitted (processing_without_fit refit (some prior)) silent

/-- The save of the fit raises without effect. -/
private theorem spared_at_fit (fitted : prior.lastFitAt ≠ 0) (many : ¬ refit.txCount < minTxsForAnalysis)
    (atFit : failure.position = (beforeFit refit (some prior)).length) (lost : failure.raised = .lost) :
    Spared prior (leftBehind refit (some prior) failure) ↔
      failure.getContract.returns = false ∧ failure.save.applies = true ∧ SameFit refit prior := by
  obtain ⟨position, raised, getContract, save⟩ := failure
  obtain rfl : position = (beforeFit refit (some prior)).length := atFit
  obtain rfl : raised = .lost := lost
  have silent : (processingContract refit (some prior)).lastFitAt = none := rfl
  have reached := raiseAt_append_lost (unfitted_afterProcessing refit (some prior))
    (processing_without_fit refit (some prior)) silent (fitContract refit (some prior))
  have present := @raiseAt_isSome
    (afterProcessing refit (some prior) ++ [⟨.fit, some (fitContract refit (some prior))⟩])
    (some (saveContract (processingContract refit (some prior)))) rfl (processingContract refit (some prior))
    (afterProcessing refit (some prior)).length .lost
  simp only [leftBehind, statements, if_neg many, beforeFit_eq, List.cons_append, List.length_cons,
    raiseAt_processing, reached.2]
  exact failurePath_fit fitted reached.1 present

/-- **Exactly when a failed re-fit keeps the prior fit.**  The row that is saved as `processing`
has no fit, and that row is what the failure path finds. -/
theorem failed_refit_keeps_fit_iff (fitted : prior.lastFitAt ≠ 0) (before : failure.BeforeFit refit (some prior)) :
    Spared prior (leftBehind refit (some prior) failure) ↔ failure.Spares refit prior := by
  have long := two_lt_length_beforeFit refit (some prior)
  obtain ⟨raises, inside | ⟨atFit, many, lost⟩⟩ := before
  · have apart : failure.position ≠ (beforeFit refit (some prior)).length := Nat.ne_of_lt inside
    by_cases start : failure.position = 0 ∨ failure.position = 1 ∧ failure.raised = .lost
    · simp [spared_at_start refit fitted start, Failure.Spares, start, apart]
    · have later : 1 < failure.position ∨ failure.position = 1 ∧ failure.raised = .late := by
        rcases Nat.lt_trichotomy failure.position 1 with zero | one | beyond
        · exact absurd (Or.inl (by omega)) start
        · refine Or.inr ⟨one, ?_⟩
          cases outcome : failure.raised with
          | answered => exact absurd outcome raises
          | lost => exact absurd (Or.inr ⟨one, outcome⟩) start
          | late => rfl
        · exact Or.inl beyond
      exact iff_of_false (not_spared_between refit fitted later inside) (by simp [Failure.Spares, start, apart])
  · rw [spared_at_fit refit fitted many atFit lost]
    constructor
    · intro lostWithIt
      exact Or.inr ⟨atFit, lostWithIt⟩
    · rintro (⟨start, _⟩ | ⟨_, lostWithIt⟩)
      · omega
      · exact lostWithIt

end

private def storedFit : ContractRow :=
  ⟨"addr1", "address", "dex", true, true, "", 0, 0, "[]", 500, .done, 0, 0, 1 / 10, 3 / 4, 1000⟩

/-- A re-fit by the feed: no depth of its own, nothing to download. -/
private def feedRefit : Refit :=
  ⟨"addr1", "address", 0, ⟨true, true, "", 0, 0, "[]", ""⟩, false, false, false, 510, 4 / 5, 5000⟩

theorem label_failure_keeps_fit :
    Spared storedFit (leftBehind feedRefit (some storedFit) ⟨0, .lost, .answered, .answered⟩) :=
  (failed_refit_keeps_fit_iff feedRefit (by decide) ⟨by decide, Or.inl (by decide)⟩).mpr
    (Or.inl ⟨Or.inl rfl, Or.inl rfl⟩)

/-- The read of the feature matrix fails. -/
theorem feature_failure_drops_fit :
    leftBehind feedRefit (some storedFit) ⟨2, .lost, .answered, .answered⟩ =
        some ⟨"addr1", "address", "dex", true, true, "", 0, 0, "[]", 0, .failed, 0, 0, 0, -1, 0⟩ ∧
      ¬ Spared storedFit (leftBehind feedRefit (some storedFit) ⟨2, .lost, .answered, .answered⟩) := by
  have left : leftBehind feedRefit (some storedFit) ⟨2, .lost, .answered, .answered⟩ =
      some ⟨"addr1", "address", "dex", true, true, "", 0, 0, "[]", 0, .failed, 0, 0, 0, -1, 0⟩ := by decide
  refine ⟨left, ?_⟩
  rintro ⟨row, found, kept⟩
  rw [left] at found
  obtain rfl := Option.some.inj found
  exact absurd kept.lastFitAt_eq (by decide)

end TransactionMonitoring.RefitFailure
