import Mathlib.Algebra.BigOperators.Group.List.Basic
import Mathlib.Algebra.Order.BigOperators.Group.List
import Mathlib.Data.List.MinMax
import Mathlib.Tactic.FieldSimp
import Mathlib.Tactic.Linarith
import TransactionMonitoring.AnomalyOverlay

/-! The statistics of the dashboard and their correction by the sidecar's verdicts.

The database aggregates stored rows.  The API then moves each flagged transaction from its
stored band to its effective one and raises the mean by what the verdicts add, instead of
aggregating the merged rows anew.
-/
namespace TransactionMonitoring.AnomalyStats
open Alerts Verdicts
open AnomalyOverlay (bandRank)

/-- A row of `tx_class_scores` with its nine class columns; -1 stands for not applicable. -/
structure ClassRow extends ScoreRow where
  column : AttackClass → ℚ

/-- What one request sees. -/
structure StatsStore where
  scores : List ClassRow
  verdicts : List VerdictRow
  keyed : (scores.map fun row => row.txHash).Nodup

def StatsStore.toStore (store : StatsStore) : Store where
  scores := store.scores.map ClassRow.toScoreRow
  verdicts := store.verdicts
  keyed := by simpa [List.map_map, Function.comp_def] using store.keyed

/-- What the aggregate reads of a row, stored or merged. -/
structure Scored where
  maxScore : ℚ
  riskBand : RiskBand
  analyzedAt : Int
  column : AttackClass → ℚ

def stored (row : ClassRow) : Scored := ⟨row.maxScore, row.riskBand.parse, row.analyzedAt, row.column⟩

/-- The row with all its verdicts folded in; the merge writes none of the nine columns. -/
def merged (settings : Settings) (verdicts : List VerdictRow) (row : ClassRow) : Scored :=
  let result := mergeContractAnomaly settings (verdictsOf verdicts row.txHash) (rowToClassScore row.toScoreRow)
  ⟨result.maxScore, result.riskBand, result.analyzedAt, row.column⟩

structure PerClassStats where
  scoredCount : Nat
  avgScore : Option ℚ
  maxScore : ℚ
deriving DecidableEq

@[ext] structure Stats where
  total : Nat
  /-- `critical_count`, `high_count`, `moderate_count` and `informational_count`. -/
  bandCount : RiskBand → Nat
  avgMaxScore : Option ℚ
  findingCount : Nat
  lastAnalyzedAt : Int
  perClass : List (AttackClass × PerClassStats)

/-- `_CLASS_COLS`. -/
def classCols : List AttackClass :=
  [.tokenDust, .largeValue, .largeDatum, .multipleSat, .frontRunning, .sandwich, .circular, .fakeToken, .phishing]

/-- `FINDING_MIN_SCORE`. -/
def findingMinScore : ℚ := 1

/-- `avgIf`, no number where nothing is averaged. -/
def average (values : List ℚ) : Option ℚ :=
  if values = [] then none else some (values.sum / values.length)

/-- The scores of the findings. -/
def findings (rows : List Scored) : List ℚ := (rows.map Scored.maxScore).filter (findingMinScore ≤ ·)

def perClassStats (rows : List Scored) (attackClass : AttackClass) : PerClassStats :=
  let scores := (rows.map fun row => row.column attackClass).filter (0 ≤ ·)
  ⟨scores.length, average scores, scores.foldl max 0⟩

/-- The aggregate of `get_class_scores_stats`, over any rows. -/
def aggregate (rows : List Scored) : Stats where
  total := rows.length
  bandCount band := rows.countP (·.riskBand = band)
  avgMaxScore := average (findings rows)
  findingCount := (findings rows).length
  lastAnalyzedAt := (rows.map Scored.analyzedAt).foldl max 0
  perClass := classCols.map fun attackClass => (attackClass, perClassStats rows attackClass)

/-- `get_class_scores_stats`. -/
def getClassScoresStats (store : StatsStore) : Stats := aggregate (store.scores.map stored)

/-- The statistics over the merged rows. -/
def recomputed (settings : Settings) (store : StatsStore) : Stats :=
  aggregate (store.scores.map (merged settings store.verdicts))

/-- A value of `_flagged_effective`. -/
structure FlaggedEffective where
  storedBand : RiskBand
  storedScore : ℚ
  anomalyBand : RiskBand
  anomalyScore : ℚ
deriving DecidableEq

/-- `_flagged_effective`: the flagged transactions that have a stored row. -/
def flaggedEffective (settings : Settings) (store : StatsStore) : List FlaggedEffective :=
  let flagged := flaggedForNetwork settings store.toStore
  let hashes := (flagged.map VerdictRow.txHash).dedup
  let storedRows := getClassScoresByHashes store.toStore hashes
  hashes.filterMap fun txHash =>
    (storedRows.find? (·.txHash = txHash)).bind fun row =>
      (resolve settings (verdictsOf flagged txHash)).map fun resolved =>
        ⟨row.riskBand.parse, row.maxScore, scoreToBand resolved.score, resolved.score⟩

/-- What the loop over the flagged transactions keeps. -/
structure Tally where
  counts : RiskBand → Nat
  deltaSum : ℚ
  enteringSum : ℚ
  enteringCount : Nat

/-- The effective band outranks the stored one. -/
def FlaggedEffective.moves (tx : FlaggedEffective) : Bool := bandRank tx.storedBand < bandRank tx.anomalyBand

/-- One transaction fewer in a band, and never below zero, one more in another. -/
def moveBand (counts : RiskBand → Nat) (source target : RiskBand) : RiskBand → Nat :=
  let left := Function.update counts source (counts source - 1)
  Function.update left target (left target + 1)

/-- One pass of the loop. -/
def tallyOne (tally : Tally) (tx : FlaggedEffective) : Tally :=
  let moved := if tx.moves then { tally with counts := moveBand tally.counts tx.storedBand tx.anomalyBand } else tally
  if tx.anomalyScore ≤ tx.storedScore then moved
  else if findingMinScore ≤ tx.storedScore then
    { moved with deltaSum := moved.deltaSum + (tx.anomalyScore - tx.storedScore) }
  else if findingMinScore ≤ tx.anomalyScore then
    { moved with
      enteringSum := moved.enteringSum + tx.anomalyScore
      enteringCount := moved.enteringCount + 1 }
  else moved

/-- `_augment_stats_with_contract_anomaly`. -/
def augmentStats (settings : Settings) (store : StatsStore) (stats : Stats) : Stats :=
  let tally := (flaggedEffective settings store).foldl tallyOne ⟨stats.bandCount, 0, 0, 0⟩
  let counted := { stats with bandCount := tally.counts }
  let denominator := stats.findingCount + tally.enteringCount
  if (tally.deltaSum ≠ 0 ∨ tally.enteringCount ≠ 0) ∧ 0 < denominator then
    let base := (stats.avgMaxScore.map fun (average : ℚ) => average * stats.findingCount).getD 0
    { counted with
      avgMaxScore := some ((base + tally.deltaSum + tally.enteringSum) / denominator)
      findingCount := denominator }
  else counted

/-! ## Sums over rows -/

section Sums
variable {α β M : Type} [AddCommMonoid M]

/-- A sum over what a list is filtered and mapped to, as one over the list. -/
theorem sum_map_filterMap (view : α → Option β) (value : β → M) (rows : List α) :
    ((rows.filterMap view).map value).sum = (rows.map fun row => ((view row).map value).getD 0).sum := by
  induction rows with
  | nil => rfl
  | cons row rest ih =>
    cases seen : view row with
    | none => simp [seen, ih]
    | some found => simp [seen, ih]

/-- Where the summands balance row by row, so do the sums. -/
theorem sum_map_add_eq {f g h k : α → M} {rows : List α} (balance : ∀ row ∈ rows, f row + g row = h row + k row) :
    (rows.map f).sum + (rows.map g).sum = (rows.map h).sum + (rows.map k).sum := by
  rw [← List.sum_map_add, ← List.sum_map_add, List.map_congr_left balance]

theorem countP_eq_sum (holds : α → Bool) (rows : List α) :
    rows.countP holds = (rows.map fun row => if holds row then 1 else 0).sum := by
  induction rows with
  | nil => rfl
  | cons row rest ih =>
    by_cases met : holds row
    · simp [met, ih, Nat.add_comm]
    · simp [met, ih]

theorem sum_filter_eq_sum (holds : ℚ → Bool) (values : List ℚ) :
    (values.filter holds).sum = (values.map fun value => if holds value then value else 0).sum := by
  induction values with
  | nil => rfl
  | cons value rest ih =>
    by_cases met : holds value
    · simp [met, ih]
    · simp [met, ih]

end Sums

/-! ## The loop -/

/-- A transaction leaves a band. -/
def FlaggedEffective.leaves (band : RiskBand) (tx : FlaggedEffective) : Bool := tx.moves && tx.storedBand = band

/-- A transaction joins a band. -/
def FlaggedEffective.joins (band : RiskBand) (tx : FlaggedEffective) : Bool := tx.moves && tx.anomalyBand = band

/-- It becomes a finding by its verdict. -/
def FlaggedEffective.enters (tx : FlaggedEffective) : Bool :=
  tx.storedScore < findingMinScore && findingMinScore ≤ tx.anomalyScore

/-- What a finding gains by its verdict. -/
def FlaggedEffective.delta (tx : FlaggedEffective) : ℚ :=
  if tx.storedScore < tx.anomalyScore ∧ findingMinScore ≤ tx.storedScore then tx.anomalyScore - tx.storedScore
  else 0

/-- What a new finding brings. -/
def FlaggedEffective.entering (tx : FlaggedEffective) : ℚ := if tx.enters then tx.anomalyScore else 0

theorem tallyOne_counts (tally : Tally) (tx : FlaggedEffective) :
    (tallyOne tally tx).counts =
      if tx.moves then moveBand tally.counts tx.storedBand tx.anomalyBand else tally.counts := by
  by_cases moves : tx.moves = true
  · simp only [tallyOne, moves, if_true]
    split
    · rfl
    · split
      · rfl
      · split <;> rfl
  · simp only [tallyOne, moves]
    split
    · rfl
    · split
      · rfl
      · split <;> rfl

theorem tallyOne_sums (tally : Tally) (tx : FlaggedEffective) :
    (tallyOne tally tx).deltaSum = tally.deltaSum + tx.delta ∧
      (tallyOne tally tx).enteringSum = tally.enteringSum + tx.entering ∧
      (tallyOne tally tx).enteringCount = tally.enteringCount + if tx.enters then 1 else 0 := by
  let moved := if tx.moves then { tally with counts := moveBand tally.counts tx.storedBand tx.anomalyBand }
    else tally
  have same : moved.deltaSum = tally.deltaSum ∧ moved.enteringSum = tally.enteringSum ∧
      moved.enteringCount = tally.enteringCount := by
    by_cases moves : tx.moves = true
    · simp [moved, moves]
    · simp [moved, moves]
  rw [← same.1, ← same.2.1, ← same.2.2]
  by_cases lower : tx.anomalyScore ≤ tx.storedScore
  · have unchanged : tallyOne tally tx = moved := if_pos lower
    have notEntering : tx.enters = false := by
      simp only [FlaggedEffective.enters, Bool.and_eq_false_iff, decide_eq_false_iff_not, not_lt, not_le]
      by_cases below : tx.storedScore < findingMinScore
      · exact Or.inr (lower.trans_lt below)
      · exact Or.inl (not_lt.mp below)
    simp [unchanged, FlaggedEffective.delta, FlaggedEffective.entering, notEntering, not_lt.mpr lower]
  · have higher := not_le.mp lower
    by_cases finding : findingMinScore ≤ tx.storedScore
    · have raised : tallyOne tally tx =
          { moved with deltaSum := moved.deltaSum + (tx.anomalyScore - tx.storedScore) } := by
        simp only [tallyOne, if_neg lower, if_pos finding]
        rfl
      have notEntering : tx.enters = false := by simp [FlaggedEffective.enters, finding]
      simp [raised, FlaggedEffective.delta, FlaggedEffective.entering, notEntering, higher, finding]
    · by_cases enters : findingMinScore ≤ tx.anomalyScore
      · have added : tallyOne tally tx = { moved with
            enteringSum := moved.enteringSum + tx.anomalyScore
            enteringCount := moved.enteringCount + 1 } := by
          simp only [tallyOne, if_neg lower, if_neg finding, if_pos enters]
          rfl
        have entering : tx.enters = true := by simp [FlaggedEffective.enters, not_le.mp finding, enters]
        simp [added, FlaggedEffective.delta, FlaggedEffective.entering, entering, finding]
      · have unchanged : tallyOne tally tx = moved := by
          simp only [tallyOne, if_neg lower, if_neg finding, if_neg enters]
          rfl
        have notEntering : tx.enters = false := by simp [FlaggedEffective.enters, enters]
        simp [unchanged, FlaggedEffective.delta, FlaggedEffective.entering, notEntering, finding]

/-- A move changes the band. -/
theorem FlaggedEffective.bands_ne {tx : FlaggedEffective} (moves : tx.moves = true) :
    tx.storedBand ≠ tx.anomalyBand := by
  intro same
  simp [FlaggedEffective.moves, same] at moves

/-- One transaction's move, where the band it leaves still counts it. -/
theorem moveBand_balance {counts : RiskBand → Nat} {tx : FlaggedEffective}
    (counted : tx.moves = true → 0 < counts tx.storedBand) (band : RiskBand) :
    (if tx.moves then moveBand counts tx.storedBand tx.anomalyBand else counts) band +
        (if tx.leaves band then 1 else 0) =
      counts band + if tx.joins band then 1 else 0 := by
  by_cases moves : tx.moves = true
  · have positive := counted moves
    have apart := FlaggedEffective.bands_ne moves
    simp only [moves, if_true, FlaggedEffective.leaves, FlaggedEffective.joins, Bool.true_and, moveBand]
    by_cases source : tx.storedBand = band
    · subst source
      simp [Function.update, apart, apart.symm]
      omega
    · by_cases target : tx.anomalyBand = band
      · subst target
        simp [Function.update, apart, apart.symm]
      · have notSource : band ≠ tx.storedBand := fun same => source same.symm
        have notTarget : band ≠ tx.anomalyBand := fun same => target same.symm
        simp [Function.update, source, target, notSource, notTarget]
  · simp [moves, FlaggedEffective.leaves, FlaggedEffective.joins]

/-- The loop, where no band is left by more transactions than it counts. -/
theorem tally_spec {txs : List FlaggedEffective} {tally : Tally}
    (counted : ∀ band, txs.countP (·.leaves band) ≤ tally.counts band) :
    (∀ band, (txs.foldl tallyOne tally).counts band + txs.countP (·.leaves band) =
        tally.counts band + txs.countP (·.joins band)) ∧
      (txs.foldl tallyOne tally).deltaSum = tally.deltaSum + (txs.map (·.delta)).sum ∧
      (txs.foldl tallyOne tally).enteringSum = tally.enteringSum + (txs.map (·.entering)).sum ∧
      (txs.foldl tallyOne tally).enteringCount = tally.enteringCount + txs.countP (·.enters) := by
  induction txs generalizing tally with
  | nil => simp
  | cons tx rest ih =>
    simp only [List.countP_cons] at counted
    have counts := tallyOne_counts tally tx
    have balance (band : RiskBand) := @moveBand_balance tally.counts tx (by
      intro moves
      have own := counted tx.storedBand
      simp only [FlaggedEffective.leaves, moves, Bool.true_and, decide_true, if_true] at own
      omega) band
    obtain ⟨deltas, sums, entered⟩ := tallyOne_sums tally tx
    obtain ⟨later, laterDelta, laterSum, laterCount⟩ := @ih (tallyOne tally tx) (by
      intro band
      have moved := balance band
      have enough := counted band
      rw [counts]
      omega)
    simp only [List.foldl_cons, List.map_cons, List.sum_cons, List.countP_cons]
    refine ⟨?_, ?_, ?_, ?_⟩
    · intro band
      have moved := balance band
      have total := later band
      rw [counts] at total
      omega
    · rw [laterDelta, deltas, add_assoc]
    · rw [laterSum, sums, add_assoc]
    · rw [laterCount, entered, add_assoc, Nat.add_comm (List.countP _ _)]

/-! ## The highest verdict -/

section Best
variable {settings : Settings} {rows : List VerdictRow}

/-- The score `resolve` ends with: its start value where nothing scores above it. -/
def bestScore (settings : Settings) (rows : List VerdictRow) : ℚ := (rows.map (rowScore settings)).foldl max (-1)

theorem foldl_max_le_iff {values : List ℚ} {start bound : ℚ} :
    values.foldl max start ≤ bound ↔ start ≤ bound ∧ ∀ value ∈ values, value ≤ bound := by
  induction values generalizing start with
  | nil => simp
  | cons value rest ih => simp [ih, and_assoc]

theorem winner_score (settings : Settings) (rows : List VerdictRow) :
    ((winner id settings rows).map (rowScore settings)).getD (-1) = bestScore settings rows ∧
      ∀ row, winner id settings rows = some row → -1 < rowScore settings row := by
  induction rows using List.reverseRecOn with
  | nil => exact ⟨rfl, fun row won => by cases won⟩
  | append_singleton rows row ih =>
    obtain ⟨best, above⟩ := ih
    rw [bestScore, List.map_append, List.foldl_append, List.map_singleton, List.foldl_cons, List.foldl_nil, ← bestScore,
      ← best, winner_concat]
    generalize winner id settings rows = first at above ⊢
    have least : -1 ≤ (first.map (rowScore settings)).getD (-1) := by
      cases first with
      | none => exact le_refl _
      | some found => exact (above found rfl).le
    split
    · rename_i higher
      refine ⟨(max_eq_right higher.le).symm, ?_⟩
      rintro found shape
      obtain rfl := Option.some.inj shape
      exact least.trans_lt higher
    · rename_i lower
      exact ⟨(max_eq_left (not_lt.mp lower)).symm, above⟩

theorem resolve_score (settings : Settings) (rows : List VerdictRow) :
    ((resolve settings rows).map Resolved.score).getD (-1) = bestScore settings rows ∧
      ∀ resolved, resolve settings rows = some resolved → -1 < resolved.score := by
  obtain ⟨best, above⟩ := winner_score settings rows
  unfold resolve
  rw [Option.map_map]
  refine ⟨best, fun resolved found => ?_⟩
  obtain ⟨row, won, rfl⟩ := Option.map_eq_some_iff.mp found
  exact above row won

/-- The best score bounds every row, and the start value. -/
theorem bestScore_le_iff {bound : ℚ} :
    bestScore settings rows ≤ bound ↔ -1 ≤ bound ∧ ∀ row ∈ rows, rowScore settings row ≤ bound := by
  rw [bestScore, foldl_max_le_iff]
  simp

theorem score_of_resolve {resolved : Resolved} (found : resolve settings rows = some resolved) :
    resolved.score = bestScore settings rows ∧ -1 < bestScore settings rows := by
  obtain ⟨best, above⟩ := resolve_score settings rows
  rw [found] at best
  have score : resolved.score = bestScore settings rows := by simpa using best
  exact ⟨score, score ▸ above resolved found⟩

theorem bestScore_of_none (nothing : resolve settings rows = none) : bestScore settings rows = -1 := by
  have best := (resolve_score settings rows).1
  rw [nothing] at best
  exact best.symm

theorem rowScore_of_unflagged {row : VerdictRow} (unflagged : row.verdict.flagged = false) :
    rowScore settings row = 0 := by
  cases shape : row.verdict with
  | malicious => simp [shape, Verdict.flagged] at unflagged
  | anomaly => simp [shape, Verdict.flagged] at unflagged
  | benign => simp [rowScore, projectScore, shape]
  | normal => simp [rowScore, projectScore, shape]

/-- Leaving out verdicts that suppress lowers the best score from zero at most. -/
theorem bestScore_flagged {flagged : List VerdictRow}
    (same : ∀ row, row ∈ flagged ↔ row ∈ rows ∧ row.verdict.flagged = true) :
    bestScore settings rows = bestScore settings flagged ∨
      bestScore settings rows = 0 ∧ bestScore settings flagged ≤ 0 := by
  have fewer : bestScore settings flagged ≤ bestScore settings rows := by
    have all := bestScore_le_iff.mp (le_refl (bestScore settings rows))
    exact bestScore_le_iff.mpr ⟨all.1, fun row member => all.2 row ((same row).mp member).1⟩
  have bound := bestScore_le_iff.mp (le_refl (bestScore settings flagged))
  by_cases positive : 0 ≤ bestScore settings flagged
  · refine Or.inl (le_antisymm (bestScore_le_iff.mpr ⟨bound.1, ?_⟩) fewer)
    intro row member
    cases shape : row.verdict.flagged with
    | true => exact bound.2 row ((same row).mpr ⟨member, shape⟩)
    | false =>
      rw [rowScore_of_unflagged shape]
      exact positive
  · have negative := not_le.mp positive
    by_cases suppressed : ∃ row ∈ rows, row.verdict.flagged = false
    · refine Or.inr ⟨?_, negative.le⟩
      obtain ⟨row, member, shape⟩ := suppressed
      apply le_antisymm
      · refine bestScore_le_iff.mpr ⟨by norm_num, ?_⟩
        intro other otherMember
        cases otherShape : other.verdict.flagged with
        | true => exact (bound.2 other ((same other).mpr ⟨otherMember, otherShape⟩)).trans negative.le
        | false => exact (rowScore_of_unflagged otherShape).le
      · rw [← @rowScore_of_unflagged settings row shape]
        exact (bestScore_le_iff.mp (le_refl _)).2 row member
    · refine Or.inl (le_antisymm (bestScore_le_iff.mpr ⟨bound.1, ?_⟩) fewer)
      intro row member
      cases shape : row.verdict.flagged with
      | true => exact bound.2 row ((same row).mpr ⟨member, shape⟩)
      | false => exact absurd ⟨row, member, shape⟩ suppressed

end Best

/-! ## One row -/

section Row
variable {settings : Settings} {row : ClassRow} {verdicts flagged : List VerdictRow}

theorem scoreToBand_mono {low high : ℚ} (le : low ≤ high) :
    bandRank (scoreToBand low) ≤ bandRank (scoreToBand high) := by
  unfold scoreToBand
  split_ifs <;> simp only [bandRank] <;> first | omega | linarith

theorem scoreToBand_of_nonpos {score : ℚ} (low : score ≤ 0) : scoreToBand score = .informational := by
  unfold scoreToBand
  rw [if_neg (by linarith), if_neg (by linarith), if_neg (by linarith)]

/-- The value `_flagged_effective` has for a row. -/
def effectiveOf (settings : Settings) (flagged : List VerdictRow) (row : ScoreRow) : Option FlaggedEffective :=
  (resolve settings (verdictsOf flagged row.txHash)).map fun resolved =>
    ⟨row.riskBand.parse, row.maxScore, scoreToBand resolved.score, resolved.score⟩

/-- A transaction whose bands are those of its scores. -/
def between (low high : ℚ) : FlaggedEffective := ⟨scoreToBand low, low, scoreToBand high, high⟩

/-- A score counts among the findings by its value. -/
def findingValue (score : ℚ) : ℚ := if findingMinScore ≤ score then score else 0

def isFinding (score : ℚ) : Bool := findingMinScore ≤ score

/-- A transaction with a row of `low` brings the aggregates from what that row contributes to what
a row of `target` would. -/
structure Brings (contribution : Option FlaggedEffective) (low target : ℚ) : Prop where
  bands : ∀ band, (if scoreToBand target = band then 1 else 0) +
      (contribution.map fun tx => if tx.leaves band then 1 else 0).getD 0 =
    (if scoreToBand low = band then 1 else 0) +
      (contribution.map fun tx => if tx.joins band then 1 else 0).getD 0
  values : findingValue target = findingValue low +
    ((contribution.map (·.delta)).getD 0 + (contribution.map (·.entering)).getD 0)
  findings : (if isFinding target then 1 else 0) =
    (if isFinding low then 1 else 0) + (contribution.map fun tx => if tx.enters then 1 else 0).getD 0

/-- Nothing is brought where the two scores count alike. -/
theorem brings_of_alike {contribution : Option FlaggedEffective} {low target : ℚ}
    (idle : ∀ tx, contribution = some tx → tx.moves = false ∧ tx.delta = 0 ∧ tx.enters = false)
    (alike : target = low ∨ target ≤ 0 ∧ low ≤ 0) : Brings contribution low target := by
  have band : scoreToBand target = scoreToBand low := by
    rcases alike with rfl | ⟨first, second⟩
    · rfl
    · rw [scoreToBand_of_nonpos first, scoreToBand_of_nonpos second]
  have value : findingValue target = findingValue low ∧ isFinding target = isFinding low := by
    rcases alike with rfl | ⟨first, second⟩
    · exact ⟨rfl, rfl⟩
    · have notTarget : ¬ findingMinScore ≤ target := by
        unfold findingMinScore
        linarith
      have notLow : ¬ findingMinScore ≤ low := by
        unfold findingMinScore
        linarith
      simp [findingValue, isFinding, notTarget, notLow]
  cases contribution with
  | none => exact ⟨by simp [band], by simp [value.1], by simp [value.2]⟩
  | some tx =>
    obtain ⟨still, delta, notEntering⟩ := idle tx rfl
    constructor
    · simp [band, FlaggedEffective.leaves, FlaggedEffective.joins, still]
    · simp [value.1, delta, FlaggedEffective.entering, notEntering]
    · simp [value.2, notEntering]

theorem between_moves_iff {low high : ℚ} :
    (between low high).moves = true ↔ bandRank (scoreToBand low) < bandRank (scoreToBand high) := by
  unfold FlaggedEffective.moves
  exact decide_eq_true_iff

theorem between_enters_iff {low high : ℚ} :
    (between low high).enters = true ↔ low < findingMinScore ∧ findingMinScore ≤ high := by
  show (decide (low < findingMinScore) && decide (findingMinScore ≤ high)) = true ↔ _
  rw [Bool.and_eq_true, decide_eq_true_iff, decide_eq_true_iff]

theorem between_leaves_iff {low high : ℚ} {band : RiskBand} :
    (between low high).leaves band = true ↔ (between low high).moves = true ∧ scoreToBand low = band := by
  unfold FlaggedEffective.leaves
  rw [Bool.and_eq_true]
  exact and_congr_right fun _ => decide_eq_true_iff

theorem between_joins_iff {low high : ℚ} {band : RiskBand} :
    (between low high).joins band = true ↔ (between low high).moves = true ∧ scoreToBand high = band := by
  unfold FlaggedEffective.joins
  rw [Bool.and_eq_true]
  exact and_congr_right fun _ => decide_eq_true_iff

/-- A verdict that scores no higher, or nothing at all, brings nothing. -/
theorem between_idle {low high : ℚ} (lower : high ≤ low ∨ high ≤ 0) :
    (between low high).moves = false ∧ (between low high).delta = 0 ∧ (between low high).enters = false := by
  refine ⟨?_, ?_, ?_⟩
  · rw [← Bool.not_eq_true, between_moves_iff, not_lt]
    rcases lower with below | nothing
    · exact scoreToBand_mono below
    · rw [scoreToBand_of_nonpos nothing]
      cases scoreToBand low <;> simp [bandRank]
  · apply if_neg
    rintro ⟨higher, finding⟩
    simp only [between, findingMinScore] at higher finding
    rcases lower with below | nothing <;> linarith
  · rw [← Bool.not_eq_true, between_enters_iff, findingMinScore]
    rintro ⟨notYet, enters⟩
    rcases lower with below | nothing <;> linarith

theorem bandRank_injective {first second : RiskBand} (same : bandRank first = bandRank second) :
    first = second := by
  cases first <;> cases second <;> first | rfl | cases same

/-- A verdict brings a row to the higher of the two scores. -/
theorem brings_max (low high : ℚ) : Brings (some (between low high)) low (max low high) := by
  rcases le_or_gt high low with lower | higher
  · rw [max_eq_left lower]
    apply brings_of_alike _ (Or.inl rfl)
    intro tx shape
    obtain rfl := Option.some.inj shape
    exact between_idle (Or.inl lower)
  · rw [max_eq_right higher.le]
    constructor
    · intro band
      simp only [Option.map_some, Option.getD_some, between_leaves_iff, between_joins_iff]
      by_cases moves : (between low high).moves = true
      · simp only [moves, true_and]
        omega
      · have same : scoreToBand low = scoreToBand high := by
          rw [between_moves_iff, not_lt] at moves
          exact bandRank_injective (le_antisymm (scoreToBand_mono higher.le) moves)
        simp [moves, same]
    · have delta : (between low high).delta =
          if low < high ∧ findingMinScore ≤ low then high - low else 0 := rfl
      have entering : (between low high).entering = if (between low high).enters then high else 0 := rfl
      simp only [Option.map_some, Option.getD_some, delta, entering, between_enters_iff, findingValue]
      by_cases finding : findingMinScore ≤ low
      · have still := finding.trans higher.le
        simp [finding, still, higher, not_lt.mpr finding]
      · by_cases enters : findingMinScore ≤ high
        · simp [finding, enters, not_le.mp finding]
        · simp [finding, enters]
    · simp only [Option.map_some, Option.getD_some, between_enters_iff, isFinding, decide_eq_true_eq]
      by_cases finding : findingMinScore ≤ low
      · have still := finding.trans higher.le
        simp [finding, still, not_lt.mpr finding]
      · by_cases enters : findingMinScore ≤ high
        · simp [finding, enters, not_le.mp finding]
        · simp [finding, enters]

/-- The band of a consistent row stays that of its score when its verdicts are folded in. -/
theorem merged_riskBand (consistent : row.riskBand.parse = scoreToBand row.maxScore) :
    (merged settings verdicts row).riskBand = scoreToBand (merged settings verdicts row).maxScore := by
  cases found : resolve settings (verdictsOf verdicts row.txHash) with
  | none => simpa [merged, mergeContractAnomaly, rowToClassScore, found] using consistent
  | some resolved =>
    simp only [merged, mergeContractAnomaly, rowToClassScore, found]
    by_cases higher : row.maxScore < resolved.score
    · simp [higher]
    · simpa [higher] using consistent

theorem merged_maxScore_of_some {resolved : Resolved}
    (found : resolve settings (verdictsOf verdicts row.txHash) = some resolved) :
    (merged settings verdicts row).maxScore = max row.maxScore resolved.score := by
  simp only [merged, mergeContractAnomaly, rowToClassScore, found]
  by_cases higher : row.maxScore < resolved.score
  · simp [higher, higher.le]
  · simp [higher, not_lt.mp higher]

theorem merged_maxScore_of_none (nothing : resolve settings (verdictsOf verdicts row.txHash) = none) :
    (merged settings verdicts row).maxScore = row.maxScore := by
  simp [merged, mergeContractAnomaly, rowToClassScore, nothing]

/-- What the loop sees of a row brings its contribution to that of the merged row. -/
theorem row_brings (consistent : row.riskBand.parse = scoreToBand row.maxScore)
    (same : ∀ verdict, verdict ∈ verdictsOf flagged row.txHash ↔
      verdict ∈ verdictsOf verdicts row.txHash ∧ verdict.verdict.flagged = true) :
    Brings (effectiveOf settings flagged row.toScoreRow) row.maxScore (merged settings verdicts row).maxScore := by
  have shape (resolved : Resolved) (found : resolve settings (verdictsOf flagged row.txHash) = some resolved) :
      effectiveOf settings flagged row.toScoreRow = some (between row.maxScore resolved.score) := by
    simp [effectiveOf, found, between, consistent]
  cases found : resolve settings (verdictsOf verdicts row.txHash) with
  | none =>
    have nothing : resolve settings (verdictsOf flagged row.txHash) = none := by
      cases read : resolve settings (verdictsOf flagged row.txHash) with
      | none => rfl
      | some resolved =>
        have least := bestScore_of_none found
        have above := (score_of_resolve read).2
        rcases @bestScore_flagged settings _ _ same with equal | ⟨zero, _⟩
        · rw [← equal, least] at above
          exact absurd above (lt_irrefl _)
        · rw [zero] at least
          norm_num at least
    rw [merged_maxScore_of_none found]
    apply brings_of_alike _ (Or.inl rfl)
    intro tx shape
    simp [effectiveOf, nothing] at shape
  | some resolved =>
    obtain ⟨score, above⟩ := score_of_resolve found
    rw [merged_maxScore_of_some found, score]
    rcases @bestScore_flagged settings _ _ same with equal | ⟨zero, low⟩
    · cases read : resolve settings (verdictsOf flagged row.txHash) with
      | none =>
        rw [equal, bestScore_of_none read] at above
        exact absurd above (lt_irrefl _)
      | some winner =>
        rw [shape winner read, (score_of_resolve read).1, equal]
        exact brings_max _ _
    · rw [zero]
      apply brings_of_alike
      · intro tx found
        cases read : resolve settings (verdictsOf flagged row.txHash) with
        | none => simp [effectiveOf, read] at found
        | some winner =>
          rw [shape winner read, (score_of_resolve read).1] at found
          obtain rfl := Option.some.inj found
          exact between_idle (Or.inr low)
      · rcases le_total 0 row.maxScore with high | negative
        · exact Or.inl (max_eq_left high)
        · exact Or.inr ⟨(max_eq_right negative).le, negative⟩

end Row

/-! ## All rows -/

section Rows
variable {settings : Settings} {store : StatsStore}

private theorem stored_eq_of_key {first second : ScoreRow} (one : first ∈ store.toStore.scores)
    (other : second ∈ store.toStore.scores) (same : first.txHash = second.txHash) : first = second :=
  List.inj_on_of_nodup_map store.toStore.keyed one other same

/-- Reading the stored rows hash by hash gives each of them once. -/
private theorem found_perm {hashes : List String} (distinct : hashes.Nodup) :
    (hashes.filterMap fun txHash =>
      (getClassScoresByHashes store.toStore hashes).find? (·.txHash = txHash)).Perm
      (getClassScoresByHashes store.toStore hashes) := by
  have rows : (getClassScoresByHashes store.toStore hashes).Nodup :=
    (List.Nodup.of_map _ store.toStore.keyed).filter _
  have found {txHash : String} {row : ScoreRow}
      (hit : (getClassScoresByHashes store.toStore hashes).find? (·.txHash = txHash) = some row) :
      row ∈ getClassScoresByHashes store.toStore hashes ∧ row.txHash = txHash :=
    ⟨List.mem_of_find?_eq_some hit, by simpa using List.find?_some hit⟩
  rw [List.perm_ext_iff_of_nodup _ rows]
  · intro row
    rw [List.mem_filterMap]
    constructor
    · rintro ⟨txHash, _, hit⟩
      exact (found hit).1
    · intro member
      have asked : row.txHash ∈ hashes := by simpa using (List.mem_filter.mp member).2
      refine ⟨row.txHash, asked, ?_⟩
      cases hit : (getClassScoresByHashes store.toStore hashes).find? (·.txHash = row.txHash) with
      | none =>
        have missing := List.find?_eq_none.mp hit row member
        simp at missing
      | some other =>
        obtain ⟨otherMember, same⟩ := found hit
        rw [stored_eq_of_key (List.mem_filter.mp otherMember).1 (List.mem_filter.mp member).1 same]
  · apply List.Nodup.filterMap _ distinct
    intro first second row one other
    rw [← (found one).2, ← (found other).2]

/-- The loop runs over what each stored row contributes, in the order of the flagged set. -/
private theorem flaggedEffective_perm :
    (flaggedEffective settings store).Perm
      (store.scores.filterMap fun row =>
        effectiveOf settings (flaggedForNetwork settings store.toStore) row.toScoreRow) := by
  let flagged := flaggedForNetwork settings store.toStore
  let hashes := (flagged.map VerdictRow.txHash).dedup
  have shape : flaggedEffective settings store =
      (hashes.filterMap fun txHash =>
        (getClassScoresByHashes store.toStore hashes).find? (·.txHash = txHash)).filterMap
          (effectiveOf settings flagged) := by
    rw [List.filterMap_filterMap]
    apply List.filterMap_congr
    intro txHash _
    cases hit : (getClassScoresByHashes store.toStore hashes).find? (·.txHash = txHash) with
    | none => rfl
    | some row =>
      obtain rfl : row.txHash = txHash := by simpa using List.find?_some hit
      rfl
  have every : (getClassScoresByHashes store.toStore hashes).filterMap (effectiveOf settings flagged) =
      store.scores.filterMap fun row => effectiveOf settings flagged row.toScoreRow := by
    unfold getClassScoresByHashes
    rw [List.filterMap_filter, StatsStore.toStore, List.filterMap_map]
    apply List.filterMap_congr
    intro row _
    by_cases asked : row.txHash ∈ hashes
    · simp [asked]
    · have unread : verdictsOf flagged row.txHash = [] := by
        unfold verdictsOf
        rw [List.filter_eq_nil_iff]
        intro verdict member same
        apply asked
        rw [List.mem_dedup, List.mem_map]
        exact ⟨verdict, member, by simpa using same⟩
      simp [asked, effectiveOf, unread, resolve, winner]
  rw [shape, ← every]
  exact (found_perm (List.nodup_dedup _)).filterMap _

/-- What the loop sees of a row. -/
def contribution (settings : Settings) (store : StatsStore) (row : ClassRow) : Option FlaggedEffective :=
  effectiveOf settings (flaggedForNetwork settings store.toStore) row.toScoreRow

/-- A count over the loop's transactions, row by row. -/
private theorem effective_countP (holds : FlaggedEffective → Bool) :
    (flaggedEffective settings store).countP holds = (store.scores.map fun row =>
      ((contribution settings store row).map fun tx => if holds tx then 1 else 0).getD 0).sum := by
  rw [flaggedEffective_perm.countP_eq, countP_eq_sum, sum_map_filterMap]
  rfl

/-- A sum over the loop's transactions, row by row. -/
private theorem effective_sum (value : FlaggedEffective → ℚ) :
    ((flaggedEffective settings store).map value).sum = (store.scores.map fun row =>
      ((contribution settings store row).map value).getD 0).sum := by
  rw [(flaggedEffective_perm.map value).sum_eq, sum_map_filterMap]
  rfl

private theorem findings_length (rows : List Scored) :
    (findings rows).length = (rows.map fun row => if isFinding row.maxScore then 1 else 0).sum := by
  rw [findings, ← List.countP_eq_length_filter, countP_eq_sum, List.map_map]
  rfl

private theorem findings_sum (rows : List Scored) :
    (findings rows).sum = (rows.map fun row => findingValue row.maxScore).sum := by
  rw [findings, sum_filter_eq_sum, List.map_map]
  apply congrArg
  apply List.map_congr_left
  intro row _
  simp [findingValue]

theorem average_congr {first second : List ℚ} (size : first.length = second.length)
    (total : first.sum = second.sum) : average first = average second := by
  have empty : first = [] ↔ second = [] := by
    rw [← List.length_eq_zero_iff, size, List.length_eq_zero_iff]
  simp [average, size, total, empty]

theorem average_of_pos {values : List ℚ} (some_value : 0 < values.length) :
    average values = some (values.sum / values.length) :=
  if_neg (List.ne_nil_of_length_pos some_value)

/-- The numerator of a mean, recovered from it. -/
theorem average_mul_length (values : List ℚ) :
    ((average values).map fun (mean : ℚ) => mean * values.length).getD 0 = values.sum := by
  unfold average
  split
  · rename_i nothing
    simp [nothing]
  · rename_i something
    have positive : (values.length : ℚ) ≠ 0 := by
      simpa [List.length_eq_zero_iff] using something
    simp only [Option.map_some, Option.getD_some]
    field_simp

/-- The count of a band, where the bands are those of the scores. -/
private theorem bandCount_eq_sum {rows : List ClassRow} {view : ClassRow → Scored}
    (consistent : ∀ row ∈ rows, (view row).riskBand = scoreToBand (view row).maxScore) (band : RiskBand) :
    (aggregate (rows.map view)).bandCount band =
      (rows.map fun row => if scoreToBand (view row).maxScore = band then 1 else 0).sum := by
  simp only [aggregate]
  rw [List.countP_map, countP_eq_sum]
  apply congrArg
  apply List.map_congr_left
  intro row member
  simp [consistent row member]

/-- Every row is counted in one band. -/
theorem aggregate_bands (rows : List Scored) :
    (aggregate rows).bandCount .critical + (aggregate rows).bandCount .high +
        (aggregate rows).bandCount .moderate + (aggregate rows).bandCount .informational =
      (aggregate rows).total := by
  simp only [aggregate]
  induction rows with
  | nil => rfl
  | cons row rest ih =>
    simp only [List.countP_cons, List.length_cons, decide_eq_true_eq]
    cases row.riskBand <;> simp <;> omega

end Rows

/-- The bands of the stored rows are those of their scores. -/
def Consistent (store : StatsStore) : Prop :=
  ∀ row ∈ store.scores, row.riskBand.parse = scoreToBand row.maxScore

/-- Below the cap the loop reads every verdict that does not suppress. -/
private theorem mem_flagged {settings : Settings} {store : StatsStore}
    (within : store.verdicts.countP (·.verdict.flagged) ≤ settings.rescueFetchCap) (txHash : String)
    (verdict : VerdictRow) :
    verdict ∈ verdictsOf (flaggedForNetwork settings store.toStore) txHash ↔
      verdict ∈ verdictsOf store.verdicts txHash ∧ verdict.verdict.flagged = true := by
  have whole : flaggedForNetwork settings store.toStore =
      (store.verdicts.filter (·.verdict.flagged)).insertionSort fun a b => b.publishedAt ≤ a.publishedAt := by
    apply List.take_of_length_le
    rw [List.length_insertionSort, ← List.countP_eq_length_filter]
    exact within
  rw [whole]
  simp only [verdictsOf, List.mem_filter, List.mem_insertionSort]
  tauto

@[simp] theorem merged_analyzedAt (settings : Settings) (verdicts : List VerdictRow) (row : ClassRow) :
    (merged settings verdicts row).analyzedAt = row.analyzedAt := by
  cases found : resolve settings (verdictsOf verdicts row.txHash) with
  | none => simp [merged, mergeContractAnomaly, rowToClassScore, found]
  | some resolved =>
    by_cases higher : row.maxScore < resolved.score
    · simp [merged, mergeContractAnomaly, rowToClassScore, found, higher]
    · simp [merged, mergeContractAnomaly, rowToClassScore, found, higher]

/-- The merge leaves alone how many rows there are, when they were scored and what each of the
nine classes scored. -/
theorem recomputed_frame (settings : Settings) (store : StatsStore) :
    (recomputed settings store).total = (getClassScoresStats store).total ∧
      (recomputed settings store).lastAnalyzedAt = (getClassScoresStats store).lastAnalyzedAt ∧
      (recomputed settings store).perClass = (getClassScoresStats store).perClass := by
  refine ⟨?_, ?_, ?_⟩
  · simp [recomputed, getClassScoresStats, aggregate]
  · simp [recomputed, getClassScoresStats, aggregate, List.map_map, Function.comp_def, stored]
  · simp [recomputed, getClassScoresStats, aggregate, perClassStats, List.map_map, Function.comp_def, stored, merged]

/-- A row leaves no band but its own. -/
private theorem leaves_le {settings : Settings} {store : StatsStore} (row : ClassRow) (band : RiskBand) :
    ((contribution settings store row).map fun tx => if tx.leaves band then 1 else 0).getD 0 ≤
      if row.riskBand.parse = band then 1 else 0 := by
  unfold contribution effectiveOf
  cases resolve settings (verdictsOf (flaggedForNetwork settings store.toStore) row.txHash) with
  | none => simp
  | some resolved =>
    simp only [Option.map_some, Option.getD_some, FlaggedEffective.leaves, Bool.and_eq_true, decide_eq_true_eq]
    split
    · rename_i left
      rw [if_pos left.2]
    · exact Nat.zero_le _

/-- No band is left by more transactions than it counts. -/
private theorem leaves_countP_le (settings : Settings) (store : StatsStore) (band : RiskBand) :
    (flaggedEffective settings store).countP (·.leaves band) ≤ (getClassScoresStats store).bandCount band := by
  have storedCount : (getClassScoresStats store).bandCount band =
      (store.scores.map fun row => if row.riskBand.parse = band then 1 else 0).sum := by
    simp only [getClassScoresStats, aggregate]
    rw [List.countP_map, countP_eq_sum]
    apply congrArg
    apply List.map_congr_left
    intro row _
    by_cases own : row.riskBand.parse = band
    · simp [stored, own]
    · simp [stored, own]
  rw [effective_countP, storedCount]
  apply List.sum_le_sum
  intro row _
  exact leaves_le row band

/-- The correction adds to a band at most as many transactions as the cap lets it read. -/
theorem augmentStats_bandCount_le (settings : Settings) (store : StatsStore) (band : RiskBand) :
    (augmentStats settings store (getClassScoresStats store)).bandCount band ≤
      (getClassScoresStats store).bandCount band + settings.rescueFetchCap := by
  have read : (flaggedEffective settings store).length ≤ settings.rescueFetchCap := by
    refine (List.length_filterMap_le _ _).trans ?_
    refine (List.dedup_sublist _).length_le.trans ?_
    rw [List.length_map]
    exact List.length_take_le _ _
  have counts : ∀ band, _ + _ = (getClassScoresStats store).bandCount band + _ :=
    (@tally_spec _ ⟨(getClassScoresStats store).bandCount, 0, 0, 0⟩ (leaves_countP_le settings store)).1
  have joined := List.countP_le_length (p := (·.joins band)) (l := flaggedEffective settings store)
  have balance := counts band
  have shape : (augmentStats settings store (getClassScoresStats store)).bandCount =
      ((flaggedEffective settings store).foldl tallyOne ⟨(getClassScoresStats store).bandCount, 0, 0, 0⟩).counts := by
    unfold augmentStats
    dsimp only
    split <;> rfl
  rw [shape]
  omega

/-- What the loop keeps, in terms of the statistics before and after. -/
private theorem tally_of_flagged {settings : Settings} {store : StatsStore} (consistent : Consistent store)
    (within : store.verdicts.countP (·.verdict.flagged) ≤ settings.rescueFetchCap) :
    let tally := (flaggedEffective settings store).foldl tallyOne ⟨(getClassScoresStats store).bandCount, 0, 0, 0⟩
    let before := findings (store.scores.map stored)
    let after := findings (store.scores.map (merged settings store.verdicts))
    tally.counts = (recomputed settings store).bandCount ∧
      after.length = before.length + tally.enteringCount ∧
      after.sum = before.sum + (tally.deltaSum + tally.enteringSum) ∧
      (tally.enteringCount = 0 → tally.enteringSum = 0) := by
  have brings (row : ClassRow) (member : row ∈ store.scores) :
      Brings (contribution settings store row) row.maxScore (merged settings store.verdicts row).maxScore :=
    row_brings (consistent row member) (mem_flagged within row.txHash)
  have storedCount (band : RiskBand) : (getClassScoresStats store).bandCount band =
      (store.scores.map fun row => if scoreToBand row.maxScore = band then 1 else 0).sum :=
    @bandCount_eq_sum store.scores stored consistent band
  have mergedCount (band : RiskBand) : (recomputed settings store).bandCount band =
      (store.scores.map fun row =>
        if scoreToBand (merged settings store.verdicts row).maxScore = band then 1 else 0).sum :=
    bandCount_eq_sum (fun row member => merged_riskBand (consistent row member)) band
  obtain ⟨counts, deltas, sums, entered⟩ := @tally_spec _ ⟨(getClassScoresStats store).bandCount, 0, 0, 0⟩
    (leaves_countP_le settings store)
  refine ⟨?_, ?_, ?_, ?_⟩
  · funext band
    have balance := sum_map_add_eq fun row member => (brings row member).bands band
    have total : _ + _ = (getClassScoresStats store).bandCount band + _ := counts band
    rw [effective_countP, effective_countP, storedCount, ← balance, ← mergedCount] at total
    exact Nat.add_right_cancel total
  · rw [entered, findings_length, findings_length, effective_countP, List.map_map, List.map_map, zero_add,
      ← List.sum_map_add]
    apply congrArg
    apply List.map_congr_left
    intro row member
    exact (brings row member).findings
  · rw [deltas, sums, findings_sum, findings_sum, effective_sum, effective_sum, List.map_map, List.map_map,
      zero_add, zero_add, ← List.sum_map_add, ← List.sum_map_add]
    apply congrArg
    apply List.map_congr_left
    intro row member
    exact (brings row member).values
  · rw [entered, sums, zero_add, zero_add]
    intro nobody
    apply List.sum_eq_zero
    intro value member
    obtain ⟨tx, txMember, rfl⟩ := List.mem_map.mp member
    have notEntering := List.countP_eq_zero.mp nobody tx txMember
    simp [FlaggedEffective.entering, notEntering]

/-- **The corrected statistics are those of the merged rows.**  While the flagged verdicts are
within the fetch cap and the stored bands are those of their scores, moving every flagged
transaction to its effective band and raising the mean by what the verdicts add gives the
statistics over the merged rows, whose band counts sum to the total. -/
theorem augmentStats_eq_recomputed {settings : Settings} {store : StatsStore} (consistent : Consistent store)
    (within : store.verdicts.countP (·.verdict.flagged) ≤ settings.rescueFetchCap) :
    augmentStats settings store (getClassScoresStats store) = recomputed settings store ∧
      (recomputed settings store).bandCount .critical + (recomputed settings store).bandCount .high +
          (recomputed settings store).bandCount .moderate + (recomputed settings store).bandCount .informational =
        (recomputed settings store).total := by
  refine ⟨?_, aggregate_bands _⟩
  obtain ⟨counts, size, total, entering⟩ := tally_of_flagged consistent within
  obtain ⟨sameTotal, sameDate, sameClasses⟩ := recomputed_frame settings store
  simp only [augmentStats]
  generalize (flaggedEffective settings store).foldl tallyOne ⟨(getClassScoresStats store).bandCount, 0, 0, 0⟩ =
    tally at counts size total entering ⊢
  split
  · rename_i changed
    have some_finding : 0 < (findings (store.scores.map (merged settings store.verdicts))).length := by
      rw [size]
      exact changed.2
    have mean : (recomputed settings store).avgMaxScore = some _ := average_of_pos some_finding
    have base := average_mul_length (findings (store.scores.map stored))
    ext1
    · exact sameTotal.symm
    · exact counts
    · rw [mean, total, size]
      have numerator : ((getClassScoresStats store).avgMaxScore.map
          fun (mean : ℚ) => mean * (getClassScoresStats store).findingCount).getD 0 =
            (findings (store.scores.map stored)).sum := base
      simp only [numerator, add_assoc, Nat.cast_add]
      rfl
    · exact size.symm
    · exact sameDate.symm
    · exact sameClasses.symm
  · rename_i unchanged
    have still : tally.enteringCount = 0 ∧
        (findings (store.scores.map (merged settings store.verdicts))).sum =
          (findings (store.scores.map stored)).sum := by
      have length : (getClassScoresStats store).findingCount = (findings (store.scores.map stored)).length := rfl
      have nobody : tally.enteringCount = 0 := by
        by_contra entered
        exact unchanged ⟨Or.inr entered, by omega⟩
      refine ⟨nobody, ?_⟩
      by_cases raised : tally.deltaSum = 0
      · rw [total, raised, entering nobody, add_zero, add_zero]
      · have none_before : findings (store.scores.map stored) = [] := by
          rw [← List.length_eq_zero_iff, ← length]
          by_contra some_before
          exact unchanged ⟨Or.inl raised, by omega⟩
        have none_after : findings (store.scores.map (merged settings store.verdicts)) = [] := by
          rw [← List.length_eq_zero_iff, size, none_before, nobody]
          rfl
        rw [none_before, none_after]
    have sameSize : (findings (store.scores.map (merged settings store.verdicts))).length =
        (findings (store.scores.map stored)).length := by
      rw [size, still.1, Nat.add_zero]
    ext1
    · exact sameTotal.symm
    · exact counts
    · exact average_congr sameSize.symm still.2.symm
    · exact sameSize.symm
    · exact sameDate.symm
    · exact sameClasses.symm

/-- The configuration as shipped, with its fetch cap. -/
private def shippedStats : Settings := ⟨true, 80, 0, 100, 59, 10000, 500⟩

private def hashOf (index : Nat) : String := String.ofList (List.replicate index 'a')

private theorem hashOf_injective : Function.Injective hashOf := by
  intro first second same
  have characters := congrArg (fun text => text.toList.length) same
  simpa [hashOf] using characters

private def cleanRow (index : Nat) : ClassRow where
  txHash := hashOf index
  maxScore := 0
  maxClass := .largeValue
  riskBand := .current .informational
  analyzedAt := 0
  corroborationCount := 0
  contractAddress := ""
  column _ := 0

private def maliciousVerdict (index : Nat) : VerdictRow :=
  ⟨hashOf index, "c1", .malicious, none, false, index⟩

/-- Clean transactions, each labelled malicious in the sidecar. -/
private def labelledCrowd (size : Nat) : StatsStore where
  scores := (List.range size).map cleanRow
  verdicts := (List.range size).map maliciousVerdict
  keyed := by
    rw [List.map_map]
    exact List.nodup_range.map hashOf_injective

private theorem labelledCrowd_consistent (size : Nat) : Consistent (labelledCrowd size) := by
  intro row member
  obtain ⟨index, _, rfl⟩ := List.mem_map.mp member
  exact (scoreToBand_of_nonpos (le_refl 0)).symm

private theorem labelledCrowd_critical (size : Nat) :
    (recomputed shippedStats (labelledCrowd size)).bandCount .critical = size := by
  have every : ∀ row ∈ (labelledCrowd size).scores,
      (merged shippedStats (labelledCrowd size).verdicts row).riskBand = .critical := by
    intro row member
    rw [merged_riskBand (labelledCrowd_consistent size row member)]
    obtain ⟨index, below, rfl⟩ := List.mem_map.mp member
    have labelled : maliciousVerdict index ∈ verdictsOf (labelledCrowd size).verdicts (cleanRow index).txHash :=
      List.mem_filter.mpr ⟨List.mem_map.mpr ⟨index, below, rfl⟩, by simp [maliciousVerdict, cleanRow]⟩
    have floor : rowScore shippedStats (maliciousVerdict index) = 80 :=
      (by decide +kernel : projectScore shippedStats .malicious none = 80)
    have best : 80 ≤ bestScore shippedStats
        (verdictsOf (labelledCrowd size).verdicts (cleanRow index).txHash) := by
      rw [← floor]
      exact (bestScore_le_iff.mp (le_refl _)).2 _ labelled
    cases found : resolve shippedStats (verdictsOf (labelledCrowd size).verdicts (cleanRow index).txHash) with
    | none =>
      rw [bestScore_of_none found] at best
      norm_num at best
    | some resolved =>
      rw [merged_maxScore_of_some found, (score_of_resolve found).1]
      exact if_pos (best.trans (le_max_right _ _))
  simp only [recomputed, aggregate, List.countP_map]
  rw [List.countP_eq_length.mpr]
  · simp [labelledCrowd]
  · intro row member
    simp [every row member]

private theorem labelledCrowd_stored (size : Nat) :
    (getClassScoresStats (labelledCrowd size)).bandCount .critical = 0 := by
  simp only [getClassScoresStats, aggregate, List.countP_map, List.countP_eq_zero]
  intro row member
  obtain ⟨index, _, rfl⟩ := List.mem_map.mp member
  simp [stored, cleanRow, StoredBand.parse]

/-- One clean transaction labelled malicious moves from Informational to Critical. -/
theorem augmentStats_labelled :
    (augmentStats shippedStats (labelledCrowd 1) (getClassScoresStats (labelledCrowd 1))).bandCount .critical = 1 := by
  rw [(augmentStats_eq_recomputed (labelledCrowd_consistent 1) (by decide +kernel)).1]
  exact labelledCrowd_critical 1

/-- Ten thousand and one transactions labelled malicious: the loop reads the verdicts of ten
thousand of them, the last one stays Informational in the statistics. -/
theorem augmentStats_beyond_cap :
    ¬ ∀ (settings : Settings) (store : StatsStore), Consistent store →
      augmentStats settings store (getClassScoresStats store) = recomputed settings store := by
  intro equal
  have same := equal shippedStats (labelledCrowd 10001) (labelledCrowd_consistent 10001)
  have bounded := augmentStats_bandCount_le shippedStats (labelledCrowd 10001) .critical
  rw [same, labelledCrowd_critical, labelledCrowd_stored] at bounded
  exact absurd bounded (by decide)

end TransactionMonitoring.AnomalyStats
