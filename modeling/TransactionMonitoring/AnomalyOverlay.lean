import Mathlib.Data.List.MinMax
import TransactionMonitoring.Alerts
import TransactionMonitoring.JsonValue

/-! Folding the sidecar's verdicts into a score row, with all that is written.

The alert lists follow the score, the band, the class and the contract of a row.  The merge
also leaves the winning verdict's breakdown, evidence and date in the result, so which of
several verdicts wins shows even where they score the same.
-/
namespace TransactionMonitoring.AnomalyOverlay
open Alerts Verdicts WhiteSpace

/-- A row of `tx_contract_anomaly` with all the columns the merge reads. -/
structure VerdictDetail extends VerdictRow where
  clusterId : Int
  votes : Nat
  modelId : String
  featureSet : String
  evidence : Json
  scoredAt : Option Int

/-- What `resolve` returns, with all the columns: the winning row on the host's scale. -/
structure ResolvedDetail extends VerdictDetail where
  score : ℚ
  riskBand : RiskBand

/-- One class's entry of `sub_scores`. -/
inductive SubScores where
  | stored (value : Json)
  | anomaly (consensus : ℚ) (votes : Nat) (clusterId : Int) (verdict : String)

/-- A hydrated result with the fields the merge writes. -/
structure DetailedResult extends ClassScoreResult where
  scores : List (String × ℚ)
  subScores : List (String × SubScores)
  evidence : List (String × List (String × Json))
  contractAnomalyCorroborates : Bool
  contractAnomalyScoredAt : Option Int

/-- The `contract_anomaly` block with the corroboration threshold. -/
structure OverlaySettings extends Settings where
  corroborationThreshold : ℚ
deriving DecidableEq

/-- Assigning to a key of a dict: in place, or at the end. -/
def put {β : Type} (key : String) (value : β) (entries : List (String × β)) : List (String × β) :=
  if entries.any (fun entry => entry.1 = key) then
    entries.map fun entry => if entry.1 = key then (key, value) else entry
  else entries ++ [(key, value)]

/-- `dict.get`. -/
def lookup {β : Type} (key : String) (entries : List (String × β)) : Option β :=
  (entries.find? fun entry => entry.1 = key).map Prod.snd

def verdictName : Verdict → String
  | .malicious => "malicious"
  | .benign => "benign"
  | .anomaly => "anomaly"
  | .normal => "normal"

/-- `_BAND_RANK`. -/
def bandRank : RiskBand → Nat
  | .informational => 1
  | .moderate => 2
  | .high => 3
  | .critical => 4

/-- The row with its score and band. -/
def project (settings : Settings) (row : VerdictDetail) : ResolvedDetail :=
  { row with score := rowScore settings row.toVerdictRow, riskBand := scoreToBand (rowScore settings row.toVerdictRow) }

/-- The winning row of `resolve`, with its score and band. -/
def resolveDetail (settings : Settings) (rows : List VerdictDetail) : Option ResolvedDetail :=
  (winner VerdictDetail.toVerdictRow settings rows).map (project settings)

/-- `resolved.get("evidence") or {}`, unless it is no dict. -/
def evidenceEntries : Json → List (String × Json)
  | .dict entries => entries
  | _ => []

/-- The evidence the merge writes for the class. -/
def overlayEvidence (row : VerdictDetail) : List (String × Json) :=
  put "feature_set" (.text row.featureSet)
    (put "model_id" (.text row.modelId) (put "target" (.text row.target) (evidenceEntries row.evidence)))

/-- The breakdown the merge writes for the class. -/
def overlaySubScores (row : VerdictDetail) : SubScores :=
  .anomaly (row.consensus.getD 0) row.votes row.clusterId (verdictName row.verdict)

/-- `contract_address_of` for the class: the target its evidence names. -/
def contractAddressOf (evidence : List (String × List (String × Json))) : String :=
  match (lookup "contract_anomaly" evidence).bind (lookup "target") with
  | some (.text value) => strip value
  | _ => ""

/-- `_merge_contract_anomaly`, once `resolve` has found the row. -/
def foldIn (settings : OverlaySettings) (resolved : ResolvedDetail) (result : DetailedResult) : DetailedResult :=
  let score := resolved.score
  let written := { result with
    scores := put "contract_anomaly" score result.scores
    subScores := put "contract_anomaly" (overlaySubScores resolved.toVerdictDetail) result.subScores
    evidence := put "contract_anomaly" (overlayEvidence resolved.toVerdictDetail) result.evidence }
  let raised := if written.maxScore < score then
      { written with
        maxScore := score
        maxClass := .contractAnomaly
        riskBand := scoreToBand score
        contractAddress := contractAddressOf written.evidence }
    else written
  { raised with
    contractAnomalyCorroborates := decide (settings.corroborationThreshold ≤ score)
    contractAnomalyScoredAt := resolved.scoredAt
    contractAnomalyUnclusterable := resolved.unclusterableFit }

/-- `_merge_contract_anomaly`. -/
def mergeContractAnomaly (settings : OverlaySettings) (rows : List VerdictDetail) (result : DetailedResult) :
    DetailedResult :=
  match resolveDetail settings.toSettings rows with
  | none => result
  | some resolved => foldIn settings resolved result

/-! ## Dicts -/

section Dicts
variable {β : Type}

@[simp] theorem lookup_put_self (key : String) (value : β) (entries : List (String × β)) :
    lookup key (put key value entries) = some value := by
  unfold lookup put
  split
  · rename_i present
    induction entries with
    | nil => cases present
    | cons entry rest ih =>
      by_cases here : entry.1 = key
      · simp [here]
      · have later : rest.any (fun entry => entry.1 = key) = true := by simpa [here] using present
        simpa [here] using ih later
  · rename_i absent
    have missing : entries.find? (fun entry => entry.1 = key) = none := by
      rw [List.find?_eq_none]
      intro entry member held
      exact absent (List.any_eq_true.mpr ⟨entry, member, held⟩)
    simp [List.find?_append, missing]

theorem lookup_put_of_ne {key other : String} (distinct : other ≠ key) (value : β)
    (entries : List (String × β)) : lookup other (put key value entries) = lookup other entries := by
  have replaced : (entries.map fun entry => if entry.1 = key then (key, value) else entry).find?
      (fun entry => entry.1 = other) = entries.find? (fun entry => entry.1 = other) := by
    induction entries with
    | nil => rfl
    | cons entry rest ih =>
      rw [List.map_cons, List.find?_cons, List.find?_cons, ih]
      by_cases here : entry.1 = key
      · simp [here, distinct.symm]
      · simp [here]
  unfold lookup put
  split
  · rw [replaced]
  · rw [List.find?_append]
    simp [distinct.symm]

end Dicts

/-! ## Which verdict wins -/

section Winner
variable {settings : Settings} {rows : List VerdictDetail}

/-- The rows that can win: their score is above the start value of the search. -/
def scoring (settings : Settings) (rows : List VerdictDetail) : List VerdictDetail :=
  rows.filter fun row => -1 < rowScore settings row.toVerdictRow

/-- No row scores higher. -/
def IsTop (settings : Settings) (rows : List VerdictDetail) (row : VerdictDetail) : Prop :=
  row ∈ rows ∧ -1 < rowScore settings row.toVerdictRow ∧
    ∀ other ∈ rows, rowScore settings other.toVerdictRow ≤ rowScore settings row.toVerdictRow

/-- The first of the highest scores wins. -/
theorem winner_eq_argmax (settings : Settings) (rows : List VerdictDetail) :
    winner VerdictDetail.toVerdictRow settings rows =
      (scoring settings rows).argmax fun row => rowScore settings row.toVerdictRow := by
  induction rows using List.reverseRecOn with
  | nil => rfl
  | append_singleton rows row ih =>
    rw [winner_concat, ih, show scoring settings (rows ++ [row]) = scoring settings rows ++ scoring settings [row] from
      List.filter_append ..]
    cases best : (scoring settings rows).argmax fun row => rowScore settings row.toVerdictRow with
    | none =>
      rw [List.argmax_eq_none] at best
      rw [best]
      by_cases scores : -1 < rowScore settings row.toVerdictRow
      · simp [scoring, scores]
      · simp [scoring, scores]
    | some winner =>
      have above : -1 < rowScore settings winner.toVerdictRow := by
        simpa [scoring] using (List.mem_filter.mp (List.argmax_mem best)).2
      by_cases scores : -1 < rowScore settings row.toVerdictRow
      · have kept : scoring settings [row] = [row] := by simp [scoring, scores]
        rw [kept, List.argmax_concat, best]
        rfl
      · have dropped : scoring settings [row] = [] := by simp [scoring, scores]
        rw [dropped, List.append_nil]
        have lower : ¬ rowScore settings winner.toVerdictRow < rowScore settings row.toVerdictRow := by
          rw [not_lt] at scores ⊢
          exact scores.trans above.le
        simp [best, lower]

theorem resolveDetail_eq_argmax (settings : Settings) (rows : List VerdictDetail) :
    resolveDetail settings rows =
      ((scoring settings rows).argmax fun row => rowScore settings row.toVerdictRow).map (project settings) := by
  rw [resolveDetail, winner_eq_argmax]

/-- What wins is one of the highest. -/
theorem isTop_of_resolve {resolved : ResolvedDetail} (found : resolveDetail settings rows = some resolved) :
    ∃ row, IsTop settings rows row ∧ resolved = project settings row := by
  rw [resolveDetail_eq_argmax, Option.map_eq_some_iff] at found
  obtain ⟨row, best, rfl⟩ := found
  have member := List.mem_filter.mp (List.argmax_mem best)
  have above : -1 < rowScore settings row.toVerdictRow := by simpa using member.2
  refine ⟨row, ⟨member.1, above, ?_⟩, rfl⟩
  intro other otherMember
  by_cases scores : -1 < rowScore settings other.toVerdictRow
  · have among : other ∈ scoring settings rows := List.mem_filter.mpr ⟨otherMember, decide_eq_true scores⟩
    have lower := List.not_lt_of_mem_argmax among best
    exact not_lt.mp lower
  · rw [not_lt] at scores
    exact scores.trans above.le

/-- Something wins where some row can. -/
theorem exists_resolve {row : VerdictDetail} (top : IsTop settings rows row) :
    ∃ resolved, resolveDetail settings rows = some resolved := by
  rw [resolveDetail_eq_argmax]
  cases best : (scoring settings rows).argmax fun row => rowScore settings row.toVerdictRow with
  | some winner => exact ⟨_, rfl⟩
  | none =>
    rw [List.argmax_eq_none] at best
    have member : row ∈ scoring settings rows := List.mem_filter.mpr ⟨top.1, by simpa using top.2.1⟩
    rw [best] at member
    cases member

/-- A row that is one of the highest wins if it comes first. -/
theorem resolve_of_first {row : VerdictDetail} {rest : List VerdictDetail}
    (top : IsTop settings (row :: rest) row) : resolveDetail settings (row :: rest) = some (project settings row) := by
  rw [resolveDetail_eq_argmax, scoring, List.filter_cons_of_pos (by simpa using top.2.1), List.argmax_cons]
  cases best : (rest.filter fun row => -1 < rowScore settings row.toVerdictRow).argmax
      fun row => rowScore settings row.toVerdictRow with
  | none => rfl
  | some other =>
    have member := (List.mem_filter.mp (List.argmax_mem best)).1
    have bounded := not_lt.mpr (top.2.2 other (.tail _ member))
    simp [bounded]

theorem IsTop.perm {row : VerdictDetail} {other : List VerdictDetail} (same : other.Perm rows)
    (top : IsTop settings other row) : IsTop settings rows row :=
  ⟨same.mem_iff.mp top.1, top.2.1, fun each member => top.2.2 each (same.mem_iff.mpr member)⟩

end Winner

/-! ## The merge -/

section Merge
variable {settings : OverlaySettings} {rows : List VerdictDetail} {result : DetailedResult}

/-- Two rows leave the same in the result, their scores apart. -/
def SameOverlay (first second : VerdictDetail) : Prop :=
  overlaySubScores first = overlaySubScores second ∧ overlayEvidence first = overlayEvidence second ∧
    first.scoredAt = second.scoredAt ∧ first.unclusterableFit = second.unclusterableFit

theorem mergeContractAnomaly_of_none (nothing : resolveDetail settings.toSettings rows = none) :
    mergeContractAnomaly settings rows result = result := by
  simp [mergeContractAnomaly, nothing]

theorem mergeContractAnomaly_of_some {resolved : ResolvedDetail}
    (found : resolveDetail settings.toSettings rows = some resolved) :
    mergeContractAnomaly settings rows result = foldIn settings resolved result := by
  simp [mergeContractAnomaly, found]

theorem foldIn_maxScore (resolved : ResolvedDetail) :
    (foldIn settings resolved result).maxScore = max result.maxScore resolved.score := by
  by_cases higher : result.maxScore < resolved.score
  · simp [foldIn, higher, higher.le]
  · simp [foldIn, higher, not_lt.mp higher]

theorem foldIn_riskBand (resolved : ResolvedDetail) :
    (foldIn settings resolved result).riskBand =
      if result.maxScore < resolved.score then scoreToBand resolved.score else result.riskBand := by
  by_cases higher : result.maxScore < resolved.score
  · simp [foldIn, higher]
  · simp [foldIn, higher]

/-- The contract of a verdict that takes over is its target. -/
theorem contractAddressOf_overlay (row : VerdictDetail) (evidence : List (String × List (String × Json))) :
    contractAddressOf (put "contract_anomaly" (overlayEvidence row) evidence) = strip row.target := by
  have target : lookup "target" (overlayEvidence row) = some (.text row.target) := by
    unfold overlayEvidence
    rw [lookup_put_of_ne (by decide), lookup_put_of_ne (by decide), lookup_put_self]
  simp [contractAddressOf, target]

private theorem winner_toVerdictRow (settings : Settings) (rows : List VerdictDetail) :
    winner id settings (rows.map VerdictDetail.toVerdictRow) =
      (winner VerdictDetail.toVerdictRow settings rows).map VerdictDetail.toVerdictRow := by
  induction rows using List.reverseRecOn with
  | nil => rfl
  | append_singleton rows row ih =>
    rw [List.map_append, List.map_singleton, winner_concat, winner_concat, ih, Option.map_map]
    generalize winner VerdictDetail.toVerdictRow settings rows = best
    by_cases higher : (best.map fun found => rowScore settings found.toVerdictRow).getD (-1) <
        rowScore settings row.toVerdictRow
    · rw [if_pos higher]
      exact if_pos higher
    · rw [if_neg higher]
      exact if_neg higher

private theorem resolve_toVerdictRow (settings : Settings) (rows : List VerdictDetail) :
    Alerts.resolve settings (rows.map VerdictDetail.toVerdictRow) =
      (resolveDetail settings rows).map fun resolved =>
        ⟨resolved.score, resolved.target, resolved.unclusterableFit⟩ := by
  rw [Alerts.resolve, winner_toVerdictRow, resolveDetail, Option.map_map, Option.map_map]
  rfl

/-- The lists' model of the merge is this one, as far as they depend on it. -/
theorem mergeContractAnomaly_toClassScoreResult :
    (mergeContractAnomaly settings rows result).toClassScoreResult =
      Alerts.mergeContractAnomaly settings.toSettings (rows.map VerdictDetail.toVerdictRow)
        result.toClassScoreResult := by
  unfold Alerts.mergeContractAnomaly
  rw [resolve_toVerdictRow]
  cases found : resolveDetail settings.toSettings rows with
  | none => simp [mergeContractAnomaly_of_none found]
  | some resolved =>
    rw [mergeContractAnomaly_of_some found]
    by_cases higher : result.maxScore < resolved.score
    · simp [foldIn, higher, contractAddressOf_overlay]
    · simp [foldIn, higher]

/-- Rows of one score that leave the same give the same result. -/
theorem foldIn_congr {first second : VerdictDetail}
    (tied : rowScore settings.toSettings first.toVerdictRow = rowScore settings.toSettings second.toVerdictRow)
    (same : SameOverlay first second) :
    foldIn settings (project settings.toSettings first) result =
      foldIn settings (project settings.toSettings second) result := by
  obtain ⟨subScores, evidence, scoredAt, unclusterable⟩ := same
  by_cases higher : result.maxScore < rowScore settings.toSettings second.toVerdictRow
  · simp only [foldIn, project, tied, subScores, evidence, scoredAt, unclusterable, higher, if_true]
    congr
  · simp only [foldIn, project, tied, subScores, evidence, scoredAt, unclusterable, higher, if_false]
    congr

/-- Rows that give the same result leave the same. -/
theorem sameOverlay_of_foldIn {first second : VerdictDetail}
    (equal : foldIn settings (project settings.toSettings first) result =
      foldIn settings (project settings.toSettings second) result) : SameOverlay first second := by
  have written (row : VerdictDetail) :
      lookup "contract_anomaly" (foldIn settings (project settings.toSettings row) result).subScores =
          some (overlaySubScores row) ∧
        lookup "contract_anomaly" (foldIn settings (project settings.toSettings row) result).evidence =
          some (overlayEvidence row) ∧
        (foldIn settings (project settings.toSettings row) result).contractAnomalyScoredAt = row.scoredAt ∧
        (foldIn settings (project settings.toSettings row) result).contractAnomalyUnclusterable =
          row.unclusterableFit := by
    by_cases higher : result.maxScore < rowScore settings.toSettings row.toVerdictRow
    · simp [foldIn, project, higher]
    · simp [foldIn, project, higher]
  have one := written first
  have other := written second
  rw [equal] at one
  exact ⟨Option.some.inj (one.1.symm.trans other.1), Option.some.inj (one.2.1.symm.trans other.2.1),
    one.2.2.1.symm.trans other.2.2.1, one.2.2.2.symm.trans other.2.2.2⟩

/-- Where the highest rows leave the same, it does not matter which of them wins. -/
private theorem merge_perm {other : List VerdictDetail} (same : other.Perm rows)
    (agree : ∀ first second, IsTop settings.toSettings rows first → IsTop settings.toSettings rows second →
      SameOverlay first second) :
    mergeContractAnomaly settings other result = mergeContractAnomaly settings rows result := by
  cases found : resolveDetail settings.toSettings rows with
  | none =>
    cases others : resolveDetail settings.toSettings other with
    | none => rw [mergeContractAnomaly_of_none found, mergeContractAnomaly_of_none others]
    | some resolved =>
      obtain ⟨row, top, _⟩ := isTop_of_resolve others
      obtain ⟨winner, won⟩ := exists_resolve (top.perm same)
      rw [found] at won
      cases won
  | some resolved =>
    obtain ⟨row, top, rfl⟩ := isTop_of_resolve found
    obtain ⟨winner, won⟩ := exists_resolve (top.perm same.symm)
    obtain ⟨otherRow, otherTop, rfl⟩ := isTop_of_resolve won
    have moved := otherTop.perm same
    rw [mergeContractAnomaly_of_some found, mergeContractAnomaly_of_some won]
    apply foldIn_congr
    · exact le_antisymm (top.2.2 otherRow moved.1) (moved.2.2 row top.1)
    · exact agree otherRow row moved top

/-- A highest row can be put first, and then it wins. -/
private theorem exists_perm_winning {row : VerdictDetail} (top : IsTop settings.toSettings rows row) :
    ∃ other : List VerdictDetail, other.Perm rows ∧
      mergeContractAnomaly settings other result = foldIn settings (project settings.toSettings row) result := by
  obtain ⟨before, after, split⟩ := List.append_of_mem top.1
  have moved : (row :: (before ++ after)).Perm rows := split ▸ List.perm_middle.symm
  exact ⟨row :: (before ++ after), moved,
    mergeContractAnomaly_of_some (resolve_of_first (top.perm moved.symm))⟩

/-- **The merge only raises, whatever the order, exactly if the band it derives is no lower and
its ties agree.**  The merged score and band are at least the stored ones and no order of the
verdicts changes the result if and only if a highest verdict above the stored score is, under
the current thresholds, in a band no lower than the stored one, and all highest verdicts leave
the same in the result. -/
theorem merge_raises_iff (settings : OverlaySettings) (rows : List VerdictDetail) (result : DetailedResult) :
    ((result.maxScore ≤ (mergeContractAnomaly settings rows result).maxScore ∧
        bandRank result.riskBand ≤ bandRank (mergeContractAnomaly settings rows result).riskBand) ∧
      ∀ other : List VerdictDetail, other.Perm rows →
        mergeContractAnomaly settings other result = mergeContractAnomaly settings rows result) ↔
    (∀ row, IsTop settings.toSettings rows row → result.maxScore < rowScore settings.toSettings row.toVerdictRow →
        bandRank result.riskBand ≤ bandRank (scoreToBand (rowScore settings.toSettings row.toVerdictRow))) ∧
      ∀ first second, IsTop settings.toSettings rows first → IsTop settings.toSettings rows second →
        SameOverlay first second := by
  constructor
  · rintro ⟨⟨_, band⟩, stable⟩
    constructor
    · intro row top higher
      obtain ⟨other, same, won⟩ := @exists_perm_winning settings rows result row top
      rw [← stable other same, won, foldIn_riskBand, project, if_pos higher] at band
      exact band
    · intro first second topFirst topSecond
      obtain ⟨one, sameOne, wonOne⟩ := @exists_perm_winning settings rows result first topFirst
      obtain ⟨two, sameTwo, wonTwo⟩ := @exists_perm_winning settings rows result second topSecond
      apply @sameOverlay_of_foldIn settings result
      rw [← wonOne, ← wonTwo, stable one sameOne, stable two sameTwo]
  · rintro ⟨band, agree⟩
    refine ⟨?_, fun other same => merge_perm same agree⟩
    cases found : resolveDetail settings.toSettings rows with
    | none => simp [mergeContractAnomaly_of_none found]
    | some resolved =>
      obtain ⟨row, top, rfl⟩ := isTop_of_resolve found
      rw [mergeContractAnomaly_of_some found, foldIn_maxScore, foldIn_riskBand]
      refine ⟨le_max_left _ _, ?_⟩
      split
      · rename_i higher
        exact band row top higher
      · exact le_refl _

end Merge

/-- The configuration as shipped. -/
private def shippedOverlay : OverlaySettings :=
  ⟨⟨true, 80, 0, 100, 59, 10000, 500⟩, 40⟩

/-- A stored row of forty, banded High when its thresholds were lower. -/
private def storedHigh : DetailedResult where
  txHash := "aa"
  maxScore := 40
  maxClass := .largeValue
  riskBand := .high
  analyzedAt := 0
  corroborationCount := 0
  contractAddress := ""
  contractAnomalyUnclusterable := false
  scores := [("large_value", 40)]
  subScores := []
  evidence := []
  contractAnomalyCorroborates := false
  contractAnomalyScoredAt := none

private def verdictAt (target : String) (verdict : Verdict) (consensus : ℚ) : VerdictDetail where
  txHash := "aa"
  target := target
  verdict := verdict
  consensus := some consensus
  unclusterableFit := false
  publishedAt := 0
  clusterId := -1
  votes := 2
  modelId := "m1"
  featureSet := "shape"
  evidence := .dict []
  scoredAt := none

/-- An anomaly of full consensus scores fifty-nine and moves the row from High to Moderate; of two
malicious labels that tie at the floor, the first names the contract. -/
theorem merge_lowers_and_depends_on_order :
    (¬ ∀ (settings : OverlaySettings) (rows : List VerdictDetail) (result : DetailedResult),
      bandRank result.riskBand ≤ bandRank (mergeContractAnomaly settings rows result).riskBand) ∧
    ¬ ∀ (settings : OverlaySettings) (rows other : List VerdictDetail) (result : DetailedResult),
      other.Perm rows → mergeContractAnomaly settings other result = mergeContractAnomaly settings rows result := by
  constructor
  · intro raises
    have band := raises shippedOverlay [verdictAt "c1" .anomaly 1] storedHigh
    exact absurd band (by decide +kernel)
  · intro stable
    have same := stable shippedOverlay [verdictAt "c1" .malicious 0, verdictAt "c2" .malicious 0]
      [verdictAt "c2" .malicious 0, verdictAt "c1" .malicious 0] storedHigh (List.Perm.swap _ _ _)
    have contract := congrArg (fun result => result.contractAddress) same
    exact absurd contract (by decide +kernel)

end TransactionMonitoring.AnomalyOverlay
