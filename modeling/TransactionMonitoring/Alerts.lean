import Mathlib.Algebra.Order.Field.Rat
import Mathlib.Data.List.Dedup
import Mathlib.Data.Prod.Lex
import TransactionMonitoring.SortedWindows
import TransactionMonitoring.Verdicts
import TransactionMonitoring.WhiteSpace

/-! The alert lists of the analysis API.

A transaction has one stored row of scores.  The sidecar's verdicts are folded into it when it
is read: a verdict that scores higher takes over the row's score, band, class and contract.
The database filters and counts on stored rows, so both the flat list and the list grouped by
contract correct its answer in memory.

The store is what one request sees: a `FINAL` row of each transaction that is not archived,
and a verdict of each transaction and watched target.  Scores are exact rationals, times are
seconds.
-/
namespace TransactionMonitoring.Alerts
open SortedWindows Verdicts WhiteSpace

inductive AttackClass where
  | tokenDust
  | largeValue
  | largeDatum
  | multipleSat
  | frontRunning
  | sandwich
  | circular
  | fakeToken
  | phishing
  | contractAnomaly
deriving DecidableEq, Repr

def AttackClass.value : AttackClass → String
  | .tokenDust => "token_dust"
  | .largeValue => "large_value"
  | .largeDatum => "large_datum"
  | .multipleSat => "multiple_sat"
  | .frontRunning => "front_running"
  | .sandwich => "sandwich"
  | .circular => "circular"
  | .fakeToken => "fake_token"
  | .phishing => "phishing"
  | .contractAnomaly => "contract_anomaly"

inductive RiskBand where
  | informational
  | moderate
  | high
  | critical
deriving DecidableEq, Repr

/-- A band as it is stored; rows from before the rename say `Low`. -/
inductive StoredBand where
  | low
  | current (band : RiskBand)
deriving DecidableEq, Repr

/-- `RiskBand(value)`. -/
def StoredBand.parse : StoredBand → RiskBand
  | .low => .informational
  | .current band => band

/-- A row of `tx_class_scores`. -/
structure ScoreRow where
  txHash : String
  maxScore : ℚ
  maxClass : AttackClass
  riskBand : StoredBand
  analyzedAt : Int
  corroborationCount : Nat
  contractAddress : String
deriving DecidableEq

/-- A row of `tx_contract_anomaly`. -/
structure VerdictRow where
  txHash : String
  target : String
  verdict : Verdict
  consensus : Option ℚ
  unclusterableFit : Bool
  publishedAt : Int
deriving DecidableEq

structure Store where
  scores : List ScoreRow
  verdicts : List VerdictRow
  keyed : (scores.map ScoreRow.txHash).Nodup

/-- The `contract_anomaly` block of the configuration, and the caps. -/
structure Settings where
  clusteringEnabled : Bool
  maliciousFloor : ℚ
  anomalyFloor : ℚ
  consensusScale : ℚ
  anomalyConsensusScale : ℚ
  rescueFetchCap : Nat
  groupedAlertsMaxContracts : Nat
deriving DecidableEq

/-! ## Verdicts on the host's scale -/

/-- `score_to_band`. -/
def scoreToBand (score : ℚ) : RiskBand :=
  if 80 ≤ score then .critical else if 60 ≤ score then .high else if 30 < score then .moderate
  else .informational

/-- `project_score`. -/
def projectScore (settings : Settings) (verdict : Verdict) (consensus : Option ℚ) : ℚ :=
  let refined (floor scale : ℚ) := min 100 (max floor ((consensus.map (· * scale)).getD 0))
  match verdict with
  | .benign | .normal => 0
  | .malicious => refined settings.maliciousFloor settings.consensusScale
  | .anomaly => refined settings.anomalyFloor settings.anomalyConsensusScale

def rowScore (settings : Settings) (row : VerdictRow) : ℚ := projectScore settings row.verdict row.consensus

/-- The search of `resolve`: the first row with the highest score, of rows that have at least these columns. -/
def winner {Row : Type} (columns : Row → VerdictRow) (settings : Settings) (rows : List Row) : Option Row :=
  rows.foldl (fun best row =>
    if (best.map fun found => rowScore settings (columns found)).getD (-1) < rowScore settings (columns row) then
      some row
    else best) none

/-- A further row wins where it scores above the winner so far. -/
theorem winner_concat {Row : Type} (columns : Row → VerdictRow) (settings : Settings) (rows : List Row) (row : Row) :
    winner columns settings (rows ++ [row]) =
      if ((winner columns settings rows).map fun found => rowScore settings (columns found)).getD (-1) <
          rowScore settings (columns row) then some row
      else winner columns settings rows := by
  rw [winner, List.foldl_append]
  rfl

/-- What the lists read of the winning row. -/
structure Resolved where
  score : ℚ
  target : String
  unclusterableFit : Bool
deriving DecidableEq

/-- `resolve`. -/
def resolve (settings : Settings) (rows : List VerdictRow) : Option Resolved :=
  (winner id settings rows).map fun row => ⟨rowScore settings row, row.target, row.unclusterableFit⟩

/-- `ClassScoreResult`, as far as the lists depend on it. -/
structure ClassScoreResult where
  txHash : String
  maxScore : ℚ
  maxClass : AttackClass
  riskBand : RiskBand
  analyzedAt : Int
  corroborationCount : Nat
  contractAddress : String
  contractAnomalyUnclusterable : Bool
deriving DecidableEq

/-- `_row_to_class_score`. -/
def rowToClassScore (row : ScoreRow) : ClassScoreResult :=
  ⟨row.txHash, row.maxScore, row.maxClass, row.riskBand.parse, row.analyzedAt, row.corroborationCount,
    row.contractAddress, false⟩

/-- `_merge_contract_anomaly`; a verdict that wins brings its target as the contract. -/
def mergeContractAnomaly (settings : Settings) (rows : List VerdictRow) (result : ClassScoreResult) :
    ClassScoreResult :=
  match resolve settings rows with
  | none => result
  | some resolved =>
      let marked := { result with contractAnomalyUnclusterable := resolved.unclusterableFit }
      if result.maxScore < resolved.score then
        { marked with
          maxScore := resolved.score
          maxClass := .contractAnomaly
          riskBand := scoreToBand resolved.score
          contractAddress := strip resolved.target }
      else marked

/-! ## Filters -/

/-- The filters both lists take. -/
structure Filters where
  /-- Empty for any band. -/
  bands : List RiskBand
  attackClass : Option AttackClass
  minScore : ℚ
  minCorroboration : Nat
  analyzedFrom : Option Int
  analyzedTo : Option Int
deriving DecidableEq

/-- `_within_analyzed_window`. -/
def withinAnalyzedWindow (filters : Filters) (analyzedAt : Int) : Bool :=
  filters.analyzedFrom.all (· ≤ analyzedAt) && filters.analyzedTo.all (analyzedAt < ·)

/-- `_passes_score_band`. -/
def passesScoreBand (filters : Filters) (score : ℚ) (band : RiskBand) : Bool :=
  !(decide (0 < filters.minScore) && decide (score < filters.minScore)) &&
    (filters.bands = [] || decide (band ∈ filters.bands))

/-- `_score_filter_conditions`, on a stored row; without a contract the row may name any. -/
def scoreFilterConditions (filters : Filters) (contract : Option String) (excludeTxHashes : List String)
    (row : ScoreRow) : Bool :=
  (filters.bands = [] || filters.bands.any fun band => row.riskBand = .current band) &&
  filters.attackClass.all (· = row.maxClass) &&
  !(decide (0 < filters.minScore) && decide (row.maxScore < filters.minScore)) &&
  contract.all (· = row.contractAddress) &&
  decide (row.txHash ∉ excludeTxHashes) &&
  decide (filters.minCorroboration ≤ row.corroborationCount) &&
  withinAnalyzedWindow filters row.analyzedAt

inductive SortBy where
  | score
  | date
deriving DecidableEq, Repr

/-- The order of both lists: higher scores or later dates first, then the other. -/
def precedes {α : Type} (score : α → ℚ) (date : α → Int) : SortBy → α → α → Prop
  | .score => fun a b => toLex (score b, date b) ≤ toLex (score a, date a)
  | .date => fun a b => toLex (date b, score b) ≤ toLex (date a, score a)

section
variable {α : Type} {score : α → ℚ} {date : α → Int}

instance : (sort : SortBy) → DecidableRel (precedes score date sort)
  | .score => fun a b => inferInstanceAs (Decidable (toLex (score b, date b) ≤ toLex (score a, date a)))
  | .date => fun a b => inferInstanceAs (Decidable (toLex (date b, score b) ≤ toLex (date a, score a)))

instance (sort : SortBy) : Std.Total (precedes score date sort) where
  total a b := by
    cases sort with
    | score => exact le_total _ _
    | date => exact le_total _ _

instance (sort : SortBy) : IsTrans α (precedes score date sort) where
  trans a b c := by
    intro first second
    cases sort with
    | score => exact le_trans second first
    | date => exact le_trans second first

end

/-! ## The queries -/

/-- `get_class_scores_list`; among equals the rows come as they are stored. -/
def getClassScoresList (store : Store) (filters : Filters) (contract : Option String)
    (excludeTxHashes : List String) (sort : SortBy) (limit offset : Nat) : List ScoreRow :=
  window offset limit ((store.scores.filter (scoreFilterConditions filters contract excludeTxHashes)).insertionSort
    (precedes ScoreRow.maxScore ScoreRow.analyzedAt sort))

/-- `count_class_scores`. -/
def countClassScores (store : Store) (filters : Filters) (contract : Option String)
    (excludeTxHashes : List String) : Nat :=
  store.scores.countP (scoreFilterConditions filters contract excludeTxHashes)

/-- `get_class_scores_by_hashes`. -/
def getClassScoresByHashes (store : Store) (hashes : List String) : List ScoreRow :=
  store.scores.filter (·.txHash ∈ hashes)

/-- `flagged_for_network`: the latest published findings, up to the cap. -/
def flaggedForNetwork (settings : Settings) (store : Store) : List VerdictRow :=
  ((store.verdicts.filter (·.verdict.flagged)).insertionSort fun a b => b.publishedAt ≤ a.publishedAt).take
    settings.rescueFetchCap

/-- The verdict rows of one transaction. -/
def verdictsOf (rows : List VerdictRow) (txHash : String) : List VerdictRow := rows.filter (·.txHash = txHash)

/-! ## The flat list -/

structure ListResponse (α : Type) where
  count : Nat
  total : Nat
  data : List α
deriving DecidableEq

/-- `_clusterable_priority`. -/
def clusterablePriority (result : ClassScoreResult) : Bool :=
  !(result.maxClass = .contractAnomaly && result.contractAnomalyUnclusterable)

/-- `_sort_results`: the order of the queries, with structural noise last among equals. -/
def sortResults (sort : SortBy) (results : List ClassScoreResult) : List ClassScoreResult :=
  (results.insertionSort fun a b => clusterablePriority b ≤ clusterablePriority a).insertionSort
    (precedes ClassScoreResult.maxScore ClassScoreResult.analyzedAt sort)

/-- A row with its flagged verdicts folded in. -/
def effective (settings : Settings) (store : Store) (row : ScoreRow) : ClassScoreResult :=
  mergeContractAnomaly settings (verdictsOf (flaggedForNetwork settings store) row.txHash) (rowToClassScore row)

/-- The stored rows of the flagged transactions (`_flagged_with_stored_rows`). -/
def flaggedRows (settings : Settings) (store : Store) : List ScoreRow :=
  getClassScoresByHashes store ((flaggedForNetwork settings store).map VerdictRow.txHash)

/-- `_list_contract_anomaly_results`. -/
def listContractAnomalyResults (settings : Settings) (store : Store) (filters : Filters)
    (contract : Option String) (sort : SortBy) (limit offset : Nat) : List ClassScoreResult × Nat :=
  let matched := ((flaggedRows settings store).map (effective settings store)).filter fun result =>
    result.maxClass = .contractAnomaly && contract.all (· = result.contractAddress) &&
    withinAnalyzedWindow filters result.analyzedAt &&
    passesScoreBand filters result.maxScore result.riskBand &&
    decide (filters.minCorroboration ≤ result.corroborationCount)
  (window offset limit (sortResults sort matched), matched.length)

/-- `_merge_overlay_onto_page`. -/
def mergeOverlayOntoPage (settings : Settings) (store : Store) (data : List ClassScoreResult) :
    List ClassScoreResult :=
  if settings.clusteringEnabled then
    data.map fun result => mergeContractAnomaly settings (verdictsOf store.verdicts result.txHash) result
  else data

/-- The oldest date a rescued row may have: that of a full page sorted by date. -/
def dateFloor (sort : SortBy) (limit : Nat) (dates : List Int) : Option Int :=
  if limit ≤ dates.length ∧ sort = .date then dates.min? else none

/-- `rescue_active`. -/
def rescueActive (settings : Settings) (filters : Filters) (contract : Option String) (offset : Nat) : Bool :=
  settings.clusteringEnabled && decide (offset = 0) &&
  (decide (0 < filters.minScore) || filters.bands ≠ [] || contract.any (· ≠ "")) &&
  filters.attackClass.isNone && decide (filters.minCorroboration = 0)

/-- `stored_meets`: the query's own score, band and contract conditions. -/
def storedMeets (filters : Filters) (contract : Option String) (row : ScoreRow) : Bool :=
  passesScoreBand filters row.maxScore row.riskBand.parse && contract.all (· = row.contractAddress)

/-- The row is one the query dropped and the folded row meets the filters. -/
def rescues (settings : Settings) (store : Store) (filters : Filters) (contract : Option String)
    (floor : Option Int) (row : ScoreRow) : Bool :=
  withinAnalyzedWindow filters row.analyzedAt && floor.all (· ≤ row.analyzedAt) &&
  contract.all (· = (effective settings store row).contractAddress) && !storedMeets filters contract row &&
  passesScoreBand filters (effective settings store row).maxScore (effective settings store row).riskBand

/-- The rows `_rescue_flagged_onto_page` adds to the page. -/
def rescuedRows (settings : Settings) (store : Store) (filters : Filters) (contract : Option String)
    (sort : SortBy) (limit offset : Nat) (data : List ClassScoreResult) : List ClassScoreResult :=
  if rescueActive settings filters contract offset then
    let present := data.map ClassScoreResult.txHash
    let hashes := ((flaggedForNetwork settings store).map VerdictRow.txHash).filter (· ∉ present)
    let floor := dateFloor sort limit (data.map ClassScoreResult.analyzedAt)
    ((getClassScoresByHashes store hashes).filter (rescues settings store filters contract floor)).map
      (effective settings store)
  else []

/-- `list_analysis_results`. -/
def listAnalysisResults (settings : Settings) (store : Store) (filters : Filters) (contract : Option String)
    (sort : SortBy) (limit offset : Nat) : ListResponse ClassScoreResult :=
  if filters.attackClass = some .contractAnomaly then
    if settings.clusteringEnabled then
      let found := listContractAnomalyResults settings store filters contract sort limit offset
      ⟨found.1.length, found.2, found.1⟩
    else ⟨0, 0, []⟩
  else
    let rows := getClassScoresList store filters contract [] sort limit offset
    let total := countClassScores store filters contract []
    let page := mergeOverlayOntoPage settings store (rows.map rowToClassScore)
    let rescued := rescuedRows settings store filters contract sort limit offset page
    let data := if rescued = [] then page else (sortResults sort (page ++ rescued)).take limit
    ⟨data.length, total + rescued.length, data⟩

/-! ## The list grouped by contract -/

structure AlertGroup where
  contractAddress : String
  alertCount : Nat
  worstScore : ℚ
  worstBand : StoredBand
  worstClass : AttackClass
  classes : List AttackClass
  latestAnalyzedAt : Int
  unclusterableModel : Bool
deriving DecidableEq

/-- `argMax`: among equals the database may pick any row, here the first. -/
def worstRow (first : ScoreRow) (rest : List ScoreRow) : ScoreRow :=
  rest.foldl (fun worst row => if worst.maxScore < row.maxScore then row else worst) first

/-- One group of `group_class_scores_by_contract`. -/
def groupOf (contract : String) (first : ScoreRow) (rest : List ScoreRow) : AlertGroup where
  contractAddress := contract
  alertCount := (first :: rest).length
  worstScore := (worstRow first rest).maxScore
  worstBand := (worstRow first rest).riskBand
  worstClass := (worstRow first rest).maxClass
  classes := ((first :: rest).map ScoreRow.maxClass).dedup
  latestAnalyzedAt := (rest.map ScoreRow.analyzedAt).foldl max first.analyzedAt
  unclusterableModel := false

/-- `group_class_scores_by_contract`. -/
def groupClassScoresByContract (store : Store) (filters : Filters) (sort : SortBy) (limit : Nat) : List AlertGroup :=
  let rows := store.scores.filter fun row =>
    scoreFilterConditions filters none [] row && decide (row.contractAddress ≠ "")
  let groups := (rows.map ScoreRow.contractAddress).dedup.filterMap fun contract =>
    match rows.filter (·.contractAddress = contract) with
    | [] => none
    | first :: rest => some (groupOf contract first rest)
  (groups.insertionSort (precedes AlertGroup.worstScore AlertGroup.latestAnalyzedAt sort)).take limit

/-- `_passes`. -/
def passes (filters : Filters) (result : ClassScoreResult) : Bool :=
  withinAnalyzedWindow filters result.analyzedAt && passesScoreBand filters result.maxScore result.riskBand &&
    decide (filters.minCorroboration ≤ result.corroborationCount)

/-- The change one transaction makes to its effective group. -/
def AlertGroup.absorb (counted : Bool) (result : ClassScoreResult) (group : AlertGroup) : AlertGroup :=
  let absorbed := { group with
    alertCount := if counted then group.alertCount else group.alertCount + 1
    classes := if result.maxClass ∈ group.classes then group.classes else group.classes ++ [result.maxClass]
    latestAnalyzedAt := max group.latestAnalyzedAt result.analyzedAt }
  if group.worstScore < result.maxScore then
    { absorbed with
      worstScore := result.maxScore
      worstBand := .current result.riskBand
      worstClass := result.maxClass
      unclusterableModel := result.maxClass = .contractAnomaly && result.contractAnomalyUnclusterable }
  else absorbed

/-- The group made for a contract the query has none for. -/
def AlertGroup.created (result : ClassScoreResult) : AlertGroup :=
  ⟨result.contractAddress, 0, 0, .current result.riskBand, result.maxClass, [], result.analyzedAt, false⟩

/-- The group of the contract changes, or a new one is appended. -/
def absorbInto (counted : Bool) (result : ClassScoreResult) (groups : List AlertGroup) : List AlertGroup :=
  if groups.any (·.contractAddress = result.contractAddress) then
    groups.map fun group =>
      if group.contractAddress = result.contractAddress then group.absorb counted result else group
  else groups ++ [(AlertGroup.created result).absorb counted result]

/-- `stored_counted`. -/
def storedCounted (filters : Filters) (anomalyOnly : Bool) (row : ScoreRow) : Bool :=
  !anomalyOnly && decide (row.contractAddress ≠ "") && passes filters (rowToClassScore row)

/-- `effective_counted`. -/
def effectiveCounted (filters : Filters) (anomalyOnly : Bool) (result : ClassScoreResult) : Bool :=
  decide (result.contractAddress ≠ "") && passes filters result &&
    !(anomalyOnly && decide (result.maxClass ≠ .contractAnomaly))

/-- One round of the loop in `_augment_groups_with_contract_anomaly`. -/
def augmentGroup (settings : Settings) (store : Store) (filters : Filters) (anomalyOnly : Bool)
    (state : List AlertGroup × List String) (row : ScoreRow) : List AlertGroup × List String :=
  let result := effective settings store row
  if effectiveCounted filters anomalyOnly result then
    (absorbInto (storedCounted filters anomalyOnly row && row.contractAddress = result.contractAddress) result state.1,
      if row.contractAddress = "" then state.2 ++ [result.txHash] else state.2)
  else state

/-- `_augment_groups_with_contract_anomaly`: the groups, and the transactions counted under a
contract although their stored row names none. -/
def augmentGroupsWithContractAnomaly (settings : Settings) (store : Store) (filters : Filters)
    (anomalyOnly : Bool) (groups : List AlertGroup) : List AlertGroup × List String :=
  (flaggedRows settings store).foldl (augmentGroup settings store filters anomalyOnly) (groups, [])

inductive Kind where
  | group
  | alert
deriving DecidableEq, Repr

/-- `GroupedAlertRow`. -/
structure GroupedAlertRow where
  kind : Kind
  contractAddress : String
  alertCount : Nat
  worstScore : ℚ
  worstBand : RiskBand
  latestAnalyzedAt : Int
  txHash : Option String
  attackClass : AttackClass
  attackClasses : List AttackClass
  unclusterableModel : Bool
deriving DecidableEq

def AlertGroup.row (group : AlertGroup) : GroupedAlertRow :=
  ⟨.group, group.contractAddress, group.alertCount, group.worstScore, group.worstBand.parse,
    group.latestAnalyzedAt, none, group.worstClass,
    group.classes.insertionSort fun a b => a.value ≤ b.value, group.unclusterableModel⟩

def ScoreRow.unattributedRow (row : ScoreRow) : GroupedAlertRow :=
  ⟨.alert, "", 1, row.maxScore, row.riskBand.parse, row.analyzedAt, some row.txHash, row.maxClass,
    [row.maxClass], false⟩

structure GroupedAlertsResponse where
  count : Nat
  total : Nat
  alertTotal : Nat
  data : List GroupedAlertRow
deriving DecidableEq

/-- The order of the grouped list. -/
def rowPrecedes (sort : SortBy) : GroupedAlertRow → GroupedAlertRow → Prop :=
  precedes GroupedAlertRow.worstScore GroupedAlertRow.latestAnalyzedAt sort

instance (sort : SortBy) : DecidableRel (rowPrecedes sort) :=
  inferInstanceAs (DecidableRel (precedes _ _ sort))

/-- `page_skip`. -/
def pageSkip (groups : List AlertGroup) (offset : Nat) : Nat := offset - groups.length

/-- The end of `list_analysis_result_groups`: the page, from the groups and the query for the
alerts that name no contract. -/
def groupedPage (sort : SortBy) (groups : List AlertGroup) (unattributed : Nat → Nat → List ScoreRow)
    (unattributedTotal limit offset : Nat) : GroupedAlertsResponse :=
  let skip := pageSkip groups offset
  let rows := groups.map AlertGroup.row ++ (unattributed skip (offset + limit - skip)).map ScoreRow.unattributedRow
  let page := window (offset - skip) limit (rows.insertionSort (rowPrecedes sort))
  { count := page.length
    total := groups.length + unattributedTotal
    alertTotal := (groups.map AlertGroup.alertCount).sum + unattributedTotal
    data := page }

/-- The groups of a request, and the transactions the query for the other alerts leaves out. -/
def requestedGroups (settings : Settings) (store : Store) (filters : Filters) (sort : SortBy) :
    List AlertGroup × List String :=
  let anomalyOnly := decide (filters.attackClass = some .contractAnomaly)
  let groups :=
    if anomalyOnly then []
    else groupClassScoresByContract store filters sort settings.groupedAlertsMaxContracts
  if settings.clusteringEnabled && (anomalyOnly || filters.attackClass.isNone) then
    augmentGroupsWithContractAnomaly settings store filters anomalyOnly groups
  else (groups, [])

/-- `list_analysis_result_groups`. -/
def listAnalysisResultGroups (settings : Settings) (store : Store) (filters : Filters) (sort : SortBy)
    (limit offset : Nat) : GroupedAlertsResponse :=
  let (groups, rehomed) := requestedGroups settings store filters sort
  if filters.attackClass = some .contractAnomaly then
    if settings.clusteringEnabled then
      -- No alert of this class is without a contract of its own, so none is asked for.
      let page := window offset limit ((groups.map AlertGroup.row).insertionSort (rowPrecedes sort))
      ⟨page.length, groups.length, (groups.map AlertGroup.alertCount).sum, page⟩
    else ⟨0, 0, 0, []⟩
  else
    groupedPage sort groups
      (fun skip need => getClassScoresList store filters (some "") rehomed sort need skip)
      (countClassScores store filters (some "") rehomed) limit offset

end TransactionMonitoring.Alerts
