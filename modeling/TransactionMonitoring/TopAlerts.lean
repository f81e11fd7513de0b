import TransactionMonitoring.AnomalyOverlay

/-! The periodic report's top alerts.

The stored rows come from one query with a limit and are narrowed to the report's classes
afterwards; the sidecar's findings are folded in and the whole is ranked again.
-/
namespace TransactionMonitoring.TopAlerts
open Alerts AnomalyOverlay

/-- A row of `tx_class_scores`; a transaction that scores nothing has no class. -/
structure StoredRow where
  txHash : String
  maxScore : ℚ
  maxClass : Option AttackClass
  riskBand : StoredBand
  analyzedAt : Int
  archived : Bool
deriving DecidableEq

/-- What the report reads: a `FINAL` row of each transaction, none of them of the class that only
the sidecar gives, and the flagged verdicts of each transaction, if the sidecar answers. -/
structure Store where
  rows : List StoredRow
  flagged : Option (List (List VerdictDetail))
  keyed : (rows.map StoredRow.txHash).Nodup
  scored : ∀ row ∈ rows, row.maxClass ≠ some .contractAnomaly

/-- `attack_classes`. -/
inductive Scope where
  | all
  | only (classes : List AttackClass)
deriving DecidableEq

/-- The report's arguments and settings. -/
structure Request where
  windowStart : Int
  windowEnd : Int
  /-- `min_band`, none for a text that is no band. -/
  minBand : Option RiskBand
  attackClasses : Scope
  /-- `NOTIFY_REPORT_TOP_ALERTS`. -/
  topN : Nat
deriving DecidableEq

structure TopAlert where
  txHash : String
  attackClass : Option AttackClass
  riskScore : ℚ
  riskBand : StoredBand
  timestamp : Option Int
deriving DecidableEq

/-- `_BAND_ORDER`. -/
def bandOrder : List RiskBand := [.informational, .moderate, .high, .critical]

/-- `_bands_at_or_above`. -/
def bandsAtOrAbove : Option RiskBand → List RiskBand
  | none => bandOrder
  | some band => bandOrder.dropWhile (· ≠ band)

/-- `in_scope`. -/
def Scope.contains : Scope → Option AttackClass → Bool
  | .all, attackClass => attackClass.isSome
  | .only classes, attackClass => attackClass.any (· ∈ classes)

/-- The rows the query may return: not archived, at or above the band and in the window. -/
def inQuery (request : Request) (row : StoredRow) : Bool :=
  !row.archived && (bandsAtOrAbove request.minBand).any (fun band => row.riskBand = .current band) &&
    decide (request.windowStart ≤ row.analyzedAt) && decide (row.analyzedAt < request.windowEnd)

/-- The rows the query may return, in its order. -/
def ranked (request : Request) (rows : List StoredRow) : List StoredRow :=
  (rows.filter (inQuery request)).insertionSort (precedes StoredRow.maxScore StoredRow.analyzedAt .score)

def fetchLimit (request : Request) : Nat :=
  match request.attackClasses with
  | .all => request.topN
  | .only _ => max (request.topN * 5) 50

/-- `_in_window`. -/
def inWindow (request : Request) (stamps : List (Option Int)) : Bool :=
  stamps.any fun stamp => stamp.any fun time => request.windowStart ≤ time && time ≤ request.windowEnd

/-- Of one transaction's verdicts the winner, if it counts in the window. -/
def finding (settings : Settings) (request : Request) (rows : List VerdictDetail) : Option ResolvedDetail :=
  (resolveDetail settings rows).filter fun winner =>
    decide (winner.riskBand ∈ bandsAtOrAbove request.minBand) &&
      inWindow request (winner.scoredAt :: rows.map fun row => some row.publishedAt)

/-- `_contract_anomaly_in_window`. -/
def contractAnomalyInWindow (settings : Settings) (request : Request) (flagged : Option (List (List VerdictDetail))) :
    List ResolvedDetail :=
  ((flagged.getD []).filterMap (finding settings request)).insertionSort fun a b => b.score ≤ a.score

/-- `ca_findings`. -/
def caFindings (settings : Settings) (request : Request) (store : Store) : List ResolvedDetail :=
  if settings.clusteringEnabled && request.attackClasses.contains (some .contractAnomaly) then
    contractAnomalyInWindow settings request store.flagged
  else []

def StoredRow.alert (row : StoredRow) : TopAlert :=
  ⟨row.txHash, row.maxClass, row.maxScore, row.riskBand, some row.analyzedAt⟩

def findingAlert (winner : ResolvedDetail) : TopAlert :=
  ⟨winner.txHash, some .contractAnomaly, winner.score, .current winner.riskBand, winner.scoredAt⟩

/-- The loop over the fetched rows; it counts after it appends. -/
def collect (request : Request) : List TopAlert → List StoredRow → List TopAlert
  | topAlerts, [] => topAlerts
  | topAlerts, row :: rest =>
      if request.attackClasses.contains row.maxClass then
        if request.topN ≤ (topAlerts ++ [row.alert]).length then topAlerts ++ [row.alert]
        else collect request (topAlerts ++ [row.alert]) rest
      else collect request topAlerts rest

/-- The report's order: higher scores first. -/
def byScore (alerts : List TopAlert) : List TopAlert := alerts.insertionSort fun a b => b.riskScore ≤ a.riskScore

/-- `top_alerts`. -/
def topAlerts (settings : Settings) (request : Request) (store : Store) : List TopAlert :=
  let stored := collect request [] ((ranked request store.rows).take (fetchLimit request))
  let findings := caFindings settings request store
  if findings = [] then stored
  else (byScore (stored ++ findings.map findingAlert)).take request.topN

/-! ## Against the whole window -/

/-- The query's rows of the report's classes that the fetch returns. -/
def fetchedInScope (request : Request) (store : Store) : List StoredRow :=
  ((ranked request store.rows).take (fetchLimit request)).filter fun row => request.attackClasses.contains row.maxClass

/-- The query's rows of the report's classes beyond the fetch. -/
def missedInScope (request : Request) (store : Store) : List StoredRow :=
  ((ranked request store.rows).drop (fetchLimit request)).filter fun row => request.attackClasses.contains row.maxClass

/-- Every alert of the window that is in scope, in the report's order. -/
def allAlerts (settings : Settings) (request : Request) (store : Store) : List TopAlert :=
  let inScope := (ranked request store.rows).filter fun row => request.attackClasses.contains row.maxClass
  byScore (inScope.map StoredRow.alert ++ (caFindings settings request store).map findingAlert)

/-- The first row that is missed has `topN` alerts before it; and where none are wanted and the
sidecar has none, none is fetched. -/
def ReachesTop (settings : Settings) (request : Request) (store : Store) : Prop :=
  (∀ row, (missedInScope request store).head? = some row →
    request.topN ≤ (fetchedInScope request store).length +
      (caFindings settings request store).countP fun winner => row.maxScore < winner.score) ∧
  (request.topN = 0 → caFindings settings request store = [] → fetchedInScope request store = [])

/-- Higher scores first, as an ascending key. -/
def rank (alert : TopAlert) : ℚᵒᵈ := OrderDual.toDual alert.riskScore

theorem byScore_eq (alerts : List TopAlert) : byScore alerts = alerts.insertionSort (rank · ≤ rank ·) := rfl

section
variable {settings : Settings} {request : Request} {store : Store}

theorem fetched_append_missed (request : Request) (store : Store) :
    (ranked request store.rows).filter (fun row => request.attackClasses.contains row.maxClass) =
      fetchedInScope request store ++ missedInScope request store := by
  rw [fetchedInScope, missedInScope, ← List.filter_append, List.take_append_drop]

theorem ranked_sorted (request : Request) (rows : List StoredRow) :
    (ranked request rows).Pairwise fun a b => rank a.alert ≤ rank b.alert := by
  have sorted : (ranked request rows).Pairwise (precedes StoredRow.maxScore StoredRow.analyzedAt .score) :=
    List.pairwise_insertionSort _ _
  apply sorted.imp
  intro a b before
  exact Prod.Lex.monotone_fst _ _ before

theorem alerts_sorted (request : Request) (store : Store) :
    ((fetchedInScope request store).map StoredRow.alert ++ (missedInScope request store).map StoredRow.alert).Pairwise
      (rank · ≤ rank ·) := by
  rw [← List.map_append, ← fetched_append_missed, List.pairwise_map]
  exact (ranked_sorted request store.rows).sublist List.filter_sublist

theorem mem_rows_of_missed {row : StoredRow} (missed : row ∈ missedInScope request store) : row ∈ store.rows := by
  have inRanked := List.mem_of_mem_drop (List.mem_filter.mp missed).1
  exact List.mem_of_mem_filter ((List.mem_insertionSort _).mp inRanked)

/-- A row that is missed is none of the alerts that are fetched. -/
theorem missed_fresh {row : StoredRow} (missed : row ∈ missedInScope request store) :
    row.alert ∉ (fetchedInScope request store).map StoredRow.alert ++
      (caFindings settings request store).map findingAlert := by
  intro member
  rcases List.mem_append.mp member with fetched | found
  · obtain ⟨other, otherFetched, same⟩ := List.mem_map.mp fetched
    have hashes : other.txHash = row.txHash := congrArg TopAlert.txHash same
    have distinct : ((ranked request store.rows).map StoredRow.txHash).Nodup := by
      have perm := (List.perm_insertionSort (precedes StoredRow.maxScore StoredRow.analyzedAt .score)
        (store.rows.filter (inQuery request))).map StoredRow.txHash
      exact perm.nodup_iff.mpr (store.keyed.sublist (List.filter_sublist.map _))
    rw [← List.take_append_drop (fetchLimit request) (ranked request store.rows), List.map_append] at distinct
    apply (List.nodup_append.mp distinct).2.2 other.txHash (List.mem_map_of_mem (List.mem_filter.mp otherFetched).1)
      row.txHash (List.mem_map_of_mem (List.mem_filter.mp missed).1)
    exact hashes
  · obtain ⟨winner, -, same⟩ := List.mem_map.mp found
    have classes : some AttackClass.contractAnomaly = row.maxClass := congrArg TopAlert.attackClass same
    exact store.scored row (mem_rows_of_missed missed) classes.symm

/-- The loop takes the first rows in scope, one at least. -/
theorem collect_eq (request : Request) (rows : List StoredRow) (taken : List TopAlert)
    (space : taken.length < max request.topN 1) :
    collect request taken rows =
      taken ++ ((rows.filter fun row => request.attackClasses.contains row.maxClass).map StoredRow.alert).take
        (max request.topN 1 - taken.length) := by
  induction rows generalizing taken with
  | nil => simp [collect]
  | cons row rest ih =>
    cases inScope : request.attackClasses.contains row.maxClass with
    | false => simp [collect, inScope, ih taken space]
    | true =>
      rw [List.filter_cons_of_pos (by simpa using inScope), List.map_cons, collect, if_pos inScope,
        List.length_append, List.length_singleton]
      by_cases full : request.topN ≤ taken.length + 1
      · have one : max request.topN 1 - taken.length = 0 + 1 := by omega
        rw [if_pos full, one, List.take_succ_cons, List.take_zero]
      · have more : max request.topN 1 - taken.length = (max request.topN 1 - (taken.length + 1)) + 1 := by omega
        have more' : (taken ++ [row.alert]).length < max request.topN 1 := by
          rw [List.length_append, List.length_singleton]
          omega
        rw [if_neg full, ih _ more', more, List.take_succ_cons, List.length_append, List.length_singleton,
          List.append_assoc]
        rfl

theorem collect_fetched (request : Request) (store : Store) :
    collect request [] ((ranked request store.rows).take (fetchLimit request)) =
      ((fetchedInScope request store).map StoredRow.alert).take (max request.topN 1) := by
  rw [collect_eq request _ [] (by simp)]
  rfl

/-- Where some are wanted, the report ranks what it fetched and found. -/
theorem topAlerts_eq (settings : Settings) (store : Store) (wanted : 0 < request.topN) :
    topAlerts settings request store =
      (byScore ((fetchedInScope request store).map StoredRow.alert ++
        (caFindings settings request store).map findingAlert)).take request.topN := by
  have sorted := (List.pairwise_append.mp (alerts_sorted request store)).1
  have atLeastOne : max request.topN 1 = request.topN := max_eq_left wanted
  unfold topAlerts
  rw [collect_fetched, atLeastOne]
  dsimp only
  split
  · next none' => rw [none', List.map_nil, List.append_nil, byScore_eq, sorted.insertionSort_eq]
  · rw [byScore_eq, byScore_eq]
    exact SortedWindows.take_insertionSort_take rank sorted _ request.topN

theorem topAlerts_of_none_wanted (settings : Settings) (store : Store) (none' : request.topN = 0) :
    topAlerts settings request store = [] ↔
      (caFindings settings request store = [] → fetchedInScope request store = []) := by
  unfold topAlerts
  rw [collect_fetched, none']
  dsimp only
  split
  · next noFindings =>
    rw [noFindings]
    cases fetchedInScope request store with
    | nil => simp
    | cons row rest => simp
  · next findings => simp [findings]

end

/-- **The report's top alerts, exactly.**  For every store and request the list is the first `topN`
of all alerts in scope if and only if the first row in scope that the fetch misses has `topN`
alerts before it, among the rows fetched and the findings that score higher; and, should the
report want none, the loop finds no row to append before it counts. -/
theorem top_alerts_true_iff (settings : Settings) (request : Request) (store : Store) :
    topAlerts settings request store = (allAlerts settings request store).take request.topN ↔
      ReachesTop settings request store := by
  rcases Nat.eq_zero_or_pos request.topN with none' | wanted
  · rw [none', List.take_zero, topAlerts_of_none_wanted settings store none']
    constructor
    · intro nothing
      exact ⟨fun _ _ => none' ▸ Nat.zero_le _, fun _ => nothing⟩
    · rintro ⟨-, nothing⟩
      exact nothing none'
  · have counts (row : StoredRow) :
        ((caFindings settings request store).map findingAlert).countP (rank · < rank row.alert) =
          (caFindings settings request store).countP fun winner => row.maxScore < winner.score := by
      rw [List.countP_map]
      rfl
    have fresh : ∀ next, ((missedInScope request store).map StoredRow.alert).head? = some next →
        next ∉ (fetchedInScope request store).map StoredRow.alert ++
          (caFindings settings request store).map findingAlert := by
      intro next isFirst
      obtain ⟨row, missed, rfl⟩ := List.mem_map.mp (List.mem_of_mem_head? isFirst)
      exact missed_fresh missed
    have whole : allAlerts settings request store =
        byScore ((fetchedInScope request store).map StoredRow.alert ++
          (missedInScope request store).map StoredRow.alert ++
          (caFindings settings request store).map findingAlert) := by
      rw [allAlerts, fetched_append_missed, List.map_append]
    have positions := @SortedWindows.take_insertionSort_iff _ _ _ rank _ _ _ request.topN
      (alerts_sorted request store) fresh
    rw [topAlerts_eq settings store wanted, whole, byScore_eq, byScore_eq, positions]
    simp only [List.head?_map, Option.map_eq_some_iff, List.length_map]
    constructor
    · intro enough
      refine ⟨?_, ?_⟩
      · intro row isFirst
        rw [← counts row]
        exact enough row.alert ⟨row, isFirst, rfl⟩
      · intro none'
        omega
    · rintro ⟨enough, -⟩ next ⟨row, isFirst, rfl⟩
      rw [counts row]
      exact enough row isFirst

/-- Fifty phishing alerts above one sandwich, in a report on sandwiches. -/
def loudRows : List StoredRow :=
  ((List.range 50).map fun i =>
    ⟨String.ofList (List.replicate (i + 1) 'a'), 90, some .phishing, .current .critical, 10, false⟩) ++
    [⟨"b", 70, some .sandwich, .current .high, 10, false⟩]

def loudStore : Store where
  rows := loudRows
  flagged := none
  keyed := by decide +kernel
  scored := by decide +kernel

def sandwichRequest : Request := ⟨0, 20, some .moderate, .only [.sandwich], 10⟩

/-- The report on sandwiches lists none, though the window has one. -/
theorem top_alerts_starved :
    ¬∀ (settings : Settings) (request : Request) (store : Store),
      topAlerts settings request store = (allAlerts settings request store).take request.topN := by
  intro isTop
  have reaches := isTop ⟨false, 80, 0, 100, 50, 100, 100⟩ sandwichRequest loudStore
  exact absurd reaches (by decide +kernel)

end TransactionMonitoring.TopAlerts
