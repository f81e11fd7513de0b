import Mathlib.Data.List.GetD
import Mathlib.Data.List.Sort
import TransactionMonitoring.AverageRanks

/-! The detectors that rank a contract's transactions for review.

An isolation forest, the local outlier factor and the noise of DBSCAN are fused by rank.  What the
libraries make of the data is a parameter: scores of any linear order for the first two, a cluster or
none for the third.  Normalized ranks are exact numbers.
-/
namespace TransactionMonitoring.Ensemble
open AverageRanks

inductive Metric where
  | euclidean
  | precomputed
deriving DecidableEq, Repr

structure ClusteringInput where
  txHashes : List String
  metric : Metric
  /-- The columns of a feature matrix. -/
  nFeatures : ℕ
deriving DecidableEq, Repr

/-- What the detectors take from `clustering.yaml`. -/
structure Tunables where
  lofNeighbors : ℕ
  fallbackEpsPrecomputed : ℚ
  fallbackEpsEuclidean : ℚ
  flagVoteThreshold : ℕ
  precomputedMinSamples : ℕ
  minSamplesFloor : ℕ
  minSamplesCeil : ℕ
deriving DecidableEq, Repr

/-- The scores of one transaction; higher is more anomalous. -/
structure Signal (α : Type) where
  txHash : String
  iso : α
  lof : α
  label : ℤ
deriving DecidableEq, Repr

/-- The libraries, fitted on one input. -/
structure Estimators (α : Type) (ci : ClusteringInput) where
  /-- `k_distance`, the knee of it. -/
  kneeEps : ℕ → Option ℚ
  /-- The detectors at LOF's number of neighbours and at DBSCAN's parameters. -/
  fit : (lofNeighbors : ℕ) → (eps : ℚ) → (minSamples : ℕ) → List (Signal α)
  /-- They score each transaction, in order. -/
  aligned : ∀ lofNeighbors eps minSamples, (fit lofNeighbors eps minSamples).map Signal.txHash = ci.txHashes

/-- One transaction of an `AnomalyResult`. -/
structure Row (α : Type) where
  txHash : String
  iso : Option α
  lof : α
  dbscanNoise : ℕ
  consensus : ℚ
  votes : ℕ
  rank : ℕ
deriving DecidableEq, Repr

structure AnomalyResult (α : Type) where
  rows : List (Row α)
  methods : List String
  eps : ℚ
  minSamples : ℕ
deriving DecidableEq, Repr

/-- `default_min_samples`. -/
def defaultMinSamples (tunables : Tunables) (ci : ClusteringInput) : ℕ :=
  match ci.metric with
  | .precomputed => tunables.precomputedMinSamples
  | .euclidean => min (max (2 * ci.nFeatures) tunables.minSamplesFloor) tunables.minSamplesCeil

def lofK (n lofNeighbors : ℕ) : ℕ := max 2 (min lofNeighbors (n - 1))

def Signal.noise {α : Type} (signal : Signal α) : ℕ := if signal.label = -1 then 1 else 0

section
variable {α : Type} [LinearOrder α] (metric : Metric) (signals : List (Signal α)) (threshold : ℚ) (signal : Signal α)

def lofNorm : ℚ := rankNorm (signals.map Signal.lof) signal.lof

def isoNorm : ℚ := rankNorm (signals.map Signal.iso) signal.iso

def votes : ℕ :=
  let votes := signal.noise + if threshold ≤ lofNorm signals signal then 1 else 0
  match metric with
  | .precomputed => votes
  | .euclidean => votes + if threshold ≤ isoNorm signals signal then 1 else 0

/-- The mean of the detectors there are. -/
def consensus : ℚ :=
  match metric with
  | .precomputed => (lofNorm signals signal + signal.noise) / 2
  | .euclidean => (isoNorm signals signal + lofNorm signals signal + signal.noise) / 3

/-- `np.argsort(-consensus, kind="stable")`. -/
def argsort (values : List ℚ) : List ℕ :=
  (List.range values.length).insertionSort fun one other => values.getD other 0 ≤ values.getD one 0

/-- The row of the transaction at an index. -/
def row (index : ℕ) : Row α where
  txHash := signal.txHash
  iso := match metric with
    | .precomputed => none
    | .euclidean => some signal.iso
  lof := signal.lof
  dbscanNoise := signal.noise
  consensus := consensus metric signals signal
  votes := votes metric signals threshold signal
  rank := (argsort (signals.map (consensus metric signals))).idxOf index + 1

def rows : List (Row α) := signals.zipIdx.map fun (signal, index) => row metric signals threshold signal index

/-- `detect_anomalies`. -/
def detectAnomalies (tunables : Tunables) {ci : ClusteringInput} (estimators : Estimators α ci)
    (eps : Option ℚ) (minSamples : Option ℕ) (topQuantile : ℚ) (lofNeighbors : ℕ) : AnomalyResult α :=
  if ci.txHashes.length = 0 then ⟨[], [], 0, 0⟩
  else
    let minSamples := minSamples.getD (defaultMinSamples tunables ci)
    let fallback := match ci.metric with
      | .precomputed => tunables.fallbackEpsPrecomputed
      | .euclidean => tunables.fallbackEpsEuclidean
    -- A knee at zero is as good as none.
    let eps := eps.getD (((estimators.kneeEps minSamples).filter (· ≠ 0)).getD fallback)
    let signals := estimators.fit (lofK ci.txHashes.length lofNeighbors) eps minSamples
    { rows := rows ci.metric signals (1 - topQuantile)
      methods := match ci.metric with
        | .precomputed => ["lof", "dbscan"]
        | .euclidean => ["isolation_forest", "lof", "dbscan"]
      eps, minSamples }

/-- What `_detect_ci` reports as flagged. -/
def nFlagged (tunables : Tunables) (result : AnomalyResult α) : ℕ :=
  result.rows.countP fun row => tunables.flagVoteThreshold ≤ row.votes

end

/-! What a higher score of one detector does. -/

section
variable {α : Type} [LinearOrder α] {metric : Metric} {signals : List (Signal α)} {threshold : ℚ}

/-- One transaction is as suspicious as another to each detector there is. -/
structure Row.AtLeast (row other : Row α) : Prop where
  iso : ∀ score ∈ row.iso, ∀ lower ∈ other.iso, lower ≤ score
  lof : other.lof ≤ row.lof
  noise : other.dbscanNoise ≤ row.dbscanNoise

/-- And more so to one. -/
structure Row.Dominates (row other : Row α) : Prop extends row.AtLeast other where
  strictly : (∃ score ∈ row.iso, ∃ lower ∈ other.iso, lower < score) ∨ other.lof < row.lof ∨
    other.dbscanNoise < row.dbscanNoise

theorem mem_rows {found : Row α} :
    found ∈ rows metric signals threshold ↔
      ∃ (index : ℕ) (here : index < signals.length), found = row metric signals threshold signals[index] index := by
  rw [rows, List.mem_map]
  constructor
  · rintro ⟨⟨signal, index⟩, member, rfl⟩
    obtain ⟨here, same⟩ := List.mem_zipIdx' member
    refine ⟨index, here, ?_⟩
    rw [← same]
  · rintro ⟨index, here, rfl⟩
    exact ⟨(signals[index], index), List.mk_mem_zipIdx_iff_getElem?.mpr (List.getElem?_eq_getElem here), rfl⟩

/-- The indices come in the order of their values. -/
theorem argsort_perm (values : List ℚ) : (argsort values).Perm (List.range values.length) :=
  List.perm_insertionSort _ _

theorem argsort_sorted (values : List ℚ) :
    (argsort values).Pairwise fun one other => values.getD other 0 ≤ values.getD one 0 := by
  have total : Std.Total fun one other : ℕ => values.getD other 0 ≤ values.getD one 0 :=
    ⟨fun one other => le_total _ _⟩
  have transitive : IsTrans ℕ fun one other => values.getD other 0 ≤ values.getD one 0 :=
    ⟨fun _ _ _ second first => first.trans second⟩
  exact List.pairwise_insertionSort _ _

theorem idxOf_argsort_lt {values : List ℚ} {one other : ℕ} (here : one < values.length) (there : other < values.length)
    (higher : values[other] < values[one]) : (argsort values).idxOf one < (argsort values).idxOf other := by
  have listed : ∀ {index : ℕ}, index < values.length → index ∈ argsort values := fun below =>
    (argsort_perm values).mem_iff.mpr (List.mem_range.mpr below)
  by_contra behind
  have apart : (argsort values).idxOf other ≠ (argsort values).idxOf one := by
    intro same
    obtain rfl := (List.idxOf_inj (listed there)).mp same
    exact lt_irrefl _ higher
  have before : (argsort values).idxOf other < (argsort values).idxOf one := by
    omega
  have sorted := List.pairwise_iff_getElem.mp (argsort_sorted values) _ _
    (List.idxOf_lt_length_of_mem (listed there)) (List.idxOf_lt_length_of_mem (listed here)) before
  rw [List.getElem_idxOf, List.getElem_idxOf, List.getD_eq_getElem _ _ here, List.getD_eq_getElem _ _ there] at sorted
  exact absurd higher sorted.not_gt

/-- The ranks are the places from one on, each taken once. -/
theorem ranks_perm (metric : Metric) (signals : List (Signal α)) (threshold : ℚ) :
    ((rows metric signals threshold).map Row.rank).Perm (List.range' 1 signals.length) := by
  set order := argsort (signals.map (consensus metric signals)) with ordered
  have perm : order.Perm (List.range signals.length) := by
    rw [ordered]
    refine (argsort_perm _).trans ?_
    rw [List.length_map]
  have ranks : (rows metric signals threshold).map Row.rank =
      (List.range signals.length).map fun index => order.idxOf index + 1 := by
    rw [rows, List.map_map]
    refine List.ext_getElem ?_ fun index here there => ?_
    · simp
    · simp [row, ordered]
  have places : order.map (fun index => order.idxOf index + 1) = List.range' 1 signals.length := by
    have nodup : order.Nodup := perm.nodup_iff.mpr List.nodup_range
    refine List.ext_getElem ?_ fun index here there => ?_
    · simp [perm.length_eq]
    · rw [List.getElem_map, nodup.idxOf_getElem, List.getElem_range']
      omega
  rw [ranks, ← places]
  exact (perm.map _).symm

theorem isoNorm_le {one other : Signal α} (here : one ∈ signals) (there : other ∈ signals)
    (above : other.iso ≤ one.iso) :
    isoNorm signals other ≤ isoNorm signals one :=
  rankNorm_le above (List.mem_map_of_mem there) (List.mem_map_of_mem here)

theorem lofNorm_le {one other : Signal α} (here : one ∈ signals) (there : other ∈ signals)
    (above : other.lof ≤ one.lof) :
    lofNorm signals other ≤ lofNorm signals one :=
  rankNorm_le above (List.mem_map_of_mem there) (List.mem_map_of_mem here)

/-- What a detector above the threshold counts for. -/
theorem vote_le (threshold : ℚ) {lower higher : ℚ} (above : lower ≤ higher) :
    (if threshold ≤ lower then 1 else 0) ≤ if threshold ≤ higher then 1 else 0 := by
  split
  · next reaches =>
    rw [if_pos (reaches.trans above)]
  · exact Nat.zero_le _

/-- Whatever is as suspicious to each detector has as many votes. -/
theorem votes_le {one other : Signal α} {index place : ℕ} (here : one ∈ signals) (there : other ∈ signals)
    (atLeast : (row metric signals threshold one index).AtLeast (row metric signals threshold other place)) :
    votes metric signals threshold other ≤ votes metric signals threshold one := by
  have lof : _ ≤ _ := vote_le threshold (lofNorm_le here there atLeast.lof)
  have noise : other.noise ≤ one.noise := atLeast.noise
  cases metric with
  | precomputed => exact Nat.add_le_add noise lof
  | euclidean =>
    have iso : _ ≤ _ := vote_le threshold (isoNorm_le here there (atLeast.iso _ rfl _ rfl))
    exact Nat.add_le_add (Nat.add_le_add noise lof) iso

/-- Whatever is more suspicious to one detector, and as suspicious to the others, has the higher consensus. -/
theorem consensus_lt {one other : Signal α} {index place : ℕ} (here : one ∈ signals) (there : other ∈ signals)
    (dominates : (row metric signals threshold one index).Dominates (row metric signals threshold other place)) :
    consensus metric signals other < consensus metric signals one := by
  have lof := lofNorm_le here there dominates.lof
  have noise : (other.noise : ℚ) ≤ one.noise := by
    exact_mod_cast dominates.noise
  have lofStrictly : other.lof < one.lof → lofNorm signals other < lofNorm signals one := fun above =>
    rankNorm_lt above (List.mem_map_of_mem there) (List.mem_map_of_mem here)
  have noiseStrictly : other.noise < one.noise → (other.noise : ℚ) < one.noise := fun above => by
    exact_mod_cast above
  cases metric with
  | precomputed =>
    rw [consensus, consensus]
    refine div_lt_div_of_pos_right ?_ two_pos
    obtain ⟨_, none, -⟩ | above | above := dominates.strictly
    · cases none
    · linarith [lofStrictly above]
    · linarith [noiseStrictly above]
  | euclidean =>
    have iso := isoNorm_le here there (dominates.iso _ rfl _ rfl)
    rw [consensus, consensus]
    refine div_lt_div_of_pos_right ?_ three_pos
    obtain ⟨_, same, _, sameToo, above⟩ | above | above := dominates.strictly
    · cases same
      cases sameToo
      have isoStrictly : isoNorm signals other < isoNorm signals one :=
        rankNorm_lt above (List.mem_map_of_mem there) (List.mem_map_of_mem here)
      linarith
    · linarith [lofStrictly above]
    · linarith [noiseStrictly above]

/-- A higher consensus comes first. -/
theorem rank_lt {one other : ℕ} (here : one < signals.length) (there : other < signals.length)
    (higher : consensus metric signals signals[other] < consensus metric signals signals[one]) :
    (row metric signals threshold signals[one] one).rank <
      (row metric signals threshold signals[other] other).rank := by
  refine Nat.add_lt_add_right (idxOf_argsort_lt ?_ ?_ ?_) 1
  · rwa [List.length_map]
  · rwa [List.length_map]
  · rwa [List.getElem_map, List.getElem_map]

end

/-! How many alarms there can be. -/

section
variable {α : Type} [LinearOrder α] {metric : Metric} {signals : List (Signal α)} {threshold : ℚ}

/-- The detectors that vote by rank. -/
def ranking : Metric → ℕ
  | .precomputed => 1
  | .euclidean => 2

/-- So many votes were cast in all. -/
theorem sum_votes (some_ : List (Signal α)) :
    (some_.map (votes metric signals threshold)).sum = (some_.map Signal.noise).sum +
      some_.countP (fun signal => threshold ≤ lofNorm signals signal) +
      match metric with
      | .precomputed => 0
      | .euclidean => some_.countP fun signal => threshold ≤ isoNorm signals signal := by
  induction some_ with
  | nil =>
    cases metric with
    | precomputed => rfl
    | euclidean => rfl
  | cons head rest ih =>
    rw [List.map_cons, List.sum_cons, ih, List.map_cons, List.sum_cons, List.countP_cons]
    cases metric with
    | precomputed =>
      simp only [votes, decide_eq_true_eq]
      omega
    | euclidean =>
      simp only [votes, List.countP_cons, decide_eq_true_eq]
      omega

/-- Whoever has enough votes took them from all that were cast. -/
theorem mul_countP_le (least : ℕ) (counts : List ℕ) : least * counts.countP (least ≤ ·) ≤ counts.sum := by
  induction counts with
  | nil => exact Nat.le_refl 0
  | cons head rest ih =>
    rw [List.countP_cons, List.sum_cons, Nat.mul_add]
    split
    · next enough =>
      have : least ≤ head := of_decide_eq_true enough
      omega
    · omega

/-- What the rows count is what the signals count. -/
theorem map_votes_rows :
    (rows metric signals threshold).map Row.votes = signals.map (votes metric signals threshold) := by
  rw [rows, List.map_map]
  refine List.ext_getElem ?_ fun index here there => ?_
  · simp
  · simp [row]

theorem map_dbscanNoise_rows : (rows metric signals threshold).map Row.dbscanNoise = signals.map Signal.noise := by
  rw [rows, List.map_map]
  refine List.ext_getElem ?_ fun index here there => ?_
  · simp
  · simp [row]

/-- The votes that were cast by rank. -/
theorem sum_votes_le (metric : Metric) {quantile : ℚ} (some_ : 0 < signals.length) (share : 0 ≤ quantile) :
    ((signals.map (votes metric signals (1 - quantile))).sum : ℚ) ≤
      (signals.map Signal.noise).sum + ranking metric * (2 * (quantile * (signals.length - 1)) + 1) := by
  have lof : (signals.countP (fun signal => 1 - quantile ≤ lofNorm signals signal) : ℚ) ≤
      2 * (quantile * (signals.length - 1)) + 1 := by
    have few := reaching_le (signals.map Signal.lof) (by rwa [List.length_map]) share
    rwa [reaching, List.countP_map, List.length_map] at few
  have iso : (signals.countP (fun signal => 1 - quantile ≤ isoNorm signals signal) : ℚ) ≤
      2 * (quantile * (signals.length - 1)) + 1 := by
    have few := reaching_le (signals.map Signal.iso) (by rwa [List.length_map]) share
    rwa [reaching, List.countP_map, List.length_map] at few
  rw [sum_votes]
  cases metric with
  | precomputed =>
    push_cast [ranking]
    linarith
  | euclidean =>
    push_cast [ranking]
    linarith

end

section
variable {α : Type} [LinearOrder α] {tunables : Tunables} {ci : ClusteringInput} {estimators : Estimators α ci}
  {eps : Option ℚ} {minSamples : Option ℕ} {topQuantile : ℚ} {lofNeighbors : ℕ}

/-- Where there are transactions, the rows are those of one fit. -/
theorem rows_detectAnomalies (tunables : Tunables) (estimators : Estimators α ci) (eps : Option ℚ)
    (minSamples : Option ℕ) (topQuantile : ℚ) (lofNeighbors : ℕ) (some_ : 0 < ci.txHashes.length) :
    ∃ signals : List (Signal α), signals.map Signal.txHash = ci.txHashes ∧
      (detectAnomalies tunables estimators eps minSamples topQuantile lofNeighbors).rows =
        rows ci.metric signals (1 - topQuantile) := by
  rw [detectAnomalies, if_neg some_.ne']
  exact ⟨_, estimators.aligned _ _ _, rfl⟩

/-- The review order respects suspicion: the ranks are the places from one on, and a transaction that one detector
finds more suspicious than another, and no detector less, has no fewer votes, a higher consensus and a better rank. -/
theorem review_respects_suspicion (tunables : Tunables) (estimators : Estimators α ci) (eps : Option ℚ)
    (minSamples : Option ℕ) (topQuantile : ℚ) (lofNeighbors : ℕ) :
    let result := detectAnomalies tunables estimators eps minSamples topQuantile lofNeighbors
    (result.rows.map Row.rank).Perm (List.range' 1 ci.txHashes.length) ∧
    ∀ row ∈ result.rows, ∀ other ∈ result.rows, row.Dominates other →
      other.votes ≤ row.votes ∧ other.consensus < row.consensus ∧ row.rank < other.rank := by
  intro result
  by_cases empty : ci.txHashes.length = 0
  · have none : result.rows = [] := by
      change (detectAnomalies tunables estimators eps minSamples topQuantile lofNeighbors).rows = []
      rw [detectAnomalies, if_pos empty]
    rw [none, empty]
    exact ⟨.nil, List.forall_mem_nil _⟩
  · obtain ⟨signals, aligned, same⟩ := rows_detectAnomalies tunables estimators eps minSamples topQuantile lofNeighbors
      (Nat.pos_of_ne_zero empty)
    rw [show result.rows = _ from same, ← aligned, List.length_map]
    refine ⟨ranks_perm _ _ _, fun row member other memberToo dominates => ?_⟩
    obtain ⟨index, here, rfl⟩ := mem_rows.mp member
    obtain ⟨place, there, rfl⟩ := mem_rows.mp memberToo
    have higher := consensus_lt (List.getElem_mem here) (List.getElem_mem there) dominates
    exact ⟨votes_le (List.getElem_mem here) (List.getElem_mem there) dominates.toAtLeast, higher,
      rank_lt here there higher⟩

/-- The alarms are bounded by the quantile, whatever the scores and however many of them tie: each one takes its votes
from DBSCAN's noise and from the top of a ranking, which is at most twice the quantile and one. -/
theorem alarms_bounded (some_ : 0 < ci.txHashes.length) (share : 0 ≤ topQuantile) :
    let result := detectAnomalies tunables estimators eps minSamples topQuantile lofNeighbors
    (tunables.flagVoteThreshold * nFlagged tunables result : ℚ) ≤ (result.rows.map Row.dbscanNoise).sum +
      (result.methods.length - 1) * (2 * (topQuantile * (ci.txHashes.length - 1)) + 1) := by
  intro result
  obtain ⟨signals, aligned, same⟩ := rows_detectAnomalies tunables estimators eps minSamples topQuantile lofNeighbors
    some_
  have many : signals.length = ci.txHashes.length := by
    rw [← aligned, List.length_map]
  have detectors : (result.methods.length : ℚ) - 1 = ranking ci.metric := by
    change ((detectAnomalies tunables estimators eps minSamples topQuantile lofNeighbors).methods.length : ℚ) - 1 = _
    rw [detectAnomalies, if_neg some_.ne']
    dsimp only
    cases ci.metric with
    | precomputed => norm_num [ranking]
    | euclidean => norm_num [ranking]
  have taken : tunables.flagVoteThreshold * nFlagged tunables result ≤
      (signals.map (votes ci.metric signals (1 - topQuantile))).sum := by
    have counted := mul_countP_le tunables.flagVoteThreshold (signals.map (votes ci.metric signals (1 - topQuantile)))
    rw [← map_votes_rows, List.countP_map, ← same] at counted
    rw [← map_votes_rows, ← same]
    exact counted
  have cast := sum_votes_le ci.metric (many ▸ some_) share
  rw [detectors, show result.rows = _ from same, map_dbscanNoise_rows, ← many]
  refine le_trans ?_ cast
  exact_mod_cast taken

end

/-- The values of `clustering.yaml`. -/
def shipped : Tunables := ⟨20, 1 / 2, 1, 2, 4, 4, 24⟩

/-- Three transactions, of which the last is far off. -/
def three : Estimators ℕ ⟨["one", "two", "three"], .euclidean, 4⟩ where
  kneeEps := fun _ => none
  fit := fun _ _ _ => [⟨"one", 1, 1, 0⟩, ⟨"two", 2, 1, 0⟩, ⟨"three", 9, 9, -1⟩]
  aligned := fun _ _ _ => rfl

theorem alarms_bounded_of_three :
    let result := detectAnomalies shipped three none none (1 / 20) 20
    nFlagged shipped result = 1 ∧
    (shipped.flagVoteThreshold * nFlagged shipped result : ℚ) ≤ (result.rows.map Row.dbscanNoise).sum +
      (result.methods.length - 1) * (2 * ((1 / 20) * (3 - 1)) + 1) :=
  ⟨by decide +kernel, alarms_bounded (by decide) (by norm_num)⟩

/-! What the scales of the scores do. -/

section
variable {α β : Type} (iso lof : α → β)

def Signal.rescale (signal : Signal α) : Signal β := { signal with iso := iso signal.iso, lof := lof signal.lof }

def Row.rescale (row : Row α) : Row β := { row with iso := row.iso.map iso, lof := lof row.lof }

def AnomalyResult.rescale (result : AnomalyResult α) : AnomalyResult β :=
  { result with rows := result.rows.map (Row.rescale iso lof) }

def Estimators.rescale {ci : ClusteringInput} (estimators : Estimators α ci) : Estimators β ci where
  kneeEps := estimators.kneeEps
  fit := fun lofNeighbors eps minSamples =>
    (estimators.fit lofNeighbors eps minSamples).map (Signal.rescale iso lof)
  aligned := fun lofNeighbors eps minSamples => by
    rw [List.map_map]
    exact estimators.aligned lofNeighbors eps minSamples

end

section
variable {α β : Type} [LinearOrder α] [LinearOrder β] {iso lof : α → β} {signals : List (Signal α)}

theorem lofNorm_rescale (increasing : StrictMono lof) (signal : Signal α) :
    lofNorm (signals.map (Signal.rescale iso lof)) (signal.rescale iso lof) = lofNorm signals signal := by
  have scores : (signals.map (Signal.rescale iso lof)).map Signal.lof = (signals.map Signal.lof).map lof := by
    rw [List.map_map, List.map_map]
    rfl
  rw [lofNorm, scores]
  exact rankNorm_map increasing

theorem isoNorm_rescale (increasing : StrictMono iso) (signal : Signal α) :
    isoNorm (signals.map (Signal.rescale iso lof)) (signal.rescale iso lof) = isoNorm signals signal := by
  have scores : (signals.map (Signal.rescale iso lof)).map Signal.iso = (signals.map Signal.iso).map iso := by
    rw [List.map_map, List.map_map]
    rfl
  rw [isoNorm, scores]
  exact rankNorm_map increasing

theorem rows_rescale (isoIncreasing : StrictMono iso) (lofIncreasing : StrictMono lof) (metric : Metric)
    (threshold : ℚ) :
    rows metric (signals.map (Signal.rescale iso lof)) threshold =
      (rows metric signals threshold).map (Row.rescale iso lof) := by
  have consensus_ : ∀ signal : Signal α, consensus metric (signals.map (Signal.rescale iso lof))
      (signal.rescale iso lof) = consensus metric signals signal := by
    intro signal
    cases metric with
    | precomputed =>
      rw [consensus, consensus, lofNorm_rescale lofIncreasing]
      rfl
    | euclidean =>
      rw [consensus, consensus, lofNorm_rescale lofIncreasing, isoNorm_rescale isoIncreasing]
      rfl
  have votes_ : ∀ signal : Signal α, votes metric (signals.map (Signal.rescale iso lof)) threshold
      (signal.rescale iso lof) = votes metric signals threshold signal := by
    intro signal
    cases metric with
    | precomputed =>
      rw [votes, votes, lofNorm_rescale lofIncreasing]
      rfl
    | euclidean =>
      rw [votes, votes, lofNorm_rescale lofIncreasing, isoNorm_rescale isoIncreasing]
      rfl
  have order : (signals.map (Signal.rescale iso lof)).map (consensus metric (signals.map (Signal.rescale iso lof))) =
      signals.map (consensus metric signals) := by
    rw [List.map_map]
    exact List.map_congr_left fun signal _ => consensus_ signal
  rw [rows, rows, List.zipIdx_map, List.map_map, List.map_map]
  refine List.map_congr_left fun pair _ => ?_
  obtain ⟨signal, index⟩ := pair
  simp only [Function.comp_apply, Prod.map, id, row, Row.rescale, order, consensus_, votes_]
  cases metric with
  | precomputed => rfl
  | euclidean => rfl

/-- Only the order of each detector's scores counts: rescaling either detector, however unevenly, changes no vote, no
consensus and no rank. -/
theorem scales_do_not_matter {tunables : Tunables} {ci : ClusteringInput} (estimators : Estimators α ci)
    (eps : Option ℚ) (minSamples : Option ℕ) (topQuantile : ℚ) (lofNeighbors : ℕ) (isoIncreasing : StrictMono iso)
    (lofIncreasing : StrictMono lof) :
    detectAnomalies tunables (estimators.rescale iso lof) eps minSamples topQuantile lofNeighbors =
      (detectAnomalies tunables estimators eps minSamples topQuantile lofNeighbors).rescale iso lof := by
  rw [detectAnomalies, detectAnomalies]
  split
  · rfl
  · rw [AnomalyResult.rescale]
    simp only [Estimators.rescale, rows_rescale isoIncreasing lofIncreasing]

end

/-- One detector squared, the other shifted. -/
theorem scales_do_not_matter_of_three :
    detectAnomalies shipped (three.rescale (fun score => score * score) (· + 1)) none none (1 / 20) 20 =
      (detectAnomalies shipped three none none (1 / 20) 20).rescale (fun score => score * score) (· + 1) :=
  scales_do_not_matter three none none (1 / 20) 20 (fun _ _ below => Nat.mul_self_lt_mul_self below)
    (fun _ _ below => Nat.add_lt_add_right below 1)

end TransactionMonitoring.Ensemble
