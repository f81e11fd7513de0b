import Mathlib.Algebra.Order.Field.Rat
import TransactionMonitoring.Ramp
import TransactionMonitoring.Replacing

/-! Baselines: the percentiles a feature is normalised with.

A recompute proposes rows.  The drift guard holds those that move away from the row they would
replace in a direction that hides detections, and the others are inserted.  A reader resolves a
feature to the row of its own scope, or to the global row, or to fixed anchors.  Percentiles
are exact rationals, times are seconds.
-/
namespace TransactionMonitoring.Baselines
open Ramp Replacing

inductive ScopeType where
  | global
  | perScript
  | perPolicy
deriving DecidableEq, Repr

/-- The sorting key of the `baselines` table. -/
structure Key where
  network : String
  scopeType : ScopeType
  scopeId : String
  feature : String
deriving DecidableEq, Repr

structure Percentiles where
  p50 : ℚ
  p99 : ℚ
deriving DecidableEq

/-- A row of `baselines`. -/
structure BaselineRow where
  key : Key
  percentiles : Percentiles
  sampleCount : Nat
  computedAt : Nat
deriving DecidableEq

/-- The `baselines` block of the configuration. -/
structure Settings where
  driftEnabled : Bool
  driftP99Threshold : ℚ
  driftP50Threshold : ℚ
  minSpreadRatio : ℚ
  baselineMinSamples : Nat
deriving DecidableEq

/-- `get_baseline`, past its cache. -/
def getBaseline (rows : List BaselineRow) (key : Key) : Option BaselineRow :=
  final BaselineRow.key BaselineRow.computedAt rows key

/-! ## The drift guard -/

/-- `INVERTED_CONSUMER_FEATURES`. -/
def invertedConsumerFeatures : List String := ["ada_amount", "value_cbor_bytes"]

def driftRatio (old new : ℚ) : ℚ := |new - old| / (|old| + 1 / 10 ^ 9)

def checkDrift (old new threshold : ℚ) : Bool :=
  if old = 0 then decide (0 < new) else decide (threshold < driftRatio old new)

/-- What the guard finds out about one row beside the row it would replace. -/
structure Judgement where
  p99Drifted : Bool
  p50Drifted : Bool
  p99Hold : Bool
  p50Hold : Bool
deriving DecidableEq, Repr

def Judgement.held (judgement : Judgement) : Bool := judgement.p99Hold || judgement.p50Hold

def judge (settings : Settings) (feature : String) (old new : Percentiles) : Judgement :=
  -- Where a low value is the suspicious one, both directions hide detections.
  let symmetricHold := decide (feature ∈ invertedConsumerFeatures)
  let p99Drifted := checkDrift old.p99 new.p99 settings.driftP99Threshold
  let p50Drifted := checkDrift old.p50 new.p50 settings.driftP50Threshold
  { p99Drifted
    p50Drifted
    p99Hold := p99Drifted && decide (0 < old.p99) && (decide (old.p99 < new.p99) || symmetricHold)
    p50Hold := p50Drifted && (decide (old.p50 < new.p50) || symmetricHold) }

inductive Axis where
  | p50
  | p99
deriving DecidableEq, Repr

/-- A row of `baseline_drift_events`. -/
structure DriftEvent where
  key : Key
  axis : Axis
  old : ℚ
  new : ℚ
  ratio : ℚ
  detectedAt : Nat
  applied : Bool
deriving DecidableEq

/-- The events of one row: one for each axis that drifted. -/
def driftEvents (settings : Settings) (prior row : BaselineRow) : List DriftEvent :=
  let judgement := judge settings row.key.feature prior.percentiles row.percentiles
  let event (axis : Axis) (old new : ℚ) : DriftEvent :=
    ⟨row.key, axis, old, new, driftRatio old new, row.computedAt, !judgement.held⟩
  (if judgement.p99Drifted then [event .p99 prior.percentiles.p99 row.percentiles.p99] else []) ++
    if judgement.p50Drifted then [event .p50 prior.percentiles.p50 row.percentiles.p50] else []

/-- Whether the guard keeps a row; a row that replaces none always passes. -/
def applies (settings : Settings) (stored : List BaselineRow) (row : BaselineRow) : Bool :=
  (getBaseline stored row.key).all fun prior =>
    !(judge settings row.key.feature prior.percentiles row.percentiles).held

/-- `_filter_drifted`: the rows to insert, and the events it records. -/
def filterDrifted (settings : Settings) (stored rows : List BaselineRow) : List BaselineRow × List DriftEvent :=
  if settings.driftEnabled then
    (rows.filter (applies settings stored),
      rows.flatMap fun row => (getBaseline stored row.key).elim [] fun prior => driftEvents settings prior row)
  else (rows, [])

structure Tables where
  baselines : List BaselineRow
  driftEvents : List DriftEvent
deriving DecidableEq

/-- The end of every recompute: the guard, then `insert_baselines`. -/
def insertUndrifted (settings : Settings) (tables : Tables) (rows : List BaselineRow) : Tables where
  baselines := tables.baselines ++ (filterDrifted settings tables.baselines rows).1
  driftEvents := tables.driftEvents ++ (filterDrifted settings tables.baselines rows).2

/-- `_UTXO_FEATURES`. -/
def utxoFeatures : List String :=
  ["value_cbor_bytes", "unique_token_count", "ada_amount", "datum_bytes", "utxo_total_bytes"]

/-- A scope's percentiles of a feature over the window, and how many samples they are from. -/
abbrev Query := String → Option (Percentiles × Nat)

/-- The row `compute_script_baselines` proposes for a feature. -/
def scriptRow (settings : Settings) (network script : String) (query : Query) (now : Nat) (feature : String) :
    Option BaselineRow :=
  match query feature with
  | none => none
  | some (percentiles, count) =>
      if count < settings.baselineMinSamples then none
      else some ⟨⟨network, .perScript, script, feature⟩, percentiles, count, now⟩

def scriptRows (settings : Settings) (network script : String) (query : Query) (now : Nat) : List BaselineRow :=
  utxoFeatures.filterMap (scriptRow settings network script query now)

/-- `compute_script_baselines`. -/
def computeScriptBaselines (settings : Settings) (tables : Tables) (network script : String) (query : Query)
    (now : Nat) : Tables :=
  insertUndrifted settings tables (scriptRows settings network script query now)

/-! ## Resolution -/

/-- `EPSILON`. -/
def epsilon : ℚ := 1 / 10 ^ 6

def normalise (value : ℚ) (percentiles : Percentiles) : ℚ :=
  let denom := percentiles.p99 - percentiles.p50
  if denom ≤ 0 then 0 else max 0 (min 1 ((value - percentiles.p50) / (denom + epsilon)))

/-- `_baseline_is_usable`. -/
def baselineIsUsable (settings : Settings) (percentiles : Percentiles) : Bool :=
  if percentiles.p50 ≤ 0 then decide (0 < percentiles.p99)
  else decide (settings.minSpreadRatio ≤ (percentiles.p99 - percentiles.p50) / percentiles.p50)

/-- What a reader of baselines asks for beside the key. -/
structure Request where
  /-- Zero for the configured minimum. -/
  minSamples : Nat
  scopeTypesAllowed : Option (List ScopeType)
deriving DecidableEq

/-- A row a tier may answer with. -/
def serves (settings : Settings) (request : Request) (row : BaselineRow) : Bool :=
  request.scopeTypesAllowed.all (row.key.scopeType ∈ ·) &&
  decide ((if request.minSamples = 0 then settings.baselineMinSamples else request.minSamples) ≤ row.sampleCount) &&
  baselineIsUsable settings row.percentiles

def Key.globalKey (key : Key) : Key := { key with scopeType := .global, scopeId := "__global__" }

inductive Source where
  | scope (scopeType : ScopeType)
  | missing
deriving DecidableEq, Repr

/-- The tiers of `resolve_baseline` below the feature's own scope. -/
def fallback (settings : Settings) (stored : List BaselineRow) (key : Key) (request : Request) :
    Percentiles × Source :=
  if key.scopeType ≠ .global then
    match (getBaseline stored key.globalKey).filter (serves settings request) with
    | some row => (row.percentiles, .scope .global)
    | none => (⟨0, 1⟩, .missing)
  else (⟨0, 1⟩, .missing)

/-- `resolve_baseline`. -/
def resolveBaseline (settings : Settings) (stored : List BaselineRow) (key : Key) (request : Request) :
    Percentiles × Source :=
  match (getBaseline stored key).filter (serves settings request) with
  | some row => (row.percentiles, .scope key.scopeType)
  | none => fallback settings stored key request

/-- An observation normalised with the baseline its feature resolves to. -/
def normalised (settings : Settings) (stored : List BaselineRow) (key : Key) (request : Request) (value : ℚ) : ℚ :=
  normalise value (resolveBaseline settings stored key request).1

/-! ## Sensitivity -/

/-- No observation normalises lower with the second pair than with the first: the first tells
nothing apart, or the second still rises and neither of its percentiles is higher. -/
def Keeps (old new : Percentiles) : Prop :=
  old.p99 ≤ old.p50 ∨ (new.p50 < new.p99 ∧ new.p50 ≤ old.p50 ∧ new.p99 ≤ old.p99)

instance (old new : Percentiles) : Decidable (Keeps old new) := inferInstanceAs (Decidable (_ ∨ _))

section
variable {settings : Settings} {old new percentiles : Percentiles} {feature : String} {value : ℚ}

private theorem epsilon_pos : 0 < epsilon := by norm_num [epsilon]

private theorem normalise_of_spread (spread : percentiles.p50 < percentiles.p99) :
    normalise value percentiles = ramp percentiles.p50 (percentiles.p99 + epsilon) value := by
  have rises : ¬percentiles.p99 - percentiles.p50 ≤ 0 := not_le.mpr (sub_pos.mpr spread)
  simp only [normalise, if_neg rises, ramp, sub_add_eq_add_sub]

private theorem normalise_of_flat (flat : percentiles.p99 ≤ percentiles.p50) : normalise value percentiles = 0 := by
  simp only [normalise, if_pos (sub_nonpos.mpr flat)]

private theorem top_above (spread : percentiles.p50 < percentiles.p99) :
    percentiles.p50 < percentiles.p99 + epsilon :=
  spread.trans (lt_add_of_pos_right _ epsilon_pos)

theorem normalise_le_iff : (∀ value, normalise value old ≤ normalise value new) ↔ Keeps old new := by
  rcases le_or_gt old.p99 old.p50 with flat | spread
  · refine iff_of_true (fun value => ?_) (Or.inl flat)
    rw [normalise_of_flat flat]
    rcases le_or_gt new.p99 new.p50 with newFlat | newSpread
    · rw [normalise_of_flat newFlat]
    · rw [normalise_of_spread newSpread]
      exact ramp_nonneg
  · simp only [Keeps, not_le.mpr spread, false_or, normalise_of_spread spread]
    rcases le_or_gt new.p99 new.p50 with newFlat | newSpread
    · simp only [not_lt.mpr newFlat, false_and, iff_false, not_forall, normalise_of_flat newFlat]
      refine ⟨old.p99 + epsilon, ?_⟩
      rw [ramp_of_ge (top_above spread) le_rfl]
      exact not_le.mpr zero_lt_one
    · simp only [newSpread, true_and, normalise_of_spread newSpread]
      rw [ramp_le_ramp_iff (top_above spread) (top_above newSpread), add_le_add_iff_right]

/-- The guard holds no lowered row of a feature that only plain consumers read. -/
private theorem judge_lowered (plain : feature ∉ invertedConsumerFeatures) (p50 : new.p50 ≤ old.p50)
    (p99 : new.p99 ≤ old.p99) : (judge settings feature old new).held = false := by
  simp [judge, Judgement.held, plain, not_lt.mpr p50, not_lt.mpr p99]

/-- Under a positive minimum spread a usable pair rises. -/
private theorem spread_of_usable (positive : 0 < settings.minSpreadRatio)
    (usable : baselineIsUsable settings percentiles = true) : percentiles.p50 < percentiles.p99 := by
  unfold baselineIsUsable at usable
  split at usable
  · rename_i low
    exact low.trans_lt (of_decide_eq_true usable)
  · rename_i high
    have ratio := positive.trans_le (of_decide_eq_true usable)
    rw [div_pos_iff_of_pos_right (not_le.mp high)] at ratio
    exact sub_pos.mp ratio

end

/-- The recompute takes no sensitivity from the feature.  Where one of the two rows may not
serve, the tiers below the scope answer in its place. -/
def RecallSafe (settings : Settings) (stored : List BaselineRow) (request : Request)
    (current recomputed : BaselineRow) : Prop :=
  match serves settings request current, serves settings request recomputed with
  | true, true => Keeps current.percentiles recomputed.percentiles
  | true, false => Keeps current.percentiles (fallback settings stored current.key request).1
  | false, true => Keeps (fallback settings stored current.key request).1 recomputed.percentiles
  | false, false => True

section
variable {settings : Settings} {tables : Tables} {batch stored : List BaselineRow} {request : Request}
  {current recomputed row : BaselineRow} {key : Key}

private theorem keeps_self (percentiles : Percentiles) : Keeps percentiles percentiles := by
  rcases le_or_gt percentiles.p99 percentiles.p50 with flat | spread
  · exact Or.inl flat
  · exact Or.inr ⟨spread, le_rfl, le_rfl⟩

private theorem resolveBaseline_of_active (active : getBaseline stored key = some row) :
    (resolveBaseline settings stored key request).1 =
      if serves settings request row then row.percentiles else (fallback settings stored key request).1 := by
  cases served : serves settings request row with
  | true => simp [resolveBaseline, active, Option.filter, served]
  | false => simp [resolveBaseline, active, Option.filter, served]

private theorem filterDrifted_subset : ∀ row ∈ (filterDrifted settings stored batch).1, row ∈ batch := by
  intro row member
  unfold filterDrifted at member
  split at member
  · exact List.mem_of_mem_filter member
  · exact member

/-- The one row of a key that the guard applies is the one inserted for it. -/
private theorem filterDrifted_of_applied (alone : batch.filter (·.key = key) = [row])
    (applied : applies settings stored row = true) :
    (filterDrifted settings stored batch).1.filter (·.key = key) = [row] := by
  unfold filterDrifted
  split
  · rw [List.filter_comm, alone]
    simp [applied]
  · exact alone

private theorem applies_of_lowered (active : getBaseline stored recomputed.key = some current)
    (plain : recomputed.key.feature ∉ invertedConsumerFeatures)
    (p50 : recomputed.percentiles.p50 ≤ current.percentiles.p50)
    (p99 : recomputed.percentiles.p99 ≤ current.percentiles.p99) :
    applies settings stored recomputed = true := by
  simp [applies, active, judge_lowered plain p50 p99]

private theorem getBaseline_after (active : getBaseline tables.baselines recomputed.key = some current)
    (alone : batch.filter (·.key = recomputed.key) = [recomputed])
    (applied : applies settings tables.baselines recomputed = true) :
    getBaseline (insertUndrifted settings tables batch).baselines recomputed.key =
      if current.computedAt ≤ recomputed.computedAt then some recomputed else some current := by
  have inserted := filterDrifted_of_applied alone applied
  have before : final BaselineRow.key BaselineRow.computedAt tables.baselines recomputed.key = some current := active
  simp only [getBaseline, insertUndrifted, final_append, inserted, before, List.foldl_cons, List.foldl_nil, newer]

private theorem fallback_after (noGlobal : ∀ row ∈ batch, row.key ≠ key.globalKey) :
    fallback settings (insertUndrifted settings tables batch).baselines key request =
      fallback settings tables.baselines key request := by
  have kept : getBaseline (insertUndrifted settings tables batch).baselines key.globalKey =
      getBaseline tables.baselines key.globalKey :=
    final_append_of_absent _ _ fun row member => noGlobal row (filterDrifted_subset row member)
  simp only [fallback, kept]

end

/-- **Drift guard.**  A recomputed row of a plain feature that raises neither percentile is
inserted.  No observation then normalises lower exactly when the row is dated before the one it
replaces or the change of tier, if there is one, is to percentiles that are no higher. -/
theorem recompute_recall_safe_iff (settings : Settings) (tables : Tables) (batch : List BaselineRow)
    (current recomputed : BaselineRow) (request : Request)
    (plain : recomputed.key.feature ∉ invertedConsumerFeatures)
    (active : getBaseline tables.baselines recomputed.key = some current)
    (alone : batch.filter (·.key = recomputed.key) = [recomputed])
    (noGlobal : ∀ row ∈ batch, row.key ≠ recomputed.key.globalKey)
    (p50 : recomputed.percentiles.p50 ≤ current.percentiles.p50)
    (p99 : recomputed.percentiles.p99 ≤ current.percentiles.p99) :
    (∀ value, normalised settings tables.baselines recomputed.key request value ≤
        normalised settings (insertUndrifted settings tables batch).baselines recomputed.key request value) ↔
      recomputed.computedAt < current.computedAt ∨
        RecallSafe settings tables.baselines request current recomputed := by
  have applied : applies settings tables.baselines recomputed = true := applies_of_lowered active plain p50 p99
  have after := getBaseline_after active alone applied
  have keyed : current.key = recomputed.key := (final_mem _ _ active).2
  simp only [normalised, normalise_le_iff]
  by_cases stale : recomputed.computedAt < current.computedAt
  · rw [if_neg (not_le.mpr stale)] at after
    rw [resolveBaseline_of_active active, resolveBaseline_of_active after, fallback_after noGlobal]
    exact iff_of_true (keeps_self _) (Or.inl stale)
  · rw [if_pos (not_lt.mp stale)] at after
    rw [resolveBaseline_of_active active, resolveBaseline_of_active after, fallback_after noGlobal]
    simp only [stale, false_or, RecallSafe, keyed]
    cases before : serves settings request current with
    | true =>
      cases later : serves settings request recomputed with
      | true => simp
      | false => simp
    | false =>
      cases later : serves settings request recomputed with
      | true => simp
      | false => simp [keeps_self]

/-- A recompute that leaves the feature on its tier is safe, under a positive minimum spread. -/
theorem recallSafe_of_same_tier {settings : Settings} {stored : List BaselineRow} {request : Request}
    {current recomputed : BaselineRow} (positive : 0 < settings.minSpreadRatio)
    (tier : serves settings request current = serves settings request recomputed)
    (p50 : recomputed.percentiles.p50 ≤ current.percentiles.p50)
    (p99 : recomputed.percentiles.p99 ≤ current.percentiles.p99) :
    RecallSafe settings stored request current recomputed := by
  unfold RecallSafe
  cases served : serves settings request recomputed with
  | true =>
    rw [tier, served]
    have usable : baselineIsUsable settings recomputed.percentiles = true := by
      rw [serves, Bool.and_eq_true] at served
      exact served.2
    exact Or.inr ⟨spread_of_usable positive usable, p50, p99⟩
  | false =>
    rw [tier, served]
    trivial

/-! The batches of `compute_script_baselines` have one row a feature, all of the script's scope. -/

section
variable {settings : Settings} {network script feature : String} {query : Query} {now : Nat} {row : BaselineRow}

private theorem scriptRow_key (proposed : scriptRow settings network script query now feature = some row) :
    row.key = ⟨network, .perScript, script, feature⟩ := by
  unfold scriptRow at proposed
  split at proposed
  · cases proposed
  · split at proposed
    · cases proposed
    · obtain rfl := Option.some.inj proposed
      rfl

private theorem scriptRows_alone (known : feature ∈ utxoFeatures)
    (proposed : scriptRow settings network script query now feature = some row) :
    (scriptRows settings network script query now).filter (·.key = row.key) = [row] := by
  have parted : (scriptRows settings network script query now).filter (·.key = row.key) =
      (utxoFeatures.filter (· = feature)).filterMap (scriptRow settings network script query now) := by
    rw [scriptRows, List.filter_filterMap, List.filterMap_filter]
    refine List.filterMap_congr fun other _ => ?_
    by_cases same : other = feature
    · simp [same, proposed, Option.filter]
    · cases answer : scriptRow settings network script query now other with
      | none => simp
      | some found =>
        have apart : found.key ≠ row.key := by
          rw [scriptRow_key answer, scriptRow_key proposed]
          simpa using same
        simp [same, apart, Option.filter]
  have once : utxoFeatures.count feature = 1 := List.count_eq_one_of_mem (by decide) known
  rw [parted, List.filter_eq, once]
  simp [proposed]

private theorem scriptRows_scoped (member : row ∈ scriptRows settings network script query now) :
    row.key.scopeType = .perScript := by
  obtain ⟨feature, -, proposed⟩ := List.mem_filterMap.mp member
  rw [scriptRow_key proposed]

end

private def sampleSettings : Settings := ⟨true, 1 / 2, 1 / 2, 1 / 10, 200⟩
private def sampleKey : Key := ⟨"preprod", .perScript, "s1", "datum_bytes"⟩
private def sampleRow (p50 p99 : ℚ) (now : Nat) : BaselineRow := ⟨sampleKey, ⟨p50, p99⟩, 300, now⟩
private def sampleTables : Tables := ⟨[sampleRow 100 200 1, ⟨sampleKey.globalKey, ⟨0, 10000⟩, 5000, 1⟩], []⟩
private def plainRequest : Request := ⟨0, none⟩

/-- The lowered pair is too narrow to be used, so the observation falls to the wide global pair. -/
theorem narrowed_row_desensitises :
    (filterDrifted sampleSettings sampleTables.baselines [sampleRow 100 105 2]).1 = [sampleRow 100 105 2] ∧
    normalised sampleSettings (insertUndrifted sampleSettings sampleTables [sampleRow 100 105 2]).baselines
        sampleKey plainRequest 200 <
      normalised sampleSettings sampleTables.baselines sampleKey plainRequest 200 := by
  decide +kernel

private def datumQuery (p50 p99 : ℚ) : Query := fun feature =>
  if feature = "datum_bytes" then some (⟨p50, p99⟩, 300) else none

theorem recompute_recall_safe_lowered :
    (scriptRows sampleSettings "preprod" "s1" (datumQuery 50 150) 2).length = 1 ∧
    normalised sampleSettings sampleTables.baselines sampleKey plainRequest 120 ≤
      normalised sampleSettings
        (computeScriptBaselines sampleSettings sampleTables "preprod" "s1" (datumQuery 50 150) 2).baselines
        sampleKey plainRequest 120 := by
  have alone := @scriptRows_alone sampleSettings "preprod" "s1" "datum_bytes" (datumQuery 50 150) 2
    (sampleRow 50 150 2) (by decide) (by decide +kernel)
  have safe := (recompute_recall_safe_iff sampleSettings sampleTables
    (scriptRows sampleSettings "preprod" "s1" (datumQuery 50 150) 2) (sampleRow 100 200 1) (sampleRow 50 150 2)
    plainRequest (by decide) (by decide +kernel) alone ?_ (by decide +kernel) (by decide +kernel)).mpr (Or.inr ?_)
  · exact ⟨by decide +kernel, safe 120⟩
  · intro row member same
    have scope := scriptRows_scoped member
    rw [same] at scope
    cases scope
  · exact recallSafe_of_same_tier (by decide +kernel) (by decide +kernel) (by decide +kernel) (by decide +kernel)

end TransactionMonitoring.Baselines
