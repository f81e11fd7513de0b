import TransactionMonitoring.FirstBest
import TransactionMonitoring.UtxoFeatures

/-! The scorers that judge each output of a transaction by itself.

A gate over all outputs opens the scorer, every output that qualifies is scored, and the score of
the transaction is the highest of these.  What an output is scored on beside itself belongs to
the transaction as a whole: its mint map, its slot, its witness datums, and the ages of the
policies that any of the outputs holds.
-/
namespace TransactionMonitoring.SiblingOutputs

open Anchors (Table finalise normaliseInverted resolvedOrBootstrap)
open Baselines (Percentiles normalise)
open Bech32 (isScriptAddress paymentCredentialOrRaw)
open FirstBest (bestValue firstBest)
open UtxoFeatures

/-- What a scorer reads of a transaction. -/
structure Features where
  network : String
  outputs : List Output
  slot : Option Int
  /-- The policies of the mint map. -/
  minted : List String
  datums : Json

structure ScorerResult where
  score : ℚ := 0
  subScores : List (String × ℚ) := []
  reasons : List String := []

/-- `ScorerResult.no_finding`. -/
def noFinding (subScores : List (String × ℚ)) : ScorerResult := { score := -1, subScores := subScores }

def reduceToBest (results : List ScorerResult) : ScorerResult :=
  (firstBest ScorerResult.score 0 results).getD {}

/-- The class score as the engine keeps it. -/
def classScore (gate : Bool) (result : ScorerResult) : ℚ := if gate then result.score else -1

/-- `BAND_LOW_MAX`. -/
def bandLowMax : ℚ := MultipleSat.bandModerateThreshold - 1

def reason (holds : Bool) (text : String) : List String := if holds then [text] else []

section
variable (tools : Tools) (table : Table)

def atScript (output : Output) : Bool := isScriptAddress tools.str output.address.toList

/-- The percentiles of a feature at a script. -/
def scriptAnchors (network address feature : String) (bootstrap : Percentiles) : Percentiles :=
  (resolvedOrBootstrap table ⟨network, .perScript, address, feature⟩ bootstrap).1

/-! ## Token dust -/

namespace TokenDust

structure Weights where
  bytes : ℚ
  assets : ℚ
  adaInv : ℚ
  recurrence : ℚ

/-- The `token_dust` section. -/
structure Settings where
  weights : Weights
  valueCborBytes : Percentiles
  uniqueTokenCount : Percentiles
  adaAmount : Percentiles
  reasonThreshold : ℚ
  minTokenCount : ℕ
  dosAssetMin : ℕ
  dosValueCborMin : ℕ
  establishedEnabled : Bool
  establishedMinAgeSlots : Int
  allowlistPrefixes : String → List String
  allowlistPolicies : String → List String

variable (settings : Settings)

/-- `_is_allowlisted_utxo`. -/
def isAllowlistedUtxo (address : String) (value : Value) (network : String) : Bool :=
  (decide (address ≠ "") &&
    (settings.allowlistPrefixes network).any fun start => start.toList.isPrefixOf address.toList) ||
  (decide (settings.allowlistPolicies network ≠ []) && decide (policies value ≠ []) &&
    (policies value).all (· ∈ settings.allowlistPolicies network))

/-- An output that opens the gate. -/
def opens (output : Output) : Bool :=
  atScript tools output &&
    match output.value with
    | none => false
    | some value => decide (settings.minTokenCount ≤ (countAssets value).2) &&
        (decide (settings.dosAssetMin ≤ (countAssets value).2) ||
          decide (settings.dosValueCborMin ≤ estimateValueCborBytes tools value))

/-- `TokenDustScorer.gate`. -/
def gate (features : Features) : Bool := features.outputs.any (opens tools settings)

/-- An output to score, with its value. -/
structure Eligible where
  address : String
  value : Value

/-- Whether and how an output is scored. -/
def eligible (network : String) (output : Output) : Option Eligible :=
  if atScript tools output then
    match output.value with
    | none => none
    | some value =>
        if (countAssets value).2 < settings.minTokenCount then none
        else if isAllowlistedUtxo settings output.address value network then none
        else some ⟨output.address, value⟩
  else none

/-- The slots at which policies were first seen, as far as they are known. -/
abbrev FirstSeen := String → Option Int

/-- `_policy_age_context`: what is looked up are the policies of the eligible outputs. -/
def policyAgeContext (firstSeen : FirstSeen) (eligibles : List Eligible) : FirstSeen :=
  let bundlePolicies := eligibles.flatMap fun eligible => policies eligible.value
  if bundlePolicies = [] ∨ !settings.establishedEnabled then fun _ => none
  else fun policy => if policy ∈ bundlePolicies then firstSeen policy else none

/-- The ages of the policies that are known. -/
def knownAges (slot : Option Int) (firstSeen : FirstSeen) (value : Value) : List Int :=
  slot.elim [] fun slot => (policies value).filterMap fun policy => (firstSeen policy).map fun seen => slot - seen

/-- The bundle is made of old policies only, and nothing of them is minted along with it. -/
def establishedCollection (slot : Option Int) (minted : List String) (firstSeen : FirstSeen) (value : Value) : Bool :=
  let agesKnown := decide (policies value ≠ []) && (policies value).all fun policy => (firstSeen policy).isSome
  settings.establishedEnabled && agesKnown &&
    ((knownAges slot firstSeen value).min?.any fun youngest => decide (settings.establishedMinAgeSlots ≤ youngest)) &&
    !(policies value).any (· ∈ minted)

/-- `_score_utxo`. -/
def scoreUtxo (network : String) (slot : Option Int) (minted : List String) (firstSeen : FirstSeen)
    (eligible : Eligible) : ScorerResult :=
  let value := eligible.value
  let tokenCount := (countAssets value).2
  let anchors := scriptAnchors table network eligible.address
  let sBytes := normalise (estimateValueCborBytes tools value) (anchors "value_cbor_bytes" settings.valueCborBytes)
  let sAssets := normalise tokenCount (anchors "unique_token_count" settings.uniqueTokenCount)
  let sAda := normaliseInverted (extractLovelace value) (anchors "ada_amount" settings.adaAmount)
  let sRecurrence := 0
  let weighed := settings.weights.bytes * sBytes + settings.weights.assets * sAssets +
    settings.weights.adaInv * sAda + settings.weights.recurrence * sRecurrence
  let final := finalise weighed
  let final := if tokenCount < settings.dosAssetMin then min final MultipleSat.bandModerateMax else final
  let established := establishedCollection settings slot minted firstSeen value
  let high (axis : ℚ) : Bool := decide (settings.reasonThreshold < axis)
  { score := if established then min final MultipleSat.bandModerateMax else final
    subScores := [("value_cbor_bytes", round4 sBytes), ("unique_assetclass_count", round4 sAssets),
      ("lovelace_inverted", round4 sAda), ("sender_recurrence", round4 sRecurrence),
      ("max_assets_per_policy", maxAssetsPerPolicy value)]
    reasons := reason (high sBytes) "high_value_cbor_bytes" ++ reason (high sAssets) "many_distinct_assets" ++
      reason (high sAda) "low_lovelace_amount" ++
      reason (isScriptAddress tools.str eligible.address.toList && high sBytes && high sAssets && high sAda &&
        decide (settings.dosAssetMin ≤ tokenCount)) "script_value_bloat_dos" ++
      reason established "established_collection_cap" }

/-- `TokenDustScorer.score`. -/
def score (firstSeen : FirstSeen) (features : Features) : ScorerResult :=
  let eligibles := features.outputs.filterMap (eligible tools settings features.network)
  if eligibles = [] then reduceToBest []
  else
    let context := policyAgeContext settings firstSeen eligibles
    reduceToBest (eligibles.map (scoreUtxo tools table settings features.network features.slot features.minted context))

end TokenDust

/-! ## Large value -/

namespace LargeValue

structure Weights where
  digits : ℚ
  bytes : ℚ
  adaInv : ℚ
  recurrence : ℚ

/-- The `large_value` section. -/
structure Settings where
  weights : Weights
  quantityDigits : Percentiles
  valueCborBytes : Percentiles
  adaAmount : Percentiles
  reasonThreshold : ℚ
  minDigitsSubscore : ℚ

variable (settings : Settings)

/-- Whether an output is at a script and holds one or two asset classes; its value then. -/
def fewAssets (output : Output) : Option Value :=
  if atScript tools output then output.value.filter fun value => 0 < (countAssets value).2 ∧ (countAssets value).2 ≤ 2
  else none

/-- `LargeValueScorer.gate`. -/
def gate (features : Features) : Bool := features.outputs.any fun output => (fewAssets tools output).isSome

/-- The percentiles of the digits of quantities, of the policy of the largest. -/
def digitAnchors (network policyId : String) : Percentiles :=
  if policyId ≠ "" then
    (resolvedOrBootstrap table ⟨network, .perPolicy, policyId, "quantity_digits"⟩ settings.quantityDigits).1
  else settings.quantityDigits

/-- `_score_utxo`. -/
def scoreUtxo (network address : String) (value : Value) : ScorerResult :=
  let anchors := scriptAnchors table network address
  let sDigits := normalise (maxQuantityDigits value) (digitAnchors table settings network (primaryAsset value).1)
  let sBytes := normalise (estimateValueCborBytes tools value) (anchors "value_cbor_bytes" settings.valueCborBytes)
  let sAda := normaliseInverted (extractLovelace value) (anchors "ada_amount" settings.adaAmount)
  let sRecurrence := 0
  let weighed := settings.weights.digits * sDigits + settings.weights.bytes * sBytes +
    settings.weights.adaInv * sAda + settings.weights.recurrence * sRecurrence
  let final := finalise weighed
  let high (axis : ℚ) : Bool := decide (settings.reasonThreshold < axis)
  { score := if sDigits < settings.minDigitsSubscore then min final bandLowMax else final
    subScores := [("quantity_digits", round4 sDigits), ("value_cbor_bytes", round4 sBytes),
      ("lovelace_inverted", round4 sAda), ("sender_recurrence", round4 sRecurrence)]
    reasons := reason (high sDigits) "extreme_quantity_digits" ++
      reason (high sBytes) "high_value_cbor_for_few_assets" ++
      reason (high sAda) "low_lovelace_amount" }

/-- `LargeValueScorer.score`. -/
def score (features : Features) : ScorerResult :=
  reduceToBest (features.outputs.filterMap fun output =>
    (fewAssets tools output).map (scoreUtxo tools table settings features.network output.address))

end LargeValue

/-! ## Large datum -/

namespace LargeDatum

structure Weights where
  datumBytes : ℚ
  datumRatio : ℚ
  valueCborInv : ℚ
  recurrence : ℚ

/-- The `large_datum` section. -/
structure Settings where
  weights : Weights
  datumBytes : Percentiles
  valueCborBytes : Percentiles
  datumRatio : Percentiles
  reasonThreshold : ℚ
  minDatumBytes : ℕ
  bloatEntropyMax : ℚ
  leafConcentrationMax : ℚ
  sizeBackstop : ℕ
  aggregateEngagementMin : ℕ
  flagDatumHashOnly : Bool
  largeStateAllowlist : String → List String

/-- Which gate condition admits a datum. -/
inductive Trigger where
  | content
  | sizeBackstop
  | sizeBackstopUnassessed
deriving DecidableEq

variable (settings : Settings)

/-- `_bloat_trigger`. -/
def bloatTrigger (datums : Json) (output : Output) (datumBytes : ℕ) : Option Trigger :=
  if settings.minDatumBytes ≤ datumBytes ∧
      (datumShannonEntropyBits tools datums output ≤ settings.bloatEntropyMax ∨
        settings.leafConcentrationMax ≤ datumLeafConcentration tools datums output) then
    some .content
  else if settings.sizeBackstop ≤ datumBytes then
    if datumContentAssessable tools datums output then some .sizeBackstop else some .sizeBackstopUnassessed
  else none

/-- `_per_script_datum_bytes`: the bytes of the datums at each script, by payment credential. -/
def perScriptDatumBytes (features : Features) : List (List Char × ℕ) :=
  let sizes := (features.outputs.filter fun output =>
      atScript tools output && decide ((extractDatumInfo features.datums output).1 ≠ 0)).map fun output =>
    (paymentCredentialOrRaw tools.str output.address.toList, (extractDatumInfo features.datums output).2)
  (sizes.map Prod.fst).dedup.map fun key => (key, ((sizes.filter (·.1 = key)).map Prod.snd).sum)

/-- `_datum_hash_only_addresses`. -/
def datumHashOnlyAddresses (datums : Json) (outputs : List Output) : List String :=
  (outputs.filter fun output => atScript tools output && decide (extractDatumInfo datums output = (1, 0))).map
    Output.address

/-- `LargeDatumScorer.gate`. -/
def gate (features : Features) : Bool :=
  (features.outputs.any fun output => atScript tools output &&
    (bloatTrigger tools settings features.datums output (extractDatumInfo features.datums output).2).isSome) ||
  ((perScriptDatumBytes tools features).any fun entry => settings.aggregateEngagementMin ≤ entry.2) ||
  (settings.flagDatumHashOnly && decide (datumHashOnlyAddresses tools features.datums features.outputs ≠ []))

/-- `_is_large_state_allowlisted`. -/
def isLargeStateAllowlisted (address network : String) : Bool :=
  (settings.largeStateAllowlist network).any fun start => start.toList.isPrefixOf address.toList

/-- `_score_utxo`. -/
def scoreUtxo (network : String) (maxScriptDatumBytes : ℕ) (datums : Json) (output : Output) (trigger : Trigger) :
    ScorerResult :=
  let value := output.value.getD ⟨0, []⟩
  let datumBytes := (extractDatumInfo datums output).2
  let valueCbor := estimateValueCborBytes tools value
  let utxoTotal := estimateUtxoTotalBytes output.address valueCbor datumBytes output.script
  let anchors := scriptAnchors table network output.address
  let sDatum := normalise datumBytes (anchors "datum_bytes" settings.datumBytes)
  let sRatio := normalise (datumRatioOf datumBytes utxoTotal) settings.datumRatio
  let sValueInv := normaliseInverted valueCbor (anchors "value_cbor_bytes" settings.valueCborBytes)
  let sRecurrence := 0
  let weighed := settings.weights.datumBytes * sDatum + settings.weights.datumRatio * sRatio +
    settings.weights.valueCborInv * sValueInv + settings.weights.recurrence * sRecurrence
  let final := finalise weighed
  let allowlisted := decide (trigger = .sizeBackstop) && isLargeStateAllowlisted settings output.address network
  let high (axis : ℚ) : Bool := decide (settings.reasonThreshold < axis)
  { score := if allowlisted then min final MultipleSat.bandModerateMax else final
    subScores := [("datum_bytes", round4 sDatum), ("datum_ratio", round4 sRatio),
      ("value_cbor_bytes_inverted", round4 sValueInv), ("sender_recurrence", round4 sRecurrence),
      ("max_script_datum_bytes", maxScriptDatumBytes)]
    reasons := reason (high sDatum) "large_datum_bytes" ++ reason (high sRatio) "high_datum_ratio" ++
      reason (high sValueInv) "lean_value_field" ++ reason (trigger = .sizeBackstop) "size_backstop_only" ++
      reason (trigger = .sizeBackstopUnassessed) "size_backstop_content_unreadable" ++
      reason allowlisted "large_state_allowlisted" }

/-- What admits an output to be scored. -/
def admitted (datums : Json) (output : Output) : Option Trigger :=
  if atScript tools output ∧ (extractDatumInfo datums output).1 ≠ 0 then
    bloatTrigger tools settings datums output (extractDatumInfo datums output).2
  else none

/-- The results of the outputs that are scored. -/
def results (maxScriptDatumBytes : ℕ) (features : Features) : List ScorerResult :=
  features.outputs.filterMap fun output => (admitted tools settings features.datums output).map
    (scoreUtxo tools table settings features.network maxScriptDatumBytes features.datums output)

/-- `LargeDatumScorer.score`. -/
def score (features : Features) : ScorerResult :=
  let maxScriptDatumBytes := ((perScriptDatumBytes tools features).map Prod.snd).foldl max 0
  let best := reduceToBest (results tools table settings maxScriptDatumBytes features)
  if best.subScores ≠ [] then best
  else
    -- The witness datums are not handed over here: a hash whose datum they hold counts as well.
    let hashOnly := if settings.flagDatumHashOnly then datumHashOnlyAddresses tools .null features.outputs else []
    noFinding [("max_script_datum_bytes", maxScriptDatumBytes), ("datum_hash_only_count", hashOnly.length)]

end LargeDatum

end

/-! ## More outputs -/

section
variable {tools : Tools} {table : Table} {features : Features} {more : List Output} {opened wider : Bool}
  {result better : ScorerResult} {found : List ScorerResult}

theorem reduceToBest_score : (reduceToBest found).score = bestValue ScorerResult.score 0 found := by
  unfold reduceToBest bestValue
  cases firstBest ScorerResult.score 0 found <;> rfl

theorem least_le_bestValue : -1 ≤ bestValue ScorerResult.score 0 found :=
  (by norm_num : (-1 : ℚ) ≤ 0).trans FirstBest.floor_le_bestValue

theorem classScore_le (least : -1 ≤ better.score)
    (kept : opened = true → -1 < result.score → wider = true ∧ result.score ≤ better.score) :
    classScore opened result ≤ classScore wider better := by
  have floor : -1 ≤ classScore wider better := by
    unfold classScore
    split
    · exact least
    · exact le_rfl
  cases opened with
  | false => exact floor
  | true =>
    rcases le_or_gt result.score (-1) with nothing | something
    · exact nothing.trans floor
    · obtain ⟨open_, le⟩ := kept rfl something
      rw [open_]
      exact le

theorem any_of_among {holds : Output → Bool} {outputs : List Output} (among : outputs ⊆ more)
    (some : outputs.any holds = true) : more.any holds = true := by
  obtain ⟨output, member, holding⟩ := List.any_eq_true.mp some
  exact List.any_eq_true.mpr ⟨output, among member, holding⟩

namespace TokenDust
variable {settings : Settings} {firstSeen : FirstSeen} {eligibles : List Eligible}

/-- An output is judged by the ages of its own policies, whatever else is looked up. -/
theorem establishedCollection_context {slot : Option Int} {minted : List String} {scored : Eligible}
    (member : scored ∈ eligibles) :
    establishedCollection settings slot minted (policyAgeContext settings firstSeen eligibles) scored.value =
      establishedCollection settings slot minted firstSeen scored.value := by
  unfold establishedCollection
  cases enabled : settings.establishedEnabled with
  | false => rfl
  | true =>
    rcases eq_or_ne (policies scored.value) [] with empty | some
    · simp [empty]
    · have own : ∀ policy ∈ policies scored.value,
          policyAgeContext settings firstSeen eligibles policy = firstSeen policy := by
        intro policy held
        have bundled : policy ∈ eligibles.flatMap fun eligible => policies eligible.value :=
          List.mem_flatMap.mpr ⟨scored, member, held⟩
        have asked : ¬ (eligibles.flatMap (fun eligible => policies eligible.value) = [] ∨
            !settings.establishedEnabled) := by
          rintro (nothing | disabled)
          · exact List.ne_nil_of_mem bundled nothing
          · simp [enabled] at disabled
        simp only [policyAgeContext, if_neg asked, if_pos bundled]
      have ages : knownAges slot (policyAgeContext settings firstSeen eligibles) scored.value =
          knownAges slot firstSeen scored.value := by
        cases slot with
        | none => rfl
        | some slot => exact List.filterMap_congr fun policy held => by rw [own policy held]
      have known : ((policies scored.value).all fun policy =>
            (policyAgeContext settings firstSeen eligibles policy).isSome) =
          (policies scored.value).all fun policy => (firstSeen policy).isSome := by
        rw [Bool.eq_iff_iff, List.all_eq_true, List.all_eq_true]
        exact forall₂_congr fun policy held => by rw [own policy held]
      rw [ages, known]

/-- The score of an output among others that are scored. -/
theorem scoreUtxo_context {network : String} {slot : Option Int} {minted : List String} {scored : Eligible}
    (member : scored ∈ eligibles) :
    (scoreUtxo tools table settings network slot minted (policyAgeContext settings firstSeen eligibles) scored).score =
      (scoreUtxo tools table settings network slot minted firstSeen scored).score := by
  simp only [scoreUtxo, establishedCollection_context member]

theorem score_score : (score tools table settings firstSeen features).score =
    bestValue ScorerResult.score 0 ((features.outputs.filterMap (eligible tools settings features.network)).map
      (scoreUtxo tools table settings features.network features.slot features.minted firstSeen)) := by
  unfold score
  dsimp only
  generalize features.outputs.filterMap (eligible tools settings features.network) = eligibles
  split
  · rename_i nothing
    rw [nothing, reduceToBest_score]
    rfl
  · rw [reduceToBest_score]
    apply le_antisymm
    · refine FirstBest.bestValue_mono fun result listed => ?_
      obtain ⟨scored, member, rfl⟩ := List.mem_map.mp listed
      exact ⟨_, List.mem_map_of_mem member, (scoreUtxo_context member).le⟩
    · refine FirstBest.bestValue_mono fun result listed => ?_
      obtain ⟨scored, member, rfl⟩ := List.mem_map.mp listed
      exact ⟨_, List.mem_map_of_mem member, (scoreUtxo_context member).ge⟩

/-- The class score of token dust. -/
def dustScore (tools : Tools) (table : Table) (settings : Settings) (firstSeen : FirstSeen) (features : Features) : ℚ :=
  classScore (gate tools settings features) (score tools table settings firstSeen features)

theorem dustScore_mono (among : features.outputs ⊆ more) : dustScore tools table settings firstSeen features ≤
    dustScore tools table settings firstSeen { features with outputs := more } := by
  refine classScore_le ?_ fun opened _ => ⟨any_of_among among opened, ?_⟩
  · rw [score_score]
    exact least_le_bestValue
  · rw [score_score, score_score]
    refine FirstBest.bestValue_mono fun result listed => ⟨result, ?_, le_rfl⟩
    obtain ⟨scored, member, rfl⟩ := List.mem_map.mp listed
    obtain ⟨output, within, qualifies⟩ := List.mem_filterMap.mp member
    exact List.mem_map_of_mem (List.mem_filterMap.mpr ⟨output, among within, qualifies⟩)

end TokenDust

namespace LargeValue
variable {settings : Settings}

/-- The class score of a large value. -/
def valueScore (tools : Tools) (table : Table) (settings : Settings) (features : Features) : ℚ :=
  classScore (gate tools features) (score tools table settings features)

theorem valueScore_mono (among : features.outputs ⊆ more) : valueScore tools table settings features ≤
    valueScore tools table settings { features with outputs := more } := by
  refine classScore_le ?_ fun opened _ => ⟨any_of_among among opened, ?_⟩
  · rw [score, reduceToBest_score]
    exact least_le_bestValue
  · rw [score, score, reduceToBest_score, reduceToBest_score]
    refine FirstBest.bestValue_mono fun result listed => ⟨result, ?_, le_rfl⟩
    obtain ⟨output, within, scored⟩ := List.mem_filterMap.mp listed
    exact List.mem_filterMap.mpr ⟨output, among within, scored⟩

end LargeValue

namespace LargeDatum
variable {settings : Settings} {maxBytes : ℕ}

/-- The class score of a large datum. -/
def datumScore (tools : Tools) (table : Table) (settings : Settings) (features : Features) : ℚ :=
  classScore (gate tools settings features) (score tools table settings features)

theorem scoreUtxo_maxBytes {network : String} {datums : Json} {output : Output} {trigger : Trigger} {other : ℕ} :
    (scoreUtxo tools table settings network maxBytes datums output trigger).score =
      (scoreUtxo tools table settings network other datums output trigger).score := rfl

/-- The results as `score` has them, with the bytes it has found at the fullest script. -/
private def listed (tools : Tools) (table : Table) (settings : Settings) (features : Features) : List ScorerResult :=
  results tools table settings (((perScriptDatumBytes tools features).map Prod.snd).foldl max 0) features

theorem mem_results {scored : ScorerResult} (member : scored ∈ results tools table settings maxBytes features) :
    ∃ output ∈ features.outputs, ∃ trigger, admitted tools settings features.datums output = some trigger ∧
      scored = scoreUtxo tools table settings features.network maxBytes features.datums output trigger := by
  obtain ⟨output, within, mapped⟩ := List.mem_filterMap.mp member
  obtain ⟨trigger, admits, rfl⟩ := Option.map_eq_some_iff.mp mapped
  exact ⟨output, within, trigger, admits, rfl⟩

theorem score_of_best {best : ScorerResult}
    (found : firstBest ScorerResult.score 0 (listed tools table settings features) = some best) :
    (score tools table settings features).score = best.score := by
  have reduced : reduceToBest (listed tools table settings features) = best := by
    rw [reduceToBest, found, Option.getD_some]
  have told : best.subScores ≠ [] := by
    obtain ⟨_, _, _, _, rfl⟩ := mem_results (FirstBest.mem_of_firstBest found)
    simp [scoreUtxo]
  unfold listed at reduced
  unfold score
  dsimp only
  rw [reduced, if_pos told]

/-- The default result has no sub-scores: where no output scores above zero, nothing is found. -/
theorem score_of_none (unfound : firstBest ScorerResult.score 0 (listed tools table settings features) = none) :
    (score tools table settings features).score = -1 := by
  have reduced : reduceToBest (listed tools table settings features) = {} := by
    rw [reduceToBest, unfound, Option.getD_none]
  unfold listed at reduced
  unfold score
  dsimp only
  rw [reduced, if_neg fun told => told rfl]
  rfl

theorem gate_of_admitted {output : Output} {trigger : Trigger} (within : output ∈ features.outputs)
    (admits : admitted tools settings features.datums output = some trigger) : gate tools settings features = true := by
  unfold admitted at admits
  split at admits
  · rename_i datumAtScript
    have opens : (features.outputs.any fun output => atScript tools output &&
        (bloatTrigger tools settings features.datums output (extractDatumInfo features.datums output).2).isSome) =
          true :=
      List.any_eq_true.mpr ⟨output, within, by simp [datumAtScript.1, admits]⟩
    simp [gate, opens]
  · cases admits

theorem score_ge : -1 ≤ (score tools table settings features).score := by
  cases found : firstBest ScorerResult.score 0 (listed tools table settings features) with
  | none => exact (score_of_none found).ge
  | some best =>
    obtain ⟨_, _, _, above, _⟩ := FirstBest.split_of_firstBest found
    rw [score_of_best found]
    linarith

theorem datumScore_mono (among : features.outputs ⊆ more) : datumScore tools table settings features ≤
    datumScore tools table settings { features with outputs := more } := by
  refine classScore_le score_ge fun _ something => ?_
  cases found : firstBest ScorerResult.score 0 (listed tools table settings features) with
  | none => exact absurd something (score_of_none found).not_gt
  | some best =>
    obtain ⟨_, _, _, above, _⟩ := FirstBest.split_of_firstBest found
    obtain ⟨output, within, trigger, admits, rfl⟩ := mem_results (FirstBest.mem_of_firstBest found)
    -- The same output is scored beside the others, and scores the same.
    have member : scoreUtxo tools table settings features.network
        (((perScriptDatumBytes tools { features with outputs := more }).map Prod.snd).foldl max 0) features.datums
        output
          trigger ∈ listed tools table settings { features with outputs := more } :=
      List.mem_filterMap.mpr ⟨output, among within, by rw [admits]; rfl⟩
    obtain ⟨top, better, le⟩ := FirstBest.exists_best member (scoreUtxo_maxBytes ▸ above)
    rw [score_of_best found, score_of_best better]
    exact ⟨@gate_of_admitted _ { features with outputs := more } _ _ _ (among within) admits, le⟩

end LargeDatum

/-- **An output put in anywhere lowers none of the three class scores.** -/
theorem added_output_never_dilutes (tools : Tools) (table : Table) (dust : TokenDust.Settings)
    (firstSeen : TokenDust.FirstSeen) (value : LargeValue.Settings) (datum : LargeDatum.Settings) (features : Features)
    (before after : List Output) (added : Output) :
    TokenDust.dustScore tools table dust firstSeen { features with outputs := before ++ after } ≤
        TokenDust.dustScore tools table dust firstSeen { features with outputs := before ++ added :: after } ∧
      LargeValue.valueScore tools table value { features with outputs := before ++ after } ≤
        LargeValue.valueScore tools table value { features with outputs := before ++ added :: after } ∧
      LargeDatum.datumScore tools table datum { features with outputs := before ++ after } ≤
        LargeDatum.datumScore tools table datum { features with outputs := before ++ added :: after } := by
  have among : before ++ after ⊆ before ++ added :: after :=
    ((List.sublist_cons_self added after).append_left before).subset
  refine ⟨?_, ?_, ?_⟩
  · exact @TokenDust.dustScore_mono tools table { features with outputs := before ++ after } _ dust firstSeen among
  · exact @LargeValue.valueScore_mono tools table { features with outputs := before ++ after } _ value among
  · exact @LargeDatum.datumScore_mono tools table { features with outputs := before ++ after } _ datum among

end
end TransactionMonitoring.SiblingOutputs
