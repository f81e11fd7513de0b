import TransactionMonitoring.Anchors
import TransactionMonitoring.FirstBest
import TransactionMonitoring.TokenNames

/-! The detection of fake tokens.

A minted asset whose name comes close to that of a legitimate token, under a policy that is not
the token's, opens the gate.  Of all such pairs of an asset and a legitimate name the one with
the closest name is scored, on who it imitates and on how it is handed out.
-/
namespace TransactionMonitoring.FakeToken

open Anchors (Table finalise normaliseInverted resolvedOrBootstrap)
open Baselines (Percentiles epsilon normalise)
open FirstBest (Displaces bestValue firstBest)
open MultipleSat (ScorerResult)
open TokenNames

/-- `get_legitimate_tokens`: names with their policies. -/
abbrev LegitTokens := List (String × List String)

/-! ## The gate -/

section
variable (similarity : String → String → ℚ) (threshold : ℚ) (legitTokens : LegitTokens) (builtins : Builtins)

/-- The asset passes for the legitimate token. -/
def passesFor (asset : MintedAsset) (legit : String × List String) : Bool :=
  decide (threshold ≤ similarity asset.tokenName legit.1) && decide (asset.policyId ∉ legit.2)

def impersonates (asset : MintedAsset) : Bool := legitTokens.any (passesFor similarity threshold asset)

/-- `FakeTokenScorer.gate`; nothing where it raises. -/
def gate (mint metadata : Json) : Option Bool :=
  (extractMintedAssets builtins mint metadata).map fun minted =>
    minted.any (impersonates similarity threshold legitTokens)

end

/-! ## The names that the metadata gives -/

section
variable {similarity : String → String → ℚ} {threshold : ℚ} {legitTokens : LegitTokens} {builtins : Builtins}
  {mint metadata : Json} {asset : MintedAsset}

/-- An asset under the name that the metadata gives it. -/
def renamed (builtins : Builtins) (metadata : Json) (asset : MintedAsset) : MintedAsset :=
  { asset with tokenName := (cip25Name builtins metadata asset.policyId asset.tokenNameHex).getD asset.tokenName }

theorem cip25Name_null (policyId assetNameHex : String) : cip25Name builtins .null policyId assetNameHex = none := rfl

/-- What the metadata changes of the minted assets is their names. -/
theorem extractMintedAssets_metadata : extractMintedAssets builtins mint metadata =
    (extractMintedAssets builtins mint .null).map (List.map (renamed builtins metadata)) := by
  unfold extractMintedAssets
  induction mintEntries mint with
  | nil => rfl
  | cons entry rest ih =>
    simp only [assetsOf, ih, Option.bind_eq_bind]
    cases quantityOf builtins entry.quantity with
    | none => rfl
    | some quantity =>
      cases assetsOf builtins .null rest with
      | none => rfl
      | some assets =>
        by_cases minted : 0 < quantity
        · simp [minted, renamed, displayName, cip25Name_null]
        · simp [minted]

theorem gate_metadata : gate similarity threshold legitTokens builtins mint metadata =
    (extractMintedAssets builtins mint .null).map fun minted =>
      minted.any fun asset => impersonates similarity threshold legitTokens (renamed builtins metadata asset) := by
  rw [gate, extractMintedAssets_metadata, Option.map_map]
  congr 1
  funext minted
  simp [List.any_map, Function.comp_def]

theorem renamed_of_named {name : String}
    (named : cip25Name builtins metadata asset.policyId asset.tokenNameHex = some name) :
    renamed builtins metadata asset = { asset with tokenName := name } := by
  rw [renamed, named, Option.getD_some]

theorem renamed_of_unnamed (unnamed : cip25Name builtins metadata asset.policyId asset.tokenNameHex = none) :
    renamed builtins metadata asset = asset := by
  rw [renamed, unnamed, Option.getD_none]

/-- **The metadata keeps the match on an on-chain name exactly when it leaves some matching asset
its name, or itself names some minted asset like a legitimate token.** -/
theorem metadata_keeps_match_iff :
    (gate similarity threshold legitTokens builtins mint .null = some true →
        gate similarity threshold legitTokens builtins mint metadata = some true) ↔
      ∀ minted, extractMintedAssets builtins mint .null = some minted →
        (∃ asset ∈ minted, impersonates similarity threshold legitTokens asset = true) →
          (∃ asset ∈ minted, impersonates similarity threshold legitTokens asset = true ∧
            cip25Name builtins metadata asset.policyId asset.tokenNameHex = none) ∨
          ∃ asset ∈ minted, ∃ name, cip25Name builtins metadata asset.policyId asset.tokenNameHex = some name ∧
            impersonates similarity threshold legitTokens { asset with tokenName := name } = true := by
  rw [@gate_metadata _ _ _ _ _ metadata, gate]
  cases extracted : extractMintedAssets builtins mint .null with
  | none => simp
  | some minted =>
    simp only [Option.map_some, Option.some.injEq, List.any_eq_true, forall_eq']
    refine imp_congr_right fun _ => ?_
    constructor
    · rintro ⟨asset, member, matching⟩
      cases named : cip25Name builtins metadata asset.policyId asset.tokenNameHex with
      | none =>
        rw [renamed_of_unnamed named] at matching
        exact Or.inl ⟨asset, member, matching, named⟩
      | some name =>
        rw [renamed_of_named named] at matching
        exact Or.inr ⟨asset, member, name, named, matching⟩
    · rintro (⟨asset, member, matching, unnamed⟩ | ⟨asset, member, name, named, matching⟩)
      · refine ⟨asset, member, ?_⟩
        rwa [renamed_of_unnamed unnamed]
      · refine ⟨asset, member, ?_⟩
        rwa [renamed_of_named named]

end

/-! ### A renamed imitation -/

private def sameName (left right : String) : ℚ := if left = right then 1 else 0

private def plainBuiltins : Builtins where
  int
    | .int value => some value
    | _ => none
  int_int _ := rfl
  shown _ := ""

/-- One `DJED`, its name in hexadecimal, under a policy that is not the token's. -/
private def forgedMint : Json := .dict [("forger", .dict [("444a4544", .int 1)])]

private def innocuous : Json :=
  .dict [("721", .dict [("forger", .dict [("444a4544", .dict [("name", .text "Festival Ticket")])])])]

theorem renamed_forgery_passes : ¬ ∀ (similarity : String → String → ℚ) (threshold : ℚ) (legitTokens : LegitTokens)
    (builtins : Builtins) (mint metadata : Json),
    gate similarity threshold legitTokens builtins mint .null = some true →
      gate similarity threshold legitTokens builtins mint metadata = some true := by
  intro kept
  have fired : gate sameName (7 / 10) [("DJED", ["djed"])] plainBuiltins forgedMint .null = some true := by
    decide +kernel
  have silent : gate sameName (7 / 10) [("DJED", ["djed"])] plainBuiltins forgedMint innocuous = some false := by
    decide +kernel
  have found := kept _ _ _ _ _ innocuous fired
  rw [silent] at found
  cases found

/-! ## The score -/

structure IdentityWeights where
  name : ℚ
  unicode : ℚ
  cip25 : ℚ

structure DistributionWeights where
  recipients : ℚ
  ratio : ℚ
  policyAge : ℚ
  recurrence : ℚ

structure OverallWeights where
  identity : ℚ
  distribution : ℚ

structure FixedAnchors where
  nameSim : Percentiles
  unicode : Percentiles
  cip25 : Percentiles
  policyAgeInv : Percentiles

structure BootstrapAnchors where
  recipientCount : Percentiles
  mintToRecipientRatio : Percentiles

structure ReasonThresholds where
  name : ℚ
  unicode : ℚ
  recipients : ℚ

/-- The numbers of the `fake_token` section. -/
structure Settings where
  identity : IdentityWeights
  distribution : DistributionWeights
  overall : OverallWeights
  fixed : FixedAnchors
  bootstrap : BootstrapAnchors
  unicodeScores : UnicodeScores
  reasonThresholds : ReasonThresholds
  similarityThreshold : ℚ
  asciiHomoglyphsEnabled : Bool
  criticalNames : List String
  criticalityMultiplier : ℚ

/-- The numbers of `detection.yaml`. -/
def shipped : Settings where
  identity := ⟨40 / 100, 35 / 100, 25 / 100⟩
  distribution := ⟨40 / 100, 30 / 100, 20 / 100, 10 / 100⟩
  overall := ⟨60 / 100, 40 / 100⟩
  fixed := ⟨⟨80 / 100, 97 / 100⟩, ⟨0, 60 / 100⟩, ⟨0, 80 / 100⟩, ⟨1 / 10 ^ 5, 2 / 10 ^ 4⟩⟩
  bootstrap := ⟨⟨1, 100⟩, ⟨100, 100000⟩⟩
  unicodeScores := ⟨4 / 10, 3 / 10, 3 / 10⟩
  reasonThresholds := ⟨3 / 10, 3 / 10, 5 / 10⟩
  similarityThreshold := 70 / 100
  asciiHomoglyphsEnabled := true
  criticalNames := ["iUSD", "DJED", "SHEN"]
  criticalityMultiplier := 18 / 10

/-- What the scorer reads beside the transaction. -/
structure Scorer where
  unicode : Unicode
  fuzz : Ratio
  builtins : Builtins
  settings : Settings
  table : Table
  legitTokens : String → LegitTokens

/-- What the scorer reads of a transaction; of its outputs that is their addresses. -/
structure Features where
  network : String
  mint : Json
  metadata : Json
  addresses : List String

/-- An asset and the name it passes for. -/
structure Candidate where
  asset : MintedAsset
  legitName : String
  similarity : ℚ
deriving DecidableEq

section
variable (scorer : Scorer)

def Scorer.similarity (name legitName : String) : ℚ :=
  computeTokennameSimilarity scorer.unicode scorer.fuzz scorer.settings.asciiHomoglyphsEnabled name legitName

/-- The names an asset passes for, in the order of the registry. -/
def Scorer.candidates (network : String) (asset : MintedAsset) : List Candidate :=
  ((scorer.legitTokens network).filter (passesFor scorer.similarity scorer.settings.similarityThreshold asset)).map
    fun legit => ⟨asset, legit.1, scorer.similarity asset.tokenName legit.1⟩

/-- The first of the candidates with the highest similarity. -/
def Scorer.bestCandidate (network : String) (minted : List MintedAsset) : Option Candidate :=
  firstBest Candidate.similarity 0 (minted.flatMap (scorer.candidates network))

variable (features : Features) (candidate : Candidate)

/-- The decoded on-chain name, which keeps zero-width characters. -/
def scannedName (asset : MintedAsset) : String :=
  if decodeHexAssetName asset.tokenNameHex ≠ "" then decodeHexAssetName asset.tokenNameHex else asset.tokenName

def Scorer.unicodeScore : ℚ :=
  let suspicion := computeUnicodeSuspicion scorer.unicode scorer.settings.unicodeScores (scannedName candidate.asset)
  if scorer.settings.asciiHomoglyphsEnabled && asciiFoldIncreasesSimilarity scorer.unicode scorer.fuzz
      (scannedName candidate.asset) candidate.legitName then
    min 1 (suspicion + scorer.settings.unicodeScores.homoglyphs)
  else suspicion

def Scorer.sName : ℚ := normalise candidate.similarity scorer.settings.fixed.nameSim

def Scorer.sUnicode : ℚ := normalise (scorer.unicodeScore candidate) scorer.settings.fixed.unicode

def Scorer.sCip25 : ℚ :=
  normalise (computeCip25Similarity scorer.unicode scorer.fuzz features.metadata candidate.legitName)
    scorer.settings.fixed.cip25

def Scorer.identityScore : ℚ :=
  let weights := scorer.settings.identity
  let identity := weights.name * scorer.sName candidate + weights.unicode * scorer.sUnicode candidate +
    weights.cip25 * scorer.sCip25 features candidate
  if candidate.legitName ∈ scorer.settings.criticalNames then min 1 (identity * scorer.settings.criticalityMultiplier)
  else identity

/-- The distinct addresses paid. -/
def recipientCount : ℕ := (features.addresses.filter (· ≠ "")).dedup.length

def Scorer.sRecipients : ℚ :=
  normalise (recipientCount features) (resolvedOrBootstrap scorer.table
    ⟨features.network, .perPolicy, candidate.asset.policyId, "recipient_count"⟩
    scorer.settings.bootstrap.recipientCount).1

def Scorer.sRatio : ℚ :=
  normaliseInverted (candidate.asset.quantity / (recipientCount features + epsilon)) (resolvedOrBootstrap scorer.table
    ⟨features.network, .perPolicy, candidate.asset.policyId, "mint_to_recipient_ratio"⟩
    scorer.settings.bootstrap.mintToRecipientRatio).1

/-- The age of a policy is not known when it is scored and counts as one slot. -/
def Scorer.sPolicyAge : ℚ := normalise (1 / 1) scorer.settings.fixed.policyAgeInv

/-- The recurrence of the sender needs clusters that do not exist yet. -/
def sRecurrence : ℚ := 0

def Scorer.distributionScore : ℚ :=
  let weights := scorer.settings.distribution
  weights.recipients * scorer.sRecipients features candidate + weights.ratio * scorer.sRatio features candidate +
    weights.policyAge * scorer.sPolicyAge + weights.recurrence * sRecurrence

/-- The axes of a candidate, weighed. -/
def Scorer.weighed : ℚ :=
  scorer.settings.overall.identity * scorer.identityScore features candidate +
    scorer.settings.overall.distribution * scorer.distributionScore features candidate

def Scorer.scoreCandidate : ScorerResult where
  score := finalise (scorer.weighed features candidate)
  reasons :=
    let reason (holds : Bool) (text : String) := if holds then [text] else []
    reason (scorer.settings.reasonThresholds.name < scorer.sName candidate) ("similar_to_" ++ candidate.legitName) ++
    reason (scorer.settings.reasonThresholds.unicode < scorer.sUnicode candidate) "unicode_suspicion" ++
    reason (scorer.settings.reasonThresholds.recipients < scorer.sRecipients features candidate) "mass_distribution"

/-- `FakeTokenScorer.score`, of the assets it extracts. -/
def Scorer.scoreMinted (minted : List MintedAsset) : ScorerResult :=
  match scorer.bestCandidate features.network minted with
  | none => { score := 0 }
  | some candidate => scorer.scoreCandidate features candidate

/-- `FakeTokenScorer.score`; nothing where it raises. -/
def Scorer.score : Option ScorerResult :=
  (extractMintedAssets scorer.builtins features.mint features.metadata).map (scorer.scoreMinted features)

/-- The class score as the engine keeps it: a closed gate, or an error, leaves -1. -/
def Scorer.classScore : ℚ :=
  match gate scorer.similarity scorer.settings.similarityThreshold (scorer.legitTokens features.network)
    scorer.builtins features.mint features.metadata with
  | some true => ((scorer.score features).map ScorerResult.score).getD (-1)
  | _ => -1

end

/-! ## One more minted asset -/

section
variable {scorer : Scorer} {features : Features} {builtins : Builtins} {metadata : Json}
  {before after entries : List MintEntry} {minted earlier later : List MintedAsset} {candidate rival : Candidate}

theorem assetsOf_append : assetsOf builtins metadata (before ++ after) =
    (assetsOf builtins metadata before).bind fun earlier =>
      (assetsOf builtins metadata after).map fun later => earlier ++ later := by
  induction before with
  | nil => simp [assetsOf]
  | cons entry rest ih =>
    simp only [List.cons_append, assetsOf, ih, Option.bind_eq_bind]
    cases quantityOf builtins entry.quantity with
    | none => rfl
    | some quantity =>
      cases assetsOf builtins metadata rest with
      | none => rfl
      | some assets =>
        cases assetsOf builtins metadata after <;> by_cases minted : 0 < quantity <;> simp [minted]

/-- An entry of a positive whole quantity is one more asset. -/
theorem assetsOf_minted {policyId assetNameHex : String} {quantity : Int} (positive : 0 < quantity) :
    assetsOf builtins metadata (⟨policyId, assetNameHex, .int quantity⟩ :: entries) =
      (assetsOf builtins metadata entries).map
        (⟨policyId, displayName builtins metadata policyId assetNameHex, assetNameHex, quantity⟩ :: ·) := by
  have counted : quantityOf builtins (.int quantity) = some quantity := by
    simp [quantityOf, Json.truthy, positive.ne', builtins.int_int]
  rw [assetsOf, counted]
  cases assetsOf builtins metadata entries <;> simp [positive]

theorem impersonates_of_candidate {network : String}
    (best : scorer.bestCandidate network minted = some candidate) :
    minted.any (impersonates scorer.similarity scorer.settings.similarityThreshold (scorer.legitTokens network)) =
      true := by
  obtain ⟨asset, member, found⟩ := List.mem_flatMap.mp (FirstBest.mem_of_firstBest best)
  obtain ⟨legit, passes, _⟩ := List.mem_map.mp found
  obtain ⟨registered, passes⟩ := List.mem_filter.mp passes
  exact List.any_eq_true.mpr ⟨asset, member, List.any_eq_true.mpr ⟨legit, registered, passes⟩⟩

theorem scoreMinted_nonneg : 0 ≤ (scorer.scoreMinted features minted).score := by
  unfold Scorer.scoreMinted
  split
  · exact le_rfl
  · exact Anchors.finalise_nonneg

/-- The class score, by the assets that are extracted. -/
def Scorer.mintedScore (scorer : Scorer) (features : Features) (minted : List MintedAsset) : ℚ :=
  if minted.any (impersonates scorer.similarity scorer.settings.similarityThreshold
      (scorer.legitTokens features.network)) then
    (scorer.scoreMinted features minted).score
  else -1

theorem classScore_of_minted
    (extracted : extractMintedAssets scorer.builtins features.mint features.metadata = some minted) :
    scorer.classScore features = scorer.mintedScore features minted := by
  unfold Scorer.classScore Scorer.mintedScore gate Scorer.score
  rw [extracted]
  cases fires : minted.any (impersonates scorer.similarity scorer.settings.similarityThreshold
    (scorer.legitTokens features.network)) with
  | true => simp [fires]
  | false => simp [fires]

theorem classScore_of_raised
    (raised : extractMintedAssets scorer.builtins features.mint features.metadata = none) :
    scorer.classScore features = -1 := by
  unfold Scorer.classScore gate
  rw [raised]
  rfl

theorem mintedScore_mint (mint : Json) :
    scorer.mintedScore { features with mint := mint } minted = scorer.mintedScore features minted := rfl

theorem mintedScore_of_candidate (best : scorer.bestCandidate features.network minted = some candidate) :
    scorer.mintedScore features minted = finalise (scorer.weighed features candidate) := by
  rw [Scorer.mintedScore, if_pos (impersonates_of_candidate best), Scorer.scoreMinted, best]
  rfl

theorem mintedScore_ge : -1 ≤ scorer.mintedScore features minted := by
  unfold Scorer.mintedScore
  split
  · have nonneg : 0 ≤ (scorer.scoreMinted features minted).score := scoreMinted_nonneg
    linarith
  · exact le_rfl

/-- Where nothing is a candidate, more assets keep the score. -/
theorem mintedScore_of_none (none : scorer.bestCandidate features.network minted = none) {more : List MintedAsset}
    (among : minted ⊆ more) : scorer.mintedScore features minted ≤ scorer.mintedScore features more := by
  cases fires : minted.any (impersonates scorer.similarity scorer.settings.similarityThreshold
    (scorer.legitTokens features.network)) with
  | false =>
    rw [Scorer.mintedScore, fires, if_neg Bool.false_ne_true]
    exact mintedScore_ge
  | true =>
    obtain ⟨asset, member, matching⟩ := List.any_eq_true.mp fires
    have still : more.any (impersonates scorer.similarity scorer.settings.similarityThreshold
        (scorer.legitTokens features.network)) = true :=
      List.any_eq_true.mpr ⟨asset, among member, matching⟩
    rw [Scorer.mintedScore, if_pos fires, Scorer.mintedScore, if_pos still, Scorer.scoreMinted, none]
    exact scoreMinted_nonneg

/-- The closest name of an added asset takes the place of the one that is scored without it. -/
def Scorer.Supplants (scorer : Scorer) (network : String) (earlier later : List MintedAsset) (rival : Candidate) :
    Prop :=
  Displaces Candidate.similarity (earlier.flatMap (scorer.candidates network))
    (later.flatMap (scorer.candidates network)) rival

/-- A closer name alone never weighs less: what a rival may fall behind on is one of the other axes. -/
theorem weighed_le_of_axes (numbers : scorer.settings = shipped) (closer : candidate.similarity ≤ rival.similarity)
    (unicode : scorer.sUnicode candidate ≤ scorer.sUnicode rival)
    (cip25 : scorer.sCip25 features candidate ≤ scorer.sCip25 features rival)
    (critical : candidate.legitName ∈ shipped.criticalNames → rival.legitName ∈ shipped.criticalNames)
    (recipients : scorer.sRecipients features candidate ≤ scorer.sRecipients features rival)
    (ratio : scorer.sRatio features candidate ≤ scorer.sRatio features rival) :
    scorer.weighed features candidate ≤ scorer.weighed features rival := by
  have name : scorer.sName candidate ≤ scorer.sName rival := Anchors.normalise_mono closer
  have unicodeTop : scorer.sUnicode rival ≤ 1 := Anchors.normalise_le_one
  have nameTop : scorer.sName rival ≤ 1 := Anchors.normalise_le_one
  have cip25Top : scorer.sCip25 features rival ≤ 1 := Anchors.normalise_le_one
  have nameFoot : 0 ≤ scorer.sName candidate := Anchors.normalise_nonneg
  have unicodeFoot : 0 ≤ scorer.sUnicode candidate := Anchors.normalise_nonneg
  have cip25Foot : 0 ≤ scorer.sCip25 features candidate := Anchors.normalise_nonneg
  have identity : scorer.identityScore features candidate ≤ scorer.identityScore features rival := by
    unfold Scorer.identityScore
    rw [numbers]
    dsimp only
    by_cases escalated : candidate.legitName ∈ shipped.criticalNames
    · rw [if_pos escalated, if_pos (critical escalated)]
      simp only [shipped]
      exact min_le_min le_rfl (by linarith)
    · rw [if_neg escalated]
      split
      · simp only [shipped]
        exact le_min (by linarith) (by linarith)
      · simp only [shipped]
        linarith
  have distribution : scorer.distributionScore features candidate ≤ scorer.distributionScore features rival := by
    unfold Scorer.distributionScore
    rw [numbers]
    simp only [shipped]
    linarith
  unfold Scorer.weighed
  rw [numbers]
  simp only [shipped]
  linarith

theorem bestCandidate_supplanted {network : String} {asset : MintedAsset}
    (found : scorer.bestCandidate network [asset] = some rival)
    (supplants : scorer.Supplants network earlier later rival) :
    scorer.bestCandidate network (earlier ++ asset :: later) = some rival := by
  rw [Scorer.bestCandidate, List.flatMap_append, List.flatMap_cons, ← List.append_assoc]
  rw [Scorer.bestCandidate, List.flatMap_cons, List.flatMap_nil, List.append_nil] at found
  exact FirstBest.firstBest_insert_displaced found supplants

theorem bestCandidate_kept {network : String} {asset : MintedAsset}
    (kept : ∀ rival, scorer.bestCandidate network [asset] = some rival →
      ¬ scorer.Supplants network earlier later rival) :
    scorer.bestCandidate network (earlier ++ asset :: later) = scorer.bestCandidate network (earlier ++ later) := by
  rw [Scorer.bestCandidate, Scorer.bestCandidate, List.flatMap_append, List.flatMap_append, List.flatMap_cons,
    ← List.append_assoc]
  refine FirstBest.firstBest_insert_kept fun rival found => kept rival ?_
  rwa [Scorer.bestCandidate, List.flatMap_cons, List.flatMap_nil, List.append_nil]

theorem mintedScore_insert_iff {asset : MintedAsset} :
    scorer.mintedScore features (earlier ++ later) ≤ scorer.mintedScore features (earlier ++ asset :: later) ↔
      ∀ candidate, scorer.bestCandidate features.network (earlier ++ later) = some candidate →
        ∀ rival, scorer.bestCandidate features.network [asset] = some rival →
          scorer.Supplants features.network earlier later rival →
            finalise (scorer.weighed features candidate) ≤ finalise (scorer.weighed features rival) := by
  have among : earlier ++ later ⊆ earlier ++ asset :: later :=
    ((List.sublist_cons_self asset later).append_left earlier).subset
  cases best : scorer.bestCandidate features.network (earlier ++ later) with
  | none => exact iff_of_true (mintedScore_of_none best among) fun candidate absent => nomatch absent
  | some candidate =>
    rw [mintedScore_of_candidate best]
    simp only [Option.some.injEq, forall_eq']
    constructor
    · intro keeps rival found supplants
      rwa [mintedScore_of_candidate (bestCandidate_supplanted found supplants)] at keeps
    · intro dominated
      by_cases supplanted : ∃ rival, scorer.bestCandidate features.network [asset] = some rival ∧
        scorer.Supplants features.network earlier later rival
      · obtain ⟨rival, found, supplants⟩ := supplanted
        rw [mintedScore_of_candidate (bestCandidate_supplanted found supplants)]
        exact dominated rival found supplants
      · have kept := bestCandidate_kept fun rival found supplants => supplanted ⟨rival, found, supplants⟩
        rw [mintedScore_of_candidate (kept.trans best)]

/-- **One more minted asset keeps the score exactly when it does not supplant the candidate that is
scored without it, or its own axes weigh no less.** -/
theorem extra_mint_keeps_score_iff {extended : Json} {policyId assetNameHex : String} {quantity : Int}
    (positive : 0 < quantity) (original : mintEntries features.mint = before ++ after)
    (inserted : mintEntries extended = before ++ ⟨policyId, assetNameHex, .int quantity⟩ :: after) :
    scorer.classScore features ≤ scorer.classScore { features with mint := extended } ↔
      ∀ earlier later, assetsOf scorer.builtins features.metadata before = some earlier →
        assetsOf scorer.builtins features.metadata after = some later →
          ∀ candidate, scorer.bestCandidate features.network (earlier ++ later) = some candidate →
            ∀ rival, scorer.bestCandidate features.network
                [⟨policyId, displayName scorer.builtins features.metadata policyId assetNameHex, assetNameHex,
                  quantity⟩] = some rival →
              scorer.Supplants features.network earlier later rival →
                finalise (scorer.weighed features candidate) ≤ finalise (scorer.weighed features rival) := by
  have without : extractMintedAssets scorer.builtins features.mint features.metadata = _ :=
    (congrArg (assetsOf scorer.builtins features.metadata) original).trans assetsOf_append
  have whole : extractMintedAssets scorer.builtins extended features.metadata = _ :=
    (congrArg (assetsOf scorer.builtins features.metadata) inserted).trans assetsOf_append
  rw [assetsOf_minted positive] at whole
  cases first : assetsOf scorer.builtins features.metadata before with
  | none =>
    rw [first] at without whole
    rw [classScore_of_raised without, @classScore_of_raised scorer { features with mint := extended } whole]
    exact iff_of_true le_rfl fun earlier later absent => nomatch absent
  | some earlier =>
    cases last : assetsOf scorer.builtins features.metadata after with
    | none =>
      rw [first, last] at without whole
      rw [classScore_of_raised without, @classScore_of_raised scorer { features with mint := extended } whole]
      exact iff_of_true le_rfl fun earlier later _ absent => nomatch absent
    | some later =>
      rw [first, last] at without whole
      rw [classScore_of_minted without, @classScore_of_minted scorer { features with mint := extended } _ whole,
        mintedScore_mint extended, mintedScore_insert_iff]
      constructor
      · rintro weighs _ _ ⟨⟩ ⟨⟩
        exact weighs
      · intro weighs
        exact weighs earlier later rfl rfl

end

private def sameRatio : Ratio where
  ratio left right := if left = right then 100 else 0
  bounded left right := by split <;> norm_num
  same text := if_pos rfl

/-- The texts of the cases below are ASCII. -/
private def asciiOnly : Unicode where
  nfkc text := text
  lower text := text.map Char.toLower
  isAlpha := Char.isAlpha
  script _ := some "LATIN"

private def plainScorer : Scorer where
  unicode := asciiOnly
  fuzz := sameRatio
  builtins := plainBuiltins
  settings := shipped
  table := ⟨⟨true, 1 / 2, 1 / 2, 1 / 10, 200⟩, ⟨5, 1 / 4⟩, []⟩
  legitTokens _ := [("DJED", ["djed"]), ("HOSKY", ["hosky"])]

private def forgery : Features := ⟨"mainnet", forgedMint, .null, ["addr1"]⟩

/-- A billion `HOSKY`, under a policy of the forger, before the one `DJED`. -/
private def bulkFirst : Json :=
  .dict [("bulk", .dict [("484f534b59", .int (10 ^ 9))]), ("forger", .dict [("444a4544", .int 1)])]

private def withUnknown : Json := .dict [("forger", .dict [("444a4544", .int 1), ("74657374", .int 5)])]

/-- An unknown name behind the `DJED` changes nothing. -/
theorem unknown_mint_keeps_score :
    plainScorer.classScore forgery ≤ plainScorer.classScore { forgery with mint := withUnknown } := by
  have original : mintEntries forgery.mint = [⟨"forger", "444a4544", .int 1⟩] ++ [] := rfl
  have inserted : mintEntries withUnknown = [⟨"forger", "444a4544", .int 1⟩] ++ ⟨"forger", "74657374", .int 5⟩ :: [] :=
    rfl
  refine (extra_mint_keeps_score_iff (by decide) original inserted).mpr ?_
  intro earlier later _ _ candidate _ rival found
  have unknown : plainScorer.bestCandidate forgery.network [⟨"forger",
      displayName plainScorer.builtins forgery.metadata "forger" "74657374", "74657374", 5⟩] = none := by
    decide +kernel
  rw [unknown] at found
  cases found

theorem bulk_mint_supplants : ¬ ∀ (scorer : Scorer) (features : Features) (before after : List MintEntry)
    (extended : Json) (policyId assetNameHex : String) (quantity : Int), 0 < quantity →
    mintEntries features.mint = before ++ after →
    mintEntries extended = before ++ ⟨policyId, assetNameHex, .int quantity⟩ :: after →
      scorer.classScore features ≤ scorer.classScore { features with mint := extended } := by
  intro kept
  have lowered := kept plainScorer forgery [] [⟨"forger", "444a4544", .int 1⟩] bulkFirst "bulk" "484f534b59" (10 ^ 9)
    (by norm_num) rfl rfl
  have before : plainScorer.classScore forgery = 6320 / 100 := by decide +kernel
  have after : plainScorer.classScore { forgery with mint := bulkFirst } = 32 := by decide +kernel
  rw [before, after] at lowered
  norm_num at lowered

end TransactionMonitoring.FakeToken
