import TransactionMonitoring.Anchors
import TransactionMonitoring.MetadataText
import TransactionMonitoring.TokenNames

/-! The detection of phishing.

A transaction carries URLs in its metadata, in the datums of its outputs and in the names of its
tokens.  What they look like, the language around them and how they are delivered make the score.
Where only token names carry URLs and every token goes to an address that spends some of it, the
bonuses are withheld; what is not known of the inputs can only give them back.
-/
namespace TransactionMonitoring.Phishing

open Anchors (Table finalise resolvedOrBootstrap)
open Baselines (Percentiles Source normalise)
open DatumStructure (Cbor)
open MetadataText
open TokenNames (Builtins Ratio decodeHexAssetName fuzzRatioScale)
open UrlExtraction

/-! ## Settings -/

structure ContentWeights where
  blacklist : ℚ
  domain : ℚ
  social : ℚ

structure DeliveryWeights where
  recipients : ℚ
  urlRecur : ℚ
  targeting : ℚ
  recurrence : ℚ

structure OverallWeights where
  content : ℚ
  delivery : ℚ

structure SocialEngineering where
  urgencyIncrement : ℚ
  urgencyCap : ℚ
  brandIncrement : ℚ
  brandCap : ℚ
  urlComboBonus : ℚ
  phishingTldBonus : ℚ

structure ReasonThresholds where
  blacklist : ℚ
  domain : ℚ
  social : ℚ
  recipients : ℚ

/-- The numbers and switches of the `phishing` section. -/
structure Settings where
  content : ContentWeights
  delivery : DeliveryWeights
  overall : OverallWeights
  brandSim : Percentiles
  socialScore : Percentiles
  recipientCount : Percentiles
  similarityLo : ℚ
  similarityHi : ℚ
  se : SocialEngineering
  reasonThresholds : ReasonThresholds
  criticalThreshold : ℚ
  assetCarrierEnabled : Bool
  requireDeliveryForBonuses : Bool

/-- A section with no negative bonus, and no negative weight for the delivery or its targeting. -/
structure Config extends Settings where
  deliveryCounts : 0 ≤ overall.delivery
  targetingCounts : 0 ≤ delivery.targeting
  comboCounts : 0 ≤ se.urlComboBonus
  tldCounts : 0 ≤ se.phishingTldBonus

/-- The section of `detection.yaml`. -/
def shipped : Config where
  content := ⟨30 / 100, 30 / 100, 40 / 100⟩
  delivery := ⟨35 / 100, 25 / 100, 25 / 100, 15 / 100⟩
  overall := ⟨65 / 100, 35 / 100⟩
  brandSim := ⟨0, 85 / 100⟩
  socialScore := ⟨0, 30 / 100⟩
  recipientCount := ⟨1, 50⟩
  similarityLo := 5 / 10
  similarityHi := 1
  se := ⟨15 / 100, 6 / 10, 10 / 100, 3 / 10, 25 / 100, 15 / 100⟩
  reasonThresholds := ⟨5 / 10, 5 / 10, 3 / 10, 5 / 10⟩
  criticalThreshold := 60 / 100
  assetCarrierEnabled := true
  requireDeliveryForBonuses := true
  deliveryCounts := by norm_num
  targetingCounts := by norm_num
  comboCounts := by norm_num
  tldCounts := by norm_num

/-- What the scorer reads beside the transaction and its settings. -/
structure Tools where
  reader : Reader
  builtins : Builtins
  fuzz : Ratio
  /-- `==` of two values. -/
  same : Json → Json → Bool
  phishingPatterns : List (String → Bool)
  protocolDomains : List String
  senderAllowlist : List String
  tier1CredentialPatterns : List String
  tier2UrgencyPatterns : List (String → Bool)
  tier3BrandNames : List String
  table : Table

structure Features where
  metadata : Json
  rawData : Json
  network : String
  outputCount : ℕ

/-! ## Tokens and their holders -/

abbrev AssetKey := String × String

def isDict : Json → Bool
  | .dict _ => true
  | _ => false

/-- The elements a loop over `value or []` gets; nothing where it raises. -/
def orEmpty (value : Option Json) : Option (List Json) :=
  match value.filter Json.truthy with
  | none => some []
  | some (.list items) => some items
  | some (.dict entries) => some (entries.map fun entry => .text entry.1)
  | some (.text text) => some (text.toList.map fun char => .text (String.singleton char))
  | some _ => none

/-- The tokens of a value bundle with their quantities; its coins are no tokens. -/
def bundleTokens : Json → List (AssetKey × Json)
  | .dict policies => policies.flatMap fun policy =>
      if policy.1 ∈ ["ada", "lovelace"] then []
      else
        match policy.2 with
        | .dict tokens => tokens.map fun token => ((policy.1, token.1), token.2)
        | _ => []
  | _ => []

/-- `int` of an infinite quantity raises an `OverflowError`, which the loop over the mint map lets pass. -/
def overflows : Json → Bool
  | .float shown => shown = "inf" || shown = "-inf"
  | _ => false

/-- The address of an input or an output, where it has one. -/
def addressOf (input : Json) : Option String := ((input.get "address").bind asText).filter (· ≠ "")

section
variable (tools : Tools)

/-- `_is_url_named`. -/
def Tools.isUrlNamed (hexName : String) : Bool :=
  validateCandidates tools.reader.tables (urlCandidates tools.reader.tables (decodeHexAssetName hexName)) ≠ []

/-- `_url_assets_in`. -/
def Tools.urlAssetsIn (bundle : Option Json) : List (AssetKey × Json) :=
  (bundleTokens (bundle.getD .null)).filter fun token => tools.isUrlNamed token.1.2

/-- The URL-named assets at the addresses of inputs or of outputs; what has no address counts nowhere. -/
def Tools.held (entries : List Json) : List (AssetKey × String) :=
  entries.flatMap fun entry =>
    match addressOf entry with
    | some address => (tools.urlAssetsIn (entry.get "value")).map fun token => (token.1, address)
    | none => []

/-- The minted URL-named assets; a quantity that is no number counts as minted. -/
def Tools.minted (mint : Option Json) : Option (List AssetKey) :=
  let assets := tools.urlAssetsIn mint
  if assets.any fun token => overflows token.2 then none
  else some ((assets.filter fun token => (tools.builtins.int token.2).all (0 < ·)).map Prod.fst)

/-- A pair of an asset and a recipient is net-new unless the recipient is seen to have held the asset. -/
def netNew (minted : List AssetKey) (priorHolders : List (AssetKey × String)) (pair : AssetKey × String) : Bool :=
  decide (pair.1 ∈ minted) || decide (pair ∉ priorHolders)

/-- `_url_token_delivery_stats`; nothing where it raises. -/
def Tools.urlTokenDeliveryStats (rawData : Json) : Option (ℕ × ℕ) :=
  if isDict rawData then do
    let minted ← tools.minted (rawData.get "mint")
    let inputs ← orEmpty (rawData.get "inputs")
    let outputs ← orEmpty (rawData.get "outputs")
    let pairs := (tools.held outputs).dedup
    some (pairs.length, pairs.countP (netNew minted (tools.held inputs)))
  else some (0, 0)

/-! ## Carriers -/

/-- `_decode_asset_name_strings`. -/
def decodeAssetNameStrings (rawData : Json) : List String :=
  let outputs := match rawData.get "outputs" with
    | some (.list outputs) => outputs
    | _ => []
  let bundles := (rawData.get "mint").getD .null :: outputs.map fun output => (output.get "value").getD .null
  ((bundles.flatMap bundleTokens).map fun token => decodeHexAssetName token.1.2).eraseDups

/-- `_sender_addresses`; nothing where it raises. -/
def senderAddresses (rawData : Json) : Option (List String) :=
  (orEmpty (rawData.get "inputs")).map (List.filterMap addressOf)

/-- `is_sender_allowlisted`. -/
def Tools.isSenderAllowlisted (addresses : List String) : Bool :=
  addresses.any fun address => tools.senderAllowlist.any fun start => decide (start.toList <+: address.toList)

variable (features : Features)

def Tools.metadataDatumCandidates : List String :=
  tools.reader.metadataDatumUrlCandidates features.metadata features.rawData

/-- `_asset_name_candidates`. -/
def Tools.assetNameCandidates : List String :=
  (decodeAssetNameStrings features.rawData).flatMap (urlCandidates tools.reader.tables)

variable (settings : Settings)

/-- `_extract_urls`. -/
def Tools.extractUrls : List String :=
  validateCandidates tools.reader.tables (tools.metadataDatumCandidates features ++
    if settings.assetCarrierEnabled then tools.assetNameCandidates features else [])

/-! ## Language -/

def contains (text part : String) : Bool := part.toList <:+: text.toList

/-- What the scan for social engineering reads. -/
def Tools.scannedText : String :=
  let lower := tools.reader.tables.lower
  let metadata := if features.metadata.truthy then features.metadata else .dict []
  let contents := tools.reader.relevantLabels.filterMap (labelContent metadata)
  let spans := (contents ++ inlineDatums features.rawData).flatMap tools.reader.datumStrings ++
    if settings.assetCarrierEnabled then decodeAssetNameStrings features.rawData else []
  lower (flattenToText (maxMetadataFlattenDepth + 1) metadata) ++ String.join (spans.map fun span => " " ++ lower span)

/-- `_classify_social_engineering`. -/
def Tools.classifySocialEngineering : ℚ × String :=
  let text := tools.scannedText features settings
  if text = "" then (0, "None")
  else if tools.tier1CredentialPatterns.any fun pattern => contains text (tools.reader.tables.lower pattern) then
    (1, "Tier 1: Credential harvesting")
  else
    let urgencyMatches := tools.tier2UrgencyPatterns.countP fun pattern => pattern text
    let brandMatches := tools.tier3BrandNames.countP fun brand => contains text (tools.reader.tables.lower brand)
    let score := (if 0 < urgencyMatches then min settings.se.urgencyCap (urgencyMatches * settings.se.urgencyIncrement)
      else 0) + (if 0 < brandMatches then min settings.se.brandCap (brandMatches * settings.se.brandIncrement) else 0)
    let tiersHit := (if 0 < urgencyMatches then ["Tier 2: Urgency language"] else []) ++
      (if 0 < brandMatches then ["Tier 3: Brand impersonation"] else [])
    (normalise score settings.socialScore, if tiersHit = [] then "None" else " + ".intercalate tiersHit)

/-! ## The score -/

/-- `_score_blacklist`. -/
def Tools.scoreBlacklist (urls : List String) : ℚ :=
  if urls.any fun url => tools.phishingPatterns.any fun pattern => pattern url then 1 else 0

/-- The similarity of a URL's brand to those of the known protocols; one of their own domains has none. -/
def Tools.brandSimilarities (url : String) : List ℚ :=
  let tables := tools.reader.tables
  let legitInfo := tools.protocolDomains.filterMap fun domain =>
    match registrableDomain tables domain, brand tables domain with
    | some registrable, some name => some (registrable, name)
    | _, _ => none
  match registrableDomain tables url, brand tables url with
  | some registrable, some name =>
      if legitInfo.any fun legit => registrable = legit.1 then []
      else (legitInfo.map fun legit =>
        tools.fuzz.ratio (tables.lower name) (tables.lower legit.2) / fuzzRatioScale).filter fun sim =>
          settings.similarityLo < sim && sim < settings.similarityHi
  | _, _ => []

/-- `_score_domain_suspicion`. -/
def Tools.scoreDomainSuspicion (urls : List String) : ℚ :=
  normalise ((urls.flatMap fun url => tools.brandSimilarities settings url).foldl max 0) settings.brandSim

/-- Whether a set can hold the value. -/
def hashable : Json → Bool
  | .list _ | .dict _ => false
  | _ => true

/-- The distinct addresses paid; nothing where an address cannot be in a set. -/
def Tools.distinctRecipients (rawData : Json) : Option ℕ :=
  (orEmpty (rawData.get "outputs")).bind fun outputs =>
    let addresses := outputs.filterMap fun output => (output.get "address").filter Json.truthy
    if addresses.all hashable then some (addresses.eraseDupsBy tools.same).length else none

/-- The axes of a transaction. -/
structure Axes where
  blacklist : ℚ
  domain : ℚ
  social : ℚ
  recipients : ℚ
  targeting : ℚ

/-- Not yet measured: whether a URL recurs, and whether a sender does. -/
def sUrlRecur : ℚ := 0

def sRecurrence : ℚ := 0

def Axes.content (axes : Axes) : ℚ :=
  settings.content.blacklist * axes.blacklist + settings.content.domain * axes.domain +
    settings.content.social * axes.social

def Axes.delivery (axes : Axes) : ℚ :=
  settings.delivery.recipients * axes.recipients + settings.delivery.urlRecur * sUrlRecur +
    settings.delivery.targeting * axes.targeting + settings.delivery.recurrence * sRecurrence

/-- The share of the pairs that are net-new. -/
def targetingOf (stats : ℕ × ℕ) : ℚ := if 0 < stats.1 then stats.2 / stats.1 else 0

/-- `suppress_bonuses`: names are the only carrier, and each of their pairs is seen to have held its asset. -/
def suppressBonuses (assetNameUrls metadataDatumUrls : List String) (stats : ℕ × ℕ) : Bool :=
  settings.requireDeliveryForBonuses && decide (assetNameUrls ≠ []) && decide (metadataDatumUrls = []) &&
    decide (0 < stats.1) && decide (stats.2 = 0)

/-- The bonuses for a URL beside its language. -/
def Tools.bonuses (urls : List String) (social : ℚ) : ℚ :=
  (if urls ≠ [] ∧ settings.reasonThresholds.social ≤ social then settings.se.urlComboBonus else 0) +
  (if settings.reasonThresholds.social ≤ social ∧ urls.any (hasPhishingProneTld tools.reader.tables) then
    settings.se.phishingTldBonus else 0)

structure UrlRecord where
  url : String
  severity : String
  phishingTld : Bool
deriving DecidableEq

structure Evidence where
  severity : String
  seTier : String
  urls : List UrlRecord
  assetNameUrls : List String
  recipientCount : ℕ
  metadataLabels : List String
  /-- `url_token_delivery`: the pairs, how many are net-new, and whether the bonuses are withheld. -/
  urlTokenDelivery : Option (ℕ × ℕ × Bool)

structure Result where
  score : ℚ
  subScores : List (String × ℚ) := []
  reasons : List String := []
  baselineSource : Source := .missing
  evidence : Option Evidence := none

def Tools.urlRecord (url : String) : UrlRecord where
  url := url
  severity :=
    if tools.phishingPatterns.any fun pattern => pattern url then "BLACKLISTED"
    else if hasPhishingProneTld tools.reader.tables url then "SUSPICIOUS" else "NORMAL"
  phishingTld := hasPhishingProneTld tools.reader.tables url

/-- The score and what is reported with it, of the axes, the delivery statistics and the carriers. -/
def Tools.report (axes : Axes) (seTier : String) (urls assetNameUrls metadataDatumUrls : List String)
    (recipientCount : ℕ) (source : Source) (stats : ℕ × ℕ) : Result :=
  let suppressed := suppressBonuses settings assetNameUrls metadataDatumUrls stats
  let content := axes.content settings
  let delivery := axes.delivery settings
  let raw := settings.overall.content * content + settings.overall.delivery * delivery +
    if suppressed then 0 else tools.bonuses settings urls axes.social
  let reason (holds : Bool) (text : String) := if holds then [text] else []
  { score := finalise raw
    subScores := [("blacklist", round4 axes.blacklist), ("domain_suspicion", round4 axes.domain),
      ("social_engineering", round4 axes.social), ("content_composite", round4 content),
      ("recipients", round4 axes.recipients), ("url_recurrence", round4 sUrlRecur),
      ("targeting", round4 axes.targeting), ("sender_recurrence", round4 sRecurrence),
      ("delivery_composite", round4 delivery)]
    reasons := reason (settings.reasonThresholds.blacklist < axes.blacklist) "url_blacklist_match" ++
      reason (settings.reasonThresholds.domain < axes.domain) "suspicious_domain" ++
      reason (settings.reasonThresholds.social < axes.social) "social_engineering_language" ++
      reason (settings.reasonThresholds.recipients < axes.recipients) "mass_distribution" ++
      reason (assetNameUrls ≠ []) "url_in_asset_name"
    baselineSource := source
    evidence := some
      { severity :=
          if axes.blacklist = 1 then "KNOWN_BAD"
          else if settings.criticalThreshold ≤ content then "SUSPICIOUS_NEW_DOMAIN" else "SOCIAL_ENGINEERING"
        seTier := seTier
        urls := urls.map tools.urlRecord
        assetNameUrls := assetNameUrls
        recipientCount := recipientCount
        metadataLabels := (match features.metadata with
          | .dict labels => (labels.map Prod.fst).mergeSort fun one two => one ≤ two
          | _ => [])
        urlTokenDelivery := if assetNameUrls = [] then none else some (stats.1, stats.2, suppressed) } }

/-- The baseline of the recipients, and where it comes from. -/
def Tools.recipientBaseline : Percentiles × Source :=
  resolvedOrBootstrap tools.table ⟨features.network, .global, "__global__", "recipient_count"⟩ settings.recipientCount

/-- Where no recipient has an address, the outputs count. -/
def recipientCountOf (distinct : ℕ) : ℕ := if distinct ≠ 0 then distinct else features.outputCount

def Tools.assetNameUrls : List String :=
  if settings.assetCarrierEnabled then validateCandidates tools.reader.tables (tools.assetNameCandidates features)
  else []

/-- The URLs of the other carriers, which are all URLs where no name has one. -/
def Tools.metadataDatumUrls : List String :=
  if tools.assetNameUrls features settings ≠ [] then
    validateCandidates tools.reader.tables (tools.metadataDatumCandidates features)
  else tools.extractUrls features settings

/-- `PhishingScorer.score` where there is something to score, the recipients and the delivery statistics given. -/
def Tools.reportOf (distinct : ℕ) (stats : ℕ × ℕ) : Result :=
  let urls := tools.extractUrls features settings
  let classified := tools.classifySocialEngineering features settings
  let resolved := tools.recipientBaseline features settings
  tools.report features settings
    ⟨tools.scoreBlacklist urls, tools.scoreDomainSuspicion settings urls, classified.1,
      normalise (recipientCountOf features distinct) resolved.1, targetingOf stats⟩
    classified.2 urls (tools.assetNameUrls features settings) (tools.metadataDatumUrls features settings)
    (recipientCountOf features distinct) resolved.2 stats

/-- `PhishingScorer.score`, the delivery statistics given; nothing where it raises. -/
def Tools.scoreDelivered (delivered : Option (ℕ × ℕ)) : Option Result :=
  if tools.extractUrls features settings = [] ∧ (tools.classifySocialEngineering features settings).1 ≤ 0 then
    some { score := 0 }
  else
    (tools.distinctRecipients features.rawData).bind fun distinct =>
      delivered.map fun stats => tools.reportOf features settings distinct stats

def Tools.score : Option Result :=
  tools.scoreDelivered features settings
    (if settings.assetCarrierEnabled then tools.urlTokenDeliveryStats features.rawData else some (0, 0))

/-- `PhishingScorer.gate`; nothing where it raises. -/
def Tools.gate : Option Bool :=
  (senderAddresses features.rawData).map fun senders =>
    if tools.isSenderAllowlisted senders then false
    else decide (tools.extractUrls features settings ≠ []) ||
      decide (0 < (tools.classifySocialEngineering features settings).1)

/-- The class score as the engine keeps it: a closed gate, or an error, leaves -1. -/
def Tools.classScore : ℚ :=
  match tools.gate features settings with
  | some true => ((tools.score features settings).map Result.score).getD (-1)
  | _ => -1

end
/-! ## Less enrichment -/

/-- A value and the value without some part of it. -/
inductive Loses : Json → Json → Prop where
  | item {before after : List Json} (item : Json) : Loses (.list (before ++ item :: after)) (.list (before ++ after))
  | entry {before after : List (String × Json)} (entry : String × Json) :
      Loses (.dict (before ++ entry :: after)) (.dict (before ++ after))
  | inItem {before after : List Json} {item less : Json} (inside : Loses item less) :
      Loses (.list (before ++ item :: after)) (.list (before ++ less :: after))
  | inEntry {before after : List (String × Json)} {key : String} {value less : Json} (inside : Loses value less) :
      Loses (.dict (before ++ (key, value) :: after)) (.dict (before ++ (key, less) :: after))

/-- An input and the input without its address, its value or a part of its value. -/
inductive LosesInput : Json → Json → Prop where
  | whole {before after : List (String × Json)} (key : String) (value : Json) (part : key = "address" ∨ key = "value")
      (once : ∀ entry ∈ before ++ after, entry.1 ≠ key) :
      LosesInput (.dict (before ++ (key, value) :: after)) (.dict (before ++ after))
  | value {before after : List (String × Json)} {value less : Json} (inside : Loses value less) :
      LosesInput (.dict (before ++ ("value", value) :: after)) (.dict (before ++ ("value", less) :: after))

/-- A raw transaction and the transaction with less of its inputs: without one of them, or with less of one. -/
inductive LosesEnrichment : Json → Json → Prop where
  | input {fields others : List (String × Json)} {before after : List Json} (input : Json) :
      LosesEnrichment (.dict (fields ++ ("inputs", .list (before ++ input :: after)) :: others))
        (.dict (fields ++ ("inputs", .list (before ++ after)) :: others))
  | within {fields others : List (String × Json)} {before after : List Json} {input less : Json}
      (inside : LosesInput input less) :
      LosesEnrichment (.dict (fields ++ ("inputs", .list (before ++ input :: after)) :: others))
        (.dict (fields ++ ("inputs", .list (before ++ less :: after)) :: others))

section
variable {tools : Tools} {config : Config} {features : Features} {rawData less value : Json}

theorem bundleTokens_dict (policies : List (String × Json)) : bundleTokens (.dict policies) =
    policies.flatMap fun policy => bundleTokens (.dict [policy]) := by
  simp [bundleTokens]

/-- The tokens of one policy. -/
theorem tokens_of_policy (key : String) : (bundleTokens (.dict [(key, value)])).map Prod.fst =
    if key ∈ ["ada", "lovelace"] then []
    else match value with
      | .dict tokens => tokens.map fun token => (key, token.1)
      | _ => [] := by
  simp only [bundleTokens, List.flatMap_cons, List.flatMap_nil, List.append_nil]
  split
  · rfl
  · cases value <;> simp [Function.comp_def]

/-- What a bundle loses leaves it no other tokens. -/
theorem tokens_shrink (lost : Loses value less) :
    (bundleTokens less).map Prod.fst ⊆ (bundleTokens value).map Prod.fst := by
  cases lost with
  | item | inItem => exact List.nil_subset _
  | entry entry =>
    refine List.map_subset _ ?_
    rw [bundleTokens_dict, bundleTokens_dict (_ ++ _ :: _)]
    exact flatMap_inserted
  | @inEntry before after key value less inside =>
    rw [bundleTokens_dict, bundleTokens_dict (before ++ (key, value) :: after), List.map_flatMap, List.map_flatMap]
    refine flatMap_replaced ?_
    rw [tokens_of_policy, tokens_of_policy]
    split
    · exact List.Subset.refl _
    · cases inside with
      | item | inItem => exact List.nil_subset _
      | entry entry => exact List.map_subset _ ((List.sublist_cons_self _ _).append_left _).subset
      | inEntry => simp

theorem mem_held {entries : List Json} {pair : AssetKey × String} : pair ∈ tools.held entries ↔
    ∃ entry ∈ entries, addressOf entry = some pair.2 ∧ tools.isUrlNamed pair.1.2 = true ∧
      pair.1 ∈ (bundleTokens ((entry.get "value").getD .null)).map Prod.fst := by
  unfold Tools.held
  rw [List.mem_flatMap]
  refine exists_congr fun entry => and_congr_right fun _ => ?_
  cases addressOf entry with
  | none => simp
  | some address =>
    simp only [Tools.urlAssetsIn, List.mem_map, List.mem_filter, Option.some.injEq]
    constructor
    · rintro ⟨token, ⟨member, named⟩, rfl⟩
      exact ⟨rfl, named, token, member, rfl⟩
    · rintro ⟨rfl, named, token, member, same⟩
      exact ⟨token, ⟨member, same ▸ named⟩, by rw [same]⟩

/-- An input with less keeps its address or loses it, and has no other tokens. -/
theorem input_shrinks {input fewer : Json} (lost : LosesInput input fewer) :
    (addressOf fewer = addressOf input ∨ addressOf fewer = none) ∧
      (bundleTokens ((fewer.get "value").getD .null)).map Prod.fst ⊆
        (bundleTokens ((input.get "value").getD .null)).map Prod.fst := by
  cases lost with
  | @whole before after key value part once =>
    have absent : (Json.dict (before ++ after)).get key = none := by
      refine Option.eq_none_iff_forall_ne_some.mpr fun found held => ?_
      exact once _ (Json.mem_of_get held) rfl
    have kept {other : String} (different : key ≠ other) :
        (Json.dict (before ++ after)).get other = (Json.dict (before ++ (key, value) :: after)).get other := by
      rw [Json.get_append, Json.get_append, Json.get_cons, if_neg different]
    rcases part with rfl | rfl
    · refine ⟨.inr (by rw [addressOf, absent]; rfl), ?_⟩
      rw [kept (by decide)]
      exact List.Subset.refl _
    · refine ⟨.inl (by rw [addressOf, addressOf, kept (by decide)]), ?_⟩
      rw [absent]
      exact List.nil_subset _
  | @value before after value less inside =>
    constructor
    · refine .inl ?_
      rw [addressOf, addressOf, Json.get_append, Json.get_append, Json.get_cons, Json.get_cons]
      rfl
    · rcases @Json.get_replaced "value" value less before after "value" with same | ⟨old, new⟩
      · rw [same]
        exact List.Subset.refl _
      · rw [old, new]
        exact tokens_shrink inside

/-- What less enrichment leaves of a transaction. -/
structure Weakened (tools : Tools) (rawData less : Json) : Prop where
  shape : isDict less = isDict rawData
  others : ∀ key, key ≠ "inputs" → less.get key = rawData.get key
  unread : orEmpty (rawData.get "inputs") = none → orEmpty (less.get "inputs") = none
  inputs : ∀ inputs, orEmpty (rawData.get "inputs") = some inputs → ∃ fewer, orEmpty (less.get "inputs") = some fewer ∧
    tools.held fewer ⊆ tools.held inputs ∧ fewer.filterMap addressOf ⊆ inputs.filterMap addressOf

theorem Weakened.refl (rawData : Json) : Weakened tools rawData rawData :=
  ⟨rfl, fun _ _ => rfl, id, fun inputs listed => ⟨inputs, listed, List.Subset.refl _, List.Subset.refl _⟩⟩

theorem Weakened.trans {least : Json} (one : Weakened tools rawData less) (two : Weakened tools less least) :
    Weakened tools rawData least where
  shape := two.shape.trans one.shape
  others key other := (two.others key other).trans (one.others key other)
  unread := two.unread ∘ one.unread
  inputs inputs listed := by
    obtain ⟨fewer, listed, held, senders⟩ := one.inputs inputs listed
    obtain ⟨fewest, listed, still, left⟩ := two.inputs fewer listed
    exact ⟨fewest, listed, List.Subset.trans still held, List.Subset.trans left senders⟩

theorem orEmpty_list (items : List Json) : orEmpty (some (.list items)) = some items := by
  cases items <;> rfl

/-- Another list of inputs, with no holders and no senders that were not there. -/
theorem Weakened.of_inputs {fields others : List (String × Json)} {inputs fewer : List Json}
    (held : tools.held fewer ⊆ tools.held inputs) (senders : fewer.filterMap addressOf ⊆ inputs.filterMap addressOf) :
    Weakened tools (.dict (fields ++ ("inputs", .list inputs) :: others))
      (.dict (fields ++ ("inputs", .list fewer) :: others)) := by
  have other (key : String) (different : key ≠ "inputs") :
      (Json.dict (fields ++ ("inputs", .list fewer) :: others)).get key =
        (Json.dict (fields ++ ("inputs", .list inputs) :: others)).get key := by
    rw [Json.get_append, Json.get_append, Json.get_cons, Json.get_cons, if_neg different.symm, if_neg different.symm]
  rcases @Json.get_replaced "inputs" (.list inputs) (.list fewer) fields others "inputs" with same | ⟨old, new⟩
  · refine ⟨rfl, other, fun unread => same.symm ▸ unread, fun inputs listed => ?_⟩
    exact ⟨inputs, same.symm ▸ listed, List.Subset.refl _, List.Subset.refl _⟩
  · refine ⟨rfl, other, fun unread => ?_, fun listed read => ?_⟩
    · rw [old, orEmpty_list] at unread
      cases unread
    · rw [old, orEmpty_list, Option.some_inj] at read
      subst read
      exact ⟨fewer, by rw [new, orEmpty_list], held, senders⟩

/-- One input loses something. -/
theorem Weakened.of_step (lost : LosesEnrichment rawData less) : Weakened tools rawData less := by
  cases lost with
  | @input fields others before after input =>
    have fewer : (before ++ after).Sublist (before ++ input :: after) := (List.sublist_cons_self _ _).append_left _
    refine .of_inputs (fun pair member => ?_) (fewer.filterMap _).subset
    obtain ⟨entry, listed, has⟩ := mem_held.mp member
    exact mem_held.mpr ⟨entry, fewer.subset listed, has⟩
  | @within fields others before after input less inside =>
    obtain ⟨address, tokens⟩ := input_shrinks inside
    refine .of_inputs (fun pair member => ?_) fun sender member => ?_
    · obtain ⟨entry, listed, own, named, token⟩ := mem_held.mp member
      rw [List.mem_append, List.mem_cons] at listed
      rcases listed with listed | rfl | listed
      · exact mem_held.mpr ⟨entry, by simp [listed], own, named, token⟩
      · refine mem_held.mpr ⟨input, by simp, ?_, named, tokens token⟩
        rcases address with same | gone
        · exact same.symm.trans own
        · rw [gone] at own
          cases own
      · exact mem_held.mpr ⟨entry, by simp [listed], own, named, token⟩
    · obtain ⟨entry, listed, own⟩ := List.mem_filterMap.mp member
      rw [List.mem_append, List.mem_cons] at listed
      refine List.mem_filterMap.mpr ?_
      rcases listed with listed | rfl | listed
      · exact ⟨entry, by simp [listed], own⟩
      · refine ⟨input, by simp, ?_⟩
        rcases address with same | gone
        · exact same.symm.trans own
        · rw [gone] at own
          cases own
      · exact ⟨entry, by simp [listed], own⟩

theorem Weakened.of_losses (lost : Relation.ReflTransGen LosesEnrichment rawData less) :
    Weakened tools rawData less := by
  induction lost with
  | refl => exact .refl _
  | tail _ step ih => exact ih.trans (.of_step step)

/-! ## What it does to the delivery and to the score -/

theorem netNew_mono {minted : List AssetKey} {holders fewer : List (AssetKey × String)} (among : fewer ⊆ holders)
    {pair : AssetKey × String} (new : netNew minted holders pair = true) : netNew minted fewer pair = true := by
  unfold netNew at new ⊢
  rw [Bool.or_eq_true, decide_eq_true_eq, decide_eq_true_eq] at new ⊢
  exact new.imp_right fun absent member => absent (among member)

/-- The statistics with less enrichment. -/
theorem Weakened.stats (weakened : Weakened tools rawData less) :
    (tools.urlTokenDeliveryStats rawData = none → tools.urlTokenDeliveryStats less = none) ∧
      ∀ total new, tools.urlTokenDeliveryStats rawData = some (total, new) →
        ∃ more, tools.urlTokenDeliveryStats less = some (total, more) ∧ new ≤ more ∧ more ≤ total := by
  unfold Tools.urlTokenDeliveryStats
  rw [weakened.shape, weakened.others "mint" (by decide), weakened.others "outputs" (by decide)]
  split
  · cases tools.minted (rawData.get "mint") with
    | none => exact ⟨fun _ => rfl, nofun⟩
    | some minted =>
      cases read : orEmpty (rawData.get "inputs") with
      | none =>
        rw [weakened.unread read]
        exact ⟨fun _ => rfl, nofun⟩
      | some inputs =>
        obtain ⟨fewer, read, held, -⟩ := weakened.inputs inputs read
        rw [read]
        cases orEmpty (rawData.get "outputs") with
        | none => exact ⟨fun _ => rfl, nofun⟩
        | some outputs =>
          refine ⟨nofun, fun total new stats => ?_⟩
          obtain ⟨rfl, rfl⟩ := Prod.mk.inj (Option.some.inj stats)
          refine ⟨_, rfl, List.countP_mono_left fun pair _ => netNew_mono held, List.countP_le_length⟩
  · refine ⟨nofun, fun total new stats => ?_⟩
    obtain ⟨rfl, rfl⟩ := Prod.mk.inj (Option.some.inj stats)
    exact ⟨0, rfl, le_rfl, le_rfl⟩

/-- More net-new pairs of as many can only give the bonuses back. -/
theorem suppressBonuses_anti {settings : Settings} {assetNameUrls metadataDatumUrls : List String} {total new more : ℕ}
    (le : new ≤ more) (suppressed : suppressBonuses settings assetNameUrls metadataDatumUrls (total, more) = true) :
    suppressBonuses settings assetNameUrls metadataDatumUrls (total, new) = true := by
  unfold suppressBonuses at suppressed ⊢
  simp only [Bool.and_eq_true, decide_eq_true_eq] at suppressed ⊢
  exact ⟨suppressed.1, by omega⟩

theorem bonuses_nonneg (urls : List String) (social : ℚ) : 0 ≤ tools.bonuses config.toSettings urls social := by
  unfold Tools.bonuses
  refine add_nonneg ?_ ?_
  · split
    · exact config.comboCounts
    · exact le_rfl
  · split
    · exact config.tldCounts
    · exact le_rfl

theorem targetingOf_mono {total new more : ℕ} (le : new ≤ more) :
    targetingOf (total, new) ≤ targetingOf (total, more) := by
  unfold targetingOf
  dsimp only
  split
  · gcongr
  · exact le_rfl

/-- More net-new pairs of as many never lower the score. -/
theorem report_mono (blacklist domain social recipients : ℚ) (seTier : String)
    (urls assetNameUrls metadataDatumUrls : List String) (recipientCount : ℕ) (source : Source) {total new more : ℕ}
    (le : new ≤ more) :
    (tools.report features config.toSettings ⟨blacklist, domain, social, recipients, targetingOf (total, new)⟩ seTier
        urls assetNameUrls metadataDatumUrls recipientCount source (total, new)).score ≤
      (tools.report features config.toSettings ⟨blacklist, domain, social, recipients, targetingOf (total, more)⟩ seTier
        urls assetNameUrls metadataDatumUrls recipientCount source (total, more)).score := by
  have delivery : Axes.delivery config.toSettings ⟨blacklist, domain, social, recipients, targetingOf (total, new)⟩ ≤
      Axes.delivery config.toSettings ⟨blacklist, domain, social, recipients, targetingOf (total, more)⟩ := by
    have targeting := mul_le_mul_of_nonneg_left (@targetingOf_mono total new more le) config.targetingCounts
    unfold Axes.delivery
    linarith
  have bonuses : (if suppressBonuses config.toSettings assetNameUrls metadataDatumUrls (total, new) then 0
      else tools.bonuses config.toSettings urls social) ≤
        if suppressBonuses config.toSettings assetNameUrls metadataDatumUrls (total, more) then 0
        else tools.bonuses config.toSettings urls social := by
    by_cases suppressed : suppressBonuses config.toSettings assetNameUrls metadataDatumUrls (total, more) = true
    · rw [if_pos suppressed, if_pos (suppressBonuses_anti le suppressed)]
    · rw [if_neg suppressed]
      split
      · exact bonuses_nonneg urls _
      · exact le_rfl
  have weighed := mul_le_mul_of_nonneg_left delivery config.deliveryCounts
  exact Anchors.finalise_mono (add_le_add (add_le_add le_rfl weighed) bonuses)

theorem scoreDelivered_mono {total new more : ℕ} (le : new ≤ more) {result : Result}
    (scored : tools.scoreDelivered features config.toSettings (some (total, new)) = some result) :
    ∃ other, tools.scoreDelivered features config.toSettings (some (total, more)) = some other ∧
      result.score ≤ other.score := by
  unfold Tools.scoreDelivered at scored ⊢
  split at scored
  · rename_i quiet
    exact ⟨result, (if_pos quiet).trans scored, le_rfl⟩
  · rename_i loud
    obtain ⟨distinct, recipients, scored⟩ := Option.bind_eq_some_iff.mp scored
    obtain rfl := Option.some.inj scored
    refine ⟨tools.reportOf features config.toSettings distinct (total, more), ?_, report_mono _ _ _ _ _ _ _ _ _ _ le⟩
    rw [if_neg loud, recipients]
    rfl

/-- What is scored beside the delivery is the same in both transactions. -/
structure Alike (tools : Tools) (settings : Settings) (features other : Features) : Prop where
  urls : tools.extractUrls other settings = tools.extractUrls features settings
  classified : tools.classifySocialEngineering other settings = tools.classifySocialEngineering features settings
  assetNameUrls : tools.assetNameUrls other settings = tools.assetNameUrls features settings
  metadataDatumUrls : tools.metadataDatumUrls other settings = tools.metadataDatumUrls features settings
  scored : ∀ delivered, tools.scoreDelivered other settings delivered = tools.scoreDelivered features settings delivered

/-- All that is scored beside the delivery reads nothing of the inputs. -/
theorem Weakened.alike (weakened : Weakened tools features.rawData less) (settings : Settings) :
    Alike tools settings features { features with rawData := less } := by
  have datums : inlineDatums less = inlineDatums features.rawData := by
    rw [inlineDatums, inlineDatums, weakened.others "outputs" (by decide)]
  have names : decodeAssetNameStrings less = decodeAssetNameStrings features.rawData := by
    rw [decodeAssetNameStrings, decodeAssetNameStrings, weakened.others "outputs" (by decide),
      weakened.others "mint" (by decide)]
  have recipients : tools.distinctRecipients less = tools.distinctRecipients features.rawData := by
    rw [Tools.distinctRecipients, Tools.distinctRecipients, weakened.others "outputs" (by decide)]
  have candidates : tools.metadataDatumCandidates { features with rawData := less } =
      tools.metadataDatumCandidates features := by
    unfold Tools.metadataDatumCandidates Reader.metadataDatumUrlCandidates
    rw [datums]
  have carried : tools.assetNameCandidates { features with rawData := less } = tools.assetNameCandidates features := by
    unfold Tools.assetNameCandidates
    rw [names]
  have urls : tools.extractUrls { features with rawData := less } settings = tools.extractUrls features settings := by
    unfold Tools.extractUrls
    rw [candidates, carried]
  have classified : tools.classifySocialEngineering { features with rawData := less } settings =
      tools.classifySocialEngineering features settings := by
    unfold Tools.classifySocialEngineering Tools.scannedText
    rw [datums, names]
  have assetUrls : tools.assetNameUrls { features with rawData := less } settings =
      tools.assetNameUrls features settings := by
    unfold Tools.assetNameUrls
    rw [carried]
  have otherUrls : tools.metadataDatumUrls { features with rawData := less } settings =
      tools.metadataDatumUrls features settings := by
    unfold Tools.metadataDatumUrls
    rw [assetUrls, candidates, urls]
  refine ⟨urls, classified, assetUrls, otherUrls, fun delivered => ?_⟩
  unfold Tools.scoreDelivered Tools.reportOf
  rw [urls, classified, recipients, assetUrls, otherUrls]
  rfl

/-- Less enrichment does not make the scorer raise, and does not lower its score. -/
theorem Weakened.score (weakened : Weakened tools features.rawData less) {result : Result}
    (scored : tools.score features config.toSettings = some result) :
    ∃ other, tools.score { features with rawData := less } config.toSettings = some other ∧
      result.score ≤ other.score := by
  unfold Tools.score at scored ⊢
  rw [(weakened.alike config.toSettings).scored]
  dsimp only at scored ⊢
  split
  · rename_i enabled
    rw [if_pos enabled] at scored
    cases stats : tools.urlTokenDeliveryStats features.rawData with
    | none =>
      rw [stats] at scored
      rw [weakened.stats.1 stats]
      exact ⟨result, scored, le_rfl⟩
    | some counts =>
      obtain ⟨more, weaker, le, -⟩ := weakened.stats.2 counts.1 counts.2 stats
      rw [stats] at scored
      rw [weaker]
      exact scoreDelivered_mono le scored
  · rename_i disabled
    rw [if_neg disabled] at scored
    exact ⟨result, scored, le_rfl⟩

/-- The allowlist finds no sender that it did not find before, so an open gate stays open. -/
theorem Weakened.gate (weakened : Weakened tools features.rawData less) {settings : Settings}
    (opened : tools.gate features settings = some true) :
    tools.gate { features with rawData := less } settings = some true := by
  have alike := weakened.alike settings
  unfold Tools.gate senderAddresses at opened ⊢
  obtain ⟨_, listed, opened⟩ := Option.map_eq_some_iff.mp opened
  obtain ⟨inputs, read, rfl⟩ := Option.map_eq_some_iff.mp listed
  obtain ⟨fewer, still, -, left⟩ := weakened.inputs inputs read
  rw [alike.urls, alike.classified, still, Option.map_some, Option.map_some, Option.some_inj]
  split at opened
  · cases opened
  · rename_i unlisted
    rw [if_neg fun listed => unlisted ?_]
    · exact opened
    · obtain ⟨address, member, allowed⟩ := List.any_eq_true.mp listed
      exact List.any_eq_true.mpr ⟨address, left member, allowed⟩

theorem score_nonneg {settings : Settings} {result : Result} (scored : tools.score features settings = some result) :
    0 ≤ result.score := by
  unfold Tools.score Tools.scoreDelivered at scored
  split at scored
  · obtain rfl := Option.some.inj scored
    exact le_rfl
  · obtain ⟨_, -, scored⟩ := Option.bind_eq_some_iff.mp scored
    obtain ⟨_, -, rfl⟩ := Option.map_eq_some_iff.mp scored
    exact Anchors.finalise_nonneg

theorem classScore_ge (settings : Settings) : -1 ≤ tools.classScore features settings := by
  unfold Tools.classScore
  split
  · cases scored : tools.score features settings with
    | none => exact le_rfl
    | some result => exact le_trans (by norm_num) (score_nonneg scored)
  · exact le_rfl

theorem Weakened.classScore (weakened : Weakened tools features.rawData less) :
    tools.classScore features config.toSettings ≤
      tools.classScore { features with rawData := less } config.toSettings := by
  have least := @classScore_ge tools { features with rawData := less } config.toSettings
  unfold Tools.classScore at least ⊢
  cases opened : tools.gate features config.toSettings with
  | none => exact least
  | some gate =>
    cases gate with
    | false => exact least
    | true =>
      rw [weakened.gate opened] at least ⊢
      cases scored : tools.score features config.toSettings with
      | none => exact least
      | some result =>
        obtain ⟨other, weaker, le⟩ := weakened.score scored
        dsimp only
        rw [weaker]
        exact le

/-- What is left with less enrichment: as many pairs of which no fewer are net-new, bonuses withheld only where they
were, and no lower a score. -/
structure FailsOpen (tools : Tools) (settings : Settings) (features : Features) (less : Json) : Prop where
  raises : tools.urlTokenDeliveryStats features.rawData = none → tools.urlTokenDeliveryStats less = none
  stats : ∀ total new, tools.urlTokenDeliveryStats features.rawData = some (total, new) →
    ∃ more, tools.urlTokenDeliveryStats less = some (total, more) ∧ new ≤ more ∧ more ≤ total
  suppression : ∀ stats fewer, tools.urlTokenDeliveryStats features.rawData = some stats →
    tools.urlTokenDeliveryStats less = some fewer →
      suppressBonuses settings (tools.assetNameUrls { features with rawData := less } settings)
          (tools.metadataDatumUrls { features with rawData := less } settings) fewer = true →
        suppressBonuses settings (tools.assetNameUrls features settings) (tools.metadataDatumUrls features settings)
          stats = true
  score : ∀ result, tools.score features settings = some result →
    ∃ other, tools.score { features with rawData := less } settings = some other ∧ result.score ≤ other.score
  classScore : tools.classScore features settings ≤ tools.classScore { features with rawData := less } settings

/-- **Whatever is lost of the inputs of a transaction, its delivery statistics and its score fail open.** -/
theorem delivery_fails_open (tools : Tools) (config : Config) (features : Features) (less : Json)
    (lost : Relation.ReflTransGen LosesEnrichment features.rawData less) :
    FailsOpen tools config.toSettings features less := by
  have weakened : Weakened tools features.rawData less := .of_losses lost
  have alike := weakened.alike config.toSettings
  refine ⟨weakened.stats.1, weakened.stats.2, fun stats fewer before after => ?_, fun result => weakened.score,
    weakened.classScore⟩
  rw [alike.assetNameUrls, alike.metadataDatumUrls]
  obtain ⟨more, weaker, le, -⟩ := weakened.stats.2 stats.1 stats.2 before
  obtain rfl := Option.some.inj (after.symm.trans weaker)
  exact suppressBonuses_anti le

end

private def loweringTables : Tables := { MetadataText.asciiTables with lower := fun text => text.map Char.toLower }

private def plainTools : Tools where
  reader := ⟨loweringTables, ["674", "721"], 4, fun _ => none⟩
  builtins := .plain
  fuzz := ⟨fun left right => if left = right then 100 else 40, fun _ _ => by split <;> norm_num, fun _ => if_pos rfl⟩
  same one two := match one, two with
    | .text left, .text right => left = right
    | _, _ => false
  phishingPatterns := []
  protocolDomains := []
  senderAllowlist := []
  tier1CredentialPatterns := ["seed phrase"]
  tier2UrgencyPatterns := [fun text => contains text "claim"]
  tier3BrandNames := ["ada"]
  table := ⟨⟨true, 1 / 2, 1 / 2, 1 / 10, 200⟩, ⟨5, 1 / 4⟩, []⟩

/-- One token named `claim ada drop.example`. -/
private def bait : Json := .dict [("policy", .dict [("636c61696d206164612064726f702e6578616d706c65", .int 1)])]

private def owner : String × Json := ("address", .text "addr1")

/-- The token goes from an input to the same address; what is known of the input is given. -/
private def moved (input : List (String × Json)) : Json :=
  .dict ([] ++ ("inputs", .list ([] ++ .dict input :: [])) :: [("outputs", .list [.dict [owner, ("value", bait)]])])

private def movedFeatures : Features := ⟨.null, moved ([owner] ++ ("value", bait) :: []), "mainnet", 1⟩

/-- Without the value of the input the move is a delivery. -/
theorem delivery_fails_open_without_value :
    FailsOpen plainTools shipped.toSettings movedFeatures (moved ([owner] ++ [])) ∧
      plainTools.urlTokenDeliveryStats movedFeatures.rawData = some (1, 0) ∧
      plainTools.urlTokenDeliveryStats (moved ([owner] ++ [])) = some (1, 1) := by
  refine ⟨delivery_fails_open plainTools shipped movedFeatures _ (.single (.within ?_)), by decide +kernel,
    by decide +kernel⟩
  exact .whole "value" bait (.inr rfl) (by decide)

example : plainTools.classScore movedFeatures shipped.toSettings <
    plainTools.classScore { movedFeatures with rawData := moved ([owner] ++ []) } shipped.toSettings := by
  decide +kernel

end TransactionMonitoring.Phishing
