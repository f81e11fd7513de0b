import Mathlib.Data.List.Perm.Basic
import TransactionMonitoring.NotificationDispatch

/-! The lint of the notification document, on the server and on the settings page.

A document may pass the check and still not deliver.  The server lints it when it is stored, the
page before it is sent; the two were written to say the same.
-/
namespace TransactionMonitoring.NotificationConfig
open Alerts Checks WhiteSpace

/-- A gap of a document, by the rule that finds it. -/
inductive Warning where
  | offButRouted (name : String)
  | webhookDefaults
  | webhookRule
  | noRecipients (name : String)
  | ruleNoRecipients (name : String)
  | neverRouted (name : String)
deriving DecidableEq, Repr

/-- What `deliverability_warnings` says. -/
def Warning.text : Warning → String
  | .offButRouted name => "channel '" ++ name ++ "' is routed by the triggers but disabled under channels, " ++
      "so those alerts are dropped at dispatch; enable the channel or unroute it."
  | .webhookDefaults => "the webhook channel is routed in the band defaults but has no default_url, " ++
      "so those alerts cannot be delivered."
  | .webhookRule => "a per-class rule routes to webhook but sets no webhook_url, and channels." ++
      "webhook.default_url is empty, so it cannot be delivered."
  | .noRecipients name => "channel '" ++ name ++ "' is routed in the band defaults but resolves to no " ++
      "recipients, so those alerts cannot be delivered."
  | .ruleNoRecipients name => "a per-class rule routes to '" ++ name ++ "' but resolves to no recipients " ++
      "(a rule's recipient list replaces the channel default), so it cannot be delivered."
  | .neverRouted name => "channel '" ++ name ++ "' is enabled but not selected in any band default or " ++
      "rule, so it never fires."

/-- What `configWarnings` says. -/
def Warning.banner : Warning → String
  | .offButRouted name => "\"" ++ name ++ "\" is routed below but the " ++ name ++
      " channel is off under Channels, so it never fires. Enable it above."
  | .webhookDefaults => "Webhook is routed in the band defaults but has no Default URL, so those alerts " ++
      "can't be delivered. Set a Default URL under Channels."
  | .webhookRule => "A per-class rule routes to webhook but sets no URL, and Channels has no Default URL to " ++
      "fall back on, so it can't be delivered."
  | .noRecipients name => "\"" ++ name ++ "\" is routed in the band defaults but has no recipients, so those " ++
      "alerts can't be delivered. Add recipients under Channels."
  | .ruleNoRecipients name => "A per-class rule routes to \"" ++ name ++ "\" but resolves to no recipients, so it " ++
      "can't be delivered. A rule's recipient list replaces the Channels default rather than adding to it."
  | .neverRouted name => "The " ++ name ++ " channel is enabled but not selected in any band default or rule, so " ++
      "it won't fire until you route it below."

section
variable (tools : Tools)

/-- `first and second`. -/
def both (first second : Option Bool) : Option Bool := do if ← first then second else some false

/-- `first or second`. -/
def either (first second : Option Bool) : Option Bool := do if ← first then some true else second

/-- `name in (node.get(key) or [])`. -/
def listedUnder (key : String) (name : String) (node : Json) : Option Bool := do
  contains tools name (orElse (some (← field key .null node)) (.list []))

def isOn (channels : Json) (name : String) : Option Bool := do
  some (← field "enabled" .null (orElse (some (← field name .null channels)) (.dict []))).truthy

def routedInDefaults (defaults : Json) (name : String) : Option Bool :=
  riskBands.anyM fun band => listedUnder tools band name defaults

def routedInRules (rules : List Json) (name : String) : Option Bool :=
  rules.anyM (listedUnder tools "channels" name)

def memberCount (groups : Json) : Json → Option Nat
  | .text recipient => match groupAlias recipient with
      | some group => do some (← elements (orElse (some (← field group .null groups)) (.list []))).length
      | none => some 1
  | _ => none

/-- `expanded_count`. -/
def expandedCount (groups recipients : Json) : Option Nat := do
  some (← (← elements (orElse (some recipients) (.list []))).mapM (memberCount groups)).sum

/-- `(value or "").strip()`, which only a text has. -/
def isBlank (value : Json) : Option Bool :=
  match orElse (some value) (.text "") with
  | .text value => some (decide (strip value = ""))
  | _ => none

/-- Whether a rule sends nothing on the channel it names. -/
def ruleIsDead (groups : Json) (defaultCount : Nat) (name : String) (rule : Json) : Option Bool := do
  match ← lookup (orElse (some (← field "recipients" .null rule)) (.dict [])) (.text name) with
  | none | some .null => some (decide (defaultCount = 0))
  | some override => some (decide ((← expandedCount groups override) = 0))

/-- The warnings about one channel that has recipients. -/
def recipientWarnings (groups channels defaults : Json) (rules : List Json) (name : String) :
    Option (List Warning) := do
  if name = "webhook" then some []
  else if ← isOn channels name then
    let spec := orElse (some (← field name .null channels)) (.dict [])
    let defaultCount ← expandedCount groups (← field "recipients" .null spec)
    let uncovered ← both (some (decide (defaultCount = 0))) (routedInDefaults tools defaults name)
    let dead ← rules.anyM fun rule => both (listedUnder tools "channels" name rule)
      (ruleIsDead groups defaultCount name rule)
    some ((if uncovered then [.noRecipients name] else []) ++ if dead then [.ruleNoRecipients name] else [])
  else some []

/-- The names that pass, sorted. -/
def sortedNames (names : List String) : List String := names.mergeSort fun one other => one ≤ other

def warnWhen (holds : Bool) (warning : Warning) : List Warning := if holds then [warning] else []

def isRouted (defaults : Json) (rules : List Json) (name : String) : Option Bool :=
  either (routedInDefaults tools defaults name) (routedInRules tools rules name)

/-- The rules of the lint, on the parts of the document. -/
def lint (groups channels defaults : Json) (rules : List Json) (names : List String) : Option (List Warning) := do
  let off ← names.filterM fun name => both ((isOn channels name).map not) (isRouted tools defaults rules name)
  let webhookOn ← isOn channels "webhook"
  let noUrl ← isBlank (← field "default_url" .null (orElse (some (← field "webhook" .null channels)) (.dict [])))
  let bareDefaults ← both (some (webhookOn && noUrl)) (routedInDefaults tools defaults "webhook")
  let bareRule ← both (some (webhookOn && noUrl)) (rules.anyM fun rule =>
    both (listedUnder tools "channels" "webhook" rule) (do isBlank (← field "webhook_url" .null rule)))
  let recipients ← names.mapM (recipientWarnings tools groups channels defaults rules)
  let unrouted ← (sortedNames names).filterM fun name =>
    both (isOn channels name) ((isRouted tools defaults rules name).map not)
  some ((sortedNames off).map .offButRouted ++ warnWhen bareDefaults .webhookDefaults ++
    warnWhen bareRule .webhookRule ++ recipients.flatten ++ unrouted.map .neverRouted)

/-- `deliverability_warnings`. -/
def deliverabilityWarnings (doc : Json) : Option (List Warning) := do
  let channels := orElse (some (← field "channels" .null doc)) (.dict [])
  let groups := orElse (some (← field "groups" .null doc)) (.dict [])
  let triggers := orElse (some (← field "triggers" .null doc)) (.dict [])
  let defaults := orElse (some (← field "defaults" .null triggers)) (.dict [])
  let rules ← elements (orElse (some (← field "rules" .null triggers)) (.list []))
  match channels with
  | .dict entries => lint tools groups channels defaults rules (entries.map Prod.fst)
  | _ => none

end

namespace Document
variable (document : Document)

def routedInDefaults (name : String) : Bool :=
  riskBands.any fun band => decide (name ∈ (valueOf band document.defaults).getD [])

def routedInRules (name : String) : Bool := document.rules.any fun rule => decide (name ∈ rule.channels)

def routed (name : String) : Bool := document.routedInDefaults name || document.routedInRules name

/-- How many addresses recipients come to, counted after expansion. -/
def count (recipients : List String) : Nat := (recipients.map fun recipient => (document.expand recipient).length).sum

def defaultCount (name : String) : Nat :=
  document.count (((valueOf name document.channels).bind Channel.recipients).getD [])

/-- Whether there is no URL to post to by default, as `blank` has it. -/
def bare (blank : String → Bool) : Bool :=
  document.enabled "webhook" && ((valueOf "webhook" document.channels).bind Channel.defaultUrl).all blank

def bareRule (blank : String → Bool) : Bool :=
  document.rules.any fun rule => decide ("webhook" ∈ rule.channels) && rule.webhookUrl.all blank

def deadRule (name : String) : Bool := document.rules.any fun rule => decide (name ∈ rule.channels) &&
  match valueOf name rule.recipients with
  | some override => decide (document.count override = 0)
  | none => decide (document.defaultCount name = 0)

def recipientWarnings (name : String) : List Warning :=
  if name = "webhook" || !document.enabled name then []
  else warnWhen (decide (document.defaultCount name = 0) && document.routedInDefaults name) (.noRecipients name) ++
    warnWhen (document.deadRule name) (.ruleNoRecipients name)

def isStripped (url : String) : Bool := decide (strip url = "")

def warnings : List Warning :=
  (sortedNames (document.known.filter fun name => !document.enabled name && document.routed name)).map .offButRouted ++
    warnWhen (document.bare isStripped && document.routedInDefaults "webhook") .webhookDefaults ++
    warnWhen (document.bare isStripped && document.bareRule isStripped) .webhookRule ++
    document.known.flatMap document.recipientWarnings ++
    ((sortedNames document.known).filter fun name => document.enabled name && !document.routed name).map .neverRouted

/-! The settings page. -/

/-- `BANDS`. -/
def bands : List String := ["Critical", "High", "Moderate", "Informational"]

def isTrimmed (url : String) : Bool := decide (trim url = "")

/-- Every channel that is routed, in the order of the bands and of the rules. -/
def routes : List String :=
  (bands.flatMap fun band => (valueOf band document.defaults).getD []) ++ document.rules.flatMap Rule.channels

end Document

/-- The members that every JavaScript object has besides its own keys. -/
def objectMembers : List String :=
  ["constructor", "hasOwnProperty", "isPrototypeOf", "propertyIsEnumerable", "toLocaleString", "toString", "valueOf",
    "__proto__", "__defineGetter__", "__defineSetter__", "__lookupGetter__", "__lookupSetter__"]

/-- `r.recipients?.[c]`: nothing where it finds such a member, which is no list. -/
def overrideOnPage (rule : Json) (name : String) : Option (Option (List String)) :=
  match rule.get "recipients" with
  | some (.dict entries) =>
    match (Json.dict entries).get name with
    | some own => some (some (textsOf own))
    | none => if name ∈ objectMembers then none else some none
  | _ => some none

def deadOnPage (doc : Json) (name : String) (rule : Json) : Option Bool :=
  let document := Document.ofJson doc
  if name ∈ (Rule.ofJson rule).channels then
    (overrideOnPage rule name).map fun
      | some override => decide (document.count override = 0)
      | none => decide (document.defaultCount name = 0)
  else some false

def recipientWarningsOnPage (doc : Json) (rules : List Json) (name : String) : Option (List Warning) :=
  let document := Document.ofJson doc
  if name = "webhook" || !document.enabled name then some []
  else (rules.anyM (deadOnPage doc name)).map fun dead =>
    warnWhen (decide (document.defaultCount name = 0) && document.routedInDefaults name) (.noRecipients name) ++
      warnWhen dead (.ruleNoRecipients name)

/-- `configWarnings` of an accepted document, for the order in which `Object.keys` lists the channels. It
returns nothing where it throws, as `cfg.triggers.rules.some` does of rules that are no list: the check lets
them be absent, null or otherwise falsy. -/
def configWarnings (doc : Json) (keys : List String) : Option (List Warning) :=
  let document := Document.ofJson doc
  match ((doc.get "triggers").getD .null).get "rules" with
  | some (.list rules) => (keys.mapM (recipientWarningsOnPage doc rules)).map fun recipients =>
    (distinct (fun one other => decide (one = other))
        (document.routes.filter fun name => !document.enabled name)).map .offButRouted ++
      warnWhen (document.bare Document.isTrimmed && document.routedInDefaults "webhook") .webhookDefaults ++
      warnWhen (document.bare Document.isTrimmed && document.bareRule Document.isTrimmed) .webhookRule ++
      recipients.flatten ++
      (keys.filter fun name => document.enabled name && !document.routed name).map .neverRouted
  | _ => none

/-! On an accepted document the lint returns what it makes of the parts. -/

@[simp] theorem both_some (one other : Bool) : both (some one) (some other) = some (one && other) := by
  cases one with
  | false => rfl
  | true => rfl

@[simp] theorem either_some (one other : Bool) : either (some one) (some other) = some (one || other) := by
  cases one with
  | false => rfl
  | true => rfl

section
variable {tools : Tools} {data : Json}

/-- The entries that the readers find under a key of the document. -/
abbrev channelEntries (data : Json) : List (String × Json) := entriesOf ((data.get "channels").getD .null)

abbrev groupEntries (data : Json) : List (String × Json) := entriesOf ((data.get "groups").getD .null)

abbrev defaultEntries (data : Json) : List (String × Json) :=
  entriesOf ((((data.get "triggers").getD .null).get "defaults").getD .null)

abbrev ruleItems (data : Json) : List Json := itemsOf ((((data.get "triggers").getD .null).get "rules").getD .null)

theorem listedUnder_of_texts {node : Json} {key name : String} {names : List String} {entries : List (String × Json)}
    (mapping : node = .dict entries) (held : orElse (node.get key) (.list []) = texts names) :
    listedUnder tools key name node = some (decide (name ∈ names)) := by
  subst mapping
  simp only [listedUnder, field, Option.bind_eq_bind, Option.bind_some, orElse_getD_null, held, contains_texts]

theorem orElse_texts {found : Option Json} {names : List String} (shape : found = some (texts names)) :
    orElse found (.list []) = texts names := by
  subst shape
  cases names with
  | nil => rfl
  | cons => rfl

theorem routedInDefaults_eq (reads : Document.Reads data) (name : String) :
    routedInDefaults tools (.dict (defaultEntries data)) name =
      some ((Document.ofJson data).routedInDefaults name) := by
  refine anyM_eq_some fun band _ => listedUnder_of_texts rfl ?_
  have ofDefaults : (Document.ofJson data).defaults = mapValues textsOf (defaultEntries data) := rfl
  rw [ofDefaults, valueOf_mapValues]
  cases held : (Json.dict (defaultEntries data)).get band with
  | none => rfl
  | some value =>
    have shape : value = texts (textsOf value) := reads.selected _ (Json.mem_of_get held)
    exact orElse_texts (congrArg some shape)

theorem rules_anyM (reads : Document.Reads data) {test : Json → Option Bool} {typed : Rule → Bool}
    (tests : ∀ rule, Rule.Reads rule → test rule = some (typed (.ofJson rule))) :
    (ruleItems data).anyM test = some ((Document.ofJson data).rules.any typed) := by
  have ofRules : (Document.ofJson data).rules = (ruleItems data).map Rule.ofJson := rfl
  rw [ofRules, List.any_map]
  exact anyM_eq_some fun rule member => tests rule (reads.rule rule member)

theorem listedInRule {rule : Json} (read : Rule.Reads rule) (name : String) :
    listedUnder tools "channels" name rule = some (decide (name ∈ (Rule.ofJson rule).channels)) := by
  obtain ⟨entries, mapping⟩ := read.mapping
  exact listedUnder_of_texts mapping read.channels

theorem routedInRules_eq (reads : Document.Reads data) (name : String) :
    routedInRules tools (ruleItems data) name = some ((Document.ofJson data).routedInRules name) :=
  rules_anyM reads fun _ read => listedInRule read name

theorem memberCount_eq (reads : Document.Reads data) (recipient : String) :
    memberCount (.dict (groupEntries data)) (.text recipient) =
      some ((Document.ofJson data).expand recipient).length := by
  rw [memberCount, Document.expand]
  cases groupAlias recipient with
  | none => rfl
  | some group =>
    have ofGroups : (Document.ofJson data).groups = mapValues textsOf (groupEntries data) := rfl
    simp only [field, ofGroups, valueOf_mapValues, Option.bind_eq_bind, Option.bind_some, orElse_getD_null]
    cases held : (Json.dict (groupEntries data)).get group with
    | none => rfl
    | some value =>
      have shape : value = texts (textsOf value) := reads.group _ (Json.mem_of_get held)
      rw [Option.map_some, Option.getD_some, shape, textsOf_texts, elements_texts, Option.bind_some, List.length_map]

theorem expandedCount_eq (reads : Document.Reads data) (names : List String) :
    expandedCount (.dict (groupEntries data)) (texts names) = some ((Document.ofJson data).count names) := by
  have counts : (names.map Json.text).mapM (memberCount (.dict (groupEntries data))) =
      some (names.map fun name => ((Document.ofJson data).expand name).length) := by
    rw [List.mapM_map]
    exact mapM_eq_some fun name _ => memberCount_eq reads name
  simp only [expandedCount, elements_texts, counts, Option.bind_eq_bind, Option.bind_some]
  rfl

/-- A channel's mapping as the lint looks it up: the empty one where there is none. -/
theorem spec_cases (reads : Document.Reads data) (name : String) :
    (valueOf name (Document.ofJson data).channels = none ∧
      orElse ((Json.dict (channelEntries data)).get name) (.dict []) = .dict []) ∨
    ∃ spec, Channel.Reads spec ∧ valueOf name (Document.ofJson data).channels = some (.ofJson spec) ∧
      orElse ((Json.dict (channelEntries data)).get name) (.dict []) = spec := by
  rw [Document.channels_ofJson, valueOf_mapValues]
  cases found : (Json.dict (channelEntries data)).get name with
  | none => exact .inl ⟨rfl, rfl⟩
  | some spec =>
    have channel := reads.channel_of_get found
    exact .inr ⟨spec, channel, rfl, by rw [orElse, truthy_of_get channel.enabled, if_pos rfl]⟩

theorem isOn_eq (reads : Document.Reads data) (name : String) :
    isOn (.dict (channelEntries data)) name = some ((Document.ofJson data).enabled name) := by
  simp only [isOn, field, Option.bind_eq_bind, Option.bind_some, orElse_getD_null, Document.enabled]
  obtain ⟨absent, isSpec⟩ | ⟨spec, channel, held, isSpec⟩ := spec_cases reads name
  · rw [absent, isSpec]
    rfl
  · rw [held, isSpec]
    obtain ⟨entries, rfl⟩ := channel.mapping
    simp only [channel.enabled, Option.getD_some, Option.bind_some]
    rfl

theorem defaultCount_eq (reads : Document.Reads data) (name : String) :
    (do expandedCount (.dict (groupEntries data)) (← field "recipients" .null
      (orElse ((Json.dict (channelEntries data)).get name) (.dict [])))) =
      some ((Document.ofJson data).defaultCount name) := by
  rw [Document.defaultCount]
  obtain ⟨absent, isSpec⟩ | ⟨spec, channel, held, isSpec⟩ := spec_cases reads name
  · rw [absent, isSpec]
    exact expandedCount_eq reads []
  · rw [held, isSpec]
    obtain ⟨entries, rfl⟩ := channel.mapping
    simp only [field, channel.recipients, Option.bind_eq_bind, Option.bind_some]
    cases (Channel.ofJson (.dict entries)).recipients with
    | none => exact expandedCount_eq reads []
    | some names => exact expandedCount_eq reads names

theorem isBlank_text (found : Option String) :
    isBlank ((found.map Json.text).getD .null) = some (found.all Document.isStripped) := by
  cases found with
  | none => rfl
  | some url =>
    rw [Option.map_some, Option.getD_some, isBlank, orElse, truthy_text]
    by_cases empty : url = ""
    · subst empty
      rfl
    · rw [if_pos (by simpa using empty)]
      rfl

theorem webhookBlank_eq (reads : Document.Reads data) :
    (do isBlank (← field "default_url" .null (orElse ((Json.dict (channelEntries data)).get "webhook") (.dict [])))) =
      some (((valueOf "webhook" (Document.ofJson data).channels).bind Channel.defaultUrl).all Document.isStripped) := by
  obtain ⟨absent, isSpec⟩ | ⟨spec, channel, held, isSpec⟩ := spec_cases reads "webhook"
  · rw [absent, isSpec]
    rfl
  · rw [held, isSpec]
    obtain ⟨entries, rfl⟩ := channel.mapping
    simp only [field, channel.defaultUrl, Option.bind_eq_bind, Option.bind_some]
    exact isBlank_text _

theorem ruleIsDead_eq (reads : Document.Reads data) {rule : Json} (read : Rule.Reads rule) (name : String) :
    ruleIsDead (.dict (groupEntries data)) ((Document.ofJson data).defaultCount name) name rule =
      some (match valueOf name (Rule.ofJson rule).recipients with
        | some override => decide ((Document.ofJson data).count override = 0)
        | none => decide ((Document.ofJson data).defaultCount name = 0)) := by
  obtain ⟨entries, rfl⟩ := read.mapping
  have ofOwn : (Rule.ofJson (.dict entries)).recipients =
    mapValues textsOf (entriesOf (((Json.dict entries).get "recipients").getD .null)) := rfl
  simp only [ruleIsDead, field, Option.bind_eq_bind, Option.bind_some, orElse_getD_null, read.recipients.1, lookup_text,
    ofOwn, valueOf_mapValues]
  cases held : (Json.dict (entriesOf (((Json.dict entries).get "recipients").getD .null))).get name with
  | none => rfl
  | some value =>
    have shape : value = texts (textsOf value) := read.recipients.2 _ (Json.mem_of_get held)
    have counts := expandedCount_eq reads (textsOf value)
    rw [← shape] at counts
    rw [Option.map_some]
    cases value with
    | list items => simp only [counts, Option.bind_some]
    | _ => cases shape

theorem recipientWarnings_eq (reads : Document.Reads data) (name : String) :
    recipientWarnings tools (.dict (groupEntries data)) (.dict (channelEntries data)) (.dict (defaultEntries data))
      (ruleItems data) name = some ((Document.ofJson data).recipientWarnings name) := by
  have dead : (ruleItems data).anyM (fun rule => both (listedUnder tools "channels" name rule)
      (ruleIsDead (.dict (groupEntries data)) ((Document.ofJson data).defaultCount name) name rule)) =
      some ((Document.ofJson data).deadRule name) := by
    refine rules_anyM reads fun rule read => ?_
    rw [listedInRule read, ruleIsDead_eq reads read, both_some]
  obtain ⟨recipients, isRecipients, counts⟩ := Option.bind_eq_some_iff.mp (defaultCount_eq reads name)
  rw [recipientWarnings, Document.recipientWarnings]
  by_cases webhook : name = "webhook"
  · rw [if_pos webhook, if_pos (by simp [webhook])]
  · simp only [if_neg webhook, isOn_eq reads, Option.bind_eq_bind, Option.bind_some]
    cases isOn : (Document.ofJson data).enabled name with
    | false => simp [webhook]
    | true =>
      have channel : field name .null (.dict (channelEntries data)) =
        some (((Json.dict (channelEntries data)).get name).getD .null) := rfl
      simp only [channel, Option.bind_some, orElse_getD_null, isRecipients, counts, routedInDefaults_eq reads, dead,
        both_some, if_true, Bool.not_true, Bool.or_false, decide_eq_true_eq, if_neg webhook]
      rfl

theorem orElse_mapping {found : Option Json} {entries : List (String × Json)} (shape : found = some (.dict entries)) :
    orElse found (.dict []) = .dict entries := by
  subst shape
  cases entries with
  | nil => rfl
  | cons => rfl

theorem isRouted_eq (reads : Document.Reads data) (name : String) :
    isRouted tools (.dict (defaultEntries data)) (ruleItems data) name =
      some ((Document.ofJson data).routed name) := by
  rw [isRouted, routedInDefaults_eq reads, routedInRules_eq reads, either_some]
  rfl

theorem bareRule_eq (reads : Document.Reads data) : (ruleItems data).anyM (fun rule =>
    both (listedUnder tools "channels" "webhook" rule) (do isBlank (← field "webhook_url" .null rule))) =
    some ((Document.ofJson data).bareRule Document.isStripped) := by
  refine rules_anyM reads fun rule read => ?_
  obtain ⟨entries, rfl⟩ := read.mapping
  have blank := isBlank_text (Rule.ofJson (.dict entries)).webhookUrl
  rw [← read.webhookUrl] at blank
  rw [listedInRule read, field, Option.bind_eq_bind, Option.bind_some, blank, both_some]

theorem lint_eq (reads : Document.Reads data) : lint tools (.dict (groupEntries data)) (.dict (channelEntries data))
    (.dict (defaultEntries data)) (ruleItems data) (Document.ofJson data).known =
    some (Document.ofJson data).warnings := by
  have off : (Document.ofJson data).known.filterM (fun name => both ((isOn (.dict (channelEntries data)) name).map not)
      (isRouted tools (.dict (defaultEntries data)) (ruleItems data) name)) =
      some ((Document.ofJson data).known.filter fun name =>
        !(Document.ofJson data).enabled name && (Document.ofJson data).routed name) := by
    refine filterM_eq_some fun name _ => ?_
    rw [isOn_eq reads, isRouted_eq reads, Option.map_some, both_some]
  have unrouted : (sortedNames (Document.ofJson data).known).filterM (fun name =>
      both (isOn (.dict (channelEntries data)) name)
        ((isRouted tools (.dict (defaultEntries data)) (ruleItems data) name).map not)) =
      some ((sortedNames (Document.ofJson data).known).filter fun name =>
        (Document.ofJson data).enabled name && !(Document.ofJson data).routed name) := by
    refine filterM_eq_some fun name _ => ?_
    rw [isOn_eq reads, isRouted_eq reads, Option.map_some, both_some]
  have recipients : (Document.ofJson data).known.mapM (recipientWarnings tools (.dict (groupEntries data))
      (.dict (channelEntries data)) (.dict (defaultEntries data)) (ruleItems data)) =
      some ((Document.ofJson data).known.map (Document.ofJson data).recipientWarnings) :=
    mapM_eq_some fun name _ => recipientWarnings_eq reads name
  obtain ⟨url, isUrl, blank⟩ := Option.bind_eq_some_iff.mp (webhookBlank_eq reads)
  have webhook : field "webhook" .null (.dict (channelEntries data)) =
    some (((Json.dict (channelEntries data)).get "webhook").getD .null) := rfl
  rw [lint, off, unrouted, recipients, isOn_eq reads, webhook, routedInDefaults_eq reads, bareRule_eq reads]
  simp only [Option.bind_eq_bind, Option.bind_some, orElse_getD_null, isUrl, blank, both_some]
  rfl

/-- On an accepted document the lint returns, and returns the typed warnings. -/
theorem deliverabilityWarnings_eq (reads : Document.Reads data) :
    deliverabilityWarnings tools data = some (Document.ofJson data).warnings := by
  have keyed : ∀ key, field key .null data = some ((data.get key).getD .null) := by
    obtain ⟨entries, mapping⟩ := reads.mapping
    subst mapping
    exact fun _ => rfl
  obtain ⟨triggers, isTriggers⟩ := reads.triggers
  have triggered : ∀ key, field key .null (.dict triggers) =
      some ((((data.get "triggers").getD .null).get key).getD .null) := by
    rw [isTriggers]
    exact fun _ => rfl
  have known : (Document.ofJson data).known = (channelEntries data).map Prod.fst := keys_mapValues
  have typed := @lint_eq tools data reads
  rw [known] at typed
  rw [deliverabilityWarnings]
  simp only [keyed, Option.bind_eq_bind, Option.bind_some, orElse_getD_null, orElse_mapping reads.channels,
    reads.groups,
    orElse_mapping isTriggers, triggered, orElse_mapping reads.defaults, reads.rules, elements_list]
  exact typed

/-- What the page's lint comes to where it returns. -/
def Document.pageWarnings (document : Document) (keys : List String) : List Warning :=
  (distinct (fun one other => decide (one = other))
      (document.routes.filter fun name => !document.enabled name)).map .offButRouted ++
    warnWhen (document.bare isTrimmed && document.routedInDefaults "webhook") .webhookDefaults ++
    warnWhen (document.bare isTrimmed && document.bareRule isTrimmed) .webhookRule ++
    keys.flatMap document.recipientWarnings ++
    (keys.filter fun name => document.enabled name && !document.routed name).map .neverRouted

theorem overrideOnPage_eq {rule : Json} {name : String} (own : name ∉ objectMembers) :
    overrideOnPage rule name = some (valueOf name (Rule.ofJson rule).recipients) := by
  have ofOwn : (Rule.ofJson rule).recipients =
    mapValues textsOf (entriesOf ((rule.get "recipients").getD .null)) := rfl
  rw [overrideOnPage, ofOwn, valueOf_mapValues]
  cases held : rule.get "recipients" with
  | none => rfl
  | some value =>
    cases value with
    | dict entries =>
      dsimp only [Option.getD_some, entriesOf]
      cases (Json.dict entries).get name with
      | none => exact if_neg own
      | some own => rfl
    | _ => rfl

theorem deadOnPage_eq {rule : Json} {name : String} (own : name ∉ objectMembers) :
    deadOnPage data name rule = some (decide (name ∈ (Rule.ofJson rule).channels) &&
      match valueOf name (Rule.ofJson rule).recipients with
      | some override => decide ((Document.ofJson data).count override = 0)
      | none => decide ((Document.ofJson data).defaultCount name = 0)) := by
  rw [deadOnPage]
  by_cases routed : name ∈ (Rule.ofJson rule).channels
  · rw [if_pos routed, overrideOnPage_eq own, decide_eq_true routed, Option.map_some, Bool.true_and]
  · rw [if_neg routed, decide_eq_false routed, Bool.false_and]

theorem recipientWarningsOnPage_eq (reads : Document.Reads data) {name : String} (own : name ∉ objectMembers) :
    recipientWarningsOnPage data (ruleItems data) name = some ((Document.ofJson data).recipientWarnings name) := by
  have dead : (ruleItems data).anyM (deadOnPage data name) = some ((Document.ofJson data).deadRule name) :=
    rules_anyM reads fun rule _ => deadOnPage_eq own
  rw [recipientWarningsOnPage, Document.recipientWarnings, dead]
  split
  · rfl
  · rfl

/-- Where the rules are a list and no channel is named like a member of every object, the page's lint returns. -/
theorem configWarnings_eq (reads : Document.Reads data) {items : List Json} {keys : List String}
    (rules : ((data.get "triggers").getD .null).get "rules" = some (.list items))
    (own : ∀ name ∈ keys, name ∉ objectMembers) :
    configWarnings data keys = some ((Document.ofJson data).pageWarnings keys) := by
  have isItems : ruleItems data = items := by rw [ruleItems, rules]; rfl
  have recipients : keys.mapM (recipientWarningsOnPage data items) =
      some (keys.map (Document.ofJson data).recipientWarnings) :=
    mapM_eq_some fun name member => isItems ▸ recipientWarningsOnPage_eq reads (own name member)
  rw [configWarnings, rules]
  simp only [recipients, Option.map_some]
  rfl

end

end TransactionMonitoring.NotificationConfig
