import TransactionMonitoring.NotificationConfig

/-! The notification document as its types describe it.

A document that passes the check holds every part in the shape its readers expect, so each
reader returns, and returns what it would on the parts themselves.
-/
namespace TransactionMonitoring.NotificationConfig
open Alerts Checks

structure Channel where
  enabled : Bool
  recipients : Option (List String)
  defaultUrl : Option String
deriving DecidableEq, Repr

structure Rule where
  band : String
  attackClasses : List String
  channels : List String
  recipients : List (String × List String)
  webhookUrl : Option String
deriving DecidableEq, Repr

structure Document where
  channels : List (String × Channel)
  groups : List (String × List String)
  defaults : List (String × List String)
  rules : List Rule
  reportChannels : List String
  reportRecipients : List String
deriving DecidableEq, Repr

/-- The value held under a key. -/
def valueOf {α : Type} (key : String) (entries : List (String × α)) : Option α :=
  (entries.find? fun entry => entry.1 = key).map Prod.snd

namespace Document
variable (document : Document)

def expand (recipient : String) : List String :=
  match groupAlias recipient with
  | some group => (valueOf group document.groups).getD []
  | none => [recipient]

def resolve (recipients : List String) : List String :=
  distinct (fun one other => decide (one = other)) (recipients.flatMap document.expand)

def enabled (name : String) : Bool := (valueOf name document.channels).any Channel.enabled

def channelRecipients (name : String) : List String :=
  document.resolve (((valueOf name document.channels).bind Channel.recipients).getD [])

/-- The URL, unless it is the empty text. -/
def nonempty (url : Option String) : Option String := url.filter fun url => url ≠ ""

def defaultUrl : Option String := nonempty ((valueOf "webhook" document.channels).bind Channel.defaultUrl)

/-- The last rule for the band that lists the class. -/
def ruleFor (band attackClass : String) : Option Rule :=
  (document.rules.filter fun rule => rule.band = band ∧ attackClass ∈ rule.attackClasses).getLast?

def selected (band attackClass : String) : List String :=
  match document.ruleFor band attackClass with
  | some rule => rule.channels
  | none => (valueOf band document.defaults).getD []

def recipientsOn (rule : Option Rule) (name : String) : List String :=
  match rule.bind fun rule => valueOf name rule.recipients with
  | some override => document.resolve override
  | none => document.channelRecipients name

def urlOn (rule : Option Rule) (name : String) : Option String :=
  if name = "webhook" then (nonempty (rule.bind Rule.webhookUrl)).or document.defaultUrl else none

def dispatchTo (name : String) (recipients : List String) (webhookUrl : Option String) :
    Option (Dispatch String String String) :=
  if document.enabled name ∧ ¬(recipients = [] ∧ webhookUrl = none) then
    some { channel := name, recipients, webhookUrl }
  else none

def dispatches (band attackClass : String) : List (Dispatch String String String) :=
  let rule := document.ruleFor band attackClass
  (document.selected band attackClass).filterMap fun name =>
    document.dispatchTo name (document.recipientsOn rule name) (document.urlOn rule name)

def reportDispatches : List (Dispatch String String String) :=
  document.reportChannels.filterMap fun name =>
    document.dispatchTo name
      (if name = "webhook" then []
        else if document.reportRecipients = [] then document.channelRecipients name
        else document.resolve document.reportRecipients)
      (if name = "webhook" then document.defaultUrl else none)

end Document

/-! What the parts of a document are read as. -/

def texts (values : List String) : Json := .list (values.map .text)

def textOf : Json → String
  | .text value => value
  | _ => ""

def textsOf : Json → List String
  | .list items => items.map textOf
  | _ => []

def entriesOf : Json → List (String × Json)
  | .dict entries => entries
  | _ => []

def itemsOf : Json → List Json
  | .list items => items
  | _ => []

def Channel.ofJson (spec : Json) : Channel where
  enabled := (spec.get "enabled").any Json.truthy
  recipients := (spec.get "recipients").map textsOf
  defaultUrl := (spec.get "default_url").map textOf

/-- Each value read, under its key. -/
def mapValues {α : Type} (read : Json → α) (entries : List (String × Json)) : List (String × α) :=
  entries.map fun entry => (entry.1, read entry.2)

def Rule.ofJson (rule : Json) : Rule where
  band := textOf ((rule.get "band").getD .null)
  attackClasses := textsOf ((rule.get "attack_classes").getD .null)
  channels := textsOf ((rule.get "channels").getD .null)
  recipients := mapValues textsOf (entriesOf ((rule.get "recipients").getD .null))
  webhookUrl := (rule.get "webhook_url").map textOf

def Document.ofJson (data : Json) : Document :=
  let triggers := (data.get "triggers").getD .null
  let report := Json.dict (entriesOf ((data.get "periodic_report").getD .null) ++ reportDefaults)
  { channels := mapValues Channel.ofJson (entriesOf ((data.get "channels").getD .null))
    groups := mapValues textsOf (entriesOf ((data.get "groups").getD .null))
    defaults := mapValues textsOf (entriesOf ((triggers.get "defaults").getD .null))
    rules := (itemsOf ((triggers.get "rules").getD .null)).map Rule.ofJson
    reportChannels := textsOf ((report.get "channels").getD .null)
    reportRecipients := textsOf ((report.get "recipients").getD .null) }

@[simp] theorem textsOf_texts {values : List String} : textsOf (texts values) = values := by
  rw [texts, textsOf, List.map_map]
  exact List.map_id values

@[simp] theorem valueOf_mapValues {α : Type} {read : Json → α} {key : String} {entries : List (String × Json)} :
    valueOf key (mapValues read entries) = ((Json.dict entries).get key).map read := by
  rw [valueOf, mapValues, List.find?_map, Json.get, Option.map_map, Option.map_map]
  rfl

theorem orElse_dict {value : Option Json} {entries : List (String × Json)}
    (shape : orElse value (.dict []) = .dict entries) : entriesOf (value.getD .null) = entries := by
  cases value with
  | none =>
    cases shape
    rfl
  | some value =>
    rw [orElse] at shape
    split at shape
    · subst shape
      rfl
    · next empty =>
      cases shape
      cases value <;> first | rfl | skip
      next entries =>
        cases entries with
        | nil => rfl
        | cons => exact absurd rfl empty

theorem orElse_list {value : Option Json} {items : List Json}
    (shape : orElse value (.list []) = .list items) : itemsOf (value.getD .null) = items := by
  cases value with
  | none =>
    cases shape
    rfl
  | some value =>
    rw [orElse] at shape
    split at shape
    · subst shape
      rfl
    · next empty =>
      cases shape
      cases value <;> first | rfl | skip
      next items =>
        cases items with
        | nil => rfl
        | cons => exact absurd rfl empty

/-! What each check accepts. -/

section
variable {tools : Tools} {source ref : String} {known : List String} {groups : List (String × Json)} {value : Json}

theorem requireIn_eq_ok_iff {error : Rejection} :
    requireIn known value error = .ok () ↔ ∃ text ∈ known, value = .text text := by
  rw [requireIn, bind_eq_ok_iff]
  cases value <;> simp [inTexts]

theorem exists_texts {items : List Json} (all : ∀ item ∈ items, ∃ text, item = .text text) :
    ∃ names, Json.list items = texts names := by
  refine ⟨items.map textOf, ?_⟩
  rw [texts, List.map_map]
  refine congrArg Json.list ((List.map_id items).symm.trans (List.map_congr_left fun item member => ?_))
  obtain ⟨text, rfl⟩ := all item member
  rfl

theorem isTexts_iff : isTexts value = true ↔ ∃ names, value = texts names := by
  constructor
  · intro all
    cases value with
    | list items =>
      refine exists_texts fun item member => ?_
      have text := List.all_eq_true.mp all item member
      cases item with
      | text value => exact ⟨value, rfl⟩
      | _ => cases text
    | _ => cases all
  · rintro ⟨names, rfl⟩
    exact List.all_eq_true.mpr (List.forall_mem_map.mpr fun _ _ => rfl)

theorem checkChannelList_eq_ok_iff : checkChannelList tools source known ref value = .ok () ↔
    ∃ names, value = texts names ∧ ∀ name ∈ names, name ∈ known := by
  constructor
  · intro passes
    cases value with
    | list items =>
      rw [checkChannelList, each_eq_ok_iff] at passes
      have named := fun item member => requireIn_eq_ok_iff.mp (passes item member)
      obtain ⟨names, shape⟩ := exists_texts fun item member => (named item member).imp fun _ => And.right
      refine ⟨names, shape, fun name member => ?_⟩
      cases shape
      obtain ⟨_, isKnown, same⟩ := named _ (List.mem_map_of_mem member)
      cases same
      exact isKnown
    | _ => cases passes
  · rintro ⟨names, rfl, named⟩
    rw [texts, checkChannelList, each_eq_ok_iff]
    exact List.forall_mem_map.mpr fun name member => requireIn_eq_ok_iff.mpr ⟨name, named name member, rfl⟩

/-- Each entry that refers to a group refers to one of these. -/
def RefersTo (groups recipients : List String) : Prop :=
  ∀ recipient ∈ recipients, ∀ group, groupAlias recipient = some group → group ∈ groups

theorem checkRecipient_eq_ok_iff : checkRecipient source groups ref value = .ok () ↔
    ∃ recipient, value = .text recipient ∧
      ∀ group, groupAlias recipient = some group → group ∈ groups.map Prod.fst := by
  cases value with
  | text recipient =>
    rw [checkRecipient]
    cases alias_ : groupAlias recipient with
    | some group => simp [alias_]
    | none => simp [alias_]
  | _ => simp [checkRecipient]

theorem checkRecipients_eq_ok_iff : checkRecipients source groups ref value = .ok () ↔
    ∃ names, value = texts names ∧ RefersTo (groups.map Prod.fst) names := by
  constructor
  · intro passes
    cases value with
    | list items =>
      rw [checkRecipients, each_eq_ok_iff] at passes
      obtain ⟨names, shape⟩ := exists_texts fun item member =>
        (checkRecipient_eq_ok_iff.mp (passes item member)).imp fun _ => And.left
      refine ⟨names, shape, fun name member => ?_⟩
      cases shape
      obtain ⟨_, same, defined⟩ := checkRecipient_eq_ok_iff.mp (passes _ (List.mem_map_of_mem member))
      cases same
      exact defined
    | _ => cases passes
  · rintro ⟨names, rfl, defined⟩
    rw [texts, checkRecipients, each_eq_ok_iff]
    exact List.forall_mem_map.mpr fun name member => checkRecipient_eq_ok_iff.mpr ⟨name, rfl, defined name member⟩

/-- An http(s) URL whose host is not internal, unless internal receivers are allowed. -/
def Allowed (tools : Tools) (url : String) : Prop :=
  isHttpUrl url = true ∧ (isInternalWebhookTarget tools url = .ok false ∨ tools.webhookAllowInternal = true)

theorem checkWebhookUrl_ok (passes : checkWebhookUrl tools source ref value = .ok ()) :
    ∃ url, value = .text url ∧ (url = "" ∨ Allowed tools url) := by
  cases value with
  | text url =>
    refine ⟨url, rfl, ?_⟩
    rw [checkWebhookUrl, then_eq_ok_iff, require_eq_ok_iff] at passes
    obtain ⟨http, passes⟩ := passes
    obtain ⟨internal, isInternal, passes⟩ := bind_eq_ok_iff.mp passes
    by_cases empty : url = ""
    · exact .inl empty
    · rw [if_neg empty] at isInternal
      refine .inr ⟨by simpa [empty] using http, ?_⟩
      cases internal with
      | false => exact .inl isInternal
      | true => exact .inr (by simpa using passes)
  | _ => cases passes

end

/-! What an accepted document holds. -/

/-- The parts of a channel stand in its mapping as they are read. -/
structure Channel.Reads (spec : Json) : Prop where
  mapping : ∃ entries, spec = .dict entries
  enabled : spec.get "enabled" = some (.bool (ofJson spec).enabled)
  recipients : spec.get "recipients" = (ofJson spec).recipients.map texts
  defaultUrl : spec.get "default_url" = (ofJson spec).defaultUrl.map .text

structure Rule.Reads (rule : Json) : Prop where
  mapping : ∃ entries, rule = .dict entries
  band : rule.get "band" = some (.text (ofJson rule).band)
  attackClasses : rule.get "attack_classes" = some (texts (ofJson rule).attackClasses)
  channels : orElse (rule.get "channels") (.list []) = texts (ofJson rule).channels
  recipients : orElse (rule.get "recipients") (.dict []) = .dict (entriesOf ((rule.get "recipients").getD .null)) ∧
    ∀ entry ∈ entriesOf ((rule.get "recipients").getD .null), entry.2 = texts (textsOf entry.2)
  webhookUrl : rule.get "webhook_url" = (ofJson rule).webhookUrl.map .text

structure Document.Reads (data : Json) : Prop where
  mapping : ∃ entries, data = .dict entries
  channels : data.get "channels" = some (.dict (entriesOf ((data.get "channels").getD .null)))
  channel : ∀ entry ∈ entriesOf ((data.get "channels").getD .null), Channel.Reads entry.2
  groups : orElse (data.get "groups") (.dict []) = .dict (entriesOf ((data.get "groups").getD .null))
  group : ∀ entry ∈ entriesOf ((data.get "groups").getD .null), entry.2 = texts (textsOf entry.2)
  triggers : ∃ entries, data.get "triggers" = some (.dict entries)
  defaults : ((data.get "triggers").getD .null).get "defaults" =
    some (.dict (entriesOf ((((data.get "triggers").getD .null).get "defaults").getD .null)))
  selected : ∀ entry ∈ entriesOf ((((data.get "triggers").getD .null).get "defaults").getD .null),
    entry.2 = texts (textsOf entry.2)
  rules : orElse (((data.get "triggers").getD .null).get "rules") (.list []) =
    .list (itemsOf ((((data.get "triggers").getD .null).get "rules").getD .null))
  rule : ∀ item ∈ itemsOf ((((data.get "triggers").getD .null).get "rules").getD .null), Rule.Reads item
  report : ∃ entries, periodicReportConfig data = some (.dict entries) ∧
    (Json.dict entries).get "channels" = some (texts (ofJson data).reportChannels) ∧
    (Json.dict entries).get "recipients" = some (texts (ofJson data).reportRecipients)

/-- The groups that a channel refers to exist, and its URL may be posted to. -/
structure Channel.Valid (tools : Tools) (groups : List String) (channel : Channel) : Prop where
  recipients : ∀ names ∈ channel.recipients, RefersTo groups names
  defaultUrl : ∀ url ∈ channel.defaultUrl, url = "" ∨ Allowed tools url

structure Rule.Valid (tools : Tools) (known groups : List String) (rule : Rule) : Prop where
  band : rule.band ∈ riskBands
  classes : rule.attackClasses ≠ [] ∧ ∀ name ∈ rule.attackClasses, name ∈ NotificationConfig.attackClasses
  channels : ∀ name ∈ rule.channels, name ∈ known
  recipients : ∀ entry ∈ rule.recipients, entry.1 ∈ known ∧ RefersTo groups entry.2
  webhookUrl : ∀ url ∈ rule.webhookUrl, url = "" ∨ Allowed tools url

def Document.known (document : Document) : List String := document.channels.map Prod.fst

structure Document.Valid (tools : Tools) (document : Document) : Prop where
  channels : document.channels ≠ []
  channel : ∀ entry ∈ document.channels, Channel.Valid tools (document.groups.map Prod.fst) entry.2
  defaults : ∀ entry ∈ document.defaults, entry.1 ∈ riskBands ∧ ∀ name ∈ entry.2, name ∈ document.known
  rule : ∀ rule ∈ document.rules, Rule.Valid tools document.known (document.groups.map Prod.fst) rule

@[simp] theorem keys_mapValues {α : Type} {read : Json → α} {entries : List (String × Json)} :
    (mapValues read entries).map Prod.fst = entries.map Prod.fst := by
  rw [mapValues, List.map_map]
  rfl

section
variable {tools : Tools} {source ref : String} {known : List String} {groups : List (String × Json)}

theorem isBool_iff {value : Option Json} : isBool value = true ↔ ∃ flag, value = some (.bool flag) := by
  cases value with
  | none => simp [isBool]
  | some value => cases value <;> simp [isBool]

theorem mapping_eq_ok_iff {error : Rejection} {value : Json} {entries : List (String × Json)} :
    mapping error value = .ok entries ↔ value = .dict entries := by
  cases value <;> simp [mapping]

theorem sequence_eq_ok_iff {error : Rejection} {value : Json} {items : List Json} :
    sequence error value = .ok items ↔ value = .list items := by
  cases value <;> simp [sequence]

/-- A URL that is there is a text that may be posted to. -/
theorem ifPresent_url {found : Option Json} (passes : ifPresent (checkWebhookUrl tools source ref) found = .ok ()) :
    found = (found.map textOf).map .text ∧ ∀ url ∈ found.map textOf, url = "" ∨ Allowed tools url := by
  cases found with
  | none => exact ⟨rfl, fun url held => nomatch held⟩
  | some value =>
    obtain ⟨url, rfl, allowed⟩ := checkWebhookUrl_ok passes
    refine ⟨rfl, ?_⟩
    rintro _ ⟨⟩
    exact allowed

/-- Recipients that are there are texts that refer to defined groups. -/
theorem ifPresent_recipients {found : Option Json}
    (passes : ifPresent (checkRecipients source groups ref) found = .ok ()) :
    found = (found.map textsOf).map texts ∧ ∀ names ∈ found.map textsOf, RefersTo (groups.map Prod.fst) names := by
  cases found with
  | none => exact ⟨rfl, fun names held => nomatch held⟩
  | some value =>
    obtain ⟨names, rfl, defined⟩ := checkRecipients_eq_ok_iff.mp passes
    rw [Option.map_some, textsOf_texts]
    refine ⟨rfl, ?_⟩
    rintro _ ⟨⟩
    exact defined

theorem Channel.of_checks {name : String} {spec : Json} (enabled : checkEnabled source name spec = .ok ())
    (addresses : checkAddresses tools source groups name spec = .ok ()) :
    Channel.Reads spec ∧ Channel.Valid tools (groups.map Prod.fst) (ofJson spec) := by
  obtain ⟨entries, rfl⟩ : ∃ entries, spec = .dict entries := by
    cases spec with
    | dict entries => exact ⟨entries, rfl⟩
    | _ => cases enabled
  obtain ⟨flag, isFlag⟩ := isBool_iff.mp (require_eq_ok_iff.mp enabled)
  rw [checkAddresses, then_eq_ok_iff] at addresses
  obtain ⟨readRecipients, defined⟩ := ifPresent_recipients addresses.1
  obtain ⟨readUrl, allowed⟩ := ifPresent_url addresses.2
  refine ⟨⟨⟨entries, rfl⟩, ?_, readRecipients, readUrl⟩, ⟨defined, allowed⟩⟩
  rw [ofJson, isFlag]
  rfl

theorem text_ne_null {text : String} : Json.text text ≠ .null := by
  intro same
  cases same

theorem dict_ne_null {entries : List (String × Json)} : Json.dict entries ≠ .null := by
  intro same
  cases same

theorem texts_ne_null {names : List String} : texts names ≠ .null := by
  intro same
  cases same

theorem getD_null_eq {found : Option Json} {value : Json} (shape : found.getD .null = value)
    (present : value ≠ .null) : found = some value := by
  cases found with
  | none => exact absurd shape.symm present
  | some found => rw [← shape, Option.getD_some]

theorem texts_getD {found : Option Json} {names : List String}
    (shape : found.getD (.list []) = texts names) : orElse found (.list []) = texts names ∧
      textsOf (found.getD .null) = names := by
  cases found with
  | none =>
    cases names with
    | nil => exact ⟨rfl, rfl⟩
    | cons => cases shape
  | some value =>
    rw [Option.getD_some] at shape
    subst shape
    refine ⟨?_, textsOf_texts⟩
    cases names with
    | nil => rfl
    | cons => rfl

theorem checkOverrides_ok {found : Option Json} (passes : checkOverrides source known groups ref found = .ok ()) :
    orElse found (.dict []) = .dict (entriesOf (found.getD .null)) ∧
      ∀ entry ∈ entriesOf (found.getD .null), entry.2 = texts (textsOf entry.2) ∧ entry.1 ∈ known ∧
        RefersTo (groups.map Prod.fst) (textsOf entry.2) := by
  match found, passes with
  | none, _ => exact ⟨rfl, fun _ member => nomatch member⟩
  | some .null, _ => exact ⟨rfl, fun _ member => nomatch member⟩
  | some (.dict []), _ => exact ⟨rfl, fun _ member => nomatch member⟩
  | some (.dict (first :: rest)), passes =>
    refine ⟨rfl, fun entry member => ?_⟩
    simp only [checkOverrides, bind_eq_ok_iff, mapping_eq_ok_iff] at passes
    obtain ⟨_, same, passes⟩ := passes
    cases same
    have checked := each_eq_ok_iff.mp passes entry member
    rw [then_eq_ok_iff, require_eq_ok_iff] at checked
    obtain ⟨names, shape, defined⟩ := checkRecipients_eq_ok_iff.mp checked.2
    rw [shape, textsOf_texts]
    exact ⟨rfl, by simpa using checked.1, defined⟩

theorem Rule.of_check {rule : Json} {index : Nat}
    (passes : checkRule tools source known groups (rule, index) = .ok ()) :
    Rule.Reads rule ∧ Rule.Valid tools known (groups.map Prod.fst) (ofJson rule) := by
  rw [checkRule] at passes
  simp only [↓then_eq_ok_iff, bind_eq_ok_iff, mapping_eq_ok_iff, sequence_eq_ok_iff, require_eq_ok_iff,
    each_eq_ok_iff, requireIn_eq_ok_iff] at passes
  obtain ⟨entries, rfl, ⟨band, validBand, isBand⟩, classes, isClasses, present, isClass, selected, overrides, url⟩ :=
    passes
  obtain ⟨names, shape⟩ := exists_texts fun item member => (isClass item member).imp fun _ => And.right
  rw [shape] at isClasses
  cases shape
  obtain ⟨channels, isChannels, named⟩ := checkChannelList_eq_ok_iff.mp selected
  obtain ⟨readChannels, ofChannels⟩ := texts_getD isChannels
  obtain ⟨isOverrides, override⟩ := checkOverrides_ok overrides
  obtain ⟨readUrl, allowed⟩ := ifPresent_url url
  have ofClasses : (ofJson (.dict entries)).attackClasses = names := by
    rw [ofJson, isClasses, textsOf_texts]
  constructor
  · refine ⟨⟨entries, rfl⟩, ?_, ?_, ?_, ⟨isOverrides, fun entry member => (override entry member).1⟩, readUrl⟩
    · rw [ofJson, isBand]
      exact getD_null_eq isBand text_ne_null
    · rw [ofClasses]
      exact getD_null_eq isClasses texts_ne_null
    · rw [readChannels, ofJson, ofChannels]
  · refine ⟨?_, ⟨?_, ?_⟩, ?_, ?_, allowed⟩
    · rwa [ofJson, isBand]
    · rw [ofClasses]
      rintro rfl
      cases present
    · rw [ofClasses]
      intro name member
      obtain ⟨_, valid, same⟩ := isClass _ (List.mem_map_of_mem member)
      cases same
      exact valid
    · rw [ofJson, ofChannels]
      exact named
    · exact List.forall_mem_map.mpr fun entry member => (override entry member).2

/-- A list of texts stands under the key, be it the report's own or the default. -/
theorem get_report {entries : List (String × Json)} {key : String} (default : List String)
    (own : ∀ value, (Json.dict entries).get key = some value → ∃ names, value = texts names)
    (held : (Json.dict reportDefaults).get key = some (texts default)) :
    (Json.dict (entries ++ reportDefaults)).get key =
      some (texts (textsOf (((Json.dict (entries ++ reportDefaults)).get key).getD .null))) := by
  rw [Json.get_append, held]
  cases found : (Json.dict entries).get key with
  | none => rw [Option.none_or, Option.getD_some, textsOf_texts]
  | some value =>
    obtain ⟨names, rfl⟩ := own value found
    rw [Option.some_or, Option.getD_some, textsOf_texts]

theorem periodicReport_of_check {data : List (String × Json)}
    (passes : checkReport tools source known groups ((Json.dict data).get "periodic_report") = .ok ()) :
    ∃ merged, periodicReportConfig (.dict data) = some (.dict merged) ∧
      (Json.dict merged).get "channels" = some (texts (Document.ofJson (.dict data)).reportChannels) ∧
      (Json.dict merged).get "recipients" = some (texts (Document.ofJson (.dict data)).reportRecipients) := by
  refine ⟨entriesOf (((Json.dict data).get "periodic_report").getD .null) ++ reportDefaults, ?_⟩
  rw [periodicReportConfig, field, Document.ofJson]
  match (Json.dict data).get "periodic_report", passes with
  | none, _ => exact ⟨rfl, rfl, rfl⟩
  | some .null, _ => exact ⟨rfl, rfl, rfl⟩
  | some (.dict entries), passes =>
    simp only [checkReport, ↓then_eq_ok_iff, bind_eq_ok_iff, mapping_eq_ok_iff] at passes
    obtain ⟨_, same, -, -, -, selected, recipients, -⟩ := passes
    cases same
    have ownChannels : ∀ value, (Json.dict entries).get "channels" = some value → ∃ names, value = texts names := by
      intro value found
      rw [found] at selected
      exact (checkChannelList_eq_ok_iff.mp selected).imp fun _ => And.left
    have ownRecipients : ∀ value, (Json.dict entries).get "recipients" = some value →
        ∃ names, value = texts names := by
      intro value found
      rw [found] at recipients
      exact (checkRecipients_eq_ok_iff.mp recipients).imp fun _ => And.left
    have merges : orElse (some (((some (Json.dict entries)).getD .null))) (.dict []) = .dict entries := by
      cases entries with
      | nil => rfl
      | cons => rfl
    refine ⟨?_, get_report ["email"] ownChannels rfl, get_report [] ownRecipients rfl⟩
    rw [Option.bind_eq_bind, Option.bind_some, merges]
    rfl

theorem validate_ok {data : Json} (accepts : validate tools source data = .ok ()) :
    Document.Reads data ∧ Document.Valid tools (.ofJson data) := by
  rw [validate] at accepts
  simp only [↓then_eq_ok_iff, bind_eq_ok_iff, mapping_eq_ok_iff, sequence_eq_ok_iff, require_eq_ok_iff,
    each_eq_ok_iff] at accepts
  obtain ⟨-, data, rfl, -, channels, isChannels, present, enabled, groups, isGroups, members, addresses, triggers,
    isTriggers, defaults, isDefaults, selected, rules, isRules, rule, report⟩ := accepts
  have ofGroups := orElse_dict isGroups
  have ofRules := orElse_list isRules
  have ofDefaults : entriesOf (((Json.dict triggers).get "defaults").getD .null) = defaults := by rw [isDefaults]; rfl
  have channel := fun entry member => Channel.of_checks (enabled entry member) (addresses entry member)
  have checked : ∀ item ∈ rules, Rule.Reads item ∧
      Rule.Valid tools (channels.map Prod.fst) (groups.map Prod.fst) (.ofJson item) := by
    intro item member
    obtain ⟨index, within, rfl⟩ := List.getElem_of_mem member
    exact Rule.of_check (rule (rules[index], index)
      (List.mk_mem_zipIdx_iff_getElem?.mpr (List.getElem?_eq_getElem within)))
  have route : ∀ entry ∈ defaults, entry.1 ∈ riskBands ∧ ∃ names, entry.2 = texts names ∧
      ∀ name ∈ names, name ∈ channels.map Prod.fst := by
    intro entry member
    have passes := selected entry member
    rw [checkDefault, then_eq_ok_iff, require_eq_ok_iff, checkChannelList_eq_ok_iff] at passes
    exact ⟨by simpa using passes.1, passes.2⟩
  constructor
  · constructor
    case mapping => exact ⟨data, rfl⟩
    case channels => rw [isChannels]; exact getD_null_eq isChannels dict_ne_null
    case channel => rw [isChannels]; exact fun entry member => (channel entry member).1
    case groups => rw [ofGroups]; exact isGroups
    case group =>
      rw [ofGroups]
      intro entry member
      obtain ⟨names, shape⟩ := isTexts_iff.mp (members entry member)
      rw [shape, textsOf_texts]
    case triggers => exact ⟨triggers, getD_null_eq isTriggers dict_ne_null⟩
    case defaults => rw [isTriggers, ofDefaults]; exact getD_null_eq isDefaults dict_ne_null
    case selected =>
      rw [isTriggers, ofDefaults]
      intro entry member
      obtain ⟨-, names, shape, -⟩ := route entry member
      rw [shape, textsOf_texts]
    case rules => rw [isTriggers, ofRules]; exact isRules
    case rule => rw [isTriggers, ofRules]; exact fun item member => (checked item member).1
    case report => exact periodicReport_of_check report
  · have known : (Document.ofJson (.dict data)).known = channels.map Prod.fst := by
      rw [Document.known, Document.ofJson, keys_mapValues, isChannels]
      rfl
    have named : (Document.ofJson (.dict data)).groups.map Prod.fst = groups.map Prod.fst := by
      rw [Document.ofJson, keys_mapValues, ofGroups]
    constructor
    case channels =>
      intro none
      rw [Document.known, none] at known
      rw [List.map_eq_nil_iff.mp known.symm] at present
      cases present
    case channel =>
      rw [named, Document.ofJson, isChannels]
      exact List.forall_mem_map.mpr fun entry member => (channel entry member).2
    case defaults =>
      rw [known, Document.ofJson, isTriggers, ofDefaults]
      refine List.forall_mem_map.mpr fun entry member => ?_
      obtain ⟨band, names, shape, isKnown⟩ := route entry member
      rw [shape, textsOf_texts]
      exact ⟨band, isKnown⟩
    case rule =>
      rw [known, named, Document.ofJson, isTriggers, ofRules]
      exact List.forall_mem_map.mpr fun item member => (checked item member).2

end

end TransactionMonitoring.NotificationConfig
