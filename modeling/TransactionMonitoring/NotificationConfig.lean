import TransactionMonitoring.Alerts
import TransactionMonitoring.Checks
import TransactionMonitoring.JsonValue

/-! The notification document and what is read from it.

Administrators edit one document at runtime: the channels, the recipient groups, which band
pages on which channel, the rules that override this for single attack classes, and the
periodic report.  It is checked once, when it is stored or loaded; the thread that scores
transactions then reads it as it is.  A function that reads it returns `none` where Python
raises on a value of the wrong type.
-/
namespace TransactionMonitoring.NotificationConfig
open Alerts Checks

/-- What the address of an internet host counts as. -/
structure AddressFlags where
  isLoopback : Bool
  isPrivate : Bool
  isLinkLocal : Bool
  isReserved : Bool

/-- What the module takes from Python and from the environment. -/
structure Tools where
  str : Json → String
  repr : Json → String
  lower : String → String
  /-- Python's `==`, for which `1`, `1.0` and `True` are one value. -/
  same : Json → Json → Bool
  same_text : ∀ one other, same (.text one) (.text other) = decide (one = other)
  /-- `urlparse(url).hostname`, which raises a `ValueError` on some texts. -/
  hostname : String → Option (Option String)
  ipAddress : String → Option AddressFlags
  webhookAllowInternal : Bool

/-- An exception of `_validate`; the endpoint turns a `RuntimeError` alone into a 422. -/
inductive Rejection where
  | runtimeError (detail : String)
  | attributeError
  | typeError
  | valueError
deriving DecidableEq, Repr

def riskBands : List String := ["Informational", "Moderate", "High", "Critical"]

def attackClasses : List String :=
  [AttackClass.tokenDust, .largeValue, .largeDatum, .multipleSat, .frontRunning, .sandwich, .circular, .fakeToken,
    .phishing, .contractAnomaly].map AttackClass.value

def frequencies : List String := ["daily", "weekly", "monthly"]

/-- `_REPORT_DEFAULTS`. -/
def reportDefaults : List (String × Json) :=
  [("enabled", .bool false), ("frequency", .text "weekly"), ("window_days", .int 7),
    ("channels", .list [.text "email"]), ("recipients", .list []), ("attack_classes", .text "all"),
    ("min_band", .text "Moderate")]

/-- `_DEFAULT_CONFIG`. -/
def defaultConfig : Json :=
  .dict [("version", .int 1),
    ("channels", .dict [
      ("email", .dict [("enabled", .bool true), ("recipients", .list [.text "ops@example.com"])]),
      ("webhook", .dict [("enabled", .bool false), ("default_url", .text "")])]),
    ("groups", .dict [("soc-team", .list [.text "ops@example.com"])]),
    ("triggers", .dict [
      ("defaults", .dict [("Critical", .list [.text "email", .text "webhook"]),
        ("High", .list [.text "email", .text "webhook"]), ("Moderate", .list []), ("Informational", .list [])]),
      ("rules", .list [])]),
    ("periodic_report", .dict reportDefaults)]

def groupPrefix : String := "group:"

/-- The group that a recipient entry refers to. -/
def groupAlias (recipient : String) : Option String :=
  if groupPrefix.toList.isPrefixOf recipient.toList then
    some (String.ofList (recipient.toList.drop groupPrefix.length))
  else none

def forbiddenKeyNorms : List String :=
  ["password", "passwd", "pass", "secret", "secretkey", "signingsecret", "webhooksigningsecret", "smtppassword",
    "apikey", "apitoken", "accesstoken", "authtoken", "token", "credential", "credentials", "creds", "privatekey",
    "privkey"]

section
variable (tools : Tools)

/-- `_looks_like_secret`. -/
def looksLikeSecret (key : String) : Bool :=
  let norm := (tools.lower key).toList.filter fun char =>
    ('a' ≤ char && char ≤ 'z') || ('0' ≤ char && char ≤ '9')
  "smtp".toList.isPrefixOf norm || forbiddenKeyNorms.contains (String.ofList norm)

def rejection (source detail : String) : Rejection := .runtimeError (source ++ ": " ++ detail)

mutual

/-- `_reject_secret_keys`. -/
def rejectSecretKeys (source path : String) : Json → Except Rejection Unit
  | .dict entries => rejectSecretEntries source path entries
  | .list items => rejectSecretItems source path 0 items
  | _ => .ok ()

def rejectSecretEntries (source path : String) : List (String × Json) → Except Rejection Unit
  | [] => .ok ()
  | (key, value) :: rest => do
      require (!looksLikeSecret tools key) (rejection source
        ("key '" ++ path ++ "." ++ key ++ "' looks like a secret — secrets are configured via environment " ++
          "variables, not the config document."))
      rejectSecretKeys source (path ++ "." ++ key) value
      rejectSecretEntries source path rest

def rejectSecretItems (source path : String) (index : Nat) : List Json → Except Rejection Unit
  | [] => .ok ()
  | item :: rest => do
      rejectSecretKeys source (path ++ "[" ++ toString index ++ "]") item
      rejectSecretItems source path (index + 1) rest

end

/-- `value in texts`, for a set of texts: an unhashable value raises. -/
def inTexts (texts : List String) : Json → Except Rejection Bool
  | .text value => .ok (texts.contains value)
  | .list _ | .dict _ => .error .typeError
  | _ => .ok false

/-- Raises the error unless the value is one of the texts. -/
def requireIn (texts : List String) (value : Json) (error : Rejection) : Except Rejection Unit := do
  let found ← inTexts texts value
  require found error

/-- `sorted(texts)` as an f-string shows it. -/
def sortedTexts (texts : List String) : String :=
  tools.repr (.list ((texts.mergeSort fun one other => one ≤ other).map .text))

/-- `_check_channel_list`. -/
def checkChannelList (source : String) (known : List String) (ref : String) : Json → Except Rejection Unit
  | .list names => each (fun name => requireIn known name (rejection source
        (ref ++ " references unknown channel '" ++ tools.str name ++ "' (known: " ++ sortedTexts tools known ++
          ")."))) names
  | _ => .error (rejection source (ref ++ " must be a list of channel names."))

def checkRecipient (source : String) (groups : List (String × Json)) (ref : String) : Json → Except Rejection Unit
  | .text recipient =>
      match groupAlias recipient with
      | some group => require ((groups.map Prod.fst).contains group)
          (rejection source (ref ++ " references undefined group '" ++ group ++ "'."))
      | none => .ok ()
  | _ => .error (rejection source (ref ++ " entries must be strings."))

/-- `_check_recipients`. -/
def checkRecipients (source : String) (groups : List (String × Json)) (ref : String) : Json → Except Rejection Unit
  | .list recipients => each (checkRecipient source groups ref) recipients
  | _ => .error (rejection source (ref ++ " must be a list."))

/-- `is_internal_webhook_target`. -/
def isInternalWebhookTarget (url : String) : Except Rejection Bool :=
  match tools.hostname url with
  | none => .error .valueError
  | some hostname =>
      let host := tools.lower (hostname.getD "")
      if host = "" then .ok false
      else if host = "localhost" || ".localhost".toList.isSuffixOf host.toList then .ok true
      else match tools.ipAddress host with
        | none => .ok false
        | some ip => .ok (ip.isLoopback || ip.isPrivate || ip.isLinkLocal || ip.isReserved)

def isHttpUrl (url : String) : Bool :=
  "http://".toList.isPrefixOf url.toList || "https://".toList.isPrefixOf url.toList

/-- `_check_webhook_url`. -/
def checkWebhookUrl (source ref : String) : Json → Except Rejection Unit
  | .text url => do
      require (url = "" || isHttpUrl url)
        (rejection source (ref ++ " must be an http(s) URL (got " ++ tools.repr (.text url) ++ ")."))
      let internal ← (if url = "" then .ok false else isInternalWebhookTarget tools url)
      require (!(internal && !tools.webhookAllowInternal)) (rejection source
        (ref ++ " points at a loopback/private/link-local address (" ++
          tools.repr (((tools.hostname url).join.map Json.text).getD .null) ++
            ") — refused as a likely SSRF target. " ++
          "Set WEBHOOK_ALLOW_INTERNAL=true if this is an intentional internal receiver."))
  | _ => .error (rejection source (ref ++ " must be a string."))

/-- `value or default`. -/
def orElse (value : Option Json) (default : Json) : Json :=
  match value with
  | some value => if value.truthy then value else default
  | none => default

/-- The entries of a mapping. -/
def mapping (error : Rejection) : Json → Except Rejection (List (String × Json))
  | .dict entries => .ok entries
  | _ => .error error

/-- The items of a list. -/
def sequence (error : Rejection) : Json → Except Rejection (List Json)
  | .list items => .ok items
  | _ => .error error

def isBool : Option Json → Bool
  | some (.bool _) => true
  | _ => false

def checkEnabled (source : String) (name : String) : Json → Except Rejection Unit
  | .dict spec => require (isBool ((Json.dict spec).get "enabled"))
      (rejection source ("channels." ++ name ++ ".enabled must be a boolean."))
  | _ => .error (rejection source ("channels." ++ name ++ " must be a mapping."))

def isText : Json → Bool
  | .text _ => true
  | _ => false

def isTexts : Json → Bool
  | .list items => items.all isText
  | _ => false

/-- The check of a value, where it is there. -/
def ifPresent (check : Json → Except Rejection Unit) : Option Json → Except Rejection Unit
  | some value => check value
  | none => .ok ()

def checkAddresses (source : String) (groups : List (String × Json)) (name : String) (spec : Json) :
    Except Rejection Unit := do
  ifPresent (checkRecipients source groups ("channels." ++ name ++ ".recipients")) (spec.get "recipients")
  ifPresent (checkWebhookUrl tools source ("channels." ++ name ++ ".default_url")) (spec.get "default_url")

def checkDefault (source : String) (known : List String) (entry : String × Json) : Except Rejection Unit := do
  require (riskBands.contains entry.1) (rejection source ("triggers.defaults has unknown band '" ++ entry.1 ++
    "' (valid: " ++ sortedTexts tools riskBands ++ ")."))
  checkChannelList tools source known ("triggers.defaults." ++ entry.1) entry.2

def checkOverrides (source : String) (known : List String) (groups : List (String × Json)) (ref : String) :
    Option Json → Except Rejection Unit
  | none | some .null => .ok ()
  | some overrides => do
      let overrides ← mapping (rejection source (ref ++ ".recipients must be a mapping of channel -> list.")) overrides
      each (fun entry => do
        require (known.contains entry.1)
          (rejection source (ref ++ ".recipients references unknown channel '" ++ entry.1 ++ "'."))
        checkRecipients source groups (ref ++ ".recipients." ++ entry.1) entry.2) overrides

def checkRule (source : String) (known : List String) (groups : List (String × Json)) (indexed : Json × Nat) :
    Except Rejection Unit := do
  let ref := "triggers.rules[" ++ toString indexed.2 ++ "]"
  let entries ← mapping (rejection source (ref ++ " must be a mapping.")) indexed.1
  let rule := Json.dict entries
  let band := (rule.get "band").getD .null
  requireIn riskBands band (rejection source (ref ++ ".band is missing or unknown ('" ++ tools.str band ++ "')."))
  let malformed := rejection source (ref ++ ".attack_classes must be a non-empty list.")
  let classes ← sequence malformed ((rule.get "attack_classes").getD .null)
  require (!classes.isEmpty) malformed
  each (fun name => requireIn attackClasses name (rejection source (ref ++ ".attack_classes has unknown class '" ++
    tools.str name ++ "' (valid: " ++ sortedTexts tools attackClasses ++ ")."))) classes
  checkChannelList tools source known (ref ++ ".channels") ((rule.get "channels").getD (.list []))
  checkOverrides source known groups ref (rule.get "recipients")
  ifPresent (checkWebhookUrl tools source (ref ++ ".webhook_url")) (rule.get "webhook_url")

/-- Whether the value equals the integer 1. -/
def isOne : Json → Bool
  | .int value => value = 1
  | .float shown => shown = "1.0"
  | .bool value => value
  | _ => false

def isPositiveInt : Json → Bool
  | .int value => 0 < value
  | _ => false

def checkReportClasses (source : String) (classes : Json) : Except Rejection Unit :=
  match classes with
  | .text "all" => .ok ()
  | _ => do
      let malformed := rejection source "periodic_report.attack_classes must be 'all' or a list of class names."
      let names ← sequence malformed classes
      require (names.all isText) malformed
      each (fun name => requireIn attackClasses name (rejection source
        ("periodic_report.attack_classes has unknown class '" ++ tools.str name ++ "' (valid: " ++
          sortedTexts tools attackClasses ++ ")."))) names

def checkReport (source : String) (known : List String) (groups : List (String × Json)) :
    Option Json → Except Rejection Unit
  | none | some .null => .ok ()
  | some report => do
      let report := Json.dict (← mapping (rejection source "'periodic_report' must be a mapping.") report)
      require (isBool (some ((report.get "enabled").getD (.bool false))))
        (rejection source "periodic_report.enabled must be a boolean.")
      let frequency := (report.get "frequency").getD (.text "weekly")
      requireIn frequencies frequency (rejection source ("periodic_report.frequency must be one of " ++
        sortedTexts tools frequencies ++ " (got " ++ tools.repr frequency ++ ")."))
      require (isPositiveInt ((report.get "window_days").getD (.int 7)))
        (rejection source "periodic_report.window_days must be a positive integer.")
      checkChannelList tools source known "periodic_report.channels" ((report.get "channels").getD (.list []))
      ifPresent (checkRecipients source groups "periodic_report.recipients") (report.get "recipients")
      checkReportClasses tools source ((report.get "attack_classes").getD (.text "all"))
      let minBand := (report.get "min_band").getD (.text "Moderate")
      requireIn riskBands minBand (rejection source ("periodic_report.min_band must be one of " ++
        sortedTexts tools riskBands ++ " (got " ++ tools.repr minBand ++ ")."))

/-- `_validate`. -/
def validate (source : String) (data : Json) : Except Rejection Unit := do
  rejectSecretKeys tools source "config" data
  let data := Json.dict (← mapping .attributeError data)
  let version := (data.get "version").getD (.int 1)
  require (isOne version) (rejection source ("unsupported config version " ++ tools.repr version ++
    " (this build understands version 1)."))
  let malformed := Rejection.runtimeError (source ++ " must contain a non-empty 'channels' mapping.")
  let channels ← mapping malformed ((data.get "channels").getD .null)
  require (!channels.isEmpty) malformed
  each (fun entry => checkEnabled source entry.1 entry.2) channels
  let groups ← mapping (rejection source "'groups' must be a mapping if present.")
    (orElse (data.get "groups") (.dict []))
  each (fun entry => require (isTexts entry.2)
    (rejection source ("groups." ++ entry.1 ++ " must be a list of strings."))) groups
  each (fun entry => checkAddresses tools source groups entry.1 entry.2) channels
  let known := channels.map Prod.fst
  let triggers := Json.dict (← mapping (.runtimeError (source ++ " must contain a 'triggers' mapping."))
    ((data.get "triggers").getD .null))
  let defaults ← mapping (rejection source "triggers.defaults must be a mapping.")
    ((triggers.get "defaults").getD .null)
  each (checkDefault tools source known) defaults
  let rules ← sequence (rejection source "triggers.rules must be a list.") (orElse (triggers.get "rules") (.list []))
  each (checkRule tools source known groups) rules.zipIdx
  checkReport tools source known groups (data.get "periodic_report")

/-! The readers. -/

/-- `node.get(key, default)`. -/
def field (key : String) (default : Json) : Json → Option Json
  | .dict entries => some (((Json.dict entries).get key).getD default)
  | _ => none

/-- `node.get(key)` for a key that may be of any type. -/
def lookup (node : Json) : Json → Option (Option Json)
  | .text key => match node with
      | .dict _ => some (node.get key)
      | _ => none
  | .list _ | .dict _ => none
  | _ => match node with
      | .dict _ => some none
      | _ => none

/-- What a loop runs through. -/
def elements : Json → Option (List Json)
  | .list items => some items
  | .dict entries => some (entries.map fun entry => .text entry.1)
  | .text value => some (value.toList.map fun char => .text (String.ofList [char]))
  | _ => none

/-- `item in container`. -/
def contains (item : String) : Json → Option Bool
  | .list items => some (items.any (tools.same (.text item)))
  | .dict entries => some ((entries.map Prod.fst).contains item)
  | .text value => some (value.toList.tails.any item.toList.isPrefixOf)
  | _ => none

def hashable : Json → Bool
  | .list _ | .dict _ => false
  | _ => true

/-- The members in order, each where it first stands; a set holds those seen. -/
def distinct {α : Type} (same : α → α → Bool) (members : List α) : List α :=
  members.foldl (fun out member => if out.any (same member) then out else out ++ [member]) []

def expand (groups : Json) : Json → Option (List Json)
  | .text recipient => match groupAlias recipient with
      | some group => do elements (← field group (.list []) groups)
      | none => some [.text recipient]
  | _ => none

/-- `resolve_recipients`. -/
def resolveRecipients (doc recipients : Json) : Option (List Json) := do
  let groups := orElse (some (← field "groups" (.dict []) doc)) (.dict [])
  let members ← (← elements (orElse (some recipients) (.list []))).mapM (expand groups)
  if members.flatten.all hashable then some (distinct tools.same members.flatten) else none

def channelsConfig : Json → Option Json := field "channels" (.dict [])

def triggersConfig : Json → Option Json := field "triggers" (.dict [])

/-- `channel_enabled`. -/
def channelEnabled (doc name : Json) : Option Bool := do
  match ← lookup (← channelsConfig doc) name with
  | none => some false
  | some spec => if spec.truthy then (← field "enabled" .null spec).truthy else some false

/-- `channel_recipients`. -/
def channelRecipients (doc name : Json) : Option (List Json) := do
  let spec := orElse (← lookup (← channelsConfig doc) name) (.dict [])
  resolveRecipients tools doc (← field "recipients" (.list []) spec)

/-- `webhook_default_url() or None`. -/
def webhookDefaultUrl (doc : Json) : Option (Option Json) := do
  let spec := orElse (some (← field "webhook" .null (← channelsConfig doc))) (.dict [])
  let url := orElse (some (← field "default_url" (.text "") spec)) (.text "")
  some (if url.truthy then some url else none)

/-- `_match_rule`: the last that matches. -/
def matchRule (band attackClass : String) : Option Json → List Json → Option (Option Json)
  | matched, [] => some matched
  | matched, rule :: rest => do
      let sameBand := tools.same (← field "band" .null rule) (.text band)
      let classes ← field "attack_classes" .null rule
      let fits ← (if sameBand then contains tools attackClass (orElse (some classes) (.list [])) else some false)
      matchRule band attackClass (if fits then some rule else matched) rest

/-- `_selection`. -/
def selection (doc : Json) (band attackClass : String) : Option (Option Json × List Json) := do
  let triggers ← triggersConfig doc
  let rules ← elements (orElse (some (← field "rules" .null triggers)) (.list []))
  let rule ← matchRule tools band attackClass none rules
  let names ← match rule with
    | some rule => field "channels" .null rule
    | none => do field band .null (orElse (some (← field "defaults" .null triggers)) (.dict []))
  some (rule, ← elements (orElse (some names) (.list [])))

/-- `selected_channels`. -/
def selectedChannels (doc : Json) (band attackClass : String) : Option (List Json) := do
  some (← selection tools doc band attackClass).2

/-- `_resolve_recipients`. -/
def ruleRecipients (doc channel : Json) : Option Json → Option (List Json)
  | none => channelRecipients tools doc channel
  | some rule => do
      match ← lookup (orElse (some (← field "recipients" .null rule)) (.dict [])) channel with
      | none | some .null => channelRecipients tools doc channel
      | some override => resolveRecipients tools doc override

/-- `_resolve_webhook_url`. -/
def ruleWebhookUrl (doc channel : Json) (rule : Option Json) : Option (Option Json) :=
  if tools.same channel (.text "webhook") then
    match rule with
    | none => webhookDefaultUrl doc
    | some rule => do
        let url ← field "webhook_url" .null rule
        if url.truthy then some (some url) else webhookDefaultUrl doc
  else some none

/-- `Dispatch`. -/
structure Dispatch (Name Address Url : Type) where
  channel : Name
  recipients : List Address
  webhookUrl : Option Url
deriving DecidableEq, Repr

abbrev RawDispatch := Dispatch Json Json Json

/-- What is sent on one selected channel: nothing where there is nowhere to send it. -/
def dispatchOn (doc : Json) (rule : Option Json) (name : Json) : Option (Option RawDispatch) := do
  if ← channelEnabled doc name then
    let recipients ← ruleRecipients tools doc name rule
    let webhookUrl ← ruleWebhookUrl tools doc name rule
    if recipients.isEmpty && webhookUrl.isNone then some none
    else some (some { channel := name, recipients, webhookUrl })
  else some none

/-- `resolve_dispatch`. -/
def resolveDispatch (doc : Json) (band attackClass : String) : Option (List RawDispatch) := do
  let (rule, names) ← selection tools doc band attackClass
  some (← names.mapM (dispatchOn tools doc rule)).reduceOption

/-- `periodic_report_config`: the stored entries stand before the defaults they replace. -/
def periodicReportConfig (doc : Json) : Option Json := do
  match orElse (some (← field "periodic_report" .null doc)) (.dict []) with
  | .dict entries => some (.dict (entries ++ reportDefaults))
  | _ => none

def reportDispatchOn (doc recipients name : Json) : Option (Option RawDispatch) := do
  if ← channelEnabled doc name then
    let isWebhook := tools.same name (.text "webhook")
    let webhookUrl ← (if isWebhook then webhookDefaultUrl doc else some none)
    let recipients ← (if isWebhook then some []
      else if recipients.truthy then resolveRecipients tools doc recipients
      else channelRecipients tools doc name)
    if recipients.isEmpty && webhookUrl.isNone then some none
    else some (some { channel := name, recipients, webhookUrl })
  else some none

/-- `report_dispatches(periodic_report_config())`. -/
def reportDispatches (doc : Json) : Option (List RawDispatch) := do
  let cfg ← periodicReportConfig doc
  let recipients := orElse (some (← field "recipients" .null cfg)) (.list [])
  let names ← elements (← field "channels" (.list []) cfg)
  some (← names.mapM (reportDispatchOn tools doc recipients)).reduceOption

end

end TransactionMonitoring.NotificationConfig
