import TransactionMonitoring.NotificationGaps

/-! The notification document over whole runs of the service.

The table holds one document, the process one cached copy.  A request checks a document, lints it
and writes it; a refresh reads the table, checks what it finds and only then replaces the copy.
Requests and refreshes interleave, and something else may write the table.  Whatever happens,
the copy that the scoring thread reads is one that passed the check, so an alert is never lost to
an exception there.
-/
namespace TransactionMonitoring.NotificationConfig
open Alerts Checks

/-- A key of the value, at any depth. -/
inductive KeyIn (key : String) : Json → Prop where
  | here {entries : List (String × Json)} {value : Json} (member : (key, value) ∈ entries) : KeyIn key (.dict entries)
  | entry {entries : List (String × Json)} {entry : String × Json} (member : entry ∈ entries)
      (inside : KeyIn key entry.2) : KeyIn key (.dict entries)
  | item {items : List Json} {item : Json} (member : item ∈ items) (inside : KeyIn key item) : KeyIn key (.list items)

/-- The table and the process. -/
structure Service where
  stored : Option Json := none
  cache : Option Json := none

/-- What a request is answered. -/
inductive Reply where
  | ok (warnings : List Warning)
  | unprocessable (detail : String)
  | failed
deriving DecidableEq, Repr

inductive Event where
  /-- A request to store a document, up to its write. -/
  | put (doc : Json)
  /-- `refresh_from_db`, at startup or after a write. -/
  | refresh
  /-- Another writer of the table. -/
  | written (doc : Json)

/-- `load`. -/
def Service.load (service : Service) : Json := service.cache.getD defaultConfig

section
variable (tools : Tools)

/-- `put_config`, up to its write. -/
def putConfig (service : Service) (doc : Json) : Service × Reply :=
  match validate tools "notification config" doc with
  | .error (.runtimeError detail) => (service, .unprocessable detail)
  | .error _ => (service, .failed)
  | .ok () => match deliverabilityWarnings tools doc with
      | none => (service, .failed)
      | some warnings => ({ service with stored := some doc }, .ok warnings)

/-- `refresh_from_db`: the first one seeds the table. -/
def refreshFromDb (service : Service) : Service :=
  let doc := service.stored.getD defaultConfig
  let seeded := { service with stored := some doc }
  match validate tools "notification config" doc with
  | .error _ => seeded
  | .ok () => { seeded with cache := some doc }

def step (service : Service) : Event → Service
  | .put doc => (putConfig tools service doc).1
  | .refresh => refreshFromDb tools service
  | .written doc => { service with stored := some doc }

/-- The service after the events, from an empty table and a fresh process. -/
def after (events : List Event) : Service := events.foldl (step tools) {}

end

/-- The instruction has somewhere to go, names nobody twice, and posts to no address it may not. -/
structure Dispatch.Sound (tools : Tools) (document : Document) (dispatch : Dispatch String String String) : Prop where
  enabled : document.enabled dispatch.channel = true
  destination : dispatch.recipients ≠ [] ∨ dispatch.webhookUrl ≠ none
  recipients : dispatch.recipients.Nodup
  url : ∀ url ∈ dispatch.webhookUrl, dispatch.channel = "webhook" ∧ Allowed tools url

namespace Document
variable {tools : Tools} {document : Document} {name : String} {recipients : List String} {url : Option String}
  {dispatch : Dispatch String String String}

theorem dispatchTo_eq_some_iff : document.dispatchTo name recipients url = some dispatch ↔
    document.enabled name = true ∧ (recipients ≠ [] ∨ url ≠ none) ∧
      dispatch = { channel := name, recipients := recipients, webhookUrl := url } := by
  rw [dispatchTo]
  split
  · next sends =>
    obtain ⟨on, destination⟩ := sends
    rw [not_and_or] at destination
    constructor
    · rintro ⟨⟩
      exact ⟨on, destination, rfl⟩
    · rintro ⟨-, -, rfl⟩
      rfl
  · next drops =>
    constructor
    · intro sends
      cases sends
    · rintro ⟨on, destination, -⟩
      exact absurd ⟨on, not_and_or.mpr destination⟩ drops

theorem nodup_resolve : (document.resolve recipients).Nodup := nodup_distinct

theorem nodup_recipientsOn {rule : Option Rule} : (document.recipientsOn rule name).Nodup := by
  rw [recipientsOn]
  split
  · exact nodup_resolve
  · exact nodup_resolve

theorem allowed_of_nonempty {found : Option String} (valid : ∀ url ∈ found, url = "" ∨ Allowed tools url) {url : String}
    (held : nonempty found = some url) : Allowed tools url := by
  obtain ⟨same, notEmpty⟩ := Option.filter_eq_some_iff.mp held
  obtain empty | allowed := valid url same
  · exact absurd empty (by simpa using notEmpty)
  · exact allowed

theorem Valid.allowed_defaultUrl (valid : Document.Valid tools document) {url : String}
    (held : document.defaultUrl = some url) : Allowed tools url := by
  refine allowed_of_nonempty ?_ held
  intro url found
  obtain ⟨channel, isChannel, own⟩ := Option.bind_eq_some_iff.mp found
  exact (valid.channel _ (mem_of_valueOf isChannel)).defaultUrl url own

theorem Valid.allowed_urlOn (valid : Document.Valid tools document) {rule : Option Rule}
    (listed : ∀ found ∈ rule, found ∈ document.rules) {url : String} (held : document.urlOn rule name = some url) :
    name = "webhook" ∧ Allowed tools url := by
  rw [urlOn] at held
  split at held
  · next webhook =>
    refine ⟨webhook, ?_⟩
    obtain own | ⟨-, default⟩ := Option.or_eq_some_iff.mp held
    · refine allowed_of_nonempty ?_ own
      intro url found
      obtain ⟨rule, isRule, same⟩ := Option.bind_eq_some_iff.mp found
      exact (valid.rule rule (listed rule isRule)).webhookUrl url same
    · exact valid.allowed_defaultUrl default
  · cases held

theorem Valid.sound (valid : Document.Valid tools document) {band attackClass : String} :
    ∀ dispatch ∈ document.dispatches band attackClass, Dispatch.Sound tools document dispatch := by
  intro dispatch member
  obtain ⟨name, -, sends⟩ := List.mem_filterMap.mp member
  obtain ⟨on, destination, rfl⟩ := dispatchTo_eq_some_iff.mp sends
  exact ⟨on, destination, nodup_recipientsOn, fun url held =>
    valid.allowed_urlOn (fun rule found => mem_rules_of_ruleFor found) held⟩

theorem Valid.sound_report (valid : Document.Valid tools document) :
    ∀ dispatch ∈ document.reportDispatches, Dispatch.Sound tools document dispatch := by
  intro dispatch member
  obtain ⟨name, -, sends⟩ := List.mem_filterMap.mp member
  obtain ⟨on, destination, rfl⟩ := dispatchTo_eq_some_iff.mp sends
  refine ⟨on, destination, ?_, ?_⟩
  · dsimp only
    split
    · exact List.nodup_nil
    · split
      · exact nodup_resolve
      · exact nodup_resolve
  · intro url held
    dsimp only at held ⊢
    split at held
    · next webhook => exact ⟨webhook, valid.allowed_defaultUrl held⟩
    · cases held

/-- The instructions follow the names they are for, in their order. -/
theorem sublist_of_named {send : String → Option (Dispatch String String String)}
    (named : ∀ {name dispatch}, send name = some dispatch → dispatch.channel = name) (names : List String) :
    ((names.filterMap send).map Dispatch.channel).Sublist names := by
  induction names with
  | nil => exact List.Sublist.refl []
  | cons name rest ih =>
    cases sends : send name with
    | none =>
      rw [List.filterMap_cons_none sends]
      exact ih.cons name
    | some dispatch =>
      rw [List.filterMap_cons_some sends, List.map_cons, named sends]
      exact ih.cons_cons name

theorem dispatches_sublist {band attackClass : String} :
    ((document.dispatches band attackClass).map Dispatch.channel).Sublist (document.selected band attackClass) := by
  refine sublist_of_named ?_ _
  intro name dispatch sends
  obtain ⟨-, -, rfl⟩ := dispatchTo_eq_some_iff.mp sends
  rfl

theorem reportDispatches_sublist :
    (document.reportDispatches.map Dispatch.channel).Sublist document.reportChannels := by
  refine sublist_of_named ?_ _
  intro name dispatch sends
  obtain ⟨-, -, rfl⟩ := dispatchTo_eq_some_iff.mp sends
  rfl

end Document

section
variable {tools : Tools} {source : String}

mutual

theorem rejectSecretKeys_eq_ok_iff (path : String) : (node : Json) → (rejectSecretKeys tools source path node = .ok () ↔
    ∀ key, KeyIn key node → looksLikeSecret tools key = false)
  | .dict entries => by
    rw [rejectSecretKeys, rejectSecretEntries_eq_ok_iff path entries]
    constructor
    · rintro open_ key (member | ⟨member, inside⟩)
      · exact (open_ _ member).1
      · exact (open_ _ member).2 key inside
    · intro open_ entry member
      exact ⟨open_ _ (.here member), fun key inside => open_ key (.entry member inside)⟩
  | .list items => by
    rw [rejectSecretKeys, rejectSecretItems_eq_ok_iff path 0 items]
    constructor
    · rintro open_ key (_ | _ | ⟨member, inside⟩)
      exact open_ _ member key inside
    · exact fun open_ item member key inside => open_ key (.item member inside)
  | .null | .bool _ | .int _ | .float _ | .text _ => by
    refine iff_of_true rfl ?_
    rintro key ⟨⟩

theorem rejectSecretEntries_eq_ok_iff (path : String) : (entries : List (String × Json)) →
    (rejectSecretEntries tools source path entries = .ok () ↔ ∀ entry ∈ entries,
      looksLikeSecret tools entry.1 = false ∧ ∀ key, KeyIn key entry.2 → looksLikeSecret tools key = false)
  | [] => iff_of_true rfl nofun
  | (key, value) :: rest => by
    rw [rejectSecretEntries, then_eq_ok_iff, then_eq_ok_iff, require_eq_ok_iff,
      rejectSecretKeys_eq_ok_iff _ value, rejectSecretEntries_eq_ok_iff path rest, List.forall_mem_cons, and_assoc,
      Bool.not_eq_true']

theorem rejectSecretItems_eq_ok_iff (path : String) (index : Nat) : (items : List Json) →
    (rejectSecretItems tools source path index items = .ok () ↔ ∀ item ∈ items,
      ∀ key, KeyIn key item → looksLikeSecret tools key = false)
  | [] => iff_of_true rfl nofun
  | item :: rest => by
    rw [rejectSecretItems, then_eq_ok_iff, rejectSecretKeys_eq_ok_iff _ item,
      rejectSecretItems_eq_ok_iff path (index + 1) rest, List.forall_mem_cons]

end

theorem validate_noSecrets {data : Json} (accepts : validate tools source data = .ok ()) :
    ∀ key, KeyIn key data → looksLikeSecret tools key = false := by
  rw [validate, then_eq_ok_iff] at accepts
  exact (rejectSecretKeys_eq_ok_iff _ data).mp accepts.1

end

/-- A document that the readers can read, whose parts are valid. -/
def Usable (tools : Tools) (doc : Json) : Prop := Document.Reads doc ∧ Document.Valid tools (.ofJson doc)

theorem usable_defaultConfig {tools : Tools} : Usable tools defaultConfig := by
  constructor
  · refine ⟨⟨_, rfl⟩, rfl, ?_, rfl, ?_, ⟨_, rfl⟩, rfl, ?_, rfl, nofun, ⟨_, rfl, rfl, rfl⟩⟩
    · exact List.forall_mem_cons.mpr ⟨⟨⟨_, rfl⟩, rfl, rfl, rfl⟩,
        List.forall_mem_cons.mpr ⟨⟨⟨_, rfl⟩, rfl, rfl, rfl⟩, nofun⟩⟩
    · exact List.forall_mem_cons.mpr ⟨rfl, nofun⟩
    · exact List.forall_mem_cons.mpr ⟨rfl, List.forall_mem_cons.mpr ⟨rfl, List.forall_mem_cons.mpr ⟨rfl,
        List.forall_mem_cons.mpr ⟨rfl, nofun⟩⟩⟩⟩
  · constructor
    case channels => exact nofun
    case channel =>
      refine List.forall_mem_cons.mpr ⟨⟨?_, nofun⟩, List.forall_mem_cons.mpr ⟨⟨nofun, ?_⟩, nofun⟩⟩
      · rintro names ⟨⟩ recipient member group isGroup
        rw [List.mem_singleton.mp member] at isGroup
        cases isGroup
      · rintro url ⟨⟩
        exact .inl rfl
    case defaults => decide
    case rule => exact nofun

/-- What a process may read: the copy passed the check, and the table may hold anything. -/
def Checked (tools : Tools) (service : Service) : Prop :=
  ∀ doc ∈ service.cache, validate tools "notification config" doc = .ok ()

theorem checked_step {tools : Tools} {service : Service} (checked : Checked tools service) (event : Event) :
    Checked tools (step tools service event) := by
  cases event with
  | put doc =>
    have same : (putConfig tools service doc).1.cache = service.cache := by
      rw [putConfig]
      split
      · rfl
      · rfl
      · split
        · rfl
        · rfl
    rwa [step, Checked, same]
  | refresh =>
    rw [step, Checked, refreshFromDb]
    split
    · exact checked
    · next accepts =>
      rintro doc ⟨⟩
      exact accepts
  | written doc => exact checked

theorem usable_load {tools : Tools} {service : Service} (checked : Checked tools service) :
    Usable tools service.load := by
  rw [Service.load]
  cases cached : service.cache with
  | none => exact usable_defaultConfig
  | some doc => exact validate_ok (checked doc cached)

/-- In every run of requests, refreshes and foreign writes, reading the copy never raises: an alert
resolves to sound instructions along the channels selected for it, the periodic report along its own, and
no key of a copy at any depth looks like a secret. -/
theorem alerts_resolve (tools : Tools) (events : List Event) :
    (∀ doc ∈ (after tools events).cache, ∀ key, KeyIn key doc → looksLikeSecret tools key = false) ∧
    (∀ band attackClass, ∃ (names : List String) (sent : List (Dispatch String String String)),
      selectedChannels tools (after tools events).load band attackClass = some (names.map .text) ∧
      resolveDispatch tools (after tools events).load band attackClass = some (sent.map Dispatch.raw) ∧
      (sent.map Dispatch.channel).Sublist names ∧
      ∀ dispatch ∈ sent, Dispatch.Sound tools (.ofJson (after tools events).load) dispatch) ∧
    ∃ sent : List (Dispatch String String String),
      reportDispatches tools (after tools events).load = some (sent.map Dispatch.raw) ∧
      (sent.map Dispatch.channel).Sublist (Document.ofJson (after tools events).load).reportChannels ∧
      ∀ dispatch ∈ sent, Dispatch.Sound tools (.ofJson (after tools events).load) dispatch := by
  have checked : Checked tools (after tools events) :=
    List.foldlRecOn events (step tools) (fun _ cached => nomatch cached) fun _ held event _ => checked_step held event
  obtain ⟨reads, valid⟩ := usable_load checked
  refine ⟨fun doc cached => validate_noSecrets (checked doc cached), fun band attackClass => ?_,
    ⟨_, reportDispatches_eq reads, Document.reportDispatches_sublist, valid.sound_report⟩⟩
  obtain ⟨rule, selects, -, -⟩ := @selection_eq tools _ reads band attackClass
  refine ⟨_, _, ?_, resolveDispatch_eq reads band attackClass, Document.dispatches_sublist, valid.sound⟩
  rw [selectedChannels, selects]
  rfl

/-- Tools for documents of ASCII texts that hold no URL. -/
def plainTools : Tools where
  str value := textOf value
  repr value := textOf value
  lower text := String.ofList (text.toList.map Char.toLower)
  same one other := match one, other with
    | .text one, .text other => decide (one = other)
    | _, _ => false
  same_text _ _ := rfl
  hostname _ := none
  ipAddress _ := none
  webhookAllowInternal := false

/-- A document that routes critical alerts to nobody. -/
def nobodyListens : Json :=
  .dict [("channels", .dict [("email", .dict [("enabled", .bool true), ("recipients", .list [])])]),
    ("triggers", .dict [("defaults", .dict [("Critical", .list [.text "email"])])])]

/-- The lint explains every gap of a document that passes the check: a channel that is selected for an
alert gets an instruction, or a warning says that its alerts are not delivered. -/
theorem gaps_explained {tools : Tools} {source : String} {doc : Json} (accepts : validate tools source doc = .ok ()) :
    ∃ warnings, deliverabilityWarnings tools doc = some warnings ∧
      ∀ band attackClass, ∃ (names : List String) (sent : List (Dispatch String String String)),
        selectedChannels tools doc band attackClass = some (names.map .text) ∧
        resolveDispatch tools doc band attackClass = some (sent.map Dispatch.raw) ∧
        ∀ name ∈ names, (∃ dispatch ∈ sent, dispatch.channel = name) ∨
          ∃ warning ∈ warnings, warning.concerns = some name := by
  obtain ⟨reads, valid⟩ := validate_ok accepts
  refine ⟨_, deliverabilityWarnings_eq reads, fun band attackClass => ?_⟩
  obtain ⟨rule, selects, -, -⟩ := @selection_eq tools _ reads band attackClass
  refine ⟨_, _, by rw [selectedChannels, selects]; rfl, resolveDispatch_eq reads band attackClass, ?_⟩
  intro name selected
  by_cases sent : ∃ dispatch ∈ (Document.ofJson doc).dispatches band attackClass, dispatch.channel = name
  · exact .inl sent
  · exact .inr (Document.gap valid selected fun dispatch member same => sent ⟨dispatch, member, same⟩)

theorem gaps_explained_where_nobody_listens :
    ∃ warnings, deliverabilityWarnings plainTools nobodyListens = some warnings ∧
      ∀ band attackClass, ∃ (names : List String) (sent : List (Dispatch String String String)),
        selectedChannels plainTools nobodyListens band attackClass = some (names.map .text) ∧
        resolveDispatch plainTools nobodyListens band attackClass = some (sent.map Dispatch.raw) ∧
        ∀ name ∈ names, (∃ dispatch ∈ sent, dispatch.channel = name) ∨
          ∃ warning ∈ warnings, warning.concerns = some name :=
  @gaps_explained plainTools "notification config" nobodyListens rfl

/-- The settings page and the server find the same gaps of a document that passes the check, in whatever
order the page lists its channels, where its rules are a list and no channel is named like a member of
every object. -/
theorem lints_agree {tools : Tools} {source : String} {doc : Json} {items : List Json} {keys : List String}
    (accepts : validate tools source doc = .ok ())
    (rules : ((doc.get "triggers").getD .null).get "rules" = some (.list items))
    (own : ∀ name ∈ keys, name ∉ objectMembers) (separate : (Document.ofJson doc).known.Nodup)
    (listed : keys.Perm (Document.ofJson doc).known) :
    ∃ found warnings, configWarnings doc keys = some found ∧ deliverabilityWarnings tools doc = some warnings ∧
      found.Perm warnings := by
  obtain ⟨reads, valid⟩ := validate_ok accepts
  exact ⟨_, _, configWarnings_eq reads rules own, deliverabilityWarnings_eq reads,
    Document.pageWarnings_perm valid separate listed⟩

theorem lints_agree_on_defaults : ∃ found warnings, configWarnings defaultConfig ["webhook", "email"] = some found ∧
    deliverabilityWarnings plainTools defaultConfig = some warnings ∧ found.Perm warnings :=
  @lints_agree plainTools "notification config" defaultConfig [] ["webhook", "email"] rfl rfl (by decide) (by decide)
    (by decide)

/-- The check lets the rules be left out, and the page's lint throws. -/
example : validate plainTools "notification config" nobodyListens = .ok () ∧
    configWarnings nobodyListens ["email"] = none := ⟨rfl, rfl⟩

end TransactionMonitoring.NotificationConfig
