import TransactionMonitoring.NotificationDocument

/-! What the readers return on an accepted document.

None of them raises there: each returns what its typed counterpart makes of the parts.
-/
namespace TransactionMonitoring.NotificationConfig
open Alerts Checks

/-- The instruction as the readers build it. -/
def Dispatch.raw (dispatch : Dispatch String String String) : RawDispatch where
  channel := .text dispatch.channel
  recipients := dispatch.recipients.map .text
  webhookUrl := dispatch.webhookUrl.map .text

theorem distinct_map {α β : Type} {same : α → α → Bool} {sameImage : β → β → Bool} {image : α → β}
    (agrees : ∀ one other, sameImage (image one) (image other) = same one other) (members : List α) :
    distinct sameImage (members.map image) = (distinct same members).map image := by
  have run : ∀ out : List α, (members.map image).foldl (fun out member => if out.any (sameImage member) then out
      else out ++ [member]) (out.map image) =
      (members.foldl (fun out member => if out.any (same member) then out else out ++ [member]) out).map image := by
    induction members with
    | nil => exact fun _ => rfl
    | cons member rest ih =>
      intro out
      have seen : (out.map image).any (sameImage (image member)) = out.any (same member) := by
        rw [List.any_map]
        exact congrArg out.any (funext fun _ => agrees _ _)
      rw [List.map_cons, List.foldl_cons, List.foldl_cons, seen, ← ih]
      split
      · rfl
      · rw [List.map_append, List.map_singleton]
  exact run []

section
variable {tools : Tools} {data : Json}

theorem lookup_text {entries : List (String × Json)} {name : String} :
    lookup (.dict entries) (.text name) = some ((Json.dict entries).get name) := rfl

theorem truthy_of_get {node value : Json} {key : String} (found : node.get key = some value) :
    node.truthy = true := by
  match node, found with
  | .dict (_ :: _), _ => rfl

theorem field_of_get {node value default : Json} {key : String} (found : node.get key = some value) :
    field key default node = some value := by
  match node, found with
  | .dict entries, found => rw [field, found, Option.getD_some]

theorem Document.Reads.channelsConfig_eq (reads : Document.Reads data) :
    channelsConfig data = some (.dict (entriesOf ((data.get "channels").getD .null))) := field_of_get reads.channels

theorem Document.channels_ofJson :
    (Document.ofJson data).channels = mapValues Channel.ofJson (entriesOf ((data.get "channels").getD .null)) := rfl

/-- A channel that is found is one that is read. -/
theorem Document.Reads.channel_of_get (reads : Document.Reads data) {name : String} {spec : Json}
    (found : (Json.dict (entriesOf ((data.get "channels").getD .null))).get name = some spec) : Channel.Reads spec :=
  reads.channel _ (Json.mem_of_get found)

theorem channelEnabled_eq (reads : Document.Reads data) (name : String) :
    channelEnabled data (.text name) = some ((Document.ofJson data).enabled name) := by
  rw [channelEnabled, reads.channelsConfig_eq, Option.bind_eq_bind, Option.bind_some, lookup_text, Option.bind_eq_bind,
    Option.bind_some, Document.enabled, Document.channels_ofJson, valueOf_mapValues]
  cases found : (Json.dict (entriesOf ((data.get "channels").getD .null))).get name with
  | none => rfl
  | some spec =>
    have channel := reads.channel_of_get found
    simp only [truthy_of_get channel.enabled, field_of_get channel.enabled, Option.map_some, Option.any_some]
    rfl

theorem groups_eq (reads : Document.Reads data) : ∃ groups, field "groups" (.dict []) data = some groups ∧
    orElse (some groups) (.dict []) = .dict (entriesOf ((data.get "groups").getD .null)) := by
  obtain ⟨entries, rfl⟩ := reads.mapping
  refine ⟨_, rfl, ?_⟩
  rw [← reads.groups]
  cases (Json.dict entries).get "groups" with
  | none => rfl
  | some => rfl

theorem expand_eq (reads : Document.Reads data) (recipient : String) :
    NotificationConfig.expand (.dict (entriesOf ((data.get "groups").getD .null))) (.text recipient) =
      some (((Document.ofJson data).expand recipient).map .text) := by
  rw [NotificationConfig.expand, Document.expand]
  cases groupAlias recipient with
  | none => rfl
  | some group =>
    have members : (Document.ofJson data).groups = mapValues textsOf (entriesOf ((data.get "groups").getD .null)) := rfl
    simp only [field, members, valueOf_mapValues, Option.bind_eq_bind, Option.bind_some]
    cases found : (Json.dict (entriesOf ((data.get "groups").getD .null))).get group with
    | none => rfl
    | some value =>
      have shape : value = texts (textsOf value) := reads.group _ (Json.mem_of_get found)
      rw [Option.getD_some, Option.map_some, Option.getD_some, shape, textsOf_texts]
      rfl

theorem elements_list {items : List Json} : elements (.list items) = some items := rfl

theorem elements_texts {names : List String} : elements (orElse (some (texts names)) (.list [])) =
    some (names.map .text) := by
  cases names with
  | nil => rfl
  | cons => rfl

theorem resolveRecipients_eq (reads : Document.Reads data) (names : List String) :
    resolveRecipients tools data (texts names) = some (((Document.ofJson data).resolve names).map .text) := by
  obtain ⟨groups, isGroups, isDict⟩ := groups_eq reads
  have expands : (names.map Json.text).mapM
      (NotificationConfig.expand (.dict (entriesOf ((data.get "groups").getD .null)))) =
      some (names.map fun name => ((Document.ofJson data).expand name).map .text) := by
    rw [List.mapM_map]
    exact mapM_eq_some fun name _ => expand_eq reads name
  have flat : (names.map fun name => ((Document.ofJson data).expand name).map Json.text).flatten =
      (names.flatMap (Document.ofJson data).expand).map .text := by
    rw [List.map_flatMap, List.flatMap_def]
  have allHashable : ((names.flatMap (Document.ofJson data).expand).map Json.text).all hashable = true :=
    List.all_eq_true.mpr (List.forall_mem_map.mpr fun _ _ => rfl)
  simp only [resolveRecipients, isGroups, isDict, elements_texts, expands, Option.bind_eq_bind, Option.bind_some, flat,
    allHashable, if_true]
  rw [distinct_map tools.same_text, Document.resolve]

theorem channelRecipients_eq (reads : Document.Reads data) (name : String) :
    channelRecipients tools data (.text name) = some (((Document.ofJson data).channelRecipients name).map .text) := by
  simp only [channelRecipients, reads.channelsConfig_eq, lookup_text, Option.bind_eq_bind, Option.bind_some,
    Document.channelRecipients, Document.channels_ofJson, valueOf_mapValues]
  cases found : (Json.dict (entriesOf ((data.get "channels").getD .null))).get name with
  | none => exact resolveRecipients_eq reads []
  | some spec =>
    have channel := reads.channel_of_get found
    obtain ⟨entries, rfl⟩ := channel.mapping
    simp only [orElse, truthy_of_get channel.enabled, if_true, field, channel.recipients, Option.bind_some,
      Option.map_some]
    cases (Channel.ofJson (.dict entries)).recipients with
    | none => exact resolveRecipients_eq reads []
    | some names => exact resolveRecipients_eq reads names

theorem truthy_text {value : String} : (Json.text value).truthy = decide (value ≠ "") := rfl

theorem webhookDefaultUrl_eq (reads : Document.Reads data) :
    webhookDefaultUrl data = some ((Document.ofJson data).defaultUrl.map .text) := by
  simp only [webhookDefaultUrl, reads.channelsConfig_eq, field, Option.bind_eq_bind, Option.bind_some,
    Document.defaultUrl, Document.channels_ofJson, valueOf_mapValues]
  cases found : (Json.dict (entriesOf ((data.get "channels").getD .null))).get "webhook" with
  | none => rfl
  | some spec =>
    have channel := reads.channel_of_get found
    obtain ⟨entries, rfl⟩ := channel.mapping
    simp only [Option.getD_some, orElse, truthy_of_get channel.enabled, if_true, Option.bind_some, channel.defaultUrl,
      Option.map_some]
    cases (Channel.ofJson (.dict entries)).defaultUrl with
    | none => rfl
    | some url =>
      by_cases empty : url = ""
      · subst empty
        rfl
      · simp [Document.nonempty, truthy_text, empty]

theorem contains_texts {item : String} {names : List String} :
    contains tools item (texts names) = some (decide (item ∈ names)) := by
  rw [texts, contains, List.any_map]
  refine congrArg some ?_
  simp [Function.comp_def, tools.same_text, List.any_eq]

/-- The rule fits the band and the class. -/
def Rule.fits (band attackClass : String) (rule : Rule) : Bool := rule.band = band ∧ attackClass ∈ rule.attackClasses

theorem matchRule_eq {band attackClass : String} {rules : List Json} (read : ∀ rule ∈ rules, Rule.Reads rule)
    (matched : Option Json) : matchRule tools band attackClass matched rules =
      some (((rules.filter fun rule => (Rule.ofJson rule).fits band attackClass).getLast?).or matched) := by
  induction rules generalizing matched with
  | nil => rfl
  | cons rule rest ih =>
    have reads := read rule List.mem_cons_self
    have classes : contains tools attackClass (orElse (some (texts (Rule.ofJson rule).attackClasses)) (.list [])) =
        some (decide (attackClass ∈ (Rule.ofJson rule).attackClasses)) := by
      rw [show orElse (some (texts (Rule.ofJson rule).attackClasses)) (.list []) =
        texts (Rule.ofJson rule).attackClasses by cases (Rule.ofJson rule).attackClasses <;> rfl]
      exact contains_texts
    have fits : (if tools.same (.text (Rule.ofJson rule).band) (.text band) then
        contains tools attackClass (orElse (some (texts (Rule.ofJson rule).attackClasses)) (.list []))
      else some false) =
        some ((Rule.ofJson rule).fits band attackClass) := by
      rw [tools.same_text, classes, Rule.fits]
      by_cases same : (Rule.ofJson rule).band = band
      · simp [same]
      · simp [same]
    simp only [matchRule, field_of_get reads.band, field_of_get reads.attackClasses, Option.bind_eq_bind,
      Option.bind_some, fits, ih fun other member => read other (List.mem_cons_of_mem _ member)]
    refine congrArg some ?_
    cases fit : (Rule.ofJson rule).fits band attackClass with
    | false =>
      have unfit : ¬(Rule.ofJson rule).fits band attackClass = true := by simp [fit]
      rw [if_neg Bool.false_ne_true, List.filter_cons, if_neg unfit]
    | true =>
      rw [List.filter_cons, if_pos fit, List.getLast?_cons, if_pos rfl]
      cases (rest.filter _).getLast? with
      | none => rfl
      | some => rfl

theorem Document.Reads.triggersConfig_eq (reads : Document.Reads data) :
    triggersConfig data = some ((data.get "triggers").getD .null) := by
  obtain ⟨entries, found⟩ := reads.triggers
  rw [found]
  exact field_of_get found

theorem orElse_getD_null (value : Option Json) (default : Json) :
    orElse (some (value.getD .null)) default = orElse value default := by
  cases value with
  | none => rfl
  | some => rfl

theorem Document.ruleFor_eq (band attackClass : String) : (Document.ofJson data).ruleFor band attackClass =
    ((itemsOf ((((data.get "triggers").getD .null).get "rules").getD .null)).filter fun rule =>
      (Rule.ofJson rule).fits band attackClass).getLast?.map Rule.ofJson := by
  rw [Document.ruleFor, ← List.getLast?_map]
  exact congrArg List.getLast? List.filter_map

/-- The rule that is matched is the typed one, and the names selected are texts. -/
theorem selection_eq (reads : Document.Reads data) (band attackClass : String) : ∃ rule,
    selection tools data band attackClass =
      some (rule, ((Document.ofJson data).selected band attackClass).map .text) ∧
    rule.map Rule.ofJson = (Document.ofJson data).ruleFor band attackClass ∧ ∀ found ∈ rule, Rule.Reads found := by
  have isTriggers := reads.triggersConfig_eq
  obtain ⟨triggers, found⟩ := reads.triggers
  have isRules := reads.rules
  have isDefaults := reads.defaults
  have read := reads.rule
  have selects := reads.selected
  have ofRule := @Document.ruleFor_eq data band attackClass
  rw [found, Option.getD_some] at isTriggers isRules isDefaults read selects ofRule
  refine ⟨_, ?_, ofRule.symm, fun rule member => read rule (List.mem_filter.mp (List.mem_of_getLast? member)).1⟩
  simp only [selection, isTriggers, field, Option.bind_eq_bind, Option.bind_some, orElse_getD_null, isRules,
    elements_list,
    matchRule_eq read, Option.or_none]
  cases last : ((itemsOf (((Json.dict triggers).get "rules").getD .null)).filter fun rule =>
    (Rule.ofJson rule).fits band attackClass).getLast? with
  | none =>
    rw [last] at ofRule
    have names : (Document.ofJson data).selected band attackClass =
        (((Json.dict (entriesOf (((Json.dict triggers).get "defaults").getD .null))).get band).map
          textsOf).getD [] := by
      rw [Document.selected, ofRule, Option.map_none, ← valueOf_mapValues, Document.ofJson, found, Option.getD_some]
    generalize entriesOf (((Json.dict triggers).get "defaults").getD .null) = defaults at isDefaults selects names
    have isDict : orElse (some (Json.dict defaults)) (.dict []) = .dict defaults := by
      cases defaults with
      | nil => rfl
      | cons => rfl
    simp only [isDefaults, isDict, Option.bind_some, orElse_getD_null, names]
    cases held : (Json.dict defaults).get band with
    | none => rfl
    | some value =>
      have shape : value = texts (textsOf value) := selects _ (Json.mem_of_get held)
      rw [Option.map_some, Option.getD_some, shape, textsOf_texts, elements_texts]
      rfl
  | some rule =>
    have reads := read rule (List.mem_filter.mp (List.mem_of_getLast? last)).1
    rw [last] at ofRule
    have names : (Document.ofJson data).selected band attackClass = (Rule.ofJson rule).channels := by
      rw [Document.selected, ofRule, Option.map_some]
    obtain ⟨entries, rfl⟩ := reads.mapping
    simp only [Option.bind_some, orElse_getD_null, reads.channels, names]
    rw [texts, elements_list]
    rfl

/-- A rule's own recipients, if it is read. -/
theorem ruleRecipients_eq (reads : Document.Reads data) {rule : Option Json} (read : ∀ found ∈ rule, Rule.Reads found)
    (name : String) : ruleRecipients tools data (.text name) rule =
      some (((Document.ofJson data).recipientsOn (rule.map Rule.ofJson) name).map .text) := by
  cases rule with
  | none => exact channelRecipients_eq reads name
  | some rule =>
    have reads_ := read rule rfl
    obtain ⟨entries, rfl⟩ := reads_.mapping
    have own := reads_.recipients
    have ofOwn : (Rule.ofJson (.dict entries)).recipients =
      mapValues textsOf (entriesOf (((Json.dict entries).get "recipients").getD .null)) := rfl
    rw [Document.recipientsOn, Option.map_some, Option.bind_some, ofOwn, valueOf_mapValues]
    simp only [ruleRecipients, field, Option.bind_eq_bind, Option.bind_some, orElse_getD_null, own.1, lookup_text]
    cases held : (Json.dict (entriesOf (((Json.dict entries).get "recipients").getD .null))).get name with
    | none => exact channelRecipients_eq reads name
    | some value =>
      have shape : value = texts (textsOf value) := own.2 _ (Json.mem_of_get held)
      rw [Option.map_some, shape, textsOf_texts]
      exact resolveRecipients_eq reads (textsOf value)

theorem ruleWebhookUrl_eq (reads : Document.Reads data) {rule : Option Json} (read : ∀ found ∈ rule, Rule.Reads found)
    (name : String) : ruleWebhookUrl tools data (.text name) rule =
      some (((Document.ofJson data).urlOn (rule.map Rule.ofJson) name).map .text) := by
  rw [ruleWebhookUrl.eq_def, tools.same_text, Document.urlOn]
  by_cases webhook : name = "webhook"
  · rw [if_pos (by simpa using webhook), if_pos webhook]
    cases rule with
    | none => exact webhookDefaultUrl_eq reads
    | some rule =>
      have reads_ := read rule rfl
      obtain ⟨entries, rfl⟩ := reads_.mapping
      simp only [field, reads_.webhookUrl, Option.bind_eq_bind, Option.bind_some, Option.map_some]
      cases (Rule.ofJson (.dict entries)).webhookUrl with
      | none => exact webhookDefaultUrl_eq reads
      | some url =>
        by_cases empty : url = ""
        · subst empty
          exact webhookDefaultUrl_eq reads
        · simp [Document.nonempty, truthy_text, empty]
  · rw [if_neg (by simpa using webhook), if_neg webhook]
    rfl

theorem dispatchTo_eq (name : String) (recipients : List String) (webhookUrl : Option String) :
    ((Document.ofJson data).dispatchTo name recipients webhookUrl).map Dispatch.raw =
      if (Document.ofJson data).enabled name = true then
        if (recipients.map Json.text).isEmpty && (webhookUrl.map Json.text).isNone then none
        else some { channel := .text name, recipients := recipients.map .text, webhookUrl := webhookUrl.map .text }
      else none := by
  rw [Document.dispatchTo]
  cases (Document.ofJson data).enabled name with
  | false => rfl
  | true =>
    cases recipients with
    | nil =>
      cases webhookUrl with
      | none => rfl
      | some => rfl
    | cons => rfl

/-- Each name yields what its typed instruction is. -/
theorem mapM_dispatches {send : Json → Option (Option RawDispatch)} {names : List String}
    {typed : String → Option (Dispatch String String String)}
    (sends : ∀ name, send (.text name) = some ((typed name).map Dispatch.raw)) :
    (do some (← (names.map Json.text).mapM send).reduceOption) = some ((names.filterMap typed).map Dispatch.raw) := by
  have all : (names.map Json.text).mapM send = some (names.map fun name => (typed name).map Dispatch.raw) := by
    rw [List.mapM_map]
    exact mapM_eq_some fun name _ => sends name
  have kept : ∀ results : List (Option RawDispatch), results.reduceOption = results.filterMap id := fun _ => rfl
  rw [all, Option.bind_eq_bind, Option.bind_some, kept, List.filterMap_map, List.map_filterMap]
  rfl

/-- On an accepted document the alert path returns, and returns the typed instructions. -/
theorem resolveDispatch_eq (reads : Document.Reads data) (band attackClass : String) :
    resolveDispatch tools data band attackClass =
      some (((Document.ofJson data).dispatches band attackClass).map Dispatch.raw) := by
  obtain ⟨rule, selects, typed, read⟩ := @selection_eq tools data reads band attackClass
  rw [resolveDispatch, selects, Option.bind_eq_bind, Option.bind_some, Document.dispatches, ← typed]
  refine @mapM_dispatches (dispatchOn tools data rule) _ _ fun name => ?_
  simp only [dispatchOn, channelEnabled_eq reads, ruleRecipients_eq reads read, ruleWebhookUrl_eq reads read,
    Option.bind_eq_bind, Option.bind_some, dispatchTo_eq, apply_ite some]

/-- On an accepted document the periodic report's channels resolve, as typed. -/
theorem reportDispatches_eq (reads : Document.Reads data) :
    reportDispatches tools data = some ((Document.ofJson data).reportDispatches.map Dispatch.raw) := by
  obtain ⟨merged, isMerged, isChannels, isRecipients⟩ := reads.report
  have recipients : orElse (some (texts (Document.ofJson data).reportRecipients)) (.list []) =
      texts (Document.ofJson data).reportRecipients := by
    cases (Document.ofJson data).reportRecipients with
    | nil => rfl
    | cons => rfl
  rw [reportDispatches, isMerged, Document.reportDispatches]
  simp only [field_of_get isChannels, field_of_get isRecipients, recipients, Option.bind_eq_bind, Option.bind_some]
  refine @mapM_dispatches (reportDispatchOn tools data (texts (Document.ofJson data).reportRecipients)) _ _
    fun name => ?_
  have truthy : (texts (Document.ofJson data).reportRecipients).truthy =
      decide ((Document.ofJson data).reportRecipients ≠ []) := by
    cases (Document.ofJson data).reportRecipients with
    | nil => rfl
    | cons => rfl
  have url : (if tools.same (.text name) (.text "webhook") = true then webhookDefaultUrl data else some none) =
      some ((if name = "webhook" then (Document.ofJson data).defaultUrl else none).map .text) := by
    rw [tools.same_text]
    by_cases webhook : name = "webhook"
    · simp [webhook, webhookDefaultUrl_eq reads]
    · simp [webhook]
  have sentTo : (if tools.same (.text name) (.text "webhook") = true then some []
      else if (texts (Document.ofJson data).reportRecipients).truthy = true then
        resolveRecipients tools data (texts (Document.ofJson data).reportRecipients)
      else channelRecipients tools data (.text name)) =
      some ((if name = "webhook" then []
        else if (Document.ofJson data).reportRecipients = [] then (Document.ofJson data).channelRecipients name
        else (Document.ofJson data).resolve (Document.ofJson data).reportRecipients).map .text) := by
    rw [tools.same_text, truthy, resolveRecipients_eq reads, channelRecipients_eq reads]
    by_cases webhook : name = "webhook"
    · simp [webhook]
    · by_cases global : (Document.ofJson data).reportRecipients = []
      · simp [webhook, global]
      · simp [webhook, global]
  simp only [reportDispatchOn, channelEnabled_eq reads, url, sentTo, Option.bind_eq_bind, Option.bind_some,
    dispatchTo_eq,
    apply_ite some]

end

end TransactionMonitoring.NotificationConfig
