import TransactionMonitoring.NotificationWarnings
import TransactionMonitoring.Runs

/-! What the notification document promises: sound instructions, and a lint that explains each gap. -/
namespace TransactionMonitoring.NotificationConfig
open Alerts Checks WhiteSpace

section
variable {α : Type} [DecidableEq α] {members : List α} {member : α}

theorem distinct_spec (members out : List α) (separate : out.Nodup) :
    (members.foldl (fun out member => if out.any (fun other => decide (member = other)) then out else out ++ [member])
      out).Nodup ∧ ∀ member, member ∈ members.foldl
        (fun out member => if out.any (fun other => decide (member = other)) then out else out ++ [member]) out ↔
        member ∈ out ∨ member ∈ members := by
  induction members generalizing out with
  | nil => simpa using separate
  | cons first rest ih =>
    rw [List.foldl_cons]
    by_cases seen : first ∈ out
    · have found : out.any (fun other => decide (first = other)) = true := by simpa using seen
      rw [if_pos found]
      refine ⟨(ih out separate).1, fun member => ?_⟩
      rw [(ih out separate).2, List.mem_cons]
      constructor
      · exact Or.imp_right .inr
      · rintro (before | rfl | later)
        · exact .inl before
        · exact .inl seen
        · exact .inr later
    · have fresh : ¬out.any (fun other => decide (first = other)) = true := by simpa using seen
      rw [if_neg fresh]
      have still : (out ++ [first]).Nodup := by
        rw [List.nodup_append]
        refine ⟨separate, List.nodup_singleton first, ?_⟩
        intro other before member last same
        rw [List.mem_singleton.mp last] at same
        exact seen (same ▸ before)
      refine ⟨(ih _ still).1, fun member => ?_⟩
      rw [(ih _ still).2, List.mem_append, List.mem_singleton, List.mem_cons, or_assoc]

theorem nodup_distinct : (distinct (fun one other => decide (one = other)) members).Nodup :=
  (distinct_spec members [] List.nodup_nil).1

theorem mem_distinct : member ∈ distinct (fun one other => decide (one = other)) members ↔ member ∈ members := by
  have mem := (distinct_spec members [] List.nodup_nil).2 member
  simpa [distinct] using mem

end

theorem mem_of_valueOf {α : Type} {key : String} {value : α} {entries : List (String × α)}
    (held : valueOf key entries = some value) : (key, value) ∈ entries := by
  obtain ⟨⟨name, _⟩, found, rfl⟩ := Option.map_eq_some_iff.mp held
  have same : name = key := by simpa using List.find?_some found
  subst same
  exact List.mem_of_find?_eq_some found

namespace Document
variable {tools : Tools} {document : Document} {band attackClass name : String}

theorem resolve_eq_nil_iff {recipients : List String} :
    document.resolve recipients = [] ↔ document.count recipients = 0 := by
  have counts : document.count recipients = (recipients.flatMap document.expand).length := by
    rw [count, List.length_flatMap]
  rw [counts, List.length_eq_zero_iff, List.eq_nil_iff_forall_not_mem, List.eq_nil_iff_forall_not_mem]
  exact forall_congr' fun _ => not_congr mem_distinct

theorem mem_rules_of_ruleFor {rule : Rule} (found : document.ruleFor band attackClass = some rule) :
    rule ∈ document.rules := (List.mem_filter.mp (List.mem_of_getLast? found)).1

/-- A selected channel is one that the check knows, and the defaults or the rule route to it. -/
theorem Valid.route (valid : Document.Valid tools document) (selects : name ∈ document.selected band attackClass) :
    name ∈ document.known ∧
      ((document.ruleFor band attackClass = none ∧ document.routedInDefaults name = true) ∨
        ∃ rule ∈ document.rules, document.ruleFor band attackClass = some rule ∧ name ∈ rule.channels) := by
  rw [selected] at selects
  cases found : document.ruleFor band attackClass with
  | some rule =>
    rw [found] at selects
    have member := mem_rules_of_ruleFor found
    exact ⟨(valid.rule rule member).channels name selects, .inr ⟨rule, member, rfl, selects⟩⟩
  | none =>
    rw [found] at selects
    cases held : valueOf band document.defaults with
    | none =>
      rw [held] at selects
      cases selects
    | some names =>
      rw [held, Option.getD_some] at selects
      obtain ⟨isBand, isKnown⟩ := valid.defaults _ (mem_of_valueOf held)
      refine ⟨isKnown name selects, .inl ⟨rfl, List.any_eq_true.mpr ⟨band, isBand, ?_⟩⟩⟩
      rw [held]
      exact decide_eq_true selects

/-- A name that is selected is dispatched or dropped, and it is dropped only for these reasons. -/
theorem dropped_cases (selects : name ∈ document.selected band attackClass)
    (dropped : ∀ dispatch ∈ document.dispatches band attackClass, dispatch.channel ≠ name) :
    document.enabled name = false ∨
      (document.recipientsOn (document.ruleFor band attackClass) name = [] ∧
        document.urlOn (document.ruleFor band attackClass) name = none) := by
  by_contra kept
  obtain ⟨on, destination⟩ := not_or.mp kept
  have sent : document.dispatchTo name (document.recipientsOn (document.ruleFor band attackClass) name)
      (document.urlOn (document.ruleFor band attackClass) name) =
        some { channel := name, recipients := _, webhookUrl := _ } :=
    if_pos ⟨by simpa using on, destination⟩
  exact dropped _ (List.mem_filterMap.mpr ⟨name, selects, sent⟩) rfl

theorem nonempty_eq_none {url : Option String} (absent : nonempty url = none) : url.all isStripped = true := by
  cases url with
  | none => rfl
  | some url =>
    have empty : url = "" := by simpa [nonempty] using absent
    subst empty
    rfl

theorem mem_warnings_of_off (isKnown : name ∈ document.known) (off : document.enabled name = false)
    (routed : document.routed name = true) : .offButRouted name ∈ document.warnings := by
  have sorted := (List.mergeSort_perm (document.known.filter fun name =>
    !document.enabled name && document.routed name) fun one other => one ≤ other).mem_iff.mpr
      (List.mem_filter.mpr ⟨isKnown, by rw [off, routed]; rfl⟩)
  simp only [warnings, List.mem_append]
  exact .inl (.inl (.inl (.inl (List.mem_map_of_mem sorted))))

theorem mem_warnings_of_recipients {warning : Warning} (isKnown : name ∈ document.known)
    (warns : warning ∈ document.recipientWarnings name) : warning ∈ document.warnings := by
  simp only [warnings, List.mem_append]
  exact .inl (.inr (List.mem_flatMap.mpr ⟨name, isKnown, warns⟩))

theorem mem_warnings_of_defaults (bare : document.bare isStripped = true)
    (routed : document.routedInDefaults "webhook" = true) : .webhookDefaults ∈ document.warnings := by
  simp only [warnings, List.mem_append]
  exact .inl (.inl (.inl (.inr (by rw [bare, routed]; exact List.mem_singleton_self _))))

theorem mem_warnings_of_rule (bare : document.bare isStripped = true) (rule : document.bareRule isStripped = true) :
    .webhookRule ∈ document.warnings := by
  simp only [warnings, List.mem_append]
  exact .inl (.inl (.inr (by rw [bare, rule]; exact List.mem_singleton_self _)))

end Document

/-- The channel whose alerts a warning says are not delivered. -/
def Warning.concerns : Warning → Option String
  | .offButRouted name | .noRecipients name | .ruleNoRecipients name => some name
  | .webhookDefaults | .webhookRule => some "webhook"
  | .neverRouted _ => none

namespace Document
variable {tools : Tools} {document : Document} {band attackClass name : String}

theorem gap_webhook (valid : Document.Valid tools document) (selects : "webhook" ∈ document.selected band attackClass)
    (on : document.enabled "webhook" = true)
    (nowhere : document.urlOn (document.ruleFor band attackClass) "webhook" = none) :
    ∃ warning ∈ document.warnings, warning.concerns = some "webhook" := by
  rw [urlOn, if_pos rfl, Option.or_eq_none_iff] at nowhere
  obtain ⟨noOwn, noDefault⟩ := nowhere
  have bare : document.bare isStripped = true := by
    rw [Document.bare, on, nonempty_eq_none noDefault]
    rfl
  obtain ⟨-, ⟨-, routed⟩ | ⟨rule, member, found, named⟩⟩ := valid.route selects
  · exact ⟨_, mem_warnings_of_defaults bare routed, rfl⟩
  · refine ⟨_, mem_warnings_of_rule bare (List.any_eq_true.mpr ⟨rule, member, ?_⟩), rfl⟩
    rw [found, Option.bind_some] at noOwn
    rw [nonempty_eq_none noOwn, decide_eq_true named]
    rfl

theorem gap_recipients (valid : Document.Valid tools document) (selects : name ∈ document.selected band attackClass)
    (on : document.enabled name = true) (other : name ≠ "webhook")
    (nobody : document.recipientsOn (document.ruleFor band attackClass) name = []) :
    ∃ warning ∈ document.warnings, warning.concerns = some name := by
  have checked : ¬(name = "webhook" || !document.enabled name) = true := by simp [other, on]
  obtain ⟨isKnown, ⟨none, routed⟩ | ⟨rule, member, found, named⟩⟩ := valid.route selects
  · have empty : document.defaultCount name = 0 := by
      rw [recipientsOn, none] at nobody
      exact resolve_eq_nil_iff.mp nobody
    refine ⟨.noRecipients name, mem_warnings_of_recipients isKnown ?_, rfl⟩
    rw [recipientWarnings, if_neg checked, List.mem_append]
    exact .inl (by rw [routed, decide_eq_true empty]; exact List.mem_singleton_self _)
  · have dead : document.deadRule name = true := by
      refine List.any_eq_true.mpr ⟨rule, member, ?_⟩
      rw [decide_eq_true named, Bool.true_and]
      rw [recipientsOn, found, Option.bind_some] at nobody
      cases held : valueOf name rule.recipients with
      | none =>
        rw [held] at nobody
        exact decide_eq_true (resolve_eq_nil_iff.mp nobody)
      | some override =>
        rw [held] at nobody
        exact decide_eq_true (resolve_eq_nil_iff.mp nobody)
    refine ⟨.ruleNoRecipients name, mem_warnings_of_recipients isKnown ?_, rfl⟩
    rw [recipientWarnings, if_neg checked, List.mem_append]
    exact .inr (by rw [dead]; exact List.mem_singleton_self _)

theorem gap (valid : Document.Valid tools document) (selects : name ∈ document.selected band attackClass)
    (dropped : ∀ dispatch ∈ document.dispatches band attackClass, dispatch.channel ≠ name) :
    ∃ warning ∈ document.warnings, warning.concerns = some name := by
  cases on : document.enabled name with
  | false =>
    obtain ⟨isKnown, route⟩ := valid.route selects
    have routed : document.routed name = true := by
      rw [Document.routed, Bool.or_eq_true]
      refine route.imp And.right ?_
      rintro ⟨rule, member, -, named⟩
      exact List.any_eq_true.mpr ⟨rule, member, decide_eq_true named⟩
    exact ⟨_, mem_warnings_of_off isKnown on routed, rfl⟩
  | true =>
    obtain off | ⟨nobody, nowhere⟩ := dropped_cases selects dropped
    · rw [on] at off
      cases off
    · by_cases webhook : name = "webhook"
      · subst webhook
        exact gap_webhook valid selects on nowhere
      · exact gap_recipients valid selects on webhook nobody

/-! The two lints. -/

theorem starts_of_http {url : String} (http : isHttpUrl url = true) : ∃ rest, url.toList = 'h' :: rest := by
  rw [isHttpUrl, Bool.or_eq_true] at http
  obtain plain | secure := http
  · obtain ⟨rest, shape⟩ := List.isPrefixOf_iff_prefix.mp plain
    exact ⟨"ttp://".toList ++ rest, shape.symm⟩
  · obtain ⟨rest, shape⟩ := List.isPrefixOf_iff_prefix.mp secure
    exact ⟨"ttps://".toList ++ rest, shape.symm⟩

/-- What starts with a character that is no space is not blank, whichever of the two strips it. -/
theorem not_blank {url : String} (http : isHttpUrl url = true) :
    isStripped url = false ∧ isTrimmed url = false := by
  obtain ⟨rest, shape⟩ := starts_of_http http
  constructor
  · refine decide_eq_false fun blank => ?_
    have chars := congrArg String.toList blank
    rw [strip, shape, String.toList_ofList] at chars
    exact stripOf_cons_ne_nil (by decide) chars
  · refine decide_eq_false fun blank => ?_
    have chars := congrArg String.toList blank
    rw [trim, shape, String.toList_ofList] at chars
    exact stripOf_cons_ne_nil (by decide) chars

theorem blank_eq {url : String} (valid : url = "" ∨ Allowed tools url) : isStripped url = isTrimmed url := by
  obtain rfl | ⟨http, -⟩ := valid
  · rfl
  · rw [(not_blank http).1, (not_blank http).2]

theorem all_blank_eq {url : Option String} (valid : ∀ found ∈ url, found = "" ∨ Allowed tools found) :
    url.all isStripped = url.all isTrimmed := by
  cases url with
  | none => rfl
  | some url => exact blank_eq (valid url rfl)

theorem Valid.bare_eq (valid : Document.Valid tools document) : document.bare isStripped = document.bare isTrimmed := by
  have same : ((valueOf "webhook" document.channels).bind Channel.defaultUrl).all isStripped =
      ((valueOf "webhook" document.channels).bind Channel.defaultUrl).all isTrimmed := by
    cases held : valueOf "webhook" document.channels with
    | none => rfl
    | some channel => exact all_blank_eq (valid.channel _ (mem_of_valueOf held)).defaultUrl
  rw [bare, bare, same]

theorem Valid.bareRule_eq (valid : Document.Valid tools document) :
    document.bareRule isStripped = document.bareRule isTrimmed := by
  rw [Bool.eq_iff_iff, bareRule, bareRule, List.any_eq_true, List.any_eq_true]
  refine exists_congr fun rule => and_congr_right fun member => ?_
  rw [all_blank_eq (valid.rule rule member).webhookUrl]

theorem mem_routes : name ∈ document.routes ↔ document.routed name = true := by
  rw [routes, List.mem_append, routed, Bool.or_eq_true]
  refine or_congr ?_ ?_
  · simp only [List.mem_flatMap, routedInDefaults, List.any_eq_true, decide_eq_true_eq]
    refine exists_congr fun band => and_congr_left fun _ => ?_
    simp only [bands, riskBands, List.mem_cons, List.not_mem_nil, or_false]
    tauto
  · simp only [List.mem_flatMap, routedInRules, List.any_eq_true, decide_eq_true_eq]

theorem Valid.known_of_routed (valid : Document.Valid tools document) (routed : document.routed name = true) :
    name ∈ document.known := by
  rw [Document.routed, Bool.or_eq_true] at routed
  obtain inDefaults | inRules := routed
  · obtain ⟨band, -, listed⟩ := List.any_eq_true.mp inDefaults
    cases held : valueOf band document.defaults with
    | none =>
      rw [held] at listed
      cases of_decide_eq_true listed
    | some names =>
      rw [held] at listed
      exact (valid.defaults _ (mem_of_valueOf held)).2 name (of_decide_eq_true listed)
  · obtain ⟨rule, member, listed⟩ := List.any_eq_true.mp inRules
    exact (valid.rule rule member).channels name (of_decide_eq_true listed)

theorem Valid.off_perm (valid : Document.Valid tools document) (separate : document.known.Nodup) :
    (distinct (fun one other => decide (one = other))
      (document.routes.filter fun name => !document.enabled name)).Perm
      (sortedNames (document.known.filter fun name => !document.enabled name && document.routed name)) := by
  refine List.Perm.trans ?_ (List.mergeSort_perm _ _).symm
  rw [List.perm_ext_iff_of_nodup nodup_distinct (separate.filter _)]
  intro name
  rw [mem_distinct, List.mem_filter, List.mem_filter, mem_routes, Bool.and_eq_true]
  constructor
  · rintro ⟨routed, off⟩
    exact ⟨valid.known_of_routed routed, off, routed⟩
  · rintro ⟨-, off, routed⟩
    exact ⟨routed, off⟩

/-- The page and the server find the same gaps of an accepted document. -/
theorem pageWarnings_perm (valid : Document.Valid tools document) (separate : document.known.Nodup)
    {keys : List String} (listed : keys.Perm document.known) :
    (document.pageWarnings keys).Perm document.warnings := by
  rw [pageWarnings, warnings, valid.bare_eq, valid.bareRule_eq]
  refine ((((valid.off_perm separate).map _).append_right _).append_right _).append ?_ |>.append ?_
  · exact listed.flatMap_right _
  · exact ((listed.trans (List.mergeSort_perm _ _).symm).filter _).map _

end Document

end TransactionMonitoring.NotificationConfig
