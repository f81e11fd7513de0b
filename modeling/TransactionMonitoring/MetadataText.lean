import TransactionMonitoring.UrlExtraction

/-! The text of metadata, and the URLs in it.

Metadata is flattened to one text, in which a list of nothing but texts is joined without a
separator and all else with spaces; its values are also read like datums.  A list that gets
another element and an object that gets another key keep the URLs they had, except where a text
that was joined gets separated, where a defanged notation is completed, or where a datum is read
by another of its members.
-/
namespace TransactionMonitoring.MetadataText
open DatumStructure (Cbor fromHex)
open DatumText (decodeDatumStrings emitBytes maxWalkDepth walk)
open Refang (refang refang_space)
open Scanning
open UrlExtraction

/-- `_MAX_METADATA_FLATTEN_DEPTH`. -/
def maxMetadataFlattenDepth : ℕ := 32

def asText : Json → Option String
  | .text value => some value
  | _ => none

def asList : Json → Option (List Json)
  | .list items => some items
  | _ => none

/-- `str(obj)`, and the empty text for `None`. -/
def shown : Json → String
  | .bool true => "True"
  | .bool false => "False"
  | .int value => toString value
  | .float value => value
  | .null | .text _ | .list _ | .dict _ => ""

/-- `_flatten_to_text`, with the levels left above the depth cap. -/
def flattenToText : ℕ → Json → String
  | 0, _ => ""
  | _ + 1, .text value => value
  | levels + 1, .list items =>
      if items.all fun item => (asText item).isSome then String.join (items.filterMap asText)
      else " ".intercalate (items.map (flattenToText levels))
  | levels + 1, .dict entries => " ".intercalate (entries.map fun entry => flattenToText levels entry.2)
  | _ + 1, .null => shown .null
  | _ + 1, .bool value => shown (.bool value)
  | _ + 1, .int value => shown (.int value)
  | _ + 1, .float value => shown (.float value)

/-- The content of a label; decoded keys are texts, so the number is never one. -/
def labelContent (metadata : Json) (label : String) : Option Json := (metadata.get label).filter Json.truthy

/-- The inline datums of the outputs. -/
def inlineDatums (rawData : Json) : List Json :=
  match rawData.get "outputs" with
  | some (.list outputs) => outputs.filterMap fun output =>
      match output.get "datum" with
      | none | some .null => none
      | some datum => some datum
  | _ => []

/-- What the extraction reads beside the transaction. -/
structure Reader where
  tables : Tables
  /-- `_RELEVANT_LABELS`, in the order of the set. -/
  relevantLabels : List String
  minDecodedStrLen : ℕ
  loads : List UInt8 → Option Cbor

section
variable (reader : Reader)

/-- `_decode_datum_strings`. -/
def Reader.datumStrings (datum : Json) : List String := decodeDatumStrings reader.minDecodedStrLen reader.loads datum

/-- The candidates of what a label holds, as text and as a datum. -/
def Reader.contentCandidates (content : Json) : List String :=
  urlCandidates reader.tables (flattenToText (maxMetadataFlattenDepth + 1) content) ++
    (reader.datumStrings content).flatMap (urlCandidates reader.tables)

def Reader.metadataDatumUrlCandidates (metadata rawData : Json) : List String :=
  (reader.relevantLabels.flatMap fun label =>
    ((labelContent metadata label).map reader.contentCandidates).getD []) ++
  (inlineDatums rawData).flatMap fun datum => (reader.datumStrings datum).flatMap (urlCandidates reader.tables)

end

/-! ## Extensions -/

/-- By what member a walk reads an object. -/
inductive Reading where
  | bytes (rawHex : String)
  | items (items : List Json)
  | pairs (entries : List Json)
  | fields (fields : List Json)
  | members

def reading (members : List (String × Json)) : Reading :=
  match ((Json.dict members).get "bytes").bind asText with
  | some rawHex => .bytes rawHex
  | none =>
    match ((Json.dict members).get "list").bind asList with
    | some items => .items items
    | none =>
      match ((Json.dict members).get "map").bind asList with
      | some entries => .pairs entries
      | none =>
        match ((Json.dict members).get "fields").bind asList with
        | some fields => .fields fields
        | none => .members

/-- One more element, or one more key somewhere among the keys. -/
inductive Change where
  | append (items : List Json) (item : Json)
  | add (before after : List (String × Json)) (key : String) (value : Json)

/-- A value and the value after one change inside it, with the levels left above the depth cap; what is new is
above the cap. -/
inductive Extends (allows : Change → Prop) : ℕ → Json → Json → Prop where
  | append {levels : ℕ} {items : List Json} {item : Json} (allowed : allows (.append items item)) :
      Extends allows (levels + 2) (.list items) (.list (items ++ [item]))
  | add {levels : ℕ} {before after : List (String × Json)} {key : String} {value : Json}
      (fresh : ∀ entry ∈ before ++ after, entry.1 ≠ key) (allowed : allows (.add before after key value)) :
      Extends allows (levels + 2) (.dict (before ++ after)) (.dict (before ++ (key, value) :: after))
  | item {levels : ℕ} {before after : List Json} {item longer : Json} (inside : Extends allows levels item longer) :
      Extends allows (levels + 1) (.list (before ++ item :: after)) (.list (before ++ longer :: after))
  | entry {levels : ℕ} {before after : List (String × Json)} {key : String} {value longer : Json}
      (inside : Extends allows levels value longer) :
      Extends allows (levels + 1) (.dict (before ++ (key, value) :: after)) (.dict (before ++ (key, longer) :: after))

/-- The metadata of a transaction gets another label, or the content of one of its labels is extended. -/
inductive ExtendsMetadata (allows : Change → Prop) : Json → Json → Prop where
  | label {before after : List (String × Json)} {label : String} {content : Json}
      (fresh : ∀ entry ∈ before ++ after, entry.1 ≠ label) :
      ExtendsMetadata allows (.dict (before ++ after)) (.dict (before ++ (label, content) :: after))
  | content {before after : List (String × Json)} {label : String} {content longer : Json}
      (inside : Extends allows (maxMetadataFlattenDepth + 1) content longer) :
      ExtendsMetadata allows (.dict (before ++ (label, content) :: after)) (.dict (before ++ (label, longer) :: after))

/-- A change that separates no joined texts, completes no defanged notation begun before and leaves the object to
be read by the member it was read by. -/
def Harmless : Change → Prop
  | .append items item => (items.all fun item => (asText item).isSome) = true →
      match asText item with
      | none => items.length ≤ 1
      | some text => refang (String.join (items.filterMap asText)).toList <+:
          refang (String.join (items.filterMap asText) ++ text).toList
  | .add before after key value => reading (before ++ (key, value) :: after) = reading (before ++ after)

/-! ## Datums -/

section
variable {minLen : ℕ} {loads : List UInt8 → Option Cbor} {levels : ℕ} {item longer : Json} {depth : ℕ}
  {allows : Change → Prop}

/-- What the walk makes of an entry of a `map`. -/
def walkPair (minLen : ℕ) (loads : List UInt8 → Option Cbor) (levels : ℕ) : Json → List String
  | .dict pair =>
      walk minLen loads levels (((Json.dict pair).get "k").getD .null) ++
        walk minLen loads levels (((Json.dict pair).get "v").getD .null)
  | _ => []

theorem bind_asText_eq_none {found : Option Json} (other : ∀ text, found = some (.text text) → False) :
    found.bind asText = none := by
  refine Option.eq_none_iff_forall_ne_some.mpr fun text same => ?_
  obtain ⟨value, rfl, same⟩ := Option.bind_eq_some_iff.mp same
  cases value with
  | text value => exact other value rfl
  | _ => cases same

theorem bind_asList_eq_none {found : Option Json} (other : ∀ items, found = some (.list items) → False) :
    found.bind asList = none := by
  refine Option.eq_none_iff_forall_ne_some.mpr fun items same => ?_
  obtain ⟨value, rfl, same⟩ := Option.bind_eq_some_iff.mp same
  cases value with
  | list items => exact other items rfl
  | _ => cases same

theorem walk_dict (members : List (String × Json)) : walk minLen loads (levels + 1) (.dict members) =
    match reading members with
    | .bytes rawHex => ((fromHex rawHex).map (emitBytes minLen)).getD []
    | .items items => items.flatMap (walk minLen loads levels)
    | .pairs entries => entries.flatMap (walkPair minLen loads levels)
    | .fields fields => fields.flatMap (walk minLen loads levels)
    | .members => members.flatMap fun member =>
        walk minLen loads levels (.text member.1) ++ walk minLen loads levels member.2 := by
  rw [walk, reading]
  split
  · rename_i bytes
    rw [bytes, Option.bind_some, asText]
    dsimp only
    cases fromHex _ <;> rfl
  · rename_i items noBytes
    rw [bind_asText_eq_none noBytes, items]
    rfl
  · rename_i pairs noBytes noItems
    rw [bind_asText_eq_none noBytes, bind_asList_eq_none noItems, pairs]
    dsimp only [Option.bind_some, asList]
    refine congrArg (List.flatMap · _) (funext fun entry => ?_)
    cases entry <;> rfl
  · rename_i fields noBytes noItems noPairs
    rw [bind_asText_eq_none noBytes, bind_asList_eq_none noItems, bind_asList_eq_none noPairs, fields]
    rfl
  · rename_i noBytes noItems noPairs noFields
    rw [bind_asText_eq_none noBytes, bind_asList_eq_none noItems, bind_asList_eq_none noPairs,
      bind_asList_eq_none noFields]

/-- What a walk finds in a value it finds in the longer one, whatever place of a datum the value has. -/
structure Kept (minLen : ℕ) (loads : List UInt8 → Option Cbor) (item longer : Json) : Prop where
  texts : asText item = none ∧ asText longer = none
  lists : (asList item = none ∧ asList longer = none) ∨ ∃ items more, asList item = some items ∧
    asList longer = some more ∧
      ∀ levels, items.flatMap (walkPair minLen loads levels) ⊆ more.flatMap (walkPair minLen loads levels)
  spans : ∀ levels, walk minLen loads levels item ⊆ walk minLen loads levels longer
  pair : ∀ levels, walkPair minLen loads levels item ⊆ walkPair minLen loads levels longer

theorem flatMap_replaced {α β : Type} {reads : α → List β} {before after : List α} {one two : α}
    (among : reads one ⊆ reads two) :
    (before ++ one :: after).flatMap reads ⊆ (before ++ two :: after).flatMap reads := by
  intro hit
  simp only [List.flatMap_append, List.flatMap_cons, List.mem_append]
  exact Or.imp_right (Or.imp_left fun member => among member)

theorem flatMap_inserted {α β : Type} {reads : α → List β} {before after : List α} {one : α} :
    (before ++ after).flatMap reads ⊆ (before ++ one :: after).flatMap reads := by
  intro hit
  simp only [List.flatMap_append, List.flatMap_cons, List.mem_append]
  exact Or.imp_right Or.inr

theorem Kept.of_lists {items more : List Json}
    (spans : ∀ levels, items.flatMap (walk minLen loads levels) ⊆ more.flatMap (walk minLen loads levels))
    (pairs : ∀ levels, items.flatMap (walkPair minLen loads levels) ⊆ more.flatMap (walkPair minLen loads levels)) :
    Kept minLen loads (.list items) (.list more) where
  texts := ⟨rfl, rfl⟩
  lists := .inr ⟨items, more, rfl, rfl, pairs⟩
  spans
    | 0 => List.nil_subset _
    | levels + 1 => spans levels
  pair _ := List.nil_subset _

theorem Kept.of_dicts {members more : List (String × Json)}
    (spans : ∀ levels, walk minLen loads levels (.dict members) ⊆ walk minLen loads levels (.dict more))
    (values : ∀ levels name, walk minLen loads levels (((Json.dict members).get name).getD .null) ⊆
      walk minLen loads levels (((Json.dict more).get name).getD .null)) :
    Kept minLen loads (.dict members) (.dict more) where
  texts := ⟨rfl, rfl⟩
  lists := .inl ⟨rfl, rfl⟩
  spans := spans
  pair levels := List.append_subset.mpr
    ⟨fun _ member => List.mem_append_left _ (values levels "k" member),
      fun _ member => List.mem_append_right _ (values levels "v" member)⟩

section
variable {before after : List (String × Json)} {key : String} {value : Json}

/-- A key that leaves the reading of its object. -/
theorem Kept.added (fresh : ∀ entry ∈ before ++ after, entry.1 ≠ key)
    (same : reading (before ++ (key, value) :: after) = reading (before ++ after)) :
    Kept minLen loads (.dict (before ++ after)) (.dict (before ++ (key, value) :: after)) := by
  refine .of_dicts (fun levels => ?_) fun levels name => ?_
  · cases levels with
    | zero => exact List.nil_subset _
    | succ levels =>
      rw [walk_dict, walk_dict, same]
      cases reading (before ++ after) with
      | members => exact flatMap_inserted
      | bytes | items | pairs | fields => exact List.Subset.refl _
  · cases held : (Json.dict (before ++ after)).get name with
    | none => cases levels <;> exact List.nil_subset _
    | some found => rw [Json.get_added fresh held]; exact List.Subset.refl _

/-- A list that an object holds under a name, before and after one of its values is another. -/
theorem list_replaced (kept : Kept minLen loads value longer) (name : String) :
    (((Json.dict (before ++ (key, value) :: after)).get name).bind asList = none ∧
      ((Json.dict (before ++ (key, longer) :: after)).get name).bind asList = none) ∨
    ∃ items more, ((Json.dict (before ++ (key, value) :: after)).get name).bind asList = some items ∧
      ((Json.dict (before ++ (key, longer) :: after)).get name).bind asList = some more ∧
      ∀ levels, items.flatMap (walk minLen loads levels) ⊆ more.flatMap (walk minLen loads levels) ∧
        items.flatMap (walkPair minLen loads levels) ⊆ more.flatMap (walkPair minLen loads levels) := by
  rcases @Json.get_replaced key value longer before after name with same | ⟨old, new⟩
  · rw [same]
    cases ((Json.dict (before ++ (key, value) :: after)).get name).bind asList with
    | none => exact .inl ⟨rfl, rfl⟩
    | some items => exact .inr ⟨items, items, rfl, rfl, fun _ => ⟨List.Subset.refl _, List.Subset.refl _⟩⟩
  · rw [old, new, Option.bind_some, Option.bind_some]
    rcases kept.lists with neither | ⟨items, more, list, longerList, pairs⟩
    · exact .inl neither
    · refine .inr ⟨items, more, list, longerList, fun levels => ⟨?_, pairs levels⟩⟩
      have spans := kept.spans (levels + 1)
      cases value with
      | list _ =>
        cases longer with
        | list _ =>
          obtain rfl := Option.some.inj list
          obtain rfl := Option.some.inj longerList
          exact spans
        | _ => cases longerList
      | _ => cases list

theorem text_replaced (kept : Kept minLen loads value longer) (name : String) :
    ((Json.dict (before ++ (key, longer) :: after)).get name).bind asText =
      ((Json.dict (before ++ (key, value) :: after)).get name).bind asText := by
  rcases @Json.get_replaced key value longer before after name with same | ⟨old, new⟩
  · rw [same]
  · rw [old, new, Option.bind_some, Option.bind_some, kept.texts.1, kept.texts.2]

/-- A value that is kept, within an object. -/
theorem Kept.entry (kept : Kept minLen loads value longer) :
    Kept minLen loads (.dict (before ++ (key, value) :: after)) (.dict (before ++ (key, longer) :: after)) := by
  refine .of_dicts (fun levels => ?_) fun levels name => ?_
  · cases levels with
    | zero => exact List.nil_subset _
    | succ levels =>
      rw [walk_dict, walk_dict, reading, reading, text_replaced kept]
      cases ((Json.dict (before ++ (key, value) :: after)).get "bytes").bind asText with
      | some rawHex => exact List.Subset.refl _
      | none =>
        dsimp only
        rcases @list_replaced _ _ _ before after key _ kept "list" with ⟨old, new⟩ | ⟨items, more, old, new, among⟩
        · rw [old, new]
          dsimp only
          rcases @list_replaced _ _ _ before after key _ kept "map" with ⟨old, new⟩ | ⟨items, more, old, new, among⟩
          · rw [old, new]
            dsimp only
            rcases @list_replaced _ _ _ before after key _ kept "fields" with ⟨old, new⟩ |
              ⟨items, more, old, new, among⟩
            · rw [old, new]
              exact flatMap_replaced (List.append_subset.mpr ⟨List.subset_append_left _ _,
                List.Subset.trans (kept.spans levels) (List.subset_append_right _ _)⟩)
            · rw [old, new]
              exact (among levels).1
          · rw [old, new]
            exact (among levels).2
        · rw [old, new]
          exact (among levels).1
  · rcases @Json.get_replaced key value longer before after name with same | ⟨old, new⟩
    · rw [same]
      exact List.Subset.refl _
    · rw [old, new]
      exact kept.spans levels

end

/-- **A walk keeps what it finds when a value is extended without being read otherwise.** -/
theorem Extends.kept (extended : Extends Harmless depth item longer) : Kept minLen loads item longer := by
  induction extended with
  | append allowed =>
    exact .of_lists (fun _ => by simp) fun _ => by simp
  | add fresh allowed => exact .added fresh allowed
  | item inside ih => exact .of_lists (fun levels => flatMap_replaced (ih.spans levels)) fun levels =>
      flatMap_replaced (ih.pair levels)
  | entry inside ih => exact ih.entry

end

/-! ## Text -/

section
variable {tables : Tables} {parts more : List String} {text : String} {hit : List Char} {levels : ℕ}
  {item longer : Json} {allows : Change → Prop}

/-- What is found in a text once it is refanged. -/
def found (tables : Tables) (text : String) : List (List Char) := hits tables (refang text.toList)

theorem found_empty : found tables "" = [] := rfl

/-- What is found in texts that spaces join is what is found in each. -/
theorem mem_found_joined : hit ∈ found tables (" ".intercalate parts) ↔ ∃ part ∈ parts, hit ∈ found tables part := by
  induction parts with
  | nil => simp [found_empty]
  | cons part rest ih =>
    cases rest with
    | nil => simp
    | cons next others =>
      have joined : (" ".intercalate (part :: next :: others)).toList =
          part.toList ++ ' ' :: (" ".intercalate (next :: others)).toList := by
        simp [String.intercalate_cons_cons]
      rw [List.exists_mem_cons_iff, ← ih, found, joined, refang_space, mem_hits_space]
      rfl

theorem joined_covers (each : ∀ part ∈ parts, ∃ other ∈ more, Covers (found tables part) (found tables other)) :
    Covers (found tables (" ".intercalate parts)) (found tables (" ".intercalate more)) := by
  intro hit member
  obtain ⟨part, listed, member⟩ := mem_found_joined.mp member
  obtain ⟨other, also, covers⟩ := each part listed
  obtain ⟨whole, member, begins⟩ := covers hit member
  exact ⟨whole, mem_found_joined.mpr ⟨other, also, member⟩, begins⟩

theorem joined_covers_of_subset (among : parts ⊆ more) :
    Covers (found tables (" ".intercalate parts)) (found tables (" ".intercalate more)) :=
  joined_covers fun part listed => ⟨part, among listed, Covers.refl _⟩

/-- One of the parts goes on further. -/
theorem joined_covers_replaced {α : Type} {reads : α → String} {before after : List α} {one two : α}
    (covers : Covers (found tables (reads one)) (found tables (reads two))) :
    Covers (found tables (" ".intercalate ((before ++ one :: after).map reads)))
      (found tables (" ".intercalate ((before ++ two :: after).map reads))) := by
  refine joined_covers fun part listed => ?_
  simp only [List.map_append, List.map_cons, List.mem_append, List.mem_cons] at listed ⊢
  rcases listed with listed | rfl | listed
  · exact ⟨part, .inl listed, Covers.refl _⟩
  · exact ⟨reads two, .inr (.inl rfl), covers⟩
  · exact ⟨part, .inr (.inr listed), Covers.refl _⟩

theorem not_text (extended : Extends allows levels item longer) : asText item = none ∧ asText longer = none := by
  cases extended <;> exact ⟨rfl, rfl⟩

theorem flatten_texts {items : List Json} (texts : (items.all fun item => (asText item).isSome) = true) :
    flattenToText (levels + 1) (.list items) = String.join (items.filterMap asText) := by
  rw [flattenToText, if_pos texts]

theorem flatten_mixed {items : List Json} (mixed : (items.all fun item => (asText item).isSome) = false) :
    flattenToText (levels + 1) (.list items) = " ".intercalate (items.map (flattenToText levels)) := by
  rw [flattenToText, if_neg (by simp [mixed])]

theorem flatten_dict {entries : List (String × Json)} : flattenToText (levels + 1) (.dict entries) =
    " ".intercalate (entries.map fun entry => flattenToText levels entry.2) := rfl

/-- One more element of a list. -/
theorem append_covers {items : List Json} (harmless : Harmless (.append items item)) :
    Covers (found tables (flattenToText (levels + 2) (.list items)))
      (found tables (flattenToText (levels + 2) (.list (items ++ [item])))) := by
  cases texts : items.all fun item => (asText item).isSome with
  | false =>
    have mixed : ((items ++ [item]).all fun item => (asText item).isSome) = false := by simp [List.all_append, texts]
    rw [flatten_mixed texts, flatten_mixed mixed]
    exact joined_covers_of_subset (by simp)
  | true =>
    have harmless := harmless texts
    rw [flatten_texts texts]
    cases shape : asText item with
    | some text =>
      rw [shape] at harmless
      have all : ((items ++ [item]).all fun item => (asText item).isSome) = true := by
        simp only [List.all_append, texts, List.all_cons, shape, Option.isSome_some, List.all_nil, Bool.and_true]
      have joined :
          String.join ((items ++ [item]).filterMap asText) = String.join (items.filterMap asText) ++ text := by
        simp [List.filterMap_append, shape]
      rw [flatten_texts all, joined]
      obtain ⟨rest, same⟩ := harmless
      rw [found, found, ← same]
      exact hits_covers _ rest
    | none =>
      rw [shape] at harmless
      have mixed : ((items ++ [item]).all fun item => (asText item).isSome) = false := by
        simp [List.all_append, shape]
      rw [flatten_mixed mixed]
      match items, texts, harmless with
      | [], _, _ => exact fun _ member => by simp [found_empty] at member
      | [.text value], _, _ =>
        refine Covers.of_subset fun hit member => mem_found_joined.mpr ⟨value, by simp [flattenToText], ?_⟩
        simpa [asText] using member
      | [.null], texts, _ | [.bool _], texts, _ | [.int _], texts, _ | [.float _], texts, _ | [.list _], texts, _
      | [.dict _], texts, _ => cases texts
      | _ :: _ :: _, _, long => exact absurd long (by simp)

/-- **What is found in the text of a value begins something found in the text of its extension.** -/
theorem Extends.covers (extended : Extends Harmless levels item longer) :
    Covers (found tables (flattenToText levels item)) (found tables (flattenToText levels longer)) := by
  induction extended with
  | append allowed => exact append_covers allowed
  | add fresh allowed =>
    rw [flatten_dict, flatten_dict]
    exact joined_covers_of_subset (List.map_subset _ ((List.sublist_cons_self _ _).append_left _).subset)
  | @item levels before after item longer inside ih =>
    obtain ⟨one, two⟩ := not_text inside
    have mixed {other : Json} (shape : asText other = none) :
        ((before ++ other :: after).all fun item => (asText item).isSome) = false := by simp [shape]
    rw [flatten_mixed (mixed one), flatten_mixed (mixed two)]
    exact joined_covers_replaced ih
  | entry inside ih =>
    rw [flatten_dict, flatten_dict]
    exact joined_covers_replaced ih

end

/-! ## Metadata -/

section
variable {reader : Reader} {item longer metadata rawData : Json} {texts more : List String} {hit : List Char}

/-- Each of the URLs is a prefix of one of the others. -/
def UrlsKept (urls later : List String) : Prop := ∀ url ∈ urls, ∃ longer ∈ later, url.toList <+: longer.toList

instance (urls later : List String) : Decidable (UrlsKept urls later) :=
  inferInstanceAs (Decidable (∀ url ∈ urls, ∃ longer ∈ later, url.toList <+: longer.toList))

theorem UrlsKept.of_subset (among : texts ⊆ more) : UrlsKept texts more :=
  fun url member => ⟨url, among member, List.prefix_rfl⟩

theorem urlCandidates_kept {tables : Tables} {text other : String}
    (covers : Covers (found tables text) (found tables other)) :
    UrlsKept (urlCandidates tables text) (urlCandidates tables other) := by
  intro url member
  obtain ⟨hit, listed, rfl⟩ := List.mem_map.mp member
  obtain ⟨whole, also, begins⟩ := covers hit listed
  exact ⟨String.ofList whole, List.mem_map_of_mem also, by simpa using begins⟩

theorem contentCandidates_kept (extended : Extends Harmless (maxMetadataFlattenDepth + 1) item longer) :
    UrlsKept (reader.contentCandidates item) (reader.contentCandidates longer) := by
  intro url member
  rcases List.mem_append.mp member with member | member
  · obtain ⟨whole, also, begins⟩ := urlCandidates_kept extended.covers url member
    exact ⟨whole, List.mem_append_left _ also, begins⟩
  · obtain ⟨span, listed, member⟩ := List.mem_flatMap.mp member
    have kept : span ∈ reader.datumStrings longer := extended.kept.spans (maxWalkDepth + 1) listed
    exact ⟨url, List.mem_append_right _ (List.mem_flatMap.mpr ⟨span, kept, member⟩), List.prefix_rfl⟩

theorem Extends.truthy {levels : ℕ} {allows : Change → Prop} (extended : Extends allows levels item longer) :
    longer.truthy = true := by
  cases extended <;> simp [Json.truthy]

/-- What a label holds, it holds or has extended once the metadata is extended. -/
theorem label_kept {allows : Change → Prop} (extended : ExtendsMetadata allows metadata longer) {label : String}
    (held : labelContent metadata label = some item) : labelContent longer label = some item ∨
      ∃ whole, Extends allows (maxMetadataFlattenDepth + 1) item whole ∧ labelContent longer label = some whole := by
  unfold labelContent at held ⊢
  obtain ⟨held, truthy⟩ := Option.filter_eq_some_iff.mp held
  cases extended with
  | label fresh => exact .inl (Option.filter_eq_some_iff.mpr ⟨Json.get_added fresh held, truthy⟩)
  | @content before after key value whole inside =>
    rcases @Json.get_replaced key value whole before after label with same | ⟨old, new⟩
    · exact .inl (Option.filter_eq_some_iff.mpr ⟨same.trans held, truthy⟩)
    · obtain rfl := Option.some.inj (old.symm.trans held)
      exact .inr ⟨whole, inside, Option.filter_eq_some_iff.mpr ⟨new, inside.truthy⟩⟩

/-- **Extended metadata hides no URL: each candidate is still a candidate, or begins a longer one.** -/
theorem extension_hides_no_url (reader : Reader) (metadata longer rawData : Json)
    (extended : ExtendsMetadata Harmless metadata longer) :
    UrlsKept (reader.metadataDatumUrlCandidates metadata rawData)
      (reader.metadataDatumUrlCandidates longer rawData) := by
  intro url member
  rcases List.mem_append.mp member with member | member
  · obtain ⟨label, relevant, member⟩ := List.mem_flatMap.mp member
    cases held : labelContent metadata label with
    | none => simp [held] at member
    | some content =>
      rw [held, Option.map_some, Option.getD_some] at member
      obtain ⟨whole, also, begins⟩ : ∃ whole ∈ ((labelContent longer label).map reader.contentCandidates).getD [],
          url.toList <+: whole.toList := by
        rcases label_kept extended held with same | ⟨whole, inside, new⟩
        · exact ⟨url, by rw [same]; exact member, List.prefix_rfl⟩
        · rw [new]
          exact contentCandidates_kept inside url member
      exact ⟨whole, List.mem_append_left _ (List.mem_flatMap.mpr ⟨label, relevant, also⟩), begins⟩
  · exact ⟨url, List.mem_append_right _ member, List.prefix_rfl⟩

end

/-- The tables on ASCII text alone. -/
def asciiTables : Tables where
  isWord char := isLetterOrDigit char || char = '_'
  isWord_space := by decide
  lower := id
  domain _ := ""
  suffix _ := ""

private def plainReader : Reader where
  tables := asciiTables
  relevantLabels := ["674", "721"]
  minDecodedStrLen := 4
  loads _ := none

/-- A message in chunks, as CIP-20 has it, with more elements. -/
private def message (chunks : List Json) : Json := .dict [("674", .dict [("msg", .list chunks)])]

private theorem message_extended {allows : Change → Prop} (chunks : List Json) (item : Json)
    (allowed : allows (.append chunks item)) :
    ExtendsMetadata allows (message chunks) (message (chunks ++ [item])) :=
  @ExtendsMetadata.content allows [] [] "674" _ _
    (@Extends.entry allows _ [] [] "msg" _ _ (@Extends.append allows 30 chunks item allowed))

private def twoChunks : List Json := [.text "https://cardano-", .text "drop.io"]

private theorem chunk_harmless : Harmless (.append twoChunks (.text "/claim")) := by
  intro _
  dsimp only [asText]
  decide +kernel

/-- Another chunk makes the URL longer. -/
theorem extension_hides_no_url_another_chunk :
    UrlsKept (plainReader.metadataDatumUrlCandidates (message twoChunks) .null)
      (plainReader.metadataDatumUrlCandidates (message (twoChunks ++ [.text "/claim"])) .null) := by
  have extended : ExtendsMetadata Harmless (message twoChunks) (message (twoChunks ++ [.text "/claim"])) :=
    message_extended twoChunks (.text "/claim") chunk_harmless
  exact extension_hides_no_url plainReader _ _ .null extended

/-- With a number behind them the chunks are no longer joined. -/
theorem number_behind_chunks_hides_url : ¬ ∀ (reader : Reader) (metadata longer rawData : Json),
    ExtendsMetadata (fun _ => True) metadata longer → UrlsKept (reader.metadataDatumUrlCandidates metadata rawData)
      (reader.metadataDatumUrlCandidates longer rawData) := by
  intro kept
  have hidden : ¬UrlsKept (plainReader.metadataDatumUrlCandidates (message twoChunks) .null)
      (plainReader.metadataDatumUrlCandidates (message (twoChunks ++ [.int 1])) .null) := by decide +kernel
  exact hidden (kept plainReader _ _ _ (message_extended twoChunks (.int 1) trivial))

private def openNotation : List Json := [.text "https://cardano-", .text "drop.io[do"]

/-- A text that completes a notation of a dot makes another URL of the one before. -/
theorem completed_notation_hides_url :
    ExtendsMetadata (fun _ => True) (message openNotation) (message (openNotation ++ [.text "t]example"])) ∧
      ¬UrlsKept (plainReader.metadataDatumUrlCandidates (message openNotation) .null)
        (plainReader.metadataDatumUrlCandidates (message (openNotation ++ [.text "t]example"])) .null) :=
  ⟨message_extended openNotation _ trivial, by decide +kernel⟩

/-- `https://drop.io` in hexadecimal. -/
private def hexNote : List (String × Json) := [("note", .text "68747470733a2f2f64726f702e696f")]

/-- An object that gets a `list` is read by it alone. -/
theorem schema_member_hides_url :
    ExtendsMetadata (fun _ => True) (.dict [("674", .dict hexNote)])
        (.dict [("674", .dict (hexNote ++ [("list", .list [])]))]) ∧
      ¬UrlsKept (plainReader.metadataDatumUrlCandidates (.dict [("674", .dict hexNote)]) .null)
        (plainReader.metadataDatumUrlCandidates (.dict [("674", .dict (hexNote ++ [("list", .list [])]))]) .null) := by
  refine ⟨?_, by decide +kernel⟩
  exact @ExtendsMetadata.content _ [] [] "674" _ _
    (@Extends.add _ 31 hexNote [] "list" (.list []) (by decide) trivial)

end TransactionMonitoring.MetadataText
