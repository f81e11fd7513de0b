import TransactionMonitoring.DatumStructure
import TransactionMonitoring.Dictionary
import TransactionMonitoring.WhiteSpace

/-! The text spans of a datum.

A datum is text, the hexadecimal of its CBOR or the JSON of its Plutus data, and the walk takes
the first reading that parses: hexadecimal is bytes, bytes that begin with a CBOR item are that
item.  The decoder of the bytes and its notion of equal map keys are parameters.
-/
namespace TransactionMonitoring.DatumText

open DatumStructure (Cbor Data DetailedAs Entrywise hexDigits hexOf digitOf asciiSpace fromDigits fromHex)
open WhiteSpace

/-! ## Text as bytes -/

/-- `str.encode`. -/
def utf8 (text : String) : List UInt8 := text.toByteArray.data.toList

/-- `bytes.decode`, where the bytes are UTF-8. -/
def decodeUtf8 (blob : List UInt8) : Option String := String.fromUTF8? ⟨blob.toArray⟩

@[simp] theorem decodeUtf8_utf8 (text : String) : decodeUtf8 (utf8 text) = some text := by
  simp [decodeUtf8, utf8, String.fromUTF8?, text.isValidUTF8, String.fromUTF8]

theorem utf8_of_decodeUtf8 {blob : List UInt8} {text : String} (decoded : decodeUtf8 blob = some text) :
    utf8 text = blob := by
  unfold decodeUtf8 String.fromUTF8? at decoded
  split at decoded
  · obtain rfl := Option.some.inj decoded
    simp [utf8, String.fromUTF8]
  · cases decoded

private theorem chars_le_bytes (chars : List Char) : chars.length ≤ chars.utf8Encode.size := by
  induction chars with
  | nil => simp
  | cons char rest ih =>
    rw [List.utf8Encode_cons, ByteArray.size_append, List.utf8Encode_singleton]
    have positive := char.utf8Size_pos
    simp only [List.size_toByteArray, String.length_utf8EncodeChar, List.length_cons]
    omega

/-- A character takes a byte at least. -/
theorem length_le_length_utf8 (text : String) : text.length ≤ (utf8 text).length := by
  have chars := chars_le_bytes text.toList
  rw [String.utf8Encode_toList, String.length_toList] at chars
  simpa [utf8] using chars

/-! ## The walk -/

/-- `MAX_WALK_DEPTH`. -/
def maxWalkDepth : Nat := 64

section
variable (minLen : Nat)

/-- A run of printable characters as the scan emits it. -/
def emitRun (run : List Char) : List String :=
  if run ≠ [] ∧ minLen ≤ run.length then [String.ofList run] else []

/-- `_scan_bytes_for_strings`, with the run that is open. -/
def scanBytes (run : List Char) : List UInt8 → List String
  | [] => emitRun minLen run
  | byte :: rest =>
      if 0x20 ≤ byte.toNat ∧ byte.toNat < 0x7f then scanBytes (run ++ [Char.ofNat byte.toNat]) rest
      else emitRun minLen run ++ scanBytes [] rest

def emitText (text : String) : List String := if minLen ≤ text.length then [text] else []

/-- `_emit_bytes`. -/
def emitBytes (blob : List UInt8) : List String :=
  match decodeUtf8 blob with
  | some decoded => emitText minLen decoded
  | none => scanBytes minLen [] blob

/-- `_walk_cbor`, with the levels left above the depth cap. -/
def walkCbor : Nat → Cbor → List String
  | 0, _ => []
  | _ + 1, .bytes blob => emitBytes minLen blob
  | _ + 1, .text text => emitText minLen text
  | levels + 1, .mapping entries => entries.flatMap fun entry => walkCbor levels entry.1 ++ walkCbor levels entry.2
  | levels + 1, .array items => items.flatMap (walkCbor levels)
  | levels + 1, .tag _ value => walkCbor levels value
  | _ + 1, .bool _ | _ + 1, .int _ | _ + 1, .null | _ + 1, .other _ => []

def isHexDigit (char : Char) : Bool := (digitOf char).isSome

/-- The bytes of a text that is taken for hexadecimal. -/
def hexBody (text : String) : Option (List UInt8) :=
  let stripped := stripOf isSpace text.toList
  if 8 ≤ stripped.length ∧ stripped.all isHexDigit then fromDigits stripped else none

variable (loads : List UInt8 → Option Cbor)

/-- `_try_cbor`, and `_emit_bytes` where it fails. -/
def readBytes (raw : List UInt8) : List String :=
  match loads raw with
  | some decoded => walkCbor minLen (maxWalkDepth + 1) decoded
  | none => emitBytes minLen raw

/-- `_walk`, with the levels left above the depth cap. -/
def walk : Nat → Json → List String
  | 0, _ => []
  | _ + 1, .text text =>
      match hexBody text with
      | some raw => readBytes minLen loads raw
      | none => emitText minLen text
  | levels + 1, .dict members =>
      match (Json.dict members).get "bytes", (Json.dict members).get "list", (Json.dict members).get "map",
        (Json.dict members).get "fields" with
      | some (.text rawHex), _, _, _ =>
          match fromHex rawHex with
          | some raw => emitBytes minLen raw
          | none => []
      | _, some (.list items), _, _ => items.flatMap (walk levels)
      | _, _, some (.list entries), _ =>
          entries.flatMap fun entry =>
            match entry with
            | .dict pair =>
                walk levels (((Json.dict pair).get "k").getD .null) ++
                  walk levels (((Json.dict pair).get "v").getD .null)
            | _ => []
      | _, _, _, some (.list fields) => fields.flatMap (walk levels)
      | _, _, _, _ => members.flatMap fun member => walk levels (.text member.1) ++ walk levels member.2
  | levels + 1, .list items => items.flatMap (walk levels)
  | _ + 1, .null | _ + 1, .bool _ | _ + 1, .int _ | _ + 1, .float _ => []

/-- `decode_datum_strings`; `loads` answers nothing where `cbor2` is missing or raises. -/
def decodeDatumStrings (datum : Json) : List String := walk minLen loads (maxWalkDepth + 1) datum

end

/-! ## Hexadecimal -/

private theorem hexDigit_spec : ∀ digit < 16, digitOf (hexDigits.getD digit '0') = some digit ∧
    asciiSpace (hexDigits.getD digit '0') = false ∧ isSpace (hexDigits.getD digit '0') = false := by
  decide

theorem toList_hexOf (blob : List UInt8) :
    (hexOf blob).toList = blob.flatMap fun byte =>
      [hexDigits.getD (byte.toNat / 16) '0', hexDigits.getD (byte.toNat % 16) '0'] := by
  simp [hexOf]

@[simp] theorem length_hexOf (blob : List UInt8) : (hexOf blob).toList.length = 2 * blob.length := by
  rw [toList_hexOf]
  induction blob with
  | nil => rfl
  | cons byte rest ih => simp only [List.flatMap_cons, List.length_append, List.length_cons, List.length_nil, ih]; omega

private theorem byte_digits (byte : UInt8) : byte.toNat / 16 < 16 ∧ byte.toNat % 16 < 16 := by
  have bound := byte.toNat_lt
  omega

theorem fromHex_hexOf (blob : List UInt8) : fromHex (hexOf blob) = some blob := by
  rw [fromHex, toList_hexOf]
  induction blob with
  | nil => rfl
  | cons byte rest ih =>
    obtain ⟨high, low⟩ := byte_digits byte
    have decoded := DatumStructure.fromDigits_cons _ _ (hexDigit_spec _ high).1 (hexDigit_spec _ low).1
      (hexDigit_spec _ high).2.1 ih
    rw [Nat.div_add_mod] at decoded
    simpa using decoded

/-- The characters of hexadecimal are digits and nothing that is stripped. -/
theorem mem_hexOf {blob : List UInt8} {char : Char} (member : char ∈ (hexOf blob).toList) :
    isHexDigit char = true ∧ isSpace char = false := by
  rw [toList_hexOf] at member
  obtain ⟨byte, _, among⟩ := List.mem_flatMap.mp member
  obtain ⟨high, low⟩ := byte_digits byte
  rcases List.mem_cons.mp among with rfl | last
  · exact ⟨by rw [isHexDigit, (hexDigit_spec _ high).1]; rfl, (hexDigit_spec _ high).2.2⟩
  · obtain rfl := List.mem_singleton.mp last
    exact ⟨by rw [isHexDigit, (hexDigit_spec _ low).1]; rfl, (hexDigit_spec _ low).2.2⟩

theorem length_fromDigits {chars : List Char} {blob : List UInt8} (decoded : fromDigits chars = some blob) :
    2 * blob.length ≤ chars.length := by
  fun_induction fromDigits chars generalizing blob with
  | case1 => simp_all
  | case2 => simp_all
  | case3 => simp_all
  | case4 high low rest space ih => exact Nat.le_succ_of_le (ih decoded)
  | case5 high low rest digit first second others read _ _ ih =>
    obtain rfl := Option.some.inj decoded
    have shorter := ih read
    simp only [List.length_cons]
    omega
  | case6 => simp_all

theorem hexBody_hexOf {blob : List UInt8} (long : 4 ≤ blob.length) : hexBody (hexOf blob) = some blob := by
  have stripped : stripOf isSpace (hexOf blob).toList = (hexOf blob).toList :=
    stripOf_eq_self fun char member => (mem_hexOf member).2
  have digits : (hexOf blob).toList.all isHexDigit = true :=
    List.all_eq_true.mpr fun char member => (mem_hexOf member).1
  have size : 8 ≤ (hexOf blob).toList.length := by rw [length_hexOf]; omega
  rw [hexBody, stripped, if_pos ⟨size, digits⟩]
  exact fromHex_hexOf blob

theorem hexBody_of_short {blob : List UInt8} (short : blob.length < 4) : hexBody (hexOf blob) = none := by
  refine if_neg ?_
  rintro ⟨long, _⟩
  have bound := length_stripOf_le isSpace (hexOf blob).toList
  rw [length_hexOf] at bound
  omega

/-- Bytes written in hexadecimal are fewer than the characters. -/
theorem length_hexBody {text : String} {raw : List UInt8} (read : hexBody text = some raw) :
    raw.length < text.length := by
  unfold hexBody at read
  dsimp only at read
  split at read
  · rename_i shape
    have half := length_fromDigits read
    have bound := length_stripOf_le isSpace text.toList
    rw [String.length_toList] at bound
    omega
  · cases read

/-! ## Spans are no longer than what they come from -/

private theorem ascii_byte : ∀ code < 0x7f, (Char.ofNat code).utf8Size = 1 := by
  decide +kernel

private theorem size_ascii {run : List Char} (ascii : ∀ char ∈ run, char.utf8Size = 1) :
    (utf8 (String.ofList run)).length = run.length := by
  have size : run.utf8Encode.size = run.length := by
    induction run with
    | nil => rfl
    | cons char rest ih =>
      rw [List.utf8Encode_cons, ByteArray.size_append, List.utf8Encode_singleton,
        ih fun other member => ascii other (.tail _ member)]
      simp only [List.size_toByteArray, String.length_utf8EncodeChar, ascii char List.mem_cons_self, List.length_cons]
      omega
  simpa [utf8] using size

variable {minLen : Nat} {span : String}

theorem mem_emitText {text : String} : span ∈ emitText minLen text ↔ span = text ∧ minLen ≤ text.length := by
  unfold emitText
  split
  · simp_all
  · simp_all

private theorem size_emitRun {run : List Char} (ascii : ∀ char ∈ run, char.utf8Size = 1)
    (member : span ∈ emitRun minLen run) : (utf8 span).length = run.length := by
  unfold emitRun at member
  split at member
  · obtain rfl := List.mem_singleton.mp member
    exact size_ascii ascii
  · cases member

private theorem size_scanBytes {run : List Char} {blob : List UInt8} (ascii : ∀ char ∈ run, char.utf8Size = 1)
    (member : span ∈ scanBytes minLen run blob) : (utf8 span).length ≤ run.length + blob.length := by
  induction blob generalizing run with
  | nil => exact Nat.le_of_eq (size_emitRun ascii member)
  | cons byte rest ih =>
    rw [scanBytes] at member
    split at member
    · rename_i printable
      have bound := ih (fun char among => ?_) member
      · simp only [List.length_append, List.length_singleton] at bound
        simp only [List.length_cons]
        omega
      · rcases List.mem_append.mp among with earlier | last
        · exact ascii char earlier
        · obtain rfl := List.mem_singleton.mp last
          exact ascii_byte _ printable.2
    · rcases List.mem_append.mp member with closed | later
      · have bound := size_emitRun ascii closed
        omega
      · have bound := ih (by simp) later
        simp only [List.length_nil, List.length_cons] at bound ⊢
        omega

/-- A span is at most as long as the bytes it is found in. -/
theorem size_emitBytes {blob : List UInt8} (member : span ∈ emitBytes minLen blob) :
    (utf8 span).length ≤ blob.length := by
  unfold emitBytes at member
  split at member
  · rename_i decoded read
    obtain ⟨rfl, _⟩ := mem_emitText.mp member
    exact Nat.le_of_eq (congrArg List.length (utf8_of_decodeUtf8 read))
  · simpa using size_scanBytes (by simp) member

/-- The byte strings and texts of a decoded value, as bytes. -/
inductive Leaf : Cbor → List UInt8 → Prop where
  | bytes (blob : List UInt8) : Leaf (.bytes blob) blob
  | text (text : String) : Leaf (.text text) (utf8 text)
  | tag {number : Nat} {value : Cbor} {leaf : List UInt8} (inside : Leaf value leaf) : Leaf (.tag number value) leaf
  | item {items : List Cbor} {item : Cbor} {leaf : List UInt8} (member : item ∈ items) (inside : Leaf item leaf) :
      Leaf (.array items) leaf
  | key {entries : List (Cbor × Cbor)} {entry : Cbor × Cbor} {leaf : List UInt8} (member : entry ∈ entries)
      (inside : Leaf entry.1 leaf) : Leaf (.mapping entries) leaf
  | value {entries : List (Cbor × Cbor)} {entry : Cbor × Cbor} {leaf : List UInt8} (member : entry ∈ entries)
      (inside : Leaf entry.2 leaf) : Leaf (.mapping entries) leaf

theorem leaf_of_mem_walkCbor {levels : Nat} {node : Cbor} (member : span ∈ walkCbor minLen levels node) :
    ∃ leaf, Leaf node leaf ∧ (utf8 span).length ≤ leaf.length := by
  induction levels generalizing node with
  | zero => cases member
  | succ levels ih =>
    cases node with
    | bytes blob => exact ⟨blob, .bytes blob, size_emitBytes member⟩
    | text text =>
      obtain ⟨rfl, _⟩ := mem_emitText.mp member
      exact ⟨_, .text span, Nat.le_refl _⟩
    | mapping entries =>
      obtain ⟨entry, among, found⟩ := List.mem_flatMap.mp member
      rcases List.mem_append.mp found with inKey | inValue
      · obtain ⟨leaf, inside, bound⟩ := ih inKey
        exact ⟨leaf, .key among inside, bound⟩
      · obtain ⟨leaf, inside, bound⟩ := ih inValue
        exact ⟨leaf, .value among inside, bound⟩
    | array items =>
      obtain ⟨item, among, found⟩ := List.mem_flatMap.mp member
      obtain ⟨leaf, inside, bound⟩ := ih found
      exact ⟨leaf, .item among inside, bound⟩
    | tag number value =>
      obtain ⟨leaf, inside, bound⟩ := ih member
      exact ⟨leaf, .tag inside, bound⟩
    | bool value => cases member
    | int value => cases member
    | null => cases member
    | other shown => cases member

/-! ## What is left of a CBOR item -/

section
variable (same : Cbor → Cbor → Bool)

mutual

/-- The value of an item, whose maps list all their entries: each map becomes a dictionary. -/
def collapse : Cbor → Cbor
  | .tag number value => .tag number (collapse value)
  | .array items => .array (collapseAll items)
  | .mapping entries => .mapping (Dictionary.ofEntries same (collapseEntries entries))
  | .bool value => .bool value
  | .int value => .int value
  | .bytes blob => .bytes blob
  | .text text => .text text
  | .null => .null
  | .other shown => .other shown

def collapseAll : List Cbor → List Cbor
  | [] => []
  | item :: rest => collapse item :: collapseAll rest

def collapseEntries : List (Cbor × Cbor) → List (Cbor × Cbor)
  | [] => []
  | (key, value) :: rest => (collapse key, collapse value) :: collapseEntries rest

end

theorem collapseAll_eq_map (items : List Cbor) : collapseAll same items = items.map (collapse same) := by
  induction items with
  | nil => rfl
  | cons item rest ih => rw [collapseAll, ih, List.map_cons]

theorem collapseEntries_eq_map (entries : List (Cbor × Cbor)) :
    collapseEntries same entries = entries.map fun entry => (collapse same entry.1, collapse same entry.2) := by
  induction entries with
  | nil => rfl
  | cons entry rest ih =>
    obtain ⟨key, value⟩ := entry
    rw [collapseEntries, ih, List.map_cons]

/-- Some byte string or text that reads as the span lies within the levels of the item, in no
repetition of a key and under no key that is repeated behind it. -/
inductive Kept (minLen : Nat) (span : String) : Nat → Cbor → Prop where
  | bytes {levels : Nat} {blob : List UInt8} (read : span ∈ emitBytes minLen blob) :
      Kept minLen span (levels + 1) (.bytes blob)
  | text {levels : Nat} {text : String} (read : span ∈ emitText minLen text) :
      Kept minLen span (levels + 1) (.text text)
  | tag {levels number : Nat} {value : Cbor} (inside : Kept minLen span levels value) :
      Kept minLen span (levels + 1) (.tag number value)
  | item {levels : Nat} {items : List Cbor} {item : Cbor} (member : item ∈ items)
      (inside : Kept minLen span levels item) : Kept minLen span (levels + 1) (.array items)
  | key {levels : Nat} {before after : List (Cbor × Cbor)} {key value : Cbor}
      (fresh : ∀ entry ∈ before, same (collapse same entry.1) (collapse same key) = false)
      (inside : Kept minLen span levels key) :
      Kept minLen span (levels + 1) (.mapping (before ++ (key, value) :: after))
  | value {levels : Nat} {before after : List (Cbor × Cbor)} {key value : Cbor}
      (last : ∀ entry ∈ after, same (collapse same entry.1) (collapse same key) = false)
      (inside : Kept minLen span levels value) :
      Kept minLen span (levels + 1) (.mapping (before ++ (key, value) :: after))

end

section
variable {same : Cbor → Cbor → Bool} (equal : Equivalence fun first second => same first second = true)
include equal

/-- The entries of a map that are walked: the first keys and the last values. -/
private theorem mem_walkCbor_mapping (levels : Nat) (entries : List (Cbor × Cbor)) :
    span ∈ walkCbor minLen (levels + 1) (collapse same (.mapping entries)) ↔
      (∃ before key value after, entries = before ++ (key, value) :: after ∧
        (∀ entry ∈ before, same (collapse same entry.1) (collapse same key) = false) ∧
          span ∈ walkCbor minLen levels (collapse same key)) ∨
      ∃ before key value after, entries = before ++ (key, value) :: after ∧
        (∀ entry ∈ after, same (collapse same entry.1) (collapse same key) = false) ∧
          span ∈ walkCbor minLen levels (collapse same value) := by
  have keys := Dictionary.mem_keys_ofEntries equal (collapseEntries same entries)
  have values := Dictionary.mem_values_ofEntries equal (collapseEntries same entries)
  simp only [collapseEntries_eq_map, Dictionary.firstKey_map] at keys
  simp only [collapseEntries_eq_map, Dictionary.lastValue_map] at values
  rw [collapse, walkCbor, List.mem_flatMap, collapseEntries_eq_map]
  constructor
  · rintro ⟨entry, among, found⟩
    rcases List.mem_append.mp found with inKey | inValue
    · obtain ⟨before, key, value, after, shape, one, fresh⟩ := (keys entry.1).mp (List.mem_map_of_mem among)
      exact Or.inl ⟨before, key, value, after, shape, one ▸ fresh, one ▸ inKey⟩
    · obtain ⟨_, before, key, value, after, shape, rfl, one, last⟩ := (values entry.2).mp (List.mem_map_of_mem among)
      exact Or.inr ⟨before, key, value, after, shape, last, one ▸ inValue⟩
  · rintro (⟨before, key, value, after, shape, fresh, found⟩ | ⟨before, key, value, after, shape, last, found⟩)
    · obtain ⟨entry, among, one⟩ := List.mem_map.mp ((keys _).mpr ⟨before, key, value, after, shape, rfl, fresh⟩)
      exact ⟨entry, among, List.mem_append_left _ (one ▸ found)⟩
    · obtain ⟨entry, among, one⟩ :=
        List.mem_map.mp ((values _).mpr ⟨_, before, key, value, after, shape, rfl, rfl, last⟩)
      exact ⟨entry, among, List.mem_append_right _ (one ▸ found)⟩

theorem mem_walkCbor_collapse_iff (levels : Nat) (item : Cbor) :
    span ∈ walkCbor minLen levels (collapse same item) ↔ Kept same minLen span levels item := by
  induction levels generalizing item with
  | zero => exact iff_of_false (by simp [walkCbor]) (by intro kept; cases kept)
  | succ levels ih =>
    constructor
    · intro member
      cases item with
      | bytes blob => exact .bytes member
      | text text => exact .text member
      | tag number value => exact .tag ((ih value).mp member)
      | array items =>
        rw [collapse, walkCbor, collapseAll_eq_map] at member
        obtain ⟨_, among, found⟩ := List.mem_flatMap.mp member
        obtain ⟨item, listed, rfl⟩ := List.mem_map.mp among
        exact .item listed ((ih item).mp found)
      | mapping entries =>
        rcases (mem_walkCbor_mapping equal levels entries).mp member with
          ⟨before, key, value, after, rfl, fresh, found⟩ | ⟨before, key, value, after, rfl, last, found⟩
        · exact .key fresh ((ih key).mp found)
        · exact .value last ((ih value).mp found)
      | bool value => cases member
      | int value => cases member
      | null => cases member
      | other shown => cases member
    · intro kept
      cases kept with
      | bytes read => exact read
      | text read => exact read
      | tag inside => exact (ih _).mpr inside
      | item member inside =>
        rw [collapse, walkCbor, collapseAll_eq_map]
        exact List.mem_flatMap.mpr ⟨_, List.mem_map_of_mem member, (ih _).mpr inside⟩
      | key fresh inside =>
        exact (mem_walkCbor_mapping equal levels _).mpr (Or.inl ⟨_, _, _, _, rfl, fresh, (ih _).mpr inside⟩)
      | value last inside =>
        exact (mem_walkCbor_mapping equal levels _).mpr (Or.inr ⟨_, _, _, _, rfl, last, (ih _).mpr inside⟩)

end

/-! ## The JSON of Plutus data -/

/-- The data has the byte string within so many levels. -/
inductive HasLeaf (leaf : List UInt8) : Nat → Data → Prop where
  | bytes {levels : Nat} : HasLeaf leaf (levels + 1) (.bytes leaf)
  | field {levels index : Nat} {fields : List Data} {field : Data} (member : field ∈ fields)
      (inside : HasLeaf leaf levels field) : HasLeaf leaf (levels + 1) (.constr index fields)
  | item {levels : Nat} {items : List Data} {item : Data} (member : item ∈ items)
      (inside : HasLeaf leaf levels item) : HasLeaf leaf (levels + 1) (.list items)
  | key {levels : Nat} {entries : List (Data × Data)} {entry : Data × Data} (member : entry ∈ entries)
      (inside : HasLeaf leaf levels entry.1) : HasLeaf leaf (levels + 1) (.map entries)
  | value {levels : Nat} {entries : List (Data × Data)} {entry : Data × Data} (member : entry ∈ entries)
      (inside : HasLeaf leaf levels entry.2) : HasLeaf leaf (levels + 1) (.map entries)

private theorem exists_related {α β : Type} {related : α → β → Prop} {parts : List α} {others : List β}
    (inside : List.Forall₂ related parts others) {part : α} (member : part ∈ parts) :
    ∃ other ∈ others, related part other := by
  induction inside with
  | nil => cases member
  | cons one _ ih =>
    rcases List.mem_cons.mp member with rfl | later
    · exact ⟨_, List.mem_cons_self, one⟩
    · obtain ⟨other, among, two⟩ := ih later
      exact ⟨other, .tail _ among, two⟩

/-- A text's own bytes are emitted as the text. -/
theorem mem_emitBytes_utf8 {text : String} (long : minLen ≤ text.length) : text ∈ emitBytes minLen (utf8 text) := by
  rw [emitBytes, decodeUtf8_utf8]
  exact mem_emitText.mpr ⟨rfl, long⟩

variable {loads : List UInt8 → Option Cbor}

private theorem walk_map (levels : Nat) (shown : List (Json × Json)) :
    walk minLen loads (levels + 1)
        (.dict [("map", .list (shown.map fun pair => .dict [("k", pair.1), ("v", pair.2)]))]) =
      shown.flatMap fun pair => walk minLen loads levels pair.1 ++ walk minLen loads levels pair.2 := by
  simp [walk, Json.get, List.flatMap_map]

theorem mem_walk_of_detailed {text : String} (long : minLen ≤ text.length) {levels : Nat} {data : Data} {shown : Json}
    (detailed : DetailedAs data shown) (leaf : HasLeaf (utf8 text) levels data) :
    text ∈ walk minLen loads levels shown := by
  induction leaf generalizing shown with
  | bytes =>
    cases detailed with
    | bytes hex => simpa [walk, Json.get, hex] using mem_emitBytes_utf8 long
  | field member inside ih =>
    cases detailed with
    | constr parts =>
      obtain ⟨other, among, related⟩ := exists_related parts member
      simpa [walk, Json.get] using ⟨other, among, ih related⟩
  | item member inside ih =>
    cases detailed with
    | list parts =>
      obtain ⟨other, among, related⟩ := exists_related parts member
      simpa [walk, Json.get] using ⟨other, among, ih related⟩
  | key member inside ih =>
    cases detailed with
    | map parts =>
      obtain ⟨_, among, ⟨keys, values⟩⟩ := exists_related parts member
      rw [walk_map]
      exact List.mem_flatMap.mpr ⟨_, among, List.mem_append_left _ (ih keys)⟩
  | value member inside ih =>
    cases detailed with
    | map parts =>
      obtain ⟨_, among, ⟨keys, values⟩⟩ := exists_related parts member
      rw [walk_map]
      exact List.mem_flatMap.mpr ⟨_, among, List.mem_append_right _ (ih values)⟩

/-! ## When a text is recovered -/

/-- What is relied on of the decoder: what it reads out of bytes is shorter than they are, since
every item has a head, and equality of keys is an equivalence. -/
structure Reads (loads : List UInt8 → Option Cbor) (same : Cbor → Cbor → Bool) : Prop where
  shorter : ∀ {blob value leaf}, loads blob = some value → Leaf value leaf → leaf.length < blob.length
  equal : Equivalence fun first second => same first second = true

section
variable {same : Cbor → Cbor → Bool} (reads : Reads loads same) {text : String}
include reads

/-- Whatever is made of bytes is too short to be a text that is longer than they are. -/
theorem not_mem_readBytes {raw : List UInt8} (short : raw.length < (utf8 text).length) :
    text ∉ readBytes minLen loads raw := by
  intro member
  unfold readBytes at member
  split at member
  · rename_i decoded loaded
    obtain ⟨leaf, inside, bound⟩ := leaf_of_mem_walkCbor member
    have head := reads.shorter loaded inside
    omega
  · have bound := size_emitBytes member
    omega

/-- The text itself. -/
theorem recovered_as_text_iff (long : minLen ≤ text.length) :
    text ∈ decodeDatumStrings minLen loads (.text text) ↔ hexBody text = none := by
  rw [decodeDatumStrings, walk]
  cases body : hexBody text with
  | none => exact iff_of_true (mem_emitText.mpr ⟨rfl, long⟩) rfl
  | some raw =>
    have bound := length_hexBody body
    have bytes := length_le_length_utf8 text
    exact iff_of_false (not_mem_readBytes reads (by omega)) (by simp)

/-- The bare hexadecimal of its bytes. -/
theorem recovered_as_hex_iff (four : 4 ≤ minLen) (long : minLen ≤ text.length) :
    text ∈ decodeDatumStrings minLen loads (.text (hexOf (utf8 text))) ↔ loads (utf8 text) = none := by
  have bytes := length_le_length_utf8 text
  have body : hexBody (hexOf (utf8 text)) = some (utf8 text) := hexBody_hexOf (by omega)
  simp only [decodeDatumStrings, walk, body, readBytes]
  cases loaded : loads (utf8 text) with
  | none => exact iff_of_true (mem_emitBytes_utf8 long) rfl
  | some decoded =>
    refine iff_of_false ?_ (by simp)
    intro member
    obtain ⟨leaf, inside, bound⟩ := leaf_of_mem_walkCbor member
    have head := reads.shorter loaded inside
    omega

/-- The hexadecimal of a CBOR item. -/
theorem recovered_as_cbor_iff (four : 4 ≤ minLen) (long : minLen ≤ text.length)
    (other : ∃ char ∈ text.toList, isHexDigit char = false) {item : Cbor} {blob : List UInt8}
    (loaded : loads blob = some (collapse same item)) :
    text ∈ decodeDatumStrings minLen loads (.text (hexOf blob)) ↔ Kept same minLen text (maxWalkDepth + 1) item := by
  rw [← mem_walkCbor_collapse_iff reads.equal]
  by_cases short : blob.length < 4
  · refine iff_of_false ?_ ?_
    · simp only [decodeDatumStrings, walk, hexBody_of_short short, mem_emitText]
      rintro ⟨rfl, _⟩
      obtain ⟨char, member, digit⟩ := other
      rw [(mem_hexOf member).1] at digit
      cases digit
    · intro member
      obtain ⟨leaf, inside, bound⟩ := leaf_of_mem_walkCbor member
      have head := reads.shorter loaded inside
      have bytes := length_le_length_utf8 text
      omega
  · simp only [decodeDatumStrings, walk, hexBody_hexOf (Nat.le_of_not_lt short), readBytes, loaded]

/-- **Exactly when a text is recovered**, carrier by carrier: the text itself, its bytes as a JSON
leaf, as bare hexadecimal, anywhere in the JSON of Plutus data, and anywhere in the hexadecimal of
a CBOR item, of Plutus data or any other. -/
theorem recovered_iff (four : 4 ≤ minLen) (long : minLen ≤ text.length)
    (other : ∃ char ∈ text.toList, isHexDigit char = false) :
    (text ∈ decodeDatumStrings minLen loads (.text text) ↔ hexBody text = none) ∧
    text ∈ decodeDatumStrings minLen loads (.dict [("bytes", .text (hexOf (utf8 text)))]) ∧
    (text ∈ decodeDatumStrings minLen loads (.text (hexOf (utf8 text))) ↔ loads (utf8 text) = none) ∧
    (∀ data shown, DetailedAs data shown → HasLeaf (utf8 text) (maxWalkDepth + 1) data →
      text ∈ decodeDatumStrings minLen loads shown) ∧
    ∀ item blob, loads blob = some (collapse same item) →
      (text ∈ decodeDatumStrings minLen loads (.text (hexOf blob)) ↔
        Kept same minLen text (maxWalkDepth + 1) item) := by
  refine ⟨recovered_as_text_iff reads long, ?_, recovered_as_hex_iff reads four long, ?_, ?_⟩
  · exact mem_walk_of_detailed long (.bytes (fromHex_hexOf _)) .bytes
  · intro data shown detailed leaf
    exact mem_walk_of_detailed long detailed leaf
  · intro item blob loaded
    exact recovered_as_cbor_iff reads four long other loaded

end

/-! ## A link that reads as CBOR -/

/-- What `cbor2` makes of byte strings and texts of less than 24 bytes. -/
def loadShort : List UInt8 → Option Cbor
  | [] => none
  | head :: rest =>
      let kind := head.toNat / 32
      let size := head.toNat % 32
      if 24 ≤ size ∨ rest.length < size then none
      else if kind = 2 then some (.bytes (rest.take size))
      else if kind = 3 then (decodeUtf8 (rest.take size)).map .text
      else none

open Classical in
/-- Keys are equal as values. -/
noncomputable def sameValue (first second : Cbor) : Bool := decide (first = second)

private theorem reads_loadShort : Reads loadShort sameValue where
  equal := by
    have equal : ∀ first second, sameValue first second = true ↔ first = second := by
      intro first second
      simp [sameValue]
    refine ⟨fun first => (equal _ _).mpr rfl, fun one => (equal _ _).mpr ?_, fun one two => (equal _ _).mpr ?_⟩
    · exact ((equal _ _).mp one).symm
    · exact ((equal _ _).mp one).trans ((equal _ _).mp two)
  shorter := by
    intro blob value leaf loaded inside
    cases blob with
    | nil => cases loaded
    | cons head rest =>
      have bound : ∀ size, (rest.take size).length < (head :: rest).length := by
        intro size
        rw [List.length_take, List.length_cons]
        omega
      unfold loadShort at loaded
      dsimp only at loaded
      by_cases long : 24 ≤ head.toNat % 32 ∨ rest.length < head.toNat % 32
      · rw [if_pos long] at loaded
        cases loaded
      rw [if_neg long] at loaded
      by_cases bytes : head.toNat / 32 = 2
      · rw [if_pos bytes] at loaded
        obtain rfl := Option.some.inj loaded
        cases inside
        exact bound _
      rw [if_neg bytes] at loaded
      by_cases isText : head.toNat / 32 = 3
      · rw [if_pos isText] at loaded
        obtain ⟨text, decoded, rfl⟩ := Option.map_eq_some_iff.mp loaded
        cases inside
        rw [utf8_of_decodeUtf8 decoded]
        exact bound _
      · rw [if_neg isText] at loaded
        cases loaded

theorem link_recovered_in_item :
    "https://drop.io" ∈ decodeDatumStrings 4 loadShort (.text (hexOf (0x4f :: utf8 "https://drop.io"))) :=
  ((recovered_iff reads_loadShort (Nat.le_refl 4) (by decide) ⟨'h', by decide, by decide⟩).2.2.2.2
    (.bytes (utf8 "https://drop.io")) (0x4f :: utf8 "https://drop.io") rfl).mpr
      (.bytes (mem_emitBytes_utf8 (by decide)))

/-- The bytes begin with the head of a text of eight bytes. -/
theorem link_swallowed :
    decodeDatumStrings 4 loadShort (.text (hexOf (utf8 "https://drop.io"))) = ["ttps://d"] ∧
      "https://drop.io" ∉ decodeDatumStrings 4 loadShort (.text (hexOf (utf8 "https://drop.io"))) := by
  have spans : decodeDatumStrings 4 loadShort (.text (hexOf (utf8 "https://drop.io"))) = ["ttps://d"] := by
    decide +kernel
  rw [spans]
  exact ⟨rfl, by decide⟩

end TransactionMonitoring.DatumText
