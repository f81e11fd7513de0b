import Mathlib.Algebra.Order.Ring.Nat
import TransactionMonitoring.JsonValue

/-! The display tree of a Plutus datum.

A datum arrives as CBOR or as the detailed-schema JSON of Ogmios, and each has a walk of its
own.  Both walks draw on one budget of nodes, in the order they meet them, and stop at a
depth.  What `cbor2` and the JSON decoder return is a value of `Cbor` or `Json`; the decoder of
the CBOR bytes and the test for printable text are parameters.

A walk at a depth is modelled by the levels left before the depth cap.
-/
namespace TransactionMonitoring.DatumStructure

/-! ## Values and trees -/

/-- A value as `cbor2` decodes it.  A list and a tuple are both an `array`, a dict and its own
frozen mapping both a `mapping`: the walk tells neither pair apart. -/
inductive Cbor where
  | tag (number : Nat) (value : Cbor)
  | bool (value : Bool)
  | int (value : Int)
  | bytes (value : List UInt8)
  | text (value : String)
  | array (items : List Cbor)
  | mapping (entries : List (Cbor × Cbor))
  | null
  | other (shown : String)

inductive NodeKind where
  | constructor
  | list
  | map
  | mapEntry
  | bytes
  | int
  | text
  | truncated
  | unknown
deriving DecidableEq, Repr

structure DatumNode where
  kind : NodeKind
  constructorIndex : Option Int := none
  value : Option String := none
  text : Option String := none
  children : List DatumNode := []

mutual

/-- The nodes of a tree. -/
def DatumNode.size : DatumNode → Nat
  | ⟨_, _, _, _, children⟩ => 1 + sizes children

def sizes : List DatumNode → Nat
  | [] => 0
  | node :: rest => node.size + sizes rest

end

inductive Encoding where
  | cborHex
  | plutusJson
  | none
deriving DecidableEq, Repr

structure DecodedDatum where
  root : Option DatumNode := none
  encoding : Encoding := .none
  truncated : Bool := false
  error : Option String := none

/-- The nodes a decoded datum is shown with. -/
def DecodedDatum.size (decoded : DecodedDatum) : Nat := decoded.root.elim 0 DatumNode.size

/-! ## Leaves -/

def hexDigits : List Char := "0123456789abcdef".toList

/-- `bytes.hex`. -/
def hexOf (blob : List UInt8) : String :=
  String.ofList (blob.flatMap fun byte =>
    [hexDigits.getD (byte.toNat / 16) '0', hexDigits.getD (byte.toNat % 16) '0'])

/-- The value of a hexadecimal digit of either case. -/
def digitOf (digit : Char) : Option Nat :=
  (hexDigits.findIdx? (· = digit)).or ("0123456789ABCDEF".toList.findIdx? (· = digit))

def asciiSpace (char : Char) : Bool := char ∈ [' ', '\t', '\n', '\r', '\x0b', '\x0c']

def fromDigits : List Char → Option (List UInt8)
  | [] => some []
  | [char] => if asciiSpace char then some [] else none
  | high :: low :: rest =>
      if asciiSpace high then fromDigits (low :: rest)
      else
        match digitOf high, digitOf low, fromDigits rest with
        | some high, some low, some blob => some (UInt8.ofNat (16 * high + low) :: blob)
        | _, _, _ => none

theorem fromDigits_cons (high low : Char) {left right : Nat} {rest : List Char} {blob : List UInt8}
    (first : digitOf high = some left) (second : digitOf low = some right) (digit : asciiSpace high = false)
    (later : fromDigits rest = some blob) :
    fromDigits (high :: low :: rest) = some (UInt8.ofNat (16 * left + right) :: blob) := by
  rw [fromDigits, digit, if_neg Bool.false_ne_true, first, second, later]

/-- `bytes.fromhex`: white space between the bytes is skipped. -/
def fromHex (text : String) : Option (List UInt8) := fromDigits text.toList

/-- `_printable_text`. -/
def printableText (isprintable : String → Bool) (blob : List UInt8) : Option String :=
  match String.fromUTF8? ⟨blob.toArray⟩ with
  | none => none
  | some decoded => if decoded = "" ∨ ¬ isprintable decoded then none else some decoded

/-- `str` of a truth value. -/
def boolText (value : Bool) : String := if value then "True" else "False"

/-! ## The budget -/

/-- `_Budget`; an allowance below zero is one of zero. -/
structure Budget where
  remaining : Nat
  hit : Bool := false
deriving DecidableEq, Repr

/-- `take`. -/
def Budget.take (budget : Budget) : Bool × Budget :=
  if budget.remaining ≤ 0 then (false, { budget with hit := true })
  else (true, { budget with remaining := budget.remaining - 1 })

/-- What a walk leaves in place of a node it does not open. -/
def elided (budget : Budget) : DatumNode × Budget := ({ kind := .truncated }, { budget with hit := true })

/-! ## The walks

Both walks open with the same guard and differ in what they make of a node: a leaf, a node
over its parts, or a map over its entries. -/

inductive Opened (α : Type) where
  | leaf (node : DatumNode)
  | branch (node : DatumNode) (parts : List α)
  | map (entries : List (α × α))

section Walks
variable {α : Type} (walk : α → Budget → DatumNode × Budget)

/-- The nodes of several parts, one after the other. -/
def walkAll : List α → Budget → List DatumNode × Budget
  | [], budget => ([], budget)
  | part :: rest, budget =>
      let first := walk part budget
      let later := walkAll rest first.2
      (first.1 :: later.1, later.2)

/-- The nodes of map entries; an entry's own node draws on no budget. -/
def walkEntries : List (α × α) → Budget → List DatumNode × Budget
  | [], budget => ([], budget)
  | (key, value) :: rest, budget =>
      let left := walk key budget
      let right := walk value left.2
      let later := walkEntries rest right.2
      ({ kind := .mapEntry, children := [left.1, right.1] } :: later.1, later.2)

/-- A node over its walked children. -/
def parent (node : DatumNode) (walked : List DatumNode × Budget) : DatumNode × Budget :=
  ({ node with children := walked.1 }, walked.2)

def walkOpened : Opened α → Budget → DatumNode × Budget
  | .leaf node, budget => (node, budget)
  | .branch node parts, budget => parent node (walkAll walk parts budget)
  | .map entries, budget => parent { kind := .map } (walkEntries walk entries budget)

end Walks

/-- A walk with `levels` left before the depth cap. -/
def walkNode {α : Type} (opened : α → Opened α) : Nat → α → Budget → DatumNode × Budget
  | 0, _, budget => elided budget
  | levels + 1, node, budget =>
      match budget.take with
      | (false, left) => elided left
      | (true, left) => walkOpened (walkNode opened levels) (opened node) left

variable (isprintable : String → Bool)

/-! ## The CBOR walk -/

def tagConstrCompactBase : Nat := 121
def tagConstrCompactMax : Nat := 127
def tagConstrExtendedBase : Nat := 1280
def tagConstrExtendedMax : Nat := 1400
def tagConstrGeneral : Nat := 102

/-- `_constructor_from_tag`. -/
def constructorFromTag (number : Nat) : Option Nat :=
  if tagConstrCompactBase ≤ number ∧ number ≤ tagConstrCompactMax then some (number - tagConstrCompactBase)
  else if tagConstrExtendedBase ≤ number ∧ number ≤ tagConstrExtendedMax then
    some (number - tagConstrExtendedBase + (tagConstrCompactMax - tagConstrCompactBase + 1))
  else none

/-- The fields of a payload: its items, or the payload itself where it is no array. -/
def Cbor.fields : Cbor → List Cbor
  | .array items => items
  | value => [value]

/-- The index of a constructor where it is an integer; a truth value is one too. -/
def Cbor.index : Cbor → Option Int
  | .int value => some value
  | .bool value => some (if value then 1 else 0)
  | _ => none

/-- What the CBOR walk makes of a tag. -/
def openTag (number : Nat) (value : Cbor) : Opened Cbor :=
  match constructorFromTag number with
  | some index => .branch { kind := .constructor, constructorIndex := some (index : Int) } value.fields
  | none =>
      if number = tagConstrGeneral then
        match value with
        | .array [index, fields] => .branch { kind := .constructor, constructorIndex := index.index } fields.fields
        | _ => .branch { kind := .unknown } [value]
      else .branch { kind := .unknown } [value]

/-- What the CBOR walk makes of a node. -/
def openCbor : Cbor → Opened Cbor
  | .tag number value => openTag number value
  | .bool value => .leaf { kind := .unknown, value := some (boolText value) }
  | .int value => .leaf { kind := .int, value := some (toString value) }
  | .bytes blob => .leaf { kind := .bytes, value := some (hexOf blob), text := printableText isprintable blob }
  | .text value => .leaf { kind := .text, value := some value }
  | .array items => .branch { kind := .list } items
  | .mapping entries => .map entries
  | .null => .leaf { kind := .unknown }
  | .other shown => .leaf { kind := .unknown, value := some shown }

/-- `_walk_cbor`. -/
def walkCbor (levels : Nat) (node : Cbor) (budget : Budget) : DatumNode × Budget :=
  walkNode (openCbor isprintable) levels node budget

/-! ## The JSON walk -/

/-- The index of a constructor where it is an integer; a truth value is one too. -/
def jsonIndex : Json → Option Int
  | .int value => some value
  | .bool value => some (if value then 1 else 0)
  | _ => none

/-- The entries of a map array that are objects, each by its key and value. -/
def mapEntries (entries : List Json) : List (Json × Json) :=
  entries.filterMap fun entry =>
    match entry with
    | .dict members => some (((Json.dict members).get "k").getD .null, ((Json.dict members).get "v").getD .null)
    | _ => none

/-- The value of a byte string leaf; one that is no hexadecimal is shown as it came. -/
def openBytes (rawHex : String) : DatumNode :=
  match fromHex rawHex with
  | some blob => { kind := .bytes, value := some (hexOf blob), text := printableText isprintable blob }
  | none => { kind := .bytes, value := some rawHex }

/-- What the JSON walk makes of an object that is no constructor, by the first member it
recognises; failing that, the object stands over all its values. -/
def openObject (node : Json) (members : List (String × Json)) : Opened Json :=
  match node.get "list", node.get "map", node.get "bytes", node.get "int", node.get "integer", node.get "string" with
  | some (.list items), _, _, _, _, _ => .branch { kind := .list } items
  | _, some (.list entries), _, _, _, _ => .map (mapEntries entries)
  | _, _, some (.text rawHex), _, _, _ => .leaf (openBytes isprintable rawHex)
  | _, _, _, some (.int value), _, _ => .leaf { kind := .int, value := some (toString value) }
  | _, _, _, _, some (.int value), _ => .leaf { kind := .int, value := some (toString value) }
  | _, _, _, _, _, some (.text value) => .leaf { kind := .text, value := some value }
  | _, _, _, _, _, _ => .branch { kind := .unknown } (members.map Prod.snd)

/-- What an object is opened to, and by which member. -/
inductive ObjectOpened (node : Json) (members : List (String × Json)) : Opened Json → Prop where
  | list {items : List Json} (found : node.get "list" = some (.list items)) :
      ObjectOpened node members (.branch { kind := .list } items)
  | map {entries : List Json} (found : node.get "map" = some (.list entries)) :
      ObjectOpened node members (.map (mapEntries entries))
  | leaf {kind : NodeKind} {value text : Option String} (whole : kind ≠ .truncated) :
      ObjectOpened node members (.leaf { kind := kind, value := value, text := text })
  | unknown : ObjectOpened node members (.branch { kind := .unknown } (members.map Prod.snd))

theorem openObject_opened {node : Json} {members : List (String × Json)} {opened : Opened Json}
    (opens : openObject isprintable node members = opened) : ObjectOpened node members opened := by
  subst opens
  unfold openObject
  split
  · rename_i found
    exact .list found
  · rename_i found _
    exact .map found
  · unfold openBytes
    split
    · exact .leaf (by decide)
    · exact .leaf (by decide)
  · exact .leaf (by decide)
  · exact .leaf (by decide)
  · exact .leaf (by decide)
  · exact .unknown

/-- The fields of a constructor object. -/
def jsonFields (node : Json) : List Json :=
  match node.get "fields" with
  | some (.list fields) => fields
  | _ => []

/-- What the JSON walk makes of a node. -/
def openPlutusJson (node : Json) : Opened Json :=
  match node with
  | .list items => .branch { kind := .list } items
  | .bool value => .leaf { kind := .unknown, value := some (boolText value) }
  | .int value => .leaf { kind := .int, value := some (toString value) }
  | .text value => .leaf { kind := .text, value := some value }
  | .null => .leaf { kind := .unknown }
  | .float _ => .leaf { kind := .unknown }
  | .dict members =>
      match node.get "constructor" with
      | some index => .branch { kind := .constructor, constructorIndex := jsonIndex index } (jsonFields node)
      | none => openObject isprintable node members

/-- `_walk_plutus_json`. -/
def walkPlutusJson (levels : Nat) (node : Json) (budget : Budget) : DatumNode × Budget :=
  walkNode (openPlutusJson isprintable) levels node budget

/-! ## Decoding -/

variable (loads : List UInt8 → Option Cbor) (maxWalkDepth : Nat)

/-- `decode_datum_structure`; `loads` answers nothing where `cbor2` raises. -/
def decodeDatumStructure (datum : Json) (maxNodes : Nat) : DecodedDatum :=
  let shown (encoding : Encoding) (walked : DatumNode × Budget) : DecodedDatum :=
    { root := some walked.1, encoding := encoding, truncated := walked.2.hit }
  match datum with
  | .null => { encoding := .none }
  | .text datum =>
      match fromHex datum with
      | none => { encoding := .cborHex, error := some "datum is not valid hex" }
      | some blob =>
        match loads blob with
        | none => { encoding := .cborHex, error := some "datum is not valid CBOR" }
        | some decoded =>
            shown .cborHex (walkCbor isprintable (maxWalkDepth + 1) decoded { remaining := maxNodes })
  | .list _ =>
      shown .plutusJson (walkPlutusJson isprintable (maxWalkDepth + 1) datum { remaining := maxNodes })
  | .dict _ =>
      shown .plutusJson (walkPlutusJson isprintable (maxWalkDepth + 1) datum { remaining := maxNodes })
  | _ => { encoding := .none, error := some "unrecognised datum representation" }

/-! ## Plutus data and its two representations -/

/-- Plutus data. -/
inductive Data where
  | constr (index : Nat) (fields : List Data)
  | map (entries : List (Data × Data))
  | list (items : List Data)
  | int (value : Int)
  | bytes (blob : List UInt8)

/-- Two entries whose keys and values are related. -/
inductive Entrywise {α β : Type} (related : α → β → Prop) : α × α → β × β → Prop where
  | entry {key value : α} {otherKey otherValue : β} (keys : related key otherKey)
      (values : related value otherValue) : Entrywise related (key, value) (otherKey, otherValue)

/-- What `cbor2` makes of an encoding of the data: constructors by their compact, alternative
or general tag, integers and byte strings of any encoding by their value.  A map keeps its
entries because its keys are distinct. -/
inductive DecodesTo : Data → Cbor → Prop where
  | compact {index : Nat} {fields : List Data} {items : List Cbor} (small : index ≤ 6)
      (inside : List.Forall₂ DecodesTo fields items) :
      DecodesTo (.constr index fields) (.tag (121 + index) (.array items))
  | extended {index : Nat} {fields : List Data} {items : List Cbor} (large : 7 ≤ index) (small : index ≤ 127)
      (inside : List.Forall₂ DecodesTo fields items) :
      DecodesTo (.constr index fields) (.tag (1280 + (index - 7)) (.array items))
  | general {index : Nat} {fields : List Data} {items : List Cbor}
      (inside : List.Forall₂ DecodesTo fields items) :
      DecodesTo (.constr index fields) (.tag 102 (.array [.int index, .array items]))
  | map {entries : List (Data × Data)} {decoded : List (Cbor × Cbor)} (distinct : (entries.map Prod.fst).Nodup)
      (inside : List.Forall₂ (Entrywise DecodesTo) entries decoded) :
      DecodesTo (.map entries) (.mapping decoded)
  | list {items : List Data} {decoded : List Cbor} (inside : List.Forall₂ DecodesTo items decoded) :
      DecodesTo (.list items) (.array decoded)
  | int (value : Int) : DecodesTo (.int value) (.int value)
  | bytes (blob : List UInt8) : DecodesTo (.bytes blob) (.bytes blob)

/-- The detailed-schema JSON of the data. -/
inductive DetailedAs : Data → Json → Prop where
  | constr {index : Nat} {fields : List Data} {items : List Json} (inside : List.Forall₂ DetailedAs fields items) :
      DetailedAs (.constr index fields) (.dict [("constructor", .int index), ("fields", .list items)])
  | map {entries : List (Data × Data)} {shown : List (Json × Json)}
      (inside : List.Forall₂ (Entrywise DetailedAs) entries shown) :
      DetailedAs (.map entries)
        (.dict [("map", .list (shown.map fun pair => .dict [("k", pair.1), ("v", pair.2)]))])
  | list {items : List Data} {shown : List Json} (inside : List.Forall₂ DetailedAs items shown) :
      DetailedAs (.list items) (.dict [("list", .list shown)])
  | int (value : Int) : DetailedAs (.int value) (.dict [("int", .int value)])
  | bytes {blob : List UInt8} {rawHex : String} (hex : fromHex rawHex = some blob) :
      DetailedAs (.bytes blob) (.dict [("bytes", .text rawHex)])

section Agreement
variable {α β γ : Type} {left : α → Budget → DatumNode × Budget} {right : β → Budget → DatumNode × Budget}
variable {first : γ → α → Prop} {second : γ → β → Prop}

/-- Walks that agree on the parts agree on the list, whatever budget it starts with. -/
private theorem walkAll_agree
    (agree : ∀ part one other budget, first part one → second part other → left one budget = right other budget)
    {parts : List γ} {ones : List α} {others : List β} (budget : Budget)
    (firsts : List.Forall₂ first parts ones) (seconds : List.Forall₂ second parts others) :
    walkAll left ones budget = walkAll right others budget := by
  induction firsts generalizing others budget with
  | nil =>
    cases seconds
    rfl
  | cons one _ ih =>
    cases seconds with
    | cons other rest => simp only [walkAll, agree _ _ _ budget one other, ih _ rest]

private theorem walkEntries_agree
    (agree : ∀ part one other budget, first part one → second part other → left one budget = right other budget)
    {parts : List (γ × γ)} {ones : List (α × α)} {others : List (β × β)} (budget : Budget)
    (firsts : List.Forall₂ (Entrywise first) parts ones) (seconds : List.Forall₂ (Entrywise second) parts others) :
    walkEntries left ones budget = walkEntries right others budget := by
  induction firsts generalizing others budget with
  | nil =>
    cases seconds
    rfl
  | cons one _ ih =>
    cases seconds with
    | cons other rest =>
      cases one with
      | entry key value =>
        cases other with
        | entry otherKey otherValue =>
          simp only [walkEntries, agree _ _ _ budget key otherKey, agree _ _ _ _ value otherValue, ih _ rest]

end Agreement

theorem constructorFromTag_compact {index : Nat} (small : index ≤ 6) :
    constructorFromTag (121 + index) = some index := by
  unfold constructorFromTag tagConstrCompactBase tagConstrCompactMax
  rw [if_pos (by omega)]
  congr 1
  omega

theorem constructorFromTag_extended {index : Nat} (large : 7 ≤ index) (small : index ≤ 127) :
    constructorFromTag (1280 + (index - 7)) = some index := by
  unfold constructorFromTag tagConstrCompactBase tagConstrCompactMax tagConstrExtendedBase tagConstrExtendedMax
  rw [if_neg (by omega), if_pos (by omega)]
  congr 1
  omega

/-- The entries of the detailed schema are all objects with a key and a value. -/
theorem mapEntries_detailed (shown : List (Json × Json)) :
    mapEntries (shown.map fun pair => .dict [("k", pair.1), ("v", pair.2)]) = shown := by
  induction shown with
  | nil => rfl
  | cons pair rest ih =>
    rw [List.map_cons, mapEntries, List.filterMap_cons]
    exact congrArg (pair :: ·) ih

theorem openPlutusJson_map (shown : List (Json × Json)) :
    openPlutusJson isprintable
        (.dict [("map", .list (shown.map fun pair => .dict [("k", pair.1), ("v", pair.2)]))]) = .map shown :=
  congrArg Opened.map (mapEntries_detailed shown)

/-- Opened representations of the same data: the same leaf, or nodes alike over parts that
represent the same data again. -/
inductive SameOpened : Opened Cbor → Opened Json → Prop where
  | leaf (node : DatumNode) : SameOpened (.leaf node) (.leaf node)
  | branch (node : DatumNode) {fields : List Data} {items : List Cbor} {shown : List Json}
      (decodes : List.Forall₂ DecodesTo fields items) (detailed : List.Forall₂ DetailedAs fields shown) :
      SameOpened (.branch node items) (.branch node shown)
  | map {entries : List (Data × Data)} {decoded : List (Cbor × Cbor)} {shown : List (Json × Json)}
      (decodes : List.Forall₂ (Entrywise DecodesTo) entries decoded)
      (detailed : List.Forall₂ (Entrywise DetailedAs) entries shown) :
      SameOpened (.map decoded) (.map shown)

private theorem sameOpened {data : Data} {decoded : Cbor} {shown : Json} (decodes : DecodesTo data decoded)
    (detailed : DetailedAs data shown) :
    SameOpened (openCbor isprintable decoded) (openPlutusJson isprintable shown) := by
  cases decodes with
  | compact small inside =>
    cases detailed with
    | constr others =>
      simp only [openCbor, openTag, constructorFromTag_compact small]
      exact .branch _ inside others
  | extended large small inside =>
    cases detailed with
    | constr others =>
      simp only [openCbor, openTag, constructorFromTag_extended large small]
      exact .branch _ inside others
  | general inside =>
    cases detailed with
    | constr others => exact .branch _ inside others
  | map distinct inside =>
    cases detailed with
    | @map _ shown others =>
      rw [openPlutusJson_map]
      exact .map inside others
  | list inside =>
    cases detailed with
    | list others => exact .branch _ inside others
  | int value =>
    cases detailed with
    | int => exact .leaf _
  | bytes blob =>
    cases detailed with
    | @bytes _ rawHex hex =>
      have opened : openBytes isprintable rawHex =
          { kind := .bytes, value := some (hexOf blob), text := printableText isprintable blob } := by
        rw [openBytes, hex]
      rw [openCbor, ← opened]
      exact .leaf _

/-- Both walks take one node of the budget for the data itself and then meet its parts in the
same order. -/
theorem walkCbor_eq_walkPlutusJson (levels : Nat) (data : Data) (decoded : Cbor) (shown : Json) (budget : Budget)
    (decodes : DecodesTo data decoded) (detailed : DetailedAs data shown) :
    walkCbor isprintable levels decoded budget = walkPlutusJson isprintable levels shown budget := by
  induction levels generalizing data decoded shown budget with
  | zero => rfl
  | succ levels ih =>
    rw [walkCbor, walkPlutusJson, walkNode, walkNode]
    rcases budget.take with ⟨_ | _, left⟩
    · rfl
    · have same := sameOpened isprintable decodes detailed
      generalize openCbor isprintable decoded = one at same ⊢
      generalize openPlutusJson isprintable shown = other at same ⊢
      cases same with
      | leaf node => rfl
      | branch node inside others => exact congrArg (parent node) (walkAll_agree ih left inside others)
      | map inside others => exact congrArg (parent { kind := .map }) (walkEntries_agree ih left inside others)

/-- The tree of a datum and its truncation mark are the same in both representations, whatever
the budgets. -/
theorem structure_of_either_representation (maxNodes : Nat) (data : Data) (datum : String) (blob : List UInt8)
    (decoded : Cbor) (shown : Json) (hex : fromHex datum = some blob) (loaded : loads blob = some decoded)
    (decodes : DecodesTo data decoded) (detailed : DetailedAs data shown) :
    (decodeDatumStructure isprintable loads maxWalkDepth (.text datum) maxNodes).root =
        (decodeDatumStructure isprintable loads maxWalkDepth shown maxNodes).root ∧
      (decodeDatumStructure isprintable loads maxWalkDepth (.text datum) maxNodes).truncated =
        (decodeDatumStructure isprintable loads maxWalkDepth shown maxNodes).truncated ∧
      (decodeDatumStructure isprintable loads maxWalkDepth (.text datum) maxNodes).root ≠ none := by
  have same := walkCbor_eq_walkPlutusJson isprintable (maxWalkDepth + 1) data decoded shown
    { remaining := maxNodes } decodes detailed
  have object : ∃ members, shown = .dict members := by
    cases detailed <;> exact ⟨_, rfl⟩
  obtain ⟨members, rfl⟩ := object
  simp only [decodeDatumStructure, hex, loaded, same]
  exact ⟨trivial, trivial, Option.some_ne_none _⟩

/-- A constructor with a general tag over a map, in both representations. -/
theorem structure_of_a_map_in_a_constructor :
    (decodeDatumStructure (fun _ => true)
        (fun _ => some (.tag 102 (.array [.int 0, .array [.mapping [(.int 1, .bytes [255])]]]))) 64
        (.text "d8669f009fa10141ffffff") 3).root =
      (decodeDatumStructure (fun _ => true)
        (fun _ => some (.tag 102 (.array [.int 0, .array [.mapping [(.int 1, .bytes [255])]]]))) 64
        (.dict [("constructor", .int 0), ("fields", .list [.dict [("map", .list
          [.dict [("k", .dict [("int", .int 1)]), ("v", .dict [("bytes", .text "FF")])]])]])]) 3).root :=
  (structure_of_either_representation (fun _ => true)
    (fun _ => some (.tag 102 (.array [.int 0, .array [.mapping [(.int 1, .bytes [255])]]]))) 64 3
    (.constr 0 [.map [(.int 1, .bytes [255])]]) "d8669f009fa10141ffffff" _ _ _ rfl rfl
    (.general (.cons (.map (by simp) (.cons (.entry (.int 1) (.bytes [255])) .nil)) .nil))
    (.constr (.cons (.map (.cons (.entry (.int 1) (.bytes (by decide))) .nil)) .nil))).1

/-! ## The size of a tree -/

theorem sizes_cons (node : DatumNode) (rest : List DatumNode) : sizes (node :: rest) = node.size + sizes rest := rfl

theorem size_eq (node : DatumNode) : node.size = 1 + sizes node.children := by
  cases node
  rfl

theorem length_le_sizes (nodes : List DatumNode) : nodes.length ≤ sizes nodes := by
  induction nodes with
  | nil => exact Nat.zero_le _
  | cons node rest ih =>
    have positive : 1 ≤ node.size := by
      rw [size_eq]
      omega
    rw [List.length_cons, sizes_cons]
    omega

section Growth
variable {α : Type} {walk : α → Budget → DatumNode × Budget}

/-- A walk emits a node for every part, also for those it elides. -/
theorem walkAll_length (parts : List α) (budget : Budget) : (walkAll walk parts budget).1.length = parts.length := by
  induction parts generalizing budget with
  | nil => rfl
  | cons part rest ih => exact congrArg (· + 1) (ih _)

variable {factor : Nat}

/-- A part costs one node and what it takes from the budget, at `factor` a piece. -/
def Priced (factor : Nat) (walk : α → Budget → DatumNode × Budget) (part : α) : Prop :=
  ∀ budget, (walk part budget).1.size + factor * (walk part budget).2.remaining ≤ 1 + factor * budget.remaining

theorem walkAll_priced {parts : List α} (priced : ∀ part ∈ parts, Priced factor walk part) (budget : Budget) :
    sizes (walkAll walk parts budget).1 + factor * (walkAll walk parts budget).2.remaining ≤
      parts.length + factor * budget.remaining := by
  induction parts generalizing budget with
  | nil => exact Nat.le_refl _
  | cons part rest ih =>
    obtain ⟨here, later⟩ := List.forall_mem_cons.mp priced
    have first := here budget
    have others := ih later (walk part budget).2
    simp only [walkAll, sizes_cons, List.length_cons]
    omega

theorem walkEntries_priced {entries : List (α × α)}
    (priced : ∀ entry ∈ entries, Priced factor walk entry.1 ∧ Priced factor walk entry.2) (budget : Budget) :
    sizes (walkEntries walk entries budget).1 + factor * (walkEntries walk entries budget).2.remaining ≤
      3 * entries.length + factor * budget.remaining := by
  induction entries generalizing budget with
  | nil => exact Nat.le_refl _
  | cons entry rest ih =>
    obtain ⟨⟨key, value⟩, later⟩ := List.forall_mem_cons.mp priced
    have first := key budget
    have second := value (walk entry.1 budget).2
    have others := ih later (walk entry.2 (walk entry.1 budget).2).2
    simp only [walkEntries, sizes_cons, size_eq { kind := .mapEntry, children := _ }, List.length_cons]
    simp only [sizes]
    omega

/-- An opened node of at most `width` entries whose parts are in `inside` again; a lone payload
counts as narrow. -/
def Fits (inside : α → Prop) (width : Nat) : Opened α → Prop
  | .leaf node => node.children = []
  | .branch _ parts => parts.length ≤ width + 1 ∧ ∀ part ∈ parts, inside part
  | .map entries => entries.length ≤ width ∧ ∀ entry ∈ entries, inside entry.1 ∧ inside entry.2

/-- A node taken from the budget pays for all the children it can have. -/
theorem walkNode_priced {opened : α → Opened α} {inside : α → Prop} {width : Nat}
    (fits : ∀ node, inside node → Fits inside width (opened node)) (levels : Nat) (node : α) (within : inside node) :
    Priced (3 * (width + 1)) (walkNode opened levels) node := by
  induction levels generalizing node with
  | zero => exact fun _ => Nat.le_refl _
  | succ levels ih =>
    intro budget
    rw [walkNode]
    unfold Budget.take
    split
    · rename_i left empty
      split at empty
      · obtain ⟨-, rfl⟩ := Prod.mk.injEq .. ▸ empty
        exact Nat.le_refl _
      · cases empty
    · rename_i left taken
      split at taken
      · cases taken
      · obtain ⟨-, rfl⟩ := Prod.mk.injEq .. ▸ taken
        have paid : 3 * (width + 1) * budget.remaining =
            3 * (width + 1) * (budget.remaining - 1) + 3 * (width + 1) := by
          rw [← Nat.mul_succ]
          congr 1
          omega
        have fit := fits node within
        generalize opened node = shape at fit ⊢
        cases shape with
        | leaf leaf =>
          simp only [walkOpened, size_eq leaf, show leaf.children = [] from fit, sizes]
          omega
        | branch node parts =>
          have inner := walkAll_priced (fun part member => ih part (fit.2 part member))
            { budget with remaining := budget.remaining - 1 }
          have narrow := fit.1
          simp only [walkOpened, parent, size_eq { node with children := _ }]
          simp only at inner
          omega
        | map entries =>
          have inner := walkEntries_priced
            (fun entry member => ⟨ih _ (fit.2 entry member).1, ih _ (fit.2 entry member).2⟩)
            { budget with remaining := budget.remaining - 1 }
          have narrow := fit.1
          simp only [walkOpened, parent, size_eq { kind := .map, children := _ }]
          simp only at inner
          omega

end Growth

/-- No array or mapping of the value holds more than `width` entries. -/
inductive Cbor.Within (width : Nat) : Cbor → Prop where
  | tag {number : Nat} {value : Cbor} (inside : Within width value) : Within width (.tag number value)
  | bool (value : Bool) : Within width (.bool value)
  | int (value : Int) : Within width (.int value)
  | bytes (value : List UInt8) : Within width (.bytes value)
  | text (value : String) : Within width (.text value)
  | array {items : List Cbor} (narrow : items.length ≤ width) (inside : ∀ item ∈ items, Within width item) :
      Within width (.array items)
  | mapping {entries : List (Cbor × Cbor)} (narrow : entries.length ≤ width)
      (keys : ∀ entry ∈ entries, Within width entry.1) (values : ∀ entry ∈ entries, Within width entry.2) :
      Within width (.mapping entries)
  | null : Within width .null
  | other (shown : String) : Within width (.other shown)

private theorem fits_alone {α : Type} {inside : α → Prop} {width : Nat} {node : DatumNode} {value : α}
    (within : inside value) : Fits inside width (.branch node [value]) :=
  ⟨Nat.le_add_left 1 width, fun _ member => List.mem_singleton.mp member ▸ within⟩

private theorem fits_fields {width : Nat} {node : DatumNode} {value : Cbor} (within : value.Within width) :
    Fits (Cbor.Within width) width (.branch node value.fields) := by
  cases within with
  | array narrow inside => exact ⟨Nat.le_succ_of_le narrow, inside⟩
  | tag inside => exact fits_alone (.tag inside)
  | mapping narrow keys values => exact fits_alone (.mapping narrow keys values)
  | bool | int | bytes | text | null | other => exact fits_alone (by constructor)

private theorem openCbor_fits (width : Nat) (node : Cbor) (within : node.Within width) :
    Fits (Cbor.Within width) width (openCbor isprintable node) := by
  cases within with
  | tag inside =>
    rw [openCbor]
    unfold openTag
    split
    · exact fits_fields inside
    · split
      · split
        · cases inside with
          | array narrow inside => exact fits_fields (inside _ (by simp))
        · exact fits_alone inside
      · exact fits_alone inside
  | array narrow inside => exact ⟨Nat.le_succ_of_le narrow, inside⟩
  | mapping narrow keys values => exact ⟨narrow, fun entry member => ⟨keys entry member, values entry member⟩⟩
  | bool | int | bytes | text | null | other => rfl

private theorem mapEntries_within {width : Nat} {entries : List Json} (within : (Json.list entries).Within width) :
    Fits (Json.Within width) width (.map (mapEntries entries)) := by
  obtain ⟨narrow, inside⟩ := within.of_list
  refine ⟨Nat.le_trans (List.length_filterMap_le _ _) narrow, fun pair member => ?_⟩
  obtain ⟨entry, member, found⟩ := List.mem_filterMap.mp member
  have whole := inside entry member
  have value (key : String) : ((entry.get key).getD .null).Within width := by
    cases here : entry.get key with
    | none => exact .null
    | some value => exact whole.get here
  cases entry with
  | dict members =>
    obtain rfl := Option.some.inj found
    exact ⟨value "k", value "v"⟩
  | _ => cases found

private theorem openObject_fits (width : Nat) (members : List (String × Json))
    (within : (Json.dict members).Within width) :
    Fits (Json.Within width) width (openObject isprintable (.dict members) members) := by
  generalize opens : openObject isprintable (.dict members) members = opened
  obtain found | found | _ | _ := openObject_opened isprintable opens
  · obtain ⟨narrow, inside⟩ := (within.get found).of_list
    exact ⟨Nat.le_succ_of_le narrow, inside⟩
  · exact mapEntries_within (within.get found)
  · rfl
  · cases within with
    | dict narrow inside =>
      refine ⟨by simpa using Nat.le_succ_of_le narrow, fun part member => ?_⟩
      obtain ⟨entry, listed, rfl⟩ := List.mem_map.mp member
      exact inside entry listed

private theorem openPlutusJson_fits (width : Nat) (node : Json) (within : node.Within width) :
    Fits (Json.Within width) width (openPlutusJson isprintable node) := by
  cases node with
  | list items =>
    obtain ⟨narrow, inside⟩ := within.of_list
    exact ⟨Nat.le_succ_of_le narrow, inside⟩
  | dict members =>
    rw [openPlutusJson]
    split
    · rw [jsonFields]
      split
      · rename_i found
        obtain ⟨narrow, inside⟩ := (within.get found).of_list
        exact ⟨Nat.le_succ_of_le narrow, inside⟩
      · exact ⟨Nat.zero_le _, fun _ member => absurd member (List.not_mem_nil)⟩
    · exact openObject_fits isprintable width members within
  | null | bool | int | float | text => rfl

/-- No array or mapping of the datum, as its walk meets it, holds more than `width` entries. -/
def DatumWithin (width : Nat) : Json → Prop
  | .text datum => ∀ blob decoded, fromHex datum = some blob → loads blob = some decoded → decoded.Within width
  | datum => datum.Within width

/-- Whatever bounds both walks bounds the decoded tree. -/
private theorem decoded_size_le {maxNodes bound : Nat} {datum : Json}
    (cbor : ∀ text blob decoded, datum = .text text → fromHex text = some blob → loads blob = some decoded →
      (walkCbor isprintable (maxWalkDepth + 1) decoded { remaining := maxNodes }).1.size ≤ bound)
    (json : (∀ text, datum ≠ .text text) →
      (walkPlutusJson isprintable (maxWalkDepth + 1) datum { remaining := maxNodes }).1.size ≤ bound) :
    (decodeDatumStructure isprintable loads maxWalkDepth datum maxNodes).size ≤ bound := by
  unfold decodeDatumStructure
  cases datum with
  | text datum =>
    cases hex : fromHex datum with
    | none => simp [hex, DecodedDatum.size]
    | some blob =>
      cases loaded : loads blob with
      | none => simp [hex, loaded, DecodedDatum.size]
      | some decoded => simpa [hex, loaded, DecodedDatum.size] using cbor datum blob decoded rfl hex loaded
  | list | dict => exact json (fun _ same => nomatch same)
  | null | bool | int | float => exact Nat.zero_le _

/-- The tree of a datum is bounded by the budget and the width of the datum, at any depth. -/
theorem size_le_of_width (width maxNodes : Nat) (datum : Json) (within : DatumWithin loads width datum) :
    (decodeDatumStructure isprintable loads maxWalkDepth datum maxNodes).size ≤ 1 + 3 * (width + 1) * maxNodes := by
  apply decoded_size_le
  · rintro text blob decoded rfl hex loaded
    exact Nat.le_trans (Nat.le_add_right _ _)
      (walkNode_priced (openCbor_fits isprintable width) _ _ (within blob decoded hex loaded) _)
  · intro object
    have within : datum.Within width := by
      cases datum with
      | text datum => exact absurd rfl (object datum)
      | _ => exact within
    exact Nat.le_trans (Nat.le_add_right _ _) (walkNode_priced (openPlutusJson_fits isprintable width) _ _ within _)

/-- With nothing in the budget the root itself is elided. -/
theorem size_of_empty_budget (datum : Json) :
    (decodeDatumStructure isprintable loads maxWalkDepth datum 0).size ≤ 1 := by
  apply decoded_size_le
  · intros
    exact Nat.le_refl _
  · intros
    exact Nat.le_refl _

/-- A flat list of integers in the detailed schema. -/
def flatList (length : Nat) : Json := .dict [("list", .list (List.replicate length (.dict [("int", .int 0)])))]

/-- Only the list itself is taken from the budget before its items, and each item is a node. -/
theorem size_flatList (length maxNodes : Nat) (positive : maxNodes ≠ 0) :
    length < (decodeDatumStructure isprintable loads maxWalkDepth (flatList length) maxNodes).size := by
  have root : (decodeDatumStructure isprintable loads maxWalkDepth (flatList length) maxNodes).size =
      (walkPlutusJson isprintable (maxWalkDepth + 1) (flatList length) { remaining := maxNodes }).1.size := rfl
  have taken : ({ remaining := maxNodes } : Budget).take = (true, { remaining := maxNodes - 1 }) :=
    if_neg (Nat.not_le_of_gt (Nat.pos_of_ne_zero positive))
  have opened : openPlutusJson isprintable (flatList length) =
      .branch { kind := .list } (List.replicate length (.dict [("int", .int 0)])) := rfl
  rw [root, walkPlutusJson, walkNode, taken, opened]
  have children := length_le_sizes (walkAll (walkNode (openPlutusJson isprintable) maxWalkDepth)
    (List.replicate length (.dict [("int", .int 0)])) { remaining := maxNodes - 1 }).1
  rw [walkAll_length, List.length_replicate] at children
  simp only [walkOpened, parent, size_eq { kind := NodeKind.list, children := _ }]
  omega

/-- The budget bounds the tree over data of limited width, and over all data only if it is
empty: every child of an opened node is emitted, also after the budget is spent. -/
theorem size_bounded_iff (maxNodes : Nat) (limit : Option Nat) :
    (∃ bound, ∀ datum, (∀ width ∈ limit, DatumWithin loads width datum) →
      (decodeDatumStructure isprintable loads maxWalkDepth datum maxNodes).size ≤ bound) ↔
    limit ≠ none ∨ maxNodes = 0 := by
  constructor
  · rintro ⟨bound, bounded⟩
    by_contra failing
    rw [not_or, not_not] at failing
    obtain ⟨rfl, positive⟩ := failing
    have size := bounded (flatList bound) (fun _ none => nomatch none)
    exact absurd (size_flatList isprintable loads maxWalkDepth bound maxNodes positive) (Nat.not_lt_of_le size)
  · rintro (limited | rfl)
    · obtain ⟨width, rfl⟩ := Option.ne_none_iff_exists'.mp limited
      exact ⟨_, fun datum within => size_le_of_width isprintable loads maxWalkDepth width maxNodes datum
        (within width rfl)⟩
    · exact ⟨1, fun datum _ => size_of_empty_budget isprintable loads maxWalkDepth datum⟩

/-- A flat list outgrows every function of the two budgets. -/
theorem no_bound_for_flat_lists : ¬ ∃ bound : Nat → Nat → Nat, ∀ maxNodes maxWalkDepth datum,
    (decodeDatumStructure (fun _ => true) (fun _ => none) maxWalkDepth datum maxNodes).size ≤
      bound maxNodes maxWalkDepth := by
  rintro ⟨bound, bounded⟩
  exact absurd (size_flatList (fun _ => true) (fun _ => none) 64 (bound 20000 64) 20000 (by decide))
    (Nat.not_lt_of_le (bounded 20000 64 (flatList (bound 20000 64))))

end TransactionMonitoring.DatumStructure
