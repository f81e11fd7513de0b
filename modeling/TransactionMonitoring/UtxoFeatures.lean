import Mathlib.Algebra.BigOperators.Group.List.Basic
import Mathlib.Data.Nat.Digits.Defs
import TransactionMonitoring.Anchors
import TransactionMonitoring.Bech32
import TransactionMonitoring.DatumStructure
import TransactionMonitoring.LargestLeaf

/-! What is measured of a transaction output.

Its value is counted, by assets and in bytes, and its datum is sized and judged by what its bytes
look like.  The lengths and contents of CBOR are parameters, as is the logarithm; a value here
holds whole quantities, as the chain has them.
-/
namespace TransactionMonitoring.UtxoFeatures

open Bech32 (Lower isScriptAddress)
open Baselines (epsilon)
open DatumStructure (fromHex)

/-- What a value holds under one key: the assets of a policy, or a flat legacy entry. -/
inductive Holding where
  | bundle (tokens : List (String × Int))
  | flat (quantity : Int)
deriving DecidableEq

/-- A value of either schema: its lovelace, and its other keys in their order. -/
structure Value where
  lovelace : Int
  assets : List (String × Holding)
deriving DecidableEq

/-- What `_estimate_value_cbor_bytes` hands to `cbor2.dumps`. -/
inductive Encoded where
  | coin (lovelace : Int)
  | multiAsset (lovelace : Int) (assets : List (String × Holding))

structure Output where
  address : String
  /-- Nothing where it is no mapping. -/
  value : Option Value
  /-- Null where there is none. -/
  datum : Json
  /-- Empty where there is none. -/
  datumHash : String
  script : Json

/-- What is called of libraries. -/
structure Tools where
  str : Lower
  /-- The length of `cbor2.dumps`. -/
  dumped : Encoded → ℕ
  /-- `cbor2.loads`; nothing where it raises. -/
  loads : List UInt8 → Option LargestLeaf.Value
  log2 : ℚ → ℚ

/-! ## Values -/

def extractLovelace (value : Value) : Int := value.lovelace

def estimateValueCborBytes (tools : Tools) (value : Value) : ℕ :=
  if value.assets = [] then tools.dumped (.coin value.lovelace)
  else tools.dumped (.multiAsset value.lovelace value.assets)

/-- The live asset classes of a holding. -/
def Holding.live : Holding → ℕ
  | .bundle tokens => tokens.countP fun token => token.2 ≠ 0
  | .flat quantity => if quantity ≠ 0 then 1 else 0

/-- `count_assets`: the policies with a live asset class, and the live asset classes. -/
def countAssets (value : Value) : ℕ × ℕ :=
  (value.assets.countP fun entry => entry.2.live ≠ 0, (value.assets.map fun entry => entry.2.live).sum)

/-- `_max_assets_per_policy`. -/
def maxAssetsPerPolicy (value : Value) : ℕ :=
  value.assets.foldl (fun best entry =>
    match entry.2 with
    | .bundle tokens => max best tokens.length
    | .flat _ => best) 0

/-- The keys of a value beside its lovelace. -/
def policies (value : Value) : List String := value.assets.map Prod.fst

/-- The asset classes of a value: policy, asset name and quantity. -/
def assetClasses (value : Value) : List (String × String × Int) :=
  value.assets.flatMap fun entry =>
    match entry.2 with
    | .bundle tokens => tokens.map fun token => (entry.1, token.1, token.2)
    | .flat quantity => [(entry.1, "", quantity)]

/-- `_max_quantity_digits`. -/
def maxQuantityDigits (value : Value) : ℕ :=
  (assetClasses value).foldl (fun most asset => max most (Nat.digits 10 asset.2.2.natAbs).length) 0

/-- `_primary_asset`; of equal quantities the first. -/
def primaryAsset (value : Value) : String × String × ℕ :=
  (assetClasses value).foldl (fun best asset =>
    if best.2.2 < asset.2.2.natAbs then (asset.1, asset.2.1, asset.2.2.natAbs) else best) ("", "", 0)

/-! ## Documents as text -/

/-- The length of a character in a string of `json.dumps`, which writes ASCII. -/
def dumpedChar (char : Char) : ℕ :=
  if char ∈ ['"', '\\', '\n', '\r', '\t', '\x08', '\x0c'] then 2
  else if 32 ≤ char.toNat ∧ char.toNat < 127 then 1
  else if char.toNat < 0x10000 then 6
  else 12

def dumpedText (text : String) : ℕ := 2 + (text.toList.map dumpedChar).sum

mutual

/-- `len(json.dumps(value).encode())`. -/
def jsonLength : Json → ℕ
  | .null => 4
  | .bool value => if value then 4 else 5
  | .int value => (toString value).length
  | .float shown => shown.length
  | .text value => dumpedText value
  | .list items => 2 + itemsLength items + 2 * (items.length - 1)
  | .dict entries => 2 + entriesLength entries + 2 * (entries.length - 1)

def itemsLength : List Json → ℕ
  | [] => 0
  | item :: rest => jsonLength item + itemsLength rest

def entriesLength : List (String × Json) → ℕ
  | [] => 0
  | (key, value) :: rest => dumpedText key + 2 + jsonLength value + entriesLength rest

end

/-! ## Datums -/

/-- `_extract_datum_info`: whether there is a datum (1 its hash, 2 inline), and its bytes. -/
def extractDatumInfo (datums : Json) (output : Output) : ℕ × ℕ :=
  match output.datum with
  | .text hex => (2, hex.length / 2)
  | .dict entries => (2, jsonLength (.dict entries))
  | .null =>
      if output.datumHash ≠ "" then
        match datums.get output.datumHash with
        | some (.text preimage) => (1, preimage.length / 2)
        | some (.dict preimage) => (1, jsonLength (.dict preimage))
        | _ => (1, 0)
      else (0, 0)
  | .bool _ | .int _ | .float _ | .list _ => (2, 0)

def assessableDatum (datums : Json) (output : Output) : Json :=
  match output.datum with
  | .null => if output.datumHash ≠ "" then (datums.get output.datumHash).getD .null else .null
  | datum => datum

/-- What the walk over a datum object goes on to from a mapping, in the order it is put on the stack. -/
def dictChildren (entries : List (String × Json)) : List Json :=
  let items (key : String) : List Json :=
    match (Json.dict entries).get key with
    | some (.list items) => items
    | _ => []
  items "list" ++ items "fields" ++
    ((items "map").flatMap fun entry =>
      match entry with
      | .dict pair => [((Json.dict pair).get "k").getD .null, ((Json.dict pair).get "v").getD .null]
      | _ => []) ++
    if ["bytes", "list", "fields", "map"].any fun key => ((Json.dict entries).get key).isSome then []
    else entries.map Prod.snd

theorem sizeOf_getD_lt (entries : List (String × Json)) (key : String) :
    sizeOf (((Json.dict entries).get key).getD .null) < sizeOf (Json.dict entries) := by
  cases found : (Json.dict entries).get key with
  | none =>
    have positive : 0 < sizeOf entries := by cases entries <;> simp
    simp only [Option.getD_none, Json.null.sizeOf_spec, Json.dict.sizeOf_spec]
    omega
  | some value =>
    have inside := List.sizeOf_lt_of_mem (Json.mem_of_get found)
    simp only [Option.getD_some, Json.dict.sizeOf_spec, Prod.mk.sizeOf_spec] at inside ⊢
    omega

theorem sizeOf_item_lt {entries : List (String × Json)} {key : String} {items : List Json} {item : Json}
    (found : (Json.dict entries).get key = some (.list items)) (member : item ∈ items) :
    sizeOf item < sizeOf (Json.dict entries) := by
  have below := sizeOf_getD_lt entries key
  have inside := List.sizeOf_lt_of_mem member
  rw [found, Option.getD_some, Json.list.sizeOf_spec] at below
  omega

theorem sizeOf_child_lt {entries : List (String × Json)} {child : Json} (member : child ∈ dictChildren entries) :
    sizeOf child < sizeOf (Json.dict entries) := by
  have listed : ∀ {key : String} {item : Json}, item ∈ (match (Json.dict entries).get key with
      | some (.list items) => items
      | _ => []) → sizeOf item < sizeOf (Json.dict entries) := by
    intro key item within
    split at within
    · rename_i found
      exact sizeOf_item_lt found within
    · cases within
  simp only [dictChildren, List.mem_append] at member
  rcases member with ((fromList | fromFields) | fromMap) | generic
  · exact listed fromList
  · exact listed fromFields
  · obtain ⟨entry, within, paired⟩ := List.mem_flatMap.mp fromMap
    have below := listed within
    cases entry with
    | dict pair =>
      rcases List.mem_cons.mp paired with rfl | second
      · exact (sizeOf_getD_lt pair "k").trans below
      · obtain rfl := List.mem_singleton.mp second
        exact (sizeOf_getD_lt pair "v").trans below
    | _ => cases paired
  · split at generic
    · cases generic
    · obtain ⟨⟨key, value⟩, within, rfl⟩ := List.mem_map.mp generic
      have inside := List.sizeOf_lt_of_mem within
      simp only [Json.dict.sizeOf_spec, Prod.mk.sizeOf_spec] at inside ⊢
      omega

/-- `_object_datum_byte_leaves`; the top of the stack is what was put there last. -/
def objectDatumByteLeaves : Json → List (List UInt8)
  | .dict entries =>
      (match (Json.dict entries).get "bytes" with
        | some (.text hex) => (fromHex hex).toList
        | _ => []) ++ (dictChildren entries).attach.reverse.flatMap fun child => objectDatumByteLeaves child.1
  | .list items => items.attach.reverse.flatMap fun item => objectDatumByteLeaves item.1
  | .null | .bool _ | .int _ | .float _ | .text _ => []
termination_by node => sizeOf node
decreasing_by
  · exact sizeOf_child_lt child.2
  · have inside := List.sizeOf_lt_of_mem item.2
    simp only [Json.list.sizeOf_spec]
    omega

/-- `_datum_raw_bytes`; nothing where they cannot be measured. -/
def datumRawBytes (datums : Json) (output : Output) : Option (List UInt8) :=
  match assessableDatum datums output with
  | .dict entries => some (objectDatumByteLeaves (.dict entries)).flatten |>.filter (· ≠ [])
  | .text hex => if 2 ≤ hex.length then (fromHex hex).filter (· ≠ []) else none
  | _ => none

/-- `_MAX_BYTE_ENTROPY_BITS`. -/
def maxByteEntropyBits : ℚ := 8

def datumShannonEntropyBits (tools : Tools) (datums : Json) (output : Output) : ℚ :=
  match datumRawBytes datums output with
  | none => maxByteEntropyBits
  | some raw => -(raw.dedup.map fun byte =>
      (raw.count byte / raw.length : ℚ) * tools.log2 (raw.count byte / raw.length)).sum

def datumLeafConcentration (tools : Tools) (datums : Json) (output : Output) : ℚ :=
  match assessableDatum datums output with
  | .dict entries =>
      let sizes := (objectDatumByteLeaves (.dict entries)).map List.length
      if sizes.sum = 0 then 0 else (sizes.foldl max 0 : ℕ) / (sizes.sum : ℚ)
  | _ =>
      match datumRawBytes datums output with
      | none => 0
      | some raw =>
          match tools.loads raw with
          | none => 0
          | some decoded => (LargestLeaf.maxPrimitiveLeafBytes decoded : ℚ) / raw.length

def datumContentAssessable (tools : Tools) (datums : Json) (output : Output) : Bool :=
  match datumRawBytes datums output with
  | none => false
  | some raw =>
      match assessableDatum datums output with
      | .dict _ => true
      | _ => (tools.loads raw).isSome

/-! ## Sizes of outputs -/

def estimateUtxoTotalBytes (address : String) (valueCbor datumBytes : ℕ) (scriptRef : Json) : ℕ :=
  address.utf8ByteSize + valueCbor + datumBytes + if scriptRef.truthy then jsonLength scriptRef else 0

def datumRatioOf (datumBytes utxoTotal : ℕ) : ℚ :=
  if 0 < utxoTotal then datumBytes / (utxoTotal + epsilon) else 0

end TransactionMonitoring.UtxoFeatures
