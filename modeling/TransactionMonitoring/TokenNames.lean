import Mathlib.Algebra.Order.Field.Rat
import TransactionMonitoring.DatumText

/-! The names of minted tokens.

A token is named by its asset name on chain, hexadecimal, and may be given another name by the
metadata of the minting transaction.  Names are compared after normalisation, with the letters
that look alike folded together.  The tables of Unicode and the similarity ratio are parameters.
-/
namespace TransactionMonitoring.TokenNames

open DatumStructure (fromHex)
open DatumText (decodeUtf8)

/-- What `unicodedata` and `str` say of characters and texts. -/
structure Unicode where
  nfkc : String → String
  lower : String → String
  isAlpha : Char → Bool
  /-- The first word of a character's name, where it has one. -/
  script : Char → Option String

/-- `fuzz.ratio`. -/
structure Ratio where
  ratio : String → String → ℚ
  bounded : ∀ left right, 0 ≤ ratio left right ∧ ratio left right ≤ 100
  same : ∀ text, ratio text text = 100

/-- What the built-in `int` and `str` make of a value; `int` of some raises. -/
structure Builtins where
  int : Json → Option Int
  int_int : ∀ value, int (.int value) = some value
  shown : Json → String

/-- Of numbers and truth values, which are numbers too; a text has no `int` here. -/
def Builtins.plain : Builtins where
  int
    | .int value => some value
    | .bool value => some (if value then 1 else 0)
    | _ => none
  int_int _ := rfl
  shown _ := ""

def Builtins.str (builtins : Builtins) : Json → String
  | .text value => value
  | value => builtins.shown value

/-- `FUZZ_RATIO_SCALE`. -/
def fuzzRatioScale : ℚ := 100

/-! ## Lookalikes -/

/-- `_CONFUSABLES`. -/
def confusables : List (Char × Char) :=
  [('\u0391', 'A'), ('\u0392', 'B'), ('\u0395', 'E'), ('\u0396', 'Z'), ('\u0397', 'H'), ('\u0399', 'I'),
   ('\u039a', 'K'), ('\u039c', 'M'), ('\u039d', 'N'), ('\u039f', 'O'), ('\u03a1', 'P'), ('\u03a4', 'T'),
   ('\u03a5', 'Y'), ('\u03a7', 'X'), ('\u03b1', 'a'), ('\u03b5', 'e'), ('\u03b9', 'i'), ('\u03bd', 'v'),
   ('\u03bf', 'o'), ('\u03c1', 'p'), ('\u03c5', 'u'), ('\u0410', 'A'), ('\u0412', 'B'), ('\u0415', 'E'),
   ('\u041a', 'K'), ('\u041c', 'M'), ('\u041d', 'H'), ('\u041e', 'O'), ('\u0420', 'P'), ('\u0421', 'C'),
   ('\u0422', 'T'), ('\u0423', 'Y'), ('\u0425', 'X'), ('\u0406', 'I'), ('\u04ae', 'Y'), ('\u0408', 'J'),
   ('\u0430', 'a'), ('\u0435', 'e'), ('\u043e', 'o'), ('\u0440', 'p'), ('\u0441', 'c'), ('\u0443', 'y'),
   ('\u0445', 'x'), ('\u0456', 'i')]

/-- `_ASCII_CONFUSABLES_LC`. -/
def asciiConfusablesLc : List (Char × Char) := [('o', '0'), ('i', '1'), ('l', '1')]

def translate (table : List (Char × Char)) (text : String) : String :=
  text.map fun char => (table.lookup char).getD char

def zeroWidth : List Char := ['\u200b', '\u200c', '\u200d', '\ufeff', '\u00ad']

section
variable (unicode : Unicode) (fuzz : Ratio)

/-- `_normalise_token_name`. -/
def normaliseTokenName (name : String) : String :=
  translate confusables (String.ofList ((unicode.nfkc name).toList.filter (· ∉ zeroWidth)))

/-- A name as the comparisons take it. -/
def comparable (name : String) : String := unicode.lower (normaliseTokenName unicode name)

/-- `_ascii_fold_increases_similarity`. -/
def asciiFoldIncreasesSimilarity (name legitName : String) : Bool :=
  let left := comparable unicode name
  let right := comparable unicode legitName
  if left = "" ∨ right = "" then false
  else decide (fuzz.ratio left right <
    fuzz.ratio (translate asciiConfusablesLc left) (translate asciiConfusablesLc right))

/-- `_compute_tokenname_similarity`, with `_ASCII_HOMOGLYPHS_ENABLED`. -/
def computeTokennameSimilarity (asciiHomoglyphsEnabled : Bool) (name legitName : String) : ℚ :=
  let left := comparable unicode name
  let right := comparable unicode legitName
  if left = "" ∨ right = "" then 0
  else if asciiHomoglyphsEnabled then
    fuzz.ratio (translate asciiConfusablesLc left) (translate asciiConfusablesLc right) / fuzzRatioScale
  else fuzz.ratio left right / fuzzRatioScale

/-- `_UNI_SCORES`. -/
structure UnicodeScores where
  zeroWidth : ℚ
  mixedScripts : ℚ
  homoglyphs : ℚ

/-- `_compute_unicode_suspicion`. -/
def computeUnicodeSuspicion (scores : UnicodeScores) (name : String) : ℚ :=
  let chars := name.toList
  let scripts := ((chars.filter unicode.isAlpha).filterMap unicode.script).dedup
  min 1 ((if chars.any (· ∈ zeroWidth) then scores.zeroWidth else 0) +
    (if 1 < scripts.length then scores.mixedScripts else 0) +
    (if chars.any fun char => (confusables.lookup char).isSome then scores.homoglyphs else 0))

/-! ## CIP-25 metadata -/

/-- `_CIP25_MAX_FLATTEN_DEPTH`. -/
def cip25MaxFlattenDepth : Nat := 5

/-- `_flatten_cip25`, with the levels left above the depth cap. -/
def flattenCip25 : Nat → Json → List String
  | 0, _ => []
  | _ + 1, .text value => if 1 < value.length then [value] else []
  | levels + 1, .dict entries => entries.flatMap fun entry =>
      (match entry.2 with
        | .text value => if entry.1 ∈ ["name", "ticker", "description", "image"] then [value] else []
        | _ => []) ++ flattenCip25 levels entry.2
  | levels + 1, .list items => items.flatMap (flattenCip25 levels)
  | _ + 1, .null | _ + 1, .bool _ | _ + 1, .int _ | _ + 1, .float _ => []

/-- The label 721; decoded keys are texts, so the number is never one. -/
def label721 (metadata : Json) : Option Json := (metadata.get "721").filter Json.truthy

/-- `_compute_cip25_similarity`. -/
def computeCip25Similarity (metadata : Json) (legitName : String) : ℚ :=
  match label721 metadata with
  | some (.dict policies) =>
      (flattenCip25 (cip25MaxFlattenDepth + 1) (.dict policies)).foldl
        (fun most part => max most (fuzz.ratio (unicode.lower part) (unicode.lower legitName) / fuzzRatioScale)) 0
  | _ => 0

end

/-! ## Minted assets -/

/-- An entry of the mint map. -/
structure MintEntry where
  policyId : String
  assetNameHex : String
  quantity : Json

structure MintedAsset where
  policyId : String
  tokenName : String
  tokenNameHex : String
  quantity : Int
deriving DecidableEq, Repr

/-- The entries of the mint map, in its order. -/
def mintEntries : Json → List MintEntry
  | .dict policies => policies.flatMap fun policy =>
      match policy.2 with
      | .dict tokens => tokens.map fun token => ⟨policy.1, token.1, token.2⟩
      | _ => []
  | _ => []

/-- `decode_hex_asset_name`. -/
def decodeHexAssetName (hexName : String) : String := ((fromHex hexName).bind decodeUtf8).getD hexName

section
variable (builtins : Builtins)

/-- The names that the metadata gives, by policy and asset. -/
def cip25Names (metadata : Json) : List ((String × String) × String) :=
  match label721 metadata with
  | some (.dict policies) => policies.flatMap fun policy =>
      match policy.2 with
      | .dict tokens => tokens.filterMap fun token =>
          match token.2 with
          | .dict fields =>
              (((Json.dict fields).get "name").filter Json.truthy <|>
                ((Json.dict fields).get "ticker").filter Json.truthy).map
                  fun name => ((policy.1, token.1), builtins.str name)
          | _ => none
      | _ => []
  | _ => []

/-- The name that the metadata gives to an asset; of several for one key the last counts. -/
def cip25Name (metadata : Json) (policyId assetNameHex : String) : Option String :=
  ((cip25Names builtins metadata).reverse.lookup (policyId, assetNameHex)).filter (· ≠ "")

/-- The human-readable name of an asset: what the metadata says, then its own on-chain name. -/
def displayName (metadata : Json) (policyId assetNameHex : String) : String :=
  (cip25Name builtins metadata policyId assetNameHex).getD (decodeHexAssetName assetNameHex)

/-- `int(qty) if qty else 0`. -/
def quantityOf (quantity : Json) : Option Int := if quantity.truthy then builtins.int quantity else some 0

/-- The loop of `_extract_minted_assets`; nothing where it raises. -/
def assetsOf (metadata : Json) : List MintEntry → Option (List MintedAsset)
  | [] => some []
  | entry :: rest => do
      let quantity ← quantityOf builtins entry.quantity
      let assets ← assetsOf metadata rest
      -- Only mints, not burns.
      if 0 < quantity then
        some (⟨entry.policyId, displayName builtins metadata entry.policyId entry.assetNameHex,
          entry.assetNameHex, quantity⟩ :: assets)
      else some assets

/-- `_extract_minted_assets`. -/
def extractMintedAssets (mint metadata : Json) : Option (List MintedAsset) :=
  assetsOf builtins metadata (mintEntries mint)

end
end TransactionMonitoring.TokenNames
