import Mathlib.Order.Lattice.Nat
import TransactionMonitoring.FrameRecovery
import TransactionMonitoring.WhiteSpace

/-! Reading a block's point out of a frame that does not decode.

The scan is lexical: it reads the first field so named between the block's key and the next
transactions key, or the end of the frame where that key is absent.  Over the text of a document
this is the first such field in document order, whichever object it belongs to.
-/
namespace TransactionMonitoring.BlockHeader
open JsonText FrameRecovery
open WhiteSpace (isSpace spaces)

/-! ## The scan -/

/-- `_BLOCK_KEY`. -/
def blockKey : List Char := "\"block\":".toList

def isLowerHex (c : Char) : Bool := ('0' ≤ c && c ≤ '9') || ('a' ≤ c && c ≤ 'f')

/-- `int` of decimal digits. -/
def decimal (digits : List Char) : Nat := digits.foldl (fun n c => 10 * n + (c.toNat - '0'.toNat)) 0

def idName : Name := ⟨'i', ['d'], rfl, rfl⟩

def slotName : Name := ⟨'s', ['l', 'o', 't'], rfl, rfl⟩

def heightName : Name := ⟨'h', ['e', 'i', 'g', 'h', 't'], rfl, rfl⟩

def blockName : Name := ⟨'b', ['l', 'o', 'c', 'k'], rfl, rfl⟩

def transactionsName : Name :=
  ⟨'t', ['r', 'a', 'n', 's', 'a', 'c', 't', 'i', 'o', 'n', 's'], rfl, rfl⟩

/-- `"([0-9a-f]{64})"`. -/
def hexText (text : List Char) : Option (List Char) :=
  (strip ['"'] text).bind fun rest =>
    if (rest.take 64).length = 64 ∧ (rest.take 64).all isLowerHex then
      (strip ['"'] (rest.drop 64)).map fun _ => rest.take 64
    else none

/-- `(\d+)`. -/
def number (text : List Char) : Option Nat :=
  if text.takeWhile Char.isDigit = [] then none else some (decimal (text.takeWhile Char.isDigit))

/-- `\s*:\s*` before a value. -/
def separated {Value : Type} (value : List Char → Option Value) (text : List Char) : Option Value :=
  (strip [':'] (text.dropWhile isSpace)).bind fun rest => value (rest.dropWhile isSpace)

/-- `re.search` for a named field. -/
def search {Value : Type} (name : Name) (value : List Char → Option Value) (text : List Char) : Option Value :=
  (first (keyed name (separated value)) text).map Prod.snd

structure Header where
  id : Option (List Char)
  slot : Option Nat
  height : Option Nat
deriving DecidableEq, Repr

/-- `scan_block_header`. -/
def scanBlockHeader (raw : List Char) : Header :=
  match find blockKey raw with
  | none => ⟨none, none, none⟩
  | some start =>
    let header :=
      match findFrom transactionsKey raw start with
      | some stop => if start < stop then slice raw start stop else raw.drop start
      | none => raw.drop start
    ⟨search idName hexText header, search slotName number header, search heightName number header⟩

/-! ## The quarantine -/

/-- `max_nesting_depth`, from a state of its loop on. -/
def nestingFrom : Int → Int → Bool → Bool → List Char → Int
  | _, deepest, _, _, [] => deepest
  | depth, deepest, true, escaped, ch :: rest =>
    if escaped then nestingFrom depth deepest true false rest
    else if ch = '\\' then nestingFrom depth deepest true true rest
    else nestingFrom depth deepest (ch != '"') false rest
  | depth, deepest, false, escaped, ch :: rest =>
    if ch = '"' then nestingFrom depth deepest true escaped rest
    else if ch = '[' ∨ ch = '{' then nestingFrom (depth + 1) (max deepest (depth + 1)) false escaped rest
    else if ch = ']' ∨ ch = '}' then nestingFrom (depth - 1) deepest false escaped rest
    else nestingFrom depth deepest false escaped rest

def maxNestingDepth (raw : List Char) : Int := nestingFrom 0 0 false false raw

/-- `FrameUndecodableError`. -/
structure FrameUndecodableError where
  method : String
  raw : List Char
  cause : String

/-- The record of a skipped block. -/
structure QuarantinedBlock where
  blockId : List Char
  slot : Nat
  reason : String
  frameBytes : Nat
  nestingDepth : Int
  txsRecovered : Nat
  txsLost : Nat

/-- The block handed to the roll forward, which checkpoints it. -/
structure RebuiltBlock (Value : Type) where
  id : List Char
  slot : Nat
  height : Nat
  transactions : List Value

/-- `_quarantine_undecodable_block`: the record and the rebuilt block, or the text of the
refusal. -/
def quarantineUndecodableBlock {Value : Type} (loads : List Char → Option Value) (error : FrameUndecodableError) :
    Except String (QuarantinedBlock × RebuiltBlock Value) :=
  let header := scanBlockHeader error.raw
  let refusal := s!"Undecodable {error.method} frame ({error.raw.length} bytes) whose block " ++
    "point could not be recovered; refusing to checkpoint past an " ++
    "unidentified block. Checkpoint NOT advanced, block will replay."
  match header.id, header.slot with
  | some blockId, some slot =>
    if blockId = [] then .error refusal
    else
      let (recovered, lost) := recoverTransactions loads error.raw
      .ok ({ blockId := blockId, slot := slot, reason := "undecodable frame: " ++ error.cause,
             frameBytes := error.raw.length, nestingDepth := maxNestingDepth error.raw,
             txsRecovered := recovered.length, txsLost := lost },
           { id := blockId, slot := slot, height := header.height.getD 0, transactions := recovered })
  | _, _ => .error refusal

/-! ## The frame as a document -/

/-- The value of a hexadecimal digit. -/
def hexDigit (c : Char) : Nat :=
  if c.isDigit then c.toNat - '0'.toNat else if 'a' ≤ c then c.toNat - 'a'.toNat + 10 else c.toNat - 'A'.toNat + 10

/-- The code units a string's spelling stands for. -/
def unescaped : List Char → List Nat
  | '\\' :: 'u' :: a :: b :: c :: d :: rest =>
    (((hexDigit a * 16 + hexDigit b) * 16 + hexDigit c) * 16 + hexDigit d) :: unescaped rest
  | '\\' :: 'b' :: rest => 8 :: unescaped rest
  | '\\' :: 'f' :: rest => 12 :: unescaped rest
  | '\\' :: 'n' :: rest => 10 :: unescaped rest
  | '\\' :: 'r' :: rest => 13 :: unescaped rest
  | '\\' :: 't' :: rest => 9 :: unescaped rest
  | '\\' :: c :: rest => c.toNat :: unescaped rest
  | c :: rest => c.toNat :: unescaped rest
  | [] => []

def codes (chars : List Char) : List Nat := chars.map Char.toNat

/-- The value an object holds under a key; of equal keys the last counts. -/
def member (key : String) : Node → Option Node
  | .object members =>
    (members.reverse.find? fun entry => unescaped entry.1.chars = codes key.toList).map Prod.snd
  | _ => none

/-- The frame's block object. -/
def blockOf (frame : Node) : Option Node := (member "result" frame).bind (member "block")

/-- A field of the block that holds a text. -/
def ownText (key : String) (frame : Node) : Option (List Nat) :=
  match (blockOf frame).bind (member key) with
  | some (.string body) => some (unescaped body.chars)
  | _ => none

/-- A field of the block that holds a whole number. -/
def ownNumber (key : String) (frame : Node) : Option Nat :=
  match (blockOf frame).bind (member key) with
  | some (.scalar value) => if value.chars.all Char.isDigit then some (decimal value.chars) else none
  | _ => none

/-- Every field the scan returns is the block's own, and the quarantine checkpoints nothing but the
block's own point. -/
def Attributed (raw : List Char) (frame : Node) : Prop :=
  (∀ id ∈ (scanBlockHeader raw).id, ownText "id" frame = some (codes id)) ∧
  (∀ slot ∈ (scanBlockHeader raw).slot, ownNumber "slot" frame = some slot) ∧
  (∀ height ∈ (scanBlockHeader raw).height, ownNumber "height" frame = some height) ∧
  ∀ (Value : Type) (loads : List Char → Option Value) (error : FrameUndecodableError), error.raw = raw →
    ∀ record block, quarantineUndecodableBlock loads error = .ok (record, block) →
      ownText "id" frame = some (codes block.id) ∧ ownNumber "slot" frame = some block.slot

/-! ## The first fields in document order -/

def isSpaceToken : Token → Bool
  | .space _ => true
  | _ => false

/-- What follows a colon. -/
def afterColon : List Token → Option (List Token)
  | .colon :: rest => some rest
  | _ => none

/-- The document from the block's key on, up to the next transactions key. -/
def headerTokens (tokens : List Token) : Option (List Token) :=
  (firstToken blockName afterColon tokens).map fun (_, _, rest) =>
    let onward := .string ⟨blockName.chars, rfl⟩ :: .colon :: rest
    match firstToken transactionsName some onward with
    | some (before, _, _) => before
    | none => onward

/-- A value behind a colon, blanks aside. -/
def fieldValue {Value : Type} (form : Token → Option Value) (tokens : List Token) : Option Value :=
  (afterColon (tokens.dropWhile isSpaceToken)).bind fun rest =>
    (rest.dropWhile isSpaceToken).head?.bind form

/-- The first field so named whose value has the form. -/
def firstField {Value : Type} (name : Name) (form : Token → Option Value) (tokens : List Token) : Option Value :=
  (firstToken name (fieldValue form) tokens).map fun (_, _, found) => found

def hexToken : Token → Option (List Char)
  | .string body => if body.chars.length = 64 ∧ body.chars.all isLowerHex then some body.chars else none
  | _ => none

def numberToken : Token → Option Nat
  | .scalar value => number value.chars
  | _ => none

/-- In the header's part of the document, the first field of each name, if there is one, has the
value of the block's own. -/
def OwnFirst (tokens : List Token) (frame : Node) : Prop :=
  ∀ header, headerTokens tokens = some header →
    (∀ id ∈ firstField idName hexToken header, ownText "id" frame = some (codes id)) ∧
    (∀ slot ∈ firstField slotName numberToken header, ownNumber "slot" frame = some slot) ∧
    ∀ height ∈ firstField heightName numberToken header, ownNumber "height" frame = some height

/-! ## What the scan reads -/

theorem find_block (raw : List Char) :
    find blockKey raw = (first (keyed blockName (strip [':'])) raw).map fun (before, _) => before.length := by
  have same : strip blockKey = keyed blockName (strip [':']) := by
    funext text
    exact strip_append_left ('"' :: blockName.chars ++ ['"']) [':'] text
  rw [find, same]

theorem find_transactions (raw : List Char) :
    find transactionsKey raw = (first (keyed transactionsName some) raw).map fun (before, _) => before.length := by
  have same : strip transactionsKey = keyed transactionsName some := by
    funext text
    exact (Option.bind_fun_some _).symm
  rw [find, same]

theorem scalar_not_space (value : Scalar) : isSpace value.first = false := by
  have apart : spaces.all (fun c => !isScalarChar c) = true := by decide
  rw [List.all_eq_true] at apart
  have plain := value.plain
  rw [List.all_cons, Bool.and_eq_true] at plain
  rw [isSpace, Bool.eq_false_iff]
  intro blank
  have other := apart _ (List.contains_iff_mem.mp blank)
  rw [plain.1] at other
  cases other

/-- Blanks between tokens are skipped as tokens. -/
theorem skip_blanks (tokens : List Token) {tail : List Char} (unfinished : Unfinished tail) :
    (text tokens ++ tail).dropWhile isSpace = text (tokens.dropWhile isSpaceToken) ++ tail := by
  induction tokens with
  | nil =>
    rcases unfinished with rfl | ⟨chars, others, rfl, -⟩
    · rfl
    · rfl
  | cons token rest ih =>
    cases token with
    | space blank =>
      have isBlank : isSpace blank.char = true := by
        have blank := blank.blank
        simp only [isBlank, Bool.or_eq_true, decide_eq_true_eq, or_assoc] at blank
        rcases blank with same | same | same | same <;> rw [same] <;> rfl
      rw [text_cons, List.append_assoc, Token.text, List.singleton_append, List.dropWhile_cons_of_pos isBlank, ih]
      rfl
    | scalar value =>
      simp only [text_cons, Token.text, Scalar.chars, List.cons_append, List.dropWhile_cons,
        scalar_not_space value, isSpaceToken]
      rfl
    | _ => rfl

theorem strip_colon (tokens : List Token) {tail : List Char} (unfinished : Unfinished tail) :
    strip [':'] (text tokens ++ tail) = (afterColon tokens).map fun rest => text rest ++ tail := by
  cases tokens with
  | nil =>
    rcases unfinished with rfl | ⟨chars, others, rfl, -⟩
    · rfl
    · rfl
  | cons token rest =>
    cases token with
    | scalar value =>
      have other : ':' ≠ value.first := by
        intro same
        have plain := value.plain
        rw [← same] at plain
        cases plain
      simp [Token.text, Scalar.chars, strip, other, afterColon]
    | space blank =>
      have other : ':' ≠ blank.char := by
        intro same
        have blank := blank.blank
        rw [← same] at blank
        cases blank
      simp [Token.text, strip, other, afterColon]
    | _ => simp [Token.text, strip, afterColon]

/-- A field's pattern reads the tokens behind the name. -/
theorem separated_text {Value : Type} (value : List Char → Option Value) (form : Token → Option Value)
    (tokens : List Token) {tail : List Char} (unfinished : Unfinished tail)
    (reads : ∀ rest, rest <:+ tokens → value (text rest ++ tail) = rest.head?.bind form) :
    separated value (text tokens ++ tail) = fieldValue form tokens := by
  rw [separated, fieldValue, skip_blanks tokens unfinished, strip_colon _ unfinished, Option.bind_map]
  cases colon : afterColon (tokens.dropWhile isSpaceToken) with
  | none => rfl
  | some rest =>
    have split : tokens.dropWhile isSpaceToken = .colon :: rest := by
      cases dropped : tokens.dropWhile isSpaceToken with
      | nil => rw [dropped] at colon; cases colon
      | cons token later =>
        rw [dropped] at colon
        cases token with
        | colon => cases colon; rfl
        | _ => cases colon
    have suffix : rest.dropWhile isSpaceToken <:+ tokens :=
      (List.dropWhile_suffix _).trans ((List.suffix_cons .colon rest).trans (split ▸ List.dropWhile_suffix _))
    rw [Option.bind_some, Option.bind_some, Function.comp_apply, skip_blanks rest unfinished, reads _ suffix]

theorem hexText_eq_some {text digits : List Char} :
    hexText text = some digits ↔
      ∃ rest, text = '"' :: (digits ++ '"' :: rest) ∧ digits.length = 64 ∧ digits.all isLowerHex = true := by
  constructor
  · intro read
    obtain ⟨rest, opened, read⟩ := Option.bind_eq_some_iff.mp read
    split at read
    · rename_i fits
      obtain ⟨others, closed, same⟩ := Option.map_eq_some_iff.mp read
      rw [strip_eq_some] at opened closed
      subst same
      refine ⟨others, ?_, fits⟩
      rw [opened, ← List.singleton_append (x := '"') (l := others), ← closed, List.take_append_drop]
      rfl
    · cases read
  · rintro ⟨rest, rfl, length, hex⟩
    have taken : (digits ++ '"' :: rest).take 64 = digits := by rw [← length, List.take_left]
    have dropped : (digits ++ '"' :: rest).drop 64 = '"' :: rest := by rw [← length, List.drop_left]
    have opened : strip ['"'] ('"' :: (digits ++ '"' :: rest)) = some (digits ++ '"' :: rest) := strip_append ['"'] _
    have closed : strip ['"'] ('"' :: rest) = some rest := strip_append ['"'] _
    rw [hexText, opened, Option.bind_some, taken, dropped, if_pos ⟨length, hex⟩, closed, Option.map_some]

theorem hex_unescaped {digits : List Char} (hex : digits.all isLowerHex = true) :
    digits.all (fun c => c != '"' && c != '\\') = true := by
  rw [List.all_eq_true] at hex ⊢
  intro c member
  have digit := hex c member
  rw [Bool.and_eq_true, bne_iff_ne, bne_iff_ne]
  constructor
  · rintro rfl
    cases digit
  · rintro rfl
    cases digit

theorem hexText_string (body : Body) (later : List Char) :
    hexText ((Token.string body).text ++ later) = hexToken (.string body) := by
  have whole : (Token.string body).text ++ later = '"' :: (body.chars ++ '"' :: later) := by simp [Token.text]
  ext digits
  rw [whole, hexText_eq_some, hexToken]
  constructor
  · rintro ⟨rest, same, length, hex⟩
    have filled := (fills (hex_unescaped hex) body.closed).mp (List.cons.inj same).2
    rw [filled.1, if_pos ⟨length, hex⟩]
  · intro read
    split at read
    · rename_i fits
      cases read
      exact ⟨later, rfl, fits⟩
    · cases read

theorem hexText_text (tokens : List Token) {tail : List Char} (unfinished : Unfinished tail) :
    hexText (text tokens ++ tail) = tokens.head?.bind hexToken := by
  cases tokens with
  | nil =>
    rw [text_nil, List.nil_append, List.head?_nil, Option.bind_none, Option.eq_none_iff_forall_ne_some]
    intro digits read
    obtain ⟨rest, same, -, hex⟩ := hexText_eq_some.mp read
    rcases unfinished with rfl | ⟨chars, others, rfl, closed⟩
    · cases same
    · rw [(List.cons.inj same).2, List.append_assoc, List.cons_append,
        not_body_of_unescaped _ (hex_unescaped hex)] at closed
      cases closed
  | cons token rest =>
    rw [text_cons, List.append_assoc, List.head?_cons, Option.bind_some]
    by_cases isString : ∃ body, token = .string body
    · obtain ⟨body, rfl⟩ := isString
      exact hexText_string body _
    · have noQuote := Token.no_quote fun body same => isString ⟨body, same⟩
      have notHex : hexToken token = none := by
        cases token with
        | string body => exact absurd ⟨body, rfl⟩ isString
        | _ => rfl
      rw [notHex, Option.eq_none_iff_forall_ne_some]
      intro digits read
      obtain ⟨others, same, -, -⟩ := hexText_eq_some.mp read
      obtain ⟨c, chars, shown⟩ := token.text_ne_nil
      rw [shown, List.cons_append, List.cons.injEq] at same
      exact noQuote (shown ▸ same.1 ▸ List.mem_cons_self)

theorem number_text (tokens : List Token) (parted : Parted tokens) {tail : List Char}
    (unfinished : Unfinished tail) : number (text tokens ++ tail) = tokens.head?.bind numberToken := by
  have ends (later : List Token) (clear : Clear later) : (text later ++ tail).takeWhile Char.isDigit = [] := by
    have starts := not_startsScalar later tail unfinished clear
    cases shown : text later ++ tail with
    | nil => rfl
    | cons c rest =>
      rw [shown, startsScalar] at starts
      have notDigit : ¬ c.isDigit = true := by
        intro digit
        simp [isScalarChar, Char.isAlphanum, digit] at starts
      rw [List.takeWhile_cons_of_neg notDigit]
  cases tokens with
  | nil =>
    have nothing := ends [] (by intro token member; cases member)
    rw [number, nothing, if_pos rfl]
    rfl
  | cons token rest =>
    by_cases isScalar : ∃ value, token = .scalar value
    · obtain ⟨value, rfl⟩ := isScalar
      have clear : Clear rest := clear_of_parted parted rfl
      have digits : (value.chars ++ (text rest ++ tail)).takeWhile Char.isDigit =
        value.chars.takeWhile Char.isDigit := by
        rw [List.takeWhile_append, ends rest clear]
        split
        · rename_i whole
          rw [List.append_nil, (List.takeWhile_prefix _).eq_of_length whole]
        · rfl
      rw [text_cons, List.append_assoc, Token.text, number, digits]
      rfl
    · have other : token.isScalar = false ∧ numberToken token = none := by
        cases token with
        | scalar value => exact absurd ⟨value, rfl⟩ isScalar
        | _ => exact ⟨rfl, rfl⟩
      rw [number, ends (token :: rest) (clear_cons other.1), if_pos rfl, List.head?_cons, Option.bind_some, other.2]

/-- The regular expression for a field finds the document's first such field. -/
theorem search_text {Value : Type} (name : Name) (value : List Char → Option Value) (form : Token → Option Value)
    (tokens : List Token) (parted : Parted tokens) {tail : List Char} (unfinished : Unfinished tail)
    (reads : ∀ rest, rest <:+ tokens → value (text rest ++ tail) = rest.head?.bind form) :
    search name value (text tokens ++ tail) = firstField name form tokens := by
  rw [search, firstField, first_text name (separated value) (fieldValue form) id tokens tail unfinished parted,
    Option.map_map]
  · rfl
  · intro rest suffix
    rw [Option.map_id, id]
    exact separated_text value form rest unfinished fun later inner => reads later (inner.trans suffix)

/-- The header read from a cut of the document. -/
def headerOf (tokens : List Token) : Header :=
  ⟨firstField idName hexToken tokens, firstField slotName numberToken tokens,
    firstField heightName numberToken tokens⟩

theorem searches_text (tokens : List Token) (parted : Parted tokens) {tail : List Char}
    (unfinished : Unfinished tail) :
    (⟨search idName hexText (text tokens ++ tail), search slotName number (text tokens ++ tail),
      search heightName number (text tokens ++ tail)⟩ : Header) = headerOf tokens := by
  rw [headerOf, search_text idName hexText hexToken tokens parted unfinished
      fun rest _ => hexText_text rest unfinished,
    search_text slotName number numberToken tokens parted unfinished
      fun rest suffix => number_text rest (List.IsChain.suffix parted suffix) unfinished,
    search_text heightName number numberToken tokens parted unfinished
      fun rest suffix => number_text rest (List.IsChain.suffix parted suffix) unfinished]

theorem slice_append (before middle rest : List Char) :
    slice (before ++ (middle ++ rest)) before.length (before.length + middle.length) = middle := by
  rw [slice, List.take_length_add_append, List.take_left, List.drop_left]

/-- From the block's key on, the scan reads up to the next transactions key. -/
theorem searches_onward (onward : List Token) (parted : Parted onward) (before : List Char)
    (notTransactions : ∀ body rest, onward = .string body :: rest → body.chars ≠ transactionsName.chars) :
    (let raw := before ++ text onward
     let header :=
      match findFrom transactionsKey raw before.length with
      | some stop => if before.length < stop then slice raw before.length stop else raw.drop before.length
      | none => raw.drop before.length
     (⟨search idName hexText header, search slotName number header, search heightName number header⟩ : Header)) =
      headerOf (match firstToken transactionsName some onward with
        | some (before, _, _) => before
        | none => onward) := by
  have atKey := first_text transactionsName some some text onward [] (.inl rfl) parted fun rest _ => by
    rw [List.append_nil]
    rfl
  rw [List.append_nil] at atKey
  simp only [findFrom, List.drop_left, find_transactions, atKey]
  cases matched : firstToken transactionsName some onward with
  | none =>
    have searched := searches_text onward parted (.inl rfl)
    rw [List.append_nil] at searched
    exact searched
  | some place =>
    obtain ⟨passed, part, rest⟩ := place
    obtain ⟨body, later, split, named, -⟩ := firstToken_spec matched
    rw [matched] at atKey
    obtain ⟨others, shown, -⟩ := first_sound atKey
    have advanced : 0 < (text passed ++ part).length := by
      apply List.length_pos_of_ne_nil
      intro empty
      obtain ⟨noText, rfl⟩ := List.append_eq_nil_iff.mp empty
      cases passed with
      | nil => exact notTransactions body later split (List.cons.inj named).2
      | cons token passed =>
        obtain ⟨c, chars, shown⟩ := token.text_ne_nil
        rw [text_cons, shown] at noText
        cases noText
    have cutParted : Parted passed := List.IsChain.prefix (split ▸ parted) (List.prefix_append ..)
    have cut : slice (before ++ text onward) before.length (before.length + (text passed ++ part).length) =
        text passed ++ part := by rw [shown, slice_append]
    simp only [Option.map_some, Nat.lt_add_of_pos_right advanced, ↓reduceIte, cut]
    exact searches_text passed cutParted (unfinished_of_lead named)

/-- The scan of a document's text reads the first fields in the header's part of the document. -/
theorem scan_text (tokens : List Token) (parted : Parted tokens) :
    scanBlockHeader (text tokens) =
      match headerTokens tokens with
      | none => ⟨none, none, none⟩
      | some header => headerOf header := by
  have atBlock := first_text blockName (strip [':']) afterColon text tokens [] (.inl rfl) parted fun rest _ => by
    rw [strip_colon rest (.inl rfl)]
    simp only [List.append_nil]
  rw [List.append_nil] at atBlock
  rw [scanBlockHeader, find_block, atBlock, headerTokens]
  cases matched : firstToken blockName afterColon tokens with
  | none => rfl
  | some place =>
    obtain ⟨before, part, rest⟩ := place
    obtain ⟨body, later, split, named, colon⟩ := firstToken_spec matched
    have behind : later = .colon :: rest := by
      cases later with
      | nil => cases colon
      | cons token later =>
        cases token with
        | colon => cases colon; rfl
        | _ => cases colon
    have whole : text tokens = (text before ++ part) ++ text (.string ⟨blockName.chars, rfl⟩ :: .colon :: rest) := by
      rw [split, behind, text_append, text_cons, Token.text, named]
      simp [Token.text]
    have rests : Parted (.colon :: rest) := by
      have suffix : (Token.colon :: rest) <:+ tokens := by
        rw [split, behind]
        exact (List.suffix_cons _ _).trans (List.suffix_append _ _)
      exact List.IsChain.suffix parted suffix
    have searched := searches_onward (.string ⟨blockName.chars, rfl⟩ :: .colon :: rest)
      (parted_cons rests fun _ => clear_cons rfl) (text before ++ part)
      fun body rest same => by cases same; decide
    rw [← whole] at searched
    exact searched

/-! ## Whose fields they are -/

theorem quarantine_point {Value : Type} {loads : List Char → Option Value} {error : FrameUndecodableError}
    {record : QuarantinedBlock} {block : RebuiltBlock Value}
    (passed : quarantineUndecodableBlock loads error = .ok (record, block)) :
    (scanBlockHeader error.raw).id = some block.id ∧ (scanBlockHeader error.raw).slot = some block.slot := by
  simp only [quarantineUndecodableBlock] at passed
  split at passed
  · rename_i blockId slot foundId foundSlot
    split at passed
    · cases passed
    · cases passed
      exact ⟨foundId, foundSlot⟩
  · cases passed

/-- The scan attributes a frame's fields rightly exactly when the first field of each name between
the block's key and the next transactions key, if any, has the value of the block's own. -/
theorem attributed_iff (frame : Node) (tokens : List Token) (spelled : Spells tokens frame) :
    Attributed (text tokens) frame ↔ OwnFirst tokens frame := by
  have scanned := scan_text tokens (parted_of_spells spelled)
  constructor
  · rintro ⟨ids, slots, heights, -⟩ header found
    rw [found] at scanned
    rw [scanned] at ids slots heights
    exact ⟨ids, slots, heights⟩
  · intro own
    have fields : (∀ id ∈ (scanBlockHeader (text tokens)).id, ownText "id" frame = some (codes id)) ∧
        (∀ slot ∈ (scanBlockHeader (text tokens)).slot, ownNumber "slot" frame = some slot) ∧
        ∀ height ∈ (scanBlockHeader (text tokens)).height, ownNumber "height" frame = some height := by
      rw [scanned]
      cases found : headerTokens tokens with
      | none => simp
      | some header => exact own header found
    refine ⟨fields.1, fields.2.1, fields.2.2, ?_⟩
    intro Value loads error same record block passed
    obtain ⟨foundId, foundSlot⟩ := quarantine_point passed
    rw [same] at foundId foundSlot
    exact ⟨fields.1 _ foundId, fields.2.1 _ foundSlot⟩

def hash (digit : Char) (hex : isBody false (List.replicate 64 digit) = true) : Node :=
  .string ⟨List.replicate 64 digit, hex⟩

private theorem isBody_id : isBody false "id".toList = true := rfl

/-- A frame whose block names its point before its transactions. -/
def orderedFrame : Node :=
  .object
    [(⟨"result".toList, rfl⟩,
      .object
        [(⟨"block".toList, rfl⟩,
          .object
            [(⟨"id".toList, isBody_id⟩, hash 'a' (by decide)), (⟨"slot".toList, rfl⟩, .scalar ⟨'7', [], rfl⟩),
              (⟨"transactions".toList, rfl⟩, .array [.object [(⟨"id".toList, isBody_id⟩, hash 'b' (by decide))]])])])]

theorem ordered_frame_attributed : Attributed (text orderedFrame.tokens) orderedFrame := by
  apply (attributed_iff orderedFrame orderedFrame.tokens (solid_node orderedFrame)).mpr
  intro header found
  have shown : headerTokens orderedFrame.tokens =
      some (.string ⟨"block".toList, rfl⟩ :: .colon :: .openCurly :: .string ⟨"id".toList, isBody_id⟩ :: .colon ::
        ((hash 'a' (by decide)).tokens ++
          [.comma, .string ⟨"slot".toList, rfl⟩, .colon, .scalar ⟨'7', [], rfl⟩, .comma])) := by decide
  obtain rfl := Option.some.inj (found.symm.trans shown)
  refine ⟨?_, ?_, ?_⟩
  · intro id first
    cases first
    decide
  · intro slot first
    cases first
    decide
  · intro height first
    cases first

/-! ## A boundary block without a transactions key -/

theorem firstToken_skip {β : Type} (name : Name) (after : List Token → Option β) (tokens rest : List Token)
    (silent : ∀ token ∈ tokens, token.lead name = none) :
    firstToken name after (tokens ++ rest) =
      (firstToken name after rest).map fun (before, found) => (tokens ++ before, found) := by
  induction tokens with
  | nil => simp
  | cons token tokens ih =>
    rw [List.cons_append, firstToken, silent token (by simp), ih fun other member => silent other (by simp [member])]
    simp [Option.map_map, Function.comp_def]

/-- Arrays within arrays. -/
def nested : Nat → Node
  | 0 => .array []
  | n + 1 => .array [nested n]

theorem nested_silent (name : Name) (n : Nat) : ∀ token ∈ (nested n).tokens, token.lead name = none := by
  induction n with
  | zero => simp [nested, Node.tokens, itemTokens, Token.lead]
  | succ n ih =>
    simp only [nested, Node.tokens, itemTokens, List.append_nil, List.cons_append, List.tail_cons, List.mem_cons,
      List.mem_append, List.not_mem_nil, or_false]
    rintro token (rfl | inner | rfl)
    · rfl
    · exact ih token inner
    · rfl

mutual
/-- How deep the containers of a tree lie in each other. -/
def nesting : Node → Nat
  | .string _ | .scalar _ => 0
  | .array items => itemNesting items + 1
  | .object members => memberNesting members + 1

def itemNesting : List Node → Nat
  | [] => 0
  | item :: rest => max (nesting item) (itemNesting rest)

def memberNesting : List (Body × Node) → Nat
  | [] => 0
  | (_, value) :: rest => max (nesting value) (memberNesting rest)
end

theorem nesting_nested (n : Nat) : nesting (nested n) = n + 1 := by
  induction n with
  | zero => rfl
  | succ n ih => simp [nested, nesting, itemNesting, ih]

/-- The block of a frame with a boundary block: neither a slot nor transactions. -/
def boundaryBlock (extra : Node) : Node :=
  .object
    [(⟨"type".toList, rfl⟩, .string ⟨"ebb".toList, rfl⟩), (⟨"era".toList, rfl⟩, .string ⟨"byron".toList, rfl⟩),
      (⟨"id".toList, isBody_id⟩, hash 'a' (by decide)), (⟨"ancestor".toList, rfl⟩, hash 'b' (by decide)),
      (⟨"height".toList, rfl⟩, .scalar ⟨'2', "1600".toList, rfl⟩), (⟨"extra".toList, rfl⟩, extra)]

def boundaryTip : Node :=
  .object
    [(⟨"slot".toList, rfl⟩, .scalar ⟨'1', "33883340".toList, rfl⟩), (⟨"id".toList, isBody_id⟩, hash 'c' (by decide)),
      (⟨"height".toList, rfl⟩, .scalar ⟨'5', "183974".toList, rfl⟩)]

def boundaryFrame (extra : Node) : Node :=
  .object
    [(⟨"jsonrpc".toList, rfl⟩, .string ⟨"2.0".toList, rfl⟩),
      (⟨"method".toList, rfl⟩, .string ⟨"nextBlock".toList, rfl⟩),
      (⟨"result".toList, rfl⟩,
        .object
          [(⟨"direction".toList, rfl⟩, .string ⟨"forward".toList, rfl⟩), (⟨"block".toList, rfl⟩, boundaryBlock extra),
            (⟨"tip".toList, rfl⟩, boundaryTip)]),
      (⟨"id".toList, isBody_id⟩, .string ⟨"1".toList, rfl⟩)]

theorem nesting_boundary (extra : Node) : nesting extra < nesting (boundaryFrame extra) := by
  simp only [boundaryFrame, boundaryBlock, nesting, memberNesting]
  omega

def beforeBlock : List Token :=
  [.openCurly, .string ⟨"jsonrpc".toList, rfl⟩, .colon, .string ⟨"2.0".toList, rfl⟩, .comma,
    .string ⟨"method".toList, rfl⟩, .colon, .string ⟨"nextBlock".toList, rfl⟩, .comma,
    .string ⟨"result".toList, rfl⟩, .colon, .openCurly, .string ⟨"direction".toList, rfl⟩, .colon,
    .string ⟨"forward".toList, rfl⟩, .comma]

def beforeExtra : List Token :=
  [.openCurly, .string ⟨"type".toList, rfl⟩, .colon, .string ⟨"ebb".toList, rfl⟩, .comma, .string ⟨"era".toList, rfl⟩,
    .colon, .string ⟨"byron".toList, rfl⟩, .comma, .string ⟨"id".toList, isBody_id⟩, .colon] ++
  (hash 'a' (by decide)).tokens ++ [.comma, .string ⟨"ancestor".toList, rfl⟩, .colon] ++
  (hash 'b' (by decide)).tokens ++
  [.comma, .string ⟨"height".toList, rfl⟩, .colon, .scalar ⟨'2', "1600".toList, rfl⟩, .comma,
    .string ⟨"extra".toList, rfl⟩, .colon]

def afterExtra : List Token :=
  [.closeCurly, .comma, .string ⟨"tip".toList, rfl⟩, .colon] ++ boundaryTip.tokens ++
  [.closeCurly, .comma, .string ⟨"id".toList, isBody_id⟩, .colon, .string ⟨"1".toList, rfl⟩, .closeCurly]

theorem boundary_tokens (extra : Node) :
    (boundaryFrame extra).tokens =
      beforeBlock ++ (.string ⟨blockName.chars, rfl⟩ :: .colon :: (beforeExtra ++ (extra.tokens ++ afterExtra))) := by
  simp [boundaryFrame, boundaryBlock, Node.tokens, memberTokens, beforeBlock, beforeExtra, afterExtra, blockName,
    Name.chars]

theorem boundary_slot (n : Nat) :
    (scanBlockHeader (text (boundaryFrame (nested n)).tokens)).slot = some 133883340 := by
  have parted : Parted (boundaryFrame (nested n)).tokens := by
    have parted := parted_node (boundaryFrame (nested n)) [] .nil (by intro token member; cases member)
    rwa [List.append_nil] at parted
  have silentBefore : ∀ token ∈ beforeBlock, token.lead blockName = none := by decide
  have silentInside : ∀ token ∈ .string ⟨blockName.chars, rfl⟩ :: .colon :: beforeExtra,
      token.lead transactionsName = none ∧ token.lead slotName = none := by decide
  have noKey : firstToken transactionsName some afterExtra = none := by decide
  have tipFirst : firstField slotName numberToken afterExtra = some 133883340 := by decide
  have atBlock (rest : List Token) :
      firstToken blockName afterColon (.string ⟨blockName.chars, rfl⟩ :: .colon :: rest) = some ([], [], rest) := rfl
  have header : headerTokens (boundaryFrame (nested n)).tokens =
      some ((.string ⟨blockName.chars, rfl⟩ :: .colon :: beforeExtra) ++ ((nested n).tokens ++ afterExtra)) := by
    rw [headerTokens, boundary_tokens, firstToken_skip _ _ _ _ silentBefore, atBlock]
    simp only [Option.map_some, ← List.cons_append]
    rw [firstToken_skip _ _ _ _ fun token member => (silentInside token member).1,
      firstToken_skip _ _ _ _ (nested_silent transactionsName n), noKey]
    rfl
  rw [scan_text _ parted, header]
  change firstField slotName numberToken _ = _
  rw [firstField, firstToken_skip _ _ _ _ fun token member => (silentInside token member).2,
    firstToken_skip _ _ _ _ (nested_silent slotName n), Option.map_map, Option.map_map]
  exact tipFirst

theorem boundary_unattributed (n : Nat) :
    n < nesting (boundaryFrame (nested n)) ∧ Spells (boundaryFrame (nested n)).tokens (boundaryFrame (nested n)) ∧
      ¬ Attributed (text (boundaryFrame (nested n)).tokens) (boundaryFrame (nested n)) := by
  refine ⟨?_, solid_node _, ?_⟩
  · have deeper := nesting_boundary (nested n)
    rw [nesting_nested] at deeper
    exact Nat.lt_of_succ_lt deeper
  · rintro ⟨-, slots, -⟩
    have slot := slots 133883340 (boundary_slot n)
    cases slot

/-- A boundary block has no slot, and its frame no transactions key: the scan returns the tip's
slot as the block's. -/
theorem tip_taken_for_the_block :
    20000 < nesting (boundaryFrame (nested 20000)) ∧
    Spells (boundaryFrame (nested 20000)).tokens (boundaryFrame (nested 20000)) ∧
    ¬ Attributed (text (boundaryFrame (nested 20000)).tokens) (boundaryFrame (nested 20000)) :=
  boundary_unattributed 20000

end TransactionMonitoring.BlockHeader
