import TransactionMonitoring.DatumStructure

/-! The exceptions a datum's walk lets through.

Decoding the bytes is guarded, the walk over what was decoded is not.  A node is converted
when it is taken from the budget: `str` refuses an integer of too many digits, and may refuse
what `cbor2` makes of a tag of its own, and the node's model refuses a text that is no Unicode.
The last two are parameters.  `none` is an exception on its way out.
-/
namespace TransactionMonitoring.DatumStructure

/-! ## Walks that may stop -/

section
variable {α : Type} (walk : α → Budget → Option (DatumNode × Budget))

def tryAll : List α → Budget → Option (List DatumNode × Budget)
  | [], budget => some ([], budget)
  | part :: rest, budget =>
      (walk part budget).bind fun first =>
        (tryAll rest first.2).map fun later => (first.1 :: later.1, later.2)

def tryEntries : List (α × α) → Budget → Option (List DatumNode × Budget)
  | [], budget => some ([], budget)
  | (key, value) :: rest, budget =>
      (walk key budget).bind fun left =>
        (walk value left.2).bind fun right =>
          (tryEntries rest right.2).map fun later =>
            ({ kind := .mapEntry, children := [left.1, right.1] } :: later.1, later.2)

def tryOpened : Opened α → Budget → Option (DatumNode × Budget)
  | .leaf node, budget => some (node, budget)
  | .branch node parts, budget => (tryAll walk parts budget).map (parent node)
  | .map entries, budget => (tryEntries walk entries budget).map (parent { kind := .map })

end

/-- A walk in which a node may raise when it is converted. -/
def tryNode {α : Type} (raises : α → Bool) (opened : α → Opened α) :
    Nat → α → Budget → Option (DatumNode × Budget)
  | 0, _, budget => some (elided budget)
  | levels + 1, node, budget =>
      match budget.take with
      | (false, left) => some (elided left)
      | (true, left) =>
          if raises node then none else tryOpened (tryNode raises opened levels) (opened node) left

/-! ## What raises -/

/-- The interpreter's limit for `str` of an integer. -/
def maxStrDigits : Nat := 4300

/-- `str` raises on an integer with more digits. -/
def strRaises (value : Int) : Bool := 10 ^ maxStrDigits ≤ value.natAbs

section
variable (isprintable : String → Bool)
-- Whether a text is Unicode, and whether `str` of another value of `cbor2` succeeds.
variable (isUnicode shows : String → Bool)

def cborRaises : Cbor → Bool
  | .int value => strRaises value
  | .text value => !isUnicode value
  | .other shown => !shows shown
  | _ => false

/-- An object that is no constructor raises where the member that makes it a leaf does. -/
def objectRaises (node : Json) : Bool :=
  match node.get "list", node.get "map", node.get "bytes", node.get "int", node.get "integer", node.get "string" with
  | some (.list _), _, _, _, _, _ => false
  | _, some (.list _), _, _, _, _ => false
  | _, _, some (.text rawHex), _, _, _ => (fromHex rawHex).isNone && !isUnicode rawHex
  | _, _, _, some (.int value), _, _ => strRaises value
  | _, _, _, _, some (.int value), _ => strRaises value
  | _, _, _, _, _, some (.text value) => !isUnicode value
  | _, _, _, _, _, _ => false

def jsonRaises (node : Json) : Bool :=
  match node with
  | .int value => strRaises value
  | .text value => !isUnicode value
  | .dict _ => if (node.get "constructor").isSome then false else objectRaises isUnicode node
  | _ => false

variable (loads : List UInt8 → Option Cbor) (maxWalkDepth : Nat)

/-- `decode_datum_structure` with the exceptions of its walks. -/
def tryDecodeDatumStructure (datum : Json) (maxNodes : Nat) : Option DecodedDatum :=
  let shown (encoding : Encoding) (walked : DatumNode × Budget) : DecodedDatum :=
    { root := some walked.1, encoding := encoding, truncated := walked.2.hit }
  let walkJson :=
    (tryNode (jsonRaises isUnicode) (openPlutusJson isprintable) (maxWalkDepth + 1) datum
      { remaining := maxNodes }).map (shown .plutusJson)
  match datum with
  | .null => some { encoding := .none }
  | .text datum =>
      match fromHex datum with
      | none => some { encoding := .cborHex, error := some "datum is not valid hex" }
      | some blob =>
        match loads blob with
        | none => some { encoding := .cborHex, error := some "datum is not valid CBOR" }
        | some decoded =>
            (tryNode (cborRaises isUnicode shows) (openCbor isprintable) (maxWalkDepth + 1) decoded
              { remaining := maxNodes }).map (shown .cborHex)
  | .list _ => walkJson
  | .dict _ => walkJson
  | _ => some { encoding := .none, error := some "unrecognised datum representation" }

end

/-! ## The nodes a walk takes -/

section
variable {α : Type}

/-- The nodes met below an opened one, `nodes` telling those of each part. -/
def Opened.below (nodes : α → List α) : Opened α → List α
  | .leaf _ => []
  | .branch _ parts => parts.flatMap nodes
  | .map entries => entries.flatMap fun entry => nodes entry.1 ++ nodes entry.2

/-- The nodes above the depth cap, in the order the walk meets them. -/
def visited (opened : α → Opened α) : Nat → α → List α
  | 0, _ => []
  | levels + 1, node => node :: (opened node).below (visited opened levels)

end

section
variable {α : Type} {raises : α → Bool} {opened : α → Opened α} {levels : Nat}

/-- A walk over the parts of a value takes these nodes of them, as far as the budget goes. -/
structure Takes (raises : α → Bool) (tried : α → Budget → Option (DatumNode × Budget))
    (walk : α → Budget → DatumNode × Budget) (nodes : α → List α) : Prop where
  remaining : ∀ part budget, (walk part budget).2.remaining = budget.remaining - (nodes part).length
  result : ∀ part budget, tried part budget =
    if ((nodes part).take budget.remaining).any raises then none else some (walk part budget)

variable {tried : α → Budget → Option (DatumNode × Budget)} {walk : α → Budget → DatumNode × Budget}
  {nodes : α → List α}

theorem any_take_append (raises : α → Bool) (first later : List α) (count : Nat) :
    ((first ++ later).take count).any raises =
      ((first.take count).any raises || (later.take (count - first.length)).any raises) := by
  rw [List.take_append, List.any_append]

theorem Takes.all (takes : Takes raises tried walk nodes) (parts : List α) (budget : Budget) :
    (walkAll walk parts budget).2.remaining = budget.remaining - (parts.flatMap nodes).length ∧
    tryAll tried parts budget =
      if ((parts.flatMap nodes).take budget.remaining).any raises then none else some (walkAll walk parts budget) := by
  induction parts generalizing budget with
  | nil => simp [walkAll, tryAll]
  | cons part rest ih =>
    obtain ⟨remaining, result⟩ := ih (walk part budget).2
    rw [takes.remaining] at remaining result
    rw [List.flatMap_cons, any_take_append, List.length_append]
    constructor
    · rw [walkAll, remaining]
      omega
    · rw [tryAll, takes.result]
      by_cases here : ((nodes part).take budget.remaining).any raises = true
      · simp [here]
      · rw [if_neg here, Option.bind_some, result]
        simp only [here, Bool.false_or]
        split
        · rfl
        · rfl

theorem Takes.entries (takes : Takes raises tried walk nodes) (entries : List (α × α)) (budget : Budget) :
    (walkEntries walk entries budget).2.remaining =
        budget.remaining - (entries.flatMap fun entry => nodes entry.1 ++ nodes entry.2).length ∧
    tryEntries tried entries budget =
      if ((entries.flatMap fun entry => nodes entry.1 ++ nodes entry.2).take budget.remaining).any raises then none
      else some (walkEntries walk entries budget) := by
  induction entries generalizing budget with
  | nil => simp [walkEntries, tryEntries]
  | cons entry rest ih =>
    obtain ⟨key, value⟩ := entry
    obtain ⟨remaining, result⟩ := ih (walk value (walk key budget).2).2
    rw [takes.remaining, takes.remaining] at remaining result
    rw [List.flatMap_cons, any_take_append, any_take_append, List.length_append, List.length_append]
    dsimp only
    constructor
    · rw [walkEntries, remaining]
      omega
    · rw [tryEntries, takes.result]
      by_cases left : ((nodes key).take budget.remaining).any raises = true
      · simp [left]
      · rw [if_neg left, Option.bind_some, takes.result, takes.remaining]
        by_cases right : ((nodes value).take (budget.remaining - (nodes key).length)).any raises = true
        · simp [right]
        · rw [if_neg right, Option.bind_some, result, ← Nat.sub_sub]
          simp only [left, right, Bool.false_or]
          split
          · rfl
          · rfl

theorem Takes.below (takes : Takes raises tried walk nodes) (shape : Opened α) (budget : Budget) :
    (walkOpened walk shape budget).2.remaining = budget.remaining - (shape.below nodes).length ∧
    tryOpened tried shape budget =
      if ((shape.below nodes).take budget.remaining).any raises then none else some (walkOpened walk shape budget) := by
  cases shape with
  | leaf node => simp [Opened.below, walkOpened, tryOpened]
  | branch node parts =>
    obtain ⟨remaining, result⟩ := takes.all parts budget
    refine ⟨remaining, ?_⟩
    rw [tryOpened, result, Opened.below]
    split
    · rfl
    · rfl
  | map entries =>
    obtain ⟨remaining, result⟩ := takes.entries entries budget
    refine ⟨remaining, ?_⟩
    rw [tryOpened, result, Opened.below]
    split
    · rfl
    · rfl

/-- The walk raises exactly if one of the nodes it takes does, and is the plain walk else. -/
theorem takes_tryNode (raises : α → Bool) (opened : α → Opened α) (levels : Nat) :
    Takes raises (tryNode raises opened levels) (walkNode opened levels) (visited opened levels) := by
  induction levels with
  | zero => exact ⟨fun _ _ => rfl, fun _ _ => by simp [visited, tryNode, walkNode]⟩
  | succ levels ih =>
    have both (node : α) (budget : Budget) :
        (walkNode opened (levels + 1) node budget).2.remaining =
          budget.remaining - (visited opened (levels + 1) node).length ∧
        tryNode raises opened (levels + 1) node budget =
          if ((visited opened (levels + 1) node).take budget.remaining).any raises then none
          else some (walkNode opened (levels + 1) node budget) := by
      obtain ⟨count, hit⟩ := budget
      cases count with
      | zero => simp [walkNode, tryNode, Budget.take, elided]
      | succ count =>
        have taken : Budget.take { remaining := count + 1, hit := hit } = (true, { remaining := count, hit := hit }) :=
          if_neg (Nat.not_succ_le_zero count)
        obtain ⟨remaining, result⟩ := ih.below (opened node) { remaining := count, hit := hit }
        rw [walkNode, tryNode, taken, visited, List.take_succ_cons, List.any_cons, List.length_cons]
        refine ⟨by rw [remaining, Nat.add_sub_add_right], ?_⟩
        cases here : raises node with
        | true => simp
        | false => simpa [here] using result
    exact ⟨fun node budget => (both node budget).1, fun node budget => (both node budget).2⟩

end

/-! ## When nothing escapes -/

section
variable (isprintable isUnicode shows : String → Bool) (loads : List UInt8 → Option Cbor) (maxWalkDepth : Nat)

/-- No node that the walk of the datum takes raises: none of the first `maxNodes` it meets above
the depth cap. -/
def Convertible (maxNodes : Nat) : Json → Prop
  | .text datum => ∀ blob decoded, fromHex datum = some blob → loads blob = some decoded →
      ∀ node ∈ (visited (openCbor isprintable) (maxWalkDepth + 1) decoded).take maxNodes,
        cborRaises isUnicode shows node = false
  | .null => True
  | .bool _ => True
  | .int _ => True
  | .float _ => True
  | datum => ∀ node ∈ (visited (openPlutusJson isprintable) (maxWalkDepth + 1) datum).take maxNodes,
      jsonRaises isUnicode node = false

/-- A walk from the root comes to an end exactly if no node it takes raises. -/
theorem tryNode_ends_iff {α : Type} (raises : α → Bool) (opened : α → Opened α) (levels maxNodes : Nat)
    (root : α) :
    (∃ walked, tryNode raises opened levels root { remaining := maxNodes } = some walked) ↔
      ∀ node ∈ (visited opened levels root).take maxNodes, raises node = false := by
  rw [(takes_tryNode raises opened levels).result]
  constructor
  · rintro ⟨walked, ends⟩ node taken
    by_contra raised
    rw [if_pos (List.any_eq_true.mpr ⟨node, taken, Bool.not_eq_false _ ▸ raised⟩)] at ends
    cases ends
  · intro harmless
    refine ⟨_, if_neg fun raised => ?_⟩
    obtain ⟨node, taken, raised⟩ := List.any_eq_true.mp raised
    rw [harmless node taken] at raised
    cases raised

private theorem map_ends_iff {α β : Type} (shown : α → β) (tried : Option α) :
    (∃ result, tried.map shown = some result) ↔ ∃ walked, tried = some walked := by
  cases tried <;> simp

/-- Decoding ends exactly if no node its walk takes raises. -/
theorem decode_ends_iff (datum : Json) (maxNodes : Nat) :
    (∃ decoded, tryDecodeDatumStructure isprintable isUnicode shows loads maxWalkDepth datum maxNodes = some decoded) ↔
      Convertible isprintable isUnicode shows loads maxWalkDepth maxNodes datum := by
  cases datum with
  | null | bool | int | float => exact iff_of_true ⟨_, rfl⟩ trivial
  | list | dict =>
    exact (map_ends_iff _ _).trans (tryNode_ends_iff (jsonRaises isUnicode) (openPlutusJson isprintable) _ _ _)
  | text datum =>
    unfold tryDecodeDatumStructure Convertible
    cases hex : fromHex datum with
    | none => simp [hex]
    | some blob =>
      cases loaded : loads blob with
      | none =>
        simp only [hex, loaded, Option.some.injEq, exists_eq', true_iff]
        rintro _ decoded rfl other
        cases loaded.symm.trans other
      | some decoded =>
        simp only [hex, loaded]
        have walks := tryNode_ends_iff (cborRaises isUnicode shows) (openCbor isprintable) (maxWalkDepth + 1) maxNodes
          decoded
        refine ((map_ends_iff _ _).trans walks).trans ?_
        constructor
        · rintro harmless _ _ ⟨⟩ other
          obtain rfl := Option.some.inj (loaded.symm.trans other)
          exact harmless
        · exact fun convertible => convertible blob decoded rfl loaded

private theorem tryNode_eq_of_ends {α : Type} {raises : α → Bool} {opened : α → Opened α} {levels : Nat} {root : α}
    {budget : Budget} {walked : DatumNode × Budget} (ends : tryNode raises opened levels root budget = some walked) :
    walked = walkNode opened levels root budget := by
  rw [(takes_tryNode raises opened levels).result] at ends
  split at ends
  · cases ends
  · exact (Option.some.inj ends).symm

/-- Where it ends, it answers as the plain walk does. -/
theorem decode_of_ends {datum : Json} {maxNodes : Nat} {decoded : DecodedDatum}
    (ends : tryDecodeDatumStructure isprintable isUnicode shows loads maxWalkDepth datum maxNodes = some decoded) :
    decoded = decodeDatumStructure isprintable loads maxWalkDepth datum maxNodes := by
  cases datum with
  | null | bool | int | float => exact (Option.some.inj ends).symm
  | list | dict =>
    obtain ⟨walked, ended, rfl⟩ := Option.map_eq_some_iff.mp ends
    obtain rfl := tryNode_eq_of_ends ended
    rfl
  | text datum =>
    unfold tryDecodeDatumStructure at ends
    unfold decodeDatumStructure
    cases hex : fromHex datum with
    | none =>
      simp only [hex] at ends ⊢
      exact (Option.some.inj ends).symm
    | some blob =>
      cases loaded : loads blob with
      | none =>
        simp only [hex, loaded] at ends ⊢
        exact (Option.some.inj ends).symm
      | some value =>
        simp only [hex, loaded] at ends ⊢
        obtain ⟨walked, ended, rfl⟩ := Option.map_eq_some_iff.mp ends
        obtain rfl := tryNode_eq_of_ends ended
        rfl

end

/-! ## A bignum too long to show -/

/-- What `cbor2` makes of a positive bignum with two bytes of length. -/
def loadBignum : List UInt8 → Option Cbor
  | 0xc2 :: 0x59 :: high :: low :: blob =>
      if blob.length = 256 * high.toNat + low.toNat then
        some (.int (blob.foldl (fun value byte => 256 * value + byte.toNat) 0 : Nat))
      else none
  | _ => none

/-- A bignum of 1800 bytes. -/
def longBignum : String := String.ofList ("c2590708".toList ++ List.replicate (2 * 1800) 'f')

theorem fromDigits_ones (count : Nat) :
    fromDigits (List.replicate (2 * count) 'f') = some (List.replicate count 255) := by
  induction count with
  | zero => rfl
  | succ count ih => exact fromDigits_cons 'f' 'f' rfl rfl (by decide) ih

theorem foldl_ones (count value : Nat) :
    (List.replicate count (255 : UInt8)).foldl (fun value byte => 256 * value + byte.toNat) value + 1 =
      (value + 1) * 256 ^ count := by
  induction count generalizing value with
  | zero => simp
  | succ count ih =>
    have byte : (255 : UInt8).toNat = 255 := rfl
    rw [List.replicate_succ, List.foldl_cons, ih, byte, Nat.pow_succ', ← Nat.mul_assoc]
    congr 1
    omega

/-- A bignum of nothing but ones is one less than a power. -/
theorem loadBignum_ones {count : Nat} {high low : UInt8} (length : count = 256 * high.toNat + low.toNat) :
    loadBignum (0xc2 :: 0x59 :: high :: low :: List.replicate count 255) = some (.int (256 ^ count - 1 : Nat)) := by
  have counted := foldl_ones count 0
  rw [Nat.zero_add, Nat.one_mul] at counted
  rw [loadBignum, List.length_replicate, if_pos length, ← counted, Nat.add_sub_cancel]

theorem fromDigits_bignum (count : Nat) : fromDigits ("c2590708".toList ++ List.replicate (2 * count) 'f') =
    some (0xc2 :: 0x59 :: 0x07 :: 0x08 :: List.replicate count 255) := by
  have low := fromDigits_cons '0' '8' rfl rfl (by decide) (fromDigits_ones count)
  have high := fromDigits_cons '0' '7' rfl rfl (by decide) low
  have length := fromDigits_cons '5' '9' rfl rfl (by decide) high
  exact fromDigits_cons 'c' '2' rfl rfl (by decide) length

theorem fromHex_longBignum :
    fromHex longBignum = some (0xc2 :: 0x59 :: 0x07 :: 0x08 :: List.replicate 1800 255) := by
  unfold fromHex longBignum
  simp only [String.toList_ofList]
  exact fromDigits_bignum 1800

/-- The bytes decode and the walk of the integer raises, at the code's own limits. -/
theorem long_bignum_escapes : ¬ ∃ decoded,
    tryDecodeDatumStructure (fun _ => true) (fun _ => true) (fun _ => true) loadBignum 64 (.text longBignum) 20000 =
      some decoded := by
  intro ends
  have length : 1800 = 256 * (0x07 : UInt8).toNat + (0x08 : UInt8).toNat := rfl
  have convertible := (decode_ends_iff _ _ _ _ _ _ _).mp ends
  have fine := convertible _ _ fromHex_longBignum (loadBignum_ones length) (.int (256 ^ 1800 - 1 : Nat))
    (List.mem_singleton_self _)
  rw [cborRaises, strRaises, decide_eq_false_iff_not] at fine
  exact fine (by decide +kernel)

end TransactionMonitoring.DatumStructure
