import TransactionMonitoring.JsonText

/-! Recovering a block's transactions from a frame that does not decode.

The frame is cut lexically into the elements of its transactions array, each of which is then
decoded on its own.  The scanner's state is followed token by token: strings, however escaped,
and brackets deeper than an element's own leave it where it was.
-/
namespace TransactionMonitoring.FrameRecovery
open JsonText

/-! ## The scanner -/

/-- `_TRANSACTIONS_KEY`. -/
def transactionsKey : List Char := "\"transactions\"".toList

structure Scan where
  depth : Int
  elementStart : Option Nat
  inString : Bool
  escaped : Bool
  elements : List (List Char)
deriving DecidableEq, Repr

/-- The body of the scanner's loop; `none` is its `break`. -/
def step (raw : List Char) (i : Nat) (ch : Char) (scan : Scan) : Option Scan :=
  if scan.inString then
    if scan.escaped then some { scan with escaped := false }
    else if ch = '\\' then some { scan with escaped := true }
    else if ch = '"' then some { scan with inString := false }
    else some scan
  else if ch = '"' then some { scan with inString := true }
  else if ch = '[' ∨ ch = '{' then
    let depth := scan.depth + 1
    -- Depth 1 is the array itself, so an element opens at depth 2.
    if depth = 2 ∧ scan.elementStart = none then
      some { scan with depth := depth, elementStart := some i }
    else some { scan with depth := depth }
  else if ch = ']' ∨ ch = '}' then
    let depth := scan.depth - 1
    match scan.elementStart with
    | some start =>
      if depth = 1 then
        some { scan with depth := depth, elementStart := none,
                         elements := scan.elements ++ [slice raw start (i + 1)] }
      else if depth = 0 then none
      else some { scan with depth := depth }
    | none => if depth = 0 then none else some { scan with depth := depth }
  else some scan

/-- The loop from a position on. -/
def scanFrom (raw : List Char) : Nat → List Char → Scan → List (List Char)
  | _, [], scan => scan.elements
  | i, ch :: rest, scan =>
    match step raw i ch scan with
    | some next => scanFrom raw (i + 1) rest next
    | none => scan.elements

/-- `split_array_elements`. -/
def splitArrayElements (raw key : List Char) : List (List Char) :=
  match find key raw with
  | none => []
  | some keyAt =>
    match findFrom ['['] raw keyAt with
    | none => []
    | some start => scanFrom raw start (raw.drop start) ⟨0, none, false, false, []⟩

/-- `recover_transactions`; the decoder answers nothing where it raises. -/
def recoverTransactions {Value : Type} (loads : List Char → Option Value) (raw : List Char) :
    List Value × Nat :=
  (splitArrayElements raw transactionsKey).foldl
    (fun (decoded, lost) element =>
      match loads element with
      | some value => (decoded ++ [value], lost)
      | none => (decoded, lost + 1))
    ([], 0)

/-! ## What a token does to the scanner -/

/-- The scanner between two tokens. -/
def Scan.between (depth : Int) (elementStart : Option Nat) (elements : List (List Char)) : Scan :=
  ⟨depth, elementStart, false, false, elements⟩

section Tokens
variable (raw : List Char) (depth : Int) (start : Option Nat) (elements : List (List Char))

theorem scan_cons {i : Nat} {ch : Char} {rest : List Char} {scan next : Scan}
    (stepped : step raw i ch scan = some next) :
    scanFrom raw i (ch :: rest) scan = scanFrom raw (i + 1) rest next := by
  simp [scanFrom, stepped]

/-- Inside a string nothing but its own end counts. -/
theorem scan_body (body : List Char) (escaped : Bool) (closed : isBody escaped body = true) (i : Nat)
    (rest : List Char) :
    scanFrom raw i (body ++ '"' :: rest) ⟨depth, start, true, escaped, elements⟩ =
      scanFrom raw (i + body.length + 1) rest (.between depth start elements) := by
  induction body generalizing i escaped with
  | nil =>
    cases escaped with
    | true => cases closed
    | false => simp [scanFrom, step, Scan.between]
  | cons c body ih =>
    have index : i + 1 + body.length + 1 = i + (c :: body).length + 1 := by
      simp only [List.length_cons]
      omega
    rw [List.cons_append, ← index]
    cases escaped with
    | true => rw [scan_cons raw (by simp only [step]; rfl), ih false closed]
    | false =>
      rw [isBody] at closed
      by_cases backslash : c = '\\'
      · rw [if_pos backslash] at closed
        rw [scan_cons raw (by simp only [step, backslash]; rfl), ih true closed]
      · rw [if_neg backslash, Bool.and_eq_true, bne_iff_ne] at closed
        have stays : step raw i c ⟨depth, start, true, false, elements⟩ =
            some ⟨depth, start, true, false, elements⟩ := by simp [step, backslash, closed.1]
        rw [scan_cons raw stays, ih false closed.2]

/-- Characters that are neither quotes nor brackets change nothing. -/
theorem scan_plain (chars : List Char) (plain : ∀ c ∈ chars, c ∉ marks) (i : Nat)
    (rest : List Char) :
    scanFrom raw i (chars ++ rest) (.between depth start elements) =
      scanFrom raw (i + chars.length) rest (.between depth start elements) := by
  induction chars generalizing i with
  | nil => rfl
  | cons c chars ih =>
    have apart : c ∉ marks := plain c (by simp)
    have stays : step raw i c (.between depth start elements) = some (.between depth start elements) := by
      simp only [marks, List.mem_cons, List.not_mem_nil, or_false, not_or] at apart
      simp [step, Scan.between, apart]
    rw [List.cons_append, scan_cons raw stays, ih fun c member => plain c (by simp [member])]
    simp only [List.length_cons, Nat.add_assoc, Nat.add_comm 1]

/-- Inside an element, brackets count and nothing is cut out. -/
theorem scan_inside (tokens : List Token) (k m : Nat) (balanced : openAfter k tokens = some m)
    (begun : Nat) (i : Nat) (rest : List Char) :
    scanFrom raw i (text tokens ++ rest) (.between (k + 2) (some begun) elements) =
      scanFrom raw (i + (text tokens).length) rest (.between (m + 2) (some begun) elements) := by
  induction tokens generalizing k i with
  | nil =>
    cases balanced
    rfl
  | cons token tokens ih =>
    have index (n : Nat) : i + n + (text tokens).length = i + (n + (text tokens).length) := Nat.add_assoc ..
    rw [text_cons, List.append_assoc, List.length_append, ← index]
    cases token with
    | string body =>
      have opened : step raw i '"' (.between (k + 2) (some begun) elements) =
          some ⟨k + 2, some begun, true, false, elements⟩ := by simp [step, Scan.between]
      simp only [Token.text, List.cons_append, List.append_assoc, List.nil_append]
      rw [scan_cons raw opened, scan_body _ _ _ _ _ _ body.closed, ih k balanced]
      congr 1
      simp only [List.length_cons, List.length_append, List.length_nil]
      omega
    | scalar value => rw [Token.text, scan_plain _ _ _ _ _ (scalar_plain value), ih k balanced]
    | space blank =>
      rw [Token.text, scan_plain _ _ _ _ [blank.char] (by simpa using blank_plain blank), ih k balanced]
    | comma => rw [Token.text, scan_plain _ _ _ _ [','] (by simp [marks]), ih k balanced]
    | colon => rw [Token.text, scan_plain _ _ _ _ [':'] (by simp [marks]), ih k balanced]
    | openCurly | openSquare =>
      have opened (ch : Char) (opens : ch = '[' ∨ ch = '{') :
          step raw i ch (.between (k + 2) (some begun) elements) =
            some (.between ((k + 1 : Nat) + 2) (some begun) elements) := by
        rcases opens with rfl | rfl <;> simp [step, Scan.between] <;> omega
      rw [Token.text, List.singleton_append, scan_cons raw (opened _ (by simp)), ih (k + 1) balanced]
      rfl
    | closeCurly | closeSquare =>
      cases k with
      | zero => cases balanced
      | succ k =>
        have closed (ch : Char) (closes : ch = ']' ∨ ch = '}') :
            step raw i ch (.between ((k + 1 : Nat) + 2) (some begun) elements) =
              some (.between (k + 2) (some begun) elements) := by
          have deep : ¬ (k : Int) + 2 = 1 := by omega
          have notOut : ¬ (k : Int) + 2 = 0 := by omega
          have next : (k : Int) + 1 + 2 - 1 = k + 2 := by omega
          rcases closes with rfl | rfl <;> simp [step, Scan.between, deep, notOut, next]
        rw [Token.text, List.singleton_append, scan_cons raw (closed _ (by simp)), ih k balanced]
        rfl

end Tokens

/-! ## Elements of an array -/

/-- An object in an array, with the blanks around it. -/
structure Element where
  before : List Blank
  inner : List Token
  after : List Blank
  object : ∃ members, Spells (.openCurly :: inner ++ [.closeCurly]) (.object members)

/-- The element's own text. -/
def Element.chars (element : Element) : List Char :=
  text (.openCurly :: element.inner ++ [.closeCurly])

def blanks (spaces : List Blank) : List Token := spaces.map .space

/-- The element between its blanks. -/
def Element.slot (element : Element) : List Char :=
  text (blanks element.before) ++ (element.chars ++ text (blanks element.after))

/-- The elements, each after a comma. -/
def listed (elements : List Element) : List Char :=
  elements.flatMap fun element => ',' :: element.slot

/-- An array of objects. -/
def arrayText (leading : List Blank) (elements : List Element) : List Char :=
  '[' :: text (blanks leading) ++ (listed elements).tail ++ [']']

section Elements
variable (raw : List Char)

theorem scan_blanks (spaces : List Blank) (i : Nat) (rest : List Char) (depth : Int)
    (start : Option Nat) (elements : List (List Char)) :
    scanFrom raw i (text (blanks spaces) ++ rest) (.between depth start elements) =
      scanFrom raw (i + (text (blanks spaces)).length) rest (.between depth start elements) := by
  apply scan_plain
  intro c member
  obtain ⟨_, isSpace, member⟩ := List.mem_flatMap.mp member
  obtain ⟨blank, -, rfl⟩ := List.mem_map.mp isSpace
  rw [Token.text, List.mem_singleton] at member
  exact member ▸ blank_plain blank

/-- An element is cut out from its opening brace to its closing one. -/
theorem scan_element (element : Element) (done rest : List Char) (elements : List (List Char))
    (whole : raw = done ++ element.chars ++ rest) :
    scanFrom raw done.length (element.chars ++ rest) (.between 1 none elements) =
      scanFrom raw (done ++ element.chars).length rest
        (.between 1 none (elements ++ [element.chars])) := by
  obtain ⟨members, spelled⟩ := element.object
  have balanced := openAfter_object spelled 0
  have opened : step raw done.length '{' (.between 1 none elements) =
      some (.between ((0 : Nat) + 2) (some done.length) elements) := by simp [step, Scan.between]
  have length : element.chars.length = (text element.inner).length + 2 := by simp [Element.chars, Token.text]
  have cutOut : slice raw done.length (done.length + 1 + (text element.inner).length + 1) = element.chars := by
    have stop : done.length + 1 + (text element.inner).length + 1 = (done ++ element.chars).length := by
      rw [List.length_append, length]
      omega
    rw [slice, stop, whole, List.take_left, List.drop_left]
  have closed : step raw (done.length + 1 + (text element.inner).length) '}'
      (.between ((0 : Nat) + 2) (some done.length) elements) =
        some (.between 1 none (elements ++ [element.chars])) := by
    simp [step, Scan.between, cutOut]
  have chars : element.chars ++ rest = '{' :: (text element.inner ++ '}' :: rest) := by
    simp [Element.chars, Token.text]
  rw [chars, scan_cons raw opened, scan_inside raw elements element.inner 0 0 balanced, scan_cons raw closed,
    List.length_append, length]
  congr 1
  omega

theorem scan_slot (element : Element) (done rest : List Char) (elements : List (List Char))
    (whole : raw = done ++ element.slot ++ rest) :
    scanFrom raw done.length (element.slot ++ rest) (.between 1 none elements) =
      scanFrom raw (done ++ element.slot).length rest
        (.between 1 none (elements ++ [element.chars])) := by
  have cutOut := scan_element raw element (done ++ text (blanks element.before))
    (text (blanks element.after) ++ rest) elements (by simp [whole, Element.slot])
  simp only [List.length_append, Element.slot, List.append_assoc] at cutOut ⊢
  rw [scan_blanks, cutOut, scan_blanks]
  congr 1
  omega

theorem scan_listed (items : List Element) (done rest : List Char) (elements : List (List Char))
    (whole : raw = done ++ listed items ++ rest) :
    scanFrom raw done.length (listed items ++ rest) (.between 1 none elements) =
      scanFrom raw (done ++ listed items).length rest
        (.between 1 none (elements ++ items.map Element.chars)) := by
  induction items generalizing done elements with
  | nil => simp [listed]
  | cons item items ih =>
    have split : listed (item :: items) = ',' :: (item.slot ++ listed items) := by simp [listed]
    have comma := scan_plain raw 1 none elements [','] (by simp [marks]) done.length
      (item.slot ++ (listed items ++ rest))
    have one := scan_slot raw item (done ++ [',']) (listed items ++ rest) elements
      (by simp [whole, split])
    have others := ih (done ++ [','] ++ item.slot) (elements ++ [item.chars]) (by simp [whole, split])
    rw [split, List.cons_append, List.append_assoc]
    simp only [List.length_append, List.length_cons, List.length_nil, List.singleton_append,
      List.append_assoc, List.map_cons] at comma one others ⊢
    rw [comma, one, others]
    congr 1
    omega

/-- The array's elements, in order. -/
theorem scan_array (leading : List Blank) (items : List Element) (done rest : List Char)
    (whole : raw = done ++ arrayText leading items ++ rest) :
    scanFrom raw done.length (arrayText leading items ++ rest) ⟨0, none, false, false, []⟩ =
      items.map Element.chars := by
  have opened : step raw done.length '[' (.between 0 none []) = some (.between 1 none []) := rfl
  have ended (i : Nat) (elements : List (List Char)) :
      scanFrom raw i (']' :: rest) (.between 1 none elements) = elements := rfl
  have chars : arrayText leading items ++ rest =
      '[' :: (text (blanks leading) ++ ((listed items).tail ++ ']' :: rest)) := by simp [arrayText]
  rw [chars]
  change scanFrom raw done.length _ (.between 0 none []) = _
  rw [scan_cons raw opened, scan_blanks]
  cases items with
  | nil => exact ended _ _
  | cons item items =>
    have split : (listed (item :: items)).tail = item.slot ++ listed items := by simp [listed]
    have one := scan_slot raw item (done ++ '[' :: text (blanks leading)) (listed items ++ ']' :: rest) []
      (by simp [whole, arrayText, split])
    have others := scan_listed raw items (done ++ '[' :: text (blanks leading) ++ item.slot) (']' :: rest)
      [item.chars] (by simp [whole, arrayText, split])
    rw [split]
    simp only [List.length_append, List.length_cons, List.append_assoc, List.nil_append, Nat.add_right_comm _ _ 1,
      ← Nat.add_assoc] at one others ⊢
    rw [one, others, ended]
    simp

end Elements

/-! ## The whole frame -/

/-- A frame around its transactions array: any text, the key, the array and any text. -/
structure Frame where
  before : List Char
  beforeColon : List Blank
  afterColon : List Blank
  leading : List Blank
  transactions : List Element
  after : List Char

/-- What stands between the key and the array. -/
def Frame.separator (frame : Frame) : List Char :=
  text (blanks frame.beforeColon) ++ ':' :: text (blanks frame.afterColon)

def Frame.text (frame : Frame) : List Char :=
  frame.before ++ (transactionsKey ++ (frame.separator ++ (arrayText frame.leading frame.transactions ++ frame.after)))

theorem blanks_no_bracket (spaces : List Blank) : '[' ∉ text (blanks spaces) := by
  intro member
  obtain ⟨_, isSpace, member⟩ := List.mem_flatMap.mp member
  obtain ⟨blank, -, rfl⟩ := List.mem_map.mp isSpace
  rw [Token.text, List.mem_singleton] at member
  exact blank_plain blank (member ▸ by simp [marks])

theorem separator_no_bracket (frame : Frame) : '[' ∉ frame.separator := by
  simp [Frame.separator, blanks_no_bracket]

/-- Up to the array no bracket follows the place where the key is found, which the text before
the key may overlap with. -/
theorem find_key (frame : Frame) (absent : ¬ transactionsKey <:+: frame.before) :
    ∃ early late, frame.before = early ++ late ∧ '[' ∉ late ∧
      find transactionsKey frame.text = some early.length := by
  obtain ⟨early, late, other, split, found, atLate⟩ :=
    first_le frame.before (strip_append transactionsKey
      (frame.separator ++ (arrayText frame.leading frame.transactions ++ frame.after)))
  refine ⟨early, late, split, ?_, by simp [find, Frame.text, found]⟩
  rw [strip_eq_some] at atLate
  rcases List.append_eq_append_iff.mp atLate with ⟨middle, key, -⟩ | ⟨middle, key, -⟩
  · -- the key begins with the rest of the text before it
    intro member
    have inKey : '[' ∈ transactionsKey := key ▸ List.mem_append_left _ member
    exact absurd inKey (by decide)
  · exact absurd ⟨early, middle, by rw [split, key, List.append_assoc]⟩ absent

theorem find_array (frame : Frame) (early late : List Char) (split : frame.before = early ++ late)
    (plain : '[' ∉ late) :
    findFrom ['['] frame.text early.length =
      some (frame.before ++ transactionsKey ++ frame.separator).length := by
  have dropped : frame.text.drop early.length = (late ++ (transactionsKey ++ frame.separator)) ++
      (arrayText frame.leading frame.transactions ++ frame.after) := by
    rw [Frame.text, split, List.append_assoc, List.drop_left]
    simp
  have noBracket : ∀ c ∈ late ++ (transactionsKey ++ frame.separator), ∀ rest, strip ['['] (c :: rest) = none := by
    intro c member rest
    have apart : '[' ≠ c := by
      rintro rfl
      simp only [List.mem_append, separator_no_bracket, or_false, plain, false_or] at member
      exact absurd member (by decide)
    simp [strip, apart]
  obtain ⟨others, opens⟩ : ∃ others, arrayText frame.leading frame.transactions ++ frame.after = '[' :: others :=
    ⟨_, rfl⟩
  rw [findFrom, find, dropped, first_skip_text _ _ noBracket, opens,
    first_here (show strip ['['] ('[' :: others) = some others from strip_append ['['] others)]
  simp only [Option.map_some, List.append_nil, split, List.length_append, Nat.add_assoc]

theorem split_frame (frame : Frame) (absent : ¬ transactionsKey <:+: frame.before) :
    splitArrayElements frame.text transactionsKey = frame.transactions.map Element.chars := by
  obtain ⟨early, late, split, plain, foundKey⟩ := find_key frame absent
  have whole : frame.text = (frame.before ++ transactionsKey ++ frame.separator) ++
      arrayText frame.leading frame.transactions ++ frame.after := by simp [Frame.text]
  simp only [splitArrayElements, foundKey, find_array frame early late split plain]
  have dropped : frame.text.drop (frame.before ++ transactionsKey ++ frame.separator).length =
      arrayText frame.leading frame.transactions ++ frame.after := by
    rw [whole, List.append_assoc _ (arrayText _ _), List.drop_left]
  rw [dropped]
  exact scan_array frame.text frame.leading frame.transactions _ _ whole

section Decoding
variable {Value : Type} (loads : List Char → Option Value)

/-- The loop over the elements. -/
theorem recover_loop (elements : List (List Char)) (decoded : List Value) (lost : Nat) :
    elements.foldl (fun (decoded, lost) element =>
        match loads element with
        | some value => (decoded ++ [value], lost)
        | none => (decoded, lost + 1)) (decoded, lost) =
      (decoded ++ elements.filterMap loads, lost + elements.countP fun element => (loads element).isNone) := by
  induction elements generalizing decoded lost with
  | nil => simp
  | cons element rest ih =>
    cases answer : loads element with
    | none => simp [answer, ih, Nat.add_assoc, Nat.add_comm 1]
    | some value => simp [answer, ih]

theorem decoded_and_lost (elements : List (List Char)) :
    (elements.filterMap loads).length + (elements.countP fun element => (loads element).isNone) =
      elements.length := by
  induction elements with
  | nil => rfl
  | cons element rest ih =>
    cases answer : loads element with
    | none => simp [answer, ← ih, Nat.add_assoc]
    | some value => simp [answer, ← ih, Nat.add_right_comm]

end Decoding

/-- The scanner cuts a frame's transactions out exactly, and every one of them is either decoded
or counted as lost. -/
theorem frame_recovered (frame : Frame) (absent : ¬ transactionsKey <:+: frame.before) {Value : Type}
    (loads : List Char → Option Value) :
    splitArrayElements frame.text transactionsKey = frame.transactions.map Element.chars ∧
    (recoverTransactions loads frame.text).1 = frame.transactions.filterMap (fun tx => loads tx.chars) ∧
    (recoverTransactions loads frame.text).1.length + (recoverTransactions loads frame.text).2 =
      frame.transactions.length := by
  have cutOut := split_frame frame absent
  have recovered := recover_loop loads (frame.transactions.map Element.chars) [] 0
  rw [← cutOut] at recovered
  rw [recoverTransactions, recovered, cutOut]
  refine ⟨rfl, ?_, ?_⟩
  · rw [List.nil_append, List.filterMap_map]
    rfl
  · rw [List.nil_append, Nat.zero_add, decoded_and_lost, List.length_map]

/-- Two transactions, the first with an escaped quote and brackets inside a string. -/
def trickyFrame : Frame where
  before := "\x7b\"block\":\x7b\"id\":\"ab\",".toList
  beforeColon := []
  afterColon := [⟨' ', rfl⟩]
  leading := []
  transactions :=
    [ { before := []
        inner := [.string ⟨"id".toList, rfl⟩, .colon, .openSquare, .string ⟨"\x7d\\\"]\\\\".toList, rfl⟩, .closeSquare]
        after := [⟨'\n', rfl⟩]
        object := ⟨[(⟨"id".toList, rfl⟩, .array [.string ⟨"\x7d\\\"]\\\\".toList, rfl⟩])], rfl⟩ },
      { before := [], inner := [], after := [], object := ⟨[], rfl⟩ } ]
  after := "\x7d\x7d".toList

theorem tricky_frame_recovered :
    splitArrayElements trickyFrame.text transactionsKey =
      ["\x7b\"id\":[\"\x7d\\\"]\\\\\"]\x7d".toList, "\x7b\x7d".toList] ∧
    (recoverTransactions (fun chars => if chars.length = 2 then some chars else none) trickyFrame.text).2 = 1 := by
  have recovered := frame_recovered trickyFrame (by decide)
    (fun chars => if chars.length = 2 then some chars else none)
  have decoded : (recoverTransactions (fun chars => if chars.length = 2 then some chars else none)
      trickyFrame.text).1.length = 1 := by
    rw [recovered.2.1]
    decide
  refine ⟨recovered.1, ?_⟩
  have counted : _ = 2 := recovered.2.2
  omega

end TransactionMonitoring.FrameRecovery
