import Mathlib.Data.List.Chain
import Mathlib.Data.List.Infix

/-! Documents as text: their tokens, the trees they spell and lexical searches over them.

A document is a list of tokens, blanks among them, and spells a tree when its other tokens are
the tree's.  A search for a quoted name runs over the characters and knows nothing of tokens;
over the text of a document it finds the first string ending in that name.
-/
namespace TransactionMonitoring.JsonText

/-! ## Tokens -/

/-- What may stand between two quotes: every quote in it is escaped by a backslash, and the last
backslash escapes something.  The flag tells whether the next character is escaped. -/
def isBody : Bool → List Char → Bool
  | escaped, [] => !escaped
  | true, _ :: rest => isBody false rest
  | false, c :: rest => if c = '\\' then isBody true rest else c != '"' && isBody false rest

/-- The characters of numbers and of `true`, `false` and `null`. -/
def isScalarChar (c : Char) : Bool := c.isAlphanum || c = '+' || c = '-' || c = '.'

def isBlank (c : Char) : Bool := c = ' ' || c = '\t' || c = '\n' || c = '\r'

structure Body where
  chars : List Char
  closed : isBody false chars = true
deriving DecidableEq

structure Scalar where
  first : Char
  others : List Char
  plain : (first :: others).all isScalarChar = true
deriving DecidableEq

structure Blank where
  char : Char
  blank : isBlank char = true
deriving DecidableEq

def Scalar.chars (scalar : Scalar) : List Char := scalar.first :: scalar.others

inductive Token where
  | string (body : Body)
  | scalar (value : Scalar)
  | space (blank : Blank)
  | openCurly
  | closeCurly
  | openSquare
  | closeSquare
  | comma
  | colon
deriving DecidableEq

def Token.text : Token → List Char
  | .string body => '"' :: body.chars ++ ['"']
  | .scalar value => value.chars
  | .space blank => [blank.char]
  | .openCurly => ['{']
  | .closeCurly => ['}']
  | .openSquare => ['[']
  | .closeSquare => [']']
  | .comma => [',']
  | .colon => [':']

theorem Token.text_ne_nil (token : Token) : ∃ c chars, token.text = c :: chars := by
  cases token <;> exact ⟨_, _, rfl⟩

def text (tokens : List Token) : List Char := tokens.flatMap Token.text

@[simp] theorem text_nil : text [] = [] := rfl

@[simp] theorem text_cons (token : Token) (tokens : List Token) :
    text (token :: tokens) = token.text ++ text tokens := rfl

@[simp] theorem text_append (first second : List Token) :
    text (first ++ second) = text first ++ text second :=
  List.flatMap_append

/-- The characters a scanner for strings and brackets looks at. -/
def marks : List Char := ['"', '[', ']', '{', '}']

theorem blank_plain (blank : Blank) : blank.char ∉ marks := by
  have blank := blank.blank
  intro member
  simp only [marks, List.mem_cons, List.not_mem_nil, or_false] at member
  rcases member with same | same | same | same | same <;> rw [same] at blank <;> cases blank

theorem scalar_plain (value : Scalar) : ∀ c ∈ value.chars, c ∉ marks := by
  intro c member special
  have plain := List.all_eq_true.mp value.plain c member
  simp only [marks, List.mem_cons, List.not_mem_nil, or_false] at special
  rcases special with same | same | same | same | same <;> rw [same] at plain <;> cases plain

/-- The tokens that are not blanks. -/
def solid : List Token → List Token
  | [] => []
  | .space _ :: rest => solid rest
  | token :: rest => token :: solid rest

theorem solid_append (first second : List Token) :
    solid (first ++ second) = solid first ++ solid second := by
  induction first with
  | nil => rfl
  | cons token rest ih => cases token <;> simp [solid, ih]

/-! ## Trees -/

/-- A document's tree; names and strings keep their spelling. -/
inductive Node where
  | string (body : Body)
  | scalar (value : Scalar)
  | array (items : List Node)
  | object (members : List (Body × Node))

mutual
/-- The tokens of a tree, without blanks. -/
def Node.tokens : Node → List Token
  | .string body => [.string body]
  | .scalar value => [.scalar value]
  | .array items => .openSquare :: (itemTokens items).tail ++ [.closeSquare]
  | .object members => .openCurly :: (memberTokens members).tail ++ [.closeCurly]

/-- The items, each after a comma. -/
def itemTokens : List Node → List Token
  | [] => []
  | item :: rest => .comma :: item.tokens ++ itemTokens rest

/-- The members, each after a comma. -/
def memberTokens : List (Body × Node) → List Token
  | [] => []
  | (name, value) :: rest => .comma :: .string name :: .colon :: value.tokens ++ memberTokens rest
end

/-- The tokens spell the tree, blanks anywhere between them. -/
def Spells (tokens : List Token) (node : Node) : Prop :=
  solid tokens = node.tokens

mutual
theorem solid_node (node : Node) : Spells node.tokens node := by
  cases node with
  | string body => rfl
  | scalar value => rfl
  | array items =>
    have inside : solid (itemTokens items).tail = (itemTokens items).tail := by
      cases items with
      | nil => rfl
      | cons item items => exact (List.cons.inj (solid_items (item :: items))).2
    simp only [Spells, Node.tokens, List.cons_append, solid, solid_append, inside]
  | object members =>
    have inside : solid (memberTokens members).tail = (memberTokens members).tail := by
      cases members with
      | nil => rfl
      | cons member members => exact (List.cons.inj (solid_members (member :: members))).2
    simp only [Spells, Node.tokens, List.cons_append, solid, solid_append, inside]

theorem solid_items (items : List Node) : solid (itemTokens items) = itemTokens items := by
  cases items with
  | nil => rfl
  | cons item items =>
    have first : solid item.tokens = item.tokens := solid_node item
    simp only [itemTokens, List.cons_append, solid, solid_append, first, solid_items items]

theorem solid_members (members : List (Body × Node)) : solid (memberTokens members) = memberTokens members := by
  cases members with
  | nil => rfl
  | cons member members =>
    obtain ⟨name, value⟩ := member
    have first : solid value.tokens = value.tokens := solid_node value
    simp only [memberTokens, List.cons_append, solid, solid_append, first, solid_members members]
end

/-! ## Brackets -/

/-- How many brackets are open after the tokens, if none closes too many. -/
def openAfter : Nat → List Token → Option Nat
  | k, [] => some k
  | k, .openCurly :: rest | k, .openSquare :: rest => openAfter (k + 1) rest
  | 0, .closeCurly :: _ | 0, .closeSquare :: _ => none
  | k + 1, .closeCurly :: rest | k + 1, .closeSquare :: rest => openAfter k rest
  | k, _ :: rest => openAfter k rest

theorem openAfter_solid (k : Nat) (tokens : List Token) :
    openAfter k (solid tokens) = openAfter k tokens := by
  induction tokens generalizing k with
  | nil => rfl
  | cons token rest ih =>
    cases token with
    | closeCurly | closeSquare => cases k <;> simp [solid, openAfter, ih]
    | _ => simp [solid, openAfter, ih]

mutual
theorem openAfter_node (node : Node) (k : Nat) (rest : List Token) :
    openAfter k (node.tokens ++ rest) = openAfter k rest := by
  cases node with
  | string body => simp [Node.tokens, openAfter]
  | scalar value => simp [Node.tokens, openAfter]
  | array items =>
    cases items with
    | nil => simp [Node.tokens, itemTokens, openAfter]
    | cons item items =>
      simp only [Node.tokens, itemTokens, List.cons_append, List.tail_cons, List.append_assoc, openAfter]
      rw [openAfter_node item, openAfter_items items]
      rfl
  | object members =>
    cases members with
    | nil => simp [Node.tokens, memberTokens, openAfter]
    | cons member members =>
      obtain ⟨name, value⟩ := member
      simp only [Node.tokens, memberTokens, List.cons_append, List.tail_cons, List.append_assoc, openAfter]
      rw [openAfter_node value, openAfter_members members]
      rfl

theorem openAfter_items (items : List Node) (k : Nat) (rest : List Token) :
    openAfter k (itemTokens items ++ rest) = openAfter k rest := by
  cases items with
  | nil => rfl
  | cons item items =>
    simp only [itemTokens, List.cons_append, List.append_assoc, openAfter]
    rw [openAfter_node item, openAfter_items items]

theorem openAfter_members (members : List (Body × Node)) (k : Nat) (rest : List Token) :
    openAfter k (memberTokens members ++ rest) = openAfter k rest := by
  cases members with
  | nil => rfl
  | cons member members =>
    obtain ⟨name, value⟩ := member
    simp only [memberTokens, List.cons_append, List.append_assoc, openAfter]
    rw [openAfter_node value, openAfter_members members]
end

/-- What an object's braces hold is balanced by itself. -/
theorem openAfter_object {inner : List Token} {members : List (Body × Node)}
    (spelled : Spells (.openCurly :: inner ++ [.closeCurly]) (.object members)) (k : Nat) :
    openAfter k inner = some k := by
  have inside : solid inner = (memberTokens members).tail := by
    simpa [Spells, solid_append, solid, Node.tokens] using spelled
  rw [← openAfter_solid, inside]
  cases members with
  | nil => rfl
  | cons member members =>
    have whole := openAfter_members (member :: members) k []
    rwa [List.append_nil] at whole

/-! ## Searches -/

/-- What is left after a prefix. -/
def strip : List Char → List Char → Option (List Char)
  | [], text => some text
  | _ :: _, [] => none
  | p :: ps, c :: text => if p = c then strip ps text else none

theorem strip_eq_some {needle text rest : List Char} :
    strip needle text = some rest ↔ text = needle ++ rest := by
  induction needle generalizing text with
  | nil => simp [strip]
  | cons p ps ih =>
    cases text with
    | nil => simp [strip]
    | cons c text =>
      by_cases same : p = c
      · subst same
        simp [strip, ih]
      · simp [strip, same, Ne.symm same]

theorem strip_append_left (first second text : List Char) :
    strip (first ++ second) text = (strip first text).bind (strip second) := by
  induction first generalizing text with
  | nil => rfl
  | cons p first ih =>
    cases text with
    | nil => rfl
    | cons c text =>
      rw [List.cons_append, strip, strip]
      split
      · exact ih text
      · rfl

theorem strip_append (needle rest : List Char) : strip needle (needle ++ rest) = some rest :=
  strip_eq_some.mpr rfl

/-- The first place of a text where `here` finds something: the text before it and what was
found. -/
def first {α : Type} (here : List Char → Option α) : List Char → Option (List Char × α)
  | [] => (here []).map ([], ·)
  | c :: rest =>
    match here (c :: rest) with
    | some found => some ([], found)
    | none => (first here rest).map fun (before, found) => (c :: before, found)

section Searches
variable {α : Type} {here : List Char → Option α}

theorem first_here {text : List Char} {found : α} (matched : here text = some found) :
    first here text = some ([], found) := by
  cases text with
  | nil => simp [first, matched]
  | cons c rest => simp [first, matched]

theorem first_skip {c : Char} {rest : List Char} (missed : here (c :: rest) = none) :
    first here (c :: rest) = (first here rest).map fun (before, found) => (c :: before, found) := by
  simp [first, missed]

theorem first_sound {text before : List Char} {found : α} (matched : first here text = some (before, found)) :
    ∃ rest, text = before ++ rest ∧ here rest = some found := by
  induction text generalizing before with
  | nil =>
    obtain ⟨value, atEnd, same⟩ := Option.map_eq_some_iff.mp matched
    cases same
    exact ⟨[], rfl, atEnd⟩
  | cons c text ih =>
    cases atOnce : here (c :: text) with
    | some value =>
      rw [first_here atOnce] at matched
      cases matched
      exact ⟨c :: text, rfl, atOnce⟩
    | none =>
      rw [first_skip atOnce] at matched
      obtain ⟨⟨early, value⟩, later, same⟩ := Option.map_eq_some_iff.mp matched
      cases same
      obtain ⟨rest, rfl, here⟩ := ih later
      exact ⟨rest, rfl, here⟩

/-- Nothing is found earlier than the first place. -/
theorem first_le {rest : List Char} {found : α} (before : List Char) (matched : here rest = some found) :
    ∃ early late other, before = early ++ late ∧ first here (before ++ rest) = some (early, other) ∧
      here (late ++ rest) = some other := by
  induction before with
  | nil => exact ⟨[], [], found, rfl, first_here matched, matched⟩
  | cons c before ih =>
    cases atOnce : here (c :: (before ++ rest)) with
    | some other => exact ⟨[], c :: before, other, rfl, first_here atOnce, atOnce⟩
    | none =>
      obtain ⟨early, late, other, rfl, found, atLate⟩ := ih
      refine ⟨c :: early, late, other, rfl, ?_, atLate⟩
      rw [List.cons_append, first_skip atOnce, found]
      rfl

/-- A text without the character every match begins with is passed over. -/
theorem first_skip_text (here : List Char → Option α) {before : List Char} (rest : List Char)
    (missed : ∀ c ∈ before, ∀ text, here (c :: text) = none) :
    first here (before ++ rest) =
      (first here rest).map fun (early, found) => (before ++ early, found) := by
  induction before with
  | nil => simp
  | cons c before ih =>
    rw [List.cons_append, first_skip (missed c (by simp) _), ih fun c member => missed c (by simp [member])]
    simp [Option.map_map, Function.comp_def]

end Searches

/-- `str.find`: where a text first occurs. -/
def find (needle raw : List Char) : Option Nat :=
  (first (strip needle) raw).map fun (before, _) => before.length

/-- `str.find` from a position. -/
def findFrom (needle raw : List Char) (start : Nat) : Option Nat :=
  (find needle (raw.drop start)).map (start + ·)

/-- `raw[start:stop]`. -/
def slice (raw : List Char) (start stop : Nat) : List Char := (raw.take stop).drop start

/-! ## Quoted names in a document's text -/

/-- A quoted name as a search knows it, without quotes or escapes in it. -/
structure Name where
  first : Char
  others : List Char
  begins : isScalarChar first = true
  unescaped : (first :: others).all (fun c => c != '"' && c != '\\') = true

def Name.chars (name : Name) : List Char := name.first :: name.others

/-- A pattern that begins with the quoted name. -/
def keyed {α : Type} (name : Name) (after : List Char → Option α) (text : List Char) : Option α :=
  (strip ('"' :: name.chars ++ ['"']) text).bind after

theorem body_after_quote (before rest : List Char) (escaped : Bool)
    (closed : isBody escaped (before ++ '"' :: rest) = true) : isBody false rest = true := by
  induction before generalizing escaped with
  | nil =>
    cases escaped with
    | true => exact closed
    | false => cases closed
  | cons c before ih =>
    cases escaped with
    | true => exact ih false closed
    | false =>
      rw [List.cons_append, isBody] at closed
      split at closed
      · exact ih true closed
      · exact ih false (Bool.and_eq_true_iff.mp closed).2

theorem not_body_of_unescaped {chars : List Char} (rest : List Char)
    (unescaped : chars.all (fun c => c != '"' && c != '\\') = true) :
    isBody false (chars ++ '"' :: rest) = false := by
  induction chars with
  | nil => rfl
  | cons c chars ih =>
    simp only [List.all_cons, Bool.and_eq_true, bne_iff_ne] at unescaped
    rw [List.cons_append, isBody, if_neg unescaped.1.2, ih unescaped.2, Bool.and_false]

theorem no_quote_of_unescaped {chars : List Char}
    (unescaped : chars.all (fun c => c != '"' && c != '\\') = true) : '"' ∉ chars := by
  intro member
  cases List.all_eq_true.mp unescaped _ member

/-- Where a string and a text without quotes and escapes end with a quote at one place, they are
the same. -/
theorem fills {body chars rest others : List Char}
    (unescaped : chars.all (fun c => c != '"' && c != '\\') = true) (closed : isBody false body = true) :
    body ++ '"' :: rest = chars ++ '"' :: others ↔ body = chars ∧ rest = others := by
  constructor
  · intro same
    rcases List.append_eq_append_iff.mp same with ⟨middle, longer, next⟩ | ⟨middle, longer, next⟩
    · cases middle with
      | nil => simpa [eq_comm] using And.intro longer next
      | cons c middle =>
        rw [List.cons_append, List.cons.injEq] at next
        have quote : '"' ∈ chars := longer ▸ List.mem_append_right body (next.1 ▸ List.mem_cons_self)
        exact absurd quote (no_quote_of_unescaped unescaped)
    · cases middle with
      | nil => simpa [eq_comm] using And.intro longer next
      | cons c middle =>
        rw [List.cons_append, List.cons.injEq] at next
        rw [longer, ← next.1, not_body_of_unescaped middle unescaped] at closed
        cases closed
  · rintro ⟨rfl, rfl⟩
    rfl

theorem Name.plain (name : Name) : name.chars.all (fun c => c != '"' && c != '\\') = true := name.unescaped

theorem Name.no_quote (name : Name) : '"' ∉ name.chars := no_quote_of_unescaped name.plain

/-- What stands in a text before an inner quote that only the name follows. -/
def lead (name : Name) : List Char → Option (List Char)
  | [] => none
  | c :: rest => if c = '"' ∧ rest = name.chars then some [] else (lead name rest).map (c :: ·)

theorem lead_of_no_quote (name : Name) {chars : List Char} (plain : '"' ∉ chars) : lead name chars = none := by
  induction chars with
  | nil => rfl
  | cons c chars ih =>
    simp only [List.mem_cons, not_or] at plain
    rw [lead, if_neg fun both => plain.1 both.1.symm, ih plain.2]
    rfl

def startsScalar : List Char → Bool
  | c :: _ => isScalarChar c
  | [] => false

section Strings
variable {α : Type} (name : Name) (after : List Char → Option α)

theorem keyed_of_ne_quote {c : Char} (other : c ≠ '"') (rest : List Char) :
    keyed name after (c :: rest) = none := by
  simp [keyed, strip, Ne.symm other]

theorem keyed_quote (rest : List Char) :
    keyed name after ('"' :: rest) = (strip (name.chars ++ ['"']) rest).bind after := by
  simp [keyed, strip]

theorem keyed_of_clear {rest : List Char} (clear : startsScalar rest = false) :
    keyed name after ('"' :: rest) = none := by
  rw [keyed_quote, Option.bind_eq_none_iff]
  intro others matched
  rw [strip_eq_some] at matched
  rw [matched, Name.chars, List.cons_append, List.cons_append, startsScalar, name.begins] at clear
  cases clear

/-- Over a string the search stops where a quote is followed by the name and the string's end. -/
theorem first_string (chars rest : List Char)
    (inside : ∀ before others, chars = before ++ '"' :: others → isBody false others = true)
    (clear : startsScalar rest = false) :
    first (keyed name after) (chars ++ '"' :: rest) =
      match (lead name chars).bind fun before => (after rest).map fun found => (before, found) with
      | some found => some found
      | none => (first (keyed name after) rest).map fun (before, found) => (chars ++ '"' :: before, found) := by
  induction chars with
  | nil => exact first_skip (keyed_of_clear name after clear)
  | cons c chars ih =>
    have ih := ih fun before others split => inside (c :: before) others (by rw [split, List.cons_append])
    by_cases named : c = '"' ∧ chars = name.chars
    · have matched : keyed name after (c :: (chars ++ '"' :: rest)) = after rest := by
        have split : name.chars ++ '"' :: rest = (name.chars ++ ['"']) ++ rest := by simp
        rw [named.1, named.2, keyed_quote, split, strip_append, Option.bind_some]
      rw [lead, if_pos named, Option.bind_some]
      cases found : after rest with
      | some value =>
        rw [List.cons_append, first_here (matched.trans found)]
        rfl
      | none =>
        rw [lead_of_no_quote name (named.2 ▸ name.no_quote)] at ih
        rw [List.cons_append, first_skip (matched.trans found), ih]
        simp [Option.map_map, Function.comp_def]
    · have missed : keyed name after (c :: (chars ++ '"' :: rest)) = none := by
        by_cases quote : c = '"'
        · rw [quote, keyed_quote, Option.bind_eq_none_iff]
          intro others matched
          rw [strip_eq_some, List.append_assoc, List.singleton_append,
            fills name.plain (inside [] chars (by rw [quote, List.nil_append]))] at matched
          exact absurd ⟨quote, matched.1⟩ named
        · exact keyed_of_ne_quote name after quote _
      rw [lead, if_neg named, List.cons_append, first_skip missed, ih]
      cases before : lead name chars with
      | none => simp [Option.map_map, Function.comp_def]
      | some before =>
        cases found : after rest with
        | none => simp [Option.map_map, Function.comp_def]
        | some value => simp

end Strings

/-! ## Searches over a document -/

def Token.speaks : Token → Bool
  | .string _ | .scalar _ => true
  | _ => false

def Token.isScalar : Token → Bool
  | .scalar _ => true
  | _ => false

/-- Nothing like a number stands right after a string or a number. -/
def Parted (tokens : List Token) : Prop :=
  tokens.IsChain fun token next => token.speaks = true → next.isScalar = false

theorem parted_of_solid (tokens : List Token) (parted : Parted (solid tokens)) : Parted tokens := by
  induction tokens with
  | nil => exact .nil
  | cons token rest ih =>
    cases rest with
    | nil => exact .singleton _
    | cons next rest =>
      refine List.isChain_cons_cons.mpr ⟨fun speaks => ?_, ih ?_⟩
      · cases token with
        | string body | scalar value =>
          cases next with
          | scalar other => exact (List.isChain_cons_cons.mp parted).1 rfl
          | _ => rfl
        | _ => cases speaks
      · cases token with
        | space blank => exact parted
        | _ => exact List.IsChain.tail parted

/-- The tokens do not begin with a number. -/
def Clear (tokens : List Token) : Prop := ∀ token ∈ tokens.head?, token.isScalar = false

theorem parted_cons {token : Token} {rest : List Token} (parted : Parted rest)
    (apart : token.speaks = true → Clear rest) : Parted (token :: rest) := by
  cases rest with
  | nil => exact .singleton _
  | cons next rest => exact List.isChain_cons_cons.mpr ⟨fun speaks => apart speaks next rfl, parted⟩

theorem clear_append {tokens rest : List Token} (first : Clear tokens) (next : Clear rest) :
    Clear (tokens ++ rest) := by
  cases tokens with
  | nil => exact next
  | cons token tokens => exact first

theorem clear_items (items : List Node) : Clear (itemTokens items) := by
  intro token member
  cases items with
  | nil => cases member
  | cons item items => cases member; rfl

theorem clear_members (members : List (Body × Node)) : Clear (memberTokens members) := by
  intro token member
  cases members with
  | nil => cases member
  | cons first members => cases member; rfl

theorem clear_cons {token : Token} {rest : List Token} (clear : token.isScalar = false) :
    Clear (token :: rest) := by
  intro other member
  cases member
  exact clear

theorem clear_of_parted {token : Token} {rest : List Token} (parted : Parted (token :: rest))
    (speaks : token.speaks = true) : Clear rest := by
  intro next member
  cases rest with
  | nil => cases member
  | cons other rest =>
    cases member
    exact (List.isChain_cons_cons.mp parted).1 speaks

mutual
theorem parted_node (node : Node) (rest : List Token) (parted : Parted rest) (clear : Clear rest) :
    Parted (node.tokens ++ rest) := by
  cases node with
  | string body => exact parted_cons parted fun _ => clear
  | scalar value => exact parted_cons parted fun _ => clear
  | array items =>
    have closed : Parted (.closeSquare :: rest) := parted_cons parted (by intro speaks; cases speaks)
    rw [Node.tokens, List.cons_append, List.cons_append, List.append_assoc]
    refine parted_cons ?_ (by intro speaks; cases speaks)
    cases items with
    | nil => exact closed
    | cons item items =>
      rw [itemTokens, List.cons_append, List.tail_cons, List.append_assoc]
      exact parted_node item _ (parted_items items _ closed (clear_cons rfl))
        (clear_append (clear_items items) (clear_cons rfl))
  | object members =>
    have closed : Parted (.closeCurly :: rest) := parted_cons parted (by intro speaks; cases speaks)
    rw [Node.tokens, List.cons_append, List.cons_append, List.append_assoc]
    refine parted_cons ?_ (by intro speaks; cases speaks)
    cases members with
    | nil => exact closed
    | cons member members =>
      have inside := parted_members (member :: members) _ closed (clear_cons rfl)
      rw [memberTokens] at inside ⊢
      exact inside.tail

theorem parted_items (items : List Node) (rest : List Token) (parted : Parted rest) (clear : Clear rest) :
    Parted (itemTokens items ++ rest) := by
  cases items with
  | nil => exact parted
  | cons item items =>
    rw [itemTokens, List.cons_append, List.cons_append, List.append_assoc]
    refine parted_cons ?_ (by intro speaks; cases speaks)
    exact parted_node item _ (parted_items items _ parted clear) (clear_append (clear_items items) clear)

theorem parted_members (members : List (Body × Node)) (rest : List Token) (parted : Parted rest)
    (clear : Clear rest) : Parted (memberTokens members ++ rest) := by
  cases members with
  | nil => exact parted
  | cons member members =>
    obtain ⟨name, value⟩ := member
    simp only [memberTokens, List.cons_append, List.append_assoc]
    have valued := parted_node value _ (parted_members members _ parted clear)
      (clear_append (clear_members members) clear)
    refine parted_cons (parted_cons (parted_cons valued ?_) ?_) ?_
    · intro speaks
      cases speaks
    · exact fun _ => clear_cons rfl
    · intro speaks
      cases speaks
end

def Token.lead (name : Name) : Token → Option (List Char)
  | .string body => JsonText.lead name ('"' :: body.chars)
  | _ => none

/-- The first string of a document that ends in the name and is followed by what `after` accepts:
the tokens before it, the part of it before the name's quote, and what was found. -/
def firstToken {β : Type} (name : Name) (after : List Token → Option β) :
    List Token → Option (List Token × List Char × β)
  | [] => none
  | token :: rest =>
    match (token.lead name).bind fun before => (after rest).map fun found => (before, found) with
    | some found => some ([], found)
    | none => (firstToken name after rest).map fun (before, found) => (token :: before, found)

/-- What a document's text may end in when it is cut off inside a string. -/
def Unfinished (tail : List Char) : Prop :=
  tail = [] ∨ ∃ chars others, tail = '"' :: chars ∧ isBody false (chars ++ '"' :: others) = true

theorem not_startsScalar (tokens : List Token) (tail : List Char) (unfinished : Unfinished tail)
    (clear : Clear tokens) : startsScalar (text tokens ++ tail) = false := by
  cases tokens with
  | nil =>
    rcases unfinished with rfl | ⟨chars, others, rfl, -⟩
    · rfl
    · rfl
  | cons token rest =>
    cases token with
    | scalar value => cases clear _ rfl
    | space blank =>
      have blank := blank.blank
      simp only [isBlank, Bool.or_eq_true, decide_eq_true_eq, or_assoc] at blank
      simp only [text_cons, Token.text, List.cons_append, startsScalar]
      rcases blank with same | same | same | same <;> rw [same] <;> rfl
    | _ => rfl

theorem first_unfinished {α : Type} (name : Name) (after : List Char → Option α) {tail : List Char}
    (unfinished : Unfinished tail) : first (keyed name after) tail = none := by
  rcases unfinished with rfl | ⟨chars, others, rfl, closed⟩
  · rfl
  · suffices nowhere : ∀ chars, (∀ before rest, chars = before ++ '"' :: rest →
        isBody false (rest ++ '"' :: others) = true) → first (keyed name after) chars = none by
      refine nowhere _ fun before rest split => ?_
      cases before with
      | nil => exact (List.cons.inj split).2 ▸ closed
      | cons c before =>
        have later : chars ++ '"' :: others = before ++ '"' :: (rest ++ '"' :: others) := by
          rw [(List.cons.inj split).2]
          simp
        exact body_after_quote before _ _ (later ▸ closed)
    intro chars inside
    induction chars with
    | nil => rfl
    | cons c chars ih =>
      have missed : keyed name after (c :: chars) = none := by
        by_cases quote : c = '"'
        · rw [quote, keyed_quote, Option.bind_eq_none_iff]
          intro rest matched
          rw [strip_eq_some, List.append_assoc] at matched
          have closed := inside [] chars (by rw [quote, List.nil_append])
          rw [matched, List.append_assoc] at closed
          exact absurd closed (Bool.eq_false_iff.mp (not_body_of_unescaped _ name.unescaped))
        · exact keyed_of_ne_quote name after quote _
      rw [first_skip missed, ih fun before rest split => inside (c :: before) rest (by rw [split, List.cons_append])]
      rfl

theorem lead_spec (name : Name) {chars part : List Char} (led : lead name chars = some part) :
    chars = part ++ '"' :: name.chars := by
  induction chars generalizing part with
  | nil => cases led
  | cons c chars ih =>
    rw [lead] at led
    split at led
    · rename_i named
      cases led
      rw [named.1, named.2, List.nil_append]
    · obtain ⟨before, inner, rfl⟩ := Option.map_eq_some_iff.mp led
      rw [List.cons_append, ← ih inner]

/-- Where the first string ending in the name stands in the document. -/
theorem firstToken_spec {β : Type} {name : Name} {after : List Token → Option β} {tokens before : List Token}
    {part : List Char} {found : β} (matched : firstToken name after tokens = some (before, part, found)) :
    ∃ body rest, tokens = before ++ .string body :: rest ∧ '"' :: body.chars = part ++ '"' :: name.chars ∧
      after rest = some found := by
  induction tokens generalizing before with
  | nil => cases matched
  | cons token tokens ih =>
    rw [firstToken] at matched
    split at matched
    · rename_i here
      obtain ⟨lead, led, mapped⟩ := Option.bind_eq_some_iff.mp here
      obtain ⟨value, accepted, rfl⟩ := Option.map_eq_some_iff.mp mapped
      cases matched
      cases token with
      | string body => exact ⟨body, tokens, rfl, lead_spec name led, accepted⟩
      | _ => cases led
    · obtain ⟨⟨early, other⟩, later, same⟩ := Option.map_eq_some_iff.mp matched
      cases same
      obtain ⟨body, rest, rfl, named, accepted⟩ := ih later
      exact ⟨body, rest, rfl, named, accepted⟩

theorem unfinished_of_lead {name : Name} {body : Body} {part : List Char}
    (named : '"' :: body.chars = part ++ '"' :: name.chars) : Unfinished part := by
  cases part with
  | nil => exact .inl rfl
  | cons c part =>
    rw [List.cons_append, List.cons.injEq] at named
    exact .inr ⟨part, name.chars, by rw [named.1], named.2 ▸ body.closed⟩

/-- A document's tokens are parted as its tree's are. -/
theorem parted_of_spells {tokens : List Token} {node : Node} (spelled : Spells tokens node) : Parted tokens := by
  apply parted_of_solid
  have parted := parted_node node [] .nil (by intro token member; cases member)
  rwa [List.append_nil, ← spelled] at parted

theorem Token.no_quote {token : Token} (other : ∀ body, token ≠ .string body) : '"' ∉ token.text := by
  cases token with
  | string body => exact absurd rfl (other body)
  | scalar value => exact fun member => scalar_plain value _ member (by simp [marks])
  | space blank =>
    intro member
    rw [Token.text, List.mem_singleton] at member
    exact blank_plain blank (by rw [← member]; simp [marks])
  | _ => simp [Token.text]

/-- A search for a name over a document's text stops at the document's first string ending in
it. -/
theorem first_text {α β : Type} (name : Name) (after : List Char → Option α) (accepts : List Token → Option β)
    (as : β → α) (tokens : List Token) (tail : List Char) (unfinished : Unfinished tail) (parted : Parted tokens)
    (agree : ∀ rest, rest <:+ tokens → after (text rest ++ tail) = (accepts rest).map as) :
    first (keyed name after) (text tokens ++ tail) =
      (firstToken name accepts tokens).map fun (before, part, found) => (text before ++ part, as found) := by
  induction tokens with
  | nil => exact first_unfinished name after unfinished
  | cons token rest ih =>
    have ih := ih parted.tail fun later suffix => agree later (suffix.trans (List.suffix_cons token rest))
    have here := agree rest (List.suffix_cons token rest)
    rw [text_cons, List.append_assoc, firstToken]
    by_cases isString : ∃ body, token = .string body
    · obtain ⟨body, rfl⟩ := isString
      have clear : Clear rest := clear_of_parted parted rfl
      have inside (before others : List Char) (split : '"' :: body.chars = before ++ '"' :: others) :
          isBody false others = true := by
        cases before with
        | nil => exact (List.cons.inj split).2 ▸ body.closed
        | cons c before => exact body_after_quote before _ _ ((List.cons.inj split).2 ▸ body.closed)
      have whole : (Token.string body).text ++ (text rest ++ tail) =
          ('"' :: body.chars) ++ '"' :: (text rest ++ tail) := by simp [Token.text]
      rw [whole, first_string name after _ _ inside (not_startsScalar rest tail unfinished clear), here, ih]
      simp only [Token.lead]
      cases JsonText.lead name ('"' :: body.chars) with
      | none => simp [Option.map_map, Function.comp_def, Token.text]
      | some part =>
        cases accepts rest with
        | none => simp [Option.map_map, Function.comp_def, Token.text]
        | some found => simp
    · have notString (body : Body) : token ≠ .string body := fun same => isString ⟨body, same⟩
      have noLead : token.lead name = none := by
        cases token with
        | string body => exact absurd rfl (notString body)
        | _ => rfl
      have passed := first_skip_text (keyed name after) (text rest ++ tail) fun c member later =>
        keyed_of_ne_quote name after (fun quote => Token.no_quote notString (quote ▸ member)) later
      rw [passed, ih, noLead]
      simp [Option.map_map, Function.comp_def]

end TransactionMonitoring.JsonText
