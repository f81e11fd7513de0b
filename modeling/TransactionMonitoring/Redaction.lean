import Mathlib.Data.List.Forall2
import Mathlib.Logic.Relation
import TransactionMonitoring.WhiteSpace

/-! What the logs keep of a token.

A query string may carry a login token or an API key, and a log line the query string.  The filter
replaces each value, from the key's sign of equality to the next delimiter, by a mark.  It is
attached to the logger of the server and again to every handler, so one record passes it twice.
-/
namespace TransactionMonitoring.Redaction

/-- The letters of `token` and `api_key`, as `re.IGNORECASE` takes them. -/
def keyNames : List (List (List Char)) :=
  [[['t', 'T'], ['o', 'O'], ['k', 'K', '\u212a'], ['e', 'E'], ['n', 'N']],
    [['a', 'A'], ['p', 'P'], ['i', 'I', '\u0130', '\u0131'], ['_'], ['k', 'K', '\u212a'], ['e', 'E'], ['y', 'Y']]]

/-- What is left behind one character of each class. -/
def consume : List (List Char) → List Char → Option (List Char)
  | [], text => some text
  | letters :: rest, first :: text => if first ∈ letters then consume rest text else none
  | _ :: _, [] => none

/-- One of the names and the sign at the front of a text: the key as it is written, and the text behind it. -/
def matchName (text : List Char) (name : List (List Char)) : Option (List Char × List Char) :=
  match consume name text with
  | some ('=' :: value) => some (text.take (name.length + 1), value)
  | _ => none

/-- `(?:token|api_key)=` at the front of a text. -/
def matchKey (text : List Char) : Option (List Char × List Char) := keyNames.findSome? (matchName text)

/-- `[^&\\s"]`. -/
def isSecret (char : Char) : Bool := char != '&' && !WhiteSpace.isSpace char && char != '"'

def mark : List Char := "<redacted>".toList

section
variable (isWord : Char → Bool)

/-- `\\b`, behind a character or at the start. -/
def boundary (before : Option Char) (text : List Char) : Bool := before.any isWord != text.head?.any isWord

/-- `_TOKEN_QS_RE` here: the key, and how many characters are matched besides the first. -/
def matchToken (before : Option Char) (text : List Char) : Option (List Char × Nat) :=
  if boundary isWord before text then
    match matchKey text with
    | some (key, value) =>
        let secret := value.takeWhile isSecret
        if secret = [] then none else some (key, key.length + secret.length - 1)
    | none => none
  else none

/-- The scan of `sub`, with so many characters still to be passed over. -/
def scan : Option Char → Nat → List Char → List Char
  | _, _, [] => []
  | _, skip + 1, first :: rest => scan (some first) skip rest
  | before, 0, first :: rest =>
      match matchToken isWord before (first :: rest) with
      | some (key, more) => key ++ mark ++ scan (some first) more rest
      | none => first :: scan (some first) 0 rest

/-- `_TOKEN_QS_RE.sub(r"\\1<redacted>", text)`. -/
def redact (text : List Char) : List Char := scan isWord none 0 text

end

/-- An argument of a log record. -/
inductive Arg where
  | text (chars : List Char)
  | other (shown : String)
deriving DecidableEq, Repr

/-- A log record, its arguments in a tuple. -/
structure Record where
  msg : Arg
  args : List Arg
deriving DecidableEq, Repr

def Arg.redact (isWord : Char → Bool) : Arg → Arg
  | .text chars => .text (Redaction.redact isWord chars)
  | .other shown => .other shown

/-- `_RedactTokenFilter.filter`. -/
def filter (isWord : Char → Bool) (record : Record) : Record where
  msg := record.msg.redact isWord
  args := record.args.map (Arg.redact isWord)

/-! The keys. -/

theorem consume_append {name : List (List Char)} {text rest : List Char} (consumes : consume name text = some rest) :
    ∃ key, text = key ++ rest ∧ List.Forall₂ (fun letters char => char ∈ letters) name key := by
  induction name generalizing text with
  | nil =>
    cases consumes
    exact ⟨[], rfl, .nil⟩
  | cons letters name ih =>
    cases text with
    | nil => cases consumes
    | cons first text =>
      rw [consume] at consumes
      split at consumes
      · next member =>
        obtain ⟨key, rfl, fits⟩ := ih consumes
        exact ⟨first :: key, rfl, .cons member fits⟩
      · cases consumes

theorem consume_of_fits {name : List (List Char)} {key : List Char}
    (fits : List.Forall₂ (fun letters char => char ∈ letters) name key) (rest : List Char) :
    consume name (key ++ rest) = some rest := by
  induction fits with
  | nil => rfl
  | cons member _ ih => rw [List.cons_append, consume, if_pos member, ih]

/-- The key, as some text of the pattern. -/
def IsKey (key : List Char) : Prop :=
  ∃ name ∈ keyNames, ∃ letters, List.Forall₂ (fun letters char => char ∈ letters) name letters ∧ key = letters ++ ['=']

theorem matchKey_isKey {text key value : List Char} (matched : matchKey text = some (key, value)) :
    text = key ++ value ∧ IsKey key := by
  obtain ⟨name, member, found⟩ := List.exists_of_findSome?_eq_some matched
  rw [matchName] at found
  split at found
  · next rest consumes =>
    obtain ⟨letters, rfl, fits⟩ := consume_append consumes
    cases found
    have taken : (letters ++ '=' :: value).take (name.length + 1) = letters ++ ['='] := by
      rw [fits.length_eq, List.take_length_add_append]
      rfl
    rw [taken]
    exact ⟨by simp, name, member, letters, fits, rfl⟩
  · cases found

/-- The letters that a key starts with. -/
def starts : List Char := ['t', 'T', 'a', 'A']

/-- Every letter of a key may stand in a value, none is the sign, and only the first is one that keys start with. -/
theorem letters_facts : ∀ name ∈ keyNames, (∀ letters ∈ name, ∀ char ∈ letters, isSecret char = true ∧ char ≠ '=') ∧
    (∀ letters ∈ name.head?, ∀ char ∈ letters, char ∈ starts) ∧
      (∀ letters ∈ name.tail, ∀ char ∈ letters, char ∉ starts) ∧
    name ≠ [] := by
  have checked : (keyNames.all fun name =>
      (name.all fun letters => letters.all fun char => isSecret char && char != '=') &&
      (name.head?.all fun letters => letters.all starts.contains) &&
      (name.tail.all fun letters => letters.all fun char => !starts.contains char) && name != []) = true := by
    decide
  simpa [and_assoc, Option.all_eq_true] using checked

theorem mem_of_fits {name : List (List Char)} {key : List Char}
    (fits : List.Forall₂ (fun letters char => char ∈ letters) name key) {char : Char} (member : char ∈ key) :
    ∃ letters ∈ name, char ∈ letters := by
  induction fits with
  | nil => cases member
  | @cons letters first name key fit _ ih =>
    obtain rfl | later := List.mem_cons.mp member
    · exact ⟨letters, List.mem_cons_self, fit⟩
    · obtain ⟨letters, among, fits⟩ := ih later
      exact ⟨letters, List.mem_cons_of_mem _ among, fits⟩

section
variable {key : List Char} (isKey : IsKey key)
include isKey

theorem IsKey.sign : ∃ letters, key = letters ++ ['='] ∧ '=' ∉ letters := by
  obtain ⟨name, member, letters, fits, rfl⟩ := isKey
  refine ⟨letters, rfl, fun sign => ?_⟩
  obtain ⟨class_, among, fit⟩ := mem_of_fits fits sign
  exact ((letters_facts name member).1 class_ among '=' fit).2 rfl

theorem IsKey.secret : ∀ char ∈ key, isSecret char = true := by
  obtain ⟨name, member, letters, fits, rfl⟩ := isKey
  intro char inside
  obtain inLetters | sign := List.mem_append.mp inside
  · obtain ⟨class_, among, fit⟩ := mem_of_fits fits inLetters
    exact ((letters_facts name member).1 class_ among char fit).1
  · rw [List.mem_singleton.mp sign]
    decide

/-- A key starts with a letter that stands nowhere else in one. -/
theorem IsKey.start : ∃ first rest, key = first :: rest ∧ first ∈ starts ∧ ∀ char ∈ rest, char ∉ starts := by
  obtain ⟨name, member, letters, fits, rfl⟩ := isKey
  obtain ⟨-, heads, tails, notEmpty⟩ := letters_facts name member
  cases fits with
  | nil => exact absurd rfl notEmpty
  | @cons class_ first name rest fit fits =>
    refine ⟨first, rest ++ ['='], rfl, heads class_ rfl first fit, fun char inside => ?_⟩
    obtain inRest | sign := List.mem_append.mp inside
    · obtain ⟨other, among, fit⟩ := mem_of_fits fits inRest
      exact tails other among char fit
    · rw [List.mem_singleton.mp sign]
      decide

theorem IsKey.matchKey (value : List Char) : matchKey (key ++ value) = some (key, value) := by
  obtain ⟨name, member, letters, fits, rfl⟩ := isKey
  have here : ∀ other, consume other (letters ++ ['='] ++ value) = some ('=' :: value) → other.length = letters.length →
      matchName (letters ++ ['='] ++ value) other = some (letters ++ ['='], value) := by
    intro other consumes long
    have taken : (letters ++ ['='] ++ value).take (other.length + 1) = letters ++ ['='] := by
      rw [long]
      exact List.take_left' (List.length_append ..)
    rw [matchName, consumes]
    exact congrArg (fun key => some (key, value)) taken
  have own : consume name (letters ++ ['='] ++ value) = some ('=' :: value) := by
    rw [List.append_assoc]
    exact consume_of_fits fits _
  simp only [keyNames, List.mem_cons, List.not_mem_nil, or_false] at member
  obtain rfl | rfl := member
  · rw [Redaction.matchKey, keyNames, List.findSome?_cons, here _ own fits.length_eq]
  · have other : matchName (letters ++ ['='] ++ value)
        [['t', 'T'], ['o', 'O'], ['k', 'K', '\u212a'], ['e', 'E'], ['n', 'N']] = none := by
      cases fits with
      | @cons _ first _ rest fit _ =>
        have different : first ∉ ['t', 'T'] := by
          simp only [List.mem_cons, List.not_mem_nil, or_false] at fit ⊢
          obtain rfl | rfl := fit
          · decide
          · decide
        rw [matchName, List.cons_append, List.cons_append, consume, if_neg different]
    rw [Redaction.matchKey, keyNames, List.findSome?_cons, other, List.findSome?_cons, here _ own fits.length_eq]

end

/-! The scan. -/

section
variable {isWord : Char → Bool} {before behind : Option Char} {text rest : List Char}

/-- Where a text begins: at its end, or at a delimiter. -/
def Stopped (text : List Char) : Prop := ∀ char ∈ text.head?, isSecret char = false

theorem scan_skip (isWord : Char → Bool) (before : Option Char) (passed rest : List Char) :
    ∃ behind, scan isWord before passed.length (passed ++ rest) = scan isWord behind 0 rest := by
  induction passed generalizing before with
  | nil => exact ⟨before, rfl⟩
  | cons first passed ih =>
    obtain ⟨behind, same⟩ := ih (some first)
    exact ⟨behind, by rw [List.length_cons, List.cons_append, scan, same]⟩

theorem scan_kept {first : Char} (kept : matchToken isWord before (first :: rest) = none) :
    scan isWord before 0 (first :: rest) = first :: scan isWord (some first) 0 rest := by
  rw [scan, kept]

theorem matchToken_eq (isWord : Char → Bool) (before : Option Char) (text : List Char) :
    matchToken isWord before text = none ∨ ∃ key value, IsKey key ∧ text = key ++ value ∧
      boundary isWord before text = true ∧ value.takeWhile isSecret ≠ [] := by
  rw [matchToken]
  split
  · next bounded =>
    split
    · next key value matched =>
      obtain ⟨shape, isKey⟩ := matchKey_isKey matched
      dsimp only
      split
      · exact .inl rfl
      · next secret => exact .inr ⟨key, value, isKey, shape, bounded, secret⟩
    · exact .inl rfl
  · exact .inl rfl

theorem matchToken_key {key value : List Char} (isKey : IsKey key)
    (bounded : boundary isWord before (key ++ value) = true)
    (secret : value.takeWhile isSecret ≠ []) :
    matchToken isWord before (key ++ value) = some (key, key.length + (value.takeWhile isSecret).length - 1) := by
  rw [matchToken, if_pos bounded, isKey.matchKey value]
  exact if_neg secret

/-- At a delimiter nothing is matched, whatever stands before. -/
theorem scan_stopped (isWord : Char → Bool) (stopped : Stopped text) (before : Option Char) :
    scan isWord before 0 text = scan isWord none 0 text := by
  cases text with
  | nil => rfl
  | cons first rest =>
    have kept : ∀ before, matchToken isWord before (first :: rest) = none := by
      intro before
      obtain none | ⟨key, value, isKey, shape, -⟩ := matchToken_eq isWord before (first :: rest)
      · exact none
      · obtain ⟨letter, letters, rfl, -⟩ := isKey.start
        cases shape
        have delimiter := stopped first rfl
        rw [isKey.secret first List.mem_cons_self] at delimiter
        cases delimiter
    rw [scan_kept (kept before), scan_kept (kept none)]

theorem stopped_dropWhile (text : List Char) : Stopped (text.dropWhile isSecret) := by
  intro char first
  cases shape : text.dropWhile isSecret with
  | nil =>
    rw [shape] at first
    cases first
  | cons head rest =>
    rw [shape] at first
    cases first
    have notEmpty : text.dropWhile isSecret ≠ [] := by
      rw [shape]
      exact List.cons_ne_nil char rest
    simpa [shape] using List.head_dropWhile_not isSecret notEmpty

/-- A token is replaced, and the scan goes on at the delimiter. -/
theorem scan_token {key value : List Char} (isKey : IsKey key) (bounded : boundary isWord before (key ++ value) = true)
    (secret : value.takeWhile isSecret ≠ []) :
    scan isWord before 0 (key ++ value) = key ++ mark ++ scan isWord none 0 (value.dropWhile isSecret) := by
  have matched := matchToken_key isKey bounded secret
  obtain ⟨first, letters, rfl, -⟩ := isKey.start
  obtain ⟨behind, skipped⟩ := scan_skip isWord (some first) (letters ++ value.takeWhile isSecret)
    (value.dropWhile isSecret)
  have rest : letters ++ value.takeWhile isSecret ++ value.dropWhile isSecret = letters ++ value := by
    rw [List.append_assoc, List.takeWhile_append_dropWhile]
  have more : (first :: letters).length + (value.takeWhile isSecret).length - 1 =
      (letters ++ value.takeWhile isSecret).length := by
    rw [List.length_cons, List.length_append]
    omega
  rw [rest] at skipped
  rw [List.cons_append] at matched ⊢
  rw [scan, matched]
  dsimp only
  rw [more, skipped, scan_stopped isWord (stopped_dropWhile value)]

/-- What holds of the empty text, and of a text if it holds where the scan goes on, holds. -/
theorem scan_induction (isWord : Char → Bool) {motive : Option Char → List Char → Prop}
    (nil : ∀ before, motive before [])
    (kept : ∀ before first rest, matchToken isWord before (first :: rest) = none → motive (some first) rest →
      motive before (first :: rest))
    (token : ∀ before key value, IsKey key → boundary isWord before (key ++ value) = true →
      value.takeWhile isSecret ≠ [] → motive none (value.dropWhile isSecret) → motive before (key ++ value))
    (before : Option Char) (text : List Char) : motive before text := by
  induction size : text.length using Nat.strong_induction_on generalizing before text with
  | _ size ih =>
    cases text with
    | nil => exact nil before
    | cons first rest =>
      obtain none | ⟨key, value, isKey, shape, bounded, secret⟩ := matchToken_eq isWord before (first :: rest)
      · exact kept before first rest none (ih _ (by rw [← size, List.length_cons]; exact Nat.lt_succ_self _) _ _ rfl)
      · rw [shape] at size bounded ⊢
        refine token before key value isKey bounded secret (ih _ ?_ _ _ rfl)
        obtain ⟨letter, letters, rfl, -⟩ := isKey.start
        have shorter := (List.dropWhile_suffix isSecret (l := value)).length_le
        rw [← size, List.length_append, List.length_cons]
        omega

/-- The scan leaves the first character. -/
theorem head_scan (isWord : Char → Bool) (before : Option Char) (text : List Char) :
    (scan isWord before 0 text).head? = text.head? := by
  refine @scan_induction isWord (fun before text => (scan isWord before 0 text).head? = text.head?) (fun _ => rfl)
    (fun before first rest kept _ => ?_) (fun before key value isKey bounded secret _ => ?_) before text
  · rw [scan_kept kept]
    rfl
  · rw [scan_token isKey bounded secret]
    obtain ⟨letter, letters, rfl, -⟩ := isKey.start
    rfl

/-- Where a text's first sign of equality stands is read off the text. -/
theorem sign_unique {letters others value other : List Char} (plain : '=' ∉ letters) (plainToo : '=' ∉ others)
    (same : letters ++ '=' :: value = others ++ '=' :: other) : letters = others ∧ value = other := by
  induction letters generalizing others with
  | nil =>
    cases others with
    | nil => exact ⟨rfl, (List.cons.inj same).2⟩
    | cons first others => exact absurd (List.cons.inj same).1 (fun sign => plainToo (sign ▸ List.mem_cons_self))
  | cons letter letters ih =>
    cases others with
    | nil => exact absurd (List.cons.inj same).1 (fun sign => plain (sign ▸ List.mem_cons_self))
    | cons first others =>
      obtain ⟨rfl, later⟩ := List.cons.inj same
      obtain ⟨rfl, rfl⟩ := ih (fun sign => plain (List.mem_cons_of_mem _ sign))
        (fun sign => plainToo (List.mem_cons_of_mem _ sign)) later
      exact ⟨rfl, rfl⟩

theorem takeWhile_ne_nil (value : List Char) : value.takeWhile isSecret ≠ [] ↔ value.head?.any isSecret = true := by
  cases value with
  | nil => simp
  | cons first rest => by_cases secret : isSecret first <;> simp [secret]

/-- What the scan may do up to the first sign of equality. -/
def Unchanged (isWord : Char → Bool) (before : Option Char) (text : List Char) : Prop :=
  ∀ letters value, '=' ∉ letters → scan isWord before 0 text = letters ++ '=' :: value →
    ∃ own, text = letters ++ '=' :: own ∧ own.head?.any isSecret = value.head?.any isSecret

/-- Up to the first sign of equality the scan changes nothing, nor whether a value follows. -/
theorem unchanged_before_sign (isWord : Char → Bool) (before : Option Char) (text : List Char) :
    Unchanged isWord before text := by
  refine @scan_induction isWord (Unchanged isWord) (fun _ => ?_) (fun before first rest kept ih => ?_)
    (fun before key value isKey bounded secret _ => ?_) before text
  · intro letters value _ shape
    cases letters with
    | nil => cases shape
    | cons => cases shape
  · intro letters value plain shape
    rw [scan_kept kept] at shape
    cases letters with
    | nil =>
      obtain ⟨rfl, rfl⟩ := List.cons.inj shape
      exact ⟨rest, rfl, by rw [head_scan]⟩
    | cons letter letters =>
      obtain ⟨rfl, later⟩ := List.cons.inj shape
      obtain ⟨own, rfl, same⟩ := ih letters value (fun sign => plain (List.mem_cons_of_mem _ sign)) later
      exact ⟨own, rfl, same⟩
  · intro letters other plain shape
    rw [scan_token isKey bounded secret] at shape
    obtain ⟨own, rfl, ownPlain⟩ := isKey.sign
    rw [List.append_assoc, List.append_assoc, List.singleton_append] at shape
    obtain ⟨rfl, rfl⟩ := sign_unique ownPlain plain shape
    refine ⟨value, List.append_assoc .., ?_⟩
    rw [(takeWhile_ne_nil value).mp secret]
    rfl

theorem stopped_scan (isWord : Char → Bool) (before : Option Char) (stopped : Stopped text) :
    Stopped (scan isWord before 0 text) := by
  rw [Stopped, head_scan]
  exact stopped

/-- The secret characters in front of a delimiter. -/
theorem takeWhile_secret {value : List Char} (secret : ∀ char ∈ value, isSecret char = true) (stopped : Stopped rest) :
    (value ++ rest).takeWhile isSecret = value ∧ (value ++ rest).dropWhile isSecret = rest := by
  rw [List.takeWhile_append_of_pos secret, List.dropWhile_append_of_pos secret]
  cases rest with
  | nil => exact ⟨List.append_nil _, rfl⟩
  | cons first rest =>
    have delimiter := stopped first rfl
    rw [List.takeWhile_cons, List.dropWhile_cons, delimiter]
    exact ⟨List.append_nil _, rfl⟩

theorem mark_secret : (∀ char ∈ mark, isSecret char = true) ∧ mark ≠ [] :=
  ⟨List.all_eq_true.mp (by decide), by decide⟩

/-- A text that was scanned is left by a second scan. -/
theorem scan_scan (isWord : Char → Bool) (before : Option Char) (text : List Char) :
    scan isWord before 0 (scan isWord before 0 text) = scan isWord before 0 text := by
  refine @scan_induction isWord
    (fun before text => scan isWord before 0 (scan isWord before 0 text) = scan isWord before 0 text)
    (fun _ => rfl) (fun before first rest kept ih => ?_)
      (fun before key value isKey bounded secret ih => ?_) before text
  · have keptAgain : matchToken isWord before (first :: scan isWord (some first) 0 rest) = none := by
      obtain none | ⟨key, value, isKey, shape, bounded, secret⟩ :=
        matchToken_eq isWord before (first :: scan isWord (some first) 0 rest)
      · exact none
      · -- A key that the scan leaves behind was a key before, and was matched then.
        obtain ⟨letters, rfl, plain⟩ := isKey.sign
        obtain ⟨own, same, valued⟩ := unchanged_before_sign isWord before (first :: rest) letters value plain
          (by rw [scan_kept kept, shape, List.append_assoc]; rfl)
        have sameKey : first :: rest = letters ++ ['='] ++ own := by
          rw [same, List.append_assoc]
          rfl
        rw [takeWhile_ne_nil, ← valued, ← takeWhile_ne_nil] at secret
        rw [sameKey, matchToken_key isKey (by rw [← sameKey]; exact bounded) secret] at kept
        cases kept
    rw [scan_kept kept, scan_kept keptAgain, ih]
  · rw [scan_token isKey bounded secret]
    obtain ⟨taken, dropped⟩ := takeWhile_secret mark_secret.1
      (stopped_scan isWord none (stopped_dropWhile value))
    have boundedAgain : boundary isWord before (key ++ (mark ++ scan isWord none 0 (value.dropWhile isSecret))) =
      true := by
      obtain ⟨letter, letters, rfl, -⟩ := isKey.start
      exact bounded
    rw [List.append_assoc, scan_token isKey boundedAgain (by rw [taken]; exact mark_secret.2), dropped, ih,
      List.append_assoc]

/-! Two texts that differ in a secret. -/

/-- A value: what a key is followed by, up to a delimiter. -/
def Value (value : List Char) : Prop := value ≠ [] ∧ ∀ char ∈ value, isSecret char = true

variable {key tail : List Char} (isKey : IsKey key) (stopped : Stopped tail)
include isKey

include stopped

end

variable {isWord : Char → Bool}

/-- One text is the other with another value behind one key. -/
inductive Twin (isWord : Char → Bool) : List Char → List Char → Prop
  | intro {key value other tail : List Char} (front : List Char) (isKey : IsKey key)
      (bounded : boundary isWord front.getLast? key = true) (isValue : Value value) (isOther : Value other)
      (stopped : Stopped tail) : Twin isWord (front ++ (key ++ (value ++ tail))) (front ++ (key ++ (other ++ tail)))

/-- One argument is the other with any number of values exchanged. -/
inductive Arg.Twin (isWord : Char → Bool) : Arg → Arg → Prop
  | text {one other : List Char} (twins : Relation.EqvGen (Redaction.Twin isWord) one other) :
      Arg.Twin isWord (.text one) (.text other)
  | other (shown : String) : Arg.Twin isWord (.other shown) (.other shown)

/-- One record is the other with any number of values exchanged, in its message and its arguments. -/
structure Record.Twin (isWord : Char → Bool) (one other : Record) : Prop where
  msg : Arg.Twin isWord one.msg other.msg
  args : List.Forall₂ (Arg.Twin isWord) one.args other.args

theorem Arg.redact_redact (arg : Arg) : (arg.redact isWord).redact isWord = arg.redact isWord := by
  cases arg with
  | text chars => exact congrArg Arg.text (scan_scan isWord none chars)
  | other => rfl

/-- The filter of the handlers leaves what the filter of the logger made of a record. -/
theorem filter_filter (record : Record) : filter isWord (filter isWord record) = filter isWord record := by
  have args : (record.args.map (Arg.redact isWord)).map (Arg.redact isWord) = record.args.map (Arg.redact isWord) := by
    rw [List.map_map]
    exact List.map_congr_left fun arg _ => arg.redact_redact
  rw [filter, filter, Arg.redact_redact, args]

end TransactionMonitoring.Redaction
