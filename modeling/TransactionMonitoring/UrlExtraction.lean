import TransactionMonitoring.DatumText
import TransactionMonitoring.Refang
import TransactionMonitoring.Scanning

/-! Finding and vetting URLs in text of anyone's making.

A text is undone of defanging and then scanned twice, for URLs with a scheme and for bare domains.
No URL goes past a space, so texts that are joined by spaces have the URLs of each; and what is
appended to a text can only stretch a URL at its end, as long as it completes no defanged notation.
-/
namespace TransactionMonitoring.UrlExtraction
open WhiteSpace (isSpace)
open Refang (isS refang)
open Scanning

/-- What the character tables say, and the snapshot of the public suffixes. -/
structure Tables where
  isWord : Char → Bool
  isWord_space : isWord ' ' = false
  lower : String → String
  /-- `_tld(text).domain`, empty where there is none. -/
  domain : String → String
  /-- `_tld(text).suffix`. -/
  suffix : String → String

/-! ## The expressions -/

/-- `[a-z]`, case ignored: four letters beyond ASCII fold to one of these. -/
def isLetter (char : Char) : Bool :=
  ('a' ≤ char && char ≤ 'z') || ('A' ≤ char && char ≤ 'Z') || char ∈ ['\u0130', '\u0131', '\u017f', '\u212a']

def isLetterOrDigit (char : Char) : Bool := isLetter char || ('0' ≤ char && char ≤ '9')

/-- `[^\s"'<>\])}{,]`. -/
def isUrlChar (char : Char) : Bool :=
  !isSpace char && char ∉ ['\u0022', '\u0027', '<', '>', ']', ')', '}', '{', ',']

/-- `https?://`, at the beginning of a text: its length. -/
def httpLength : List Char → Option ℕ
  | h :: t :: u :: p :: rest =>
      if h ∈ ['h', 'H'] ∧ t ∈ ['t', 'T'] ∧ u ∈ ['t', 'T'] ∧ p ∈ ['p', 'P'] then
        match rest with
        | s :: ':' :: '/' :: '/' :: _ => if isS s then some 8 else none
        | ':' :: '/' :: '/' :: _ => some 7
        | _ => none
      else none
  | _ => none

/-- `URL_RE`. -/
def urlRe : Pattern Char := fun _ text =>
  (httpLength text).bind fun scheme =>
    let body := (text.drop scheme).takeWhile isUrlChar
    if body = [] then none else some (scheme + body.length - 1)

/-- `(?:/[^\s"'<>\])}{,]*)?`: its length. -/
def pathLength : List Char → ℕ
  | '/' :: path => 1 + (path.takeWhile isUrlChar).length
  | _ => 0

/-- `[a-z]{0,24}`: its length. -/
def lettersLength (text : List Char) : ℕ := min 24 (text.takeWhile isLetter).length

/-- `[a-z]{2,24}` and the path: their length. -/
def tldLength (text : List Char) : Option ℕ :=
  let letters := lettersLength text
  if letters < 2 then none else some (letters + pathLength (text.drop letters))

/-- The rest of a bare domain behind the first characters of a label: how many there are, and whether the last of
them may end it.  Another label is tried before the top-level domain. -/
def labelsLength (size : ℕ) (closes : Bool) : List Char → Option ℕ
  | [] => none
  | char :: rest =>
      if char = '.' then
        if closes ∧ size ≤ 64 then ((labelsLength 0 false rest).or (tldLength rest)).map (· + 1) else none
      else if isLetterOrDigit char then (labelsLength (size + 1) true rest).map (· + 1)
      else if char = '-' ∧ 0 < size then (labelsLength (size + 1) false rest).map (· + 1)
      else none

section
variable (tables : Tables)

/-- `\b`. -/
def boundary (before : Option Char) (text : List Char) : Bool :=
  before.any tables.isWord != text.head?.any tables.isWord

/-- `BARE_DOMAIN_RE`. -/
def bareDomainRe : Pattern Char := fun before text =>
  if boundary tables before text then (labelsLength 0 false text).map (· - 1) else none

/-- The hits of both expressions in a text that is refanged. -/
def hits (text : List Char) : List (List Char) := findAll urlRe text ++ findAll (bareDomainRe tables) text

def urlCandidates (text : String) : List String := (hits tables (refang text.toList)).map String.ofList

/-! ## Vetting -/

/-- `BARE_DOMAIN_MIN_LEN`. -/
def bareDomainMinLen : ℕ := 6

/-- `RFC2606_RESERVED_TLDS`. -/
def rfc2606ReservedTlds : List String := ["test", "example", "invalid", "localhost"]

/-- `PHISHING_PRONE_TLDS`. -/
def phishingProneTlds : List String :=
  ["xyz", "top", "click", "link", "live", "online", "site", "space", "loan", "download", "stream", "tk", "ml", "ga",
   "cf", "gdn", "work", "party", "trade", "date", "science", "test", "example", "invalid", "localhost"]

/-- The text behind the first `://`. -/
def afterScheme : List Char → Option (List Char)
  | [] => none
  | char :: rest => if "://".toList <+: char :: rest then some (rest.drop 2) else afterScheme rest

/-- The last label of a host that has more than one. -/
def lastLabel (host : String) : Option String :=
  if '.' ∈ host.toList then some (String.ofList (host.toList.reverse.takeWhile (· ≠ '.')).reverse) else none

def registrableDomain (url : String) : Option String :=
  if tables.domain url = "" ∨ tables.suffix url = "" then none else some (tables.domain url ++ "." ++ tables.suffix url)

def brand (url : String) : Option String := if tables.domain url = "" then none else some (tables.domain url)

def urlHost (url : String) : String :=
  let host := (((afterScheme url.toList).getD url.toList).takeWhile (· ≠ '/')).takeWhile (· ≠ '?')
  tables.lower (String.ofList host)

def hasPhishingProneTld (url : String) : Bool :=
  if tables.suffix url ≠ "" then tables.lower (tables.suffix url) ∈ phishingProneTlds
  else (lastLabel (urlHost tables url)).any (· ∈ phishingProneTlds)

def looksLikeDomain (candidate : String) : Bool :=
  if candidate.length < bareDomainMinLen then false
  else if tables.suffix candidate ≠ "" ∧ tables.domain candidate ≠ "" then true
  else (lastLabel (tables.lower (String.ofList (candidate.toList.takeWhile (· ≠ '/'))))).any (· ∈ rfc2606ReservedTlds)

/-- The scheme of a URL that has one, as long as it is. -/
def schemeOf (url : String) : Option ℕ :=
  if "https://".toList <+: (tables.lower url).toList then some 8
  else if "http://".toList <+: (tables.lower url).toList then some 7
  else none

def validateCandidates (candidates : List String) : List String :=
  let validated := candidates.eraseDups.filter fun candidate =>
    (schemeOf tables candidate).isSome || looksLikeDomain tables candidate
  -- a bare domain goes where the same link stands with its scheme
  let schemeStrip := validated.filterMap fun url => (schemeOf tables url).map fun scheme => (url.drop scheme).toString
  validated.filter fun url => (schemeOf tables url).isSome || decide (url ∉ schemeStrip)

end

/-! ## URLs with a scheme -/

/-- What `https?://` matches. -/
structure HttpScheme (scheme : List Char) : Prop where
  shape : ∃ h t u p group, (h ∈ ['h', 'H'] ∧ t ∈ ['t', 'T'] ∧ u ∈ ['t', 'T'] ∧ p ∈ ['p', 'P']) ∧
    (group = [] ∨ ∃ s, isS s = true ∧ group = [s]) ∧ scheme = h :: t :: u :: p :: (group ++ [':', '/', '/'])

section
variable {text more scheme : List Char} {length : ℕ} {before : Option Char}

theorem httpLength_eq_some_iff :
    httpLength text = some length ↔ ∃ scheme, HttpScheme scheme ∧ scheme <+: text ∧ scheme.length = length := by
  constructor
  · intro matched
    unfold httpLength at matched
    split at matched
    · rename_i h t u p rest
      split at matched
      · rename_i letters
        split at matched
        · rename_i s behind
          split at matched
          · rename_i plural
            exact ⟨[h, t, u, p, s, ':', '/', '/'], ⟨h, t, u, p, [s], letters, Or.inr ⟨s, plural, rfl⟩, rfl⟩,
              ⟨behind, rfl⟩, Option.some.inj matched⟩
          · cases matched
        · rename_i behind
          exact ⟨[h, t, u, p, ':', '/', '/'], ⟨h, t, u, p, [], letters, Or.inl rfl, rfl⟩, ⟨behind, rfl⟩,
            Option.some.inj matched⟩
        · cases matched
      · cases matched
    · cases matched
  · rintro ⟨_, ⟨h, t, u, p, group, letters, plural, rfl⟩, ⟨behind, rfl⟩, rfl⟩
    rcases plural with rfl | ⟨s, plural, rfl⟩
    · exact (if_pos letters).trans rfl
    · exact (if_pos letters).trans (if_pos plural)

theorem HttpScheme.length_le (http : HttpScheme scheme) : 7 ≤ scheme.length ∧ scheme.length ≤ 8 := by
  obtain ⟨_, _, _, _, group, -, plural, rfl⟩ := http.shape
  rcases plural with rfl | ⟨_, -, rfl⟩ <;> simp

theorem HttpScheme.space_not_mem (http : HttpScheme scheme) : ' ' ∉ scheme := by
  obtain ⟨_, _, _, _, group, letters, plural, rfl⟩ := http.shape
  intro member
  have foreign : ' ' ∉ group := by
    rcases plural with rfl | ⟨s, plural, rfl⟩
    · exact List.not_mem_nil
    · rw [List.mem_singleton]
      rintro rfl
      exact absurd plural (by decide)
  simp only [List.mem_cons, List.mem_append, foreign, false_or] at member
  rcases member with rfl | rfl | rfl | rfl | member
  · exact absurd letters.1 (by decide)
  · exact absurd letters.2.1 (by decide)
  · exact absurd letters.2.2.1 (by decide)
  · exact absurd letters.2.2.2 (by decide)
  · exact absurd member (by decide)

theorem httpLength_space : httpLength (text ++ ' ' :: more) = httpLength text := by
  refine Option.ext fun length => ?_
  rw [httpLength_eq_some_iff, httpLength_eq_some_iff]
  refine exists_congr fun scheme => and_congr_right fun http => and_congr_left fun _ => ?_
  exact Rewriting.prefix_separated_iff http.space_not_mem

theorem takeWhile_separated {fits : Char → Bool} {separator : Char} (stops : fits separator = false) :
    (text ++ separator :: more).takeWhile fits = text.takeWhile fits := by
  rw [List.takeWhile_append, List.takeWhile_cons_of_neg (by simp [stops]), List.append_nil]
  split
  · rename_i whole
    exact ((List.takeWhile_prefix fits).eq_of_length whole).symm
  · rfl

/-- A match is its scheme and the characters behind it, one at least. -/
theorem urlRe_eq_some_iff : urlRe before text = some length ↔ ∃ scheme, httpLength text = some scheme ∧
    (text.drop scheme).takeWhile isUrlChar ≠ [] ∧
    length + 1 = scheme + ((text.drop scheme).takeWhile isUrlChar).length := by
  unfold urlRe
  rw [Option.bind_eq_some_iff]
  refine exists_congr fun scheme => and_congr_right fun _ => ?_
  dsimp only
  split
  · rename_i empty
    simp [empty]
  · rename_i body
    have positive := List.length_pos_iff.mpr body
    rw [Option.some_inj]
    constructor
    · rintro rfl
      exact ⟨body, by omega⟩
    · rintro ⟨-, sum⟩
      omega

theorem httpLength_within (matched : httpLength text = some length) :
    7 ≤ length ∧ length ≤ 8 ∧ length ≤ text.length := by
  obtain ⟨scheme, http, begins, rfl⟩ := httpLength_eq_some_iff.mp matched
  exact ⟨http.length_le.1, http.length_le.2, begins.length_le⟩

/-- A match takes eight characters at least, and no more than there are. -/
theorem urlRe_within (matched : urlRe before text = some length) : 7 ≤ length ∧ length < text.length := by
  obtain ⟨scheme, http, body, sum⟩ := urlRe_eq_some_iff.mp matched
  have within := httpLength_within http
  have positive := List.length_pos_iff.mpr body
  have short := (List.takeWhile_prefix (l := text.drop scheme) isUrlChar).length_le
  rw [List.length_drop] at short
  omega

theorem urlRe_bounded : Bounded urlRe ' ' where
  behind before text more := by
    unfold urlRe
    rw [httpLength_space]
    refine Option.bind_congr fun scheme matched => ?_
    have within := (httpLength_within matched).2.2
    rw [List.drop_append_of_le_length within, takeWhile_separated (by decide)]
  empty _ := rfl
  fresh _ := rfl
  within _ _ _ matched := (urlRe_within matched).2

theorem httpLength_append (matched : httpLength text = some length) (more : List Char) :
    httpLength (text ++ more) = some length := by
  obtain ⟨scheme, http, begins, same⟩ := httpLength_eq_some_iff.mp matched
  exact httpLength_eq_some_iff.mpr ⟨scheme, http, begins.trans (List.prefix_append _ _), same⟩

/-- A text that has no scheme only with more text is shorter than one. -/
theorem length_lt_of_httpLength (absent : httpLength text = none) (matched : httpLength (text ++ more) = some length) :
    text.length < length := by
  obtain ⟨scheme, http, begins, rfl⟩ := httpLength_eq_some_iff.mp matched
  rcases List.prefix_or_prefix_of_prefix begins (List.prefix_append text more) with inside | outside
  · rw [httpLength_eq_some_iff.mpr ⟨scheme, http, inside, rfl⟩] at absent
    cases absent
  · refine lt_of_le_of_ne outside.length_le fun same => ?_
    rw [httpLength_eq_some_iff.mpr ⟨scheme, http, (outside.eq_of_length same) ▸ List.prefix_rfl, rfl⟩] at absent
    cases absent

/-- A URL is one with more text behind it. -/
theorem exists_urlRe_append (matched : urlRe before text = some length) (more : List Char) :
    ∃ longer, urlRe before (text ++ more) = some longer := by
  obtain ⟨scheme, http, body, -⟩ := urlRe_eq_some_iff.mp matched
  have longer : ((text ++ more).drop scheme).takeWhile isUrlChar ≠ [] := by
    rw [List.drop_append_of_le_length (httpLength_within http).2.2, List.takeWhile_append]
    split
    · exact fun empty => body (by rw [(List.append_eq_nil_iff.mp empty).1, List.takeWhile_nil])
    · exact body
  have positive := List.length_pos_iff.mpr longer
  have counted : scheme + (((text ++ more).drop scheme).takeWhile isUrlChar).length - 1 + 1 =
      scheme + (((text ++ more).drop scheme).takeWhile isUrlChar).length := by omega
  exact ⟨_, urlRe_eq_some_iff.mpr ⟨scheme, httpLength_append http more, longer, counted⟩⟩

/-- The URL at the end of a text goes on in what is appended; behind its beginning there is no room for another. -/
theorem urlRe_extensible : Extensible urlRe where
  within _ _ _ matched := (urlRe_within matched).2
  grows before text more _ := by
    cases new : urlRe before (text ++ more) with
    | none =>
      refine .inl (Eq.symm (Option.eq_none_iff_forall_ne_some.mpr fun length old => ?_))
      obtain ⟨longer, found⟩ := exists_urlRe_append old more
      rw [found] at new
      cases new
    | some length =>
      obtain ⟨scheme, http, body, sum⟩ := urlRe_eq_some_iff.mp new
      have small := (httpLength_within http).2.1
      -- no text of at most eight characters has a match behind its first
      have crowded : text.length ≤ 8 → ∀ place behind later, 0 < place →
          urlRe behind (text.drop place) = some later → ∃ own, urlRe before text = some own ∧ place < own + 1 := by
        intro few place behind later late found
        have room := urlRe_within found
        rw [List.length_drop] at room
        omega
      cases old : httpLength text with
      | none =>
        have short := length_lt_of_httpLength old http
        exact .inr ⟨length, rfl, by omega, crowded (by omega)⟩
      | some own =>
        obtain rfl := Option.some.inj ((httpLength_append old more).symm.trans http)
        have short := (httpLength_within old).2.2
        rw [List.drop_append_of_le_length short, List.takeWhile_append] at body sum
        split at sum
        · rename_i whole
          rw [if_pos whole] at body
          rw [List.length_append, List.length_drop] at sum
          refine .inr ⟨length, rfl, by omega, fun place behind later late found => ?_⟩
          by_cases rest : text.drop own = []
          · rw [List.drop_eq_nil_iff] at rest
            exact crowded (by omega) place behind later late found
          · have room := urlRe_within found
            rw [List.length_drop] at room
            have full := (List.takeWhile_prefix (l := text.drop own) isUrlChar).eq_of_length whole
            refine ⟨text.length - 1, urlRe_eq_some_iff.mpr ⟨own, old, ?_, ?_⟩, by omega⟩
            · rwa [full]
            · rw [full, List.length_drop]
              omega
        · rename_i stops
          rw [if_neg stops] at body
          exact .inl (urlRe_eq_some_iff.mpr ⟨own, old, body, sum⟩).symm

/-! ## Bare domains -/

theorem pathLength_of_slash (path : List Char) : pathLength ('/' :: path) = 1 + (path.takeWhile isUrlChar).length := rfl

theorem pathLength_of_other {char : Char} (other : char ≠ '/') (rest : List Char) : pathLength (char :: rest) = 0 := by
  unfold pathLength
  split
  · rename_i same
    exact absurd (List.cons.inj same).1 other
  · rfl

theorem pathLength_le (text : List Char) : pathLength text ≤ text.length := by
  unfold pathLength
  split
  · rename_i path
    have short := (List.takeWhile_prefix (l := path) isUrlChar).length_le
    rw [List.length_cons]
    omega
  · exact Nat.zero_le _

theorem pathLength_space : pathLength (text ++ ' ' :: more) = pathLength text := by
  cases text with
  | nil => rfl
  | cons char rest =>
    rw [List.cons_append]
    by_cases slash : char = '/'
    · subst slash
      rw [pathLength_of_slash, pathLength_of_slash, takeWhile_separated (by decide)]
    · rw [pathLength_of_other slash, pathLength_of_other slash]

/-- A path stays as it is, or goes on to the end and behind it. -/
theorem pathLength_grows (nonempty : text ≠ []) (more : List Char) : pathLength (text ++ more) = pathLength text ∨
    (text.length ≤ pathLength (text ++ more) ∧ pathLength text = text.length) := by
  cases text with
  | nil => exact absurd rfl nonempty
  | cons char rest =>
    rw [List.cons_append]
    by_cases slash : char = '/'
    · subst slash
      rw [pathLength_of_slash, pathLength_of_slash, List.takeWhile_append]
      split
      · rename_i whole
        rw [whole, List.length_append, List.length_cons]
        exact .inr (by omega)
      · exact .inl rfl
    · rw [pathLength_of_other slash, pathLength_of_other slash]
      exact .inl rfl

theorem lettersLength_le (text : List Char) : lettersLength text ≤ text.length :=
  (Nat.min_le_right _ _).trans (List.takeWhile_prefix isLetter).length_le

/-- The letters stop in the text, where more text does not change them, or they are all of it. -/
theorem lettersLength_grows (text more : List Char) :
    (lettersLength (text ++ more) = lettersLength text ∧ lettersLength text < text.length) ∨
      (text.length ≤ lettersLength (text ++ more) ∧ ∀ char ∈ text, isLetter char = true) := by
  have short := (List.takeWhile_prefix (l := text) isLetter).length_le
  unfold lettersLength
  rw [List.takeWhile_append]
  split
  · rename_i whole
    rw [List.length_append]
    by_cases long : 24 < text.length
    · exact .inl (by omega)
    · refine .inr ⟨by omega, ?_⟩
      rw [← (List.takeWhile_prefix isLetter).eq_of_length whole]
      exact fun char member => (List.all_eq_true.mp List.all_takeWhile) char member
  · exact .inl (by omega)

theorem tldLength_eq_some_iff : tldLength text = some length ↔
    2 ≤ lettersLength text ∧ length = lettersLength text + pathLength (text.drop (lettersLength text)) := by
  unfold tldLength
  dsimp only
  split
  · exact ⟨nofun, fun long => absurd long.1 (by omega)⟩
  · rw [Option.some_inj]
    exact ⟨fun same => ⟨by omega, same.symm⟩, fun long => long.2.symm⟩

theorem tldLength_space : tldLength (text ++ ' ' :: more) = tldLength text := by
  have same : lettersLength (text ++ ' ' :: more) = lettersLength text := by
    rw [lettersLength, takeWhile_separated (by decide), lettersLength]
  unfold tldLength
  rw [same]
  dsimp only
  rw [List.drop_append_of_le_length (lettersLength_le text), pathLength_space]

theorem tldLength_le (matched : tldLength text = some length) : length ≤ text.length := by
  obtain ⟨-, rfl⟩ := tldLength_eq_some_iff.mp matched
  have letters := lettersLength_le text
  have path := pathLength_le (text.drop (lettersLength text))
  rw [List.length_drop] at path
  omega

theorem tldLength_grows (text more : List Char) : tldLength (text ++ more) = tldLength text ∨
    ∃ length, tldLength (text ++ more) = some length ∧ text.length ≤ length := by
  unfold tldLength
  dsimp only
  rcases lettersLength_grows text more with ⟨same, short⟩ | ⟨long, -⟩
  · rw [same, List.drop_append_of_le_length short.le]
    have behind : text.drop (lettersLength text) ≠ [] := fun empty => by
      rw [List.drop_eq_nil_iff] at empty
      omega
    rcases pathLength_grows behind more with stays | ⟨reaches, -⟩
    · exact .inl (by rw [stays])
    · split
      · exact .inl rfl
      · rw [List.length_drop] at reaches
        exact .inr ⟨_, rfl, by omega⟩
  · by_cases few : lettersLength (text ++ more) < 2
    · have letters := lettersLength_le text
      rw [if_pos few, if_pos (by omega)]
      exact .inl rfl
    · rw [if_neg few]
      exact .inr ⟨_, rfl, by omega⟩

theorem labelsLength_within {size : ℕ} {closes : Bool} (matched : labelsLength size closes text = some length) :
    0 < length ∧ length ≤ text.length := by
  induction text generalizing size closes length with
  | nil => cases matched
  | cons char rest ih =>
    have longer {found : Option ℕ} (short : ∀ size, found = some size → size ≤ rest.length)
        (shape : found.map (· + 1) = some length) : 0 < length ∧ length ≤ (char :: rest).length := by
      obtain ⟨own, inside, rfl⟩ := Option.map_eq_some_iff.mp shape
      exact ⟨Nat.succ_pos own, Nat.succ_le_succ (short own inside)⟩
    rw [labelsLength] at matched
    split at matched
    · split at matched
      · refine longer (fun own inside => ?_) matched
        rcases Option.or_eq_some_iff.mp inside with label | ⟨-, tld⟩
        · exact (ih label).2
        · exact tldLength_le tld
      · cases matched
    · split at matched
      · exact longer (fun own inside => (ih inside).2) matched
      · split at matched
        · exact longer (fun own inside => (ih inside).2) matched
        · cases matched

/-! ### The labels, character by character -/

section
variable {size : ℕ} {closes : Bool} {char : Char} {rest : List Char}

theorem labelsLength_dot : labelsLength size closes ('.' :: rest) =
    if closes ∧ size ≤ 64 then ((labelsLength 0 false rest).or (tldLength rest)).map (· + 1) else none := by
  rw [labelsLength, if_pos rfl]

/-- Behind a character of a label the label goes on, or nothing does. -/
theorem labelsLength_label (label : char ≠ '.') :
    (∃ size' closes', ∀ rest, labelsLength size closes (char :: rest) =
      (labelsLength size' closes' rest).map (· + 1)) ∨
      ∀ rest, labelsLength size closes (char :: rest) = none := by
  by_cases word : isLetterOrDigit char = true
  · refine .inl ⟨size + 1, true, fun rest => ?_⟩
    rw [labelsLength, if_neg label, if_pos word]
  · by_cases dash : char = '-' ∧ 0 < size
    · refine .inl ⟨size + 1, false, fun rest => ?_⟩
      rw [labelsLength, if_neg label, if_neg word, if_pos dash]
    · refine .inr fun rest => ?_
      rw [labelsLength, if_neg label, if_neg word, if_neg dash]

end

theorem labelsLength_space {size : ℕ} {closes : Bool} :
    labelsLength size closes (text ++ ' ' :: more) = labelsLength size closes text := by
  induction text generalizing size closes with
  | nil => rfl
  | cons char rest ih =>
    rw [List.cons_append]
    by_cases dot : char = '.'
    · subst dot
      rw [labelsLength_dot, labelsLength_dot, ih, tldLength_space]
    · rcases @labelsLength_label size closes char dot with ⟨_, _, goes⟩ | stops
      · rw [goes, goes, ih]
      · rw [stops, stops]

theorem labelsLength_letters {size : ℕ} {closes : Bool} (letters : ∀ char ∈ text, isLetter char = true) :
    labelsLength size closes text = none := by
  induction text generalizing size closes with
  | nil => rfl
  | cons char rest ih =>
    have label : char ≠ '.' := by
      rintro rfl
      exact absurd (letters '.' List.mem_cons_self) (by decide)
    rcases @labelsLength_label size closes char label with ⟨_, _, goes⟩ | stops
    · rw [goes, ih fun other member => letters other (List.mem_cons_of_mem _ member), Option.map_none]
    · rw [stops]

theorem labelsLength_grows {size : ℕ} {closes : Bool} (text more : List Char) :
    labelsLength size closes (text ++ more) = labelsLength size closes text ∨
      ∃ length, labelsLength size closes (text ++ more) = some length ∧ text.length ≤ length := by
  induction text generalizing size closes with
  | nil =>
    cases matched : labelsLength size closes ([] ++ more) with
    | none => exact .inl rfl
    | some length => exact .inr ⟨length, rfl, Nat.zero_le _⟩
  | cons char rest ih =>
    rw [List.cons_append]
    by_cases dot : char = '.'
    · subst dot
      rw [labelsLength_dot, labelsLength_dot]
      split
      · rcases @ih 0 false with same | ⟨length, reaches, long⟩
        · rw [same]
          cases labelsLength 0 false rest with
          | some own => exact .inl rfl
          | none =>
            rcases tldLength_grows rest more with same | ⟨length, reaches, long⟩
            · exact .inl (by rw [same])
            · exact .inr ⟨length + 1, by rw [reaches]; rfl, Nat.succ_le_succ long⟩
        · exact .inr ⟨length + 1, by rw [reaches]; rfl, Nat.succ_le_succ long⟩
      · exact .inl rfl
    · rcases @labelsLength_label size closes char dot with ⟨size', closes', goes⟩ | stops
      · rw [goes, goes]
        rcases @ih size' closes' with same | ⟨length, reaches, long⟩
        · exact .inl (by rw [same])
        · exact .inr ⟨length + 1, by rw [reaches]; rfl, Nat.succ_le_succ long⟩
      · rw [stops, stops]
        exact .inl rfl

/-- Two readings of a text that do not stop in it come to the same end. -/
theorem labelsLength_same {size size' : ℕ} {closes closes' : Bool} {own : ℕ}
    (reaches : labelsLength size closes (text ++ more) = some length) (long : text.length ≤ length)
    (other : labelsLength size' closes' text = some own) : labelsLength size closes text = some own := by
  induction text generalizing size closes size' closes' length own with
  | nil => cases other
  | cons char rest ih =>
    rw [List.cons_append] at reaches
    by_cases dot : char = '.'
    · subst dot
      rw [labelsLength_dot] at reaches other ⊢
      split at reaches
      · split at other
        · rename_i valid _
          rwa [if_pos valid]
        · cases other
      · cases reaches
    · rcases @labelsLength_label size closes char dot with ⟨_, _, goes⟩ | stops
      · rcases @labelsLength_label size' closes' char dot with ⟨_, _, follows⟩ | stops
        · rw [goes] at reaches ⊢
          rw [follows] at other
          obtain ⟨within, deeper, rfl⟩ := Option.map_eq_some_iff.mp reaches
          obtain ⟨own, also, rfl⟩ := Option.map_eq_some_iff.mp other
          rw [ih deeper (Nat.le_of_succ_le_succ long) also]
          rfl
        · rw [stops] at other
          cases other
      · rw [stops] at reaches
        cases reaches

/-- Where the top-level domain and its path go on behind the text, no labels in the text go further. -/
theorem tldLength_covers {size place own : ℕ} {closes : Bool} (reaches : tldLength (text ++ more) = some length)
    (long : text.length ≤ length) (other : labelsLength size closes (text.drop place) = some own) :
    ∃ whole, tldLength text = some whole ∧ place + own ≤ whole := by
  have inside := labelsLength_within other
  rw [List.length_drop] at inside
  obtain ⟨two, sum⟩ := tldLength_eq_some_iff.mp reaches
  rcases lettersLength_grows text more with ⟨same, short⟩ | ⟨-, letters⟩
  · rw [same] at two sum
    rw [List.drop_append_of_le_length short.le] at sum
    have behind : text.drop (lettersLength text) ≠ [] := fun empty => by
      rw [List.drop_eq_nil_iff] at empty
      omega
    refine ⟨_, tldLength_eq_some_iff.mpr ⟨two, rfl⟩, ?_⟩
    rcases pathLength_grows behind more with stays | ⟨-, whole⟩
    · rw [stays] at sum
      omega
    · rw [whole, List.length_drop]
      omega
  · rw [labelsLength_letters fun char member => letters char (List.mem_of_mem_drop member)] at other
    cases other

/-- Where the labels go on behind the text, no labels from a later place of the text go further than its own. -/
theorem labelsLength_covers {size size' place own : ℕ} {closes closes' : Bool}
    (reaches : labelsLength size closes (text ++ more) = some length) (long : text.length ≤ length)
    (other : labelsLength size' closes' (text.drop place) = some own) :
    ∃ whole, labelsLength size closes text = some whole ∧ place + own ≤ whole := by
  induction text generalizing size closes length place own with
  | nil =>
    rw [List.drop_nil] at other
    cases other
  | cons char rest ih =>
    cases place with
    | zero => exact ⟨own, labelsLength_same reaches long other, by omega⟩
    | succ place =>
      rw [List.drop_succ_cons] at other
      rw [List.cons_append] at reaches
      by_cases dot : char = '.'
      · subst dot
        rw [labelsLength_dot] at reaches ⊢
        split at reaches
        · rename_i valid
          rw [if_pos valid]
          obtain ⟨within, deeper, rfl⟩ := Option.map_eq_some_iff.mp reaches
          have long := Nat.le_of_succ_le_succ long
          rcases Option.or_eq_some_iff.mp deeper with labels | ⟨absent, tld⟩
          · obtain ⟨whole, found, further⟩ := ih labels long other
            exact ⟨whole + 1, by rw [found]; rfl, by omega⟩
          · obtain ⟨whole, found, further⟩ := tldLength_covers tld long other
            have noLabels : labelsLength 0 false rest = none := by
              rcases @labelsLength_grows 0 false rest more with same | ⟨_, present, -⟩
              · exact same.symm.trans absent
              · rw [absent] at present
                cases present
            exact ⟨whole + 1, by rw [noLabels, found]; rfl, by omega⟩
        · cases reaches
      · rcases @labelsLength_label size closes char dot with ⟨_, _, goes⟩ | stops
        · rw [goes] at reaches ⊢
          obtain ⟨within, deeper, rfl⟩ := Option.map_eq_some_iff.mp reaches
          obtain ⟨whole, found, further⟩ := ih deeper (Nat.le_of_succ_le_succ long) other
          exact ⟨whole + 1, by rw [found]; rfl, by omega⟩
        · rw [stops] at reaches
          cases reaches

variable {tables : Tables}

theorem bareDomainRe_eq_some_iff : bareDomainRe tables before text = some length ↔
    boundary tables before text = true ∧ labelsLength 0 false text = some (length + 1) := by
  unfold bareDomainRe
  split
  · rename_i bounded
    rw [Option.map_eq_some_iff]
    constructor
    · rintro ⟨own, matched, rfl⟩
      exact ⟨bounded, by rw [Nat.sub_add_cancel (labelsLength_within matched).1, matched]⟩
    · rintro ⟨-, matched⟩
      exact ⟨_, matched, rfl⟩
  · rename_i inside
    exact ⟨nofun, fun matched => absurd matched.1 inside⟩

theorem bareDomainRe_within (matched : bareDomainRe tables before text = some length) : length < text.length :=
  (labelsLength_within (bareDomainRe_eq_some_iff.mp matched).2).2

theorem bareDomainRe_bounded : Bounded (bareDomainRe tables) ' ' where
  behind before text more := by
    refine Option.ext fun length => ?_
    rw [bareDomainRe_eq_some_iff, bareDomainRe_eq_some_iff, labelsLength_space]
    cases text with
    | nil => exact ⟨fun matched => absurd matched.2 nofun, fun matched => absurd matched.2 nofun⟩
    | cons char rest => exact Iff.rfl
  empty before := by
    unfold bareDomainRe
    split <;> rfl
  fresh text := by
    unfold bareDomainRe boundary
    simp [tables.isWord_space]
  within _ _ _ := bareDomainRe_within

/-- The bare domain at the end of a text goes on in what is appended; no other one began behind it. -/
theorem bareDomainRe_extensible : Extensible (bareDomainRe tables) where
  within _ _ _ := bareDomainRe_within
  grows before text more nonempty := by
    have same : boundary tables before (text ++ more) = boundary tables before text := by
      cases text with
      | nil => exact absurd rfl nonempty
      | cons char rest => rfl
    rcases @labelsLength_grows 0 false text more with stays | ⟨length, reaches, long⟩
    · refine .inl ?_
      unfold bareDomainRe
      rw [same, stays]
    · by_cases bounded : boundary tables before text = true
      · have positive := (labelsLength_within reaches).1
        refine .inr ⟨length - 1, ?_, by omega, fun place behind later _ found => ?_⟩
        · exact bareDomainRe_eq_some_iff.mpr ⟨same.trans bounded, by rw [Nat.sub_add_cancel positive, reaches]⟩
        · obtain ⟨-, labels⟩ := bareDomainRe_eq_some_iff.mp found
          obtain ⟨whole, own, further⟩ := labelsLength_covers reaches long labels
          refine ⟨whole - 1, bareDomainRe_eq_some_iff.mpr ⟨bounded, ?_⟩, by omega⟩
          rw [own, Nat.sub_add_cancel (by omega)]
      · refine .inl ?_
        unfold bareDomainRe
        rw [same, if_neg bounded, if_neg bounded]

/-! ## Texts that are joined -/

/-- What is found in texts that a space joins is what is found in each. -/
theorem mem_hits_space {hit : List Char} :
    hit ∈ hits tables (text ++ ' ' :: more) ↔ hit ∈ hits tables text ∨ hit ∈ hits tables more := by
  unfold hits
  rw [urlRe_bounded.findAll_append, bareDomainRe_bounded.findAll_append]
  simp only [List.mem_append]
  tauto

/-- What is found in a text begins something that is found once more is appended. -/
theorem hits_covers (text more : List Char) : Covers (hits tables text) (hits tables (text ++ more)) :=
  (urlRe_extensible.findAll_covers text more).append (bareDomainRe_extensible.findAll_covers text more)

end
end TransactionMonitoring.UrlExtraction
