import TransactionMonitoring.Rewriting

/-! Undoing defanged URLs.

`refang` replaces seven notations of a dot, one after the other, and then the `hxxp` schemes.
What a replacement writes may form a notation whose turn has passed.
-/
namespace TransactionMonitoring.Refang
open Rewriting

/-- `DEFANG_REPLACEMENTS`. -/
def defangReplacements : List (List Char × List Char) :=
  [("[.]", "."), ("(.)", "."), ("[dot]", "."), ("(dot)", "."), ("。", "."), ("．", "."), ("｡", ".")].map
    fun pair => (pair.1.toList, pair.2.toList)

/-- The `s?` of `_HXXP_RE`: case is ignored, and the long s is a lower-case s then. -/
def isS (c : Char) : Bool := c ∈ ['s', 'S', 'ſ']

/-- `_HXXP_RE` with its replacement, at the beginning of a text. -/
def hxxpRule : Rule Char
  | h :: x :: y :: p :: rest =>
      if h ∈ ['h', 'H'] ∧ x ∈ ['x', 'X'] ∧ y ∈ ['x', 'X'] ∧ p ∈ ['p', 'P'] then
        match rest with
        | s :: ':' :: '/' :: '/' :: _ => if isS s then some (['h', 't', 't', 'p', s, ':', '/', '/'], 7) else none
        | ':' :: '/' :: '/' :: _ => some (['h', 't', 't', 'p', ':', '/', '/'], 6)
        | _ => none
      else none
  | _ => none

/-- `_HXXP_RE.sub`. -/
def subHxxp (text : List Char) : List Char := rewriteAll hxxpRule text

def refang (text : List Char) : List Char :=
  subHxxp (defangReplacements.foldl (fun text pair => replace pair.1 pair.2 text) text)

/-- The text has none of the notations that are undone. -/
structure Clean (text : List Char) : Prop where
  dots : ∀ pair ∈ defangReplacements, ¬pair.1 <:+: text
  schemes : ∀ tail, tail <:+ text → hxxpRule tail = none

/-- A notation of a dot in brackets or parentheses, where the inner one is undone last: all of
them but the bracketed dot in parentheses. -/
def nestedDots : List (List Char) :=
  (["[.]", "(.)", "([.])", "[dot]", "(dot)", "。", "．", "｡"].map fun dot => ("[" ++ dot ++ "]").toList) ++
  (["(.)", "([.])", "[dot]", "(dot)", "。", "．", "｡"].map fun dot => ("(" ++ dot ++ ")").toList)

/-! ## Schemes -/

/-- The letters of a scheme, and what its `s?` matched. -/
structure Scheme (h x y p : Char) (group : List Char) : Prop where
  first : h ∈ ['h', 'H']
  second : x ∈ ['x', 'X']
  third : y ∈ ['x', 'X']
  fourth : p ∈ ['p', 'P']
  plural : group = [] ∨ ∃ s, isS s = true ∧ group = [s]

def separator : List Char := [':', '/', '/']

section
variable {text written part group behind : List Char} {more : Nat} {h x y p : Char}

theorem hxxpRule_eq_some_iff :
    hxxpRule text = some (written, more) ↔ ∃ h x y p group behind, Scheme h x y p group ∧
      text = h :: x :: y :: p :: (group ++ separator ++ behind) ∧
      written = 'h' :: 't' :: 't' :: 'p' :: (group ++ separator) ∧ more = 6 + group.length := by
  constructor
  · intro applied
    unfold hxxpRule at applied
    split at applied
    · rename_i h x y p rest
      split at applied
      · rename_i letters
        obtain ⟨first, second, third, fourth⟩ := letters
        split at applied
        · rename_i s behind
          split at applied
          · rename_i matched
            obtain ⟨rfl, rfl⟩ := Prod.mk.inj (Option.some.inj applied)
            exact ⟨h, x, y, p, [s], behind, ⟨first, second, third, fourth, Or.inr ⟨s, matched, rfl⟩⟩, rfl, rfl, rfl⟩
          · cases applied
        · rename_i behind
          obtain ⟨rfl, rfl⟩ := Prod.mk.inj (Option.some.inj applied)
          exact ⟨h, x, y, p, [], behind, ⟨first, second, third, fourth, Or.inl rfl⟩, rfl, rfl, rfl⟩
        · cases applied
      · cases applied
    · cases applied
  · rintro ⟨h, x, y, p, group, behind, ⟨first, second, third, fourth, plural⟩, rfl, rfl, rfl⟩
    have letters := And.intro first (And.intro second (And.intro third fourth))
    rcases plural with rfl | ⟨s, matched, rfl⟩
    · exact (if_pos letters).trans rfl
    · exact (if_pos letters).trans (if_pos matched)

/-- The characters of a scheme, as it is and as it is written. -/
def schemeChars : List Char := ['h', 'H', 'x', 'X', 'p', 'P', 't', 's', 'S', 'ſ', ':', '/']

theorem Scheme.mem_group (scheme : Scheme h x y p group) : ∀ char ∈ group, isS char = true := by
  rcases scheme.plural with rfl | ⟨s, matched, rfl⟩
  · simp
  · simpa using matched

theorem mem_schemeChars_of_isS {char : Char} (matched : isS char = true) : char ∈ schemeChars := by
  simp only [isS, decide_eq_true_eq, List.mem_cons, List.not_mem_nil, or_false] at matched
  rcases matched with rfl | rfl | rfl
  · decide
  · decide
  · decide

/-- A scheme and what is written for it have only these characters. -/
theorem Scheme.subset (scheme : Scheme h x y p group) :
    h :: x :: y :: p :: (group ++ separator) ⊆ schemeChars ∧
    'h' :: 't' :: 't' :: 'p' :: (group ++ separator) ⊆ schemeChars := by
  have behind : group ++ separator ⊆ schemeChars := by
    refine List.append_subset.mpr ⟨fun char member => ?_, by decide⟩
    exact mem_schemeChars_of_isS (scheme.mem_group char member)
  have letter : ∀ {char : Char} {letters : List Char}, char ∈ letters → letters ⊆ schemeChars → char ∈ schemeChars :=
    fun member known => known member
  constructor
  · simp only [List.cons_subset]
    exact ⟨letter scheme.first (by decide), letter scheme.second (by decide), letter scheme.third (by decide),
      letter scheme.fourth (by decide), behind⟩
  · simp only [List.cons_subset]
    exact ⟨by decide, by decide, by decide, by decide, behind⟩

theorem take_scheme :
    (h :: x :: y :: p :: (group ++ separator ++ behind)).take (6 + group.length + 1) =
      h :: x :: y :: p :: (group ++ separator) := by
  have length : 6 + group.length + 1 = (h :: x :: y :: p :: (group ++ separator)).length := by
    simp [separator]
    omega
  rw [length]
  exact @List.take_left _ (h :: x :: y :: p :: (group ++ separator)) behind

/-- The pass over the schemes neither makes nor breaks a part that begins with none of their
characters and has no `h`. -/
theorem infix_subHxxp_iff {head : Char} (foreign : head ∉ schemeChars) (lower : 'h' ∉ part) (upper : 'H' ∉ part) :
    head :: part <:+: subHxxp text ↔ head :: part <:+: text := by
  have absent : ∀ char ∈ ['h', 'H'], char ∉ head :: part := by
    intro char member found
    rcases List.mem_cons.mp found with rfl | inside
    · exact foreign ((by decide : ['h', 'H'] ⊆ schemeChars) member)
    · simp only [List.mem_cons, List.not_mem_nil, or_false] at member
      rcases member with rfl | rfl
      · exact lower inside
      · exact upper inside
  refine infix_rewriteAll_iff fun first rest written more applied => ?_
  obtain ⟨h, x, y, p, group, behind, scheme, shape, rfl, rfl⟩ := hxxpRule_eq_some_iff.mp applied
  obtain ⟨taken, given⟩ := scheme.subset
  refine ⟨?_, ⟨'h', _, rfl, absent 'h' (by decide)⟩, fun member => foreign (given member), ?_⟩
  · obtain rfl := (List.cons.inj shape).1
    exact absent first scheme.first
  · rw [shape, take_scheme]
    exact fun member => foreign (taken member)

theorem hxxpRule_none_of_head {first : Char} {others : List Char} (foreign : first ∉ ['h', 'H']) :
    hxxpRule (first :: others) = none := by
  cases applied : hxxpRule (first :: others) with
  | none => rfl
  | some result =>
    obtain ⟨h, x, y, p, group, behind, scheme, shape, -⟩ := hxxpRule_eq_some_iff.mp applied
    obtain ⟨rfl, -⟩ := List.cons.inj shape
    exact absurd scheme.first foreign

/-- No scheme begins among characters that are not its first. -/
theorem hxxpRule_none_or_behind {chars rest tail : List Char} (foreign : ∀ char ∈ chars, char ∉ ['h', 'H'])
    (suffix : tail <:+ chars ++ rest) : hxxpRule tail = none ∨ tail <:+ rest := by
  induction chars with
  | nil => exact Or.inr suffix
  | cons char chars ih =>
    obtain ⟨here, foreign⟩ := List.forall_mem_cons.mp foreign
    rw [List.cons_append, List.suffix_cons_iff] at suffix
    rcases suffix with rfl | later
    · exact Or.inl (hxxpRule_none_of_head here)
    · exact ih foreign later

theorem Scheme.tail_foreign (scheme : Scheme h x y p group) :
    ∀ char ∈ x :: y :: p :: (group ++ separator), char ∉ ['h', 'H'] := by
  have letter {char : Char} {letters : List Char} (member : char ∈ letters)
      (apart : letters.all (decide <| · ∉ ['h', 'H'])) : char ∉ ['h', 'H'] :=
    of_decide_eq_true (List.all_eq_true.mp apart char member)
  intro char member
  simp only [List.mem_cons, List.mem_append] at member
  rcases member with rfl | rfl | rfl | inside | last
  · exact letter scheme.second (by decide)
  · exact letter scheme.third (by decide)
  · exact letter scheme.fourth (by decide)
  · exact letter (of_decide_eq_true (scheme.mem_group char inside)) (by decide)
  · exact letter last (by decide)

/-- The pass over the schemes leaves none. -/
theorem hxxpRule_subHxxp (text : List Char) : ∀ tail, tail <:+ subHxxp text → hxxpRule tail = none := by
  unfold subHxxp
  induction text using rewrite_induction hxxpRule with
  | nil =>
    intro tail suffix
    rw [rewriteAll_nil, List.suffix_nil] at suffix
    subst suffix
    rfl
  | kept first rest idle ih =>
    intro tail suffix
    rw [rewriteAll_kept idle, List.suffix_cons_iff] at suffix
    rcases suffix with rfl | later
    · cases applied : hxxpRule (first :: rewriteAll hxxpRule rest) with
      | none => rfl
      | some result =>
        obtain ⟨h, x, y, p, group, behind, scheme, shape, -⟩ := hxxpRule_eq_some_iff.mp applied
        obtain ⟨rfl, copy⟩ := List.cons.inj shape
        have foreign := scheme.tail_foreign
        have begins : x :: y :: p :: (group ++ separator) <+: rewriteAll hxxpRule rest := ⟨behind, by simp [copy]⟩
        have copied : x :: y :: p :: (group ++ separator) <+: rest := by
          refine prefix_of_prefix_rewriteAll (fun head others other more applied => ?_) begins
          obtain ⟨-, -, -, -, group', -, -, -, rfl, -⟩ := hxxpRule_eq_some_iff.mp applied
          exact ⟨'h', _, rfl, fun member => foreign 'h' member (by decide)⟩
        obtain ⟨after, rfl⟩ := copied
        have again : hxxpRule (first :: (x :: y :: p :: (group ++ separator) ++ after)) = some (_, _) :=
          hxxpRule_eq_some_iff.mpr ⟨first, x, y, p, group, after, scheme, rfl, rfl, rfl⟩
        rw [idle] at again
        cases again
    · exact ih tail later
  | taken first rest written more applied ih =>
    intro tail suffix
    rw [rewriteAll_taken applied] at suffix
    obtain ⟨h, x, y, p, group, behind, scheme, -, rfl, -⟩ := hxxpRule_eq_some_iff.mp applied
    rw [List.cons_append, List.suffix_cons_iff] at suffix
    rcases suffix with rfl | later
    · cases again : hxxpRule ('h' :: ('t' :: 't' :: 'p' :: (group ++ separator) ++
        rewriteAll hxxpRule (rest.drop more))) with
      | none => rfl
      | some result =>
        obtain ⟨h, x, y, p, group, behind, other, shape, -⟩ := hxxpRule_eq_some_iff.mp again
        obtain ⟨-, shape⟩ := List.cons.inj shape
        obtain ⟨rfl, -⟩ := List.cons.inj shape
        exact absurd other.second (by decide)
    · have foreign : ∀ char ∈ 't' :: 't' :: 'p' :: (group ++ separator), char ∉ ['h', 'H'] := by
        intro char member
        rcases List.mem_cons.mp member with rfl | member
        · decide
        rcases List.mem_cons.mp member with rfl | member
        · decide
        rcases List.mem_cons.mp member with rfl | member
        · decide
        exact scheme.tail_foreign char (List.mem_cons_of_mem _ (List.mem_cons_of_mem _ (List.mem_cons_of_mem _ member)))
      rcases hxxpRule_none_or_behind foreign later with none | behind
      · exact none
      · exact ih tail behind

/-- Texts that a space joins are refanged one by one. -/
theorem refang_space (text more : List Char) : refang (text ++ ' ' :: more) = refang text ++ ' ' :: refang more := by
  have dots (pairs : List (List Char × List Char)) (foreign : ∀ pair ∈ pairs, ' ' ∉ pair.1 ∧ pair.1 ≠ [])
      (text more : List Char) : pairs.foldl (fun text pair => replace pair.1 pair.2 text) (text ++ ' ' :: more) =
        pairs.foldl (fun text pair => replace pair.1 pair.2 text) text ++
          ' ' :: pairs.foldl (fun text pair => replace pair.1 pair.2 text) more := by
    induction pairs generalizing text more with
    | nil => rfl
    | cons pair rest ih =>
      obtain ⟨space, nonempty⟩ := foreign pair List.mem_cons_self
      rw [List.foldl_cons, replace_separated space nonempty]
      exact ih (fun other member => foreign other (List.mem_cons_of_mem _ member)) _ _
  rw [refang, dots defangReplacements (by decide)]
  refine rewriteAll_separated (fun text more => ?_) rfl (fun first rest written more taken => ?_) _ _
  · refine Option.ext fun ⟨written, length⟩ => ?_
    rw [hxxpRule_eq_some_iff, hxxpRule_eq_some_iff]
    refine exists_congr fun h => exists_congr fun x => exists_congr fun y => exists_congr fun p =>
      exists_congr fun group =>
      ?_
    have begins (whole : List Char) : (∃ behind, Scheme h x y p group ∧
        whole = h :: x :: y :: p :: (group ++ separator ++ behind) ∧
        written = 'h' :: 't' :: 't' :: 'p' :: (group ++ separator) ∧ length = 6 + group.length) ↔
        (Scheme h x y p group ∧ written = 'h' :: 't' :: 't' :: 'p' :: (group ++ separator) ∧
          length = 6 + group.length) ∧ h :: x :: y :: p :: (group ++ separator) <+: whole := by
      constructor
      · rintro ⟨behind, scheme, rfl, shape⟩
        exact ⟨⟨scheme, shape⟩, behind, rfl⟩
      · rintro ⟨⟨scheme, shape⟩, behind, rfl⟩
        exact ⟨behind, scheme, rfl, shape⟩
    rw [begins, begins]
    refine and_congr_right fun shape => prefix_separated_iff fun member => ?_
    exact absurd (shape.1.subset.1 member) (by decide)
  · obtain ⟨_, _, _, _, group, behind, -, shape, -, rfl⟩ := hxxpRule_eq_some_iff.mp taken
    have lengths := congrArg List.length shape
    simp only [List.length_cons, List.length_append, separator, List.length_nil] at lengths
    omega

theorem length_subHxxp (text : List Char) : (subHxxp text).length = text.length := by
  unfold subHxxp
  induction text using rewrite_induction hxxpRule with
  | nil => rw [rewriteAll_nil]
  | kept first rest idle ih => rw [rewriteAll_kept idle, List.length_cons, List.length_cons, ih]
  | taken first rest written more applied ih =>
    have split : first :: rest = (first :: rest).take (more + 1) ++ rest.drop more := by simp
    rw [rewriteAll_taken applied, List.length_append, ih]
    obtain ⟨h, x, y, p, group, behind, -, shape, rfl, rfl⟩ := hxxpRule_eq_some_iff.mp applied
    conv_rhs => rw [split, shape, take_scheme]
    rw [List.length_append]
    rfl

/-! ## Dots -/

/-- The needles of `DEFANG_REPLACEMENTS`. -/
def needles : List (List Char) := defangReplacements.map Prod.fst

theorem refang_eq (text : List Char) : refang text = subHxxp (replaceEach needles '.' text) := rfl

/-- Where a notation that is left in the result can come from. -/
theorem origins_needles : origins needles '.' needles = nestedDots := by decide

theorem needles_foreign : ∀ needle ∈ needles,
    needle ≠ [] ∧ (∀ head ∈ needle.head?, head ∉ schemeChars) ∧ 'h' ∉ needle ∧ 'H' ∉ needle := by
  simp [needles, defangReplacements, schemeChars]

/-- What is left in the result of some of the notations. -/
theorem exists_left_iff {parts : List (List Char)} (known : parts ⊆ needles) (apart : AllApart '.' parts needles)
    (text : List Char) :
    (∃ part ∈ parts, part <:+: refang text) ↔ ∃ origin ∈ origins needles '.' parts, origin <:+: text := by
  rw [← exists_infix_replaceEach_iff text apart, refang_eq]
  refine exists_congr fun needle => and_congr_right fun member => ?_
  obtain ⟨nonempty, first, lower, upper⟩ := needles_foreign needle (known member)
  cases needle with
  | nil => exact absurd rfl nonempty
  | cons head part =>
    rw [List.mem_cons, not_or] at lower upper
    exact infix_subHxxp_iff (first head rfl) lower.2 upper.2

/-- Only the dot in brackets and the dot in parentheses can be left. -/
theorem left_needle {needle : List Char} (member : needle ∈ needles) (left : needle <:+: refang text) :
    needle = "[.]".toList ∨ needle = "(.)".toList := by
  have others : needle ∉ needles.drop 2 := by
    intro other
    obtain ⟨origin, none, -⟩ := (exists_left_iff (List.drop_subset 2 needles) (by decide) text).mp ⟨needle, other, left⟩
    rw [show origins needles '.' (needles.drop 2) = [] by decide] at none
    cases none
  rw [show needles = "[.]".toList :: "(.)".toList :: needles.drop 2 by rfl] at member
  simp only [List.mem_cons] at member
  rcases member with first | second | later
  · exact Or.inl first
  · exact Or.inr second
  · exact absurd later others

theorem clean_refang_iff (text : List Char) :
    Clean (refang text) ↔ ¬∃ nested ∈ nestedDots, nested <:+: text := by
  rw [← origins_needles, ← exists_left_iff (List.Subset.refl needles) (by decide)]
  constructor
  · rintro clean ⟨needle, member, found⟩
    obtain ⟨pair, listed, rfl⟩ := List.mem_map.mp member
    exact clean.dots pair listed found
  · intro absent
    refine ⟨fun pair listed found => absent ⟨pair.1, List.mem_map_of_mem listed, found⟩, ?_⟩
    exact hxxpRule_subHxxp _

theorem refang_eq_self (clean : Clean text) : refang text = text := by
  have dots : replaceEach needles '.' text = text := by
    refine replaceEach_eq_self (fun needle member => ?_) '.'
    obtain ⟨pair, listed, rfl⟩ := List.mem_map.mp member
    exact clean.dots pair listed
  rw [refang_eq, dots]
  exact rewriteAll_eq_self clean.schemes

/-- A dot in brackets or parentheses is replaced by one character. -/
theorem length_refang_lt (found : "[.]".toList <:+: text ∨ "(.)".toList <:+: text) :
    (refang text).length < text.length := by
  have others : ∀ count, ∀ needle ∈ needles.drop count, needle ≠ [] := fun _ needle member =>
    (needles_foreign needle (List.mem_of_mem_drop member)).1
  have first : needles = "[.]".toList :: needles.drop 1 := rfl
  have second : needles.drop 1 = "(.)".toList :: needles.drop 2 := rfl
  rw [refang_eq, length_subHxxp, first]
  by_cases bracketed : "[.]".toList <:+: text
  · exact length_replaceEach_cons_lt (by decide) (others 1) bracketed
  · rw [replaceEach_cons_of_absent bracketed, second]
    exact length_replaceEach_cons_lt (by decide) (others 2) (found.resolve_left bracketed)

/-- A second pass changes nothing exactly if the first one has left nothing. -/
theorem refang_refang_iff (text : List Char) : refang (refang text) = refang text ↔ Clean (refang text) := by
  constructor
  · intro same
    refine ⟨fun pair listed found => ?_, hxxpRule_subHxxp _⟩
    have shorter : (refang (refang text)).length < (refang text).length := by
      refine length_refang_lt ?_
      rcases left_needle (List.mem_map_of_mem listed) found with bracketed | parenthesised
      · exact Or.inl (bracketed ▸ found)
      · exact Or.inr (parenthesised ▸ found)
    rw [same] at shorter
    exact absurd shorter (lt_irrefl _)
  · exact refang_eq_self

/-- The result is free of the notations, and stays as it is, exactly if no dot was nested. -/
theorem refang_complete_iff (text : List Char) :
    (Clean (refang text) ↔ ¬∃ nested ∈ nestedDots, nested <:+: text) ∧
    (refang (refang text) = refang text ↔ ¬∃ nested ∈ nestedDots, nested <:+: text) :=
  ⟨clean_refang_iff text, (refang_refang_iff text).trans (clean_refang_iff text)⟩

/-- The dot of another script is undone after the brackets around it. -/
theorem bracketed_ideographic_dot_left :
    refang "hxxp://evil[。]io".toList = "http://evil[.]io".toList ∧
    ¬Clean (refang "hxxp://evil[。]io".toList) ∧
    refang (refang "hxxp://evil[。]io".toList) = "http://evil.io".toList := by
  refine ⟨by decide, ?_, by decide⟩
  rw [clean_refang_iff, not_not]
  exact ⟨"[。]".toList, by decide, by decide⟩

end
end TransactionMonitoring.Refang
