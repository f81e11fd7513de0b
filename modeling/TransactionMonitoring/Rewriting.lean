import Mathlib.Data.List.Infix

/-! Rewriting a text from left to right.

A rule looks at what is left of the text and says what is written in place of its first
elements, or nothing.  Where it applies the scan goes on behind what was taken, otherwise it
copies one element; what is written is not looked at again.  Replacing a part of the text is
the rule that applies where the part begins, and what a text contains after parts of it have
been replaced by one element is told from what it contained before.
-/
namespace TransactionMonitoring.Rewriting

universe u
variable {α : Type u}

/-- What is written, and how many elements are taken besides the first. -/
abbrev Rule (α : Type u) := List α → Option (List α × Nat)

/-- The scan, with so many elements still to be passed over. -/
def scan (rule : Rule α) : Nat → List α → List α
  | _, [] => []
  | skip + 1, _ :: rest => scan rule skip rest
  | 0, first :: rest =>
      match rule (first :: rest) with
      | some (written, more) => written ++ scan rule more rest
      | none => first :: scan rule 0 rest

def rewriteAll (rule : Rule α) (text : List α) : List α := scan rule 0 text

section
variable {rule : Rule α} {first : α} {rest text written : List α} {more : Nat}

theorem scan_eq (rule : Rule α) (skip : Nat) (text : List α) :
    scan rule skip text = rewriteAll rule (text.drop skip) := by
  induction text generalizing skip with
  | nil => simp [rewriteAll, scan]
  | cons first rest ih =>
    cases skip with
    | zero => rfl
    | succ skip => rw [List.drop_succ_cons, ← ih, scan]

@[simp] theorem rewriteAll_nil (rule : Rule α) : rewriteAll rule [] = [] := by
  simp [rewriteAll, scan]

theorem rewriteAll_kept (kept : rule (first :: rest) = none) :
    rewriteAll rule (first :: rest) = first :: rewriteAll rule rest := by
  simp [rewriteAll, scan, kept]

theorem rewriteAll_taken (taken : rule (first :: rest) = some (written, more)) :
    rewriteAll rule (first :: rest) = written ++ rewriteAll rule (rest.drop more) := by
  rw [← scan_eq]
  simp [rewriteAll, scan, taken]

/-- What holds of the empty text, and of a text if it holds where the scan goes on, holds. -/
theorem rewrite_induction (rule : Rule α) {motive : List α → Prop} (nil : motive [])
    (kept : ∀ first rest, rule (first :: rest) = none → motive rest → motive (first :: rest))
    (taken : ∀ first rest written more, rule (first :: rest) = some (written, more) →
      motive (rest.drop more) → motive (first :: rest)) (text : List α) : motive text := by
  induction size : text.length using Nat.strong_induction_on generalizing text with
  | _ size ih =>
    cases text with
    | nil => exact nil
    | cons first rest =>
      subst size
      cases found : rule (first :: rest) with
      | none => exact kept first rest found (ih rest.length (by simp) rest rfl)
      | some result =>
        refine taken first rest result.1 result.2 found (ih (rest.drop result.2).length ?_ _ rfl)
        rw [List.length_drop, List.length_cons]
        omega

/-- A text to which the rule applies nowhere is copied. -/
theorem rewriteAll_eq_self (idle : ∀ tail, tail <:+ text → rule tail = none) : rewriteAll rule text = text := by
  induction text with
  | nil => exact rewriteAll_nil rule
  | cons first rest ih =>
    rw [rewriteAll_kept (idle _ List.suffix_rfl), ih]
    intro tail suffix
    exact idle tail (suffix.trans (List.suffix_cons first rest))

/-- A part that is found behind no element the rule writes first is copied as it stands. -/
theorem prefix_of_prefix_rewriteAll {part : List α}
    (foreign : ∀ first rest written more, rule (first :: rest) = some (written, more) →
      ∃ new others, written = new :: others ∧ new ∉ part)
    (found : part <+: rewriteAll rule text) : part <+: text := by
  induction part generalizing text with
  | nil => exact List.nil_prefix
  | cons head tail ih =>
    cases text with
    | nil => rwa [rewriteAll_nil] at found
    | cons first rest =>
      cases applied : rule (first :: rest) with
      | none =>
        rw [rewriteAll_kept applied, List.cons_prefix_cons] at found
        refine List.cons_prefix_cons.mpr ⟨found.1, ih ?_ found.2⟩
        intro first rest written more applied
        obtain ⟨other, others, shape, absent⟩ := foreign first rest written more applied
        exact ⟨other, others, shape, fun member => absent (List.mem_cons_of_mem _ member)⟩
      | some result =>
        obtain ⟨other, others, shape, absent⟩ := foreign first rest result.1 result.2 applied
        rw [rewriteAll_taken applied, shape, List.cons_append, List.cons_prefix_cons] at found
        exact absurd (found.1 ▸ List.mem_cons_self) absent

/-- A part whose first element does not occur before comes after. -/
theorem infix_behind {part before behind : List α} (foreign : first ∉ before)
    (found : first :: part <:+: before ++ behind) : first :: part <:+: behind := by
  induction before with
  | nil => exact found
  | cons head rest ih =>
    rw [List.mem_cons, not_or] at foreign
    rw [List.cons_append, List.infix_cons_iff] at found
    rcases found with here | later
    · exact absurd (List.cons_prefix_cons.mp here).1 foreign.1
    · exact ih foreign.2 later

/-- A part that has no separator begins a text before one exactly if it begins the whole. -/
theorem prefix_separated_iff {part before behind : List α} {separator : α} (foreign : separator ∉ part) :
    part <+: before ++ separator :: behind ↔ part <+: before := by
  refine ⟨fun begins => ?_, fun begins => begins.trans (List.prefix_append _ _)⟩
  rcases List.prefix_or_prefix_of_prefix begins (List.prefix_append before _) with short | ⟨rest, rfl⟩
  · exact short
  · rw [List.prefix_append_right_inj] at begins
    cases rest with
    | nil => rw [List.append_nil]
    | cons head others =>
      obtain ⟨rfl, -⟩ := List.cons_prefix_cons.mp begins
      exact absurd (List.mem_append_right _ List.mem_cons_self) foreign

/-- A rule that does not look past a separator rewrites what stands before and behind it. -/
theorem rewriteAll_separated {separator : α}
    (bounded : ∀ text more, rule (text ++ separator :: more) = rule text) (empty : rule [] = none)
    (within : ∀ first rest written more, rule (first :: rest) = some (written, more) → more ≤ rest.length)
    (text more : List α) :
    rewriteAll rule (text ++ separator :: more) = rewriteAll rule text ++ separator :: rewriteAll rule more := by
  refine @rewrite_induction α rule (fun text => rewriteAll rule (text ++ separator :: more) =
    rewriteAll rule text ++ separator :: rewriteAll rule more) ?_ ?_ ?_ text
  · rw [List.nil_append, rewriteAll_kept ((bounded [] more).trans empty), rewriteAll_nil, List.nil_append]
  · intro first rest kept ih
    have same := bounded (first :: rest) more
    rw [List.cons_append] at same ⊢
    rw [rewriteAll_kept kept, rewriteAll_kept (same.trans kept), ih, List.cons_append]
  · intro first rest written length taken ih
    have same := bounded (first :: rest) more
    rw [List.cons_append] at same ⊢
    rw [rewriteAll_taken taken, rewriteAll_taken (same.trans taken),
      List.drop_append_of_le_length (within first rest written length taken), ih, List.append_assoc]

/-- What begins the text is copied, if the rule applies at none of its elements. -/
theorem prefix_rewriteAll_of_prefix {part : List α}
    (foreign : ∀ first rest written more, rule (first :: rest) = some (written, more) → first ∉ part)
    (begins : part <+: text) : part <+: rewriteAll rule text := by
  induction part generalizing text with
  | nil => exact List.nil_prefix
  | cons head tail ih =>
    cases text with
    | nil => exact absurd begins (by simp)
    | cons first rest =>
      obtain ⟨rfl, behind⟩ := List.cons_prefix_cons.mp begins
      cases applied : rule (head :: rest) with
      | none =>
        rw [rewriteAll_kept applied]
        refine List.cons_prefix_cons.mpr ⟨rfl, ih ?_ behind⟩
        intro first rest written more applied
        exact fun member => foreign first rest written more applied (List.mem_cons_of_mem _ member)
      | some result => exact absurd List.mem_cons_self (foreign head rest result.1 result.2 applied)

/-- A part that has nothing to do with what the rule takes and writes is in the result exactly
if it is in the text. -/
theorem infix_rewriteAll_iff {head : α} {part : List α}
    (apart : ∀ first rest written more, rule (first :: rest) = some (written, more) →
      first ∉ head :: part ∧ (∃ new others, written = new :: others ∧ new ∉ head :: part) ∧ head ∉ written ∧
        head ∉ (first :: rest).take (more + 1)) :
    head :: part <:+: rewriteAll rule text ↔ head :: part <:+: text := by
  have begins : ∀ {text : List α}, head :: part <+: rewriteAll rule text ↔ head :: part <+: text := by
    intro text
    constructor
    · refine prefix_of_prefix_rewriteAll fun first rest written more applied => ?_
      exact (apart first rest written more applied).2.1
    · refine prefix_rewriteAll_of_prefix fun first rest written more applied => ?_
      exact (apart first rest written more applied).1
  induction text using rewrite_induction rule with
  | nil => rw [rewriteAll_nil]
  | kept first rest idle ih =>
    rw [rewriteAll_kept idle, List.infix_cons_iff, List.infix_cons_iff, ← rewriteAll_kept idle]
    exact or_congr begins ih
  | taken first rest written more applied ih =>
    obtain ⟨-, -, unwritten, untaken⟩ := apart first rest written more applied
    have split : first :: rest = (first :: rest).take (more + 1) ++ rest.drop more := by simp
    rw [rewriteAll_taken applied]
    constructor
    · intro found
      rw [split]
      exact (ih.mp (infix_behind unwritten found)).trans (List.suffix_append _ _).isInfix
    · intro found
      rw [split] at found
      exact (ih.mpr (infix_behind untaken found)).trans (List.suffix_append _ _).isInfix

end

/-! ## Replacing a part -/

variable [DecidableEq α]

def replaceRule (needle repl : List α) : Rule α := fun text =>
  if needle <+: text then some (repl, needle.length - 1) else none

/-- `str.replace`, for a needle that is not empty. -/
def replace (needle repl text : List α) : List α := rewriteAll (replaceRule needle repl) text

/-- The parts that `part` can come from when `needle` is replaced by `mark`. -/
def expand (needle : List α) (mark : α) : List α → List (List α)
  | [] => [[]]
  | first :: rest => (expand needle mark rest).flatMap fun tail =>
      (if needle <+: first :: tail then [] else [first :: tail]) ++
      (if first = mark then [needle ++ tail] else [])

/-- No occurrence of the needle can reach into the part or out of it. -/
def Apart (needle part : List α) : Prop :=
  (∀ first ∈ part.head?, first ∉ needle.tail) ∧
  ∀ tail ∈ part.tails, tail ≠ [] → tail <+: needle → needle <+: tail

instance (needle part : List α) : Decidable (Apart needle part) :=
  inferInstanceAs (Decidable (_ ∧ ∀ tail ∈ part.tails, _ → _ → _))

section
variable {needle part origin text : List α} {mark : α}

theorem replace_eq_self (absent : ¬needle <:+: text) (repl : List α) : replace needle repl text = text := by
  refine rewriteAll_eq_self fun tail suffix => ?_
  have here : ¬needle <+: tail := fun found => absent (found.isInfix.trans suffix.isInfix)
  simp [replaceRule, here]

theorem replace_separated {separator : α} (foreign : separator ∉ needle) (nonempty : needle ≠ []) (repl : List α)
    (text more : List α) : replace needle repl (text ++ separator :: more) =
      replace needle repl text ++ separator :: replace needle repl more := by
  refine rewriteAll_separated (fun text more => ?_) (if_neg (by simpa using nonempty)) ?_ text more
  · unfold replaceRule
    simp only [prefix_separated_iff foreign]
  · intro first rest written more taken
    unfold replaceRule at taken
    split at taken
    · rename_i begins
      obtain ⟨-, rfl⟩ := Prod.mk.inj (Option.some.inj taken)
      have short := begins.length_le
      rw [List.length_cons] at short
      omega
    · cases taken

theorem replace_kept {first : α} {rest repl : List α} (here : ¬needle <+: first :: rest) :
    replace needle repl (first :: rest) = first :: replace needle repl rest :=
  rewriteAll_kept (by simp [replaceRule, here])

theorem replace_append (nonempty : needle ≠ []) (repl rest : List α) :
    replace needle repl (needle ++ rest) = repl ++ replace needle repl rest := by
  cases needle with
  | nil => exact absurd rfl nonempty
  | cons first others =>
    have applies : replaceRule (first :: others) repl (first :: (others ++ rest)) = some (repl, others.length) := by
      simp [replaceRule]
    rw [replace, List.cons_append, rewriteAll_taken applies, List.drop_left]
    rfl

/-- The scan of `replace`: an element that begins no needle, or a needle. -/
theorem replace_induction (nonempty : needle ≠ []) {motive : List α → Prop} (nil : motive [])
    (kept : ∀ first rest, ¬needle <+: first :: rest → motive rest → motive (first :: rest))
    (taken : ∀ rest, motive rest → motive (needle ++ rest)) (text : List α) : motive text := by
  refine rewrite_induction (replaceRule needle []) nil ?_ ?_ text
  · intro first rest idle held
    refine kept first rest (fun here => ?_) held
    simp [replaceRule, here] at idle
  · intro first rest written more applied held
    by_cases here : needle <+: first :: rest
    · obtain ⟨behind, split⟩ := here
      rw [← split]
      refine taken behind ?_
      simp only [replaceRule, ← split, List.prefix_append, if_true, Option.some.injEq, Prod.mk.injEq] at applied
      cases needle with
      | nil => exact absurd rfl nonempty
      | cons head tail =>
        obtain ⟨-, rfl⟩ := applied
        obtain ⟨-, rfl⟩ := List.cons.inj split
        simpa using held
    · simp [replaceRule, here] at applied

theorem mem_expand_cons {first : α} {rest : List α} :
    origin ∈ expand needle mark (first :: rest) ↔ ∃ tail ∈ expand needle mark rest,
      (¬needle <+: first :: tail ∧ origin = first :: tail) ∨ (first = mark ∧ origin = needle ++ tail) := by
  simp only [expand, List.mem_flatMap, List.mem_append]
  refine exists_congr fun tail => and_congr_right fun _ => or_congr ?_ ?_
  · split
    · rename_i here
      simp [here]
    · rename_i here
      simp [here]
  · split
    · rename_i same
      simp [same]
    · rename_i other
      simp [other]

/-- What the result begins with comes from what the text begins with. -/
theorem origin_of_prefix (nonempty : needle ≠ []) (found : part <+: replace needle [mark] text) :
    ∃ origin ∈ expand needle mark part, origin <+: text := by
  induction part generalizing text with
  | nil => exact ⟨[], by simp [expand], List.nil_prefix⟩
  | cons head tail ih =>
    cases text with
    | nil => simp [replace] at found
    | cons first rest =>
      by_cases here : needle <+: first :: rest
      · obtain ⟨behind, split⟩ := here
        rw [← split, replace_append nonempty, List.singleton_append, List.cons_prefix_cons] at found
        obtain ⟨origin, member, begins⟩ := ih found.2
        refine ⟨needle ++ origin, mem_expand_cons.mpr ⟨origin, member, Or.inr ⟨found.1, rfl⟩⟩, ?_⟩
        rw [← split]
        exact (List.prefix_append_right_inj needle).mpr begins
      · rw [replace_kept here, List.cons_prefix_cons] at found
        obtain ⟨rfl, found⟩ := found
        obtain ⟨origin, member, begins⟩ := ih found
        have begins : head :: origin <+: head :: rest := List.cons_prefix_cons.mpr ⟨rfl, begins⟩
        exact ⟨head :: origin,
          mem_expand_cons.mpr ⟨origin, member, Or.inl ⟨fun inner => here (inner.trans begins), rfl⟩⟩,
          begins⟩

/-- And what the text begins with is seen in the result, if no needle reaches out of it. -/
theorem prefix_of_origin (nonempty : needle ≠ []) (member : origin ∈ expand needle mark part)
    (closed : ∀ tail, tail <:+ origin → tail ≠ [] → tail <+: needle → needle <+: tail)
    (begins : origin <+: text) : part <+: replace needle [mark] text := by
  induction part generalizing origin text with
  | nil => exact List.nil_prefix
  | cons head rest ih =>
    obtain ⟨tail, below, ⟨apart, rfl⟩ | ⟨rfl, rfl⟩⟩ := mem_expand_cons.mp member
    · have closed' : ∀ other, other <:+ tail → other ≠ [] → other <+: needle → needle <+: other :=
        fun other suffix => closed other (suffix.trans (List.suffix_cons head tail))
      obtain ⟨behind, rfl⟩ := begins
      have here : ¬needle <+: head :: (tail ++ behind) := by
        intro found
        rcases List.prefix_or_prefix_of_prefix found (List.prefix_append (head :: tail) behind) with inner | outer
        · exact apart inner
        · exact apart (closed _ List.suffix_rfl (List.cons_ne_nil _ _) outer)
      rw [List.cons_append, replace_kept here]
      exact List.cons_prefix_cons.mpr ⟨rfl, ih below closed' (List.prefix_append tail behind)⟩
    · have closed' : ∀ other, other <:+ tail → other ≠ [] → other <+: needle → needle <+: other :=
        fun other suffix => closed other (suffix.trans (List.suffix_append needle tail))
      obtain ⟨behind, rfl⟩ := begins
      rw [List.append_assoc, replace_append nonempty, List.singleton_append]
      exact List.cons_prefix_cons.mpr ⟨rfl, ih below closed' (List.prefix_append tail behind)⟩

/-- A part of the result comes from a part of the text. -/
theorem origin_of_infix (nonempty : needle ≠ []) (found : part <:+: replace needle [mark] text) :
    ∃ origin ∈ expand needle mark part, origin <:+: text := by
  induction text using replace_induction nonempty with
  | nil =>
    obtain ⟨origin, member, begins⟩ := origin_of_prefix nonempty
      (List.eq_nil_of_infix_nil found ▸ List.nil_prefix : part <+: replace needle [mark] [])
    exact ⟨origin, member, begins.isInfix⟩
  | kept first rest here ih =>
    rw [replace_kept here, List.infix_cons_iff, ← replace_kept here] at found
    rcases found with begins | later
    · obtain ⟨origin, member, begins⟩ := origin_of_prefix nonempty begins
      exact ⟨origin, member, begins.isInfix⟩
    · obtain ⟨origin, member, within⟩ := ih later
      exact ⟨origin, member, List.infix_cons within⟩
  | taken rest ih =>
    have whole := replace_append nonempty [mark] rest
    rw [whole, List.singleton_append, List.infix_cons_iff] at found
    rcases found with begins | later
    · rw [← List.singleton_append, ← whole] at begins
      obtain ⟨origin, member, begins⟩ := origin_of_prefix nonempty begins
      exact ⟨origin, member, begins.isInfix⟩
    · obtain ⟨origin, member, within⟩ := ih later
      exact ⟨origin, member, within.trans (List.suffix_append needle rest).isInfix⟩

/-- And a part of the text that no needle reaches into or out of is seen in the result. -/
theorem infix_of_origin (nonempty : needle ≠ []) (member : origin ∈ expand needle mark part)
    (apart : Apart needle origin) (found : origin <:+: text) : part <:+: replace needle [mark] text := by
  have closed : ∀ tail, tail <:+ origin → tail ≠ [] → tail <+: needle → needle <+: tail :=
    fun tail suffix => apart.2 tail ((List.mem_tails tail origin).mpr suffix)
  have begun : ∀ {text : List α}, origin <+: text → part <:+: replace needle [mark] text :=
    fun begins => (prefix_of_origin nonempty member closed begins).isInfix
  induction text using replace_induction nonempty with
  | nil =>
    obtain rfl := List.eq_nil_of_infix_nil found
    exact begun List.nil_prefix
  | kept first rest here ih =>
    rcases List.infix_cons_iff.mp found with begins | later
    · exact begun begins
    · rw [replace_kept here]
      exact List.infix_cons (ih later)
  | taken rest ih =>
    cases origin with
    | nil => exact begun List.nil_prefix
    | cons first others =>
      cases needle with
      | nil => exact absurd rfl nonempty
      | cons head inner =>
        rcases List.infix_cons_iff.mp (List.cons_append ▸ found) with begins | later
        · exact begun begins
        · have foreign : first ∉ inner := apart.1 first rfl
          rw [replace_append nonempty]
          exact (ih (infix_behind foreign later)).trans (List.suffix_append [mark] _).isInfix

end

/-! ## Replacing one part after another -/

/-- The needles replaced by the mark, one after the other. -/
def replaceEach (needles : List (List α)) (mark : α) (text : List α) : List α :=
  needles.foldl (fun text needle => replace needle [mark] text) text

/-- The parts that the given parts can come from. -/
def origins (needles : List (List α)) (mark : α) (parts : List (List α)) : List (List α) :=
  needles.foldr (fun needle parts => parts.flatMap (expand needle mark)) parts

/-- No needle can reach into or out of a part as it is when the needle is replaced. -/
def AllApart (mark : α) (parts : List (List α)) : List (List α) → Prop
  | [] => True
  | needle :: rest =>
      (needle ≠ [] ∧ ∀ part ∈ origins (needle :: rest) mark parts, Apart needle part) ∧ AllApart mark parts rest

instance decidableAllApart (mark : α) (parts : List (List α)) :
    (needles : List (List α)) → Decidable (AllApart mark parts needles)
  | [] => isTrue trivial
  | needle :: rest =>
      have := decidableAllApart mark parts rest
      inferInstanceAs (Decidable ((needle ≠ [] ∧ ∀ part ∈ origins (needle :: rest) mark parts, Apart needle part) ∧
        AllApart mark parts rest))

/-- The result contains one of the parts exactly if the text contains one they can come from. -/
theorem exists_infix_replaceEach_iff {mark : α} {parts needles : List (List α)} (text : List α)
    (apart : AllApart mark parts needles) :
    (∃ part ∈ parts, part <:+: replaceEach needles mark text) ↔
      ∃ origin ∈ origins needles mark parts, origin <:+: text := by
  induction needles generalizing text with
  | nil => exact Iff.rfl
  | cons needle rest ih =>
    obtain ⟨⟨nonempty, here⟩, apart⟩ := apart
    rw [replaceEach, List.foldl_cons, ← replaceEach, ih _ apart]
    simp only [origins, List.foldr_cons, List.mem_flatMap] at here ⊢
    constructor
    · rintro ⟨part, member, found⟩
      obtain ⟨origin, expanded, found⟩ := origin_of_infix nonempty found
      exact ⟨origin, ⟨part, member, expanded⟩, found⟩
    · rintro ⟨origin, ⟨part, member, expanded⟩, found⟩
      exact ⟨part, member, infix_of_origin nonempty expanded (here origin ⟨part, member, expanded⟩) found⟩

theorem replaceEach_eq_self {needles : List (List α)} {text : List α} (absent : ∀ needle ∈ needles, ¬needle <:+: text)
    (mark : α) : replaceEach needles mark text = text := by
  induction needles with
  | nil => rfl
  | cons needle rest ih =>
    obtain ⟨here, absent⟩ := List.forall_mem_cons.mp absent
    rw [replaceEach, List.foldl_cons, replace_eq_self here]
    exact ih absent

theorem length_replace_le {needle text : List α} {mark : α} (nonempty : needle ≠ []) :
    (replace needle [mark] text).length ≤ text.length := by
  have long : 0 < needle.length := List.length_pos_iff.mpr nonempty
  induction text using replace_induction nonempty with
  | nil => simp [replace]
  | kept first rest here ih =>
    rw [replace_kept here, List.length_cons, List.length_cons]
    omega
  | taken rest ih =>
    rw [replace_append nonempty, List.length_append, List.length_append, List.length_singleton]
    omega

theorem length_replace_lt {needle text : List α} {mark : α} (long : 1 < needle.length) (found : needle <:+: text) :
    (replace needle [mark] text).length < text.length := by
  have nonempty : needle ≠ [] := List.length_pos_iff.mp (by omega)
  induction text using replace_induction nonempty with
  | nil =>
    rw [List.eq_nil_of_infix_nil found] at long
    simp at long
  | kept first rest here ih =>
    have later := ih ((List.infix_cons_iff.mp found).resolve_left here)
    rw [replace_kept here, List.length_cons, List.length_cons]
    omega
  | taken rest ih =>
    have behind := @length_replace_le _ _ needle rest mark nonempty
    rw [replace_append nonempty, List.length_append, List.length_append, List.length_singleton]
    omega

theorem length_replaceEach_le {needles : List (List α)} (nonempty : ∀ needle ∈ needles, needle ≠ []) (mark : α)
    (text : List α) : (replaceEach needles mark text).length ≤ text.length := by
  induction needles generalizing text with
  | nil => exact le_rfl
  | cons needle rest ih =>
    obtain ⟨here, nonempty⟩ := List.forall_mem_cons.mp nonempty
    exact (ih nonempty _).trans (length_replace_le here)

/-- A part of two characters or more that is replaced first leaves less, whatever is replaced after it. -/
theorem length_replaceEach_cons_lt {needle text : List α} {rest : List (List α)} {mark : α}
    (long : 1 < needle.length) (nonempty : ∀ needle ∈ rest, needle ≠ []) (found : needle <:+: text) :
    (replaceEach (needle :: rest) mark text).length < text.length :=
  (length_replaceEach_le nonempty mark _).trans_lt (length_replace_lt long found)

theorem replaceEach_cons_of_absent {needle text : List α} {rest : List (List α)} {mark : α}
    (absent : ¬needle <:+: text) : replaceEach (needle :: rest) mark text = replaceEach rest mark text := by
  rw [replaceEach, List.foldl_cons, replace_eq_self absent]
  rfl

end TransactionMonitoring.Rewriting
