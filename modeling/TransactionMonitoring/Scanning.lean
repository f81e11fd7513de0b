import Mathlib.Data.List.Infix

/-! Finding all matches of a pattern from left to right.

A pattern is asked at each element, and may look at the element before.  Where it answers, the
scan goes on behind the match.  What is found in a text is found around a separator that no match
contains, and lies in what is found once something is appended, if more text can only stretch a
match that reaches the end.
-/
namespace TransactionMonitoring.Scanning

universe u
variable {α : Type u}

/-- How many elements are matched besides the first. -/
abbrev Pattern (α : Type u) := Option α → List α → Option ℕ

/-- The matches, with so many elements still to be passed over. -/
def scan (pattern : Pattern α) : Option α → ℕ → List α → List (List α)
  | _, _, [] => []
  | _, skip + 1, first :: rest => scan pattern (some first) skip rest
  | before, 0, first :: rest =>
      match pattern before (first :: rest) with
      | some more => (first :: rest).take (more + 1) :: scan pattern (some first) more rest
      | none => scan pattern (some first) 0 rest

/-- The matches that do not overlap, each the first behind the one before it. -/
def findAll (pattern : Pattern α) (text : List α) : List (List α) := scan pattern none 0 text

/-- Each text of the first list is a prefix of one of the second. -/
def Covers (found later : List (List α)) : Prop := ∀ hit ∈ found, ∃ longer ∈ later, hit <+: longer

theorem Covers.refl (found : List (List α)) : Covers found found := fun hit member => ⟨hit, member, List.prefix_rfl⟩

theorem Covers.trans {found later last : List (List α)} (one : Covers found later) (two : Covers later last) :
    Covers found last := by
  intro hit member
  obtain ⟨longer, found, part⟩ := one hit member
  obtain ⟨longest, found, whole⟩ := two longer found
  exact ⟨longest, found, part.trans whole⟩

theorem Covers.of_subset {found later : List (List α)} (among : found ⊆ later) : Covers found later :=
  fun hit member => ⟨hit, among member, List.prefix_rfl⟩

theorem Covers.append {found later more most : List (List α)} (one : Covers found later) (two : Covers more most) :
    Covers (found ++ more) (later ++ most) := by
  intro hit member
  rcases List.mem_append.mp member with member | member
  · obtain ⟨longer, found, part⟩ := one hit member
    exact ⟨longer, List.mem_append_left _ found, part⟩
  · obtain ⟨longer, found, part⟩ := two hit member
    exact ⟨longer, List.mem_append_right _ found, part⟩

section
variable {pattern : Pattern α} {separator first : α} {rest text more : List α} {before : Option α} {skip : ℕ}

theorem scan_matched {length : ℕ} (matched : pattern before (first :: rest) = some length) :
    scan pattern before 0 (first :: rest) =
      (first :: rest).take (length + 1) :: scan pattern (some first) length rest := by
  rw [scan, matched]

theorem scan_passed (passed : pattern before (first :: rest) = none) :
    scan pattern before 0 (first :: rest) = scan pattern (some first) 0 rest := by
  rw [scan, passed]

/-! ## Separators -/

/-- No match goes past the separator, or begins behind it otherwise than at the beginning of a text. -/
structure Bounded (pattern : Pattern α) (separator : α) : Prop where
  behind : ∀ before text more, pattern before (text ++ separator :: more) = pattern before text
  empty : ∀ before, pattern before [] = none
  fresh : ∀ text, pattern (some separator) text = pattern none text
  within : ∀ before text length, pattern before text = some length → length < text.length

theorem Bounded.scan_append (bounded : Bounded pattern separator) (short : skip ≤ text.length) :
    scan pattern before skip (text ++ separator :: more) = scan pattern before skip text ++ findAll pattern more := by
  induction text generalizing before skip with
  | nil =>
    obtain rfl : skip = 0 := Nat.le_zero.mp short
    have passed : pattern before (separator :: more) = none := (bounded.behind before [] more).trans (bounded.empty _)
    rw [List.nil_append, scan_passed passed, scan, List.nil_append, findAll]
    cases more with
    | nil => rfl
    | cons next others => rw [scan, scan, bounded.fresh]
  | cons first rest ih =>
    cases skip with
    | succ skip => exact ih (Nat.le_of_succ_le_succ short)
    | zero =>
      have same := bounded.behind before (first :: rest) more
      rw [List.cons_append] at same ⊢
      cases matched : pattern before (first :: rest) with
      | none =>
        rw [scan_passed matched, scan_passed (same.trans matched)]
        exact ih (Nat.zero_le _)
      | some length =>
        have within := bounded.within before _ length matched
        rw [scan_matched matched, scan_matched (same.trans matched), ih (Nat.le_of_lt_succ within), List.cons_append]
        exact congrArg (· :: _) (List.take_append_of_le_length (Nat.succ_le_of_lt within))

theorem Bounded.findAll_append (bounded : Bounded pattern separator) (text more : List α) :
    findAll pattern (text ++ separator :: more) = findAll pattern text ++ findAll pattern more :=
  bounded.scan_append (Nat.zero_le _)

/-! ## Appending -/

/-- More text leaves a match as it is, or stretches it past an end behind which nothing else was matched. -/
structure Extensible (pattern : Pattern α) : Prop where
  grows : ∀ before text more, text ≠ [] → pattern before (text ++ more) = pattern before text ∨
    ∃ length, pattern before (text ++ more) = some length ∧ text.length ≤ length + 1 ∧
      ∀ place behind later, 0 < place → pattern behind (text.drop place) = some later →
        ∃ own, pattern before text = some own ∧ place < own + 1
  within : ∀ before text length, pattern before text = some length → length < text.length

theorem scan_eq_nil {behind : Option α}
    (quiet : ∀ place before, skip ≤ place → pattern before (text.drop place) = none) :
    scan pattern behind skip text = [] := by
  induction text generalizing skip behind with
  | nil => rw [scan]
  | cons first rest ih =>
    cases skip with
    | succ skip => exact ih fun place before late => quiet (place + 1) before (Nat.succ_le_succ late)
    | zero =>
      rw [scan_passed (quiet 0 behind (Nat.le_refl 0))]
      exact ih fun place before _ => quiet (place + 1) before (Nat.zero_le _)

theorem Extensible.scan_covers (extensible : Extensible pattern) (short : skip ≤ text.length) :
    Covers (scan pattern before skip text) (scan pattern before skip (text ++ more)) := by
  induction text generalizing before skip with
  | nil => exact fun _ member => by simp [scan] at member
  | cons first rest ih =>
    cases skip with
    | succ skip => exact ih (Nat.le_of_succ_le_succ short)
    | zero =>
      rcases extensible.grows before (first :: rest) more (List.cons_ne_nil _ _) with
        same | ⟨length, longer, reaches, last⟩
      · rw [List.cons_append] at same ⊢
        cases matched : pattern before (first :: rest) with
        | none =>
          rw [scan_passed matched, scan_passed (same.trans matched)]
          exact ih (Nat.zero_le _)
        | some length =>
          have within := extensible.within before _ length matched
          rw [scan_matched matched, scan_matched (same.trans matched)]
          rw [show first :: (rest ++ more) = (first :: rest) ++ more from rfl,
            List.take_append_of_le_length (Nat.succ_le_of_lt within)]
          exact Covers.append (Covers.refl [_]) (ih (Nat.le_of_lt_succ within))
      · -- every match of the text lies in the one that now reaches its end
        have only : ∀ hit ∈ scan pattern before 0 (first :: rest), hit <+: first :: rest := by
          intro hit member
          cases matched : pattern before (first :: rest) with
          | none =>
            rw [scan_passed matched, scan_eq_nil] at member
            · cases member
            · intro place behind _
              refine Option.eq_none_iff_forall_ne_some.mpr fun later found => ?_
              obtain ⟨own, here, -⟩ := last (place + 1) behind later (Nat.succ_pos _) found
              rw [matched] at here
              cases here
          | some own =>
            rw [scan_matched matched, scan_eq_nil, List.mem_singleton] at member
            · exact member ▸ List.take_prefix _ _
            · intro place behind late
              refine Option.eq_none_iff_forall_ne_some.mpr fun later found => ?_
              obtain ⟨other, here, before⟩ := last (place + 1) behind later (Nat.succ_pos _) found
              obtain rfl := Option.some.inj (matched.symm.trans here)
              omega
        intro hit member
        refine ⟨((first :: rest) ++ more).take (length + 1), ?_, ?_⟩
        · rw [List.cons_append] at longer ⊢
          rw [scan_matched longer]
          exact List.mem_cons_self
        · refine (only hit member).trans ?_
          rw [List.prefix_take_iff]
          exact ⟨List.prefix_append _ _, reaches⟩

theorem Extensible.findAll_covers (extensible : Extensible pattern) (text more : List α) :
    Covers (findAll pattern text) (findAll pattern (text ++ more)) :=
  extensible.scan_covers (Nat.zero_le _)

end
end TransactionMonitoring.Scanning
