import Mathlib.Data.List.Basic
import Mathlib.Order.Lattice

/-! Retry budgets with pacing, for any key.

An item that fails is held back and counted, at most once per pacing window, until its
attempts reach a maximum; then its entry is dropped and the item is let through.  A pass
runs over a batch of items and keeps what was let through.  The rules below are about one
pass over any items: nothing is dropped silently, and no stored counter reaches the
maximum.
-/
namespace TransactionMonitoring.Deferral

universe u v w
variable {κ : Type u}

/-- Counted attempts, and the clock at the last counted one. -/
structure Entry where
  attempts : Nat
  countedAt : Int
deriving DecidableEq, Repr

/-- The bookkeeping of one kind of failure. -/
abbrev Entries (κ : Type u) : Type u := κ → Option Entry

def Entries.empty : Entries κ := fun _ => none

/-- No stored counter has reached the maximum. -/
def Bounded (maxAttempts : Nat) (entries : Entries κ) : Prop :=
  ∀ key entry, entries key = some entry → entry.attempts < maxAttempts

theorem Bounded.empty (maxAttempts : Nat) : Bounded maxAttempts (Entries.empty : Entries κ) := by
  intro key entry found
  cases found

section
variable [DecidableEq κ]

def Entries.set (entries : Entries κ) (key : κ) (entry : Entry) : Entries κ :=
  fun other => if other = key then some entry else entries other

def Entries.erase (entries : Entries κ) (key : κ) : Entries κ :=
  fun other => if other = key then none else entries other

@[simp] theorem Entries.set_self (entries : Entries κ) (key : κ) (entry : Entry) :
    entries.set key entry key = some entry := by simp [Entries.set]

@[simp] theorem Entries.set_other (entries : Entries κ) {key other : κ} (entry : Entry)
    (different : other ≠ key) : entries.set key entry other = entries other := by
  simp [Entries.set, different]

@[simp] theorem Entries.erase_self (entries : Entries κ) (key : κ) :
    entries.erase key key = none := by simp [Entries.erase]

@[simp] theorem Entries.erase_other (entries : Entries κ) {key other : κ} (different : other ≠ key) :
    entries.erase key other = entries other := by simp [Entries.erase, different]

theorem Bounded.erase {maxAttempts : Nat} {entries : Entries κ} (bounded : Bounded maxAttempts entries)
    (key : κ) : Bounded maxAttempts (entries.erase key) := by
  intro other entry found
  by_cases same : other = key
  · subst same
    simp at found
  · rw [Entries.erase_other entries same] at found
    exact bounded other entry found

/-- The last counted attempt is less than the pacing window ago. -/
def paced (retrySeconds : Int) (entries : Entries κ) (key : κ) (now : Int) : Bool :=
  match entries key with
  | some entry => now - entry.countedAt < retrySeconds
  | none => false

/-- The number this attempt would have. -/
def attemptNumber (entries : Entries κ) (key : κ) : Nat :=
  ((entries key).map Entry.attempts).getD 0 + 1

/-- One failed attempt: held back inside the window, counted below the maximum, and let
through with its entry dropped when the budget is spent. -/
def countAttempt (maxAttempts : Nat) (retrySeconds : Int) (entries : Entries κ) (key : κ) (now : Int) :
    Entries κ × Bool :=
  if paced retrySeconds entries key now then (entries, false)
  else if attemptNumber entries key < maxAttempts then
    (entries.set key ⟨attemptNumber entries key, now⟩, false)
  else (entries.erase key, true)

variable {maxAttempts : Nat} {retrySeconds : Int} {entries : Entries κ} {key : κ} {now : Int}

theorem countAttempt_bounded (bounded : Bounded maxAttempts entries) :
    Bounded maxAttempts (countAttempt maxAttempts retrySeconds entries key now).1 := by
  unfold countAttempt
  split
  · exact bounded
  · split
    · rename_i room
      intro other entry found
      by_cases same : other = key
      · subst same
        obtain rfl : _ = entry := by simpa using found
        exact room
      · refine bounded other entry ?_
        simpa [Entries.set_other entries _ same] using found
    · exact bounded.erase key

/-- What is held back has an entry. -/
theorem countAttempt_held
    (held : (countAttempt maxAttempts retrySeconds entries key now).2 = false) :
    ((countAttempt maxAttempts retrySeconds entries key now).1 key).isSome := by
  unfold countAttempt at held ⊢
  split
  · rename_i window
    unfold paced at window
    cases found : entries key with
    | none => simp [found] at window
    | some entry => simp [found]
  · rename_i outside
    split
    · simp
    · rename_i spent
      simp [outside, spent] at held

theorem countAttempt_other {other : κ} (different : other ≠ key) :
    (countAttempt maxAttempts retrySeconds entries key now).1 other = entries other := by
  unfold countAttempt
  split
  · rfl
  · split <;> simp [different]

/-- Only the attempt that reaches the maximum is let through. -/
theorem countAttempt_exhausted (bounded : Bounded maxAttempts entries)
    (exhausted : (countAttempt maxAttempts retrySeconds entries key now).2 = true) :
    attemptNumber entries key = max 1 maxAttempts := by
  unfold countAttempt at exhausted
  split at exhausted
  · cases exhausted
  · split at exhausted
    · cases exhausted
    · rename_i spent
      unfold attemptNumber at spent ⊢
      cases found : entries key with
      | none =>
        simp only [found, Option.map_none, Option.getD_none] at spent ⊢
        omega
      | some entry =>
        have below := bounded key entry found
        simp only [found, Option.map_some, Option.getD_some] at spent ⊢
        omega

end

/-! ## Passes over a batch -/

section
variable {α : Type v} {β : Type w} (attempt : Entries κ → α → Entries κ × Option β)

/-- One pass: every item is tried in turn, what is let through is kept in order. -/
def pass : Entries κ → List α → Entries κ × List β
  | entries, [] => (entries, [])
  | entries, item :: rest =>
      let tried := attempt entries item
      let later := pass tried.1 rest
      (later.1, tried.2.toList ++ later.2)

/-- A pass keeps whatever every single attempt keeps of the bookkeeping. -/
theorem pass_invariant {holds : Entries κ → Prop}
    (kept : ∀ entries item, holds entries → holds (attempt entries item).1)
    {entries : Entries κ} (initially : holds entries) (items : List α) :
    holds (pass attempt entries items).1 := by
  induction items generalizing entries with
  | nil => exact initially
  | cons item rest ih => exact ih (kept entries item initially)

/-- What a pass lets through was let through by an attempt on one of its items. -/
theorem pass_mem {holds : Entries κ → Prop}
    (kept : ∀ entries item, holds entries → holds (attempt entries item).1)
    {entries : Entries κ} (initially : holds entries) {items : List α} {result : β}
    (member : result ∈ (pass attempt entries items).2) :
    ∃ before, holds before ∧ ∃ item ∈ items, (attempt before item).2 = some result := by
  induction items generalizing entries with
  | nil => cases member
  | cons item rest ih =>
    rcases List.mem_append.mp member with now | later
    · exact ⟨entries, initially, item, List.mem_cons_self, by simpa using now⟩
    · obtain ⟨before, held, other, among, shape⟩ := ih (kept entries item initially) later
      exact ⟨before, held, other, List.mem_cons_of_mem item among, shape⟩

variable {attempt} {keyOf : α → κ} {resultKey : β → κ}
  (holdsBack : ∀ entries item, (attempt entries item).2 = none →
    ((attempt entries item).1 (keyOf item)).isSome)
  (framed : ∀ entries item other, other ≠ keyOf item → (attempt entries item).1 other = entries other)
  (keyed : ∀ entries item result, (attempt entries item).2 = some result → resultKey result = keyOf item)
include holdsBack framed keyed

private theorem pass_entry [DecidableEq κ] {entries : Entries κ} {items : List α} {key : κ}
    (present : (entries key).isSome) :
    (∃ result ∈ (pass attempt entries items).2, resultKey result = key) ∨
      ((pass attempt entries items).1 key).isSome := by
  induction items generalizing entries with
  | nil => exact Or.inr present
  | cons item rest ih =>
    have carry : ((attempt entries item).1 key).isSome →
        (∃ result ∈ (pass attempt entries (item :: rest)).2, resultKey result = key) ∨
          ((pass attempt entries (item :: rest)).1 key).isSome := by
      intro still
      rcases ih still with ⟨result, member, same⟩ | kept
      · exact Or.inl ⟨result, List.mem_append_right _ member, same⟩
      · exact Or.inr kept
    by_cases same : key = keyOf item
    · cases tried : (attempt entries item).2 with
      | none => exact carry (same ▸ holdsBack entries item tried)
      | some result =>
        refine Or.inl ⟨result, ?_, (keyed entries item result tried).trans same.symm⟩
        simp [pass, tried]
    · exact carry (by rw [framed entries item key same]; exact present)

/-- Every item of a pass is let through or has an entry when the pass ends. -/
theorem pass_settles [DecidableEq κ] {entries : Entries κ} {items : List α} {item : α} (member : item ∈ items) :
    (∃ result ∈ (pass attempt entries items).2, resultKey result = keyOf item) ∨
      ((pass attempt entries items).1 (keyOf item)).isSome := by
  induction items generalizing entries with
  | nil => cases member
  | cons first rest ih =>
    rcases List.mem_cons.mp member with rfl | later
    · cases tried : (attempt entries item).2 with
      | none =>
        rcases pass_entry holdsBack framed keyed (holdsBack entries item tried) with
          ⟨result, among, same⟩ | kept
        · exact Or.inl ⟨result, List.mem_append_right _ among, same⟩
        · exact Or.inr kept
      | some result =>
        refine Or.inl ⟨result, ?_, keyed entries item result tried⟩
        simp [pass, tried]
    · rcases ih later with ⟨result, among, same⟩ | kept
      · exact Or.inl ⟨result, List.mem_append_right _ among, same⟩
      · exact Or.inr kept

end

end TransactionMonitoring.Deferral
