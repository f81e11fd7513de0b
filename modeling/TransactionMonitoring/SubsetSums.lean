import Mathlib.Data.List.Sublists
import Mathlib.Algebra.BigOperators.Group.List.Basic
import Mathlib.Algebra.Order.Field.Rat

/-! Sums of subsets of a list, and bisection of a sorted one. -/
namespace TransactionMonitoring.SubsetSums

/-! ## Bisection -/

section Bisection
variable {α : Type}

/-- Where a predicate holds on an initial segment, the count of its elements is where it ends. -/
theorem lt_countP_iff {holds : α → Bool} {l : List α}
    (initial : l.Pairwise fun a b => holds b = true → holds a = true) {i : ℕ} (inside : i < l.length) :
    holds l[i] = true ↔ i < l.countP holds := by
  induction l generalizing i with
  | nil => cases inside
  | cons first rest ih =>
    rw [List.pairwise_cons] at initial
    by_cases atFirst : holds first = true
    · rw [List.countP_cons_of_pos atFirst]
      cases i with
      | zero => simp [atFirst]
      | succ i => simpa using ih initial.2 (Nat.lt_of_succ_lt_succ inside)
    · have nowhere : rest.countP holds = 0 := by
        rw [List.countP_eq_zero]
        exact fun later member atLater => atFirst (initial.1 later member atLater)
      rw [List.countP_cons_of_neg atFirst, nowhere]
      cases i with
      | zero => simp [atFirst]
      | succ i =>
        have later : i < rest.length := Nat.lt_of_succ_lt_succ inside
        have member : rest[i] ∈ rest := List.getElem_mem later
        have notThere : ¬ holds rest[i] = true := fun later => atFirst (initial.1 _ member later)
        simpa using notThere

variable {β : Type} [LinearOrder β] (value : α → β) (x : β)

/-- `bisect.bisect_right` on a list sorted by `value`. -/
def bisectRight (sorted : List α) : ℕ := sorted.countP fun a => value a ≤ x

/-- `bisect.bisect_left` on a list sorted by `value`. -/
def bisectLeft (sorted : List α) : ℕ := sorted.countP fun a => value a < x

variable {value x} {sorted : List α}

theorem bisectRight_zero (found : bisectRight value x sorted = 0) : ∀ b ∈ sorted, ¬ value b ≤ x := by
  intro b member
  rw [bisectRight, List.countP_eq_zero] at found
  simpa using found b member

theorem bisectLeft_length (found : sorted.length ≤ bisectLeft value x sorted) : ∀ b ∈ sorted, ¬ x ≤ value b := by
  intro b member
  have all : sorted.countP (fun a => decide (value a < x)) = sorted.length :=
    Nat.le_antisymm List.countP_le_length found
  rw [List.countP_eq_length] at all
  simpa using all b member

variable (ordered : sorted.Pairwise fun a b => value a ≤ value b)
include ordered

theorem lt_bisectRight_iff {i : ℕ} (inside : i < sorted.length) :
    i < bisectRight value x sorted ↔ value sorted[i] ≤ x := by
  rw [bisectRight, ← lt_countP_iff (ordered.imp fun first second => ?_) inside, decide_eq_true_eq]
  rw [decide_eq_true_eq] at second ⊢
  exact first.trans second

theorem lt_bisectLeft_iff {i : ℕ} (inside : i < sorted.length) :
    i < bisectLeft value x sorted ↔ value sorted[i] < x := by
  rw [bisectLeft, ← lt_countP_iff (ordered.imp fun first second => ?_) inside, decide_eq_true_eq]
  rw [decide_eq_true_eq] at second ⊢
  exact lt_of_le_of_lt first second

/-- The element before the right insertion point is the last one not above `x`. -/
theorem before_bisectRight {i : ℕ} (found : bisectRight value x sorted = i + 1) :
    ∃ a, sorted[i]? = some a ∧ a ∈ sorted ∧ value a ≤ x ∧ ∀ b ∈ sorted, value b ≤ x → value b ≤ value a := by
  have inside : i < sorted.length := by
    have bound : bisectRight value x sorted ≤ sorted.length := List.countP_le_length
    omega
  refine ⟨sorted[i], List.getElem?_eq_getElem inside, List.getElem_mem inside,
    (lt_bisectRight_iff ordered inside).mp (by omega), fun b member least => ?_⟩
  obtain ⟨j, place, rfl⟩ := List.getElem_of_mem member
  have early := (lt_bisectRight_iff ordered place).mpr least
  rcases Nat.lt_or_eq_of_le (show j ≤ i by omega) with earlier | rfl
  · exact List.pairwise_iff_getElem.mp ordered j i place inside earlier
  · exact le_refl _

/-- The element at the left insertion point is the first one not below `x`. -/
theorem at_bisectLeft {j : ℕ} (found : bisectLeft value x sorted = j) (inside : j < sorted.length) :
    ∃ a, sorted[j]? = some a ∧ a ∈ sorted ∧ x ≤ value a ∧ ∀ b ∈ sorted, x ≤ value b → value a ≤ value b := by
  have notBelow : ¬ value sorted[j] < x := fun below =>
    absurd ((lt_bisectLeft_iff ordered inside).mpr below) (by omega)
  refine ⟨sorted[j], List.getElem?_eq_getElem inside, List.getElem_mem inside, not_lt.mp notBelow,
    fun b member least => ?_⟩
  obtain ⟨k, place, rfl⟩ := List.getElem_of_mem member
  have late : ¬ k < bisectLeft value x sorted := fun early =>
    absurd ((lt_bisectLeft_iff ordered place).mp early) (not_lt.mpr least)
  rcases Nat.lt_or_eq_of_le (show j ≤ k by omega) with earlier | rfl
  · exact List.pairwise_iff_getElem.mp ordered j k inside place earlier
  · exact le_refl _

end Bisection

/-! ## Subsets -/

/-- The sum of some subset. -/
def IsSum (amounts : List ℕ) (s : ℕ) : Prop := ∃ chosen : List ℕ, chosen.Sublist amounts ∧ chosen.sum = s

theorem isSum_append {first second : List ℕ} {s : ℕ} :
    IsSum (first ++ second) s ↔ ∃ a b, IsSum first a ∧ IsSum second b ∧ a + b = s := by
  constructor
  · rintro ⟨chosen, sublist, rfl⟩
    obtain ⟨left, right, rfl, inFirst, inSecond⟩ := List.sublist_append_iff.mp sublist
    exact ⟨left.sum, right.sum, ⟨left, inFirst, rfl⟩, ⟨right, inSecond, rfl⟩, List.sum_append.symm⟩
  · rintro ⟨a, b, ⟨left, inFirst, rfl⟩, ⟨right, inSecond, rfl⟩, rfl⟩
    exact ⟨left ++ right, inFirst.append inSecond, List.sum_append⟩

theorem isSum_nil {s : ℕ} : IsSum [] s ↔ s = 0 := by
  constructor
  · rintro ⟨chosen, sublist, rfl⟩
    rw [List.sublist_nil.mp sublist, List.sum_nil]
  · rintro rfl
    exact ⟨[], .slnil, rfl⟩

theorem isSum_cons {amount : ℕ} {rest : List ℕ} {s : ℕ} :
    IsSum (amount :: rest) s ↔ IsSum rest s ∨ ∃ t, IsSum rest t ∧ amount + t = s := by
  constructor
  · rintro ⟨chosen, sublist, rfl⟩
    cases sublist with
    | cons _ inRest => exact .inl ⟨chosen, inRest, rfl⟩
    | cons_cons _ inRest => exact .inr ⟨_, ⟨_, inRest, rfl⟩, List.sum_cons.symm⟩
  · rintro (⟨chosen, sublist, rfl⟩ | ⟨t, ⟨chosen, sublist, rfl⟩, rfl⟩)
    · exact ⟨chosen, .cons amount sublist, rfl⟩
    · exact ⟨amount :: chosen, .cons_cons amount sublist, List.sum_cons⟩

/-- Of positive amounts only the empty subset sums to nothing. -/
theorem sum_pos {amounts chosen : List ℕ} (positive : ∀ a ∈ amounts, 0 < a) (sublist : chosen.Sublist amounts)
    (nonempty : chosen ≠ []) : 0 < chosen.sum := by
  cases chosen with
  | nil => exact absurd rfl nonempty
  | cons a rest =>
    have first := positive a (sublist.subset List.mem_cons_self)
    rw [List.sum_cons]
    omega

end TransactionMonitoring.SubsetSums
