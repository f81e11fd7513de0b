import Mathlib.Algebra.Order.Field.Rat
import Mathlib.Algebra.Order.Ring.Cast
import Mathlib.Data.Finset.Card
import Mathlib.Data.Finset.SymmDiff
import Mathlib.Tactic.FieldSimp
import Mathlib.Tactic.Linarith
import Mathlib.Tactic.Positivity

/-! The Jaccard distance of finite sets.

It is the share of what two sets hold between them that only one of them holds.  On nonempty sets it
is a metric; the triangle is an inequality of fractions over what all three sets hold.
-/
namespace TransactionMonitoring.Jaccard

section
variable {α : Type*} [DecidableEq α]

/-- One less the shared part; of two empty sets nothing is shared. -/
def distance (one other : Finset α) : ℚ := 1 - ((one ∩ other).card : ℚ) / (one ∪ other).card

variable {one other third : Finset α}

theorem distance_comm (one other : Finset α) : distance one other = distance other one := by
  rw [distance, distance, Finset.inter_comm, Finset.union_comm]

/-- What only one of them holds. -/
theorem distance_eq (some_ : one.Nonempty) :
    distance one other = ((symmDiff one other).card : ℚ) / (one ∪ other).card := by
  have held : (0 : ℚ) < (one ∪ other).card := by
    exact_mod_cast Finset.card_pos.mpr (some_.mono Finset.subset_union_left)
  have parts : ((symmDiff one other).card : ℚ) + (one ∩ other).card = (one ∪ other).card := by
    have apart : Disjoint (symmDiff one other) (one ∩ other) := by
      rw [Finset.disjoint_left]
      intro value only both
      obtain ⟨⟨_, outside⟩⟩ | ⟨⟨_, outside⟩⟩ := Finset.mem_symmDiff.mp only
      · exact outside (Finset.mem_inter.mp both).2
      · exact outside (Finset.mem_inter.mp both).1
    have together : (symmDiff one other) ∪ (one ∩ other) = one ∪ other := by
      ext value
      rw [Finset.mem_union, Finset.mem_symmDiff, Finset.mem_inter, Finset.mem_union]
      tauto
    exact_mod_cast (Finset.card_union_of_disjoint apart).symm.trans (congrArg Finset.card together)
  rw [distance, eq_div_iff held.ne', sub_mul, div_mul_cancel₀ _ held.ne', one_mul]
  linarith

theorem distance_nonneg (one other : Finset α) : 0 ≤ distance one other := by
  rw [distance, sub_nonneg]
  refine div_le_one_of_le₀ ?_ (Nat.cast_nonneg _)
  exact_mod_cast Finset.card_le_card (Finset.inter_subset_left.trans Finset.subset_union_left)

theorem distance_le_one (one other : Finset α) : distance one other ≤ 1 := by
  rw [distance, sub_le_self_iff]
  positivity

theorem distance_self (some_ : one.Nonempty) : distance one one = 0 := by
  rw [distance_eq some_, symmDiff_self, Finset.bot_eq_empty, Finset.card_empty, Nat.cast_zero, zero_div]

/-- Only equal sets are at no distance. -/
theorem distance_eq_zero_iff (some_ : one.Nonempty) : distance one other = 0 ↔ one = other := by
  have held : ((one ∪ other).card : ℚ) ≠ 0 := by
    exact_mod_cast (Finset.card_pos.mpr (some_.mono Finset.subset_union_left)).ne'
  rw [distance_eq some_, div_eq_zero_iff, or_iff_left held, Nat.cast_eq_zero, Finset.card_eq_zero,
    ← Finset.bot_eq_empty, symmDiff_eq_bot]

/-- A fraction below one grows by what is put on both of its parts. -/
theorem div_le_add_div_add {part whole more : ℚ} (positive : 0 < whole) (below : part ≤ whole) (added : 0 ≤ more) :
    part / whole ≤ (part + more) / (whole + more) := by
  rw [div_le_div_iff₀ positive (add_pos_of_pos_of_nonneg positive added)]
  nlinarith

/-- What only the ends hold, and what only the middle holds, is what a step changes. -/
theorem card_symmDiff_add_le (one other third : Finset α) :
    (symmDiff one third).card + (other \ (one ∪ third)).card ≤
      (symmDiff one other).card + (symmDiff other third).card := by
  have apart : Disjoint (symmDiff one third) (other \ (one ∪ third)) := by
    rw [Finset.disjoint_left]
    intro value ends middle
    obtain ⟨_, outside⟩ := Finset.mem_sdiff.mp middle
    rw [Finset.mem_union] at outside
    obtain ⟨⟨inside, _⟩⟩ | ⟨⟨inside, _⟩⟩ := Finset.mem_symmDiff.mp ends
    · exact outside (.inl inside)
    · exact outside (.inr inside)
  have covered : symmDiff one third ∪ (other \ (one ∪ third)) ⊆ symmDiff one other ∪ symmDiff other third := by
    intro value
    simp only [Finset.mem_union, Finset.mem_symmDiff, Finset.mem_sdiff]
    tauto
  rw [← Finset.card_union_of_disjoint apart]
  exact (Finset.card_le_card covered).trans (Finset.card_union_le _ _)

/-- The triangle inequality. -/
theorem distance_triangle (one third : Finset α) (some_ : one.Nonempty) (someToo : other.Nonempty) :
    distance one third ≤ distance one other + distance other third := by
  have held : (0 : ℚ) < (one ∪ third).card := by
    exact_mod_cast Finset.card_pos.mpr (some_.mono Finset.subset_union_left)
  have all : ((one ∪ third).card : ℚ) + (other \ (one ∪ third)).card = (one ∪ other ∪ third).card := by
    have joined : one ∪ third ∪ other = one ∪ other ∪ third := by
      rw [Finset.union_right_comm]
    exact_mod_cast (Finset.card_union_of_disjoint (Finset.disjoint_sdiff)).symm.trans
      (congrArg Finset.card ((Finset.union_sdiff_self_eq_union).trans joined))
  have within : ((symmDiff one third).card : ℚ) ≤ (one ∪ third).card := by
    exact_mod_cast Finset.card_le_card (Finset.symmDiff_subset_union)
  have changed : ((symmDiff one third).card : ℚ) + (other \ (one ∪ third)).card ≤
      (symmDiff one other).card + (symmDiff other third).card := by
    exact_mod_cast card_symmDiff_add_le one other third
  -- Each step is taken over what all three hold, which is no less than what its two hold.
  have first : ((symmDiff one other).card : ℚ) / (one ∪ other ∪ third).card ≤ distance one other := by
    rw [distance_eq some_]
    refine div_le_div_of_nonneg_left (Nat.cast_nonneg _) ?_ ?_
    · exact_mod_cast Finset.card_pos.mpr (some_.mono Finset.subset_union_left)
    · exact_mod_cast Finset.card_le_card Finset.subset_union_left
  have second : ((symmDiff other third).card : ℚ) / (one ∪ other ∪ third).card ≤ distance other third := by
    rw [distance_eq someToo]
    refine div_le_div_of_nonneg_left (Nat.cast_nonneg _) ?_ ?_
    · exact_mod_cast Finset.card_pos.mpr (someToo.mono Finset.subset_union_left)
    · exact_mod_cast Finset.card_le_card (Finset.union_subset_union_left Finset.subset_union_right)
  calc distance one third
      = ((symmDiff one third).card : ℚ) / (one ∪ third).card := distance_eq some_
    _ ≤ ((symmDiff one third).card + (other \ (one ∪ third)).card) / (one ∪ other ∪ third).card := by
        rw [← all]
        exact div_le_add_div_add held within (Nat.cast_nonneg _)
    _ ≤ ((symmDiff one other).card + (symmDiff other third).card) / (one ∪ other ∪ third).card :=
        div_le_div_of_nonneg_right changed (Nat.cast_nonneg _)
    _ = (symmDiff one other).card / (one ∪ other ∪ third).card +
          (symmDiff other third).card / (one ∪ other ∪ third).card := add_div _ _ _
    _ ≤ distance one other + distance other third := add_le_add first second

/-- What is asked of a matrix of distances. -/
structure IsPseudometric (size : ℕ) (entry : ℕ → ℕ → ℚ) : Prop where
  self : ∀ i < size, entry i i = 0
  comm : ∀ i < size, ∀ j < size, entry i j = entry j i
  nonneg : ∀ i < size, ∀ j < size, 0 ≤ entry i j
  le_one : ∀ i < size, ∀ j < size, entry i j ≤ 1
  triangle : ∀ i < size, ∀ j < size, ∀ k < size, entry i k ≤ entry i j + entry j k

/-- The distances of a family of nonempty sets. -/
theorem isPseudometric_distance {size : ℕ} (sets : ℕ → Finset α) {entry : ℕ → ℕ → ℚ}
    (some_ : ∀ i < size, (sets i).Nonempty) (is : ∀ i < size, ∀ j < size, entry i j = distance (sets i) (sets j)) :
    IsPseudometric size entry where
  self := fun i below => by
    rw [is i below i below, distance_self (some_ i below)]
  comm := fun i below j belowToo => by
    rw [is i below j belowToo, is j belowToo i below, distance_comm]
  nonneg := fun i below j belowToo => by
    rw [is i below j belowToo]
    exact distance_nonneg _ _
  le_one := fun i below j belowToo => by
    rw [is i below j belowToo]
    exact distance_le_one _ _
  triangle := fun i below j belowToo k last => by
    rw [is i below k last, is i below j belowToo, is j belowToo k last]
    exact distance_triangle _ _ (some_ i below) (some_ j belowToo)

end

end TransactionMonitoring.Jaccard
