import Mathlib.Algebra.Order.Field.Power
import Mathlib.Data.Int.Log
import Mathlib.Tactic.LinearCombination
import Mathlib.Tactic.Positivity
import TransactionMonitoring.Rounding

/-! Binary floats of 53 significant bits, as rationals.

A number is stored as the nearest multiple of the step of its magnitude, of two the even one.
There is no least and no greatest magnitude: the model is that of the arithmetic short of overflow
and of subnormal numbers.  Below `2 ^ 53` a float less a whole number is a float again, so that such
a difference is exact.
-/
namespace TransactionMonitoring.Binary64

/-- The distance of neighbouring floats at the magnitude of `x`. -/
def step (x : ℚ) : ℚ := 2 ^ (Int.log 2 x - 52)

/-- The float nearest to a number that is not negative. -/
def nearest (x : ℚ) : ℚ := roundHalfEven (x / step x) * step x

def stored (x : ℚ) : ℚ := if x < 0 then -nearest (-x) else nearest x

/-- The number is a float itself. -/
def IsFloat (x : ℚ) : Prop := stored x = x

instance (x : ℚ) : Decidable (IsFloat x) := inferInstanceAs (Decidable (stored x = x))

theorem step_pos (x : ℚ) : 0 < step x := zpow_pos two_pos _

theorem nearest_zero : nearest 0 = 0 := by
  have whole := roundHalfEven_intCast 0
  rw [Int.cast_zero] at whole
  rw [nearest, zero_div, whole, Int.cast_zero, zero_mul]

section
variable {x y : ℚ}

/-- A number of the magnitude `k` is at least `2 ^ 52` steps and below `2 ^ 53`. -/
theorem steps_bounds (positive : 0 < x) : (2 : ℚ) ^ 52 ≤ x / step x ∧ x / step x < 2 ^ 53 := by
  have low : (2 : ℚ) ^ Int.log 2 x ≤ x := by exact_mod_cast Int.zpow_log_le_self one_lt_two positive
  have high : x < (2 : ℚ) ^ (Int.log 2 x + 1) := by exact_mod_cast Int.lt_zpow_succ_log_self one_lt_two x
  have foot : (2 : ℚ) ^ Int.log 2 x = 2 ^ 52 * step x := by
    rw [step, ← zpow_natCast, ← zpow_add₀ two_ne_zero]
    congr 1
    omega
  have top : (2 : ℚ) ^ (Int.log 2 x + 1) = 2 ^ 53 * step x := by
    rw [step, ← zpow_natCast, ← zpow_add₀ two_ne_zero]
    congr 1
    omega
  rw [foot] at low
  rw [top] at high
  exact ⟨(le_div_iff₀ (step_pos x)).mpr low, (div_lt_iff₀ (step_pos x)).mpr high⟩

/-- A number is stored within its magnitude. -/
theorem nearest_bounds (positive : 0 < x) : 2 ^ 52 * step x ≤ nearest x ∧ nearest x ≤ 2 ^ 53 * step x := by
  obtain ⟨low, high⟩ := steps_bounds positive
  have least := roundHalfEven_mono (show (((2 ^ 52 : ℤ) : ℚ)) ≤ x / step x by exact_mod_cast low)
  have most := roundHalfEven_mono (show x / step x ≤ ((2 ^ 53 : ℤ) : ℚ) by exact_mod_cast high.le)
  rw [roundHalfEven_intCast] at least most
  constructor
  · apply mul_le_mul_of_nonneg_right _ (step_pos x).le
    exact_mod_cast least
  · apply mul_le_mul_of_nonneg_right _ (step_pos x).le
    exact_mod_cast most

theorem nearest_pos (positive : 0 < x) : 0 < nearest x :=
  lt_of_lt_of_le (mul_pos (by norm_num) (step_pos x)) (nearest_bounds positive).1

theorem nearest_nonneg (nonneg : 0 ≤ x) : 0 ≤ nearest x := by
  rcases nonneg.eq_or_lt with rfl | positive
  · exact nearest_zero.ge
  · exact (nearest_pos positive).le

/-- Over one magnitude the steps are the same; over a border of magnitudes, the border is between. -/
theorem nearest_mono (nonneg : 0 ≤ x) (le : x ≤ y) : nearest x ≤ nearest y := by
  rcases nonneg.eq_or_lt with rfl | positive
  · rw [nearest_zero]
    exact nearest_nonneg le
  · have positiveToo := lt_of_lt_of_le positive le
    rcases (Int.log_mono_right (b := 2) positive le).eq_or_lt with same | below
    · have steps : step x = step y := by rw [step, step, same]
      rw [nearest, nearest, steps]
      apply mul_le_mul_of_nonneg_right _ (step_pos y).le
      exact_mod_cast roundHalfEven_mono (div_le_div_of_nonneg_right le (step_pos y).le)
    · refine (nearest_bounds positive).2.trans (le_trans ?_ (nearest_bounds positiveToo).1)
      have double : 2 * step x ≤ step y := by
        have twice : (2 : ℚ) * step x = 2 ^ (Int.log 2 x - 52 + 1) := by
          rw [step, zpow_add_one₀ two_ne_zero, mul_comm]
        rw [twice, step]
        exact zpow_le_zpow_right₀ one_le_two (by omega)
      linarith

/-- Fewer than `2 ^ 53` times a power of two is stored as it is. -/
theorem nearest_of_multiple (positive : 0 < x) {n : ℕ} {j : ℤ} (few : n ≤ 2 ^ 53) (shape : x = n * 2 ^ j) :
    nearest x = x := by
  obtain ⟨m, whole⟩ : ∃ m : ℤ, x / step x = m := by
    rcases le_or_gt (Int.log 2 x - 52) j with fine | coarse
    · obtain ⟨t, rfl⟩ : ∃ t : ℕ, j = Int.log 2 x - 52 + t := ⟨(j - (Int.log 2 x - 52)).toNat, by omega⟩
      refine ⟨n * 2 ^ t, ?_⟩
      rw [div_eq_iff (step_pos x).ne', step]
      rw [zpow_add₀ two_ne_zero, zpow_natCast] at shape
      push_cast
      linear_combination shape
    · -- Only the greatest multiple reaches the next magnitude, and is its foot.
      have low := (le_div_iff₀ (step_pos x)).mp (steps_bounds positive).1
      obtain ⟨t, place⟩ : ∃ t : ℕ, Int.log 2 x - 52 = j + 1 + t := ⟨(Int.log 2 x - 52 - j - 1).toNat, by omega⟩
      rw [step, place, zpow_add₀ two_ne_zero, zpow_add_one₀ two_ne_zero, zpow_natCast] at low
      have unit : (0 : ℚ) < 2 ^ j := zpow_pos two_pos j
      have many : ((2 ^ 53 * 2 ^ t : ℕ) : ℚ) ≤ n := by
        push_cast
        rw [shape] at low
        have scaled : (2 : ℚ) ^ 53 * 2 ^ t * 2 ^ j ≤ n * 2 ^ j := by linarith
        exact le_of_mul_le_mul_right scaled unit
      have bound : 2 ^ 53 * 2 ^ t ≤ n := by exact_mod_cast many
      have first : t = 0 := by
        by_contra later
        have twice : 2 ^ 1 ≤ 2 ^ t := Nat.pow_le_pow_right two_pos (by omega)
        omega
      subst first
      refine ⟨2 ^ 52, ?_⟩
      have full : n = 2 ^ 53 := by omega
      rw [div_eq_iff (step_pos x).ne', step, place, shape, full, zpow_add₀ two_ne_zero, zpow_add_one₀ two_ne_zero]
      push_cast
      ring
  rw [nearest, whole, roundHalfEven_intCast, ← whole, div_mul_cancel₀ _ (step_pos x).ne']

end

theorem stored_of_multiple {n : ℤ} (few : n.natAbs ≤ 2 ^ 53) (j : ℤ) : stored (n * 2 ^ j) = n * 2 ^ j := by
  have unit : (0 : ℚ) < 2 ^ j := zpow_pos two_pos j
  rcases lt_trichotomy n 0 with negative | rfl | positive
  · have below : (n : ℚ) * 2 ^ j < 0 := mul_neg_of_neg_of_pos (by exact_mod_cast negative) unit
    have size : ((n.natAbs : ℕ) : ℚ) = -n := by
      rw [Nat.cast_natAbs, abs_of_neg negative, Int.cast_neg]
    rw [stored, if_pos below, nearest_of_multiple (neg_pos.mpr below) few (by rw [size]; ring), neg_neg]
  · rw [Int.cast_zero, zero_mul, stored, if_neg (lt_irrefl 0), nearest_zero]
  · have above : 0 < (n : ℚ) * 2 ^ j := mul_pos (by exact_mod_cast positive) unit
    have size : ((n.natAbs : ℕ) : ℚ) = n := by
      rw [Nat.cast_natAbs, abs_of_pos positive]
    rw [stored, if_neg above.le.not_gt, nearest_of_multiple above few (by rw [size])]

theorem stored_mono : Monotone stored := by
  intro x y le
  unfold stored
  split
  · rename_i negative
    split
    · rename_i negativeToo
      exact neg_le_neg (nearest_mono (neg_nonneg.mpr negativeToo.le) (neg_le_neg le))
    · rename_i nonneg
      have low := nearest_nonneg (neg_nonneg.mpr negative.le)
      have high := nearest_nonneg (not_lt.mp nonneg)
      linarith
  · rename_i nonneg
    rw [if_neg (not_lt.mpr ((not_lt.mp nonneg).trans le))]
    exact nearest_mono (not_lt.mp nonneg) le

/-- The rounding of binary floats. -/
def rounding : Rounding ℚ (2 ^ 53) where
  stored := stored
  mono := stored_mono
  whole n few := by
    have kept := stored_of_multiple few 0
    rwa [zpow_zero, mul_one] at kept

/-! ## Differences -/

section
variable {x : ℚ}

/-- A float below `2 ^ 53` is a multiple of a power of two that divides one. -/
theorem exists_multiple (float : IsFloat x) (positive : 0 < x) (small : x < 2 ^ 53) :
    ∃ n d : ℕ, n ≤ 2 ^ 53 ∧ x = n * 2 ^ (-(d : ℤ)) := by
  have magnitude : Int.log 2 x < 53 := by
    refine (Int.lt_zpow_iff_log_lt one_lt_two positive).mp ?_
    exact_mod_cast small
  rw [IsFloat, stored, if_neg positive.le.not_gt] at float
  have bounds := nearest_bounds positive
  rw [nearest] at bounds float
  have least : (2 : ℚ) ^ 52 ≤ roundHalfEven (x / step x) := le_of_mul_le_mul_right bounds.1 (step_pos x)
  have most : (roundHalfEven (x / step x) : ℚ) ≤ 2 ^ 53 := le_of_mul_le_mul_right bounds.2 (step_pos x)
  have few : roundHalfEven (x / step x) ≤ 2 ^ 53 := by exact_mod_cast most
  have nonneg : 0 ≤ roundHalfEven (x / step x) := by
    have large : (2 : ℤ) ^ 52 ≤ roundHalfEven (x / step x) := by exact_mod_cast least
    omega
  obtain ⟨n, whole⟩ := Int.eq_ofNat_of_zero_le nonneg
  rw [whole] at float few
  refine ⟨n, (52 - Int.log 2 x).toNat, by omega, ?_⟩
  have exponent : -(((52 - Int.log 2 x).toNat : ℕ) : ℤ) = Int.log 2 x - 52 := by omega
  rw [exponent]
  exact float.symm

/-- A float below `2 ^ 53` less a whole number that is no greater. -/
theorem stored_sub_natural (float : IsFloat x) (positive : 0 < x) (small : x < 2 ^ 53) {a : ℕ} (le : (a : ℚ) ≤ x) :
    stored (x - a) = x - a := by
  obtain ⟨n, d, few, shape⟩ := exists_multiple float positive small
  have unit : (0 : ℚ) < 2 ^ (-(d : ℤ)) := zpow_pos two_pos _
  have split_ : (a : ℚ) = ((a * 2 ^ d : ℕ) : ℚ) * 2 ^ (-(d : ℤ)) := by
    push_cast
    rw [zpow_neg, zpow_natCast, mul_assoc, mul_inv_cancel₀ (by positivity), mul_one]
  have less : a * 2 ^ d ≤ n := by
    rw [shape, split_] at le
    exact_mod_cast le_of_mul_le_mul_right le unit
  have whole : x - a = (((n - a * 2 ^ d : ℕ) : ℤ) : ℚ) * 2 ^ (-(d : ℤ)) := by
    rw [Int.cast_natCast, Nat.cast_sub less, sub_mul, ← split_, ← shape]
  rw [whole]
  refine stored_of_multiple ?_ _
  rw [Int.natAbs_natCast]
  omega

theorem stored_neg (negative : x < 0) : stored x < 0 := by
  rw [stored, if_pos negative]
  exact neg_lt_zero.mpr (nearest_pos (neg_pos.mpr negative))

/-- What a whole number that is greater leaves of a float below `2 ^ 53` is negative, however the number is stored. -/
theorem subNat_neg (small : x < 2 ^ 53) {a : ℕ} (less : x < a) : rounding.subNat x a < 0 := by
  refine stored_neg (sub_neg.mpr ?_)
  rcases le_or_gt a (2 ^ 53) with few | many
  · have kept : rounding.stored (a : ℤ) = (a : ℤ) := rounding.whole a (by simpa using few)
    rw [Int.cast_natCast] at kept
    rw [kept]
    exact less
  · have kept : rounding.stored ((2 ^ 53 : ℕ) : ℤ) = ((2 ^ 53 : ℕ) : ℤ) := rounding.whole _ (le_refl _)
    have above := rounding.mono (show (((2 ^ 53 : ℕ) : ℤ) : ℚ) ≤ a by exact_mod_cast many.le)
    rw [kept] at above
    push_cast at above
    linarith

/-- Otherwise the difference is exact. -/
theorem subNat_eq (float : IsFloat x) (positive : 0 < x) (small : x < 2 ^ 53) {a : ℕ} (le : (a : ℚ) ≤ x) :
    rounding.subNat x a = x - a := by
  have few : a ≤ 2 ^ 53 := by
    have below : (a : ℚ) < ((2 ^ 53 : ℕ) : ℚ) := by
      push_cast
      linarith
    exact_mod_cast below.le
  have kept : rounding.stored (a : ℤ) = (a : ℤ) := rounding.whole a (by simpa using few)
  rw [Int.cast_natCast] at kept
  rw [Rounding.subNat, kept]
  exact stored_sub_natural float positive small le

end
end TransactionMonitoring.Binary64
