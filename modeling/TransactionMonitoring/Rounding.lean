import Mathlib.Algebra.Order.Field.Basic
import Mathlib.Algebra.Order.Ring.Int
import Mathlib.Data.Int.ConditionallyCompleteOrder
import Mathlib.Data.Rat.Floor
import Mathlib.Tactic.Linarith

/-! Rounded arithmetic over any ordered field.

A rounding says what a number becomes when it is stored.  It keeps the order, and the whole
numbers up to a bound; nothing else is assumed, so that it may stand for binary floats of any
width short of overflow, and for exact arithmetic.  A number rounded to whole ones is Python's
`round`.
-/
namespace TransactionMonitoring

/-- `round`: to the nearest whole number, of two the even one. -/
def roundHalfEven (q : ℚ) : ℤ :=
  if q - ⌊q⌋ < 1 / 2 then ⌊q⌋
  else if 1 / 2 < q - ⌊q⌋ then ⌊q⌋ + 1
  else if ⌊q⌋ % 2 = 0 then ⌊q⌋
  else ⌊q⌋ + 1

/-- `round`, to four digits. -/
def round4 (value : ℚ) : ℚ := roundHalfEven (value * 10 ^ 4) / 10 ^ 4

theorem roundHalfEven_intCast (n : ℤ) : roundHalfEven n = n := by
  rw [roundHalfEven, Int.floor_intCast, sub_self, if_pos one_half_pos]

theorem floor_le_roundHalfEven (x : ℚ) : ⌊x⌋ ≤ roundHalfEven x := by
  unfold roundHalfEven
  split_ifs <;> omega

theorem roundHalfEven_le_floor_add_one (x : ℚ) : roundHalfEven x ≤ ⌊x⌋ + 1 := by
  unfold roundHalfEven
  split_ifs <;> omega

theorem roundHalfEven_mono : Monotone roundHalfEven := by
  intro x y le
  rcases (Int.floor_mono le).lt_or_eq with below | same
  · have low := roundHalfEven_le_floor_add_one x
    have high := floor_le_roundHalfEven y
    omega
  · -- In one interval only the distance from its foot counts.
    have nearer : x - ⌊x⌋ ≤ y - ⌊y⌋ := by
      rw [same]
      exact sub_le_sub_right le _
    unfold roundHalfEven
    rw [← same] at nearer ⊢
    split_ifs <;> first | omega | linarith

universe u

structure Rounding (K : Type u) [Field K] [LinearOrder K] (exactUpTo : Nat) where
  stored : K → K
  mono : Monotone stored
  whole : ∀ n : ℤ, n.natAbs ≤ exactUpTo → stored n = n

namespace Rounding
variable {K : Type u} [Field K] [LinearOrder K] {exactUpTo : Nat} (rounding : Rounding K exactUpTo)

def add (x y : K) : K := rounding.stored (x + y)

/-- A whole number is taken from `x`, as it is stored. -/
def subNat (x : K) (n : ℕ) : K := rounding.stored (x - rounding.stored n)

def mul (x y : K) : K := rounding.stored (x * y)

def div (x y : K) : K := rounding.stored (x / y)

/-- Nothing is rounded. -/
def exact (K : Type u) [Field K] [LinearOrder K] (exactUpTo : Nat) : Rounding K exactUpTo where
  stored x := x
  mono := monotone_id
  whole _ _ := rfl

theorem stored_zero : rounding.stored 0 = 0 := by
  have kept := rounding.whole 0 (Nat.zero_le _)
  rwa [Int.cast_zero] at kept

variable {rounding} {x y z low high : K}

theorem stored_nonneg (nonneg : 0 ≤ x) : 0 ≤ rounding.stored x := by
  rw [← rounding.stored_zero]
  exact rounding.mono nonneg

theorem stored_le_nat (bound : Nat) (small : bound ≤ exactUpTo) (le : x ≤ bound) :
    rounding.stored x ≤ bound := by
  have kept := rounding.whole bound (by simpa using small)
  rw [Int.cast_natCast] at kept
  rw [← kept]
  exact rounding.mono le

section
variable [IsStrictOrderedRing K]

theorem sum_mono (left : low ≤ high) (right : x ≤ y) : rounding.add low x ≤ rounding.add high y :=
  rounding.mono (add_le_add left right)

theorem product_mono (nonneg : 0 ≤ z) (le : x ≤ y) : rounding.mul z x ≤ rounding.mul z y :=
  rounding.mono (mul_le_mul_of_nonneg_left le nonneg)

theorem sum_nonneg (left : 0 ≤ x) (right : 0 ≤ y) : 0 ≤ rounding.add x y :=
  stored_nonneg (add_nonneg left right)

theorem product_nonneg (left : 0 ≤ x) (right : 0 ≤ y) : 0 ≤ rounding.mul x y :=
  stored_nonneg (mul_nonneg left right)

theorem quotient_nonneg (left : 0 ≤ x) (right : 0 ≤ y) : 0 ≤ rounding.div x y :=
  stored_nonneg (div_nonneg left right)

end
end Rounding
end TransactionMonitoring
