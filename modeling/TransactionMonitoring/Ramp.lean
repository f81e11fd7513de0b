import Mathlib.Algebra.Order.Field.Basic
import Mathlib.Tactic.Linarith

/-! Clipped ramps over any ordered field.

A ramp is zero up to its foot, one from its top on, and rises along a line between them.
-/
namespace TransactionMonitoring.Ramp

universe u
variable {K : Type u} [Field K] [LinearOrder K]

def ramp (foot top x : K) : K := max 0 (min 1 ((x - foot) / (top - foot)))

variable {foot top lowFoot lowTop x : K}

theorem ramp_nonneg : 0 ≤ ramp foot top x := le_max_left _ _

variable [IsStrictOrderedRing K]

theorem ramp_le_one : ramp foot top x ≤ 1 := max_le zero_le_one (min_le_left _ _)

theorem ramp_of_le (rises : foot < top) (low : x ≤ foot) : ramp foot top x = 0 := by
  have slope : (x - foot) / (top - foot) ≤ 0 :=
    div_nonpos_of_nonpos_of_nonneg (sub_nonpos.mpr low) (sub_pos.mpr rises).le
  exact max_eq_left ((min_le_right _ _).trans slope)

theorem ramp_of_ge (rises : foot < top) (high : top ≤ x) : ramp foot top x = 1 := by
  have slope : 1 ≤ (x - foot) / (top - foot) := by
    rw [le_div_iff₀ (sub_pos.mpr rises), one_mul]
    exact sub_le_sub_right high foot
  rw [ramp, min_eq_left slope, max_eq_right zero_le_one]

theorem ramp_pos (rises : foot < top) (above : foot < x) : 0 < ramp foot top x := by
  have slope : 0 < (x - foot) / (top - foot) := div_pos (sub_pos.mpr above) (sub_pos.mpr rises)
  exact lt_max_of_lt_right (lt_min zero_lt_one slope)

theorem ramp_lt_one (rises : foot < top) (below : x < top) : ramp foot top x < 1 := by
  have slope : (x - foot) / (top - foot) < 1 := by
    rw [div_lt_one (sub_pos.mpr rises)]
    exact sub_lt_sub_right below foot
  exact max_lt zero_lt_one (min_lt_of_right_lt slope)

/-- A ramp whose foot and top both lie lower is nowhere below. -/
theorem ramp_le_ramp (rises : foot < top) (lowRises : lowFoot < lowTop) (lowerFoot : lowFoot ≤ foot)
    (lowerTop : lowTop ≤ top) : ramp foot top x ≤ ramp lowFoot lowTop x := by
  rcases le_total lowTop x with high | below
  · rw [ramp_of_ge lowRises high]
    exact ramp_le_one
  rcases le_total x foot with low | above
  · rw [ramp_of_le rises low]
    exact ramp_nonneg
  -- Between the two ends both slopes count, and they compare by cross-multiplication.
  have lowered : (x - foot) / (top - foot) ≤ (x - lowFoot) / (lowTop - lowFoot) := by
    rw [div_le_div_iff₀ (sub_pos.mpr rises) (sub_pos.mpr lowRises)]
    have cross : 0 ≤ (foot - lowFoot) * (lowTop - x) :=
      mul_nonneg (sub_nonneg.mpr lowerFoot) (sub_nonneg.mpr below)
    have gain : 0 ≤ (x - lowFoot) * (top - lowTop) :=
      mul_nonneg (by linarith) (sub_nonneg.mpr lowerTop)
    linarith
  exact max_le_max le_rfl (min_le_min le_rfl lowered)

theorem ramp_le_ramp_iff (rises : foot < top) (lowRises : lowFoot < lowTop) :
    (∀ x, ramp foot top x ≤ ramp lowFoot lowTop x) ↔ lowFoot ≤ foot ∧ lowTop ≤ top := by
  constructor
  · intro above
    constructor
    · by_contra raised
      have early := above lowFoot
      rw [ramp_of_le lowRises le_rfl] at early
      exact absurd early (ramp_pos rises (not_le.mp raised)).not_ge
    · by_contra raised
      have late := above top
      rw [ramp_of_ge rises le_rfl] at late
      exact absurd late (ramp_lt_one lowRises (not_le.mp raised)).not_ge
  · rintro ⟨lowerFoot, lowerTop⟩ x
    exact ramp_le_ramp rises lowRises lowerFoot lowerTop

end TransactionMonitoring.Ramp
