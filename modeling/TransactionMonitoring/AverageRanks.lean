import Mathlib.Algebra.Order.Field.Rat
import Mathlib.Algebra.Order.Ring.Cast
import Mathlib.Data.Finset.Max
import Mathlib.Data.List.Basic
import Mathlib.Order.Monotone.Defs
import Mathlib.Tactic.Linarith
import Mathlib.Tactic.Push

/-! Ranks with ties averaged, and the top that a threshold on them cuts off.

Values that are equal share the mean of the places they take, so a rank depends on the order of the
values alone.  A tie shared at the threshold can lift more values over it than its quantile says, but
never more than twice as many.
-/
namespace TransactionMonitoring.AverageRanks

section
variable {α : Type*} [LinearOrder α] (values : List α)

/-- The mean place, from one on, of the values equal to this one. -/
def averageRank (value : α) : ℚ := (values.countP (· < value) : ℚ) + (values.count value + 1) / 2

/-- The rank as a fraction of the highest, from zero on. -/
def rankNorm (value : α) : ℚ :=
  if values.length ≤ 1 then 0 else (averageRank values value - 1) / ((values.length : ℚ) - 1)

variable {values} {value higher : α}

/-- What is below a value, and the value's own ties, is below any higher one. -/
theorem countP_add_count_le (above : value < higher) :
    values.countP (· < value) + values.count value ≤ values.countP (· < higher) := by
  induction values with
  | nil => exact Nat.le_refl 0
  | cons head rest ih =>
    simp only [List.countP_cons, List.count_cons]
    obtain below | rfl | beyond := lt_trichotomy head value
    · simp only [below, below.trans above, below.ne, decide_true, if_true, beq_iff_eq, if_false]
      omega
    · simp only [above, lt_irrefl, decide_true, decide_false, if_true, beq_self_eq_true, Bool.false_eq_true, if_false]
      omega
    · simp only [beyond.not_gt, beyond.ne', decide_false, beq_iff_eq, Bool.false_eq_true, if_false]
      omega

/-- A higher value of the list ranks higher. -/
theorem averageRank_lt (above : value < higher) (there : value ∈ values) :
    averageRank values value < averageRank values higher := by
  have places : (values.countP (· < value) + values.count value : ℚ) ≤ values.countP (· < higher) := by
    exact_mod_cast countP_add_count_le above
  have own : (1 : ℚ) ≤ values.count value := by
    exact_mod_cast List.count_pos_iff.mpr there
  have others : (0 : ℚ) ≤ values.count higher := by
    positivity
  rw [averageRank, averageRank]
  linarith

omit [LinearOrder α] in
/-- Two different values only fit into a list that has a rank to tell them apart. -/
theorem one_lt_length (there : value ∈ values) (thereToo : higher ∈ values) (different : value ≠ higher) :
    1 < values.length := by
  by_contra short
  match values, there, thereToo with
  | [_], here, hereToo => exact different ((List.mem_singleton.mp here).trans (List.mem_singleton.mp hereToo).symm)
  | _ :: _ :: _, _, _ => exact short (by simp)

theorem rankNorm_lt (above : value < higher) (there : value ∈ values) (thereToo : higher ∈ values) :
    rankNorm values value < rankNorm values higher := by
  have several := one_lt_length there thereToo above.ne
  have positive : (0 : ℚ) < values.length - 1 := by
    have : (1 : ℚ) < values.length := by exact_mod_cast several
    linarith
  rw [rankNorm, rankNorm, if_neg several.not_ge, if_neg several.not_ge]
  exact div_lt_div_of_pos_right (sub_lt_sub_right (averageRank_lt above there) 1) positive

theorem rankNorm_le (above : value ≤ higher) (there : value ∈ values) (thereToo : higher ∈ values) :
    rankNorm values value ≤ rankNorm values higher := by
  obtain strictly | rfl := above.lt_or_eq
  · exact (rankNorm_lt strictly there thereToo).le
  · exact le_rfl

/-- What increases strictly moves no rank. -/
theorem rankNorm_map {β : Type*} [LinearOrder β] {rescale : α → β} (increasing : StrictMono rescale) :
    rankNorm (values.map rescale) (rescale value) = rankNorm values value := by
  have below : (values.map rescale).countP (· < rescale value) = values.countP (· < value) := by
    rw [List.countP_map]
    refine List.countP_congr fun other _ => ?_
    simp only [Function.comp_apply, decide_eq_true_eq]
    exact increasing.lt_iff_lt
  have tied : (values.map rescale).count (rescale value) = values.count value := by
    rw [List.count, List.count, List.countP_map]
    refine List.countP_congr fun other _ => ?_
    simp only [Function.comp_apply, beq_iff_eq]
    exact increasing.injective.eq_iff
  rw [rankNorm, rankNorm, averageRank, averageRank, below, tied, List.length_map]

/-- Every value is below, tied or above. -/
theorem countP_add_count_add_countP (values : List α) (value : α) :
    values.countP (· < value) + values.count value + values.countP (value < ·) = values.length := by
  induction values with
  | nil => rfl
  | cons head rest ih =>
    simp only [List.countP_cons, List.count_cons, List.length_cons]
    obtain below | rfl | beyond := lt_trichotomy head value
    · simp only [below, below.not_gt, below.ne, decide_true, decide_false, if_true, beq_iff_eq, if_false,
        Bool.false_eq_true]
      omega
    · simp only [lt_irrefl, decide_false, beq_self_eq_true, if_true, Bool.false_eq_true, if_false]
      omega
    · simp only [beyond, beyond.not_gt, beyond.ne', decide_true, decide_false, if_true, beq_iff_eq, if_false,
        Bool.false_eq_true]
      omega

/-- A value that reaches the threshold has few above it: its ties count by half. -/
theorem countP_gt_le {quantile : ℚ} (several : 1 < values.length) (reaches : 1 - quantile ≤ rankNorm values value) :
    (values.countP (value < ·) : ℚ) + ((values.count value : ℚ) - 1) / 2 ≤ quantile * (values.length - 1) := by
  have positive : (0 : ℚ) < values.length - 1 := by
    have : (1 : ℚ) < values.length := by exact_mod_cast several
    linarith
  have total : (values.countP (· < value) : ℚ) + values.count value + values.countP (value < ·) = values.length := by
    exact_mod_cast countP_add_count_add_countP values value
  rw [rankNorm, if_neg several.not_ge, le_div_iff₀ positive, averageRank] at reaches
  linarith

/-- How many values reach a threshold. -/
def reaching (values : List α) (threshold : ℚ) : ℕ := values.countP fun value => threshold ≤ rankNorm values value

/-- The top of a quantile is at most twice the quantile, and one. -/
theorem reaching_le (values : List α) {quantile : ℚ} (some_ : 0 < values.length) (share : 0 ≤ quantile) :
    (reaching values (1 - quantile) : ℚ) ≤ 2 * (quantile * (values.length - 1)) + 1 := by
  have longer : (1 : ℚ) ≤ values.length := by exact_mod_cast some_
  have room : 0 ≤ quantile * ((values.length : ℚ) - 1) := mul_nonneg share (by linarith)
  by_cases several : 1 < values.length
  · -- The lowest value that reaches the threshold has all others at or above it.
    by_cases none : values.filter (fun value => 1 - quantile ≤ rankNorm values value) = []
    · rw [reaching, List.countP_eq_length_filter, none, List.length_nil, Nat.cast_zero]
      linarith
    · obtain ⟨lowest, among, least⟩ := Finset.exists_min_image
        (values.filter fun value => 1 - quantile ≤ rankNorm values value).toFinset id
        (List.toFinset_nonempty_iff _ |>.mpr none)
      obtain ⟨there, reaches⟩ := List.mem_filter.mp (List.mem_toFinset.mp among)
      have few := countP_gt_le several (of_decide_eq_true reaches)
      have covered : reaching values (1 - quantile) ≤ values.count lowest + values.countP (lowest < ·) := by
        have mono : reaching values (1 - quantile) ≤ values.countP fun value => lowest ≤ value := by
          refine List.countP_mono_left fun value member high => decide_eq_true ?_
          exact least value (List.mem_toFinset.mpr (List.mem_filter.mpr ⟨member, high⟩))
        have total := countP_add_count_add_countP values lowest
        have rest := List.length_eq_countP_add_countP (fun value => decide (lowest ≤ value)) (l := values)
        have below : values.countP (fun value => !decide (lowest ≤ value)) = values.countP (· < lowest) :=
          List.countP_congr fun value _ => by simp
        simp only [Bool.not_eq_true, Bool.decide_eq_false] at rest
        rw [below] at rest
        omega
      have coveredToo : (reaching values (1 - quantile) : ℚ) ≤ values.count lowest + values.countP (lowest < ·) := by
        exact_mod_cast covered
      have above : (0 : ℚ) ≤ values.countP (lowest < ·) := Nat.cast_nonneg _
      linarith
  · have single : values.length = 1 := by omega
    have all : reaching values (1 - quantile) ≤ values.length := List.countP_le_length
    have most : (reaching values (1 - quantile) : ℚ) ≤ 1 := by
      exact_mod_cast single ▸ all
    linarith

end

end TransactionMonitoring.AverageRanks
