import Mathlib.Data.List.Basic

/-! Lists cut into pages of one size, for any items. -/
namespace TransactionMonitoring.Paging

universe u
variable {α : Type u}

/-- The items in pages of `count`, the last one possibly short. -/
def pages (count : Nat) (items : List α) : List (List α) :=
  (List.range ((items.length + count - 1) / count)).map fun index =>
    (items.drop (index * count)).take count

@[simp] theorem pages_nil (count : Nat) : pages count ([] : List α) = [] := by
  have none : (0 + count - 1) / count = 0 := by
    rcases Nat.eq_zero_or_pos count with rfl | positive
    · rfl
    · exact Nat.div_eq_of_lt (by omega)
  rw [pages, List.length_nil, none]
  rfl

/-- The first page, and the pages of what is left. -/
theorem pages_of_ne_nil {count : Nat} {items : List α} (positive : 0 < count) (some : items ≠ []) :
    pages count items = items.take count :: pages count (items.drop count) := by
  have length : 0 < items.length := List.length_pos_iff.mpr some
  have split : (items.length + count - 1) / count = (items.length - count + count - 1) / count + 1 := by
    rcases Nat.lt_or_ge count items.length with long | short
    · have shape : items.length + count - 1 = (items.length - count + count - 1) + count := by omega
      rw [shape, Nat.add_div_right _ positive]
    · have one : items.length + count - 1 = (items.length - 1) + count := by omega
      have rest : items.length - count + count - 1 = count - 1 := by omega
      rw [one, rest, Nat.add_div_right _ positive, Nat.div_eq_of_lt (by omega),
        Nat.div_eq_of_lt (by omega)]
  simp only [pages, List.length_drop]
  rw [split, List.range_succ_eq_map, List.map_cons, List.map_map]
  congr 1
  · simp
  · refine List.map_congr_left fun index _ => ?_
    simp only [Function.comp_apply, List.drop_drop]
    rw [Nat.succ_mul, Nat.add_comm]

theorem pages_eq_nil_iff {count : Nat} {items : List α} (positive : 0 < count) :
    pages count items = [] ↔ items = [] := by
  constructor
  · intro empty
    by_contra some
    rw [pages_of_ne_nil positive some] at empty
    cases empty
  · rintro rfl
    exact pages_nil count

/-- No item is left out. -/
theorem flatten_pages {count : Nat} (positive : 0 < count) (items : List α) :
    (pages count items).flatten = items := by
  induction shape : items.length using Nat.strongRecOn generalizing items with
  | ind length ih =>
    by_cases empty : items = []
    · simp [empty]
    · have some : 0 < items.length := List.length_pos_iff.mpr empty
      rw [pages_of_ne_nil positive empty, List.flatten_cons,
        ih (items.drop count).length (by simp; omega) _ rfl, List.take_append_drop]

end TransactionMonitoring.Paging
