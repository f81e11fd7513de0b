import Mathlib.Data.List.Basic

/-! Ordered reads and calls that may fail, for any store.

A statement sent to a store is answered, or it raises.  When it raises the caller
cannot tell whether its effect took place: `lost` says it did not, `late` that it did.
-/
namespace TransactionMonitoring.Faults

/-- What becomes of one statement. -/
inductive Outcome where
  | answered
  | lost
  | late
deriving DecidableEq, Repr

/-- The statement took effect. -/
def Outcome.applies : Outcome → Bool
  | .answered | .late => true
  | .lost => false

/-- The caller saw it return. -/
def Outcome.returns : Outcome → Bool
  | .answered => true
  | .lost | .late => false

@[simp] theorem Outcome.applies_answered : Outcome.answered.applies = true := rfl
@[simp] theorem Outcome.applies_lost : Outcome.lost.applies = false := rfl
@[simp] theorem Outcome.applies_late : Outcome.late.applies = true := rfl
@[simp] theorem Outcome.returns_answered : Outcome.answered.returns = true := rfl
@[simp] theorem Outcome.returns_lost : Outcome.lost.returns = false := rfl
@[simp] theorem Outcome.returns_late : Outcome.late.returns = false := rfl

theorem Outcome.applies_of_returns {outcome : Outcome} (returned : outcome.returns = true) :
    outcome.applies = true := by
  cases outcome with
  | answered => rfl
  | lost => cases returned
  | late => cases returned

/-- Every finite read has an answer ordered by a total preorder. -/
theorem exists_ordered {α : Type*} (le : α → α → Prop) [DecidableRel le]
    (trans : ∀ first second third, le first second → le second third → le first third)
    (total : ∀ first second, le first second ∨ le second first) (rows : List α) :
    ∃ order : List α, order.Perm rows ∧ order.Pairwise le := by
  refine ⟨rows.mergeSort fun first second => le first second, List.mergeSort_perm _ _, ?_⟩
  have sorted := @List.pairwise_mergeSort α (fun first second => decide (le first second))
    (by simpa using trans) (by simpa using total) rows
  simpa using sorted

end TransactionMonitoring.Faults
