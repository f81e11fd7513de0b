import Mathlib.Order.Lattice

/-! Windows of time and what they cover together, for any time that is linearly and densely
ordered.  Windows that reach no further than `high` are extended by one that starts no later.
-/
namespace TransactionMonitoring.Coverage

universe u
variable {τ : Type u} [LinearOrder τ]

structure Window (τ : Type u) [LE τ] where
  start : τ
  stop : τ
  ordered : start ≤ stop
deriving DecidableEq

/-- Every instant from `low` to `high` lies in one of the windows. -/
def Covered (windows : List (Window τ)) (low high : τ) : Prop :=
  ∀ instant, low ≤ instant → instant ≤ high → ∃ window ∈ windows, window.start ≤ instant ∧ instant ≤ window.stop

theorem covered_singleton_iff {window : Window τ} {low : τ} (below : low ≤ window.stop) :
    Covered [window] low window.stop ↔ window.start ≤ low := by
  constructor
  · intro covered
    obtain ⟨found, member, starts, _⟩ := covered low (le_refl low) below
    obtain rfl := List.mem_singleton.mp member
    exact starts
  · intro starts instant above within
    exact ⟨window, List.mem_singleton_self window, le_trans starts above, within⟩

theorem covered_concat_iff [DenselyOrdered τ] {windows : List (Window τ)} {window : Window τ} {low high : τ}
    (covered : Covered windows low high) (below : low ≤ high) (bounded : ∀ earlier ∈ windows, earlier.stop ≤ high) :
    Covered (windows ++ [window]) low window.stop ↔ window.start ≤ high := by
  constructor
  · intro extended
    by_contra late
    obtain ⟨instant, after, before⟩ := exists_between (not_le.mp late)
    obtain ⟨found, member, starts, stops⟩ :=
      extended instant (le_trans below after.le) (le_trans before.le window.ordered)
    rcases List.mem_append.mp member with earlier | last
    · exact absurd (le_trans stops (bounded found earlier)) (not_le.mpr after)
    · obtain rfl := List.mem_singleton.mp last
      exact absurd starts (not_le.mpr before)
  · intro starts instant above within
    rcases le_or_gt instant high with early | late
    · obtain ⟨found, member, inside⟩ := covered instant above early
      exact ⟨found, List.mem_append_left _ member, inside⟩
    · exact ⟨window, List.mem_append_right _ (List.mem_singleton_self window), le_trans starts late.le, within⟩

end TransactionMonitoring.Coverage
