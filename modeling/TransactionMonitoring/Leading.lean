import Mathlib.Data.List.Perm.Subperm
import Mathlib.Order.Lattice

/-! The greatest few of what is wanted, the greatest first.

A key orders the items.  There is one way to list the greatest of them: it depends on what is wanted
and on how many may be listed, not on how they are come by.
-/
namespace TransactionMonitoring.Leading

variable {α K : Type*} [LinearOrder K] (key : α → K)

structure IsLeading (wanted : α → Prop) (limit : Option ℕ) (listed : List α) : Prop where
  falling : listed.Pairwise fun first later => key later < key first
  among : ∀ item ∈ listed, wanted item
  within : ∀ most ∈ limit, listed.length ≤ most
  /-- What is left out comes after a full list. -/
  rest : ∀ item, wanted item → item ∈ listed ∨ limit = some listed.length ∧ ∀ first ∈ listed, key item < key first

variable {key} {wanted : α → Prop} {limit : Option ℕ} {listed other : List α}

/-- The first of everything wanted, in order. -/
theorem isLeading_take (falling : listed.Pairwise fun first later => key later < key first)
    (all : ∀ item, item ∈ listed ↔ wanted item) (most : ℕ) : IsLeading key wanted (some most) (listed.take most) where
  falling := falling.sublist (List.take_sublist most listed)
  among item member := (all item).mp (List.mem_of_mem_take member)
  within := by
    rintro _ ⟨⟩
    exact List.length_take_le most listed
  rest item isWanted := by
    have member := (all item).mpr isWanted
    rw [← List.take_append_drop most listed] at member
    rcases List.mem_append.mp member with early | late
    · exact .inl early
    · rw [← List.take_append_drop most listed, List.pairwise_append] at falling
      refine .inr ⟨?_, fun first before => falling.2.2 first before item late⟩
      have long : 0 < (listed.drop most).length := List.length_pos_of_mem late
      rw [List.length_drop] at long
      rw [List.length_take, Nat.min_eq_left (by omega)]

theorem isLeading_all (falling : listed.Pairwise fun first later => key later < key first)
    (all : ∀ item, item ∈ listed ↔ wanted item) : IsLeading key wanted none listed where
  falling := falling
  among item := (all item).mp
  within := by
    rintro _ ⟨⟩
  rest item isWanted := .inl ((all item).mpr isWanted)

theorem IsLeading.nodup (leading : IsLeading key wanted limit listed) : listed.Nodup :=
  leading.falling.imp fun less same => absurd (same ▸ less) (lt_irrefl _)

/-- Nothing in one list is missing from the other: a list missing it would be full, and all of it would be
greater, with something the first list left out for it. -/
theorem IsLeading.subset (first : IsLeading key wanted limit listed) (second : IsLeading key wanted limit other) :
    listed ⊆ other := by
  intro item member
  rcases second.rest item (first.among item member) with found | ⟨full, below⟩
  · exact found
  by_contra missing
  have short : listed.length ≤ other.length := first.within _ full
  -- Both would have to fit into the one list.
  have dropped : ∃ lost ∈ other, lost ∉ listed := by
    by_contra none
    push Not at none
    have distinct : (item :: other).Nodup := List.nodup_cons.mpr ⟨missing, second.nodup⟩
    have longer := (List.subperm_of_subset distinct (List.cons_subset.mpr ⟨member, none⟩)).length_le
    rw [List.length_cons] at longer
    omega
  obtain ⟨lost, inOther, notListed⟩ := dropped
  rcases first.rest lost (second.among lost inOther) with found | ⟨-, less⟩
  · exact notListed found
  · exact lt_asymm (less item member) (below lost inOther)

/-- **There is one list of the leading items.** -/
theorem IsLeading.unique (first : IsLeading key wanted limit listed) (second : IsLeading key wanted limit other) :
    listed = other := by
  have perm : listed.Perm other :=
    (List.perm_ext_iff_of_nodup first.nodup second.nodup).mpr fun item =>
      ⟨fun member => first.subset second member, fun member => second.subset first member⟩
  exact perm.eq_of_pairwise (fun _ _ _ _ less greater => absurd greater (lt_asymm less)) first.falling second.falling

end TransactionMonitoring.Leading
