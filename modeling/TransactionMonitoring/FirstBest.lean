import Mathlib.Data.List.Basic
import Mathlib.Data.List.Induction
import Mathlib.Order.MinMax

/-! The first of the greatest items of a list, by a value in any linear order.

The list is gone through in order and an item is kept until a strictly greater one comes; an
item not above the floor is never kept.
-/
namespace TransactionMonitoring.FirstBest

universe u v
variable {α : Type u} {K : Type v} (value : α → K) (floor : K)

/-- What the next item has to exceed. -/
def bar (kept : Option α) : K := kept.elim floor value

@[simp] theorem bar_none : bar value floor none = floor := rfl

@[simp] theorem bar_some (item : α) : bar value floor (some item) = value item := rfl

variable [LinearOrder K]

def keep (kept : Option α) (item : α) : Option α := if bar value floor kept < value item then some item else kept

def firstBest (items : List α) : Option α := items.foldl (keep value floor) none

/-- The value of the item that is kept at the end. -/
def bestValue (items : List α) : K := bar value floor (firstBest value floor items)

/-- The item takes the place of whatever is kept without it, between what precedes and what follows it. -/
def Displaces (before after : List α) (item : α) : Prop :=
  (∀ other ∈ before, value other < value item) ∧ ∀ other ∈ after, value other ≤ value item

instance (before after : List α) (item : α) : Decidable (Displaces value before after item) :=
  inferInstanceAs (Decidable (_ ∧ _))

variable {value floor} {items more before added after : List α} {best item : α} {kept : Option α} {bound : K}

@[simp] theorem bestValue_nil : bestValue value floor [] = floor := rfl

theorem bar_keep (kept : Option α) (item : α) :
    bar value floor (keep value floor kept item) = max (bar value floor kept) (value item) := by
  unfold keep
  split
  · rename_i greater
    rw [bar_some, max_eq_right greater.le]
  · rename_i notGreater
    rw [max_eq_left (not_lt.mp notGreater)]

theorem bar_foldl_le_iff : bar value floor (items.foldl (keep value floor) kept) ≤ bound ↔
    bar value floor kept ≤ bound ∧ ∀ item ∈ items, value item ≤ bound := by
  induction items generalizing kept with
  | nil => simp
  | cons item rest ih => rw [List.foldl_cons, ih, bar_keep, max_le_iff, List.forall_mem_cons, and_assoc]

theorem bestValue_le_iff :
    bestValue value floor items ≤ bound ↔ floor ≤ bound ∧ ∀ item ∈ items, value item ≤ bound := bar_foldl_le_iff

theorem floor_le_bestValue : floor ≤ bestValue value floor items := (bestValue_le_iff.mp le_rfl).1

theorem le_bestValue (member : item ∈ items) : value item ≤ bestValue value floor items :=
  (bestValue_le_iff.mp le_rfl).2 item member

/-- What is kept is no lower where every item finds one at least as great. -/
theorem bestValue_mono (covered : ∀ item ∈ items, ∃ other ∈ more, value item ≤ value other) :
    bestValue value floor items ≤ bestValue value floor more := by
  refine bestValue_le_iff.mpr ⟨floor_le_bestValue, fun item member => ?_⟩
  obtain ⟨other, among, le⟩ := covered item member
  exact le.trans (le_bestValue among)

theorem foldl_of_le (low : ∀ item ∈ items, value item ≤ bar value floor kept) :
    items.foldl (keep value floor) kept = kept := by
  induction items with
  | nil => rfl
  | cons item rest ih =>
    obtain ⟨here, later⟩ := List.forall_mem_cons.mp low
    rw [List.foldl_cons, keep, if_neg (not_lt.mpr here)]
    exact ih later

theorem firstBest_of_split (above : floor < value best) (lower : ∀ other ∈ before, value other < value best)
    (notHigher : ∀ other ∈ after, value other ≤ value best) :
    firstBest value floor (before ++ best :: after) = some best := by
  have under : ∀ kept, bar value floor kept < value best →
      bar value floor (before.foldl (keep value floor) kept) < value best := by
    clear notHigher
    induction before with
    | nil => exact fun kept below => below
    | cons other rest ih =>
      obtain ⟨here, later⟩ := List.forall_mem_cons.mp lower
      intro kept below
      apply ih later
      rw [bar_keep]
      exact max_lt below here
  rw [firstBest, List.foldl_append, List.foldl_cons, keep, if_pos (under none above)]
  exact foldl_of_le notHigher

theorem firstBest_eq_none_iff : firstBest value floor items = none ↔ ∀ item ∈ items, value item ≤ floor := by
  constructor
  · intro none item member
    have low : value item ≤ bestValue value floor items := le_bestValue member
    rwa [bestValue, none] at low
  · exact fun low => @foldl_of_le _ _ _ _ _ _ none low

theorem split_of_firstBest (found : firstBest value floor items = some best) :
    ∃ before after, items = before ++ best :: after ∧ floor < value best ∧
      (∀ other ∈ before, value other < value best) ∧ ∀ other ∈ after, value other ≤ value best := by
  induction items using List.reverseRecOn with
  | nil => cases found
  | append_singleton earlier item ih =>
    have step : keep value floor (firstBest value floor earlier) item = some best := by
      rwa [firstBest, List.foldl_append] at found
    unfold keep at step
    split at step
    · rename_i greater
      obtain rfl := Option.some.inj step
      refine ⟨earlier, [], rfl, floor_le_bestValue.trans_lt greater, fun other member => ?_, by simp⟩
      exact (le_bestValue member).trans_lt greater
    · rename_i notGreater
      obtain ⟨before, after, rfl, above, lower, notHigher⟩ := ih step
      refine ⟨before, after ++ [item], by simp, above, lower, fun other member => ?_⟩
      rcases List.mem_append.mp member with earlierOne | last
      · exact notHigher other earlierOne
      · obtain rfl := List.mem_singleton.mp last
        rw [step, bar_some] at notGreater
        exact not_lt.mp notGreater

theorem mem_of_firstBest (found : firstBest value floor items = some best) : best ∈ items := by
  obtain ⟨before, after, rfl, _⟩ := split_of_firstBest found
  exact List.mem_append_right _ List.mem_cons_self

/-! ## Items put in between -/

theorem firstBest_insert_displaced (found : firstBest value floor added = some best)
    (displaces : Displaces value before after best) :
    firstBest value floor (before ++ added ++ after) = some best := by
  obtain ⟨front, back, rfl, above, lower, notHigher⟩ := split_of_firstBest found
  have shape : before ++ (front ++ best :: back) ++ after = (before ++ front) ++ best :: (back ++ after) := by simp
  rw [shape]
  apply firstBest_of_split above
  · exact List.forall_mem_append.mpr ⟨displaces.1, lower⟩
  · exact List.forall_mem_append.mpr ⟨notHigher, displaces.2⟩

/-- An item above the floor has one at least as great that is kept. -/
theorem exists_best (member : item ∈ items) (above : floor < value item) :
    ∃ top, firstBest value floor items = some top ∧ value item ≤ value top := by
  have most : value item ≤ bestValue value floor items := le_bestValue member
  cases found : firstBest value floor items with
  | none =>
    rw [bestValue, found, bar_none] at most
    exact absurd above most.not_gt
  | some top =>
    rw [bestValue, found, bar_some] at most
    exact ⟨top, rfl, most⟩

private theorem split_at {front back : List α} (shape : before ++ after = front ++ item :: back) :
    (∃ middle, before = front ++ item :: middle ∧ back = middle ++ after) ∨
      ∃ middle, front = before ++ middle ∧ after = middle ++ item :: back := by
  rcases List.append_eq_append_iff.mp shape with ⟨middle, rfl, rfl⟩ | ⟨middle, rfl, later⟩
  · exact Or.inr ⟨middle, rfl, rfl⟩
  · rcases List.cons_eq_append_iff.mp later with ⟨rfl, rfl⟩ | ⟨rest, rfl, rfl⟩
    · exact Or.inr ⟨[], by simp, rfl⟩
    · exact Or.inl ⟨rest, rfl, rfl⟩

theorem firstBest_insert_kept (kept : ∀ best ∈ firstBest value floor added, ¬ Displaces value before after best) :
    firstBest value floor (before ++ added ++ after) = firstBest value floor (before ++ after) := by
  cases found : firstBest value floor (before ++ after) with
  | none =>
    have low := List.forall_mem_append.mp (firstBest_eq_none_iff.mp found)
    rw [firstBest_eq_none_iff]
    refine List.forall_mem_append.mpr ⟨List.forall_mem_append.mpr ⟨low.1, fun item member => ?_⟩, low.2⟩
    by_contra above
    obtain ⟨top, new, most⟩ := exists_best member (not_le.mp above)
    have high := (not_le.mp above).trans_le most
    exact kept top new ⟨fun other member => (low.1 other member).trans_lt high,
      fun other member => (low.2 other member).trans high.le⟩
  | some best =>
    obtain ⟨front, back, shape, above, lower, notHigher⟩ := split_of_firstBest found
    rcases split_at shape with ⟨middle, rfl, rfl⟩ | ⟨middle, rfl, rfl⟩
    · -- What is kept stands before what is put in, which may only come level with it.
      have level : ∀ item ∈ added, value item ≤ value best := by
        intro item member
        by_contra higher
        obtain ⟨top, new, most⟩ := exists_best member (above.trans (not_le.mp higher))
        have high := (not_le.mp higher).trans_le most
        obtain ⟨inMiddle, inAfter⟩ := List.forall_mem_append.mp notHigher
        refine kept top new ⟨List.forall_mem_append.mpr ⟨fun other member => (lower other member).trans high, ?_⟩,
          fun other member => (inAfter other member).trans high.le⟩
        exact List.forall_mem_cons.mpr ⟨high, fun other member => (inMiddle other member).trans_lt high⟩
      have whole : front ++ best :: middle ++ added ++ after = front ++ best :: (middle ++ added ++ after) := by simp
      rw [whole]
      obtain ⟨inMiddle, inAfter⟩ := List.forall_mem_append.mp notHigher
      exact firstBest_of_split above lower
        (List.forall_mem_append.mpr ⟨List.forall_mem_append.mpr ⟨inMiddle, level⟩, inAfter⟩)
    · -- What is kept stands behind what is put in, which has to stay below it.
      have below : ∀ item ∈ added, value item < value best := by
        intro item member
        by_contra level
        obtain ⟨top, new, most⟩ := exists_best member (above.trans_le (not_lt.mp level))
        have high := (not_lt.mp level).trans most
        obtain ⟨inBefore, inMiddle⟩ := List.forall_mem_append.mp lower
        refine kept top new ⟨fun other member => (inBefore other member).trans_le high,
          List.forall_mem_append.mpr ⟨fun other member => (inMiddle other member).le.trans high, ?_⟩⟩
        exact List.forall_mem_cons.mpr ⟨high, fun other member => (notHigher other member).trans high⟩
      have whole : before ++ added ++ (middle ++ best :: back) = (before ++ added ++ middle) ++ best :: back := by simp
      rw [whole]
      obtain ⟨inBefore, inMiddle⟩ := List.forall_mem_append.mp lower
      exact firstBest_of_split above
        (List.forall_mem_append.mpr ⟨List.forall_mem_append.mpr ⟨inBefore, below⟩, inMiddle⟩) notHigher

end TransactionMonitoring.FirstBest
