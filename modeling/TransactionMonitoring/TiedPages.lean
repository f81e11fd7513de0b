import Mathlib.Data.List.Perm.Basic
import Mathlib.Data.List.Nodup
import TransactionMonitoring.Paging
import TransactionMonitoring.SortedWindows
import TransactionMonitoring.SubsetSums

/-! Pages of a table whose sorting key leaves ties.

Each page is a query of its own, and sorts the table anew: the greatest key first, and rows of one key
in any order.  The pages fit together whatever these orders are exactly where no page begins between
two rows of one key.
-/
namespace TransactionMonitoring.TiedPages

open Paging SortedWindows

variable {α β : Type} (key : α → ℕ)

/-- A way to sort the rows, the greatest key first. -/
structure Ordered (rows order : List α) : Prop where
  perm : order.Perm rows
  falling : order.Pairwise fun first later => key later ≤ key first

/-- The pages of a size one after the other, each from the order that its query came upon. -/
def allPages (size : ℕ) (rows : List α) (orders : ℕ → List α) : List α :=
  (List.range ((rows.length + size - 1) / size)).flatMap fun page => window (page * size) size (orders page)

/-- No page begins between two rows of one key. -/
def Unsplit (size : ℕ) (rows : List α) : Prop :=
  ∀ page value, (rows.countP fun row => value < key row) < page * size →
    (rows.countP fun row => value ≤ key row) ≤ page * size

variable {key} {rows order other : List α} {size : ℕ} {orders : ℕ → List α}

/-- Consecutive pages of one order. -/
theorem flatMap_window (size start count : ℕ) (order : List α) :
    ((List.range' start count).flatMap fun page => window (page * size) size order) =
      window (start * size) (count * size) order := by
  induction count with
  | zero => simp [window]
  | succ count ih =>
    rw [List.range'_concat, List.flatMap_append, ih, Nat.one_mul, List.flatMap_singleton, Nat.add_mul, window_append,
      ← Nat.succ_mul]

theorem pages_reach (positive : 0 < size) (rows : List α) : rows.length ≤ (rows.length + size - 1) / size * size := by
  have divided := Nat.div_add_mod (rows.length + size - 1) size
  have rest := Nat.mod_lt (rows.length + size - 1) positive
  rw [Nat.mul_comm] at divided
  omega

/-- Where one order serves all pages, they are the order. -/
theorem allPages_const (positive : 0 < size) (same : order.length = rows.length) :
    allPages size rows (fun _ => order) = order := by
  rw [allPages, List.range_eq_range', flatMap_window, Nat.zero_mul, window, List.drop_zero]
  exact List.take_of_length_le (same ▸ pages_reach positive rows)

/-- How many rows all pages have does not depend on the orders. -/
theorem length_allPages (positive : 0 < size) (ordered : ∀ page, (orders page).Perm rows) :
    (allPages size rows orders).length = rows.length := by
  have same : (allPages size rows orders).length = (allPages size rows fun _ => rows).length := by
    simp only [allPages, List.length_flatMap, window, List.length_take, List.length_drop, (ordered _).length_eq]
  rw [same, allPages_const positive rfl]

/-! ## Where no page splits a key -/

/-- In an order the rows from a value on are the first ones. -/
theorem take_countP (falling : order.Pairwise fun first later => key later ≤ key first) (value : ℕ) :
    order.take (order.countP fun row => value ≤ key row) = order.filter fun row => value ≤ key row := by
  induction order with
  | nil => rfl
  | cons row rest ih =>
    rw [List.pairwise_cons] at falling
    by_cases high : value ≤ key row
    · rw [List.countP_cons_of_pos (by simpa using high), List.take_succ_cons, ih falling.2,
        List.filter_cons_of_pos (by simpa using high)]
    · have none (later : α) (member : later ∈ row :: rest) : ¬ value ≤ key later := by
        rcases List.mem_cons.mp member with rfl | behind
        · exact high
        · exact fun le => high (le.trans (falling.1 later behind))
      rw [List.countP_eq_zero.mpr (by simpa using none), List.take_zero,
        List.filter_eq_nil_iff.mpr (by simpa using none)]

/-- The row at a place reaches a value if there are more rows that do. -/
theorem reaches_iff (falling : order.Pairwise fun first later => key later ≤ key first) (value : ℕ) {place : ℕ}
    (inside : place < order.length) :
    value ≤ key order[place] ↔ place < order.countP fun row => value ≤ key row := by
  rw [← SubsetSums.lt_countP_iff (falling.imp fun less reached => ?_) inside, decide_eq_true_eq]
  rw [decide_eq_true_eq] at reached ⊢
  exact reached.trans less

/-- Before a page the same rows come in every order. -/
theorem take_perm (unsplit : Unsplit key size rows) (one : Ordered key rows order) (two : Ordered key rows other)
    (page : ℕ) : (order.take (page * size)).Perm (other.take (page * size)) := by
  have both : order.Perm other := one.perm.trans two.perm.symm
  rcases Nat.lt_or_ge (page * size) order.length with inside | beyond
  · cases start : page * size with
    | zero => simp
    | succ before =>
      -- The value of the last row before the page parts the rows there.
      have here : before < order.length := by omega
      have reached := (reaches_iff one.falling (key order[before]) here).mp le_rfl
      have above : ¬ before < order.countP fun row => key order[before] + 1 ≤ key row := fun less =>
        absurd ((reaches_iff one.falling (key order[before] + 1) here).mpr less) (Nat.not_succ_le_self _)
      have parted := unsplit page (key order[before]) (by
        rw [← one.perm.countP_eq, start]
        simp only [Nat.lt_iff_add_one_le]
        omega)
      rw [← one.perm.countP_eq, start] at parted
      have count : before + 1 = order.countP fun row => key order[before] ≤ key row := by omega
      rw [count, take_countP one.falling, both.countP_eq, take_countP two.falling]
      exact both.filter _
  · rw [List.take_of_length_le beyond, List.take_of_length_le (both.length_eq ▸ beyond)]
    exact both

theorem window_perm (unsplit : Unsplit key size rows) (one : Ordered key rows order) (two : Ordered key rows other)
    (page : ℕ) : (window (page * size) size order).Perm (window (page * size) size other) := by
  have next := take_perm unsplit one two (page + 1)
  rw [Nat.succ_mul, List.take_add, List.take_add] at next
  exact (List.perm_append_left_iff _).mp (((take_perm unsplit one two page).append_right _).symm.trans next)

/-! ## Where a page does -/

/-- Two neighbours of one key may as well come the other way round. -/
theorem Ordered.swap {front back : List α} {first second : α}
    (ordered : Ordered key rows (front ++ first :: second :: back))
    (tied : key first = key second) : Ordered key rows (front ++ second :: first :: back) := by
  refine ⟨((List.Perm.swap first second back).append_left front).trans ordered.perm, ?_⟩
  have falling := ordered.falling
  simp only [List.pairwise_append, List.pairwise_cons, List.forall_mem_cons] at falling ⊢
  obtain ⟨before, ⟨⟨-, firstBack⟩, secondBack, behind⟩, across⟩ := falling
  refine ⟨before, ⟨⟨tied.le, secondBack⟩, firstBack, behind⟩, fun row member => ?_⟩
  obtain ⟨overFirst, overSecond, overBack⟩ := across row member
  exact ⟨overSecond, overFirst, overBack⟩

/-- A page that begins between two rows of one key has one of them on either side. -/
theorem Ordered.exists_tied {place value : ℕ} (ordered : Ordered key rows order)
    (before : (rows.countP fun row => value < key row) < place)
    (split : place < rows.countP fun row => value ≤ key row) :
    ∃ front first second back, order = front ++ first :: second :: back ∧ front.length + 1 = place ∧
      key first = key second := by
  rw [← ordered.perm.countP_eq] at before split
  obtain ⟨last, rfl⟩ := Nat.exists_eq_add_of_lt (Nat.zero_lt_of_lt before)
  rw [Nat.zero_add] at before split
  have long := List.countP_le_length (p := fun row => decide (value ≤ key row)) (l := order)
  have here : last < order.length := by omega
  have next : last + 1 < order.length := by omega
  have atValue (at_ : ℕ) (inside : at_ < order.length) (low : last ≤ at_) (high : at_ ≤ last + 1) :
      key order[at_] = value := by
    refine Nat.le_antisymm (Nat.not_lt.mp fun above => ?_) ((reaches_iff ordered.falling value inside).mpr (by omega))
    have less := (reaches_iff ordered.falling (value + 1) inside).mp above
    simp only [Nat.add_one_le_iff] at less
    omega
  refine ⟨order.take last, order[last], order[last + 1], order.drop (last + 2), ?_, ?_, ?_⟩
  · rw [← List.drop_eq_getElem_cons next, ← List.drop_eq_getElem_cons here, List.take_append_drop]
  · rw [List.length_take_of_le here.le, Nat.zero_add]
  · exact (atValue last here le_rfl (by omega)).trans (atValue (last + 1) next (by omega) le_rfl).symm

/-- With the order turned round at a page, the pages before it and those from it on are of one order each. -/
theorem allPages_turned (positive : 0 < size) {page : ℕ} (inside : page * size ≤ rows.length)
    (turned : other.length = rows.length) :
    allPages size rows (fun current => if current < page then order else other) =
      order.take (page * size) ++ other.drop (page * size) := by
  have reach := pages_reach positive rows
  have early : page ≤ (rows.length + size - 1) / size := Nat.le_of_mul_le_mul_right (inside.trans reach) positive
  obtain ⟨rest, pages⟩ := Nat.exists_eq_add_of_le early
  rw [pages, Nat.add_mul] at reach
  rw [allPages, pages, List.range_eq_range', ← List.range'_append_1, List.flatMap_append, Nat.zero_add]
  congr 1
  · rw [show order.take (page * size) = window (0 * size) (page * size) order by simp [window], ← flatMap_window]
    refine List.flatMap_congr fun current member => ?_
    rw [if_pos (by simpa using (List.mem_range'_1.mp member).2)]
  · rw [show other.drop (page * size) = window (page * size) (rest * size) other by
      rw [window, List.take_of_length_le]
      rw [List.length_drop, turned]
      omega, ← flatMap_window]
    refine List.flatMap_congr fun current member => ?_
    rw [if_neg (Nat.not_lt.mpr (List.mem_range'_1.mp member).1)]

/-- **The pages have every row once, whatever orders their queries come upon, exactly where no page splits a key.**
Rows are told apart by `name`. -/
theorem allPages_perm_iff (positive : 0 < size) (name : α → β) (distinct : (rows.map name).Nodup)
    (sorts : ∃ order, Ordered key rows order) :
    (∀ orders : ℕ → List α, (∀ page, Ordered key rows (orders page)) →
      ((allPages size rows orders).map name).Perm (rows.map name)) ↔ Unsplit key size rows := by
  constructor
  · intro whole page value before
    obtain ⟨order, ordered⟩ := sorts
    by_contra split
    obtain ⟨front, first, second, back, rfl, start, tied⟩ := ordered.exists_tied before (Nat.not_le.mp split)
    have turned := ordered.swap tied
    have perm := whole (fun current => if current < page then front ++ first :: second :: back else
      front ++ second :: first :: back) fun current => by
        split
        · exact ordered
        · exact turned
    have inside : page * size ≤ rows.length := by
      rw [← start, ← ordered.perm.length_eq, List.length_append, List.length_cons, List.length_cons]
      omega
    rw [allPages_turned positive inside turned.perm.length_eq, ← start] at perm
    -- The first row comes at the end of one page and at the beginning of the next.
    have twice : (front ++ first :: second :: back).take (front.length + 1) ++
        (front ++ second :: first :: back).drop (front.length + 1) = front ++ first :: first :: back := by
      rw [List.take_length_add_append, List.drop_length_add_append, List.append_assoc]
      rfl
    rw [twice] at perm
    have once := perm.nodup_iff.mpr distinct
    rw [List.map_append, List.map_cons, List.map_cons, List.nodup_append] at once
    exact (List.nodup_cons.mp once.2.1).1 List.mem_cons_self
  · intro unsplit orders ordered
    refine List.Perm.map name ((List.Perm.flatMap_left _ fun page _ =>
      window_perm unsplit (ordered page) (ordered 0) page).trans ?_)
    have one := allPages_const positive (ordered 0).perm.length_eq
    rw [allPages] at one
    exact (List.Perm.of_eq one).trans (ordered 0).perm

end TransactionMonitoring.TiedPages
