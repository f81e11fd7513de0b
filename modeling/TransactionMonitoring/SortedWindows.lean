import Mathlib.Data.List.Sort

/-! Windows of a stable sort of two lists, one of them already in order.

Sorting `first ++ second` stably inserts the elements of `first` into `second`, and each
insertion shifts the rest by one place at most.  A window of the result therefore depends on
a window of `second` only, wider at the front by as many places as `first` has elements.
-/
namespace TransactionMonitoring.SortedWindows

variable {α : Type*} (r : α → α → Prop) [DecidableRel r]

/-- The places `offset` to `offset + limit` of a list. -/
def window (offset limit : Nat) (list : List α) : List α := (list.drop offset).take limit

theorem window_append (offset limit more : Nat) (list : List α) :
    window offset limit list ++ window (offset + limit) more list = window offset (limit + more) list := by
  simp only [window, ← List.drop_drop, List.take_add]

theorem window_map {β : Type*} (f : α → β) (offset limit : Nat) (list : List α) :
    window offset limit (list.map f) = (window offset limit list).map f := by
  rw [window, window, ← List.map_drop, ← List.map_take]

theorem mem_of_mem_window {offset limit : Nat} {list : List α} {element : α}
    (member : element ∈ window offset limit list) : element ∈ list :=
  List.mem_of_mem_drop (List.mem_of_mem_take member)

/-- A window ends where a sufficient prefix of the list ends. -/
theorem window_take {offset limit length : Nat} (long : offset + limit ≤ length) (list : List α) :
    window offset limit (list.take length) = window offset limit list := by
  rw [window, window, List.drop_take, List.take_take]
  congr 1
  omega

theorem window_of_drop_eq {offset limit position : Nat} {list other : List α}
    (same : list.drop offset = other.drop position) : window offset limit list = window position limit other := by
  rw [window, window, same]

/-- Sorting inserts the elements of the first list into the second, where that is sorted. -/
theorem insertionSort_append {first second : List α} (sorted : second.Pairwise r) :
    (first ++ second).insertionSort r = first.foldr (List.orderedInsert r) second := by
  rw [List.insertionSort, List.foldr_append]
  congr 1
  exact sorted.insertionSort_eq

/-- What lies beyond a prefix has no part in the prefix after an insertion. -/
theorem take_orderedInsert (element : α) (list : List α) (length : Nat) :
    (list.orderedInsert r element).take length = ((list.take length).orderedInsert r element).take length := by
  induction list generalizing length with
  | nil => simp
  | cons head tail ih =>
    cases length with
    | zero => simp
    | succ length =>
      by_cases before : r element head
      · rw [List.take_succ_cons, List.orderedInsert_cons_of_le r _ before,
          List.orderedInsert_cons_of_le r _ before, List.take_succ_cons, List.take_succ_cons]
        cases length with
        | zero => simp
        | succ length => rw [List.take_succ_cons, List.take_succ_cons, List.take_take]; simp
      · rw [List.take_succ_cons, List.orderedInsert_of_not_le r _ before,
          List.orderedInsert_of_not_le r _ before, List.take_succ_cons, List.take_succ_cons, ih]

theorem take_foldr_orderedInsert (first second : List α) (length : Nat) :
    (first.foldr (List.orderedInsert r) second).take length =
      (first.foldr (List.orderedInsert r) (second.take length)).take length := by
  induction first with
  | nil => rw [List.foldr_nil, List.foldr_nil, List.take_take, Nat.min_self]
  | cons element rest ih =>
    rw [List.foldr_cons, List.foldr_cons, take_orderedInsert, ih, ← take_orderedInsert]

theorem window_foldr_take (first second : List α) (offset limit : Nat) :
    window offset limit (first.foldr (List.orderedInsert r) (second.take (offset + limit))) =
      window offset limit (first.foldr (List.orderedInsert r) second) := by
  rw [← window_take (le_refl _), ← take_foldr_orderedInsert, window_take (le_refl _)]

variable [IsTrans α r]

/-- What precedes a suffix of a sorted list has no part in the suffix after an insertion. -/
theorem drop_orderedInsert (element : α) {list : List α} (sorted : list.Pairwise r) (length : Nat) :
    (list.orderedInsert r element).drop (length + 1) = ((list.drop length).orderedInsert r element).drop 1 := by
  induction list generalizing length with
  | nil => simp
  | cons head tail ih =>
    cases length with
    | zero => rfl
    | succ length =>
      obtain ⟨first, sorted⟩ := List.pairwise_cons.mp sorted
      rw [List.drop_succ_cons]
      by_cases before : r element head
      · -- The element comes before everything that is left, so it is what the last drop removes.
        have least : ∀ other ∈ tail.drop length, r element other := fun other member =>
          IsTrans.trans _ _ _ before (first other (List.mem_of_mem_drop member))
        rw [List.orderedInsert_cons_of_le r _ before]
        cases rest : tail.drop length with
        | nil => simp [rest]
        | cons next later =>
          rw [List.orderedInsert_cons_of_le r _ (least next (by simp [rest]))]
          simp [rest]
      · rw [List.orderedInsert_of_not_le r _ before, List.drop_succ_cons, ih sorted]

variable [Std.Total r]

theorem foldr_orderedInsert_pairwise {second : List α} (sorted : second.Pairwise r) (first : List α) :
    (first.foldr (List.orderedInsert r) second).Pairwise r := by
  induction first with
  | nil => exact sorted
  | cons element rest ih => exact ih.orderedInsert element _

theorem drop_foldr_orderedInsert (first : List α) {second : List α} (sorted : second.Pairwise r)
    (skip : Nat) :
    (first.foldr (List.orderedInsert r) second).drop (skip + first.length) =
      (first.foldr (List.orderedInsert r) (second.drop skip)).drop first.length := by
  induction first with
  | nil => rfl
  | cons element rest ih =>
    have whole := foldr_orderedInsert_pairwise r sorted rest
    have suffix := foldr_orderedInsert_pairwise r (sorted.sublist (List.drop_sublist skip second)) rest
    rw [List.foldr_cons, List.foldr_cons, List.length_cons, ← Nat.add_assoc,
      drop_orderedInsert r element whole, ih, ← drop_orderedInsert r element suffix]

/-- A window of the sorted whole, from a window of the second list. -/
theorem window_insertionSort (first : List α) {second : List α} (sorted : second.Pairwise r)
    (offset limit : Nat) :
    window (offset - (offset - first.length)) limit
        ((first ++ window (offset - first.length) (offset + limit - (offset - first.length))
          second).insertionSort r) =
      window offset limit ((first ++ second).insertionSort r) := by
  have part : (window (offset - first.length) (offset + limit - (offset - first.length)) second).Pairwise r :=
    sorted.sublist ((List.take_sublist _ _).trans (List.drop_sublist _ _))
  rw [insertionSort_append r sorted, insertionSort_append r part]
  by_cases small : offset ≤ first.length
  · -- Nothing is skipped, and the fetched prefix is as long as the window reaches.
    have none : offset - first.length = 0 := by omega
    have whole : window 0 (offset + limit) second = second.take (offset + limit) := by
      rw [window, List.drop_zero]
    rw [none, Nat.sub_zero, Nat.sub_zero, whole]
    exact window_foldr_take r first second offset limit
  · obtain ⟨skip, rfl⟩ := Nat.exists_eq_add_of_lt (Nat.lt_of_not_le small)
    have skipped : first.length + skip + 1 - first.length = skip + 1 := by omega
    have start : first.length + skip + 1 - (skip + 1) = first.length := by omega
    have fetched : first.length + skip + 1 + limit - (skip + 1) = first.length + limit := by omega
    have place : first.length + skip + 1 = skip + 1 + first.length := by omega
    rw [skipped, start, fetched, place]
    calc window first.length limit
          (first.foldr (List.orderedInsert r) ((second.drop (skip + 1)).take (first.length + limit)))
        = window first.length limit (first.foldr (List.orderedInsert r) (second.drop (skip + 1))) :=
          window_foldr_take r first _ _ _
      _ = window (skip + 1 + first.length) limit (first.foldr (List.orderedInsert r) second) :=
          (window_of_drop_eq (drop_foldr_orderedInsert r first sorted (skip + 1))).symm

section ByKey
variable {κ : Type*} [LinearOrder κ] (key : α → κ)

/-- The sort is stable: it keeps the elements of one key in their order. -/
theorem filter_insertionSort (list : List α) (k : κ) :
    (list.insertionSort (key · ≤ key ·)).filter (key · = k) = list.filter (key · = k) := by
  have inserted (element : α) (sorted : List α) :
      (sorted.orderedInsert (key · ≤ key ·) element).filter (key · = k) = (element :: sorted).filter (key · = k) := by
    induction sorted with
    | nil => rfl
    | cons head tail ih =>
      by_cases before : key element ≤ key head
      · rw [List.orderedInsert_cons_of_le (key · ≤ key ·) _ before]
      · rw [List.orderedInsert_of_not_le (key · ≤ key ·) _ before, List.filter_cons, ih]
        -- The element goes past a smaller key, so not both of them have the key `k`.
        by_cases ofElement : key element = k
        · have other : ¬ key head = k := fun ofHead => before (ofElement.trans ofHead.symm).le
          simp [ofElement, other]
        · simp [List.filter_cons, ofElement]
  induction list with
  | nil => rfl
  | cons head tail ih =>
    rw [List.insertionSort_cons, inserted, List.filter_cons, List.filter_cons, ih]

/-- Two lists in order of a key are equal if their elements of each key are. -/
theorem eq_of_filter_eq {list other : List α} (sorted : list.Pairwise (key · ≤ key ·))
    (otherSorted : other.Pairwise (key · ≤ key ·))
    (same : ∀ k, list.filter (key · = k) = other.filter (key · = k)) : list = other := by
  have subset {first second : List α} (same : ∀ k, first.filter (key · = k) = second.filter (key · = k))
      {element : α} (member : element ∈ first) : element ∈ second := by
    have found : element ∈ first.filter (key · = key element) := List.mem_filter.mpr ⟨member, by simp⟩
    rw [same] at found
    exact (List.mem_filter.mp found).1
  induction list generalizing other with
  | nil =>
    refine (List.eq_nil_iff_forall_not_mem.mpr ?_).symm
    intro element member
    exact List.not_mem_nil (subset (fun k => (same k).symm) member)
  | cons head tail ih =>
    cases other with
    | nil => exact absurd (subset same List.mem_cons_self) List.not_mem_nil
    | cons otherHead otherTail =>
      obtain ⟨least, tailSorted⟩ := List.pairwise_cons.mp sorted
      obtain ⟨otherLeast, otherTailSorted⟩ := List.pairwise_cons.mp otherSorted
      have le : key head ≤ key otherHead := by
        rcases List.mem_cons.mp (subset (fun k => (same k).symm) (List.mem_cons_self (a := otherHead))) with rfl | later
        · exact le_rfl
        · exact least otherHead later
      have ge : key otherHead ≤ key head := by
        rcases List.mem_cons.mp (subset same (List.mem_cons_self (a := head))) with rfl | later
        · exact le_rfl
        · exact otherLeast head later
      have keys : key otherHead = key head := le_antisymm ge le
      have heads := same (key head)
      rw [List.filter_cons_of_pos (by simp), List.filter_cons_of_pos (by simp [keys])] at heads
      obtain rfl : head = otherHead := (List.cons.inj heads).1
      rw [ih tailSorted otherTailSorted]
      intro k
      have all := same k
      rw [List.filter_cons, List.filter_cons] at all
      split at all
      · exact (List.cons.inj all).2
      · exact all

theorem pairwise_insertionSort (list : List α) :
    (list.insertionSort (key · ≤ key ·)).Pairwise (key · ≤ key ·) := by
  have total : Std.Total fun first second : α => key first ≤ key second := ⟨fun _ _ => le_total _ _⟩
  have transitive : IsTrans α fun first second => key first ≤ key second := ⟨fun _ _ _ => le_trans⟩
  exact List.pairwise_insertionSort _ list

/-- A list in order of a key is what sorting makes of every list that has the same elements of
each key, in the same order. -/
theorem insertionSort_eq_of_filter_eq {list chain : List α} (sorted : chain.Pairwise (key · ≤ key ·))
    (same : ∀ k, list.filter (key · = k) = chain.filter (key · = k)) :
    list.insertionSort (key · ≤ key ·) = chain := by
  apply eq_of_filter_eq key _ sorted
  · intro k
    rw [filter_insertionSort]
    exact same k
  · exact pairwise_insertionSort key list

/-- Elements chosen by their keys are, of one key, all or none. -/
theorem filter_filter_key (chosen : κ → Prop) [DecidablePred chosen] (list : List α) (k : κ) :
    (list.filter fun element => chosen (key element)).filter (key · = k) =
      if chosen k then list.filter (key · = k) else [] := by
  rw [List.filter_filter]
  split
  · next inside =>
    apply List.filter_congr
    intro element _
    by_cases ofKey : key element = k
    · simp [ofKey, inside]
    · simp [ofKey]
  · next outside =>
    apply List.filter_eq_nil_iff.mpr
    intro element _
    by_cases ofKey : key element = k
    · simp [ofKey, outside]
    · simp [ofKey]

/-- Where nothing of `ahead` comes after the bound and nothing of `behind` before it, what sorts
before the bound is sorted apart from the rest. -/
theorem insertionSort_split {ahead behind others : List α} {bound : κ}
    (aheadBefore : ∀ element ∈ ahead, key element ≤ bound) (behindAfter : ∀ element ∈ behind, bound ≤ key element) :
    (ahead ++ behind ++ others).insertionSort (key · ≤ key ·) =
      (ahead ++ others.filter (key · < bound)).insertionSort (key · ≤ key ·) ++
        (behind ++ others.filter (¬key · < bound)).insertionSort (key · ≤ key ·) := by
  apply eq_of_filter_eq key (pairwise_insertionSort key _)
  · apply List.pairwise_append.mpr
    refine ⟨pairwise_insertionSort key _, pairwise_insertionSort key _, ?_⟩
    intro first firstMember second secondMember
    have before : key first ≤ bound := by
      rcases List.mem_append.mp ((List.mem_insertionSort _).mp firstMember) with member | member
      · exact aheadBefore first member
      · exact (of_decide_eq_true (List.mem_filter.mp member).2).le
    have after : bound ≤ key second := by
      rcases List.mem_append.mp ((List.mem_insertionSort _).mp secondMember) with member | member
      · exact behindAfter second member
      · exact not_lt.mp (of_decide_eq_true (List.mem_filter.mp member).2)
    exact before.trans after
  · intro k
    rw [List.filter_append, filter_insertionSort, filter_insertionSort, filter_insertionSort, List.filter_append,
      List.filter_append, List.filter_append, List.filter_append, filter_filter_key key (· < bound),
      filter_filter_key key (¬· < bound)]
    by_cases early : k < bound
    · have noneBehind : behind.filter (key · = k) = [] := by
        apply List.filter_eq_nil_iff.mpr
        intro element member ofKey
        exact absurd (behindAfter element member) (not_le.mpr (of_decide_eq_true ofKey ▸ early))
      rw [noneBehind, if_pos early, if_neg (not_not_intro early), List.append_nil, List.append_nil, List.append_nil]
    · rw [if_neg early, if_pos early, List.append_nil, List.append_assoc]

/-- The first places do not depend on what sorts behind them. -/
theorem take_insertionSort_append {ahead behind others : List α} {bound : κ} {limit : Nat}
    (aheadBefore : ∀ element ∈ ahead, key element ≤ bound) (behindAfter : ∀ element ∈ behind, bound ≤ key element)
    (enough : limit ≤ ahead.length + others.countP (key · < bound)) :
    ((ahead ++ behind ++ others).insertionSort (key · ≤ key ·)).take limit =
      ((ahead ++ others).insertionSort (key · ≤ key ·)).take limit := by
  have long : limit ≤ ((ahead ++ others.filter (key · < bound)).insertionSort (key · ≤ key ·)).length := by
    rw [List.length_insertionSort, List.length_append, ← List.countP_eq_length_filter]
    exact enough
  have alone : (ahead ++ [] ++ others).insertionSort (key · ≤ key ·) =
      (ahead ++ others.filter (key · < bound)).insertionSort (key · ≤ key ·) ++
        ([] ++ others.filter (¬key · < bound)).insertionSort (key · ≤ key ·) :=
    insertionSort_split key aheadBefore (List.forall_mem_nil _)
  rw [List.append_nil] at alone
  rw [insertionSort_split key aheadBefore behindAfter, alone, List.take_append_of_le_length long,
    List.take_append_of_le_length long]

/-- Of a list in order no more than the first places matter. -/
theorem take_insertionSort_take {first : List α} (sorted : first.Pairwise (key · ≤ key ·)) (others : List α)
    (limit : Nat) :
    ((first.take limit ++ others).insertionSort (key · ≤ key ·)).take limit =
      ((first ++ others).insertionSort (key · ≤ key ·)).take limit := by
  have whole : first.take limit ++ first.drop limit = first := List.take_append_drop limit first
  cases shape : first.drop limit with
  | nil => rw [shape, List.append_nil] at whole; rw [whole]
  | cons next rest =>
    rw [shape] at whole
    rw [← whole] at sorted
    obtain ⟨-, behindSorted, across⟩ := List.pairwise_append.mp sorted
    have long : limit ≤ first.length := by
      by_contra short
      rw [List.drop_eq_nil_of_le (Nat.le_of_not_le short)] at shape
      cases shape
    have behindAfter : ∀ element ∈ next :: rest, key next ≤ key element :=
      List.forall_mem_cons.mpr ⟨le_rfl, (List.pairwise_cons.mp behindSorted).1⟩
    have kept := take_insertionSort_append key (fun element member => across element member next List.mem_cons_self)
      behindAfter (Nat.le_add_right_of_le (List.length_take_of_le long).ge : limit ≤ _ + others.countP _)
    rw [whole] at kept
    exact kept.symm

/-- What comes first behind the bound has the place after all that sorts before it. -/
theorem mem_take_insertionSort {ahead behind others : List α} {next : α} {limit : Nat}
    (aheadBefore : ∀ element ∈ ahead, key element ≤ key next)
    (behindAfter : ∀ element ∈ behind, key next ≤ key element)
    (reached : ahead.length + others.countP (key · < key next) < limit) :
    next ∈ ((ahead ++ next :: behind ++ others).insertionSort (key · ≤ key ·)).take limit := by
  have allAfter : ∀ element ∈ next :: behind, key next ≤ key element :=
    List.forall_mem_cons.mpr ⟨le_rfl, behindAfter⟩
  have first : (next :: behind ++ others.filter (¬key · < key next)).insertionSort (key · ≤ key ·) =
      next :: (behind ++ others.filter (¬key · < key next)).insertionSort (key · ≤ key ·) := by
    apply List.insertionSort_cons_of_forall_rel
    intro element member
    rcases List.mem_append.mp member with later | other
    · exact behindAfter element later
    · exact not_lt.mp (of_decide_eq_true (List.mem_filter.mp other).2)
  rw [insertionSort_split key aheadBefore allAfter, first, List.take_append]
  apply List.mem_append_right
  rw [List.length_insertionSort, List.length_append, ← List.countP_eq_length_filter]
  obtain ⟨more, rest⟩ := Nat.exists_eq_add_of_lt reached
  have place : limit - (ahead.length + others.countP (key · < key next)) = more + 1 := by omega
  rw [place, List.take_succ_cons]
  exact List.mem_cons_self

/-- A prefix of a list in order, in place of the list, gives the same first places of the sorted
whole exactly if the first element left out has no place among them. -/
theorem take_insertionSort_iff {ahead behind others : List α} {limit : Nat}
    (sorted : (ahead ++ behind).Pairwise (key · ≤ key ·))
    (fresh : ∀ next, behind.head? = some next → next ∉ ahead ++ others) :
    ((ahead ++ others).insertionSort (key · ≤ key ·)).take limit =
        ((ahead ++ behind ++ others).insertionSort (key · ≤ key ·)).take limit ↔
      ∀ next, behind.head? = some next → limit ≤ ahead.length + others.countP (key · < key next) := by
  cases behind with
  | nil => simp
  | cons next rest =>
    obtain ⟨-, behindSorted, across⟩ := List.pairwise_append.mp sorted
    have aheadBefore : ∀ element ∈ ahead, key element ≤ key next :=
      fun element member => across element member next List.mem_cons_self
    have restAfter : ∀ element ∈ rest, key next ≤ key element := (List.pairwise_cons.mp behindSorted).1
    constructor
    · intro same first isFirst
      obtain rfl := Option.some.inj isFirst
      by_contra few
      have placed := mem_take_insertionSort key aheadBefore restAfter (Nat.lt_of_not_le few)
      rw [← same] at placed
      exact fresh next rfl ((List.mem_insertionSort _).mp (List.mem_of_mem_take placed))
    · intro enough
      have behindAfter : ∀ element ∈ next :: rest, key next ≤ key element :=
        List.forall_mem_cons.mpr ⟨le_rfl, restAfter⟩
      exact (take_insertionSort_append key aheadBefore behindAfter (enough next rfl)).symm

end ByKey

end TransactionMonitoring.SortedWindows
