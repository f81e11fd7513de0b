import Mathlib.Algebra.Order.Group.Defs
import Mathlib.Algebra.Order.Group.Unbundled.Basic
import Mathlib.Data.List.Pairwise
import Mathlib.Data.List.TakeWhile

/-! Sliding windows kept lazily.

A limiter keeps only the recent end of the log of what it admitted.  `Kept` says what of the
log it may have forgotten; it holds however late the forgetting is done, and it bounds how
many times of the log lie in any span, not only in those that end at a decision.
-/
namespace TransactionMonitoring.SlidingWindow

variable {α : Type*} [AddCommGroup α] [LinearOrder α] {width now later : α} {limit : Nat} {log kept : List α}

/-- Any two times of the span are less than the width apart. -/
def Narrow (width : α) (span : α → Bool) : Prop :=
  ∀ first last, span first = true → span last = true → last < first + width

/-- No narrow span has more than `limit` times of the log. -/
def Sparse (width : α) (limit : Nat) (log : List α) : Prop :=
  ∀ span, Narrow width span → log.countP span ≤ limit

section Spans
variable [IsOrderedAddMonoid α]

theorem narrow_closed_open (start width : α) :
    Narrow width fun time => decide (start ≤ time ∧ time < start + width) := by
  intro first last firstIn lastIn
  obtain ⟨from', -⟩ := of_decide_eq_true firstIn
  obtain ⟨-, until'⟩ := of_decide_eq_true lastIn
  exact until'.trans_le (by gcongr)

theorem narrow_open_closed (start width : α) :
    Narrow width fun time => decide (start < time ∧ time ≤ start + width) := by
  intro first last firstIn lastIn
  obtain ⟨from', -⟩ := of_decide_eq_true firstIn
  obtain ⟨-, until'⟩ := of_decide_eq_true lastIn
  exact until'.trans_lt (by gcongr)

end Spans

/-- What is kept at `now` of the log: all that is younger than the width, in order, and no more
of it than the limit. -/
structure Kept (width : α) (limit : Nat) (now : α) (log kept : List α) : Prop where
  forgotten : ∃ dropped, log = dropped ++ kept ∧ ∀ time ∈ dropped, time ≤ now - width
  past : ∀ time ∈ log, time ≤ now
  ordered : log.Pairwise (· ≤ ·)
  room : kept.length ≤ limit
  sparse : Sparse width limit log

theorem Kept.empty (width : α) (limit : Nat) (now : α) : Kept width limit now [] [] where
  forgotten := ⟨[], rfl, by simp⟩
  past := by simp
  ordered := .nil
  room := Nat.zero_le limit
  sparse span _ := by simp

theorem Kept.keptOrdered (holds : Kept width limit now log kept) : kept.Pairwise (· ≤ ·) := by
  obtain ⟨dropped, split, -⟩ := holds.forgotten
  have ordered := holds.ordered
  rw [split] at ordered
  exact (List.pairwise_append.mp ordered).2.1

/-- What is too old may be forgotten. -/
theorem Kept.forget (holds : Kept width limit now log kept) {old young : List α}
    (split : kept = old ++ young) (expired : ∀ time ∈ old, time ≤ now - width) :
    Kept width limit now log young where
  forgotten := by
    obtain ⟨dropped, whole, before⟩ := holds.forgotten
    refine ⟨dropped ++ old, ?_, ?_⟩
    · rw [whole, split, List.append_assoc]
    · intro time member
      rcases List.mem_append.mp member with early | late
      · exact before time early
      · exact expired time late
  past := holds.past
  ordered := holds.ordered
  room := by
    have room := holds.room
    rw [split, List.length_append] at room
    omega
  sparse := holds.sparse

/-- The expired times at the front are forgotten. -/
theorem Kept.evict (holds : Kept width limit now log kept) :
    Kept width limit now log (kept.dropWhile (· ≤ now - width)) := by
  apply holds.forget (List.takeWhile_append_dropWhile).symm
  intro time member
  exact of_decide_eq_true (List.mem_takeWhile_imp (p := (· ≤ now - width)) member)

/-- Once the oldest time that is kept is expired, an eviction makes room. -/
theorem Kept.fits (holds : Kept width limit now log kept) {oldest : α} {rest : List α}
    (front : kept = oldest :: rest) (expired : oldest ≤ now - width) :
    (kept.dropWhile (· ≤ now - width)).length < limit := by
  have room := holds.room
  have shorter := List.length_dropWhile_le (· ≤ now - width) rest
  rw [front, List.dropWhile_cons_of_pos (by simpa using expired)]
  rw [front, List.length_cons] at room
  omega

/-- Everything is forgotten once the newest time is expired. -/
theorem Kept.clear (holds : Kept width limit now log kept)
    (stale : ∀ newest, kept.getLast? = some newest → newest ≤ now - width) : Kept width limit now log [] := by
  apply holds.forget (List.append_nil kept).symm
  intro time member
  obtain ⟨newest, found⟩ : ∃ newest, kept.getLast? = some newest := by
    cases kept with
    | nil => cases member
    | cons head tail => exact ⟨_, List.getLast?_eq_some_getLast (by simp)⟩
  have nonempty : kept ≠ [] := List.ne_nil_of_mem member
  have last : kept.getLast nonempty = newest := by
    rw [List.getLast?_eq_some_getLast nonempty] at found
    exact Option.some.inj found
  calc time ≤ kept.getLast nonempty := holds.keptOrdered.rel_getLast member
    _ = newest := last
    _ ≤ now - width := stale newest found

section Ordered
variable [IsOrderedAddMonoid α]

/-- Time passing keeps what is kept. -/
theorem Kept.advance (holds : Kept width limit now log kept) (passed : now ≤ later) :
    Kept width limit later log kept where
  forgotten := by
    obtain ⟨dropped, split, before⟩ := holds.forgotten
    refine ⟨dropped, split, ?_⟩
    intro time member
    exact (before time member).trans (sub_le_sub_right passed width)
  past time member := (holds.past time member).trans passed
  ordered := holds.ordered
  room := holds.room
  sparse := holds.sparse

/-- A time is admitted where there is room: a narrow span that has it has nothing of what was
forgotten, so the kept times bound its count. -/
theorem Kept.admit (holds : Kept width limit now log kept) (fits : kept.length < limit) :
    Kept width limit now (log ++ [now]) (kept ++ [now]) where
  forgotten := by
    obtain ⟨dropped, split, before⟩ := holds.forgotten
    exact ⟨dropped, by rw [split, List.append_assoc], before⟩
  past := by
    intro time member
    rcases List.mem_append.mp member with earlier | latest
    · exact holds.past time earlier
    · exact (List.mem_singleton.mp latest).le
  ordered := by
    apply List.pairwise_append.mpr
    refine ⟨holds.ordered, List.pairwise_singleton _ _, ?_⟩
    intro time member newest isNow
    exact (holds.past time member).trans_eq (List.mem_singleton.mp isNow).symm
  room := by
    rw [List.length_append, List.length_singleton]
    omega
  sparse := by
    intro span narrow
    rw [List.countP_append]
    by_cases inside : span now = true
    · obtain ⟨dropped, split, before⟩ := holds.forgotten
      have noneForgotten : dropped.countP span = 0 := by
        apply List.countP_eq_zero.mpr
        intro time member spanned
        have near : now < time + width := narrow time now spanned inside
        have far : time + width ≤ now := le_sub_iff_add_le.mp (before time member)
        exact absurd near (not_lt.mpr far)
      have atMostKept : kept.countP span ≤ kept.length := List.countP_le_length
      have one : [now].countP span ≤ 1 := List.countP_le_length
      rw [split, List.countP_append, noneForgotten]
      omega
    · have none' : [now].countP span = 0 := by simp [inside]
      rw [none']
      exact holds.sparse span narrow

end Ordered

end TransactionMonitoring.SlidingWindow
