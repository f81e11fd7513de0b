import Mathlib.Data.List.Infix

/-! Bounded queues that drop their oldest item.

One producer never waits: where the queue is full it makes room by dropping what has waited longest.
One consumer takes the items in order at its own pace.  What it misses is bounded by how far it falls
behind, and what is newest reaches it.  A bound that is not positive is none.
-/
namespace TransactionMonitoring.DropOldest

variable {α : Type} {limit : Int} {offered taken queue : List α} {item : α}

/-- `full()`. -/
def Full (limit : Int) (queue : List α) : Prop := 0 < limit ∧ limit ≤ queue.length

instance (limit : Int) (queue : List α) : Decidable (Full limit queue) := inferInstanceAs (Decidable (_ ∧ _))

/-- `put_nowait`, `none` for `QueueFull`. -/
def putNowait (limit : Int) (queue : List α) (item : α) : Option (List α) :=
  if Full limit queue then none else some (queue ++ [item])

/-- `get_nowait`, `none` for `QueueEmpty`. -/
def getNowait : List α → Option (α × List α)
  | [] => none
  | item :: rest => some (item, rest)

/-- Putting an item, and where there is no room once more after the oldest has been dropped. -/
def put (limit : Int) (queue : List α) (item : α) : List α :=
  match putNowait limit queue item with
  | some longer => longer
  | none =>
      let rest := ((getNowait queue).map Prod.snd).getD queue
      (putNowait limit rest item).getD rest

/-- The second attempt succeeds, so no item is refused. -/
theorem put_eq (limit : Int) (queue : List α) (item : α)  (bounded : 0 < limit → queue.length ≤ limit) :
    put limit queue item = (if Full limit queue then queue.tail else queue) ++ [item] := by
  by_cases full : Full limit queue
  · have room : ¬ Full limit queue.tail := by
      rintro ⟨positive, stillFull⟩
      have most := bounded positive
      rw [List.length_tail] at stillFull
      omega
    have dropped : ((getNowait queue).map Prod.snd).getD queue = queue.tail := by
      cases queue with
      | nil => rfl
      | cons => rfl
    rw [put, putNowait, if_pos full, if_pos full]
    dsimp only
    rw [dropped, putNowait, if_neg room]
    rfl
  · rw [put, putNowait, if_neg full, if_neg full]

/-- What a consumer that has taken `taken` of the items offered to it, with `queue` waiting, may rely on. -/
structure Account (limit : Int) (offered taken queue : List α) : Prop where
  /-- The newest items wait, in order, -/
  waiting : ∃ passed, offered = passed ++ queue ∧ taken.Sublist passed
  /-- no more of them than the bound, -/
  bounded : 0 < limit → queue.length ≤ limit
  /-- and of the newest items as many as the bound were taken or wait: nothing is missing among them. -/
  newest : offered = taken ++ queue ∨
    ∃ recent, recent <:+ offered ∧ recent <:+ taken ++ queue ∧ 0 < limit ∧ limit ≤ recent.length

theorem Account.start (limit : Int) : Account limit ([] : List α) [] [] where
  waiting := ⟨[], rfl, .slnil⟩
  bounded positive := by
    rw [List.length_nil]
    omega
  newest := .inl rfl

theorem Account.taken_sublist (account : Account limit offered taken queue) : (taken ++ queue).Sublist offered := by
  obtain ⟨passed, rfl, among⟩ := account.waiting
  exact among.append_right queue

theorem Account.put (account : Account limit offered taken queue) (item : α) :
    Account limit (offered ++ [item]) taken (put limit queue item) := by
  rw [put_eq limit queue item account.bounded]
  obtain ⟨passed, shape, among⟩ := account.waiting
  split
  · next full =>
    -- A full queue loses its head to what the consumer has passed.
    have notEmpty : queue ≠ [] := by
      rintro rfl
      obtain ⟨positive, most⟩ := full
      rw [List.length_nil] at most
      omega
    have parted : queue = [queue.head notEmpty] ++ queue.tail := (List.cons_head_tail notEmpty).symm
    have lengths : (queue.tail ++ [item]).length = queue.length := by
      rw [List.length_append, List.length_tail, List.length_singleton]
      have := List.length_pos_iff.mpr notEmpty
      omega
    have shapeNow : offered ++ [item] = (passed ++ [queue.head notEmpty]) ++ (queue.tail ++ [item]) := by
      calc offered ++ [item] = passed ++ ([queue.head notEmpty] ++ queue.tail) ++ [item] := by rw [shape, ← parted]
        _ = (passed ++ [queue.head notEmpty]) ++ (queue.tail ++ [item]) := by simp only [List.append_assoc]
    refine ⟨⟨passed ++ [queue.head notEmpty], shapeNow, among.trans (List.sublist_append_left _ _)⟩, fun positive => ?_,
      .inr ⟨queue.tail ++ [item], ?_, List.suffix_append _ _, full.1, ?_⟩⟩
    · rw [lengths]
      exact account.bounded positive
    · rw [shapeNow]
      exact List.suffix_append _ _
    · rw [lengths]
      exact full.2
  · next room =>
    refine ⟨⟨passed, by rw [shape, List.append_assoc], among⟩, fun positive => ?_, ?_⟩
    · have below : ¬ limit ≤ queue.length := fun full => room ⟨positive, full⟩
      rw [List.length_append, List.length_singleton]
      push_cast
      omega
    · obtain all | ⟨recent, ofOffered, ofTaken, positive, enough⟩ := account.newest
      · left
        rw [all, List.append_assoc]
      · right
        refine ⟨recent ++ [item], List.suffix_append_self_iff.mpr ofOffered, ?_, positive, ?_⟩
        · rw [← List.append_assoc]
          exact List.suffix_append_self_iff.mpr ofTaken
        · rw [List.length_append]
          push_cast
          omega

theorem Account.take {rest : List α} (account : Account limit offered taken (item :: rest)) :
    Account limit offered (taken ++ [item]) rest := by
  obtain ⟨passed, shape, among⟩ := account.waiting
  refine ⟨⟨passed ++ [item], by rw [shape, List.append_assoc]; rfl, among.append_right [item]⟩, fun positive => ?_, ?_⟩
  · have before := account.bounded positive
    rw [List.length_cons] at before
    push_cast at before
    omega
  · rw [List.append_assoc]
    exact account.newest

/-- A consumer for which there is room misses nothing. -/
theorem put_of_room (room : ¬ Full limit queue) (all : offered = taken ++ queue) :
    offered ++ [item] = taken ++ put limit queue item := by
  rw [put, putNowait, if_neg room, all, List.append_assoc]

end TransactionMonitoring.DropOldest
