import TransactionMonitoring.Mempool

/-! Collision outcomes and the chain.

A collision is recorded as pending.  When a block confirms one of its sides, the update that
names the side runs some items of work later, and until then the row is behind the chain.
Nothing resets an outcome: not a rollback, and not the confirmation of the other side.
-/
namespace TransactionMonitoring.CollisionOutcomes
open Enrichment Faults Runs Mempool

/-- The transaction is confirmed on the chain as it stands. -/
def Confirms (confirmed : List (String × Nat)) (hash : String) : Prop := hash ∈ confirmed.map Prod.fst

instance (confirmed : List (String × Nat)) (hash : String) : Decidable (Confirms confirmed hash) :=
  inferInstanceAs (Decidable (hash ∈ _))

/-- The outcome of the row names the confirmed side. -/
structure NamesConfirmed (confirmed : List (String × Nat)) (row : Collision) : Prop where
  txA : row.outcome = .txAConfirmed ↔ Confirms confirmed row.txA
  txB : row.outcome = .txBConfirmed ↔ Confirms confirmed row.txB
  neither : row.outcome = .bothPending ↔ ¬Confirms confirmed row.txA ∧ ¬Confirms confirmed row.txB

/-- An update of the transaction's collisions is still to come. -/
def Awaited (work : List Work) (hash : String) : Prop := .outcome hash ∈ work ∨ .settle hash ∈ work

instance (work : List Work) (hash : String) : Decidable (Awaited work hash) :=
  inferInstanceAs (Decidable (_ ∨ _))

/-- The side a row names. -/
def winner (row : Collision) : Option String :=
  match row.outcome with
  | .bothPending => none
  | .txAConfirmed => some row.txA
  | .txBConfirmed => some row.txB

/-- The row is right, or an update that puts it right is still to come. -/
structure Follows (confirmed : List (String × Nat)) (work : List Work) (row : Collision) : Prop where
  one : ¬(Confirms confirmed row.txA ∧ Confirms confirmed row.txB)
  won : ∀ side ∈ winner row, Confirms confirmed side
  awaited : row.outcome = .bothPending → ∀ side ∈ [row.txA, row.txB], Confirms confirmed side → Awaited work side

/-! ## What keeps the outcomes up with the chain -/

/-- A collision is recorded while the chain has not decided it, or the update is still to
come; and an update is not lost unless another one follows. -/
def Lands (state : State) (fault : Outcome) : Work → Prop
  | .insert row _ => fault.applies = true →
      ¬(Confirms state.confirmed row.txA ∧ Confirms state.confirmed row.txB) ∧
      ∀ side ∈ [row.txA, row.txB], Confirms state.confirmed side → Awaited state.chainWork side
  | .outcome hash => fault.applies = false → ∀ row ∈ state.collisions, row.outcome = .bothPending →
      hash ∈ [row.txA, row.txB] → Awaited state.chainWork.tail hash
  | _ => True

/-- The condition on one event: nothing lands late, no block confirms the second side of a
collision, no rollback orphans the side a row names, and no restart drops an update. -/
def KeepsUp (state : State) : Event → Prop
  | .mempool fault => ∀ work ∈ state.mempoolWork.head?, Lands state fault work
  | .chain fault => ∀ work ∈ state.chainWork.head?, Lands state fault work
  | .block _ txs _ => ∀ row ∈ state.collisions, ¬∀ side ∈ [row.txA, row.txB],
      Confirms state.confirmed side ∨ side ∈ txs.map NormalizedTransaction.txHash
  | .rollBackward point => ∀ row ∈ state.collisions, ∀ side ∈ winner row,
      match point with
      | none => True
      | some slot => Confirms (state.confirmed.filter (·.2 ≤ slot)) side
  | .restart => ∀ row ∈ state.collisions, row.outcome = .bothPending →
      ∀ side ∈ [row.txA, row.txB], ¬Confirms state.confirmed side
  | .observe _ _ => True
  | .reconnect => True

instance (state : State) (fault : Outcome) : (work : Work) → Decidable (Lands state fault work)
  | .insert row _ => inferInstanceAs (Decidable (fault.applies = true →
      ¬(Confirms state.confirmed row.txA ∧ Confirms state.confirmed row.txB) ∧
      ∀ side ∈ [row.txA, row.txB], Confirms state.confirmed side → Awaited state.chainWork side))
  | .outcome hash => inferInstanceAs (Decidable (fault.applies = false → ∀ row ∈ state.collisions,
      row.outcome = .bothPending → hash ∈ [row.txA, row.txB] → Awaited state.chainWork.tail hash))
  | .compare _ _ _ _ | .track _ _ | .displace _ _ _ | .displaced _ _ _ _ _ | .settle _ | .forget _ => isTrue trivial

instance (state : State) : (event : Event) → Decidable (KeepsUp state event)
  | .mempool fault => inferInstanceAs (Decidable (∀ work ∈ state.mempoolWork.head?, Lands state fault work))
  | .chain fault => inferInstanceAs (Decidable (∀ work ∈ state.chainWork.head?, Lands state fault work))
  | .block _ txs _ => inferInstanceAs (Decidable (∀ row ∈ state.collisions, ¬∀ side ∈ [row.txA, row.txB],
      Confirms state.confirmed side ∨ side ∈ txs.map NormalizedTransaction.txHash))
  | .rollBackward none => isTrue fun _ _ _ _ => trivial
  | .rollBackward (some slot) => inferInstanceAs (Decidable (∀ row ∈ state.collisions, ∀ side ∈ winner row,
      Confirms (state.confirmed.filter (·.2 ≤ slot)) side))
  | .restart => inferInstanceAs (Decidable (∀ row ∈ state.collisions, row.outcome = .bothPending →
      ∀ side ∈ [row.txA, row.txB], ¬Confirms state.confirmed side))
  | .observe _ _ | .reconnect => isTrue trivial

/-- Work that may stand in a queue: a row waiting to be inserted is pending, and updates are
for transactions of the given kind. -/
def Sound (allowed : String → Prop) : Work → Prop
  | .compare _ _ _ _ => True
  | .track _ _ => True
  | .displace _ _ tx => allowed tx.txHash
  | .displaced _ _ tx _ _ => allowed tx.txHash
  | .insert row winner => row.outcome = .bothPending ∧ ∀ hash ∈ winner, allowed hash
  | .outcome hash => allowed hash
  | .settle hash => allowed hash
  | .forget _ => True

structure Valid (state : State) : Prop where
  rows : ∀ row ∈ state.collisions, Follows state.confirmed state.chainWork row
  mempool : ∀ work ∈ state.mempoolWork, Sound (fun _ => False) work
  chain : ∀ work ∈ state.chainWork, Sound (Confirms state.confirmed) work

section
variable {settings : Settings} {fault : Outcome} {state next : State} {work : Work} {rest : List Work}
  {confirmed : List (String × Nat)} {row : Collision} {allowed : String → Prop}

private theorem awaited_cons_iff {hash : String} :
    Awaited (work :: rest) hash ↔ work = .outcome hash ∨ work = .settle hash ∨ Awaited rest hash := by
  simp only [Awaited, List.mem_cons]
  constructor
  · rintro ((here | later) | here | later)
    · exact Or.inl here.symm
    · exact Or.inr (Or.inr (Or.inl later))
    · exact Or.inr (Or.inl here.symm)
    · exact Or.inr (Or.inr (Or.inr later))
  · rintro (here | here | later | later)
    · exact Or.inl (Or.inl here.symm)
    · exact Or.inr (Or.inl here.symm)
    · exact Or.inl (Or.inr later)
    · exact Or.inr (Or.inr later)

private theorem awaited_append_right {new : List Work} {hash : String} (later : Awaited rest hash) :
    Awaited (new ++ rest) hash :=
  later.imp (List.mem_append_right new) (List.mem_append_right new)

/-- Sound work is followed by sound work. -/
private theorem perform_sound (sound : Sound allowed work) :
    ∀ item ∈ (perform settings fault state work).2, Sound allowed item := by
  intro item member
  cases work with
  | compare tx now other shared =>
    simp only [perform] at member
    split at member
    · cases member
    · split at member
      · cases member
      · obtain rfl := List.mem_singleton.mp member
        exact ⟨rfl, by simp⟩
  | track tx now =>
    simp only [perform] at member
    split at member
    · cases member
    · cases member
  | displace confirmedHashes now tx =>
    obtain ⟨pair, -, rfl⟩ := List.mem_map.mp member
    exact sound
  | displaced confirmedHashes now tx pendingId shared =>
    simp only [perform] at member
    split at member
    · cases member
    · split at member
      · cases member
      · obtain rfl := List.mem_singleton.mp member
        refine ⟨rfl, ?_⟩
        rintro hash ⟨⟩
        exact sound
  | insert row winner =>
    simp only [perform] at member
    split at member
    · obtain ⟨hash, named, rfl⟩ := List.mem_map.mp member
      exact sound.2 hash (Option.mem_toList.mp named)
    · cases member
  | outcome hash => cases member
  | settle hash =>
    obtain rfl := List.mem_singleton.mp member
    exact sound
  | forget hash => cases member

/-- What an item does to the table. -/
private theorem perform_rows (member : row ∈ (perform settings fault state work).1.collisions) :
    (row ∈ state.collisions ∧ ∀ hash, work = .outcome hash → fault.applies = false) ∨
    (∃ winner, work = .insert row winner ∧ fault.applies = true) ∨
    ∃ hash, ∃ other ∈ state.collisions, work = .outcome hash ∧ row = other.confirm hash := by
  cases work with
  | compare tx now other shared =>
    rw [perform_compare_fst] at member
    exact Or.inl ⟨member, by simp⟩
  | track tx now =>
    refine Or.inl ⟨?_, by simp⟩
    simp only [perform] at member
    split at member
    · rwa [(prune_frame now).1] at member
    · rwa [(prune_frame now).1] at member
  | displace confirmedHashes now tx => exact Or.inl ⟨member, by simp⟩
  | displaced confirmedHashes now tx pendingId shared =>
    rw [perform_displaced_fst] at member
    exact Or.inl ⟨member, by simp⟩
  | insert inserted winner =>
    simp only [perform] at member
    split at member
    · rename_i applies
      rcases List.mem_append.mp member with old | new
      · exact Or.inl ⟨old, by simp⟩
      · obtain rfl := List.mem_singleton.mp new
        exact Or.inr (Or.inl ⟨winner, rfl, applies⟩)
    · exact Or.inl ⟨member, by simp⟩
  | outcome hash =>
    simp only [perform] at member
    split at member
    · obtain ⟨other, old, rfl⟩ := List.mem_map.mp member
      exact Or.inr (Or.inr ⟨hash, other, old, rfl, rfl⟩)
    · rename_i lost
      exact Or.inl ⟨member, fun _ _ => by simpa using lost⟩
  | settle hash => exact Or.inl ⟨member, by simp⟩
  | forget hash => exact Or.inl ⟨member, by simp⟩

/-- The update puts a row right that waits for it, and leaves the others waiting. -/
private theorem follows_confirm {hash : String} (follows : Follows confirmed (.outcome hash :: rest) row)
    (onChain : Confirms confirmed hash) : Follows confirmed rest (row.confirm hash) := by
  unfold Collision.confirm
  split
  · rename_i waits
    refine ⟨follows.one, ?_, ?_⟩
    · intro side named
      simp only [winner] at named
      split at named
      · cases named
      · rename_i decided
        obtain rfl := Option.some.inj named
        by_cases first : row.txA = hash
        · rwa [first]
        · simp [first] at decided
      · rename_i decided
        obtain rfl := Option.some.inj named
        by_cases first : row.txA = hash
        · simp [first] at decided
        · rwa [waits.1.resolve_left first]
    · intro pending
      by_cases first : row.txA = hash
      · simp [first] at pending
      · simp [first] at pending
  · rename_i other
    refine ⟨follows.one, follows.won, fun pending side member onSide => ?_⟩
    rcases awaited_cons_iff.mp (follows.awaited pending side member onSide) with here | here | later
    · cases here
      refine absurd ⟨?_, pending⟩ other
      rcases List.mem_pair.mp member with same | same
      · exact Or.inl same.symm
      · exact Or.inr same.symm
    · cases here
    · exact later

/-- A row waits on while the work that may concern it is done or still ahead. -/
private theorem follows_perform {new : List Work} (follows : Follows confirmed (work :: rest) row)
    (settles : ∀ hash, work = .settle hash → .outcome hash ∈ new)
    (updates : ∀ hash, work = .outcome hash → row.outcome = .bothPending → hash ∈ [row.txA, row.txB] →
      Awaited rest hash) : Follows confirmed (new ++ rest) row := by
  refine ⟨follows.one, follows.won, fun pending side member onSide => ?_⟩
  rcases awaited_cons_iff.mp (follows.awaited pending side member onSide) with here | here | later
  · exact awaited_append_right (updates side here pending member)
  · exact Or.inl (List.mem_append_left _ (settles side here))
  · exact awaited_append_right later

/-- A row that lands in time follows the chain. -/
private theorem follows_insert {inserts : Option String} (sound : Sound allowed (.insert row inserts))
    (one : ¬(Confirms confirmed row.txA ∧ Confirms confirmed row.txB))
    (awaited : ∀ side ∈ [row.txA, row.txB], Confirms confirmed side → Awaited rest side) :
    Follows confirmed rest row := by
  refine ⟨one, fun side named => ?_, fun _ => awaited⟩
  simp [winner, sound.1] at named

private theorem confirms_block {slot : Nat} {hashes : List String} {hash : String} :
    Confirms (confirmed.filter (·.1 ∉ hashes) ++ hashes.map (·, slot)) hash ↔
      Confirms confirmed hash ∨ hash ∈ hashes := by
  simp only [Confirms, List.map_append, List.mem_append, List.mem_map, List.mem_filter]
  constructor
  · rintro (⟨item, ⟨old, -⟩, rfl⟩ | ⟨item, ⟨added, new, rfl⟩, rfl⟩)
    · exact Or.inl ⟨item, old, rfl⟩
    · exact Or.inr new
  · rintro (⟨item, old, rfl⟩ | new)
    · by_cases again : item.1 ∈ hashes
      · exact Or.inr ⟨(item.1, slot), ⟨item.1, again, rfl⟩, rfl⟩
      · exact Or.inl ⟨item, ⟨old, by simpa using again⟩, rfl⟩
    · exact Or.inr ⟨(hash, slot), ⟨hash, new, rfl⟩, rfl⟩

private theorem not_awaited_nil {hash : String} : ¬Awaited [] hash := by
  rintro (here | here)
  · cases here
  · cases here

private theorem valid_mempool (valid : Valid state) (queue : state.mempoolWork = work :: rest)
    (lands : Lands state fault work) :
    Valid { (perform settings fault state work).1 with
      mempoolWork := (perform settings fault state work).2 ++ rest } := by
  have sound : Sound (fun _ => False) work := valid.mempool work (by simp [queue])
  obtain ⟨-, chainWork, confirmed⟩ := @perform_frame settings fault state work
  refine ⟨?_, ?_, ?_⟩
  · intro row member
    simp only [chainWork, confirmed]
    rcases perform_rows member with ⟨old, -⟩ | ⟨inserts, rfl, applies⟩ | ⟨hash, other, -, rfl, -⟩
    · exact valid.rows row old
    · exact follows_insert sound (lands applies).1 (lands applies).2
    · exact absurd sound id
  · intro item member
    rcases List.mem_append.mp member with new | old
    · exact perform_sound sound item new
    · exact valid.mempool item (by simp [queue, old])
  · simp only [chainWork, confirmed]
    exact valid.chain

private theorem valid_chain (valid : Valid state) (queue : state.chainWork = work :: rest)
    (lands : Lands state fault work) :
    Valid { (perform settings fault state work).1 with
      chainWork := (perform settings fault state work).2 ++ rest } := by
  have sound : Sound (Confirms state.confirmed) work := valid.chain work (by simp [queue])
  obtain ⟨mempoolWork, -, confirmed⟩ := @perform_frame settings fault state work
  refine ⟨?_, ?_, ?_⟩
  · intro row member
    simp only [confirmed]
    rcases perform_rows member with ⟨old, lost⟩ | ⟨inserts, rfl, applies⟩ | ⟨hash, other, old, rfl, rfl⟩
    · have follows := valid.rows row old
      rw [queue] at follows
      refine follows_perform follows ?_ ?_
      · rintro hash rfl
        exact List.mem_singleton_self _
      · rintro hash rfl pending member
        have later := lands (lost hash rfl) row old pending member
        rwa [queue] at later
    · refine follows_insert sound (lands applies).1 fun side member onSide => ?_
      have awaited := (lands applies).2 side member onSide
      rw [queue, awaited_cons_iff] at awaited
      rcases awaited with here | here | later
      · cases here
      · cases here
      · exact awaited_append_right later
    · have follows := valid.rows other old
      rw [queue] at follows
      exact follows_confirm follows sound
  · simp only [mempoolWork]
    exact valid.mempool
  · intro item member
    simp only [confirmed]
    rcases List.mem_append.mp member with new | old
    · exact perform_sound sound item new
    · exact valid.chain item (by simp [queue, old])

private theorem valid_block {slot : Nat} {txs : List NormalizedTransaction} {now : Int} (valid : Valid state)
    (idle : state.chainWork = [])
    (once : ∀ row ∈ state.collisions, ¬∀ side ∈ [row.txA, row.txB],
      Confirms state.confirmed side ∨ side ∈ txs.map NormalizedTransaction.txHash) :
    Valid { state with
      confirmed := state.confirmed.filter (·.1 ∉ txs.map NormalizedTransaction.txHash) ++
        (txs.map NormalizedTransaction.txHash).map (·, slot)
      chainWork := confirmation txs now } := by
  refine ⟨?_, valid.mempool, ?_⟩
  · intro row member
    have follows := valid.rows row member
    rw [idle] at follows
    refine ⟨?_, ?_, ?_⟩
    · rw [confirms_block, confirms_block]
      intro both
      exact once row member (by simpa using both)
    · intro side named
      exact confirms_block.mpr (Or.inl (follows.won side named))
    · intro pending side either onSide
      rcases confirms_block.mp onSide with before | here
      · exact absurd (follows.awaited pending side either before) not_awaited_nil
      · refine Or.inr ?_
        simp only [confirmation, List.mem_append]
        exact Or.inl (Or.inr (List.mem_map_of_mem here))
  · intro item member
    simp only [confirmation, List.mem_append] at member
    rcases member with (displaces | settles) | forgets
    · obtain ⟨tx, inBlock, rfl⟩ := List.mem_map.mp displaces
      exact confirms_block.mpr (Or.inr (List.mem_map_of_mem inBlock))
    · obtain ⟨hash, inBlock, rfl⟩ := List.mem_map.mp settles
      exact confirms_block.mpr (Or.inr inBlock)
    · obtain ⟨hash, -, rfl⟩ := List.mem_map.mp forgets
      trivial

private theorem valid_rollBackward {slot : Nat} (valid : Valid state) (idle : state.chainWork = [])
    (stands : ∀ row ∈ state.collisions, ∀ side ∈ winner row,
      Confirms (state.confirmed.filter (·.2 ≤ slot)) side) :
    Valid { state with confirmed := state.confirmed.filter (·.2 ≤ slot), seen := [] } := by
  have before : ∀ hash, Confirms (state.confirmed.filter (·.2 ≤ slot)) hash → Confirms state.confirmed hash := by
    intro hash onChain
    obtain ⟨item, kept, rfl⟩ := List.mem_map.mp onChain
    exact List.mem_map_of_mem (List.mem_of_mem_filter kept)
  refine ⟨?_, valid.mempool, ?_⟩
  · intro row member
    have follows := valid.rows row member
    refine ⟨?_, stands row member, ?_⟩
    · rintro ⟨onA, onB⟩
      exact follows.one ⟨before _ onA, before _ onB⟩
    · intro pending side either onSide
      exact follows.awaited pending side either (before side onSide)
  · simp only [idle]
    intro item member
    cases member

private theorem valid_step {event : Event} (keepsUp : KeepsUp state event) (valid : Valid state)
    (stepped : step settings state event = some next) : Valid next := by
  cases moves_of_step stepped with
  | skip tx now => exact valid
  | observe tx now idle =>
    refine ⟨valid.rows, ?_, valid.chain⟩
    intro item member
    simp only [observation, List.mem_append, List.mem_singleton] at member
    rcases member with compares | rfl
    · obtain ⟨pair, -, rfl⟩ := List.mem_map.mp compares
      trivial
    · trivial
  | @mempool fault work rest queue => exact valid_mempool valid queue (keepsUp work (by simp [queue]))
  | block slot txs now idle => exact valid_block valid idle keepsUp
  | @chain fault work rest queue => exact valid_chain valid queue (keepsUp work (by simp [queue]))
  | rollBackward point idle =>
    cases point with
    | none => exact ⟨valid.rows, valid.mempool, valid.chain⟩
    | some slot => exact valid_rollBackward valid idle keepsUp
  | reconnect => exact ⟨valid.rows, valid.mempool, valid.chain⟩
  | restart =>
    refine ⟨fun row member => ?_, fun _ member => ?_, fun _ member => ?_⟩
    · have follows := valid.rows row member
      exact ⟨follows.one, follows.won, fun pending side either onSide =>
        absurd onSide (keepsUp row member pending side either)⟩
    · cases member
    · cases member

private theorem follows_of_names (names : NamesConfirmed confirmed row) : Follows confirmed rest row := by
  refine ⟨?_, ?_, ?_⟩
  · rintro ⟨onA, onB⟩
    have first := names.txA.mpr onA
    have second := names.txB.mpr onB
    rw [first] at second
    cases second
  · intro side named
    simp only [winner] at named
    split at named
    · cases named
    · rename_i decided
      obtain rfl := Option.some.inj named
      exact names.txA.mp decided
    · rename_i decided
      obtain rfl := Option.some.inj named
      exact names.txB.mp decided
  · intro pending side member onSide
    obtain ⟨offA, offB⟩ := names.neither.mp pending
    rcases List.mem_pair.mp member with rfl | rfl
    · exact absurd onSide offA
    · exact absurd onSide offB

private theorem names_of_follows (follows : Follows confirmed [] row) : NamesConfirmed confirmed row := by
  have unawaited : row.outcome = .bothPending → ∀ side ∈ [row.txA, row.txB], ¬Confirms confirmed side :=
    fun pending side member onSide => not_awaited_nil (follows.awaited pending side member onSide)
  cases outcome : row.outcome with
  | bothPending =>
    have off := unawaited outcome
    simp only [List.mem_cons, List.not_mem_nil, or_false, forall_eq_or_imp, forall_eq] at off
    refine ⟨?_, ?_, ?_⟩
    · simp [outcome, off.1]
    · simp [outcome, off.2]
    · simp [outcome, off]
  | txAConfirmed =>
    have onA : Confirms confirmed row.txA := follows.won _ (by simp [winner, outcome])
    have offB : ¬Confirms confirmed row.txB := fun onB => follows.one ⟨onA, onB⟩
    refine ⟨?_, ?_, ?_⟩
    · simp [outcome, onA]
    · simp [outcome, offB]
    · simp [outcome, onA]
  | txBConfirmed =>
    have onB : Confirms confirmed row.txB := follows.won _ (by simp [winner, outcome])
    have offA : ¬Confirms confirmed row.txA := fun onA => follows.one ⟨onA, onB⟩
    refine ⟨?_, ?_, ?_⟩
    · simp [outcome, offA]
    · simp [outcome, onB]
    · simp [outcome, onB]

end

/-- In a run that keeps up with the chain, every collision names its confirmed side whenever
the chain client has nothing left to do. -/
theorem outcomes_follow_chain (settings : Settings) (start last : State) (events : List Event)
    (idle : start.mempoolWork = [] ∧ start.chainWork = [])
    (right : ∀ row ∈ start.collisions, NamesConfirmed start.confirmed row)
    (keepsUp : EveryStep (step settings) KeepsUp start events)
    (reached : run (step settings) start events = some last) (handled : last.chainWork = []) :
    ∀ row ∈ last.collisions, NamesConfirmed last.confirmed row := by
  have initially : Valid start := by
    refine ⟨fun row member => follows_of_names (right row member), ?_, ?_⟩
    · simp [idle.1]
    · simp [idle.2]
  have valid : Valid last := invariant_of_step (step settings) valid_step initially keepsUp reached
  intro row member
  have follows := valid.rows row member
  rw [handled] at follows
  exact names_of_follows follows

private def defaults : Settings := ⟨100, 7200, 50000⟩

private def spends (hash : String) : NormalizedTransaction :=
  ⟨hash, 3, [⟨"spent", 0, "b", 5, none, false, false, false⟩], [], none, 0, ∅, true⟩

/-- `early` is pending when a block confirms `late` with the same input. -/
private def displacement : List Event :=
  [.observe ⟨"early", [(⟨"spent", 0⟩, "")], 2, 0⟩ 1, .mempool .answered, .block 10 [spends "late"] 2] ++
    List.replicate 7 (.chain .answered)

/-- The block is rolled back and the next one confirms `early`. -/
private def reversal : List Event :=
  [.rollBackward (some 9), .block 10 [spends "early"] 3] ++ List.replicate 5 (.chain .answered)

theorem displacement_outcome_follows :
    (initial.mempoolWork = [] ∧ initial.chainWork = []) ∧
    EveryStep (step defaults) KeepsUp initial displacement ∧
    ∃ last, run (step defaults) initial displacement = some last ∧ last.chainWork = [] ∧
      last.collisions.map Collision.outcome = [.txBConfirmed] ∧
      ∀ row ∈ last.collisions, NamesConfirmed last.confirmed row := by
  have keepsUp : EveryStep (step defaults) KeepsUp initial displacement := by decide
  have reached : run (step defaults) initial displacement =
    some ((run (step defaults) initial displacement).get (by decide)) := (Option.some_get _).symm
  refine ⟨⟨rfl, rfl⟩, keepsUp, _, reached, by decide, by decide, ?_⟩
  exact outcomes_follow_chain _ _ _ _ ⟨rfl, rfl⟩ (fun _ member => absurd member List.not_mem_nil) keepsUp reached
    (by decide)

/-- The winner is orphaned and the other side confirmed; the row still names the former. -/
theorem orphaned_winner_keeps_outcome :
    ∃ last, run (step defaults) initial (displacement ++ reversal) = some last ∧ last.chainWork = [] ∧
      last.confirmed = [("early", 10)] ∧
      last.collisions.map (fun row => (row.txA, row.txB, row.outcome)) = [("early", "late", .txBConfirmed)] ∧
      ¬∀ row ∈ last.collisions, NamesConfirmed last.confirmed row := by
  refine ⟨(run (step defaults) initial (displacement ++ reversal)).get (by decide), (Option.some_get _).symm,
    by decide, by decide, by decide, fun names => ?_⟩
  have claimed := fun row member => (names row member).txB.mp
  revert claimed
  decide

end TransactionMonitoring.CollisionOutcomes
