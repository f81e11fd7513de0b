import Mathlib.Data.List.AList
import Mathlib.Data.Rat.Defs
import Mathlib.Data.Sym.Sym2
import TransactionMonitoring.Enrichment
import TransactionMonitoring.Faults
import TransactionMonitoring.Runs

/-! The mempool monitor and the collisions it records.

The monitor walks mempool snapshots, the chain client handles blocks and rollbacks; both are
tasks of one event loop and write `mempool_collisions`.  A task's work is a list of items and
an item runs without interruption, so the two interleave item by item.  An item that is a
statement may be lost, or take effect although its caller sees it fail; either failure is
caught and logged.

Times are in microseconds.  A set is a list without duplicates; nothing depends on its order.
-/
namespace TransactionMonitoring.Mempool
open Enrichment Faults Runs

/-! ## The pending index -/

/-- What is kept of a pending transaction. -/
structure PendingEntry where
  inputRefs : List OutputRef
  firstSeenAt : Int
  fee : Nat
  firstInputAddr : String
  ttl : Nat
deriving DecidableEq, Repr

/-- `PendingTxIndex`; a reference without an entry in `_ref_index` has no ids. -/
structure PendingTxIndex where
  entries : AList fun _ : String => PendingEntry
  refIndex : OutputRef → List String

namespace PendingTxIndex

def empty : PendingTxIndex := ⟨∅, fun _ => []⟩

def track (index : PendingTxIndex) (txId : String) (entry : PendingEntry) : PendingTxIndex where
  entries := index.entries.insert txId entry
  refIndex ref := if ref ∈ entry.inputRefs then (index.refIndex ref).insert txId else index.refIndex ref

def untrack (index : PendingTxIndex) (txId : String) : PendingTxIndex :=
  match index.entries.lookup txId with
  | none => index
  | some entry => {
      entries := index.entries.erase txId
      refIndex ref :=
        if ref ∈ entry.inputRefs then (index.refIndex ref).filter (· ≠ txId) else index.refIndex ref }

def get (index : PendingTxIndex) (txId : String) : Option PendingEntry := index.entries.lookup txId

/-- The ids indexed under any of the references, each with those it is indexed under. -/
def sharing (index : PendingTxIndex) (refs : List OutputRef) : List (String × List OutputRef) :=
  (refs.flatMap index.refIndex).dedup.map fun txId => (txId, refs.filter fun ref => txId ∈ index.refIndex ref)

def staleIds (index : PendingTxIndex) (cutoff : Int) : List String :=
  (index.entries.entries.filter fun item => item.2.firstSeenAt < cutoff).map Sigma.fst

end PendingTxIndex

/-! ## Collision rows -/

inductive CollisionOutcome where
  | bothPending
  | txAConfirmed
  | txBConfirmed
deriving DecidableEq, Repr

/-- A row of `mempool_collisions`. -/
structure Collision where
  txA : String
  txB : String
  sharedInputs : List OutputRef
  sharedCount : Nat
  txASeenAt : Int
  txBSeenAt : Int
  deltaMs : ℚ
  outcome : CollisionOutcome
  txAFee : Nat
  txBFee : Nat
  txAFirstInputAddr : String
  txBFirstInputAddr : String
  txATtl : Nat
  txBTtl : Nat
deriving DecidableEq

/-- What one side of a collision brings to the row. -/
structure Side where
  txId : String
  seenAt : Int
  fee : Nat
  firstInputAddr : String
  ttl : Nat
deriving DecidableEq, Repr

def PendingEntry.side (txId : String) (entry : PendingEntry) : Side :=
  ⟨txId, entry.firstSeenAt, entry.fee, entry.firstInputAddr, entry.ttl⟩

/-- The row `insert_mempool_collision` inserts: no key of the table refers to the pair, and
the outcome is the column's default. -/
def collision (a b : Side) (shared : List OutputRef) : Collision where
  txA := a.txId
  txB := b.txId
  sharedInputs := shared
  sharedCount := shared.length
  txASeenAt := a.seenAt
  txBSeenAt := b.seenAt
  deltaMs := (b.seenAt - a.seenAt : ℚ) / 1000
  outcome := .bothPending
  txAFee := a.fee
  txBFee := b.fee
  txAFirstInputAddr := a.firstInputAddr
  txBFirstInputAddr := b.firstInputAddr
  txATtl := a.ttl
  txBTtl := b.ttl

/-- `update_collision_outcome`, for one row. -/
def Collision.confirm (confirmed : String) (row : Collision) : Collision :=
  if (row.txA = confirmed ∨ row.txB = confirmed) ∧ row.outcome = .bothPending then
    { row with outcome := if row.txA = confirmed then .txAConfirmed else .txBConfirmed }
  else row

/-! ## The two tasks -/

/-- A transaction of a mempool snapshot; an address is there only if the node resolved the
input. -/
structure MempoolTx where
  id : String
  inputs : List (OutputRef × String)
  fee : Nat
  ttl : Nat
deriving DecidableEq, Repr

def MempoolTx.inputRefs (tx : MempoolTx) : List OutputRef := (tx.inputs.map Prod.fst).dedup

def MempoolTx.firstInputAddr (tx : MempoolTx) : String := (tx.inputs.head?.map Prod.snd).getD ""

def MempoolTx.entry (tx : MempoolTx) (now : Int) : PendingEntry :=
  ⟨tx.inputRefs, now, tx.fee, tx.firstInputAddr, tx.ttl⟩

/-- `_consumed_refs`. -/
def consumedRefs (tx : NormalizedTransaction) : List OutputRef :=
  if tx.scriptValid then
    ((tx.inputs.filter fun input => !input.isCollateral && !input.isReference).map TransactionInput.ref).dedup
  else ((tx.inputs.filter TransactionInput.isCollateral).map TransactionInput.ref).dedup

/-- `conf_addr`. -/
def confAddr (tx : NormalizedTransaction) : String :=
  ((tx.inputs.find? fun input =>
    !input.isCollateral && !input.isReference && input.address ≠ "").map TransactionInput.address).getD ""

inductive Work where
  /-- The loop of `_record_mempool_collisions` at one competitor. -/
  | compare (tx : MempoolTx) (now : Int) (other : String) (shared : List OutputRef)
  /-- Its end: the transaction is tracked and, now and then, the index is pruned. -/
  | track (tx : MempoolTx) (now : Int)
  /-- The loop of `record_displacements` at one transaction of the block. -/
  | displace (confirmedHashes : List String) (now : Int) (tx : NormalizedTransaction)
  /-- The same at one of its competitors. -/
  | displaced (confirmedHashes : List String) (now : Int) (tx : NormalizedTransaction) (pendingId : String)
      (shared : List OutputRef)
  /-- `insert_mempool_collision`, followed by the outcome update of a displacement. -/
  | insert (row : Collision) (winner : Option String)
  /-- `update_collision_outcome`. -/
  | outcome (confirmed : String)
  /-- The first loop of `settle_confirmed`. -/
  | settle (txHash : String)
  /-- The last one. -/
  | forget (txHash : String)
deriving DecidableEq

structure Settings where
  pruneEveryNTxs : Nat
  pendingTtlSeconds : Nat
  seenTxsMax : Nat
deriving DecidableEq, Repr

/-- The monitor's memory, the collision table, what is left of the two tasks' work and the
confirmed transactions with their slots. -/
structure State where
  seen : List String
  txsSincePrune : Nat
  pending : PendingTxIndex
  collisions : List Collision
  confirmed : List (String × Nat)
  mempoolWork : List Work
  chainWork : List Work

/-- The sweep at the end of `_record_mempool_collisions`. -/
def prune (settings : Settings) (now : Int) (state : State) : State :=
  if settings.pruneEveryNTxs ≤ state.txsSincePrune + 1 then
    let cutoff := now - settings.pendingTtlSeconds * 1000000
    { state with
      txsSincePrune := 0
      pending := (state.pending.staleIds cutoff).foldl PendingTxIndex.untrack state.pending
      seen := if settings.seenTxsMax < state.seen.length then [] else state.seen }
  else { state with txsSincePrune := state.txsSincePrune + 1 }

/-- One item of work: what it does and what follows it at once. -/
def perform (settings : Settings) (fault : Outcome) (state : State) : Work → State × List Work
  | .compare tx now other shared =>
      if other = tx.id then (state, [])
      else
        match state.pending.get other with
        | none => (state, [])
        | some entry => (state, [.insert (collision (entry.side other) ((tx.entry now).side tx.id) shared) none])
  | .track tx now =>
      if tx.inputRefs = [] then (prune settings now state, [])
      else (prune settings now { state with pending := state.pending.track tx.id (tx.entry now) }, [])
  | .displace confirmedHashes now tx =>
      (state, (state.pending.sharing (consumedRefs tx)).map fun item =>
        .displaced confirmedHashes now tx item.1 item.2)
  | .displaced confirmedHashes now tx pendingId shared =>
      if pendingId ∈ confirmedHashes then (state, [])
      else
        match state.pending.get pendingId with
        | none => (state, [])
        | some entry =>
            let row := collision (entry.side pendingId) ⟨tx.txHash, now, tx.fee, confAddr tx, 0⟩ shared
            (state, [.insert row (some tx.txHash)])
  | .insert row winner =>
      (if fault.applies then { state with collisions := state.collisions ++ [row] } else state,
        if fault.returns then winner.toList.map .outcome else [])
  | .outcome confirmed =>
      (if fault.applies then { state with collisions := state.collisions.map (Collision.confirm confirmed) }
        else state, [])
  | .settle txHash => ({ state with pending := state.pending.untrack txHash }, [.outcome txHash])
  | .forget txHash => ({ state with seen := state.seen.filter (· ≠ txHash) }, [])

inductive Event where
  /-- The next transaction of a snapshot. -/
  | observe (tx : MempoolTx) (now : Int)
  /-- The monitor's next item of work. -/
  | mempool (fault : Outcome)
  /-- The transactions of a block that parse, once they are persisted. -/
  | block (slot : Nat) (txs : List NormalizedTransaction) (now : Int)
  /-- The chain client's next item of work. -/
  | chain (fault : Outcome)
  /-- A rollback to a slot, or to the origin. -/
  | rollBackward (point : Option Nat)
  /-- The monitor's session starts again. -/
  | reconnect
  /-- The process starts again; only the tables survive. -/
  | restart

/-- The work of `_record_mempool_collisions` for a newly seen transaction. -/
def observation (state : State) (tx : MempoolTx) (now : Int) : List Work :=
  ((state.pending.sharing tx.inputRefs).map fun item => .compare tx now item.1 item.2) ++ [.track tx now]

/-- The work of `record_displacements` and `settle_confirmed`. -/
def confirmation (txs : List NormalizedTransaction) (now : Int) : List Work :=
  let hashes := txs.map NormalizedTransaction.txHash
  txs.map (.displace hashes now) ++ hashes.map .settle ++ hashes.map .forget

def step (settings : Settings) (state : State) : Event → Option State
  | .observe tx now =>
      if state.mempoolWork ≠ [] then none
      else if tx.id = "" ∨ tx.id ∈ state.seen then some state
      else some { state with seen := tx.id :: state.seen, mempoolWork := observation state tx now }
  | .mempool fault =>
      match state.mempoolWork with
      | [] => none
      | work :: rest =>
          let done := perform settings fault state work
          some { done.1 with mempoolWork := done.2 ++ rest }
  | .block slot txs now =>
      if state.chainWork ≠ [] then none
      else
        let hashes := txs.map NormalizedTransaction.txHash
        some { state with
          confirmed := state.confirmed.filter (·.1 ∉ hashes) ++ hashes.map (·, slot)
          chainWork := confirmation txs now }
  | .chain fault =>
      match state.chainWork with
      | [] => none
      | work :: rest =>
          let done := perform settings fault state work
          some { done.1 with chainWork := done.2 ++ rest }
  | .rollBackward point =>
      if state.chainWork ≠ [] then none
      else
        -- A rollback to the origin is a resync of the node and orphans nothing.
        some { state with
          confirmed := match point with
            | none => state.confirmed
            | some slot => state.confirmed.filter (·.2 ≤ slot)
          seen := [] }
  | .reconnect => if state.mempoolWork ≠ [] then none else some { state with seen := [] }
  | .restart => some { state with
      seen := [], txsSincePrune := 0, pending := .empty, mempoolWork := [], chainWork := [] }

/-- Nothing is observed, confirmed or recorded. -/
def initial : State := ⟨[], 0, .empty, [], [], [], []⟩

/-- What an event can do. -/
inductive Moves (settings : Settings) (state : State) : Event → State → Prop
  | skip (tx : MempoolTx) (now : Int) : Moves settings state (.observe tx now) state
  | observe (tx : MempoolTx) (now : Int) (idle : state.mempoolWork = []) :
      Moves settings state (.observe tx now)
        { state with seen := tx.id :: state.seen, mempoolWork := observation state tx now }
  | mempool (fault : Outcome) {work : Work} {rest : List Work} (queue : state.mempoolWork = work :: rest) :
      Moves settings state (.mempool fault)
        { (perform settings fault state work).1 with
          mempoolWork := (perform settings fault state work).2 ++ rest }
  | block (slot : Nat) (txs : List NormalizedTransaction) (now : Int) (idle : state.chainWork = []) :
      Moves settings state (.block slot txs now)
        { state with
          confirmed := state.confirmed.filter (·.1 ∉ txs.map NormalizedTransaction.txHash) ++
            (txs.map NormalizedTransaction.txHash).map (·, slot)
          chainWork := confirmation txs now }
  | chain (fault : Outcome) {work : Work} {rest : List Work} (queue : state.chainWork = work :: rest) :
      Moves settings state (.chain fault)
        { (perform settings fault state work).1 with
          chainWork := (perform settings fault state work).2 ++ rest }
  | rollBackward (point : Option Nat) (idle : state.chainWork = []) :
      Moves settings state (.rollBackward point)
        { state with
          confirmed := match point with
            | none => state.confirmed
            | some slot => state.confirmed.filter (·.2 ≤ slot)
          seen := [] }
  | reconnect : Moves settings state .reconnect { state with seen := [] }
  | restart : Moves settings state .restart
      { state with seen := [], txsSincePrune := 0, pending := .empty, mempoolWork := [], chainWork := [] }

theorem moves_of_step {settings : Settings} {state next : State} {event : Event}
    (stepped : step settings state event = some next) : Moves settings state event next := by
  cases event with
  | observe tx now =>
    simp only [step] at stepped
    split at stepped
    · cases stepped
    · rename_i idle
      split at stepped
      · obtain rfl := Option.some.inj stepped
        exact .skip tx now
      · obtain rfl := Option.some.inj stepped
        exact .observe tx now (not_not.mp idle)
  | mempool fault =>
    simp only [step] at stepped
    split at stepped
    · cases stepped
    · rename_i work rest queue
      obtain rfl := Option.some.inj stepped
      exact .mempool fault queue
  | block slot txs now =>
    simp only [step] at stepped
    split at stepped
    · cases stepped
    · rename_i idle
      obtain rfl := Option.some.inj stepped
      exact .block slot txs now (not_not.mp idle)
  | chain fault =>
    simp only [step] at stepped
    split at stepped
    · cases stepped
    · rename_i work rest queue
      obtain rfl := Option.some.inj stepped
      exact .chain fault queue
  | rollBackward point =>
    simp only [step] at stepped
    split at stepped
    · cases stepped
    · rename_i idle
      obtain rfl := Option.some.inj stepped
      exact .rollBackward point (not_not.mp idle)
  | reconnect =>
    simp only [step] at stepped
    split at stepped
    · cases stepped
    · obtain rfl := Option.some.inj stepped
      exact .reconnect
  | restart =>
    obtain rfl := Option.some.inj stepped
    exact .restart

/-! ## One row per pair -/

/-- The two competing transactions, in no order. -/
def Collision.pair (row : Collision) : Sym2 String := s(row.txA, row.txB)

/-- The pair an item of work may still record. -/
def Work.pair : Work → Option (Sym2 String)
  | .compare tx _ other _ => if other = tx.id then none else some s(other, tx.id)
  | .displaced confirmedHashes _ tx pendingId _ =>
      if pendingId ∈ confirmedHashes then none else some s(pendingId, tx.txHash)
  | .insert row _ => some row.pair
  | _ => none

/-- The pairs that have a row, and those that are still to be recorded. -/
def State.pairs (state : State) : List (Sym2 String) :=
  state.collisions.map Collision.pair ++ state.mempoolWork.filterMap Work.pair ++ state.chainWork.filterMap Work.pair

/-- The work an event does. -/
def State.next (state : State) : Event → Option Work
  | .mempool _ => state.mempoolWork.head?
  | .chain _ => state.chainWork.head?
  | _ => none

/-- The competitors of a transaction of the block that an item of work comes to, each with the transaction. -/
def Work.meets (state : State) : Work → List (String × String)
  | .displace confirmedHashes _ tx =>
      (((state.pending.sharing (consumedRefs tx)).map Prod.fst).filter (· ∉ confirmedHashes)).map fun pendingId =>
        (pendingId, tx.txHash)
  | _ => []

/-- The transactions that meet in an event: one that gets past the dedup set, or is confirmed, and each pending
one that is indexed under an input of it. -/
def meets (state : State) : Event → List (String × String)
  | .observe tx _ =>
      if tx.id = "" ∨ tx.id ∈ state.seen then []
      else (((state.pending.sharing tx.inputRefs).map Prod.fst).filter (· ≠ tx.id)).map fun other => (other, tx.id)
  | event => ((state.next event).map (Work.meets state)).getD []

def unordered (pair : String × String) : Sym2 String := s(pair.1, pair.2)

/-- A run, and the pairs that have met in it. -/
structure Chronicle where
  state : State
  met : List (Sym2 String)

def follow (settings : Settings) (chronicle : Chronicle) (event : Event) : Option Chronicle :=
  (step settings chronicle.state event).map fun next =>
    ⟨next, chronicle.met ++ (meets chronicle.state event).map unordered⟩

/-- No pair is observed or replayed again: those that meet have not met before. -/
def MeetFirstTime (chronicle : Chronicle) (event : Event) : Prop :=
  ((meets chronicle.state event).map unordered).Nodup ∧
    ∀ pair ∈ (meets chronicle.state event).map unordered, pair ∉ chronicle.met

instance (chronicle : Chronicle) (event : Event) : Decidable (MeetFirstTime chronicle event) :=
  inferInstanceAs (Decidable (_ ∧ ∀ pair ∈ (meets chronicle.state event).map unordered, pair ∉ chronicle.met))

section
variable {settings : Settings} {fault : Outcome} {state next : State} {work : Work}

private theorem confirm_pair (confirmed : String) (row : Collision) : (row.confirm confirmed).pair = row.pair := by
  unfold Collision.confirm
  split
  · rfl
  · rfl

theorem prune_frame (now : Int) :
    (prune settings now state).collisions = state.collisions ∧
    (prune settings now state).mempoolWork = state.mempoolWork ∧
    (prune settings now state).chainWork = state.chainWork ∧
    (prune settings now state).confirmed = state.confirmed := by
  unfold prune
  split
  · exact ⟨rfl, rfl, rfl, rfl⟩
  · exact ⟨rfl, rfl, rfl, rfl⟩

@[simp] theorem perform_compare_fst {tx : MempoolTx} {now : Int} {other : String} {shared : List OutputRef} :
    (perform settings fault state (.compare tx now other shared)).1 = state := by
  simp only [perform]
  split
  · rfl
  · split
    · rfl
    · rfl

@[simp] theorem perform_displaced_fst {confirmedHashes : List String} {now : Int} {tx : NormalizedTransaction}
    {pendingId : String} {shared : List OutputRef} :
    (perform settings fault state (.displaced confirmedHashes now tx pendingId shared)).1 = state := by
  simp only [perform]
  split
  · rfl
  · split
    · rfl
    · rfl

/-- No item touches the queues or the chain. -/
theorem perform_frame :
    (perform settings fault state work).1.mempoolWork = state.mempoolWork ∧
    (perform settings fault state work).1.chainWork = state.chainWork ∧
    (perform settings fault state work).1.confirmed = state.confirmed := by
  cases work with
  | compare tx now other shared => simp
  | track tx now =>
    simp only [perform]
    split
    · exact (prune_frame now).2
    · exact (prune_frame now).2
  | displace confirmedHashes now tx => exact ⟨rfl, rfl, rfl⟩
  | displaced confirmedHashes now tx pendingId shared => simp
  | insert row winner =>
    simp only [perform]
    split
    · exact ⟨rfl, rfl, rfl⟩
    · exact ⟨rfl, rfl, rfl⟩
  | outcome confirmed =>
    simp only [perform]
    split
    · exact ⟨rfl, rfl, rfl⟩
    · exact ⟨rfl, rfl, rfl⟩
  | settle txHash => exact ⟨rfl, rfl, rfl⟩
  | forget txHash => exact ⟨rfl, rfl, rfl⟩

private theorem pair_compares (tx : MempoolTx) (now : Int) (found : List (String × List OutputRef)) :
    (found.map fun item => Work.compare tx now item.1 item.2).filterMap Work.pair =
      (((found.map Prod.fst).filter (· ≠ tx.id)).map fun other => (other, tx.id)).map unordered := by
  induction found with
  | nil => rfl
  | cons item rest ih =>
    by_cases self : item.1 = tx.id
    · simp only [List.map_cons, List.filterMap_cons, Work.pair, if_pos self, ih, List.filter_cons, decide_not,
        decide_eq_true self, Bool.not_true, Bool.false_eq_true, if_false]
    · simp only [List.map_cons, List.filterMap_cons, Work.pair, if_neg self, ih, List.filter_cons, decide_not,
        decide_eq_false self, Bool.not_false, if_true, unordered]

private theorem pair_displaced (confirmedHashes : List String) (now : Int) (tx : NormalizedTransaction)
    (found : List (String × List OutputRef)) :
    (found.map fun item => Work.displaced confirmedHashes now tx item.1 item.2).filterMap Work.pair =
      (((found.map Prod.fst).filter (· ∉ confirmedHashes)).map fun pendingId => (pendingId, tx.txHash)).map
        unordered := by
  induction found with
  | nil => rfl
  | cons item rest ih =>
    by_cases inBlock : item.1 ∈ confirmedHashes
    · simp only [List.map_cons, List.filterMap_cons, Work.pair, if_pos inBlock, ih, List.filter_cons, decide_not,
        decide_eq_true inBlock, Bool.not_true, Bool.false_eq_true, if_false]
    · simp only [List.map_cons, List.filterMap_cons, Work.pair, if_neg inBlock, ih, List.filter_cons, decide_not,
        decide_eq_false inBlock, Bool.not_false, if_true, unordered]

/-- An item adds no pair but those that meet in it. -/
private theorem perform_pairs (pair : Sym2 String) :
    ((perform settings fault state work).1.collisions.map Collision.pair).count pair +
        ((perform settings fault state work).2.filterMap Work.pair).count pair ≤
      (state.collisions.map Collision.pair).count pair + ((work.meets state).map unordered).count pair +
        ([work].filterMap Work.pair).count pair := by
  cases work with
  | compare tx now other shared =>
    simp only [perform]
    by_cases self : other = tx.id
    · simp [self, Work.meets, Work.pair]
    · cases found : state.pending.get other with
      | none => simp [self, Work.meets]
      | some entry => simp [self, Work.meets, Work.pair, Collision.pair, collision, PendingEntry.side, MempoolTx.entry]
  | track tx now =>
    simp only [perform]
    split
    · simp [(prune_frame now).1, Work.meets, Work.pair]
    · simp [(prune_frame now).1, Work.meets, Work.pair]
  | displace confirmedHashes now tx =>
    simp only [perform, Work.meets]
    rw [pair_displaced]
    omega
  | displaced confirmedHashes now tx pendingId shared =>
    simp only [perform]
    by_cases inBlock : pendingId ∈ confirmedHashes
    · simp [inBlock, Work.meets, Work.pair]
    · cases found : state.pending.get pendingId with
      | none => simp [inBlock, Work.meets]
      | some entry => simp [inBlock, Work.meets, Work.pair, Collision.pair, collision, PendingEntry.side]
  | insert row winner =>
    have nothing : (if fault.returns = true then winner.toList.map Work.outcome else []).filterMap Work.pair = [] := by
      split
      · simp [List.filterMap_map, Function.comp_def, Work.pair]
      · rfl
    simp only [perform, nothing]
    split
    · simp [Work.meets, Work.pair]
    · simp only [List.count_nil]
      omega
  | outcome confirmed =>
    simp only [perform]
    split
    · simp [Function.comp_def, confirm_pair, Work.meets, Work.pair]
    · simp [Work.meets, Work.pair]
  | settle txHash =>
    simp only [perform, Work.meets, List.map_nil, List.count_nil, Nat.add_zero]
    exact Nat.le_refl _
  | forget txHash => simp [perform, Work.meets, Work.pair]

/-- Whichever task does an item, the pairs gain at most those that meet. -/
private theorem pairs_count_le {event : Event} (stepped : step settings state event = some next)
    (pair : Sym2 String) :
    next.pairs.count pair ≤ state.pairs.count pair + ((meets state event).map unordered).count pair := by
  cases event with
  | observe tx now =>
    simp only [step] at stepped
    split at stepped
    · cases stepped
    · next idle =>
      split at stepped
      · cases stepped
        exact Nat.le_add_right _ _
      · next fresh =>
        cases stepped
        have compared := pair_compares tx now (state.pending.sharing tx.inputRefs)
        simp only [State.pairs, meets, if_neg fresh, not_not.mp idle, observation, List.filterMap_append, compared,
          List.filterMap_cons, List.filterMap_nil, Work.pair, List.count_append, List.count_nil]
        omega
  | mempool fault =>
    cases moves_of_step stepped with
    | @mempool _ work rest queue =>
      have gained := @perform_pairs settings fault state work pair
      have frame := @perform_frame settings fault state work
      have split : (work :: rest).filterMap Work.pair = [work].filterMap Work.pair ++ rest.filterMap Work.pair :=
        List.filterMap_append (l := [work])
      simp only [State.pairs, meets, State.next, queue, frame.2.1, List.filterMap_append, split, List.count_append,
        List.head?_cons, Option.map_some, Option.getD_some]
      omega
  | block slot txs now =>
    cases moves_of_step stepped with
    | block _ _ _ idle =>
      have nothing : (confirmation txs now).filterMap Work.pair = [] := by
        simp [confirmation, List.filterMap_map, Function.comp_def, Work.pair]
      simp only [State.pairs, nothing, List.count_append, List.count_nil]
      omega
  | chain fault =>
    cases moves_of_step stepped with
    | @chain _ work rest queue =>
      have gained := @perform_pairs settings fault state work pair
      have frame := @perform_frame settings fault state work
      have split : (work :: rest).filterMap Work.pair = [work].filterMap Work.pair ++ rest.filterMap Work.pair :=
        List.filterMap_append (l := [work])
      simp only [State.pairs, meets, State.next, queue, frame.1, List.filterMap_append, split, List.count_append,
        List.head?_cons, Option.map_some, Option.getD_some]
      omega
  | rollBackward point =>
    cases moves_of_step stepped with
    | rollBackward _ idle => exact Nat.le_add_right _ _
  | reconnect =>
    cases moves_of_step stepped with
    | reconnect => exact Nat.le_add_right _ _
  | restart =>
    cases moves_of_step stepped with
    | restart =>
      simp only [State.pairs, List.count_append, List.filterMap_nil, List.count_nil]
      omega

/-- As long as pairs meet for the first time, each has been recorded, or is to be recorded, at most once and only
after it met. -/
private theorem met_step {chronicle after : Chronicle} {event : Event} (first : MeetFirstTime chronicle event)
    (once : chronicle.met.Nodup ∧ ∀ pair, chronicle.state.pairs.count pair ≤ chronicle.met.count pair)
    (stepped : follow settings chronicle event = some after) :
    after.met.Nodup ∧ ∀ pair, after.state.pairs.count pair ≤ after.met.count pair := by
  obtain ⟨next, moved, rfl⟩ := Option.map_eq_some_iff.mp stepped
  refine ⟨?_, fun pair => ?_⟩
  · exact List.nodup_append.mpr ⟨once.1, first.1, fun pair before other now same => first.2 other now (same ▸ before)⟩
  · have gained := pairs_count_le moved pair
    have before := once.2 pair
    dsimp only
    rw [List.count_append]
    omega

end

/-! Nothing else keeps a pair from a second row. -/

inductive Task where
  | mempool
  | chain

def Task.event (fault : Outcome) : Task → Event
  | .mempool => .mempool fault
  | .chain => .chain fault

def State.work (state : State) : Task → List Work
  | .mempool => state.mempoolWork
  | .chain => state.chainWork

def State.withWork (state : State) (work : List Work) : Task → State
  | .mempool => { state with mempoolWork := work }
  | .chain => { state with chainWork := work }

/-- The items that record competitors, and how many items are left of each at most. -/
def Work.steps : Work → ℕ
  | .compare .. | .displaced .. => 3
  | .insert .. => 2
  | _ => 1

def Work.records (pending : PendingTxIndex) : Work → Option (Sym2 String)
  | .compare tx _ other _ =>
      if other ≠ tx.id ∧ (pending.get other).isSome then some s(other, tx.id) else none
  | .displaced confirmedHashes _ tx pendingId _ =>
      if pendingId ∉ confirmedHashes ∧ (pending.get pendingId).isSome then some s(pendingId, tx.txHash) else none
  | .insert row _ => some row.pair
  | _ => none

def Work.recording : Work → Bool
  | .compare .. | .displaced .. | .insert .. | .outcome .. => true
  | _ => false

section
variable {settings : Settings} {state : State} {work : Work} {task : Task}

theorem step_task {fault : Outcome} {rest : List Work} (queue : state.work task = work :: rest) :
    step settings state (task.event fault) = some
      ((perform settings fault state work).1.withWork ((perform settings fault state work).2 ++ rest) task) := by
  cases task with
  | mempool =>
    have head : state.mempoolWork = work :: rest := queue
    simp only [Task.event, step, head, State.withWork]
  | chain =>
    have head : state.chainWork = work :: rest := queue
    simp only [Task.event, step, head, State.withWork]

@[simp] theorem work_withWork (queue : List Work) : (state.withWork queue task).work task = queue := by
  cases task <;> rfl

@[simp] theorem pending_withWork (queue : List Work) : (state.withWork queue task).pending = state.pending := by
  cases task <;> rfl

@[simp] theorem collisions_withWork (queue : List Work) :
    (state.withWork queue task).collisions = state.collisions := by
  cases task <;> rfl

/-- An item that records, carried out: it is nearer its end, and nothing is lost of what is to be recorded. -/
private theorem perform_recording (recording : work.recording = true) :
    (perform settings .answered state work).1.pending = state.pending ∧
    (∀ item ∈ (perform settings .answered state work).2, item.recording = true) ∧
    ((perform settings .answered state work).2.map Work.steps).sum < work.steps ∧
    ∀ pair, (state.collisions.map Collision.pair).count pair +
        (work.records state.pending).toList.count pair ≤
      ((perform settings .answered state work).1.collisions.map Collision.pair).count pair +
        ((perform settings .answered state work).2.filterMap (Work.records state.pending)).count pair := by
  cases work with
  | compare tx now other shared =>
    simp only [perform, Work.records]
    by_cases self : other = tx.id
    · simp [self, Work.steps]
    · cases found : state.pending.get other with
      | none => simp [self, Work.steps]
      | some entry =>
        simp [self, Work.steps, Work.recording, Work.records, Collision.pair, collision, PendingEntry.side,
          MempoolTx.entry]
  | displaced confirmedHashes now tx pendingId shared =>
    simp only [perform, Work.records]
    by_cases inBlock : pendingId ∈ confirmedHashes
    · simp [inBlock, Work.steps]
    · cases found : state.pending.get pendingId with
      | none => simp [inBlock, Work.steps]
      | some entry =>
        simp [inBlock, Work.steps, Work.recording, Work.records, Collision.pair, collision, PendingEntry.side]
  | insert row winner =>
    cases winner with
    | none => simp [perform, Work.steps, Work.records]
    | some txHash => simp [perform, Work.steps, Work.records, Work.recording]
  | outcome confirmed =>
    simp [perform, Work.steps, Work.records, Function.comp_def, confirm_pair]
  | track tx now => cases recording
  | displace confirmedHashes now tx => cases recording
  | settle txHash => cases recording
  | forget txHash => cases recording

/-- The items that record, all carried out. -/
private theorem drain {bound : ℕ} {items rest : List Work} (few : (items.map Work.steps).sum ≤ bound)
    (recording : ∀ item ∈ items, item.recording = true) (queue : state.work task = items ++ rest) :
    ∃ count last, run (step settings) state (List.replicate count (task.event .answered)) = some last ∧
      ∀ pair, (state.collisions.map Collision.pair).count pair +
        (items.filterMap (Work.records state.pending)).count pair ≤
          (last.collisions.map Collision.pair).count pair := by
  induction bound generalizing state items with
  | zero =>
    cases items with
    | nil => exact ⟨0, state, rfl, fun pair => Nat.le_refl _⟩
    | cons item others =>
      have positive : 0 < item.steps := by cases item <;> simp [Work.steps]
      simp only [List.map_cons, List.sum_cons] at few
      omega
  | succ bound ih =>
    cases items with
    | nil => exact ⟨0, state, rfl, fun pair => Nat.le_refl _⟩
    | cons item others =>
      obtain ⟨kept, still, fewer, recorded⟩ :=
        @perform_recording settings state item (recording item List.mem_cons_self)
      have stepped := @step_task settings state item task .answered (others ++ rest) queue
      rw [← List.append_assoc] at stepped
      have shorter : (((perform settings .answered state item).2 ++ others).map Work.steps).sum ≤ bound := by
        simp only [List.map_cons, List.sum_cons] at few
        rw [List.map_append, List.sum_append]
        omega
      obtain ⟨count, last, reached, all⟩ := ih shorter
        (fun other member => (List.mem_append.mp member).elim (still other)
          fun later => recording other (List.mem_cons_of_mem _ later)) (work_withWork _)
      refine ⟨count + 1, last, ?_, fun pair => ?_⟩
      · rw [List.replicate_succ, run, stepped]
        exact reached
      · have now := recorded pair
        have later := all pair
        rw [pending_withWork, collisions_withWork, kept, List.filterMap_append, List.count_append] at later
        have head : ((item :: others).filterMap (Work.records state.pending)).count pair =
            (Work.records state.pending item).toList.count pair +
              (others.filterMap (Work.records state.pending)).count pair := by
          rw [List.filterMap_cons]
          cases Work.records state.pending item with
          | none => simp
          | some other => simp [List.count_cons, Nat.add_comm]
        omega

end

section
variable {settings : Settings} {state : State} {other txId : String}

private theorem two_rows {last : State} {items : List Work} {item : Work}
    (had : s(other, txId) ∈ state.collisions.map Collision.pair) (member : item ∈ items)
    (records : item.records state.pending = some s(other, txId))
    (kept : (state.collisions.map Collision.pair).count s(other, txId) +
      (items.filterMap (Work.records state.pending)).count s(other, txId) ≤
        (last.collisions.map Collision.pair).count s(other, txId)) :
    ¬ (last.collisions.map Collision.pair).Nodup := by
  intro unique
  have before := List.count_pos_iff.mpr had
  have again : 0 < (items.filterMap (Work.records state.pending)).count s(other, txId) :=
    List.count_pos_iff.mpr (List.mem_filterMap.mpr ⟨item, member, records⟩)
  have one := List.nodup_iff_count_le_one.mp unique s(other, txId)
  omega

/-- Those who meet in a turn of a task meet in the item it comes to. -/
private theorem work_of_meets {task : Task} {fault : Outcome} (met : (other, txId) ∈ meets state (task.event fault)) :
    ∃ work rest, state.work task = work :: rest ∧ (other, txId) ∈ work.meets state := by
  have comes : meets state (task.event fault) = ((state.work task).head?.map (Work.meets state)).getD [] := by
    cases task with
    | mempool => rfl
    | chain => rfl
  rw [comes] at met
  cases queue : state.work task with
  | nil =>
    rw [queue] at met
    cases met
  | cons work rest =>
    rw [queue] at met
    exact ⟨work, rest, rfl, met⟩

/-- A pair that has a row and meets again gets a second one, if nothing fails. -/
private theorem again_of_task {task : Task} (fault : Outcome) (met : (other, txId) ∈ meets state (task.event fault))
    (tracked : (state.pending.get other).isSome) (had : s(other, txId) ∈ state.collisions.map Collision.pair) :
    ∃ count last, run (step settings) state (task.event fault :: List.replicate count (task.event .answered)) =
      some last ∧ ¬ (last.collisions.map Collision.pair).Nodup := by
  obtain ⟨work, rest, queue, met⟩ := work_of_meets met
  cases work with
  | displace confirmedHashes now tx =>
    obtain ⟨pendingId, among, same⟩ := List.mem_map.mp met
    obtain ⟨rfl, rfl⟩ := Prod.mk.inj same
    obtain ⟨listed, outside⟩ := List.mem_filter.mp among
    obtain ⟨item, found, rfl⟩ := List.mem_map.mp listed
    obtain ⟨count, last, reached, all⟩ := @drain settings _ task _ _ rest (Nat.le_refl _)
      (fun other member => by obtain ⟨_, _, rfl⟩ := List.mem_map.mp member; rfl)
      (@work_withWork (perform settings fault state (.displace confirmedHashes now tx)).1 task
        ((perform settings fault state (.displace confirmedHashes now tx)).2 ++ rest))
    have member : Work.displaced confirmedHashes now tx item.1 item.2 ∈
        (perform settings fault state (.displace confirmedHashes now tx)).2 := List.mem_map.mpr ⟨item, found, rfl⟩
    refine ⟨count, last, ?_, two_rows had member ?_ ?_⟩
    · rw [run, step_task queue]
      exact reached
    · exact if_pos ⟨of_decide_eq_true outside, tracked⟩
    · have kept := all s(item.1, tx.txHash)
      rw [pending_withWork, collisions_withWork] at kept
      exact kept
  | compare tx now other shared => cases met
  | track tx now => cases met
  | displaced confirmedHashes now tx pendingId shared => cases met
  | insert row winner => cases met
  | outcome confirmed => cases met
  | settle txHash => cases met
  | forget txHash => cases met

private theorem again_of_observe {tx : MempoolTx} {now : Int} (idle : state.mempoolWork = [])
    (met : (other, txId) ∈ meets state (.observe tx now)) (tracked : (state.pending.get other).isSome)
    (had : s(other, txId) ∈ state.collisions.map Collision.pair) :
    ∃ count last, run (step settings) state (.observe tx now :: List.replicate count (.mempool .answered)) =
      some last ∧ ¬ (last.collisions.map Collision.pair).Nodup := by
  simp only [meets] at met
  split at met
  · cases met
  · next fresh =>
    obtain ⟨id, among, same⟩ := List.mem_map.mp met
    obtain ⟨rfl, rfl⟩ := Prod.mk.inj same
    obtain ⟨listed, different⟩ := List.mem_filter.mp among
    obtain ⟨item, found, rfl⟩ := List.mem_map.mp listed
    let observed : State := { state with seen := tx.id :: state.seen, mempoolWork := observation state tx now }
    have stepped : step settings state (.observe tx now) = some observed := by
      simp only [step, idle, ne_eq, not_true_eq_false, if_false, if_neg fresh]
      rfl
    obtain ⟨count, last, reached, all⟩ := @drain settings observed .mempool _
      ((state.pending.sharing tx.inputRefs).map fun item => .compare tx now item.1 item.2) [.track tx now]
      (Nat.le_refl _) (fun other member => by obtain ⟨_, _, rfl⟩ := List.mem_map.mp member; rfl) rfl
    have member : Work.compare tx now item.1 item.2 ∈
        (state.pending.sharing tx.inputRefs).map fun item => Work.compare tx now item.1 item.2 :=
      List.mem_map.mpr ⟨item, found, rfl⟩
    refine ⟨count, last, ?_, two_rows had member ?_ (all _)⟩
    · rw [run, stepped]
      exact reached
    · exact if_pos ⟨of_decide_eq_true different, tracked⟩

end

/-- A run in which each pair meets but once leaves one row a pair: in which no transaction that met a competitor is
observed again, is confirmed or comes in a replayed block while the other is still tracked, or the other way
round.  A pair that has a row and meets again gets a second one, unless an insert is lost. -/
theorem collision_pairs_unique (settings : Settings) :
    (∀ (start : State) (events : List Event) (last : Chronicle), start.pairs.Nodup →
      EveryStep (follow settings) MeetFirstTime ⟨start, start.pairs⟩ events →
      run (follow settings) ⟨start, start.pairs⟩ events = some last →
        (last.state.collisions.map Collision.pair).Nodup) ∧
    ∀ (state : State) (event : Event) (other txId : String), (step settings state event).isSome →
      (other, txId) ∈ meets state event → (state.pending.get other).isSome →
      s(other, txId) ∈ state.collisions.map Collision.pair →
        ∃ (task : Task) (count : ℕ) (last : State),
          run (step settings) state (event :: List.replicate count (task.event .answered)) = some last ∧
            ¬ (last.collisions.map Collision.pair).Nodup := by
  refine ⟨fun start events last unique first reached => ?_, fun state event other txId enabled met tracked had => ?_⟩
  · have once := invariant_of_step (follow settings) met_step
      (⟨unique, fun pair => Nat.le_refl _⟩ :
        start.pairs.Nodup ∧ ∀ pair, start.pairs.count pair ≤ start.pairs.count pair)
      first reached
    rw [List.nodup_iff_count_le_one]
    intro pair
    have recorded := once.2 pair
    have single := List.nodup_iff_count_le_one.mp once.1 pair
    simp only [State.pairs, List.count_append] at recorded
    omega
  · cases event with
    | observe tx now =>
      have idle : state.mempoolWork = [] := by
        by_contra busy
        simp only [step, if_pos busy] at enabled
        cases enabled
      obtain ⟨count, last, reached, twice⟩ := again_of_observe idle met tracked had
      exact ⟨.mempool, count, last, reached, twice⟩
    | mempool fault =>
      obtain ⟨count, last, reached, twice⟩ := @again_of_task settings state _ _ .mempool fault met tracked had
      exact ⟨.mempool, count, last, reached, twice⟩
    | chain fault =>
      obtain ⟨count, last, reached, twice⟩ := @again_of_task settings state _ _ .chain fault met tracked had
      exact ⟨.chain, count, last, reached, twice⟩
    | block slot txs now => cases met
    | rollBackward point => cases met
    | reconnect => cases met
    | restart => cases met

private def settings : Settings := ⟨100, 7200, 50000⟩
private def victim : MempoolTx := ⟨"victim", [(⟨"spent", 0⟩, "")], 2, 0⟩
private def rival : MempoolTx := ⟨"rival", [(⟨"spent", 0⟩, "")], 3, 0⟩

/-- Two transactions for the same input, observed one after the other. -/
private def contest : List Event :=
  [.observe victim 1, .mempool .answered,
    .observe rival 2, .mempool .answered, .mempool .answered, .mempool .answered]

/-- The second one again, after a rollback cleared the dedup set. -/
private def again : List Event :=
  [.rollBackward (some 0), .observe rival 3,
    .mempool .answered, .mempool .answered, .mempool .answered, .mempool .answered]

theorem contest_pairs_unique :
    initial.pairs.Nodup ∧ EveryStep (follow settings) MeetFirstTime ⟨initial, initial.pairs⟩ contest ∧
    ∃ last, run (follow settings) ⟨initial, initial.pairs⟩ contest = some last ∧
      (last.state.collisions.map Collision.pair).Nodup := by
  have first : EveryStep (follow settings) MeetFirstTime ⟨initial, initial.pairs⟩ contest := by decide
  have reached : run (follow settings) ⟨initial, initial.pairs⟩ contest =
    some ((run (follow settings) ⟨initial, initial.pairs⟩ contest).get (by decide)) := (Option.some_get _).symm
  exact ⟨by decide, first, _, reached, (collision_pairs_unique settings).1 _ _ _ (by decide) first reached⟩

/-- The pair is recorded again when the transaction is. -/
theorem reobserved_pair_has_two_rows :
    ∃ last, run (step settings) initial (contest ++ again) = some last ∧
      last.collisions.map (fun row => (row.txA, row.txB)) = [("victim", "rival"), ("victim", "rival")] ∧
      ¬(last.collisions.map Collision.pair).Nodup :=
  ⟨(run (step settings) initial (contest ++ again)).get (by decide), (Option.some_get _).symm, by decide,
    by decide⟩

/-! ## First-seen times -/

/-- The transaction's entry, if there is one, was first seen by this time. -/
def SeenBy (txId : String) (time : Int) (state : State) : Prop :=
  ∀ entry ∈ state.pending.get txId, entry.firstSeenAt ≤ time

/-- The time of the observation with which an item tracks the transaction. -/
def tracksAt (txId : String) : Work → Option Int
  | .track tx now => if tx.id = txId ∧ tx.inputRefs ≠ [] then some now else none
  | _ => none

/-- The transaction, if this event tracks it, was observed by this time. -/
def ObservedBy (txId : String) (time : Int) (state : State) (event : Event) : Prop :=
  ∀ now ∈ (state.next event).bind (tracksAt txId), now ≤ time

instance (txId : String) (time : Int) (state : State) (event : Event) :
    Decidable (ObservedBy txId time state event) :=
  inferInstanceAs (Decidable (∀ now ∈ (state.next event).bind (tracksAt txId), now ≤ time))

section
variable {settings : Settings} {state next : State} {index : PendingTxIndex} {txId other : String}
  {entry : PendingEntry}

private theorem get_of_untrack (kept : (index.untrack other).get txId = some entry) :
    index.get txId = some entry := by
  simp only [PendingTxIndex.untrack] at kept
  split at kept
  · exact kept
  · by_cases same : txId = other
    · subst same
      simp [PendingTxIndex.get] at kept
    · rwa [PendingTxIndex.get, AList.lookup_erase_ne same] at kept

private theorem get_of_foldl_untrack {ids : List String}
    (kept : (ids.foldl PendingTxIndex.untrack index).get txId = some entry) : index.get txId = some entry := by
  induction ids generalizing index with
  | nil => exact kept
  | cons id rest ih => exact get_of_untrack (ih kept)

private theorem get_of_prune {now : Int} (kept : (prune settings now state).pending.get txId = some entry) :
    state.pending.get txId = some entry := by
  unfold prune at kept
  split at kept
  · exact get_of_foldl_untrack kept
  · exact kept

/-- An item leaves an entry as it is, unless it tracks the transaction anew. -/
private theorem get_of_perform {fault : Outcome} {work : Work}
    (kept : (perform settings fault state work).1.pending.get txId = some entry) :
    tracksAt txId work = some entry.firstSeenAt ∨
    (tracksAt txId work = none ∧ state.pending.get txId = some entry) := by
  cases work with
  | track tx now =>
    simp only [perform] at kept
    split at kept
    · rename_i empty
      exact Or.inr ⟨by simp [tracksAt, empty], get_of_prune kept⟩
    · rename_i refs
      have found := get_of_prune kept
      by_cases same : txId = tx.id
      · subst same
        have new : tx.entry now = entry := by
          simpa [PendingTxIndex.get, PendingTxIndex.track] using found
        exact Or.inl (by simp [tracksAt, refs, ← new, MempoolTx.entry])
      · refine Or.inr ⟨by simp [tracksAt, Ne.symm same], ?_⟩
        simpa [PendingTxIndex.get, PendingTxIndex.track, AList.lookup_insert_ne same] using found
  | compare tx now other shared =>
    rw [perform_compare_fst] at kept
    exact Or.inr ⟨rfl, kept⟩
  | displaced confirmedHashes now tx pendingId shared =>
    rw [perform_displaced_fst] at kept
    exact Or.inr ⟨rfl, kept⟩
  | displace confirmedHashes now tx => exact Or.inr ⟨rfl, kept⟩
  | insert row winner =>
    refine Or.inr ⟨rfl, ?_⟩
    simp only [perform] at kept
    split at kept
    · exact kept
    · exact kept
  | outcome confirmed =>
    refine Or.inr ⟨rfl, ?_⟩
    simp only [perform] at kept
    split at kept
    · exact kept
    · exact kept
  | settle txHash => exact Or.inr ⟨rfl, get_of_untrack kept⟩
  | forget txHash => exact Or.inr ⟨rfl, kept⟩

/-- The same for an event. -/
private theorem get_of_step {event : Event} (stepped : step settings state event = some next)
    (kept : next.pending.get txId = some entry) :
    (state.next event).bind (tracksAt txId) = some entry.firstSeenAt ∨
    ((state.next event).bind (tracksAt txId) = none ∧ state.pending.get txId = some entry) := by
  cases moves_of_step stepped with
  | skip tx now => exact Or.inr ⟨rfl, kept⟩
  | observe tx now idle => exact Or.inr ⟨rfl, kept⟩
  | mempool fault queue =>
    simp only [State.next, queue, List.head?_cons, Option.bind_some]
    exact get_of_perform kept
  | block slot txs now idle => exact Or.inr ⟨rfl, kept⟩
  | chain fault queue =>
    simp only [State.next, queue, List.head?_cons, Option.bind_some]
    exact get_of_perform kept
  | rollBackward point idle => exact Or.inr ⟨rfl, kept⟩
  | reconnect => exact Or.inr ⟨rfl, kept⟩
  | restart => cases kept

private theorem step_of_next {event : Event} {work : Work} (doing : state.next event = some work) :
    ∃ next, step settings state event = some next := by
  cases event with
  | mempool fault =>
    obtain ⟨rest, queue⟩ := List.head?_eq_some_iff.mp doing
    simp [step, queue]
  | chain fault =>
    obtain ⟨rest, queue⟩ := List.head?_eq_some_iff.mp doing
    simp [step, queue]
  | observe tx now => cases doing
  | block slot txs now => cases doing
  | rollBackward point => cases doing
  | reconnect => cases doing
  | restart => cases doing

/-- A step that leaves the transaction tracked keeps its first-seen time by `time` exactly if
it does not track a later observation. -/
private theorem seenBy_step_iff {time : Int} {event : Event} (seen : SeenBy txId time state)
    (tracked : ∀ next ∈ step settings state event, (next.pending.get txId).isSome) :
    (∀ next, step settings state event = some next → SeenBy txId time next) ↔
      ObservedBy txId time state event := by
  constructor
  · intro kept now tracks
    obtain ⟨work, doing, -⟩ := Option.bind_eq_some_iff.mp tracks
    obtain ⟨next, stepped⟩ := @step_of_next settings state event work doing
    obtain ⟨entry, found⟩ := Option.isSome_iff_exists.mp (tracked next stepped)
    rcases get_of_step stepped found with anew | ⟨idle, -⟩
    · obtain rfl : entry.firstSeenAt = now := Option.some.inj (anew.symm.trans tracks)
      exact kept next stepped entry found
    · rw [idle] at tracks
      cases tracks
  · intro observed next stepped entry found
    rcases get_of_step stepped found with anew | ⟨-, before⟩
    · exact observed _ anew
    · exact seen entry before

end

/-- The event that begins a tracking period: the transaction was not tracked, and an
observation made at `now` tracks it. -/
structure Opens (settings : Settings) (tx : MempoolTx) (now : Int) (before opened : State) : Prop where
  untracked : before.pending.get tx.id = none
  observed : before.mempoolWork.head? = some (.track tx now)
  stepped : ∃ fault, step settings before (.mempool fault) = some opened

/-- Through a tracking period the first-seen time stays at or before the first observation
exactly if no later observation is tracked in it. -/
theorem first_seen_of_period_iff (settings : Settings) (tx : MempoolTx) (now : Int) (before opened : State)
    (events : List Event) (opens : Opens settings tx now before opened)
    (tracked : EveryStep (step settings)
      (fun state event => ∀ next ∈ step settings state event, (next.pending.get tx.id).isSome) opened events) :
    EveryStep (step settings)
        (fun state event => ∀ next, step settings state event = some next → SeenBy tx.id now next)
        opened events ↔
      EveryStep (step settings) (ObservedBy tx.id now) opened events := by
  refine everyStep_iff_of (step settings) (fun seen tracked => seenBy_step_iff seen tracked) ?_ tracked
  intro entry found
  obtain ⟨fault, stepped⟩ := opens.stepped
  rcases get_of_step stepped found with anew | ⟨-, already⟩
  · simp only [State.next, opens.observed, Option.bind_some, tracksAt] at anew
    split at anew
    · exact le_of_eq (Option.some.inj anew).symm
    · cases anew
  · rw [opens.untracked] at already
    cases already

/-- The victim's observation before it is tracked, and after. -/
private def victimObserved : State :=
  (run (step settings) initial [.observe victim 1]).get (by decide)

private def victimTracked : State :=
  (run (step settings) victimObserved [.mempool .answered]).get (by decide)

private theorem victim_opens : Opens settings victim 1 victimObserved victimTracked where
  untracked := by decide
  observed := by decide
  stepped := by
    refine ⟨.answered, ?_⟩
    rfl

private def rivalComes : List Event :=
  [.observe rival 2, .mempool .answered, .mempool .answered, .mempool .answered]

theorem first_seen_kept_while_rival_comes :
    Opens settings victim 1 victimObserved victimTracked ∧
    EveryStep (step settings)
      (fun state event => ∀ next ∈ step settings state event, (next.pending.get victim.id).isSome)
      victimTracked rivalComes ∧
    EveryStep (step settings)
      (fun state event => ∀ next, step settings state event = some next → SeenBy victim.id 1 next)
      victimTracked rivalComes := by
  have tracked : EveryStep (step settings)
      (fun state event => ∀ next ∈ step settings state event, (next.pending.get victim.id).isSome)
      victimTracked rivalComes := by decide
  refine ⟨victim_opens, tracked, ?_⟩
  exact (first_seen_of_period_iff _ _ _ _ _ _ victim_opens tracked).mpr (by decide)

/-- A rollback clears the dedup set, the victim is observed again and is first seen then. -/
theorem first_seen_moves_forward :
    Opens settings victim 1 victimObserved victimTracked ∧
    EveryStep (step settings)
      (fun state event => ∀ next ∈ step settings state event, (next.pending.get victim.id).isSome)
      victimTracked [.rollBackward (some 0), .observe victim 2, .mempool .answered, .mempool .answered] ∧
    ∃ last, run (step settings) victimTracked
        [.rollBackward (some 0), .observe victim 2, .mempool .answered, .mempool .answered] = some last ∧
      (last.pending.get victim.id).map PendingEntry.firstSeenAt = some 2 ∧ ¬SeenBy victim.id 1 last := by
  refine ⟨victim_opens, by decide, _, (Option.some_get (by decide)).symm, by decide, ?_⟩
  intro seen
  have first := seen _ (Option.some_get (by decide)).symm
  revert first
  decide

end TransactionMonitoring.Mempool
