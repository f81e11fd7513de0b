import Mathlib.Data.List.Basic
import TransactionMonitoring.Ingest
import TransactionMonitoring.Runs

/-! The slot guard of the history backfill.

The ingester batches what it fetches and flushes the batch into a proxy, which passes on
transactions below the boundary slot and remembers the hashes of the others for the rows that
follow.  A flush may raise at any of its inserts; the batch is then flushed once more.
-/
namespace TransactionMonitoring.SlotCap

open Ingest (Drained PageAnswer)

structure TxRecord where
  txHash : String
  slot : Nat
deriving DecidableEq, Repr

structure UtxoRecord where
  txHash : String
  role : String
  idx : Nat
deriving DecidableEq, Repr

structure AssetRecord where
  txHash : String
  role : String
  idx : Nat
  unit : String
deriving DecidableEq, Repr

/-- `NormalizedTx`; `build_records` gives every row the hash of its transaction. -/
structure NormalizedTx where
  tx : TxRecord
  utxos : List UtxoRecord
  assets : List AssetRecord
  utxoHash : ∀ row ∈ utxos, row.txHash = tx.txHash
  assetHash : ∀ row ∈ assets, row.txHash = tx.txHash

/-- `_Batch`. -/
structure Batch where
  txs : List TxRecord
  utxos : List UtxoRecord
  assets : List AssetRecord
deriving DecidableEq, Repr

def Batch.empty : Batch := ⟨[], [], []⟩

/-- `_Batch.add`. -/
def Batch.add (batch : Batch) (item : NormalizedTx) : Batch :=
  ⟨batch.txs ++ [item.tx], batch.utxos ++ item.utxos, batch.assets ++ item.assets⟩

/-- What the proxy does, in its order: it drops a transaction or hands rows to the repo. -/
inductive Action where
  | drop (tx : TxRecord)
  | insertTransactions (rows : List TxRecord)
  | insertUtxos (rows : List UtxoRecord)
  | insertAssets (rows : List AssetRecord)
deriving DecidableEq, Repr

/-- `_SlotCappedRepo`, with what it has done. -/
structure Proxy where
  dropped : List String
  actions : List Action
deriving DecidableEq, Repr

/-- Where a flush raises. -/
inductive Raise where
  /-- The progress callback, before the repo is called. -/
  | progress
  | transactions
  | utxos
  | assets
deriving DecidableEq, Repr

section
variable (floor : Nat)

/-- `insert_transactions` up to the call of the repo. -/
def Proxy.sift (proxy : Proxy) (rows : List TxRecord) : Proxy :=
  let refused := rows.filter fun row => floor ≤ row.slot
  ⟨proxy.dropped ++ refused.map TxRecord.txHash, proxy.actions ++ refused.map .drop⟩

/-- `insert_transactions`. -/
def Proxy.insertTransactions (proxy : Proxy) (rows : List TxRecord) : Proxy :=
  let sifted := proxy.sift floor rows
  { sifted with
    actions := sifted.actions ++ [.insertTransactions (rows.filter fun row => ¬ floor ≤ row.slot)] }

/-- `insert_utxos`. -/
def Proxy.insertUtxos (proxy : Proxy) (rows : List UtxoRecord) : Proxy :=
  { proxy with
    actions := proxy.actions ++ [.insertUtxos (rows.filter fun row => row.txHash ∉ proxy.dropped)] }

/-- `insert_assets`. -/
def Proxy.insertAssets (proxy : Proxy) (rows : List AssetRecord) : Proxy :=
  { proxy with
    actions := proxy.actions ++ [.insertAssets (rows.filter fun row => row.txHash ∉ proxy.dropped)] }

structure State where
  batch : Batch
  proxy : Proxy
deriving DecidableEq, Repr

/-- The start of one walk. -/
def State.initial : State := ⟨.empty, ⟨[], []⟩⟩

/-- `_Batch.flush` into the proxy, which may raise; only a flush that returns clears the batch.
The progress callback is called where something is dropped. -/
def State.flush (state : State) (raises : Option Raise) : State × Bool :=
  let sifted := state.proxy.sift floor state.batch.txs
  if raises = some .progress ∧ ∃ tx ∈ state.batch.txs, floor ≤ tx.slot then ({ state with proxy := sifted }, false)
  else
    let first := state.proxy.insertTransactions floor state.batch.txs
    if raises = some .transactions then ({ state with proxy := first }, false)
    else
      let second := first.insertUtxos state.batch.utxos
      if raises = some .utxos then ({ state with proxy := second }, false)
      else
        let third := second.insertAssets state.batch.assets
        if raises = some .assets then ({ state with proxy := third }, false)
        else (⟨.empty, third⟩, true)

inductive Event where
  | add (item : NormalizedTx)
  | flush (raises : Option Raise)

def step (state : State) : Event → Option State
  | .add item => some { state with batch := state.batch.add item }
  | .flush raises => some (state.flush floor raises).1

/-! ### The ingester -/

/-- The result of one fetch.  A progress message that raises counts as a failure. -/
inductive Fetched where
  | found (item : NormalizedTx)
  | notFound
  | rateLimited
  | failed

/-- What a page's fetches would return, and whether the cursor is written behind it. -/
structure Page where
  results : List Fetched
  saved : Bool

/-- A walk, with what its next flushes meet. -/
structure Walk where
  state : State
  answers : List (Option Raise)
  seen : Nat

def Walk.flush (walk : Walk) : Walk × Bool :=
  let flushed := walk.state.flush floor (walk.answers.head?.join)
  ({ walk with state := flushed.1, answers := walk.answers.tail }, flushed.2)

variable (maxTxs : Option Nat) (batchSize : Nat)

/-- One fetched transaction: it joins the batch, which is flushed once it is full. -/
def Walk.take (walk : Walk) (item : NormalizedTx) : Walk × Bool :=
  let added := { walk with state := { walk.state with batch := walk.state.batch.add item }, seen := walk.seen + 1 }
  if batchSize ≤ added.state.batch.txs.length then added.flush floor else (added, true)

/-- `_consume_results`. -/
def consumeResults (walk : Walk) : List Fetched → Walk × Drained
  | [] => (walk, .through)
  | .notFound :: rest => consumeResults walk rest
  | .rateLimited :: _ | .failed :: _ => (walk, .raised)
  | .found item :: rest =>
      let taken := walk.take floor batchSize item
      if ¬ taken.2 then (taken.1, .raised)
      else if maxTxs.any (· ≤ taken.1.seen) then (taken.1, .maxReached)
      else consumeResults taken.1 rest

def Fetched.isRateLimited : Fetched → Bool
  | .rateLimited => true
  | .found _ | .notFound | .failed => false

/-- The part of a page the cap leaves. -/
def Page.asked (page : Page) (seen : Nat) : List Fetched :=
  match maxTxs with
  | none => page.results
  | some cap => page.results.take (cap - seen)

/-- `_drain_pages`, where discovery ends as `ended` says. -/
def drainPages (ended : PageAnswer) (walk : Walk) : List Page → Walk
  | [] => if ended = .rateLimited then (walk.flush floor).1 else walk
  | page :: rest =>
      let results := page.asked maxTxs walk.seen
      if results.isEmpty then walk
      else if results.any Fetched.isRateLimited then (walk.flush floor).1
      else
        let drained := consumeResults floor maxTxs batchSize walk results
        match drained.2 with
        | .raised => drained.1
        | .maxReached => (drained.1.flush floor).1
        | .through =>
            let flushed := drained.1.flush floor
            if flushed.2 ∧ page.saved then drainPages ended flushed.1 rest else flushed.1

/-- `ingest` from its stored count on: whatever way the walk ends, the batch is flushed once more. -/
def ingest (seen : Nat) (answers : List (Option Raise)) (pages : List Page) (ended : PageAnswer) : Walk :=
  ((drainPages floor maxTxs batchSize ended ⟨.initial, answers, seen⟩ pages).flush floor).1

end

/-! ## What the proxy keeps to -/

/-- The hashes of the dependent rows that a call hands to the repo. -/
def Action.handed : Action → List String
  | .insertUtxos rows => rows.map UtxoRecord.txHash
  | .insertAssets rows => rows.map AssetRecord.txHash
  | .drop _ | .insertTransactions _ => []

/-- No call behind the drop of a transaction hands over a row of it. -/
def Action.Before (earlier later : Action) : Prop := ∀ tx, earlier = .drop tx → tx.txHash ∉ later.handed

/-- No transaction is fetched with slots on both sides of the boundary. -/
def OneSided (floor : Nat) (events : List Event) : Prop :=
  ∀ item other, .add item ∈ events → .add other ∈ events → item.tx.txHash = other.tx.txHash →
    (floor ≤ item.tx.slot ↔ floor ≤ other.tx.slot)

/-- The proxy's actions, where `Offered` holds of the transactions that reach it. -/
structure Guarded (floor : Nat) (Offered : TxRecord → Prop) (proxy : Proxy) : Prop where
  transactions : ∀ rows, .insertTransactions rows ∈ proxy.actions → ∀ row ∈ rows, row.slot < floor
  ordered : proxy.actions.Pairwise Action.Before
  remembered : ∀ tx, .drop tx ∈ proxy.actions → tx.txHash ∈ proxy.dropped ∧ Offered tx ∧ floor ≤ tx.slot
  handed : ∀ action ∈ proxy.actions, ∀ txHash ∈ action.handed,
    ∃ tx, Offered tx ∧ tx.slot < floor ∧ tx.txHash = txHash

section
variable {floor : Nat} {Offered : TxRecord → Prop} {proxy : Proxy}

/-- Nothing that has been done so far forbids a call that hands over no remembered hash. -/
private theorem Guarded.append (guarded : Guarded floor Offered proxy) {action : Action}
    (transactions : ∀ rows, action = .insertTransactions rows → ∀ row ∈ rows, row.slot < floor)
    (fresh : ∀ txHash ∈ action.handed, txHash ∉ proxy.dropped)
    (handed : ∀ txHash ∈ action.handed, ∃ tx, Offered tx ∧ tx.slot < floor ∧ tx.txHash = txHash)
    (drops : ∀ tx, action = .drop tx → tx.txHash ∈ proxy.dropped ∧ Offered tx ∧ floor ≤ tx.slot) :
    Guarded floor Offered { proxy with actions := proxy.actions ++ [action] } where
  transactions := by
    intro rows member
    rcases List.mem_append.mp member with earlier | last
    · exact guarded.transactions rows earlier
    · exact transactions rows (List.mem_singleton.mp last).symm
  ordered := by
    refine List.pairwise_append.mpr ⟨guarded.ordered, List.pairwise_singleton _ _, ?_⟩
    rintro earlier member later last tx rfl
    obtain rfl := List.mem_singleton.mp last
    intro given
    exact fresh _ given (guarded.remembered tx member).1
  remembered := by
    intro tx member
    rcases List.mem_append.mp member with earlier | last
    · exact guarded.remembered tx earlier
    · exact drops tx (List.mem_singleton.mp last).symm
  handed := by
    intro other member
    rcases List.mem_append.mp member with earlier | last
    · exact guarded.handed other earlier
    · obtain rfl := List.mem_singleton.mp last
      exact handed

/-- Drops come before anything that follows them. -/
private theorem Guarded.sift (guarded : Guarded floor Offered proxy) {rows : List TxRecord}
    (offered : ∀ row ∈ rows, Offered row) : Guarded floor Offered (proxy.sift floor rows) where
  transactions := by
    intro inserted member
    rcases List.mem_append.mp member with earlier | now
    · exact guarded.transactions inserted earlier
    · obtain ⟨tx, _, impossible⟩ := List.mem_map.mp now
      cases impossible
  ordered := by
    refine List.pairwise_append.mpr ⟨guarded.ordered, ?_, ?_⟩
    · refine List.pairwise_map.mpr (List.pairwise_of_forall ?_)
      intro first second tx _
      simp [Action.handed]
    · intro earlier _ later member tx _
      obtain ⟨refused, _, rfl⟩ := List.mem_map.mp member
      simp [Action.handed]
  remembered := by
    intro tx member
    rcases List.mem_append.mp member with earlier | now
    · obtain ⟨held, rest⟩ := guarded.remembered tx earlier
      exact ⟨List.mem_append_left _ held, rest⟩
    · obtain ⟨refused, filtered, same⟩ := List.mem_map.mp now
      obtain rfl := Action.drop.inj same
      obtain ⟨among, high⟩ := List.mem_filter.mp filtered
      exact ⟨List.mem_append_right _ (List.mem_map_of_mem filtered), offered refused among,
        of_decide_eq_true high⟩
  handed := by
    intro action member
    rcases List.mem_append.mp member with earlier | now
    · exact guarded.handed action earlier
    · obtain ⟨tx, _, rfl⟩ := List.mem_map.mp now
      simp [Action.handed]

private theorem Guarded.insertTransactions (guarded : Guarded floor Offered proxy) {rows : List TxRecord}
    (offered : ∀ row ∈ rows, Offered row) : Guarded floor Offered (proxy.insertTransactions floor rows) := by
  refine (guarded.sift offered).append ?_ (by simp [Action.handed]) (by simp [Action.handed]) (by simp)
  intro kept same row member
  obtain rfl := Action.insertTransactions.inj same
  simpa using (List.mem_filter.mp member).2

/-- Dependent rows of transactions that have reached the proxy: those it passes on belong to
transactions below the boundary. -/
private theorem Guarded.insertDependent (guarded : Guarded floor Offered proxy) {action : Action}
    (dependent : ∀ tx rows, action ≠ .drop tx ∧ action ≠ .insertTransactions rows)
    (kept : ∀ txHash ∈ action.handed, txHash ∉ proxy.dropped ∧
      ∃ tx, Offered tx ∧ tx.txHash = txHash ∧ (floor ≤ tx.slot → tx.txHash ∈ proxy.dropped)) :
    Guarded floor Offered { proxy with actions := proxy.actions ++ [action] } := by
  refine guarded.append ?_ (fun txHash given => (kept txHash given).1) ?_ ?_
  · intro rows same
    exact absurd same (dependent ⟨"", 0⟩ rows).2
  · intro txHash given
    obtain ⟨fresh, tx, offered, rfl, high⟩ := kept txHash given
    exact ⟨tx, offered, Nat.lt_of_not_le fun above => fresh (high above), rfl⟩
  · intro tx same
    exact absurd same (dependent tx []).1

end

/-! ## Runs -/

section
variable {floor : Nat} {Offered : TxRecord → Prop}

/-- A batch has the transaction of each of its rows, so that a flush offers it first. -/
structure Batch.Complete (Offered : TxRecord → Prop) (batch : Batch) : Prop where
  offered : ∀ tx ∈ batch.txs, Offered tx
  utxos : ∀ row ∈ batch.utxos, ∃ tx ∈ batch.txs, tx.txHash = row.txHash
  assets : ∀ row ∈ batch.assets, ∃ tx ∈ batch.txs, tx.txHash = row.txHash

theorem Batch.complete_empty : Batch.empty.Complete Offered := by
  constructor <;> simp [Batch.empty]

theorem Batch.Complete.add {batch : Batch} (complete : batch.Complete Offered) {item : NormalizedTx}
    (offered : Offered item.tx) : (batch.add item).Complete Offered where
  offered := by
    intro tx member
    rcases List.mem_append.mp member with earlier | last
    · exact complete.offered tx earlier
    · obtain rfl := List.mem_singleton.mp last
      exact offered
  utxos := by
    intro row member
    rcases List.mem_append.mp member with earlier | own
    · obtain ⟨tx, among, same⟩ := complete.utxos row earlier
      exact ⟨tx, List.mem_append_left _ among, same⟩
    · exact ⟨item.tx, by simp [Batch.add], (item.utxoHash row own).symm⟩
  assets := by
    intro row member
    rcases List.mem_append.mp member with earlier | own
    · obtain ⟨tx, among, same⟩ := complete.assets row earlier
      exact ⟨tx, List.mem_append_left _ among, same⟩
    · exact ⟨item.tx, by simp [Batch.add], (item.assetHash row own).symm⟩

/-- The proxy keeps to the boundary, and the rows that wait belong to waiting transactions. -/
structure State.Held (floor : Nat) (Offered : TxRecord → Prop) (state : State) : Prop where
  complete : state.batch.Complete Offered
  guarded : Guarded floor Offered state.proxy

theorem held_initial : State.initial.Held floor Offered where
  complete := Batch.complete_empty
  guarded := by constructor <;> simp [State.initial]

/-- The transactions of the batch have been sifted: those at or above the boundary are remembered. -/
private def Sifted (floor : Nat) (txs : List TxRecord) (proxy : Proxy) : Prop :=
  ∀ tx ∈ txs, floor ≤ tx.slot → tx.txHash ∈ proxy.dropped

private theorem sifted_insertTransactions (proxy : Proxy) (txs : List TxRecord) :
    Sifted floor txs (proxy.insertTransactions floor txs) := by
  intro tx member high
  exact List.mem_append_right _ (List.mem_map_of_mem (List.mem_filter.mpr ⟨member, by simpa using high⟩))

/-- Rows of waiting transactions that pass the proxy belong to offered ones it has not dropped. -/
private theorem passed_of_owned {α : Type} {proxy : Proxy} {batch : Batch} {rows : List α} {hashOf : α → String}
    (complete : batch.Complete Offered) (sifted : Sifted floor batch.txs proxy)
    (owned : ∀ row ∈ rows, ∃ tx ∈ batch.txs, tx.txHash = hashOf row) :
    ∀ txHash ∈ (rows.filter fun row => hashOf row ∉ proxy.dropped).map hashOf, txHash ∉ proxy.dropped ∧
      ∃ tx, Offered tx ∧ tx.txHash = txHash ∧ (floor ≤ tx.slot → tx.txHash ∈ proxy.dropped) := by
  intro txHash member
  obtain ⟨row, kept, rfl⟩ := List.mem_map.mp member
  obtain ⟨among, fresh⟩ := List.mem_filter.mp kept
  obtain ⟨tx, waiting, same⟩ := owned row among
  exact ⟨of_decide_eq_true fresh, tx, complete.offered tx waiting, same, sifted tx waiting⟩

private theorem Guarded.insertUtxos {proxy : Proxy} (guarded : Guarded floor Offered proxy) {batch : Batch}
    (complete : batch.Complete Offered) (sifted : Sifted floor batch.txs proxy) :
    Guarded floor Offered (proxy.insertUtxos batch.utxos) :=
  guarded.insertDependent (by simp) (passed_of_owned complete sifted complete.utxos)

private theorem Guarded.insertAssets {proxy : Proxy} (guarded : Guarded floor Offered proxy) {batch : Batch}
    (complete : batch.Complete Offered) (sifted : Sifted floor batch.txs proxy) :
    Guarded floor Offered (proxy.insertAssets batch.assets) :=
  guarded.insertDependent (by simp) (passed_of_owned complete sifted complete.assets)

/-- Wherever a flush raises, the proxy has kept to the boundary and the batch is whole. -/
theorem State.Held.flush {state : State} (held : state.Held floor Offered) (raises : Option Raise) :
    (state.flush floor raises).1.Held floor Offered := by
  have sifted := held.guarded.sift held.complete.offered
  have first := held.guarded.insertTransactions held.complete.offered
  have known : Sifted floor state.batch.txs (state.proxy.insertTransactions floor state.batch.txs) :=
    sifted_insertTransactions state.proxy state.batch.txs
  have second := first.insertUtxos held.complete known
  have third := second.insertAssets held.complete known
  unfold State.flush
  dsimp only
  by_cases early : raises = some .progress ∧ ∃ tx ∈ state.batch.txs, floor ≤ tx.slot
  · rw [if_pos early]
    exact ⟨held.complete, sifted⟩
  rw [if_neg early]
  by_cases atTransactions : raises = some .transactions
  · rw [if_pos atTransactions]
    exact ⟨held.complete, first⟩
  rw [if_neg atTransactions]
  by_cases atUtxos : raises = some .utxos
  · rw [if_pos atUtxos]
    exact ⟨held.complete, second⟩
  rw [if_neg atUtxos]
  by_cases atAssets : raises = some .assets
  · rw [if_pos atAssets]
    exact ⟨held.complete, third⟩
  rw [if_neg atAssets]
  exact ⟨Batch.complete_empty, third⟩

theorem State.Held.step {state next : State} {event : Event} (held : state.Held floor Offered)
    (offered : ∀ item, event = .add item → Offered item.tx) (stepped : step floor state event = some next) :
    next.Held floor Offered := by
  cases event with
  | add item =>
    obtain rfl := Option.some.inj stepped
    exact ⟨held.complete.add (offered item rfl), held.guarded⟩
  | flush raises =>
    obtain rfl := Option.some.inj stepped
    exact held.flush raises

theorem held_of_run {events : List Event} {last : State}
    (reached : Runs.run (step floor) State.initial events = some last) :
    last.Held floor fun tx => ∃ item, .add item ∈ events ∧ item.tx = tx := by
  have offered : ∀ event ∈ events, ∀ item, event = .add item →
      ∃ other, .add other ∈ events ∧ other.tx = item.tx := by
    rintro event member item rfl
    exact ⟨item, member, rfl⟩
  exact Runs.invariant_of_step _ (fun offered held stepped => held.step offered stepped) held_initial
    (Runs.everyStep_of_mem _ offered _) reached

/-- The ingester gets from one state to the other by adding what was fetched and by flushing. -/
def Driven (floor : Nat) (fetched : NormalizedTx → Prop) (state next : State) : Prop :=
  ∃ events, Runs.run (SlotCap.step floor) state events = some next ∧ ∀ item, .add item ∈ events → fetched item

namespace Driven
variable {fetched : NormalizedTx → Prop} {state middle next : State}

theorem refl (state : State) : Driven floor fetched state state := ⟨[], rfl, by simp⟩

theorem trans (first : Driven floor fetched state middle) (second : Driven floor fetched middle next) :
    Driven floor fetched state next := by
  obtain ⟨events, reached, added⟩ := first
  obtain ⟨others, alsoReached, alsoAdded⟩ := second
  refine ⟨events ++ others, by simp [Runs.run_append, reached, alsoReached], ?_⟩
  intro item member
  rcases List.mem_append.mp member with earlier | later
  · exact added item earlier
  · exact alsoAdded item later

theorem add (state : State) {item : NormalizedTx} (found : fetched item) :
    Driven floor fetched state { state with batch := state.batch.add item } := by
  refine ⟨[.add item], rfl, ?_⟩
  intro other member
  obtain rfl := Event.add.inj (List.mem_singleton.mp member)
  exact found

theorem flush (walk : Walk) : Driven floor fetched walk.state (walk.flush floor).1.state :=
  ⟨[.flush walk.answers.head?.join], rfl, by simp⟩

theorem take {batchSize : Nat} (walk : Walk) {item : NormalizedTx} (found : fetched item) :
    Driven floor fetched walk.state (walk.take floor batchSize item).1.state := by
  have added : Driven floor fetched walk.state { walk.state with batch := walk.state.batch.add item } :=
    add walk.state found
  unfold Walk.take
  dsimp only
  split
  · exact added.trans (flush ⟨_, walk.answers, walk.seen + 1⟩)
  · exact added

theorem consumeResults {maxTxs : Option Nat} {batchSize : Nat} (walk : Walk) {results : List Fetched}
    (found : ∀ item, .found item ∈ results → fetched item) :
    Driven floor fetched walk.state (SlotCap.consumeResults floor maxTxs batchSize walk results).1.state := by
  induction results generalizing walk with
  | nil => exact refl walk.state
  | cons result rest ih =>
    have later : ∀ item, .found item ∈ rest → fetched item := fun item member => found item (.tail _ member)
    cases result with
    | notFound => exact ih walk later
    | rateLimited => exact refl walk.state
    | failed => exact refl walk.state
    | found item =>
      have taken : Driven floor fetched walk.state (walk.take floor batchSize item).1.state :=
        take walk (found item List.mem_cons_self)
      unfold SlotCap.consumeResults
      dsimp only
      split
      · exact taken
      · split
        · exact taken
        · exact taken.trans (ih _ later)

theorem drainPages {maxTxs : Option Nat} {batchSize : Nat} {ended : PageAnswer} (walk : Walk) {pages : List Page}
    (found : ∀ page ∈ pages, ∀ item, .found item ∈ page.results → fetched item) :
    Driven floor fetched walk.state (SlotCap.drainPages floor maxTxs batchSize ended walk pages).state := by
  induction pages generalizing walk with
  | nil =>
    unfold SlotCap.drainPages
    split
    · exact flush walk
    · exact refl walk.state
  | cons page rest ih =>
    have later : ∀ page ∈ rest, ∀ item, .found item ∈ page.results → fetched item :=
      fun page member => found page (.tail _ member)
    have asked : ∀ item, .found item ∈ page.asked maxTxs walk.seen → fetched item := by
      intro item member
      refine found page List.mem_cons_self item ?_
      cases maxTxs with
      | none => exact member
      | some cap => exact List.mem_of_mem_take member
    have consumed : Driven floor fetched walk.state
        (SlotCap.consumeResults floor maxTxs batchSize walk (page.asked maxTxs walk.seen)).1.state :=
      consumeResults walk asked
    unfold SlotCap.drainPages
    dsimp only
    split
    · exact refl walk.state
    split
    · exact flush walk
    split
    · exact consumed
    · exact consumed.trans (flush _)
    · split
      · exact consumed.trans ((flush _).trans (ih _ later))
      · exact consumed.trans (flush _)

end Driven

/-- One walk of the ingester is such a run, of what its fetches returned. -/
theorem ingest_driven (floor : Nat) (maxTxs : Option Nat) (batchSize seen : Nat) (answers : List (Option Raise))
    (pages : List Page) (ended : PageAnswer) :
    Driven floor (fun item => ∃ page ∈ pages, .found item ∈ page.results) State.initial
      (ingest floor maxTxs batchSize seen answers pages ended).state := by
  refine (Driven.drainPages ⟨.initial, answers, seen⟩ ?_).trans (Driven.flush _)
  intro page member item found
  exact ⟨page, member, found⟩

/-- What reaches the repo in any run.  A row handed over before its transaction was dropped would
need the transaction to be fetched with two slots; behind the drop there is none in any case. -/
theorem repo_below_boundary {events : List Event} {last : State}
    (reached : Runs.run (step floor) State.initial events = some last) :
    (∀ rows, .insertTransactions rows ∈ last.proxy.actions → ∀ row ∈ rows, row.slot < floor) ∧
      last.proxy.actions.Pairwise Action.Before ∧
      (OneSided floor events → ∀ tx, .drop tx ∈ last.proxy.actions →
        ∀ action ∈ last.proxy.actions, tx.txHash ∉ action.handed) := by
  have guarded := (held_of_run reached).guarded
  refine ⟨guarded.transactions, guarded.ordered, ?_⟩
  intro oneSided tx dropped action member given
  obtain ⟨_, ⟨refused, offered, rfl⟩, high⟩ := guarded.remembered tx dropped
  obtain ⟨_, ⟨passed, alsoOffered, rfl⟩, low, same⟩ := guarded.handed action member _ given
  exact Nat.not_le_of_lt low ((oneSided refused passed offered alsoOffered same.symm).mp high)

end

/-- One transaction below the boundary and one at it, flushed with a failing insert of the outputs
and once more. -/
private def interruptedRun : List Event :=
  [.add ⟨⟨"a", 9⟩, [⟨"a", "output", 0⟩], [], by decide, by decide⟩,
    .add ⟨⟨"b", 10⟩, [⟨"b", "output", 0⟩], [⟨"b", "output", 0, "lovelace"⟩], by decide, by decide⟩,
    .flush (some .utxos), .flush none]

/-- The two flushes hand over the rows of the first transaction only. -/
private def interruptedActions : List Action :=
  [.drop ⟨"b", 10⟩, .insertTransactions [⟨"a", 9⟩], .insertUtxos [⟨"a", "output", 0⟩],
    .drop ⟨"b", 10⟩, .insertTransactions [⟨"a", 9⟩], .insertUtxos [⟨"a", "output", 0⟩], .insertAssets []]

theorem repo_below_boundary_retried :
    Runs.run (step 10) State.initial interruptedRun =
        some ⟨.empty, ["b", "b"], interruptedActions⟩ ∧
      interruptedActions.Pairwise Action.Before :=
  ⟨rfl, (@repo_below_boundary 10 interruptedRun ⟨.empty, ["b", "b"], interruptedActions⟩ rfl).2.1⟩

end TransactionMonitoring.SlotCap
