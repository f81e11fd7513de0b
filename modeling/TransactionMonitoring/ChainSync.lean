import Mathlib.Data.List.Flatten
import TransactionMonitoring.RollForward
import TransactionMonitoring.Runs

/-! The chain-sync loop.

The client follows the node's chain one message at a time and handles each to its end or
to the first step that raises; it then starts over from the saved checkpoint.  A crash is a
handler cut short, so a state between two steps of a handler is one its faults lead to.

The node may adopt another chain at any time.  It sends the block after the client's read
pointer while that is on its chain, and a rollback to a block the client has in common with
it otherwise: the last one, or an older one where the node has switched to and fro since the
last message.  Chains are linked by hashes that determine their blocks; slots
do not fall along a chain and no transaction occurs in it twice.  Ingestion is stamped by a
clock that does not run backwards.

Which chain the checkpoint stands for, where the client started and which blocks a rollback
cut short may have purged is recorded in fields that no code reads.
-/
namespace TransactionMonitoring.ChainSync
open RollForward
open Rollback (Point RollbackPoint RunFaults handleRollBackward)

section
variable (ledger : String → Block) (parse : RawTx → Option ParsedTx)

/-- What a node's chain is like. -/
structure ValidChain (chain : List Block) : Prop where
  linked : HashChain.Linked Block.id Block.parent chain
  named : ∀ block ∈ chain, ledger block.id = block
  ordered : chain.Pairwise fun newer older => older.slotNo ≤ newer.slotNo
  distinct : (chain.flatMap (hashes parse)).Nodup

instance (chain : List Block) : Decidable (ValidChain ledger parse chain) :=
  decidable_of_iff
    (HashChain.Linked Block.id Block.parent chain ∧ (∀ block ∈ chain, ledger block.id = block) ∧
      (chain.Pairwise fun newer older => older.slotNo ≤ newer.slotNo) ∧
      (chain.flatMap (hashes parse)).Nodup)
    ⟨fun valid => ⟨valid.1, valid.2.1, valid.2.2.1, valid.2.2.2⟩,
      fun valid => ⟨valid.linked, valid.named, valid.ordered, valid.distinct⟩⟩

end

structure State where
  now : Nat
  /-- The node's chain, newest block first. -/
  chain : List Block
  /-- The chain up to the client's read pointer while a session is up. -/
  session : Option (List Block)
  archive : Archive
  /-- The chain up to the checkpoint, when it was saved. -/
  synced : List Block
  /-- The chain up to the start point of the first run. -/
  start : List Block
  /-- Blocks up to the checkpoint that a rollback gave up without moving it, and that were
  not handled again since. -/
  stranded : List Block
deriving DecidableEq, Repr

def State.initial : State := ⟨0, [], none, Archive.empty, [], [], []⟩

inductive Event where
  | advance (seconds : Nat)
  /-- The node switches to a chain. -/
  | adopt (chain : List Block)
  /-- A session starts; `tip` is where a first run begins. -/
  | connect (tip : List Block)
  /-- The node sends the block after the read pointer. -/
  | forward (block : Block) (delivery : Delivery) (faults : ForwardFaults)
  /-- The node sends a rollback that leaves the client these blocks. -/
  | backward (kept : List Block) (faults : RunFaults)
  /-- The connection drops or the process dies between two messages. -/
  | disconnect

/-- `findIntersection` for one point: the chain up to it. -/
def findIntersection (point : Point) : List Block → Option (List Block)
  | [] => none
  | block :: rest => if block.point = point then some (block :: rest) else findIntersection point rest

/-- The point of a rollback that keeps these blocks. -/
def rollbackPoint : List Block → RollbackPoint
  | [] => .origin
  | block :: _ => .block block.point

section
variable (settings : Settings) (ledger : String → Block) (parse : RawTx → Option ParsedTx)

/-- The start of `_chain_sync_loop`.  A first run begins at the node's tip; the answer to
its second `findIntersection` is not checked, so it begins at origin when the node has
switched in between. -/
def connect (state : State) (tip : List Block) : Option State :=
  match state.archive.store.syncCheckpoint with
  | none =>
      if tip = state.chain ∨ tip = [] then some { state with session := some tip, start := tip } else none
  | some point =>
      match findIntersection point state.chain with
      | some view => some { state with session := some view }
      | none => some state

/-- The chain loop on a `forward` answer, or on a frame that does not decode. -/
def forward (state : State) (view : List Block) (block : Block) (delivery : Delivery)
    (faults : ForwardFaults) : State :=
  let handled := handleBlock settings parse faults state.now block delivery state.archive
  { state with
    archive := handled.archive
    session := if handled.returned then some (block :: view) else none
    synced := if handled.saved then block :: view else state.synced
    stranded := if handled.saved || handled.returned then state.stranded.filter (· ≠ block)
      else state.stranded }

/-- The checkpoint is at the last block a rollback keeps. -/
def Moved (kept : List Block) (store : Rollback.Store) : Prop :=
  kept ≠ [] ∧ store.syncCheckpoint = kept.head?.map Block.point

instance (kept : List Block) (store : Rollback.Store) : Decidable (Moved kept store) :=
  inferInstanceAs (Decidable (_ ∧ _))

/-- The chain loop on a `backward` answer. -/
def backward (state : State) (kept : List Block) (faults : RunFaults) : State :=
  let ran := handleRollBackward settings.rollback faults (rollbackPoint kept) state.archive.store
  { state with
    archive := { state.archive with store := ran.1 }
    session := if ran.2 then some kept else none
    synced := if Moved kept ran.1 then kept else state.synced
    stranded := if Moved kept ran.1 ∨ ran.2 = false ∧ ran.1.tables = state.archive.store.tables then
        state.stranded
      else state.stranded ++ state.synced.filter (· ∉ kept) }

def step (state : State) : Event → Option State
  | .advance seconds => some { state with now := state.now + seconds }
  | .adopt chain => if ValidChain ledger parse chain then some { state with chain := chain } else none
  | .connect tip => if state.session = none then connect state tip else none
  | .forward block delivery faults =>
      match state.session with
      | none => none
      | some view =>
          if block :: view <:+ state.chain then
            some (forward settings parse state view block delivery faults)
          else none
  | .backward kept faults =>
      match state.session with
      | none => none
      | some view =>
          if kept <:+ view ∧ kept <:+ state.chain then
            some (backward settings state kept faults)
          else none
  | .disconnect => some { state with session := none }

end

/-! ## Chains -/

section
variable {ledger : String → Block} {parse : RawTx → Option ParsedTx}

theorem ValidChain.nil : ValidChain ledger parse [] :=
  ⟨trivial, by simp, List.Pairwise.nil, by simp⟩

theorem ValidChain.of_suffix {chain suffix : List Block} (valid : ValidChain ledger parse chain)
    (below : suffix <:+ chain) : ValidChain ledger parse suffix where
  linked := valid.linked.of_suffix below
  named := fun block member => valid.named block (below.subset member)
  ordered := valid.ordered.sublist below.sublist
  distinct := valid.distinct.sublist (below.sublist.flatMap _)

theorem ValidChain.block_eq {first second : List Block} (one : ValidChain ledger parse first)
    (two : ValidChain ledger parse second) {left right : Block} (inFirst : left ∈ first)
    (inSecond : right ∈ second) (same : left.id = right.id) : left = right := by
  rw [← one.named left inFirst, ← two.named right inSecond, same]

/-- A block does not stand above itself. -/
theorem ValidChain.fresh {block : Block} {rest : List Block}
    (valid : ValidChain ledger parse (block :: rest)) : block ∉ rest := by
  intro below
  have tail := valid.of_suffix (List.suffix_cons block rest)
  have again : block :: rest <:+ rest :=
    valid.linked.suffix_of_mem tail.linked (fun left inFirst right inRest =>
      valid.block_eq tail inFirst inRest) List.suffix_rfl below
  have shorter := again.length_le
  rw [List.length_cons] at shorter
  omega

/-- Blocks of one chain share no transaction. -/
theorem ValidChain.hashes_disjoint {block other : Block} {rest : List Block}
    (valid : ValidChain ledger parse (block :: rest)) (below : other ∈ rest) {txHash : String}
    (inOther : txHash ∈ hashes parse other) : txHash ∉ hashes parse block := by
  intro inBlock
  have distinct := valid.distinct
  rw [List.flatMap_cons, List.nodup_append] at distinct
  exact distinct.2.2 txHash inBlock txHash (List.mem_flatMap.mpr ⟨other, below, inOther⟩) rfl

theorem findIntersection_spec {point : Point} {chain view : List Block}
    (found : findIntersection point chain = some view) :
    view <:+ chain ∧ ∃ block rest, view = block :: rest ∧ block.point = point := by
  induction chain with
  | nil => cases found
  | cons block rest ih =>
    simp only [findIntersection] at found
    split at found
    · rename_i same
      obtain rfl := Option.some.inj found
      exact ⟨List.suffix_rfl, block, rest, rfl, same⟩
    · obtain ⟨below, shape⟩ := ih found
      exact ⟨below.trans (List.suffix_cons _ _), shape⟩

theorem findIntersection_none_iff {point : Point} {chain : List Block} :
    findIntersection point chain = none ↔ ∀ block ∈ chain, block.point ≠ point := by
  induction chain with
  | nil => simp [findIntersection]
  | cons block rest ih =>
    simp only [findIntersection]
    split
    · rename_i same
      simp [same]
    · rename_i differs
      simp [ih, differs]

/-- Chains whose heads are at one point are the same. -/
theorem ValidChain.eq_of_head {first second : List Block} (one : ValidChain ledger parse first)
    (two : ValidChain ledger parse second) {block : Block} {rest : List Block} (shape : first = block :: rest)
    (head : second.head?.map Block.point = some block.point) : first = second := by
  subst shape
  cases second with
  | nil => cases head
  | cons other below =>
    have same : other.id = block.id := congrArg Point.id (Option.some.inj head)
    obtain rfl : block = other := one.block_eq two List.mem_cons_self List.mem_cons_self same.symm
    rw [one.linked.rest_eq two.linked fun left inRest right inBelow =>
      one.block_eq two (List.mem_cons_of_mem _ inRest) (List.mem_cons_of_mem _ inBelow)]

end

/-! ## What keeps a block secured -/

section
variable {settings : Settings} {ledger : String → Block} {parse : RawTx → Option ParsedTx}

private theorem mem_hashes {block : Block} {tx : RawTx} (member : tx ∈ block.txs) {parsed : ParsedTx}
    (found : parseTx parse tx = some parsed) : parsed.txHash ∈ hashes parse block :=
  List.mem_map_of_mem (List.mem_filterMap.mpr ⟨tx, member, found⟩)

/-- Handling a later block of the chain leaves the blocks below it as they were. -/
private theorem secured_of_grown {archive after : Archive} {stamp : Nat} {block other : Block} {view : List Block}
    (valid : ValidChain ledger parse (block :: view)) (below : other ∈ view)
    (grown : Grown settings parse stamp block archive after)
    (secured : Secured settings parse archive other) : Secured settings parse after other := by
  have different : other.id ≠ block.id := by
    intro same
    have equal := valid.block_eq valid (List.mem_cons_of_mem _ below) List.mem_cons_self same
    exact valid.fresh (equal ▸ below)
  obtain ⟨rows, shape, fromBlock⟩ := grown.transactions
  refine AccountsFor.mono secured ?_ grown.parseFailed ?_
  · rintro tx member parsed found ⟨stamped, final, complete⟩
    refine ⟨stamped, ?_, ?_, ?_⟩
    · rw [shape, Replacing.final_append_of_absent]
      · exact final
      · intro row inRows same
        obtain ⟨source, inBlock, parsedOther, foundOther, rfl⟩ := fromBlock row inRows
        refine valid.hashes_disjoint below (mem_hashes member found) ?_
        rw [← same]
        exact mem_hashes inBlock foundOther
    · intro row inRows
      obtain ⟨stored, among, keyed⟩ := complete.1 row inRows
      exact ⟨stored, grown.inputs among, keyed⟩
    · intro row inRows
      obtain ⟨stored, among, keyed⟩ := complete.2 row inRows
      exact ⟨stored, grown.outputs among, keyed⟩
  · intro record member same
    exact grown.records record member (same ▸ different)

/-- A rollback leaves the blocks it keeps as they were. -/
private theorem secured_of_rollback {archive : Archive} {faults : RunFaults} {block : Block}
    {kept : List Block} (valid : ValidChain ledger parse kept) (member : block ∈ kept)
    (secured : Secured settings parse archive block) :
    Secured settings parse { archive with
      store := (handleRollBackward settings.rollback faults (rollbackPoint kept) archive.store).1 } block := by
  have below : ∀ target, rollbackPoint kept = .block target → block.slotNo ≤ target.slot := by
    intro target shape
    cases kept with
    | nil => cases member
    | cons head rest =>
      obtain rfl := RollbackPoint.block.inj shape
      rcases List.mem_cons.mp member with rfl | older
      · exact Nat.le_refl _
      · exact (List.pairwise_cons.mp valid.ordered).1 block older
  have spares := @Rollback.handleRollBackward_spares settings.rollback faults (rollbackPoint kept) archive.store
  refine AccountsFor.mono secured ?_ (List.Subset.refl _) (fun _ member _ => member)
  rintro tx inBlock parsed found ⟨stamped, final, complete⟩
  have spared : parsed.txHash ∉ Rollback.owed settings.rollback (rollbackPoint kept) archive.store := by
    intro orphan
    obtain ⟨target, shape, orphan⟩ := Rollback.mem_owed orphan
    obtain ⟨row, foundRow, confirmed, inSlot, above⟩ := Rollback.mem_orphanHashes.mp orphan
    rw [final] at foundRow
    obtain rfl := Option.some.inj foundRow
    obtain rfl : block.slotNo = confirmed := Option.some.inj inSlot
    have bound := below target shape
    omega
  refine ⟨stamped, (spares.transactions _ spared).trans final, ?_, ?_⟩
  · intro row inRows
    obtain ⟨stored, among, keyed⟩ := complete.1 row inRows
    have named : stored.txHash = parsed.txHash := keyed.1.trans (Warehouse.inputRows_hash inRows)
    exact ⟨stored, spares.inputs stored among (named ▸ spared), keyed⟩
  · intro row inRows
    obtain ⟨stored, among, keyed⟩ := complete.2 row inRows
    have named : stored.txHash = parsed.txHash := keyed.1.trans (Warehouse.outputRows_hash inRows)
    exact ⟨stored, spares.outputs stored among (named ▸ spared), keyed⟩

end

/-! ## The invariant -/

/-- Every block up to the checkpoint, and every block of the session, is secured unless it
lies before the start or a rollback has stranded it. -/
structure Synced (settings : Settings) (ledger : String → Block) (parse : RawTx → Option ParsedTx)
    (state : State) : Prop where
  chain : ValidChain ledger parse state.chain
  synced : ValidChain ledger parse state.synced
  session : ∀ view ∈ state.session, ValidChain ledger parse view
  checkpoint : state.archive.store.syncCheckpoint = state.synced.head?.map Block.point
  stamps : ∀ row ∈ state.archive.store.tables.transactions, row.ingestionTimestamp ≤ state.now
  covers : ∀ view ∈ state.session, ∀ block ∈ state.synced, block ∉ state.stranded → block ∈ view
  secured : ∀ block ∈ state.synced, block ∉ state.start → block ∉ state.stranded →
    Secured settings parse state.archive block
  viewed : ∀ view ∈ state.session, ∀ block ∈ view, block ∉ state.start → block ∉ state.stranded →
    Secured settings parse state.archive block

section
variable {settings : Settings} {ledger : String → Block} {parse : RawTx → Option ParsedTx}
  {state : State}

private theorem synced_initial : Synced settings ledger parse State.initial where
  chain := ValidChain.nil
  synced := ValidChain.nil
  session := by simp [State.initial]
  checkpoint := rfl
  stamps := by simp [State.initial, Archive.empty, Rollback.Store.empty, Warehouse.Tables.empty]
  covers := by simp [State.initial]
  secured := by simp [State.initial]
  viewed := by simp [State.initial]

/-- The chain up to the checkpoint is the one the invariant speaks of. -/
theorem Synced.upTo_eq (inv : Synced settings ledger parse state) {point : Point} {upTo : List Block}
    (saved : state.archive.store.syncCheckpoint = some point)
    (onChain : findIntersection point state.chain = some upTo) : upTo = state.synced := by
  obtain ⟨below, block, rest, shape, same⟩ := findIntersection_spec onChain
  refine (inv.chain.of_suffix below).eq_of_head inv.synced shape ?_
  rw [← inv.checkpoint, saved, same]

private theorem synced_connect {tip : List Block} {next : State} (inv : Synced settings ledger parse state)
    (connected : connect state tip = some next) : Synced settings ledger parse next := by
  unfold connect at connected
  split at connected
  · rename_i first
    split at connected
    · rename_i place
      obtain rfl := Option.some.inj connected
      have none : state.synced = [] := by
        have head := inv.checkpoint
        rw [first] at head
        cases shape : state.synced with
        | nil => rfl
        | cons block rest => simp [shape] at head
      have valid : ValidChain ledger parse tip := by
        rcases place with rfl | rfl
        · exact inv.chain
        · exact ValidChain.nil
      refine ⟨inv.chain, inv.synced, ?_, inv.checkpoint, inv.stamps, ?_, ?_, ?_⟩
      · rintro view ⟨⟩
        exact valid
      · simp [none]
      · simp [none]
      · rintro view ⟨⟩ block member outside
        exact absurd member outside
    · cases connected
  · rename_i point saved
    split at connected
    · rename_i view found
      obtain rfl := Option.some.inj connected
      have valid := inv.chain.of_suffix (findIntersection_spec found).1
      have resumed := inv.upTo_eq saved found
      refine ⟨inv.chain, inv.synced, ?_, inv.checkpoint, inv.stamps, ?_, inv.secured, ?_⟩
      · rintro other ⟨⟩
        exact valid
      · rintro other ⟨⟩ block member -
        rw [resumed]
        exact member
      · rintro other ⟨⟩ block member
        rw [resumed] at member
        exact inv.secured block member
    · obtain rfl := Option.some.inj connected
      exact inv

/-- What holds of the view a handler returns to holds of the session it leaves. -/
private theorem of_session {up : Bool} {view : List Block} {holds : List Block → Prop}
    (kept : up = true → holds view) : ∀ other ∈ (if up then some view else none), holds other := by
  cases up with
  | true =>
    rintro other ⟨⟩
    exact kept rfl
  | false => rintro other ⟨⟩

/-- A block is no longer stranded for one reason: it was reached again. -/
private theorem spared_or_reached {stranded : List Block} {block other : Block} {saved returned : Bool}
    (kept : other ∉ (if saved || returned then stranded.filter (· ≠ block) else stranded)) :
    other ∉ stranded ∨ other = block ∧ (saved = true ∨ returned = true) := by
  split at kept
  · rename_i reached
    by_cases same : other = block
    · exact Or.inr ⟨same, by simpa using reached⟩
    · exact Or.inl fun member => kept (List.mem_filter.mpr ⟨member, by simpa using same⟩)
  · exact Or.inl kept

private theorem synced_forward {view : List Block} {block : Block} {delivery : Delivery}
    {faults : ForwardFaults} (inv : Synced settings ledger parse state)
    (following : state.session = some view) (next : block :: view <:+ state.chain) :
    Synced settings ledger parse (forward settings parse state view block delivery faults) := by
  have valid := inv.chain.of_suffix next
  have distinct : (hashes parse block).Nodup := by
    have all := valid.distinct
    rw [List.flatMap_cons, List.nodup_append] at all
    exact all.1
  have grown := @handleBlock_grown settings parse block state.now faults state.archive delivery
  have checkpoint := @handleBlock_checkpoint settings parse block state.now faults state.archive delivery
  have handled := @handleBlock_secured settings parse block state.now faults state.archive delivery
    distinct inv.stamps
  simp only [forward]
  generalize handleBlock settings parse faults state.now block delivery state.archive = result at *
  -- the blocks below the new one stay secured
  have older : ∀ other ∈ view, other ∉ state.start → other ∉ state.stranded →
      Secured settings parse result.archive other := fun other member outside kept =>
    secured_of_grown valid member grown (inv.viewed view following other member outside kept)
  have covered : ∀ other ∈ state.synced, other ∉ state.stranded → other ∈ view :=
    inv.covers view following
  have each : ∀ other, other ∈ view ∨ other ∈ state.synced ∨ other = block ∧
        (result.saved = true ∨ result.returned = true) → other ∉ state.start →
      other ∉ (if result.saved || result.returned then state.stranded.filter (· ≠ block)
        else state.stranded) → Secured settings parse result.archive other := by
    intro other place outside kept
    rcases spared_or_reached kept with spared | ⟨rfl, reached⟩
    · rcases place with member | member | ⟨rfl, reached⟩
      · exact older other member outside spared
      · exact older other (covered other member spared) outside spared
      · exact handled reached
    · exact handled reached
  refine ⟨inv.chain, ?_, ?_, ?_, ?_, ?_, ?_, ?_⟩
  · dsimp only
    split
    · exact valid
    · exact inv.synced
  · exact of_session fun _ => valid
  · rw [checkpoint]
    dsimp only
    split
    · rfl
    · exact inv.checkpoint
  · obtain ⟨rows, shape, fromBlock⟩ := grown.transactions
    intro row member
    rw [shape] at member
    rcases List.mem_append.mp member with old | new
    · exact inv.stamps row old
    · obtain ⟨source, -, parsed, -, rfl⟩ := fromBlock row new
      exact Nat.le_refl _
  · refine of_session fun _ other member kept => ?_
    dsimp only at member
    split at member
    · exact member
    · rcases spared_or_reached kept with spared | ⟨rfl, -⟩
      · exact List.mem_cons_of_mem _ (covered other member spared)
      · exact List.mem_cons_self
  · intro other member
    refine each other ?_
    dsimp only at member
    split at member
    · rename_i saved
      rcases List.mem_cons.mp member with rfl | below
      · exact Or.inr (Or.inr ⟨rfl, Or.inl saved⟩)
      · exact Or.inl below
    · exact Or.inr (Or.inl member)
  · refine of_session fun returned other member => each other ?_
    rcases List.mem_cons.mp member with rfl | below
    · exact Or.inr (Or.inr ⟨rfl, Or.inr returned⟩)
    · exact Or.inl below

/-- Only the warehouse's tables decide what is secured. -/
private theorem secured_of_tables {store : Rollback.Store} {block : Block}
    (same : store.tables = state.archive.store.tables)
    (secured : Secured settings parse state.archive block) :
    Secured settings parse { state.archive with store := store } block := by
  refine AccountsFor.mono secured ?_ (List.Subset.refl _) (fun _ member _ => member)
  intro tx member parsed found held
  rw [same]
  exact held

private theorem synced_backward {view kept : List Block} {faults : RunFaults}
    (inv : Synced settings ledger parse state) (following : state.session = some view)
    (inView : kept <:+ view) : Synced settings ledger parse (backward settings state kept faults) := by
  have valid := (inv.session view following).of_suffix inView
  have spares := @Rollback.handleRollBackward_spares settings.rollback faults (rollbackPoint kept)
    state.archive.store
  have moves := @Rollback.handleRollBackward_checkpoint settings.rollback faults (rollbackPoint kept)
    state.archive.store
  have secured := fun block => @secured_of_rollback settings ledger parse state.archive faults block
    kept valid
  simp only [backward]
  generalize handleRollBackward settings.rollback faults (rollbackPoint kept) state.archive.store = ran at *
  have keeps : ∀ block ∈ kept, block ∉ state.start → block ∉ state.stranded →
      Secured settings parse { state.archive with store := ran.1 } block := fun block member outside spared =>
    secured block member (inv.viewed view following block (inView.subset member) outside spared)
  by_cases moved : Moved kept ran.1
  · -- the checkpoint is at the end of what the rollback keeps
    simp only [moved, if_true, true_or]
    refine ⟨inv.chain, valid, of_session fun _ => valid, moved.2, ?_, ?_, keeps, of_session fun _ => keeps⟩
    · exact fun row member => inv.stamps row (spares.subset member)
    · exact of_session fun _ block member _ => member
  · have unmoved : ran.1.syncCheckpoint = state.synced.head?.map Block.point := by
      rcases moves with same | ⟨target, shape, there⟩
      · exact same.trans inv.checkpoint
      · cases kept with
        | nil => cases shape
        | cons head rest =>
          obtain rfl := RollbackPoint.block.inj shape
          exact absurd ⟨List.cons_ne_nil _ _, there⟩ moved
    simp only [moved, if_false, false_or]
    by_cases untouched : ran.2 = false ∧ ran.1.tables = state.archive.store.tables
    · -- it raised before it purged anything
      obtain ⟨raised, same⟩ := untouched
      simp only [raised, same, and_self, if_true, Bool.false_eq_true, if_false]
      refine ⟨inv.chain, inv.synced, by simp, unmoved, ?_, by simp, ?_, by simp⟩
      · exact fun row member => inv.stamps row (spares.subset member)
      · exact fun block member outside spared =>
          secured_of_tables same (inv.secured block member outside spared)
    · -- what it may have purged is stranded
      have stays : ∀ block ∈ state.synced, block ∉ state.stranded ++ state.synced.filter (· ∉ kept) →
          block ∈ kept ∧ block ∉ state.stranded := by
        intro block member spared
        refine ⟨?_, fun stranded => spared (List.mem_append_left _ stranded)⟩
        by_contra orphan
        exact spared (List.mem_append_right _ (List.mem_filter.mpr ⟨member, by simpa using orphan⟩))
      simp only [untouched, if_false]
      refine ⟨inv.chain, inv.synced, of_session fun _ => valid, unmoved, ?_, ?_, ?_, ?_⟩
      · exact fun row member => inv.stamps row (spares.subset member)
      · exact of_session fun _ block member spared => (stays block member spared).1
      · intro block member outside spared
        obtain ⟨inKept, free⟩ := stays block member spared
        exact keeps block inKept outside free
      · refine of_session fun _ block member outside spared => ?_
        exact keeps block member outside fun stranded => spared (List.mem_append_left _ stranded)

/-- One step of the system keeps the invariant. -/
theorem synced_step {next : State} {event : Event} (inv : Synced settings ledger parse state)
    (stepped : step settings ledger parse state event = some next) :
    Synced settings ledger parse next := by
  cases event with
  | advance seconds =>
    obtain rfl := Option.some.inj stepped
    exact { inv with stamps := fun row member => Nat.le_trans (inv.stamps row member) (Nat.le_add_right _ _) }
  | adopt chain =>
    simp only [step] at stepped
    split at stepped
    · rename_i valid
      obtain rfl := Option.some.inj stepped
      exact { inv with chain := valid }
    · cases stepped
  | connect tip =>
    simp only [step] at stepped
    split at stepped
    · exact synced_connect inv stepped
    · cases stepped
  | forward block delivery faults =>
    simp only [step] at stepped
    split at stepped
    · cases stepped
    · rename_i view following
      split at stepped
      · rename_i next
        obtain rfl := Option.some.inj stepped
        exact synced_forward inv following next
      · cases stepped
  | backward kept faults =>
    simp only [step] at stepped
    split at stepped
    · cases stepped
    · rename_i view following
      split at stepped
      · rename_i shared
        obtain rfl := Option.some.inj stepped
        exact synced_backward inv following shared.1
      · cases stepped
  | disconnect =>
    obtain rfl := Option.some.inj stepped
    exact { inv with session := by simp, covers := by simp, viewed := by simp }

/-- Every state the client reaches keeps the invariant. -/
theorem synced_run {events : List Event}
    (reached : Runs.run (step settings ledger parse) State.initial events = some state) :
    Synced settings ledger parse state :=
  Runs.invariant _ (fun inv stepped => synced_step inv stepped) synced_initial reached

end

/-- **No block is lost.**  Whatever the node does and wherever a handler stops, every block
of the node's chain up to the saved checkpoint is accounted for, unless it lies before the
start or is stranded by a rollback that did not get to its checkpoint write. -/
theorem no_block_lost (settings : Settings) (ledger : String → Block) (parse : RawTx → Option ParsedTx)
    {events : List Event} {state : State}
    (reached : Runs.run (step settings ledger parse) State.initial events = some state)
    {point : Point} (saved : state.archive.store.syncCheckpoint = some point) {upTo : List Block}
    (onChain : findIntersection point state.chain = some upTo) :
    ∀ block ∈ upTo, block ∉ state.start → block ∉ state.stranded →
      Accounted settings parse state.archive block := by
  have inv := synced_run reached
  intro block member outside kept
  rw [inv.upTo_eq saved onChain] at member
  exact (inv.secured block member outside kept).accounted

private def sampleSettings (rawStoreEnabled : Bool) : Settings := ⟨rawStoreEnabled, 0, 1, ⟨true, false⟩⟩

private def sampleParse (tx : RawTx) : Option ParsedTx :=
  if tx.body = "unknown" then none else some ⟨tx.id, [], [], 0, none⟩

private def firstBlock : Block := ⟨"b1", none, 10, true, [⟨"tx1", true, "known"⟩, ⟨"tx2", true, "unknown"⟩]⟩

private def sampleLedger (_ : String) : Block := firstBlock

private def undisturbed : ForwardFaults :=
  ⟨.answered, none, [], false, [⟨.answered, .answered, .answered⟩], .answered, .answered⟩

/-- The client starts on an empty chain; the node then gets its first block and sends it. -/
private def firstBlockArrives : List Event :=
  [.connect [], .adopt [firstBlock], .backward [] Rollback.RunFaults.none,
    .forward firstBlock .decoded undisturbed]

private def afterFirstBlock (rawStoreEnabled : Bool) : State :=
  (Runs.run (step (sampleSettings rawStoreEnabled) sampleLedger sampleParse) State.initial
    firstBlockArrives).getD State.initial

theorem no_block_lost_first_block :
    Accounted (sampleSettings true) sampleParse (afterFirstBlock true).archive firstBlock :=
  no_block_lost (sampleSettings true) sampleLedger sampleParse
    (show Runs.run _ State.initial firstBlockArrives = some (afterFirstBlock true) by decide)
    (show _ = some firstBlock.point by decide) (show _ = some [firstBlock] by decide)
    firstBlock List.mem_cons_self (by decide) (by decide)

/-- Without the raw store a transaction that does not parse is only logged: the checkpoint
passes its block and no store knows of it. -/
theorem unparsed_tx_dropped :
    Runs.run (step (sampleSettings false) sampleLedger sampleParse) State.initial firstBlockArrives =
      some (afterFirstBlock false) ∧
    (afterFirstBlock false).archive.store.syncCheckpoint = some firstBlock.point ∧
    findIntersection firstBlock.point (afterFirstBlock false).chain = some [firstBlock] ∧
    (afterFirstBlock false).start = [] ∧ (afterFirstBlock false).stranded = [] ∧
    ∃ tx ∈ firstBlock.txs, parseTx sampleParse tx = none ∧
      tx ∉ (afterFirstBlock false).archive.parseFailed ∧
      (afterFirstBlock false).archive.quarantinedBlocks = [] := by
  decide

/-! ## Resuming after a rollback that raised -/

/-- The points a session's first `findIntersection` offers. -/
def offeredPoints : Option Point → List RollbackPoint
  | none => [.origin]
  | some point => [.block point]

/-- Origin is on every chain. -/
def OnChain (chain : List Block) : RollbackPoint → Prop
  | .origin => True
  | .block point => ∃ block ∈ chain, block.point = point

instance (chain : List Block) : (point : RollbackPoint) → Decidable (OnChain chain point)
  | .origin => isTrue trivial
  | .block point => inferInstanceAs (Decidable (∃ block ∈ chain, block.point = point))

/-- The next session gets an intersection. -/
def Resumes (state : State) : Prop :=
  ∃ point ∈ offeredPoints state.archive.store.syncCheckpoint, OnChain state.chain point

instance (state : State) : Decidable (Resumes state) :=
  inferInstanceAs (Decidable (∃ point ∈ offeredPoints _, OnChain _ point))

/-- The event does not bring the checkpoint onto the node's chain. -/
def StaysAway (state : State) : Event → Prop
  | .adopt chain => ¬ Resumes { state with chain := chain }
  | _ => True

section
variable {settings : Settings} {ledger : String → Block} {parse : RawTx → Option ParsedTx}
  {state : State}

/-- A session starts exactly if a point it offers is on the node's chain. -/
theorem resumes_iff_connects (down : state.session = none) :
    Resumes state ↔ ∃ tip next, connect state tip = some next ∧ next.session ≠ none := by
  unfold Resumes connect
  cases saved : state.archive.store.syncCheckpoint with
  | none =>
    refine ⟨fun _ => ⟨[], { state with session := some [], start := [] }, by simp, by simp⟩, fun _ => ?_⟩
    exact ⟨.origin, List.mem_singleton_self _, trivial⟩
  | some point =>
    simp only [offeredPoints, List.mem_singleton, exists_eq_left, OnChain]
    cases found : findIntersection point state.chain with
    | none =>
      have absent := findIntersection_none_iff.mp found
      constructor
      · rintro ⟨block, member, same⟩
        exact absurd same (absent block member)
      · rintro ⟨tip, next, connected, up⟩
        obtain rfl := Option.some.inj connected
        exact absurd down up
    | some view =>
      obtain ⟨below, block, rest, rfl, same⟩ := findIntersection_spec found
      refine ⟨fun _ => ⟨[], _, rfl, by simp⟩, fun _ => ?_⟩
      exact ⟨block, below.subset List.mem_cons_self, same⟩

/-- No session is up and none can start. -/
structure Stuck (archive : Archive) (state : State) : Prop where
  lost : ¬ Resumes state
  down : state.session = none
  same : state.archive = archive

private theorem stuck_step {archive : Archive} {event : Event} {next : State} (away : StaysAway state event)
    (stuck : Stuck archive state) (stepped : step settings ledger parse state event = some next) :
    Stuck archive next := by
  obtain ⟨lost, down, same⟩ := stuck
  cases event with
  | advance seconds =>
    obtain rfl := Option.some.inj stepped
    exact ⟨lost, down, same⟩
  | adopt chain =>
    simp only [step] at stepped
    split at stepped
    · obtain rfl := Option.some.inj stepped
      exact ⟨away, down, same⟩
    · cases stepped
  | connect tip =>
    simp only [step, down, if_true] at stepped
    have still : next.session = none := by
      by_contra up
      exact lost ((resumes_iff_connects down).mpr ⟨tip, next, stepped, up⟩)
    unfold connect at stepped
    split at stepped
    · split at stepped
      · obtain rfl := Option.some.inj stepped
        cases still
      · cases stepped
    · split at stepped
      · obtain rfl := Option.some.inj stepped
        cases still
      · obtain rfl := Option.some.inj stepped
        exact ⟨lost, down, same⟩
  | forward block delivery faults => simp [step, down] at stepped
  | backward kept faults => simp [step, down] at stepped
  | disconnect =>
    obtain rfl := Option.some.inj stepped
    exact ⟨lost, rfl, same⟩

/-- A block the client has followed is on the node's chain exactly if it is among what the
two have in common. -/
private theorem mem_common_iff {view chain : List Block} {block : Block} {rest : List Block}
    (followed : ValidChain ledger parse view) (current : ValidChain ledger parse chain)
    (below : block :: rest <:+ view) : block ∈ HashChain.commonSuffix view chain ↔ block ∈ chain := by
  constructor
  · exact fun member => (HashChain.commonSuffix_right view chain).subset member
  · intro member
    have shared : block :: rest <:+ chain :=
      followed.linked.suffix_of_mem current.linked (fun left inView right inChain =>
        followed.block_eq current inView inChain) below member
    exact (HashChain.suffix_commonSuffix below shared).subset List.mem_cons_self

end

/-- **When a failed rollback can be resumed.**  A rollback that raised before its checkpoint
write is sent again exactly if no checkpoint was saved yet or its block is still on the
node's chain; for a block the session has followed that is to say that it is among what the
client and the node have in common, so that the rollback does not orphan it.  Otherwise no
later attempt gets an intersection until the node returns to the orphaned fork. -/
theorem failed_rollback_resumes_iff (settings : Settings) (ledger : String → Block)
    (parse : RawTx → Option ParsedTx) {events : List Event} {state : State}
    (reached : Runs.run (step settings ledger parse) State.initial events = some state)
    {view kept : List Block} (following : state.session = some view) {faults : RunFaults} {next : State}
    (sent : step settings ledger parse state (.backward kept faults) = some next)
    (raised : next.session = none)
    (unwritten : next.archive.store.syncCheckpoint = state.archive.store.syncCheckpoint) :
    (Resumes next ↔ ∀ block ∈ state.synced.head?, block ∈ state.chain) ∧
    (∀ block ∈ state.synced.head?, block ∈ view →
      (Resumes next ↔ block ∈ HashChain.commonSuffix view state.chain)) ∧
    (¬ Resumes next → ∀ later last, Runs.EveryStep (step settings ledger parse) StaysAway next later →
      Runs.run (step settings ledger parse) next later = some last →
      last.session = none ∧ last.archive = next.archive) := by
  have inv := synced_run reached
  have sameChain : next.chain = state.chain := by
    simp only [step, following] at sent
    split at sent
    · obtain rfl := Option.some.inj sent
      rfl
    · cases sent
  have decided : Resumes next ↔ ∀ block ∈ state.synced.head?, block ∈ state.chain := by
    unfold Resumes
    rw [unwritten, inv.checkpoint, sameChain]
    cases shape : state.synced with
    | nil => simp [offeredPoints, OnChain]
    | cons head rest =>
      simp only [List.head?_cons, Option.map_some, offeredPoints, List.mem_singleton, exists_eq_left,
        OnChain, Option.mem_some_iff, forall_eq']
      constructor
      · rintro ⟨block, member, same⟩
        have inSynced : head ∈ state.synced := shape ▸ List.mem_cons_self
        have equal := inv.chain.block_eq inv.synced member inSynced (congrArg Point.id same)
        exact equal ▸ member
      · exact fun member => ⟨head, member, rfl⟩
  have stays : ¬ Resumes next → ∀ later last,
      Runs.EveryStep (step settings ledger parse) StaysAway next later →
      Runs.run (step settings ledger parse) next later = some last →
      last.session = none ∧ last.archive = next.archive := by
    intro lost later last away ended
    have stuck : Stuck next.archive last :=
      Runs.invariant_of_step _ (fun away stuck stepped => stuck_step away stuck stepped)
        (Stuck.mk lost raised rfl) away ended
    exact ⟨stuck.down, stuck.same⟩
  refine ⟨decided, ?_, stays⟩
  intro block head inView
  obtain ⟨newer, older, rfl⟩ := List.append_of_mem inView
  rw [mem_common_iff (inv.session _ following) inv.chain (List.suffix_append newer (block :: older)), decided]
  constructor
  · exact fun all => all block head
  · intro member other same
    obtain rfl := Option.mem_unique head same
    exact member

private def secondBlock : Block := ⟨"b2", some "b1", 20, true, [⟨"tx3", true, "known"⟩]⟩

private def forkBlock : Block := ⟨"c2", some "b1", 21, true, []⟩

private def forkLedger (id : String) : Block :=
  if id = "b2" then secondBlock else if id = "c2" then forkBlock else firstBlock

/-- The client follows two blocks; the node then leaves the second for a fork. -/
private def forkHappens : List Event :=
  firstBlockArrives ++ [.adopt [secondBlock, firstBlock], .forward secondBlock .decoded undisturbed,
    .adopt [forkBlock, firstBlock]]

private def afterFork : State :=
  (Runs.run (step (sampleSettings true) forkLedger sampleParse) State.initial forkHappens).getD
    State.initial

/-- The rollback's first read of the warehouse raises. -/
private def selectFails : RunFaults := { Rollback.RunFaults.none with select := false }

private def afterFailedRollback : State :=
  (step (sampleSettings true) forkLedger sampleParse afterFork (.backward [firstBlock] selectFails)).getD
    State.initial

theorem failed_rollback_resumes_iff_fork :
    Resumes afterFailedRollback ↔ ∀ block ∈ afterFork.synced.head?, block ∈ afterFork.chain :=
  (failed_rollback_resumes_iff (sampleSettings true) forkLedger sampleParse
    (show Runs.run _ State.initial forkHappens = some afterFork by decide)
    (show afterFork.session = some [secondBlock, firstBlock] by decide)
    (show step _ _ _ afterFork (.backward [firstBlock] selectFails) = some afterFailedRollback by decide)
    (by decide) (by decide)).1

/-- The saved checkpoint stays on the orphaned fork: it is the only point the next session
offers, the node does not have it, and the attempt leaves everything as it was. -/
theorem failed_rollback_strands_checkpoint :
    Runs.run (step (sampleSettings true) forkLedger sampleParse) State.initial forkHappens = some afterFork ∧
    step (sampleSettings true) forkLedger sampleParse afterFork (.backward [firstBlock] selectFails) =
      some afterFailedRollback ∧
    afterFailedRollback.session = none ∧
    afterFailedRollback.archive.store.syncCheckpoint = some secondBlock.point ∧
    ¬ Resumes afterFailedRollback ∧
    step (sampleSettings true) forkLedger sampleParse afterFailedRollback (.connect []) =
      some afterFailedRollback := by
  decide

end TransactionMonitoring.ChainSync
