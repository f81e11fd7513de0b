import TransactionMonitoring.ClosingLeg
import TransactionMonitoring.Layers
import Mathlib.Data.List.Dedup
import Mathlib.Data.Prod.Lex
import Mathlib.Data.String.Basic

/-! The search for value cycles.

From what a transaction paid to others, the search follows spends forward, one frontier of addresses
a hop, until some transaction pays an address the origin spent from.  The ring's path is recovered
backwards over the transactions that first paid each address.  Where no frontier and no read was
cut, the search is breadth-first over the spend graph.
-/
namespace TransactionMonitoring.Cycles
open ClosingLeg

/-! ## The ledger's tables -/

/-- A row of `transactions` on the network. -/
structure TransactionRow where
  txHash : String
  slot : Option ℕ
deriving DecidableEq, Repr

/-- A row of `transaction_inputs`. -/
structure InputRow where
  txHash : String
  address : String
  isCollateral : Bool
  isReference : Bool
  isUnspentAttempt : Bool
deriving DecidableEq, Repr

/-- A row of `transaction_outputs`. -/
structure OutputRow where
  txHash : String
  outputIndex : ℕ
  address : String
  amount : ℕ
  isCollateral : Bool
deriving DecidableEq, Repr

/-- A row of `address_transactions`. -/
structure IndexRow where
  address : String
  slot : ℕ
  txHash : String
deriving DecidableEq, Repr

/-- The input is spent by its transaction. -/
def InputRow.regular (input : InputRow) : Bool :=
  !input.isCollateral && !input.isReference && !input.isUnspentAttempt

/-- The tables, merged.  Every output of the chain names its address; the index is filled from the
addresses of each transaction, which hold every resolved regular input address. -/
structure Ledger where
  transactions : List TransactionRow
  inputs : List InputRow
  outputs : List OutputRow
  addressTransactions : List IndexRow
  addressed : ∀ output ∈ outputs, output.address ≠ ""
  indexed : ∀ input ∈ inputs, input.regular = true → input.address ≠ "" → ∀ tx ∈ transactions,
    tx.txHash = input.txHash → ∀ slot ∈ tx.slot,
      (⟨input.address, slot, input.txHash⟩ : IndexRow) ∈ addressTransactions

structure Config extends CycleConfig where
  cycleMaxHops : ℕ
  cycleMaxFanout : ℕ
  maxOutputFanout : ℕ
  maxAgeSlots : ℕ
  bfsHopRowLimit : ℕ

/-! ## One hop -/

/-- What one transaction paid one address. -/
structure HopRow where
  txHash : String
  address : String
  paid : ℕ
  slot : ℕ
deriving DecidableEq, Repr

/-- The slots a cycle may span. -/
structure Window where
  minSlot : ℕ
  maxSlot : ℕ

def Window.holds (window : Window) (slot : ℕ) : Bool := window.minSlot ≤ slot && slot ≤ window.maxSlot

section Query
variable (ledger : Ledger) (window : Window) (originTx : String) (addresses : List String)

/-- `_HOP_PREFILTER`. -/
def hopPrefilter : List String :=
  (ledger.addressTransactions.filter fun row => addresses.contains row.address && window.holds row.slot).map
    IndexRow.txHash

/-- `_HOP_SPENDS`. -/
def hopSpends : List String :=
  (ledger.inputs.filter fun input =>
    addresses.contains input.address && input.regular && input.txHash != originTx &&
      (hopPrefilter ledger window addresses).contains input.txHash).map InputRow.txHash

/-- `cand`. -/
def candidates : List (String × ℕ) :=
  (ledger.transactions.filterMap fun tx => tx.slot.bind fun slot =>
    if window.holds slot && (hopSpends ledger window originTx addresses).contains tx.txHash then
      some (tx.txHash, slot)
    else none).dedup

/-- The distinct outputs of a transaction that are not collateral. -/
def paidOutputs (txHash : String) : List OutputRow :=
  (ledger.outputs.filter fun output => !output.isCollateral && output.txHash == txHash).dedup

/-- What one candidate paid, an address a row. -/
def paidRows (candidate : String × ℕ) : List HopRow :=
  let outputs := paidOutputs ledger candidate.1
  (outputs.map OutputRow.address).dedup.map fun address =>
    { txHash := candidate.1, address := address, slot := candidate.2
      paid := ((outputs.filter fun output => output.address = address).map OutputRow.amount).sum }

/-- The order of the rows: by slot, then transaction, then address. -/
def HopRow.key (row : HopRow) : ℕ ×ₗ String ×ₗ String := toLex (row.slot, toLex (row.txHash, row.address))

/-- The rows of `_HOP_QUERY` before its limit. -/
def allHopRows : List HopRow :=
  ((candidates ledger window originTx addresses).flatMap (paidRows ledger)).insertionSort fun first second =>
    first.key ≤ second.key

/-- `_HOP_QUERY`. -/
def hopRows (config : Config) : List HopRow :=
  (allHopRows ledger window originTx addresses).take config.bfsHopRowLimit

end Query

/-! ## The search -/

/-- One entry of the evidence. -/
structure Hop where
  address : String
  amountLovelace : ℕ
  slot : ℕ
deriving DecidableEq, Repr

/-- The transaction that first paid each address. -/
abbrev Creators := List (String × String)

def Creators.get (creators : Creators) (address : String) : Option String :=
  (creators.find? fun entry => entry.1 = address).map Prod.snd

def Creators.setDefault (creators : Creators) (address txHash : String) : Creators :=
  if (creators.get address).isSome then creators else creators ++ [(address, txHash)]

/-- What the rows of one hop add up to. -/
structure Gathered where
  nextAddresses : List String
  creator : Creators
  hopAmount : ℕ
  hopSlot : ℕ

/-- The loop over one hop's rows: it stops at the first row that pays an origin address. -/
def readRows (originAddresses visited : List String) : List HopRow → Gathered → Gathered × Option HopRow
  | [], gathered => (gathered, none)
  | row :: rest, gathered =>
    let gathered := { gathered with hopSlot := max gathered.hopSlot row.slot }
    if row.address ∈ originAddresses then (gathered, some row)
    else if row.address ∉ visited then
      readRows originAddresses visited rest
        { gathered with
          nextAddresses := gathered.nextAddresses.insert row.address
          creator := gathered.creator.setDefault row.address row.txHash
          hopAmount := gathered.hopAmount + row.paid }
    else readRows originAddresses visited rest gathered

/-- The state of the search between two hops. -/
structure Search where
  current : List String
  visited : List String
  allCycleAddresses : List String
  hops : List Hop
  creator : Creators
  queried : List (List String)

/-- `_first_sorted`. -/
def firstSorted (addresses : List String) : String := (addresses.insertionSort (· ≤ ·)).head?.getD ""

/-- The hop a cycle was found at, its closing row, and the search by then. -/
structure Closure where
  hop : ℕ
  row : HopRow
  search : Search

section Run
variable (config : Config) (ledger : Ledger) (window : Window) (originTx : String) (originAddresses : List String)

/-- The frontier a hop queries. -/
def frontier (search : Search) : List String :=
  (search.current.insertionSort (· ≤ ·)).take config.cycleMaxFanout

/-- The search after a hop without a closing row. -/
def advance (search : Search) (gathered : Gathered) : Search where
  current := gathered.nextAddresses
  visited := search.visited ++ gathered.nextAddresses
  allCycleAddresses := search.allCycleAddresses ++ search.current
  hops := search.hops ++ [⟨firstSorted search.current, gathered.hopAmount, gathered.hopSlot⟩]
  creator := gathered.creator
  queried := search.queried ++ [frontier config search]

/-- The loop over the hops, with as many left as the first argument says. -/
def searchFrom : ℕ → ℕ → Search → Option Closure
  | 0, _, _ => none
  | left + 1, hop, search =>
    let nextRows := hopRows ledger window originTx (frontier config search) config
    if search.current = [] then none
    else if nextRows = [] then none
    else
      match readRows originAddresses search.visited nextRows ⟨[], search.creator, 0, 0⟩ with
      | (gathered, some row) =>
        some ⟨hop, row, { search with creator := gathered.creator
                                      queried := search.queried ++ [frontier config search] }⟩
      | (gathered, none) => searchFrom left (hop + 1) (advance config search gathered)

end Run

/-! ## The ring's path -/

/-- `_spenders`: the addresses the transactions spent from. -/
def spenders (ledger : Ledger) (txs : List String) : List String :=
  ((ledger.inputs.filter fun input => txs.contains input.txHash && input.regular).map InputRow.address).dedup

/-- The loop of `_ring_path` over the frontiers, the last one first; nothing where a creator is
missing. -/
def pathFrom (ledger : Ledger) (originTx : String) (creator : Creators) :
    List (List String) → List String → Option (List String)
  | [], _ => some []
  | frontier :: earlier, txs =>
    if txs = [] then some []
    else
      let spent := (spenders ledger txs).filter fun address => frontier.contains address
      (spent.mapM creator.get).bind fun created =>
        (pathFrom ledger originTx creator earlier (created.dedup.filter (· ≠ originTx))).map fun onPath =>
          spent ++ onPath

/-- `_ring_path`. -/
def ringPath (ledger : Ledger) (originTx closingTx : String) (queried : List (List String)) (creator : Creators) :
    Option (List String) :=
  (pathFrom ledger originTx creator queried.reverse [closingTx]).map fun onPath =>
    onPath.dedup.insertionSort (· ≤ ·)

/-- Whether the reads for a found cycle succeed, and the earlier cycles of its origin. -/
structure Reads where
  closingLegReadable : Bool
  historyReadable : Bool
  priorOriginCycles : List (ℚ × List String)

/-- `_representatives`. -/
def representatives (hops : List Hop) : List String := (hops.tail.dropLast).map Hop.address

/-- The closure's length is one the gate scores. -/
def Config.scorable (config : Config) (cycleLength : ℕ) : Bool :=
  config.minCycleLength ≤ cycleLength && cycleLength ≤ config.maxCycleLength

/-- `_cycle_history`: the path, the earlier cycles and whether the read failed. -/
def cycleHistory (config : Config) (ledger : Ledger) (reads : Reads) (originTx closingTx : String)
    (cycleLength : ℕ) (hops : List Hop) (queried : List (List String)) (creator : Creators) :
    List String × List (ℚ × List String) × Bool :=
  if !config.scorable cycleLength then (representatives hops, [], false)
  else if !reads.historyReadable then (representatives hops, [], true)
  else
    match ringPath ledger originTx closingTx queried creator with
    | none => (representatives hops, [], true)
    | some [] => (representatives hops, reads.priorOriginCycles, false)
    | some path => (path, reads.priorOriginCycles, false)

/-! ## The detector -/

/-- What the result's statistics are computed from. -/
structure Cycle where
  cycleLength : ℕ
  addresses : List String
  originAmount : ℕ
  finalAmount : ℕ
  hops : List Hop
  originAddresses : List String
  intermediaries : List String
  priorCycles : List (ℚ × List String)
  historyUnavailable : Bool
  closingLegUnavailable : Bool

section Detector
variable (config : Config) (ledger : Ledger) (reads : Reads) (txHash : String)

/-- `origin_addresses`. -/
def originAddresses : List String :=
  ((ledger.inputs.filter fun input => input.txHash == txHash && input.regular && input.address != "").map
    InputRow.address).dedup

/-- `out_rows`. -/
def outRows : List (String × ℕ × Option ℕ) :=
  (ledger.outputs.filter fun output => output.txHash == txHash && !output.isCollateral).flatMap fun output =>
    (ledger.transactions.filter fun tx => tx.txHash == txHash).map fun tx => (output.address, output.amount, tx.slot)

/-- The rows that are not change. -/
def paidToOthers : List (String × ℕ × Option ℕ) :=
  (outRows ledger txHash).filter fun row => !(originAddresses ledger txHash).contains row.1

/-- `current_addresses` before the first hop. -/
def recipients : List String := ((paidToOthers ledger txHash).map Prod.fst).dedup

/-- `origin_slot`. -/
def originSlot : ℕ := (((outRows ledger txHash).head?.bind fun row => row.2.2)).getD 0

def originAmount : ℕ := ((paidToOthers ledger txHash).map fun row => row.2.1).sum

def cycleWindow : Window := ⟨originSlot ledger txHash, originSlot ledger txHash + config.maxAgeSlots⟩

/-- The search before its first hop. -/
def startSearch : Search where
  current := recipients ledger txHash
  visited := originAddresses ledger txHash ++ recipients ledger txHash
  allCycleAddresses := originAddresses ledger txHash
  hops := [⟨firstSorted (originAddresses ledger txHash), originAmount ledger txHash, originSlot ledger txHash⟩]
  creator := (recipients ledger txHash).map fun address => (address, txHash)
  queried := []

/-- The result built from a closure. -/
def finish (closure : Closure) : Cycle :=
  let origin := originAddresses ledger txHash
  let rows := if reads.closingLegReadable then
      some ((ledger.outputs.filter fun output => output.txHash == closure.row.txHash &&
        origin.contains output.address && !output.isCollateral).map fun output => (output.address, output.amount))
    else none
  let (returned, closingAmount, closingLegUnavailable) := closingLegAmounts config.toCycleConfig rows
    (closure.hop + 1) closure.row.paid (closure.search.hops.map Hop.amountLovelace)
  let hops := closure.search.hops ++ [⟨closure.row.address, closingAmount, closure.row.slot⟩]
  let (intermediaries, priorCycles, historyUnavailable) := cycleHistory config ledger reads txHash
    closure.row.txHash (closure.hop + 1) hops closure.search.queried closure.search.creator
  { cycleLength := closure.hop + 1
    addresses := closure.search.allCycleAddresses ++ closure.search.current ++ [closure.row.address]
    originAmount := originAmount ledger txHash
    finalAmount := returned
    hops := hops
    originAddresses := origin
    intermediaries := intermediaries
    priorCycles := priorCycles
    historyUnavailable := historyUnavailable
    closingLegUnavailable := closingLegUnavailable }

/-- The hops a call searches; none given means the configured ones. -/
def hopBound (maxHops : ℤ) : ℕ := if maxHops ≤ 0 then config.cycleMaxHops else maxHops.toNat

/-- The closure a call finds. -/
def findClosure (maxHops : ℤ) : Option Closure :=
  if originAddresses ledger txHash = [] then none
  else if outRows ledger txHash = [] then none
  else if recipients ledger txHash = [] then none
  else if config.maxOutputFanout < (recipients ledger txHash).length then none
  else
    searchFrom config ledger (cycleWindow config ledger txHash) txHash (originAddresses ledger txHash)
      (hopBound config maxHops) 1 (startSearch ledger txHash)

/-- `detect_cycle`. -/
def detectCycle (maxHops : ℤ) : Option Cycle :=
  (findClosure config ledger txHash maxHops).map (finish config ledger reads txHash)

end Detector

/-! ## The spend graph -/

section Graph
variable (ledger : Ledger) (window : Window) (originTx : String)

/-- The transaction is in the window and not the origin. -/
def InWindow (tx : String) : Prop :=
  tx ≠ originTx ∧ ∃ row ∈ ledger.transactions, row.txHash = tx ∧ ∃ slot ∈ row.slot, window.holds slot = true

/-- The transaction spends a regular input from the address. -/
def SpendsFrom (address tx : String) : Prop :=
  ∃ input ∈ ledger.inputs, input.regular = true ∧ input.address = address ∧ input.txHash = tx

def Spends (address tx : String) : Prop := SpendsFrom ledger address tx ∧ InWindow ledger window originTx tx

def Pays (tx address : String) : Prop :=
  ∃ output ∈ ledger.outputs, output.txHash = tx ∧ output.isCollateral = false ∧ output.address = address

/-- Some transaction of the window spends from the one address and pays the other. -/
def PassesTo (source target : String) : Prop :=
  ∃ tx, Spends ledger window originTx source tx ∧ Pays ledger tx target

variable (addresses : List String)

theorem mem_hopPrefilter (tx : String) :
    tx ∈ hopPrefilter ledger window addresses ↔
      ∃ row ∈ ledger.addressTransactions, row.address ∈ addresses ∧ window.holds row.slot = true ∧ row.txHash = tx := by
  simp only [hopPrefilter, List.mem_map, List.mem_filter, Bool.and_eq_true, List.contains_iff_mem, and_assoc]

theorem mem_hopSpends (tx : String) :
    tx ∈ hopSpends ledger window originTx addresses ↔
      tx ≠ originTx ∧ tx ∈ hopPrefilter ledger window addresses ∧ ∃ a ∈ addresses, SpendsFrom ledger a tx := by
  simp only [hopSpends, List.mem_map, List.mem_filter, Bool.and_eq_true, List.contains_iff_mem, bne_iff_ne, SpendsFrom]
  constructor
  · rintro ⟨input, ⟨member, ⟨⟨known, regular⟩, other⟩, indexed⟩, rfl⟩
    exact ⟨other, indexed, input.address, known, input, member, regular, rfl, rfl⟩
  · rintro ⟨other, indexed, _, known, input, member, regular, rfl, rfl⟩
    exact ⟨input, ⟨member, ⟨⟨known, regular⟩, other⟩, indexed⟩, rfl⟩

theorem mem_candidates (tx : String) (slot : ℕ) :
    (tx, slot) ∈ candidates ledger window originTx addresses ↔
      tx ∈ hopSpends ledger window originTx addresses ∧
        ∃ row ∈ ledger.transactions, row.txHash = tx ∧ slot ∈ row.slot ∧ window.holds slot = true := by
  simp only [candidates, List.mem_dedup, List.mem_filterMap, Option.bind_eq_some_iff, Bool.and_eq_true,
    List.contains_iff_mem, Option.ite_none_right_eq_some, Option.some.injEq, Prod.mk.injEq]
  constructor
  · rintro ⟨row, member, other, known, ⟨inside, spends⟩, rfl, rfl⟩
    exact ⟨spends, row, member, rfl, known, inside⟩
  · rintro ⟨spends, row, member, rfl, known, inside⟩
    exact ⟨row, member, slot, known, ⟨inside, spends⟩, rfl, rfl⟩

/-- Where the index is whole, the candidates are the transactions of the window that spend from one of
the addresses. -/
theorem candidate_iff (named : ∀ a ∈ addresses, a ≠ "") (tx : String) :
    (∃ slot, (tx, slot) ∈ candidates ledger window originTx addresses) ↔
      ∃ a ∈ addresses, Spends ledger window originTx a tx := by
  simp only [mem_candidates, mem_hopSpends]
  constructor
  · rintro ⟨slot, ⟨other, -, a, known, spends⟩, row, member, rfl, atSlot, inside⟩
    exact ⟨a, known, spends, other, row, member, rfl, slot, atSlot, inside⟩
  · rintro ⟨a, known, ⟨input, spent, regular, rfl, rfl⟩, other, row, member, same, slot, atSlot, inside⟩
    have index := ledger.indexed input spent regular (named _ known) row member same slot atSlot
    refine ⟨slot, ⟨other, (mem_hopPrefilter ledger window addresses _).mpr ⟨_, index, known, inside, rfl⟩,
      input.address,
      known, input, spent, regular, rfl, rfl⟩, row, member, same, atSlot, inside⟩

theorem mem_paidRows (candidate : String × ℕ) (address : String) :
    (∃ row ∈ paidRows ledger candidate, row.address = address) ↔ Pays ledger candidate.1 address := by
  simp only [paidRows, paidOutputs, List.mem_map, List.mem_dedup, List.mem_filter, Bool.and_eq_true, Bool.not_eq_true',
    beq_iff_eq, Pays]
  constructor
  · rintro ⟨row, ⟨_, ⟨output, ⟨member, notCollateral, same⟩, rfl⟩, rfl⟩, rfl⟩
    exact ⟨output, member, same, notCollateral, rfl⟩
  · rintro ⟨output, member, same, notCollateral, rfl⟩
    exact ⟨_, ⟨_, ⟨output, ⟨member, notCollateral, same⟩, rfl⟩, rfl⟩, rfl⟩

theorem paidRows_tx {candidate : String × ℕ} {row : HopRow} (member : row ∈ paidRows ledger candidate) :
    row.txHash = candidate.1 := by
  obtain ⟨address, -, rfl⟩ := List.mem_map.mp member
  rfl

/-- The rows of a hop are the payments of the transactions that spend from its frontier. -/
theorem hop_row_iff (named : ∀ a ∈ addresses, a ≠ "") (tx address : String) :
    (∃ row ∈ allHopRows ledger window originTx addresses, row.txHash = tx ∧ row.address = address) ↔
      (∃ a ∈ addresses, Spends ledger window originTx a tx) ∧ Pays ledger tx address := by
  rw [← candidate_iff ledger window originTx addresses named]
  simp only [allHopRows, List.mem_insertionSort, List.mem_flatMap]
  constructor
  · rintro ⟨row, ⟨candidate, known, member⟩, rfl, rfl⟩
    rw [paidRows_tx ledger member]
    exact ⟨⟨candidate.2, known⟩, (mem_paidRows ledger candidate _).mp ⟨row, member, rfl⟩⟩
  · rintro ⟨⟨slot, known⟩, pays⟩
    obtain ⟨row, member, rfl⟩ := (mem_paidRows ledger (tx, slot) address).mpr pays
    exact ⟨row, ⟨(tx, slot), known, member⟩, paidRows_tx ledger member, rfl⟩

theorem pays_named {tx address : String} (pays : Pays ledger tx address) : address ≠ "" := by
  obtain ⟨output, member, -, -, rfl⟩ := pays
  exact ledger.addressed output member

end Graph

/-! ## One hop's rows -/

theorem Creators.get_append (creators : Creators) (address txHash other : String) :
    Creators.get (creators ++ [(address, txHash)]) other =
      (creators.get other).or (if address = other then some txHash else none) := by
  simp only [Creators.get, List.find?_append, Option.map_or, List.find?_cons, List.find?_nil]
  by_cases same : address = other <;> simp [same]

theorem Creators.get_setDefault (creators : Creators) (address txHash other : String) :
    (creators.setDefault address txHash).get other =
      (creators.get other).or (if address = other then some txHash else none) := by
  rw [Creators.setDefault]
  split
  · rename_i present
    by_cases same : address = other
    · rw [← same, if_pos rfl, Option.or_of_isSome present]
    · rw [if_neg same, Option.or_none]
  · exact creators.get_append address txHash other

section Rows
variable (origin visited : List String)

/-- What the loop over the rows makes of what was gathered before. -/
structure ReadsTo (rows : List HopRow) (before after : Gathered) (closing : Option HopRow) : Prop where
  closed : ∀ row ∈ closing, row ∈ rows ∧ row.address ∈ origin
  unclosed : closing = none → ∀ row ∈ rows, row.address ∉ origin
  next : closing = none → ∀ a, a ∈ after.nextAddresses ↔
    a ∈ before.nextAddresses ∨ (a ∉ visited ∧ ∃ row ∈ rows, row.address = a)
  kept : ∀ a tx, before.creator.get a = some tx → after.creator.get a = some tx
  justified : ∀ a tx, after.creator.get a = some tx → before.creator.get a = some tx ∨
    (a ∉ origin ∧ a ∉ visited ∧ ∃ row ∈ rows, row.address = a ∧ row.txHash = tx)
  recorded : (∀ a ∈ before.nextAddresses, (before.creator.get a).isSome = true) →
    ∀ a ∈ after.nextAddresses, (after.creator.get a).isSome = true

theorem reads_to (rows : List HopRow) (before : Gathered) :
    ReadsTo origin visited rows before (readRows origin visited rows before).1
      (readRows origin visited rows before).2 := by
  induction rows generalizing before with
  | nil => exact ⟨by simp [readRows], by simp, by simp [readRows], fun _ _ known => known, fun _ _ known => .inl known,
      fun known => known⟩
  | cons row rows ih =>
    rw [readRows]
    by_cases closes : row.address ∈ origin
    · simp only [closes, ↓reduceIte]
      exact ⟨by simp [closes], by simp, by simp, fun _ _ known => known, fun _ _ known => .inl known, fun known =>
        known⟩
    · simp only [closes, ↓reduceIte]
      by_cases known : row.address ∈ visited
      · simp only [known, not_true_eq_false, ↓reduceIte]
        have rest := ih { before with hopSlot := max before.hopSlot row.slot }
        refine ⟨fun closing found => ?_, fun nothing => ?_, fun nothing a => ?_, rest.kept, fun a tx created => ?_,
          rest.recorded⟩
        · obtain ⟨member, reached⟩ := rest.closed closing found
          exact ⟨List.mem_cons_of_mem _ member, reached⟩
        · exact List.forall_mem_cons.mpr ⟨closes, rest.unclosed nothing⟩
        · rw [rest.next nothing a]
          simp only [List.mem_cons, exists_eq_or_imp]
          refine or_congr_right (and_congr_right fun new => (or_iff_right ?_).symm)
          rintro rfl
          exact new known
        · rcases rest.justified a tx created with old | ⟨other, new, later, member, same⟩
          · exact .inl old
          · exact .inr ⟨other, new, later, List.mem_cons_of_mem _ member, same⟩
      · simp only [known, not_false_eq_true, ↓reduceIte]
        have rest := ih { before with
          hopSlot := max before.hopSlot row.slot
          nextAddresses := before.nextAddresses.insert row.address
          creator := before.creator.setDefault row.address row.txHash
          hopAmount := before.hopAmount + row.paid }
        refine ⟨fun closing found => ?_, fun nothing => ?_, fun nothing a => ?_, fun a tx created => ?_,
          fun a tx created => ?_, fun all => rest.recorded fun a member => ?_⟩
        · obtain ⟨member, reached⟩ := rest.closed closing found
          exact ⟨List.mem_cons_of_mem _ member, reached⟩
        · exact List.forall_mem_cons.mpr ⟨closes, rest.unclosed nothing⟩
        · rw [rest.next nothing a]
          simp only [List.mem_insert_iff, List.mem_cons, exists_eq_or_imp]
          constructor
          · rintro ((rfl | old) | ⟨new, later⟩)
            · exact .inr ⟨known, .inl rfl⟩
            · exact .inl old
            · exact .inr ⟨new, .inr later⟩
          · rintro (old | ⟨new, rfl | later⟩)
            · exact .inl (.inr old)
            · exact .inl (.inl rfl)
            · exact .inr ⟨new, later⟩
        · apply rest.kept
          rw [Creators.get_setDefault, created, Option.some_or]
        · rcases rest.justified a tx created with old | ⟨other, new, later, member, same⟩
          · rw [Creators.get_setDefault, Option.or_eq_some_iff] at old
            rcases old with old | ⟨-, fresh⟩
            · exact .inl old
            · rw [Option.ite_none_right_eq_some] at fresh
              obtain ⟨rfl, same⟩ := fresh
              exact .inr ⟨closes, known, row, List.mem_cons_self, rfl, Option.some.inj same⟩
          · exact .inr ⟨other, new, later, List.mem_cons_of_mem _ member, same⟩
        · rw [Creators.get_setDefault]
          rcases List.mem_insert_iff.mp member with rfl | old
          · rw [if_pos rfl]
            cases before.creator.get row.address <;> rfl
          · obtain ⟨tx, created⟩ := Option.isSome_iff_exists.mp (all a old)
            rw [created]
            rfl

end Rows

/-! ## The search is breadth-first -/

section Search
variable (config : Config) (ledger : Ledger) (txHash : String)

/-- The addresses first reached after so many spends. -/
def reachedAt (k : ℕ) : Set String :=
  Layers.layer (PassesTo ledger (cycleWindow config ledger txHash) txHash)
    {a | a ∈ recipients ledger txHash} {a | a ∈ originAddresses ledger txHash} k

def reachedBy (k : ℕ) : Set String :=
  Layers.seen (PassesTo ledger (cycleWindow config ledger txHash) txHash)
    {a | a ∈ recipients ledger txHash} {a | a ∈ originAddresses ledger txHash} k

/-- Some spend from an address reached after so many spends pays the origin back. -/
def ClosesAt (k : ℕ) : Prop :=
  Layers.Closes (PassesTo ledger (cycleWindow config ledger txHash) txHash)
    {a | a ∈ recipients ledger txHash} {a | a ∈ originAddresses ledger txHash} k

/-- So many spends lead from what the transaction paid to others back to an address it spent from. -/
def Chain (n : ℕ) : Prop :=
  ∃ a ∈ {a | a ∈ recipients ledger txHash},
    Layers.Leads (PassesTo ledger (cycleWindow config ledger txHash) txHash)
      {a | a ∈ originAddresses ledger txHash} n a

/-- The frontiers, the last one first, are the layers. -/
def Frontiers : List (List String) → Prop
  | [] => True
  | frontier :: earlier => (∀ a, a ∈ frontier ↔ a ∈ reachedAt config ledger txHash earlier.length) ∧ Frontiers earlier

/-- Every address reached so far has a creator, and each creator paid the address first: the origin
its recipients, another transaction after a spend from the layer before. -/
structure Recorded (k : ℕ) (creator : Creators) : Prop where
  present : ∀ j ≤ k, ∀ a ∈ reachedAt config ledger txHash j, (creator.get a).isSome = true
  paid : ∀ a tx, creator.get a = some tx →
    (a ∈ recipients ledger txHash ∧ tx = txHash) ∨
      ∃ j, a ∈ reachedAt config ledger txHash (j + 1) ∧ Pays ledger tx a ∧
        ∃ p ∈ reachedAt config ledger txHash j, Spends ledger (cycleWindow config ledger txHash) txHash p tx

/-- What holds of the search after so many hops without a closing row. -/
structure Invariant (k : ℕ) (search : Search) : Prop where
  current : ∀ a, a ∈ search.current ↔ a ∈ reachedAt config ledger txHash k
  visited : ∀ a, a ∈ search.visited ↔ a ∈ reachedBy config ledger txHash k
  queried : Frontiers config ledger txHash search.queried.reverse
  hops : search.queried.length = k
  recorded : Recorded config ledger txHash k search.creator
  unclosed : ∀ j < k, ¬ ClosesAt config ledger txHash j

/-- Neither a frontier nor a read of the search is cut. -/
def Untruncated : ℕ → Search → Prop
  | 0, _ => True
  | left + 1, search => search.current = [] ∨
    (search.current.length ≤ config.cycleMaxFanout ∧
      (allHopRows ledger (cycleWindow config ledger txHash) txHash (frontier config search)).length ≤
        config.bfsHopRowLimit ∧
      ∀ gathered, readRows (originAddresses ledger txHash) search.visited
          (hopRows ledger (cycleWindow config ledger txHash) txHash (frontier config search) config)
          ⟨[], search.creator, 0, 0⟩ = (gathered, none) →
        Untruncated left (advance config search gathered))

instance decidableUntruncated : (left : ℕ) → (search : Search) →
    Decidable (Untruncated config ledger txHash left search)
  | 0, _ => .isTrue trivial
  | left + 1, search =>
    match read : readRows (originAddresses ledger txHash) search.visited
        (hopRows ledger (cycleWindow config ledger txHash) txHash (frontier config search) config)
        ⟨[], search.creator, 0, 0⟩ with
    | (gathered, none) =>
      have := decidableUntruncated left (advance config search gathered)
      decidable_of_iff (search.current = [] ∨ (search.current.length ≤ config.cycleMaxFanout ∧
        (allHopRows ledger (cycleWindow config ledger txHash) txHash (frontier config search)).length ≤
          config.bfsHopRowLimit ∧ Untruncated config ledger txHash left (advance config search gathered)))
        (by simp [Untruncated, read])
    | (gathered, some row) =>
      decidable_of_iff (search.current = [] ∨ (search.current.length ≤ config.cycleMaxFanout ∧
        (allHopRows ledger (cycleWindow config ledger txHash) txHash (frontier config search)).length ≤
          config.bfsHopRowLimit))
        (by simp [Untruncated, read])

/-- What a closure is. -/
structure ClosedAt (k : ℕ) (closure : Closure) : Prop where
  hop : closure.hop = k + 1
  reached : closure.row.address ∈ originAddresses ledger txHash
  pays : Pays ledger closure.row.txHash closure.row.address
  spends : ∃ a ∈ reachedAt config ledger txHash k,
    Spends ledger (cycleWindow config ledger txHash) txHash a closure.row.txHash
  queried : Frontiers config ledger txHash closure.search.queried.reverse
  hops : closure.search.queried.length = k + 1
  recorded : Recorded config ledger txHash k closure.search.creator
  first : ∀ j < k, ¬ ClosesAt config ledger txHash j

theorem mem_recipients (a : String) :
    a ∈ recipients ledger txHash ↔ a ∉ originAddresses ledger txHash ∧ ∃ row ∈ outRows ledger txHash, row.1 = a := by
  simp only [recipients, paidToOthers, List.mem_dedup, List.mem_map, List.mem_filter, Bool.not_eq_true',
    List.contains_eq_mem, decide_eq_false_iff_not]
  constructor
  · rintro ⟨row, ⟨member, other⟩, rfl⟩
    exact ⟨other, row, member, rfl⟩
  · rintro ⟨other, row, member, rfl⟩
    exact ⟨row, ⟨member, other⟩, rfl⟩

theorem recipients_apart : ∀ a ∈ {a | a ∈ recipients ledger txHash}, a ∉ {a | a ∈ originAddresses ledger txHash} :=
  fun a member => ((mem_recipients ledger txHash a).mp member).1

theorem reached_named {k : ℕ} {a : String} (reached : a ∈ reachedAt config ledger txHash k) : a ≠ "" := by
  cases k with
  | zero =>
    obtain ⟨-, row, member, rfl⟩ := (mem_recipients ledger txHash a).mp reached
    obtain ⟨output, out, member⟩ := List.mem_flatMap.mp member
    obtain ⟨tx, -, rfl⟩ := List.mem_map.mp member
    exact ledger.addressed output (List.mem_filter.mp out).1
  | succ k =>
    obtain ⟨⟨p, -, tx, -, pays⟩, -⟩ := reached
    exact pays_named ledger pays

theorem start_get (a : String) :
    (startSearch ledger txHash).creator.get a = if a ∈ recipients ledger txHash then some txHash else none := by
  simp only [startSearch, Creators.get, List.find?_map, Function.comp_def, Option.map_map]
  split
  · rename_i member
    cases found : (recipients ledger txHash).find? fun b => b = a with
    | none =>
      rw [List.find?_eq_none] at found
      exact absurd (found a member) (by simp)
    | some b => rfl
  · rename_i absent
    rw [Option.map_eq_none_iff, List.find?_eq_none]
    intro b member
    simp only [decide_eq_true_eq]
    rintro rfl
    exact absent member

theorem start_invariant : Invariant config ledger txHash 0 (startSearch ledger txHash) := by
  refine ⟨fun a => Iff.rfl, fun a => ?_, trivial, rfl, ⟨fun j low a reached => ?_, fun a tx created => ?_⟩,
    fun j low => ?_⟩
  · simp only [startSearch, List.mem_append]
    exact Iff.rfl
  · obtain rfl := Nat.le_zero.mp low
    rw [start_get, if_pos (show a ∈ recipients ledger txHash from reached)]
    rfl
  · rw [start_get, Option.ite_none_right_eq_some] at created
    exact .inl ⟨created.1, (Option.some.inj created.2).symm⟩
  · cases low

section Hop
variable {config ledger txHash} {k : ℕ} {search : Search} (invariant : Invariant config ledger txHash k search)
include invariant

theorem mem_frontier (narrow : search.current.length ≤ config.cycleMaxFanout) (a : String) :
    a ∈ frontier config search ↔ a ∈ reachedAt config ledger txHash k := by
  have whole : frontier config search = search.current.insertionSort (· ≤ ·) := by
    apply List.take_of_length_le
    rwa [List.length_insertionSort]
  rw [whole, List.mem_insertionSort, invariant.current]

/-- The rows of a hop that is not cut are the payments behind its layer. -/
theorem row_iff (narrow : search.current.length ≤ config.cycleMaxFanout)
    (whole : (allHopRows ledger (cycleWindow config ledger txHash) txHash (frontier config search)).length ≤
      config.bfsHopRowLimit) (tx address : String) :
    (∃ row ∈ hopRows ledger (cycleWindow config ledger txHash) txHash (frontier config search) config,
        row.txHash = tx ∧ row.address = address) ↔
      (∃ a ∈ reachedAt config ledger txHash k, Spends ledger (cycleWindow config ledger txHash) txHash a tx) ∧
        Pays ledger tx address := by
  have named : ∀ a ∈ frontier config search, a ≠ "" := fun a member =>
    reached_named config ledger txHash ((mem_frontier invariant narrow a).mp member)
  rw [hopRows, List.take_of_length_le whole, hop_row_iff ledger _ txHash _ named]
  simp only [mem_frontier invariant narrow]

theorem recorded_after {gathered : Gathered} {closing : Option HopRow}
    (narrow : search.current.length ≤ config.cycleMaxFanout)
    (whole : (allHopRows ledger (cycleWindow config ledger txHash) txHash (frontier config search)).length ≤
      config.bfsHopRowLimit)
    (read : ReadsTo (originAddresses ledger txHash) search.visited
      (hopRows ledger (cycleWindow config ledger txHash) txHash (frontier config search) config)
      ⟨[], search.creator, 0, 0⟩ gathered closing) :
    Recorded config ledger txHash k gathered.creator := by
  refine ⟨fun j low a reached => ?_, fun a tx created => ?_⟩
  · obtain ⟨tx, created⟩ := Option.isSome_iff_exists.mp (invariant.recorded.present j low a reached)
    exact Option.isSome_iff_exists.mpr ⟨tx, read.kept a tx created⟩
  · rcases read.justified a tx created with old | ⟨-, new, row, member, rfl, rfl⟩
    · exact invariant.recorded.paid a tx old
    · obtain ⟨⟨p, reached, spends⟩, pays⟩ := (row_iff invariant narrow whole _ _).mp ⟨row, member, rfl, rfl⟩
      have layer : row.address ∈ reachedAt config ledger txHash (k + 1) :=
        ⟨⟨p, reached, row.txHash, spends, pays⟩, fun seen => new ((invariant.visited _).mpr seen)⟩
      exact .inr ⟨k, layer, pays, p, reached, spends⟩

theorem frontiers_after (narrow : search.current.length ≤ config.cycleMaxFanout) :
    Frontiers config ledger txHash (search.queried ++ [frontier config search]).reverse := by
  rw [List.reverse_append, List.reverse_singleton, List.singleton_append]
  refine ⟨fun a => ?_, invariant.queried⟩
  rw [List.length_reverse, invariant.hops]
  exact mem_frontier invariant narrow a

/-- A hop with a closing row closes the cycle. -/
theorem closes {gathered : Gathered} {row : HopRow} (narrow : search.current.length ≤ config.cycleMaxFanout)
    (whole : (allHopRows ledger (cycleWindow config ledger txHash) txHash (frontier config search)).length ≤
      config.bfsHopRowLimit)
    (read : readRows (originAddresses ledger txHash) search.visited
      (hopRows ledger (cycleWindow config ledger txHash) txHash (frontier config search) config)
      ⟨[], search.creator, 0, 0⟩ = (gathered, some row)) :
    ClosedAt config ledger txHash k ⟨k + 1, row, { search with
      creator := gathered.creator, queried := search.queried ++ [frontier config search] }⟩ := by
  have facts := reads_to (originAddresses ledger txHash) search.visited
    (hopRows ledger (cycleWindow config ledger txHash) txHash (frontier config search) config)
    ⟨[], search.creator, 0, 0⟩
  rw [read] at facts
  obtain ⟨member, reached⟩ := facts.closed row rfl
  obtain ⟨spends, pays⟩ := (row_iff invariant narrow whole _ _).mp ⟨row, member, rfl, rfl⟩
  exact {
    hop := rfl
    reached := reached
    pays := pays
    spends := spends
    queried := frontiers_after invariant narrow
    hops := by rw [List.length_append, invariant.hops, List.length_singleton]
    recorded := recorded_after invariant narrow whole facts
    first := invariant.unclosed }

/-- A hop without a closing row moves on by one layer. -/
theorem advances {gathered : Gathered} (narrow : search.current.length ≤ config.cycleMaxFanout)
    (whole : (allHopRows ledger (cycleWindow config ledger txHash) txHash (frontier config search)).length ≤
      config.bfsHopRowLimit)
    (read : readRows (originAddresses ledger txHash) search.visited
      (hopRows ledger (cycleWindow config ledger txHash) txHash (frontier config search) config)
      ⟨[], search.creator, 0, 0⟩ = (gathered, none)) :
    Invariant config ledger txHash (k + 1) (advance config search gathered) := by
  have facts := reads_to (originAddresses ledger txHash) search.visited
    (hopRows ledger (cycleWindow config ledger txHash) txHash (frontier config search) config)
    ⟨[], search.creator, 0, 0⟩
  rw [read] at facts
  have next (a : String) : a ∈ gathered.nextAddresses ↔ a ∈ reachedAt config ledger txHash (k + 1) := by
    rw [facts.next rfl a]
    simp only [List.not_mem_nil, false_or]
    constructor
    · rintro ⟨new, row, member, rfl⟩
      obtain ⟨⟨p, reached, spends⟩, pays⟩ := (row_iff invariant narrow whole _ _).mp ⟨row, member, rfl, rfl⟩
      exact ⟨⟨p, reached, row.txHash, spends, pays⟩, fun seen => new ((invariant.visited _).mpr seen)⟩
    · rintro ⟨⟨p, reached, tx, spends, pays⟩, new⟩
      obtain ⟨row, member, -, same⟩ := (row_iff invariant narrow whole tx a).mpr ⟨⟨p, reached, spends⟩, pays⟩
      exact ⟨fun known => new ((invariant.visited _).mp known), row, member, same⟩
  have recorded := recorded_after invariant narrow whole facts
  exact {
    current := next
    visited := fun a => by
      rw [advance, List.mem_append, invariant.visited, next]
      exact Layers.mem_seen_succ.symm
    queried := frontiers_after invariant narrow
    hops := by rw [advance, List.length_append, invariant.hops, List.length_singleton]
    recorded := by
      refine ⟨fun j low a reached => ?_, recorded.paid⟩
      rcases Nat.le_succ_iff.mp low with low | rfl
      · exact recorded.present j low a reached
      · exact facts.recorded (by simp) a ((next a).mpr reached)
    unclosed := by
      intro j low
      rcases Nat.lt_succ_iff_lt_or_eq.mp low with low | rfl
      · exact invariant.unclosed j low
      · rintro ⟨a, reached, b, back, tx, spends, pays⟩
        obtain ⟨row, member, -, rfl⟩ := (row_iff invariant narrow whole tx b).mpr ⟨⟨a, reached, spends⟩, pays⟩
        exact facts.unclosed rfl row member back }

end Hop

/-- Behind an empty layer nothing closes. -/
theorem none_behind {k : ℕ} {search : Search} (invariant : Invariant config ledger txHash k search)
    (empty : ∀ a, a ∉ reachedAt config ledger txHash k) (j : ℕ) : ¬ ClosesAt config ledger txHash j := by
  rcases Nat.lt_or_ge j k with early | late
  · exact invariant.unclosed j early
  · exact Layers.not_closes_of_empty empty late

/-- What the rest of the search comes to. -/
theorem search_spec (left : ℕ) {k : ℕ} {search : Search} (invariant : Invariant config ledger txHash k search)
    (whole : Untruncated config ledger txHash left search) :
    match searchFrom config ledger (cycleWindow config ledger txHash) txHash (originAddresses ledger txHash)
      left (k + 1) search with
    | none => ∀ j < k + left, ¬ ClosesAt config ledger txHash j
    | some closure => ∃ j < k + left, ClosedAt config ledger txHash j closure := by
  induction left generalizing k search with
  | zero => exact invariant.unclosed
  | succ left ih =>
    rw [searchFrom]
    by_cases done : search.current = []
    · rw [if_pos done]
      exact fun j _ => none_behind config ledger txHash invariant (fun a reached => by
        rw [← invariant.current, done] at reached
        cases reached) j
    · rw [if_neg done]
      obtain ⟨narrow, fits, onward⟩ := whole.resolve_left done
      by_cases noRows : hopRows ledger (cycleWindow config ledger txHash) txHash (frontier config search) config = []
      · rw [if_pos noRows]
        have read : readRows (originAddresses ledger txHash) search.visited
            (hopRows ledger (cycleWindow config ledger txHash) txHash (frontier config search) config)
            ⟨[], search.creator, 0, 0⟩ = (⟨[], search.creator, 0, 0⟩, none) := by
          rw [noRows]
          rfl
        have moved := advances invariant narrow fits read
        exact fun j _ => none_behind config ledger txHash moved (fun a reached => by
          rw [← moved.current] at reached
          cases reached) j
      · rw [if_neg noRows]
        cases read : readRows (originAddresses ledger txHash) search.visited
            (hopRows ledger (cycleWindow config ledger txHash) txHash (frontier config search) config)
            ⟨[], search.creator, 0, 0⟩ with
        | mk gathered closing =>
          cases closing with
          | some row => exact ⟨k, by omega, closes invariant narrow fits read⟩
          | none =>
            have rest := ih (advances invariant narrow fits read) (onward gathered read)
            simp only [Nat.add_right_comm k 1 left, ← Nat.add_assoc] at rest ⊢
            exact rest

/-! ## The path is the union of the shortest chains over recorded creators -/

section Path
variable (creator : Creators)

/-- Each address is spent by the creator of the next, and the last by one of the transactions. -/
def LinkedTo (txs : List String) : List String → Prop
  | [] => False
  | [a] => ∃ tx ∈ txs, Spends ledger (cycleWindow config ledger txHash) txHash a tx
  | a :: b :: rest =>
    (∃ tx, creator.get b = some tx ∧ Spends ledger (cycleWindow config ledger txHash) txHash a tx) ∧
      LinkedTo txs (b :: rest)

/-- The addresses lie in consecutive layers. -/
def Layered : ℕ → List String → Prop
  | _, [] => True
  | i, a :: rest => a ∈ reachedAt config ledger txHash i ∧ Layered (i + 1) rest

theorem layered_append (first second : List String) (i : ℕ) :
    Layered config ledger txHash i (first ++ second) ↔
      Layered config ledger txHash i first ∧ Layered config ledger txHash (i + first.length) second := by
  induction first generalizing i with
  | nil => simp [Layered]
  | cons a first ih =>
    rw [List.cons_append, Layered, Layered, ih, and_assoc, List.length_cons, Nat.add_right_comm, Nat.add_assoc]

variable {config ledger txHash creator}

/-- The last address of a chain is spent by one transaction of those it is linked to. -/
theorem linked_iff {txs : List String} (chain : List String) :
    LinkedTo config ledger txHash creator txs chain ↔
      ∃ tx ∈ txs, LinkedTo config ledger txHash creator [tx] chain := by
  induction chain with
  | nil => simp [LinkedTo]
  | cons a rest ih =>
    cases rest with
    | nil => simp [LinkedTo]
    | cons b rest =>
      simp only [LinkedTo, ih]
      constructor
      · rintro ⟨spent, tx, member, linked⟩
        exact ⟨tx, member, spent, linked⟩
      · rintro ⟨tx, member, spent, linked⟩
        exact ⟨spent, tx, member, linked⟩

theorem linked_concat {txs : List String} {chain : List String} (nonempty : chain ≠ []) (y : String) :
    LinkedTo config ledger txHash creator txs (chain ++ [y]) ↔
      (∃ tx, creator.get y = some tx ∧ LinkedTo config ledger txHash creator [tx] chain) ∧
        ∃ tx ∈ txs, Spends ledger (cycleWindow config ledger txHash) txHash y tx := by
  induction chain with
  | nil => exact absurd rfl nonempty
  | cons a rest ih =>
    cases rest with
    | nil => simp [LinkedTo]
    | cons b rest =>
      have rest := ih (List.cons_ne_nil b rest)
      simp only [List.cons_append, LinkedTo] at rest ⊢
      rw [rest]
      constructor
      · rintro ⟨spent, ⟨tx, created, linked⟩, last⟩
        exact ⟨⟨tx, created, spent, linked⟩, last⟩
      · rintro ⟨⟨tx, created, spent, linked⟩, last⟩
        exact ⟨spent, ⟨tx, created, linked⟩, last⟩

theorem linked_suffix {txs : List String} (before : List String) {chain : List String} (nonempty : chain ≠ [])
    (linked : LinkedTo config ledger txHash creator txs (before ++ chain)) :
    LinkedTo config ledger txHash creator txs chain := by
  induction before with
  | nil => exact linked
  | cons a before ih =>
    apply ih
    cases rest : before ++ chain with
    | nil => exact absurd (List.append_eq_nil_iff.mp rest).2 nonempty
    | cons b rest' =>
      rw [List.cons_append, rest] at linked
      exact linked.2

/-- The transaction a chain is linked to is a spend of the window. -/
theorem linked_inWindow {tx : String} {chain : List String}
    (linked : LinkedTo config ledger txHash creator [tx] chain) :
    InWindow ledger (cycleWindow config ledger txHash) txHash tx := by
  induction chain with
  | nil => cases linked
  | cons a rest ih =>
    cases rest with
    | nil =>
      obtain ⟨_, member, spends⟩ := linked
      rw [List.mem_singleton.mp member] at spends
      exact spends.2
    | cons b rest => exact ih linked.2

theorem mapM_present (get : String → Option String) (addresses : List String)
    (present : ∀ a ∈ addresses, (get a).isSome = true) :
    ∃ created, addresses.mapM get = some created ∧ ∀ tx, tx ∈ created ↔ ∃ a ∈ addresses, get a = some tx := by
  induction addresses with
  | nil => exact ⟨[], rfl, by simp⟩
  | cons a rest ih =>
    obtain ⟨tx, found⟩ := Option.isSome_iff_exists.mp (present a List.mem_cons_self)
    obtain ⟨created, others, same⟩ := ih fun b member => present b (List.mem_cons_of_mem _ member)
    refine ⟨tx :: created, by simp [List.mapM_cons, found, others], fun other => ?_⟩
    rw [List.mem_cons, same]
    constructor
    · rintro (rfl | ⟨b, member, known⟩)
      · exact ⟨a, List.mem_cons_self, found⟩
      · exact ⟨b, List.mem_cons_of_mem _ member, known⟩
    · rintro ⟨b, member, known⟩
      rcases List.mem_cons.mp member with rfl | later
      · exact .inl (Option.some.inj (known.symm.trans found))
      · exact .inr ⟨b, later, known⟩

theorem mem_spenders (txs : List String) (a : String) :
    a ∈ spenders ledger txs ↔ ∃ tx ∈ txs, SpendsFrom ledger a tx := by
  simp only [spenders, List.mem_dedup, List.mem_map, List.mem_filter, Bool.and_eq_true, List.contains_iff_mem,
    SpendsFrom]
  constructor
  · rintro ⟨input, ⟨member, known, regular⟩, rfl⟩
    exact ⟨input.txHash, known, input, member, regular, rfl, rfl⟩
  · rintro ⟨_, known, input, member, regular, rfl, rfl⟩
    exact ⟨input, ⟨member, known, regular⟩, rfl⟩

/-- What some transactions spent from the last frontier. -/
theorem mem_spent {frontier : List String} {earlier : List (List String)} {txs : List String}
    (queried : Frontiers config ledger txHash (frontier :: earlier))
    (inside : ∀ tx ∈ txs, InWindow ledger (cycleWindow config ledger txHash) txHash tx) (a : String) :
    a ∈ (spenders ledger txs).filter (fun address => frontier.contains address) ↔
      a ∈ reachedAt config ledger txHash earlier.length ∧
        ∃ tx ∈ txs, Spends ledger (cycleWindow config ledger txHash) txHash a tx := by
  rw [List.mem_filter, mem_spenders, List.contains_iff_mem, queried.1 a, and_comm]
  refine and_congr_right fun _ => ⟨?_, ?_⟩
  · rintro ⟨tx, member, spends⟩
    exact ⟨tx, member, spends, inside tx member⟩
  · rintro ⟨tx, member, spends, -⟩
    exact ⟨tx, member, spends⟩

theorem created_inWindow {k : ℕ} (recorded : Recorded config ledger txHash k creator) {a tx : String}
    (known : creator.get a = some tx) (other : tx ≠ txHash) :
    InWindow ledger (cycleWindow config ledger txHash) txHash tx := by
  rcases recorded.paid a tx known with ⟨-, same⟩ | ⟨_, -, -, _, -, spends⟩
  · exact absurd same other
  · exact spends.2

/-- The path read backwards from some transactions is what lies on the chains linked to them. -/
theorem path_spec {k : ℕ} (recorded : Recorded config ledger txHash k creator) {frontiers : List (List String)}
    (queried : Frontiers config ledger txHash frontiers) (low : frontiers.length ≤ k + 1) {txs : List String}
    (inside : ∀ tx ∈ txs, InWindow ledger (cycleWindow config ledger txHash) txHash tx) :
    ∃ path, pathFrom ledger txHash creator frontiers txs = some path ∧ ∀ x, x ∈ path ↔
      ∃ rest, (x :: rest).length ≤ frontiers.length ∧
        Layered config ledger txHash (frontiers.length - (x :: rest).length) (x :: rest) ∧
        LinkedTo config ledger txHash creator txs (x :: rest) := by
  induction frontiers generalizing txs with
  | nil => exact ⟨[], rfl, by simp⟩
  | cons frontier earlier ih =>
    rw [pathFrom]
    by_cases noTxs : txs = []
    · refine ⟨[], if_pos noTxs, fun x => ⟨fun member => (List.not_mem_nil member).elim, ?_⟩⟩
      rintro ⟨rest, -, -, linked⟩
      obtain ⟨tx, member, -⟩ := (linked_iff _).mp linked
      rw [noTxs] at member
      cases member
    · rw [if_neg noTxs]
      set spent := (spenders ledger txs).filter fun address => frontier.contains address
      have mem_spent : ∀ a, a ∈ spent ↔ _ := mem_spent queried inside
      have lower : earlier.length ≤ k := Nat.le_of_succ_le_succ low
      obtain ⟨created, found, mem_created⟩ := mapM_present creator.get spent fun a member =>
        recorded.present _ lower a ((mem_spent a).mp member).1
      have passed : ∀ tx ∈ created.dedup.filter (· ≠ txHash),
          InWindow ledger (cycleWindow config ledger txHash) txHash tx := by
        intro tx member
        rw [List.mem_filter, List.mem_dedup, mem_created] at member
        obtain ⟨⟨a, -, known⟩, other⟩ := member
        exact created_inWindow recorded known (of_decide_eq_true other)
      obtain ⟨onPath, earlierPath, mem_onPath⟩ := ih queried.2 (Nat.le_of_succ_le low) passed
      refine ⟨spent ++ onPath, by simp only [found, Option.bind_some, earlierPath, Option.map_some], fun x => ?_⟩
      rw [List.mem_append, mem_spent, mem_onPath]
      constructor
      · rintro (⟨reached, spends⟩ | ⟨rest, short, layered, linked⟩)
        · exact ⟨[], by simp, ⟨by simpa using reached, trivial⟩, spends⟩
        · obtain ⟨tx, member, linked⟩ := (linked_iff _).mp linked
          rw [List.mem_filter, List.mem_dedup, mem_created] at member
          obtain ⟨⟨a, spends, known⟩, -⟩ := member
          obtain ⟨reached, spends⟩ := (mem_spent a).mp spends
          have longer : (x :: (rest ++ [a])).length = (x :: rest).length + 1 := by simp
          refine ⟨rest ++ [a], by rw [longer]; exact Nat.succ_le_succ short, ?_, ?_⟩
          · rw [longer, List.length_cons, Nat.add_sub_add_right, ← List.cons_append, layered_append]
            refine ⟨layered, ?_, trivial⟩
            rwa [Nat.sub_add_cancel short]
          · rw [← List.cons_append, linked_concat (List.cons_ne_nil _ _)]
            exact ⟨⟨tx, known, linked⟩, spends⟩
      · rintro ⟨rest, short, layered, linked⟩
        rcases List.eq_nil_or_concat rest with rfl | ⟨init, y, rfl⟩
        · exact .inl ⟨by simpa using layered.1, linked⟩
        · have longer : (x :: (init ++ [y])).length = (x :: init).length + 1 := by simp
          rw [List.concat_eq_append] at short layered linked
          rw [longer, List.length_cons] at short
          have fits : (x :: init).length ≤ earlier.length := Nat.le_of_succ_le_succ short
          rw [longer, List.length_cons, Nat.add_sub_add_right, ← List.cons_append, layered_append,
            Nat.sub_add_cancel fits] at layered
          rw [← List.cons_append, linked_concat (List.cons_ne_nil _ _)] at linked
          obtain ⟨⟨tx, known, linked⟩, spends⟩ := linked
          refine .inr ⟨init, fits, layered.1, (linked_iff _).mpr ⟨tx, ?_, linked⟩⟩
          rw [List.mem_filter, List.mem_dedup, mem_created]
          exact ⟨⟨y, (mem_spent y).mpr ⟨layered.2.1, spends⟩, known⟩, decide_eq_true (linked_inWindow linked).1⟩

/-- The creator of an address of a later layer is a spend from the layer before that pays it. -/
theorem created_behind {k : ℕ} (recorded : Recorded config ledger txHash k creator) {i : ℕ} {a tx : String}
    (reached : a ∈ reachedAt config ledger txHash (i + 1)) (known : creator.get a = some tx) :
    Pays ledger tx a ∧
      ∃ p ∈ reachedAt config ledger txHash i, Spends ledger (cycleWindow config ledger txHash) txHash p tx := by
  rcases recorded.paid a tx known with ⟨recipient, -⟩ | ⟨j, layer, pays, before⟩
  · have start : a ∈ reachedAt config ledger txHash 0 := recipient
    exact absurd (Layers.layer_unique start reached) (Nat.succ_ne_zero i).symm
  · obtain rfl : j = i := Nat.succ.inj (Layers.layer_unique layer reached)
    exact ⟨pays, before⟩

/-- A chain reaches back to a recipient of the origin, a layer at each address. -/
theorem linked_from_recipient {k : ℕ} (recorded : Recorded config ledger txHash k creator) {txs : List String} {i : ℕ}
    (low : i ≤ k) {x : String} {rest : List String} (reached : x ∈ reachedAt config ledger txHash i)
    (linked : LinkedTo config ledger txHash creator txs (x :: rest)) :
    ∃ before, before.length = i ∧ LinkedTo config ledger txHash creator txs (before ++ x :: rest) ∧
      ∃ first ∈ (before ++ x :: rest).head?, first ∈ recipients ledger txHash := by
  induction i generalizing x rest with
  | zero => exact ⟨[], rfl, linked, x, rfl, reached⟩
  | succ i ih =>
    obtain ⟨tx, known⟩ := Option.isSome_iff_exists.mp (recorded.present _ low x reached)
    obtain ⟨-, p, earlier, spends⟩ := created_behind recorded reached known
    have longer : LinkedTo config ledger txHash creator txs (p :: x :: rest) := ⟨⟨tx, known, spends⟩, linked⟩
    obtain ⟨before, length, linked, start⟩ := ih (Nat.le_of_succ_le low) earlier longer
    refine ⟨before ++ [p], by rw [List.length_append, length, List.length_singleton], ?_⟩
    rw [List.append_assoc, List.singleton_append]
    exact ⟨linked, start⟩

/-- A link is a step of the spend graph. -/
theorem link_passes {k : ℕ} (recorded : Recorded config ledger txHash k creator) {a b tx : String}
    (known : creator.get b = some tx) (spends : Spends ledger (cycleWindow config ledger txHash) txHash a tx) :
    PassesTo ledger (cycleWindow config ledger txHash) txHash a b ∧ b ∉ originAddresses ledger txHash := by
  rcases recorded.paid b tx known with ⟨-, same⟩ | ⟨j, layer, pays, -⟩
  · exact absurd same spends.2.1
  · exact ⟨⟨tx, spends, pays⟩, Layers.not_goal_of_layer (recipients_apart ledger txHash) layer⟩

theorem linked_passes {k : ℕ} (recorded : Recorded config ledger txHash k creator) {txs chain : List String}
    (linked : LinkedTo config ledger txHash creator txs chain) :
    chain.IsChain (PassesTo ledger (cycleWindow config ledger txHash) txHash) := by
  induction chain with
  | nil => cases linked
  | cons a rest ih =>
    cases rest with
    | nil => exact .singleton a
    | cons b rest =>
      obtain ⟨⟨tx, known, spends⟩, linked⟩ := linked
      exact .cons_cons (link_passes recorded known spends).1 (ih linked)

/-- A chain linked to a transaction that pays the origin leads back to it. -/
theorem leads_of_linked {k : ℕ} (recorded : Recorded config ledger txHash k creator) {closing back : String}
    (pays : Pays ledger closing back) (returned : back ∈ originAddresses ledger txHash) {a : String}
    {rest : List String} (linked : LinkedTo config ledger txHash creator [closing] (a :: rest)) :
    Layers.Leads (PassesTo ledger (cycleWindow config ledger txHash) txHash)
      {a | a ∈ originAddresses ledger txHash} (a :: rest).length a := by
  induction rest generalizing a with
  | nil =>
    obtain ⟨_, member, spends⟩ := linked
    obtain rfl := List.mem_singleton.mp member
    exact .last ⟨_, spends, pays⟩ returned
  | cons b rest ih =>
    obtain ⟨⟨tx, known, spends⟩, linked⟩ := linked
    exact .more (link_passes recorded known spends).1 (ih linked)

/-- A chain as long as the layers are deep keeps to them, one layer an address: a shortcut would close
earlier. -/
theorem layered_of_linked {k : ℕ} (recorded : Recorded config ledger txHash k creator) {closing back : String}
    (pays : Pays ledger closing back) (returned : back ∈ originAddresses ledger txHash)
    (first : ∀ j < k, ¬ ClosesAt config ledger txHash j) {i : ℕ} {a : String} {rest : List String}
    (reached : a ∈ reachedAt config ledger txHash i) (length : i + (a :: rest).length = k + 1)
    (linked : LinkedTo config ledger txHash creator [closing] (a :: rest)) :
    Layered config ledger txHash i (a :: rest) := by
  induction rest generalizing i a with
  | nil => exact ⟨reached, trivial⟩
  | cons b rest ih =>
    obtain ⟨⟨tx, known, spends⟩, linked⟩ := linked
    obtain ⟨passes, outside⟩ := link_passes recorded known spends
    obtain ⟨j, low, next⟩ := Layers.step_from_layer reached passes outside
    obtain ⟨l, bound, closes⟩ := Layers.closes_of_leads next (leads_of_linked recorded pays returned linked)
    have late : ¬ l < k := fun early => first l early closes
    simp only [List.length_cons] at length bound
    obtain rfl : j = i + 1 := by omega
    exact ⟨reached, ih next (by simp only [List.length_cons]; omega) linked⟩

end Path

/-- A chain of recorded payments from a recipient of the origin to the closing transaction. -/
structure RingChain (creator : Creators) (closing : String) (length : ℕ) (chain : List String) : Prop where
  length_eq : chain.length = length
  start : ∃ first ∈ chain.head?, first ∈ recipients ledger txHash
  linked : LinkedTo config ledger txHash creator [closing] chain

theorem ringPath_spec {k : ℕ} {closure : Closure} (closed : ClosedAt config ledger txHash k closure) :
    ∃ path, ringPath ledger txHash closure.row.txHash closure.search.queried closure.search.creator = some path ∧
      ∀ x, x ∈ path ↔ ∃ chain,
        RingChain config ledger txHash closure.search.creator closure.row.txHash (k + 1) chain ∧ x ∈ chain := by
  have depth : closure.search.queried.reverse.length = k + 1 := by rw [List.length_reverse, closed.hops]
  obtain ⟨a, -, spends⟩ := closed.spends
  have inside : ∀ tx ∈ [closure.row.txHash], InWindow ledger (cycleWindow config ledger txHash) txHash tx :=
    List.forall_mem_singleton.mpr spends.2
  obtain ⟨onPath, found, mem_onPath⟩ := path_spec closed.recorded closed.queried depth.le inside
  refine ⟨_, by rw [ringPath, found, Option.map_some], fun x => ?_⟩
  rw [List.mem_insertionSort, List.mem_dedup, mem_onPath, depth]
  constructor
  · rintro ⟨rest, short, layered, linked⟩
    obtain ⟨before, length, linked, start⟩ := linked_from_recipient closed.recorded
      (by rw [List.length_cons]; omega) layered.1 linked
    refine ⟨before ++ x :: rest, ⟨?_, start, linked⟩, List.mem_append_right _ List.mem_cons_self⟩
    rw [List.length_append, length]
    omega
  · rintro ⟨chain, ⟨length, ⟨first, head, recipient⟩, linked⟩, member⟩
    have layered : Layered config ledger txHash 0 chain := by
      obtain ⟨rest, rfl⟩ := List.head?_eq_some_iff.mp head
      exact layered_of_linked closed.recorded closed.pays closed.reached closed.first recipient (by omega) linked
    obtain ⟨before, rest, rfl⟩ := List.append_of_mem member
    rw [layered_append] at layered
    rw [List.length_append] at length
    have level : k + 1 - (x :: rest).length = 0 + before.length := by omega
    exact ⟨rest, by omega, by rw [level]; exact layered.2,
      linked_suffix before (List.cons_ne_nil _ _) linked⟩

/-- Some chain leads to the closing transaction. -/
theorem ringChain_exists {k : ℕ} {closure : Closure} (closed : ClosedAt config ledger txHash k closure) :
    ∃ chain, RingChain config ledger txHash closure.search.creator closure.row.txHash (k + 1) chain := by
  obtain ⟨a, reached, spends⟩ := closed.spends
  have last : LinkedTo config ledger txHash closure.search.creator [closure.row.txHash] [a] :=
    ⟨_, List.mem_singleton_self _, spends⟩
  obtain ⟨before, length, linked, start⟩ := linked_from_recipient closed.recorded le_rfl reached last
  exact ⟨before ++ [a], by rw [List.length_append, length, List.length_singleton], start, linked⟩

/-- The ring behind a closure: its frontiers have creators, recorded payments lead through it, and where the
closure is scored and its history read, the cycle names the addresses on all of these chains. -/
structure Ring (reads : Reads) (closure : Closure) (cycle : Cycle) : Prop where
  length : cycle.cycleLength = closure.hop + 1
  recorded : ∀ frontier ∈ closure.search.queried, ∀ a ∈ frontier, (closure.search.creator.get a).isSome = true
  connected : ∃ chain, RingChain config ledger txHash closure.search.creator closure.row.txHash closure.hop chain
  passes : ∀ chain, RingChain config ledger txHash closure.search.creator closure.row.txHash closure.hop chain →
    chain.IsChain (PassesTo ledger (cycleWindow config ledger txHash) txHash)
  named : config.scorable cycle.cycleLength = true → reads.historyReadable = true → ∀ x,
    x ∈ cycle.intermediaries ↔ ∃ chain,
      RingChain config ledger txHash closure.search.creator closure.row.txHash closure.hop chain ∧ x ∈ chain

theorem frontiers_recorded {k : ℕ} {creator : Creators} (recorded : Recorded config ledger txHash k creator)
    {frontiers : List (List String)} (layers : Frontiers config ledger txHash frontiers)
    (low : frontiers.length ≤ k + 1) : ∀ frontier ∈ frontiers, ∀ a ∈ frontier, (creator.get a).isSome = true := by
  induction frontiers with
  | nil => simp
  | cons frontier earlier ih =>
    refine List.forall_mem_cons.mpr ⟨fun a member => ?_, ih layers.2 (Nat.le_of_succ_le low)⟩
    exact recorded.present _ (Nat.le_of_succ_le_succ low) a ((layers.1 a).mp member)

theorem ring_of_closed (reads : Reads) {k : ℕ} {closure : Closure} (closed : ClosedAt config ledger txHash k closure) :
    Ring config ledger txHash reads closure (finish config ledger reads txHash closure) := by
  obtain ⟨path, found, mem_path⟩ := ringPath_spec config ledger txHash closed
  obtain ⟨chain, ring⟩ := ringChain_exists config ledger txHash closed
  rw [← closed.hop] at mem_path ring
  exact {
    length := rfl
    recorded := fun frontier member => frontiers_recorded config ledger txHash closed.recorded closed.queried
      (by rw [List.length_reverse, closed.hops]) frontier (List.mem_reverse.mpr member)
    connected := ⟨chain, ring⟩
    passes := fun chain ring => linked_passes closed.recorded ring.linked
    named := by
      intro scorable readable x
      rw [← mem_path]
      have onPath : ∀ a ∈ chain, a ∈ path := fun a member => (mem_path a).mpr ⟨chain, ring, member⟩
      obtain ⟨first, head, -⟩ := ring.start
      have nonempty : path ≠ [] := List.ne_nil_of_mem (onPath first (List.mem_of_mem_head? head))
      have whole : (finish config ledger reads txHash closure).intermediaries = path := by
        simp only [finish] at scorable ⊢
        simp only [cycleHistory, scorable, readable, Bool.not_true, Bool.false_eq_true, ↓reduceIte, found]
      rw [whole] }

theorem closes_of_closed {k : ℕ} {closure : Closure} (closed : ClosedAt config ledger txHash k closure) :
    ClosesAt config ledger txHash k := by
  obtain ⟨a, reached, spends⟩ := closed.spends
  exact ⟨a, reached, _, closed.reached, _, spends, closed.pays⟩

theorem no_chain_of_no_origin (none : originAddresses ledger txHash = []) (n : ℕ) : ¬ Chain config ledger txHash n := by
  rintro ⟨a, -, leads⟩
  induction leads with
  | last stepped reached =>
    rw [Set.mem_ofPred_eq, none] at reached
    cases reached
  | more stepped rest ih => exact ih

theorem no_chain_of_no_recipient (none : recipients ledger txHash = []) (n : ℕ) :
    ¬ Chain config ledger txHash n := by
  rintro ⟨a, started, -⟩
  rw [Set.mem_ofPred_eq, none] at started
  cases started

/-- The closure a call finds, where nothing was cut. -/
theorem findClosure_spec {maxHops : ℤ} (few : (recipients ledger txHash).length ≤ config.maxOutputFanout)
    (whole : Untruncated config ledger txHash (hopBound config maxHops) (startSearch ledger txHash)) :
    match findClosure config ledger txHash maxHops with
    | none => ∀ n ≤ hopBound config maxHops, ¬ Chain config ledger txHash n
    | some closure => ∃ k < hopBound config maxHops, ClosedAt config ledger txHash k closure := by
  rw [findClosure]
  by_cases noOrigin : originAddresses ledger txHash = []
  · rw [if_pos noOrigin]
    exact fun n _ => no_chain_of_no_origin config ledger txHash noOrigin n
  rw [if_neg noOrigin]
  by_cases noRows : outRows ledger txHash = []
  · have noRecipient : recipients ledger txHash = [] := by rw [recipients, paidToOthers, noRows]; rfl
    rw [if_pos noRows]
    exact fun n _ => no_chain_of_no_recipient config ledger txHash noRecipient n
  rw [if_neg noRows]
  by_cases noRecipient : recipients ledger txHash = []
  · rw [if_pos noRecipient]
    exact fun n _ => no_chain_of_no_recipient config ledger txHash noRecipient n
  rw [if_neg noRecipient, if_neg (Nat.not_lt.mpr few)]
  have found := search_spec config ledger txHash _ (start_invariant config ledger txHash) whole
  rw [Nat.zero_add] at found
  split <;> rename_i result <;> rw [result] at found
  · rintro n short ⟨a, started, leads⟩
    obtain ⟨k, low, closes⟩ := Layers.leads_iff_closes.mp ⟨n, short, a, started, leads⟩
    exact found k (by rwa [Nat.zero_add]) closes
  · obtain ⟨k, low, closed⟩ := found
    exact ⟨k, by rwa [Nat.zero_add] at low, closed⟩

/-- Where neither the fan-out nor a read was cut, a cycle is found exactly when a chain of spends within the bound leads
from what the transaction paid to others back to an address it spent from; its length counts the origin and
the spends of the shortest chain, and its path is every address on a shortest chain of recorded payments to
the closing transaction. -/
theorem cycle_search (reads : Reads) (maxHops : ℤ)
    (few : (recipients ledger txHash).length ≤ config.maxOutputFanout)
    (whole : Untruncated config ledger txHash (hopBound config maxHops) (startSearch ledger txHash)) :
    ((detectCycle config ledger reads txHash maxHops).isSome = true ↔
      ∃ n ≤ hopBound config maxHops, Chain config ledger txHash n) ∧
    ∀ cycle ∈ detectCycle config ledger reads txHash maxHops,
      Chain config ledger txHash (cycle.cycleLength - 1) ∧
      (∀ n, Chain config ledger txHash n → cycle.cycleLength ≤ n + 1) ∧
      ∃ closure ∈ findClosure config ledger txHash maxHops,
        cycle = finish config ledger reads txHash closure ∧ Ring config ledger txHash reads closure cycle := by
  have spec := findClosure_spec config ledger txHash few whole
  rw [detectCycle, Option.isSome_map]
  cases found : findClosure config ledger txHash maxHops with
  | none =>
    rw [found] at spec
    constructor
    · constructor
      · intro absent
        cases absent
      · rintro ⟨n, short, chain⟩
        exact absurd chain (spec n short)
    · intro cycle absent
      cases absent
  | some closure =>
    rw [found] at spec
    obtain ⟨k, low, closed⟩ := spec
    have chain : Chain config ledger txHash (k + 1) :=
      Layers.leads_of_closes (closes_of_closed config ledger txHash closed)
    refine ⟨⟨fun _ => ⟨k + 1, low, chain⟩, fun _ => rfl⟩, ?_⟩
    rintro cycle ⟨⟩
    refine ⟨?_, ?_, closure, rfl, rfl, ring_of_closed config ledger txHash reads closed⟩
    · rw [show (finish config ledger reads txHash closure).cycleLength = closure.hop + 1 from rfl, closed.hop]
      exact chain
    · rintro n ⟨a, started, leads⟩
      rw [show (finish config ledger reads txHash closure).cycleLength = closure.hop + 1 from rfl, closed.hop]
      exact Nat.succ_le_succ (Layers.first_closes_shortest closed.first started leads)

end Search

/-- The origin `t0` pays two addresses; two transactions pass the payments on, and a fourth brings both back. -/
def forked : Ledger where
  transactions := [⟨"t0", some 10⟩, ⟨"t1", some 11⟩, ⟨"t2", some 11⟩, ⟨"t3", some 12⟩]
  inputs := [⟨"t0", "origin", false, false, false⟩, ⟨"t1", "a", false, false, false⟩, ⟨"t2", "b", false, false, false⟩,
    ⟨"t3", "c", false, false, false⟩, ⟨"t3", "d", false, false, false⟩]
  outputs := [⟨"t0", 0, "a", 5, false⟩, ⟨"t0", 1, "b", 5, false⟩, ⟨"t1", 0, "c", 5, false⟩, ⟨"t2", 0, "d", 5, false⟩,
    ⟨"t3", 0, "origin", 10, false⟩]
  addressTransactions := [⟨"origin", 10, "t0"⟩, ⟨"a", 11, "t1"⟩, ⟨"b", 11, "t2"⟩, ⟨"c", 12, "t3"⟩, ⟨"d", 12, "t3"⟩]
  addressed := by decide
  indexed := by decide

/-- The origin `t0` pays itself, and so does the spend of its output. -/
def selfPaid : Ledger where
  transactions := [⟨"t0", some 10⟩, ⟨"t1", some 11⟩]
  inputs := [⟨"t0", "origin", false, false, false⟩, ⟨"t1", "origin", false, false, false⟩]
  outputs := [⟨"t0", 0, "origin", 5, false⟩, ⟨"t1", 0, "origin", 5, false⟩]
  addressTransactions := [⟨"origin", 10, "t0"⟩, ⟨"origin", 11, "t1"⟩]
  addressed := by decide
  indexed := by decide

/-- What `t0` pays comes back at once. -/
def roundTrip : Ledger where
  transactions := [⟨"t0", some 10⟩, ⟨"t1", some 11⟩]
  inputs := [⟨"t0", "origin", false, false, false⟩, ⟨"t1", "a", false, false, false⟩]
  outputs := [⟨"t0", 0, "a", 5, false⟩, ⟨"t1", 0, "origin", 5, false⟩]
  addressTransactions := [⟨"origin", 10, "t0"⟩, ⟨"a", 11, "t1"⟩]
  addressed := by decide
  indexed := by decide

def cycleDefaults : Config where
  minCycleLength := 3
  maxCycleLength := 6
  closingSubsetMaxOutputs := 24
  cycleMaxHops := 6
  cycleMaxFanout := 50
  maxOutputFanout := 20
  maxAgeSlots := 86400
  bfsHopRowLimit := 500

theorem forked_cycle_found :
    ((detectCycle cycleDefaults forked ⟨true, true, []⟩ "t0" 0).isSome = true ↔
      ∃ n ≤ hopBound cycleDefaults 0, Chain cycleDefaults forked "t0" n) ∧
    ∀ cycle ∈ detectCycle cycleDefaults forked ⟨true, true, []⟩ "t0" 0,
      Chain cycleDefaults forked "t0" (cycle.cycleLength - 1) ∧
      (∀ n, Chain cycleDefaults forked "t0" n → cycle.cycleLength ≤ n + 1) ∧
      ∃ closure ∈ findClosure cycleDefaults forked "t0" 0,
        cycle = finish cycleDefaults forked ⟨true, true, []⟩ "t0" closure ∧
          Ring cycleDefaults forked "t0" ⟨true, true, []⟩ closure cycle :=
  cycle_search cycleDefaults forked "t0" ⟨true, true, []⟩ 0 (by decide) (by decide)

/-- On a chain, whatever nothing steps to comes first. -/
theorem head_of_no_step {α : Type} {step : α → α → Prop} {chain : List α} (steps : chain.IsChain step) {x : α}
    (member : x ∈ chain) (unreached : ∀ y, ¬ step y x) : chain.head? = some x := by
  obtain ⟨before, rest, rfl⟩ := List.append_of_mem member
  rcases List.eq_nil_or_concat before with rfl | ⟨init, y, rfl⟩
  · rfl
  · rw [List.concat_eq_append, List.append_assoc, List.singleton_append, List.isChain_append] at steps
    exact absurd (List.isChain_cons_cons.mp steps.2.1).1 (unreached y)

/-- The path named is one chain of spends from a recipient of the origin back to the origin. -/
def OneChain (config : Config) (ledger : Ledger) (txHash : String) (path : List String) : Prop :=
  ∃ chain : List String, chain.IsChain (PassesTo ledger (cycleWindow config ledger txHash) txHash) ∧
    (∃ first ∈ chain.head?, first ∈ recipients ledger txHash) ∧
    (∃ last ∈ chain.getLast?, ∃ back ∈ originAddresses ledger txHash,
      PassesTo ledger (cycleWindow config ledger txHash) txHash last back) ∧
    ∀ x, x ∈ path ↔ x ∈ chain

/-- The path of a forked ring is of two chains; unread or unscored, it names representatives only; and no
chain starts at the origin's change. -/
theorem two_branches_and_a_self_payment :
    (Untruncated cycleDefaults forked "t0" (hopBound cycleDefaults 0) (startSearch forked "t0") ∧
      ∀ readable : Bool, ∃ cycle ∈ detectCycle cycleDefaults forked ⟨true, readable, []⟩ "t0" 0,
        ¬ OneChain cycleDefaults forked "t0" cycle.intermediaries) ∧
    (Untruncated cycleDefaults roundTrip "t0" (hopBound cycleDefaults 0) (startSearch roundTrip "t0") ∧
      ∃ cycle ∈ detectCycle cycleDefaults roundTrip ⟨true, true, []⟩ "t0" 0,
        ¬ OneChain cycleDefaults roundTrip "t0" cycle.intermediaries) ∧
    Untruncated cycleDefaults selfPaid "t0" (hopBound cycleDefaults 0) (startSearch selfPaid "t0") ∧
      (∃ output ∈ outRows selfPaid "t0", Layers.Leads
        (PassesTo selfPaid (cycleWindow cycleDefaults selfPaid "t0") "t0")
          {a | a ∈ originAddresses selfPaid "t0"} 1 output.1) ∧
      (detectCycle cycleDefaults selfPaid ⟨true, true, []⟩ "t0" 0).isSome = false := by
  refine ⟨⟨by decide, fun readable => ?_⟩, ⟨by decide, ?_⟩, by decide, ⟨("origin", 5, some 10), by decide, ?_⟩,
    by decide⟩
  · cases readable with
    | true =>
      have onlyOrigin : ∀ output ∈ forked.outputs, output.address ∈ ["a", "b"] → output.txHash = "t0" := by decide
      have unreached : ∀ x ∈ ["a", "b"], ∀ y,
          ¬ PassesTo forked (cycleWindow cycleDefaults forked "t0") "t0" y x := by
        rintro x member y ⟨tx, ⟨-, other, -⟩, output, paid, rfl, -, rfl⟩
        exact other (onlyOrigin output paid member)
      have path : (detectCycle cycleDefaults forked ⟨true, true, []⟩ "t0" 0).map Cycle.intermediaries =
          some ["a", "b", "c", "d"] := by decide
      obtain ⟨cycle, found, named⟩ := Option.map_eq_some_iff.mp path
      refine ⟨cycle, found, ?_⟩
      rintro ⟨chain, steps, -, -, same⟩
      have first : chain.head? = some "a" :=
        head_of_no_step steps ((same "a").mp (by simp [named])) (unreached "a" (by simp))
      have second : chain.head? = some "b" :=
        head_of_no_step steps ((same "b").mp (by simp [named])) (unreached "b" (by simp))
      exact absurd (Option.some.inj (first.symm.trans second)) (by decide)
    | false =>
      have spentBy : ∀ input ∈ forked.inputs, input.address = "a" → ∀ output ∈ forked.outputs,
          output.txHash = input.txHash → output.address ∉ originAddresses forked "t0" := by decide
      have path : (detectCycle cycleDefaults forked ⟨true, false, []⟩ "t0" 0).map Cycle.intermediaries =
          some ["a"] := by decide
      obtain ⟨cycle, found, named⟩ := Option.map_eq_some_iff.mp path
      refine ⟨cycle, found, ?_⟩
      rintro ⟨chain, -, -, ⟨last, ends, back, returned, passes⟩, same⟩
      have member := (same last).mpr (List.mem_of_getLast? ends)
      rw [named, List.mem_singleton] at member
      obtain ⟨tx, ⟨⟨input, spent, -, address, rfl⟩, -⟩, output, paid, sameTx, -, rfl⟩ := passes
      exact spentBy input spent (address.trans member) output paid sameTx returned
  · have path : (detectCycle cycleDefaults roundTrip ⟨true, true, []⟩ "t0" 0).map Cycle.intermediaries =
        some [] := by decide
    obtain ⟨cycle, found, named⟩ := Option.map_eq_some_iff.mp path
    refine ⟨cycle, found, ?_⟩
    rintro ⟨chain, -, ⟨first, head, -⟩, -, same⟩
    have member := (same first).mpr (List.mem_of_mem_head? head)
    rw [named] at member
    cases member
  · refine .last ⟨"t1", ⟨⟨⟨"t1", "origin", false, false, false⟩, ?_⟩, ?_⟩, ⟨"t1", 0, "origin", 5, false⟩, ?_⟩
      (b := "origin") ?_
    · decide
    · exact ⟨by decide, ⟨"t1", some 11⟩, by decide, rfl, 11, rfl, by decide⟩
    · decide
    · exact List.mem_dedup.mpr (by decide)

end TransactionMonitoring.Cycles
