import Mathlib.Data.Int.ConditionallyCompleteOrder
import Mathlib.Data.List.Dedup
import Mathlib.Data.List.MinMax
import Mathlib.Data.List.Sort
import Mathlib.Data.Prod.Lex
import Mathlib.Data.String.Basic
import Mathlib.Order.ConditionallyCompleteLattice.Basic

/-! The choice of a sandwich candidate around a victim.

The rows of one pool are grouped by the wallet that paid their first input; a wallet with a leg
before and one after the victim is a candidate, and the most profitable candidate is reported.
What the rows say about a transaction is what its last row says, so only through that does their
order matter.
-/
namespace TransactionMonitoring.Sandwich

/-! ## The detector -/

/-- `SCRIPT_ADDRESS_PREFIXES`. -/
def scriptAddressPrefixes : List String :=
  ["addr1w", "addr1z", "addr1x", "addr12", "addr_test1w", "addr_test1z", "addr_test1x", "addr_test12"]

/-- `is_script_address`. -/
def isScriptAddress (address : String) : Bool :=
  scriptAddressPrefixes.any fun start => start.toList.isPrefixOf (address.toList.map Char.toLower)

/-- `(slot, block_index)`. -/
abbrev Position := ℕ ×ₗ ℕ

/-- A position with the transaction at it, in the order of the sorted legs. -/
abbrev Leg := Position ×ₗ String

def Leg.position (leg : Leg) : Position := (ofLex leg).1

def Leg.txHash (leg : Leg) : String := (ofLex leg).2

def slotOf (position : Position) : ℕ := (ofLex position).1

/-- A row of `_neighbors_in_window`. -/
structure NeighborRow where
  txHash : String
  slot : ℕ
  blockIndex : ℕ
deriving DecidableEq, Repr

/-- A row of `transaction_inputs` on the network. -/
structure InputRow where
  txHash : String
  address : String
  inputIndex : ℕ
  isCollateral : Bool
  isReference : Bool
  isUnspentAttempt : Bool
deriving DecidableEq, Repr

/-- What the detector reads besides the neighbours: the addresses the victim pays into, the inputs
table, the victim's own position, and each wallet's history and net ADA over two legs. -/
structure Reads where
  paidAddresses : List String
  inputs : List InputRow
  txPosition : Option Position
  countAttackerHistory : String → ℕ
  attackerNetAda : String → String → String → ℤ

/-- `_pool_script_addresses`. -/
def poolScriptAddresses (reads : Reads) : List String := reads.paidAddresses.filter isScriptAddress

/-- The rows behind `_first_input_addresses`. -/
def firstInputRows (reads : Reads) (txHashes : List String) : List InputRow :=
  reads.inputs.filter fun row =>
    txHashes.contains row.txHash && !row.isCollateral && !row.isReference && !row.isUnspentAttempt &&
      row.address != "" && row.inputIndex == 0

/-- `_first_input_addresses`: the last row of a transaction decides. -/
def firstInputAddr (firstInputs : List InputRow) (txHash : String) : Option String :=
  ((firstInputs.filter fun row => row.txHash = txHash).getLast?).map InputRow.address

/-- `pos`: the last row of a transaction decides. -/
def pos (rows : List NeighborRow) (txHash : String) : Option Position :=
  ((rows.filter fun row => row.txHash = txHash).getLast?).map fun row => toLex (row.slot, row.blockIndex)

/-- A wallet's entry of `addr_to_txs`. -/
def clusterTxs (firstInputs : List InputRow) (victim addr : String) : List String :=
  (firstInputs.map InputRow.txHash).dedup.filter fun h =>
    h ≠ victim ∧ firstInputAddr firstInputs h = some addr

/-- The keys of `addr_to_txs`, sorted. -/
def clusterAddrs (firstInputs : List InputRow) (victim : String) : List String :=
  (((firstInputs.map InputRow.txHash).filter (· ≠ victim)).filterMap (firstInputAddr firstInputs)).dedup.insertionSort
    (· ≤ ·)

/-- The cluster's legs whose position is known. -/
def clusterPos (txs : List String) (position : String → Option Position) : List Leg :=
  txs.filterMap fun h => (position h).map fun p => toLex (p, h)

/-- `before`. -/
def legsBefore (txs : List String) (position : String → Option Position) (victimPos : Position) : List Leg :=
  ((clusterPos txs position).filter fun leg => leg.position < victimPos).insertionSort (· ≤ ·)

/-- `after`. -/
def legsAfter (txs : List String) (position : String → Option Position) (victimPos : Position) : List Leg :=
  ((clusterPos txs position).filter fun leg => victimPos < leg.position).insertionSort (· ≤ ·)

/-- `_bracketing_legs`. -/
def bracketingLegs (txs : List String) (position : String → Option Position) (victimPos : Position) :
    Option (String × String × ℕ) :=
  match (legsBefore txs position victimPos).getLast?, (legsAfter txs position victimPos).head? with
  | some front, some back =>
    some (front.txHash, back.txHash, ((slotOf back.position : ℤ) - slotOf front.position).natAbs)
  | _, _ => none

/-- The reported candidate; the rates and the impact are constants of this detector. -/
structure Candidate where
  txA : String
  txB : String
  poolId : String
  assetPair : String
  attackerLinked : Bool
  swapRateVictim : ℤ
  swapRateBaseline : ℤ
  priceImpactA : ℤ
  profitB : ℤ
  attackerSandwichCount : ℕ
  slotSpan : ℕ
deriving DecidableEq, Repr

/-- The candidate reported for a wallet and its two legs. -/
def report (reads : Reads) (addr txA txB : String) (slotSpan : ℕ) : Candidate where
  txA := txA
  txB := txB
  poolId := (poolScriptAddresses reads).head?.getD ""
  assetPair := "unknown"
  attackerLinked := true
  swapRateVictim := 0
  swapRateBaseline := 0
  priceImpactA := 0
  profitB := reads.attackerNetAda addr txA txB
  attackerSandwichCount := reads.countAttackerHistory addr
  slotSpan := slotSpan

/-- What the loop makes of one wallet: nothing where it continues. -/
def evaluate (reads : Reads) (firstInputs : List InputRow) (position : String → Option Position)
    (victim : String) (victimPos : Position) (addr : String) : Option Candidate :=
  let txs := clusterTxs firstInputs victim addr
  if txs.length < 2 ∨ addr = (firstInputAddr firstInputs victim).getD "" then none
  else if isScriptAddress addr then none
  else
    (bracketingLegs txs position victimPos).map fun (txA, txB, slotSpan) => report reads addr txA txB slotSpan

/-- The loop's body. -/
def keepBest (evaluated : String → Option Candidate) (best : Option Candidate) (addr : String) :
    Option Candidate :=
  match evaluated addr, best with
  | none, best => best
  | some found, none => some found
  | some found, some best => if best.profitB < found.profitB then some found else some best

/-- `victim_pos`. -/
def victimPosition (reads : Reads) (rows : List NeighborRow) (txHash : String) : Option Position :=
  (pos rows txHash).or reads.txPosition

/-- `detect_sandwich_pattern` on the neighbour rows it read. -/
def detectSandwichPattern (reads : Reads) (rows : List NeighborRow) (txHash : String) (slot : ℕ) :
    Option Candidate :=
  if slot = 0 then none
  else if poolScriptAddresses reads = [] then none
  else if rows.length < 3 then none
  else
    let firstInputs := firstInputRows reads (rows.map NeighborRow.txHash)
    match victimPosition reads rows txHash with
    | none => none
    | some victimPos =>
      (clusterAddrs firstInputs txHash).foldl
        (keepBest (evaluate reads firstInputs (pos rows) txHash victimPos)) none

/-! ## Sorted lists and first maxima -/

section Sorting
variable {α : Type} [LinearOrder α]

theorem head_iff {l : List α} (sorted : l.Pairwise (· ≤ ·)) (m : α) :
    l.head? = some m ↔ m ∈ l ∧ ∀ x ∈ l, m ≤ x := by
  cases l with
  | nil => simp
  | cons first rest =>
    rw [List.pairwise_cons] at sorted
    rw [List.head?_cons, Option.some.injEq]
    constructor
    · rintro rfl
      refine ⟨List.mem_cons_self, fun x member => ?_⟩
      rcases List.mem_cons.mp member with rfl | member
      · exact le_refl _
      · exact sorted.1 x member
    · rintro ⟨member, least⟩
      rcases List.mem_cons.mp member with rfl | member
      · rfl
      · exact le_antisymm (sorted.1 m member) (least first List.mem_cons_self)

theorem getLast_iff {l : List α} (sorted : l.Pairwise (· ≤ ·)) (m : α) :
    l.getLast? = some m ↔ m ∈ l ∧ ∀ x ∈ l, x ≤ m := by
  induction l using List.reverseRecOn with
  | nil => simp
  | append_singleton others last _ =>
    rw [List.pairwise_append] at sorted
    rw [List.getLast?_concat, Option.some.injEq]
    constructor
    · rintro rfl
      refine ⟨by simp, fun x member => ?_⟩
      rcases List.mem_append.mp member with member | member
      · exact sorted.2.2 x member last (by simp)
      · rw [List.mem_singleton.mp member]
    · rintro ⟨member, greatest⟩
      rcases List.mem_append.mp member with member | member
      · exact le_antisymm (greatest last (by simp)) (sorted.2.2 m member last (by simp))
      · exact (List.mem_singleton.mp member).symm

theorem head_sorted_iff (l : List α) (m : α) :
    (l.insertionSort (· ≤ ·)).head? = some m ↔ m ∈ l ∧ ∀ x ∈ l, m ≤ x := by
  rw [head_iff (List.pairwise_insertionSort (· ≤ ·) l)]
  simp only [List.mem_insertionSort]

theorem getLast_sorted_iff (l : List α) (m : α) :
    (l.insertionSort (· ≤ ·)).getLast? = some m ↔ m ∈ l ∧ ∀ x ∈ l, x ≤ m := by
  rw [getLast_iff (List.pairwise_insertionSort (· ≤ ·) l)]
  simp only [List.mem_insertionSort]

theorem head_sorted_none (l : List α) : (l.insertionSort (· ≤ ·)).head? = none ↔ l = [] := by
  rw [List.head?_eq_none_iff, ← List.length_eq_zero_iff, List.length_insertionSort, List.length_eq_zero_iff]

theorem getLast_sorted_none (l : List α) : (l.insertionSort (· ≤ ·)).getLast? = none ↔ l = [] := by
  rw [List.getLast?_eq_none_iff, ← List.length_eq_zero_iff, List.length_insertionSort, List.length_eq_zero_iff]

end Sorting

theorem rel_of_index_le {α : Type} [DecidableEq α] {R : α → α → Prop} {l : List α} (ordered : l.Pairwise R)
    {a b : α} (first : a ∈ l) (second : b ∈ l) (earlier : l.idxOf a ≤ l.idxOf b) : a = b ∨ R a b := by
  rcases Nat.eq_or_lt_of_le earlier with same | earlier
  · exact .inl ((List.idxOf_inj first).mp same)
  · have inside := List.idxOf_lt_length_of_mem second
    have related := List.pairwise_iff_getElem.mp ordered _ _ (earlier.trans inside) inside earlier
    rw [List.getElem_idxOf, List.getElem_idxOf] at related
    exact .inr related

section Loop
variable (evaluated : String → Option Candidate)

/-- The wallets that are candidates, in the order of the loop. -/
def candidates (addrs : List String) : List (String × Candidate) :=
  addrs.filterMap fun addr => (evaluated addr).map fun found => (addr, found)

theorem mem_candidates {addrs : List String} {addr : String} {found : Candidate} :
    (addr, found) ∈ candidates evaluated addrs ↔ addr ∈ addrs ∧ evaluated addr = some found := by
  simp only [candidates, List.mem_filterMap, Option.map_eq_some_iff, Prod.mk.injEq]
  constructor
  · rintro ⟨other, member, value, evaluates, rfl, rfl⟩
    exact ⟨member, evaluates⟩
  · rintro ⟨member, evaluates⟩
    exact ⟨addr, member, found, evaluates, rfl, rfl⟩

/-- The loop keeps the first candidate of the highest profit. -/
theorem loop_argmax (addrs : List String) :
    addrs.foldl (keepBest evaluated) none =
      ((candidates evaluated addrs).argmax fun candidate => candidate.2.profitB).map Prod.snd := by
  suffices general : ∀ best : Option (String × Candidate), addrs.foldl (keepBest evaluated) (best.map Prod.snd) =
      ((candidates evaluated addrs).foldl
        (List.argAux fun one other => other.2.profitB < one.2.profitB) best).map Prod.snd from general none
  induction addrs with
  | nil => exact fun _ => rfl
  | cons addr addrs ih =>
    intro best
    rw [List.foldl_cons]
    cases found : evaluated addr with
    | none =>
      have passed : keepBest evaluated (best.map Prod.snd) addr = best.map Prod.snd := by simp [keepBest, found]
      rw [passed, ih best, candidates, candidates, List.filterMap_cons, found]
      rfl
    | some candidate =>
      rw [candidates, List.filterMap_cons, found, Option.map_some, List.foldl_cons, ← candidates, ← ih]
      congr 1
      cases best with
      | none => simp [keepBest, found, List.argAux]
      | some best =>
        simp only [keepBest, found, Option.map_some, List.argAux]
        split <;> rfl

theorem loop_none (addrs : List String) :
    addrs.foldl (keepBest evaluated) none = none ↔ ∀ addr ∈ addrs, evaluated addr = none := by
  rw [loop_argmax, Option.map_eq_none_iff, List.argmax_eq_none, candidates, List.filterMap_eq_nil_iff]
  simp only [Option.map_eq_none_iff]

theorem loop_some {addrs : List String} (ordered : addrs.Pairwise (· < ·)) {best : Candidate}
    (kept : addrs.foldl (keepBest evaluated) none = some best) :
    ∃ addr ∈ addrs, evaluated addr = some best ∧ ∀ other ∈ addrs, ∀ found, evaluated other = some found →
      found.profitB ≤ best.profitB ∧ (found.profitB = best.profitB → addr ≤ other) := by
  rw [loop_argmax] at kept
  obtain ⟨⟨addr, best⟩, first, rfl⟩ := Option.map_eq_some_iff.mp kept
  have chosen := List.argmax_mem first
  have member := (mem_candidates evaluated).mp chosen
  refine ⟨addr, member.1, member.2, fun other present found evaluates => ?_⟩
  have candidate := (mem_candidates evaluated).mpr ⟨present, evaluates⟩
  have highest : found.profitB ≤ best.profitB :=
    List.le_of_mem_argmax (f := fun entry : String × Candidate => entry.2.profitB) candidate first
  refine ⟨highest, fun tied => ?_⟩
  have earlier := List.index_of_argmax first candidate (le_of_eq tied.symm)
  have increasing : (candidates evaluated addrs).Pairwise fun one other => one.1 < other.1 := by
    refine List.Pairwise.filterMap _ (fun one two less first found second later => ?_) ordered
    obtain ⟨_, -, rfl⟩ := Option.map_eq_some_iff.mp found
    obtain ⟨_, -, rfl⟩ := Option.map_eq_some_iff.mp later
    exact less
  rcases rel_of_index_le increasing chosen candidate earlier with same | less
  · rw [(Prod.mk.inj same).1]
  · exact le_of_lt less

end Loop

/-! ## Legs around the victim -/

/-- The two legs are the closest ones on either side of a position. -/
structure Closest (isLeg : Leg → Prop) (victimPos : Position) (front back : Leg) : Prop where
  frontLeg : isLeg front
  backLeg : isLeg back
  before : front.position < victimPos
  after : victimPos < back.position
  nearBefore : ∀ leg, isLeg leg → leg.position < victimPos → leg ≤ front
  nearAfter : ∀ leg, isLeg leg → victimPos < leg.position → back ≤ leg

/-- There is a leg on either side. -/
def Straddles (isLeg : Leg → Prop) (victimPos : Position) : Prop :=
  (∃ leg, isLeg leg ∧ leg.position < victimPos) ∧ ∃ leg, isLeg leg ∧ victimPos < leg.position

section Legs
variable (firstInputs : List InputRow) (position : String → Option Position) (victim : String)

/-- A transaction other than the victim whose first input the wallet paid, at its position. -/
def IsLeg (addr : String) (leg : Leg) : Prop :=
  leg.txHash ≠ victim ∧ firstInputAddr firstInputs leg.txHash = some addr ∧
    position leg.txHash = some leg.position

theorem mem_of_firstInputAddr {h addr : String} (known : firstInputAddr firstInputs h = some addr) :
    h ∈ firstInputs.map InputRow.txHash := by
  obtain ⟨row, last, rfl⟩ := Option.map_eq_some_iff.mp known
  have member := List.mem_of_getLast? last
  rw [List.mem_filter, decide_eq_true_eq] at member
  exact List.mem_map.mpr ⟨row, member.1, member.2⟩

theorem mem_clusterTxs {addr h : String} :
    h ∈ clusterTxs firstInputs victim addr ↔ h ≠ victim ∧ firstInputAddr firstInputs h = some addr := by
  rw [clusterTxs, List.mem_filter, List.mem_dedup, decide_eq_true_eq]
  exact ⟨fun both => both.2, fun both => ⟨mem_of_firstInputAddr firstInputs both.2, both⟩⟩

theorem mem_clusterPos {addr : String} (leg : Leg) :
    leg ∈ clusterPos (clusterTxs firstInputs victim addr) position ↔
      IsLeg firstInputs position victim addr leg := by
  simp only [clusterPos, List.mem_filterMap, Option.map_eq_some_iff, mem_clusterTxs]
  constructor
  · rintro ⟨h, ⟨other, pays⟩, p, known, rfl⟩
    exact ⟨other, pays, known⟩
  · rintro ⟨other, pays, known⟩
    exact ⟨leg.txHash, ⟨other, pays⟩, leg.position, known, rfl⟩

theorem last_before_iff {addr : String} {victimPos : Position} (front : Leg) :
    (legsBefore (clusterTxs firstInputs victim addr) position victimPos).getLast? = some front ↔
      (IsLeg firstInputs position victim addr front ∧ front.position < victimPos) ∧
        ∀ leg, IsLeg firstInputs position victim addr leg ∧ leg.position < victimPos → leg ≤ front := by
  rw [legsBefore, getLast_sorted_iff]
  simp only [List.mem_filter, decide_eq_true_eq, mem_clusterPos]

theorem first_after_iff {addr : String} {victimPos : Position} (back : Leg) :
    (legsAfter (clusterTxs firstInputs victim addr) position victimPos).head? = some back ↔
      (IsLeg firstInputs position victim addr back ∧ victimPos < back.position) ∧
        ∀ leg, IsLeg firstInputs position victim addr leg ∧ victimPos < leg.position → back ≤ leg := by
  rw [legsAfter, head_sorted_iff]
  simp only [List.mem_filter, decide_eq_true_eq, mem_clusterPos]

theorem last_before_none {addr : String} {victimPos : Position} :
    (legsBefore (clusterTxs firstInputs victim addr) position victimPos).getLast? = none ↔
      ¬ ∃ leg, IsLeg firstInputs position victim addr leg ∧ leg.position < victimPos := by
  rw [legsBefore, getLast_sorted_none, List.filter_eq_nil_iff, not_exists]
  simp only [mem_clusterPos, decide_eq_true_eq, not_and]

theorem first_after_none {addr : String} {victimPos : Position} :
    (legsAfter (clusterTxs firstInputs victim addr) position victimPos).head? = none ↔
      ¬ ∃ leg, IsLeg firstInputs position victim addr leg ∧ victimPos < leg.position := by
  rw [legsAfter, head_sorted_none, List.filter_eq_nil_iff, not_exists]
  simp only [mem_clusterPos, decide_eq_true_eq, not_and]

theorem bracketingLegs_some {addr : String} {victimPos : Position} {txA txB : String} {slotSpan : ℕ} :
    bracketingLegs (clusterTxs firstInputs victim addr) position victimPos = some (txA, txB, slotSpan) ↔
      ∃ front back, Closest (IsLeg firstInputs position victim addr) victimPos front back ∧ txA = front.txHash ∧
        txB = back.txHash ∧ slotSpan = ((slotOf back.position : ℤ) - slotOf front.position).natAbs := by
  rw [bracketingLegs]
  constructor
  · intro found
    split at found
    · rename_i front back last first
      cases found
      obtain ⟨⟨isFront, before⟩, nearBefore⟩ := (last_before_iff firstInputs position victim front).mp last
      obtain ⟨⟨isBack, after⟩, nearAfter⟩ := (first_after_iff firstInputs position victim back).mp first
      exact ⟨front, back, ⟨isFront, isBack, before, after, fun leg known less => nearBefore leg ⟨known, less⟩,
        fun leg known less => nearAfter leg ⟨known, less⟩⟩, rfl, rfl, rfl⟩
    · cases found
  · rintro ⟨front, back, closest, rfl, rfl, rfl⟩
    rw [(last_before_iff firstInputs position victim front).mpr ⟨⟨closest.frontLeg, closest.before⟩,
        fun leg known => closest.nearBefore leg known.1 known.2⟩,
      (first_after_iff firstInputs position victim back).mpr ⟨⟨closest.backLeg, closest.after⟩,
        fun leg known => closest.nearAfter leg known.1 known.2⟩]

theorem bracketingLegs_none {addr : String} {victimPos : Position} :
    bracketingLegs (clusterTxs firstInputs victim addr) position victimPos = none ↔
      ¬ Straddles (IsLeg firstInputs position victim addr) victimPos := by
  rw [Straddles, not_and_or, ← last_before_none, ← first_after_none, bracketingLegs]
  cases (legsBefore (clusterTxs firstInputs victim addr) position victimPos).getLast? with
  | none => simp
  | some front =>
    cases (legsAfter (clusterTxs firstInputs victim addr) position victimPos).head? with
    | none => simp
    | some back => simp

theorem two_txs {addr : String} {victimPos : Position} {front back : Leg}
    (closest : Closest (IsLeg firstInputs position victim addr) victimPos front back) :
    2 ≤ (clusterTxs firstInputs victim addr).length := by
  have inFront := (mem_clusterTxs firstInputs victim).mpr ⟨closest.frontLeg.1, closest.frontLeg.2.1⟩
  have inBack := (mem_clusterTxs firstInputs victim).mpr ⟨closest.backLeg.1, closest.backLeg.2.1⟩
  by_contra few
  have apart : front.txHash ≠ back.txHash := by
    intro same
    have known := closest.frontLeg.2.2
    rw [same, closest.backLeg.2.2] at known
    have straddled := closest.before.trans closest.after
    rw [Option.some.inj known] at straddled
    exact lt_irrefl _ straddled
  match txs : clusterTxs firstInputs victim addr with
  | [] => rw [txs] at inFront; cases inFront
  | [h] =>
    rw [txs, List.mem_singleton] at inFront inBack
    exact apart (inFront.trans inBack.symm)
  | _ :: _ :: _ => rw [txs] at few; simp at few

/-- A wallet that is neither the victim's nor a script. -/
def Eligible (addr : String) : Prop :=
  addr ≠ (firstInputAddr firstInputs victim).getD "" ∧ isScriptAddress addr = false

theorem evaluate_some (reads : Reads) {addr : String} {victimPos : Position} {found : Candidate} :
    evaluate reads firstInputs position victim victimPos addr = some found ↔
      Eligible firstInputs victim addr ∧
        ∃ front back, Closest (IsLeg firstInputs position victim addr) victimPos front back ∧
          found = report reads addr front.txHash back.txHash
            ((slotOf back.position : ℤ) - slotOf front.position).natAbs := by
  simp only [evaluate]
  constructor
  · intro evaluated
    split at evaluated
    · cases evaluated
    · rename_i excluded
      split at evaluated
      · cases evaluated
      · rename_i notScript
        obtain ⟨⟨txA, txB, slotSpan⟩, legs, rfl⟩ := Option.map_eq_some_iff.mp evaluated
        obtain ⟨front, back, closest, rfl, rfl, rfl⟩ := (bracketingLegs_some firstInputs position victim).mp legs
        exact ⟨⟨fun own => excluded (.inr own), Bool.eq_false_iff.mpr notScript⟩, front, back, closest, rfl⟩
  · rintro ⟨⟨other, notScript⟩, front, back, closest, rfl⟩
    have enough : ¬ ((clusterTxs firstInputs victim addr).length < 2 ∨
        addr = (firstInputAddr firstInputs victim).getD "") := by
      rintro (few | own)
      · exact absurd (two_txs firstInputs position victim closest) (Nat.not_le.mpr few)
      · exact other own
    rw [if_neg enough, if_neg (Bool.eq_false_iff.mp notScript),
      (bracketingLegs_some firstInputs position victim).mpr ⟨front, back, closest, rfl, rfl, rfl⟩]
    rfl

theorem straddles_iff {addr : String} {victimPos : Position} :
    Straddles (IsLeg firstInputs position victim addr) victimPos ↔
      ∃ front back, Closest (IsLeg firstInputs position victim addr) victimPos front back := by
  constructor
  · intro straddles
    cases legs : bracketingLegs (clusterTxs firstInputs victim addr) position victimPos with
    | none => exact absurd straddles ((bracketingLegs_none firstInputs position victim).mp legs)
    | some found =>
      obtain ⟨front, back, closest, -⟩ := (bracketingLegs_some firstInputs position victim).mp legs
      exact ⟨front, back, closest⟩
  · rintro ⟨front, back, closest⟩
    exact ⟨⟨front, closest.frontLeg, closest.before⟩, back, closest.backLeg, closest.after⟩

theorem evaluate_none (reads : Reads) {addr : String} {victimPos : Position} :
    evaluate reads firstInputs position victim victimPos addr = none ↔
      ¬ (Eligible firstInputs victim addr ∧ Straddles (IsLeg firstInputs position victim addr) victimPos) := by
  rw [straddles_iff, Option.eq_none_iff_forall_ne_some]
  constructor
  · rintro nothing ⟨eligible, front, back, closest⟩
    exact nothing _ ((evaluate_some firstInputs position victim reads).mpr ⟨eligible, front, back, closest, rfl⟩)
  · intro nothing found evaluated
    obtain ⟨eligible, front, back, closest, -⟩ := (evaluate_some firstInputs position victim reads).mp evaluated
    exact nothing ⟨eligible, front, back, closest⟩

theorem mem_clusterAddrs {addr : String} :
    addr ∈ clusterAddrs firstInputs victim ↔ ∃ h, h ≠ victim ∧ firstInputAddr firstInputs h = some addr := by
  simp only [clusterAddrs, List.mem_insertionSort, List.mem_dedup, List.mem_filterMap, List.mem_filter,
    ne_eq, decide_not, Bool.not_eq_true', decide_eq_false_iff_not]
  constructor
  · rintro ⟨h, ⟨-, other⟩, pays⟩
    exact ⟨h, other, pays⟩
  · rintro ⟨h, other, pays⟩
    exact ⟨h, ⟨mem_of_firstInputAddr firstInputs pays, other⟩, pays⟩

theorem clusterAddrs_increasing : (clusterAddrs firstInputs victim).Pairwise (· < ·) := by
  have sorted := List.pairwise_insertionSort (· ≤ ·)
    (((firstInputs.map InputRow.txHash).filter (· ≠ victim)).filterMap (firstInputAddr firstInputs)).dedup
  have distinct := ((List.perm_insertionSort (· ≤ ·)
    (((firstInputs.map InputRow.txHash).filter (· ≠ victim)).filterMap
      (firstInputAddr firstInputs)).dedup).nodup_iff).mpr (List.nodup_dedup _)
  exact (sorted.and distinct).imp fun both => lt_of_le_of_ne both.1 both.2

end Legs

/-! ## The chosen candidate -/

section Detection
variable (reads : Reads) (rows : List NeighborRow) (txHash : String) (slot : ℕ)

/-- The first inputs of the rows' transactions. -/
def rowInputs : List InputRow := firstInputRows reads (rows.map NeighborRow.txHash)

/-- A leg of the wallet among the rows. -/
def LegOf (addr : String) : Leg → Prop := IsLeg (rowInputs reads rows) (pos rows) txHash addr

/-- The best candidate among the wallets around the position. -/
def IsBest (victimPos : Position) (found : Candidate) : Prop :=
  ∃ addr front back, Eligible (rowInputs reads rows) txHash addr ∧
    Closest (LegOf reads rows txHash addr) victimPos front back ∧
    found = report reads addr front.txHash back.txHash
      ((slotOf back.position : ℤ) - slotOf front.position).natAbs ∧
    ∀ other otherFront otherBack, Eligible (rowInputs reads rows) txHash other →
      Closest (LegOf reads rows txHash other) victimPos otherFront otherBack →
        reads.attackerNetAda other otherFront.txHash otherBack.txHash ≤ found.profitB ∧
        (reads.attackerNetAda other otherFront.txHash otherBack.txHash = found.profitB → addr ≤ other)

/-- What stops the detector before it looks at any wallet. -/
def Unready : Prop := slot = 0 ∨ poolScriptAddresses reads = [] ∨ rows.length < 3

theorem detect_ready (ready : ¬ Unready reads rows slot) :
    detectSandwichPattern reads rows txHash slot =
      (victimPosition reads rows txHash).bind fun victimPos =>
        (clusterAddrs (rowInputs reads rows) txHash).foldl
          (keepBest (evaluate reads (rowInputs reads rows) (pos rows) txHash victimPos)) none := by
  simp only [Unready, not_or] at ready
  rw [detectSandwichPattern, if_neg ready.1, if_neg ready.2.1, if_neg ready.2.2]
  cases victimPosition reads rows txHash <;> rfl

theorem detect_unready (unready : Unready reads rows slot) : detectSandwichPattern reads rows txHash slot = none := by
  rw [detectSandwichPattern]
  rcases unready with zero | noPool | few
  · rw [if_pos zero]
  · rw [if_pos noPool, ite_self]
  · rw [if_pos few, ite_self, ite_self]

theorem detect_none :
    detectSandwichPattern reads rows txHash slot = none ↔
      Unready reads rows slot ∨ ∀ victimPos, victimPosition reads rows txHash = some victimPos →
        ∀ addr, Eligible (rowInputs reads rows) txHash addr →
          ¬ Straddles (LegOf reads rows txHash addr) victimPos := by
  by_cases ready : Unready reads rows slot
  · exact iff_of_true (detect_unready reads rows txHash slot ready) (.inl ready)
  · rw [detect_ready reads rows txHash slot ready, or_iff_right ready, Option.bind_eq_none_iff]
    refine forall₂_congr fun victimPos _ => ?_
    simp only [loop_none, evaluate_none, not_and]
    refine ⟨fun nothing addr eligible straddles => ?_, fun nothing addr _ => nothing addr⟩
    obtain ⟨leg, isLeg, -⟩ := straddles.1
    exact nothing addr ((mem_clusterAddrs _ _).mpr ⟨leg.txHash, isLeg.1, isLeg.2.1⟩) eligible straddles

theorem detect_some {found : Candidate} (detected : detectSandwichPattern reads rows txHash slot = some found) :
    ∃ victimPos, victimPosition reads rows txHash = some victimPos ∧ IsBest reads rows txHash victimPos found := by
  by_cases ready : Unready reads rows slot
  · rw [detect_unready reads rows txHash slot ready] at detected
    cases detected
  · rw [detect_ready reads rows txHash slot ready] at detected
    obtain ⟨victimPos, known, kept⟩ := Option.bind_eq_some_iff.mp detected
    obtain ⟨addr, -, evaluated, best⟩ := loop_some _ (clusterAddrs_increasing _ _) kept
    obtain ⟨eligible, front, back, closest, rfl⟩ := (evaluate_some _ _ _ reads).mp evaluated
    refine ⟨victimPos, known, addr, front, back, eligible, closest, rfl, ?_⟩
    intro other otherFront otherBack otherEligible otherClosest
    have present := (mem_clusterAddrs (rowInputs reads rows) txHash).mpr
      ⟨otherFront.txHash, otherClosest.frontLeg.1, otherClosest.frontLeg.2.1⟩
    exact best other present _ ((evaluate_some _ _ _ reads).mpr
      ⟨otherEligible, otherFront, otherBack, otherClosest, rfl⟩)

/-- Rows in another order give the same candidate where each transaction keeps its last position. -/
theorem detect_reordered {other : List NeighborRow} (same : other.Perm rows) (kept : pos other = pos rows) :
    detectSandwichPattern reads other txHash slot = detectSandwichPattern reads rows txHash slot := by
  have hashes (h : String) : (other.map NeighborRow.txHash).contains h = (rows.map NeighborRow.txHash).contains h := by
    rw [Bool.eq_iff_iff, List.contains_iff_mem, List.contains_iff_mem, (same.map _).mem_iff]
  have inputs : firstInputRows reads (other.map NeighborRow.txHash) =
      firstInputRows reads (rows.map NeighborRow.txHash) := by
    simp only [firstInputRows, hashes]
  simp only [detectSandwichPattern, victimPosition, same.length_eq, kept, inputs]

theorem pos_of_agreeing {other : List NeighborRow} (same : other.Perm rows)
    (agree : ∀ one ∈ rows, ∀ two ∈ rows, one.txHash = two.txHash →
      one.slot = two.slot ∧ one.blockIndex = two.blockIndex) :
    pos other = pos rows := by
  funext h
  have filtered := same.filter fun row => row.txHash = h
  rw [pos, pos]
  cases last : (rows.filter fun row => row.txHash = h).getLast? with
  | none =>
    rw [List.getLast?_eq_none_iff] at last
    rw [last] at filtered
    rw [filtered.eq_nil]
    rfl
  | some row =>
    cases otherLast : (other.filter fun row => row.txHash = h).getLast? with
    | none =>
      rw [List.getLast?_eq_none_iff] at otherLast
      rw [otherLast] at filtered
      rw [filtered.symm.eq_nil] at last
      cases last
    | some otherRow =>
      have first := List.mem_filter.mp (List.mem_of_getLast? last)
      have second := List.mem_filter.mp (filtered.mem_iff.mp (List.mem_of_getLast? otherLast))
      have named : otherRow.txHash = row.txHash := by
        rw [of_decide_eq_true first.2, of_decide_eq_true second.2]
      obtain ⟨slots, indices⟩ := agree otherRow second.1 row first.1 named
      rw [Option.map_some, Option.map_some, slots, indices]

/-- The detector reports nothing exactly when it cannot start, cannot place the victim or finds no
eligible wallet around it; what it reports is a candidate of the highest profit with its closest legs,
of the smallest address among equals; and only a transaction's last position ties it to the order of
the rows. -/
theorem best_bracket :
    (detectSandwichPattern reads rows txHash slot = none ↔
      Unready reads rows slot ∨ ∀ victimPos, victimPosition reads rows txHash = some victimPos →
        ∀ addr, Eligible (rowInputs reads rows) txHash addr →
          ¬ Straddles (LegOf reads rows txHash addr) victimPos) ∧
    (∀ found, detectSandwichPattern reads rows txHash slot = some found →
      ∃ victimPos, victimPosition reads rows txHash = some victimPos ∧ IsBest reads rows txHash victimPos found) ∧
    (∀ other, other.Perm rows → pos other = pos rows →
      detectSandwichPattern reads other txHash slot = detectSandwichPattern reads rows txHash slot) ∧
    ∀ other, other.Perm rows →
      (∀ one ∈ rows, ∀ two ∈ rows, one.txHash = two.txHash → one.slot = two.slot ∧ one.blockIndex = two.blockIndex) →
      detectSandwichPattern reads other txHash slot = detectSandwichPattern reads rows txHash slot :=
  ⟨detect_none reads rows txHash slot, fun _ => detect_some reads rows txHash slot,
    fun _ => detect_reordered reads rows txHash slot,
    fun _ same agree => detect_reordered reads rows txHash slot same (pos_of_agreeing rows same agree)⟩

end Detection

/-- A wallet's two legs around the victim. -/
def aroundVictim : Reads where
  paidAddresses := ["addr1wpool"]
  inputs := [⟨"front", "addr1qattacker", 0, false, false, false⟩, ⟨"back", "addr1qattacker", 0, false, false, false⟩]
  txPosition := some (toLex (100, 0))
  countAttackerHistory := fun _ => 0
  attackerNetAda := fun _ _ _ => 7

/-- Two rows are too few whatever they bracket, and with two rows of one transaction the order
decides whether it is a front leg. -/
theorem order_and_count_matter :
    (detectSandwichPattern aroundVictim [⟨"front", 99, 0⟩, ⟨"back", 101, 0⟩] "victim" 100 = none ∧
      ∃ victimPos addr, victimPosition aroundVictim [⟨"front", 99, 0⟩, ⟨"back", 101, 0⟩] "victim" = some victimPos ∧
        Eligible (rowInputs aroundVictim [⟨"front", 99, 0⟩, ⟨"back", 101, 0⟩]) "victim" addr ∧
        Straddles (LegOf aroundVictim [⟨"front", 99, 0⟩, ⟨"back", 101, 0⟩] "victim" addr) victimPos) ∧
    [(⟨"front", 99, 0⟩ : NeighborRow), ⟨"back", 101, 0⟩, ⟨"front", 105, 0⟩].Perm
      [⟨"front", 105, 0⟩, ⟨"front", 99, 0⟩, ⟨"back", 101, 0⟩] ∧
    detectSandwichPattern aroundVictim [⟨"front", 99, 0⟩, ⟨"back", 101, 0⟩, ⟨"front", 105, 0⟩] "victim" 100 = none ∧
    detectSandwichPattern aroundVictim [⟨"front", 105, 0⟩, ⟨"front", 99, 0⟩, ⟨"back", 101, 0⟩] "victim" 100 ≠ none := by
  refine ⟨⟨by decide, toLex (100, 0), "addr1qattacker", by decide, ⟨by decide, by decide⟩, ?_, ?_⟩, ?_, ?_, ?_⟩
  · exact ⟨toLex (toLex (99, 0), "front"), ⟨by decide, by decide, by decide⟩, by decide⟩
  · exact ⟨toLex (toLex (101, 0), "back"), ⟨by decide, by decide, by decide⟩, by decide⟩
  · decide
  · decide
  · decide

end TransactionMonitoring.Sandwich
