import Mathlib.Data.List.Nodup
import Mathlib.Data.List.Sort
import Mathlib.Data.Prod.Lex
import Mathlib.Data.String.Basic
import TransactionMonitoring.Leading
import TransactionMonitoring.TokenNames

/-! Where the transactions of an address are on chain.

Kupo lists the outputs at the address, each with the transaction that created it and, once it is
spent, the one that spent it.  The client collects both, one point a transaction, and returns the
newest below a bound.  What of a match it cannot use is passed over; a creation that is no object
and a slot that is no number raise.
-/
namespace TransactionMonitoring.KupoPoints

open Leading
open TokenNames (Builtins)

/-- A transaction and the block that contains it. -/
structure TxPoint where
  txHash : String
  slot : Int
  headerHash : Json

/-- What the points are sorted by. -/
def TxPoint.key (point : TxPoint) : Int ×ₗ String := toLex (point.slot, point.txHash)

/-- `dict.get`. -/
def got (node : Json) (key : String) : Json := (node.get key).getD .null

/-- `is not None`. -/
def isGiven : Json → Bool
  | .null => false
  | _ => true

section
variable (builtins : Builtins)

/-- `_point_fields`; nothing where it raises. -/
def pointFields (point : Json) : Option (Option (Int × Json)) :=
  if !point.truthy then some none
  else
    match point with
    | .dict _ =>
        let slot := got point "slot_no"
        let headerHash := got point "header_hash"
        if !isGiven slot || !headerHash.truthy then some none
        else (builtins.int slot).map fun slot => some (slot, headerHash)
    -- Nothing else that is true has a `get`.
    | _ => none

/-- `dict.setdefault` under the hash of the point. -/
def setdefault (acc : List TxPoint) (point : TxPoint) : List TxPoint :=
  if point.txHash ∈ acc.map TxPoint.txHash then acc else acc ++ [point]

/-- `_collect`; nothing where it raises. -/
def collect (acc : List TxPoint) (txHash point : Json) : Option (List TxPoint) :=
  match txHash with
  | .text hash =>
      if hash = "" then some acc
      else (pointFields builtins point).map fun fields =>
        match fields with
        | none => acc
        | some (slot, headerHash) => setdefault acc ⟨hash, slot, headerHash⟩
  | _ => some acc

/-- Both sides of one match. -/
def collectMatch (acc : List TxPoint) (entry : Json) : Option (List TxPoint) :=
  match entry with
  | .dict _ =>
      (collect builtins acc (got entry "transaction_id") (got entry "created_at")).bind fun acc =>
        match got entry "spent_at" with
        | .dict spent => collect builtins acc (got (.dict spent) "transaction_id") (.dict spent)
        | _ => some acc
  | _ => some acc

/-- `address_tx_points`, on the list that Kupo answers; nothing where it raises. -/
def addressTxPoints (maxTxs : Option ℕ) (createdBeforeSlot : Option Int) (entries : List Json) :
    Option (List TxPoint) :=
  (entries.foldlM (collectMatch builtins) []).map fun byHash =>
    let points := byHash.insertionSort fun first later => later.key ≤ first.key
    let points :=
      match createdBeforeSlot with
      | none => points
      | some bound => points.filter fun point => point.slot < bound
    match maxTxs with
    | none => points
    | some most => points.take most

/-! ## What the matches say -/

/-- The sides of a match: a transaction hash and the point that comes with it. -/
def sides (entry : Json) : List (Json × Json) :=
  match entry with
  | .dict _ =>
      (got entry "transaction_id", got entry "created_at") ::
        match got entry "spent_at" with
        | .dict spent => [(got (.dict spent) "transaction_id", .dict spent)]
        | _ => []
  | _ => []

/-- A well-formed side, and the transaction it tells of. -/
structure Tells (side : Json × Json) (point : TxPoint) : Prop where
  hash : side.1 = .text point.txHash
  named : point.txHash ≠ ""
  slot : isGiven (got side.2 "slot_no") = true ∧ builtins.int (got side.2 "slot_no") = some point.slot
  header : got side.2 "header_hash" = point.headerHash ∧ point.headerHash.truthy = true

/-- A side with a hash whose point cannot be read: it is true and no object, or its slot is no number. -/
structure Unreadable (side : Json × Json) : Prop where
  named : ∃ hash, side.1 = .text hash ∧ hash ≠ ""
  truthy : side.2.truthy = true
  point : (∀ entries, side.2 ≠ .dict entries) ∨
    isGiven (got side.2 "slot_no") = true ∧ (got side.2 "header_hash").truthy = true ∧
      builtins.int (got side.2 "slot_no") = none

/-- A transaction that a match tells of. -/
def Touches (entries : List Json) (point : TxPoint) : Prop :=
  ∃ entry ∈ entries, ∃ side ∈ sides entry, Tells builtins side point

/-- A hash always carries the same point. -/
def Consistent (entries : List Json) : Prop :=
  ∀ first later, Touches builtins entries first → Touches builtins entries later → first.txHash = later.txHash →
    first = later

/-- What is asked for: the transactions below the bound, if there is one. -/
def Wanted (createdBeforeSlot : Option Int) (entries : List Json) (point : TxPoint) : Prop :=
  Touches builtins entries point ∧ ∀ bound ∈ createdBeforeSlot, point.slot < bound

end

/-! ## Collecting -/

section
variable {builtins : Builtins} {acc collected : List TxPoint} {side : Json × Json}

/-- Only an object that is no empty one gives fields. -/
theorem got_of_not_truthy {node : Json} (falsy : node.truthy = false) (key : String) : got node key = .null := by
  cases node with
  | dict entries =>
    cases entries with
    | nil => rfl
    | cons _ _ => cases falsy
  | _ => rfl

theorem pointFields_falsy {point : Json} (falsy : point.truthy = false) : pointFields builtins point = some none := by
  simp [pointFields, falsy]

/-- Both fields are read where both are given. -/
theorem pointFields_dict {entries : List (String × Json)} (true? : (Json.dict entries).truthy = true) :
    pointFields builtins (.dict entries) =
      if isGiven (got (.dict entries) "slot_no") = true ∧ (got (.dict entries) "header_hash").truthy = true then
        (builtins.int (got (.dict entries) "slot_no")).map fun slot => some (slot, got (.dict entries) "header_hash")
      else some none := by
  cases given : isGiven (got (.dict entries) "slot_no") <;>
    cases truthy : (got (.dict entries) "header_hash").truthy <;> simp [pointFields, true?, given, truthy]

/-- Reading a point raises where it is true and no object, or its slot is given and no number. -/
theorem pointFields_eq_none_iff (point : Json) : pointFields builtins point = none ↔
    point.truthy = true ∧ ((∀ entries, point ≠ .dict entries) ∨
      isGiven (got point "slot_no") = true ∧ (got point "header_hash").truthy = true ∧
        builtins.int (got point "slot_no") = none) := by
  cases true? : point.truthy with
  | false => simp [pointFields_falsy true?]
  | true =>
    cases point with
    | dict entries =>
      rw [pointFields_dict true?]
      split
      · rename_i both
        simp [both]
      · rename_i lacking
        refine iff_of_false nofun ?_
        rintro ⟨-, other | ⟨given, truthy, -⟩⟩
        · exact other entries rfl
        · exact lacking ⟨given, truthy⟩
    | _ => simp [pointFields, true?]

/-- It gives the slot as a number and the hash as it is, where both are there. -/
theorem pointFields_eq_some_iff (point : Json) (slot : Int) (headerHash : Json) :
    pointFields builtins point = some (some (slot, headerHash)) ↔
      (isGiven (got point "slot_no") = true ∧ builtins.int (got point "slot_no") = some slot) ∧
        got point "header_hash" = headerHash ∧ headerHash.truthy = true := by
  cases true? : point.truthy with
  | false => simp [pointFields_falsy true?, got_of_not_truthy true?, isGiven]
  | true =>
    cases point with
    | dict entries =>
      rw [pointFields_dict true?]
      split
      · rename_i both
        constructor
        · intro fields
          obtain ⟨number, given, same⟩ := Option.map_eq_some_iff.mp fields
          cases same
          exact ⟨⟨both.1, given⟩, rfl, both.2⟩
        · rintro ⟨⟨-, number⟩, rfl, -⟩
          rw [number]
          rfl
      · rename_i lacking
        refine iff_of_false nofun ?_
        rintro ⟨⟨given, -⟩, rfl, truthy⟩
        exact lacking ⟨given, truthy⟩
    | _ => simp [pointFields, true?, got, Json.get, isGiven]

/-- What one side does to the collection. -/
inductive Collected (builtins : Builtins) (acc : List TxPoint) (side : Json × Json) : Option (List TxPoint) → Prop where
  | raised (unreadable : Unreadable builtins side) : Collected builtins acc side none
  | skipped (readable : ¬ Unreadable builtins side) (none : ∀ point, ¬ Tells builtins side point) :
      Collected builtins acc side (some acc)
  | added {point : TxPoint} (readable : ¬ Unreadable builtins side) (tells : Tells builtins side point) :
      Collected builtins acc side (some (setdefault acc point))

theorem Tells.unique {point other : TxPoint} (tells : Tells builtins side point) (told : Tells builtins side other) :
    point = other := by
  have hash := Json.text.inj (tells.hash.symm.trans told.hash)
  have slot := Option.some.inj (tells.slot.2.symm.trans told.slot.2)
  have header := tells.header.1.symm.trans told.header.1
  cases point
  cases other
  simp only [TxPoint.mk.injEq]
  exact ⟨hash, slot, header⟩

theorem collect_spec (acc : List TxPoint) (txHash point : Json) :
    Collected builtins acc (txHash, point) (collect builtins acc txHash point) := by
  unfold collect
  cases txHash with
  | text hash =>
    dsimp only
    by_cases empty : hash = ""
    · rw [if_pos empty]
      refine .skipped (fun unreadable => ?_) fun found tells => ?_
      · obtain ⟨_, same, named⟩ := unreadable.named
        cases same
        exact named empty
      · exact tells.named ((Json.text.inj tells.hash).symm.trans empty)
    · rw [if_neg empty]
      cases fields : pointFields builtins point with
      | none =>
        obtain ⟨truthy, unread⟩ := (pointFields_eq_none_iff point).mp fields
        exact .raised ⟨⟨hash, rfl, empty⟩, truthy, unread⟩
      | some fields? =>
        have readable : ¬ Unreadable builtins (.text hash, point) := fun unreadable => by
          rw [(pointFields_eq_none_iff point).mpr ⟨unreadable.truthy, unreadable.point⟩] at fields
          cases fields
        cases fields? with
        | none =>
          refine .skipped readable fun found tells => ?_
          rw [(pointFields_eq_some_iff point _ _).mpr ⟨tells.slot, tells.header⟩] at fields
          cases fields
        | some both =>
          obtain ⟨slot, header⟩ := (pointFields_eq_some_iff point both.1 both.2).mp fields
          exact .added readable ⟨rfl, empty, slot, header⟩
  | _ => exact .skipped (fun unreadable => by obtain ⟨_, ⟨⟩, _⟩ := unreadable.named) fun _ tells => nomatch tells.hash

theorem collectMatch_eq (acc : List TxPoint) (entry : Json) :
    collectMatch builtins acc entry =
      (sides entry).foldlM (fun acc side => collect builtins acc side.1 side.2) acc := by
  unfold collectMatch sides
  cases entry with
  | dict entries =>
    rw [List.foldlM_cons, Option.bind_eq_bind]
    dsimp only
    congr 1
    funext acc
    cases got (.dict entries) "spent_at" <;> simp [List.foldlM_nil]
  | _ => rfl

/-- The fold goes through the sides of all matches. -/
theorem foldlM_collectMatch (entries : List Json) (acc : List TxPoint) :
    entries.foldlM (collectMatch builtins) acc =
      (entries.flatMap sides).foldlM (fun acc side => collect builtins acc side.1 side.2) acc := by
  induction entries generalizing acc with
  | nil => rfl
  | cons entry rest ih =>
    rw [List.foldlM_cons, List.flatMap_cons, List.foldlM_append, collectMatch_eq]
    exact congrArg _ (funext ih)

/-- What is collected from some sides: one point a hash, told by one of them, for every hash told. -/
structure Gathered (builtins : Builtins) (told : List (Json × Json)) (points : List TxPoint) : Prop where
  distinct : (points.map TxPoint.txHash).Nodup
  among : ∀ point ∈ points, ∃ side ∈ told, Tells builtins side point
  every : ∀ side ∈ told, ∀ point, Tells builtins side point → point.txHash ∈ points.map TxPoint.txHash

variable {told : List (Json × Json)}

theorem Gathered.nil : Gathered builtins [] [] := ⟨List.nodup_nil, by simp, by simp⟩

theorem Gathered.skip (gathered : Gathered builtins told acc) (none : ∀ point, ¬ Tells builtins side point) :
    Gathered builtins (told ++ [side]) acc where
  distinct := gathered.distinct
  among point member := by
    obtain ⟨earlier, within, tells⟩ := gathered.among point member
    exact ⟨earlier, List.mem_append_left _ within, tells⟩
  every other within point tells := by
    rcases List.mem_append.mp within with earlier | last
    · exact gathered.every other earlier point tells
    · obtain rfl := List.mem_singleton.mp last
      exact absurd tells (none point)

theorem Gathered.add {point : TxPoint} (gathered : Gathered builtins told acc) (tells : Tells builtins side point) :
    Gathered builtins (told ++ [side]) (setdefault acc point) := by
  have before {other : TxPoint} (member : other ∈ acc) : ∃ side' ∈ told ++ [side], Tells builtins side' other := by
    obtain ⟨earlier, within, told⟩ := gathered.among other member
    exact ⟨earlier, List.mem_append_left _ within, told⟩
  unfold setdefault
  split
  · rename_i known
    refine ⟨gathered.distinct, fun _ => before, fun other within found tellsFound => ?_⟩
    rcases List.mem_append.mp within with earlier | last
    · exact gathered.every other earlier found tellsFound
    · obtain rfl := List.mem_singleton.mp last
      rwa [tellsFound.unique tells]
  · rename_i unknown
    refine ⟨?_, fun found member => ?_, fun other within found tellsFound => ?_⟩
    · rw [List.map_append, List.map_singleton]
      exact List.nodup_append_comm.mp (List.nodup_cons.mpr ⟨unknown, gathered.distinct⟩)
    · rcases List.mem_append.mp member with earlier | last
      · exact before earlier
      · obtain rfl := List.mem_singleton.mp last
        exact ⟨side, by simp, tells⟩
    · rw [List.map_append]
      rcases List.mem_append.mp within with earlier | last
      · exact List.mem_append_left _ (gathered.every other earlier found tellsFound)
      · obtain rfl := List.mem_singleton.mp last
        rw [tellsFound.unique tells]
        simp

/-- Going on through more sides raises at one that cannot be read, or gathers all. -/
theorem gather (gathered : Gathered builtins told acc) (more : List (Json × Json)) :
    ((more.foldlM (fun acc side => collect builtins acc side.1 side.2) acc) = none ↔
      ∃ side ∈ more, Unreadable builtins side) ∧
    ∀ points, more.foldlM (fun acc side => collect builtins acc side.1 side.2) acc = some points →
      Gathered builtins (told ++ more) points := by
  induction more generalizing told acc with
  | nil =>
    refine ⟨by simp, fun points done => ?_⟩
    obtain rfl : acc = points := by simpa using done
    rwa [List.append_nil]
  | cons side rest ih =>
    rw [List.foldlM_cons, Option.bind_eq_bind, List.exists_mem_cons_iff]
    have step := @collect_spec builtins acc side.1 side.2
    generalize collect builtins acc side.1 side.2 = reached at step
    have reassociate : told ++ side :: rest = told ++ [side] ++ rest := by simp
    cases step with
    | raised unreadable => exact ⟨by simp [unreadable], nofun⟩
    | skipped readable none =>
      rw [Option.bind_some, reassociate, or_iff_right readable]
      exact ih (gathered.skip none)
    | added readable tells =>
      rw [Option.bind_some, reassociate, or_iff_right readable]
      exact ih (gathered.add tells)

/-! ## The newest -/

theorem key_ne {first later : TxPoint} (different : first.txHash ≠ later.txHash) : later.key ≠ first.key :=
  fun same => different (congrArg (fun key : Int ×ₗ String => (ofLex key).2) same.symm)

/-- Sorting puts the points in the order the newest come first, none twice. -/
theorem sorted_falling (distinct : (acc.map TxPoint.txHash).Nodup) :
    (acc.insertionSort fun first later => later.key ≤ first.key).Pairwise
      fun first later => later.key < first.key := by
  let newerFirst (first later : TxPoint) : Prop := later.key ≤ first.key
  have : Std.Total newerFirst := ⟨fun first later => le_total later.key first.key⟩
  have : IsTrans TxPoint newerFirst := ⟨fun _ _ _ one two => le_trans two one⟩
  have sorted : (acc.insertionSort newerFirst).Pairwise newerFirst := List.pairwise_insertionSort newerFirst acc
  have apart : (acc.insertionSort newerFirst).Pairwise fun first later => first.txHash ≠ later.txHash := by
    rw [← List.pairwise_map (R := (· ≠ ·))]
    exact ((List.perm_insertionSort newerFirst acc).map TxPoint.txHash).nodup_iff.mpr distinct
  exact (sorted.and apart).imp fun both => lt_of_le_of_ne both.1 (key_ne both.2)

theorem touches_iff (entries : List Json) (point : TxPoint) :
    Touches builtins entries point ↔ ∃ side ∈ entries.flatMap sides, Tells builtins side point := by
  simp only [Touches, List.mem_flatMap]
  constructor
  · rintro ⟨entry, member, side, within, tells⟩
    exact ⟨side, ⟨entry, member, within⟩, tells⟩
  · rintro ⟨side, ⟨entry, member, within⟩, tells⟩
    exact ⟨entry, member, side, within, tells⟩

/-- Where hashes are consistent, what is gathered is what the matches tell of. -/
theorem Gathered.mem_iff {entries : List Json} {points : List TxPoint} (consistent : Consistent builtins entries)
    (gathered : Gathered builtins (entries.flatMap sides) points) (point : TxPoint) :
    point ∈ points ↔ Touches builtins entries point := by
  rw [touches_iff]
  refine ⟨gathered.among point, fun ⟨side, within, tells⟩ => ?_⟩
  obtain ⟨listed, member, same⟩ := List.mem_map.mp (gathered.every side within point tells)
  obtain ⟨other, among, told⟩ := gathered.among listed member
  obtain rfl := consistent listed point ((touches_iff entries _).mpr ⟨other, among, told⟩)
    ((touches_iff entries _).mpr ⟨side, within, tells⟩) same
  exact member

variable {maxTxs : Option ℕ} {createdBeforeSlot : Option Int} {entries : List Json}

theorem addressTxPoints_eq_none_iff : addressTxPoints builtins maxTxs createdBeforeSlot entries = none ↔
    ∃ entry ∈ entries, ∃ side ∈ sides entry, Unreadable builtins side := by
  rw [addressTxPoints, Option.map_eq_none_iff, foldlM_collectMatch, (gather Gathered.nil _).1]
  simp only [List.mem_flatMap]
  constructor
  · rintro ⟨side, ⟨entry, member, within⟩, unreadable⟩
    exact ⟨entry, member, side, within, unreadable⟩
  · rintro ⟨entry, member, side, within, unreadable⟩
    exact ⟨side, ⟨entry, member, within⟩, unreadable⟩

theorem addressTxPoints_leading {points : List TxPoint} (consistent : Consistent builtins entries)
    (answered : addressTxPoints builtins maxTxs createdBeforeSlot entries = some points) :
    IsLeading TxPoint.key (Wanted builtins createdBeforeSlot entries) maxTxs points := by
  rw [addressTxPoints, foldlM_collectMatch, Option.map_eq_some_iff] at answered
  obtain ⟨byHash, done, cut⟩ := answered
  have gathered := (gather Gathered.nil _).2 byHash done
  rw [List.nil_append] at gathered
  have falling := sorted_falling gathered.distinct
  have all (point : TxPoint) : point ∈ (byHash.insertionSort fun first later => later.key ≤ first.key) ↔
      Touches builtins entries point := by
    rw [List.mem_insertionSort, gathered.mem_iff consistent]
  generalize byHash.insertionSort (fun first later => later.key ≤ first.key) = sorted at cut falling all
  dsimp only at cut
  -- The bound leaves those of the sorted points that are wanted.
  obtain ⟨bounded, below, fallingBelow, wanted⟩ : ∃ bounded, (match createdBeforeSlot with
      | none => sorted
      | some bound => sorted.filter fun point => point.slot < bound) = bounded ∧
        (bounded.Pairwise fun first later => later.key < first.key) ∧
        ∀ point, point ∈ bounded ↔ Wanted builtins createdBeforeSlot entries point := by
    cases createdBeforeSlot with
    | none => exact ⟨sorted, rfl, falling, fun point => by simp [Wanted, all]⟩
    | some bound => exact ⟨_, rfl, falling.sublist List.filter_sublist, fun point => by simp [Wanted, all]⟩
  rw [below] at cut
  cases maxTxs with
  | none => exact cut ▸ isLeading_all fallingBelow wanted
  | some most => exact cut ▸ isLeading_take fallingBelow wanted most

theorem Touches.perm {other : List Json} (perm : other.Perm entries) :
    Touches builtins other = Touches builtins entries := by
  funext point
  simp only [Touches, perm.mem_iff]

/-- The order of the matches does not matter. -/
theorem addressTxPoints_perm {other : List Json} (consistent : Consistent builtins entries)
    (perm : other.Perm entries) : addressTxPoints builtins maxTxs createdBeforeSlot other =
      addressTxPoints builtins maxTxs createdBeforeSlot entries := by
  have touches := @Touches.perm builtins _ _ perm
  have consistentOther : Consistent builtins other := by
    unfold Consistent
    rwa [touches]
  have raises : addressTxPoints builtins maxTxs createdBeforeSlot other = none ↔
      addressTxPoints builtins maxTxs createdBeforeSlot entries = none := by
    simp only [addressTxPoints_eq_none_iff, perm.mem_iff]
  cases left : addressTxPoints builtins maxTxs createdBeforeSlot other with
  | none => exact (raises.mp left).symm
  | some points =>
    cases right : addressTxPoints builtins maxTxs createdBeforeSlot entries with
    | none =>
      rw [raises.mpr right] at left
      cases left
    | some others =>
      have first := addressTxPoints_leading consistentOther left
      rw [show Wanted builtins createdBeforeSlot other = Wanted builtins createdBeforeSlot entries by
        funext point
        simp only [Wanted, touches]] at first
      rw [first.unique (addressTxPoints_leading consistent right)]

end

/-- **Whatever matches Kupo answers, the points are the newest below the bound, newest first, in every order of
the matches, or the call raises, which it does exactly where a match cannot be read.** -/
theorem newest_points (builtins : Builtins) (maxTxs : Option ℕ) (createdBeforeSlot : Option Int) (entries : List Json)
    (consistent : Consistent builtins entries) :
    (∀ points, addressTxPoints builtins maxTxs createdBeforeSlot entries = some points →
      IsLeading TxPoint.key (Wanted builtins createdBeforeSlot entries) maxTxs points) ∧
    (addressTxPoints builtins maxTxs createdBeforeSlot entries = none ↔
      ∃ entry ∈ entries, ∃ side ∈ sides entry, Unreadable builtins side) ∧
    ∀ other : List Json, other.Perm entries →
      addressTxPoints builtins maxTxs createdBeforeSlot other =
        addressTxPoints builtins maxTxs createdBeforeSlot entries :=
  ⟨fun _ => addressTxPoints_leading consistent, addressTxPoints_eq_none_iff,
    fun _ => addressTxPoints_perm consistent⟩

/-! ## Runs -/

private def chainPoint (slot : Int) (headerHash : String) : List (String × Json) :=
  [("slot_no", .int slot), ("header_hash", .text headerHash)]

/-- A creation that is a text. -/
private def textCreation : List Json := [.dict [("transaction_id", .text "aa"), ("created_at", .text "soon")]]

private theorem textCreation_untold (point : TxPoint) : ¬ Touches .plain textCreation point := by
  rw [touches_iff]
  rintro ⟨side, within, tells⟩
  have only : textCreation.flatMap sides = [(.text "aa", .text "soon")] := by
    simp [textCreation, sides, got, Json.get]
  obtain rfl := List.mem_singleton.mp (only ▸ within)
  exact absurd tells.slot.1 (by simp [got, Json.get, isGiven])

/-- One match that cannot be read, and the call raises instead of returning the points of the others, here none. -/
theorem unreadable_raises :
    Consistent .plain textCreation ∧ IsLeading TxPoint.key (Wanted .plain none textCreation) none [] ∧
      addressTxPoints .plain none none textCreation = none := by
  refine ⟨fun first _ touches => absurd touches (textCreation_untold first), ?_, ?_⟩
  · exact isLeading_all List.Pairwise.nil fun point =>
      iff_of_false List.not_mem_nil fun wanted => textCreation_untold point wanted.1
  · simp [addressTxPoints, textCreation, collectMatch, collect, pointFields, got, Json.get, Json.truthy]

/-- An output created below the bound and spent above it, and one created by the same transaction. -/
private def spentLater : List Json :=
  [.dict [("transaction_id", .text "aa"), ("created_at", .dict (chainPoint 5 "b5")),
      ("spent_at", .dict (("transaction_id", .text "bb") :: chainPoint 9 "b9"))],
    .dict [("transaction_id", .text "aa"), ("created_at", .dict (chainPoint 5 "b5"))]]

private theorem spentLater_told (point : TxPoint) (touches : Touches .plain spentLater point) :
    point = ⟨"aa", 5, .text "b5"⟩ ∨ point = ⟨"bb", 9, .text "b9"⟩ := by
  obtain ⟨side, within, tells⟩ := (touches_iff _ _).mp touches
  have those : spentLater.flatMap sides = [(.text "aa", .dict (chainPoint 5 "b5")),
      (.text "bb", .dict (("transaction_id", .text "bb") :: chainPoint 9 "b9")),
      (.text "aa", .dict (chainPoint 5 "b5"))] := by
    simp [spentLater, sides, got, Json.get]
  have created : Tells .plain (.text "aa", .dict (chainPoint 5 "b5")) ⟨"aa", 5, .text "b5"⟩ :=
    ⟨rfl, by decide, ⟨rfl, rfl⟩, rfl, by decide⟩
  have spent : Tells .plain (.text "bb", .dict (("transaction_id", .text "bb") :: chainPoint 9 "b9"))
      ⟨"bb", 9, .text "b9"⟩ := ⟨rfl, by decide, ⟨rfl, rfl⟩, rfl, by decide⟩
  rw [those] at within
  simp only [List.mem_cons, List.not_mem_nil, or_false] at within
  rcases within with rfl | rfl | rfl
  · exact .inl (tells.unique created)
  · exact .inr (tells.unique spent)
  · exact .inl (tells.unique created)

private theorem spentLater_consistent : Consistent .plain spentLater := by
  intro first later one two same
  rcases spentLater_told first one with rfl | rfl <;> rcases spentLater_told later two with rfl | rfl
  · rfl
  · exact absurd same (by decide)
  · exact absurd same (by decide)
  · rfl

/-- The spending transaction is beyond the bound, and the creating one is listed once. -/
theorem newest_points_spent_later :
    addressTxPoints .plain (some 2) (some 8) spentLater = some [⟨"aa", 5, .text "b5"⟩] ∧
      IsLeading TxPoint.key (Wanted .plain (some 8) spentLater) (some 2) [⟨"aa", 5, .text "b5"⟩] := by
  have answered : addressTxPoints .plain (some 2) (some 8) spentLater = some [⟨"aa", 5, .text "b5"⟩] := by
    rfl
  exact ⟨answered, (newest_points .plain (some 2) (some 8) spentLater spentLater_consistent).1 _ answered⟩

end TransactionMonitoring.KupoPoints
