import TransactionMonitoring.Enrichment
import Mathlib.Data.List.Forall2

/-! The two resolution paths applied in any order.

`apply_resolved_inputs` brings what the mempool resolved for a transaction, native assets
included, `resolve_input_amounts` what the batch itself and the warehouse know.  Both leave an
input alone once it has an amount, so whichever comes first decides about its assets, and which
references go to the warehouse depends on what is resolved by then.
-/
namespace TransactionMonitoring.ResolutionOrder
open Enrichment

/-! ## The shared core -/

/-- A lookup's answer; no assets leave the input its own. -/
structure FullRef where
  address : String
  amount : Nat
  assets : Option (List (String × Nat))
deriving DecidableEq, Repr

/-- What the batch path puts into its lookup. -/
def plain (resolved : ResolvedRef) : FullRef := ⟨resolved.address, resolved.amount, none⟩

/-- What `_resolve_tx_inputs` makes of one input. -/
def resolveInput (lookup : OutputRef → Option FullRef) (input : TransactionInput) : TransactionInput :=
  if input.isReference then input
  else if 0 < input.amount then input
  else
    match lookup input.ref with
    | some resolved =>
        { input with address := resolved.address, amount := resolved.amount,
                     assets := resolved.assets.or input.assets }
    | none => input

/-- The input newly resolves. -/
def newlyResolved (lookup : OutputRef → Option FullRef) (input : TransactionInput) : Bool :=
  !input.isReference && decide (input.amount = 0) && (lookup input.ref).isSome

/-- The total as stored. -/
def shownTotal (total : Nat) : Option Nat := if 0 < total then some total else none

/-- `apply_resolved_inputs`. -/
def applyResolvedInputs (resolved : OutputRef → Option FullRef) (tx : NormalizedTransaction) :
    NormalizedTransaction :=
  let newInputs := tx.inputs.map (resolveInput resolved)
  { tx with
    inputs := newInputs
    totalInputValue := shownTotal (consumedValue tx newInputs)
    addresses := tx.addresses ∪ flowAddresses tx.scriptValid newInputs }

/-- The recursion of the batch path is the same core: the inputs one by one, their consumed
value, and whether one newly resolved. -/
theorem resolveTxInputs_eq (tx : NormalizedTransaction) (lookup : OutputRef → Option ResolvedRef)
    (inputs : List TransactionInput) :
    resolveTxInputs tx lookup inputs =
      (inputs.map (resolveInput fun ref => (lookup ref).map plain),
        consumedValue tx (inputs.map (resolveInput fun ref => (lookup ref).map plain)),
        inputs.any (newlyResolved fun ref => (lookup ref).map plain)) := by
  induction inputs with
  | nil => simp [resolveTxInputs, consumedValue]
  | cons input rest ih =>
    rw [resolveTxInputs, ih]
    by_cases reference : input.isReference = true
    · simp [reference, resolveInput, newlyResolved, consumedValue, TransactionInput.consumedByLedger]
    · by_cases positive : 0 < input.amount
      · simp [reference, positive, Nat.ne_of_gt positive, resolveInput, newlyResolved, consumedValue,
          Nat.add_comm, Nat.add_left_comm]
      · have zero : input.amount = 0 := Nat.eq_zero_of_not_pos positive
        cases found : lookup input.ref with
        | none =>
          simp [reference, zero, found, resolveInput, newlyResolved, consumedValue]
        | some resolved =>
          simp [reference, zero, found, resolveInput, newlyResolved, consumedValue, plain,
            TransactionInput.resolve, Nat.add_comm, Nat.add_left_comm]

/-- What resolution of a batch makes of a transaction, by its inputs. -/
theorem resolveTx_eq (lookup : OutputRef → Option ResolvedRef) (tx : NormalizedTransaction) :
    resolveTx lookup tx =
      if tx.inputs.any (newlyResolved fun ref => (lookup ref).map plain) = true ∨ 0 < withdrawalTotal tx then
        applyResolvedInputs (fun ref => (lookup ref).map plain) tx
      else tx := by
  simp only [resolveTx, resolveTxInputs_eq, applyResolvedInputs, shownTotal]

/-- An input that does not newly resolve stays as it is. -/
theorem resolveInput_of_not {lookup : OutputRef → Option FullRef} {input : TransactionInput}
    (still : newlyResolved lookup input = false) : resolveInput lookup input = input := by
  unfold resolveInput
  by_cases reference : input.isReference = true
  · rw [if_pos reference]
  · by_cases positive : 0 < input.amount
    · rw [if_neg reference, if_pos positive]
    · rw [if_neg reference, if_neg positive]
      cases found : lookup input.ref with
      | none => rfl
      | some resolved => simp [newlyResolved, reference, Nat.eq_zero_of_not_pos positive, found] at still

theorem resolveInput_fixed {lookup : OutputRef → Option FullRef} {input : TransactionInput}
    (fixed : input.isReference = true ∨ 0 < input.amount) : resolveInput lookup input = input := by
  unfold resolveInput
  split
  · rfl
  · rename_i spent
    rw [if_pos (fixed.resolve_left spent)]

theorem resolveInput_unresolved {lookup : OutputRef → Option FullRef} {input : TransactionInput}
    (spent : input.isReference = false) (zero : input.amount = 0) :
    resolveInput lookup input = match lookup input.ref with
      | some resolved => { input with address := resolved.address, amount := resolved.amount,
                                      assets := resolved.assets.or input.assets }
      | none => input := by
  rw [resolveInput, if_neg (by simp [spent]), if_neg (by simp [zero])]

/-! ## Applying the two sources -/

inductive Source where
  | mempool
  | warehouse
deriving DecidableEq, Repr

variable (cache : String → OutputRef → Option FullRef) (warehouse : OutputRef → Option ResolvedRef)

/-- One source applied to a batch; the cache holds what the mempool resolved by transaction. -/
def apply : Source → List NormalizedTransaction → List NormalizedTransaction
  | .mempool, txs => txs.map fun tx => applyResolvedInputs (cache tx.txHash) tx
  | .warehouse, txs => resolveInputAmounts warehouse txs

def applyAll (sources : List Source) (txs : List NormalizedTransaction) : List NormalizedTransaction :=
  sources.foldl (fun txs source => apply cache warehouse source txs) txs

/-- What the batch path knows of a reference: an output of the batch, or else of the warehouse. -/
def known (txs : List NormalizedTransaction) (ref : OutputRef) : Option FullRef :=
  ((intraBlock txs ref).or (warehouse ref)).map plain

/-- The sources agree on the address and the amount of an input both resolve. -/
def Agree (txs : List NormalizedTransaction) : Prop :=
  ∀ tx ∈ txs, ∀ input ∈ tx.inputs, ∀ one other, cache tx.txHash input.ref = some one →
    known warehouse txs input.ref = some other → one.address = other.address ∧ one.amount = other.amount

/-- An input the parser could not resolve has no address. -/
def Blank (txs : List NormalizedTransaction) : Prop :=
  ∀ tx ∈ txs, ∀ input ∈ tx.inputs, input.amount = 0 → input.address = ""

/-- Collateral that a valid transaction kept: the batch path looks its reference up only where
another input needs it. -/
def Spare (scriptValid : Bool) (input : TransactionInput) : Prop :=
  input.isCollateral = true ∧ scriptValid = true

/-- Both sources resolve the reference and the mempool knows its native assets. -/
def Contested (lookup other : OutputRef → Option FullRef) (ref : OutputRef) : Prop :=
  (∃ resolved, lookup ref = some resolved ∧ resolved.assets ≠ none) ∧ other ref ≠ none

/-- The same input with the same flags; the same address and amount unless it is spare, and then
the same assets unless they are contested. -/
structure Alike (scriptValid : Bool) (contested : Prop) (one other : TransactionInput) : Prop where
  ref : one.ref = other.ref
  isReference : one.isReference = other.isReference
  isCollateral : one.isCollateral = other.isCollateral
  isUnspentAttempt : one.isUnspentAttempt = other.isUnspentAttempt
  address : ¬ Spare scriptValid one → one.address = other.address
  amount : ¬ Spare scriptValid one → one.amount = other.amount
  assets : ¬ Spare scriptValid one → ¬ contested → one.assets = other.assets

section Inputs
variable {scriptValid : Bool} {contested : Prop} {one other third : TransactionInput}

theorem Alike.refl (input : TransactionInput) : Alike scriptValid contested input input :=
  ⟨rfl, rfl, rfl, rfl, fun _ => rfl, fun _ => rfl, fun _ _ => rfl⟩

theorem Alike.spare (alike : Alike scriptValid contested one other) :
    Spare scriptValid one ↔ Spare scriptValid other := by
  rw [Spare, Spare, alike.isCollateral]

theorem Alike.symm (alike : Alike scriptValid contested one other) : Alike scriptValid contested other one where
  ref := alike.ref.symm
  isReference := alike.isReference.symm
  isCollateral := alike.isCollateral.symm
  isUnspentAttempt := alike.isUnspentAttempt.symm
  address := fun kept => (alike.address (kept ∘ alike.spare.mp)).symm
  amount := fun kept => (alike.amount (kept ∘ alike.spare.mp)).symm
  assets := fun kept free => (alike.assets (kept ∘ alike.spare.mp) free).symm

theorem Alike.trans (first : Alike scriptValid contested one other) (second : Alike scriptValid contested other third) :
    Alike scriptValid contested one third where
  ref := first.ref.trans second.ref
  isReference := first.isReference.trans second.isReference
  isCollateral := first.isCollateral.trans second.isCollateral
  isUnspentAttempt := first.isUnspentAttempt.trans second.isUnspentAttempt
  address := fun kept => (first.address kept).trans (second.address (kept ∘ first.spare.mpr))
  amount := fun kept => (first.amount kept).trans (second.amount (kept ∘ first.spare.mpr))
  assets := fun kept free => (first.assets kept free).trans (second.assets (kept ∘ first.spare.mpr) free)

/-- A spare input has no part in what the ledger consumed. -/
theorem Alike.consumed (alike : Alike scriptValid contested one other) :
    (if one.consumedByLedger scriptValid then one.amount else 0) =
      if other.consumedByLedger scriptValid then other.amount else 0 := by
  have same : one.consumedByLedger scriptValid = other.consumedByLedger scriptValid := by
    simp only [TransactionInput.consumedByLedger, alike.isReference, alike.isCollateral, alike.isUnspentAttempt]
  by_cases spare : Spare scriptValid one
  · have kept : one.consumedByLedger scriptValid = false := by
      simp [TransactionInput.consumedByLedger, spare.1, spare.2]
    rw [← same, kept]
    rfl
  · rw [← same, alike.amount spare]

/-- Resolution leaves the reference and the flags of an input. -/
theorem resolveInput_flags (lookup : OutputRef → Option FullRef) (input : TransactionInput) :
    (resolveInput lookup input).ref = input.ref ∧ (resolveInput lookup input).isReference = input.isReference ∧
      (resolveInput lookup input).isCollateral = input.isCollateral ∧
      (resolveInput lookup input).isUnspentAttempt = input.isUnspentAttempt := by
  unfold resolveInput
  split
  · exact ⟨rfl, rfl, rfl, rfl⟩
  · split
    · exact ⟨rfl, rfl, rfl, rfl⟩
    · split <;> exact ⟨rfl, rfl, rfl, rfl⟩

/-! ### What an input has after some sources

The state of an input depends only on which sources were applied: it is the original one,
resolved by what these sources know of its reference, the mempool first. -/

section Steps
variable (mempool batch : OutputRef → Option FullRef)

/-- What a source knows of a reference. -/
def own : Source → OutputRef → Option FullRef
  | .mempool => mempool
  | .warehouse => batch

/-- What the applied sources know of a reference together. -/
def look (sources : List Source) (ref : OutputRef) : Option FullRef :=
  (if .mempool ∈ sources then mempool ref else none).or (if .warehouse ∈ sources then batch ref else none)

variable {mempool batch} {ref : OutputRef} {sources : List Source} {source : Source}

/-- Where nothing was known, a further source decides. -/
private theorem look_unknown (nothing : look mempool batch sources ref = none) :
    look mempool batch (sources ++ [source]) ref = own mempool batch source ref := by
  rw [look, Option.or_eq_none_iff] at nothing
  cases source with
  | mempool =>
    by_cases used : Source.mempool ∈ sources
    · have absent : mempool ref = none := by simpa [used] using nothing.1
      simp [look, own, absent, nothing.2]
    · simp [look, own, nothing.2]
  | warehouse => simp [look, own, nothing.1]

/-- What is known of a reference, one of the two sources knows. -/
private theorem known_of_look {found : FullRef} (here : look mempool batch sources ref = some found) :
    mempool ref = some found ∨ batch ref = some found := by
  rw [look, Option.or_eq_some_iff] at here
  rcases here with here | ⟨-, here⟩
  · split at here
    · exact .inl here
    · cases here
  · split at here
    · exact .inr here
    · cases here

private theorem known_of_own {found : FullRef} (here : own mempool batch source ref = some found) :
    mempool ref = some found ∨ batch ref = some found := by
  cases source with
  | mempool => exact .inl here
  | warehouse => exact .inr here

/-- The batch path brings no assets, and the mempool's address and amount are the same. -/
structure Compatible (mempool batch : OutputRef → Option FullRef) (ref : OutputRef) : Prop where
  agree : ∀ one other, mempool ref = some one → batch ref = some other →
    one.address = other.address ∧ one.amount = other.amount
  bare : ∀ other, batch ref = some other → other.assets = none

/-- Whichever source tells of a reference, it tells the same address and amount, and different
assets only where they are contested. -/
private theorem Compatible.same (compatible : Compatible mempool batch ref) {one other : FullRef}
    (first : mempool ref = some one ∨ batch ref = some one)
    (second : mempool ref = some other ∨ batch ref = some other) :
    one.address = other.address ∧ one.amount = other.amount ∧
      (¬ Contested mempool batch ref → one.assets = other.assets) := by
  have mixed {one other : FullRef} (first : mempool ref = some one) (second : batch ref = some other) :
      one.address = other.address ∧ one.amount = other.amount ∧
        (¬ Contested mempool batch ref → one.assets = other.assets) := by
    refine ⟨(compatible.agree _ _ first second).1, (compatible.agree _ _ first second).2, fun free => ?_⟩
    rw [compatible.bare other second]
    by_contra assets
    exact free ⟨⟨one, first, assets⟩, by rw [second]; exact Option.some_ne_none _⟩
  rcases first with first | first
  · rcases second with second | second
    · obtain rfl := Option.some.inj (first.symm.trans second)
      exact ⟨rfl, rfl, fun _ => rfl⟩
    · exact mixed first second
  · rcases second with second | second
    · obtain ⟨address, amount, assets⟩ := mixed second first
      exact ⟨address.symm, amount.symm, fun free => (assets free).symm⟩
    · obtain rfl := Option.some.inj (first.symm.trans second)
      exact ⟨rfl, rfl, fun _ => rfl⟩

/-- What is known stays known under a further source. -/
private theorem look_grows (source : Source) {before : FullRef} (found : look mempool batch sources ref = some before) :
    ∃ after, look mempool batch (sources ++ [source]) ref = some after := by
  rw [← Option.ne_none_iff_exists']
  intro nothing
  rw [look, Option.or_eq_none_iff] at nothing
  rw [look, Option.or_eq_some_iff] at found
  rcases found with found | ⟨-, found⟩
  · split at found
    · rename_i used
      rw [if_pos (List.mem_append_left _ used), found] at nothing
      cases nothing.1
    · cases found
  · split at found
    · rename_i used
      rw [if_pos (List.mem_append_left _ used), found] at nothing
      cases nothing.2
    · cases found

/-- One source more: the input it meets goes where the original one goes. -/
theorem alike_step {scriptValid : Bool} {lookup : OutputRef → Option FullRef} {original input : TransactionInput}
    (compatible : Compatible mempool batch original.ref)
    (looked : ¬ Spare scriptValid input → input.isReference = false → input.amount = 0 →
      lookup input.ref = own mempool batch source input.ref)
    (alike : Alike scriptValid (Contested mempool batch original.ref) input
      (resolveInput (look mempool batch sources) original)) :
    Alike scriptValid (Contested mempool batch original.ref) (resolveInput lookup input)
      (resolveInput (look mempool batch (sources ++ [source])) original) := by
  have left := resolveInput_flags lookup input
  have right := resolveInput_flags (look mempool batch (sources ++ [source])) original
  have start := resolveInput_flags (look mempool batch sources) original
  have sameSpare : Spare scriptValid (resolveInput lookup input) ↔ Spare scriptValid input := by
    rw [Spare, Spare, left.2.2.1]
  have reference : input.isReference = original.isReference := alike.isReference.trans start.2.1
  rw [alike.ref.trans start.1] at looked
  have values (kept : ¬ Spare scriptValid input) :
      (resolveInput lookup input).address = (resolveInput (look mempool batch (sources ++ [source])) original).address ∧
      (resolveInput lookup input).amount = (resolveInput (look mempool batch (sources ++ [source])) original).amount ∧
      (¬ Contested mempool batch original.ref → (resolveInput lookup input).assets =
        (resolveInput (look mempool batch (sources ++ [source])) original).assets) := by
    have address := alike.address kept
    have amount := alike.amount kept
    have assets := alike.assets kept
    by_cases fixed : original.isReference = true ∨ 0 < original.amount
    · rw [resolveInput_fixed fixed] at address amount assets ⊢
      rw [resolveInput_fixed (by rwa [reference, amount])]
      exact ⟨address, amount, assets⟩
    · rw [not_or, Bool.not_eq_true, Nat.not_lt, Nat.le_zero] at fixed
      rw [resolveInput_unresolved fixed.1 fixed.2] at address amount assets ⊢
      cases found : look mempool batch sources original.ref with
      | none =>
        rw [found] at address amount assets
        rw [look_unknown found, resolveInput_unresolved (reference.trans fixed.1) (amount.trans fixed.2),
          alike.ref.trans start.1, looked kept (reference.trans fixed.1) (amount.trans fixed.2)]
        cases own mempool batch source original.ref with
        | none => exact ⟨address, amount, assets⟩
        | some resolved => exact ⟨rfl, rfl, fun free => by simp only [assets free]⟩
      | some before =>
        obtain ⟨after, further⟩ := look_grows source found
        rw [found] at address amount assets
        rw [further]
        have known := compatible.same (known_of_look found) (known_of_look further)
        have unchanged : input.address = after.address ∧ input.amount = after.amount ∧
            (¬ Contested mempool batch original.ref → input.assets = after.assets.or original.assets) :=
          ⟨address.trans known.1, amount.trans known.2.1, fun free => by rw [assets free, ← known.2.2 free]⟩
        by_cases positive : 0 < input.amount
        · rw [resolveInput_fixed (.inr positive)]
          exact unchanged
        · have zero : input.amount = 0 := Nat.eq_zero_of_not_pos positive
          rw [resolveInput_unresolved (reference.trans fixed.1) zero, alike.ref.trans start.1,
            looked kept (reference.trans fixed.1) zero]
          cases told : own mempool batch source original.ref with
          | none => exact unchanged
          | some resolved =>
            have same := compatible.same (known_of_own told) (known_of_look further)
            refine ⟨same.1, same.2.1, fun free => ?_⟩
            simp only [unchanged.2.2 free, same.2.2 free, ← Option.or_assoc, Option.or_self]
  exact {
    ref := left.1.trans (alike.ref.trans (start.1.trans right.1.symm))
    isReference := left.2.1.trans (reference.trans right.2.1.symm)
    isCollateral := left.2.2.1.trans (alike.isCollateral.trans (start.2.2.1.trans right.2.2.1.symm))
    isUnspentAttempt := left.2.2.2.trans (alike.isUnspentAttempt.trans (start.2.2.2.trans right.2.2.2.symm))
    address := fun kept => (values (kept ∘ sameSpare.mpr)).1
    amount := fun kept => (values (kept ∘ sameSpare.mpr)).2.1
    assets := fun kept => (values (kept ∘ sameSpare.mpr)).2.2 }

/-- An address once shown stays. -/
theorem address_stays {original : TransactionInput} (compatible : Compatible mempool batch original.ref)
    (blank : original.amount = 0 → original.address = "")
    (shown : (resolveInput (look mempool batch sources) original).address ≠ "") :
    (resolveInput (look mempool batch (sources ++ [source])) original).address =
      (resolveInput (look mempool batch sources) original).address := by
  by_cases fixed : original.isReference = true ∨ 0 < original.amount
  · rw [resolveInput_fixed fixed, resolveInput_fixed fixed]
  · rw [not_or, Bool.not_eq_true, Nat.not_lt, Nat.le_zero] at fixed
    rw [resolveInput_unresolved fixed.1 fixed.2] at shown ⊢
    rw [resolveInput_unresolved fixed.1 fixed.2]
    cases found : look mempool batch sources original.ref with
    | none =>
      rw [found] at shown
      exact absurd (blank fixed.2) shown
    | some before =>
      obtain ⟨after, further⟩ := look_grows source found
      rw [further]
      exact (compatible.same (known_of_look further) (known_of_look found)).1

/-- Two runs through both sources look up the same. -/
theorem look_of_both {others : List Source} (mempoolUsed : Source.mempool ∈ sources)
    (warehouseUsed : Source.warehouse ∈ sources) (mempoolUsed' : Source.mempool ∈ others)
    (warehouseUsed' : Source.warehouse ∈ others) : look mempool batch sources = look mempool batch others := by
  funext ref
  simp only [look, mempoolUsed, warehouseUsed, mempoolUsed', warehouseUsed']

end Steps

end Inputs

/-! ## Runs -/

/-- What a run through `sources` has made of a transaction of the batch. -/
structure Settled (txs : List NormalizedTransaction) (sources : List Source) (original tx : NormalizedTransaction) :
    Prop where
  txHash : tx.txHash = original.txHash
  fee : tx.fee = original.fee
  outputs : tx.outputs = original.outputs
  withdrawal : tx.withdrawalTotal = original.withdrawalTotal
  scriptValid : tx.scriptValid = original.scriptValid
  inputs : List.Forall₂ (fun originalInput input =>
    Alike original.scriptValid (Contested (cache original.txHash) (known warehouse txs) originalInput.ref) input
      (resolveInput (look (cache original.txHash) (known warehouse txs) sources) originalInput))
    original.inputs tx.inputs
  total : Source.mempool ∈ sources → tx.totalInputValue = shownTotal (consumedValue tx tx.inputs)
  kept : original.addresses ⊆ tx.addresses
  named : tx.addresses ⊆ original.addresses ∪ flowAddresses original.scriptValid tx.inputs
  flow : Source.mempool ∈ sources → flowAddresses original.scriptValid tx.inputs ⊆ tx.addresses

variable {cache warehouse}

theorem mem_flowAddresses {scriptValid : Bool} {inputs : List TransactionInput} {address : String} :
    address ∈ flowAddresses scriptValid inputs ↔
      ∃ input ∈ inputs, input.address = address ∧ address ≠ "" ∧ input.isReference = false ∧
        ¬ Spare scriptValid input := by
  simp only [flowAddresses, List.mem_toFinset, List.mem_map, List.mem_filter, Bool.and_eq_true, Bool.not_eq_true',
    Bool.or_eq_true, decide_eq_true_eq, Spare]
  constructor
  · rintro ⟨input, ⟨member, ⟨shown, reference⟩, free⟩, rfl⟩
    refine ⟨input, member, rfl, shown, reference, fun spare => ?_⟩
    rw [spare.1, spare.2] at free
    cases free <;> contradiction
  · rintro ⟨input, member, rfl, shown, reference, free⟩
    refine ⟨input, ⟨member, ⟨shown, reference⟩, ?_⟩, rfl⟩
    cases collateral : input.isCollateral with
    | false => exact .inl rfl
    | true =>
      refine .inr ?_
      cases valid : scriptValid with
      | false => rfl
      | true => exact absurd ⟨collateral, valid⟩ free

section Lists
variable {α β : Type} {R S : α → β → Prop} {ones : List α} {others : List β}

private theorem forall₂_imp_mem (related : List.Forall₂ R ones others)
    (imp : ∀ one ∈ ones, ∀ other ∈ others, R one other → S one other) : List.Forall₂ S ones others := by
  induction related with
  | nil => exact .nil
  | cons head _ ih =>
    exact .cons (imp _ List.mem_cons_self _ List.mem_cons_self head)
      (ih fun one member other member' =>
        imp one (List.mem_cons_of_mem _ member) other (List.mem_cons_of_mem _ member'))

private theorem exists_of_mem_right (related : List.Forall₂ R ones others) {other : β} (member : other ∈ others) :
    ∃ one ∈ ones, R one other := by
  induction related with
  | nil => cases member
  | cons head _ ih =>
    rcases List.mem_cons.mp member with rfl | member
    · exact ⟨_, List.mem_cons_self, head⟩
    · obtain ⟨one, inside, related⟩ := ih member
      exact ⟨one, List.mem_cons_of_mem _ inside, related⟩

private theorem forall₂_join {γ : Type} {thirds : List γ} {S : α → γ → Prop} {T : β → γ → Prop}
    (first : List.Forall₂ R ones others) (second : List.Forall₂ S ones thirds)
    (join : ∀ one other third, R one other → S one third → T other third) : List.Forall₂ T others thirds := by
  induction first generalizing thirds with
  | nil =>
    cases second
    exact .nil
  | cons head _ ih =>
    cases second with
    | cons head' rest => exact .cons (join _ _ _ head head') (ih rest)

end Lists

section Transaction
variable {txs : List NormalizedTransaction} {sources : List Source} {source : Source}
variable {original tx : NormalizedTransaction} {lookup : OutputRef → Option FullRef}

/-- The lookup of a step answers what its source knows, for the inputs it may resolve. -/
def Looked (cache : String → OutputRef → Option FullRef) (warehouse : OutputRef → Option ResolvedRef)
    (txs : List NormalizedTransaction) (source : Source) (original tx : NormalizedTransaction)
    (lookup : OutputRef → Option FullRef) : Prop :=
  ∀ input ∈ tx.inputs, ¬ Spare original.scriptValid input → input.isReference = false → input.amount = 0 →
    lookup input.ref = own (cache original.txHash) (known warehouse txs) source input.ref

private theorem Settled.inputs_step (settled : Settled cache warehouse txs sources original tx)
    (compatible : ∀ input ∈ original.inputs, Compatible (cache original.txHash) (known warehouse txs) input.ref)
    (looked : Looked cache warehouse txs source original tx lookup) :
    List.Forall₂ (fun originalInput input =>
      Alike original.scriptValid (Contested (cache original.txHash) (known warehouse txs) originalInput.ref) input
        (resolveInput (look (cache original.txHash) (known warehouse txs) (sources ++ [source])) originalInput))
      original.inputs (tx.inputs.map (resolveInput lookup)) := by
  rw [List.forall₂_map_right_iff]
  refine forall₂_imp_mem settled.inputs fun originalInput member input inside alike => ?_
  exact alike_step (compatible originalInput member) (looked input inside) alike

/-- An input address that counts as a party counts on. -/
private theorem Settled.flow_grows (settled : Settled cache warehouse txs sources original tx)
    (compatible : ∀ input ∈ original.inputs, Compatible (cache original.txHash) (known warehouse txs) input.ref)
    (blank : ∀ input ∈ original.inputs, input.amount = 0 → input.address = "")
    (looked : Looked cache warehouse txs source original tx lookup) :
    flowAddresses original.scriptValid tx.inputs ⊆
      flowAddresses original.scriptValid (tx.inputs.map (resolveInput lookup)) := by
  intro address named
  obtain ⟨input, inside, rfl, shown, reference, kept⟩ := mem_flowAddresses.mp named
  obtain ⟨originalInput, member, alike⟩ := exists_of_mem_right settled.inputs inside
  have flags := resolveInput_flags lookup input
  have next := alike_step (compatible originalInput member) (looked input inside) alike
  have nextKept : ¬ Spare original.scriptValid (resolveInput lookup input) := by
    rwa [Spare, flags.2.2.1]
  have stays := @address_stays _ _ sources source _ (compatible originalInput member) (blank originalInput member)
    (alike.address kept ▸ shown)
  refine mem_flowAddresses.mpr ⟨_, List.mem_map_of_mem inside, ?_, shown, flags.2.1.trans reference, nextKept⟩
  exact (next.address nextKept).trans (stays.trans (alike.address kept).symm)

/-- A source that rewrites the transaction. -/
theorem Settled.rewritten (settled : Settled cache warehouse txs sources original tx)
    (compatible : ∀ input ∈ original.inputs, Compatible (cache original.txHash) (known warehouse txs) input.ref)
    (blank : ∀ input ∈ original.inputs, input.amount = 0 → input.address = "")
    (looked : Looked cache warehouse txs source original tx lookup) :
    Settled cache warehouse txs (sources ++ [source]) original (applyResolvedInputs lookup tx) where
  txHash := settled.txHash
  fee := settled.fee
  outputs := settled.outputs
  withdrawal := settled.withdrawal
  scriptValid := settled.scriptValid
  inputs := settled.inputs_step compatible looked
  total := fun _ => rfl
  kept := settled.kept.trans Finset.subset_union_left
  named := by
    have grown := settled.flow_grows compatible blank looked
    simp only [applyResolvedInputs, settled.scriptValid]
    exact Finset.union_subset (settled.named.trans (Finset.union_subset_union_right grown)) Finset.subset_union_right
  flow := fun _ => by
    simp only [applyResolvedInputs, settled.scriptValid]
    exact Finset.subset_union_right

/-- The batch path, where nothing newly resolves, leaves the transaction as it is. -/
theorem Settled.untouched (settled : Settled cache warehouse txs sources original tx)
    (compatible : ∀ input ∈ original.inputs, Compatible (cache original.txHash) (known warehouse txs) input.ref)
    (looked : Looked cache warehouse txs .warehouse original tx lookup)
    (still : ∀ input ∈ tx.inputs, newlyResolved lookup input = false) :
    Settled cache warehouse txs (sources ++ [.warehouse]) original tx := by
  have used : Source.mempool ∈ sources ++ [Source.warehouse] → Source.mempool ∈ sources := by simp
  have same : tx.inputs.map (resolveInput lookup) = tx.inputs :=
    (List.map_congr_left fun input inside => resolveInput_of_not (still input inside)).trans (List.map_id _)
  have inputs := settled.inputs_step compatible looked
  rw [same] at inputs
  exact { settled with inputs := inputs, total := settled.total ∘ used, flow := settled.flow ∘ used }

end Transaction

section Batch
variable {txs current : List NormalizedTransaction} {sources : List Source}

private theorem compatible_of_agree (agree : Agree cache warehouse txs) {original : NormalizedTransaction}
    (member : original ∈ txs) :
    ∀ input ∈ original.inputs, Compatible (cache original.txHash) (known warehouse txs) input.ref := by
  refine fun input inside => ⟨agree original member input inside, fun other found => ?_⟩
  obtain ⟨resolved, -, rfl⟩ := Option.map_eq_some_iff.mp found
  rfl

/-- No source changes what the batch itself knows. -/
private theorem intraBlock_settled (settled : List.Forall₂ (Settled cache warehouse txs sources) txs current) :
    intraBlock current = intraBlock txs := by
  have outputs : current.flatMap outputRefs = txs.flatMap outputRefs := by
    have general {ones others : List NormalizedTransaction}
        (each : List.Forall₂ (Settled cache warehouse txs sources) ones others) :
        others.flatMap outputRefs = ones.flatMap outputRefs := by
      induction each with
      | nil => rfl
      | cons head _ ih =>
        rw [List.flatMap_cons, List.flatMap_cons, ih, outputRefs, outputRefs, head.txHash, head.outputs]
    exact general settled
  funext ref
  rw [intraBlock, intraBlock, outputs]

/-- The lookup of the batch path knows all the path can know of an input that it may resolve and
that is not spare. -/
private theorem looked_batch (settled : List.Forall₂ (Settled cache warehouse txs sources) txs current)
    {original tx : NormalizedTransaction} (member : tx ∈ current) (valid : tx.scriptValid = original.scriptValid) :
    Looked cache warehouse txs .warehouse original tx fun ref => (batchLookup warehouse current ref).map plain := by
  intro input inside kept reference zero
  simp only [own, known, batchLookup, intraBlock_settled settled]
  cases here : intraBlock txs input.ref with
  | some resolved => rfl
  | none =>
    have worth : worthLookup tx input = true := by
      simp only [worthLookup, reference, zero, valid, Bool.not_false, Bool.true_and, decide_true, Bool.and_true,
        Bool.not_eq_true', Bool.and_eq_false_iff]
      by_contra spare
      rw [not_or, Bool.not_eq_false, Bool.not_eq_false] at spare
      exact kept spare
    have asked : input.ref ∈ crossBlockRefs current := by
      refine List.mem_flatMap.mpr ⟨tx, member, List.mem_filter.mpr ⟨List.mem_map_of_mem
        (List.mem_filter.mpr ⟨inside, worth⟩), ?_⟩⟩
      rw [intraBlock_settled settled, here]
      rfl
    simp only [Option.none_or, getOutputsForRefs, asked, if_true]

/-- One source more settles every transaction of the batch further. -/
theorem settled_apply (agree : Agree cache warehouse txs) (blank : Blank txs) (source : Source)
    (settled : List.Forall₂ (Settled cache warehouse txs sources) txs current) :
    List.Forall₂ (Settled cache warehouse txs (sources ++ [source])) txs (apply cache warehouse source current) := by
  cases source with
  | mempool =>
    rw [apply, List.forall₂_map_right_iff]
    refine forall₂_imp_mem settled fun original member tx _ before => ?_
    exact before.rewritten (compatible_of_agree agree member) (blank original member)
      fun input _ _ _ _ => by rw [before.txHash, own]
  | warehouse =>
    rw [apply, resolveInputAmounts, List.forall₂_map_right_iff]
    refine forall₂_imp_mem settled fun original member tx inside before => ?_
    have compatible := compatible_of_agree agree member
    have looked := looked_batch settled inside before.scriptValid
    rw [resolveTx_eq]
    split
    · exact before.rewritten compatible (blank original member) looked
    · rename_i still
      rw [not_or, Bool.not_eq_true, List.any_eq_false] at still
      exact before.untouched compatible looked fun input inside => Bool.not_eq_true _ ▸ still.1 input inside

theorem settled_applyAll (agree : Agree cache warehouse txs) (blank : Blank txs) (sources : List Source) :
    List.Forall₂ (Settled cache warehouse txs sources) txs (applyAll cache warehouse sources txs) := by
  induction sources using List.reverseRecOn with
  | nil =>
    rw [applyAll, List.foldl_nil, List.forall₂_same]
    intro tx _
    have same (input : TransactionInput) :
        resolveInput (look (cache tx.txHash) (known warehouse txs) []) input = input := by
      apply resolveInput_of_not
      simp [newlyResolved, look]
    refine ⟨rfl, rfl, rfl, rfl, rfl, List.forall₂_same.mpr fun input _ => ?_, ?_, subset_rfl,
      Finset.subset_union_left, ?_⟩
    · rw [same]
      exact .refl input
    · exact fun used => nomatch used
    · exact fun used => nomatch used
  | append_singleton sources source ih =>
    rw [applyAll, List.foldl_append, List.foldl_cons, List.foldl_nil]
    exact settled_apply agree blank source ih

end Batch

/-! ## The results -/

/-- Two results of the same transaction: alike in every input, and the same in all the rest. -/
structure SameResult (contested : OutputRef → Prop) (one other : NormalizedTransaction) : Prop where
  txHash : one.txHash = other.txHash
  fee : one.fee = other.fee
  outputs : one.outputs = other.outputs
  withdrawal : one.withdrawalTotal = other.withdrawalTotal
  scriptValid : one.scriptValid = other.scriptValid
  inputs : List.Forall₂ (fun input another => Alike one.scriptValid (contested input.ref) input another)
    one.inputs other.inputs
  total : one.totalInputValue = other.totalInputValue
  addresses : one.addresses = other.addresses

/-- What resolution leaves of an input. -/
def SameFlags (original input : TransactionInput) : Prop :=
  input.ref = original.ref ∧ input.isReference = original.isReference ∧
    input.isCollateral = original.isCollateral ∧ input.isUnspentAttempt = original.isUnspentAttempt

private theorem consumedValue_alike {one other : NormalizedTransaction} {contested : TransactionInput → Prop}
    (withdrawal : one.withdrawalTotal = other.withdrawalTotal) (valid : one.scriptValid = other.scriptValid)
    {ones others : List TransactionInput}
    (alike : List.Forall₂ (fun input another => Alike one.scriptValid (contested input) input another) ones others) :
    consumedValue one ones = consumedValue other others := by
  have sums : (ones.map fun input => if input.consumedByLedger one.scriptValid then input.amount else 0) =
      others.map fun input => if input.consumedByLedger other.scriptValid then input.amount else 0 := by
    rw [← valid]
    induction alike with
    | nil => rfl
    | cons head _ ih => rw [List.map_cons, List.map_cons, head.consumed, ih]
  rw [consumedValue, consumedValue, sums, Enrichment.withdrawalTotal, Enrichment.withdrawalTotal, valid, withdrawal]

private theorem flowAddresses_alike {scriptValid : Bool} {contested : TransactionInput → Prop}
    {ones others : List TransactionInput}
    (alike : List.Forall₂ (fun input another => Alike scriptValid (contested input) input another) ones others) :
    flowAddresses scriptValid ones = flowAddresses scriptValid others := by
  induction alike with
  | nil => rfl
  | @cons input another _ _ head _ ih =>
    ext address
    have rest := congrArg (address ∈ ·) ih
    simp only [eq_iff_iff, mem_flowAddresses] at rest
    simp only [mem_flowAddresses, List.exists_mem_cons_iff, rest, head.isReference, head.spare]
    by_cases spare : Spare scriptValid another
    · simp [spare]
    · rw [head.address (spare ∘ head.spare.mp)]

/-- A settled transaction is determined, up to spare inputs and contested assets, by which sources
were applied. -/
private theorem Settled.same {txs : List NormalizedTransaction} {sources others : List Source}
    {original one other : NormalizedTransaction} (first : Settled cache warehouse txs sources original one)
    (second : Settled cache warehouse txs others original other)
    (both : Source.mempool ∈ sources ∧ Source.warehouse ∈ sources)
    (bothOthers : Source.mempool ∈ others ∧ Source.warehouse ∈ others) :
    SameResult (Contested (cache original.txHash) (known warehouse txs)) one other := by
  have inputs : List.Forall₂ (fun input another => Alike one.scriptValid
      (Contested (cache original.txHash) (known warehouse txs) input.ref) input another) one.inputs other.inputs := by
    rw [first.scriptValid]
    refine forall₂_join first.inputs second.inputs fun originalInput input another left right => ?_
    rw [look_of_both bothOthers.1 bothOthers.2 both.1 both.2] at right
    have ref : input.ref = originalInput.ref := left.ref.trans (resolveInput_flags _ _).1
    rw [ref]
    exact left.trans right.symm
  have withdrawal := first.withdrawal.trans second.withdrawal.symm
  have valid := first.scriptValid.trans second.scriptValid.symm
  have flow := flowAddresses_alike inputs
  rw [first.scriptValid] at flow
  have addresses {sources : List Source} {tx : NormalizedTransaction}
      (settled : Settled cache warehouse txs sources original tx) (used : Source.mempool ∈ sources) :
      tx.addresses = original.addresses ∪ flowAddresses original.scriptValid tx.inputs :=
    Finset.Subset.antisymm settled.named (Finset.union_subset settled.kept (settled.flow used))
  exact {
    txHash := first.txHash.trans second.txHash.symm
    fee := first.fee.trans second.fee.symm
    outputs := first.outputs.trans second.outputs.symm
    withdrawal := withdrawal
    scriptValid := valid
    inputs := inputs
    total := by rw [first.total both.1, second.total bothOthers.1, consumedValue_alike withdrawal valid inputs]
    addresses := by rw [addresses first both.1, addresses second bothOthers.1, flow] }

/-- A lookup that knows the same or nothing finds nothing to change after the first. -/
private theorem resolveInput_again {lookup later : OutputRef → Option FullRef} {input : TransactionInput}
    (weaker : later input.ref = none ∨ later input.ref = lookup input.ref) :
    resolveInput later (resolveInput lookup input) = resolveInput lookup input := by
  by_cases fixed : input.isReference = true ∨ 0 < input.amount
  · rw [resolveInput_fixed fixed, resolveInput_fixed fixed]
  · rw [not_or, Bool.not_eq_true, Nat.not_lt, Nat.le_zero] at fixed
    have flags := resolveInput_flags lookup input
    by_cases positive : 0 < (resolveInput lookup input).amount
    · exact resolveInput_fixed (.inr positive)
    · rw [resolveInput_unresolved (flags.2.1.trans fixed.1) (Nat.eq_zero_of_not_pos positive), flags.1]
      rcases weaker with nothing | same
      · rw [nothing]
      · rw [same, resolveInput_unresolved fixed.1 fixed.2]
        cases lookup input.ref with
        | none => rfl
        | some resolved => simp only [← Option.or_assoc, Option.or_self]

/-- Applied again, with a lookup that knows no more, the core changes nothing. -/
private theorem applyResolvedInputs_again {lookup later : OutputRef → Option FullRef} {tx : NormalizedTransaction}
    (weaker : ∀ input ∈ tx.inputs, later input.ref = none ∨ later input.ref = lookup input.ref) :
    applyResolvedInputs later (applyResolvedInputs lookup tx) = applyResolvedInputs lookup tx := by
  have inputs : (tx.inputs.map (resolveInput lookup)).map (resolveInput later) =
      tx.inputs.map (resolveInput lookup) := by
    rw [List.map_map]
    exact List.map_congr_left fun input inside => resolveInput_again (weaker input inside)
  simp only [applyResolvedInputs, inputs, Finset.union_assoc, Finset.union_idempotent]
  rfl

/-- Resolution of a batch touches neither the outputs nor the flags of the inputs, and resolves
no reference a second time. -/
private theorem resolveTx_inputs (lookup : OutputRef → Option ResolvedRef) (tx : NormalizedTransaction) :
    (resolveTx lookup tx).inputs = tx.inputs.map (resolveInput fun ref => (lookup ref).map plain) ∧
      (resolveTx lookup tx).txHash = tx.txHash ∧ (resolveTx lookup tx).outputs = tx.outputs ∧
      (resolveTx lookup tx).scriptValid = tx.scriptValid := by
  rw [resolveTx_eq]
  split
  · exact ⟨rfl, rfl, rfl, rfl⟩
  · rename_i still
    rw [not_or, Bool.not_eq_true, List.any_eq_false] at still
    refine ⟨?_, rfl, rfl, rfl⟩
    exact ((List.map_congr_left fun input inside => resolveInput_of_not
      (Bool.eq_false_iff.mpr (still.1 input inside))).trans (List.map_id _)).symm

private theorem resolveTx_again {lookup later : OutputRef → Option ResolvedRef} {tx : NormalizedTransaction}
    (weaker : ∀ ref, later ref = none ∨ later ref = lookup ref) :
    resolveTx later (resolveTx lookup tx) = resolveTx lookup tx := by
  have plainer (ref : OutputRef) : (later ref).map plain = none ∨
      (later ref).map plain = (lookup ref).map plain := by
    rcases weaker ref with nothing | same
    · exact .inl (by rw [nothing]; rfl)
    · exact .inr (by rw [same])
  by_cases first : tx.inputs.any (newlyResolved fun ref => (lookup ref).map plain) = true ∨ 0 < withdrawalTotal tx
  · rw [resolveTx_eq lookup, if_pos first, resolveTx_eq]
    split
    · exact applyResolvedInputs_again fun input _ => plainer input.ref
    · rfl
  · rw [resolveTx_eq lookup, if_neg first, resolveTx_eq]
    refine if_neg fun second => first (second.imp_left fun newly => ?_)
    obtain ⟨input, inside, newly⟩ := List.any_eq_true.mp newly
    refine List.any_eq_true.mpr ⟨input, inside, ?_⟩
    rcases plainer input.ref with nothing | same
    · simp [newlyResolved, nothing] at newly
    · rwa [newlyResolved, ← same]

private theorem intraBlock_resolveInputAmounts (txs : List NormalizedTransaction) :
    intraBlock (resolveInputAmounts warehouse txs) = intraBlock txs := by
  have outputs : (resolveInputAmounts warehouse txs).flatMap outputRefs = txs.flatMap outputRefs := by
    rw [resolveInputAmounts, List.flatMap_map]
    refine List.flatMap_congr fun tx _ => ?_
    rw [outputRefs, outputRefs, (resolveTx_inputs _ tx).2.1, (resolveTx_inputs _ tx).2.2.1]
  funext ref
  rw [intraBlock, intraBlock, outputs]

/-- What is still worth a lookup after the batch path was so before. -/
private theorem crossBlockRefs_shrink (txs : List NormalizedTransaction) :
    crossBlockRefs (resolveInputAmounts warehouse txs) ⊆ crossBlockRefs txs := by
  intro ref asked
  simp only [crossBlockRefs, intraBlock_resolveInputAmounts, List.mem_flatMap, List.mem_filter, List.mem_map] at asked ⊢
  obtain ⟨resolved, member, ⟨input, ⟨inside, worth⟩, rfl⟩, absent⟩ := asked
  obtain ⟨tx, listed, rfl⟩ := List.mem_map.mp member
  obtain ⟨shape, -, -, valid⟩ := resolveTx_inputs (batchLookup warehouse txs) tx
  rw [shape] at inside
  obtain ⟨before, here, rfl⟩ := List.mem_map.mp inside
  have flags := resolveInput_flags (fun ref => (batchLookup warehouse txs ref).map plain) before
  refine ⟨tx, listed, ⟨before, ⟨here, ?_⟩, flags.1.symm⟩, absent⟩
  simp only [worthLookup, flags.2.1, flags.2.2.1, valid, Bool.and_eq_true, decide_eq_true_eq] at worth ⊢
  refine ⟨worth.1, ?_⟩
  by_contra positive
  rw [resolveInput_fixed (.inr (Nat.pos_of_ne_zero positive))] at worth
  exact positive worth.2

/-- The batch path, applied a second time in a row, finds nothing to change. -/
theorem resolveInputAmounts_idem (txs : List NormalizedTransaction) :
    resolveInputAmounts warehouse (resolveInputAmounts warehouse txs) = resolveInputAmounts warehouse txs := by
  have weaker (ref : OutputRef) : batchLookup warehouse (resolveInputAmounts warehouse txs) ref = none ∨
      batchLookup warehouse (resolveInputAmounts warehouse txs) ref = batchLookup warehouse txs ref := by
    simp only [batchLookup, intraBlock_resolveInputAmounts, getOutputsForRefs]
    cases intraBlock txs ref with
    | some resolved => exact .inr rfl
    | none =>
      by_cases asked : ref ∈ crossBlockRefs (resolveInputAmounts warehouse txs)
      · rw [if_pos asked, if_pos (crossBlockRefs_shrink txs asked)]
        exact .inr rfl
      · rw [if_neg asked]
        exact .inl rfl
  rw [resolveInputAmounts, resolveInputAmounts, List.map_map]
  rw [resolveInputAmounts] at weaker
  refine List.map_congr_left fun tx _ => ?_
  exact resolveTx_again weaker

/-- Any two runs through both sources end with the same transactions up to spare inputs and
contested assets, with the total of what the ledger consumed, and with the flags of the inputs
as they were; and a source applied twice in a row is applied once. -/
theorem resolution_in_any_order (cache : String → OutputRef → Option FullRef)
    (warehouse : OutputRef → Option ResolvedRef) (txs : List NormalizedTransaction)
    (agree : Agree cache warehouse txs) (blank : Blank txs) :
    (∀ sources others : List Source, .mempool ∈ sources ∧ .warehouse ∈ sources →
      .mempool ∈ others ∧ .warehouse ∈ others →
      List.Forall₂ (fun one other => SameResult (Contested (cache one.txHash) (known warehouse txs)) one other)
        (applyAll cache warehouse sources txs) (applyAll cache warehouse others txs)) ∧
    (∀ sources : List Source, .mempool ∈ sources →
      List.Forall₂ (fun original tx => tx.totalInputValue = shownTotal (consumedValue tx tx.inputs) ∧
        List.Forall₂ SameFlags original.inputs tx.inputs) txs (applyAll cache warehouse sources txs)) ∧
    ∀ source, apply cache warehouse source (apply cache warehouse source txs) = apply cache warehouse source txs := by
  refine ⟨fun sources others both bothOthers => ?_, fun sources used => ?_, fun source => ?_⟩
  · refine forall₂_join (settled_applyAll agree blank sources) (settled_applyAll agree blank others)
      fun original one other first second => ?_
    rw [first.txHash]
    exact first.same second both bothOthers
  · refine (settled_applyAll agree blank sources).imp fun original tx settled => ⟨settled.total used, ?_⟩
    refine settled.inputs.imp fun originalInput input alike => ?_
    have flags := resolveInput_flags (look (cache original.txHash) (known warehouse txs) sources) originalInput
    exact ⟨alike.ref.trans flags.1, alike.isReference.trans flags.2.1, alike.isCollateral.trans flags.2.2.1,
      alike.isUnspentAttempt.trans flags.2.2.2⟩
  · cases source with
    | mempool =>
      simp only [apply, List.map_map]
      exact List.map_congr_left fun tx _ => applyResolvedInputs_again fun _ _ => .inr rfl
    | warehouse => exact resolveInputAmounts_idem txs

/-- A valid transaction that spends one output. -/
def spender : NormalizedTransaction :=
  ⟨"spender", 0, [unresolved false false false ⟨"source", 0⟩], [], none, 0, ∅, true⟩

def tokenCache (_ : String) (_ : OutputRef) : Option FullRef := some ⟨"addr", 7, some [("token", 1)]⟩

def stored (_ : OutputRef) : Option ResolvedRef := some ⟨"addr", 7⟩

theorem agree_spender : Agree tokenCache stored [spender] := by
  intro tx member input _ one other first second
  obtain rfl := List.mem_singleton.mp member
  obtain rfl := Option.some.inj first
  obtain rfl : plain ⟨"addr", 7⟩ = other := Option.some.inj second
  exact ⟨rfl, rfl⟩

theorem blank_spender : Blank [spender] := by
  intro tx member input inside _
  obtain rfl := List.mem_singleton.mp member
  obtain rfl := List.mem_singleton.mp inside
  rfl

/-- Both orders give the one transaction the same total. -/
theorem spender_in_either_order :
    List.Forall₂ (fun one other => SameResult (Contested (tokenCache one.txHash) (known stored [spender])) one other)
      (applyAll tokenCache stored [.mempool, .warehouse] [spender])
      (applyAll tokenCache stored [.warehouse, .mempool] [spender]) :=
  (resolution_in_any_order tokenCache stored [spender] agree_spender blank_spender).1
    [.mempool, .warehouse] [.warehouse, .mempool] (by decide) (by decide)

/-- A valid transaction that offers the same output as collateral before it is spent. -/
def guarantor : NormalizedTransaction :=
  ⟨"guarantor", 0, [unresolved false true false ⟨"source", 0⟩], [], none, 0, ∅, true⟩

/-- An input without an amount that has an address already. -/
def stale : NormalizedTransaction :=
  ⟨"stale", 0, [{ unresolved false false false ⟨"source", 0⟩ with address := "old" }], [], none, 0, ∅, true⟩

def spenderCache (txHash : String) (_ : OutputRef) : Option FullRef :=
  if txHash = "spender" then some ⟨"addr", 7, none⟩ else none

private theorem agree_spenderCache (txs : List NormalizedTransaction)
    (blank : ∀ ref, known stored txs ref = some (plain ⟨"addr", 7⟩)) : Agree spenderCache stored txs := by
  intro tx _ input _ one other first second
  obtain rfl : plain ⟨"addr", 7⟩ = other := Option.some.inj ((blank input.ref).symm.trans second)
  rw [spenderCache] at first
  split at first
  · obtain rfl := Option.some.inj first
    exact ⟨rfl, rfl⟩
  · cases first

/-- The order shows in three places: the warehouse first, and an input never gets the native
assets the mempool saw; the mempool first, and the reference of spare collateral is no longer
looked up for the input that needed it, or an address without an amount is listed before it is
replaced. -/
theorem order_shows :
    (Agree tokenCache stored [spender] ∧
      (applyAll tokenCache stored [.mempool, .warehouse] [spender]).map (fun tx => tx.inputs.map (·.assets)) ≠
        (applyAll tokenCache stored [.warehouse, .mempool] [spender]).map fun tx => tx.inputs.map (·.assets)) ∧
    (Agree spenderCache stored [guarantor, spender] ∧
      (applyAll spenderCache stored [.mempool, .warehouse] [guarantor, spender]).map
          (fun tx => tx.inputs.map (·.amount)) ≠
        (applyAll spenderCache stored [.warehouse, .mempool] [guarantor, spender]).map
          fun tx => tx.inputs.map (·.amount)) ∧
    (Agree spenderCache stored [stale] ∧
      (applyAll spenderCache stored [.mempool, .warehouse] [stale]).map (·.addresses) ≠
        (applyAll spenderCache stored [.warehouse, .mempool] [stale]).map (·.addresses)) := by
  refine ⟨⟨agree_spender, by decide⟩, ⟨agree_spenderCache _ fun _ => rfl, by decide⟩,
    agree_spenderCache _ fun _ => rfl, by decide⟩

end TransactionMonitoring.ResolutionOrder
