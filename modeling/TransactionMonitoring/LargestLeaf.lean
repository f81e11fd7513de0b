import Mathlib.Data.Nat.Size
import Mathlib.Order.MinMax
import Mathlib.Tactic.Tauto

/-! The largest leaf of a decoded datum.

The walk keeps a stack of what it still has to look at and goes by the types `cbor2` decodes
to.  A map inside a tag or a key is a frozen mapping there, which is no `dict`.
-/
namespace TransactionMonitoring.LargestLeaf

/-- A value as `cbor2` decodes it. -/
inductive Value where
  | bytes (blob : List UInt8)
  | text (value : String)
  | bool (value : Bool)
  | int (value : Int)
  | list (items : List Value)
  | tuple (items : List Value)
  | dict (entries : List (Value × Value))
  /-- A mapping that is no `dict`. -/
  | frozen (entries : List (Value × Value))
  | set (items : List Value)
  | tag (number : Nat) (value : Value)
  /-- A simple value, which has its number as `value`. -/
  | simple (value : Nat)
  | other

/-- The bytes of an integer, one for zero. -/
def intBytes (value : Int) : Nat := if (value.natAbs.size + 7) / 8 = 0 then 1 else (value.natAbs.size + 7) / 8

mutual

/-- How much there is to look at in a value. -/
def Value.weight : Value → Nat
  | .list items => 1 + weights items
  | .tuple items => 1 + weights items
  | .dict entries => 1 + entryWeights entries
  | .tag _ value => 1 + value.weight
  | .simple _ => 2
  | _ => 1

def weights : List Value → Nat
  | [] => 0
  | item :: rest => item.weight + weights rest

def entryWeights : List (Value × Value) → Nat
  | [] => 0
  | (key, value) :: rest => key.weight + value.weight + entryWeights rest

end

/-- The keys and values of a mapping as they are put on the stack. -/
def entryItems (entries : List (Value × Value)) : List Value := entries.flatMap fun entry => [entry.1, entry.2]

theorem weights_append (items others : List Value) : weights (items ++ others) = weights items + weights others := by
  induction items with
  | nil => simp [weights]
  | cons item rest ih =>
    simp only [List.cons_append, weights, ih]
    omega

theorem weights_reverse (items : List Value) : weights items.reverse = weights items := by
  induction items with
  | nil => rfl
  | cons item rest ih =>
    simp only [List.reverse_cons, weights_append, ih, weights]
    omega

theorem weights_entryItems (entries : List (Value × Value)) : weights (entryItems entries) = entryWeights entries := by
  induction entries with
  | nil => rfl
  | cons entry rest ih =>
    rw [entryItems] at ih ⊢
    simp only [List.flatMap_cons, weights_append, ih, weights, entryWeights]
    omega

/-- `stack.extend`; the top of the stack comes first. -/
def extend (stack items : List Value) : List Value := items.reverse ++ stack

theorem weights_extend (stack items : List Value) : weights (extend stack items) = weights items + weights stack := by
  rw [extend, weights_append, weights_reverse]

theorem forall_mem_extend {stack items : List Value} {holds : Value → Prop} :
    (∀ value ∈ extend stack items, holds value) ↔
      (∀ value ∈ items, holds value) ∧ ∀ value ∈ stack, holds value := by
  simp [extend, or_imp, forall_and]

/-- The loop of `_max_primitive_leaf_bytes`. -/
def drain (stack : List Value) (best : Nat) : Nat :=
  match stack with
  | [] => best
  | .bytes blob :: rest => drain rest (max best blob.length)
  | .text value :: rest => drain rest (max best value.utf8ByteSize)
  | .bool _ :: rest => drain rest best
  | .int value :: rest => drain rest (max best (intBytes value))
  | .list items :: rest => drain (extend rest items) best
  | .tuple items :: rest => drain (extend rest items) best
  | .dict entries :: rest => drain (extend rest (entryItems entries)) best
  | .tag _ value :: rest => drain (value :: rest) best
  | .simple value :: rest => drain (.int value :: rest) best
  | .frozen _ :: rest => drain rest best
  | .set _ :: rest => drain rest best
  | .other :: rest => drain rest best
termination_by weights stack
decreasing_by
  all_goals simp only [weights, Value.weight, weights_extend, weights_entryItems]
  all_goals omega

/-- `_max_primitive_leaf_bytes`. -/
def maxPrimitiveLeafBytes (obj : Value) : Nat := drain [obj] 0

/-! ## Leaves -/

mutual

/-- The sizes of the byte strings, texts and integers of a value; those in a frozen mapping or
a set only if the walk goes `through` them. -/
def Value.leafSizes (through : Bool) : Value → List Nat
  | .bytes blob => [blob.length]
  | .text value => [value.utf8ByteSize]
  | .int value => [intBytes value]
  | .simple value => [intBytes value]
  | .list items => itemSizes through items
  | .tuple items => itemSizes through items
  | .dict entries => entrySizes through entries
  | .tag _ value => value.leafSizes through
  | .frozen entries => if through then entrySizes through entries else []
  | .set items => if through then itemSizes through items else []
  | .bool _ => []
  | .other => []

def itemSizes (through : Bool) : List Value → List Nat
  | [] => []
  | item :: rest => item.leafSizes through ++ itemSizes through rest

def entrySizes (through : Bool) : List (Value × Value) → List Nat
  | [] => []
  | (key, value) :: rest => key.leafSizes through ++ value.leafSizes through ++ entrySizes through rest

end

/-- The largest of some sizes, zero if there is none. -/
def largest (sizes : List Nat) : Nat := sizes.foldr max 0

theorem largest_le_iff {sizes : List Nat} {bound : Nat} : largest sizes ≤ bound ↔ ∀ size ∈ sizes, size ≤ bound := by
  induction sizes with
  | nil => simp [largest]
  | cons size rest ih =>
    rw [largest, List.foldr_cons, ← largest, max_le_iff, ih, List.forall_mem_cons]

theorem le_largest_iff {sizes : List Nat} {size : Nat} :
    size ≤ largest sizes ↔ size = 0 ∨ ∃ other ∈ sizes, size ≤ other := by
  induction sizes with
  | nil => simp [largest]
  | cons other rest ih =>
    rw [largest, List.foldr_cons, ← largest, le_max_iff, ih]
    simp only [List.mem_cons, exists_eq_or_imp]
    tauto

theorem itemSizes_eq (through : Bool) (items : List Value) :
    itemSizes through items = items.flatMap (Value.leafSizes through) := by
  induction items with
  | nil => rfl
  | cons item rest ih => rw [itemSizes, ih, List.flatMap_cons]

theorem entrySizes_eq (through : Bool) (entries : List (Value × Value)) :
    entrySizes through entries = (entryItems entries).flatMap (Value.leafSizes through) := by
  induction entries with
  | nil => rfl
  | cons entry rest ih =>
    simp [entrySizes, ih, entryItems]

theorem forall_itemSizes {through : Bool} {items : List Value} {bound : Nat} :
    (∀ size ∈ itemSizes through items, size ≤ bound) ↔
      ∀ value ∈ items, ∀ size ∈ value.leafSizes through, size ≤ bound := by
  rw [itemSizes_eq, List.forall_mem_flatMap]

theorem forall_entrySizes {through : Bool} {entries : List (Value × Value)} {bound : Nat} :
    (∀ size ∈ entrySizes through entries, size ≤ bound) ↔
      ∀ value ∈ entryItems entries, ∀ size ∈ value.leafSizes through, size ≤ bound := by
  rw [entrySizes_eq, List.forall_mem_flatMap]

/-- The loop finds the largest of the leaves it goes to. -/
theorem drain_le_iff (stack : List Value) (best bound : Nat) :
    drain stack best ≤ bound ↔ best ≤ bound ∧ ∀ value ∈ stack, ∀ size ∈ value.leafSizes false, size ≤ bound := by
  have leaf : ∀ {best size : Nat} {rest : List Value}, (max best size ≤ bound ∧
      ∀ value ∈ rest, ∀ size ∈ value.leafSizes false, size ≤ bound) ↔
      best ≤ bound ∧ (∀ other ∈ [size], other ≤ bound) ∧
        ∀ value ∈ rest, ∀ size ∈ value.leafSizes false, size ≤ bound := by
    intro best size rest
    rw [max_le_iff, List.forall_mem_singleton, and_assoc]
  fun_induction drain stack best with
  | case1 best => simp
  | case2 best blob rest ih => exact ih.trans (by rw [List.forall_mem_cons, Value.leafSizes, leaf])
  | case3 best value rest ih => exact ih.trans (by rw [List.forall_mem_cons, Value.leafSizes, leaf])
  | case4 best value rest ih => simp [ih, Value.leafSizes]
  | case5 best value rest ih => exact ih.trans (by rw [List.forall_mem_cons, Value.leafSizes, leaf])
  | case6 best items rest ih =>
    exact ih.trans (by rw [forall_mem_extend, List.forall_mem_cons, Value.leafSizes, forall_itemSizes])
  | case7 best items rest ih =>
    exact ih.trans (by rw [forall_mem_extend, List.forall_mem_cons, Value.leafSizes, forall_itemSizes])
  | case8 best entries rest ih =>
    exact ih.trans (by rw [forall_mem_extend, List.forall_mem_cons, Value.leafSizes, forall_entrySizes])
  | case9 best number value rest ih =>
    exact ih.trans (by rw [List.forall_mem_cons, List.forall_mem_cons, Value.leafSizes])
  | case10 best value rest ih =>
    exact ih.trans (by rw [List.forall_mem_cons, List.forall_mem_cons, Value.leafSizes, Value.leafSizes])
  -- What the walk does not know has no leaves for it.
  | case11 best entries rest ih => simp [ih, Value.leafSizes]
  | case12 best items rest ih => simp [ih, Value.leafSizes]
  | case13 best rest ih => simp [ih, Value.leafSizes]

theorem maxPrimitiveLeafBytes_eq (obj : Value) : maxPrimitiveLeafBytes obj = largest (obj.leafSizes false) := by
  refine eq_of_forall_ge_iff fun bound => ?_
  rw [maxPrimitiveLeafBytes, drain_le_iff, largest_le_iff]
  simp

private theorem append_subset_append {sizes others : List Nat} {more further : List Nat} (first : sizes ⊆ more)
    (second : others ⊆ further) : sizes ++ others ⊆ more ++ further :=
  List.append_subset.mpr ⟨List.subset_append_of_subset_left further first,
    List.subset_append_of_subset_right more second⟩

mutual

/-- The leaves the walk goes to are leaves. -/
theorem leafSizes_subset : ∀ value : Value, value.leafSizes false ⊆ value.leafSizes true
  | .bytes _ => List.Subset.refl _
  | .text _ => List.Subset.refl _
  | .bool _ => List.Subset.refl _
  | .int _ => List.Subset.refl _
  | .list items => itemSizes_subset items
  | .tuple items => itemSizes_subset items
  | .dict entries => entrySizes_subset entries
  | .frozen _ => List.nil_subset _
  | .set _ => List.nil_subset _
  | .tag _ value => leafSizes_subset value
  | .simple _ => List.Subset.refl _
  | .other => List.Subset.refl _

theorem itemSizes_subset : ∀ items : List Value, itemSizes false items ⊆ itemSizes true items
  | [] => List.Subset.refl _
  | item :: rest => append_subset_append (leafSizes_subset item) (itemSizes_subset rest)

theorem entrySizes_subset : ∀ entries : List (Value × Value), entrySizes false entries ⊆ entrySizes true entries
  | [] => List.Subset.refl _
  | (key, value) :: rest =>
      append_subset_append (append_subset_append (leafSizes_subset key) (leafSizes_subset value))
        (entrySizes_subset rest)

end

/-- The walk finds the largest leaf of a datum exactly if no leaf in a frozen mapping or a set
is larger than all it goes to. -/
theorem maxPrimitiveLeafBytes_largest_iff (obj : Value) :
    maxPrimitiveLeafBytes obj = largest (obj.leafSizes true) ↔
      ∀ size ∈ obj.leafSizes true, size = 0 ∨ ∃ shown ∈ obj.leafSizes false, size ≤ shown := by
  have within : largest (obj.leafSizes false) ≤ largest (obj.leafSizes true) := by
    refine largest_le_iff.mpr fun size member => ?_
    exact le_largest_iff.mpr (Or.inr ⟨size, leafSizes_subset obj member, le_rfl⟩)
  rw [maxPrimitiveLeafBytes_eq, eq_comm, le_antisymm_iff, and_iff_left within, largest_le_iff]
  exact forall₂_congr fun size _ => le_largest_iff

/-- A constructor over a map with a long byte string and over a short one. -/
theorem leaf_of_map_in_constructor_missed :
    let datum : Value := .tag 121 (.tuple [.frozen [(.int 1, .bytes (List.replicate 60 255))], .bytes [1, 2]])
    maxPrimitiveLeafBytes datum = 2 ∧ largest (datum.leafSizes true) = 60 := by
  intro datum
  refine ⟨?_, by decide⟩
  rw [maxPrimitiveLeafBytes_eq]
  decide

end TransactionMonitoring.LargestLeaf
