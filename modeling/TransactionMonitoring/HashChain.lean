import Mathlib.Data.List.Basic

/-! Chains of blocks linked by the name of the block below, for any blocks.

A chain is the list of its blocks, newest first.  A name determines its block, as a
collision-free hash does; the blocks below a block are then the same in every chain.  The
last block two chains have in common is the head of their longest common suffix.
-/
namespace TransactionMonitoring.HashChain

universe u v
variable {β : Type u} {ι : Type v}

section
variable (name : β → ι) (parent : β → Option ι)

/-- Every block names the one below it, and the lowest names none. -/
def Linked : List β → Prop
  | [] => True
  | block :: rest => parent block = rest.head?.map name ∧ Linked rest

instance decidableLinked [DecidableEq ι] : (chain : List β) → Decidable (Linked name parent chain)
  | [] => isTrue trivial
  | block :: rest =>
      have := decidableLinked rest
      inferInstanceAs (Decidable (parent block = rest.head?.map name ∧ Linked name parent rest))

variable {name parent}

theorem Linked.of_suffix {chain suffix : List β} (linked : Linked name parent chain)
    (below : suffix <:+ chain) : Linked name parent suffix := by
  induction chain with
  | nil =>
    obtain rfl := List.suffix_nil.mp below
    exact linked
  | cons block rest ih =>
    rcases List.suffix_cons_iff.mp below with rfl | later
    · exact linked
    · exact ih linked.2 later

/-- The blocks below a block are determined by it. -/
theorem Linked.rest_eq {block : β} {first second : List β} (one : Linked name parent (block :: first))
    (two : Linked name parent (block :: second))
    (named : ∀ left ∈ first, ∀ right ∈ second, name left = name right → left = right) :
    first = second := by
  induction first generalizing block second with
  | nil =>
    cases second with
    | nil => rfl
    | cons other rest =>
      have bottom := one.1.symm.trans two.1
      simp at bottom
  | cons left below ih =>
    cases second with
    | nil =>
      have bottom := one.1.symm.trans two.1
      simp at bottom
    | cons right rest =>
      have same : name left = name right := by simpa using one.1.symm.trans two.1
      obtain rfl := named left List.mem_cons_self right List.mem_cons_self same
      rw [ih one.2 two.2 fun left member right among =>
        named left (List.mem_cons_of_mem _ member) right (List.mem_cons_of_mem _ among)]

/-- A block in two chains has the same chain below it in both. -/
theorem Linked.suffix_of_mem {block : β} {first second rest : List β}
    (one : Linked name parent first) (two : Linked name parent second)
    (named : ∀ left ∈ first, ∀ right ∈ second, name left = name right → left = right)
    (below : block :: rest <:+ first) (shared : block ∈ second) : block :: rest <:+ second := by
  obtain ⟨newer, older, rfl⟩ := List.append_of_mem shared
  have lower : block :: older <:+ newer ++ block :: older := List.suffix_append _ _
  have same : rest = older := by
    refine (one.of_suffix below).rest_eq (two.of_suffix lower) ?_
    intro left member right among
    exact named left (below.subset (List.mem_cons_of_mem _ member)) right
      (lower.subset (List.mem_cons_of_mem _ among))
  rw [same]
  exact lower

end

section
variable [DecidableEq β]

/-- The longest common suffix: what two chains share. -/
def commonSuffix : List β → List β → List β
  | [], _ => []
  | block :: rest, other =>
      if block :: rest <:+ other then block :: rest else commonSuffix rest other

theorem commonSuffix_right (first second : List β) : commonSuffix first second <:+ second := by
  induction first with
  | nil => exact List.nil_suffix
  | cons block rest ih =>
    unfold commonSuffix
    split
    · assumption
    · exact ih

theorem suffix_commonSuffix {first second shared : List β} (left : shared <:+ first)
    (right : shared <:+ second) : shared <:+ commonSuffix first second := by
  induction first with
  | nil => exact left
  | cons block rest ih =>
    unfold commonSuffix
    split
    · exact left
    · rename_i differs
      rcases List.suffix_cons_iff.mp left with rfl | later
      · exact absurd right differs
      · exact ih later

end

end TransactionMonitoring.HashChain
