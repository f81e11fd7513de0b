import Mathlib.Data.Set.Insert
import Mathlib.Order.Basic

/-! Breadth-first layers of a relation.

A search from a start set towards a goal set goes through the elements layer by layer, each layer
holding what one step leads to and no earlier layer held.  The first layer with a step into the
goal is as far from the start as the shortest chain is long.
-/
namespace TransactionMonitoring.Layers

variable {α : Type} (step : α → α → Prop) (start goal : Set α)

/-- A layer, and all that has been seen up to it, the goal included. -/
def layers : ℕ → Set α × Set α
  | 0 => (start, goal ∪ start)
  | k + 1 =>
    let next := {b | (∃ a ∈ (layers k).1, step a b) ∧ b ∉ (layers k).2}
    (next, (layers k).2 ∪ next)

def layer (k : ℕ) : Set α := (layers step start goal k).1

def seen (k : ℕ) : Set α := (layers step start goal k).2

/-- A chain of so many steps into the goal. -/
inductive Leads : ℕ → α → Prop where
  | last {a b : α} (stepped : step a b) (reached : b ∈ goal) : Leads 1 a
  | more {n : ℕ} {a b : α} (stepped : step a b) (rest : Leads n b) : Leads (n + 1) a

/-- A step from the layer into the goal. -/
def Closes (k : ℕ) : Prop := ∃ a ∈ layer step start goal k, ∃ b ∈ goal, step a b

variable {step start goal}

theorem mem_seen_succ {k : ℕ} {b : α} :
    b ∈ seen step start goal (k + 1) ↔ b ∈ seen step start goal k ∨ b ∈ layer step start goal (k + 1) := Iff.rfl

theorem mem_seen {k : ℕ} {b : α} :
    b ∈ seen step start goal k ↔ b ∈ goal ∨ ∃ j ≤ k, b ∈ layer step start goal j := by
  induction k with
  | zero => simp [seen, layer, layers]
  | succ k ih =>
    rw [mem_seen_succ, ih]
    constructor
    · rintro ((reached | ⟨j, low, inside⟩) | inside)
      · exact .inl reached
      · exact .inr ⟨j, Nat.le_succ_of_le low, inside⟩
      · exact .inr ⟨k + 1, le_refl _, inside⟩
    · rintro (reached | ⟨j, low, inside⟩)
      · exact .inl (.inl reached)
      · rcases Nat.le_succ_iff.mp low with low | rfl
        · exact .inl (.inr ⟨j, low, inside⟩)
        · exact .inr inside

theorem not_goal_of_layer (apart : ∀ a ∈ start, a ∉ goal) {k : ℕ} {a : α} (inside : a ∈ layer step start goal k) :
    a ∉ goal := by
  cases k with
  | zero => exact apart a inside
  | succ k => exact fun reached => inside.2 (mem_seen.mpr (.inl reached))

/-- No element is in two layers. -/
theorem layer_unique {j k : ℕ} {a : α} (first : a ∈ layer step start goal j)
    (second : a ∈ layer step start goal k) : j = k := by
  have notEarlier {i l : ℕ} (early : a ∈ layer step start goal i) (late : a ∈ layer step start goal l) : ¬ i < l := by
    intro less
    cases l with
    | zero => cases less
    | succ l => exact late.2 (mem_seen.mpr (.inr ⟨i, Nat.le_of_lt_succ less, early⟩))
  rcases Nat.lt_trichotomy j k with less | same | less
  · exact absurd less (notEarlier first second)
  · exact same
  · exact absurd less (notEarlier second first)

/-- One step from a layer leads to the goal, to an earlier layer or to the next one. -/
theorem step_from_layer {k : ℕ} {a b : α} (inside : a ∈ layer step start goal k) (stepped : step a b)
    (outside : b ∉ goal) : ∃ j ≤ k + 1, b ∈ layer step start goal j := by
  by_cases known : b ∈ seen step start goal k
  · rcases mem_seen.mp known with reached | ⟨j, low, earlier⟩
    · exact absurd reached outside
    · exact ⟨j, Nat.le_succ_of_le low, earlier⟩
  · exact ⟨k + 1, le_refl _, ⟨a, inside, stepped⟩, known⟩

theorem leads_from_start {k n : ℕ} {a : α} (inside : a ∈ layer step start goal k) (leads : Leads step goal n a) :
    ∃ s ∈ start, Leads step goal (n + k) s := by
  induction k generalizing a n with
  | zero => exact ⟨a, inside, leads⟩
  | succ k ih =>
    obtain ⟨⟨p, earlier, stepped⟩, -⟩ := inside
    obtain ⟨s, started, whole⟩ := ih earlier (.more stepped leads)
    exact ⟨s, started, by rwa [Nat.add_right_comm, Nat.add_assoc] at whole⟩

theorem leads_of_closes {k : ℕ} (closes : Closes step start goal k) : ∃ s ∈ start, Leads step goal (k + 1) s := by
  obtain ⟨a, inside, b, reached, stepped⟩ := closes
  obtain ⟨s, started, leads⟩ := leads_from_start inside (.last stepped reached)
  exact ⟨s, started, by rwa [Nat.add_comm] at leads⟩

/-- A chain from a layer makes some layer close that is no deeper than the chain's last element
can be. -/
theorem closes_of_leads {k n : ℕ} {a : α} (inside : a ∈ layer step start goal k) (leads : Leads step goal n a) :
    ∃ j, j + 1 ≤ k + n ∧ Closes step start goal j := by
  induction leads generalizing k with
  | last stepped reached => exact ⟨k, le_refl _, _, inside, _, reached, stepped⟩
  | more stepped rest ih =>
    rename_i n a b
    by_cases reached : b ∈ goal
    · exact ⟨k, by omega, a, inside, b, reached, stepped⟩
    · obtain ⟨j, low, next⟩ := step_from_layer inside stepped reached
      obtain ⟨i, bound, closes⟩ := ih next
      exact ⟨i, by omega, closes⟩

/-- Chains within a length exist exactly when a layer below it closes. -/
theorem leads_iff_closes {n : ℕ} :
    (∃ m ≤ n, ∃ s ∈ start, Leads step goal m s) ↔ ∃ k < n, Closes step start goal k := by
  constructor
  · rintro ⟨m, short, s, started, leads⟩
    obtain ⟨k, bound, closes⟩ := closes_of_leads (k := 0) started leads
    exact ⟨k, by omega, closes⟩
  · rintro ⟨k, low, closes⟩
    obtain ⟨s, started, leads⟩ := leads_of_closes closes
    exact ⟨k + 1, low, s, started, leads⟩

/-- The first layer that closes is one below the length of the shortest chain. -/
theorem first_closes_shortest {k : ℕ} (first : ∀ j < k, ¬ Closes step start goal j) {m : ℕ} {s : α}
    (started : s ∈ start) (leads : Leads step goal m s) : k + 1 ≤ m := by
  obtain ⟨j, bound, closes⟩ := closes_of_leads (k := 0) started leads
  have late : ¬ j < k := fun early => first j early closes
  omega

/-- Behind a layer without steps to anything new there is nothing. -/
theorem layer_empty {k : ℕ} (empty : ∀ a, a ∉ layer step start goal k) {j : ℕ} (later : k ≤ j) :
    ∀ a, a ∉ layer step start goal j := by
  induction j, later using Nat.le_induction with
  | base => exact empty
  | succ j _ ih =>
    rintro b ⟨⟨a, inside, -⟩, -⟩
    exact ih a inside

theorem not_closes_of_empty {k : ℕ} (empty : ∀ a, a ∉ layer step start goal k) {j : ℕ} (later : k ≤ j) :
    ¬ Closes step start goal j := by
  rintro ⟨a, inside, -⟩
  exact layer_empty empty later a inside

end TransactionMonitoring.Layers
