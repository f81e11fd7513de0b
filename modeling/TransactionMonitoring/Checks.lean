import Mathlib.Data.List.Basic

/-! Checks and other steps in sequence: the first that fails is what is reported. -/
namespace TransactionMonitoring.Checks

variable {ε α β : Type}

/-- Raises the error unless the condition holds. -/
def require (condition : Bool) (error : ε) : Except ε Unit := if condition then .ok () else .error error

/-- The check of each item, in order. -/
def each (check : α → Except ε Unit) : List α → Except ε Unit
  | [] => .ok ()
  | item :: rest => do
      check item
      each check rest

@[simp] theorem require_eq_ok_iff {condition : Bool} {error : ε} :
    require condition error = .ok () ↔ condition = true := by
  cases condition <;> simp [require]

@[simp] theorem bind_eq_ok_iff {first : Except ε α} {next : α → Except ε β} {result : β} :
    (first >>= next) = .ok result ↔ ∃ value, first = .ok value ∧ next value = .ok result := by
  cases first with
  | error error =>
    constructor
    · intro done
      cases done
    · rintro ⟨_, passes, _⟩
      cases passes
  | ok value =>
    constructor
    · intro done
      exact ⟨value, rfl, done⟩
    · rintro ⟨_, same, done⟩
      cases same
      exact done

/-- A step that returns nothing only has to pass. -/
@[simp] theorem then_eq_ok_iff {first : Except ε Unit} {next : Except ε β} {result : β} :
    (first >>= fun _ => next) = .ok result ↔ first = .ok () ∧ next = .ok result := by
  rw [bind_eq_ok_iff]
  constructor
  · rintro ⟨_, passes, done⟩
    exact ⟨passes, done⟩
  · rintro ⟨passes, done⟩
    exact ⟨(), passes, done⟩

@[simp] theorem each_eq_ok_iff {check : α → Except ε Unit} {items : List α} :
    each check items = .ok () ↔ ∀ item ∈ items, check item = .ok () := by
  induction items with
  | nil => simp [each]
  | cons item rest ih => rw [each, then_eq_ok_iff, ih, List.forall_mem_cons]

/-- Steps of which none raises give the list of what they return. -/
theorem mapM_eq_some {step : α → Option β} {result : α → β} {items : List α}
    (returns : ∀ item ∈ items, step item = some (result item)) : items.mapM step = some (items.map result) := by
  induction items with
  | nil => rfl
  | cons item rest ih =>
    have later := ih fun other member => returns other (List.mem_cons_of_mem _ member)
    rw [List.mapM_cons, returns item List.mem_cons_self, later]
    rfl

theorem anyM_eq_some {test : α → Option Bool} {result : α → Bool} {items : List α}
    (returns : ∀ item ∈ items, test item = some (result item)) : items.anyM test = some (items.any result) := by
  induction items with
  | nil => rfl
  | cons item rest ih =>
    rw [List.anyM, returns item List.mem_cons_self, ih fun other member =>
      returns other (List.mem_cons_of_mem _ member),
      List.any_cons]
    cases result item with
    | false => rfl
    | true => rfl

theorem filterM_eq_some {test : α → Option Bool} {result : α → Bool} {items : List α}
    (returns : ∀ item ∈ items, test item = some (result item)) : items.filterM test = some (items.filter result) := by
  have run : ∀ acc, items.filterAuxM test acc = some ((items.filter result).reverse ++ acc) := by
    induction items with
    | nil => exact fun _ => rfl
    | cons item rest ih =>
      intro acc
      have later := ih fun other member => returns other (List.mem_cons_of_mem _ member)
      rw [List.filterAuxM, returns item List.mem_cons_self, Option.bind_eq_bind, Option.bind_some, later,
        List.filter_cons]
      cases result item with
      | false => rfl
      | true => simp
  rw [List.filterM, run]
  simp

end TransactionMonitoring.Checks
