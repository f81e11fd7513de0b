import Mathlib.Data.List.Basic

/-! Runs of a partial step function.

A component is a function from a state and an event to the next state, `none`
when the event cannot happen there.  A run is a list of events.  Safety is proved
once per step and lifted here to whole runs, optionally only for the runs whose
every step meets a condition on the state before it.
-/
namespace TransactionMonitoring.Runs

universe u v
variable {σ : Type u} {ε : Type v} (step : σ → ε → Option σ)

/-- The state after every event of the list, if each of them could happen. -/
def run (state : σ) : List ε → Option σ
  | [] => some state
  | event :: rest => (step state event).bind fun next => run next rest

/-- Each event of the run meets `condition` in the state it happens in. -/
def EveryStep (condition : σ → ε → Prop) (state : σ) : List ε → Prop
  | [] => True
  | event :: rest =>
      condition state event ∧ ∀ next, step state event = some next → EveryStep condition next rest

instance decidableEveryStep (condition : σ → ε → Prop)
    [decideCondition : ∀ state event, Decidable (condition state event)] :
    (state : σ) → (events : List ε) → Decidable (EveryStep step condition state events)
  | _, [] => isTrue trivial
  | state, event :: rest =>
      match found : step state event with
      | none => decidable_of_iff (condition state event)
          ⟨fun met => ⟨met, by simp [found]⟩, And.left⟩
      | some next =>
          have := decidableEveryStep condition next rest
          decidable_of_iff (condition state event ∧ EveryStep step condition next rest)
            ⟨fun met => ⟨met.1, by simpa [found] using met.2⟩, fun met => ⟨met.1, met.2 next found⟩⟩

@[simp] theorem run_nil (state : σ) : run step state [] = some state := rfl

theorem run_cons_iff {state last : σ} {event : ε} {rest : List ε} :
    run step state (event :: rest) = some last ↔
      ∃ next, step state event = some next ∧ run step next rest = some last := by
  simp [run, Option.bind_eq_some_iff]

theorem run_append (state : σ) (first second : List ε) :
    run step state (first ++ second) = (run step state first).bind fun next => run step next second := by
  induction first generalizing state with
  | nil => rfl
  | cons event rest ih =>
    cases stepped : step state event with
    | none => simp [run, stepped]
    | some next => simp [run, stepped, ih]

/-- A property kept by every step that meets the condition holds at the end of
every run whose steps all meet it. -/
theorem invariant_of_step {condition : σ → ε → Prop} {holds : σ → Prop}
    (kept : ∀ {state event next}, condition state event → holds state →
      step state event = some next → holds next)
    {state last : σ} {events : List ε} (initially : holds state)
    (met : EveryStep step condition state events) (reached : run step state events = some last) :
    holds last := by
  induction events generalizing state with
  | nil =>
    obtain rfl : state = last := by simpa using reached
    exact initially
  | cons event rest ih =>
    obtain ⟨next, stepped, later⟩ := (run_cons_iff step).mp reached
    exact ih (kept met.1 initially stepped) (met.2 next stepped) later

/-- A property kept by every step holds in every state a run reaches. -/
theorem invariant {holds : σ → Prop}
    (kept : ∀ {state event next}, holds state → step state event = some next → holds next)
    {state last : σ} {events : List ε} (initially : holds state)
    (reached : run step state events = some last) : holds last := by
  induction events generalizing state with
  | nil =>
    obtain rfl : state = last := by simpa using reached
    exact initially
  | cons event rest ih =>
    obtain ⟨next, stepped, later⟩ := (run_cons_iff step).mp reached
    exact ih (kept initially stepped) later

theorem everyStep_of_forall {condition : σ → ε → Prop} (met : ∀ state event, condition state event)
    (state : σ) (events : List ε) : EveryStep step condition state events := by
  induction events generalizing state with
  | nil => trivial
  | cons event rest ih => exact ⟨met state event, fun next _ => ih next⟩

theorem everyStep_and {first second : σ → ε → Prop} {state : σ} {events : List ε}
    (one : EveryStep step first state events) (other : EveryStep step second state events) :
    EveryStep step (fun state event => first state event ∧ second state event) state events := by
  induction events generalizing state with
  | nil => trivial
  | cons event rest ih =>
    exact ⟨⟨one.1, other.1⟩, fun next stepped => ih (one.2 next stepped) (other.2 next stepped)⟩

/-- One more event that meets the condition. -/
theorem everyStep_concat {condition : σ → ε → Prop} {state last : σ} {events : List ε} {event : ε}
    (met : EveryStep step condition state events) (reached : run step state events = some last)
    (metToo : condition last event) : EveryStep step condition state (events ++ [event]) := by
  induction events generalizing state with
  | nil =>
    obtain rfl : state = last := by simpa using reached
    exact ⟨metToo, fun _ _ => trivial⟩
  | cons first rest ih =>
    obtain ⟨next, stepped, later⟩ := (run_cons_iff step).mp reached
    refine ⟨met.1, fun other same => ?_⟩
    cases stepped.symm.trans same
    exact ih (met.2 next stepped) later

/-- A condition on events alone. -/
theorem everyStep_of_mem {condition : ε → Prop} {events : List ε} (met : ∀ event ∈ events, condition event)
    (state : σ) : EveryStep step (fun _ event => condition event) state events := by
  induction events generalizing state with
  | nil => trivial
  | cons event rest ih =>
    exact ⟨met event List.mem_cons_self, fun next _ => ih (fun later member => met later (.tail _ member)) next⟩

theorem everyStep_of_invariant {holds : σ → Prop}
    (kept : ∀ {state event next}, holds state → step state event = some next → holds next)
    {state : σ} (initially : holds state) (events : List ε) :
    EveryStep step (fun state _ => holds state) state events := by
  induction events generalizing state with
  | nil => trivial
  | cons event rest ih => exact ⟨initially, fun next stepped => ih (kept initially stepped)⟩

/-- Where a kept property and the condition of a step imply what is wanted of the step, every
step of a run that meets the condition is as wanted. -/
theorem everyStep_of_kept {condition wanted : σ → ε → Prop} {holds : σ → Prop}
    (kept : ∀ {state event next}, condition state event → holds state →
      step state event = some next → holds next)
    (implied : ∀ {state event}, condition state event → holds state → wanted state event)
    {state : σ} {events : List ε} (initially : holds state) (met : EveryStep step condition state events) :
    EveryStep step wanted state events := by
  induction events generalizing state with
  | nil => trivial
  | cons event rest ih =>
    exact ⟨implied met.1 initially, fun next stepped => ih (kept met.1 initially stepped) (met.2 next stepped)⟩

/-- Where a kept property makes two conditions of a step the same, the runs whose every step
meets one are those whose every step meets the other. -/
theorem everyStep_congr_of_kept {condition wanted : σ → ε → Prop} {holds : σ → Prop}
    (kept : ∀ {state event next}, condition state event → holds state →
      step state event = some next → holds next)
    (same : ∀ {state event}, holds state → (wanted state event ↔ condition state event))
    {state : σ} {events : List ε} (initially : holds state) :
    EveryStep step wanted state events ↔ EveryStep step condition state events := by
  constructor
  · refine everyStep_of_kept step ?_ ?_ initially
    · intro state event next met held stepped
      exact kept ((same held).mp met) held stepped
    · intro state event met held
      exact (same held).mp met
  · refine everyStep_of_kept step kept ?_ initially
    intro state event met held
    exact (same held).mpr met

/-- Where a step keeps a property exactly if it meets a condition, every step of a run keeps
it exactly if every step meets the condition. -/
theorem everyStep_iff_of {assumed condition : σ → ε → Prop} {holds : σ → Prop}
    (decided : ∀ {state event}, holds state → assumed state event →
      ((∀ next, step state event = some next → holds next) ↔ condition state event))
    {state : σ} {events : List ε} (initially : holds state) (met : EveryStep step assumed state events) :
    EveryStep step (fun state event => ∀ next, step state event = some next → holds next) state events ↔
      EveryStep step condition state events := by
  induction events generalizing state with
  | nil => exact Iff.rfl
  | cons event rest ih =>
    have first := decided initially met.1
    constructor
    · rintro ⟨kept, later⟩
      exact ⟨first.mp kept, fun next stepped =>
        (ih (kept next stepped) (met.2 next stepped)).mp (later next stepped)⟩
    · rintro ⟨satisfied, later⟩
      have kept := first.mpr satisfied
      exact ⟨kept, fun next stepped =>
        (ih (kept next stepped) (met.2 next stepped)).mpr (later next stepped)⟩

/-- The same where every event can happen in every state. -/
theorem everyStep_iff {condition : σ → ε → Prop} {holds : σ → Prop}
    (enabled : ∀ state event, ∃ next, step state event = some next)
    (decided : ∀ {state event next}, holds state → step state event = some next →
      (holds next ↔ condition state event))
    {state : σ} {events : List ε} (initially : holds state) :
    EveryStep step (fun state event => ∀ next, step state event = some next → holds next) state events ↔
      EveryStep step condition state events := by
  have always := everyStep_of_forall step (fun _ _ => trivial : ∀ (_ : σ) (_ : ε), True) state events
  refine everyStep_iff_of step (fun {state event} held _ => ?_) initially always
  obtain ⟨next, stepped⟩ := enabled state event
  rw [← decided held stepped]
  constructor
  · intro kept
    exact kept next stepped
  · intro kept other same
    obtain rfl : next = other := Option.some.inj (stepped.symm.trans same)
    exact kept

/-! ## States with one component per party

A party is found by its position and only that component changes.
-/

/-- Every component keeps a property that the moved one has. -/
theorem forall_mem_set {α : Type u} {parties : List α} {holds : α → Prop} {new : α}
    (all : ∀ party ∈ parties, holds party) (moved : holds new) (index : Nat) :
    ∀ party ∈ parties.set index new, holds party := by
  intro party member
  rcases List.mem_or_eq_of_mem_set member with kept | rfl
  · exact all party kept
  · exact moved

/-- Every component keeps a property that the added one has. -/
theorem forall_mem_concat {α : Type u} {parties : List α} {holds : α → Prop} {new : α}
    (all : ∀ party ∈ parties, holds party) (added : holds new) :
    ∀ party ∈ parties ++ [new], holds party := by
  intro party member
  rcases List.mem_append.mp member with kept | last
  · exact all party kept
  · obtain rfl := List.mem_singleton.mp last
    exact added

/-- Where the moved component only gains `holds`, some component has it afterwards iff
one had it before or the moved one has it now. -/
theorem exists_mem_set_iff {α : Type u} {parties : List α} {index : Nat} {old new : α}
    (found : parties[index]? = some old) {holds : α → Prop} (gains : holds old → holds new) :
    (∃ party ∈ parties.set index new, holds party) ↔ (∃ party ∈ parties, holds party) ∨ holds new := by
  obtain ⟨within, rfl⟩ := List.getElem?_eq_some_iff.mp found
  constructor
  · rintro ⟨party, member, held⟩
    rcases List.mem_or_eq_of_mem_set member with earlier | rfl
    · exact Or.inl ⟨party, earlier, held⟩
    · exact Or.inr held
  · rintro (⟨party, member, held⟩ | held)
    · obtain ⟨position, below, rfl⟩ := List.mem_iff_getElem.mp member
      by_cases moved : index = position
      · subst moved
        exact ⟨new, List.mem_set within new, gains held⟩
      · refine ⟨parties[position], List.mem_iff_getElem.mpr ⟨position, by simpa using below, ?_⟩, held⟩
        exact List.getElem_set_ne moved _
    · exact ⟨new, List.mem_set within new, held⟩

end TransactionMonitoring.Runs
