import Mathlib.Data.List.AList

/-! Maps whose values are sets.

A key is in the map exactly as long as it has members: its set is made when the first member
is added and dropped with the last.  A set is a list without duplicates; nothing depends on
its order.
-/
namespace TransactionMonitoring.SetMaps

universe u v

/-- A map from keys to the non-empty sets of their members. -/
structure SetMap (κ : Type u) (ι : Type v) [DecidableEq κ] where
  sets : AList fun _ : κ => List ι
  inhabited : ∀ key set, sets.lookup key = some set → set ≠ []
  distinct : ∀ key set, sets.lookup key = some set → set.Nodup

namespace SetMap
variable {κ : Type u} {ι : Type v} [DecidableEq κ]

def empty : SetMap κ ι := ⟨∅, by simp, by simp⟩

/-- The members of a key, none for a key that is not in the map. -/
def members (map : SetMap κ ι) (key : κ) : List ι := (map.sets.lookup key).getD []

/-- The sets with one of them replaced, or dropped if nothing is left of it. -/
private def putSet (sets : AList fun _ : κ => List ι) (key : κ) : List ι → AList fun _ : κ => List ι
  | [] => sets.erase key
  | member :: rest => sets.insert key (member :: rest)

private theorem lookup_putSet (sets : AList fun _ : κ => List ι) (key other : κ) (set : List ι) :
    (putSet sets key set).lookup other =
      if other = key then (if set = [] then none else some set) else sets.lookup other := by
  cases set with
  | nil =>
    split
    · rename_i same
      subst same
      simp [putSet]
    · rename_i apart
      simp [putSet, AList.lookup_erase_ne apart]
  | cons member rest =>
    split
    · rename_i same
      subst same
      simp [putSet]
    · rename_i apart
      simp [putSet, AList.lookup_insert_ne apart]

/-- The map with the set of one key replaced. -/
def put (map : SetMap κ ι) (key : κ) (set : List ι) (distinct : set.Nodup) : SetMap κ ι where
  sets := putSet map.sets key set
  inhabited other found := by
    rw [lookup_putSet]
    split
    · split
      · rintro ⟨⟩
      · rename_i some
        rintro ⟨⟩
        exact some
    · exact map.inhabited other found
  distinct other found := by
    rw [lookup_putSet]
    split
    · split
      · rintro ⟨⟩
      · rintro ⟨⟩
        exact distinct
    · exact map.distinct other found

@[simp] theorem members_empty (key : κ) : (empty : SetMap κ ι).members key = [] := rfl

theorem members_put (map : SetMap κ ι) (key other : κ) (set : List ι) (distinct : set.Nodup) :
    (map.put key set distinct).members other = if other = key then set else map.members other := by
  simp only [members, put, lookup_putSet]
  split
  · split
    · rename_i none
      simp [none]
    · rfl
  · rfl

theorem nodup_members (map : SetMap κ ι) (key : κ) : (map.members key).Nodup := by
  unfold members
  cases found : map.sets.lookup key with
  | none => exact List.nodup_nil
  | some set => exact map.distinct key set found

/-- A key is in the map exactly if it has members. -/
theorem mem_sets_iff (map : SetMap κ ι) (key : κ) : key ∈ map.sets ↔ ∃ member, member ∈ map.members key := by
  unfold members
  rw [← AList.lookup_isSome]
  cases found : map.sets.lookup key with
  | none => simp
  | some set =>
    have held := map.inhabited key set found
    simpa using List.exists_mem_of_ne_nil set held

variable [DecidableEq ι]

/-- Adds a member to the set of a key, making the set if there is none. -/
def add (map : SetMap κ ι) (key : κ) (member : ι) : SetMap κ ι :=
  map.put key ((map.members key).insert member) (map.nodup_members key).insert

/-- Discards a member of the set of a key, and the set with the last of them. -/
def discard (map : SetMap κ ι) (key : κ) (member : ι) : SetMap κ ι :=
  map.put key ((map.members key).filter (· ≠ member)) ((map.nodup_members key).filter _)

theorem members_add (map : SetMap κ ι) (key other : κ) (member : ι) :
    (map.add key member).members other =
      if other = key then (map.members other).insert member else map.members other := by
  rw [add, members_put]
  split
  · rename_i same
    rw [same]
  · rfl

theorem members_discard (map : SetMap κ ι) (key other : κ) (member : ι) :
    (map.discard key member).members other =
      if other = key then (map.members other).filter (· ≠ member) else map.members other := by
  rw [discard, members_put]
  split
  · rename_i same
    rw [same]
  · rfl

/-- Adds a member to the sets of several keys. -/
def addAll (map : SetMap κ ι) (keys : List κ) (member : ι) : SetMap κ ι :=
  keys.foldl (fun map key => map.add key member) map

/-- Discards a member of the sets of several keys. -/
def discardAll (map : SetMap κ ι) (keys : List κ) (member : ι) : SetMap κ ι :=
  keys.foldl (fun map key => map.discard key member) map

theorem members_addAll (map : SetMap κ ι) (keys : List κ) (other : κ) (member : ι) :
    (map.addAll keys member).members other =
      if other ∈ keys then (map.members other).insert member else map.members other := by
  unfold addAll
  induction keys generalizing map with
  | nil => simp
  | cons key rest ih =>
    rw [List.foldl_cons, ih, members_add]
    by_cases here : other = key
    · subst here
      simp
    · simp [here]

theorem members_discardAll (map : SetMap κ ι) (keys : List κ) (other : κ) (member : ι) :
    (map.discardAll keys member).members other =
      if other ∈ keys then (map.members other).filter (· ≠ member) else map.members other := by
  unfold discardAll
  induction keys generalizing map with
  | nil => simp
  | cons key rest ih =>
    rw [List.foldl_cons, ih, members_discard]
    by_cases here : other = key
    · subst here
      have twice : ((map.members other).filter (· ≠ member)).filter (· ≠ member) =
          (map.members other).filter (· ≠ member) := by
        simp
      simp only [twice, if_true, ite_self, List.mem_cons_self]
    · simp [here]

theorem mem_addAll {map : SetMap κ ι} {keys : List κ} {other : κ} {member held : ι} :
    held ∈ (map.addAll keys member).members other ↔
      held ∈ map.members other ∨ (other ∈ keys ∧ held = member) := by
  rw [members_addAll]
  split
  · rename_i named
    rw [List.mem_insert_iff, or_comm]
    simp [named]
  · rename_i unnamed
    simp [unnamed]

theorem mem_discardAll {map : SetMap κ ι} {keys : List κ} {other : κ} {member held : ι} :
    held ∈ (map.discardAll keys member).members other ↔
      held ∈ map.members other ∧ ¬(other ∈ keys ∧ held = member) := by
  rw [members_discardAll]
  split
  · rename_i named
    simp [named]
  · rename_i unnamed
    simp [unnamed]

end SetMap
end TransactionMonitoring.SetMaps
