import Mathlib.Data.List.Basic

/-! Values as a JSON decoder returns them.

An object is its entries in order; a decoder leaves one entry a key. -/
namespace TransactionMonitoring

inductive Json where
  | null
  | bool (value : Bool)
  | int (value : Int)
  | float (shown : String)
  | text (value : String)
  | list (items : List Json)
  | dict (entries : List (String × Json))

namespace Json

/-- The value an object holds under a key. -/
def get (key : String) : Json → Option Json
  | .dict entries => (entries.find? fun entry => entry.1 = key).map Prod.snd
  | _ => none

/-- Whether the value counts as true. -/
def truthy : Json → Bool
  | .null => false
  | .bool value => value
  | .int value => decide (value ≠ 0)
  | .float shown => decide (shown ≠ "0.0" ∧ shown ≠ "-0.0")
  | .text value => decide (value ≠ "")
  | .list items => !items.isEmpty
  | .dict entries => !entries.isEmpty

theorem mem_of_get {key : String} {entries : List (String × Json)} {value : Json}
    (found : (dict entries).get key = some value) : (key, value) ∈ entries := by
  rw [get, Option.map_eq_some_iff] at found
  obtain ⟨⟨name, _⟩, found, rfl⟩ := found
  have same : name = key := by simpa using List.find?_some found
  subst same
  exact List.mem_of_find?_eq_some found

section
variable {key other : String} {value longer : Json} {before after : List (String × Json)}

theorem get_append : (dict (before ++ after)).get key = ((dict before).get key).or ((dict after).get key) := by
  simp only [Json.get, List.find?_append, Option.map_or]

theorem get_cons : (dict ((key, value) :: after)).get other =
    if key = other then some value else (dict after).get other := by
  simp only [Json.get, List.find?_cons]
  by_cases same : key = other
  · simp [same]
  · simp [same]

/-- A fresh key leaves the others what they were. -/
theorem get_added {found : Json} (fresh : ∀ entry ∈ before ++ after, entry.1 ≠ key)
    (held : (dict (before ++ after)).get other = some found) :
    (dict (before ++ (key, value) :: after)).get other = some found := by
  have different : key ≠ other := by
    rintro rfl
    exact fresh _ (mem_of_get held) rfl
  rwa [get_append, get_cons, if_neg different, ← get_append]

/-- Another value of one key leaves the others what they were. -/
theorem get_replaced (other : String) :
    (dict (before ++ (key, longer) :: after)).get other = (dict (before ++ (key, value) :: after)).get other ∨
      ((dict (before ++ (key, value) :: after)).get other = some value ∧
        (dict (before ++ (key, longer) :: after)).get other = some longer) := by
  rw [get_append, get_append, get_cons, get_cons]
  cases (dict before).get other with
  | some found => exact .inl rfl
  | none =>
    by_cases same : key = other
    · exact .inr (by simp [same])
    · exact .inl (by simp [same])

end

/-- No array or object of the value holds more than `width` entries. -/
inductive Within (width : Nat) : Json → Prop where
  | null : Within width .null
  | bool (value : Bool) : Within width (.bool value)
  | int (value : Int) : Within width (.int value)
  | float (shown : String) : Within width (.float shown)
  | text (value : String) : Within width (.text value)
  | list {items : List Json} (narrow : items.length ≤ width) (inside : ∀ item ∈ items, Within width item) :
      Within width (.list items)
  | dict {entries : List (String × Json)} (narrow : entries.length ≤ width)
      (inside : ∀ entry ∈ entries, Within width entry.2) : Within width (.dict entries)

theorem Within.get {width : Nat} {node value : Json} {key : String} (within : Within width node)
    (found : node.get key = some value) : Within width value := by
  cases within with
  | dict narrow inside => exact inside _ (mem_of_get found)
  | _ => cases found

theorem Within.of_list {width : Nat} {items : List Json} (within : Within width (.list items)) :
    items.length ≤ width ∧ ∀ item ∈ items, Within width item := by
  cases within with
  | list narrow inside => exact ⟨narrow, inside⟩

end Json

end TransactionMonitoring
