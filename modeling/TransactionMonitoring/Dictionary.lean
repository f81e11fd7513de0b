import Mathlib.Data.List.Basic
import Mathlib.Data.List.Induction

/-! Dictionaries built entry by entry, for any keys and values.

Keys count as one where `same` says so.  A key that is inserted again keeps its place and its
first spelling and takes the new value.
-/
namespace TransactionMonitoring.Dictionary

universe u v
variable {α : Type u} {β : Type v} (same : α → α → Bool)

/-- Sets the value of a key. -/
def insert (dict : List (α × β)) (key : α) (value : β) : List (α × β) :=
  if dict.any fun entry => same entry.1 key then
    dict.map fun entry => if same entry.1 key then (entry.1, value) else entry
  else dict ++ [(key, value)]

/-- The dictionary of entries that are inserted in their order. -/
def ofEntries (entries : List (α × β)) : List (α × β) :=
  entries.foldl (fun dict entry => insert same dict entry.1 entry.2) []

/-- The key is not a repetition of one before it. -/
def FirstKey (entries : List (α × β)) (key : α) : Prop :=
  ∃ before value after, entries = before ++ (key, value) :: after ∧ ∀ entry ∈ before, same entry.1 key = false

/-- The value under the key is not replaced by one behind it. -/
def LastValue (entries : List (α × β)) (key : α) (value : β) : Prop :=
  ∃ before after, entries = before ++ (key, value) :: after ∧ ∀ entry ∈ after, same entry.1 key = false

variable {same}

theorem ofEntries_concat (entries : List (α × β)) (key : α) (value : β) :
    ofEntries same (entries ++ [(key, value)]) = insert same (ofEntries same entries) key value := by
  simp [ofEntries]

theorem keys_insert (dict : List (α × β)) (key : α) (value : β) :
    (insert same dict key value).map Prod.fst =
      if dict.any fun entry => same entry.1 key then dict.map Prod.fst else dict.map Prod.fst ++ [key] := by
  unfold insert
  split
  · rw [List.map_map]
    refine List.map_congr_left fun entry _ => ?_
    simp only [Function.comp_apply]
    split <;> rfl
  · simp

theorem firstKey_concat {entries : List (α × β)} {key other : α} {value : β} :
    FirstKey same (entries ++ [(key, value)]) other ↔
      FirstKey same entries other ∨ other = key ∧ ∀ entry ∈ entries, same entry.1 key = false := by
  constructor
  · rintro ⟨before, found, after, shape, fresh⟩
    rcases List.eq_nil_or_concat' after with rfl | ⟨others, last, rfl⟩
    · obtain ⟨rfl, one⟩ := List.append_inj' shape rfl
      obtain ⟨rfl, rfl⟩ : key = other ∧ value = found := by simpa using one
      exact Or.inr ⟨rfl, fresh⟩
    · rw [← List.cons_append, ← List.append_assoc] at shape
      obtain ⟨rfl, _⟩ := List.append_inj' shape rfl
      exact Or.inl ⟨before, found, others, rfl, fresh⟩
  · rintro (⟨before, found, after, rfl, fresh⟩ | ⟨rfl, fresh⟩)
    · exact ⟨before, found, after ++ [(key, value)], by simp, fresh⟩
    · exact ⟨entries, value, [], rfl, fresh⟩

theorem lastValue_concat {entries : List (α × β)} {key other : α} {value found : β} :
    LastValue same (entries ++ [(key, value)]) other found ↔
      other = key ∧ found = value ∨ LastValue same entries other found ∧ same key other = false := by
  constructor
  · rintro ⟨before, after, shape, fresh⟩
    rcases List.eq_nil_or_concat' after with rfl | ⟨others, last, rfl⟩
    · obtain ⟨rfl, one⟩ := List.append_inj' shape rfl
      obtain ⟨rfl, rfl⟩ : key = other ∧ value = found := by simpa using one
      exact Or.inl ⟨rfl, rfl⟩
    · rw [← List.cons_append, ← List.append_assoc] at shape
      obtain ⟨rfl, one⟩ := List.append_inj' shape rfl
      obtain rfl : (key, value) = last := by simpa using one
      exact Or.inr ⟨⟨before, others, rfl, fun entry member => fresh entry (by simp [member])⟩,
        fresh (key, value) (by simp)⟩
  · rintro (⟨rfl, rfl⟩ | ⟨⟨before, after, rfl, fresh⟩, different⟩)
    · exact ⟨entries, [], rfl, by simp⟩
    · refine ⟨before, after ++ [(key, value)], by simp, ?_⟩
      intro entry member
      rcases List.mem_append.mp member with earlier | last
      · exact fresh entry earlier
      · obtain rfl := List.mem_singleton.mp last
        exact different

section
variable {γ : Type*} {δ : Type*} (keyOf : γ → α) (valueOf : δ → β) {entries : List (γ × δ)}

theorem firstKey_map {key : α} :
    FirstKey same (entries.map fun entry => (keyOf entry.1, valueOf entry.2)) key ↔
      ∃ before first value after, entries = before ++ (first, value) :: after ∧ keyOf first = key ∧
        ∀ entry ∈ before, same (keyOf entry.1) key = false := by
  constructor
  · rintro ⟨front, value, back, shape, fresh⟩
    obtain ⟨before, others, rfl, rfl, rest⟩ := List.map_eq_append_iff.mp shape
    obtain ⟨⟨first, original⟩, after, rfl, one, rfl⟩ := List.map_eq_cons_iff.mp rest
    exact ⟨before, first, original, after, rfl, congrArg Prod.fst one,
      fun entry member => fresh _ (List.mem_map_of_mem member)⟩
  · rintro ⟨before, first, value, after, rfl, rfl, fresh⟩
    exact ⟨before.map fun entry => (keyOf entry.1, valueOf entry.2), valueOf value,
      after.map fun entry => (keyOf entry.1, valueOf entry.2), by simp, List.forall_mem_map.mpr fresh⟩

theorem lastValue_map {key : α} {value : β} :
    LastValue same (entries.map fun entry => (keyOf entry.1, valueOf entry.2)) key value ↔
      ∃ before first held after, entries = before ++ (first, held) :: after ∧ keyOf first = key ∧
        valueOf held = value ∧ ∀ entry ∈ after, same (keyOf entry.1) key = false := by
  constructor
  · rintro ⟨front, back, shape, fresh⟩
    obtain ⟨before, others, rfl, rfl, rest⟩ := List.map_eq_append_iff.mp shape
    obtain ⟨⟨first, held⟩, after, rfl, one, rfl⟩ := List.map_eq_cons_iff.mp rest
    exact ⟨before, first, held, after, rfl, congrArg Prod.fst one, congrArg Prod.snd one,
      fun entry member => fresh _ (List.mem_map_of_mem member)⟩
  · rintro ⟨before, first, held, after, rfl, rfl, rfl, fresh⟩
    exact ⟨before.map fun entry => (keyOf entry.1, valueOf entry.2),
      after.map fun entry => (keyOf entry.1, valueOf entry.2), by simp, List.forall_mem_map.mpr fresh⟩

end

section
variable (equal : Equivalence fun first second => same first second = true)
include equal

private theorem apart_symm {first second : α} (apart : same first second = false) : same second first = false := by
  cases found : same second first with
  | false => rfl
  | true => rw [equal.symm found] at apart; cases apart

private theorem apart_of_same {first second third : α} (one : same first second = true)
    (apart : same second third = false) : same first third = false := by
  cases found : same first third with
  | false => rfl
  | true => rw [equal.trans (equal.symm one) found] at apart; cases apart

/-- A dictionary knows exactly the keys of its entries. -/
theorem any_ofEntries (entries : List (α × β)) (key : α) :
    ((ofEntries same entries).any fun entry => same entry.1 key) = entries.any fun entry => same entry.1 key := by
  induction entries using List.reverseRecOn generalizing key with
  | nil => rfl
  | append_singleton entries last ih =>
    have keys : ∀ dict : List (α × β), (dict.any fun entry => same entry.1 key) =
        (dict.map Prod.fst).any fun other => same other key := fun dict => by simp [Function.comp_def]
    rw [ofEntries_concat, keys, keys_insert, ih]
    by_cases known : (entries.any fun entry => same entry.1 last.1) = true
    · -- the key of the last entry is known, and with it whatever it is the same as
      have repeated : same last.1 key = true → (entries.any fun entry => same entry.1 key) = true := by
        obtain ⟨earlier, member, one⟩ := List.any_eq_true.mp known
        exact fun two => List.any_eq_true.mpr ⟨earlier, member, equal.trans one two⟩
      rw [if_pos known, ← keys, ih, List.any_append, List.any_cons, List.any_nil, Bool.or_false]
      cases found : same last.1 key with
      | false => simp
      | true => simp [repeated found]
    · rw [if_neg known, List.any_append, ← keys, ih]
      simp

theorem mem_keys_ofEntries (entries : List (α × β)) (key : α) :
    key ∈ (ofEntries same entries).map Prod.fst ↔ FirstKey same entries key := by
  induction entries using List.reverseRecOn with
  | nil => simp [ofEntries, FirstKey]
  | append_singleton entries last ih =>
    rw [ofEntries_concat, keys_insert, any_ofEntries equal, firstKey_concat, ← ih]
    by_cases known : (entries.any fun entry => same entry.1 last.1) = true
    · have repeated : ¬ ∀ entry ∈ entries, same entry.1 last.1 = false := by
        simpa using known
      rw [if_pos known]
      exact (or_iff_left fun second => repeated second.2).symm
    · have fresh : ∀ entry ∈ entries, same entry.1 last.1 = false := by
        simpa using known
      rw [if_neg known, List.mem_append, List.mem_singleton]
      exact or_congr_right (and_iff_left fresh).symm

/-- What the entries under a key hold once another key has been set. -/
private theorem mem_class_insert (dict : List (α × β)) (new key : α) (given value : β) :
    (∃ entry ∈ insert same dict new given, same entry.1 key = true ∧ entry.2 = value) ↔
      same new key = true ∧ given = value ∨
        ∃ entry ∈ dict, (same entry.1 key = true ∧ entry.2 = value) ∧ same entry.1 new = false := by
  unfold insert
  by_cases known : (dict.any fun entry => same entry.1 new) = true
  · rw [if_pos known]
    constructor
    · rintro ⟨entry, member, one, held⟩
      obtain ⟨old, among, rfl⟩ := List.mem_map.mp member
      by_cases replaced : same old.1 new = true
      · rw [if_pos replaced] at one held
        exact Or.inl ⟨equal.trans (equal.symm replaced) one, held⟩
      · rw [if_neg replaced] at one held
        exact Or.inr ⟨old, among, ⟨one, held⟩, by simpa using replaced⟩
    · rintro (⟨one, rfl⟩ | ⟨entry, among, ⟨one, held⟩, different⟩)
      · obtain ⟨old, among, replaced⟩ := List.any_eq_true.mp known
        refine ⟨(old.1, given), List.mem_map.mpr ⟨old, among, by simp [replaced]⟩, ?_, rfl⟩
        exact equal.trans replaced one
      · exact ⟨entry, List.mem_map.mpr ⟨entry, among, by simp [different]⟩, one, held⟩
  · have fresh : ∀ entry ∈ dict, same entry.1 new = false := by
      simpa using known
    rw [if_neg known]
    constructor
    · rintro ⟨entry, member, one, held⟩
      rcases List.mem_append.mp member with among | last
      · exact Or.inr ⟨entry, among, ⟨one, held⟩, fresh entry among⟩
      · obtain rfl := List.mem_singleton.mp last
        exact Or.inl ⟨one, held⟩
    · rintro (⟨one, rfl⟩ | ⟨entry, among, ⟨one, held⟩, _⟩)
      · exact ⟨(new, given), by simp, one, rfl⟩
      · exact ⟨entry, by simp [among], one, held⟩

/-- The entries of a dictionary whose key counts as the given one hold what the last such entry
held. -/
theorem mem_class_ofEntries (entries : List (α × β)) (key : α) (value : β) :
    (∃ entry ∈ ofEntries same entries, same entry.1 key = true ∧ entry.2 = value) ↔
      ∃ other, LastValue same entries other value ∧ same other key = true := by
  induction entries using List.reverseRecOn generalizing key with
  | nil => simp [ofEntries, LastValue]
  | append_singleton entries last ih =>
    obtain ⟨new, given⟩ := last
    rw [ofEntries_concat, mem_class_insert equal]
    constructor
    · rintro (⟨one, rfl⟩ | ⟨entry, among, ⟨one, held⟩, different⟩)
      · exact ⟨new, lastValue_concat.mpr (Or.inl ⟨rfl, rfl⟩), one⟩
      · obtain ⟨other, last, two⟩ := (ih entry.1).mp ⟨entry, among, equal.refl _, held⟩
        have behind : same new other = false := apart_symm equal (apart_of_same equal two different)
        exact ⟨other, lastValue_concat.mpr (Or.inr ⟨last, behind⟩), equal.trans two one⟩
    · rintro ⟨other, held, one⟩
      rcases lastValue_concat.mp held with ⟨rfl, rfl⟩ | ⟨last, different⟩
      · exact Or.inl ⟨one, rfl⟩
      · obtain ⟨entry, among, two, found⟩ := (ih other).mpr ⟨other, last, equal.refl _⟩
        exact Or.inr ⟨entry, among, ⟨equal.trans two one, found⟩,
          apart_of_same equal two (apart_symm equal different)⟩

theorem mem_values_ofEntries (entries : List (α × β)) (value : β) :
    value ∈ (ofEntries same entries).map Prod.snd ↔ ∃ key, LastValue same entries key value := by
  constructor
  · intro member
    obtain ⟨entry, among, rfl⟩ := List.mem_map.mp member
    obtain ⟨key, held, _⟩ := (mem_class_ofEntries equal entries entry.1 entry.2).mp ⟨entry, among, equal.refl _, rfl⟩
    exact ⟨key, held⟩
  · rintro ⟨key, held⟩
    obtain ⟨entry, among, _, rfl⟩ := (mem_class_ofEntries equal entries key value).mpr ⟨key, held, equal.refl _⟩
    exact List.mem_map_of_mem among

end

end TransactionMonitoring.Dictionary
