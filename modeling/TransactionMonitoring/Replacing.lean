import Mathlib.Data.List.Dedup
import Mathlib.Data.List.Induction

/-! Tables that keep one row per key, for any row, key and version.

Rows are only ever appended.  A `FINAL` read of a key returns its row with the highest
version and, among equal versions, the one appended last.
-/
namespace TransactionMonitoring.Replacing

universe u v
variable {ρ : Type u} {κ : Type v} [DecidableEq κ] (key : ρ → κ) (version : ρ → Nat)

/-- Of two rows of one key, the one a `FINAL` read keeps. -/
def newer (best : Option ρ) (row : ρ) : Option ρ :=
  match best with
  | none => some row
  | some old => if version old ≤ version row then some row else some old

/-- The row a `FINAL` read returns for a key. -/
def final (rows : List ρ) (wanted : κ) : Option ρ :=
  (rows.filter fun row => key row = wanted).foldl (newer version) none

/-- Every row of a `FINAL` read of the whole table. -/
def finalRows (rows : List ρ) : List ρ :=
  (rows.map key).dedup.filterMap (final key version rows)

private theorem newer_mem {rows : List ρ} {best : Option ρ} {row : ρ}
    (won : rows.foldl (newer version) best = some row) : row ∈ rows ∨ best = some row := by
  induction rows generalizing best with
  | nil => exact Or.inr won
  | cons first rest ih =>
    rcases ih won with later | stepped
    · exact Or.inl (List.mem_cons_of_mem first later)
    · cases best with
      | none =>
        obtain rfl : first = row := by simpa [newer] using stepped
        exact Or.inl List.mem_cons_self
      | some old =>
        simp only [newer] at stepped
        split at stepped
        · obtain rfl := Option.some.inj stepped
          exact Or.inl List.mem_cons_self
        · exact Or.inr stepped

theorem final_mem {rows : List ρ} {wanted : κ} {row : ρ}
    (found : final key version rows wanted = some row) : row ∈ rows ∧ key row = wanted := by
  rcases newer_mem version found with member | absent
  · simpa using List.mem_filter.mp member
  · cases absent

private theorem newer_isSome (rows : List ρ) (row : ρ) :
    (rows.foldl (newer version) (some row)).isSome := by
  induction rows generalizing row with
  | nil => rfl
  | cons first rest ih =>
    simp only [List.foldl_cons, newer]
    split
    · exact ih first
    · exact ih row

theorem final_isSome_iff (rows : List ρ) (wanted : κ) :
    (final key version rows wanted).isSome ↔ ∃ row ∈ rows, key row = wanted := by
  constructor
  · intro found
    obtain ⟨row, shape⟩ := Option.isSome_iff_exists.mp found
    obtain ⟨member, keyed⟩ := final_mem key version shape
    exact ⟨row, member, keyed⟩
  · rintro ⟨row, member, keyed⟩
    have kept : row ∈ rows.filter fun row => key row = wanted := by simp [member, keyed]
    unfold final
    cases shape : rows.filter fun row => key row = wanted with
    | nil => simp [shape] at kept
    | cons first rest => exact newer_isSome version rest first

private theorem newer_le {rows : List ρ} {best : Option ρ} {row : ρ}
    (member : row ∈ rows ∨ best = some row) :
    ∃ won, rows.foldl (newer version) best = some won ∧ version row ≤ version won := by
  induction rows generalizing best row with
  | nil =>
    rcases member with absent | same
    · cases absent
    · exact ⟨row, same, Nat.le_refl _⟩
  | cons first rest ih =>
    rcases member with member | same
    · rcases List.mem_cons.mp member with rfl | later
      · cases best with
        | none => exact ih (Or.inr rfl)
        | some old =>
          by_cases newest : version old ≤ version row
          · exact ih (Or.inr (by simp [newer, newest]))
          · have kept : newer version (some old) row = some old := by simp [newer, newest]
            obtain ⟨won, found, above⟩ := ih (Or.inr kept)
            exact ⟨won, found, by omega⟩
      · exact ih (Or.inl later)
    · subst same
      by_cases newest : version row ≤ version first
      · have replaced : newer version (some row) first = some first := by simp [newer, newest]
        obtain ⟨won, found, above⟩ := ih (Or.inr replaced)
        exact ⟨won, found, by omega⟩
      · exact ih (Or.inr (by simp [newer, newest]))

/-- A `FINAL` read returns no row older than one the table holds. -/
theorem le_final {rows : List ρ} {row : ρ} (member : row ∈ rows) :
    ∃ won, final key version rows (key row) = some won ∧ version row ≤ version won :=
  newer_le version (Or.inl (by simpa using member))

theorem mem_finalRows {rows : List ρ} {row : ρ} :
    row ∈ finalRows key version rows ↔ final key version rows (key row) = some row := by
  simp only [finalRows, List.mem_filterMap, List.mem_dedup, List.mem_map]
  constructor
  · rintro ⟨_, ⟨other, member, rfl⟩, found⟩
    obtain ⟨_, keyed⟩ := final_mem key version found
    rwa [keyed]
  · intro found
    exact ⟨key row, ⟨row, (final_mem key version found).1, rfl⟩, found⟩

/-- A `FINAL` read keeps one row of each key. -/
theorem keys_finalRows (rows : List ρ) : ((finalRows key version rows).map key).Nodup := by
  rw [finalRows, List.map_filterMap]
  refine (List.nodup_dedup _).filterMap fun first second shared fromFirst fromSecond => ?_
  simp only [Option.mem_def, Option.map_eq_some_iff] at fromFirst fromSecond
  obtain ⟨row, isFinal, rfl⟩ := fromFirst
  obtain ⟨other, isOther, same⟩ := fromSecond
  rw [← (final_mem key version isFinal).2, ← (final_mem key version isOther).2, same]

/-- A key has a row in a `FINAL` read where it has any. -/
theorem exists_mem_finalRows_iff (rows : List ρ) (wanted : κ) :
    (∃ row ∈ finalRows key version rows, key row = wanted) ↔ ∃ row ∈ rows, key row = wanted := by
  constructor
  · rintro ⟨row, member, keyed⟩
    exact ⟨row, (final_mem key version ((mem_finalRows key version).mp member)).1, keyed⟩
  · rintro ⟨row, member, rfl⟩
    obtain ⟨won, found, -⟩ := le_final key version member
    have keyed := (final_mem key version found).2
    exact ⟨won, (mem_finalRows key version).mpr (keyed ▸ found), keyed⟩

/-- Where one part of a key is fixed, rows of distinct keys differ in the other. -/
theorem nodup_map_of_fixed {α β : Type*} {rows : List ρ} {outer : ρ → α} {inner : ρ → β}
    (distinct : (rows.map fun row => (outer row, inner row)).Nodup) {fixed : α}
    (same : ∀ row ∈ rows, outer row = fixed) : (rows.map inner).Nodup := by
  have paired : (rows.map fun row => (outer row, inner row)) = (rows.map inner).map fun value => (fixed, value) := by
    rw [List.map_map]
    exact List.map_congr_left fun row member => by simp [same row member]
  exact List.Nodup.of_map _ (paired ▸ distinct)

/-- Among rows of distinct keys, a row is the only one of its key. -/
theorem filter_key_of_nodup {rows : List ρ} (distinct : (rows.map key).Nodup) {row : ρ} (member : row ∈ rows) :
    rows.filter (fun other => key other = key row) = [row] := by
  induction rows with
  | nil => cases member
  | cons first rest ih =>
    obtain ⟨fresh, others⟩ := List.nodup_cons.mp distinct
    rcases List.mem_cons.mp member with rfl | later
    · have none : rest.filter (fun other => key other = key row) = [] := by
        refine List.filter_eq_nil_iff.mpr fun other among keyed => fresh ?_
        rw [← of_decide_eq_true keyed]
        exact List.mem_map_of_mem among
      simp [none]
    · have different : key first ≠ key row := fun same => fresh (same ▸ List.mem_map_of_mem later)
      simp [different, ih others later]

/-- Rows of distinct keys are all kept. -/
theorem mem_finalRows_of_distinct {rows : List ρ} (distinct : (rows.map key).Nodup) (row : ρ) :
    row ∈ finalRows key version rows ↔ row ∈ rows := by
  rw [mem_finalRows]
  constructor
  · exact fun found => (final_mem key version found).1
  · intro member
    obtain ⟨won, found, -⟩ := le_final key version member
    obtain ⟨kept, keyed⟩ := final_mem key version found
    rw [found, List.inj_on_of_nodup_map distinct kept member keyed]

/-- Dropping rows of other keys changes nothing. -/
theorem final_filter_of_kept {rows : List ρ} {keep : ρ → Bool} {wanted : κ}
    (kept : ∀ row ∈ rows, key row = wanted → keep row = true) :
    final key version (rows.filter keep) wanted = final key version rows wanted := by
  have same : (rows.filter keep).filter (fun row => key row = wanted) =
      rows.filter fun row => key row = wanted := by
    rw [List.filter_filter]
    refine List.filter_congr fun row member => ?_
    by_cases keyed : key row = wanted
    · simp [keyed, kept row member keyed]
    · simp [keyed]
  simp only [final, same]

/-- Appended rows compete with the row the key had. -/
theorem final_append (old new : List ρ) (wanted : κ) :
    final key version (old ++ new) wanted =
      (new.filter fun row => key row = wanted).foldl (newer version) (final key version old wanted) := by
  simp [final, List.filter_append]

/-- Rows of other keys change nothing. -/
theorem final_append_of_absent {old new : List ρ} {wanted : κ}
    (absent : ∀ row ∈ new, key row ≠ wanted) :
    final key version (old ++ new) wanted = final key version old wanted := by
  have empty : new.filter (fun row => key row = wanted) = [] := by
    simpa [List.filter_eq_nil_iff] using absent
  rw [final_append, empty, List.foldl_nil]

/-- Rows at least as new as every older row of the key take its place. -/
theorem final_append_of_newer {old new : List ρ} {wanted : κ}
    (newest : ∀ before ∈ old, ∀ after ∈ new, version before ≤ version after)
    (present : ∃ row ∈ new, key row = wanted) :
    final key version (old ++ new) wanted = final key version new wanted := by
  simp only [final, List.filter_append, List.foldl_append]
  cases shape : new.filter fun row => key row = wanted with
  | nil =>
    obtain ⟨row, member, keyed⟩ := present
    have kept : row ∈ new.filter fun row => key row = wanted := by simp [member, keyed]
    simp [shape] at kept
  | cons first rest =>
    have firstNew : first ∈ new := by
      have member : first ∈ new.filter fun row => key row = wanted := by simp [shape]
      exact List.mem_of_mem_filter member
    cases best : (old.filter fun row => key row = wanted).foldl (newer version) none with
    | none => rfl
    | some before =>
      have beforeOld := (final_mem key version best).1
      simp [newer, newest before beforeOld first firstNew]

private theorem newer_newer (best : Option ρ) (middle last : ρ) :
    newer version (newer version best middle) last =
      (newer version (some middle) last).elim none (newer version best) := by
  cases best with
  | none =>
    simp only [newer]
    split
    · rfl
    · rfl
  | some old =>
    by_cases first : version old ≤ version middle
    · by_cases second : version middle ≤ version last
      · simp [newer, first, second, Nat.le_trans first second]
      · simp [newer, first, second]
    · by_cases second : version middle ≤ version last
      · simp [newer, first, second]
      · have older : ¬version old ≤ version last := by omega
        simp [newer, first, second, older]

/-- Rows of a key compete as one row, the newest among them, with what stood before. -/
private theorem newer_foldl {rows : List ρ} (best : Option ρ) {row : ρ}
    (won : rows.foldl (newer version) none = some row) : rows.foldl (newer version) best = newer version best row := by
  induction rows using List.reverseRecOn generalizing row with
  | nil => cases won
  | append_singleton before last ih =>
    rw [List.foldl_append, List.foldl_cons, List.foldl_nil] at won ⊢
    cases shape : before.foldl (newer version) none with
    | none =>
      have empty : before = [] := by
        cases before with
        | nil => rfl
        | cons first rest =>
          have some_ := newer_isSome version rest first
          rw [List.foldl_cons] at shape
          change rest.foldl (newer version) (some first) = none at shape
          rw [shape] at some_
          cases some_
      subst empty
      obtain rfl : last = row := by simpa [newer] using won
      rfl
    | some middle =>
      rw [shape] at won
      rw [ih shape, newer_newer, won, Option.elim_some]

/-- Where appended rows have the key, the newest of them competes with the row the key had. -/
theorem final_append_of_some {old new : List ρ} {wanted : κ} {row : ρ}
    (found : final key version new wanted = some row) :
    final key version (old ++ new) wanted = newer version (final key version old wanted) row := by
  rw [final_append]
  exact newer_foldl version _ found

/-- Among rows appended in the order of their versions, the one appended last. -/
theorem final_of_ascending {rows : List ρ}
    (ascending : rows.Pairwise fun before after => version before ≤ version after)
    (wanted : κ) : final key version rows wanted = (rows.filter fun row => key row = wanted).getLast? := by
  unfold final
  have sorted := ascending.filter fun row => decide (key row = wanted)
  generalize rows.filter (fun row => decide (key row = wanted)) = kept at sorted
  induction kept using List.reverseRecOn with
  | nil => rfl
  | append_singleton before last ih =>
    obtain ⟨earlier, -, below⟩ := List.pairwise_append.mp sorted
    rw [List.foldl_append, ih earlier, List.getLast?_concat]
    cases ends : before.getLast? with
    | none => rfl
    | some old =>
      have le := below old (List.mem_of_getLast? ends) last (List.mem_singleton_self last)
      simp [newer, le]

/-- Columns beside the key and the version do not decide what a `FINAL` read returns. -/
theorem final_map {σ : Type*} (view : σ → ρ) (rows : List σ) (wanted : κ) :
    final key version (rows.map view) wanted =
      (final (fun row => key (view row)) (fun row => version (view row)) rows wanted).map view := by
  have folded : ∀ (kept : List σ) (best : Option σ),
      (kept.map view).foldl (newer version) (best.map view) =
        (kept.foldl (newer fun row => version (view row)) best).map view := by
    intro kept
    induction kept with
    | nil => exact fun _ => rfl
    | cons first rest ih =>
      intro best
      have step : newer version (best.map view) (view first) =
          (newer (fun row => version (view row)) best first).map view := by
        cases best with
        | none => rfl
        | some old =>
          simp only [newer, Option.map_some]
          split
          · rfl
          · rfl
      rw [List.map_cons, List.foldl_cons, step, ih, List.foldl_cons]
  rw [final, final, List.filter_map]
  exact folded _ none

theorem finalRows_map {σ : Type*} (view : σ → ρ) (rows : List σ) :
    finalRows key version (rows.map view) =
      (finalRows (fun row => key (view row)) (fun row => version (view row)) rows).map view := by
  unfold finalRows
  rw [List.map_filterMap, List.map_map]
  exact List.filterMap_congr fun wanted _ => final_map key version view rows wanted

end TransactionMonitoring.Replacing
