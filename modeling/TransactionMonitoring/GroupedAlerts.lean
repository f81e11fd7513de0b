import TransactionMonitoring.Alerts

/-! The grouped alert list: its pages, and its counts beside the flat list's.

The endpoint merges all contract groups with a window of the alerts that name no contract.
Sorting is stable, so groups come before alerts of the same key.
-/
namespace TransactionMonitoring.GroupedAlerts
open SortedWindows Alerts

/-! ## Pages -/

/-- All groups and all other alerts in the order of the list. -/
def fullMerge (sort : SortBy) (groups : List AlertGroup) (unattributed : List ScoreRow) : List GroupedAlertRow :=
  (groups.map AlertGroup.row ++ unattributed.map ScoreRow.unattributedRow).insertionSort (rowPrecedes sort)

/-- A page over a fixed list of the alerts that name no contract. -/
def pageOver (sort : SortBy) (groups : List AlertGroup) (unattributed : List ScoreRow) (limit offset : Nat) :
    GroupedAlertsResponse :=
  groupedPage sort groups (fun skip need => window skip need unattributed) unattributed.length limit offset

section
variable {sort : SortBy} {groups : List AlertGroup} {unattributed : List ScoreRow}

private theorem unattributedRow_pairwise
    (ordered : unattributed.Pairwise (precedes ScoreRow.maxScore ScoreRow.analyzedAt sort)) :
    (unattributed.map ScoreRow.unattributedRow).Pairwise (rowPrecedes sort) := by
  rw [List.pairwise_map]
  refine ordered.imp fun before => ?_
  cases sort with
  | score => exact before
  | date => exact before

theorem pageOver_data (ordered : unattributed.Pairwise (precedes ScoreRow.maxScore ScoreRow.analyzedAt sort))
    (limit offset : Nat) :
    (pageOver sort groups unattributed limit offset).data =
      window offset limit (fullMerge sort groups unattributed) := by
  have total : Std.Total (rowPrecedes sort) :=
    inferInstanceAs (Std.Total (precedes GroupedAlertRow.worstScore GroupedAlertRow.latestAnalyzedAt sort))
  have trans : IsTrans GroupedAlertRow (rowPrecedes sort) :=
    inferInstanceAs (IsTrans _ (precedes GroupedAlertRow.worstScore GroupedAlertRow.latestAnalyzedAt sort))
  have merged := window_insertionSort (rowPrecedes sort) (groups.map AlertGroup.row)
    (unattributedRow_pairwise ordered) offset limit
  rw [window_map, List.length_map] at merged
  exact merged

end

/-- **Grouped pages.**  Every page is a window of the full merge, two consecutive pages make
the page of both, and the totals are the same on every page. -/
theorem grouped_pages_are_windows (sort : SortBy) (groups : List AlertGroup) (unattributed : List ScoreRow)
    (ordered : unattributed.Pairwise (precedes ScoreRow.maxScore ScoreRow.analyzedAt sort)) :
    (∀ limit offset, (pageOver sort groups unattributed limit offset).data =
      window offset limit (fullMerge sort groups unattributed)) ∧
    (∀ first second offset,
      (pageOver sort groups unattributed first offset).data ++
          (pageOver sort groups unattributed second (offset + first)).data =
        (pageOver sort groups unattributed (first + second) offset).data) ∧
    ∀ limit offset,
      (pageOver sort groups unattributed limit offset).total = (fullMerge sort groups unattributed).length ∧
      (pageOver sort groups unattributed limit offset).alertTotal =
        ((fullMerge sort groups unattributed).map GroupedAlertRow.alertCount).sum := by
  refine ⟨pageOver_data ordered, ?_, ?_⟩
  · intro first second offset
    rw [pageOver_data ordered, pageOver_data ordered, pageOver_data ordered, window_append]
  · intro limit offset
    have same : (fullMerge sort groups unattributed).Perm
        (groups.map AlertGroup.row ++ unattributed.map ScoreRow.unattributedRow) := List.perm_insertionSort _ _
    have alone : (unattributed.map ScoreRow.unattributedRow).map GroupedAlertRow.alertCount =
        List.replicate unattributed.length 1 := by
      simp [List.map_map, Function.comp_def, ScoreRow.unattributedRow]
    have grouped : (groups.map AlertGroup.row).map GroupedAlertRow.alertCount = groups.map AlertGroup.alertCount := by
      simp [List.map_map, Function.comp_def, AlertGroup.row]
    constructor
    · rw [same.length_eq]
      simp [pageOver, groupedPage]
    · rw [(same.map _).sum_nat, List.map_append, List.sum_append, alone, grouped, List.sum_replicate_nat]
      simp [pageOver, groupedPage]

private def sampleGroup : AlertGroup := ⟨"c1", 2, 50, .current .moderate, .largeDatum, [.largeDatum], 5, false⟩
private def newer : ScoreRow := ⟨"t1", 50, .phishing, .current .moderate, 5, 0, ""⟩
private def older : ScoreRow := ⟨"t2", 70, .sandwich, .current .high, 4, 0, ""⟩

theorem grouped_pages_tied_rows :
    [newer, older].Pairwise (precedes ScoreRow.maxScore ScoreRow.analyzedAt .date) ∧
    (pageOver .date [sampleGroup] [newer, older] 2 0).data ++ (pageOver .date [sampleGroup] [newer, older] 2 2).data =
      (pageOver .date [sampleGroup] [newer, older] 4 0).data := by
  have ordered : [newer, older].Pairwise (precedes ScoreRow.maxScore ScoreRow.analyzedAt .date) := by decide
  exact ⟨ordered, (grouped_pages_are_windows .date [sampleGroup] [newer, older] ordered).2.1 2 2 0⟩

/-- What the endpoint answers to a request without the read-time class: the groups of the
request, merged with every alert the query for the others selects. -/
theorem listAnalysisResultGroups_data (settings : Settings) (store : Store) (filters : Filters)
    (sort : SortBy) (limit offset : Nat) (stored : filters.attackClass ≠ some .contractAnomaly) :
    (listAnalysisResultGroups settings store filters sort limit offset).data =
      window offset limit (fullMerge sort (requestedGroups settings store filters sort).1
        ((store.scores.filter (scoreFilterConditions filters (some "")
          (requestedGroups settings store filters sort).2)).insertionSort
            (precedes ScoreRow.maxScore ScoreRow.analyzedAt sort))) := by
  rw [← pageOver_data (List.pairwise_insertionSort _ _)]
  simp only [listAnalysisResultGroups, stored, if_false]
  rfl

/-! ## Counts -/

/-- The alerts the groups count under a contract. -/
def countOf (groups : List AlertGroup) (contract : String) : Nat :=
  ((groups.filter (·.contractAddress = contract)).map AlertGroup.alertCount).sum

/-- The verdict of a flagged transaction adds it to the contract's group: the folded row names
the contract and meets the filters, and the query did not count it there. -/
def reconciles (settings : Settings) (store : Store) (filters : Filters) (anomalyOnly : Bool)
    (contract : String) (row : ScoreRow) : Bool :=
  effectiveCounted filters anomalyOnly (effective settings store row) &&
  decide ((effective settings store row).contractAddress = contract) &&
  !(storedCounted filters anomalyOnly row && decide (row.contractAddress = contract))

section
variable {settings : Settings} {store : Store} {filters : Filters} {anomalyOnly counted : Bool}
  {result : ClassScoreResult} {group : AlertGroup} {groups rest : List AlertGroup} {contract : String}

private theorem countOf_cons :
    countOf (group :: rest) contract =
      (if group.contractAddress = contract then group.alertCount else 0) + countOf rest contract := by
  by_cases named : group.contractAddress = contract
  · simp [countOf, named]
  · simp [countOf, named]

private theorem countOf_append (more : List AlertGroup) :
    countOf (groups ++ more) contract = countOf groups contract + countOf more contract := by
  simp [countOf]

private theorem countOf_eq_zero (absent : ∀ group ∈ groups, group.contractAddress ≠ contract) :
    countOf groups contract = 0 := by
  have none : groups.filter (·.contractAddress = contract) = [] := by
    rw [List.filter_eq_nil_iff]
    intro group member
    simpa using absent group member
  simp [countOf, none]

/-- One group a contract, so the count of a group is that of its contract. -/
private theorem countOf_of_mem (distinct : (groups.map AlertGroup.contractAddress).Nodup) (member : group ∈ groups) :
    countOf groups group.contractAddress = group.alertCount := by
  induction groups with
  | nil => cases member
  | cons first rest ih =>
    rw [List.map_cons, List.nodup_cons] at distinct
    rw [countOf_cons]
    rcases List.mem_cons.mp member with rfl | later
    · have others : countOf rest group.contractAddress = 0 := by
        refine countOf_eq_zero fun other inRest same => distinct.1 ?_
        rw [← same]
        exact List.mem_map_of_mem inRest
      simp [others]
    · have apart : first.contractAddress ≠ group.contractAddress := by
        intro same
        rw [same] at distinct
        exact distinct.1 (List.mem_map_of_mem later)
      simp [apart, ih distinct.2 later]

@[simp] private theorem absorb_contractAddress :
    (group.absorb counted result).contractAddress = group.contractAddress := by
  unfold AlertGroup.absorb
  dsimp only
  split
  · rfl
  · rfl

private theorem absorb_alertCount :
    (group.absorb counted result).alertCount = group.alertCount + if counted then 0 else 1 := by
  unfold AlertGroup.absorb
  dsimp only
  cases counted with
  | true =>
    split
    · rfl
    · rfl
  | false =>
    split
    · rfl
    · rfl

private theorem absorbInto_distinct (distinct : (groups.map AlertGroup.contractAddress).Nodup) :
    ((absorbInto counted result groups).map AlertGroup.contractAddress).Nodup := by
  unfold absorbInto
  split
  · have same : (groups.map fun group => if group.contractAddress = result.contractAddress then
        group.absorb counted result else group).map AlertGroup.contractAddress =
          groups.map AlertGroup.contractAddress := by
      rw [List.map_map]
      refine List.map_congr_left fun group _ => ?_
      simp only [Function.comp]
      split
      · exact absorb_contractAddress
      · rfl
    rwa [same]
  · rename_i absent
    have fresh : result.contractAddress ∉ groups.map AlertGroup.contractAddress := by
      simpa using absent
    rw [List.map_append, List.map_singleton, absorb_contractAddress]
    exact List.nodup_append.mpr ⟨distinct, List.nodup_singleton _, by
      intro old member new here
      obtain rfl := List.mem_singleton.mp here
      intro same
      subst same
      exact fresh member⟩

/-- The map that changes the one group of the contract adds one to its count. -/
private theorem countOf_map (distinct : (groups.map AlertGroup.contractAddress).Nodup)
    (present : result.contractAddress ∈ groups.map AlertGroup.contractAddress) :
    countOf (groups.map fun group => if group.contractAddress = result.contractAddress then
        group.absorb counted result else group) contract =
      countOf groups contract + if result.contractAddress = contract ∧ counted = false then 1 else 0 := by
  induction groups with
  | nil => cases present
  | cons first rest ih =>
    rw [List.map_cons, List.nodup_cons] at distinct
    rw [List.map_cons, countOf_cons, countOf_cons]
    by_cases here : first.contractAddress = result.contractAddress
    · have untouched : (rest.map fun group => if group.contractAddress = result.contractAddress then
          group.absorb counted result else group) = rest := by
        conv_rhs => rw [← List.map_id rest]
        refine List.map_congr_left fun group member => ?_
        have other : group.contractAddress ≠ result.contractAddress := by
          rw [← here]
          intro same
          exact distinct.1 (same ▸ List.mem_map_of_mem member)
        simp [other]
      simp only [here, if_true, untouched, absorb_contractAddress, absorb_alertCount]
      by_cases named : result.contractAddress = contract
      · cases counted with
        | true => simp [named]
        | false => simp [named]; omega
      · simp [named]
    · have later : result.contractAddress ∈ rest.map AlertGroup.contractAddress := by
        rcases List.mem_cons.mp present with same | later
        · exact absurd same.symm here
        · exact later
      simp only [here, if_false, ih distinct.2 later]
      omega

private theorem countOf_absorbInto (distinct : (groups.map AlertGroup.contractAddress).Nodup) :
    countOf (absorbInto counted result groups) contract =
      countOf groups contract + if result.contractAddress = contract ∧ counted = false then 1 else 0 := by
  unfold absorbInto
  split
  · rename_i present
    exact countOf_map distinct (by simpa using present)
  · rw [countOf_append, countOf_cons, absorb_contractAddress, absorb_alertCount]
    cases counted with
    | true => simp [AlertGroup.created, countOf]
    | false => simp [AlertGroup.created, countOf]

private theorem mem_absorbInto (member : group ∈ absorbInto counted result groups) :
    group.contractAddress = result.contractAddress ∨ group ∈ groups := by
  unfold absorbInto at member
  split at member
  · obtain ⟨old, inGroups, rfl⟩ := List.mem_map.mp member
    by_cases here : old.contractAddress = result.contractAddress
    · simp [here]
    · simp [here, inGroups]
  · rcases List.mem_append.mp member with old | new
    · exact Or.inr old
    · obtain rfl := List.mem_singleton.mp new
      exact Or.inl absorb_contractAddress

/-- One group a contract, and none without one. -/
structure Named (groups : List AlertGroup) : Prop where
  distinct : (groups.map AlertGroup.contractAddress).Nodup
  named : ∀ group ∈ groups, group.contractAddress ≠ ""

private theorem augmentGroup_spec {row : ScoreRow} {state : List AlertGroup × List String} (named : Named state.1) :
    Named (augmentGroup settings store filters anomalyOnly state row).1 ∧
    countOf (augmentGroup settings store filters anomalyOnly state row).1 contract =
      countOf state.1 contract + if reconciles settings store filters anomalyOnly contract row then 1 else 0 := by
  unfold augmentGroup
  dsimp only
  split
  · rename_i counts
    refine ⟨⟨absorbInto_distinct named.distinct, ?_⟩, ?_⟩
    · intro group member
      rcases mem_absorbInto member with same | old
      · rw [same]
        simp only [effectiveCounted, Bool.and_eq_true, decide_eq_true_eq] at counts
        exact counts.1.1
      · exact named.named group old
    · rw [countOf_absorbInto named.distinct]
      congr 1
      simp only [reconciles, counts, Bool.true_and]
      by_cases here : (effective settings store row).contractAddress = contract
      · subst here
        cases stored : storedCounted filters anomalyOnly row with
        | true => simp
        | false => simp
      · simp [here]
  · rename_i ignored
    refine ⟨named, ?_⟩
    simp [reconciles, ignored]

/-- Each flagged transaction that reconciles to a contract adds one to its count. -/
private theorem augment_counts {rows : List ScoreRow} {state : List AlertGroup × List String} (named : Named state.1) :
    Named (rows.foldl (augmentGroup settings store filters anomalyOnly) state).1 ∧
    countOf (rows.foldl (augmentGroup settings store filters anomalyOnly) state).1 contract =
      countOf state.1 contract + rows.countP (reconciles settings store filters anomalyOnly contract) := by
  induction rows generalizing state with
  | nil => exact ⟨named, rfl⟩
  | cons row rest ih =>
    obtain ⟨still, first⟩ := @augmentGroup_spec settings store filters anomalyOnly contract row state named
    obtain ⟨last, later⟩ := ih still
    refine ⟨last, ?_⟩
    rw [List.foldl_cons, later, first, List.countP_cons]
    omega

/-- The rows the query groups. -/
private def groupedRows (store : Store) (filters : Filters) : List ScoreRow :=
  store.scores.filter fun row => scoreFilterConditions filters none [] row && decide (row.contractAddress ≠ "")

private theorem groupedRows_of_contract (stands : contract ≠ "") :
    ((groupedRows store filters).filter (·.contractAddress = contract)).length =
      countClassScores store filters (some contract) [] := by
  rw [groupedRows, List.filter_filter, ← List.countP_eq_length_filter, countClassScores]
  refine List.countP_congr fun row _ => ?_
  simp only [scoreFilterConditions, Option.all_none, Option.all_some, Bool.and_true, Bool.and_eq_true,
    decide_eq_true_eq]
  constructor
  · rintro ⟨rfl, ⟨⟨⟨⟨⟨band, cls⟩, score⟩, excluded⟩, corroborated⟩, within⟩, -⟩
    exact ⟨⟨⟨⟨⟨⟨band, cls⟩, score⟩, rfl⟩, excluded⟩, corroborated⟩, within⟩
  · rintro ⟨⟨⟨⟨⟨⟨band, cls⟩, score⟩, rfl⟩, excluded⟩, corroborated⟩, within⟩
    exact ⟨rfl, ⟨⟨⟨⟨⟨band, cls⟩, score⟩, excluded⟩, corroborated⟩, within⟩, stands⟩

private theorem map_filterMap_sublist {α β : Type} {f : α → Option β} {key : β → α}
    (keyed : ∀ a b, f a = some b → key b = a) (list : List α) : ((list.filterMap f).map key).Sublist list := by
  induction list with
  | nil => exact List.Sublist.slnil
  | cons a rest ih =>
    rw [List.filterMap_cons]
    split
    · exact ih.cons a
    · rename_i b found
      rw [List.map_cons, keyed a b found]
      exact ih.cons_cons a

/-- One group of the query, with the rows it has. -/
private def groupFor (store : Store) (filters : Filters) (contract : String) : Option AlertGroup :=
  match (groupedRows store filters).filter (·.contractAddress = contract) with
  | [] => none
  | first :: rest => some (groupOf contract first rest)

private theorem groupFor_spec (found : groupFor store filters contract = some group) :
    group.contractAddress = contract ∧ contract ≠ "" ∧
    group.alertCount = countClassScores store filters (some contract) [] := by
  unfold groupFor at found
  split at found
  · cases found
  · rename_i first rest rows
    obtain rfl := Option.some.inj found
    have member : first ∈ (groupedRows store filters).filter (·.contractAddress = contract) := by simp [rows]
    have stands : contract ≠ "" := by
      rw [List.mem_filter, groupedRows, List.mem_filter] at member
      simp only [Bool.and_eq_true, decide_eq_true_eq] at member
      rw [← member.2]
      exact member.1.2.2
    refine ⟨rfl, stands, ?_⟩
    rw [← groupedRows_of_contract stands, rows]
    rfl

private theorem groupClassScoresByContract_named (sort : SortBy) (limit : Nat) :
    Named (groupClassScoresByContract store filters sort limit) ∧
    ∀ group ∈ groupClassScoresByContract store filters sort limit,
      group.alertCount = countClassScores store filters (some group.contractAddress) [] := by
  let groups := ((groupedRows store filters).map ScoreRow.contractAddress).dedup.filterMap (groupFor store filters)
  have listed : groupClassScoresByContract store filters sort limit =
      (groups.insertionSort (precedes AlertGroup.worstScore AlertGroup.latestAnalyzedAt sort)).take limit := rfl
  have origin : ∀ group ∈ groupClassScoresByContract store filters sort limit,
      ∃ contract, groupFor store filters contract = some group := by
    intro group member
    rw [listed] at member
    have before := List.mem_of_mem_take member
    rw [List.mem_insertionSort] at before
    obtain ⟨contract, -, found⟩ := List.mem_filterMap.mp before
    exact ⟨contract, found⟩
  refine ⟨⟨?_, ?_⟩, ?_⟩
  · have each : (groups.map AlertGroup.contractAddress).Nodup :=
      (List.nodup_dedup _).sublist (map_filterMap_sublist (fun _ _ found => (groupFor_spec found).1) _)
    have sorted := ((List.perm_insertionSort (precedes AlertGroup.worstScore AlertGroup.latestAnalyzedAt sort)
      groups).map AlertGroup.contractAddress).nodup_iff.mpr each
    rw [listed]
    exact sorted.sublist ((List.take_sublist _ _).map _)
  · intro group member
    obtain ⟨contract, found⟩ := origin group member
    rw [(groupFor_spec found).1]
    exact (groupFor_spec found).2.1
  · intro group member
    obtain ⟨contract, found⟩ := origin group member
    rw [(groupFor_spec found).1]
    exact (groupFor_spec found).2.2

@[simp] private theorem merge_txHash (rows : List VerdictRow) :
    (mergeContractAnomaly settings rows result).txHash = result.txHash := by
  unfold mergeContractAnomaly
  split
  · rfl
  · dsimp only
    split
    · rfl
    · rfl

@[simp] private theorem merge_analyzedAt (rows : List VerdictRow) :
    (mergeContractAnomaly settings rows result).analyzedAt = result.analyzedAt := by
  unfold mergeContractAnomaly
  split
  · rfl
  · dsimp only
    split
    · rfl
    · rfl

private theorem page_txHash (rows : List ScoreRow) :
    (mergeOverlayOntoPage settings store (rows.map rowToClassScore)).map ClassScoreResult.txHash =
      rows.map ScoreRow.txHash := by
  unfold mergeOverlayOntoPage
  split
  · simp [Function.comp_def, rowToClassScore]
  · simp [Function.comp_def, rowToClassScore]

private theorem page_analyzedAt (rows : List ScoreRow) :
    (mergeOverlayOntoPage settings store (rows.map rowToClassScore)).map ClassScoreResult.analyzedAt =
      rows.map ScoreRow.analyzedAt := by
  unfold mergeOverlayOntoPage
  split
  · simp [Function.comp_def, rowToClassScore]
  · simp [Function.comp_def, rowToClassScore]

end

/-- The oldest date on the flat list's page, as the query returns it. -/
def pageFloor (store : Store) (filters : Filters) (contract : String) (sort : SortBy) (limit offset : Nat) :
    Option Int :=
  dateFloor sort limit
    ((getClassScoresList store filters (some contract) [] sort limit offset).map ScoreRow.analyzedAt)

section
variable {settings : Settings} {store : Store} {filters : Filters} {contract : String} {sort : SortBy}
  {limit offset : Nat}

private theorem storedMeets_of_conditions {row : ScoreRow}
    (selected : scoreFilterConditions filters (some contract) [] row = true) :
    storedMeets filters (some contract) row = true := by
  simp only [scoreFilterConditions, Bool.and_eq_true] at selected
  obtain ⟨⟨⟨⟨⟨⟨band, -⟩, score⟩, named⟩, -⟩, -⟩, -⟩ := selected
  simp only [storedMeets, passesScoreBand, Bool.and_eq_true]
  refine ⟨⟨score, ?_⟩, named⟩
  rw [Bool.or_eq_true] at band ⊢
  refine band.imp_right fun some => ?_
  obtain ⟨requested, member, same⟩ := List.any_eq_true.mp some
  rw [decide_eq_true_eq] at same ⊢
  rw [same]
  exact member

/-- A row on the page is one the query selected, so no rescued row is. -/
private theorem rescues_absent {floor : Option Int} {row : ScoreRow} (stored : row ∈ store.scores)
    (rescued : rescues settings store filters (some contract) floor row = true) :
    row.txHash ∉ (getClassScoresList store filters (some contract) [] sort limit offset).map ScoreRow.txHash := by
  intro present
  obtain ⟨shown, onPage, same⟩ := List.mem_map.mp present
  have selected := mem_of_mem_window onPage
  rw [List.mem_insertionSort, List.mem_filter] at selected
  obtain rfl := List.inj_on_of_nodup_map store.keyed selected.1 stored same
  have meets := storedMeets_of_conditions selected.2
  simp [rescues, meets] at rescued

private theorem rescuedRows_length :
    (rescuedRows settings store filters (some contract) sort limit offset
        (mergeOverlayOntoPage settings store
          ((getClassScoresList store filters (some contract) [] sort limit offset).map rowToClassScore))).length =
      if rescueActive settings filters (some contract) offset then
        (flaggedRows settings store).countP
          (rescues settings store filters (some contract) (pageFloor store filters contract sort limit offset))
      else 0 := by
  unfold rescuedRows
  split
  · dsimp only
    rw [page_txHash, page_analyzedAt, List.length_map, ← List.countP_eq_length_filter, flaggedRows,
      getClassScoresByHashes, getClassScoresByHashes, List.countP_filter, List.countP_filter]
    refine List.countP_congr fun row stored => ?_
    simp only [Bool.and_eq_true, decide_eq_true_eq, List.mem_filter]
    constructor
    · rintro ⟨rescued, flagged, -⟩
      exact ⟨rescued, flagged⟩
    · rintro ⟨rescued, flagged⟩
      exact ⟨rescued, flagged, rescues_absent stored rescued⟩
  · rfl

/-- Without a corroboration filter, what the flat list rescues for a contract is what
reconciles to it, from the date floor on. -/
private theorem rescues_iff {floor : Option Int} {row : ScoreRow} (uncorroborated : filters.minCorroboration = 0)
    (stands : contract ≠ "") :
    rescues settings store filters (some contract) floor row = true ↔
      reconciles settings store filters false contract row = true ∧ floor.all (· ≤ row.analyzedAt) = true := by
  have dated : (effective settings store row).analyzedAt = row.analyzedAt := merge_analyzedAt _
  simp only [rescues, reconciles, effectiveCounted, storedCounted, passes, storedMeets, rowToClassScore, dated,
    uncorroborated, Option.all_some, Bool.and_eq_true, decide_eq_true_eq, Bool.not_eq_true', Bool.and_eq_false_iff,
    decide_eq_false_iff_not, Bool.not_false, Bool.false_and, Nat.zero_le, and_true, not_true_eq_false,
    or_false]
  constructor
  · rintro ⟨⟨⟨⟨within, recent⟩, rfl⟩, dropped⟩, meets⟩
    refine ⟨⟨⟨⟨stands, within, meets⟩, rfl⟩, ?_⟩, recent⟩
    tauto
  · rintro ⟨⟨⟨⟨-, within, meets⟩, rfl⟩, dropped⟩, recent⟩
    refine ⟨⟨⟨⟨within, recent⟩, rfl⟩, ?_⟩, meets⟩
    by_cases named : (effective settings store row).contractAddress = row.contractAddress
    · rw [named] at stands dropped
      left
      simpa [stands, within] using dropped
    · exact Or.inr named

/-- The rows the flat list rescues for a contract, of those that reconcile to it. -/
def rescuable (settings : Settings) (store : Store) (filters : Filters) (contract : String) (sort : SortBy)
    (limit offset : Nat) (row : ScoreRow) : Bool :=
  rescueActive settings filters (some contract) offset &&
    (pageFloor store filters contract sort limit offset).all (· ≤ row.analyzedAt)

/-- The flat list's total for a contract, under the classes the query filters on. -/
private theorem flat_total (stored : filters.attackClass ≠ some .contractAnomaly) (stands : contract ≠ "") :
    (listAnalysisResults settings store filters (some contract) sort limit offset).total =
      countClassScores store filters (some contract) [] +
        (flaggedRows settings store).countP fun row =>
          reconciles settings store filters false contract row &&
            rescuable settings store filters contract sort limit offset row := by
  simp only [listAnalysisResults, stored, if_false, rescuedRows_length]
  congr 1
  split
  · rename_i active
    refine List.countP_congr fun row _ => ?_
    have uncorroborated : filters.minCorroboration = 0 := by
      simp only [rescueActive, Bool.and_eq_true, decide_eq_true_eq] at active
      exact active.2
    rw [rescues_iff uncorroborated stands, Bool.and_eq_true, rescuable, active, Bool.true_and]
  · rename_i inactive
    simp [rescuable, inactive]

/-- Under the read-time class both lists count the flagged transactions it wins. -/
private theorem flat_total_of_anomaly (classed : filters.attackClass = some .contractAnomaly)
    (enabled : settings.clusteringEnabled = true) (stands : contract ≠ "") :
    (listAnalysisResults settings store filters (some contract) sort limit offset).total =
      (flaggedRows settings store).countP (reconciles settings store filters true contract) := by
  simp only [listAnalysisResults, classed, if_true, enabled, listContractAnomalyResults,
    ← List.countP_eq_length_filter, List.countP_map]
  refine List.countP_congr fun row _ => ?_
  simp only [Function.comp, reconciles, effectiveCounted, storedCounted, passes, Option.all_some, Bool.and_eq_true,
    decide_eq_true_eq, Bool.not_true, Bool.false_and, Bool.not_false, Bool.true_and, Bool.not_eq_true',
    decide_eq_false_iff_not, not_not, and_true]
  constructor
  · rintro ⟨⟨⟨⟨won, rfl⟩, within⟩, meets⟩, corroborated⟩
    exact ⟨⟨⟨stands, ⟨within, meets⟩, corroborated⟩, won⟩, rfl⟩
  · rintro ⟨⟨⟨-, ⟨within, meets⟩, corroborated⟩, won⟩, rfl⟩
    exact ⟨⟨⟨⟨won, rfl⟩, within⟩, meets⟩, corroborated⟩

end

/-- The alerts of a contract that the query counted but the cap on its groups left out. -/
def cutOff (settings : Settings) (store : Store) (filters : Filters) (sort : SortBy) (contract : String) : Nat :=
  if contract ∈ (groupClassScoresByContract store filters sort settings.groupedAlertsMaxContracts).map
      AlertGroup.contractAddress then 0
  else countClassScores store filters (some contract) []

/-- The flagged transactions that reconcile to a contract and that the flat list does not
rescue: it rescues none, or the transaction is older than a full page sorted by date. -/
def leftOut (settings : Settings) (store : Store) (filters : Filters) (contract : String) (sort : SortBy)
    (limit offset : Nat) : Nat :=
  (flaggedRows settings store).countP fun row =>
    reconciles settings store filters false contract row &&
      !rescuable settings store filters contract sort limit offset row

section
variable {settings : Settings} {store : Store} {filters : Filters} {sort : SortBy} {group : AlertGroup}

private theorem countOf_query (contract : String) :
    countOf (groupClassScoresByContract store filters sort settings.groupedAlertsMaxContracts) contract +
      cutOff settings store filters sort contract = countClassScores store filters (some contract) [] := by
  obtain ⟨named, counts⟩ := @groupClassScoresByContract_named store filters sort settings.groupedAlertsMaxContracts
  unfold cutOff
  split
  · rename_i listed
    obtain ⟨group, member, rfl⟩ := List.mem_map.mp listed
    rw [countOf_of_mem named.distinct member, counts group member, Nat.add_zero]
  · rename_i unlisted
    rw [countOf_eq_zero, Nat.zero_add]
    intro group member same
    exact unlisted (same ▸ List.mem_map_of_mem member)

private theorem named_nil : Named [] := ⟨List.nodup_nil, by simp⟩

/-- A group after the verdicts are folded in: what the query counted, and what reconciles. -/
private theorem augmented_group {anomalyOnly : Bool} {groups : List AlertGroup} (named : Named groups)
    (member : group ∈ (augmentGroupsWithContractAnomaly settings store filters anomalyOnly groups).1) :
    group.contractAddress ≠ "" ∧
    group.alertCount = countOf groups group.contractAddress +
      (flaggedRows settings store).countP (reconciles settings store filters anomalyOnly group.contractAddress) := by
  obtain ⟨still, counts⟩ := @augment_counts settings store filters anomalyOnly group.contractAddress
    (flaggedRows settings store) (groups, []) named
  refine ⟨still.named group member, ?_⟩
  rw [← counts]
  exact (countOf_of_mem still.distinct member).symm

variable {flatSort : SortBy} {limit offset : Nat}

/-- Without a class filter, the two counts differ by the alerts the cap cut off and by those
the flat list does not rescue. -/
private theorem group_of_unclassed (unclassed : filters.attackClass = none)
    (enabled : settings.clusteringEnabled = true)
    (member : group ∈ (requestedGroups settings store filters sort).1) :
    group.alertCount + cutOff settings store filters sort group.contractAddress =
      (listAnalysisResults settings store filters (some group.contractAddress) flatSort limit offset).total +
        leftOut settings store filters group.contractAddress flatSort limit offset := by
  have requested : requestedGroups settings store filters sort =
      augmentGroupsWithContractAnomaly settings store filters false
        (groupClassScoresByContract store filters sort settings.groupedAlertsMaxContracts) := by
    simp [requestedGroups, unclassed, enabled]
  rw [requested] at member
  obtain ⟨stands, count⟩ := augmented_group (groupClassScoresByContract_named _ _).1 member
  have query := @countOf_query settings store filters sort group.contractAddress
  have parted := List.countP_eq_countP_filter_add (flaggedRows settings store)
    (reconciles settings store filters false group.contractAddress)
    (rescuable settings store filters group.contractAddress flatSort limit offset)
  rw [List.countP_filter, List.countP_filter] at parted
  rw [flat_total (by simp [unclassed]) stands, leftOut]
  omega

private theorem group_of_stored (member : group ∈ (requestedGroups settings store filters sort).1)
    (other : filters.attackClass ≠ none ∨ settings.clusteringEnabled = false) :
    group.alertCount =
      (listAnalysisResults settings store filters (some group.contractAddress) flatSort limit offset).total := by
  by_cases anomaly : filters.attackClass = some .contractAnomaly
  · cases enabled : settings.clusteringEnabled with
    | false => simp [requestedGroups, anomaly, enabled] at member
    | true =>
      have requested : requestedGroups settings store filters sort =
          augmentGroupsWithContractAnomaly settings store filters true [] := by
        simp [requestedGroups, anomaly, enabled]
      rw [requested] at member
      obtain ⟨stands, count⟩ := augmented_group named_nil member
      rw [flat_total_of_anomaly anomaly enabled stands, count]
      simp [countOf]
  · have requested : (requestedGroups settings store filters sort).1 =
        groupClassScoresByContract store filters sort settings.groupedAlertsMaxContracts := by
      have plain : (settings.clusteringEnabled && filters.attackClass.isNone) = false := by
        rcases other with classed | disabled
        · rw [Option.isNone_eq_false_iff.mpr (Option.isSome_iff_ne_none.mpr classed), Bool.and_false]
        · rw [disabled, Bool.false_and]
      simp [requestedGroups, anomaly, plain]
    rw [requested] at member
    obtain ⟨named, counts⟩ := @groupClassScoresByContract_named store filters sort settings.groupedAlertsMaxContracts
    have unrescued : ∀ row, rescuable settings store filters group.contractAddress flatSort limit offset row =
      false := by
      intro row
      rcases other with classed | disabled
      · simp [rescuable, rescueActive, Option.isNone_eq_false_iff.mpr (Option.isSome_iff_ne_none.mpr classed)]
      · simp [rescuable, rescueActive, disabled]
    rw [counts group member, flat_total anomaly (named.named group member)]
    simp [unrescued]

/-- A group row on a page is one of the request's groups. -/
private theorem group_of_reported {row : GroupedAlertRow}
    (reported : row ∈ (listAnalysisResultGroups settings store filters sort limit offset).data)
    (grouped : row.kind = .group) :
    ∃ group ∈ (requestedGroups settings store filters sort).1, group.row = row := by
  by_cases anomaly : filters.attackClass = some .contractAnomaly
  · cases enabled : settings.clusteringEnabled with
    | false => simp [listAnalysisResultGroups, anomaly, enabled] at reported
    | true =>
      simp only [listAnalysisResultGroups, anomaly, enabled, if_true] at reported
      have listed := mem_of_mem_window reported
      rw [List.mem_insertionSort] at listed
      exact List.mem_map.mp listed
  · rw [listAnalysisResultGroups_data _ _ _ _ _ _ anomaly] at reported
    have listed := mem_of_mem_window reported
    rw [fullMerge, List.mem_insertionSort, List.mem_append] at listed
    rcases listed with group | alert
    · exact List.mem_map.mp group
    · obtain ⟨stored, -, rfl⟩ := List.mem_map.mp alert
      cases grouped

end

/-- **Group counts.**  The count of a group on any page of the grouped list is the flat list's
total for its contract exactly when a class is asked for, clustering is off, or the alerts the
cap cut off are as many as those the flat list does not rescue. -/
theorem group_count_eq_flat_total_iff (settings : Settings) (store : Store) (filters : Filters)
    (sort flatSort : SortBy) (groupLimit groupOffset limit offset : Nat) (row : GroupedAlertRow)
    (reported : row ∈ (listAnalysisResultGroups settings store filters sort groupLimit groupOffset).data)
    (grouped : row.kind = .group) :
    row.alertCount =
        (listAnalysisResults settings store filters (some row.contractAddress) flatSort limit offset).total ↔
      filters.attackClass ≠ none ∨ settings.clusteringEnabled = false ∨
        cutOff settings store filters sort row.contractAddress =
          leftOut settings store filters row.contractAddress flatSort limit offset := by
  obtain ⟨group, member, rfl⟩ := group_of_reported reported grouped
  change group.alertCount =
    (listAnalysisResults settings store filters (some group.contractAddress) flatSort limit offset).total ↔ _
  by_cases other : filters.attackClass ≠ none ∨ settings.clusteringEnabled = false
  · rw [← or_assoc]
    exact iff_of_true (group_of_stored member other) (Or.inl other)
  · push Not at other
    have enabled : settings.clusteringEnabled = true := Bool.eq_true_of_not_eq_false other.2
    have counts := @group_of_unclassed settings store filters sort group flatSort limit offset other.1 enabled member
    simp only [other.1, enabled, ne_eq, not_true_eq_false, reduceCtorEq, false_or]
    change _ ↔ cutOff settings store filters sort group.contractAddress =
      leftOut settings store filters group.contractAddress flatSort limit offset
    omega

private def sampleSettings : Settings := ⟨true, 80, 60, 100, 60, 10, 500⟩
private def flaggedStore : Store where
  scores := [⟨"t1", 10, .largeDatum, .current .informational, 5, 2, "c1"⟩]
  verdicts := [⟨"t1", "c1", .malicious, none, false, 3⟩]
  keyed := List.nodup_singleton _
private def atLeast (minCorroboration : Nat) : Filters := ⟨[], none, 50, minCorroboration, none, none⟩
private def flaggedGroup : GroupedAlertRow :=
  ⟨.group, "c1", 1, 80, .critical, 5, none, .contractAnomaly, [.contractAnomaly], false⟩

theorem group_count_eq_flat_total_rescued :
    flaggedGroup ∈ (listAnalysisResultGroups sampleSettings flaggedStore (atLeast 0) .date 10 0).data ∧
    flaggedGroup.alertCount =
      (listAnalysisResults sampleSettings flaggedStore (atLeast 0) (some flaggedGroup.contractAddress) .date 10
        0).total := by
  have reported : flaggedGroup ∈
      (listAnalysisResultGroups sampleSettings flaggedStore (atLeast 0) .date 10 0).data := by decide +kernel
  refine ⟨reported, (group_count_eq_flat_total_iff sampleSettings flaggedStore (atLeast 0) .date .date 10 0 10 0
    flaggedGroup reported rfl).mpr (Or.inr (Or.inr ?_))⟩
  decide +kernel

/-- The group counts a flagged transaction that meets the corroboration filter; the flat list
rescues none under that filter. -/
theorem corroboration_filter_hides_rescued :
    flaggedGroup ∈ (listAnalysisResultGroups sampleSettings flaggedStore (atLeast 1) .date 10 0).data ∧
    flaggedGroup.kind = .group ∧ flaggedGroup.alertCount = 1 ∧
    (listAnalysisResults sampleSettings flaggedStore (atLeast 1) (some flaggedGroup.contractAddress) .date 10
      0).total = 0 := by
  decide +kernel

end TransactionMonitoring.GroupedAlerts
