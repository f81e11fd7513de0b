import TransactionMonitoring.Archive
import TransactionMonitoring.TiedPages

/-! The archive as it is listed, counted and exported.

The list is read page by page, each page a query of its own that sorts by the time of archiving alone.
It leaves out what was archived at the upper bound itself, which the count and the export have.
-/
namespace TransactionMonitoring.ArchivePages
open Archive Replacing TiedPages

/-- A row of `tx_class_scores`, as the list reads it. -/
structure ScoreRow where
  network : String
  txHash : String
  maxScore : ℚ
  maxClass : String
  riskBand : String
  analyzedAt : ℕ
deriving DecidableEq

/-- What the three queries are asked. -/
structure Bounds where
  network : Network
  dateFrom : Option Datetime
  dateTo : Option Datetime

/-- The condition that all three queries have: the network, and the lower bound if there is one. -/
def Bounds.reaches (bounds : Bounds) (row : ArchiveRow) : Bool :=
  row.network = bounds.network && bounds.dateFrom.all fun first => first.order ≤ row.archivedAt.order

/-- The `WHERE` clause of `_archive_list`. -/
def Bounds.lists (bounds : Bounds) (row : ArchiveRow) : Bool :=
  bounds.reaches row && bounds.dateTo.all fun last => row.archivedAt.order < last.order

/-- The `WHERE` clause of `_archive_count` and of `_archive_export_rows`. -/
def Bounds.counts (bounds : Bounds) (row : ArchiveRow) : Bool :=
  bounds.reaches row && bounds.dateTo.all fun last => row.archivedAt.order ≤ last.order

/-- The score rows of the network, as the join's right side reads them. -/
def scoresOf (scores : List ScoreRow) (network : Network) : List ScoreRow :=
  (finalRows (fun row : ScoreRow => (row.network, row.txHash)) ScoreRow.analyzedAt scores).filter
    fun row => row.network = network.text

/-- The left join of a row: with each score row of its transaction, or with none. -/
def joined (right : List ScoreRow) (row : ArchiveRow) : List (ArchiveRow × Option ScoreRow) :=
  match right.filter fun score => score.txHash = row.txHash ∧ score.network = row.network.text with
  | [] => [(row, none)]
  | first :: rest => (first :: rest).map fun score => (row, some score)

/-- What the list's query selects, before it is sorted and cut. -/
def selected (table : List ArchiveRow) (scores : List ScoreRow) (bounds : Bounds) :
    List (ArchiveRow × Option ScoreRow) :=
  ((shown table).flatMap (joined (scoresOf scores bounds.network))).filter fun row => bounds.lists row.1

/-- What the list is sorted by. -/
def archivedAt (row : ArchiveRow × Option ScoreRow) : ℕ := row.1.archivedAt.order

/-- `_archive_list`, where its query comes upon an order. -/
def archiveList (order : List (ArchiveRow × Option ScoreRow)) (limit offset : ℕ) :
    List (ArchiveRow × Option ScoreRow) := SortedWindows.window offset limit order

/-- `_archive_count`. -/
def archiveCount (table : List ArchiveRow) (bounds : Bounds) : ℕ := (shown table).countP bounds.counts

/-- The archive entries in the window, without its end. -/
def matching (table : List ArchiveRow) (bounds : Bounds) : List ArchiveRow := (shown table).filter bounds.lists

/-- All pages of the list, from the first on as long as there are rows. -/
def listed (table : List ArchiveRow) (scores : List ScoreRow) (bounds : Bounds) (limit : ℕ)
    (orders : ℕ → List (ArchiveRow × Option ScoreRow)) : List (ArchiveRow × Option ScoreRow) :=
  (List.range (((selected table scores bounds).length + limit - 1) / limit)).flatMap fun page =>
    archiveList (orders page) limit (page * limit)

/-- The list, the count and the export agree, whatever orders the pages' queries come upon. -/
def Agree (table : List ArchiveRow) (scores : List ScoreRow) (bounds : Bounds) (limit : ℕ) : Prop :=
  ∀ orders : ℕ → List (ArchiveRow × Option ScoreRow),
    (∀ page, Ordered archivedAt (selected table scores bounds) (orders page)) →
      archiveCount table bounds = (listed table scores bounds limit orders).length ∧
        ((listed table scores bounds limit orders).map Prod.fst).Perm (matching table bounds) ∧
        ∀ row, row ∈ exportRows table bounds.network bounds.dateFrom bounds.dateTo ↔
          row ∈ (listed table scores bounds limit orders).map Prod.fst

/-- No entry was archived at the upper bound. -/
def NoneAtEnd (table : List ArchiveRow) (bounds : Bounds) : Prop :=
  ∀ row ∈ shown table, bounds.reaches row = true → ∀ last ∈ bounds.dateTo, row.archivedAt.order ≠ last.order

/-- No page begins between two entries archived at one time. -/
def NoneSplit (table : List ArchiveRow) (bounds : Bounds) (limit : ℕ) : Prop :=
  ∀ page time, ((matching table bounds).countP fun row => time < row.archivedAt.order) < page * limit →
    ((matching table bounds).countP fun row => time ≤ row.archivedAt.order) ≤ page * limit

section
variable {table : List ArchiveRow} {scores : List ScoreRow} {bounds : Bounds} {limit : ℕ}

theorem keys_shown (table : List ArchiveRow) : ((shown table).map fun row => row.key).Nodup :=
  keys_finalRows (fun row : ArchiveRow => row.key) ArchiveRow.version table

/-- A transaction has one score row at most, so the join leaves one row of each entry. -/
theorem map_joined (network : Network) (row : ArchiveRow) :
    (joined (scoresOf scores network) row).map Prod.fst = [row] := by
  have keys : ((scoresOf scores network).map fun score => (score.network, score.txHash)).Nodup :=
    (keys_finalRows (fun row : ScoreRow => (row.network, row.txHash)) ScoreRow.analyzedAt scores).sublist
      (List.filter_sublist.map _)
  unfold joined
  cases found : (scoresOf scores network).filter fun score =>
      score.txHash = row.txHash ∧ score.network = row.network.text with
  | nil => rfl
  | cons first rest =>
    have own (score : ScoreRow) (member : score ∈ first :: rest) :
        (score.network, score.txHash) = (row.network.text, row.txHash) := by
      rw [← found] at member
      have matched := of_decide_eq_true (List.mem_filter.mp member).2
      rw [matched.1, matched.2]
    have alone := keys.sublist ((List.filter_sublist (l := scoresOf scores network) (p := fun score =>
      score.txHash = row.txHash ∧ score.network = row.network.text)).map _)
    rw [found, List.map_cons, List.nodup_cons, own first List.mem_cons_self] at alone
    cases rest with
    | nil => rfl
    | cons second others =>
      exact absurd (List.mem_map.mpr ⟨second, List.mem_cons_self, own second (by simp)⟩) alone.1

theorem map_selected (table : List ArchiveRow) (scores : List ScoreRow) (bounds : Bounds) :
    (selected table scores bounds).map Prod.fst = matching table bounds := by
  have each (rows : List ArchiveRow) :
      (rows.flatMap (joined (scoresOf scores bounds.network))).map Prod.fst = rows := by
    simp [List.map_flatMap, map_joined]
  rw [selected, matching, ← each (shown table), List.filter_map, each]
  rfl

theorem keys_matching (table : List ArchiveRow) (bounds : Bounds) :
    ((matching table bounds).map fun row => row.key).Nodup := (keys_shown table).sublist (List.filter_sublist.map _)

theorem nodup_selected : ((selected table scores bounds).map Prod.fst).Nodup := by
  rw [map_selected]
  exact List.Nodup.of_map _ (keys_matching table bounds)

theorem exists_order (table : List ArchiveRow) (scores : List ScoreRow) (bounds : Bounds) :
    ∃ order, Ordered archivedAt (selected table scores bounds) order := by
  let later (first second : ArchiveRow × Option ScoreRow) : Prop := archivedAt second ≤ archivedAt first
  have : Std.Total later := ⟨fun first second => le_total (archivedAt second) (archivedAt first)⟩
  have : IsTrans _ later := ⟨fun _ _ _ one two => le_trans two one⟩
  exact ⟨_, List.perm_insertionSort later _, List.pairwise_insertionSort later _⟩

/-- The list's condition is the count's, short of the upper bound. -/
theorem lists_iff (bounds : Bounds) (row : ArchiveRow) : bounds.lists row = true ↔
    bounds.counts row = true ∧ ∀ last ∈ bounds.dateTo, row.archivedAt.order ≠ last.order := by
  unfold Bounds.lists Bounds.counts
  cases bounds.dateTo with
  | none => simp
  | some last =>
    simp only [Option.all_some, Bool.and_eq_true, decide_eq_true_eq, Option.mem_def, Option.some.injEq, forall_eq',
      and_assoc]
    exact and_congr_right fun _ => lt_iff_le_and_ne

/-- The count is the list's exactly where nothing was archived at the upper bound. -/
theorem count_eq_iff : archiveCount table bounds = (matching table bounds).length ↔ NoneAtEnd table bounds := by
  have within : matching table bounds = ((shown table).filter bounds.counts).filter bounds.lists := by
    rw [matching, List.filter_filter]
    refine List.filter_congr fun row _ => ?_
    rw [Bool.eq_iff_iff, Bool.and_eq_true]
    exact ⟨fun lists => ⟨lists, ((lists_iff bounds row).mp lists).1⟩, And.left⟩
  rw [archiveCount, within, List.countP_eq_length_filter, eq_comm, List.length_filter_eq_length_iff]
  constructor
  · intro all row member reaches last atEnd same
    have counted : bounds.counts row = true := by
      rw [Bounds.counts, reaches, Bool.true_and, Option.mem_def.mp atEnd]
      exact decide_eq_true same.le
    exact ((lists_iff bounds row).mp (all row (List.mem_filter.mpr ⟨member, counted⟩))).2 last atEnd same
  · intro none row member
    obtain ⟨shown, counted⟩ := List.mem_filter.mp member
    have reaches : bounds.reaches row = true := (Bool.and_eq_true _ _ ▸ counted).1
    exact (lists_iff bounds row).mpr ⟨counted, none row shown reaches⟩

theorem mem_exportRows (row : ArchiveRow) :
    row ∈ exportRows table bounds.network bounds.dateFrom bounds.dateTo ↔
      row ∈ shown table ∧ bounds.counts row = true := by
  rw [exportRows, List.mem_insertionSort, List.mem_filter]
  rfl

/-- Nothing archived at the upper bound, the export has the entries of the window. -/
theorem mem_export_iff (none : NoneAtEnd table bounds) (row : ArchiveRow) :
    row ∈ exportRows table bounds.network bounds.dateFrom bounds.dateTo ↔ row ∈ matching table bounds := by
  rw [mem_exportRows, matching, List.mem_filter, lists_iff]
  refine and_congr_right fun member => (and_iff_left_of_imp fun counted => none row member ?_).symm
  exact (Bool.and_eq_true _ _ ▸ counted).1

theorem noneSplit_iff : Unsplit archivedAt limit (selected table scores bounds) ↔ NoneSplit table bounds limit := by
  unfold Unsplit NoneSplit
  rw [← map_selected table scores bounds]
  simp only [List.countP_map]
  rfl

end

/-- **The list, the count and the export agree exactly where nothing was archived at the upper bound and no page
begins between two entries archived at one time.** -/
theorem archive_agrees_iff (table : List ArchiveRow) (scores : List ScoreRow) (bounds : Bounds) (limit : ℕ)
    (positive : 0 < limit) :
    Agree table scores bounds limit ↔ NoneAtEnd table bounds ∧ NoneSplit table bounds limit := by
  have length (orders : ℕ → List (ArchiveRow × Option ScoreRow))
      (ordered : ∀ page, Ordered archivedAt (selected table scores bounds) (orders page)) :
      (listed table scores bounds limit orders).length = (matching table bounds).length := by
    rw [← map_selected table scores bounds, List.length_map]
    exact length_allPages positive fun page => (ordered page).perm
  have whole := allPages_perm_iff positive Prod.fst (@nodup_selected table scores bounds)
    (exists_order table scores bounds)
  rw [noneSplit_iff, map_selected] at whole
  constructor
  · intro agree
    refine ⟨?_, whole.mp fun orders ordered => (agree orders ordered).2.1⟩
    obtain ⟨order, ordered⟩ := exists_order table scores bounds
    have counted := (agree (fun _ => order) fun _ => ordered).1
    rw [length _ fun _ => ordered] at counted
    exact count_eq_iff.mp counted
  · rintro ⟨none, unsplit⟩ orders ordered
    have perm := whole.mpr unsplit orders ordered
    refine ⟨(count_eq_iff.mpr none).trans (length orders ordered).symm, perm, fun row => ?_⟩
    rw [mem_export_iff none, ← perm.mem_iff]
    rfl

/-! ## Two archives -/

/-- Two entries imported at one time. -/
private def first : ArchiveRow := archived "first" (by decide)

private def second : ArchiveRow :=
  { archived "second" (by decide) with
    txHash := "ff112233445566778899aabbccddeeff00112233445566778899aabbccddeeff", txHash_ok := by decide }

/-- The entry at the upper bound is counted and not listed; and of the two entries, one on a page, the first is
listed twice where the query of the second page sorts them the other way round. -/
theorem bound_and_tie_disagree :
    ¬ Agree [first] [] ⟨.mainnet, none, some first.archivedAt⟩ 10 ∧
      ¬ Agree [first, second] [] ⟨.mainnet, none, none⟩ 1 := by
  constructor
  · intro agree
    have counted := (agree (fun _ => []) fun _ => ⟨by decide +kernel, List.Pairwise.nil⟩).1
    revert counted
    decide +kernel
  · intro agree
    have perm := (agree (fun page => if page = 0 then [(first, none), (second, none)]
      else [(second, none), (first, none)]) fun page => by
        split
        · exact ⟨by decide +kernel, by decide +kernel⟩
        · exact ⟨by decide +kernel, by decide +kernel⟩).2.1
    revert perm
    decide +kernel

/-- On one page the two entries are listed, counted and exported. -/
theorem archive_agrees_iff_one_page :
    Agree [first, second] [] ⟨.mainnet, none, none⟩ 2 ∧
      (matching [first, second] ⟨.mainnet, none, none⟩).length = 2 := by
  refine ⟨(archive_agrees_iff [first, second] [] ⟨.mainnet, none, none⟩ 2 (by decide)).mpr ⟨?_, ?_⟩, by decide +kernel⟩
  · exact fun _ _ _ _ atEnd => nomatch atEnd
  · intro page time before
    have few := List.countP_le_length (p := fun row : ArchiveRow => decide (time ≤ row.archivedAt.order))
      (l := matching [first, second] ⟨.mainnet, none, none⟩)
    have two : (matching [first, second] ⟨.mainnet, none, none⟩).length = 2 := by decide +kernel
    omega

end TransactionMonitoring.ArchivePages
