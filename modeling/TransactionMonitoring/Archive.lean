import Mathlib.Data.List.Sort
import Mathlib.Data.Nat.Digits.Defs
import Mathlib.Data.String.Basic
import TransactionMonitoring.Csv
import TransactionMonitoring.Replacing
import TransactionMonitoring.WhiteSpace

/-! The archive of known false positives, exported as text on one instance and imported on another.

The export neutralises what a spreadsheet would take for a formula, the page trims and fills in, and the
endpoint checks lengths.  The three agree on every text that the first of them leaves alone.
-/
namespace TransactionMonitoring.Archive
open Replacing WhiteSpace

/-! ## The entries -/

/-- `NetworkType`. -/
inductive Network where
  | mainnet | preprod | preview
deriving DecidableEq, Repr

def Network.text : Network → String
  | mainnet => "mainnet"
  | preprod => "preprod"
  | preview => "preview"

def daysIn (year month : ℕ) : ℕ :=
  if month = 2 then if year % 4 = 0 ∧ (year % 100 ≠ 0 ∨ year % 400 = 0) then 29 else 28
  else if month ∈ [4, 6, 9, 11] then 30
  else 31

/-- A naive UTC time, whole seconds, of the years a `DateTime` column holds. -/
structure Datetime where
  year : ℕ
  month : ℕ
  day : ℕ
  hour : ℕ
  minute : ℕ
  second : ℕ
  year_ok : 1970 ≤ year ∧ year ≤ 2106
  month_ok : 1 ≤ month ∧ month ≤ 12
  day_ok : 1 ≤ day ∧ day ≤ daysIn year month
  time_ok : hour < 24 ∧ minute < 60 ∧ second < 60
deriving DecidableEq, Repr

/-- A number that orders the times. -/
def Datetime.order (time : Datetime) : ℕ :=
  ((((time.year * 13 + time.month) * 32 + time.day) * 24 + time.hour) * 60 + time.minute) * 60 + time.second

/-- `TX_HASH_PATTERN`. -/
def txHashPattern (txHash : String) : Bool :=
  txHash.length = 64 && txHash.toList.all fun c => ('0' ≤ c && c ≤ '9') || ('a' ≤ c && c ≤ 'f')

/-- `min_length` and `max_length` of a field. -/
def within (low high : ℕ) (text : String) : Bool := low ≤ text.length && text.length ≤ high

/-- `ArchiveEntry`: what the API admits. -/
structure ArchiveEntry where
  network : Network
  txHash : String
  note : String
  archivedBy : String
  txHash_ok : txHashPattern txHash = true
  note_ok : within 1 2000 note = true
  archivedBy_ok : within 1 200 archivedBy = true
deriving DecidableEq, Repr

/-- A row of `archived_alerts`. -/
structure ArchiveRow extends ArchiveEntry where
  archivedAt : Datetime
  source : String
deriving DecidableEq, Repr

/-- The table's key. -/
def ArchiveEntry.key (entry : ArchiveEntry) : Network × String := (entry.network, entry.txHash)

def ArchiveRow.version (row : ArchiveRow) : ℕ := row.archivedAt.order

/-- The table as a `FINAL` read shows it. -/
def shown (table : List ArchiveRow) : List ArchiveRow :=
  finalRows (fun row : ArchiveRow => row.key) ArchiveRow.version table

/-- What of a row has to survive. -/
def content (row : ArchiveRow) : Network × String × String × String × Datetime :=
  (row.network, row.txHash, row.note, row.archivedBy, row.archivedAt)

/-! ## The export -/

/-- `CSV_COLUMNS`. -/
def csvColumns : List String := ["network", "tx_hash", "note", "archived_by", "archived_at", "source"]

/-- `_CSV_DANGEROUS_PREFIXES`. -/
def csvDangerousPrefixes : List Char := ['=', '+', '-', '@', '\t', '\r']

def startsFormula (value : String) : Bool :=
  match value.toList with
  | [] => false
  | c :: _ => csvDangerousPrefixes.contains c

/-- `_csv_safe`. -/
def csvSafe (value : String) : String := if startsFormula value then "'" ++ value else value

/-- A number in so many decimal digits. -/
def padded : ℕ → ℕ → List Char
  | 0, _ => []
  | width + 1, n => padded width (n / 10) ++ [Nat.digitChar (n % 10)]

/-- `format_iso_utc`. -/
def formatIsoUtc (time : Datetime) : String :=
  String.ofList (padded 4 time.year ++ '-' :: padded 2 time.month ++ '-' :: padded 2 time.day ++ 'T' ::
    padded 2 time.hour ++ ':' :: padded 2 time.minute ++ ':' :: padded 2 time.second ++ ['Z'])

/-- `_archive_export_rows`. -/
def exportRows (table : List ArchiveRow) (network : Network) (dateFrom dateTo : Option Datetime) : List ArchiveRow :=
  ((shown table).filter fun row =>
    row.network = network && dateFrom.all (fun first => first.order ≤ row.archivedAt.order) &&
      dateTo.all fun last => row.archivedAt.order ≤ last.order).insertionSort
    fun first second => second.archivedAt.order ≤ first.archivedAt.order

def csvRow (row : ArchiveRow) : List String :=
  [row.network.text, row.txHash, csvSafe row.note, csvSafe row.archivedBy, formatIsoUtc row.archivedAt,
    csvSafe row.source]

/-- `export_csv`. -/
def exportCsv (table : List ArchiveRow) (network : Network) (dateFrom dateTo : Option Datetime) : String :=
  Csv.write (csvColumns :: (exportRows table network dateFrom dateTo).map csvRow)

/-! ## The import page -/

/-- `toLowerCase`, as far as a network's name depends on it. -/
def toLowerCase (text : String) : String := String.ofList (text.toList.map Char.toLower)

/-- `VALID_NETWORKS`. -/
def validNetwork (text : String) : Option Network :=
  [Network.mainnet, .preprod, .preview].find? fun network => network.text = text

/-- A row under the header's names. -/
abbrev CsvRecord := List (String × String)

/-- A column, trimmed; nothing where the row has none. -/
def CsvRecord.get (record : CsvRecord) (column : String) : String := trim ((record.lookup column).getD "")

/-- The page's `ArchiveBulkEntry`. -/
structure BulkEntry where
  network : Network
  txHash : String
  note : String
  archivedBy : String
  archivedAt : Option String
  source : Option String
deriving DecidableEq, Repr

structure InvalidRow where
  row : ℕ
  reason : String
deriving DecidableEq, Repr

structure ParseResult where
  valid : List BulkEntry
  invalid : List InvalidRow

/-- `||` with a default. -/
def orElse (text fallback : String) : String := if text = "" then fallback else text

def orUndefined (text : String) : Option String := if text = "" then none else some text

/-- The entry of one row, `current` being the page's network. -/
def transformRow (current : Network) (record : CsvRecord) : Option BulkEntry :=
  if record.get "tx_hash" = "" then none
  else some {
    network := (validNetwork (toLowerCase (record.get "network"))).getD current
    txHash := record.get "tx_hash"
    note := orElse (record.get "note") "Imported"
    archivedBy := orElse (record.get "archived_by") "Unknown"
    archivedAt := orUndefined (record.get "archived_at")
    source := orUndefined (record.get "source") }

/-- `transformRows`. -/
def transformRows (current : Network) (records : List CsvRecord) : ParseResult where
  valid := records.filterMap (transformRow current)
  invalid := (records.zipIdx.filter fun record => record.1.get "tx_hash" = "").map fun record =>
    ⟨record.2 + 2, "missing tx_hash"⟩

/-! ## The bulk endpoint -/

/-- `ArchiveBulkEntry`. -/
structure ArchiveBulkEntry extends ArchiveEntry where
  archivedAt : Option Datetime
  source : Option String
deriving DecidableEq, Repr

section Endpoint
variable (parseDatetime : String → Option Datetime)

/-- An entry of the request, checked. -/
def checkEntry (entry : BulkEntry) : Option ArchiveBulkEntry :=
  if ok : txHashPattern entry.txHash = true ∧ within 1 2000 entry.note = true ∧
      within 1 200 entry.archivedBy = true then
    (match entry.archivedAt with
      | none => some none
      | some text => (parseDatetime text).map some).map fun archivedAt =>
        { network := entry.network, txHash := entry.txHash, note := entry.note, archivedBy := entry.archivedBy
          txHash_ok := ok.1, note_ok := ok.2.1, archivedBy_ok := ok.2.2
          archivedAt := archivedAt, source := entry.source }
  else none

/-- `BulkArchiveRequest`. -/
def checkRequest (entries : List BulkEntry) (sourceLabel : String) : Option (List ArchiveBulkEntry) :=
  if 1 ≤ entries.length ∧ entries.length ≤ 2000 ∧ within 1 200 sourceLabel = true then
    entries.mapM (checkEntry parseDatetime)
  else none

/-- The row an entry is inserted as. -/
def insertedRow (now : Datetime) (sourceLabel : String) (entry : ArchiveBulkEntry) : ArchiveRow :=
  { entry.toArchiveEntry with
    archivedAt := entry.archivedAt.getD now
    source := "import:" ++ sourceLabel }

/-- The loop of `_archive_bulk_insert`: the rows to insert and the number skipped. -/
def bulkLoop (now : Datetime) (sourceLabel : String) (existing : List (Network × String)) :
    List (Network × String) → List ArchiveBulkEntry → List ArchiveRow × ℕ
  | _, [] => ([], 0)
  | seen, entry :: rest =>
    if entry.key ∈ existing ∨ entry.key ∈ seen then
      let (toInsert, skipped) := bulkLoop now sourceLabel existing seen rest
      (toInsert, skipped + 1)
    else
      let (toInsert, skipped) := bulkLoop now sourceLabel existing (entry.key :: seen) rest
      (insertedRow now sourceLabel entry :: toInsert, skipped)

structure BulkResult where
  inserted : ℕ
  skipped : ℕ
  table : List ArchiveRow

/-- `_archive_bulk_insert`. -/
def archiveBulkInsert (now : Datetime) (table : List ArchiveRow) (entries : List ArchiveBulkEntry)
    (sourceLabel : String) : BulkResult :=
  let pairs := entries.map fun entry => entry.key
  let existing := ((shown table).map fun row => row.key).filter fun key => key ∈ pairs
  let (toInsert, skipped) := bulkLoop now sourceLabel existing [] entries
  ⟨toInsert.length, skipped, table ++ toInsert⟩

/-- A file imported through the page: the table afterwards, or nothing where the request is refused.
Without a valid row the page sends no request. -/
def importCsv (parseCsv : String → List CsvRecord) (current : Network) (now : Datetime) (table : List ArchiveRow)
    (file : String) : Option (List ArchiveRow) :=
  let parsed := transformRows current (parseCsv file)
  if parsed.valid = [] then some table
  else (checkRequest parseDatetime parsed.valid "frontend-csv").map fun entries =>
    (archiveBulkInsert now table entries "frontend-csv").table

end Endpoint

/-! ## What trimming leaves alone -/

theorem toList_csvSafe (value : String) :
    (csvSafe value).toList = if startsFormula value then '\'' :: value.toList else value.toList := by
  rw [csvSafe]
  split
  · rw [String.toList_append]
    rfl
  · rfl

/-- The quote before a formula leaves trimmed text trimmed. -/
theorem trim_csvSafe {value : String} (trimmed : trim value = value) : trim (csvSafe value) = csvSafe value := by
  obtain ⟨front, back⟩ := (trim_eq_iff value).mp trimmed
  rw [trim_eq_iff, toList_csvSafe]
  split
  · rename_i formula
    refine ⟨List.dropWhile_cons_of_neg (by decide), ?_⟩
    have nonempty : value.toList ≠ [] := by
      intro empty
      rw [startsFormula, empty] at formula
      cases formula
    rw [List.rdropWhile_eq_self_iff] at back ⊢
    intro _
    rw [List.getLast_cons nonempty]
    exact back nonempty
  · exact ⟨front, back⟩

theorem length_csvSafe (value : String) :
    (csvSafe value).length = if startsFormula value then value.length + 1 else value.length := by
  rw [← String.length_toList, toList_csvSafe]
  split
  · rw [List.length_cons, String.length_toList]
  · rw [String.length_toList]

theorem csvSafe_eq_iff (value : String) : csvSafe value = value ↔ startsFormula value = false := by
  constructor
  · intro same
    have lengths := length_csvSafe value
    rw [same] at lengths
    cases formula : startsFormula value with
    | false => rfl
    | true =>
      rw [formula, if_pos rfl] at lengths
      omega
  · intro formula
    rw [csvSafe, formula]
    rfl

theorem padded_clear (width n : ℕ) : ∀ c ∈ padded width n, isTrimmable c = false := by
  have digit : ∀ k < 10, isTrimmable (Nat.digitChar k) = false := by decide
  induction width generalizing n with
  | zero => simp [padded]
  | succ width ih =>
    rw [padded, List.forall_mem_append]
    exact ⟨ih _, List.forall_mem_singleton.mpr (digit _ (Nat.mod_lt n (by omega)))⟩

theorem trim_formatIsoUtc (time : Datetime) : trim (formatIsoUtc time) = formatIsoUtc time := by
  apply trim_clear
  have dash : isTrimmable '-' = false := by decide
  have t : isTrimmable 'T' = false := by decide
  have colon : isTrimmable ':' = false := by decide
  have z : isTrimmable 'Z' = false := by decide
  rw [formatIsoUtc, String.toList_ofList]
  simp only [List.append_assoc, List.cons_append, List.forall_mem_append, List.forall_mem_cons, List.not_mem_nil,
    false_imp_iff, implies_true, dash, t, colon, z, true_and, and_true]
  exact ⟨padded_clear _ _, padded_clear _ _, padded_clear _ _, padded_clear _ _, padded_clear _ _, padded_clear _ _⟩

theorem formatIsoUtc_ne (time : Datetime) : formatIsoUtc time ≠ "" := by
  intro empty
  have chars := congrArg String.toList empty
  rw [formatIsoUtc, String.toList_ofList] at chars
  simp at chars

theorem hash_clear {txHash : String} (ok : txHashPattern txHash = true) :
    ∀ c ∈ txHash.toList, isTrimmable c = false := by
  intro c member
  rw [txHashPattern, Bool.and_eq_true, List.all_eq_true] at ok
  have hex := ok.2 c member
  simp only [Bool.or_eq_true, Bool.and_eq_true, decide_eq_true_eq, Char.le_def, UInt32.le_iff_toNat_le] at hex
  have zero : ('0'.val).toNat = 48 := rfl
  have nine : ('9'.val).toNat = 57 := rfl
  have a : ('a'.val).toNat = 97 := rfl
  have f : ('f'.val).toNat = 102 := rfl
  have code : c.toNat = c.val.toNat := rfl
  simp only [isTrimmable, Bool.or_eq_false_iff, Bool.and_eq_false_iff, List.contains_eq_mem, decide_eq_false_iff_not,
    List.mem_cons, List.not_mem_nil, or_false]
  omega

theorem hash_ne {txHash : String} (ok : txHashPattern txHash = true) : txHash ≠ "" := by
  rintro rfl
  exact absurd ok (by decide)

/-! ## The row the page sends for an exported one -/

def sent (row : ArchiveRow) : BulkEntry where
  network := row.network
  txHash := row.txHash
  note := csvSafe row.note
  archivedBy := csvSafe row.archivedBy
  archivedAt := some (formatIsoUtc row.archivedAt)
  source := orUndefined (trim (csvSafe row.source))

theorem csvSafe_ne {low high : ℕ} (positive : 1 ≤ low) {value : String} (ok : within low high value = true) :
    csvSafe value ≠ "" := by
  intro empty
  have length := length_csvSafe value
  rw [empty, String.length_empty] at length
  rw [within, Bool.and_eq_true, decide_eq_true_eq] at ok
  split at length <;> omega

theorem validNetwork_text (network : Network) :
    validNetwork (toLowerCase (trim network.text)) = some network := by
  cases network <;> decide

theorem transformRow_exported (current : Network) (row : ArchiveRow) (note : trim row.note = row.note)
    (archivedBy : trim row.archivedBy = row.archivedBy) :
    transformRow current (csvColumns.zip (csvRow row)) = some (sent row) := by
  have network : CsvRecord.get (csvColumns.zip (csvRow row)) "network" = trim row.network.text := by
    simp [CsvRecord.get, csvColumns, csvRow]
  have txHash : CsvRecord.get (csvColumns.zip (csvRow row)) "tx_hash" = row.txHash := by
    rw [← trim_clear (hash_clear row.txHash_ok)]
    simp [CsvRecord.get, csvColumns, csvRow, List.lookup_cons]
  have noteField : CsvRecord.get (csvColumns.zip (csvRow row)) "note" = csvSafe row.note := by
    rw [← trim_csvSafe note]
    simp [CsvRecord.get, csvColumns, csvRow, List.lookup_cons]
  have archivedByField : CsvRecord.get (csvColumns.zip (csvRow row)) "archived_by" = csvSafe row.archivedBy := by
    rw [← trim_csvSafe archivedBy]
    simp [CsvRecord.get, csvColumns, csvRow, List.lookup_cons]
  have archivedAt : CsvRecord.get (csvColumns.zip (csvRow row)) "archived_at" = formatIsoUtc row.archivedAt := by
    rw [← trim_formatIsoUtc]
    simp [CsvRecord.get, csvColumns, csvRow, List.lookup_cons]
  have source : CsvRecord.get (csvColumns.zip (csvRow row)) "source" = trim (csvSafe row.source) := by
    simp [CsvRecord.get, csvColumns, csvRow, List.lookup_cons]
  rw [transformRow, network, txHash, noteField, archivedByField, archivedAt, source, if_neg (hash_ne row.txHash_ok),
    validNetwork_text, orElse, if_neg (csvSafe_ne le_rfl row.note_ok), orElse,
    if_neg (csvSafe_ne le_rfl row.archivedBy_ok), orUndefined, if_neg (formatIsoUtc_ne _)]
  rfl

/-- The exported rows, under the header's names, are all sent. -/
theorem transformRows_exported (current : Network) {rows : List ArchiveRow}
    (trimmed : ∀ row ∈ rows, trim row.note = row.note ∧ trim row.archivedBy = row.archivedBy) :
    (transformRows current ((rows.map csvRow).map csvColumns.zip)).valid = rows.map sent := by
  have each : ∀ row ∈ rows, transformRow current (csvColumns.zip (csvRow row)) = some (sent row) :=
    fun row member => transformRow_exported current row (trimmed row member).1 (trimmed row member).2
  calc (transformRows current ((rows.map csvRow).map csvColumns.zip)).valid
      = rows.filterMap fun row => transformRow current (csvColumns.zip (csvRow row)) := by
        simp only [transformRows, List.map_map, List.filterMap_map, Function.comp_def]
    _ = rows.filterMap fun row => some (sent row) := List.filterMap_congr each
    _ = rows.map sent := congrFun List.filterMap_eq_map rows

/-! ## What the endpoint stores -/

section Endpoint
variable {parseDatetime : String → Option Datetime}

/-- An entry that passes keeps the texts that were sent. -/
theorem checked_sent {row : ArchiveRow} {entry : ArchiveBulkEntry}
    (checked : checkEntry parseDatetime (sent row) = some entry) :
    entry.key = row.key ∧ entry.note = csvSafe row.note ∧ entry.archivedBy = csvSafe row.archivedBy := by
  rw [checkEntry] at checked
  split at checked
  · obtain ⟨archivedAt, -, rfl⟩ := Option.map_eq_some_iff.mp checked
    exact ⟨rfl, rfl, rfl⟩
  · cases checked

/-- The entry checked for a row without formulas. -/
def kept (row : ArchiveRow) : ArchiveBulkEntry :=
  { row.toArchiveEntry with archivedAt := some row.archivedAt, source := (sent row).source }

theorem checkEntry_kept (reads : ∀ time, parseDatetime (formatIsoUtc time) = some time) {row : ArchiveRow}
    (note : startsFormula row.note = false) (archivedBy : startsFormula row.archivedBy = false) :
    checkEntry parseDatetime (sent row) = some (kept row) := by
  have sameNote : (sent row).note = row.note := (csvSafe_eq_iff row.note).mpr note
  have sameArchivedBy : (sent row).archivedBy = row.archivedBy := (csvSafe_eq_iff row.archivedBy).mpr archivedBy
  have time : (sent row).archivedAt = some (formatIsoUtc row.archivedAt) := rfl
  rw [checkEntry, dif_pos ⟨row.txHash_ok, by rw [sameNote]; exact row.note_ok,
    by rw [sameArchivedBy]; exact row.archivedBy_ok⟩]
  simp only [time, reads, Option.map_some, sameNote, sameArchivedBy, kept]
  rfl

variable {now : Datetime} {sourceLabel : String} {existing : List (Network × String)}

theorem mem_bulkLoop {seen : List (Network × String)} {entries : List ArchiveBulkEntry} {row : ArchiveRow}
    (member : row ∈ (bulkLoop now sourceLabel existing seen entries).1) :
    ∃ entry ∈ entries, row = insertedRow now sourceLabel entry := by
  induction entries generalizing seen with
  | nil => cases member
  | cons entry rest ih =>
    rw [bulkLoop] at member
    split at member
    · obtain ⟨other, later, same⟩ := ih member
      exact ⟨other, List.mem_cons_of_mem _ later, same⟩
    · rcases List.mem_cons.mp member with same | member
      · exact ⟨entry, List.mem_cons_self, same⟩
      · obtain ⟨other, later, same⟩ := ih member
        exact ⟨other, List.mem_cons_of_mem _ later, same⟩

/-- Entries of distinct new keys are all inserted. -/
theorem bulkLoop_distinct {seen : List (Network × String)} {entries : List ArchiveBulkEntry}
    (distinct : (entries.map fun entry => entry.key).Nodup)
    (fresh : ∀ entry ∈ entries, entry.key ∉ existing ∧ entry.key ∉ seen) :
    bulkLoop now sourceLabel existing seen entries = (entries.map (insertedRow now sourceLabel), 0) := by
  induction entries generalizing seen with
  | nil => rfl
  | cons entry rest ih =>
    rw [List.map_cons, List.nodup_cons] at distinct
    have onward : ∀ later ∈ rest, later.key ∉ existing ∧ later.key ∉ entry.key :: seen := by
      intro later member
      obtain ⟨new, unseen⟩ := fresh later (List.mem_cons_of_mem _ member)
      refine ⟨new, List.not_mem_cons_of_ne_of_not_mem (fun same => distinct.1 ?_) unseen⟩
      exact List.mem_map.mpr ⟨later, member, same⟩
    rw [bulkLoop, if_neg (not_or.mpr (fresh entry List.mem_cons_self)), ih distinct.2 onward]
    rfl

end Endpoint

/-! ## The round trip -/

theorem keys_exportRows (table : List ArchiveRow) (network : Network) (dateFrom dateTo : Option Datetime) :
    ((exportRows table network dateFrom dateTo).map fun row => row.key).Nodup := by
  rw [exportRows, ((List.perm_insertionSort _ _).map _).nodup_iff]
  exact (keys_finalRows (fun row : ArchiveRow => row.key) ArchiveRow.version table).sublist
    (List.filter_sublist.map _)

/-- The export of the one instance, imported on an empty one, is accepted and stores the same. -/
def RoundTrips (parseDatetime : String → Option Datetime) (parseCsv : String → List CsvRecord) (current : Network)
    (now : Datetime) (table : List ArchiveRow) (network : Network) (dateFrom dateTo : Option Datetime) : Prop :=
  ∃ stored, importCsv parseDatetime parseCsv current now [] (exportCsv table network dateFrom dateTo) = some stored ∧
    ∀ c, c ∈ (shown stored).map content ↔ c ∈ (exportRows table network dateFrom dateTo).map content

theorem mapM_mem {α β : Type} {f : α → Option β} {l : List α} {image : List β} (mapped : l.mapM f = some image) :
    ∀ b ∈ image, ∃ a ∈ l, f a = some b := by
  induction l generalizing image with
  | nil =>
    cases mapped
    simp
  | cons a rest ih =>
    simp only [List.mapM_cons, Option.bind_eq_bind, Option.bind_eq_some_iff, Option.pure_def,
      Option.some.injEq] at mapped
    obtain ⟨b, first, others, later, rfl⟩ := mapped
    refine List.forall_mem_cons.mpr ⟨⟨a, List.mem_cons_self, first⟩, fun other member => ?_⟩
    obtain ⟨source, known, found⟩ := ih later other member
    exact ⟨source, List.mem_cons_of_mem _ known, found⟩

theorem mapM_map {α β γ : Type} {f : α → Option β} {view : γ → α} {g : γ → β} {l : List γ}
    (all : ∀ c ∈ l, f (view c) = some (g c)) : (l.map view).mapM f = some (l.map g) := by
  induction l with
  | nil => rfl
  | cons c rest ih =>
    rw [List.map_cons, List.mapM_cons, all c List.mem_cons_self,
      ih fun later member => all later (List.mem_cons_of_mem _ member)]
    rfl

section RoundTrip
variable {parseDatetime : String → Option Datetime} {parseCsv : String → List CsvRecord} {current : Network}
  {now : Datetime} {table : List ArchiveRow} {network : Network} {dateFrom dateTo : Option Datetime}

/-- The page's entries for an exported file are the sent rows. -/
theorem parsed_export (current : Network)
    (inverts : ∀ rows : List (List String), (∀ row ∈ rows, row.length = csvColumns.length) →
      parseCsv (Csv.write (csvColumns :: rows)) = rows.map csvColumns.zip)
    (trimmed : ∀ row ∈ exportRows table network dateFrom dateTo,
      trim row.note = row.note ∧ trim row.archivedBy = row.archivedBy) :
    (transformRows current (parseCsv (exportCsv table network dateFrom dateTo))).valid =
      (exportRows table network dateFrom dateTo).map sent := by
  have columns : ∀ row ∈ (exportRows table network dateFrom dateTo).map csvRow, row.length = csvColumns.length := by
    intro row member
    obtain ⟨exported, -, rfl⟩ := List.mem_map.mp member
    simp only [csvRow, csvColumns, List.length_cons]
  rw [exportCsv, inverts _ columns, transformRows_exported current trimmed]

/-- Whatever an accepted import stores was sent for an exported row. -/
theorem stored_sent {rows : List ArchiveRow} {file : String} {stored : List ArchiveRow}
    (parsed : (transformRows current (parseCsv file)).valid = rows.map sent)
    (imported : importCsv parseDatetime parseCsv current now [] file = some stored) :
    ∀ held ∈ stored, ∃ row ∈ rows, held.key = row.key ∧ held.note = csvSafe row.note ∧
      held.archivedBy = csvSafe row.archivedBy := by
  intro held member
  simp only [importCsv, parsed] at imported
  split at imported
  · cases imported
    cases member
  · obtain ⟨entries, checked, rfl⟩ := Option.map_eq_some_iff.mp imported
    obtain ⟨entry, known, rfl⟩ := mem_bulkLoop member
    rw [checkRequest] at checked
    split at checked
    · obtain ⟨_, sentRow, passes⟩ := mapM_mem checked entry known
      obtain ⟨row, exported, rfl⟩ := List.mem_map.mp sentRow
      exact ⟨row, exported, checked_sent passes⟩
    · cases checked

/-- Rows without formulas are accepted and stored as they were. -/
theorem import_kept {rows : List ArchiveRow} {file : String}
    (reads : ∀ time, parseDatetime (formatIsoUtc time) = some time)
    (parsed : (transformRows current (parseCsv file)).valid = rows.map sent) (few : rows.length ≤ 2000)
    (distinct : (rows.map fun row => row.key).Nodup)
    (plain : ∀ row ∈ rows, startsFormula row.note = false ∧ startsFormula row.archivedBy = false) :
    importCsv parseDatetime parseCsv current now [] file =
      some (rows.map fun row => insertedRow now "frontend-csv" (kept row)) := by
  simp only [importCsv, parsed]
  split
  · rename_i empty
    rw [List.map_eq_nil_iff.mp empty]
    rfl
  · rename_i nonempty
    have requested : checkRequest parseDatetime (rows.map sent) "frontend-csv" = some (rows.map kept) := by
      have enough : 1 ≤ (rows.map sent).length := List.length_pos_of_ne_nil nonempty
      rw [checkRequest, if_pos ⟨enough, by rwa [List.length_map], by decide⟩]
      exact mapM_map fun row member => checkEntry_kept reads (plain row member).1 (plain row member).2
    have keys : ((rows.map kept).map fun entry => entry.key).Nodup := by
      rw [List.map_map]
      exact distinct
    rw [requested, Option.map_some, archiveBulkInsert, bulkLoop_distinct keys (by simp [shown, finalRows])]
    rw [List.map_map]
    rfl

/-- What survives the round trip was not changed by the export. -/
theorem texts_kept
    (inverts : ∀ rows : List (List String), (∀ row ∈ rows, row.length = csvColumns.length) →
      parseCsv (Csv.write (csvColumns :: rows)) = rows.map csvColumns.zip)
    (trimmed : ∀ row ∈ exportRows table network dateFrom dateTo,
      trim row.note = row.note ∧ trim row.archivedBy = row.archivedBy)
    (round : RoundTrips parseDatetime parseCsv current now table network dateFrom dateTo) :
    ∀ row ∈ exportRows table network dateFrom dateTo,
      csvSafe row.note = row.note ∧ csvSafe row.archivedBy = row.archivedBy := by
  intro row member
  obtain ⟨stored, imported, same⟩ := round
  obtain ⟨held, visible, alike⟩ := List.mem_map.mp ((same (content row)).mpr (List.mem_map_of_mem member))
  have known := (final_mem _ _ ((mem_finalRows _ _).mp visible)).1
  obtain ⟨source, exported, key, note, archivedBy⟩ :=
    stored_sent (parsed_export current inverts trimmed) imported held known
  simp only [content, Prod.mk.injEq] at alike
  have sameKey : source.key = row.key := by
    rw [← key]
    exact Prod.ext alike.1 alike.2.1
  obtain rfl := List.inj_on_of_nodup_map (keys_exportRows table network dateFrom dateTo) exported member sameKey
  exact ⟨note.symm.trans alike.2.2.1, archivedBy.symm.trans alike.2.2.2.1⟩

/-- An archive of trimmed texts survives its export and import exactly when no exported text begins like a
formula. -/
theorem archive_round_trips_iff
    (inverts : ∀ rows : List (List String), (∀ row ∈ rows, row.length = csvColumns.length) →
      parseCsv (Csv.write (csvColumns :: rows)) = rows.map csvColumns.zip)
    (reads : ∀ time, parseDatetime (formatIsoUtc time) = some time)
    (few : (exportRows table network dateFrom dateTo).length ≤ 2000)
    (trimmed : ∀ row ∈ exportRows table network dateFrom dateTo,
      trim row.note = row.note ∧ trim row.archivedBy = row.archivedBy) :
    RoundTrips parseDatetime parseCsv current now table network dateFrom dateTo ↔
      ∀ row ∈ exportRows table network dateFrom dateTo,
        startsFormula row.note = false ∧ startsFormula row.archivedBy = false := by
  constructor
  · intro round row member
    obtain ⟨note, archivedBy⟩ := texts_kept inverts trimmed round row member
    exact ⟨(csvSafe_eq_iff _).mp note, (csvSafe_eq_iff _).mp archivedBy⟩
  · intro plain
    have distinct := keys_exportRows table network dateFrom dateTo
    refine ⟨_, import_kept reads (parsed_export current inverts trimmed) few distinct plain, fun c => ?_⟩
    have keys : (((exportRows table network dateFrom dateTo).map fun row =>
        insertedRow now "frontend-csv" (kept row)).map fun row => row.key).Nodup := by
      rw [List.map_map]
      exact distinct
    have members := mem_finalRows_of_distinct (fun row : ArchiveRow => row.key) ArchiveRow.version keys
    simp only [shown, List.mem_map, members]
    constructor
    · rintro ⟨_, ⟨row, member, rfl⟩, rfl⟩
      exact ⟨row, member, rfl⟩
    · rintro ⟨row, member, rfl⟩
      exact ⟨_, ⟨row, member, rfl⟩, rfl⟩

end RoundTrip

/-! ## Readers of the two formats -/

def digits (chars : List Char) : ℕ := chars.foldl (fun n c => 10 * n + (c.toNat - 48)) 0

theorem digits_padded (width : ℕ) {n : ℕ} (small : n < 10 ^ width) : digits (padded width n) = n := by
  have digit : ∀ k < 10, (Nat.digitChar k).toNat - 48 = k := by decide
  induction width generalizing n with
  | zero =>
    rw [Nat.pow_zero, Nat.lt_one_iff] at small
    rw [small]
    rfl
  | succ width ih =>
    have shorter : n / 10 < 10 ^ width := by
      rw [Nat.pow_succ] at small
      omega
    have front := ih shorter
    rw [digits] at front
    rw [padded, digits, List.foldl_append, front, List.foldl_cons, List.foldl_nil, digit _ (Nat.mod_lt n (by omega))]
    omega

def datetimeOf (year month day hour minute second : ℕ) : Option Datetime :=
  if ok : (1970 ≤ year ∧ year ≤ 2106) ∧ (1 ≤ month ∧ month ≤ 12) ∧ (1 ≤ day ∧ day ≤ daysIn year month) ∧
      hour < 24 ∧ minute < 60 ∧ second < 60 then
    some ⟨year, month, day, hour, minute, second, ok.1, ok.2.1, ok.2.2.1, ok.2.2.2⟩
  else none

def numberAt (text : String) (start width : ℕ) : ℕ := digits ((text.toList.drop start).take width)

/-- A reader of the exported times. -/
def readIsoUtc (text : String) : Option Datetime :=
  (datetimeOf (numberAt text 0 4) (numberAt text 5 2) (numberAt text 8 2) (numberAt text 11 2) (numberAt text 14 2)
    (numberAt text 17 2)).filter fun time => formatIsoUtc time = text

theorem readIsoUtc_format (time : Datetime) : readIsoUtc (formatIsoUtc time) = some time := by
  have days : daysIn time.year time.month ≤ 31 := by
    rw [daysIn]
    split
    · split <;> omega
    · split <;> omega
  obtain ⟨-, late⟩ := time.year_ok
  obtain ⟨-, lastMonth⟩ := time.month_ok
  obtain ⟨-, lastDay⟩ := time.day_ok
  obtain ⟨hour, minute, second⟩ := time.time_ok
  have chars : (formatIsoUtc time).toList = padded 4 time.year ++ '-' :: padded 2 time.month ++ '-' ::
      padded 2 time.day ++ 'T' :: padded 2 time.hour ++ ':' :: padded 2 time.minute ++ ':' ::
      padded 2 time.second ++ ['Z'] := String.toList_ofList
  have yearRead : numberAt (formatIsoUtc time) 0 4 = time.year := by
    rw [numberAt, chars]
    exact digits_padded 4 (by omega)
  have monthRead : numberAt (formatIsoUtc time) 5 2 = time.month := by
    rw [numberAt, chars]
    exact digits_padded 2 (by omega)
  have dayRead : numberAt (formatIsoUtc time) 8 2 = time.day := by
    rw [numberAt, chars]
    exact digits_padded 2 (by omega)
  have hourRead : numberAt (formatIsoUtc time) 11 2 = time.hour := by
    rw [numberAt, chars]
    exact digits_padded 2 (by omega)
  have minuteRead : numberAt (formatIsoUtc time) 14 2 = time.minute := by
    rw [numberAt, chars]
    exact digits_padded 2 (by omega)
  have secondRead : numberAt (formatIsoUtc time) 17 2 = time.second := by
    rw [numberAt, chars]
    exact digits_padded 2 (by omega)
  have whole : datetimeOf time.year time.month time.day time.hour time.minute time.second = some time :=
    dif_pos ⟨time.year_ok, time.month_ok, time.day_ok, time.time_ok⟩
  rw [readIsoUtc, yearRead, monthRead, dayRead, hourRead, minuteRead, secondRead, whole]
  simp

theorem readWithHeader_exported (rows : List (List String)) (columns : ∀ row ∈ rows, row.length = csvColumns.length) :
    Csv.readWithHeader (Csv.write (csvColumns :: rows)) = rows.map csvColumns.zip := by
  apply Csv.readWithHeader_write (List.cons_ne_nil _ _)
  rintro row member rfl
  exact absurd (columns [] member) (by decide)

/-- A row of the archive with a note. -/
def archived (note : String) (ok : within 1 2000 note = true) : ArchiveRow where
  network := .mainnet
  txHash := "00112233445566778899aabbccddeeff00112233445566778899aabbccddeeff"
  note := note
  archivedBy := "alice"
  txHash_ok := by decide
  note_ok := ok
  archivedBy_ok := by decide
  archivedAt := ⟨2024, 2, 29, 23, 59, 7, by decide, by decide, by decide, by decide⟩
  source := "local"

theorem quotes_and_lines_round_trip :
    RoundTrips readIsoUtc Csv.readWithHeader .preprod (archived "n" (by decide)).archivedAt
      [archived "said \"no\", twice\r\nthen = again" (by decide)] .mainnet none none :=
  (archive_round_trips_iff readWithHeader_exported readIsoUtc_format (by decide) (by decide)).mpr (by decide)

/-- The quote put before a formula is stored with it. -/
theorem formula_note_comes_back_quoted :
    (exportRows [archived "=1+1" (by decide)] .mainnet none none).length ≤ 2000 ∧
    (∀ row ∈ exportRows [archived "=1+1" (by decide)] .mainnet none none,
      trim row.note = row.note ∧ trim row.archivedBy = row.archivedBy) ∧
    ¬ RoundTrips readIsoUtc Csv.readWithHeader .mainnet (archived "n" (by decide)).archivedAt
      [archived "=1+1" (by decide)] .mainnet none none := by
  have trimmed : ∀ row ∈ exportRows [archived "=1+1" (by decide)] .mainnet none none,
      trim row.note = row.note ∧ trim row.archivedBy = row.archivedBy := by decide
  refine ⟨by decide, trimmed, fun round => ?_⟩
  have survives := texts_kept readWithHeader_exported trimmed round (archived "=1+1" (by decide)) (by decide)
  exact absurd survives.1 (by decide)

end TransactionMonitoring.Archive
