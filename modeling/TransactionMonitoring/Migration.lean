import Mathlib.Order.WithBot
import Mathlib.Data.List.Dedup
import Mathlib.Data.List.Basic
import Mathlib.Logic.Function.Basic
import TransactionMonitoring.Runs

/-! The migration to tables that keep one row per key.

The application is stopped while it runs.  It may be started any number of times, as a dry run or with `--apply`, and
may die between any two of its statements; an `INSERT` that fails may have written anything, and a `RENAME` onto a name
that is taken is refused.  What `execute_schema` does in the end is left out.
-/
namespace TransactionMonitoring.Migration
open Runs

/-- The live table, the one that is built beside it, and what a swap leaves behind: `t`, `t__mig` and
`t__legacy_<suffix>`. -/
inductive Name where
  | live (table : String)
  | mig (table : String)
  | legacy (table suffix : String)
deriving DecidableEq, Repr

/-- A row of `system.columns`. -/
structure Column where
  name : String
  type : String
  /-- `MATERIALIZED` or `ALIAS`. -/
  computed : Bool
deriving DecidableEq, Repr

/-- What a row holds in each column; the least value is `NULL`. -/
abbrev Row (ν : Type) := String → WithBot ν

structure Table (ν : Type) where
  engine : String
  /-- Whether there is a `PARTITION BY` in `engine_full`. -/
  partitioned : Bool
  columns : List Column
  rows : List (Row ν)

/-- The key columns and the version column of each table. -/
def dedupTableKeys : List (String × List String × String) :=
  [("transactions", ["network", "tx_hash"], "ingestion_timestamp"),
    ("transaction_inputs", ["network", "tx_hash", "input_index"], "ingestion_timestamp"),
    ("transaction_outputs", ["network", "tx_hash", "output_index"], "ingestion_timestamp"),
    ("address_transactions", ["network", "address", "slot", "tx_hash"], "ingestion_timestamp"),
    ("utxo_features", ["network", "tx_hash", "output_index"], "ingestion_timestamp"),
    ("tx_script_features", ["network", "tx_hash"], "ingestion_timestamp"),
    ("tx_class_scores", ["network", "tx_hash"], "analyzed_at"),
    ("archived_alerts", ["network", "tx_hash"], "archived_at")]

def wideCountColumns : List (String × List (String × String)) :=
  [("transactions", [("input_count", "UInt16"), ("output_count", "UInt16")]),
    ("transaction_inputs", [("input_index", "UInt16"), ("input_index_in_tx", "UInt16")]),
    ("transaction_outputs", [("output_index", "UInt16")])]

/-- The columns that `SCHEMA_DDL` gives each of these tables. -/
def schemaDdl : List (String × List Column) :=
  [("transactions",
      [⟨"tx_hash", "String", false⟩, ⟨"network", "String", false⟩, ⟨"slot", "Nullable(UInt64)", false⟩,
        ⟨"block_height", "Nullable(UInt32)", false⟩, ⟨"block_hash", "Nullable(String)", false⟩,
        ⟨"block_index", "Nullable(UInt32)", false⟩, ⟨"timestamp", "DateTime", false⟩, ⟨"fee", "UInt64", false⟩,
        ⟨"deposit", "Nullable(Int64)", false⟩, ⟨"input_count", "UInt16", false⟩, ⟨"output_count", "UInt16", false⟩,
        ⟨"total_input_value", "Nullable(UInt64)", false⟩, ⟨"total_output_value", "UInt64", false⟩,
        ⟨"addresses", "Array(String)", false⟩, ⟨"metadata", "String", false⟩, ⟨"raw_data", "String", false⟩,
        ⟨"raw_data_truncated", "UInt8", false⟩, ⟨"script_valid", "UInt8", false⟩,
        ⟨"ingestion_timestamp", "DateTime", false⟩]),
    ("transaction_inputs",
      [⟨"tx_hash", "String", false⟩, ⟨"network", "String", false⟩, ⟨"input_index", "UInt16", false⟩,
        ⟨"input_tx_hash", "String", false⟩, ⟨"input_index_in_tx", "UInt16", false⟩, ⟨"address", "String", false⟩,
        ⟨"amount", "UInt64", false⟩, ⟨"assets", "String", false⟩, ⟨"is_reference", "UInt8", false⟩,
        ⟨"is_collateral", "UInt8", false⟩, ⟨"is_unspent_attempt", "UInt8", false⟩,
        ⟨"ingestion_timestamp", "DateTime", false⟩]),
    ("transaction_outputs",
      [⟨"tx_hash", "String", false⟩, ⟨"network", "String", false⟩, ⟨"output_index", "UInt16", false⟩,
        ⟨"address", "String", false⟩, ⟨"amount", "UInt64", false⟩, ⟨"assets", "String", false⟩,
        ⟨"is_collateral", "UInt8", false⟩, ⟨"ingestion_timestamp", "DateTime", false⟩]),
    ("address_transactions",
      [⟨"network", "String", false⟩, ⟨"address", "String", false⟩, ⟨"slot", "UInt64", false⟩,
        ⟨"tx_hash", "String", false⟩, ⟨"timestamp", "DateTime", false⟩, ⟨"ingestion_timestamp", "DateTime", false⟩]),
    ("utxo_features",
      [⟨"tx_hash", "String", false⟩, ⟨"network", "String", false⟩, ⟨"output_index", "UInt16", false⟩,
        ⟨"address", "String", false⟩, ⟨"is_script_address", "UInt8", false⟩, ⟨"ada_amount", "UInt64", false⟩,
        ⟨"value_cbor_bytes", "UInt32", false⟩, ⟨"unique_policy_count", "UInt16", false⟩,
        ⟨"unique_token_count", "UInt16", false⟩, ⟨"datum_present", "UInt8", false⟩, ⟨"datum_bytes", "UInt32", false⟩,
        ⟨"datum_ratio", "Float32", false⟩, ⟨"utxo_total_bytes", "UInt32", false⟩,
        ⟨"ingestion_timestamp", "DateTime", false⟩]),
    ("tx_script_features",
      [⟨"tx_hash", "String", false⟩, ⟨"network", "String", false⟩, ⟨"redeemers_count", "UInt16", false⟩,
        ⟨"spending_inputs", "UInt16", false⟩, ⟨"exunits_mem_total", "UInt64", false⟩,
        ⟨"exunits_cpu_total", "UInt64", false⟩, ⟨"mint_policy_count", "UInt16", false⟩,
        ⟨"mint_entries", "String", false⟩, ⟨"ingestion_timestamp", "DateTime", false⟩]),
    ("tx_class_scores",
      [⟨"tx_hash", "String", false⟩, ⟨"network", "String", false⟩, ⟨"token_dust", "Float32", false⟩,
        ⟨"large_value", "Float32", false⟩, ⟨"large_datum", "Float32", false⟩, ⟨"multiple_sat", "Float32", false⟩,
        ⟨"front_running", "Float32", false⟩, ⟨"sandwich", "Float32", false⟩, ⟨"circular", "Float32", false⟩,
        ⟨"fake_token", "Float32", false⟩, ⟨"phishing", "Float32", false⟩, ⟨"max_score", "Float32", false⟩,
        ⟨"max_class", "String", false⟩, ⟨"risk_band", "String", false⟩, ⟨"sub_scores", "String", false⟩,
        ⟨"evidence", "String", false⟩, ⟨"corroboration_count", "UInt8", false⟩,
        ⟨"corroborating_classes", "String", false⟩, ⟨"contract_address", "String", false⟩,
        ⟨"analysis_version", "String", false⟩, ⟨"config_hash", "LowCardinality(String)", false⟩,
        ⟨"code_version", "LowCardinality(String)", false⟩, ⟨"analyzed_at", "DateTime", false⟩,
        ⟨"circular_origins", "Array(String)", true⟩, ⟨"circular_intermediaries", "Array(String)", true⟩,
        ⟨"circular_first_slot", "UInt64", true⟩]),
    ("archived_alerts",
      [⟨"tx_hash", "String", false⟩, ⟨"network", "String", false⟩, ⟨"note", "String", false⟩,
        ⟨"archived_by", "String", false⟩, ⟨"archived_at", "DateTime", false⟩, ⟨"source", "String", false⟩])]

section
variable {ν : Type}

/-- `CREATE TABLE` of `SCHEMA_DDL`. -/
def created (table : String) : Table ν :=
  ⟨"ReplacingMergeTree", false, (schemaDdl.lookup table).getD [], []⟩

/-- `_columns`. -/
def insertable (table : Table ν) : List String :=
  (table.columns.filter fun column => ¬ column.computed = true).map Column.name

def isV2 (table : Table ν) : Bool :=
  table.engine == "ReplacingMergeTree" && !table.partitioned

/-- In no particular order. -/
def staleCountColumns (table : String) (live : Table ν) : List String :=
  let expected := (wideCountColumns.lookup table).getD []
  (expected.filter fun entry =>
    live.columns.any fun column => column.name == entry.1 && column.type != entry.2).map Prod.fst

abbrev Database (ν : Type) := Name → Option (Table ν)

/-- A table that `migrate_table` rebuilds. -/
def needsRebuild (table : String) (live : Table ν) : Bool :=
  !(isV2 live && (staleCountColumns table live).isEmpty)

def insertCols (mig : Table ν) (legacyCols : List String) : List String :=
  (insertable mig).filter (· ∈ legacyCols)

def keyOf (keyCols : List String) (row : Row ν) : List (WithBot ν) :=
  keyCols.map row

theorem keyOf_eq_iff {keyCols : List String} {row other : Row ν} :
    keyOf keyCols row = keyOf keyCols other ↔ ∀ col ∈ keyCols, row col = other col :=
  List.map_inj_left

/-- The row of one key, labelled with the key. -/
abbrev Grouped (ν : Type) := List (WithBot ν) × Row ν

theorem tables_nodup : (dedupTableKeys.map Prod.fst).Nodup := by decide

theorem keyed : ∀ entry ∈ dedupTableKeys, "tx_hash" ∈ entry.2.1 := by decide

theorem columns_named : ∀ entry ∈ dedupTableKeys, ∀ col ∈ entry.2.1,
    col ∈ (((schemaDdl.lookup entry.1).getD []).filter fun column => ¬ column.computed = true).map Column.name := by
  decide

theorem columns_wide : ∀ entry ∈ dedupTableKeys, ∀ expected ∈ (wideCountColumns.lookup entry.1).getD [],
    (((schemaDdl.lookup entry.1).getD []).any fun column =>
      column.name == expected.1 && column.type != expected.2) = false := by
  decide

theorem needsRebuild_created {entry : String × List String × String} (member : entry ∈ dedupTableKeys)
    (rows : List (Row ν)) :
    needsRebuild entry.1 { (created entry.1 : Table ν) with rows := rows } = false := by
  have stale : staleCountColumns entry.1 { (created entry.1 : Table ν) with rows := rows } = [] := by
    unfold staleCountColumns
    rw [List.map_eq_nil_iff, List.filter_eq_nil_iff]
    intro expected among
    rw [Bool.not_eq_true]
    exact columns_wide entry member expected among
  unfold needsRebuild
  rw [stale]
  rfl

end

section
variable {ν : Type} [LinearOrder ν]

def groupOf (keyCols : List String) (source : List (Row ν)) (key : List (WithBot ν)) : List (Row ν) :=
  source.filter fun row => keyOf keyCols row = key

/-- What `argMax`, which passes over `NULL`, may make of a column; and `max` of the version itself. -/
def Aggregated (versionCol : String) (group : List (Row ν)) (col : String) (cell : WithBot ν) : Prop :=
  (cell = ⊥ ∧ ∀ row ∈ group, row col = ⊥) ∨
    ∃ newest ∈ group, newest col ≠ ⊥ ∧ newest col = cell ∧
      ∀ row ∈ group, row col ≠ ⊥ → row versionCol ≤ newest versionCol

instance (versionCol : String) (group : List (Row ν)) (col : String) (cell : WithBot ν) :
    Decidable (Aggregated versionCol group col cell) :=
  inferInstanceAs (Decidable (_ ∨ _))

/-- What the `SELECT` makes of the rows of one key; the other columns are filled in by the database. -/
def Selected (keyCols : List String) (versionCol : String) (cols : List String) (group : List (Row ν)) (row : Row ν) :
    Prop :=
  ∀ col ∈ cols, if col ∈ keyCols then ∃ member ∈ group, row col = member col
    else Aggregated versionCol group col (row col)

instance (keyCols : List String) (versionCol : String) (cols : List String) (group : List (Row ν)) (row : Row ν) :
    Decidable (Selected keyCols versionCol cols group row) :=
  inferInstanceAs (Decidable (∀ col ∈ cols, _))

/-- `GROUP BY`: a row for each key there is. -/
def GroupedBy (keyCols : List String) (versionCol : String) (cols : List String) (source : List (Row ν))
    (entries : List (Grouped ν)) : Prop :=
  (entries.map Prod.fst).Nodup ∧ (∀ row ∈ source, keyOf keyCols row ∈ entries.map Prod.fst) ∧
    ∀ entry ∈ entries, entry.1 ∈ source.map (keyOf keyCols) ∧
      Selected keyCols versionCol cols (groupOf keyCols source entry.1) entry.2

instance (keyCols : List String) (versionCol : String) (cols : List String) (source : List (Row ν))
    (entries : List (Grouped ν)) : Decidable (GroupedBy keyCols versionCol cols source entries) :=
  inferInstanceAs (Decidable (_ ∧ _))

/-- The statement a run of the script has come to, in the table it is at. -/
inductive Stage where
  | dropsView
  | dropsDead
  | checks
  | drops (legacyCols : List String) (distinctKeys : ℕ)
  | creates (legacyCols : List String) (distinctKeys : ℕ)
  | inserts (legacyCols : List String) (distinctKeys bucket : ℕ)
  | exchanges
  | renames
deriving DecidableEq, Repr

structure Script where
  apply : Bool
  suffix : String
  buckets : ℕ
  /-- The table it is at, and those that are left. -/
  rest : List (String × List String × String)
  stage : Stage
deriving DecidableEq, Repr

structure State (ν : Type) where
  db : Database ν
  script : Option Script := none

inductive Event (ν : Type) where
  | starts (apply : Bool) (suffix : String) (buckets : ℕ)
  /-- The `INSERT` of the next bucket. -/
  | inserts (entries : List (Grouped ν))
  | insertFails (written : List (Row ν))
  /-- The next statement, if it is none of these. -/
  | advances
  | dies

/-- `DROP TABLE IF EXISTS`. -/
def dropped (db : Database ν) (name : Name) : Database ν :=
  Function.update db name none

/-- `CREATE TABLE IF NOT EXISTS`. -/
def createdIn (db : Database ν) (table : String) : Database ν :=
  match db (.mig table) with
  | some _ => db
  | none => Function.update db (.mig table) (some (created table))

/-- `EXCHANGE TABLES`. -/
def exchanged (db : Database ν) (table : String) : Database ν :=
  Function.update (Function.update db (.live table) (db (.mig table))) (.mig table) (db (.live table))

/-- `RENAME TABLE`. -/
def renamed (db : Database ν) (table suffix : String) : Database ν :=
  Function.update (Function.update db (.legacy table suffix) (db (.mig table))) (.mig table) none

def Script.next (script : Script) : Script :=
  { script with rest := script.rest.tail, stage := .checks }

/-- The head of `migrate_table`, up to its first statement that changes anything. -/
def check (db : Database ν) (script : Script) (table : String) (keyCols : List String) : Database ν × Option Script :=
  match db (.live table) with
  | none => (db, some script.next)
  | some live =>
      if needsRebuild table live = false then
        if script.apply = true ∧ (db (.mig table)).isSome then
          if (db (.legacy table script.suffix)).isSome then (db, none)
          else (renamed db table script.suffix, some script.next)
        else (db, some script.next)
      else if ∃ col ∈ keyCols, col ∉ live.columns.map Column.name then (db, none)
      else if script.apply = true then
        (db, some { script with
          stage := .drops (insertable live) (live.rows.map (keyOf keyCols)).dedup.length })
      else (db, some script.next)

/-- A statement that is no `INSERT`; an error ends the script. -/
def advance (db : Database ν) (script : Script) : Option (Database ν × Option Script) :=
  match script.stage, script.rest with
  | .dropsView, _ =>
      some (dropped db (.live "address_transactions_mv"), some { script with stage := .dropsDead })
  | .dropsDead, _ => some (dropped db (.live "tx_analysis_results"), some { script with stage := .checks })
  | _, [] => some (db, none)
  | .checks, (table, keyCols, _) :: _ => some (check db script table keyCols)
  | .drops legacyCols distinctKeys, (table, _) :: _ =>
      some (dropped db (.mig table), some { script with stage := .creates legacyCols distinctKeys })
  | .creates legacyCols distinctKeys, (table, _) :: _ =>
      some (createdIn db table, some { script with stage := .inserts legacyCols distinctKeys 0 })
  | .inserts _ distinctKeys bucket, (table, _) :: _ =>
      if bucket = script.buckets then
        match db (.mig table) with
        | none => some (db, none)
        | some mig =>
            if mig.rows.length = distinctKeys then some (db, some { script with stage := .exchanges })
            else some (db, none)
      else none
  | .exchanges, (table, _) :: _ => some (exchanged db table, some { script with stage := .renames })
  | .renames, (table, _) :: _ =>
      if (db (.legacy table script.suffix)).isSome then some (db, none)
      else some (renamed db table script.suffix, some script.next)

variable (cityHash64 : WithBot ν → ℕ)

def inBucket (buckets bucket : ℕ) (row : Row ν) : Bool :=
  cityHash64 (row "tx_hash") % buckets = bucket

def insert (db : Database ν) (script : Script) (entries : List (Grouped ν)) : Option (State ν) :=
  match script.stage, script.rest with
  | .inserts legacyCols distinctKeys bucket, (table, keyCols, versionCol) :: _ =>
      match db (.live table), db (.mig table) with
      | some live, some mig =>
          if bucket < script.buckets ∧
              -- `argMax` of a column needs the version.
              (versionCol ∈ live.columns.map Column.name ∨ ∀ col ∈ insertCols mig legacyCols, col ∈ keyCols) ∧
              GroupedBy keyCols versionCol (insertCols mig legacyCols)
                (live.rows.filter (inBucket cityHash64 script.buckets bucket)) entries
          then some
            { db := Function.update db (.mig table) (some { mig with rows := mig.rows ++ entries.map Prod.snd })
              script := some { script with stage := .inserts legacyCols distinctKeys (bucket + 1) } }
          else none
      | _, _ => none
  | _, _ => none

/-- The rows that were written are some, and the script ends. -/
def insertFailing (db : Database ν) (script : Script) (written : List (Row ν)) : Option (State ν) :=
  match script.stage, script.rest with
  | .inserts _ _ _, (table, _) :: _ =>
      some { db := Function.update db (.mig table) ((db (.mig table)).map fun mig =>
        { mig with rows := mig.rows ++ written }) }
  | _, _ => none

def step (state : State ν) : Event ν → Option (State ν)
  | .starts apply suffix buckets =>
      match state.script with
      | some _ => none
      | none =>
          let stage := if apply = true then .dropsView else .checks
          some { state with script := some ⟨apply, suffix, buckets, dedupTableKeys, stage⟩ }
  | .inserts entries => state.script.bind fun script => insert cityHash64 state.db script entries
  | .insertFails written => state.script.bind fun script => insertFailing state.db script written
  | .advances => state.script.bind fun script => (advance state.db script).map fun next => ⟨next.1, next.2⟩
  | .dies => some { state with script := none }

end

/-! What a rebuilt table holds. -/

section
variable {ν : Type} [LinearOrder ν]

/-- One row for each key, and in each column the newest value that is not `NULL`. -/
structure Collapses (keyCols : List String) (versionCol : String) (cols : List String) (source rows : List (Row ν)) :
    Prop where
  nodup : (rows.map (keyOf keyCols)).Nodup
  keys : ∀ key, key ∈ rows.map (keyOf keyCols) ↔ key ∈ source.map (keyOf keyCols)
  newest : ∀ row ∈ rows, ∀ col ∈ cols, col ∉ keyCols →
    Aggregated versionCol (groupOf keyCols source (keyOf keyCols row)) col (row col)

variable {keyCols cols : List String} {versionCol : String} {source rows : List (Row ν)}

theorem mem_groupOf {key : List (WithBot ν)} {row : Row ν} :
    row ∈ groupOf keyCols source key ↔ row ∈ source ∧ keyOf keyCols row = key := by
  unfold groupOf
  rw [List.mem_filter, decide_eq_true_eq]

theorem Collapses.nil (keyCols : List String) (versionCol : String) (cols : List String) :
    Collapses keyCols versionCol cols ([] : List (Row ν)) [] where
  nodup := List.nodup_nil
  keys := fun _ => Iff.rfl
  newest := fun _ member => by cases member

theorem keyOf_of_selected {row member : Row ν} (named : ∀ col ∈ keyCols, col ∈ cols)
    (selected : Selected keyCols versionCol cols (groupOf keyCols source (keyOf keyCols member)) row) :
    keyOf keyCols row = keyOf keyCols member := by
  refine keyOf_eq_iff.mpr fun col keyed => ?_
  have chosen := selected col (named col keyed)
  rw [if_pos keyed] at chosen
  obtain ⟨other, among, same⟩ := chosen
  rw [same]
  exact keyOf_eq_iff.mp (mem_groupOf.mp among).2 col keyed

theorem GroupedBy.collapses {entries : List (Grouped ν)}
    (grouped : GroupedBy keyCols versionCol cols source entries) (named : ∀ col ∈ keyCols, col ∈ cols) :
    Collapses keyCols versionCol cols source (entries.map Prod.snd) := by
  obtain ⟨nodup, covers, each⟩ := grouped
  have labelled : ∀ entry ∈ entries, keyOf keyCols entry.2 = entry.1 := by
    intro entry member
    obtain ⟨known, selected⟩ := each entry member
    obtain ⟨row, _, same⟩ := List.mem_map.mp known
    rw [← same] at selected ⊢
    exact keyOf_of_selected named selected
  have keys : (entries.map Prod.snd).map (keyOf keyCols) = entries.map Prod.fst := by
    rw [List.map_map]
    exact List.map_congr_left labelled
  refine ⟨keys ▸ nodup, fun key => ?_, fun row member col shared plain => ?_⟩
  · rw [keys]
    constructor
    · intro member
      obtain ⟨entry, among, rfl⟩ := List.mem_map.mp member
      exact (each entry among).1
    · intro member
      obtain ⟨row, among, rfl⟩ := List.mem_map.mp member
      exact covers row among
  · obtain ⟨entry, among, rfl⟩ := List.mem_map.mp member
    have chosen := (each entry among).2 col shared
    rw [if_neg plain] at chosen
    rw [labelled entry among]
    exact chosen

/-- What decides on the key splits no group. -/
theorem groupOf_filter {p : Row ν → Bool}
    (determined : ∀ row other, keyOf keyCols row = keyOf keyCols other → p row = p other) {key : List (WithBot ν)}
    (among : key ∈ (source.filter p).map (keyOf keyCols)) :
    groupOf keyCols (source.filter p) key = groupOf keyCols source key := by
  obtain ⟨row, member, rfl⟩ := List.mem_map.mp among
  unfold groupOf
  rw [List.filter_filter]
  refine List.filter_congr fun other _ => ?_
  by_cases same : keyOf keyCols other = keyOf keyCols row
  · rw [determined other row same, (List.mem_filter.mp member).2]
    exact Bool.and_true _
  · rw [decide_eq_false same]
    exact Bool.false_and _

theorem Collapses.append {p q : Row ν → Bool} {more : List (Row ν)}
    (left : Collapses keyCols versionCol cols (source.filter p) rows)
    (right : Collapses keyCols versionCol cols (source.filter q) more)
    (onKey : ∀ row other, keyOf keyCols row = keyOf keyCols other → p row = p other ∧ q row = q other)
    (apart : ∀ row, ¬ (p row = true ∧ q row = true)) :
    Collapses keyCols versionCol cols (source.filter fun row => p row || q row) (rows ++ more) := by
  have onBoth : ∀ row other, keyOf keyCols row = keyOf keyCols other → (p row || q row) = (p other || q other) := by
    intro row other same
    rw [(onKey row other same).1, (onKey row other same).2]
  have either : ∀ key, key ∈ (source.filter fun row => p row || q row).map (keyOf keyCols) ↔
      key ∈ (source.filter p).map (keyOf keyCols) ∨ key ∈ (source.filter q).map (keyOf keyCols) := by
    intro key
    simp only [List.mem_map, List.mem_filter, Bool.or_eq_true]
    constructor
    · rintro ⟨row, ⟨member, first | second⟩, same⟩
      · exact .inl ⟨row, ⟨member, first⟩, same⟩
      · exact .inr ⟨row, ⟨member, second⟩, same⟩
    · rintro (⟨row, ⟨member, first⟩, same⟩ | ⟨row, ⟨member, second⟩, same⟩)
      · exact ⟨row, ⟨member, .inl first⟩, same⟩
      · exact ⟨row, ⟨member, .inr second⟩, same⟩
  refine ⟨?_, fun key => ?_, fun row member col shared plain => ?_⟩
  · rw [List.map_append, List.nodup_append]
    refine ⟨left.nodup, right.nodup, ?_⟩
    rintro key first _ second rfl
    obtain ⟨row, member, same⟩ := List.mem_map.mp ((left.keys key).mp first)
    obtain ⟨other, among, also⟩ := List.mem_map.mp ((right.keys key).mp second)
    refine apart row ⟨(List.mem_filter.mp member).2, ?_⟩
    rw [(onKey row other (same.trans also.symm)).2]
    exact (List.mem_filter.mp among).2
  · rw [List.map_append, List.mem_append, left.keys, right.keys]
    exact (either key).symm
  · obtain first | second := List.mem_append.mp member
    · have known := (left.keys _).mp (List.mem_map_of_mem first)
      have newest := left.newest row first col shared plain
      rw [groupOf_filter (fun row other same => (onKey row other same).1) known] at newest
      rw [groupOf_filter onBoth ((either _).mpr (.inl known))]
      exact newest
    · have known := (right.keys _).mp (List.mem_map_of_mem second)
      have newest := right.newest row second col shared plain
      rw [groupOf_filter (fun row other same => (onKey row other same).2) known] at newest
      rw [groupOf_filter onBoth ((either _).mpr (.inr known))]
      exact newest

end

/-! What is kept. -/

def Name.table : Name → String
  | .live table | .mig table | .legacy table _ => table

section
variable {ν : Type} {original db : Database ν} {entry : String × List String × String}

/-- The table waits to be rebuilt, and this is what has been read of it. -/
def Waiting (original db : Database ν) (entry : String × List String × String) (old : Table ν) : Prop :=
  db (.live entry.1) = some old ∧ original (.live entry.1) = some old ∧ needsRebuild entry.1 old = true ∧
    ∀ col ∈ entry.2.1, col ∈ insertable old

/-- What is under the name of the table that is being built matters only after the swap. -/
theorem Waiting.mig {old : Table ν} (waiting : Waiting original db entry old) (mig : Option (Table ν)) :
    Waiting original (Function.update db (.mig entry.1) mig) entry old :=
  ⟨(Function.update_of_ne (fun is => by cases is) _ _).trans waiting.1, waiting.2⟩

theorem away_mig (db : Database ν) (table : String) (mig : Option (Table ν)) (name : Name)
    (other : name.table ≠ table) :
    Function.update db (.mig table) mig name = db name :=
  Function.update_of_ne (fun is => other (by rw [is]; rfl)) _ _

theorem renamed_away (db : Database ν) (table suffix : String) (name : Name) (other : name.table ≠ table) :
    renamed db table suffix name = db name :=
  (away_mig _ table none name other).trans (Function.update_of_ne (fun is => other (by rw [is]; rfl)) _ _)

theorem renamed_live (db : Database ν) (table suffix : String) :
    renamed db table suffix (.live table) = db (.live table) :=
  (Function.update_of_ne (fun is => by cases is) _ _).trans (Function.update_of_ne (fun is => by cases is) _ _)

theorem renamed_mig (db : Database ν) (table suffix : String) : renamed db table suffix (.mig table) = none :=
  Function.update_self _ _ _

theorem renamed_self (db : Database ν) (table suffix : String) :
    renamed db table suffix (.legacy table suffix) = db (.mig table) :=
  (Function.update_of_ne (fun is => by cases is) _ _).trans (Function.update_self _ _ _)

/-- A name that is taken is not taken over. -/
theorem renamed_legacy {table suffix : String} (free : db (.legacy table suffix) = none) (at_ : String) (old : Table ν)
    (held : db (.legacy table at_) = some old) : renamed db table suffix (.legacy table at_) = some old := by
  have other : Name.legacy table at_ ≠ .legacy table suffix := by
    intro is
    rw [is, free] at held
    cases held
  exact ((Function.update_of_ne (fun is => by cases is) _ _).trans (Function.update_of_ne other _ _)).trans held

end

section
variable {ν : Type} [LinearOrder ν]

/-- The new layout, and the rows of the old one collapsed. -/
structure Rebuilt (entry : String × List String × String) (old new : Table ν) : Prop where
  current : needsRebuild entry.1 new = false
  collapses : Collapses entry.2.1 entry.2.2 (insertCols new (insertable old)) old.rows new.rows

/-- The live table is as it was, or it is rebuilt and the old one is still there. -/
def Preserved (original db : Database ν) (entry : String × List String × String) : Prop :=
  db (.live entry.1) = original (.live entry.1) ∨
    ∃ old new, original (.live entry.1) = some old ∧ needsRebuild entry.1 old = true ∧
      db (.live entry.1) = some new ∧ Rebuilt entry old new ∧
      (db (.mig entry.1) = some old ∨ ∃ suffix, db (.legacy entry.1 suffix) = some old)

/-- Nothing is left to be done: the old table, if it had to be rebuilt, is set aside. -/
def Settled (original db : Database ν) (entry : String × List String × String) : Prop :=
  (db (.live entry.1) = original (.live entry.1) ∧
      ∀ old, original (.live entry.1) = some old → needsRebuild entry.1 old = false) ∨
    ∃ old new suffix, original (.live entry.1) = some old ∧ needsRebuild entry.1 old = true ∧
      db (.live entry.1) = some new ∧ Rebuilt entry old new ∧ db (.legacy entry.1 suffix) = some old ∧
      db (.mig entry.1) = none

variable (cityHash64 : WithBot ν → ℕ)

def upTo (buckets bucket : ℕ) (row : Row ν) : Bool :=
  decide (cityHash64 (row "tx_hash") % buckets < bucket)

/-- What holds of the table the script is at. -/
def Stage.Sound (original db : Database ν) (buckets : ℕ) (entry : String × List String × String) : Stage → Prop
  | .dropsView | .dropsDead | .checks => True
  | .drops legacyCols distinctKeys => ∃ old, Waiting original db entry old ∧ legacyCols = insertable old ∧
      distinctKeys = (old.rows.map (keyOf entry.2.1)).dedup.length
  | .creates legacyCols distinctKeys => ∃ old, Waiting original db entry old ∧ legacyCols = insertable old ∧
      distinctKeys = (old.rows.map (keyOf entry.2.1)).dedup.length ∧ db (.mig entry.1) = none
  | .inserts legacyCols distinctKeys bucket => ∃ old rows, Waiting original db entry old ∧ legacyCols = insertable old ∧
      distinctKeys = (old.rows.map (keyOf entry.2.1)).dedup.length ∧
      db (.mig entry.1) = some { (created entry.1 : Table ν) with rows := rows } ∧
      Collapses entry.2.1 entry.2.2 (insertCols (created entry.1 : Table ν) legacyCols)
        (old.rows.filter (upTo cityHash64 buckets bucket)) rows
  | .exchanges => ∃ old new, Waiting original db entry old ∧ db (.mig entry.1) = some new ∧ Rebuilt entry old new
  | .renames => ∃ old new, original (.live entry.1) = some old ∧ needsRebuild entry.1 old = true ∧
      db (.live entry.1) = some new ∧ Rebuilt entry old new ∧ db (.mig entry.1) = some old

structure Script.Sound (original db : Database ν) (script : Script) : Prop where
  through : ∃ passed, passed ++ script.rest = dedupTableKeys ∧
    (script.apply = true → ∀ entry ∈ passed, Settled original db entry)
  stage : ∀ entry ∈ script.rest.head?, script.stage.Sound cityHash64 original db script.buckets entry
  applies : script.stage ≠ .checks → script.apply = true

structure Sound (original : Database ν) (state : State ν) : Prop where
  preserved : ∀ entry ∈ dedupTableKeys, Preserved original state.db entry
  kept : ∀ table suffix old, original (.legacy table suffix) = some old →
    state.db (.legacy table suffix) = some old
  script : ∀ script, state.script = some script → script.Sound cityHash64 original state.db

variable {cityHash64} {original db next : Database ν} {entry : String × List String × String}

theorem Preserved.congr (same : ∀ name, name.table = entry.1 → next name = db name)
    (preserved : Preserved original db entry) : Preserved original next entry := by
  obtain as_ | ⟨old, new, was, needed, now, rebuilt, mig | ⟨suffix, aside⟩⟩ := preserved
  · exact .inl ((same _ rfl).trans as_)
  · exact .inr ⟨old, new, was, needed, (same _ rfl).trans now, rebuilt, .inl ((same _ rfl).trans mig)⟩
  · exact .inr ⟨old, new, was, needed, (same _ rfl).trans now, rebuilt, .inr ⟨suffix, (same _ rfl).trans aside⟩⟩

theorem Settled.congr (same : ∀ name, name.table = entry.1 → next name = db name)
    (settled : Settled original db entry) : Settled original next entry := by
  obtain ⟨as_, fine⟩ | ⟨old, new, suffix, was, needed, now, rebuilt, aside, gone⟩ := settled
  · exact .inl ⟨(same _ rfl).trans as_, fine⟩
  · exact .inr ⟨old, new, suffix, was, needed, (same _ rfl).trans now, rebuilt, (same _ rfl).trans aside,
      (same _ rfl).trans gone⟩

theorem Waiting.preserved {old : Table ν} (waiting : Waiting original db entry old) : Preserved original db entry :=
  .inl (waiting.1.trans waiting.2.1.symm)

/-- The tables are independent: what is done to one is no matter to the others. -/
theorem Sound.elsewhere {state : State ν} (sound : Sound cityHash64 original state)
    (away : ∀ name, name.table ≠ entry.1 → next name = state.db name) (here : Preserved original next entry)
    (legacy : ∀ suffix old, state.db (.legacy entry.1 suffix) = some old → next (.legacy entry.1 suffix) = some old)
    (member : entry ∈ dedupTableKeys) : Sound cityHash64 original ⟨next, none⟩ where
  preserved := by
    intro other among
    by_cases same : other.1 = entry.1
    · rw [List.inj_on_of_nodup_map tables_nodup among member same]
      exact here
    · exact (sound.preserved other among).congr fun name at_ => away name (at_ ▸ same)
  kept := by
    intro table suffix old was
    have held := sound.kept table suffix old was
    by_cases same : table = entry.1
    · subst same
      exact legacy suffix old held
    · exact (away (.legacy table suffix) same).trans held
  script := fun _ found => by cases found

variable {script : Script} {others : List (String × List String × String)}

theorem Script.Sound.member {script : Script} (sound : script.Sound cityHash64 original db)
    (rest : script.rest = entry :: others) : entry ∈ dedupTableKeys := by
  obtain ⟨passed, whole, _⟩ := sound.through
  rw [← whole, rest]
  exact List.mem_append_right _ List.mem_cons_self

theorem Script.Sound.other {script : Script} {passed : List (String × List String × String)}
    (whole : passed ++ script.rest = dedupTableKeys) (rest : script.rest = entry :: others)
    {done : String × List String × String} (before : done ∈ passed) : done.1 ≠ entry.1 := by
  have nodup := tables_nodup
  rw [← whole, rest, List.map_append, List.nodup_append] at nodup
  exact nodup.2.2 _ (List.mem_map_of_mem before) _ (List.mem_map_of_mem List.mem_cons_self)

/-- The script stays at its table. -/
theorem Sound.stays (sound : Sound cityHash64 original ⟨db, some script⟩) (rest : script.rest = entry :: others)
    (away : ∀ name, name.table ≠ entry.1 → next name = db name) (here : Preserved original next entry)
    (legacy : ∀ suffix old, db (.legacy entry.1 suffix) = some old → next (.legacy entry.1 suffix) = some old)
    {stage : Stage} (reached : stage.Sound cityHash64 original next script.buckets entry)
    (applies : script.apply = true) :
    Sound cityHash64 original ⟨next, some { script with stage := stage }⟩ := by
  have going := sound.script script rfl
  have moved := sound.elsewhere away here legacy (going.member rest)
  refine ⟨moved.preserved, moved.kept, fun other found => ?_⟩
  obtain rfl := Option.some.inj found
  obtain ⟨passed, whole, settled⟩ := going.through
  refine ⟨⟨passed, whole, fun apply done before => ?_⟩, fun at_ head => ?_, fun _ => applies⟩
  · exact (settled apply done before).congr fun name same =>
      away name (same ▸ Script.Sound.other whole rest before)
  · rw [rest] at head
    obtain rfl := Option.some.inj head
    exact reached

/-- The script goes on to the next table. -/
theorem Sound.passes (sound : Sound cityHash64 original ⟨db, some script⟩) (rest : script.rest = entry :: others)
    (away : ∀ name, name.table ≠ entry.1 → next name = db name) (here : Preserved original next entry)
    (legacy : ∀ suffix old, db (.legacy entry.1 suffix) = some old → next (.legacy entry.1 suffix) = some old)
    (settles : script.apply = true → Settled original next entry) :
    Sound cityHash64 original ⟨next, some script.next⟩ := by
  have going := sound.script script rfl
  have moved := sound.elsewhere away here legacy (going.member rest)
  refine ⟨moved.preserved, moved.kept, fun other found => ?_⟩
  obtain rfl := Option.some.inj found
  obtain ⟨passed, whole, settled⟩ := going.through
  refine ⟨⟨passed ++ [entry], ?_, fun apply done before => ?_⟩, fun _ _ => trivial, fun other => absurd rfl other⟩
  · rw [← whole, rest, List.append_assoc]
    unfold Script.next
    rw [rest]
    rfl
  · obtain earlier | now := List.mem_append.mp before
    · exact (settled apply done earlier).congr fun name same =>
        away name (same ▸ Script.Sound.other whole rest earlier)
    · rw [List.mem_singleton.mp now]
      exact settles apply

theorem Sound.quits (sound : Sound cityHash64 original ⟨db, some script⟩) : Sound cityHash64 original ⟨db, none⟩ :=
  ⟨sound.preserved, sound.kept, fun _ found => by cases found⟩

/-- A table that is no table of the schema is dropped. -/
theorem Sound.dropsOther {table : String} (sound : Sound cityHash64 original ⟨db, some script⟩)
    (other : table ∉ dedupTableKeys.map Prod.fst) {stage : Stage}
    (idle : ∀ entry, stage.Sound cityHash64 original (dropped db (.live table)) script.buckets entry)
    (applies : script.apply = true) :
    Sound cityHash64 original ⟨dropped db (.live table), some { script with stage := stage }⟩ := by
  have away : ∀ entry ∈ dedupTableKeys, ∀ name, name.table = entry.1 → dropped db (.live table) name = db name := by
    intro entry member name same
    refine Function.update_of_ne (fun is => other ?_) _ _
    have : table = entry.1 := by rw [← same, is]; rfl
    exact this ▸ List.mem_map_of_mem member
  have going := sound.script script rfl
  obtain ⟨passed, whole, settled⟩ := going.through
  refine ⟨fun entry member => (sound.preserved entry member).congr (away entry member), fun at_ suffix old was => ?_,
    fun again found => ?_⟩
  · have apart : Name.legacy at_ suffix ≠ .live table := fun is => by cases is
    exact (Function.update_of_ne apart none db).trans (sound.kept at_ suffix old was)
  · obtain rfl := Option.some.inj found
    refine ⟨⟨passed, whole, fun apply entry before => ?_⟩, fun entry _ => idle entry, fun _ => applies⟩
    have member : entry ∈ dedupTableKeys := whole ▸ List.mem_append_left _ before
    exact (settled apply entry before).congr (away entry member)

/-- While the table waits, what is being built is put down. -/
theorem Sound.builds {old : Table ν} (sound : Sound cityHash64 original ⟨db, some script⟩)
    (rest : script.rest = entry :: others) (waiting : Waiting original db entry old) (mig : Option (Table ν))
    {stage : Stage}
    (reached : stage.Sound cityHash64 original (Function.update db (.mig entry.1) mig) script.buckets entry)
    (applies : script.apply = true) :
    Sound cityHash64 original ⟨Function.update db (.mig entry.1) mig, some { script with stage := stage }⟩ :=
  sound.stays rest (away_mig db entry.1 mig) (waiting.mig mig).preserved
    (fun _ _ held => (Function.update_of_ne (fun is => by cases is) _ _).trans held) reached applies

/-- The next bucket. -/
theorem Collapses.bucket {keyCols cols : List String} {versionCol : String} {source rows : List (Row ν)}
    {buckets bucket : ℕ} {entries : List (Grouped ν)} (hashed : "tx_hash" ∈ keyCols)
    (collapses : Collapses keyCols versionCol cols (source.filter (upTo cityHash64 buckets bucket)) rows)
    (grouped : GroupedBy keyCols versionCol cols (source.filter (inBucket cityHash64 buckets bucket)) entries)
    (named : ∀ col ∈ keyCols, col ∈ cols) :
    Collapses keyCols versionCol cols (source.filter (upTo cityHash64 buckets (bucket + 1)))
      (rows ++ entries.map Prod.snd) := by
  have both : (fun row => upTo cityHash64 buckets bucket row || inBucket cityHash64 buckets bucket row) =
      upTo cityHash64 buckets (bucket + 1) := by
    funext row
    unfold upTo inBucket
    rw [← Bool.decide_or]
    exact decide_eq_decide.mpr Nat.lt_succ_iff_lt_or_eq.symm
  rw [← both]
  refine collapses.append (grouped.collapses named) (fun row other same => ?_) fun row met => ?_
  · unfold upTo inBucket
    rw [keyOf_eq_iff.mp same _ hashed]
    exact ⟨rfl, rfl⟩
  · exact absurd (of_decide_eq_true met.2) (Nat.ne_of_lt (of_decide_eq_true met.1))

/-- What the count that is checked before the swap is for. -/
theorem Collapses.whole {keyCols cols : List String} {versionCol : String} {source rows : List (Row ν)} {buckets : ℕ}
    (collapses : Collapses keyCols versionCol cols (source.filter (upTo cityHash64 buckets buckets)) rows)
    (counted : rows.length = (source.map (keyOf keyCols)).dedup.length) :
    Collapses keyCols versionCol cols source rows := by
  obtain none_ | some_ := Nat.eq_zero_or_pos buckets
  · subst none_
    have nothing : source.filter (upTo cityHash64 0 0) = [] :=
      List.filter_eq_nil_iff.mpr fun row _ within => absurd (of_decide_eq_true within) (Nat.not_lt_zero _)
    rw [nothing] at collapses
    have empty : rows = [] := by
      refine List.eq_nil_iff_forall_not_mem.mpr fun row member => ?_
      cases (collapses.keys _).mp (List.mem_map_of_mem member)
    rw [empty] at counted ⊢
    have unkeyed : source.map (keyOf keyCols) = [] := (List.dedup_eq_nil _).mp (List.length_eq_zero_iff.mp counted.symm)
    rw [List.map_eq_nil_iff.mp unkeyed]
    exact Collapses.nil keyCols versionCol cols
  · have all : source.filter (upTo cityHash64 buckets buckets) = source :=
      List.filter_eq_self.mpr fun row _ => decide_eq_true (Nat.mod_lt _ some_)
    rw [all] at collapses
    exact collapses

/-- Where nothing is left under the name of the table that is built, nothing is left to be done. -/
theorem Preserved.settled (preserved : Preserved original db entry)
    (current : ∀ live, db (.live entry.1) = some live → needsRebuild entry.1 live = false)
    (nothing : db (.mig entry.1) = none) : Settled original db entry := by
  obtain as_ | ⟨old, new, was, needed, now, rebuilt, mig | ⟨suffix, aside⟩⟩ := preserved
  · exact .inl ⟨as_, fun old was => current old (as_.trans was)⟩
  · rw [nothing] at mig
    cases mig
  · exact .inr ⟨old, new, suffix, was, needed, now, rebuilt, aside, nothing⟩

theorem Preserved.renamed {suffix : String} (preserved : Preserved original db entry)
    (free : db (.legacy entry.1 suffix) = none) : Preserved original (renamed db entry.1 suffix) entry := by
  obtain as_ | ⟨old, new, was, needed, now, rebuilt, mig | ⟨at_, aside⟩⟩ := preserved
  · exact .inl ((renamed_live db entry.1 suffix).trans as_)
  · exact .inr ⟨old, new, was, needed, (renamed_live db entry.1 suffix).trans now, rebuilt,
      .inr ⟨suffix, (renamed_self db entry.1 suffix).trans mig⟩⟩
  · exact .inr ⟨old, new, was, needed, (renamed_live db entry.1 suffix).trans now, rebuilt,
      .inr ⟨at_, renamed_legacy free at_ old aside⟩⟩

/-- The old table is set aside, by this run or by one after it. -/
theorem Sound.renames (sound : Sound cityHash64 original ⟨db, some script⟩) (rest : script.rest = entry :: others)
    (free : db (.legacy entry.1 script.suffix) = none)
    (current : ∀ live, db (.live entry.1) = some live → needsRebuild entry.1 live = false) :
    Sound cityHash64 original ⟨renamed db entry.1 script.suffix, some script.next⟩ := by
  have member := (sound.script script rfl).member rest
  have here := (sound.preserved entry member).renamed free
  refine sound.passes rest (renamed_away db entry.1 script.suffix) here (renamed_legacy free) fun _ => ?_
  refine here.settled (fun live now => current live ?_) (renamed_mig db entry.1 script.suffix)
  rw [← renamed_live db entry.1 script.suffix]
  exact now

/-- No key column of a table that is there is `MATERIALIZED` or an `ALIAS`. -/
def Plain (original : Database ν) : Prop :=
  ∀ entry ∈ dedupTableKeys, ∀ old, original (.live entry.1) = some old → ∀ col ∈ entry.2.1,
    col ∈ old.columns.map Column.name → col ∈ insertable old

theorem Sound.checks (plain : Plain original) (sound : Sound cityHash64 original ⟨db, some script⟩)
    (rest : script.rest = entry :: others) :
    Sound cityHash64 original ⟨(check db script entry.1 entry.2.1).1, (check db script entry.1 entry.2.1).2⟩ := by
  have member := (sound.script script rfl).member rest
  have here : Preserved original db entry := sound.preserved entry member
  have passes : (script.apply = true → Settled original db entry) → Sound cityHash64 original ⟨db, some script.next⟩ :=
    sound.passes rest (fun _ _ => rfl) here (fun _ _ held => held)
  unfold check
  split
  · next absent =>
    refine passes fun _ => ?_
    obtain as_ | ⟨_, _, _, _, now, _⟩ := here
    · refine .inl ⟨as_, fun old was => ?_⟩
      rw [← as_, absent] at was
      cases was
    · rw [absent] at now
      cases now
  · next live present =>
    have only : ∀ other, db (.live entry.1) = some other → other = live := fun other found =>
      Option.some.inj (found.symm.trans present)
    split
    · next current =>
      have fine : ∀ other, db (.live entry.1) = some other → needsRebuild entry.1 other = false :=
        fun other found => only other found ▸ current
      split
      · split
        · exact sound.quits
        · next free => exact sound.renames rest (Option.not_isSome_iff_eq_none.mp free) fine
      · next nothing =>
        refine passes fun apply => here.settled fine ?_
        exact Option.not_isSome_iff_eq_none.mp fun there => nothing ⟨apply, there⟩
    · next needed =>
      rw [Bool.not_eq_false] at needed
      split
      · exact sound.quits
      · next named =>
        split
        · next apply =>
          have was : original (.live entry.1) = some live := by
            obtain as_ | ⟨_, new, _, _, now, rebuilt, _⟩ := here
            · exact as_.symm.trans present
            · have stale := rebuilt.current
              rw [only new now, needed] at stale
              cases stale
          have keys : ∀ col ∈ entry.2.1, col ∈ insertable live := fun col keyed =>
            plain entry member live was col keyed (by_contra fun missing => named ⟨col, keyed, missing⟩)
          exact sound.stays rest (fun _ _ => rfl) here (fun _ _ held => held)
            ⟨live, ⟨present, was, needed, keys⟩, rfl, rfl⟩ apply
        · next dry => exact passes fun apply => absurd apply dry

/-- The swap: the new table is there as soon as the old one is not. -/
theorem Sound.exchanges (sound : Sound cityHash64 original ⟨db, some script⟩) (rest : script.rest = entry :: others)
    (reached : Stage.exchanges.Sound cityHash64 original db script.buckets entry) (applies : script.apply = true) :
    Sound cityHash64 original ⟨exchanged db entry.1, some { script with stage := .renames }⟩ := by
  obtain ⟨old, new, ⟨present, was, needed, keys⟩, built, rebuilt⟩ := reached
  have live : exchanged db entry.1 (.live entry.1) = some new :=
    (Function.update_of_ne (fun is => by cases is) _ _).trans ((Function.update_self _ _ _).trans built)
  have mig : exchanged db entry.1 (.mig entry.1) = some old := (Function.update_self _ _ _).trans present
  refine sound.stays rest (fun name other => ?_) (.inr ⟨old, new, was, needed, live, rebuilt, .inl mig⟩)
    (fun suffix kept held => ?_) ⟨old, new, was, needed, live, rebuilt, mig⟩ applies
  · exact (away_mig _ entry.1 _ name other).trans (Function.update_of_ne (fun is => other (by rw [is]; rfl)) _ _)
  · exact ((Function.update_of_ne (fun is => by cases is) _ _).trans
      (Function.update_of_ne (fun is => by cases is) _ _)).trans held

theorem Sound.creates {legacyCols : List String} {distinctKeys : ℕ}
    (sound : Sound cityHash64 original ⟨db, some script⟩)
    (rest : script.rest = entry :: others)
    (reached : (Stage.creates legacyCols distinctKeys).Sound cityHash64 original db script.buckets entry)
    (applies : script.apply = true) :
    Sound cityHash64 original
      ⟨createdIn db entry.1, some { script with stage := .inserts legacyCols distinctKeys 0 }⟩ := by
  obtain ⟨old, waiting, cols, counted, free⟩ := reached
  have made : createdIn db entry.1 = Function.update db (.mig entry.1) (some (created entry.1)) := by
    unfold createdIn
    rw [free]
  rw [made]
  refine sound.builds rest waiting _ ⟨old, [], waiting.mig _, cols, counted, Function.update_self _ _ _, ?_⟩ applies
  have nothing : old.rows.filter (upTo cityHash64 script.buckets 0) = [] :=
    List.filter_eq_nil_iff.mpr fun row _ within => absurd (of_decide_eq_true within) (Nat.not_lt_zero _)
  rw [nothing]
  exact Collapses.nil _ _ _

theorem Sound.verifies {legacyCols : List String} {distinctKeys : ℕ} {mig : Table ν}
    (sound : Sound cityHash64 original ⟨db, some script⟩) (rest : script.rest = entry :: others)
    (reached : (Stage.inserts legacyCols distinctKeys script.buckets).Sound cityHash64 original db script.buckets entry)
    (applies : script.apply = true) (built : db (.mig entry.1) = some mig) (counted : mig.rows.length = distinctKeys) :
    Sound cityHash64 original ⟨db, some { script with stage := .exchanges }⟩ := by
  have member := (sound.script script rfl).member rest
  obtain ⟨old, rows, waiting, cols, distinct, there, collapses⟩ := reached
  obtain rfl : { (created entry.1 : Table ν) with rows := rows } = mig := Option.some.inj (there.symm.trans built)
  refine sound.stays rest (fun _ _ => rfl) waiting.preserved (fun _ _ held => held)
    ⟨old, _, waiting, built, needsRebuild_created member rows, ?_⟩ applies
  exact cols ▸ collapses.whole (counted.trans distinct)

theorem Sound.drops {legacyCols : List String} {distinctKeys : ℕ} (sound : Sound cityHash64 original ⟨db, some script⟩)
    (rest : script.rest = entry :: others)
    (reached : (Stage.drops legacyCols distinctKeys).Sound cityHash64 original db script.buckets entry)
    (applies : script.apply = true) :
    Sound cityHash64 original
      ⟨dropped db (.mig entry.1), some { script with stage := .creates legacyCols distinctKeys }⟩ := by
  obtain ⟨old, waiting, cols, distinct⟩ := reached
  exact sound.builds rest waiting none ⟨old, waiting.mig none, cols, distinct, Function.update_self _ _ _⟩ applies

/-- The next statement but an `INSERT`, one case a stage. -/
theorem Sound.advances {next : Database ν × Option Script} (plain : Plain original)
    (sound : Sound cityHash64 original ⟨db, some script⟩) (stepped : advance db script = some next) :
    Sound cityHash64 original ⟨next.1, next.2⟩ := by
  have going := sound.script script rfl
  have applied : ∀ stage, script.stage = stage → stage ≠ .checks → script.apply = true :=
    fun stage at_ other => going.applies (at_ ▸ other)
  have reached : ∀ stage entry others, script.stage = stage → script.rest = entry :: others →
      stage.Sound cityHash64 original db script.buckets entry :=
    fun stage entry others at_ rest => at_ ▸ going.stage entry (by rw [rest]; rfl)
  unfold advance at stepped
  split at stepped
  · next at_ =>
    cases stepped
    exact sound.dropsOther (by decide) (fun _ => trivial) (applied _ at_ Stage.noConfusion)
  · next at_ =>
    cases stepped
    exact sound.dropsOther (by decide) (fun _ => trivial) (applied _ at_ Stage.noConfusion)
  · cases stepped
    exact sound.quits
  · next rest =>
    cases stepped
    exact sound.checks plain rest
  · next at_ rest =>
    cases stepped
    exact sound.drops rest (reached _ _ _ at_ rest) (applied _ at_ Stage.noConfusion)
  · next at_ rest =>
    cases stepped
    exact sound.creates rest (reached _ _ _ at_ rest) (applied _ at_ Stage.noConfusion)
  · next at_ rest =>
    split at stepped
    · next last =>
      split at stepped
      · cases stepped
        exact sound.quits
      · next built =>
        split at stepped
        · next counted =>
          cases stepped
          exact sound.verifies rest (last ▸ reached _ _ _ at_ rest) (applied _ at_ Stage.noConfusion) built counted
        · cases stepped
          exact sound.quits
    · cases stepped
  · next at_ rest =>
    cases stepped
    exact sound.exchanges rest (reached _ _ _ at_ rest) (applied _ at_ Stage.noConfusion)
  · next at_ rest =>
    split at stepped
    · cases stepped
      exact sound.quits
    · next free =>
      cases stepped
      have swapped := reached .renames _ _ at_ rest
      obtain ⟨old, new, _, _, now, rebuilt, _⟩ := swapped
      refine sound.renames rest (Option.not_isSome_iff_eq_none.mp free) fun live found => ?_
      rw [Option.some.inj (found.symm.trans now)]
      exact rebuilt.current

theorem Sound.inserts {entries : List (Grouped ν)} {next : State ν}
    (sound : Sound cityHash64 original ⟨db, some script⟩) (stepped : insert cityHash64 db script entries = some next) :
    Sound cityHash64 original next := by
  have going := sound.script script rfl
  unfold insert at stepped
  split at stepped
  · next legacyCols distinctKeys bucket table keyCols versionCol others at_ rest =>
    have member := going.member rest
    have reached := going.stage _ (by rw [rest]; rfl)
    rw [at_] at reached
    obtain ⟨old, rows, waiting, cols, distinct, there, collapses⟩ := reached
    split at stepped
    · next live mig present built =>
      obtain rfl : old = live := Option.some.inj (waiting.1.symm.trans present)
      obtain rfl : { (created table : Table ν) with rows := rows } = mig := Option.some.inj (there.symm.trans built)
      split at stepped
      · next allowed =>
        cases stepped
        have named : ∀ col ∈ keyCols, col ∈ insertCols (created table : Table ν) legacyCols := fun col keyed =>
          List.mem_filter.mpr ⟨columns_named _ member col keyed, decide_eq_true (cols ▸ waiting.2.2.2 col keyed)⟩
        exact sound.builds rest waiting _ ⟨old, _, waiting.mig _, cols, distinct, Function.update_self _ _ _,
          collapses.bucket (keyed _ member) allowed.2.2 named⟩ (going.applies (by rw [at_]; exact Stage.noConfusion))
      · cases stepped
    · cases stepped
  · cases stepped

theorem Sound.insertFails {written : List (Row ν)} {next : State ν}
    (sound : Sound cityHash64 original ⟨db, some script⟩) (stepped : insertFailing db script written = some next) :
    Sound cityHash64 original next := by
  have going := sound.script script rfl
  unfold insertFailing at stepped
  split at stepped
  · next legacyCols distinctKeys bucket table keys others at_ rest =>
    cases stepped
    have reached := going.stage _ (by rw [rest]; rfl)
    rw [at_] at reached
    obtain ⟨old, rows, waiting, _⟩ := reached
    have idle : ∀ next, Stage.checks.Sound cityHash64 original next script.buckets (table, keys) := fun _ => trivial
    exact (sound.builds rest waiting ((db (.mig table)).map fun mig => { mig with rows := mig.rows ++ written })
      (idle _) (going.applies (by rw [at_]; exact Stage.noConfusion))).quits
  · cases stepped

theorem Sound.initial (original : Database ν) : Sound cityHash64 original ⟨original, none⟩ where
  preserved := fun _ _ => .inl rfl
  kept := fun _ _ _ was => was
  script := fun _ found => by cases found

theorem Sound.step {state next : State ν} {event : Event ν} (plain : Plain original)
    (sound : Sound cityHash64 original state) (stepped : step cityHash64 state event = some next) :
    Sound cityHash64 original next := by
  obtain ⟨db, script⟩ := state
  cases event with
  | starts apply suffix buckets =>
    cases script with
    | some script => cases stepped
    | none =>
      cases stepped
      refine ⟨sound.preserved, sound.kept, fun script found => ?_⟩
      obtain rfl := Option.some.inj found
      refine ⟨⟨[], rfl, fun _ _ none_ => by cases none_⟩, fun entry _ => ?_, fun other => ?_⟩
      · dsimp only
        split
        · trivial
        · trivial
      · by_contra dry
        exact other (if_neg dry)
  | inserts entries =>
    obtain ⟨script, rfl, moved⟩ := Option.bind_eq_some_iff.mp stepped
    exact sound.inserts moved
  | insertFails written =>
    obtain ⟨script, rfl, moved⟩ := Option.bind_eq_some_iff.mp stepped
    exact sound.insertFails moved
  | advances =>
    obtain ⟨script, rfl, moved⟩ := Option.bind_eq_some_iff.mp stepped
    obtain ⟨result, advanced, rfl⟩ := Option.map_eq_some_iff.mp moved
    exact sound.advances plain advanced
  | dies =>
    cases stepped
    exact ⟨sound.preserved, sound.kept, fun _ found => by cases found⟩

theorem Settled.current (settled : Settled original db entry) {live : Table ν}
    (present : db (.live entry.1) = some live) :
    needsRebuild entry.1 live = false := by
  obtain ⟨as_, fine⟩ | ⟨_, new, _, _, _, now, rebuilt, _⟩ := settled
  · exact fine live (as_.symm.trans present)
  · rw [Option.some.inj (present.symm.trans now)]
    exact rebuilt.current

end

/-! One table of the old layout, with two rows of one key. -/

def scored (version amount : ℕ) : Row ℕ := fun col =>
  WithBot.some (if col = "analyzed_at" then version else if col = "token_dust" then amount else 0)

def scores : Table ℕ where
  engine := "MergeTree"
  partitioned := true
  columns := ["network", "tx_hash", "token_dust", "analyzed_at"].map fun name => ⟨name, "String", false⟩
  rows := [scored 1 5, scored 2 7]

end TransactionMonitoring.Migration
