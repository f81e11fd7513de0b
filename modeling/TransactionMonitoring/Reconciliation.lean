import TransactionMonitoring.Retraction

/-! Reconciliations of one watched target, one after another.

Every call of `publish_contract_anomaly` reads its inputs anew, for its own feature set and at
its own reading of an unreliable clock, and appends to the same table.  The rows of every
feature set compete for the same keys.  `bind` is what the database driver makes of the
timestamp `_publish_online` passes as a query parameter: a whole second, so that the rows of one
call carry two stamps, and the latest reconciliation wins only where it is the first of its second.
-/
namespace TransactionMonitoring.Reconciliation
open Publish Replacing

/-- A row of `tx_contract_anomaly` with the feature set that published it. -/
structure Row extends ContractAnomaly where
  featureSet : String
deriving DecidableEq

/-- One call: what it reads beside the table it writes. -/
structure Call where
  featureSet : String
  /-- The stores of the call's feature set; its `contractAnomaly` is not read. -/
  inputs : Store
  now : Nat
deriving DecidableEq

/-- The `FINAL` row of a transaction. -/
def finalRow (table : List Row) (txHash : String) : Option Row :=
  final (fun row => row.txHash) (fun row => row.publishedAt) table txHash

/-- `_reconciliation_version`, over the rows of every feature set. -/
def version (table : List Row) (now : Nat) : Nat := reconciliationVersion (table.map Row.toContractAnomaly) now

def tagged (featureSet : String) (rows : List ContractAnomaly) : List Row := rows.map (⟨·, featureSet⟩)

variable (settings : Feed.Settings) (bind : Nat → Nat)

/-- The clusterability marker of the frozen fit. -/
def unclusterable (inputs : Store) : Nat :=
  if Feed.modelUnclusterable settings (inputs.fitCoverage.getD Feed.coverageUnknown) then 1 else 0

/-- What all three publish paths insert. -/
def flaggedRows (call : Call) (publishedAt : Nat) : List ContractAnomaly :=
  Publish.flaggedRows bind call.inputs (unclusterable settings call.inputs) publishedAt

/-- What the call keeps from being retracted. -/
def keep (call : Call) (publishedAt : Nat) : List String :=
  let online := onlineRows call.inputs (unclusterable settings call.inputs) (bind publishedAt)
  let batch := batchRows call.inputs (unclusterable settings call.inputs) publishedAt
  let exclude := (online ++ batch).map ContractAnomaly.txHash
  exclude ++ ((labelRows call.inputs (unclusterable settings call.inputs) publishedAt exclude).map
    ContractAnomaly.txHash ++ (maliciousLabeled call.inputs).filter fun txHash => txHash ∈ exclude)

/-- `_retract_stale`: only rows of the call's own feature set are retracted. -/
def tombstones (call : Call) (table : List Row) (publishedAt : Nat) (keep : List String) : List ContractAnomaly :=
  let current := ((finalRows (fun row : Row => row.txHash) (fun row => row.publishedAt) table).filter
    fun row => row.featureSet = call.featureSet ∧ row.verdict ≠ .normal).map fun row => row.txHash
  let stale := (current.filter fun txHash => txHash ∉ keep).filter (inWindow call.inputs)
  stale.map (bareRow .normal (unclusterable settings call.inputs) publishedAt)

/-- Everything a call appends, in the order it does. -/
def written (table : List Row) (call : Call) : List Row :=
  let publishedAt := version table call.now
  let flagged := tagged call.featureSet (flaggedRows settings bind call publishedAt)
  flagged ++ tagged call.featureSet
    (tombstones settings call (table ++ flagged) publishedAt (keep settings bind call publishedAt))

/-- `publish_contract_anomaly`: the table after the call. -/
def publish (table : List Row) (call : Call) : List Row := table ++ written settings bind table call

/-- The number a call returns: the flagged rows of its feature set. -/
def flaggedCount (table : List Row) (featureSet : String) : Nat :=
  (finalRows (fun row : Row => row.txHash) (fun row => row.publishedAt) table).countP fun row =>
    row.featureSet = featureSet ∧ row.verdict ≠ .normal

/-- The rows of each of a sequence of calls. -/
def batches (table : List Row) : List Call → List (List Row)
  | [] => []
  | call :: rest => written settings bind table call :: batches (publish settings bind table call) rest

def publishAll (table : List Row) (calls : List Call) : List Row := calls.foldl (publish settings bind) table

theorem publishAll_eq (table : List Row) (calls : List Call) :
    publishAll settings bind table calls = table ++ (batches settings bind table calls).flatten := by
  induction calls generalizing table with
  | nil => simp [publishAll, batches]
  | cons call rest ih =>
    have later := ih (publish settings bind table call)
    rw [batches, List.flatten_cons, ← List.append_assoc]
    exact later

@[simp] theorem tagged_untagged (featureSet : String) (rows : List ContractAnomaly) :
    (tagged featureSet rows).map Row.toContractAnomaly = rows := by
  simp [tagged, Function.comp_def]

/-- Over rows of one feature set, the tombstones are those of a table that has no other. -/
theorem tombstones_eq_staleRows {call : Call} {table : List Row}
    (single : ∀ row ∈ table, row.featureSet = call.featureSet) (publishedAt : Nat) (keep : List String) :
    tombstones settings call table publishedAt keep =
      staleRows call.inputs (table.map Row.toContractAnomaly)
        (unclusterable settings call.inputs) publishedAt keep := by
  have same : (finalRows (fun row : Row => row.txHash) (fun row => row.publishedAt) table).filter
        (fun row => row.featureSet = call.featureSet ∧ row.verdict ≠ .normal) =
      (finalRows (fun row : Row => row.txHash) (fun row => row.publishedAt) table).filter
        fun row => row.verdict ≠ .normal := by
    refine List.filter_congr fun row member => ?_
    have found := final_mem _ _ ((mem_finalRows _ _).mp member)
    simp [single row found.1]
  simp only [tombstones, staleRows, same, finalRows_map, List.filter_map, List.map_map]
  rfl

/-- Where the table holds the rows of one feature set only, a call is the reconciliation of that
feature set. -/
theorem publish_eq_publishContractAnomaly {table : List Row} {call : Call}
    (single : ∀ row ∈ table, row.featureSet = call.featureSet) :
    (publish settings bind table call).map Row.toContractAnomaly =
      (publishContractAnomaly settings bind { call.inputs with contractAnomaly := table.map Row.toContractAnomaly }
        call.now).1.contractAnomaly := by
  have grown : ∀ row ∈ table ++ tagged call.featureSet
      (flaggedRows settings bind call (version table call.now)), row.featureSet = call.featureSet := by
    intro row member
    rcases List.mem_append.mp member with old | new
    · exact single row old
    · obtain ⟨_, _, rfl⟩ := List.mem_map.mp new
      rfl
  simp only [publish, written, List.map_append, tagged_untagged, tombstones_eq_staleRows settings grown]
  simp only [publishContractAnomaly, flaggedRows, Publish.flaggedRows, keep, List.map_append, List.append_assoc]
  rfl

/-! ## Seconds -/

/-- `_publish_online` finds something to copy. -/
def publishesOnline (inputs : Store) : Bool :=
  inputs.hostKnown.any fun txHash => (classification inputs txHash).any (onlineSelects inputs)

/-- The clock reads a later second than every stamp of the table, or it is behind and the newest stamp is the
last of its second. -/
def LaterSecond (table : List Row) (now : Nat) : Prop :=
  (∀ row ∈ table, row.publishedAt / 1000000 < now / 1000000) ∨
    ∃ newest ∈ table, (∀ row ∈ table, row.publishedAt ≤ newest.publishedAt) ∧ now ≤ newest.publishedAt ∧
      (newest.publishedAt + 1) % 1000000 = 0

/-- Every call with something to copy online is the first of its second. -/
def SecondsApart (table : List Row) : List Call → Prop
  | [] => True
  | call :: rest => (publishesOnline call.inputs = true → LaterSecond table call.now) ∧
      SecondsApart (publish settings bind table call) rest

theorem publishedAt_lt_version (table : List Row) (now : Nat) :
    ∀ row ∈ table, row.publishedAt < version table now := by
  intro row member
  exact publishedAt_lt_reconciliationVersion now row.toContractAnomaly (List.mem_map_of_mem member)

/-- The highest stamp is zero or that of a row. -/
private theorem highest_attained (rows : List ContractAnomaly) :
    rows.foldl (fun best row => max best row.publishedAt) 0 = 0 ∨
      ∃ row ∈ rows, row.publishedAt = rows.foldl (fun best row => max best row.publishedAt) 0 := by
  induction rows using List.reverseRecOn with
  | nil => exact Or.inl rfl
  | append_singleton before last ih =>
    rw [List.foldl_append, List.foldl_cons, List.foldl_nil]
    rcases Nat.le_total (before.foldl (fun best row => max best row.publishedAt) 0) last.publishedAt with le | ge
    · rw [Nat.max_eq_right le]
      exact Or.inr ⟨last, by simp, rfl⟩
    · rw [Nat.max_eq_left ge]
      rcases ih with zero | ⟨row, member, same⟩
      · exact Or.inl zero
      · exact Or.inr ⟨row, List.mem_append_left _ member, same⟩

/-- The version is the clock, or one above the newest stamp that is not below the clock. -/
theorem version_cases (table : List Row) (now : Nat) :
    version table now = now ∨ table = [] ∨ ∃ newest ∈ table, (∀ row ∈ table, row.publishedAt ≤ newest.publishedAt) ∧
      now ≤ newest.publishedAt ∧ version table now = newest.publishedAt + 1 := by
  by_cases ahead : now ≤ (table.map Row.toContractAnomaly).foldl (fun best row => max best row.publishedAt) 0
  · have stepped : version table now =
        (table.map Row.toContractAnomaly).foldl (fun best row => max best row.publishedAt) 0 + 1 := if_pos ahead
    have below := publishedAt_lt_version table now
    rw [stepped] at below
    rcases highest_attained (table.map Row.toContractAnomaly) with zero | ⟨inner, member, highest⟩
    · rw [zero] at below ahead stepped
      cases table with
      | nil => exact Or.inr (Or.inl rfl)
      | cons first rest =>
        refine Or.inr (Or.inr ⟨first, List.mem_cons_self, fun row member => ?_, by omega, ?_⟩)
        · have := below row member
          omega
        · have := below first List.mem_cons_self
          omega
    · obtain ⟨newest, among, rfl⟩ := List.mem_map.mp member
      rw [← highest] at below ahead stepped
      exact Or.inr (Or.inr ⟨newest, among, fun row listed => Nat.le_of_lt_succ (below row listed), ahead, stepped⟩)
  · exact Or.inl (if_neg ahead)

/-- The second of a call's version lies above the table exactly where the call is the first of its second. -/
theorem lt_bind_version_iff (seconds : WholeSeconds bind) (table : List Row) (now : Nat) :
    (∀ row ∈ table, row.publishedAt < bind (version table now)) ↔ LaterSecond table now := by
  have above := publishedAt_lt_version table now
  rw [seconds]
  rcases version_cases table now with clock | rfl | ⟨newest, among, highest, behind, stepped⟩
  · rw [clock] at above ⊢
    constructor
    · intro below
      refine Or.inl fun row member => ?_
      have := below row member
      omega
    · rintro (later | ⟨newest, among, -, behind, -⟩) row member
      · have := later row member
        omega
      · have := above newest among
        omega
  · simp [LaterSecond]
  · rw [stepped]
    constructor
    · intro below
      have := below newest among
      exact Or.inr ⟨newest, among, highest, behind, by omega⟩
    · rintro (later | ⟨other, listed, top, -, last⟩) row member
      · have := later newest among
        omega
      · have := highest row member
        have := top newest among
        have := highest other listed
        omega

/-- A call copies something online exactly where there is something to copy. -/
theorem onlineRows_eq_nil_iff (inputs : Store) (unclusterable stamp : Nat) :
    onlineRows inputs unclusterable stamp = [] ↔ publishesOnline inputs = false := by
  rw [List.eq_nil_iff_forall_not_mem, publishesOnline, List.any_eq_false]
  constructor
  · intro none_ txHash known selected
    have copied : txHash ∈ (onlineRows inputs unclusterable stamp).map ContractAnomaly.txHash :=
      (mem_onlineRows known).mpr selected
    obtain ⟨row, member, -⟩ := List.mem_map.mp copied
    exact none_ row member
  · intro none_ row member
    obtain ⟨source, kept, rfl⟩ := List.mem_map.mp member
    have known := (mem_hostKnownOnly.mp (of_decide_eq_true (List.mem_filter.mp kept).2)).2
    refine none_ source.txHash known ?_
    exact (mem_onlineRows known).mp (List.mem_map_of_mem member)

/-! ## Stamps -/

theorem flaggedRows_le (seconds : WholeSeconds bind) {call : Call} {publishedAt : Nat} :
    ∀ row ∈ flaggedRows settings bind call publishedAt, row.publishedAt ≤ publishedAt :=
  fun _ member => (flaggedRows_flagged seconds.le member).2

/-- No row of a call lies below the call's version, but for those `_publish_online` copies. -/
theorem written_stamp {table : List Row} {call : Call} {row : Row} (member : row ∈ written settings bind table call) :
    row.publishedAt = version table call.now ∨
      publishesOnline call.inputs = true ∧ row.publishedAt = bind (version table call.now) := by
  rcases List.mem_append.mp member with flagged | tombstone
  · obtain ⟨inner, found, rfl⟩ := List.mem_map.mp flagged
    rcases List.mem_append.mp found with earlier | label
    · rcases List.mem_append.mp earlier with online | batch
      · refine Or.inr ⟨?_, (onlineRows_flagged online).2⟩
        rw [← Bool.not_eq_false, ← onlineRows_eq_nil_iff]
        exact List.ne_nil_of_mem online
      · exact Or.inl (batchRows_flagged batch).2
    · exact Or.inl (labelRows_flagged label).2
  · obtain ⟨inner, found, rfl⟩ := List.mem_map.mp tombstone
    obtain ⟨_, _, rfl⟩ := List.mem_map.mp found
    exact Or.inl rfl

/-- What a call writes lies above the table exactly if it is the first of its second or copies nothing. -/
theorem lt_written_iff (seconds : WholeSeconds bind) (table : List Row) (call : Call) :
    (∀ before ∈ table, ∀ after ∈ written settings bind table call, before.publishedAt < after.publishedAt) ↔
      (publishesOnline call.inputs = true → LaterSecond table call.now) := by
  constructor
  · intro below online
    rw [← lt_bind_version_iff bind seconds]
    have some_ : onlineRows call.inputs (unclusterable settings call.inputs) (bind (version table call.now)) ≠ [] := by
      rw [ne_eq, onlineRows_eq_nil_iff, online]
      exact Bool.noConfusion
    obtain ⟨copied, member⟩ := List.exists_mem_of_ne_nil _ some_
    intro row listed
    rw [← (onlineRows_flagged member).2]
    refine below row listed ⟨copied, call.featureSet⟩ (List.mem_append_left _ (List.mem_map_of_mem ?_))
    exact List.mem_append_left _ (List.mem_append_left _ member)
  · intro apart before listed after member
    rcases written_stamp settings bind member with stamp | ⟨online, stamp⟩
    · rw [stamp]
      exact publishedAt_lt_version table call.now before listed
    · rw [stamp]
      exact (lt_bind_version_iff bind seconds table call.now).mpr (apart online) before listed

/-- The stamps of one call lie strictly below those of every later one, and what the table held before
below them all. -/
def Increasing (table : List Row) (calls : List Call) : Prop :=
  (table :: batches settings bind table calls).Pairwise fun earlier later =>
    ∀ before ∈ earlier, ∀ after ∈ later, before.publishedAt < after.publishedAt

/-- One call more at the front of a sequence. -/
theorem increasing_cons (table : List Row) (call : Call) (rest : List Call) :
    Increasing settings bind table (call :: rest) ↔
      (∀ before ∈ table, ∀ after ∈ written settings bind table call, before.publishedAt < after.publishedAt) ∧
        Increasing settings bind (publish settings bind table call) rest := by
  simp only [Increasing, batches, publish, List.pairwise_cons, List.mem_cons, List.mem_append,
    or_imp, forall_and, forall_eq]
  tauto

theorem increasing_iff (seconds : WholeSeconds bind) (table : List Row) (calls : List Call) :
    Increasing settings bind table calls ↔ SecondsApart settings bind table calls := by
  induction calls generalizing table with
  | nil => simp [Increasing, batches, SecondsApart]
  | cons call rest ih =>
    rw [increasing_cons, lt_written_iff settings bind seconds, ih]
    rfl

/-- The last call of a sequence lies above the table it finds. -/
theorem lt_written_of_increasing {table : List Row} {earlier : List Call} {call : Call}
    (increasing : Increasing settings bind table (earlier ++ [call])) :
    ∀ before ∈ publishAll settings bind table earlier,
      ∀ after ∈ written settings bind (publishAll settings bind table earlier) call,
        before.publishedAt < after.publishedAt := by
  induction earlier generalizing table with
  | nil => exact ((increasing_cons settings bind table call []).mp increasing).1
  | cons first rest ih => exact ih ((increasing_cons settings bind table first (rest ++ [call])).mp increasing).2

/-- A transaction's `FINAL` row is from the last call that wrote it. -/
theorem finalRow_publishAll {table : List Row} {calls : List Call} (increasing : Increasing settings bind table calls)
    {before after : List (List Row)} {batch : List Row}
    (shape : batches settings bind table calls = before ++ batch :: after) {row : Row} (member : row ∈ batch)
    (unwritten : ∀ later ∈ after, ∀ other ∈ later, other.txHash ≠ row.txHash) :
    ∃ won ∈ batch, finalRow (publishAll settings bind table calls) row.txHash = some won := by
  rw [Increasing, shape, ← List.cons_append] at increasing
  have newest : ∀ old ∈ table ++ before.flatten, ∀ new ∈ batch, old.publishedAt ≤ new.publishedAt := by
    intro old held new added
    have inside : ∃ previous ∈ table :: before, old ∈ previous := by
      rcases List.mem_append.mp held with initial | earlier
      · exact ⟨table, List.mem_cons_self, initial⟩
      · obtain ⟨previous, among, inside⟩ := List.mem_flatten.mp earlier
        exact ⟨previous, List.mem_cons_of_mem _ among, inside⟩
    obtain ⟨previous, among, inside⟩ := inside
    have apart := (List.pairwise_append.mp increasing).2.2 previous among batch List.mem_cons_self
    exact le_of_lt (apart old inside new added)
  have absent : ∀ other ∈ after.flatten, other.txHash ≠ row.txHash := by
    intro other found
    obtain ⟨later, among, inside⟩ := List.mem_flatten.mp found
    exact unwritten later among other inside
  have regrouped : publishAll settings bind table calls = table ++ before.flatten ++ batch ++ after.flatten := by
    simp [publishAll_eq, shape]
  obtain ⟨won, found, _⟩ := le_final (fun row : Row => row.txHash) (fun row : Row => row.publishedAt) member
  refine ⟨won, (final_mem _ _ found).1, ?_⟩
  rw [finalRow, regrouped, final_append_of_absent _ _ absent, final_append_of_newer _ _ newest ⟨row, member, rfl⟩]
  exact found

/-! ## The same call again -/

/-- What decides the verdict a `FINAL` read finds. -/
def verdicts (rows : List ContractAnomaly) : List (String × Verdicts.Verdict) :=
  rows.map fun row => (row.txHash, row.verdict)

/-- The call flags the transaction. -/
def Flags (call : Call) (txHash : String) : Prop := PassFlags call.inputs txHash

theorem flags_iff (call : Call) (stamp : Nat) (txHash : String) :
    Flags call txHash ↔ ∃ row ∈ flaggedRows settings bind call stamp, row.txHash = txHash := by
  rw [← List.mem_map]
  exact mem_flaggedRows_iff.symm

theorem mem_keep_iff (call : Call) (stamp : Nat) (txHash : String) :
    txHash ∈ keep settings bind call stamp ↔ Flags call txHash := by
  rw [flags_iff settings bind call stamp]
  simp only [keep, flaggedRows, Publish.flaggedRows, List.mem_append, List.mem_filter, List.mem_map, decide_eq_true_eq]
  constructor
  · rintro (model | label | ⟨_, model⟩)
    · obtain ⟨row, member, same⟩ := model
      exact ⟨row, Or.inl member, same⟩
    · obtain ⟨row, member, same⟩ := label
      exact ⟨row, Or.inr member, same⟩
    · obtain ⟨row, member, same⟩ := model
      exact ⟨row, Or.inl member, same⟩
  · rintro ⟨row, model | label, same⟩
    · exact Or.inl ⟨row, model, same⟩
    · exact Or.inr (Or.inl ⟨row, label, same⟩)

/-- The stamp changes nothing about what a call flags and how. -/
theorem verdicts_flaggedRows (call : Call) (stamp other : Nat) :
    verdicts (flaggedRows settings bind call stamp) = verdicts (flaggedRows settings bind call other) := by
  have online : verdicts (onlineRows call.inputs (unclusterable settings call.inputs) (bind stamp)) =
      verdicts (onlineRows call.inputs (unclusterable settings call.inputs) (bind other)) := by
    simp [verdicts, onlineRows, Function.comp_def]
  have batch : verdicts (batchRows call.inputs (unclusterable settings call.inputs) stamp) =
      verdicts (batchRows call.inputs (unclusterable settings call.inputs) other) := by
    unfold verdicts batchRows
    split
    · rfl
    · simp [Function.comp_def]
  have hashes : ∀ rows : List ContractAnomaly, rows.map ContractAnomaly.txHash = (verdicts rows).map Prod.fst :=
    fun rows => by simp [verdicts, Function.comp_def]
  simp only [flaggedRows, Publish.flaggedRows, hashes]
  simp only [verdicts, List.map_append] at online batch ⊢
  rw [online, batch]
  simp [labelRows, bareRow, Function.comp_def]

/-- The rows of a call stand in the order of their stamps. -/
theorem flaggedRows_ascending (seconds : WholeSeconds bind) (call : Call) (publishedAt : Nat) :
    (flaggedRows settings bind call publishedAt).Pairwise
      fun before after => before.publishedAt ≤ after.publishedAt := by
  have constant : ∀ (rows : List ContractAnomaly) (stamp : Nat), (∀ row ∈ rows, row.publishedAt = stamp) →
      rows.Pairwise fun before after => before.publishedAt ≤ after.publishedAt := by
    intro rows stamp same
    refine List.pairwise_of_forall_mem_list fun before first after second => ?_
    rw [same before first, same after second]
  have online : ∀ row ∈ onlineRows call.inputs (unclusterable settings call.inputs) (bind publishedAt),
      row.publishedAt = bind publishedAt := fun _ member => (onlineRows_flagged member).2
  have batch : ∀ row ∈ batchRows call.inputs (unclusterable settings call.inputs) publishedAt,
      row.publishedAt = publishedAt := fun _ member => (batchRows_flagged member).2
  refine List.pairwise_append.mpr ⟨List.pairwise_append.mpr ⟨constant _ _ online, constant _ _ batch, ?_⟩,
    constant _ publishedAt fun _ member => (labelRows_flagged member).2, ?_⟩
  · intro before first after second
    rw [online before first, batch after second]
    exact seconds.le publishedAt
  · intro before first after second
    rw [(labelRows_flagged second).2]
    exact flaggedRows_le settings bind seconds before (List.mem_append_left _ first)

/-- Among the rows of a call, what a `FINAL` read makes of a transaction. -/
def flaggedRow (call : Call) (publishedAt : Nat) (txHash : String) : Option ContractAnomaly :=
  final ContractAnomaly.txHash ContractAnomaly.publishedAt (flaggedRows settings bind call publishedAt) txHash

theorem finalRow_tagged (featureSet : String) (rows : List ContractAnomaly) (txHash : String) :
    finalRow (tagged featureSet rows) txHash =
      (final ContractAnomaly.txHash ContractAnomaly.publishedAt rows txHash).map (⟨·, featureSet⟩) :=
  final_map (fun row : Row => row.txHash) (fun row => row.publishedAt)
    (fun row => (⟨row, featureSet⟩ : Row)) rows txHash

/-- Its verdict does not depend on the stamp. -/
theorem flaggedRow_verdict (seconds : WholeSeconds bind) (call : Call) (stamp other : Nat) (txHash : String) :
    (flaggedRow settings bind call stamp txHash).map ContractAnomaly.verdict =
      (flaggedRow settings bind call other txHash).map ContractAnomaly.verdict := by
  have last : ∀ stamp, (flaggedRow settings bind call stamp txHash).map ContractAnomaly.verdict =
      ((verdicts (flaggedRows settings bind call stamp)).filter
        fun entry => entry.1 = txHash).getLast?.map Prod.snd := by
    intro stamp
    rw [flaggedRow, final_of_ascending _ _ (flaggedRows_ascending settings bind seconds call stamp)]
    simp [verdicts, List.filter_map, List.getLast?_map, Function.comp_def]
  rw [last, last, verdicts_flaggedRows settings bind call stamp other]

theorem mem_tombstones {call : Call} {table : List Row} {stamp : Nat} {kept : List String} {txHash : String} :
    (∃ row ∈ tombstones settings call table stamp kept, row.txHash = txHash) ↔
      (∃ row, finalRow table txHash = some row ∧ row.featureSet = call.featureSet ∧ row.verdict ≠ .normal) ∧
        txHash ∉ kept ∧ inWindow call.inputs txHash = true := by
  simp only [tombstones, List.mem_map, List.mem_filter, decide_eq_true_eq, bareRow]
  constructor
  · rintro ⟨_, ⟨_, ⟨⟨⟨row, ⟨final, own⟩, rfl⟩, unkept⟩, inside⟩, rfl⟩, rfl⟩
    exact ⟨⟨row, (mem_finalRows _ _).mp final, own⟩, unkept, inside⟩
  · rintro ⟨⟨row, final, own⟩, unkept, inside⟩
    obtain ⟨_, rfl⟩ := final_mem _ _ final
    exact ⟨_, ⟨row.txHash, ⟨⟨⟨row, ⟨(mem_finalRows _ _).mpr final, own⟩, rfl⟩, unkept⟩, inside⟩, rfl⟩, rfl⟩

/-- Before the tombstones: the table with what the call flags. -/
def flaggedTable (table : List Row) (call : Call) : List Row :=
  table ++ tagged call.featureSet (flaggedRows settings bind call (version table call.now))

theorem publish_eq (table : List Row) (call : Call) :
    publish settings bind table call = flaggedTable settings bind table call ++
      tagged call.featureSet (tombstones settings call (flaggedTable settings bind table call)
        (version table call.now) (keep settings bind call (version table call.now))) := by
  simp [publish, written, flaggedTable]

/-- A flagged transaction's `FINAL` row is the one its call wrote, if nothing older lies above that. -/
theorem finalRow_of_flags {table : List Row} {call : Call} {txHash : String} (flags : Flags call txHash)
    (le : ∀ standing fresh, finalRow table txHash = some standing →
      flaggedRow settings bind call (version table call.now) txHash = some fresh →
        standing.publishedAt ≤ fresh.publishedAt) :
    ∃ fresh, flaggedRow settings bind call (version table call.now) txHash = some fresh ∧
      finalRow (publish settings bind table call) txHash = some ⟨fresh, call.featureSet⟩ := by
  have unretracted : ∀ row ∈ tagged call.featureSet (tombstones settings call (flaggedTable settings bind table call)
      (version table call.now) (keep settings bind call (version table call.now))), row.txHash ≠ txHash := by
    intro row member same
    obtain ⟨inner, found, rfl⟩ := List.mem_map.mp member
    have unkept := (mem_tombstones settings).mp ⟨inner, found, same⟩
    exact unkept.2.1 ((mem_keep_iff settings bind call _ txHash).mpr flags)
  obtain ⟨row, member, same⟩ := (flags_iff settings bind call (version table call.now) txHash).mp flags
  obtain ⟨fresh, shape⟩ := Option.isSome_iff_exists.mp ((final_isSome_iff ContractAnomaly.txHash
    ContractAnomaly.publishedAt _ txHash).mpr ⟨row, member, same⟩)
  have tagged_ : finalRow (tagged call.featureSet (flaggedRows settings bind call (version table call.now))) txHash =
      some ⟨fresh, call.featureSet⟩ := by
    rw [finalRow_tagged, shape, Option.map_some]
  refine ⟨fresh, shape, ?_⟩
  rw [publish_eq, finalRow, final_append_of_absent _ _ unretracted, flaggedTable, final_append_of_some _ _ tagged_]
  cases standing : final (fun row : Row => row.txHash) (fun row => row.publishedAt) table txHash with
  | none => rfl
  | some before =>
    have below := le before fresh standing shape
    simp [newer, below]

/-- A retracted transaction reads as normal. -/
theorem normal_of_tombstone (seconds : WholeSeconds bind) (table : List Row) (call : Call) {txHash : String}
    (retracted : ∃ row ∈ tombstones settings call (flaggedTable settings bind table call)
      (version table call.now) (keep settings bind call (version table call.now)), row.txHash = txHash) :
    ∃ row, finalRow (publish settings bind table call) txHash = some row ∧ row.verdict = .normal := by
  have newest : ∀ old ∈ flaggedTable settings bind table call, ∀ new ∈ tagged call.featureSet
      (tombstones settings call (flaggedTable settings bind table call) (version table call.now)
        (keep settings bind call (version table call.now))), old.publishedAt ≤ new.publishedAt := by
    intro old held new added
    obtain ⟨inner, found, rfl⟩ := List.mem_map.mp added
    obtain ⟨_, _, rfl⟩ := List.mem_map.mp found
    rcases List.mem_append.mp held with initial | flagged
    · exact le_of_lt (publishedAt_lt_version table call.now old initial)
    · obtain ⟨row, among, rfl⟩ := List.mem_map.mp flagged
      exact flaggedRows_le settings bind seconds row among
  obtain ⟨inner, found, same⟩ := retracted
  have tombstone : (⟨inner, call.featureSet⟩ : Row) ∈ tagged call.featureSet
      (tombstones settings call (flaggedTable settings bind table call) (version table call.now)
        (keep settings bind call (version table call.now))) := List.mem_map_of_mem found
  obtain ⟨row, won, _⟩ := le_final (fun row : Row => row.txHash) (fun row : Row => row.publishedAt) tombstone
  refine ⟨row, ?_, ?_⟩
  · rw [publish_eq, finalRow, final_append_of_newer _ _ newest ⟨_, tombstone, same⟩, ← same]
    exact won
  · obtain ⟨other, among, rfl⟩ := List.mem_map.mp (final_mem _ _ won).1
    obtain ⟨_, _, rfl⟩ := List.mem_map.mp among
    rfl

/-- A transaction the call does not flag is retracted by the first call or by none. -/
theorem finalRow_of_not_flags (seconds : WholeSeconds bind) (table : List Row) (call : Call) (now : Nat)
    {txHash : String} (unflagged : ¬ Flags call txHash) :
    finalRow (publish settings bind (publish settings bind table call) { call with now }) txHash =
      finalRow (publish settings bind table call) txHash := by
  have unpublished : ∀ stamp, ∀ row ∈ tagged call.featureSet (flaggedRows settings bind call stamp),
      row.txHash ≠ txHash := by
    intro stamp row member same
    obtain ⟨inner, found, rfl⟩ := List.mem_map.mp member
    exact unflagged ((flags_iff settings bind call stamp txHash).mpr ⟨inner, found, same⟩)
  have settled : finalRow (flaggedTable settings bind (publish settings bind table call) { call with now }) txHash =
      finalRow (publish settings bind table call) txHash :=
    final_append_of_absent _ _ (unpublished _)
  have unretracted : ∀ row ∈ tagged call.featureSet (tombstones settings { call with now }
      (flaggedTable settings bind (publish settings bind table call) { call with now })
      (version (publish settings bind table call) now)
      (keep settings bind { call with now } (version (publish settings bind table call) now))),
      row.txHash ≠ txHash := by
    intro row member same
    obtain ⟨inner, found, rfl⟩ := List.mem_map.mp member
    obtain ⟨⟨standing, final, own, positive⟩, unkept, inside⟩ := (mem_tombstones settings).mp ⟨inner, found, same⟩
    rw [settled] at final
    by_cases retracted : ∃ row ∈ tombstones settings call (flaggedTable settings bind table call)
        (version table call.now) (keep settings bind call (version table call.now)), row.txHash = txHash
    · -- The first call's own tombstone is what stands.
      obtain ⟨tombstone, found, normal⟩ := normal_of_tombstone settings bind seconds table call retracted
      obtain rfl : tombstone = standing := Option.some.inj (found.symm.trans final)
      exact positive normal
    · -- Otherwise what stands now stood before the first call's tombstones, which spared it.
      have stood : finalRow (flaggedTable settings bind table call) txHash = some standing := by
        rw [publish_eq, finalRow, final_append_of_absent] at final
        · exact final
        · intro row member same
          obtain ⟨inner, found, rfl⟩ := List.mem_map.mp member
          exact retracted ⟨inner, found, same⟩
      have kept : txHash ∉ keep settings bind call (version table call.now) :=
        fun kept => unflagged ((mem_keep_iff settings bind call _ txHash).mp kept)
      exact retracted ((mem_tombstones settings).mpr ⟨⟨standing, stood, own, positive⟩, kept, inside⟩)
  rw [publish_eq, finalRow, final_append_of_absent _ _ unretracted]
  exact settled

/-- The same call again, at any reading of the clock, leaves every `FINAL` verdict. -/
theorem verdict_of_repeated (seconds : WholeSeconds bind) {table : List Row} {call : Call}
    (above : ∀ before ∈ table, ∀ after ∈ written settings bind table call, before.publishedAt < after.publishedAt)
    (now : Nat) (txHash : String) :
    (finalRow (publish settings bind (publish settings bind table call) { call with now }) txHash).map
        (fun row => row.verdict) =
      (finalRow (publish settings bind table call) txHash).map fun row => row.verdict := by
  by_cases flags : Flags call txHash
  · have stamped : ∀ stamp row, flaggedRow settings bind call stamp txHash = some row →
        row.publishedAt = if onlyOnline call.inputs txHash then bind stamp else stamp :=
      fun stamp row shape => stamp_of_written seconds flags.1 rfl shape
    obtain ⟨first, shape, standing⟩ := finalRow_of_flags settings bind flags fun before fresh found shape => by
      have among := (final_mem _ _ shape).1
      refine le_of_lt (above before (final_mem _ _ found).1 ⟨fresh, call.featureSet⟩ ?_)
      exact List.mem_append_left _ (List.mem_map_of_mem among)
    have later := publishedAt_lt_version (publish settings bind table call) now _ (final_mem _ _ standing).1
    obtain ⟨again, shapeAgain, final⟩ := @finalRow_of_flags settings bind (publish settings bind table call)
      { call with now } txHash flags fun before fresh found shapeAgain => by
        obtain rfl := Option.some.inj (standing.symm.trans found)
        change first.publishedAt < _ at later
        change first.publishedAt ≤ _
        rw [stamped _ _ shape] at later ⊢
        rw [stamped _ _ shapeAgain]
        -- Where only the online path wrote, the second written before is not after the second of the new version.
        split at later <;> rename_i only
        · rw [if_pos only, if_pos only]
          rw [seconds] at later ⊢
          rw [seconds]
          dsimp only
          omega
        · rw [if_neg only, if_neg only]
          exact le_of_lt later
    rw [standing, final]
    have same := flaggedRow_verdict settings bind seconds call (version table call.now)
      (version (publish settings bind table call) now) txHash
    have shapeThen : flaggedRow settings bind call (version (publish settings bind table call) now) txHash =
      some again :=
      shapeAgain
    rw [shape, shapeThen, Option.map_some, Option.map_some, Option.some.injEq] at same
    exact congrArg some same.symm
  · rw [finalRow_of_not_flags settings bind seconds table call now flags]

/-! ## The law -/

/-- The latest reconciliation wins, over a sequence of calls. -/
structure LatestWins (table : List Row) (calls : List Call) : Prop where
  /-- The stamps of successive calls increase, and lie above what the table held before. -/
  increasing : Increasing settings bind table calls
  /-- The `FINAL` row of a transaction is one of the last call that wrote it. -/
  last : ∀ before batch after, batches settings bind table calls = before ++ batch :: after →
    ∀ row ∈ batch, (∀ later ∈ after, ∀ other ∈ later, other.txHash ≠ row.txHash) →
      ∃ won ∈ batch, finalRow (publishAll settings bind table calls) row.txHash = some won
  /-- Repeating the last call changes no verdict. -/
  repeated : ∀ earlier call now, calls = earlier ++ [call] → ∀ txHash,
    (finalRow (publish settings bind (publishAll settings bind table calls) { call with now }) txHash).map
        (fun row => row.verdict) =
      (finalRow (publishAll settings bind table calls) txHash).map fun row => row.verdict

/-- **The latest reconciliation wins, exactly.**  For every sequence of calls, of any feature sets, with any
inputs and any readings of the clock, over any table, it does if and only if every call that copies something
online is the first of its second. -/
theorem latest_reconciliation_wins_iff (seconds : WholeSeconds bind) (table : List Row) (calls : List Call) :
    LatestWins settings bind table calls ↔ SecondsApart settings bind table calls := by
  rw [← increasing_iff settings bind seconds]
  refine ⟨fun wins => wins.increasing, fun increasing => ⟨increasing, ?_, ?_⟩⟩
  · exact fun _ _ _ shape _ member unwritten => finalRow_publishAll settings bind increasing shape member unwritten
  · rintro earlier call now rfl txHash
    have ends : publishAll settings bind table (earlier ++ [call]) =
        publish settings bind (publishAll settings bind table earlier) call := by
      simp [publishAll]
    rw [ends]
    exact verdict_of_repeated settings bind seconds (lt_written_of_increasing settings bind increasing) now txHash

/-- `aa01` was scored an anomaly online; the labels vary. -/
private def scored (labels : List TxLabel) : Store where
  txLabels := labels
  clusterRuns := []
  clusterLabels := []
  anomalyRuns := []
  anomalyScores := []
  clusterModels := []
  txClassifications := [⟨"aa01", "model_1", -1, 2, .anomaly, 150⟩]
  contractAnomaly := []
  hostKnown := ["aa01"]
  window := none
  fitCoverage := some 1

private def cleared : TxLabel := ⟨"aa01", .benign, .manualTx, false, 160⟩

/-- Published, retracted for a benign label while the clock steps back, and raised again in a later second. -/
theorem raised_again_in_a_later_second :
    let calls : List Call := [⟨"shape", scored [], 3200000⟩, ⟨"shape", scored [cleared], 2700000⟩,
      ⟨"shape", scored [], 4100000⟩]
    LatestWins ⟨0, 0, 0, 4⟩ (fun stamp => stamp / 1000000 * 1000000) [] calls ∧
      (finalRow (publishAll ⟨0, 0, 0, 4⟩ (fun stamp => stamp / 1000000 * 1000000) [] calls) "aa01").map
        (fun row => (row.verdict, row.publishedAt)) = some (.anomaly, 4000000) := by
  refine ⟨(latest_reconciliation_wins_iff ⟨0, 0, 0, 4⟩ _ (fun _ => rfl) [] _).mpr
    ⟨fun _ => Or.inl ?_, ?_, fun _ => Or.inl ?_,
    trivial⟩, by decide +kernel⟩
  · decide
  · exact fun online => absurd online (by decide)
  · decide +kernel

/-- Published, retracted for a benign label and raised again, all within one second: the tombstone stays. -/
theorem raised_again_in_the_same_second :
    ¬∀ (settings : Feed.Settings) (bind : Nat → Nat) (table : List Row) (calls : List Call), WholeSeconds bind →
      LatestWins settings bind table calls := by
  intro wins
  let seconds : Nat → Nat := fun stamp => stamp / 1000000 * 1000000
  let earlier : List Call := [⟨"shape", scored [], 3200000⟩, ⟨"shape", scored [cleared], 3500000⟩]
  let table := publishAll ⟨0, 0, 0, 4⟩ seconds [] earlier
  let raised : Call := ⟨"shape", scored [], 3800000⟩
  have law := wins ⟨0, 0, 0, 4⟩ seconds [] (earlier ++ [raised]) fun _ => rfl
  have again : (⟨⟨"aa01", -1, 2, .anomaly, "model_1", 0, 3000000⟩, "shape"⟩ : Row) ∈
      written ⟨0, 0, 0, 4⟩ seconds table raised := by decide +kernel
  have flagged : ∀ row ∈ written ⟨0, 0, 0, 4⟩ seconds table raised, row.verdict = .anomaly := by decide +kernel
  have reads : (finalRow (publishAll ⟨0, 0, 0, 4⟩ seconds [] (earlier ++ [raised])) "aa01").map
      (fun row => row.verdict) = some .normal := by decide +kernel
  obtain ⟨won, member, final⟩ := law.last [_, _] _ [] rfl _ again (by simp)
  rw [final, Option.map_some, flagged won member] at reads
  cases reads

end TransactionMonitoring.Reconciliation
