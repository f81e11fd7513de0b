import TransactionMonitoring.Deferral
import TransactionMonitoring.Runs
import TransactionMonitoring.Warehouse

/-! The analysis engine's batch run.

`run_once` polls one batch of unscored transactions, recovers or defers raw payloads,
scores, defers incomplete results and writes the rest, then moves its watermark and its
full-rescan clock.  Both deferrals are retry budgets; the two tables, the watermark and
the clock live in the process only.

A fetched row carries what the outside does to it in that run: what the raw store reads
back, which enrichments failed and which scorers raised.  Clock reads are inputs too, so
the results hold for every clock.
-/
namespace TransactionMonitoring.Engine
open Warehouse Faults Deferral

structure Settings where
  analysisEnabled : Bool
  analysisEngineBatchSize : Nat
  unanalyzedOverlapSeconds : Nat
  unanalyzedFullRescanIntervalSeconds : Int
  unanalyzedFullRescanWindowSeconds : Nat
  rawFallbackEnabled : Bool
  rawFallbackMaxAttempts : Nat
  rawFallbackRetrySeconds : Int
  analysisDeferEnabled : Bool
  analysisDeferMaxAttempts : Nat
  analysisDeferRetrySeconds : Int
deriving DecidableEq, Repr

/-- The engine's in-process state; a restart loses all of it. -/
structure Memory where
  rawFallbackAttempts : Entries String
  analysisDeferAttempts : Entries String
  unanalyzedWatermark : Option Nat
  lastFullRescan : Option Int

def Memory.initial : Memory := ⟨Entries.empty, Entries.empty, none, none⟩

/-- A row the poll returned and what happens to it in this run. -/
structure Fetched where
  row : TxRow
  /-- `read_confirmed`; `none` also when it raises. -/
  recovered : Option String
  /-- The monotonic clock when the row's raw payload is resolved. -/
  resolvedAt : Int
  failedEnrichment : List String
  failedScorers : List String
  analyzedAt : Nat
deriving DecidableEq, Repr

/-- What one call of `run_once` meets. -/
structure Environment where
  wallNow : Nat
  /-- The monotonic clock at the poll, at the end of scoring and when the rescan clock is armed. -/
  monoPoll : Int
  monoDefer : Int
  monoArm : Int
  /-- The answers of the two possible polls; `none` when the poll raises. -/
  poll : Option (List Fetched)
  fallbackPoll : Option (List Fetched)
  /-- Something outside the scorers' own `try` raises before the insert. -/
  scoringRaises : Bool
  insert : Outcome
deriving DecidableEq, Repr

/-- `_poll_since`: the bound of this poll, and whether it is a full rescan. -/
def pollSince (settings : Settings) (memory : Memory) (monoNow : Int) (wallNow : Nat) :
    Option Nat × Bool :=
  let due := match memory.lastFullRescan with
    | none => true
    | some last => settings.unanalyzedFullRescanIntervalSeconds ≤ monoNow - last
  if due then
    if 0 < settings.unanalyzedFullRescanWindowSeconds then
      (some (wallNow - settings.unanalyzedFullRescanWindowSeconds), true)
    else (none, true)
  else (memory.unanalyzedWatermark, false)

/-- The newest ingestion stamp of the fetched rows. -/
def newest (fetched : List Fetched) : Option Nat :=
  (fetched.map fun item => item.row.ingestionTimestamp).max?

/-- `_advance_watermark`: the newest fetched stamp less the overlap, never backwards. -/
def advanceWatermark (settings : Settings) (memory : Memory) (fetched : List Fetched) : Memory :=
  match newest fetched with
  | none => memory
  | some stamp =>
      let candidate := stamp - settings.unanalyzedOverlapSeconds
      match memory.unanalyzedWatermark with
      | none => { memory with unanalyzedWatermark := some candidate }
      | some current =>
          if current < candidate then { memory with unanalyzedWatermark := some candidate } else memory

/-! ## Raw payloads -/

/-- A row that goes on to scoring. -/
structure Prepared where
  source : Fetched
  rawData : Option String
  rawDataUnavailable : Bool
  /-- The attempt that spent the budget, zero when none did. -/
  rawAttempts : Nat
deriving DecidableEq, Repr

section
variable (settings : Settings) (jsonLoads : String → Option String)

/-- The stored column as the engine parses it; `none` for an empty or unparseable one. -/
def parsed (row : TxRow) : Option String :=
  if row.rawData = "" then none else jsonLoads row.rawData

/-- The payload has to come from the raw store. -/
def needsRecovery (row : TxRow) : Bool :=
  (parsed jsonLoads row).isNone && (row.rawDataTruncated || row.rawData ≠ "")

/-- The payload after the raw-store fallback. -/
def payload (item : Fetched) : Option String :=
  if needsRecovery jsonLoads item.row && settings.rawFallbackEnabled then item.recovered
  else parsed jsonLoads item.row

/-- A truncated or unparseable payload that was not recovered. -/
def unrecovered (item : Fetched) : Bool :=
  needsRecovery jsonLoads item.row && (payload settings jsonLoads item).isNone

/-- One row of `_resolve_raw_data`. -/
def resolveRow (entries : Entries String) (item : Fetched) : Entries String × Option Prepared :=
  if unrecovered settings jsonLoads item then
    let counted := countAttempt settings.rawFallbackMaxAttempts settings.rawFallbackRetrySeconds entries
      item.row.txHash item.resolvedAt
    (counted.1, if counted.2 then
      some ⟨item, payload settings jsonLoads item, true, attemptNumber entries item.row.txHash⟩ else none)
  else if needsRecovery jsonLoads item.row then
    (entries.erase item.row.txHash, some ⟨item, payload settings jsonLoads item, false, 0⟩)
  else (entries, some ⟨item, payload settings jsonLoads item, false, 0⟩)

/-- `_resolve_raw_data`. -/
def resolveRawData (entries : Entries String) (fetched : List Fetched) :
    Entries String × List Prepared :=
  pass (resolveRow settings jsonLoads) entries fetched

end

/-! ## Scores -/

/-- A score row and where it came from. -/
structure Result where
  source : Fetched
  score : ScoreRow
  rawAttempts : Nat
  /-- The attempt that spent the scoring budget, zero when none did. -/
  deferAttempts : Nat
deriving DecidableEq, Repr

/-- `_score_transaction`; the scorers that raised stand in the source. -/
def scoreTransaction (prepared : Prepared) : Result where
  source := prepared.source
  score := ⟨prepared.source.row.txHash, prepared.source.analyzedAt, prepared.rawDataUnavailable, [], []⟩
  rawAttempts := prepared.rawAttempts
  deferAttempts := 0

/-- A scorer raised or an enrichment failed. -/
def incomplete (item : Fetched) : Bool :=
  item.failedScorers ≠ [] || item.failedEnrichment ≠ []

/-- One result of `_handle_incomplete_scoring`. -/
def handleResult (settings : Settings) (now : Int) (entries : Entries String) (result : Result) :
    Entries String × Option Result :=
  let txHash := result.source.row.txHash
  if incomplete result.source then
    let counted := countAttempt settings.analysisDeferMaxAttempts settings.analysisDeferRetrySeconds
      entries txHash now
    (counted.1, if counted.2 then
      some { result with
        score := { result.score with
          scorerFailed := result.source.failedScorers
          enrichmentUnavailable := result.source.failedEnrichment }
        deferAttempts := attemptNumber entries txHash }
    else none)
  else (entries.erase txHash, some result)

/-- `_handle_incomplete_scoring`. -/
def handleIncompleteScoring (settings : Settings) (now : Int) (entries : Entries String)
    (results : List Result) : Entries String × List Result :=
  if settings.analysisDeferEnabled then pass (handleResult settings now) entries results
  else (entries, results)

/-! ## One run -/

/-- What a run did: the rows it fetched, the score rows that took effect, whether its
insert raised, whether it fell back from a failed full rescan, and the count it returned
(`none` when it raised). -/
structure Report where
  fetched : List Fetched
  written : List Result
  insertRaised : Bool
  fellBack : Bool
  returned : Option Nat
deriving DecidableEq, Repr

/-- The rescan clock is armed after a full rescan that went through. -/
def armRescan (memory : Memory) (fullRescan : Bool) (monoNow : Int) : Memory :=
  if fullRescan then { memory with lastFullRescan := some monoNow } else memory

/-- `run_once` from the fetched batch on. -/
def scoreFetched (settings : Settings) (jsonLoads : String → Option String) (memory : Memory)
    (env : Environment) (fetched : List Fetched) (fullRescan fellBack : Bool) : Memory × Report :=
  if fetched = [] then
    (armRescan memory fullRescan env.monoArm, ⟨[], [], false, fellBack, some 0⟩)
  else
    let resolved := resolveRawData settings jsonLoads memory.rawFallbackAttempts fetched
    let memory := { memory with rawFallbackAttempts := resolved.1 }
    if resolved.2 = [] then
      (armRescan memory fullRescan env.monoArm, ⟨fetched, [], false, fellBack, some 0⟩)
    else if env.scoringRaises then (memory, ⟨fetched, [], false, fellBack, none⟩)
    else
      let handled := handleIncompleteScoring settings env.monoDefer memory.analysisDeferAttempts
        (resolved.2.map scoreTransaction)
      let memory := { memory with analysisDeferAttempts := handled.1 }
      if handled.2 = [] then
        (armRescan (advanceWatermark settings memory fetched) fullRescan env.monoArm,
          ⟨fetched, [], false, fellBack, some fetched.length⟩)
      else
        let written := if env.insert.applies then handled.2 else []
        if env.insert.returns then
          (armRescan (advanceWatermark settings memory fetched) fullRescan env.monoArm,
            ⟨fetched, written, false, fellBack, some fetched.length⟩)
        else (memory, ⟨fetched, written, true, fellBack, none⟩)

/-- `run_once`.  A failed full-rescan poll arms the clock and falls back to the watermark. -/
def runOnce (settings : Settings) (jsonLoads : String → Option String) (memory : Memory)
    (env : Environment) : Memory × Report :=
  if !settings.analysisEnabled then (memory, ⟨[], [], false, false, some 0⟩)
  else
    let fullRescan := (pollSince settings memory env.monoPoll env.wallNow).2
    match env.poll with
    | some fetched => scoreFetched settings jsonLoads memory env fetched fullRescan false
    | none =>
        if !fullRescan || memory.unanalyzedWatermark.isNone then (memory, ⟨[], [], false, false, none⟩)
        else
          let memory := { memory with lastFullRescan := some env.monoArm }
          match env.fallbackPoll with
          | some fetched => scoreFetched settings jsonLoads memory env fetched false true
          | none => (memory, ⟨[], [], false, true, none⟩)

/-! ## What a pass over the batch leaves -/

@[simp] theorem armRescan_rawFallbackAttempts (memory : Memory) (fullRescan : Bool) (monoNow : Int) :
    (armRescan memory fullRescan monoNow).rawFallbackAttempts = memory.rawFallbackAttempts := by
  unfold armRescan
  split <;> rfl

@[simp] theorem armRescan_analysisDeferAttempts (memory : Memory) (fullRescan : Bool) (monoNow : Int) :
    (armRescan memory fullRescan monoNow).analysisDeferAttempts = memory.analysisDeferAttempts := by
  unfold armRescan
  split <;> rfl

@[simp] theorem armRescan_unanalyzedWatermark (memory : Memory) (fullRescan : Bool) (monoNow : Int) :
    (armRescan memory fullRescan monoNow).unanalyzedWatermark = memory.unanalyzedWatermark := by
  unfold armRescan
  split <;> rfl

@[simp] theorem advanceWatermark_rawFallbackAttempts (settings : Settings) (memory : Memory)
    (fetched : List Fetched) :
    (advanceWatermark settings memory fetched).rawFallbackAttempts = memory.rawFallbackAttempts := by
  unfold advanceWatermark
  split
  · rfl
  · dsimp only
    split
    · rfl
    · split <;> rfl

@[simp] theorem advanceWatermark_analysisDeferAttempts (settings : Settings) (memory : Memory)
    (fetched : List Fetched) :
    (advanceWatermark settings memory fetched).analysisDeferAttempts = memory.analysisDeferAttempts := by
  unfold advanceWatermark
  split
  · rfl
  · dsimp only
    split
    · rfl
    · split <;> rfl

section
variable {settings : Settings} {jsonLoads : String → Option String}

private theorem resolveRow_bounded (entries : Entries String) (item : Fetched)
    (bounded : Bounded settings.rawFallbackMaxAttempts entries) :
    Bounded settings.rawFallbackMaxAttempts (resolveRow settings jsonLoads entries item).1 := by
  unfold resolveRow
  split
  · exact countAttempt_bounded bounded
  · split
    · exact bounded.erase _
    · exact bounded

private theorem resolveRow_holdsBack (entries : Entries String) (item : Fetched)
    (held : (resolveRow settings jsonLoads entries item).2 = none) :
    ((resolveRow settings jsonLoads entries item).1 item.row.txHash).isSome := by
  unfold resolveRow at held ⊢
  split
  · rename_i lost
    apply countAttempt_held
    simpa [lost] using held
  · rename_i present
    simp only [present, Bool.false_eq_true, if_false] at held
    split at held <;> cases held

private theorem resolveRow_framed (entries : Entries String) (item : Fetched) (other : String)
    (different : other ≠ item.row.txHash) :
    (resolveRow settings jsonLoads entries item).1 other = entries other := by
  unfold resolveRow
  split
  · exact countAttempt_other different
  · split
    · exact Entries.erase_other entries different
    · rfl

private theorem resolveRow_source (entries : Entries String) (item : Fetched) (prepared : Prepared)
    (kept : (resolveRow settings jsonLoads entries item).2 = some prepared) :
    prepared.source = item := by
  unfold resolveRow at kept
  split at kept
  · dsimp only at kept
    split at kept
    · obtain rfl := Option.some.inj kept
      rfl
    · cases kept
  · split at kept <;> obtain rfl := Option.some.inj kept <;> rfl

/-- What `_resolve_raw_data` says of a row it lets through. -/
private theorem resolveRow_prepared {entries : Entries String} {item : Fetched} {prepared : Prepared}
    (bounded : Bounded settings.rawFallbackMaxAttempts entries)
    (kept : (resolveRow settings jsonLoads entries item).2 = some prepared) :
    unrecovered settings jsonLoads item = true →
      prepared.rawDataUnavailable = true ∧
        prepared.rawAttempts = max 1 settings.rawFallbackMaxAttempts := by
  intro lost
  unfold resolveRow at kept
  simp only [lost, if_true] at kept
  split at kept
  · rename_i exhausted
    obtain rfl := Option.some.inj kept
    exact ⟨rfl, countAttempt_exhausted bounded exhausted⟩
  · cases kept

private theorem handleResult_bounded {now : Int} (entries : Entries String) (result : Result)
    (bounded : Bounded settings.analysisDeferMaxAttempts entries) :
    Bounded settings.analysisDeferMaxAttempts (handleResult settings now entries result).1 := by
  unfold handleResult
  dsimp only
  split
  · exact countAttempt_bounded bounded
  · exact bounded.erase _

private theorem handleResult_holdsBack {now : Int} (entries : Entries String) (result : Result)
    (held : (handleResult settings now entries result).2 = none) :
    ((handleResult settings now entries result).1 result.source.row.txHash).isSome := by
  unfold handleResult at held ⊢
  dsimp only at held ⊢
  split
  · rename_i failed
    apply countAttempt_held
    simpa [failed] using held
  · rename_i complete
    simp [complete] at held

private theorem handleResult_framed {now : Int} (entries : Entries String) (result : Result)
    (other : String) (different : other ≠ result.source.row.txHash) :
    (handleResult settings now entries result).1 other = entries other := by
  unfold handleResult
  dsimp only
  split
  · exact countAttempt_other different
  · exact Entries.erase_other entries different

/-- What `_handle_incomplete_scoring` leaves alone in a result it lets through. -/
private theorem handleResult_source {now : Int} (entries : Entries String) (result after : Result)
    (kept : (handleResult settings now entries result).2 = some after) :
    after.source = result.source ∧ after.score.txHash = result.score.txHash ∧
      after.score.rawDataUnavailable = result.score.rawDataUnavailable ∧
      after.rawAttempts = result.rawAttempts := by
  unfold handleResult at kept
  dsimp only at kept
  split at kept
  · split at kept
    · obtain rfl := Option.some.inj kept
      exact ⟨rfl, rfl, rfl, rfl⟩
    · cases kept
  · obtain rfl := Option.some.inj kept
    exact ⟨rfl, rfl, rfl, rfl⟩

/-- An incomplete result is let through on its last attempt only, with both markers. -/
private theorem handleResult_incomplete {now : Int} {entries : Entries String} {result after : Result}
    (bounded : Bounded settings.analysisDeferMaxAttempts entries)
    (kept : (handleResult settings now entries result).2 = some after) :
    incomplete result.source = true → after.score.scorerFailed = result.source.failedScorers ∧
      after.score.enrichmentUnavailable = result.source.failedEnrichment ∧
      after.deferAttempts = max 1 settings.analysisDeferMaxAttempts := by
  intro failed
  unfold handleResult at kept
  simp only [failed, if_true] at kept
  split at kept
  · rename_i exhausted
    obtain rfl := Option.some.inj kept
    exact ⟨rfl, rfl, countAttempt_exhausted bounded exhausted⟩
  · cases kept

end

/-! ## Accounting -/

/-- No stored attempt counter of either table has reached its maximum. -/
structure CountersBounded (settings : Settings) (memory : Memory) : Prop where
  raw : Bounded settings.rawFallbackMaxAttempts memory.rawFallbackAttempts
  defer : Bounded settings.analysisDeferMaxAttempts memory.analysisDeferAttempts

/-- A score row of a transaction that could not be scored completely says so, and it was
written on the attempt that reached the maximum. -/
structure Marked (settings : Settings) (jsonLoads : String → Option String) (result : Result) : Prop where
  hash : result.score.txHash = result.source.row.txHash
  raw : unrecovered settings jsonLoads result.source = true →
    result.score.rawDataUnavailable = true ∧ result.rawAttempts = max 1 settings.rawFallbackMaxAttempts
  scorers : result.source.failedScorers ≠ [] →
    result.score.scorerFailed = result.source.failedScorers ∧
      result.deferAttempts = max 1 settings.analysisDeferMaxAttempts
  enrichment : result.source.failedEnrichment ≠ [] →
    result.score.enrichmentUnavailable = result.source.failedEnrichment ∧
      result.deferAttempts = max 1 settings.analysisDeferMaxAttempts

/-- What one run owes: every row it fetched is written or held back with an entry, no
counter reaches its maximum, degraded rows are marked, and a run whose insert raised
moved neither its watermark nor, unless its own full rescan failed, its rescan clock. -/
structure Accounting (settings : Settings) (jsonLoads : String → Option String) (before after : Memory)
    (report : Report) : Prop where
  settled : report.returned ≠ none → ∀ item ∈ report.fetched,
    (∃ result ∈ report.written, result.score.txHash = item.row.txHash) ∨
      (after.rawFallbackAttempts item.row.txHash).isSome ∨
      (after.analysisDeferAttempts item.row.txHash).isSome
  counters : CountersBounded settings after
  marked : ∀ result ∈ report.written, result.source ∈ report.fetched ∧ Marked settings jsonLoads result
  watermark : report.insertRaised = true → after.unanalyzedWatermark = before.unanalyzedWatermark
  rescan : report.insertRaised = true → report.fellBack = false →
    after.lastFullRescan = before.lastFullRescan

section
variable {settings : Settings} {jsonLoads : String → Option String} {memory : Memory}
  {env : Environment} {fetched : List Fetched} {fullRescan fellBack : Bool}

private theorem resolveRawData_bounded (bounded : CountersBounded settings memory) :
    Bounded settings.rawFallbackMaxAttempts
      (resolveRawData settings jsonLoads memory.rawFallbackAttempts fetched).1 :=
  pass_invariant _ resolveRow_bounded bounded.raw fetched

/-- Every fetched row goes on to scoring or has a raw-fallback entry. -/
private theorem resolveRawData_settles (entries : Entries String) {item : Fetched}
    (member : item ∈ fetched) :
    (∃ prepared ∈ (resolveRawData settings jsonLoads entries fetched).2,
      prepared.source.row.txHash = item.row.txHash) ∨
      ((resolveRawData settings jsonLoads entries fetched).1 item.row.txHash).isSome := by
  have keyed : ∀ entries item (prepared : Prepared),
      (resolveRow settings jsonLoads entries item).2 = some prepared →
        prepared.source.row.txHash = item.row.txHash := by
    intro entries item prepared kept
    rw [resolveRow_source entries item prepared kept]
  exact pass_settles resolveRow_holdsBack resolveRow_framed keyed member

/-- Every scored row is kept for the insert or has a deferral entry. -/
private theorem handleIncompleteScoring_settles (enabled : settings.analysisDeferEnabled = true)
    (now : Int) (entries : Entries String) {results : List Result} {result : Result}
    (member : result ∈ results) :
    (∃ kept ∈ (handleIncompleteScoring settings now entries results).2,
      kept.source.row.txHash = result.source.row.txHash) ∨
      ((handleIncompleteScoring settings now entries results).1 result.source.row.txHash).isSome := by
  have keyed : ∀ entries (result kept : Result),
      (handleResult settings now entries result).2 = some kept →
        kept.source.row.txHash = result.source.row.txHash := by
    intro entries result kept shape
    rw [(handleResult_source entries result kept shape).1]
  simp only [handleIncompleteScoring, enabled, if_true]
  exact pass_settles handleResult_holdsBack handleResult_framed keyed member

private theorem handleIncompleteScoring_bounded (now : Int) (bounded : CountersBounded settings memory)
    (results : List Result) :
    Bounded settings.analysisDeferMaxAttempts
      (handleIncompleteScoring settings now memory.analysisDeferAttempts results).1 := by
  unfold handleIncompleteScoring
  split
  · exact pass_invariant _ handleResult_bounded bounded.defer results
  · exact bounded.defer

/-- What reaches the insert comes from the batch and carries its markers. -/
private theorem handled_marked (enabled : settings.analysisDeferEnabled = true) (now : Int)
    (bounded : CountersBounded settings memory) {result : Result}
    (member : result ∈ (handleIncompleteScoring settings now memory.analysisDeferAttempts
      ((resolveRawData settings jsonLoads memory.rawFallbackAttempts fetched).2.map scoreTransaction)).2) :
    result.source ∈ fetched ∧ Marked settings jsonLoads result := by
  simp only [handleIncompleteScoring, enabled, if_true] at member
  obtain ⟨deferred, deferBounded, scored, among, kept⟩ :=
    pass_mem _ handleResult_bounded bounded.defer member
  obtain ⟨prepared, resolved, rfl⟩ := List.mem_map.mp among
  obtain ⟨entries, rawBounded, item, polled, through⟩ :=
    pass_mem _ resolveRow_bounded bounded.raw resolved
  have source := resolveRow_source entries item prepared through
  obtain ⟨sameSource, sameHash, sameFlag, sameAttempts⟩ := handleResult_source _ _ _ kept
  have origin : result.source = item := sameSource.trans source
  refine ⟨origin ▸ polled, ?_, ?_, ?_, ?_⟩
  · rw [sameHash, sameSource]
    rfl
  · intro lost
    rw [origin] at lost
    obtain ⟨flag, attempts⟩ := resolveRow_prepared rawBounded through lost
    exact ⟨sameFlag.trans flag, sameAttempts.trans attempts⟩
  · intro failed
    rw [sameSource] at failed ⊢
    obtain ⟨marker, -, attempts⟩ := handleResult_incomplete deferBounded kept
      (by simp [incomplete, failed])
    exact ⟨marker, attempts⟩
  · intro failed
    rw [sameSource] at failed ⊢
    obtain ⟨-, marker, attempts⟩ := handleResult_incomplete deferBounded kept
      (by simp [incomplete, failed])
    exact ⟨marker, attempts⟩

/-- Every fetched row is kept for the insert or has an entry in one of the tables. -/
private theorem handled_settles (enabled : settings.analysisDeferEnabled = true) (now : Int)
    (raw defer : Entries String) {item : Fetched} (member : item ∈ fetched) :
    (∃ result ∈ (handleIncompleteScoring settings now defer
        ((resolveRawData settings jsonLoads raw fetched).2.map scoreTransaction)).2,
      result.source.row.txHash = item.row.txHash) ∨
    ((resolveRawData settings jsonLoads raw fetched).1 item.row.txHash).isSome ∨
    ((handleIncompleteScoring settings now defer
      ((resolveRawData settings jsonLoads raw fetched).2.map scoreTransaction)).1 item.row.txHash).isSome := by
  rcases resolveRawData_settles raw member with ⟨prepared, resolved, same⟩ | held
  · have scored := List.mem_map_of_mem (f := scoreTransaction) resolved
    rcases handleIncompleteScoring_settles enabled now defer scored with ⟨result, kept, hash⟩ | deferred
    · exact Or.inl ⟨result, kept, hash.trans same⟩
    · refine Or.inr (Or.inr ?_)
      rw [← same]
      exact deferred
  · exact Or.inr (Or.inl held)

/-- A run keeps its books from the fetched batch on. -/
private theorem scoreFetched_accounting (enabled : settings.analysisDeferEnabled = true)
    (bounded : CountersBounded settings memory) :
    Accounting settings jsonLoads memory
      (scoreFetched settings jsonLoads memory env fetched fullRescan fellBack).1
      (scoreFetched settings jsonLoads memory env fetched fullRescan fellBack).2 := by
  have rawBounded : Bounded settings.rawFallbackMaxAttempts
      (resolveRawData settings jsonLoads memory.rawFallbackAttempts fetched).1 :=
    resolveRawData_bounded bounded
  have deferBounded := handleIncompleteScoring_bounded env.monoDefer bounded
    ((resolveRawData settings jsonLoads memory.rawFallbackAttempts fetched).2.map scoreTransaction)
  have marks : ∀ result ∈ (handleIncompleteScoring settings env.monoDefer memory.analysisDeferAttempts
      ((resolveRawData settings jsonLoads memory.rawFallbackAttempts fetched).2.map scoreTransaction)).2,
      result.source ∈ fetched ∧ Marked settings jsonLoads result :=
    fun _ member => handled_marked enabled env.monoDefer bounded member
  unfold scoreFetched
  split
  · -- nothing to score
    refine ⟨fun _ item member => absurd member List.not_mem_nil, ⟨?_, ?_⟩, ?_, ?_, ?_⟩
    · simpa using bounded.raw
    · simpa using bounded.defer
    all_goals simp
  · dsimp only
    split
    · -- every row was held back for its raw payload
      rename_i allHeld
      refine ⟨fun _ item member => ?_, ⟨?_, ?_⟩, by simp, by simp, by simp⟩
      · rcases resolveRawData_settles memory.rawFallbackAttempts member with ⟨prepared, resolved, -⟩ | held
        · rw [allHeld] at resolved
          cases resolved
        · exact Or.inr (Or.inl (by simpa using held))
      · simpa using rawBounded
      · simpa using bounded.defer
    · split
      · exact ⟨by simp, ⟨rawBounded, bounded.defer⟩, by simp, by simp, by simp⟩
      · split
        · -- every result was deferred
          rename_i allDeferred
          refine ⟨fun _ item member => ?_, ⟨by simpa using rawBounded, by simpa using deferBounded⟩,
            by simp, by simp, by simp⟩
          rcases handled_settles enabled env.monoDefer memory.rawFallbackAttempts
            memory.analysisDeferAttempts member with ⟨result, kept, -⟩ | held
          · rw [allDeferred] at kept
            cases kept
          · exact Or.inr (by simpa using held)
        · split
          · rename_i returned
            -- an insert that returns has been applied
            have applied : env.insert.applies = true := Outcome.applies_of_returns returned
            simp only [applied, if_true]
            refine ⟨fun _ item member => ?_, ⟨by simpa using rawBounded, by simpa using deferBounded⟩,
              marks, by simp, by simp⟩
            rcases handled_settles enabled env.monoDefer memory.rawFallbackAttempts
              memory.analysisDeferAttempts member with ⟨result, kept, same⟩ | held
            · exact Or.inl ⟨result, kept, (marks result kept).2.hash.trans same⟩
            · exact Or.inr (by simpa using held)
          · refine ⟨by simp, ⟨rawBounded, deferBounded⟩, ?_, fun _ => rfl, fun _ _ => rfl⟩
            intro result member
            dsimp only at member
            split at member
            · exact marks result member
            · cases member

@[simp] theorem scoreFetched_fetched :
    (scoreFetched settings jsonLoads memory env fetched fullRescan fellBack).2.fetched = fetched := by
  unfold scoreFetched
  split
  · rename_i empty
    exact empty.symm
  · dsimp only
    split
    · rfl
    · split
      · rfl
      · split
        · rfl
        · split <;> rfl

@[simp] theorem scoreFetched_fellBack :
    (scoreFetched settings jsonLoads memory env fetched fullRescan fellBack).2.fellBack = fellBack := by
  unfold scoreFetched
  split
  · rfl
  · dsimp only
    split
    · rfl
    · split
      · rfl
      · split
        · rfl
        · split <;> rfl

/-- One run keeps its books, from any memory whose counters are below their maxima. -/
theorem runOnce_accounting (enabled : settings.analysisDeferEnabled = true)
    (bounded : CountersBounded settings memory) (env : Environment) :
    Accounting settings jsonLoads memory (runOnce settings jsonLoads memory env).1
      (runOnce settings jsonLoads memory env).2 := by
  have untouched : ∀ (clock : Option Int) (report : Report), report.fetched = [] → report.written = [] →
      report.insertRaised = false →
        Accounting settings jsonLoads memory { memory with lastFullRescan := clock } report := by
    intro clock report noFetch noWrite noRaise
    exact ⟨by simp [noFetch], ⟨bounded.raw, bounded.defer⟩, by simp [noWrite], by simp, by simp [noRaise]⟩
  unfold runOnce
  split
  · exact untouched memory.lastFullRescan _ rfl rfl rfl
  · dsimp only
    split
    · exact scoreFetched_accounting enabled bounded
    · split
      · exact untouched memory.lastFullRescan _ rfl rfl rfl
      · split
        · -- the fallback scores from the same memory with the clock armed
          have owed := @scoreFetched_accounting settings jsonLoads
            { memory with lastFullRescan := some env.monoArm } env ‹_› false true enabled
            ⟨bounded.raw, bounded.defer⟩
          exact ⟨owed.settled, owed.counters, owed.marked, owed.watermark, by simp⟩
        · exact untouched _ _ rfl rfl rfl

end

/-! ## Whole runs -/

section
variable (settings : Settings) (jsonLoads : String → Option String)

/-- The engine as a system: each event is one call of `run_once`. -/
def step (memory : Memory) (env : Environment) : Option Memory :=
  some (runOnce settings jsonLoads memory env).1

/-- Counters stay below their maxima over any sequence of runs from a fresh process. -/
theorem counters_bounded (enabled : settings.analysisDeferEnabled = true) {envs : List Environment}
    {memory : Memory} (reached : Runs.run (step settings jsonLoads) Memory.initial envs = some memory) :
    CountersBounded settings memory := by
  refine Runs.invariant (step settings jsonLoads) ?_ ?_ reached
  · intro before env after bounded stepped
    obtain rfl := Option.some.inj stepped
    exact (runOnce_accounting enabled bounded env).counters
  · exact ⟨Bounded.empty _, Bounded.empty _⟩

/-- After any sequence of runs, whatever failed in them and whatever the clocks read,
the next run keeps its books. -/
theorem engine_accounting (enabled : settings.analysisDeferEnabled = true) {envs : List Environment}
    {memory : Memory} (reached : Runs.run (step settings jsonLoads) Memory.initial envs = some memory)
    (env : Environment) :
    Accounting settings jsonLoads memory (runOnce settings jsonLoads memory env).1
      (runOnce settings jsonLoads memory env).2 :=
  runOnce_accounting enabled (counters_bounded settings jsonLoads enabled reached) env

end

private def sampleSettings : Settings where
  analysisEnabled := true
  analysisEngineBatchSize := 2
  unanalyzedOverlapSeconds := 5
  unanalyzedFullRescanIntervalSeconds := 3600
  unanalyzedFullRescanWindowSeconds := 86400
  rawFallbackEnabled := true
  rawFallbackMaxAttempts := 2
  rawFallbackRetrySeconds := 60
  analysisDeferEnabled := true
  analysisDeferMaxAttempts := 2
  analysisDeferRetrySeconds := 60

/-- A full rescan that scores one row and holds back one whose payload is truncated. -/
private def firstRun : Environment where
  wallNow := 100000
  monoPoll := 0
  monoDefer := 0
  monoArm := 0
  poll := some
    [⟨⟨"tx1", some 1, 0, "payload", false, 99000⟩, none, 0, [], [], 100000⟩,
      ⟨⟨"tx2", some 1, 0, "", true, 99010⟩, none, 0, [], [], 100000⟩]
  fallbackPoll := none
  scoringRaises := false
  insert := .answered

/-- The next full rescan fails, the engine falls back to its watermark and the score
insert of the row it finds there fails too. -/
private def failedRescan : Environment where
  wallNow := 104000
  monoPoll := 4000
  monoDefer := 4000
  monoArm := 4000
  poll := none
  fallbackPoll := some [⟨⟨"tx3", some 2, 0, "payload", false, 103990⟩, none, 4000, [], [], 104000⟩]
  scoringRaises := false
  insert := .lost

private def afterFirstRun : Memory := (runOnce sampleSettings some Memory.initial firstRun).1

/-- The books of the second run of a process, its first having held one row back. -/
theorem engine_accounting_second_run :
    Accounting sampleSettings some afterFirstRun
      (runOnce sampleSettings some afterFirstRun failedRescan).1
      (runOnce sampleSettings some afterFirstRun failedRescan).2 :=
  engine_accounting sampleSettings some rfl (show Runs.run _ _ [firstRun] = some afterFirstRun from rfl)
    failedRescan

/-- A run whose score insert raises may still have armed the rescan clock, when its own
full rescan had failed, and the row it fetched is neither written nor held back. -/
theorem failed_insert_arms_rescan_clock :
    Runs.run (step sampleSettings some) Memory.initial [firstRun] = some afterFirstRun ∧
    (runOnce sampleSettings some afterFirstRun failedRescan).2.insertRaised = true ∧
    afterFirstRun.lastFullRescan = some 0 ∧
    (runOnce sampleSettings some afterFirstRun failedRescan).1.lastFullRescan = some 4000 ∧
    ∃ item ∈ (runOnce sampleSettings some afterFirstRun failedRescan).2.fetched,
      (∀ result ∈ (runOnce sampleSettings some afterFirstRun failedRescan).2.written,
        result.score.txHash ≠ item.row.txHash) ∧
      (runOnce sampleSettings some afterFirstRun failedRescan).1.rawFallbackAttempts item.row.txHash = none ∧
      (runOnce sampleSettings some afterFirstRun failedRescan).1.analysisDeferAttempts
        item.row.txHash = none :=
  ⟨rfl, by decide, by decide, by decide, by decide⟩

end TransactionMonitoring.Engine
