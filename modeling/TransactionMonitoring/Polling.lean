import TransactionMonitoring.Engine

/-! What the engine's polls can still reach.

The engine reads unscored rows from a lower bound on: its watermark in an ordinary poll,
`now - W` in a full rescan with window `W`.  Here the batch runs of `Engine` share the
warehouse with the ingester, the wall clock steps freely and the process may restart,
which loses the watermark.

A row can fall below both bounds.  The system therefore records each run that moves the
watermark, with what its poll read, and the result is that a row below both bounds was
passed by such a run for one of three reasons.  The windowed rescan is the documented
trade of recall for query cost; nothing else loses a row.
-/
namespace TransactionMonitoring.Polling
open Warehouse Engine

instance (tables : Tables) (since : Option Nat) (order : List TxRow) :
    Decidable (PollOrder tables since order) :=
  decidable_of_iff
    (order.Perm (tables.transactions.filter (pollAdmits tables since)) ∧
      order.Pairwise fun first second => first.ingestionTimestamp ≤ second.ingestionTimestamp)
    ⟨fun ordered => ⟨ordered.1, ordered.2⟩, fun ordered => ⟨ordered.admitted, ordered.oldestFirst⟩⟩

/-- The run that moved the watermark, with the bound and the tables of its poll. -/
structure Passage where
  since : Option Nat
  fullRescan : Bool
  tables : Tables
  report : Report
  watermark : Nat
deriving DecidableEq, Repr

structure State where
  now : Nat
  tables : Tables
  memory : Memory
  /-- The runs that moved a watermark; no code reads it. -/
  passages : List Passage

def State.initial (now : Nat) : State := ⟨now, Tables.empty, Memory.initial, []⟩

inductive Event where
  /-- The ingester's `INSERT` into `transactions`. -/
  | insertTransactions (txs : List NormalizedTransaction)
  /-- Its `INSERT` into `transaction_inputs`. -/
  | insertInputs (txs : List NormalizedTransaction)
  /-- One `run_once`; `order` is how its poll saw the admitted rows. -/
  | runOnce (env : Environment) (order : List TxRow)
  /-- The wall clock reads `now` from here on. -/
  | clock (now : Nat)
  /-- The process restarts and loses the engine's memory. -/
  | restart

section
variable (settings : Settings)

/-- The bound of the poll a run scores from, and whether it is a full rescan. -/
def scoredPoll (memory : Memory) (env : Environment) : Option Nat × Bool :=
  match env.poll with
  | some _ => pollSince settings memory env.monoPoll env.wallNow
  | none => (memory.unanalyzedWatermark, false)

/-- The rows a run scores from. -/
def answer (env : Environment) : Option (List Fetched) :=
  env.poll <|> env.fallbackPoll

/-- The run reads the clock and the warehouse as they are: its batch is the first
`ANALYSIS_ENGINE_BATCH_SIZE` rows its poll admits. -/
structure Reads (state : State) (env : Environment) (order : List TxRow) : Prop where
  clock : env.wallNow = state.now
  ordered : PollOrder state.tables (scoredPoll settings state.memory env).1 order
  batch : ∀ fetched ∈ answer env, fetched.map Fetched.row =
    getUnanalyzedTransactions order settings.analysisEngineBatchSize

instance (state : State) (env : Environment) (order : List TxRow) :
    Decidable (Reads settings state env order) :=
  decidable_of_iff
    (env.wallNow = state.now ∧ PollOrder state.tables (scoredPoll settings state.memory env).1 order ∧
      ∀ fetched ∈ answer env, fetched.map Fetched.row =
        getUnanalyzedTransactions order settings.analysisEngineBatchSize)
    ⟨fun reads => ⟨reads.1, reads.2.1, reads.2.2⟩, fun reads => ⟨reads.clock, reads.ordered, reads.batch⟩⟩

variable (jsonLoads : String → Option String) (maxBytes : Nat)

/-- The record of a run, when it moved the watermark. -/
def passage (state : State) (env : Environment) : Option Passage :=
  let ran := runOnce settings jsonLoads state.memory env
  if ran.1.unanalyzedWatermark = state.memory.unanalyzedWatermark then none
  else ran.1.unanalyzedWatermark.map fun watermark =>
    ⟨(scoredPoll settings state.memory env).1, (scoredPoll settings state.memory env).2, state.tables,
      ran.2, watermark⟩

/-- The state after one run; its score rows are in the warehouse. -/
def afterRun (state : State) (env : Environment) : State :=
  let ran := runOnce settings jsonLoads state.memory env
  { state with
    tables := { state.tables with
      txClassScores := state.tables.txClassScores ++ ran.2.written.map Result.score }
    memory := ran.1
    passages := (passage settings jsonLoads state env).toList ++ state.passages }

def step (state : State) : Event → Option State
  | .insertTransactions txs =>
      some { state with tables := { state.tables with
        transactions := state.tables.transactions ++ txs.map (txRow maxBytes) } }
  | .insertInputs txs =>
      some { state with tables := { state.tables with
        transactionInputs := state.tables.transactionInputs ++ txs.flatMap inputRows } }
  | .runOnce env order =>
      if Reads settings state env order then some (afterRun settings jsonLoads state env) else none
  | .clock now => some { state with now := now }
  | .restart => some { state with memory := Memory.initial }

end

/-! ## Reachable rows -/

/-- The bound of the next full rescan. -/
def rescanBound (settings : Settings) (now : Nat) : Option Nat :=
  if 0 < settings.unanalyzedFullRescanWindowSeconds then
    some (now - settings.unanalyzedFullRescanWindowSeconds)
  else none

/-- The row is at or above the bound of a poll the engine will still issue: the watermark
(no bound while there is none) or the next full rescan. -/
def Reachable (settings : Settings) (state : State) (row : TxRow) : Prop :=
  (∀ watermark ∈ state.memory.unanalyzedWatermark, watermark ≤ row.ingestionTimestamp) ∨
    ∀ bound ∈ rescanBound settings state.now, bound ≤ row.ingestionTimestamp

instance (settings : Settings) (state : State) (row : TxRow) :
    Decidable (Reachable settings state row) :=
  inferInstanceAs (Decidable (_ ∨ _))

/-- Some score row of the hash is in the table. -/
def Scored (tables : Tables) (txHash : String) : Prop :=
  ∃ score ∈ tables.txClassScores, score.txHash = txHash

instance (tables : Tables) (txHash : String) : Decidable (Scored tables txHash) :=
  inferInstanceAs (Decidable (∃ _ ∈ _, _))

/-- Why a run that moved the watermark past a row left it without a score. -/
inductive Missed (passage : Passage) (row : TxRow) : Prop where
  /-- The poll could not see it: its row or its input rows had not arrived. -/
  | notVisible (unseen : ¬ (row ∈ passage.tables.transactions ∧
      inputsVisible passage.tables passage.since row = true))
  /-- The run fetched it and held it back. -/
  | heldBack (fetched : row ∈ passage.report.fetched.map Fetched.row)
      (unwritten : ∀ result ∈ passage.report.written, result.score.txHash ≠ row.txHash)
  /-- The poll was a windowed full rescan and the row is older than the window. -/
  | outsideWindow (rescan : passage.fullRescan = true) (bound : Nat)
      (window : passage.since = some bound) (older : row.ingestionTimestamp < bound)

/-- A run moved the watermark past the row and left it without a score. -/
def Passed (state : State) (row : TxRow) : Prop :=
  ∃ passage ∈ state.passages, row.ingestionTimestamp < passage.watermark ∧ Missed passage row

/-! ## What moves the watermark -/

section
variable {settings : Settings} {jsonLoads : String → Option String} {memory : Memory}

private theorem advanceWatermark_moves (fetched : List Fetched) :
    (advanceWatermark settings memory fetched).unanalyzedWatermark = memory.unanalyzedWatermark ∨
    ∃ stamp, newest fetched = some stamp ∧
      (advanceWatermark settings memory fetched).unanalyzedWatermark =
        some (stamp - settings.unanalyzedOverlapSeconds) := by
  unfold advanceWatermark
  cases found : newest fetched with
  | none => exact Or.inl rfl
  | some stamp =>
    dsimp only
    split
    · exact Or.inr ⟨stamp, rfl, rfl⟩
    · split
      · exact Or.inr ⟨stamp, rfl, rfl⟩
      · exact Or.inl rfl

private theorem scoreFetched_moves {env : Environment} {fetched : List Fetched} {fullRescan fellBack : Bool} :
    (scoreFetched settings jsonLoads memory env fetched fullRescan fellBack).1.unanalyzedWatermark =
      memory.unanalyzedWatermark ∨
    ∃ stamp, newest fetched = some stamp ∧
      (scoreFetched settings jsonLoads memory env fetched fullRescan fellBack).1.unanalyzedWatermark =
        some (stamp - settings.unanalyzedOverlapSeconds) := by
  unfold scoreFetched
  split
  · exact Or.inl (by simp)
  · dsimp only
    split
    · exact Or.inl (by simp)
    · split
      · exact Or.inl rfl
      · split
        · simpa using advanceWatermark_moves fetched
        · split
          · simpa using advanceWatermark_moves fetched
          · exact Or.inl rfl

/-- A run that moves the watermark moves it to the newest row it scored from, less the
overlap. -/
theorem runOnce_moves {env : Environment}
    (moved : (runOnce settings jsonLoads memory env).1.unanalyzedWatermark ≠ memory.unanalyzedWatermark) :
    ∃ fetched stamp, answer env = some fetched ∧
      (runOnce settings jsonLoads memory env).2.fetched = fetched ∧ newest fetched = some stamp ∧
      (runOnce settings jsonLoads memory env).1.unanalyzedWatermark =
        some (stamp - settings.unanalyzedOverlapSeconds) := by
  have carried : ∀ (start : Memory) (fetched : List Fetched) (fullRescan fellBack : Bool),
      start.unanalyzedWatermark = memory.unanalyzedWatermark →
      (scoreFetched settings jsonLoads start env fetched fullRescan fellBack).1.unanalyzedWatermark ≠
        memory.unanalyzedWatermark →
      ∃ stamp, newest fetched = some stamp ∧
        (scoreFetched settings jsonLoads start env fetched fullRescan fellBack).1.unanalyzedWatermark =
          some (stamp - settings.unanalyzedOverlapSeconds) := by
    intro start fetched fullRescan fellBack same differs
    rcases scoreFetched_moves with still | ⟨stamp, newestStamp, after⟩
    · exact absurd (still.trans same) differs
    · exact ⟨stamp, newestStamp, after⟩
  unfold runOnce at moved ⊢
  split at moved
  · exact absurd rfl moved
  · rename_i enabled
    simp only [enabled] at moved ⊢
    cases polled : env.poll with
    | some fetched =>
      simp only [polled] at moved ⊢
      obtain ⟨stamp, newestStamp, after⟩ := carried _ _ _ _ rfl moved
      exact ⟨fetched, stamp, by simp [answer, polled], by simp, newestStamp, after⟩
    | none =>
      simp only [polled] at moved ⊢
      split at moved
      · exact absurd rfl moved
      · rename_i falls
        simp only [falls]
        cases fallback : env.fallbackPoll with
        | none => simp [fallback] at moved
        | some fetched =>
          simp only [fallback] at moved ⊢
          obtain ⟨stamp, newestStamp, after⟩ :=
            carried { memory with lastFullRescan := some env.monoArm } fetched false true rfl moved
          exact ⟨fetched, stamp, by simp [answer, polled, fallback], by simp, newestStamp, after⟩

/-- A row the poll admits and the batch leaves out is at least as new as every fetched row. -/
private theorem newest_le_of_unfetched {tables : Tables} {since : Option Nat} {order : List TxRow}
    {batchSize : Nat} (ordered : PollOrder tables since order) {fetched : List Fetched}
    (batch : fetched.map Fetched.row = getUnanalyzedTransactions order batchSize)
    {row : TxRow} (listed : row ∈ order) (left : row ∉ fetched.map Fetched.row) {stamp : Nat}
    (found : newest fetched = some stamp) : stamp ≤ row.ingestionTimestamp := by
  obtain ⟨item, member, rfl⟩ := List.mem_map.mp (List.max?_mem found)
  have taken : item.row ∈ order.take batchSize := by
    have among := List.mem_map_of_mem (f := Fetched.row) member
    rwa [batch] at among
  have dropped : row ∈ order.drop batchSize := by
    rw [← List.take_append_drop batchSize order] at listed
    rcases List.mem_append.mp listed with inBatch | later
    · rw [batch] at left
      exact absurd inBatch left
    · exact later
  have sorted := ordered.oldestFirst
  rw [← List.take_append_drop batchSize order, List.pairwise_append] at sorted
  exact sorted.2.2 item.row taken row dropped

private theorem pollSince_watermark {monoNow : Int} {wallNow : Nat}
    (ordinary : (pollSince settings memory monoNow wallNow).2 = false) :
    (pollSince settings memory monoNow wallNow).1 = memory.unanalyzedWatermark := by
  unfold pollSince at ordinary ⊢
  dsimp only at ordinary ⊢
  split_ifs at ordinary ⊢
  rfl

/-- An ordinary poll starts at the watermark. -/
private theorem scoredPoll_watermark {env : Environment}
    (ordinary : (scoredPoll settings memory env).2 = false) :
    (scoredPoll settings memory env).1 = memory.unanalyzedWatermark := by
  unfold scoredPoll at ordinary ⊢
  split
  · rename_i polled
    rw [polled] at ordinary
    exact pollSince_watermark ordinary
  · rfl

/-- A visible, unscored row that the poll does not admit is below its bound. -/
private theorem below_of_not_admitted {tables : Tables} {since : Option Nat} {row : TxRow}
    (visible : inputsVisible tables since row = true) (unscored : ¬ Scored tables row.txHash)
    (refused : pollAdmits tables since row ≠ true) :
    ∃ bound, since = some bound ∧ row.ingestionTimestamp < bound := by
  have noScore : scoredSince tables since row.txHash = false := by
    rw [scoredSince, List.any_eq_false]
    intro score member matched
    rw [Bool.and_eq_true, decide_eq_true_iff] at matched
    exact unscored ⟨score, member, matched.1⟩
  cases since with
  | none => simp [pollAdmits, noScore, visible] at refused
  | some bound =>
    refine ⟨bound, rfl, ?_⟩
    simpa [pollAdmits, noScore, visible] using refused

end

/-! ## One step -/

section
variable {settings : Settings} {jsonLoads : String → Option String} {maxBytes : Nat}

/-- A run that moves the watermark past a row scored it, missed it for one of the three
reasons, or found it below the watermark already. -/
private theorem missed_of_passage {state : State} {env : Environment} {order : List TxRow}
    (reads : Reads settings state env order) {record : Passage}
    (recorded : passage settings jsonLoads state env = some record) {row : TxRow}
    (below : row.ingestionTimestamp < record.watermark) :
    Missed record row ∨ Scored (afterRun settings jsonLoads state env).tables row.txHash ∨
      ∃ watermark ∈ state.memory.unanalyzedWatermark, row.ingestionTimestamp < watermark := by
  unfold passage at recorded
  dsimp only at recorded
  split at recorded
  · cases recorded
  · rename_i moved
    obtain ⟨fetched, stamp, answered, reported, newestStamp, after⟩ := runOnce_moves moved
    rw [after, Option.map_some, Option.some.injEq] at recorded
    subst recorded
    have batch := reads.batch fetched (by simp [answered])
    by_cases seen : row ∈ state.tables.transactions ∧
        inputsVisible state.tables (scoredPoll settings state.memory env).1 row = true
    case neg => exact Or.inl (.notVisible seen)
    by_cases taken : row ∈ fetched.map Fetched.row
    · by_cases written : ∃ result ∈ (runOnce settings jsonLoads state.memory env).2.written,
          result.score.txHash = row.txHash
      · obtain ⟨result, member, same⟩ := written
        refine Or.inr (Or.inl ⟨result.score, ?_, same⟩)
        exact List.mem_append_right _ (List.mem_map_of_mem member)
      · push Not at written
        exact Or.inl (.heldBack (by simpa [reported] using taken) written)
    · by_cases scored : Scored state.tables row.txHash
      · obtain ⟨score, member, same⟩ := scored
        exact Or.inr (Or.inl ⟨score, List.mem_append_left _ member, same⟩)
      · by_cases admitted : pollAdmits state.tables (scoredPoll settings state.memory env).1 row = true
        · -- the batch is the oldest rows, so the watermark stops at or before this one
          have listed := (reads.ordered.mem_iff row).mpr ⟨seen.1, admitted⟩
          have older := newest_le_of_unfetched reads.ordered batch listed taken newestStamp
          dsimp only at below
          omega
        · obtain ⟨bound, since, older⟩ := below_of_not_admitted seen.2 scored admitted
          by_cases rescan : (scoredPoll settings state.memory env).2 = true
          · exact Or.inl (.outsideWindow rescan bound since older)
          · refine Or.inr (Or.inr ⟨bound, ?_, older⟩)
            rw [← scoredPoll_watermark (Bool.not_eq_true _ ▸ rescan), since]
            rfl

/-- Every row below the watermark is scored or was passed. -/
def Accounted (state : State) : Prop :=
  ∀ watermark ∈ state.memory.unanalyzedWatermark, ∀ row : TxRow, row.ingestionTimestamp < watermark →
    Scored state.tables row.txHash ∨ Passed state row

private theorem accounted_afterRun {state : State} {env : Environment} {order : List TxRow}
    (reads : Reads settings state env order) (accounted : Accounted state) :
    Accounted (afterRun settings jsonLoads state env) := by
  have carried : ∀ row : TxRow, Scored state.tables row.txHash ∨ Passed state row →
      Scored (afterRun settings jsonLoads state env).tables row.txHash ∨
        Passed (afterRun settings jsonLoads state env) row := by
    rintro row (⟨score, member, same⟩ | ⟨record, member, missed⟩)
    · exact Or.inl ⟨score, List.mem_append_left _ member, same⟩
    · exact Or.inr ⟨record, List.mem_append_right _ member, missed⟩
  intro watermark current row below
  by_cases moved : (runOnce settings jsonLoads state.memory env).1.unanalyzedWatermark =
      state.memory.unanalyzedWatermark
  · refine carried row (accounted watermark ?_ row below)
    rw [← moved]
    exact current
  · have after : (runOnce settings jsonLoads state.memory env).1.unanalyzedWatermark = some watermark :=
      current
    have recorded : ∃ record, passage settings jsonLoads state env = some record ∧
        record.watermark = watermark := by
      rw [after] at moved
      simp [passage, after, moved]
    obtain ⟨record, found, rfl⟩ := recorded
    rcases missed_of_passage reads found below with missed | scored | ⟨earlier, old, already⟩
    · refine Or.inr ⟨record, ?_, below, missed⟩
      exact List.mem_append_left _ (by simp [found])
    · exact Or.inl scored
    · exact carried row (accounted earlier old row already)

private theorem accounted_step {state next : State} {event : Event} (accounted : Accounted state)
    (stepped : step settings jsonLoads maxBytes state event = some next) : Accounted next := by
  cases event with
  | insertTransactions txs =>
    obtain rfl := Option.some.inj stepped
    exact accounted
  | insertInputs txs =>
    obtain rfl := Option.some.inj stepped
    exact accounted
  | runOnce env order =>
    simp only [step] at stepped
    split at stepped
    · rename_i reads
      obtain rfl := Option.some.inj stepped
      exact accounted_afterRun reads accounted
    · cases stepped
  | clock now =>
    obtain rfl := Option.some.inj stepped
    exact accounted
  | restart =>
    obtain rfl := Option.some.inj stepped
    intro watermark current
    cases current

end

/-! ## Whole runs -/

/-- **Never-skip polling.**  In every run of ingestion, batch runs, clock steps and
restarts, a row without a score row is still within reach, or a run that moved the
watermark past it could not see it, held it back, or was a windowed full rescan that
started above it. -/
theorem unscored_reachable_or_passed (settings : Settings) (jsonLoads : String → Option String)
    (maxBytes now : Nat) {events : List Event} {state : State}
    (reached : Runs.run (step settings jsonLoads maxBytes) (State.initial now) events = some state)
    {row : TxRow} (unscored : ¬ Scored state.tables row.txHash) :
    Reachable settings state row ∨ Passed state row := by
  have accounted : Accounted state := by
    refine Runs.invariant (step settings jsonLoads maxBytes) accounted_step ?_ reached
    intro watermark current
    cases current
  by_cases above : ∀ watermark ∈ state.memory.unanalyzedWatermark, watermark ≤ row.ingestionTimestamp
  · exact Or.inl (Or.inl above)
  · push Not at above
    obtain ⟨watermark, current, below⟩ := above
    exact Or.inr ((accounted watermark current row below).resolve_left unscored)

private def windowSettings : Settings where
  analysisEnabled := true
  analysisEngineBatchSize := 10
  unanalyzedOverlapSeconds := 5
  unanalyzedFullRescanIntervalSeconds := 600
  unanalyzedFullRescanWindowSeconds := 3600
  rawFallbackEnabled := true
  rawFallbackMaxAttempts := 3
  rawFallbackRetrySeconds := 30
  analysisDeferEnabled := true
  analysisDeferMaxAttempts := 3
  analysisDeferRetrySeconds := 30

private def backlogTx : NormalizedTransaction := ⟨"tx1", some 1, [], [], 0, none, 1000⟩
private def freshTx : NormalizedTransaction := ⟨"tx2", some 2, [], [], 0, none, 9990⟩

/-- The first run of a process whose engine was down for longer than the window. -/
private def firstPoll : Environment where
  wallNow := 10000
  monoPoll := 0
  monoDefer := 0
  monoArm := 0
  poll := some [⟨txRow 0 freshTx, none, 0, [], [], 10000⟩]
  fallbackPoll := none
  scoringRaises := false
  insert := .answered

private def outage : List Event :=
  [.insertTransactions [backlogTx], .clock 10000, .restart, .insertTransactions [freshTx],
    .runOnce firstPoll [txRow 0 freshTx]]

private def afterOutage : State :=
  (Runs.run (step windowSettings some 0) (State.initial 1000) outage).getD (State.initial 0)

/-- After the outage the row older than the window is accounted for. -/
theorem unscored_reachable_or_passed_after_outage :
    Reachable windowSettings afterOutage (txRow 0 backlogTx) ∨ Passed afterOutage (txRow 0 backlogTx) :=
  unscored_reachable_or_passed windowSettings some 0 1000
    (show Runs.run (step windowSettings some 0) (State.initial 1000) outage = some afterOutage from rfl)
    (by decide)

/-- A visible, unscored row that no later poll reaches: the first rescan after an outage
longer than its window starts above the row and moves the watermark past it. -/
theorem windowed_rescan_skips_backlog :
    Runs.run (step windowSettings some 0) (State.initial 1000) outage = some afterOutage ∧
    txRow 0 backlogTx ∈ afterOutage.tables.transactions ∧
    inputsVisible afterOutage.tables none (txRow 0 backlogTx) = true ∧
    ¬ Scored afterOutage.tables "tx1" ∧ ¬ Reachable windowSettings afterOutage (txRow 0 backlogTx) :=
  ⟨rfl, by decide, by decide, by decide, by decide⟩

end TransactionMonitoring.Polling
