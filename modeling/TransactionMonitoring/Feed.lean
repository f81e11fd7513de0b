import Mathlib.Data.List.Basic
import Mathlib.Data.List.Nodup
import Mathlib.Data.List.Perm.Basic
import Mathlib.Data.Rat.Defs
import Mathlib.Algebra.Order.Ring.Unbundled.Rat
import TransactionMonitoring.Faults

/-! The clustering sidecar's automatic feed.

`feed_tick` walks the contract registry newest row first and enqueues at most
`FEED_MAX_CONTRACTS_PER_TICK` jobs.  A finished job saves its contract row again,
so the row comes back as one of the newest.  The results here say which contracts
one tick enqueues, and for which watchlists every eligible contract gets its turn.

A tick carries what the outside decides: the clock, the answer of the ordered
registry read (ties in `updated_at` come back in any order), the targets with a
job of their own, and the rows the jobs it enqueued save before the next tick.
-/
namespace TransactionMonitoring.Feed

/-- The `status` column of a watched contract. -/
inductive Status where
  | pending
  | processing
  | done
  | failed
deriving DecidableEq, Repr

/-- The two job kinds the feed creates. -/
inductive JobKind where
  | onboard
  | classify
deriving DecidableEq, Repr

/-- The columns of a `contracts` row that the feed reads. -/
structure Contract where
  target : String
  targetType : String
  status : Status
  driftScore : Rat
  fitCoverage : Rat
  lastFitAt : Int
  updatedAt : Nat
deriving DecidableEq, Repr

/-- The feed's part of the sidecar settings. -/
structure Settings where
  reclusterNoiseThreshold : Rat
  minClusterCoverage : Rat
  feedRefitMinIntervalSeconds : Int
  feedMaxContractsPerTick : Nat
deriving DecidableEq, Repr

/-- `_COVERAGE_UNKNOWN`, the fit coverage of a contract that was never fit. -/
def coverageUnknown : Rat := -1

/-- `Settings.model_unclusterable`. -/
def modelUnclusterable (settings : Settings) (fitCoverage : Rat) : Bool :=
  coverageUnknown < fitCoverage && fitCoverage < settings.minClusterCoverage

/-- `Settings.recluster_recommended`. -/
def reclusterRecommended (settings : Settings) (driftScore fitCoverage : Rat) : Bool :=
  if driftScore < settings.reclusterNoiseThreshold then false
  else !modelUnclusterable settings fitCoverage

/-- `scheduler._decide`: the job kind and its reprocess flag, `none` to skip. -/
def decideJob (contract : Contract) (settings : Settings) (now : Int) : Option (JobKind × Nat) :=
  match contract.status with
  | .pending => some (.onboard, 1)
  | .done =>
      let throttled := 0 < contract.lastFitAt &&
        now - contract.lastFitAt < settings.feedRefitMinIntervalSeconds
      if modelUnclusterable settings contract.fitCoverage then
        if throttled then some (.classify, 0) else some (.onboard, 1)
      else if reclusterRecommended settings contract.driftScore contract.fitCoverage && !throttled then
        some (.onboard, 1)
      else some (.classify, 0)
  | .processing | .failed => none

/-- A contract the feed would enqueue when it is idle. -/
def Contract.eligible (contract : Contract) : Bool :=
  contract.status = .pending || contract.status = .done

/-- `_decide` skips exactly the contracts that are processing or failed, whatever
the clock and the thresholds are. -/
@[simp] theorem decideJob_isSome (contract : Contract) (settings : Settings) (now : Int) :
    (decideJob contract settings now).isSome = contract.eligible := by
  unfold decideJob Contract.eligible
  cases contract.status with
  | pending => rfl
  | processing => rfl
  | failed => rfl
  | done =>
    dsimp only
    split <;> split <;> rfl

/-! ## Paging over the registry -/

/-- `iter_all_rows`: pages of `pageSize` until a short one, at most `fuel` of them. -/
def iterAllRows {α : Type} (fetch : Nat → Nat → List α) (pageSize : Nat) : Nat → Nat → List α
  | 0, _ => []
  | fuel + 1, offset =>
      let rows := fetch pageSize offset
      if rows.length < pageSize then rows
      else rows ++ iterAllRows fetch pageSize fuel (offset + pageSize)

/-- `SCAN_PAGE_SIZE`. -/
def scanPageSize : Nat := 500

/-- One page of an ordered read: `LIMIT limit OFFSET offset`. -/
def page {α : Type} (rows : List α) (limit offset : Nat) : List α :=
  (rows.drop offset).take limit

/-- Paging visits every row of the read exactly once and in its order. -/
theorem iterAllRows_page {α : Type} (rows : List α) (pageSize : Nat) (positive : 0 < pageSize)
    (fuel offset : Nat) (enough : rows.length < offset + fuel) :
    iterAllRows (page rows) pageSize fuel offset = rows.drop offset := by
  induction fuel generalizing offset with
  | zero =>
    have past : rows.length ≤ offset := by omega
    simp [iterAllRows, List.drop_of_length_le past]
  | succ fuel ih =>
    simp only [iterAllRows, page, List.length_take, List.length_drop]
    split
    · rename_i short
      exact List.take_of_length_le (by simp only [List.length_drop]; omega)
    · rw [ih (offset + pageSize) (by omega), ← List.drop_drop]
      exact List.take_append_drop pageSize (rows.drop offset)

/-! ## One tick -/

/-- A job row the feed creates. -/
structure Job where
  target : String
  targetType : String
  kind : JobKind
  reprocess : Nat
deriving DecidableEq, Repr

/-- What one tick meets and what follows it before the next. -/
structure Tick where
  /-- The clock, read once. -/
  now : Int
  /-- `list_contracts` in the order ClickHouse answers it. -/
  rows : List Contract
  /-- Targets of `nonterminal_jobs()` when the tick starts. -/
  busy : List String
  /-- Targets for which another writer's job shows up in the locked re-check. -/
  raced : List String
  /-- The rows the enqueued jobs save, in the order they finish. -/
  saved : List Contract
deriving DecidableEq, Repr

/-- The loop of `feed_tick` over the scanned rows; `jobs` are the ones created so
far in this tick. -/
def feedLoop (settings : Settings) (now : Int) (busy raced : List String) :
    List Contract → List Job → List Job
  | [], jobs => jobs
  | contract :: rest, jobs =>
      if settings.feedMaxContractsPerTick ≤ jobs.length then jobs
      else if contract.target ∈ busy then feedLoop settings now busy raced rest jobs
      else match decideJob contract settings now with
        | none => feedLoop settings now busy raced rest jobs
        | some (kind, reprocess) =>
            if contract.target ∈ raced ∨ contract.target ∈ jobs.map Job.target then
              feedLoop settings now busy raced rest jobs
            else feedLoop settings now busy raced rest
              (jobs ++ [⟨contract.target, contract.targetType, kind, reprocess⟩])

/-- `feed_tick`: the jobs one tick creates, in order. -/
def feedTick (settings : Settings) (tick : Tick) : List Job :=
  feedLoop settings tick.now tick.busy tick.raced
    (iterAllRows (page tick.rows) scanPageSize (tick.rows.length + 1) 0) []

/-- The targets one tick enqueues. -/
def enqueued (settings : Settings) (tick : Tick) : List String :=
  (feedTick settings tick).map Job.target

/-- A contract with no job in sight that `_decide` does not skip. -/
def Tick.idle (tick : Tick) (contract : Contract) : Bool :=
  contract.eligible && contract.target ∉ tick.busy && contract.target ∉ tick.raced

/-- The loop enqueues the idle rows in scan order until the cap is reached. -/
private theorem feedLoop_targets (settings : Settings) (tick : Tick) (rows : List Contract)
    (jobs : List Job) (distinct : (rows.map Contract.target).Nodup)
    (fresh : ∀ contract ∈ rows, contract.target ∉ jobs.map Job.target) :
    (feedLoop settings tick.now tick.busy tick.raced rows jobs).map Job.target =
      jobs.map Job.target ++
        ((rows.filter tick.idle).take (settings.feedMaxContractsPerTick - jobs.length)).map
          Contract.target := by
  induction rows generalizing jobs with
  | nil => simp [feedLoop]
  | cons contract rest ih =>
    obtain ⟨absent, distinctRest⟩ := List.nodup_cons.mp distinct
    have freshRest : ∀ other ∈ rest, other.target ∉ jobs.map Job.target :=
      fun other member => fresh other (List.mem_cons_of_mem contract member)
    have skipped := ih jobs distinctRest freshRest
    unfold feedLoop
    split
    · rename_i full
      simp [Nat.sub_eq_zero_of_le full]
    rename_i room
    by_cases held : contract.target ∈ tick.busy
    · simp [held, skipped, Tick.idle]
    simp only [held, if_false]
    have decided := decideJob_isSome contract settings tick.now
    cases choice : decideJob contract settings tick.now with
    | none =>
      have ineligible : contract.eligible = false := by simpa [choice] using decided.symm
      simp [skipped, Tick.idle, ineligible]
    | some job =>
      have eligible : contract.eligible = true := by simpa [choice] using decided.symm
      have unlisted := fresh contract List.mem_cons_self
      by_cases taken : contract.target ∈ tick.raced
      · simp [taken, skipped, Tick.idle]
      have idle : tick.idle contract = true := by simp [Tick.idle, eligible, held, taken]
      simp only [taken, unlisted, or_self, if_false]
      rw [ih _ distinctRest]
      · obtain ⟨left, remaining⟩ :
            ∃ left, settings.feedMaxContractsPerTick - jobs.length = left + 1 :=
          ⟨settings.feedMaxContractsPerTick - jobs.length - 1, by omega⟩
        have used : settings.feedMaxContractsPerTick - (jobs.length + 1) = left := by omega
        simp [idle, remaining, used]
      · intro other member listed
        simp only [List.map_append, List.map_cons, List.map_nil, List.mem_append,
          List.mem_singleton] at listed
        rcases listed with earlier | same
        · exact freshRest other member earlier
        · exact absent (same ▸ List.mem_map_of_mem member)

/-- **What one tick enqueues.**  Of a registry with one row per target, `feed_tick`
enqueues the first `cap` idle contracts in the order the read returns them. -/
theorem enqueued_eq (settings : Settings) (tick : Tick)
    (distinct : (tick.rows.map Contract.target).Nodup) :
    enqueued settings tick =
      ((tick.rows.filter tick.idle).take settings.feedMaxContractsPerTick).map Contract.target := by
  unfold enqueued feedTick
  rw [iterAllRows_page tick.rows scanPageSize (by decide) _ 0 (by omega), List.drop_zero,
    feedLoop_targets settings tick tick.rows [] distinct (by simp)]
  simp

/-! ## Runs of ticks -/

/-- The registry as a `FINAL` read sees it: one row per target. -/
structure Watchlist where
  rows : List Contract
  distinct : (rows.map Contract.target).Nodup

/-- `save_contract` on an existing target: the row with the later `updated_at`
stays, the later insert on a tie. -/
def saveContract (rows : List Contract) (saved : Contract) : List Contract :=
  rows.map fun row =>
    if row.target = saved.target ∧ row.updatedAt ≤ saved.updatedAt then saved else row

theorem saveContract_targets (rows : List Contract) (saved : Contract) :
    (saveContract rows saved).map Contract.target = rows.map Contract.target := by
  simp only [saveContract, List.map_map]
  apply List.map_congr_left
  intro row _
  simp only [Function.comp_apply]
  split
  · rename_i same
    exact same.1.symm
  · rfl

theorem saveContracts_targets (saves rows : List Contract) :
    (saves.foldl saveContract rows).map Contract.target = rows.map Contract.target := by
  induction saves generalizing rows with
  | nil => rfl
  | cons saved rest ih => rw [List.foldl_cons, ih, saveContract_targets]

/-- The registry once every job of the tick has saved its row. -/
def Watchlist.after (watchlist : Watchlist) (saves : List Contract) : Watchlist where
  rows := saves.foldl saveContract watchlist.rows
  distinct := by
    rw [saveContracts_targets]
    exact watchlist.distinct

/-- A tick the registry allows: the read is a newest-first permutation of it, and
before the next tick every job enqueued has saved its row, stamped no earlier than
any row read, and left the contract done, pending or failed. -/
structure Tick.Valid (settings : Settings) (watchlist : Watchlist) (tick : Tick) : Prop where
  complete : tick.rows.Perm watchlist.rows
  newestFirst : tick.rows.Pairwise fun first second => second.updatedAt ≤ first.updatedAt
  finished : (tick.saved.map Contract.target).Perm (enqueued settings tick)
  later : ∀ saved ∈ tick.saved, ∀ row ∈ watchlist.rows, row.updatedAt ≤ saved.updatedAt
  settled : ∀ saved ∈ tick.saved, saved.status ≠ .processing

/-- A run of ticks from a registry. -/
def FeedRun (settings : Settings) : Watchlist → List Tick → Prop
  | _, [] => True
  | watchlist, tick :: rest =>
      tick.Valid settings watchlist ∧ FeedRun settings (watchlist.after tick.saved) rest

/-- The contract is in the registry, idle and eligible when the tick reads it. -/
def Tick.Waiting (tick : Tick) (target : String) : Prop :=
  ∃ contract ∈ tick.rows, contract.target = target ∧ tick.idle contract = true

/-- Over no stretch of consecutive ticks is one contract enqueued twice while
another, idle and eligible at each of them, is not enqueued at all. -/
def Fair (settings : Settings) (ticks : List Tick) : Prop :=
  ∀ stretch, stretch <:+: ticks → ∀ served waiting,
    2 ≤ (stretch.filter fun tick => served ∈ enqueued settings tick).length →
    (∀ tick ∈ stretch, tick.Waiting waiting) →
    ∃ tick ∈ stretch, waiting ∈ enqueued settings tick

/-- The contracts of the watchlist that a tick may enqueue. -/
def Watchlist.eligible (watchlist : Watchlist) : List Contract :=
  watchlist.rows.filter Contract.eligible

/-! ## Watchlists that fit the cap -/

private theorem idle_imp_eligible {tick : Tick} {contract : Contract}
    (idle : tick.idle contract = true) : contract.eligible = true := by
  simp only [Tick.idle, Bool.and_eq_true] at idle
  exact idle.1.1

private theorem Tick.Valid.distinct {settings : Settings} {watchlist : Watchlist} {tick : Tick}
    (valid : tick.Valid settings watchlist) : (tick.rows.map Contract.target).Nodup :=
  (valid.complete.map Contract.target).nodup_iff.mpr watchlist.distinct

private theorem enqueued_eligible {settings : Settings} {watchlist : Watchlist} {tick : Tick}
    (valid : tick.Valid settings watchlist) {target : String}
    (member : target ∈ enqueued settings tick) :
    target ∈ watchlist.eligible.map Contract.target := by
  rw [enqueued_eq settings tick valid.distinct] at member
  obtain ⟨contract, taken, rfl⟩ := List.mem_map.mp member
  obtain ⟨scanned, idle⟩ := List.mem_filter.mp (List.mem_of_mem_take taken)
  refine List.mem_map_of_mem (List.mem_filter.mpr ⟨?_, idle_imp_eligible idle⟩)
  exact valid.complete.mem_iff.mp scanned

/-- When the eligible contracts fit under the cap, no idle one is passed over. -/
theorem enqueued_of_fits {settings : Settings} {watchlist : Watchlist} {tick : Tick}
    (valid : tick.Valid settings watchlist)
    (fits : watchlist.eligible.length ≤ settings.feedMaxContractsPerTick)
    {target : String} (waits : tick.Waiting target) : target ∈ enqueued settings tick := by
  obtain ⟨contract, scanned, rfl, idle⟩ := waits
  rw [enqueued_eq settings tick valid.distinct]
  have bounded : (tick.rows.filter tick.idle).length ≤ settings.feedMaxContractsPerTick := calc
    (tick.rows.filter tick.idle).length ≤ (tick.rows.filter Contract.eligible).length :=
      (List.monotone_filter_right tick.rows fun _ => idle_imp_eligible).length_le
    _ = watchlist.eligible.length := (valid.complete.filter Contract.eligible).length_eq
    _ ≤ settings.feedMaxContractsPerTick := fits
  rw [List.take_of_length_le bounded]
  exact List.mem_map_of_mem (List.mem_filter.mpr ⟨scanned, idle⟩)

/-- A row of the registry after some saves is one of the saved rows or an old row. -/
private theorem mem_saveContracts {saves rows : List Contract} {row : Contract}
    (member : row ∈ saves.foldl saveContract rows) : row ∈ saves ∨ row ∈ rows := by
  induction saves generalizing rows with
  | nil => exact Or.inr member
  | cons saved rest ih =>
    rcases ih member with later | earlier
    · exact Or.inl (List.mem_cons_of_mem saved later)
    · obtain ⟨old, oldMember, shape⟩ := List.mem_map.mp earlier
      split at shape
      · exact Or.inl (by simp [shape])
      · exact Or.inr (shape ▸ oldMember)

/-- Finished jobs only re-save contracts that were eligible, so the number of
eligible contracts never grows. -/
private theorem eligible_after_le {settings : Settings} {watchlist : Watchlist} {tick : Tick}
    (valid : tick.Valid settings watchlist) :
    (watchlist.after tick.saved).eligible.length ≤ watchlist.eligible.length := by
  have within : (watchlist.after tick.saved).eligible.map Contract.target ⊆
      watchlist.eligible.map Contract.target := by
    intro target member
    obtain ⟨row, kept, rfl⟩ := List.mem_map.mp member
    obtain ⟨stored, eligible⟩ := List.mem_filter.mp kept
    rcases mem_saveContracts stored with saved | old
    · exact enqueued_eligible valid (valid.finished.mem_iff.mp (List.mem_map_of_mem saved))
    · exact List.mem_map_of_mem (List.mem_filter.mpr ⟨old, eligible⟩)
  have distinct : ((watchlist.after tick.saved).eligible.map Contract.target).Nodup :=
    (watchlist.after tick.saved).distinct.sublist (List.filter_sublist.map _)
  simpa using (List.subperm_of_subset distinct within).length_le

/-- Along a run from a watchlist that fits the cap, every tick enqueues every
waiting contract. -/
private theorem run_enqueues_waiting {settings : Settings} {watchlist : Watchlist}
    {ticks : List Tick} (ran : FeedRun settings watchlist ticks)
    (fits : watchlist.eligible.length ≤ settings.feedMaxContractsPerTick) :
    ∀ tick ∈ ticks, ∀ target, tick.Waiting target → target ∈ enqueued settings tick := by
  induction ticks generalizing watchlist with
  | nil => simp
  | cons first rest ih =>
    obtain ⟨valid, later⟩ := ran
    intro tick member
    rcases List.mem_cons.mp member with rfl | member
    · intro target waits
      exact enqueued_of_fits valid fits waits
    · exact ih later (Nat.le_trans (eligible_after_le valid) fits) tick member

private theorem fair_of_fits {settings : Settings} {watchlist : Watchlist} {ticks : List Tick}
    (fits : watchlist.eligible.length ≤ settings.feedMaxContractsPerTick)
    (ran : FeedRun settings watchlist ticks) : Fair settings ticks := by
  intro stretch within served waiting twice waits
  cases stretch with
  | nil => simp at twice
  | cons tick rest =>
    have member : tick ∈ ticks := within.subset List.mem_cons_self
    refine ⟨tick, List.mem_cons_self, ?_⟩
    exact run_enqueues_waiting ran fits tick member waiting (waits tick List.mem_cons_self)

/-! ## Watchlists that do not -/

/-- A job that ends well leaves its contract done, with a new stamp. -/
private def refresh (stamp : Nat) (contract : Contract) : Contract :=
  { contract with status := .done, updatedAt := stamp }

/-- A tick with no other job around, after which every job ends well. -/
private def quietTick (settings : Settings) (rows : List Contract) (stamp : Nat) : Tick where
  now := 0
  rows := rows
  busy := []
  raced := []
  saved := ((rows.filter Contract.eligible).take settings.feedMaxContractsPerTick).map (refresh stamp)

private theorem quietTick_idle (settings : Settings) (rows : List Contract) (stamp : Nat) :
    (quietTick settings rows stamp).idle = Contract.eligible := by
  funext contract
  simp [Tick.idle, quietTick]

private theorem quietTick_saved_targets (settings : Settings) (rows : List Contract) (stamp : Nat)
    (distinct : (rows.map Contract.target).Nodup) :
    (quietTick settings rows stamp).saved.map Contract.target =
      enqueued settings (quietTick settings rows stamp) := by
  rw [enqueued_eq settings _ distinct, quietTick_idle]
  simp [quietTick, Function.comp_def, refresh]

private theorem quietTick_valid (settings : Settings) (watchlist : Watchlist)
    (rows : List Contract) (stamp : Nat) (complete : rows.Perm watchlist.rows)
    (newestFirst : rows.Pairwise fun first second => second.updatedAt ≤ first.updatedAt)
    (later : ∀ row ∈ rows, row.updatedAt ≤ stamp) :
    (quietTick settings rows stamp).Valid settings watchlist where
  complete := complete
  newestFirst := newestFirst
  finished := by
    have distinct := (complete.map Contract.target).nodup_iff.mpr watchlist.distinct
    rw [quietTick_saved_targets settings rows stamp distinct]
  later := by
    intro saved member row stored
    obtain ⟨contract, _, rfl⟩ := List.mem_map.mp member
    exact later row (complete.mem_iff.mpr stored)
  settled := by
    intro saved member
    obtain ⟨contract, _, rfl⟩ := List.mem_map.mp member
    simp [refresh]

/-- Saving rows of distinct targets, each newer than the row it replaces: the saved
rows stand in for the old rows of their targets. -/
private theorem mem_saveContracts_iff {saves rows : List Contract}
    (distinct : (saves.map Contract.target).Nodup)
    (known : ∀ saved ∈ saves, saved.target ∈ rows.map Contract.target)
    (newer : ∀ saved ∈ saves, ∀ row ∈ rows, row.target = saved.target →
      row.updatedAt ≤ saved.updatedAt) (row : Contract) :
    row ∈ saves.foldl saveContract rows ↔
      row ∈ saves ∨ row ∈ rows ∧ row.target ∉ saves.map Contract.target := by
  induction saves generalizing rows with
  | nil => simp
  | cons saved rest ih =>
    obtain ⟨absent, distinctRest⟩ := List.nodup_cons.mp distinct
    have stored : ∀ other, other ∈ saveContract rows saved ↔
        other = saved ∨ other ∈ rows ∧ other.target ≠ saved.target := by
      intro other
      simp only [saveContract, List.mem_map]
      constructor
      · rintro ⟨old, member, shape⟩
        split at shape
        · exact Or.inl shape.symm
        · rename_i kept
          subst shape
          refine Or.inr ⟨member, fun same => kept ⟨same, ?_⟩⟩
          exact newer saved List.mem_cons_self old member same
      · rintro (rfl | ⟨member, different⟩)
        · obtain ⟨old, member, same⟩ := List.mem_map.mp (known other List.mem_cons_self)
          refine ⟨old, member, if_pos ⟨same, ?_⟩⟩
          exact newer other List.mem_cons_self old member same
        · exact ⟨other, member, if_neg fun both => different both.1⟩
    rw [List.foldl_cons, ih distinctRest]
    · simp only [stored, List.mem_cons, List.map_cons, not_or]
      constructor
      · rintro (later | ⟨rfl | ⟨member, different⟩, unlisted⟩)
        · exact Or.inl (Or.inr later)
        · exact Or.inl (Or.inl rfl)
        · exact Or.inr ⟨member, different, unlisted⟩
      · rintro ((rfl | later) | ⟨member, different, unlisted⟩)
        · exact Or.inr ⟨Or.inl rfl, absent⟩
        · exact Or.inl later
        · exact Or.inr ⟨Or.inr ⟨member, different⟩, unlisted⟩
    · intro other member
      rw [saveContract_targets]
      exact known other (List.mem_cons_of_mem saved member)
    · intro other member old oldMember same
      rcases (stored old).mp oldMember with rfl | ⟨earlier, _⟩
      · exact absurd (same ▸ List.mem_map_of_mem member) absent
      · exact newer other (List.mem_cons_of_mem saved member) old earlier same

private theorem updatedAt_bounded (rows : List Contract) :
    ∃ stamp, ∀ row ∈ rows, row.updatedAt ≤ stamp := by
  induction rows with
  | nil => exact ⟨0, by simp⟩
  | cons row rest ih =>
    obtain ⟨stamp, bound⟩ := ih
    refine ⟨max row.updatedAt stamp, ?_⟩
    simp only [List.mem_cons, forall_eq_or_imp]
    exact ⟨by omega, fun other member => by have := bound other member; omega⟩

/-- What the next read returns once the served contracts have saved their rows:
those rows first, then every other row as before. -/
private def nextScan (settings : Settings) (rows : List Contract) (stamp : Nat) : List Contract :=
  (quietTick settings rows stamp).saved ++
    rows.filter fun row => row.target ∉ (quietTick settings rows stamp).saved.map Contract.target

private theorem nextScan_perm (settings : Settings) (watchlist : Watchlist) (rows : List Contract)
    (stamp : Nat) (complete : rows.Perm watchlist.rows) (later : ∀ row ∈ rows, row.updatedAt ≤ stamp) :
    (nextScan settings rows stamp).Perm
      (watchlist.after (quietTick settings rows stamp).saved).rows := by
  have distinct : (rows.map Contract.target).Nodup :=
    (complete.map Contract.target).nodup_iff.mpr watchlist.distinct
  have targets : (quietTick settings rows stamp).saved.map Contract.target =
      ((rows.filter Contract.eligible).take settings.feedMaxContractsPerTick).map Contract.target := by
    simp [quietTick, Function.comp_def, refresh]
  have savedDistinct : ((quietTick settings rows stamp).saved.map Contract.target).Nodup := by
    rw [targets]
    exact distinct.sublist (((List.take_sublist _ _).trans List.filter_sublist).map _)
  have known : ∀ saved ∈ (quietTick settings rows stamp).saved,
      saved.target ∈ watchlist.rows.map Contract.target := by
    intro saved member
    have listed : saved.target ∈ (quietTick settings rows stamp).saved.map Contract.target :=
      List.mem_map_of_mem member
    rw [targets] at listed
    exact (complete.map Contract.target).mem_iff.mp
      ((((List.take_sublist _ _).trans List.filter_sublist).map _).subset listed)
  have newer : ∀ saved ∈ (quietTick settings rows stamp).saved, ∀ row ∈ watchlist.rows,
      row.target = saved.target → row.updatedAt ≤ saved.updatedAt := by
    intro saved member row stored _
    obtain ⟨contract, _, rfl⟩ := List.mem_map.mp member
    exact later row (complete.mem_iff.mpr stored)
  apply (List.perm_ext_iff_of_nodup ?_ ?_).mpr
  · intro row
    rw [Watchlist.after, mem_saveContracts_iff savedDistinct known newer]
    simp only [nextScan, List.mem_append, List.mem_filter, decide_eq_true_eq, complete.mem_iff]
  · refine List.Nodup.append savedDistinct.of_map (distinct.of_map.filter _) ?_
    intro row saved kept
    have unlisted := (List.mem_filter.mp kept).2
    simp only [decide_eq_true_eq] at unlisted
    exact unlisted (List.mem_map_of_mem saved)
  · exact (watchlist.after _).distinct.of_map

private theorem nextScan_newestFirst (settings : Settings) (rows : List Contract) (stamp : Nat)
    (newestFirst : rows.Pairwise fun first second => second.updatedAt ≤ first.updatedAt)
    (later : ∀ row ∈ rows, row.updatedAt ≤ stamp) :
    (nextScan settings rows stamp).Pairwise fun first second => second.updatedAt ≤ first.updatedAt := by
  refine List.pairwise_append.mpr ⟨?_, newestFirst.filter _, ?_⟩
  · exact List.pairwise_map.mpr (List.pairwise_of_forall fun _ _ => Nat.le_refl stamp)
  · intro saved member row kept
    obtain ⟨contract, _, rfl⟩ := List.mem_map.mp member
    exact later row (List.mem_of_mem_filter kept)

/-- With more eligible contracts than the cap, the contracts served by a quiet tick
are served again by the next one. -/
private theorem nextScan_enqueued (settings : Settings) (rows : List Contract) (stamp later : Nat)
    (overfull : settings.feedMaxContractsPerTick ≤ (rows.filter Contract.eligible).length)
    (distinct : ((nextScan settings rows stamp).map Contract.target).Nodup) :
    enqueued settings (quietTick settings (nextScan settings rows stamp) later) =
      ((rows.filter Contract.eligible).take settings.feedMaxContractsPerTick).map Contract.target := by
  rw [enqueued_eq settings _ distinct, quietTick_idle]
  have allEligible : (quietTick settings rows stamp).saved.filter Contract.eligible =
      (quietTick settings rows stamp).saved := by
    apply List.filter_eq_self.mpr
    intro saved member
    obtain ⟨contract, _, rfl⟩ := List.mem_map.mp member
    simp [refresh, Contract.eligible]
  have full : (quietTick settings rows stamp).saved.length = settings.feedMaxContractsPerTick := by
    simpa [quietTick] using overfull
  simp only [quietTick, nextScan, List.filter_append] at *
  rw [allEligible, List.take_append_of_le_length (Nat.le_of_eq full.symm),
    List.take_of_length_le (Nat.le_of_eq full)]
  simp [Function.comp_def, refresh]

/-- Two quiet ticks over a watchlist with more eligible contracts than the cap serve
the same contracts twice and never the next one in line. -/
private theorem unfair_of_overfull {settings : Settings} {watchlist : Watchlist}
    (positive : 1 ≤ settings.feedMaxContractsPerTick)
    (overfull : settings.feedMaxContractsPerTick < watchlist.eligible.length) :
    ∃ ticks, FeedRun settings watchlist ticks ∧ ¬ Fair settings ticks := by
  obtain ⟨rows, complete, newestFirst⟩ := Faults.exists_ordered
    (fun (first second : Contract) => second.updatedAt ≤ first.updatedAt)
    (fun _ _ _ newer newest => Nat.le_trans newest newer) (fun _ _ => Nat.le_total _ _)
    watchlist.rows
  obtain ⟨stamp, bound⟩ := updatedAt_bounded rows
  obtain ⟨laterStamp, laterBound⟩ := updatedAt_bounded (nextScan settings rows stamp)
  have nextPerm := nextScan_perm settings watchlist rows stamp complete bound
  have distinct : (rows.map Contract.target).Nodup :=
    (complete.map Contract.target).nodup_iff.mpr watchlist.distinct
  have nextDistinct : ((nextScan settings rows stamp).map Contract.target).Nodup :=
    (nextPerm.map Contract.target).nodup_iff.mpr (watchlist.after _).distinct
  have many : settings.feedMaxContractsPerTick < (rows.filter Contract.eligible).length := by
    rw [(complete.filter Contract.eligible).length_eq]
    exact overfull
  -- The contract just past the cap is the one that waits.
  let starved := (rows.filter Contract.eligible)[settings.feedMaxContractsPerTick]
  have starvedMember : starved ∈ rows.filter Contract.eligible := List.getElem_mem _
  have starvedEligible : starved.eligible = true := (List.mem_filter.mp starvedMember).2
  have starvedOutside : starved.target ∉
      ((rows.filter Contract.eligible).take settings.feedMaxContractsPerTick).map Contract.target := by
    intro listed
    have eligibleDistinct : ((rows.filter Contract.eligible).map Contract.target).Nodup :=
      distinct.sublist (List.filter_sublist.map _)
    have starvedDropped : starved ∈
        (rows.filter Contract.eligible).drop settings.feedMaxContractsPerTick := by
      rw [List.drop_eq_getElem_cons many]
      exact List.mem_cons_self
    have split := List.disjoint_take_drop eligibleDistinct
      (Nat.le_refl settings.feedMaxContractsPerTick)
    rw [← List.map_take, ← List.map_drop] at split
    exact split listed (List.mem_map_of_mem starvedDropped)
  have firstEnqueued : enqueued settings (quietTick settings rows stamp) =
      ((rows.filter Contract.eligible).take settings.feedMaxContractsPerTick).map Contract.target := by
    rw [enqueued_eq settings _ distinct, quietTick_idle]
    rfl
  have secondEnqueued := nextScan_enqueued settings rows stamp laterStamp many.le nextDistinct
  refine ⟨[quietTick settings rows stamp,
    quietTick settings (nextScan settings rows stamp) laterStamp], ⟨?_, ?_, trivial⟩, ?_⟩
  · exact quietTick_valid settings watchlist rows stamp complete newestFirst bound
  · exact quietTick_valid settings _ _ laterStamp nextPerm
      (nextScan_newestFirst settings rows stamp newestFirst bound) laterBound
  · intro fair
    let served := (rows.filter Contract.eligible)[0]
    have servedListed : served.target ∈
        ((rows.filter Contract.eligible).take settings.feedMaxContractsPerTick).map Contract.target := by
      apply List.mem_map_of_mem
      exact List.mem_take_iff_getElem.mpr ⟨0, by omega, rfl⟩
    obtain ⟨tick, member, listed⟩ := fair _ (List.infix_refl _) served.target starved.target
      (by simp [firstEnqueued, secondEnqueued, servedListed, -List.map_take]) (by
        intro tick member
        simp only [List.mem_cons, List.not_mem_nil, or_false] at member
        rcases member with rfl | rfl
        · exact ⟨starved, List.mem_of_mem_filter starvedMember, rfl, by
            rw [quietTick_idle]; exact starvedEligible⟩
        · refine ⟨starved, ?_, rfl, by rw [quietTick_idle]; exact starvedEligible⟩
          refine List.mem_append_right _ (List.mem_filter.mpr ⟨List.mem_of_mem_filter starvedMember, ?_⟩)
          rw [quietTick_saved_targets settings rows stamp distinct, firstEnqueued]
          exact decide_eq_true starvedOutside)
    simp only [List.mem_cons, List.not_mem_nil, or_false] at member
    rcases member with rfl | rfl
    · exact starvedOutside (firstEnqueued ▸ listed)
    · exact starvedOutside (secondEnqueued ▸ listed)

/-- **Feed fairness, exactly.**  Every run of the feed over a watchlist is fair if and
only if at most `FEED_MAX_CONTRACTS_PER_TICK` of its contracts are pending or done.
A finished job makes its row the newest of a newest-first scan, so a longer watchlist
has a run that keeps serving the same contracts. -/
theorem feed_fair_iff (settings : Settings) (watchlist : Watchlist)
    (positive : 1 ≤ settings.feedMaxContractsPerTick) :
    (∀ ticks, FeedRun settings watchlist ticks → Fair settings ticks) ↔
      watchlist.eligible.length ≤ settings.feedMaxContractsPerTick := by
  constructor
  · intro fair
    by_contra overfull
    obtain ⟨ticks, ran, unfair⟩ := unfair_of_overfull positive (Nat.lt_of_not_le overfull)
    exact unfair (fair ticks ran)
  · intro fits ticks ran
    exact fair_of_fits fits ran

private def sampleSettings : Settings := ⟨1/4, 1/2, 86400, 1⟩

private def sampleContract (target : String) (updatedAt : Nat) : Contract :=
  ⟨target, "address", .done, 0, 9/10, 100, updatedAt⟩

private def sampleWatchlist : Watchlist :=
  ⟨[sampleContract "addr_a" 10, sampleContract "addr_b" 11], by decide⟩

/-- Two fitted contracts under a cap of one do not fit, so some run is unfair. -/
theorem feed_fair_iff_two_contracts : 1 ≤ sampleSettings.feedMaxContractsPerTick ∧
    ¬ ∀ ticks, FeedRun sampleSettings sampleWatchlist ticks → Fair sampleSettings ticks :=
  ⟨by decide, fun fair =>
    absurd ((feed_fair_iff sampleSettings sampleWatchlist (by decide)).mp fair) (by decide)⟩

/-- The newest of two contracts is classified, saves its row, and is classified again
while the other one has not been enqueued once. -/
theorem feed_starves_older_contract :
    ¬ ∀ (settings : Settings) (watchlist : Watchlist) (ticks : List Tick),
      1 ≤ settings.feedMaxContractsPerTick → FeedRun settings watchlist ticks →
        Fair settings ticks := by
  intro fair
  let first : Tick := ⟨1000, [sampleContract "addr_b" 11, sampleContract "addr_a" 10], [], [],
    [sampleContract "addr_b" 12]⟩
  let second : Tick := ⟨1030, [sampleContract "addr_b" 12, sampleContract "addr_a" 10], [], [],
    [sampleContract "addr_b" 13]⟩
  have ran : FeedRun sampleSettings sampleWatchlist [first, second] :=
    ⟨⟨by decide +kernel, by decide +kernel, by decide +kernel, by decide +kernel, by decide +kernel⟩,
      ⟨by decide +kernel, by decide +kernel, by decide +kernel, by decide +kernel, by decide +kernel⟩,
      trivial⟩
  obtain ⟨tick, member, listed⟩ := fair sampleSettings sampleWatchlist [first, second]
    (by decide +kernel) ran
    [first, second] (List.infix_refl _) "addr_b" "addr_a" (by decide +kernel) (by
      intro tick member
      simp only [List.mem_cons, List.not_mem_nil, or_false] at member
      rcases member with rfl | rfl <;>
        exact ⟨sampleContract "addr_a" 10, by decide +kernel, by decide +kernel, by decide +kernel⟩)
  simp only [List.mem_cons, List.not_mem_nil, or_false] at member
  rcases member with rfl | rfl
  · exact absurd listed (by decide +kernel)
  · exact absurd listed (by decide +kernel)

end TransactionMonitoring.Feed
