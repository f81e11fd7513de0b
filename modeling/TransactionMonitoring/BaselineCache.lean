import TransactionMonitoring.Baselines
import TransactionMonitoring.Faults
import TransactionMonitoring.Runs

/-! The baseline cache in front of the `baselines` table.

`get_baseline` takes three steps on shared state: it looks its key up in the cache, selects the
row on a miss, and stores what it selected.  `insert_baselines` takes two: the insert, and the
clear of the whole cache.  Every call runs on its own thread, so the steps of any number of
calls interleave.  A call records what had been promised to it when it started: the rows of
every insert that had returned by then.
-/
namespace TransactionMonitoring.BaselineCache
open Baselines Faults Replacing

/-- A row of `baselines` with the window it was computed over. -/
structure Row extends BaselineRow where
  windowDays : Nat
deriving DecidableEq

/-- The row the `SELECT … FINAL` of `get_baseline` returns. -/
def select (table : List Row) (key : Key) : Option Row :=
  final (fun row => row.key) (fun row => row.computedAt) table key

/-- `BASELINE_CACHE_TTL_SECONDS` and `BASELINE_CACHE_MAX_ENTRIES`. -/
structure CacheSettings where
  ttlSeconds : Int
  maxEntries : Nat
deriving DecidableEq, Repr

/-- A cached answer; a missing row is cached too. -/
structure Entry where
  key : Key
  value : Option Row
  fetchedAt : ℚ
deriving DecidableEq

/-- `_baseline_cache`: at most one entry a key. -/
abbrev Cache := List Entry

def Cache.lookup (cache : Cache) (key : Key) : Option Entry := cache.find? (·.key = key)

def Cache.drop (cache : Cache) (key : Key) : Cache := cache.filter (·.key ≠ key)

def Cache.store (settings : CacheSettings) (cache : Cache) (entry : Entry) : Cache :=
  if settings.maxEntries ≤ cache.length then [entry] else entry :: Cache.drop cache entry.key

inductive Reading where
  | called
  | missed
  | selected (value : Option Row)
  | returned (value : Option Row)
  /-- The `SELECT` raised. -/
  | failed
deriving DecidableEq

/-- A call of `get_baseline`. -/
structure Reader where
  key : Key
  /-- The rows of the inserts that had returned when the call started. -/
  promised : List Row
  reading : Reading
deriving DecidableEq

/-- A call of `insert_baselines`. -/
inductive Writer where
  | called (rows : List Row)
  | inserted (rows : List Row)
  | returned
  /-- The `INSERT` raised. -/
  | failed
deriving DecidableEq

structure State where
  table : List Row
  cache : Cache
  readers : List Reader
  writers : List Writer
  /-- The rows of every insert that has returned. -/
  returned : List Row
deriving DecidableEq

/-- Nothing is cached and no call has started. -/
def start (table : List Row) : State := ⟨table, [], [], [], []⟩

inductive Event where
  | callGet (key : Key)
  /-- The lookup under the lock, at a reading of the monotonic clock. -/
  | lookup (reader : Nat) (now : ℚ)
  | select (reader : Nat) (answered : Bool)
  /-- The store under the lock, after which the call returns. -/
  | store (reader : Nat) (now : ℚ)
  | callInsert (rows : List Row)
  | insert (writer : Nat) (outcome : Outcome)
  /-- The clear under the lock, after which the call returns. -/
  | clear (writer : Nat)
deriving DecidableEq

/-- The first critical section of `get_baseline`: how the call goes on, and the cache. -/
def lookupStep (settings : CacheSettings) (cache : Cache) (key : Key) (now : ℚ) : Reading × Cache :=
  if 0 < settings.ttlSeconds then
    match Cache.lookup cache key with
    | some entry =>
        if now - entry.fetchedAt < settings.ttlSeconds then (.returned entry.value, cache)
        else (.missed, Cache.drop cache key)
    | none => (.missed, cache)
  else (.missed, cache)

/-- The second critical section of `get_baseline`. -/
def storeStep (settings : CacheSettings) (cache : Cache) (key : Key) (value : Option Row) (now : ℚ) : Cache :=
  if 0 < settings.ttlSeconds then Cache.store settings cache ⟨key, value, now⟩ else cache

def State.setReading (state : State) (index : Nat) (reader : Reader) (reading : Reading) : State :=
  { state with readers := state.readers.set index { reader with reading } }

def State.setWriter (state : State) (index : Nat) (writer : Writer) : State :=
  { state with writers := state.writers.set index writer }

def step (settings : CacheSettings) (state : State) : Event → Option State
  | .callGet key => some { state with readers := state.readers ++ [⟨key, state.returned, .called⟩] }
  | .lookup index now =>
      match state.readers[index]? with
      | some ⟨key, promised, .called⟩ =>
          let (reading, cache) := lookupStep settings state.cache key now
          some { state.setReading index ⟨key, promised, .called⟩ reading with cache }
      | _ => none
  | .select index answered =>
      match state.readers[index]? with
      | some ⟨key, promised, .missed⟩ =>
          some (state.setReading index ⟨key, promised, .missed⟩
            (if answered then .selected (select state.table key) else .failed))
      | _ => none
  | .store index now =>
      match state.readers[index]? with
      | some ⟨key, promised, .selected value⟩ =>
          some { state.setReading index ⟨key, promised, .selected value⟩ (.returned value) with
            cache := storeStep settings state.cache key value now }
      | _ => none
  | .callInsert rows =>
      -- A call with no rows returns before it touches anything.
      some { state with writers := state.writers ++ [if rows = [] then .returned else .called rows] }
  | .insert index outcome =>
      match state.writers[index]? with
      | some (.called rows) =>
          some { state.setWriter index (if outcome.returns then .inserted rows else .failed) with
            table := if outcome.applies then state.table ++ rows else state.table }
      | _ => none
  | .clear index =>
      match state.writers[index]? with
      | some (.inserted rows) =>
          some { state.setWriter index .returned with
            cache := []
            returned := state.returned ++ rows }
      | _ => none

/-! ## Freshness -/

/-- The answer is a row, and not an older one. -/
def NoOlder (value : Option Row) (row : Row) : Prop :=
  match value with
  | some found => row.computedAt ≤ found.computedAt
  | none => False

instance (value : Option Row) (row : Row) : Decidable (NoOlder value row) :=
  match value with
  | some found => inferInstanceAs (Decidable (row.computedAt ≤ found.computedAt))
  | none => isFalse id

/-- The answer for a key is no older than any of these rows of that key. -/
def Fresh (key : Key) (value : Option Row) (rows : List Row) : Prop :=
  ∀ row ∈ rows, row.key = key → NoOlder value row

instance (key : Key) (value : Option Row) (rows : List Row) : Decidable (Fresh key value rows) :=
  inferInstanceAs (Decidable (∀ row ∈ rows, row.key = key → NoOlder value row))

theorem Fresh.mono {key : Key} {value : Option Row} {rows fewer : List Row} (fresh : Fresh key value rows)
    (included : fewer ⊆ rows) : Fresh key value fewer :=
  fun row member keyed => fresh row (included member) keyed

/-- A select is fresh for everything the table holds. -/
theorem fresh_select (table : List Row) (key : Key) : Fresh key (select table key) table := by
  intro row member keyed
  obtain ⟨won, found, above⟩ :=
    le_final (fun row : Row => row.key) (fun row : Row => row.computedAt) member
  rw [keyed] at found
  rw [select, found]
  exact above

/-- The value a call has in hand. -/
def Reading.value? : Reading → Option (Option Row)
  | .selected value | .returned value => some value
  | .called | .missed | .failed => none

/-- What every step keeps about a call of `get_baseline`. -/
structure ReaderKept (returned : List Row) (reader : Reader) : Prop where
  promised : reader.promised ⊆ returned
  fresh : ∀ value, reader.reading.value? = some value → Fresh reader.key value reader.promised

def WriterKept (table : List Row) : Writer → Prop
  | .inserted rows => rows ⊆ table
  | .called _ | .returned | .failed => True

structure Kept (state : State) : Prop where
  stored : state.returned ⊆ state.table
  cached : ∀ entry ∈ state.cache, Fresh entry.key entry.value state.returned
  readers : ∀ reader ∈ state.readers, ReaderKept state.returned reader
  writers : ∀ writer ∈ state.writers, WriterKept state.table writer

theorem kept_start (table : List Row) : Kept (start table) where
  stored := by simp [start]
  cached := by simp [start]
  readers := by simp [start]
  writers := by simp [start]

/-- The row a reader is about to store is not older than one an insert has put there since. -/
def MayStore (settings : CacheSettings) (returned : List Row) (reader : Reader) : Prop :=
  match reader.reading with
  | .selected value => 0 < settings.ttlSeconds → Fresh reader.key value returned
  | .called | .missed | .returned _ | .failed => True

instance (settings : CacheSettings) (returned : List Row) (reader : Reader) :
    Decidable (MayStore settings returned reader) :=
  match shape : reader.reading with
  | .selected value => decidable_of_iff (0 < settings.ttlSeconds → Fresh reader.key value returned)
      (by simp [MayStore, shape])
  | .called | .missed | .returned _ | .failed => isTrue (by simp [MayStore, shape])

/-- A reader stores a selected row only while no insert that has returned has a newer one. -/
def StoresFresh (settings : CacheSettings) (state : State) : Event → Prop
  | .store index _ => ∀ reader ∈ state.readers[index]?, MayStore settings state.returned reader
  | _ => True

instance (settings : CacheSettings) (state : State) (event : Event) :
    Decidable (StoresFresh settings state event) :=
  match event with
  | .store index _ =>
      inferInstanceAs (Decidable (∀ reader ∈ state.readers[index]?, MayStore settings state.returned reader))
  | .callGet _ | .lookup _ _ | .select _ _ | .callInsert _ | .insert _ _ | .clear _ => isTrue trivial

section Steps

variable {settings : CacheSettings} {state : State}

theorem lookup_fresh {cache : Cache} {key : Key} {returned : List Row}
    (cached : ∀ entry ∈ cache, Fresh entry.key entry.value returned) (now : ℚ) {reading : Reading} {value : Option Row}
    (looked : (lookupStep settings cache key now).1 = reading) (inHand : reading.value? = some value) :
    Fresh key value returned := by
  subst looked
  simp only [lookupStep] at inHand
  split at inHand
  · split at inHand
    · rename_i entry found
      split at inHand
      · obtain rfl : entry.value = value := by simpa [Reading.value?] using inHand
        have keyed : entry.key = key := by simpa using List.find?_some found
        have fresh := cached entry (List.mem_of_find?_eq_some found)
        rwa [keyed] at fresh
      · cases inHand
    · cases inHand
  · cases inHand

theorem lookup_cache_subset (cache : Cache) (key : Key) (now : ℚ) :
    (lookupStep settings cache key now).2 ⊆ cache := by
  unfold lookupStep
  split
  · split
    · split
      · exact List.Subset.refl cache
      · exact List.filter_subset_self cache
    · exact List.Subset.refl cache
  · exact List.Subset.refl cache

theorem mem_store {cache : Cache} {stored entry : Entry}
    (member : entry ∈ Cache.store settings cache stored) : entry = stored ∨ entry ∈ cache := by
  unfold Cache.store at member
  split at member
  · exact Or.inl (by simpa using member)
  · rcases List.mem_cons.mp member with same | kept
    · exact Or.inl same
    · exact Or.inr (List.mem_of_mem_filter kept)

theorem kept_callGet (kept : Kept state) (key : Key) :
    Kept { state with readers := state.readers ++ [⟨key, state.returned, .called⟩] } where
  stored := kept.stored
  cached := kept.cached
  readers := Runs.forall_mem_concat kept.readers ⟨List.Subset.refl _, by simp [Reading.value?]⟩
  writers := kept.writers

/-- A call moves on with a value that is fresh for what it had been promised. -/
theorem readers_setReading (kept : Kept state) {reader : Reader} (member : reader ∈ state.readers) {reading : Reading}
    (fresh : ∀ value, reading.value? = some value → Fresh reader.key value reader.promised) (index : Nat) :
    ∀ moved ∈ (state.setReading index reader reading).readers, ReaderKept state.returned moved := by
  unfold State.setReading
  refine Runs.forall_mem_set kept.readers ?_ index
  exact ⟨(kept.readers reader member).promised, fresh⟩

theorem kept_lookup (kept : Kept state) {index : Nat} {reader : Reader} (member : reader ∈ state.readers) (now : ℚ) :
    Kept { state.setReading index reader (lookupStep settings state.cache reader.key now).1 with
      cache := (lookupStep settings state.cache reader.key now).2 } where
  stored := kept.stored
  cached := fun entry found => kept.cached entry (lookup_cache_subset state.cache reader.key now found)
  readers := by
    refine readers_setReading kept member (fun value inHand => ?_) index
    exact (lookup_fresh kept.cached now rfl inHand).mono (kept.readers reader member).promised
  writers := kept.writers

theorem kept_select (kept : Kept state) {index : Nat} {reader : Reader} (member : reader ∈ state.readers)
    (answered : Bool) :
    Kept (state.setReading index reader (if answered then .selected (select state.table reader.key) else .failed)) where
  stored := kept.stored
  cached := kept.cached
  readers := by
    refine readers_setReading kept member (fun value inHand => ?_) index
    cases answered with
    | false => cases inHand
    | true =>
      obtain rfl : select state.table reader.key = value := by simpa [Reading.value?] using inHand
      have promised := (kept.readers reader member).promised
      exact (fresh_select state.table reader.key).mono (List.Subset.trans promised kept.stored)
  writers := kept.writers

theorem kept_store (kept : Kept state) {index : Nat} {reader : Reader} (member : reader ∈ state.readers)
    {value : Option Row} (selected : reader.reading = .selected value)
    (may : MayStore settings state.returned reader) (now : ℚ) :
    Kept { state.setReading index reader (.returned value) with
      cache := storeStep settings state.cache reader.key value now } where
  stored := kept.stored
  cached := by
    intro entry found
    simp only [storeStep] at found
    split at found
    · rename_i caching
      rcases mem_store found with rfl | earlier
      · simp only [MayStore, selected] at may
        exact may caching
      · exact kept.cached entry earlier
    · exact kept.cached entry found
  readers := by
    refine readers_setReading kept member (fun answer inHand => ?_) index
    obtain rfl : value = answer := by simpa [Reading.value?] using inHand
    exact (kept.readers reader member).fresh value (by simp [selected, Reading.value?])
  writers := kept.writers

theorem kept_callInsert (kept : Kept state) (rows : List Row) :
    Kept { state with writers := state.writers ++ [if rows = [] then .returned else .called rows] } where
  stored := kept.stored
  cached := kept.cached
  readers := kept.readers
  writers := by
    apply Runs.forall_mem_concat kept.writers
    split
    · trivial
    · trivial

theorem WriterKept.mono {table more : List Row} {writer : Writer} (kept : WriterKept table writer)
    (included : table ⊆ more) : WriterKept more writer := by
  cases writer with
  | inserted rows => exact List.Subset.trans kept included
  | called _ | returned | failed => trivial

theorem kept_insert (kept : Kept state) {index : Nat} (rows : List Row) (outcome : Outcome) :
    Kept { state.setWriter index (if outcome.returns then .inserted rows else .failed) with
      table := if outcome.applies then state.table ++ rows else state.table } := by
  have grown : state.table ⊆ if outcome.applies then state.table ++ rows else state.table := by
    split
    · exact List.subset_append_left _ _
    · exact List.Subset.refl _
  refine ⟨List.Subset.trans kept.stored grown, kept.cached, kept.readers, ?_⟩
  unfold State.setWriter
  refine Runs.forall_mem_set (fun writer member => (kept.writers writer member).mono grown) ?_ index
  cases outcome with
  | answered => exact List.subset_append_right _ _
  | lost => trivial
  | late => trivial

/-- Only the clear makes a promise, and it leaves no entry that could break it. -/
theorem kept_clear (kept : Kept state) {index : Nat} {rows : List Row} (member : .inserted rows ∈ state.writers) :
    Kept { state.setWriter index .returned with cache := [], returned := state.returned ++ rows } where
  stored := List.append_subset.mpr ⟨kept.stored, kept.writers _ member⟩
  cached := by simp
  readers := by
    intro reader found
    have known := kept.readers reader found
    exact ⟨List.Subset.trans known.promised (List.subset_append_left _ _), known.fresh⟩
  writers := by
    unfold State.setWriter
    refine Runs.forall_mem_set kept.writers ?_ index
    trivial

theorem kept_step {event : Event} {next : State} (may : StoresFresh settings state event) (kept : Kept state)
    (stepped : step settings state event = some next) : Kept next := by
  cases event with
  | callGet key =>
    obtain rfl := Option.some.inj stepped
    exact kept_callGet kept key
  | lookup index now =>
    simp only [step] at stepped
    split at stepped
    · rename_i key promised found
      obtain rfl := Option.some.inj stepped
      exact kept_lookup kept (List.mem_of_getElem? found) now
    · cases stepped
  | select index answered =>
    simp only [step] at stepped
    split at stepped
    · rename_i key promised found
      obtain rfl := Option.some.inj stepped
      exact kept_select kept (List.mem_of_getElem? found) answered
    · cases stepped
  | store index now =>
    simp only [step] at stepped
    split at stepped
    · rename_i key promised value found
      obtain rfl := Option.some.inj stepped
      exact kept_store kept (List.mem_of_getElem? found) rfl (may _ found) now
    · cases stepped
  | callInsert rows =>
    obtain rfl := Option.some.inj stepped
    exact kept_callInsert kept rows
  | insert index outcome =>
    simp only [step] at stepped
    split at stepped
    · rename_i rows found
      obtain rfl := Option.some.inj stepped
      exact kept_insert kept rows outcome
    · cases stepped
  | clear index =>
    simp only [step] at stepped
    split at stepped
    · rename_i rows found
      obtain rfl := Option.some.inj stepped
      exact kept_clear kept (List.mem_of_getElem? found)
    · cases stepped

end Steps

/-- No call has returned a row older than one it had been promised. -/
def Coherent (state : State) : Prop :=
  ∀ reader ∈ state.readers, match reader.reading with
    | .returned value => Fresh reader.key value reader.promised
    | .called | .missed | .selected _ | .failed => True

instance (state : State) : Decidable (Coherent state) :=
  @List.decidableBAll _ _ (fun reader =>
    match reader.reading with
    | .returned value => inferInstanceAs (Decidable (Fresh reader.key value reader.promised))
    | .called | .missed | .selected _ | .failed => isTrue trivial) state.readers

/-- **The cache is coherent** over every interleaving in which no reader stores a row that an
insert has already superseded and cleared. -/
theorem coherent_of_stores_fresh {settings : CacheSettings} {table : List Row} {events : List Event} {state : State}
    (met : Runs.EveryStep (step settings) (StoresFresh settings) (start table) events)
    (reached : Runs.run (step settings) (start table) events = some state) : Coherent state := by
  have kept : Kept state := Runs.invariant_of_step (step settings) kept_step (kept_start table) met reached
  intro reader member
  have known := kept.readers reader member
  split
  · rename_i value answered
    exact known.fresh value (by simp [answered, Reading.value?])
  all_goals trivial

private def sampleKey : Key := ⟨"mainnet", .global, "__global__", "ada_amount"⟩

private def sampleRow (computedAt : Nat) : Row := ⟨⟨sampleKey, ⟨1, 2⟩, 100, computedAt⟩, 7⟩

private def storedBeforeClear : List Event :=
  [.callGet sampleKey, .lookup 0 0, .select 0 true, .callInsert [sampleRow 2], .insert 0 .answered, .store 0 1,
    .clear 0, .callGet sampleKey, .lookup 1 2, .select 1 true, .store 1 3]

/-- A reader whose select ran before the insert stores before the clear; the next call selects. -/
theorem coherent_when_stored_before_clear :
    ∃ state, Runs.run (step ⟨3600, 50000⟩) (start [sampleRow 1]) storedBeforeClear = some state ∧ Coherent state ∧
      ⟨sampleKey, [sampleRow 2], .returned (some (sampleRow 2))⟩ ∈ state.readers := by
  have met : Runs.EveryStep (step ⟨3600, 50000⟩) (StoresFresh ⟨3600, 50000⟩) (start [sampleRow 1])
      storedBeforeClear := by decide +kernel
  exact ⟨_, rfl, coherent_of_stores_fresh met rfl, by decide +kernel⟩

/-- Stored after the clear, the older row answers the calls that follow. -/
theorem incoherent_when_stored_after_clear :
    ∃ state, Runs.run (step ⟨3600, 50000⟩) (start [sampleRow 1])
        [.callGet sampleKey, .lookup 0 0, .select 0 true, .callInsert [sampleRow 2], .insert 0 .answered, .clear 0,
          .store 0 1, .callGet sampleKey, .lookup 1 2] = some state ∧
      ¬ Coherent state ∧ ⟨sampleKey, [sampleRow 2], .returned (some (sampleRow 1))⟩ ∈ state.readers :=
  ⟨_, rfl, by decide +kernel, by decide +kernel⟩

end TransactionMonitoring.BaselineCache
