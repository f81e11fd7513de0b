import TransactionMonitoring.Paging
import TransactionMonitoring.Runs

/-! The clustering ingester over a page-based address listing.

One run walks the pages of the listing from where the target's cursor points, fetches the
transactions of each page and saves the page as the cursor.  A run stops at a rate limit, at
`max_txs`, at an error or at the end of the listing; only the last of these is `completed`.
The listing grows at its end between runs.

A cursor is a page number together with the block height the listing was filtered from; the
empty cursor is `none`.  The answers of the source to each request of a run are part of its
input.  The hashes a fetch did not find are kept in a field that no code reads.
-/
namespace TransactionMonitoring.Ingest

/-- An entry of the address listing. -/
structure ListedTx where
  txHash : String
  blockHeight : Nat
deriving DecidableEq, Repr

/-- What `_parse_cursor` reads back: the last ingested page and the anchor. -/
structure Cursor where
  page : Nat
  anchor : Option Nat
deriving DecidableEq, Repr

/-- A row of `ingest_cursor`. -/
structure CursorRow where
  cursor : Option Cursor
  txsSeen : Nat
  done : Bool
deriving DecidableEq, Repr

inductive DiscoveryMode where
  | restart
  | resume
  | tip
deriving DecidableEq, Repr

inductive DiscoveryWindow where
  | history
  | recent
deriving DecidableEq, Repr

/-- The answer to a request for a page of the listing; any error but the rate limit raises. -/
inductive PageAnswer where
  | served
  | rateLimited
  | failed
deriving DecidableEq, Repr

/-- The answer to the fetch of one transaction. -/
inductive FetchAnswer where
  | found
  | notFound
  | rateLimited
  | failed
deriving DecidableEq, Repr

inductive Status where
  | completed
  | rateLimited
  | maxReached
  | raised
deriving DecidableEq, Repr

/-- The page-based source; Blockfrost takes page sizes from one up. -/
structure Source where
  pageSize : Nat
  positive : 0 < pageSize

/-- The arguments of one `ingest` call and the answers it gets. -/
structure Request where
  maxTxs : Option Nat
  recent : Bool
  resume : Bool
  fromTip : Bool
  batchSize : Nat
  /-- By page number, for the newest-first walk that finds the anchor. -/
  anchorPages : Nat → PageAnswer
  pages : Nat → PageAnswer
  fetch : String → FetchAnswer

/-- What the repo keeps of one target. -/
structure Repo where
  transactions : List String
  cursorRow : Option CursorRow
deriving DecidableEq, Repr

/-- The state of one walk: `_Batch`, and what `_CursorTracker` changes. -/
structure Walk where
  repo : Repo
  batch : List String
  seen : Nat
  completedCursor : Option Cursor
  missing : List String
deriving DecidableEq, Repr

/-- `_Batch.flush`. -/
def Walk.flush (walk : Walk) : Walk :=
  { walk with
    repo := { walk.repo with transactions := walk.repo.transactions ++ walk.batch }
    batch := [] }

/-- `_CursorTracker.save`. -/
def Walk.save (walk : Walk) (cursor : Option Cursor) (done : Bool) : Walk :=
  { walk with repo := { walk.repo with cursorRow := some ⟨cursor, walk.seen, done⟩ } }

/-- `_CursorTracker.page_done`. -/
def Walk.pageDone (walk : Walk) (cursor : Cursor) : Walk :=
  { walk with completedCursor := some cursor }.save (some cursor) false

/-! ## Planning -/

/-- `_WalkPlan`. -/
structure WalkPlan where
  mode : DiscoveryMode
  storedCursor : Option Cursor
  seen : Nat
deriving DecidableEq, Repr

/-- `_plan_walk`, for a cursor of this source. -/
def planWalk (request : Request) (repo : Repo) : WalkPlan :=
  match (if request.resume then repo.cursorRow else none) with
  | none => ⟨.restart, none, 0⟩
  | some row =>
      ⟨if row.done then (if request.fromTip then .tip else .restart) else .resume, row.cursor, row.txsSeen⟩

/-- `_parse_cursor`; the empty cursor is page zero. -/
def parseCursor : Option Cursor → Nat × Option Nat
  | none => (0, none)
  | some cursor => (cursor.page, cursor.anchor)

/-- `_start_page`. -/
def startPage (page : Nat) : DiscoveryMode → Nat
  | .resume => page + 1
  | .tip => max 1 page
  | .restart => 1

/-- `_resolve_window`, for an address. -/
def resolveWindow (request : Request) : DiscoveryWindow :=
  if request.recent ∧ ∃ cap ∈ request.maxTxs, 0 < cap then .recent else .history

/-- `_discovery_max_items`, for an address. -/
def discoveryMaxItems (maxTxs remaining : Option Nat) (window : DiscoveryWindow) (mode : DiscoveryMode) :
    Option Nat :=
  if window = .recent ∧ mode = .restart then maxTxs else remaining

/-- How a walk ends before its pages do. -/
inductive Stop where
  | rateLimited
  | raised
deriving DecidableEq, Repr

/-- `_recent_anchor`: the height of the `wanted`-th newest transaction, from the pages of the
newest-first listing. -/
def recentAnchor (count wanted : Nat) (answers : Nat → PageAnswer) (page taken : Nat) :
    List (List ListedTx) → Except Stop (Option Nat)
  | [] =>
      match answers page with
      | .served => .ok none
      | .rateLimited => .error .rateLimited
      | .failed => .error .raised
  | items :: rest =>
      match answers page with
      | .served =>
          if wanted ≤ taken + items.length then
            .ok (items[wanted - 1 - taken]?.bind fun item =>
              if item.blockHeight = 0 then none else some item.blockHeight)
          else if items.length < count then .ok none
          else recentAnchor count wanted answers (page + 1) (taken + items.length) rest
      | .rateLimited => .error .rateLimited
      | .failed => .error .raised

/-- The part of the listing a walk with this anchor pages through. -/
def windowOf (listing : List ListedTx) (anchor : Option Nat) : List String :=
  (listing.filter fun item => decide (∀ height ∈ anchor, height ≤ item.blockHeight)).map ListedTx.txHash

/-- The anchor a walk pages from, as `tx_hash_pages` chooses it. -/
def walkAnchor (source : Source) (request : Request) (listing : List ListedTx) (mode : DiscoveryMode)
    (page : Nat) (anchor : Option Nat) (maxItems : Option Nat) : Except Stop (Option Nat) :=
  match maxItems with
  | none => .ok anchor
  | some wanted =>
      if resolveWindow request = .recent ∧ wanted ≠ 0 ∧ mode ≠ .tip ∧
          ((page, anchor) = (0, none) ∨ mode = .restart) then
        recentAnchor source.pageSize wanted request.anchorPages 1 0
          (Paging.pages source.pageSize listing.reverse)
      else .ok anchor

/-! ## Walking -/

section
variable (request : Request)

/-- Whether `max_txs` is used up. -/
def capReached (seen : Nat) : Bool := request.maxTxs.any (· ≤ seen)

/-- The part of a page the cap leaves. -/
def pageHashes (seen : Nat) (hashes : List String) : List String :=
  match request.maxTxs with
  | none => hashes
  | some cap => hashes.take (cap - seen)

/-- How folding a page's results ended. -/
inductive Drained where
  | through
  | maxReached
  | raised
deriving DecidableEq, Repr

/-- `_consume_results`. -/
def consumeResults (walk : Walk) : List String → Walk × Drained
  | [] => (walk, .through)
  | txHash :: rest =>
      match request.fetch txHash with
      | .notFound => consumeResults { walk with missing := walk.missing ++ [txHash] } rest
      | .rateLimited | .failed => (walk, .raised)
      | .found =>
          let added := { walk with batch := walk.batch ++ [txHash], seen := walk.seen + 1 }
          let added := if request.batchSize ≤ added.batch.length then added.flush else added
          if capReached request added.seen then (added, .maxReached) else consumeResults added rest

/-- What a run is started with. -/
structure Setup where
  mode : DiscoveryMode
  storedCursor : Option Cursor
  maxItems : Option Nat
  anchor : Option Nat
deriving DecidableEq, Repr

variable (setup : Setup)

/-- `_CursorTracker.interrupted`: the cursor to save, if any. -/
def interrupted (walk : Walk) : Option (Option Cursor) :=
  match walk.completedCursor with
  | some cursor => some (some cursor)
  | none =>
      match setup.mode with
      | .resume => some setup.storedCursor
      | .restart => some none
      | .tip => none

/-- `_CursorTracker.rate_limited`. -/
def rateLimited (walk : Walk) : Walk × Option Status :=
  match interrupted setup walk with
  | none => (walk, some .rateLimited)
  | some cursor => (walk.save cursor false, some .rateLimited)

/-- `_drain_pages` over the pages from number `page` on; no status when the walk ran to its
end.  The flush of `ingest`'s `finally` is part of a raise. -/
def drainPages (source : Source) (page yielded : Nat) (walk : Walk) : List (List String) → Walk × Option Status
  | [] =>
      match request.pages page with
      | .served => (walk, none)
      | .rateLimited => rateLimited setup walk.flush
      | .failed => (walk.flush, some .raised)
  | hashes :: rest =>
      match request.pages page with
      | .rateLimited => rateLimited setup walk.flush
      | .failed => (walk.flush, some .raised)
      | .served =>
          let asked := pageHashes request walk.seen hashes
          if asked.isEmpty then (walk, none)
          else if asked.any (fun txHash => request.fetch txHash = .rateLimited) then
            rateLimited setup walk.flush
          else
            let drained := consumeResults request walk asked
            match drained.2 with
            | .raised => (drained.1.flush, some .raised)
            | .maxReached => (drained.1.flush.save (some ⟨page, setup.anchor⟩) false, some .maxReached)
            | .through =>
                let finished := drained.1.flush.pageDone ⟨page, setup.anchor⟩
                if setup.maxItems.any (· ≤ yielded + hashes.length) ∨ hashes.length < source.pageSize then
                  (finished, none)
                else drainPages source (page + 1) (yielded + hashes.length) finished rest

end

/-- `_CursorTracker.completed`. -/
def completed (request : Request) (setup : Setup) (walk : Walk) : Walk :=
  let counted := { walk with
    seen := if request.fromTip then walk.repo.transactions.dedup.length else walk.seen }
  counted.save (if walk.completedCursor.isSome then walk.completedCursor else setup.storedCursor) true

/-- What one run leaves. -/
structure Ran where
  repo : Repo
  missing : List String
  status : Status
deriving DecidableEq, Repr

/-- The pages of the window from the walk's first page on. -/
def walkPages (source : Source) (listing : List ListedTx) (anchor : Option Nat) (first : Nat) :
    List (List String) :=
  Paging.pages source.pageSize ((windowOf listing anchor).drop ((first - 1) * source.pageSize))

/-- `ingest`. -/
def ingest (source : Source) (request : Request) (listing : List ListedTx) (repo : Repo)
    (missing : List String) : Ran :=
  let plan := planWalk request repo
  let remaining := request.maxTxs.map (· - plan.seen)
  if remaining = some 0 then ⟨repo, missing, .maxReached⟩
  else
    let maxItems := discoveryMaxItems request.maxTxs remaining (resolveWindow request) plan.mode
    let parsed := parseCursor plan.storedCursor
    let first := startPage parsed.1 plan.mode
    let walk : Walk := ⟨repo, [], plan.seen, none, missing⟩
    match walkAnchor source request listing plan.mode parsed.1 parsed.2 maxItems with
    | .error .raised => ⟨repo, missing, .raised⟩
    | .error .rateLimited =>
        let stopped := rateLimited ⟨plan.mode, plan.storedCursor, maxItems, none⟩ walk
        ⟨stopped.1.repo, missing, .rateLimited⟩
    | .ok anchor =>
        let setup : Setup := ⟨plan.mode, plan.storedCursor, maxItems, anchor⟩
        let drained := drainPages request setup source first 0 walk (walkPages source listing anchor first)
        match drained.2 with
        | some status => ⟨drained.1.repo, drained.1.missing, status⟩
        | none =>
            let finished := completed request setup drained.1.flush
            ⟨finished.repo, finished.missing, .completed⟩

/-! ## Runs -/

structure State where
  listing : List ListedTx
  repo : Repo
  /-- Hashes some fetch has not found. -/
  missing : List String
deriving DecidableEq, Repr

def State.initial : State := ⟨[], ⟨[], none⟩, []⟩

inductive Event where
  /-- The listing grows at its end. -/
  | append (txs : List ListedTx)
  | ingest (request : Request)

def step (source : Source) (state : State) : Event → Option State
  | .append txs => some { state with listing := state.listing ++ txs }
  | .ingest request =>
      let ran := ingest source request state.listing state.repo state.missing
      some ⟨state.listing, ran.repo, ran.missing⟩

/-! ## What the cap must leave alone -/

/-- Over the pages of a walk, as far as it gets: what the cap cuts off a page is already
known, a page that uses the cap up is a full one, and so is known what discovery leaves out
when it stops for the cap although some of what it listed was not found. -/
def CapSpares (source : Source) (request : Request) (maxItems : Option Nat) (known : List String)
    (page yielded seen : Nat) : List (List String) → Prop
  | [] => True
  | hashes :: rest =>
      request.pages page = .served →
      (∀ txHash ∈ pageHashes request seen hashes,
        request.fetch txHash = .found ∨ request.fetch txHash = .notFound) →
      (∀ txHash ∈ hashes.drop (pageHashes request seen hashes).length, txHash ∈ known) ∧
      (if capReached request
          (seen + (pageHashes request seen hashes).countP fun txHash => request.fetch txHash = .found) then
        hashes.length = source.pageSize
      else if maxItems.any (· ≤ yielded + hashes.length) then ∀ txHash ∈ rest.flatten, txHash ∈ known
      else CapSpares source request maxItems known (page + 1) (yielded + hashes.length)
        (seen + (pageHashes request seen hashes).countP fun txHash => request.fetch txHash = .found) rest)

instance decidableCapSpares (source : Source) (request : Request) (maxItems : Option Nat)
    (known : List String) : (page yielded seen : Nat) → (pages : List (List String)) →
    Decidable (CapSpares source request maxItems known page yielded seen pages)
  | _, _, _, [] => isTrue trivial
  | page, yielded, seen, hashes :: rest =>
      have := decidableCapSpares source request maxItems known (page + 1) (yielded + hashes.length)
        (seen + (pageHashes request seen hashes).countP fun txHash => request.fetch txHash = .found) rest
      inferInstanceAs (Decidable (_ → _ → _ ∧ ite _ _ (ite _ _ _)))

/-- The walk a run makes from the anchor it found, if it gets that far. -/
def CapSparesWalk (source : Source) (request : Request) (state : State) :
    Except Stop (Option Nat) → Prop
  | .error _ => True
  | .ok anchor =>
      let plan := planWalk request state.repo
      let remaining := request.maxTxs.map (· - plan.seen)
      let first := startPage (parseCursor plan.storedCursor).1 plan.mode
      remaining ≠ some 0 → CapSpares source request
        (discoveryMaxItems request.maxTxs remaining (resolveWindow request) plan.mode)
        (state.repo.transactions ++ state.missing) first 0 plan.seen
        (walkPages source state.listing anchor first)

instance (source : Source) (request : Request) (state : State) :
    (found : Except Stop (Option Nat)) → Decidable (CapSparesWalk source request state found)
  | .error _ => isTrue trivial
  | .ok _ => inferInstanceAs (Decidable (_ → CapSpares ..))

/-- The run's cap, if it has one, loses nothing. -/
def CapSparesRun (source : Source) (state : State) : Event → Prop
  | .append _ => True
  | .ingest request =>
      let plan := planWalk request state.repo
      let parsed := parseCursor plan.storedCursor
      CapSparesWalk source request state
        (walkAnchor source request state.listing plan.mode parsed.1 parsed.2
          (discoveryMaxItems request.maxTxs (request.maxTxs.map (· - plan.seen)) (resolveWindow request)
            plan.mode))

instance (source : Source) (state : State) : (event : Event) → Decidable (CapSparesRun source state event)
  | .append _ => isTrue trivial
  | .ingest _ => inferInstanceAs (Decidable (CapSparesWalk ..))

/-! ## One page -/

/-- The hash is in the store or the batch, or some fetch has not found it. -/
def Walk.Knows (walk : Walk) (txHash : String) : Prop :=
  txHash ∈ walk.repo.transactions ∨ txHash ∈ walk.batch ∨ txHash ∈ walk.missing

theorem Walk.flush_knows {walk : Walk} {txHash : String} : walk.flush.Knows txHash ↔ walk.Knows txHash := by
  simp only [Walk.Knows, Walk.flush, List.mem_append, List.not_mem_nil, false_or]
  tauto

/-- After the results of `done` have been folded in. -/
structure Consumed (request : Request) (done : List String) (before after : Walk) : Prop where
  cursorRow : after.repo.cursorRow = before.repo.cursorRow
  completedCursor : after.completedCursor = before.completedCursor
  knows : ∀ txHash, before.Knows txHash → after.Knows txHash
  all : ∀ txHash ∈ done, after.Knows txHash
  answered : ∀ txHash ∈ done, request.fetch txHash = .found ∨ request.fetch txHash = .notFound
  seen : after.seen = before.seen + done.countP fun txHash => request.fetch txHash = .found

section
variable {request : Request}

private theorem Consumed.refl (walk : Walk) : Consumed request [] walk walk :=
  ⟨rfl, rfl, fun _ known => known, by simp, by simp, rfl⟩

private theorem Consumed.cons {txHash : String} {done : List String} {before middle after : Walk}
    (first : Consumed request [txHash] before middle) (later : Consumed request done middle after) :
    Consumed request (txHash :: done) before after where
  cursorRow := later.cursorRow.trans first.cursorRow
  completedCursor := later.completedCursor.trans first.completedCursor
  knows := fun other known => later.knows other (first.knows other known)
  all := by
    intro other member
    rcases List.mem_cons.mp member with rfl | inDone
    · exact later.knows _ (first.all _ List.mem_cons_self)
    · exact later.all other inDone
  answered := by
    intro other member
    rcases List.mem_cons.mp member with rfl | inDone
    · exact first.answered _ List.mem_cons_self
    · exact later.answered other inDone
  seen := by
    rw [later.seen, first.seen, List.countP_cons, List.countP_cons, List.countP_nil]
    omega

private theorem consumed_missing {txHash : String} (walk : Walk) (lost : request.fetch txHash = .notFound) :
    Consumed request [txHash] walk { walk with missing := walk.missing ++ [txHash] } where
  cursorRow := rfl
  completedCursor := rfl
  knows := by
    rintro other (stored | batched | missing)
    · exact Or.inl stored
    · exact Or.inr (Or.inl batched)
    · exact Or.inr (Or.inr (List.mem_append_left _ missing))
  all := by
    intro other member
    obtain rfl := List.mem_singleton.mp member
    exact Or.inr (Or.inr (List.mem_append_right _ List.mem_cons_self))
  answered := by
    intro other member
    obtain rfl := List.mem_singleton.mp member
    exact Or.inr lost
  seen := by simp [lost]

/-- The batch takes the transaction, and is flushed if that fills it. -/
private theorem consumed_found {txHash : String} (walk : Walk) (found : request.fetch txHash = .found)
    {added : Walk} (shape : added = { walk with batch := walk.batch ++ [txHash], seen := walk.seen + 1 }) :
    Consumed request [txHash] walk
      (if request.batchSize ≤ added.batch.length then added.flush else added) := by
  have grown : Consumed request [txHash] walk added := by
    subst shape
    refine ⟨rfl, rfl, ?_, ?_, ?_, by simp [found]⟩
    · rintro other (stored | batched | missing)
      · exact Or.inl stored
      · exact Or.inr (Or.inl (List.mem_append_left _ batched))
      · exact Or.inr (Or.inr missing)
    · intro other member
      obtain rfl := List.mem_singleton.mp member
      exact Or.inr (Or.inl (List.mem_append_right _ List.mem_cons_self))
    · intro other member
      obtain rfl := List.mem_singleton.mp member
      exact Or.inl found
  split
  · exact ⟨grown.cursorRow, grown.completedCursor, fun other known => Walk.flush_knows.mpr (grown.knows other known),
      fun other member => Walk.flush_knows.mpr (grown.all other member), grown.answered, grown.seen⟩
  · exact grown

/-- How far the fold got: through, up to the cap, or to an error. -/
private theorem consumeResults_spec (walk : Walk) (asked : List String) :
    ∃ done rest, asked = done ++ rest ∧ Consumed request done walk (consumeResults request walk asked).1 ∧
      ((consumeResults request walk asked).2 = .through → rest = [] ∧
        (capReached request walk.seen = false →
          capReached request (consumeResults request walk asked).1.seen = false)) ∧
      ((consumeResults request walk asked).2 = .maxReached →
        capReached request (consumeResults request walk asked).1.seen = true) := by
  induction asked generalizing walk with
  | nil => exact ⟨[], [], rfl, Consumed.refl walk, fun _ => ⟨rfl, fun below => below⟩, by simp [consumeResults]⟩
  | cons txHash rest ih =>
    simp only [consumeResults]
    split
    · rename_i lost
      have first := consumed_missing walk lost
      obtain ⟨done, left, shape, later, through, capped⟩ := ih { walk with missing := walk.missing ++ [txHash] }
      exact ⟨txHash :: done, left, congrArg (txHash :: ·) shape, first.cons later, through, capped⟩
    · exact ⟨[], txHash :: rest, rfl, Consumed.refl walk, by simp, by simp⟩
    · exact ⟨[], txHash :: rest, rfl, Consumed.refl walk, by simp, by simp⟩
    · rename_i found
      have first := consumed_found walk found rfl
      generalize (if request.batchSize ≤ (walk.batch ++ [txHash]).length then
        Walk.flush { walk with batch := walk.batch ++ [txHash], seen := walk.seen + 1 }
        else { walk with batch := walk.batch ++ [txHash], seen := walk.seen + 1 }) = added at first ⊢
      split
      · rename_i reached
        exact ⟨[txHash], rest, rfl, first, by simp, fun _ => reached⟩
      · rename_i below
        obtain ⟨done, left, shape, later, through, capped⟩ := ih added
        exact ⟨txHash :: done, left, congrArg (txHash :: ·) shape, first.cons later,
          fun ended => ⟨(through ended).1, fun _ => (through ended).2 (by simpa using below)⟩, capped⟩

/-- A page whose fold did not raise has been folded in whole: the cap can only be used up by
its last transaction. -/
private theorem consumeResults_whole {walk : Walk} {hashes : List String}
    (kept : (consumeResults request walk (pageHashes request walk.seen hashes)).2 ≠ .raised)
    (below : capReached request walk.seen = false) :
    Consumed request (pageHashes request walk.seen hashes) walk
        (consumeResults request walk (pageHashes request walk.seen hashes)).1 ∧
      ((consumeResults request walk (pageHashes request walk.seen hashes)).2 = .maxReached ↔
        capReached request
          (consumeResults request walk (pageHashes request walk.seen hashes)).1.seen = true) := by
  obtain ⟨done, rest, shape, consumed, through, capped⟩ :=
    @consumeResults_spec request walk (pageHashes request walk.seen hashes)
  cases ended : (consumeResults request walk (pageHashes request walk.seen hashes)).2 with
  | raised => exact absurd ended kept
  | through =>
    obtain ⟨rfl, still⟩ := through ended
    rw [List.append_nil] at shape
    rw [← shape] at consumed
    exact ⟨consumed, by simp [still below]⟩
  | maxReached =>
    have reached := capped ended
    have whole : rest = [] := by
      unfold capReached at reached below
      unfold pageHashes at shape
      cases cap : request.maxTxs with
      | none => simp [cap] at reached
      | some limit =>
        simp only [cap, Option.any_some, decide_eq_true_eq, decide_eq_false_iff_not] at reached below shape
        rw [consumed.seen] at reached
        have count := List.countP_le_length (p := fun txHash => decide (request.fetch txHash = .found)) (l := done)
        have length := congrArg List.length shape
        rw [List.length_take, List.length_append] at length
        exact List.eq_nil_of_length_eq_zero (by omega)
    subst whole
    rw [List.append_nil] at shape
    rw [← shape] at consumed
    exact ⟨consumed, by simp [reached]⟩

end

/-! ## One walk -/

/-- The first `full` pages of the window are full ones, and known. -/
structure Ingested (source : Source) (window : List String) (full : Nat) (knows : String → Prop) : Prop where
  within : full * source.pageSize ≤ window.length
  known : ∀ txHash ∈ window.take (full * source.pageSize), knows txHash

/-- A walk may go on from where the row points: the pages before that place are ingested.
The last page of a completed walk may have grown since. -/
def RowSound (source : Source) (listing : List ListedTx) (row : Option CursorRow)
    (knows : String → Prop) : Prop :=
  ∀ saved ∈ row, ∀ cursor ∈ saved.cursor,
    Ingested source (windowOf listing cursor.anchor) (if saved.done then cursor.page - 1 else cursor.page) knows

section
variable {source : Source} {request : Request} {setup : Setup} {listing : List ListedTx}
  {window : List String} {full : Nat} {knows knows' : String → Prop}

theorem Ingested.mono (ingested : Ingested source window full knows)
    (grows : ∀ txHash, knows txHash → knows' txHash) : Ingested source window full knows' :=
  ⟨ingested.within, fun txHash member => grows txHash (ingested.known txHash member)⟩

theorem Ingested.zero : Ingested source window 0 knows := ⟨by simp, by simp⟩

theorem Ingested.pred (ingested : Ingested source window full knows) :
    Ingested source window (full - 1) knows := by
  have fewer : (full - 1) * source.pageSize ≤ full * source.pageSize :=
    Nat.mul_le_mul_right _ (Nat.sub_le _ _)
  exact ⟨Nat.le_trans fewer ingested.within, fun txHash member =>
    ingested.known txHash ((List.take_sublist_take_left fewer).subset member)⟩

/-- One more page, if it is a full one. -/
theorem Ingested.succ (ingested : Ingested source window full knows) {hashes : List String}
    (next : hashes = (window.drop (full * source.pageSize)).take source.pageSize)
    (whole : hashes.length = source.pageSize) (known : ∀ txHash ∈ hashes, knows txHash) :
    Ingested source window (full + 1) knows := by
  have split : (full + 1) * source.pageSize = full * source.pageSize + source.pageSize := Nat.succ_mul _ _
  constructor
  · have length := congrArg List.length next
    rw [whole, List.length_take, List.length_drop] at length
    have before := ingested.within
    have positive := source.positive
    omega
  · intro txHash member
    rw [split, List.take_add, List.mem_append] at member
    rcases member with earlier | here
    · exact ingested.known txHash earlier
    · exact known txHash (next ▸ here)

theorem RowSound.mono {row : Option CursorRow} (sound : RowSound source listing row knows)
    (grows : ∀ txHash, knows txHash → knows' txHash) : RowSound source listing row knows' :=
  fun saved inRow cursor inSaved => (sound saved inRow cursor inSaved).mono grows

/-- At the start of page `full + 1`. -/
structure Underway (source : Source) (request : Request) (setup : Setup) (listing : List ListedTx)
    (full : Nat) (walk : Walk) : Prop where
  batch : walk.batch = []
  below : capReached request walk.seen = false
  ingested : Ingested source (windowOf listing setup.anchor) full walk.Knows
  completed : ∀ cursor ∈ walk.completedCursor, cursor = ⟨full, setup.anchor⟩
  row : RowSound source listing walk.repo.cursorRow walk.Knows
  stored : setup.mode = .resume → ∀ cursor ∈ setup.storedCursor,
    Ingested source (windowOf listing cursor.anchor) cursor.page walk.Knows

/-- What a walk from page `full + 1` on leaves behind.  One that ran to its end knows the
whole window; one that was stopped leaves a row to go on from. -/
structure Left (source : Source) (setup : Setup) (listing : List ListedTx) (full : Nat)
    (before after : Walk) (status : Option Status) : Prop where
  batch : after.batch = []
  knows : ∀ txHash, before.Knows txHash → after.Knows txHash
  cursor : before.completedCursor ≠ none → after.completedCursor ≠ none
  stopped : status ≠ none → RowSound source listing after.repo.cursorRow after.Knows
  incomplete : status ≠ some Status.completed
  whole : status = none → ∀ txHash ∈ windowOf listing setup.anchor, after.Knows txHash
  place : status = none → ∀ cursor ∈ after.completedCursor, cursor.anchor = setup.anchor ∧
    Ingested source (windowOf listing setup.anchor) (cursor.page - 1) after.Knows
  untouched : status = none → after.completedCursor = none →
    after.repo.cursorRow = before.repo.cursorRow ∧
      (windowOf listing setup.anchor).length ≤ full * source.pageSize

private theorem rateLimited_left {walk : Walk} (underway : Underway source request setup listing full walk) :
    Left source setup listing full walk (rateLimited setup walk.flush).1 (rateLimited setup walk.flush).2 := by
  have knows : ∀ txHash, walk.Knows txHash → walk.flush.Knows txHash :=
    fun txHash known => Walk.flush_knows.mpr known
  have saved : ∀ cursor, interrupted setup walk.flush = some cursor →
      RowSound source listing (walk.flush.save cursor false).repo.cursorRow
        (walk.flush.save cursor false).Knows := by
    rintro cursor kept row ⟨⟩ place inside
    have known : Ingested source (windowOf listing place.anchor) place.page walk.Knows := by
      unfold interrupted at kept
      cases done : walk.completedCursor with
      | some finished =>
        obtain rfl := underway.completed finished done
        simp only [Walk.flush, done, Option.some.injEq] at kept
        subst kept
        obtain rfl := Option.some.inj inside
        exact underway.ingested
      | none =>
        simp only [Walk.flush, done] at kept
        cases mode : setup.mode with
        | resume =>
          simp only [mode, Option.some.injEq] at kept
          subst kept
          exact underway.stored mode place inside
        | restart =>
          simp only [mode, Option.some.injEq] at kept
          subst kept
          cases inside
        | tip => simp [mode] at kept
    exact known.mono knows
  unfold rateLimited
  split
  · exact ⟨rfl, knows, fun some => some, fun _ => underway.row.mono knows, by simp, by simp, by simp, by simp⟩
  · rename_i cursor kept
    exact ⟨rfl, knows, fun some => some, fun _ => saved cursor kept, by simp, by simp, by simp, by simp⟩

/-- A walk stopped by an error keeps the row it had. -/
private theorem raised_left {walk after : Walk} (underway : Underway source request setup listing full walk)
    (row : after.repo.cursorRow = walk.repo.cursorRow) (cursor : after.completedCursor = walk.completedCursor)
    (knows : ∀ txHash, walk.Knows txHash → after.Knows txHash) :
    Left source setup listing full walk after.flush (some .raised) := by
  have grows : ∀ txHash, walk.Knows txHash → after.flush.Knows txHash :=
    fun txHash known => Walk.flush_knows.mpr (knows txHash known)
  refine ⟨rfl, grows, ?_, fun _ => ?_, by simp, by simp, by simp, by simp⟩
  · simp [Walk.flush, cursor]
  · have same : after.flush.repo.cursorRow = walk.repo.cursorRow := row
    rw [same]
    exact underway.row.mono grows

/-- After a page that was folded in whole, the cap cutting off only what is known. -/
private theorem page_known {walk drained : Walk} {hashes known : List String}
    (consumed : Consumed request (pageHashes request walk.seen hashes) walk drained)
    (base : ∀ txHash ∈ known, walk.Knows txHash)
    (cut : ∀ txHash ∈ hashes.drop (pageHashes request walk.seen hashes).length, txHash ∈ known) :
    ∀ txHash ∈ hashes, drained.Knows txHash := by
  have split : pageHashes request walk.seen hashes ++ hashes.drop (pageHashes request walk.seen hashes).length =
      hashes := by
    unfold pageHashes
    cases request.maxTxs with
    | none => simp
    | some cap =>
      simp only [List.length_take]
      rcases Nat.le_total (cap - walk.seen) hashes.length with short | long
      · rw [Nat.min_eq_left short, List.take_append_drop]
      · rw [Nat.min_eq_right long, List.take_of_length_le long, List.drop_length, List.append_nil]
  intro txHash member
  rw [← split, List.mem_append] at member
  rcases member with asked | cutOff
  · exact consumed.all txHash asked
  · exact consumed.knows txHash (base txHash (cut txHash cutOff))

private theorem pageHashes_ne_nil {seen : Nat} {hashes : List String} (below : capReached request seen = false)
    (some : hashes ≠ []) : pageHashes request seen hashes ≠ [] := by
  unfold capReached at below
  unfold pageHashes
  cases cap : request.maxTxs with
  | none => exact some
  | some limit =>
    simp only [cap, Option.any_some, decide_eq_false_iff_not] at below
    intro empty
    rcases List.take_eq_nil_iff.mp empty with none | none
    · omega
    · exact some none

/-- A full page that is known: the walk is under way at the next one. -/
private theorem underway_next {walk drained : Walk} {hashes : List String}
    (underway : Underway source request setup listing full walk)
    (knows : ∀ txHash, walk.Knows txHash → drained.Knows txHash)
    (next : hashes = ((windowOf listing setup.anchor).drop (full * source.pageSize)).take source.pageSize)
    (whole : hashes.length = source.pageSize) (known : ∀ txHash ∈ hashes, drained.Knows txHash)
    (below : capReached request drained.seen = false) :
    Underway source request setup listing (full + 1)
      (drained.flush.pageDone ⟨full + 1, setup.anchor⟩) := by
  have grows : ∀ txHash, drained.Knows txHash →
      (drained.flush.pageDone ⟨full + 1, setup.anchor⟩).Knows txHash :=
    fun txHash held => Walk.flush_knows.mpr held
  have ingested : Ingested source (windowOf listing setup.anchor) (full + 1)
      (drained.flush.pageDone ⟨full + 1, setup.anchor⟩).Knows :=
    ((underway.ingested.mono knows).succ next whole known).mono grows
  refine ⟨rfl, below, ingested, ?_, ?_, ?_⟩
  · rintro cursor ⟨⟩
    rfl
  · rintro row ⟨⟩ cursor ⟨⟩
    exact ingested
  · intro mode cursor inside
    exact (underway.stored mode cursor inside).mono fun txHash held => grows txHash (knows txHash held)

/-- A walk that went on from the next page. -/
private theorem Left.of_next {walk middle after : Walk} {status : Option Status}
    (knows : ∀ txHash, walk.Knows txHash → middle.Knows txHash) (some : middle.completedCursor ≠ none)
    (left : Left source setup listing (full + 1) middle after status) :
    Left source setup listing full walk after status :=
  ⟨left.batch, fun txHash held => left.knows txHash (knows txHash held), fun _ => left.cursor some,
    left.stopped, left.incomplete, left.whole, left.place,
    fun _ none => absurd none (left.cursor some)⟩

/-- A short page is the last. -/
private theorem rest_of_short {hashes : List String} {rest : List (List String)} {window : List String}
    (next : hashes = (window.drop (full * source.pageSize)).take source.pageSize)
    (later : rest = Paging.pages source.pageSize (window.drop ((full + 1) * source.pageSize)))
    (short : hashes.length < source.pageSize) : rest = [] := by
  have length := congrArg List.length next
  rw [List.length_take, List.length_drop] at length
  rw [later, Paging.pages_eq_nil_iff source.positive, List.drop_eq_nil_iff, Nat.succ_mul]
  omega

/-- The walk found the listing's end where it was. -/
private theorem ended_left {walk : Walk} (underway : Underway source request setup listing full walk)
    (short : (windowOf listing setup.anchor).length ≤ full * source.pageSize) :
    Left source setup listing full walk walk none := by
  have all : ∀ txHash ∈ windowOf listing setup.anchor, walk.Knows txHash := by
    have ingested := underway.ingested.known
    rw [List.take_of_length_le short] at ingested
    exact ingested
  refine ⟨underway.batch, fun _ known => known, fun some => some, by simp, by simp, fun _ => all,
    fun _ cursor done => ?_, fun _ _ => ⟨rfl, short⟩⟩
  obtain rfl := underway.completed cursor done
  exact ⟨rfl, underway.ingested.pred⟩

/-- The cap is used up on a full page that is known. -/
private theorem maxReached_left {walk drained : Walk} {hashes : List String}
    (underway : Underway source request setup listing full walk)
    (consumed : Consumed request (pageHashes request walk.seen hashes) walk drained)
    (next : hashes = ((windowOf listing setup.anchor).drop (full * source.pageSize)).take source.pageSize)
    (whole : hashes.length = source.pageSize) (known : ∀ txHash ∈ hashes, drained.Knows txHash) :
    Left source setup listing full walk (drained.flush.save (some ⟨full + 1, setup.anchor⟩) false)
      (some .maxReached) := by
  refine ⟨rfl, fun txHash held => Walk.flush_knows.mpr (consumed.knows txHash held), ?_, fun _ => ?_,
    by simp, by simp, by simp, by simp⟩
  · intro held
    exact consumed.completedCursor ▸ held
  · rintro row ⟨⟩ cursor ⟨⟩
    exact ((underway.ingested.mono consumed.knows).succ next whole known).mono
      fun txHash held => Walk.flush_knows.mpr held

/-- The walk ends after a page that is known, and so is what is listed after it. -/
private theorem stopped_left {walk drained : Walk} {hashes : List String}
    (underway : Underway source request setup listing full walk)
    (knows : ∀ txHash, walk.Knows txHash → drained.Knows txHash)
    (next : hashes = ((windowOf listing setup.anchor).drop (full * source.pageSize)).take source.pageSize)
    (known : ∀ txHash ∈ hashes, drained.Knows txHash)
    (tail : ∀ txHash ∈ (windowOf listing setup.anchor).drop ((full + 1) * source.pageSize), walk.Knows txHash) :
    Left source setup listing full walk (drained.flush.pageDone ⟨full + 1, setup.anchor⟩) none := by
  have grows : ∀ txHash, drained.Knows txHash →
      (drained.flush.pageDone ⟨full + 1, setup.anchor⟩).Knows txHash :=
    fun txHash held => Walk.flush_knows.mpr held
  have keeps : ∀ txHash, walk.Knows txHash →
      (drained.flush.pageDone ⟨full + 1, setup.anchor⟩).Knows txHash :=
    fun txHash held => grows txHash (knows txHash held)
  refine ⟨rfl, keeps, by simp [Walk.pageDone, Walk.save], by simp, by simp, fun _ => ?_, ?_,
    by simp [Walk.pageDone, Walk.save]⟩
  · intro txHash member
    rw [← List.take_append_drop (full * source.pageSize) (windowOf listing setup.anchor),
      List.mem_append] at member
    rcases member with before | after
    · exact keeps txHash (underway.ingested.known txHash before)
    · rw [← List.take_append_drop source.pageSize (List.drop _ _), List.drop_drop,
        ← Nat.succ_mul, ← next, List.mem_append] at after
      rcases after with here | beyond
      · exact grows txHash (known txHash here)
      · exact keeps txHash (tail txHash beyond)
  · rintro - cursor ⟨⟩
    exact ⟨rfl, underway.ingested.mono keeps⟩

/-- The walk from page `full + 1` on. -/
private theorem drainPages_left {known : List String} {yielded : Nat} {walk : Walk} {pages : List (List String)}
    (shape : pages = Paging.pages source.pageSize
      ((windowOf listing setup.anchor).drop (full * source.pageSize)))
    (underway : Underway source request setup listing full walk)
    (base : ∀ txHash ∈ known, walk.Knows txHash)
    (spares : CapSpares source request setup.maxItems known (full + 1) yielded walk.seen pages) :
    Left source setup listing full walk (drainPages request setup source (full + 1) yielded walk pages).1
      (drainPages request setup source (full + 1) yielded walk pages).2 := by
  induction pages generalizing full yielded walk with
  | nil =>
    have empty := (Paging.pages_eq_nil_iff source.positive).mp shape.symm
    simp only [drainPages]
    split
    · exact ended_left underway (List.drop_eq_nil_iff.mp empty)
    · exact rateLimited_left underway
    · exact raised_left underway rfl rfl fun _ known => known
  | cons hashes rest ih =>
    have some : (windowOf listing setup.anchor).drop (full * source.pageSize) ≠ [] := by
      intro empty
      rw [empty, Paging.pages_nil] at shape
      cases shape
    rw [Paging.pages_of_ne_nil source.positive some, List.drop_drop, ← Nat.succ_mul] at shape
    obtain ⟨next, later⟩ := List.cons_eq_cons.mp shape
    simp only [drainPages]
    split
    · exact rateLimited_left underway
    · exact raised_left underway rfl rfl fun _ known => known
    · rename_i served
      have content : hashes ≠ [] := by
        rw [next]
        intro empty
        rcases List.take_eq_nil_iff.mp empty with none | none
        · exact absurd none (Nat.ne_of_gt source.positive)
        · exact some none
      split
      · rename_i empty
        exact absurd (List.isEmpty_iff.mp empty) (pageHashes_ne_nil underway.below content)
      · split
        · exact rateLimited_left underway
        · obtain ⟨done, left, parts, consumed, -, -⟩ :=
            @consumeResults_spec request walk (pageHashes request walk.seen hashes)
          have page := @consumeResults_whole request walk hashes
          generalize consumeResults request walk (pageHashes request walk.seen hashes) = drained at *
          cases ended : drained.2 with
          | raised => exact raised_left underway consumed.cursorRow consumed.completedCursor consumed.knows
          | maxReached =>
            obtain ⟨through, reached⟩ := page (by simp [ended]) underway.below
            obtain ⟨cut, whole⟩ := spares served through.answered
            rw [← through.seen, if_pos (reached.mp ended)] at whole
            exact maxReached_left underway through next whole (page_known through base cut)
          | through =>
            obtain ⟨through, reached⟩ := page (by simp [ended]) underway.below
            have below : capReached request drained.1.seen = false := by
              simpa [ended] using reached
            obtain ⟨cut, onward⟩ := spares served through.answered
            rw [← through.seen, below] at onward
            simp only [Bool.false_eq_true, if_false] at onward
            have all := page_known through base cut
            dsimp only
            split
            · rename_i stops
              refine stopped_left underway through.knows next all ?_
              rw [← Paging.flatten_pages source.positive (List.drop _ _), ← later]
              intro txHash member
              by_cases enough : setup.maxItems.any (· ≤ yielded + hashes.length) = true
              · rw [if_pos enough] at onward
                exact base txHash (onward txHash member)
              · rw [rest_of_short next later (stops.resolve_left enough)] at member
                cases member
            · rename_i goesOn
              rw [not_or, Nat.not_lt] at goesOn
              have whole : hashes.length = source.pageSize := by
                have most : hashes.length ≤ source.pageSize := by
                  rw [next]
                  exact List.length_take_le _ _
                omega
              rw [if_neg goesOn.1] at onward
              have further := underway_next underway through.knows next whole all below
              have knows : ∀ txHash, walk.Knows txHash →
                  (drained.1.flush.pageDone ⟨full + 1, setup.anchor⟩).Knows txHash :=
                fun txHash held => Walk.flush_knows.mpr (through.knows txHash held)
              exact Left.of_next knows (by simp [Walk.pageDone, Walk.save])
                (ih later further (fun txHash member => knows txHash (base txHash member)) onward)

end

/-! ## One run -/

/-- The hash is in the store, or some fetch has not found it. -/
def State.Knows (state : State) (txHash : String) : Prop :=
  txHash ∈ state.repo.transactions ∨ txHash ∈ state.missing

theorem Walk.knows_iff {listing : List ListedTx} {walk : Walk} {txHash : String} (flushed : walk.batch = []) :
    walk.Knows txHash ↔ State.Knows ⟨listing, walk.repo, walk.missing⟩ txHash := by
  simp [Walk.Knows, State.Knows, flushed]

/-- Every later walk may go on from the saved row. -/
def Sound (source : Source) (state : State) : Prop :=
  RowSound source state.listing state.repo.cursorRow state.Knows

/-- The full pages before the one a walk starts with. -/
def fullPages (page : Nat) : DiscoveryMode → Nat
  | .resume => page
  | .tip => page - 1
  | .restart => 0

theorem startPage_eq (page : Nat) (mode : DiscoveryMode) : startPage page mode = fullPages page mode + 1 := by
  cases mode with
  | resume => rfl
  | tip => simp only [startPage, fullPages]; omega
  | restart => rfl

section
variable {source : Source} {request : Request} {state : State}

private theorem recentAnchor_mem {count wanted height : Nat} {answers : Nat → PageAnswer}
    {pages : List (List ListedTx)} {page taken : Nat}
    (found : recentAnchor count wanted answers page taken pages = .ok (some height)) :
    ∃ item ∈ pages.flatten, item.blockHeight = height := by
  induction pages generalizing page taken with
  | nil =>
    simp only [recentAnchor] at found
    split at found <;> cases found
  | cons items rest ih =>
    simp only [recentAnchor] at found
    split at found
    · split at found
      · obtain ⟨item, here, positive⟩ := Option.bind_eq_some_iff.mp (Except.ok.inj found)
        split at positive
        · cases positive
        · refine ⟨item, ?_, Option.some.inj positive⟩
          rw [List.flatten_cons]
          exact List.mem_append_left _ (List.mem_of_getElem? here)
      · split at found
        · cases found
        · obtain ⟨item, member, same⟩ := ih found
          refine ⟨item, ?_, same⟩
          rw [List.flatten_cons]
          exact List.mem_append_right _ member
    · cases found
    · cases found

/-- A walk pages from the cursor's anchor, or from the first page of a window that is empty
only if the listing is. -/
private theorem walkAnchor_spec {listing : List ListedTx} {mode : DiscoveryMode} {page : Nat}
    {anchor maxItems chosen : Option Nat}
    (found : walkAnchor source request listing mode page anchor maxItems = .ok chosen) :
    chosen = anchor ∨ fullPages page mode = 0 ∧ (windowOf listing chosen = [] → listing = []) := by
  unfold walkAnchor at found
  split at found
  · exact Or.inl (Except.ok.inj found).symm
  · split at found
    · rename_i fresh
      refine Or.inr ⟨?_, fun empty => ?_⟩
      · rcases fresh.2.2.2 with start | restart
        · obtain ⟨rfl, -⟩ := Prod.mk.inj start
          cases mode <;> rfl
        · rw [restart]
          rfl
      · cases chosen with
        | none => simpa [windowOf] using empty
        | some height =>
          obtain ⟨item, member, same⟩ := recentAnchor_mem found
          rw [Paging.flatten_pages source.positive, List.mem_reverse] at member
          have inWindow : item.txHash ∈ windowOf listing (some height) :=
            List.mem_map_of_mem (List.mem_filter.mpr ⟨member, by simp [same]⟩)
          rw [empty] at inWindow
          cases inWindow
    · exact Or.inl (Except.ok.inj found).symm

/-- Where the stored cursor of a plan comes from. -/
private theorem planWalk_stored (sound : Sound source state) {cursor : Cursor}
    (stored : cursor ∈ (planWalk request state.repo).storedCursor) :
    Ingested source (windowOf state.listing cursor.anchor) (cursor.page - 1) state.Knows ∧
      ((planWalk request state.repo).mode = .resume →
        Ingested source (windowOf state.listing cursor.anchor) cursor.page state.Knows) := by
  unfold planWalk at stored ⊢
  split at stored
  · cases stored
  · rename_i row found
    have saved : row ∈ state.repo.cursorRow := by
      split at found
      · exact found
      · cases found
    have ingested := sound row saved cursor stored
    cases done : row.done with
    | true =>
      rw [done, if_pos rfl] at ingested
      refine ⟨ingested, fun mode => ?_⟩
      simp only [if_true] at mode
      split at mode <;> cases mode
    | false =>
      rw [done] at ingested
      exact ⟨ingested.pred, fun _ => ingested⟩

/-- The walk as a run starts it. -/
private def firstWalk (request : Request) (state : State) : Walk :=
  ⟨state.repo, [], (planWalk request state.repo).seen, none, state.missing⟩

private theorem firstWalk_knows {txHash : String} :
    (firstWalk request state).Knows txHash ↔ state.Knows txHash := by
  simp [Walk.Knows, State.Knows, firstWalk]

private theorem firstWalk_flush : (firstWalk request state).flush = firstWalk request state := by
  simp [Walk.flush, firstWalk]

/-- A run is under way at the page after those its window has ingested. -/
private theorem underway_of_ingested (sound : Sound source state)
    (room : request.maxTxs.map (· - (planWalk request state.repo).seen) ≠ some 0) (maxItems : Option Nat)
    {chosen : Option Nat} {full : Nat} (ingested : Ingested source (windowOf state.listing chosen) full state.Knows) :
    Underway source request ⟨(planWalk request state.repo).mode, (planWalk request state.repo).storedCursor,
      maxItems, chosen⟩ state.listing full (firstWalk request state) := by
  have knows : ∀ txHash, state.Knows txHash → (firstWalk request state).Knows txHash :=
    fun txHash held => firstWalk_knows.mpr held
  refine ⟨rfl, ?_, ingested.mono knows, by simp [firstWalk], RowSound.mono sound knows, ?_⟩
  · unfold capReached
    cases cap : request.maxTxs with
    | none => rfl
    | some limit =>
      simp only [cap, Option.map_some, ne_eq, Option.some.injEq] at room
      simp only [Option.any_some, firstWalk]
      exact decide_eq_false (by omega)
  · intro mode cursor stored
    exact ((planWalk_stored sound stored).2 mode).mono knows

/-- What the cursor of a run stands for is ingested. -/
private theorem ingested_first (sound : Sound source state) {maxItems chosen : Option Nat}
    (found : walkAnchor source request state.listing (planWalk request state.repo).mode
      (parseCursor (planWalk request state.repo).storedCursor).1
      (parseCursor (planWalk request state.repo).storedCursor).2 maxItems = .ok chosen) :
    Ingested source (windowOf state.listing chosen)
      (fullPages (parseCursor (planWalk request state.repo).storedCursor).1 (planWalk request state.repo).mode)
      state.Knows := by
  rcases walkAnchor_spec found with same | ⟨zero, -⟩
  · subst same
    cases stored : (planWalk request state.repo).storedCursor with
    | none =>
      have zero : fullPages (parseCursor none).1 (planWalk request state.repo).mode = 0 := by
        cases (planWalk request state.repo).mode <;> rfl
      rw [zero]
      exact Ingested.zero
    | some cursor =>
      obtain ⟨before, whole⟩ := planWalk_stored sound (show cursor ∈ _ from stored)
      cases mode : (planWalk request state.repo).mode with
      | resume => exact whole mode
      | tip => exact before
      | restart => exact Ingested.zero
  · rw [zero]
    exact Ingested.zero

/-- What a run leaves when it got as far as its walk. -/
private theorem completed_sound (sound : Sound source state) {setup : Setup} {full : Nat} {walk : Walk}
    (stored : setup.storedCursor = (planWalk request state.repo).storedCursor)
    (left : Left source setup state.listing full (firstWalk request state) walk none) :
    RowSound source state.listing (completed request setup walk.flush).repo.cursorRow
      (completed request setup walk.flush).Knows := by
  have grows : ∀ txHash, walk.Knows txHash → (completed request setup walk.flush).Knows txHash :=
    fun txHash held => Walk.flush_knows.mpr held
  rintro row ⟨⟩ cursor inside
  simp only [if_true]
  cases finished : walk.completedCursor with
  | some done =>
    simp only [Walk.flush, finished, Option.isSome_some, if_true] at inside
    obtain rfl := Option.some.inj inside
    obtain ⟨same, ingested⟩ := left.place rfl done finished
    rw [same]
    exact ingested.mono grows
  | none =>
    simp only [Walk.flush, finished, Option.isSome_none, Bool.false_eq_true, if_false, stored] at inside
    exact (planWalk_stored sound inside).1.mono fun txHash held =>
      grows txHash (left.knows txHash (firstWalk_knows.mpr held))

/-- A completed walk knows everything from the anchor of the cursor it saves. -/
private theorem completed_whole {maxItems chosen : Option Nat} {walk : Walk}
    (found : walkAnchor source request state.listing (planWalk request state.repo).mode
      (parseCursor (planWalk request state.repo).storedCursor).1
      (parseCursor (planWalk request state.repo).storedCursor).2 maxItems = .ok chosen)
    (left : Left source ⟨(planWalk request state.repo).mode, (planWalk request state.repo).storedCursor,
        maxItems, chosen⟩ state.listing
      (fullPages (parseCursor (planWalk request state.repo).storedCursor).1 (planWalk request state.repo).mode)
      (firstWalk request state) walk none) :
    ∀ txHash ∈ windowOf state.listing (parseCursor (if walk.completedCursor.isSome then walk.completedCursor
      else (planWalk request state.repo).storedCursor)).2, walk.Knows txHash := by
  cases finished : walk.completedCursor with
  | some done =>
    obtain ⟨same, -⟩ := left.place rfl done finished
    simp only [Option.isSome_some, if_true, parseCursor, same]
    exact left.whole rfl
  | none =>
    simp only [Option.isSome_none, Bool.false_eq_true, if_false]
    rcases walkAnchor_spec found with same | ⟨zero, nonempty⟩
    · rw [← same]
      exact left.whole rfl
    · -- nothing was listed from the new anchor, so there is nothing at all
      have short := (left.untouched rfl finished).2
      rw [zero, Nat.zero_mul] at short
      rw [nonempty (List.eq_nil_of_length_eq_zero (Nat.le_zero.mp short))]
      simp [windowOf]

/-- One run: the row it leaves is one to go on from, and if it completed everything from the
saved cursor's anchor on is known. -/
private theorem ingest_sound (sound : Sound source state)
    (spares : CapSparesRun source state (.ingest request)) {ran : Ran}
    (ended : ingest source request state.listing state.repo state.missing = ran) :
    Sound source ⟨state.listing, ran.repo, ran.missing⟩ ∧
      (ran.status = .completed → ∃ row, ran.repo.cursorRow = some row ∧
        ∀ txHash ∈ windowOf state.listing (parseCursor row.cursor).2,
          State.Knows ⟨state.listing, ran.repo, ran.missing⟩ txHash) := by
  subst ended
  simp only [CapSparesRun] at spares
  simp only [ingest]
  split
  · exact ⟨sound, by simp⟩
  · rename_i room
    generalize limit : discoveryMaxItems request.maxTxs
      (request.maxTxs.map (· - (planWalk request state.repo).seen)) (resolveWindow request)
      (planWalk request state.repo).mode = maxItems at spares ⊢
    split
    · exact ⟨sound, by simp⟩
    · have nothing : Ingested source (windowOf state.listing none) 0 state.Knows := Ingested.zero
      have left := rateLimited_left (underway_of_ingested sound room maxItems nothing)
      rw [firstWalk_flush] at left
      have stopped : (rateLimited ⟨(planWalk request state.repo).mode, (planWalk request state.repo).storedCursor,
          maxItems, none⟩ (firstWalk request state)).2 ≠ none := by
        unfold rateLimited
        split <;> simp
      have missing : (rateLimited ⟨(planWalk request state.repo).mode, (planWalk request state.repo).storedCursor,
          maxItems, none⟩ (firstWalk request state)).1.missing = state.missing := by
        unfold rateLimited
        split <;> rfl
      refine ⟨?_, by simp⟩
      refine RowSound.mono (left.stopped stopped) fun txHash held => ?_
      rcases (@Walk.knows_iff state.listing _ _ left.batch).mp held with stored | lost
      · exact Or.inl stored
      · exact Or.inr (missing ▸ lost)
    · rename_i chosen found
      have underway := underway_of_ingested sound room maxItems (ingested_first sound found)
      have base : ∀ txHash ∈ state.repo.transactions ++ state.missing,
          (firstWalk request state).Knows txHash :=
        fun txHash member => firstWalk_knows.mpr (List.mem_append.mp member)
      simp only [found, CapSparesWalk, startPage_eq, limit] at spares
      have left := drainPages_left (show walkPages source state.listing chosen _ = _ by
        rw [walkPages, Nat.add_sub_cancel]) underway base (spares room)
      simp only [startPage_eq]
      have shape : (⟨state.repo, [], (planWalk request state.repo).seen, none, state.missing⟩ : Walk) =
        firstWalk request state := rfl
      rw [shape]
      generalize drainPages request _ source _ 0 (firstWalk request state) _ = drained at left ⊢
      obtain ⟨walk, status⟩ := drained
      cases status with
      | some status =>
        refine ⟨RowSound.mono (left.stopped (by simp)) fun txHash held => (Walk.knows_iff left.batch).mp held, ?_⟩
        intro completed
        exact absurd (congrArg some completed) left.incomplete
      | none =>
        have finished : ∀ txHash, (completed request ⟨(planWalk request state.repo).mode,
            (planWalk request state.repo).storedCursor, maxItems, chosen⟩ walk.flush).Knows txHash →
            State.Knows ⟨state.listing, (completed request ⟨(planWalk request state.repo).mode,
              (planWalk request state.repo).storedCursor, maxItems, chosen⟩ walk.flush).repo,
              (completed request ⟨(planWalk request state.repo).mode,
                (planWalk request state.repo).storedCursor, maxItems, chosen⟩ walk.flush).missing⟩ txHash :=
          fun txHash held => (Walk.knows_iff rfl).mp held
        refine ⟨RowSound.mono (completed_sound sound rfl left) finished, fun _ => ⟨_, rfl, ?_⟩⟩
        intro txHash member
        exact finished txHash (Walk.flush_knows.mpr (completed_whole found left txHash member))

private theorem sound_initial : Sound source State.initial := by
  rintro row ⟨⟩

/-- What is appended lies behind every page that was full. -/
private theorem sound_append (sound : Sound source state) (txs : List ListedTx) :
    Sound source { state with listing := state.listing ++ txs } := by
  intro row saved cursor inside
  have ingested := sound row saved cursor inside
  have longer : windowOf (state.listing ++ txs) cursor.anchor =
      windowOf state.listing cursor.anchor ++ windowOf txs cursor.anchor := by
    simp [windowOf]
  constructor
  · rw [longer, List.length_append]
    exact Nat.le_trans ingested.within (Nat.le_add_right _ _)
  · intro txHash member
    rw [longer, List.take_append_of_le_length ingested.within] at member
    exact ingested.known txHash member

private theorem sound_step {event : Event} {next : State} (spares : CapSparesRun source state event)
    (sound : Sound source state) (stepped : step source state event = some next) : Sound source next := by
  cases event with
  | append txs =>
    obtain rfl := Option.some.inj stepped
    exact sound_append sound txs
  | ingest request =>
    obtain rfl := Option.some.inj stepped
    exact (ingest_sound sound spares rfl).1

end

/-- **No gap.**  In every sequence of runs whose caps lose nothing, a run that returns
`completed` leaves no transaction at or after the saved cursor's anchor out of the store,
those apart that a fetch has not found. -/
theorem ingest_leaves_no_gap (source : Source) {events : List Event} {state : State}
    (spared : Runs.EveryStep (step source) (CapSparesRun source) State.initial events)
    (reached : Runs.run (step source) State.initial events = some state) {request : Request} {ran : Ran}
    (spares : CapSparesRun source state (.ingest request))
    (ended : ingest source request state.listing state.repo state.missing = ran)
    (completed : ran.status = .completed) :
    ∃ row, ran.repo.cursorRow = some row ∧
      ∀ tx ∈ state.listing, (∀ height ∈ (parseCursor row.cursor).2, height ≤ tx.blockHeight) →
        tx.txHash ∈ ran.repo.transactions ∨ tx.txHash ∈ ran.missing := by
  have sound : Sound source state :=
    Runs.invariant_of_step _ (fun spares sound stepped => sound_step spares sound stepped) sound_initial
      spared reached
  obtain ⟨row, saved, whole⟩ := (ingest_sound sound spares ended).2 completed
  refine ⟨row, saved, fun tx listed inside => ?_⟩
  exact whole tx.txHash (List.mem_map_of_mem (List.mem_filter.mpr ⟨listed, decide_eq_true inside⟩))

private def sampleSource : Source := ⟨3, by decide⟩

private def sampleRequest (maxTxs : Option Nat) : Request :=
  ⟨maxTxs, false, true, false, 100, fun _ => .served, fun _ => .served, fun _ => .found⟩

private def sampleListing : List ListedTx := [⟨"a", 1⟩, ⟨"b", 2⟩, ⟨"c", 3⟩, ⟨"d", 4⟩]

/-- The listing of four, and a first run with this cap. -/
private def cappedRun (cap : Nat) : List Event :=
  [.append sampleListing, .ingest (sampleRequest (some cap))]

private def afterCapped (cap : Nat) : State :=
  (Runs.run (step sampleSource) State.initial (cappedRun cap)).getD State.initial

private def uncapped (cap : Nat) : Ran :=
  ingest sampleSource (sampleRequest none) (afterCapped cap).listing (afterCapped cap).repo
    (afterCapped cap).missing

theorem ingest_leaves_no_gap_full_page :
    ∃ row, (uncapped 3).repo.cursorRow = some row ∧
      ∀ tx ∈ (afterCapped 3).listing, (∀ height ∈ (parseCursor row.cursor).2, height ≤ tx.blockHeight) →
        tx.txHash ∈ (uncapped 3).repo.transactions ∨ tx.txHash ∈ (uncapped 3).missing :=
  ingest_leaves_no_gap sampleSource
    (show Runs.EveryStep _ _ State.initial (cappedRun 3) by decide)
    (show Runs.run _ State.initial (cappedRun 3) = some (afterCapped 3) by decide)
    (show CapSparesRun sampleSource _ (.ingest (sampleRequest none)) by decide) rfl (by decide)

/-- A cap of two cuts the first page of three, yet the page is saved as ingested: the next
run goes on behind it and completes without the third transaction. -/
theorem cap_skips_rest_of_page :
    Runs.run (step sampleSource) State.initial (cappedRun 2) = some (afterCapped 2) ∧
    (uncapped 2).status = .completed ∧
    (uncapped 2).repo.cursorRow = some ⟨some ⟨2, none⟩, 3, true⟩ ∧
    ⟨"c", 3⟩ ∈ (afterCapped 2).listing ∧ (sampleRequest none).fetch "c" = .found ∧
    "c" ∉ (uncapped 2).repo.transactions ∧ (uncapped 2).missing = [] := by
  decide

end TransactionMonitoring.Ingest
