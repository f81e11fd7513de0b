import Mathlib.Data.Finset.Card
import Mathlib.Data.List.Dedup
import Mathlib.Data.List.TakeWhile
import TransactionMonitoring.Ingest

/-! What the cursor's `txs_seen` counts.

The ingester as it is for every source: discovery hands it pages of hashes, each with a cursor
that only the source can read.  A run counts on from the stored `txs_seen`, whether its walk
goes on behind what has been counted or starts over.  The store keeps a transaction once; the
counter counts it as often as it is found.
-/
namespace TransactionMonitoring.CursorCount

open Ingest (DiscoveryMode Drained FetchAnswer PageAnswer Status)

universe u

section Ingester
variable {κ : Type u}

/-- A row of `ingest_cursor`; the empty cursor is `none`. -/
structure CursorRow (κ : Type u) where
  cursor : Option κ
  txsSeen : Nat
  done : Bool
  source : String
deriving DecidableEq

/-- The arguments of one `ingest` call, what discovery yields and how it ends, and the answers
to the fetches. -/
structure Request (κ : Type u) where
  sourceName : String
  maxTxs : Option Nat
  resume : Bool
  fromTip : Bool
  batchSize : Nat
  pages : List (κ × List String)
  ended : PageAnswer
  fetch : String → FetchAnswer

/-- What the repo keeps of one target. -/
structure Repo (κ : Type u) where
  transactions : List String
  cursorRow : Option (CursorRow κ)
deriving DecidableEq

/-- `count_transactions`. -/
def Repo.countTransactions (repo : Repo κ) : Nat := repo.transactions.dedup.length

/-- The state of one walk: `_Batch`, and what `_CursorTracker` changes. -/
structure Walk (κ : Type u) where
  repo : Repo κ
  batch : List String
  seen : Nat
  completedCursor : Option κ
deriving DecidableEq

/-- `_Batch.flush`. -/
def Walk.flush (walk : Walk κ) : Walk κ :=
  { walk with
    repo := { walk.repo with transactions := walk.repo.transactions ++ walk.batch }
    batch := [] }

/-- `_WalkPlan`. -/
structure WalkPlan (κ : Type u) where
  mode : DiscoveryMode
  storedCursor : Option κ
  seen : Nat

variable (request : Request κ)

/-- The row `_plan_walk` goes by: a cursor of another source is treated as absent. -/
def usableRow (repo : Repo κ) : Option (CursorRow κ) :=
  (if request.resume then repo.cursorRow else none).filter fun row =>
    row.source = "" ∨ row.source = request.sourceName

/-- `_plan_walk`. -/
def planWalk (repo : Repo κ) : WalkPlan κ :=
  match usableRow request repo with
  | none => ⟨.restart, none, 0⟩
  | some row =>
      ⟨if row.done then (if request.fromTip then .tip else .restart) else .resume, row.cursor, row.txsSeen⟩

/-- `_CursorTracker.save`. -/
def save (walk : Walk κ) (cursor : Option κ) (done : Bool) : Walk κ :=
  { walk with repo := { walk.repo with cursorRow := some ⟨cursor, walk.seen, done, request.sourceName⟩ } }

/-- `_CursorTracker.page_done`. -/
def pageDone (walk : Walk κ) (cursor : κ) : Walk κ :=
  save request { walk with completedCursor := some cursor } (some cursor) false

/-- Whether `max_txs` is used up. -/
def capReached (seen : Nat) : Bool := request.maxTxs.any (· ≤ seen)

/-- The part of a page the cap leaves. -/
def pageHashes (seen : Nat) (hashes : List String) : List String :=
  match request.maxTxs with
  | none => hashes
  | some cap => hashes.take (cap - seen)

/-- `_consume_results`. -/
def consumeResults (walk : Walk κ) : List String → Walk κ × Drained
  | [] => (walk, .through)
  | txHash :: rest =>
      match request.fetch txHash with
      | .notFound => consumeResults walk rest
      | .rateLimited | .failed => (walk, .raised)
      | .found =>
          let added := { walk with batch := walk.batch ++ [txHash], seen := walk.seen + 1 }
          let added := if request.batchSize ≤ added.batch.length then added.flush else added
          if capReached request added.seen then (added, .maxReached) else consumeResults added rest

variable (plan : WalkPlan κ)

/-- `_CursorTracker.interrupted`: the cursor to save, if any. -/
def interrupted (walk : Walk κ) : Option (Option κ) :=
  match walk.completedCursor with
  | some cursor => some (some cursor)
  | none =>
      match plan.mode with
      | .resume => some plan.storedCursor
      | .restart => some none
      | .tip => none

/-- `_CursorTracker.rate_limited`. -/
def rateLimited (walk : Walk κ) : Walk κ × Option Status :=
  match interrupted plan walk with
  | none => (walk, some .rateLimited)
  | some cursor => (save request walk cursor false, some .rateLimited)

/-- `_drain_pages`; no status when the walk ran to its end.  The flush of `ingest`'s `finally`
is part of a raise. -/
def drainPages (walk : Walk κ) : List (κ × List String) → Walk κ × Option Status
  | [] =>
      match request.ended with
      | .served => (walk, none)
      | .rateLimited => rateLimited request plan walk.flush
      | .failed => (walk.flush, some .raised)
  | (cursor, hashes) :: rest =>
      let asked := pageHashes request walk.seen hashes
      if asked.isEmpty then (walk, none)
      else if asked.any (fun txHash => request.fetch txHash = .rateLimited) then
        rateLimited request plan walk.flush
      else
        let drained := consumeResults request walk asked
        match drained.2 with
        | .raised => (drained.1.flush, some .raised)
        | .maxReached => (save request drained.1.flush (some cursor) false, some .maxReached)
        | .through => drainPages (pageDone request drained.1.flush cursor) rest

/-- `_CursorTracker.completed`. -/
def completed (walk : Walk κ) : Walk κ :=
  let counted := { walk with seen := if request.fromTip then walk.repo.countTransactions else walk.seen }
  save request counted (if walk.completedCursor.isSome then walk.completedCursor else plan.storedCursor) true

/-- `ingest`. -/
def ingest (repo : Repo κ) : Repo κ × Status :=
  let plan := planWalk request repo
  if request.maxTxs.map (· - plan.seen) = some 0 then (repo, .maxReached)
  else
    let drained := drainPages request plan ⟨repo, [], plan.seen, none⟩ request.pages
    match drained.2 with
    | some status => (drained.1.repo, status)
    | none => ((completed request plan drained.1.flush).repo, .completed)

end Ingester

/-- Runs on one target, one after the other. -/
def step {κ : Type u} (repo : Repo κ) (request : Request κ) : Option (Repo κ) :=
  some (ingest request repo).1

/-- A target nothing has been ingested of. -/
def Repo.initial {κ : Type u} : Repo κ := ⟨[], none⟩

section
variable {κ : Type u}

/-! ## What a run finds -/

/-- The hashes of a page that a fetch finds. -/
def foundOf (request : Request κ) (hashes : List String) : List String :=
  hashes.filter fun txHash => request.fetch txHash = .found

/-- On the pages a walk saves, and on a page it does not save because a fetch on it raises. -/
structure Found where
  counted : List String
  uncounted : List String
deriving DecidableEq, Repr

/-- Over the pages of a walk, as far as it gets. -/
def foundOn (request : Request κ) (seen : Nat) : List (κ × List String) → Found
  | [] => ⟨[], []⟩
  | (_, hashes) :: rest =>
      let asked := pageHashes request seen hashes
      if asked.isEmpty ∨ asked.any (fun txHash => request.fetch txHash = .rateLimited) then ⟨[], []⟩
      else if asked.any (fun txHash => request.fetch txHash = .failed) then
        ⟨[], foundOf request (asked.takeWhile fun txHash => request.fetch txHash ≠ .failed)⟩
      else
        let found := foundOf request asked
        if capReached request (seen + found.length) then ⟨found, []⟩
        else
          let later := foundOn request (seen + found.length) rest
          ⟨found ++ later.counted, later.uncounted⟩

/-- What a run finds. -/
def foundBy (request : Request κ) (repo : Repo κ) : Found :=
  let plan := planWalk request repo
  if request.maxTxs.map (· - plan.seen) = some 0 then ⟨[], []⟩ else foundOn request plan.seen request.pages

/-- No listing and no fetch cuts the walk short, and the cap does not. -/
def throughOn (request : Request κ) (seen : Nat) : List (κ × List String) → Bool
  | [] => request.ended = .served
  | (_, hashes) :: rest =>
      let asked := pageHashes request seen hashes
      if asked.isEmpty then true
      else if asked.any fun txHash => request.fetch txHash = .rateLimited ∨ request.fetch txHash = .failed then false
      else
        let found := foundOf request asked
        !capReached request (seen + found.length) && throughOn request (seen + found.length) rest

/-- The run is not turned away, and nothing cuts its walk short. -/
def through (request : Request κ) (repo : Repo κ) : Bool :=
  let plan := planWalk request repo
  request.maxTxs.map (· - plan.seen) ≠ some 0 && throughOn request plan.seen request.pages

/-! ## What the saved count stands for -/

/-- A target, and the transactions that the `txs_seen` of its row has been counted up from. -/
structure Chronicle (κ : Type u) where
  repo : Repo κ
  counted : Finset String
deriving DecidableEq

/-- The transactions that the count stands for which a run goes on from: without a row it may use it starts from
zero. -/
def Chronicle.standing (chronicle : Chronicle κ) (request : Request κ) : Finset String :=
  if (usableRow request chronicle.repo).isSome then chronicle.counted else ∅

/-- Another run: it counts what it finds, or recounts the store from the tip, or leaves the row. -/
def follow [DecidableEq κ] (chronicle : Chronicle κ) (request : Request κ) : Option (Chronicle κ) :=
  let repo := (ingest request chronicle.repo).1
  let found := (foundBy request chronicle.repo).counted
  some ⟨repo,
    if request.fromTip ∧ through request chronicle.repo then repo.transactions.toFinset
    else if repo.cursorRow = chronicle.repo.cursorRow ∧ found = [] then chronicle.counted
    else chronicle.standing request ∪ found.toFinset⟩

/-- The run counts no transaction twice, and none that the count it goes on from stands for already; or it gets
through from the tip and recounts.  A walk that starts over on a finished row finds again what is counted, and so
does one that goes on where a look from the tip was cut short behind a page. -/
def CountsOnce (chronicle : Chronicle κ) (request : Request κ) : Prop :=
  (request.fromTip = true ∧ through request chronicle.repo = true) ∨
    (foundBy request chronicle.repo).counted.Nodup ∧
      ∀ txHash ∈ (foundBy request chronicle.repo).counted, txHash ∉ chronicle.standing request

instance (chronicle : Chronicle κ) (request : Request κ) : Decidable (CountsOnce chronicle request) :=
  inferInstanceAs (Decidable (_ ∨ _))

/-- A run that gets through without a recount finds whatever is stored and not counted yet. -/
def CountsAll (chronicle : Chronicle κ) (request : Request κ) : Prop :=
  through request chronicle.repo = true → request.fromTip = false → ∀ txHash ∈ chronicle.repo.transactions,
    txHash ∈ chronicle.standing request ∨ txHash ∈ (foundBy request chronicle.repo).counted

instance (chronicle : Chronicle κ) (request : Request κ) : Decidable (CountsAll chronicle request) :=
  inferInstanceAs (Decidable (_ → _ → _))

/-- A target nothing has been ingested of. -/
def Chronicle.initial : Chronicle κ := ⟨Repo.initial, ∅⟩

/-- A completed run has saved the number of stored transactions. -/
def SavesTrueCount (repo : Repo κ) (request : Request κ) : Prop :=
  (ingest request repo).2 = .completed →
    ∃ row, (ingest request repo).1.cursorRow = some row ∧
      row.txsSeen = (ingest request repo).1.countTransactions

/-- No request is turned away as at its cap with fewer transactions stored. -/
def RefusesAtCap (repo : Repo κ) : Prop :=
  ∀ (request : Request κ) (cap : Nat), request.maxTxs = some cap →
    request.maxTxs.map (· - (planWalk request repo).seen) = some 0 → cap ≤ repo.countTransactions

end

/-! ## One page -/

section
variable {κ : Type u} {request : Request κ} {plan : WalkPlan κ}

theorem foundOf_cons (txHash : String) (rest : List String) :
    foundOf request (txHash :: rest) =
      if request.fetch txHash = .found then txHash :: foundOf request rest else foundOf request rest := by
  simp [foundOf, List.filter_cons]

/-- All of the walk's transactions, stored or batched. -/
def Walk.held (walk : Walk κ) : List String := walk.repo.transactions ++ walk.batch

@[simp] theorem Walk.flush_transactions (walk : Walk κ) : walk.flush.repo.transactions = walk.held := rfl

@[simp] theorem Walk.flush_held (walk : Walk κ) : walk.flush.held = walk.held := by
  simp [Walk.held, Walk.flush]

/-- Folding in the results of `done`. -/
structure Folded (request : Request κ) (done : List String) (before after : Walk κ) : Prop where
  held : after.held = before.held ++ foundOf request done
  seen : after.seen = before.seen + (foundOf request done).length
  cursorRow : after.repo.cursorRow = before.repo.cursorRow
  completedCursor : after.completedCursor = before.completedCursor

private theorem Folded.refl (walk : Walk κ) : Folded request [] walk walk := by
  constructor <;> simp [foundOf]

private theorem Folded.missing {txHash : String} {done : List String} {before after : Walk κ}
    (lost : request.fetch txHash = .notFound) (later : Folded request done before after) :
    Folded request (txHash :: done) before after := by
  have same : foundOf request (txHash :: done) = foundOf request done := by simp [foundOf_cons, lost]
  constructor
  · rw [same]
    exact later.held
  · rw [same]
    exact later.seen
  · exact later.cursorRow
  · exact later.completedCursor

private theorem Folded.found {txHash : String} {done : List String} {before added after : Walk κ}
    (found : request.fetch txHash = .found) (held : added.held = before.held ++ [txHash])
    (seen : added.seen = before.seen + 1) (cursorRow : added.repo.cursorRow = before.repo.cursorRow)
    (completedCursor : added.completedCursor = before.completedCursor)
    (later : Folded request done added after) : Folded request (txHash :: done) before after := by
  have more : foundOf request (txHash :: done) = txHash :: foundOf request done := by simp [foundOf_cons, found]
  constructor
  · rw [more, later.held, held, List.append_assoc, List.singleton_append]
  · rw [more, later.seen, seen, List.length_cons]
    omega
  · exact later.cursorRow.trans cursorRow
  · exact later.completedCursor.trans completedCursor

/-- A page that the cap has room for is folded in up to the first fetch that raises. -/
private theorem consumeResults_folded (walk : Walk κ) (asked : List String)
    (room : ∀ cap ∈ request.maxTxs, walk.seen + asked.length ≤ cap)
    (quiet : ∀ txHash ∈ asked, request.fetch txHash ≠ .rateLimited) :
    Folded request (asked.takeWhile fun txHash => request.fetch txHash ≠ .failed) walk
        (consumeResults request walk asked).1 ∧
      (asked.any (fun txHash => request.fetch txHash = .failed) = true →
        (consumeResults request walk asked).2 = .raised) ∧
      (asked.any (fun txHash => request.fetch txHash = .failed) = false → capReached request walk.seen = false →
        (consumeResults request walk asked).2 =
          if capReached request (walk.seen + (foundOf request asked).length) then .maxReached else .through) := by
  induction asked generalizing walk with
  | nil =>
    refine ⟨Folded.refl walk, by simp, ?_⟩
    intro _ below
    simp [consumeResults, foundOf, below]
  | cons txHash rest ih =>
    have quietRest : ∀ other ∈ rest, request.fetch other ≠ .rateLimited :=
      fun other member => quiet other (.tail _ member)
    cases answer : request.fetch txHash with
    | notFound =>
      have roomRest : ∀ cap ∈ request.maxTxs, walk.seen + rest.length ≤ cap := by
        intro cap limited
        have room := room cap limited
        simp only [List.length_cons] at room
        omega
      obtain ⟨folded, raised, ended⟩ := ih walk roomRest quietRest
      simp only [consumeResults, answer]
      refine ⟨?_, ?_, ?_⟩
      · simp only [List.takeWhile_cons, answer, ne_eq, reduceCtorEq, not_false_eq_true, decide_true, if_true]
        exact folded.missing answer
      · simpa [answer] using raised
      · simpa [answer, foundOf_cons] using ended
    | rateLimited => exact absurd answer (quiet txHash List.mem_cons_self)
    | failed =>
      simp only [consumeResults, answer]
      refine ⟨?_, by simp, by simp [answer]⟩
      simp only [List.takeWhile_cons, answer, ne_eq, not_true_eq_false, decide_false, Bool.false_eq_true, if_false]
      exact Folded.refl walk
    | found =>
      simp only [consumeResults, answer]
      generalize shape : (if request.batchSize ≤ (walk.batch ++ [txHash]).length then
        Walk.flush { walk with batch := walk.batch ++ [txHash], seen := walk.seen + 1 }
        else { walk with batch := walk.batch ++ [txHash], seen := walk.seen + 1 }) = added
      have held : added.held = walk.held ++ [txHash] := by
        subst shape
        split <;> simp [Walk.held, Walk.flush]
      have seen : added.seen = walk.seen + 1 := by
        subst shape
        split <;> rfl
      have cursorRow : added.repo.cursorRow = walk.repo.cursorRow := by
        subst shape
        split <;> rfl
      have completedCursor : added.completedCursor = walk.completedCursor := by
        subst shape
        split <;> rfl
      have roomRest : ∀ cap ∈ request.maxTxs, added.seen + rest.length ≤ cap := by
        intro cap limited
        have room := room cap limited
        simp only [List.length_cons] at room
        omega
      obtain ⟨folded, raised, ended⟩ := ih added roomRest quietRest
      have shorter : (txHash :: rest).takeWhile (fun txHash => request.fetch txHash ≠ .failed) =
          txHash :: rest.takeWhile fun txHash => request.fetch txHash ≠ .failed := by
        simp [answer]
      rw [shorter]
      split
      · rename_i reached
        -- the cap has no room for anything behind the transaction that uses it up
        have last : rest = [] := by
          unfold capReached at reached
          cases limited : request.maxTxs with
          | none => simp [limited] at reached
          | some cap =>
            have room := roomRest cap limited
            simp only [limited, Option.any_some, decide_eq_true_eq] at reached
            exact List.eq_nil_of_length_eq_zero (by omega)
        subst last
        refine ⟨Folded.found answer held seen cursorRow completedCursor (Folded.refl added), ?_, ?_⟩
        · simp [answer]
        · intro _ _
          rw [seen] at reached
          simp [foundOf, answer, reached]
      · rename_i below
        refine ⟨Folded.found answer held seen cursorRow completedCursor folded, ?_, ?_⟩
        · simpa [answer] using raised
        · intro calm _
          have calmRest : rest.any (fun txHash => request.fetch txHash = .failed) = false := by
            simpa [answer] using calm
          rw [ended calmRest (by simpa using below)]
          simp only [foundOf_cons, answer, if_true, List.length_cons, seen]
          rw [Nat.add_assoc, Nat.add_comm 1]

/-- A page that is fetched is given up at a fetch that raises, or folded in whole: up to the cap, or below it. -/
private theorem consumeResults_cases (walk : Walk κ) (asked : List String)
    (below : capReached request walk.seen = false)
    (room : ∀ cap ∈ request.maxTxs, walk.seen + asked.length ≤ cap)
    (quiet : ∀ txHash ∈ asked, request.fetch txHash ≠ .rateLimited) :
    (asked.any (fun txHash => request.fetch txHash = .failed) = true ∧
        (consumeResults request walk asked).2 = .raised ∧
        Folded request (asked.takeWhile fun txHash => request.fetch txHash ≠ .failed) walk
          (consumeResults request walk asked).1) ∨
      asked.any (fun txHash => request.fetch txHash = .failed) = false ∧
        Folded request asked walk (consumeResults request walk asked).1 ∧
        (capReached request (walk.seen + (foundOf request asked).length) = true ∧
            (consumeResults request walk asked).2 = .maxReached ∨
          capReached request (walk.seen + (foundOf request asked).length) = false ∧
            (consumeResults request walk asked).2 = .through) := by
  obtain ⟨folded, raised, ended⟩ := consumeResults_folded walk asked room quiet
  cases failing : asked.any (fun txHash => request.fetch txHash = .failed) with
  | true => exact .inl ⟨rfl, raised failing, folded⟩
  | false =>
    have whole : asked.takeWhile (fun txHash => request.fetch txHash ≠ .failed) = asked := by
      rw [List.takeWhile_eq_self_iff]
      simpa using failing
    rw [whole] at folded
    have ended := ended failing below
    refine .inr ⟨rfl, folded, ?_⟩
    cases reached : capReached request (walk.seen + (foundOf request asked).length) with
    | true => exact .inl ⟨rfl, by rw [ended, if_pos reached]⟩
    | false => exact .inr ⟨rfl, by rw [ended, if_neg (Bool.eq_false_iff.mp reached)]⟩

/-! ## One walk -/

private theorem pageHashes_room {seen : Nat} {hashes : List String} (below : capReached request seen = false) :
    ∀ cap ∈ request.maxTxs, seen + (pageHashes request seen hashes).length ≤ cap := by
  intro cap limited
  have limited : request.maxTxs = some cap := limited
  simp only [capReached, limited, Option.any_some, decide_eq_false_iff_not] at below
  simp only [pageHashes, limited, List.length_take]
  omega

/-- What a walk leaves behind that finds `found`. -/
structure Walked (found : Found) (before after : Walk κ) (status : Option Status) : Prop where
  batch : after.batch = []
  held : after.held = before.held ++ found.counted ++ found.uncounted
  row : (after.repo.cursorRow = before.repo.cursorRow ∧ found.counted = []) ∨
    ∃ row, after.repo.cursorRow = some row ∧ row.txsSeen = before.seen + found.counted.length
  ended : status = none → after.seen = before.seen + found.counted.length ∧ found.uncounted = []
  incomplete : status ≠ some .completed

private theorem walked_idle {walk : Walk κ} (batch : walk.batch = []) : Walked ⟨[], []⟩ walk walk none :=
  ⟨batch, by simp, Or.inl ⟨rfl, rfl⟩, fun _ => ⟨rfl, rfl⟩, by simp⟩

private theorem walked_rateLimited (walk : Walk κ) :
    Walked ⟨[], []⟩ walk (rateLimited request plan walk.flush).1 (rateLimited request plan walk.flush).2 := by
  unfold rateLimited
  split
  · exact ⟨rfl, by simp, Or.inl ⟨rfl, rfl⟩, by simp, by simp⟩
  · exact ⟨rfl, by simp [save, Walk.held, Walk.flush], Or.inr ⟨_, rfl, rfl⟩, by simp, by simp⟩

private theorem walked_raised (walk : Walk κ) : Walked ⟨[], []⟩ walk walk.flush (some .raised) :=
  ⟨rfl, by simp, Or.inl ⟨rfl, rfl⟩, by simp, by simp⟩

/-- A saved page, and what the walk finds behind it. -/
private theorem Walked.behind {first later : Found} {before saved after : Walk κ} {status : Option Status}
    {row : CursorRow κ} (held : saved.held = before.held ++ first.counted)
    (current : saved.repo.cursorRow = some row) (counted : row.txsSeen = saved.seen)
    (seen : saved.seen = before.seen + first.counted.length) (walked : Walked later saved after status) :
    Walked ⟨first.counted ++ later.counted, later.uncounted⟩ before after status := by
  refine ⟨walked.batch, ?_, Or.inr ?_, ?_, walked.incomplete⟩
  · rw [walked.held, held]
    simp only [List.append_assoc]
  · rcases walked.row with ⟨same, none⟩ | ⟨last, saved, total⟩
    · exact ⟨row, same.trans current, by simp [counted, seen, none]⟩
    · refine ⟨last, saved, ?_⟩
      simp only [List.length_append]
      omega
  · intro through
    obtain ⟨total, none⟩ := walked.ended through
    refine ⟨?_, none⟩
    simp only [List.length_append]
    omega

/-- A page that is saved. -/
private theorem Folded.saved {hashes : List String} {walk drained : Walk κ}
    (folded : Folded request hashes walk drained) (cursor : κ) :
    (pageDone request drained.flush cursor).held = walk.held ++ foundOf request hashes ∧
      (pageDone request drained.flush cursor).seen = walk.seen + (foundOf request hashes).length ∧
      (pageDone request drained.flush cursor).repo.cursorRow =
        some ⟨some cursor, walk.seen + (foundOf request hashes).length, false, request.sourceName⟩ := by
  refine ⟨?_, folded.seen, ?_⟩
  · have same : (pageDone request drained.flush cursor).held = drained.held := by
      simp [pageDone, save, Walk.held, Walk.flush]
    rw [same, folded.held]
  · rw [← folded.seen]
    rfl

theorem drainPages_walked (walk : Walk κ) (pages : List (κ × List String)) (batch : walk.batch = [])
    (below : capReached request walk.seen = false) :
    Walked (foundOn request walk.seen pages) walk (drainPages request plan walk pages).1
      (drainPages request plan walk pages).2 := by
  induction pages generalizing walk with
  | nil =>
    simp only [drainPages, foundOn]
    split
    · exact walked_idle batch
    · exact walked_rateLimited walk
    · exact walked_raised walk
  | cons page rest ih =>
    obtain ⟨cursor, hashes⟩ := page
    simp only [drainPages, foundOn]
    have quiet (calm : (pageHashes request walk.seen hashes).any
        (fun txHash => request.fetch txHash = .rateLimited) = false) :
        ∀ txHash ∈ pageHashes request walk.seen hashes, request.fetch txHash ≠ .rateLimited := by
      simpa using calm
    have room := @pageHashes_room _ request walk.seen hashes below
    generalize pageHashes request walk.seen hashes = asked at quiet room ⊢
    by_cases empty : asked.isEmpty = true
    · simp only [empty, true_or, if_true]
      exact walked_idle batch
    · by_cases limited : asked.any (fun txHash => request.fetch txHash = .rateLimited) = true
      · simp only [empty, limited, or_true, if_true, Bool.false_eq_true, if_false]
        exact walked_rateLimited walk
      · have calm := eq_false_of_ne_true limited
        simp only [empty, calm, Bool.false_eq_true, or_self, if_false]
        obtain ⟨failing, raised, folded⟩ | ⟨failing, folded, ⟨reached, ended⟩ | ⟨further, ended⟩⟩ :=
          consumeResults_cases walk asked below room (quiet calm)
        · rw [raised]
          simp only [failing, if_true]
          refine ⟨rfl, ?_, Or.inl ⟨folded.cursorRow, rfl⟩, by simp, by simp⟩
          simpa using folded.held
        · rw [ended]
          simp only [failing, reached, Bool.false_eq_true, if_false, if_true]
          refine ⟨rfl, ?_, Or.inr ⟨_, rfl, folded.seen⟩, by simp, by simp⟩
          have same : ∀ cursor, (save request (consumeResults request walk asked).1.flush cursor false).held =
              (consumeResults request walk asked).1.held := by
            intro cursor
            simp [save, Walk.held, Walk.flush]
          simpa [same] using folded.held
        · obtain ⟨held, seen, row⟩ := folded.saved cursor
          rw [ended]
          simp only [failing, further, Bool.false_eq_true, if_false]
          rw [← seen] at further
          have later := ih _ rfl further
          rw [seen] at later
          exact @Walked.behind _ ⟨foundOf request asked, []⟩ _ walk _ _ _ _ held row seen.symm seen later

theorem drainPages_through (walk : Walk κ) (pages : List (κ × List String))
    (below : capReached request walk.seen = false) :
    (drainPages request plan walk pages).2 = none ↔ throughOn request walk.seen pages = true := by
  have limits (walk : Walk κ) : (rateLimited request plan walk).2 ≠ none := by
    unfold rateLimited
    split
    · exact Option.some_ne_none _
    · exact Option.some_ne_none _
  induction pages generalizing walk with
  | nil =>
    simp only [drainPages, throughOn]
    cases request.ended with
    | served => simp
    | rateLimited => simp [limits]
    | failed => simp
  | cons page rest ih =>
    obtain ⟨cursor, hashes⟩ := page
    simp only [drainPages, throughOn]
    have room := @pageHashes_room _ request walk.seen hashes below
    generalize pageHashes request walk.seen hashes = asked at room ⊢
    by_cases empty : asked.isEmpty = true
    · simp [empty]
    · simp only [empty, Bool.false_eq_true, if_false]
      by_cases limited : asked.any (fun txHash => request.fetch txHash = .rateLimited) = true
      · have cut : asked.any (fun txHash => request.fetch txHash = .rateLimited ∨ request.fetch txHash = .failed) =
            true := by
          obtain ⟨txHash, listed, answer⟩ := List.any_eq_true.mp limited
          exact List.any_eq_true.mpr ⟨txHash, listed, decide_eq_true (Or.inl (of_decide_eq_true answer))⟩
        simp only [limited, cut, if_true]
        exact iff_of_false (limits _) Bool.false_ne_true
      · have quiet : ∀ txHash ∈ asked, request.fetch txHash ≠ .rateLimited := by
          simpa using eq_false_of_ne_true limited
        simp only [limited, Bool.false_eq_true, if_false]
        obtain ⟨failing, raised, -⟩ | ⟨failing, folded, ended⟩ := consumeResults_cases walk asked below room quiet
        · have cut : asked.any (fun txHash => request.fetch txHash = .rateLimited ∨ request.fetch txHash = .failed) =
              true := by
            obtain ⟨txHash, listed, answer⟩ := List.any_eq_true.mp failing
            exact List.any_eq_true.mpr ⟨txHash, listed, decide_eq_true (Or.inr (of_decide_eq_true answer))⟩
          rw [raised, cut, if_pos rfl]
          exact iff_of_false (Option.some_ne_none _) Bool.false_ne_true
        · have calm : asked.any (fun txHash => request.fetch txHash = .rateLimited ∨ request.fetch txHash = .failed) =
              false := by
            rw [List.any_eq_false] at failing ⊢
            intro txHash listed
            simpa [quiet txHash listed] using failing txHash listed
          rw [calm]
          obtain ⟨reached, ended⟩ | ⟨further, ended⟩ := ended
          · rw [ended]
            simp [reached]
          · have seen := (folded.saved cursor).2.1
            have later := ih (pageDone request (consumeResults request walk asked).1.flush cursor)
              (by rw [seen]; exact further)
            rw [ended]
            simpa [seen, further] using later

end

/-! ## One run -/

/-- A count of a set goes up by the length of a list exactly if the list adds that many members. -/
theorem card_union_toFinset_eq_iff (counted : Finset String) (found : List String) :
    (counted ∪ found.toFinset).card = counted.card + found.length ↔
      found.Nodup ∧ ∀ txHash ∈ found, txHash ∉ counted := by
  have shorter := List.toFinset_card_le found
  have shared := Finset.card_union_add_card_inter counted found.toFinset
  constructor
  · intro total
    have length : found.toFinset.card = found.length := by omega
    have disjoint : counted ∩ found.toFinset = ∅ := by
      rw [← Finset.card_eq_zero]
      omega
    refine ⟨List.dedup_eq_self.mp ?_, fun txHash listed already => ?_⟩
    · exact (List.dedup_sublist found).eq_of_length ((List.card_toFinset found).symm.trans length)
    · have inBoth : txHash ∈ counted ∩ found.toFinset := Finset.mem_inter.mpr ⟨already, List.mem_toFinset.mpr listed⟩
      rw [disjoint] at inBoth
      cases inBoth
  · rintro ⟨distinct, fresh⟩
    have disjoint : Disjoint counted found.toFinset := by
      rw [Finset.disjoint_right]
      exact fun txHash listed => fresh txHash (List.mem_toFinset.mp listed)
    rw [Finset.card_union_of_disjoint disjoint, List.toFinset_card_of_nodup distinct]

section
variable {κ : Type u} {request : Request κ} {repo : Repo κ}

/-- A run that is not turned away has room below its cap. -/
private theorem below_of_room {seen : Nat} (room : ¬request.maxTxs.map (· - seen) = some 0) :
    capReached request seen = false := by
  unfold capReached
  cases limited : request.maxTxs with
  | none => rfl
  | some cap =>
    simp only [limited, Option.map_some, Option.some.injEq] at room
    exact decide_eq_false (by omega)

/-- What a run does to the store and to the row. -/
theorem ingest_found (request : Request κ) (repo : Repo κ) :
    (ingest request repo).1.transactions =
        repo.transactions ++ (foundBy request repo).counted ++ (foundBy request repo).uncounted ∧
      ((ingest request repo).2 = .completed → (foundBy request repo).uncounted = [] ∧
        ∃ row, (ingest request repo).1.cursorRow = some row ∧ row.txsSeen =
          if request.fromTip then (ingest request repo).1.countTransactions
          else (planWalk request repo).seen + (foundBy request repo).counted.length) ∧
      ((ingest request repo).2 ≠ .completed →
        ((ingest request repo).1.cursorRow = repo.cursorRow ∧ (foundBy request repo).counted = []) ∨
        ∃ row, (ingest request repo).1.cursorRow = some row ∧
          row.txsSeen = (planWalk request repo).seen + (foundBy request repo).counted.length) := by
  simp only [ingest, foundBy]
  by_cases room : request.maxTxs.map (· - (planWalk request repo).seen) = some 0
  · simp [room]
  · have below : capReached request (planWalk request repo).seen = false := below_of_room room
    simp only [room, if_false]
    have walked := @drainPages_walked κ request (planWalk request repo)
      ⟨repo, [], (planWalk request repo).seen, none⟩ request.pages rfl below
    generalize drainPages request _ _ request.pages = drained at walked ⊢
    obtain ⟨walk, status⟩ := drained
    have stored : walk.repo.transactions = repo.transactions ++
        (foundOn request (planWalk request repo).seen request.pages).counted ++
        (foundOn request (planWalk request repo).seen request.pages).uncounted := by
      have emptied : walk.batch = [] := walked.batch
      simpa [Walk.held, emptied] using walked.held
    cases status with
    | some status =>
      refine ⟨stored, ?_, fun _ => walked.row⟩
      intro completed
      exact absurd (congrArg some completed) walked.incomplete
    | none =>
      obtain ⟨total, whole⟩ := walked.ended rfl
      have emptied : walk.batch = [] := walked.batch
      have flushed : walk.flush.repo.transactions = walk.repo.transactions := by
        simp [Walk.flush, emptied]
      refine ⟨?_, fun _ => ⟨whole, _, rfl, ?_⟩, by simp⟩
      · exact flushed.trans stored
      · simp only [Repo.countTransactions]
        split
        · rfl
        · exact total

/-- A run completes exactly if nothing cuts it short. -/
theorem completed_iff (request : Request κ) (repo : Repo κ) :
    (ingest request repo).2 = .completed ↔ through request repo = true := by
  simp only [ingest, through]
  by_cases room : request.maxTxs.map (· - (planWalk request repo).seen) = some 0
  · simp [room]
  · have below : capReached request (planWalk request repo).seen = false := below_of_room room
    have walked := @drainPages_walked κ request (planWalk request repo)
      ⟨repo, [], (planWalk request repo).seen, none⟩ request.pages rfl below
    have ended := @drainPages_through κ request (planWalk request repo)
      ⟨repo, [], (planWalk request repo).seen, none⟩ request.pages below
    simp only [room, if_false, ne_eq, not_false_eq_true, decide_true, Bool.true_and]
    rw [← ended]
    have incomplete := walked.incomplete
    cases stopped : (drainPages request (planWalk request repo) ⟨repo, [], (planWalk request repo).seen, none⟩
        request.pages).2 with
    | none => simp
    | some status =>
      rw [stopped] at incomplete
      simpa using incomplete

/-! ## Every run -/

theorem countTransactions_eq (repo : Repo κ) : repo.countTransactions = repo.transactions.toFinset.card :=
  (List.card_toFinset repo.transactions).symm

/-- The saved count is the number of the transactions it stands for, all of them stored. -/
structure Honest (chronicle : Chronicle κ) : Prop where
  stored : chronicle.counted ⊆ chronicle.repo.transactions.toFinset
  seen : ∀ row ∈ chronicle.repo.cursorRow, row.txsSeen = chronicle.counted.card

theorem honest_initial : Honest (Chronicle.initial : Chronicle κ) := by
  constructor
  · simp [Chronicle.initial]
  · rintro row ⟨⟩

/-- A run goes on from the number of the transactions that the count it goes on from stands for. -/
theorem Honest.seen_standing {chronicle : Chronicle κ} (honest : Honest chronicle) (request : Request κ) :
    (planWalk request chronicle.repo).seen = (chronicle.standing request).card := by
  unfold planWalk Chronicle.standing
  cases used : usableRow request chronicle.repo with
  | none => rfl
  | some row =>
    have kept := (Option.filter_eq_some_iff.mp used).1
    split at kept
    · exact honest.seen row kept
    · cases kept

theorem Honest.standing_stored {chronicle : Chronicle κ} (honest : Honest chronicle) (request : Request κ) :
    chronicle.standing request ⊆ chronicle.repo.transactions.toFinset := by
  unfold Chronicle.standing
  split
  · exact honest.stored
  · exact Finset.empty_subset _

/-- A run that counts nothing twice leaves an honest count. -/
theorem follow_honest [DecidableEq κ] {chronicle next : Chronicle κ} {request : Request κ}
    (once : CountsOnce chronicle request) (honest : Honest chronicle) (stepped : follow chronicle request = some next) :
    Honest next := by
  obtain rfl := Option.some.inj stepped
  obtain ⟨stored, completion, stop⟩ := ingest_found request chronicle.repo
  have started := honest.seen_standing request
  have grown : chronicle.repo.transactions.toFinset ⊆ (ingest request chronicle.repo).1.transactions.toFinset := by
    rw [stored, List.append_assoc, List.toFinset_append]
    exact Finset.subset_union_left
  by_cases recounts : request.fromTip = true ∧ through request chronicle.repo = true
  · rw [if_pos recounts]
    obtain ⟨_, row, saved, total⟩ := completion ((completed_iff request chronicle.repo).mpr recounts.2)
    refine ⟨Finset.Subset.refl _, ?_⟩
    rintro other same
    obtain rfl : row = other := Option.some.inj (saved.symm.trans same)
    rw [total, if_pos recounts.1, countTransactions_eq]
  · rw [if_neg recounts]
    obtain ⟨distinct, fresh⟩ := once.resolve_left recounts
    split
    · rename_i left
      refine ⟨honest.stored.trans grown, ?_⟩
      intro row same
      rw [left.1] at same
      exact honest.seen row same
    · rename_i moved
      have counted := (card_union_toFinset_eq_iff _ _).mpr ⟨distinct, fresh⟩
      constructor
      · rw [Finset.union_subset_iff]
        refine ⟨(honest.standing_stored request).trans grown, fun txHash listed => ?_⟩
        rw [stored]
        simp [List.mem_toFinset.mp listed]
      · have saved : ∃ row, (ingest request chronicle.repo).1.cursorRow = some row ∧ row.txsSeen =
            (planWalk request chronicle.repo).seen + (foundBy request chronicle.repo).counted.length := by
          by_cases completed : (ingest request chronicle.repo).2 = .completed
          · obtain ⟨_, row, saved, total⟩ := completion completed
            refine ⟨row, saved, total.trans (if_neg fun tip => recounts ⟨tip, ?_⟩)⟩
            exact (completed_iff request chronicle.repo).mp completed
          · exact (stop completed).resolve_left moved
        obtain ⟨row, saved, total⟩ := saved
        rintro other same
        obtain rfl : row = other := Option.some.inj (saved.symm.trans same)
        rw [total, started]
        exact counted.symm

/-- A run over an honest count which finds all that is not counted yet saves the number of stored transactions
exactly if it counts nothing twice. -/
theorem savesTrueCount_iff {chronicle : Chronicle κ} {request : Request κ} (honest : Honest chronicle)
    (all : CountsAll chronicle request) (whole : through request chronicle.repo = true) :
    SavesTrueCount chronicle.repo request ↔ CountsOnce chronicle request := by
  obtain ⟨stored, completion, -⟩ := ingest_found request chronicle.repo
  have completed := (completed_iff request chronicle.repo).mpr whole
  obtain ⟨none_, row, saved, total⟩ := completion completed
  have decides : SavesTrueCount chronicle.repo request ↔
      row.txsSeen = (ingest request chronicle.repo).1.countTransactions := by
    simp [SavesTrueCount, completed, saved]
  rw [decides, total]
  cases tip : request.fromTip with
  | true => simp [CountsOnce, tip, whole]
  | false =>
    have covered : chronicle.standing request ∪ (foundBy request chronicle.repo).counted.toFinset =
        (ingest request chronicle.repo).1.transactions.toFinset := by
      rw [stored, none_, List.append_nil, List.toFinset_append]
      refine Finset.Subset.antisymm (Finset.union_subset_union_left (honest.standing_stored request)) ?_
      rw [Finset.union_subset_iff]
      refine ⟨fun txHash listed => ?_, Finset.subset_union_right⟩
      simpa using all whole tip txHash (List.mem_toFinset.mp listed)
    have once : CountsOnce chronicle request ↔ (foundBy request chronicle.repo).counted.Nodup ∧
        ∀ txHash ∈ (foundBy request chronicle.repo).counted, txHash ∉ chronicle.standing request := by
      simp [CountsOnce, tip]
    rw [once, ← card_union_toFinset_eq_iff, covered, countTransactions_eq, honest.seen_standing request]
    simp only [Bool.false_eq_true, if_false]
    exact eq_comm

/-- Requests are turned away by the row's count. -/
theorem Honest.refusesAtCap {chronicle : Chronicle κ} (honest : Honest chronicle) : RefusesAtCap chronicle.repo := by
  intro request cap limited turnedAway
  have started := honest.seen_standing request
  have within := Finset.card_le_card (honest.standing_stored request)
  rw [limited, Option.map_some, Option.some.injEq] at turnedAway
  rw [countTransactions_eq]
  omega

theorem follow_run [DecidableEq κ] {chronicle last : Chronicle κ} {requests : List (Request κ)}
    (reached : Runs.run follow chronicle requests = some last) :
    Runs.run step chronicle.repo requests = some last.repo := by
  induction requests generalizing chronicle with
  | nil =>
    obtain rfl : chronicle = last := by simpa using reached
    rfl
  | cons request rest ih =>
    obtain ⟨next, stepped, later⟩ := (Runs.run_cons_iff follow).mp reached
    obtain rfl := Option.some.inj stepped
    exact ih later

/-- **The cursor's count is honest where no run counts what is counted.**  In every run of ingests in which each
counts nothing twice, no request is ever turned away short of its cap; where each that gets through without a recount
also finds whatever is stored and not counted yet, each that completes saves the number of stored transactions; and
the next one to do so, then, saves it exactly if it counts nothing twice. -/
theorem cursor_count_honest [DecidableEq κ] (requests : List (Request κ)) (last : Chronicle κ)
    (reached : Runs.run follow Chronicle.initial requests = some last)
    (once : Runs.EveryStep follow CountsOnce Chronicle.initial requests) :
    Runs.run step Repo.initial requests = some last.repo ∧ RefusesAtCap last.repo ∧
      (Runs.EveryStep follow CountsAll Chronicle.initial requests →
        Runs.EveryStep follow (fun chronicle request => SavesTrueCount chronicle.repo request) Chronicle.initial
          requests) ∧
      ∀ request, CountsAll last request → through request last.repo = true →
        (SavesTrueCount last.repo request ↔ CountsOnce last request) := by
  have honest : Honest last :=
    Runs.invariant_of_step follow (fun once honest stepped => follow_honest once honest stepped) honest_initial once
      reached
  refine ⟨follow_run reached, honest.refusesAtCap, fun all => ?_,
    fun request all whole => savesTrueCount_iff honest all whole⟩
  refine Runs.everyStep_of_kept follow (fun both honest stepped => follow_honest both.1 honest stepped) ?_
    honest_initial
    (Runs.everyStep_and follow once all)
  intro chronicle request both honest completed
  have whole := (completed_iff request chronicle.repo).mp completed
  exact (savesTrueCount_iff honest both.2 whole).mpr both.1 completed

end

/-! ## The address listing

The runs over a page-based listing are runs of this ingester.
-/

section Listing
open Ingest (Cursor Setup Stop Source)

/-- What discovery yields from page `page` on, and how it ends. -/
def listingPages (source : Source) (answers : Nat → PageAnswer) (maxItems anchor : Option Nat)
    (page yielded : Nat) : List (List String) → List (Cursor × List String) × PageAnswer
  | [] => ([], answers page)
  | hashes :: rest =>
      match answers page with
      | .rateLimited => ([], .rateLimited)
      | .failed => ([], .failed)
      | .served =>
          if maxItems.any (· ≤ yielded + hashes.length) ∨ hashes.length < source.pageSize then
            ([(⟨page, anchor⟩, hashes)], .served)
          else
            let later := listingPages source answers maxItems anchor (page + 1) (yielded + hashes.length) rest
            ((⟨page, anchor⟩, hashes) :: later.1, later.2)

/-- `tx_hash_pages` for an address. -/
def addressPages (source : Source) (request : Ingest.Request) (listing : List Ingest.ListedTx)
    (repo : Ingest.Repo) : List (Cursor × List String) × PageAnswer :=
  let plan := Ingest.planWalk request repo
  let maxItems := Ingest.discoveryMaxItems request.maxTxs (request.maxTxs.map (· - plan.seen))
    (Ingest.resolveWindow request) plan.mode
  let parsed := Ingest.parseCursor plan.storedCursor
  let first := Ingest.startPage parsed.1 plan.mode
  match Ingest.walkAnchor source request listing plan.mode parsed.1 parsed.2 maxItems with
  | .error .raised => ([], .failed)
  | .error .rateLimited => ([], .rateLimited)
  | .ok anchor =>
      listingPages source request.pages maxItems anchor first 0 (Ingest.walkPages source listing anchor first)

variable (name : String)

/-- The request with its discovery. -/
def requestOf (request : Ingest.Request) (found : List (Cursor × List String) × PageAnswer) : Request Cursor :=
  ⟨name, request.maxTxs, request.resume, request.fromTip, request.batchSize, found.1, found.2, request.fetch⟩

def repoOf (repo : Ingest.Repo) : Repo Cursor :=
  ⟨repo.transactions, repo.cursorRow.map fun row => ⟨row.cursor, row.txsSeen, row.done, name⟩⟩

def walkOf (walk : Ingest.Walk) : Walk Cursor :=
  ⟨repoOf name walk.repo, walk.batch, walk.seen, walk.completedCursor⟩

variable {name} {source : Source} {request : Ingest.Request} {found : List (Cursor × List String) × PageAnswer}

private theorem planWalk_of (repo : Ingest.Repo) :
    planWalk (requestOf name request found) (repoOf name repo) =
      ⟨(Ingest.planWalk request repo).mode, (Ingest.planWalk request repo).storedCursor,
        (Ingest.planWalk request repo).seen⟩ := by
  unfold planWalk Ingest.planWalk usableRow
  cases resumed : request.resume with
  | false => simp [requestOf, resumed]
  | true =>
    cases current : repo.cursorRow with
    | none => simp [requestOf, repoOf, resumed, current]
    | some row => simp [requestOf, repoOf, resumed, current, Option.filter]

private theorem consumeResults_of (walk : Ingest.Walk) (asked : List String) :
    consumeResults (requestOf name request found) (walkOf name walk) asked =
      (walkOf name (Ingest.consumeResults request walk asked).1, (Ingest.consumeResults request walk asked).2) := by
  induction asked generalizing walk with
  | nil => rfl
  | cons txHash rest ih =>
    simp only [consumeResults, Ingest.consumeResults]
    have fetched : (requestOf name request found).fetch = request.fetch := rfl
    rw [fetched]
    cases answer : request.fetch txHash with
    | notFound => exact ih { walk with missing := walk.missing ++ [txHash] }
    | rateLimited => rfl
    | failed => rfl
    | found =>
      generalize grown : (if request.batchSize ≤ (walk.batch ++ [txHash]).length then
        Ingest.Walk.flush { walk with batch := walk.batch ++ [txHash], seen := walk.seen + 1 }
        else { walk with batch := walk.batch ++ [txHash], seen := walk.seen + 1 }) = added
      have same : (if (requestOf name request found).batchSize ≤ ((walkOf name walk).batch ++ [txHash]).length then
          Walk.flush { walkOf name walk with
            batch := (walkOf name walk).batch ++ [txHash], seen := (walkOf name walk).seen + 1 }
          else { walkOf name walk with
            batch := (walkOf name walk).batch ++ [txHash], seen := (walkOf name walk).seen + 1 }) =
          walkOf name added := by
        subst grown
        change (if request.batchSize ≤ (walk.batch ++ [txHash]).length then _ else _) = _
        split <;> rfl
      dsimp only
      rw [same]
      change (if Ingest.capReached request added.seen = true then _ else _) = _
      split
      · rfl
      · exact ih added

section
variable {setup : Setup} {plan : WalkPlan Cursor} (mode : plan.mode = setup.mode)
  (stored : plan.storedCursor = setup.storedCursor)
include mode stored

private theorem rateLimited_of (walk : Ingest.Walk) :
    rateLimited (requestOf name request found) plan (walkOf name walk) =
      (walkOf name (Ingest.rateLimited setup walk).1, (Ingest.rateLimited setup walk).2) := by
  have cursor : interrupted plan (walkOf name walk) = Ingest.interrupted setup walk := by
    unfold interrupted Ingest.interrupted
    rw [mode, stored]
    cases finished : walk.completedCursor with
    | some cursor => simp [walkOf, finished]
    | none => cases setup.mode <;> simp [walkOf, finished]
  unfold rateLimited Ingest.rateLimited
  rw [cursor]
  cases Ingest.interrupted setup walk with
  | none => rfl
  | some saved => rfl

private theorem drainPages_of (page yielded : Nat) (walk : Ingest.Walk) (pages : List (List String))
    (ended : found.2 =
      (listingPages source request.pages setup.maxItems setup.anchor page yielded pages).2) :
    drainPages (requestOf name request found) plan (walkOf name walk)
        (listingPages source request.pages setup.maxItems setup.anchor page yielded pages).1 =
      (walkOf name (Ingest.drainPages request setup source page yielded walk pages).1,
        (Ingest.drainPages request setup source page yielded walk pages).2) := by
  have stop : (requestOf name request found).ended = found.2 := rfl
  have fetched : (requestOf name request found).fetch = request.fetch := rfl
  have limit (walk : Ingest.Walk) := @rateLimited_of name request found setup plan mode stored walk.flush
  induction pages generalizing page yielded walk with
  | nil =>
    simp only [listingPages] at ended
    simp only [listingPages, drainPages, Ingest.drainPages, stop, ended]
    cases request.pages page with
    | served => rfl
    | rateLimited => exact limit walk
    | failed => rfl
  | cons hashes rest ih =>
    simp only [listingPages] at ended ⊢
    simp only [Ingest.drainPages]
    cases answer : request.pages page with
    | rateLimited =>
      simp only [answer] at ended
      simp only [drainPages, stop, ended]
      exact limit walk
    | failed =>
      simp only [answer] at ended
      simp only [drainPages, stop, ended]
      rfl
    | served =>
      simp only [answer] at ended
      have split : (if setup.maxItems.any (· ≤ yielded + hashes.length) = true ∨ hashes.length < source.pageSize then
            ([((⟨page, setup.anchor⟩ : Cursor), hashes)], PageAnswer.served)
          else (((⟨page, setup.anchor⟩ : Cursor), hashes) ::
              (listingPages source request.pages setup.maxItems setup.anchor (page + 1)
                (yielded + hashes.length) rest).1,
            (listingPages source request.pages setup.maxItems setup.anchor (page + 1)
              (yielded + hashes.length) rest).2)).1 =
          (⟨page, setup.anchor⟩, hashes) ::
            if setup.maxItems.any (· ≤ yielded + hashes.length) = true ∨ hashes.length < source.pageSize then []
            else (listingPages source request.pages setup.maxItems setup.anchor (page + 1)
              (yielded + hashes.length) rest).1 := by
        split <;> rfl
      have asked : pageHashes (requestOf name request found) (walkOf name walk).seen hashes =
          Ingest.pageHashes request walk.seen hashes := rfl
      rw [split]
      simp only [drainPages, asked, fetched, consumeResults_of]
      generalize Ingest.pageHashes request walk.seen hashes = asked
      by_cases empty : asked.isEmpty = true
      · simp only [empty, if_true]
      · simp only [empty, Bool.false_eq_true, if_false]
        by_cases limited : asked.any (fun txHash => request.fetch txHash = .rateLimited) = true
        · simp only [limited, if_true]
          exact limit walk
        · simp only [limited, Bool.false_eq_true, if_false]
          cases (Ingest.consumeResults request walk asked).2 with
          | raised => rfl
          | maxReached => rfl
          | through =>
            dsimp only
            by_cases stops : setup.maxItems.any (· ≤ yielded + hashes.length) = true ∨ hashes.length < source.pageSize
            · simp only [stops, if_true] at ended ⊢
              simp only [drainPages, stop, ended]
              rfl
            · simp only [stops, if_false] at ended ⊢
              exact ih (page + 1) (yielded + hashes.length)
                ((Ingest.consumeResults request walk asked).1.flush.pageDone ⟨page, setup.anchor⟩) ended

end

/-- A run over the listing is the run of the ingester on the pages of the listing. -/
theorem ingest_listing (name : String) (source : Source) (request : Ingest.Request)
    (listing : List Ingest.ListedTx) (repo : Ingest.Repo) (missing : List String) :
    ingest (requestOf name request (addressPages source request listing repo)) (repoOf name repo) =
      (repoOf name (Ingest.ingest source request listing repo missing).repo,
        (Ingest.ingest source request listing repo missing).status) := by
  simp only [ingest, Ingest.ingest, planWalk_of]
  have cap : (requestOf name request (addressPages source request listing repo)).maxTxs = request.maxTxs := rfl
  rw [cap]
  split
  · rfl
  · have opening : (⟨repoOf name repo, [], (Ingest.planWalk request repo).seen, none⟩ : Walk Cursor) =
        walkOf name ⟨repo, [], (Ingest.planWalk request repo).seen, none, missing⟩ := rfl
    rw [opening]
    generalize shape : addressPages source request listing repo = found
    have yielded : (requestOf name request found).pages = found.1 := rfl
    have ended : (requestOf name request found).ended = found.2 := rfl
    rw [yielded]
    simp only [addressPages] at shape
    generalize Ingest.discoveryMaxItems request.maxTxs
      (request.maxTxs.map (· - (Ingest.planWalk request repo).seen)) (Ingest.resolveWindow request)
      (Ingest.planWalk request repo).mode = maxItems at shape ⊢
    generalize Ingest.walkAnchor source request listing (Ingest.planWalk request repo).mode
      (Ingest.parseCursor (Ingest.planWalk request repo).storedCursor).1
      (Ingest.parseCursor (Ingest.planWalk request repo).storedCursor).2 maxItems = anchored at shape ⊢
    cases anchored with
    | error stopped =>
      cases stopped with
      | raised =>
        subst shape
        simp only [drainPages, ended]
        simp [walkOf, repoOf, Walk.flush]
      | rateLimited =>
        subst shape
        simp only [drainPages, ended]
        have flushed : (walkOf name ⟨repo, [], (Ingest.planWalk request repo).seen, none, missing⟩).flush =
            walkOf name ⟨repo, [], (Ingest.planWalk request repo).seen, none, missing⟩ := by
          simp [walkOf, repoOf, Walk.flush]
        rw [flushed, @rateLimited_of _ _ _ ⟨(Ingest.planWalk request repo).mode,
          (Ingest.planWalk request repo).storedCursor, maxItems, none⟩ _ rfl rfl]
        have status (setup : Setup) (walk : Ingest.Walk) :
            (Ingest.rateLimited setup walk).2 = some .rateLimited := by
          unfold Ingest.rateLimited
          split <;> rfl
        rw [status]
        rfl
    | ok anchor =>
      dsimp only at shape ⊢
      have through := @drainPages_of name source request found ⟨(Ingest.planWalk request repo).mode,
        (Ingest.planWalk request repo).storedCursor, maxItems, anchor⟩
        ⟨(Ingest.planWalk request repo).mode, (Ingest.planWalk request repo).storedCursor,
          (Ingest.planWalk request repo).seen⟩ rfl rfl
        (Ingest.startPage (Ingest.parseCursor (Ingest.planWalk request repo).storedCursor).1
          (Ingest.planWalk request repo).mode) 0
        ⟨repo, [], (Ingest.planWalk request repo).seen, none, missing⟩
        (Ingest.walkPages source listing anchor
          (Ingest.startPage (Ingest.parseCursor (Ingest.planWalk request repo).storedCursor).1
            (Ingest.planWalk request repo).mode)) (by rw [← shape])
      rw [← shape] at through ⊢
      rw [through]
      dsimp only
      generalize Ingest.drainPages request _ source _ 0 _ _ = drained
      obtain ⟨walk, status⟩ := drained
      cases status with
      | some status => rfl
      | none => rfl

end Listing

/-! ## Starting over -/

private def untilEnd (fromTip : Bool) (pages : List (Nat × List String)) : Request Nat :=
  ⟨"blockfrost", none, true, fromTip, 100, pages, .served, fun _ => .found⟩

private def twoPages : List (Nat × List String) := [(1, ["a", "b", "c"]), (2, ["d"])]

/-- A first walk, and a look from the tip, which finds the last page grown. -/
theorem a_walk_and_a_look_from_the_tip :
    Runs.EveryStep follow (fun chronicle request => SavesTrueCount chronicle.repo request) Chronicle.initial
      [untilEnd false twoPages, untilEnd true [(2, ["d", "e"])]] :=
  (cursor_count_honest _ _ rfl (by decide)).2.2.1 (by decide)

/-- A walk to the end, and one that starts over. -/
private def walkedTwice : List (Request Nat) := [untilEnd false twoPages, untilEnd false twoPages]

/-- The second walk finds the four transactions again and counts to eight; a request for five
is then turned away. -/
theorem restart_counts_again :
    (¬ ∀ requests : List (Request Nat), Runs.EveryStep step SavesTrueCount Repo.initial requests) ∧
    ¬ ∀ (requests : List (Request Nat)) (repo : Repo Nat),
      Runs.run step Repo.initial requests = some repo → RefusesAtCap repo := by
  constructor
  · intro honest
    obtain ⟨row, saved, total⟩ := ((honest walkedTwice).2 _ rfl).1 (by decide)
    have eight : row = ⟨some 2, 8, true, "blockfrost"⟩ := Option.some.inj (saved.symm.trans (by decide))
    rw [eight] at total
    revert total
    decide
  · intro refuses
    have within := refuses walkedTwice _ rfl { untilEnd false [] with maxTxs := some 5 } 5 rfl (by decide)
    revert within
    decide

end TransactionMonitoring.CursorCount
