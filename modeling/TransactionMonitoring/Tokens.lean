import Mathlib.Data.List.Nodup
import TransactionMonitoring.Runs

/-! Magic-link tokens.

Issuing deletes the outstanding tokens of a user and purpose and inserts a new one, two
statements of one transaction that each see what was committed before them; redeeming is one
atomic update.  The history, newest first, records the commits and the redemptions.
-/
namespace TransactionMonitoring.Tokens

inductive Purpose where
  | invite
  | login
deriving DecidableEq, Repr

structure Settings where
  ttlMinutes : Nat
  maxRedemptions : Int
deriving DecidableEq, Repr

/-- `user_id` and `purpose`. -/
structure Key where
  user : Nat
  purpose : Purpose
deriving DecidableEq, Repr

/-- A row of `magic_link_tokens`, and the call that issued it. -/
structure Row where
  issue : Nat
  tokenHash : String
  key : Key
  expiresAt : Nat
  consumedAt : Option Nat
  redemptionsRemaining : Int
deriving DecidableEq, Repr

/-- `consumed_at IS NULL`. -/
def Row.Outstanding (row : Row) : Prop := row.consumedAt = none

instance (row : Row) : Decidable row.Outstanding := inferInstanceAs (Decidable (row.consumedAt = none))

/-- The `WHERE` of `consume_token`. -/
def Row.Redeemable (row : Row) (tokenHash : String) (expected : Option Purpose) (now : Nat) : Prop :=
  row.tokenHash = tokenHash ∧ (∀ purpose ∈ expected, row.key.purpose = purpose) ∧ row.Outstanding ∧
    now < row.expiresAt ∧ 0 < row.redemptionsRemaining

instance (row : Row) (tokenHash : String) (expected : Option Purpose) (now : Nat) :
    Decidable (row.Redeemable tokenHash expected now) :=
  inferInstanceAs (Decidable (_ ∧ (∀ purpose ∈ expected, row.key.purpose = purpose) ∧ _ ∧ _ ∧ _))

/-- The `WHERE` of `purge_expired_tokens`. -/
def Row.Expired (row : Row) (now : Nat) : Prop := row.expiresAt < now ∨ ¬ row.Outstanding

instance (row : Row) (now : Nat) : Decidable (row.Expired now) :=
  inferInstanceAs (Decidable (row.expiresAt < now ∨ ¬ row.Outstanding))

/-- The `SET` of `consume_token`. -/
def Row.redeem (row : Row) (now : Nat) : Row :=
  { row with
    redemptionsRemaining := row.redemptionsRemaining - 1
    consumedAt := if row.redemptionsRemaining - 1 ≤ 0 then some now else row.consumedAt }

/-- Where an `issue_token` call stands.  A statement sees the rows of its snapshot; the rows it
deleted stay locked until the transaction ends. -/
inductive Phase where
  | begun
  /-- The `DELETE` has its snapshot and may wait for rows that other calls hold. -/
  | deleting (snapshot : List Nat)
  | deleted (snapshot locks : List Nat)
  | inserted (snapshot locks : List Nat)
  | committed
  | aborted
deriving DecidableEq, Repr

def Phase.snapshot : Phase → List Nat
  | .deleting snapshot | .deleted snapshot _ | .inserted snapshot _ => snapshot
  | .begun | .committed | .aborted => []

def Phase.locks : Phase → List Nat
  | .deleted _ locks | .inserted _ locks => locks
  | .begun | .deleting _ | .committed | .aborted => []

/-- The transaction has not ended. -/
def Phase.Open : Phase → Prop
  | .committed | .aborted => False
  | .begun | .deleting _ | .deleted _ _ | .inserted _ _ => True

instance : (phase : Phase) → Decidable phase.Open
  | .committed | .aborted => isFalse id
  | .begun | .deleting _ | .deleted _ _ | .inserted _ _ => isTrue trivial

/-- One call of `issue_token`, with what it stores. -/
structure Issue where
  tokenHash : String
  key : Key
  expiresAt : Nat
  budget : Int
  phase : Phase
deriving DecidableEq, Repr

/-- What a committed call has granted. -/
structure Grant where
  issue : Nat
  expiresAt : Nat
  budget : Int
deriving DecidableEq, Repr

inductive Record where
  | issued (key : Key) (grant : Grant)
  | redeemed (key : Key) (issue now : Nat)
deriving DecidableEq, Repr

structure State where
  /-- The committed rows. -/
  rows : List Row
  issues : List Issue
  history : List Record
deriving DecidableEq, Repr

def empty : State := ⟨[], [], []⟩

inductive Event where
  | begin (token : String) (key : Key) (now : Nat) (settings : Settings)
  | startDelete (issue : Nat)
  | finishDelete (issue : Nat)
  | insert (issue : Nat)
  | commit (issue : Nat)
  | abort (issue : Nat)
  /-- `consume_token`. -/
  | consume (token : String) (expected : Option Purpose) (now : Nat)
  | purgeExpiredTokens (now : Nat)
deriving DecidableEq, Repr

def State.move (state : State) (index : Nat) (issue : Issue) (phase : Phase) : State :=
  { state with issues := state.issues.set index { issue with phase } }

/-- An open transaction has deleted the row. -/
def State.Locked (state : State) (row : Row) : Prop := ∃ issue ∈ state.issues, row.issue ∈ issue.phase.locks

instance (state : State) (row : Row) : Decidable (state.Locked row) :=
  inferInstanceAs (Decidable (∃ issue ∈ state.issues, row.issue ∈ issue.phase.locks))

/-- The rows the `WHERE` of the `DELETE` finds. -/
def outstanding (rows : List Row) (key : Key) : List Row :=
  rows.filter fun row => row.key = key ∧ row.Outstanding

/-- The row is inserted and not committed. -/
def Phase.Inserted : Phase → Prop
  | .inserted _ _ => True
  | .begun | .deleting _ | .deleted _ _ | .committed | .aborted => False

instance : (phase : Phase) → Decidable phase.Inserted
  | .inserted _ _ => isTrue trivial
  | .begun | .deleting _ | .deleted _ _ | .committed | .aborted => isFalse id

/-- An open transaction has inserted this token. -/
def State.Pending (state : State) (tokenHash : String) : Prop :=
  ∃ issue ∈ state.issues, issue.tokenHash = tokenHash ∧ issue.phase.Inserted

instance (state : State) (tokenHash : String) : Decidable (state.Pending tokenHash) :=
  inferInstanceAs (Decidable (∃ issue ∈ state.issues, issue.tokenHash = tokenHash ∧ issue.phase.Inserted))

/-- The row a call inserts. -/
def Issue.row (issue : Issue) (index : Nat) : Row where
  issue := index
  tokenHash := issue.tokenHash
  key := issue.key
  expiresAt := issue.expiresAt
  consumedAt := none
  redemptionsRemaining := issue.budget

/-- The state a commit leaves. -/
def State.commit (state : State) (index : Nat) (issue : Issue) (locks : List Nat) : State :=
  { state.move index issue .committed with
    rows := state.rows.filter (·.issue ∉ locks) ++ [issue.row index]
    history := .issued issue.key ⟨index, issue.expiresAt, issue.budget⟩ :: state.history }

/-- What redeeming these rows adds to the history. -/
def redeemedAt (now : Nat) (rows : List Row) : List Record := rows.map fun row => .redeemed row.key row.issue now

/-- The rows the `WHERE` of `consume_token` finds. -/
def redeemable (rows : List Row) (tokenHash : String) (expected : Option Purpose) (now : Nat) : List Row :=
  rows.filter fun row => row.Redeemable tokenHash expected now

/-- The state a redemption leaves. -/
def State.redeem (state : State) (tokenHash : String) (expected : Option Purpose) (now : Nat) : State :=
  { state with
    rows := state.rows.map fun row => if row.Redeemable tokenHash expected now then row.redeem now else row
    history := redeemedAt now (redeemable state.rows tokenHash expected now) ++ state.history }

section Calls
variable (hashToken : String → String)

/-- `issue_token` up to its transaction. -/
def issueToken (token : String) (key : Key) (now : Nat) (settings : Settings) : Issue where
  tokenHash := hashToken token
  key
  expiresAt := now + 60 * settings.ttlMinutes
  budget := settings.maxRedemptions
  phase := .begun

def step (state : State) : Event → Option State
  | .begin token key now settings =>
      some { state with issues := state.issues ++ [issueToken hashToken token key now settings] }
  | .startDelete index => do
      let issue ← state.issues[index]?
      match issue.phase with
      | .begun => some (state.move index issue (.deleting ((outstanding state.rows issue.key).map Row.issue)))
      | _ => none
  | .finishDelete index => do
      let issue ← state.issues[index]?
      match issue.phase with
      | .deleting snapshot =>
          -- After the wait the rows of the snapshot are read again.
          let found := (outstanding state.rows issue.key).filter (·.issue ∈ snapshot)
          if ∃ row ∈ found, state.Locked row then none
          else some (state.move index issue (.deleted snapshot (found.map Row.issue)))
      | _ => none
  | .insert index => do
      let issue ← state.issues[index]?
      match issue.phase with
      | .deleted snapshot locks =>
          let same := state.rows.filter fun row => row.tokenHash = issue.tokenHash ∧ row.issue ∉ locks
          if state.Pending issue.tokenHash ∨ ∃ row ∈ same, state.Locked row then none
          -- The primary key refuses the row.
          else if same ≠ [] then some (state.move index issue .aborted)
          else some (state.move index issue (.inserted snapshot locks))
      | _ => none
  | .commit index => do
      let issue ← state.issues[index]?
      match issue.phase with
      | .inserted _ locks => some (state.commit index issue locks)
      | _ => none
  | .abort index => do
      let issue ← state.issues[index]?
      if issue.phase.Open then some (state.move index issue .aborted) else none
  | .consume token expected now =>
      if ∃ row ∈ redeemable state.rows (hashToken token) expected now, state.Locked row then none
      else some (state.redeem (hashToken token) expected now)
  | .purgeExpiredTokens now =>
      if ∃ row ∈ state.rows, row.Expired now ∧ state.Locked row then none
      else some { state with rows := state.rows.filter fun row => ¬ row.Expired now }

end Calls

/-! ## What the history allows -/

def grants : List Record → List (Key × Grant)
  | [] => []
  | .issued key grant :: earlier => (key, grant) :: grants earlier
  | .redeemed _ _ _ :: earlier => grants earlier

def issuedIds (history : List Record) : List Nat := (grants history).map (·.2.issue)

/-- The last committed token of a user and purpose. -/
def current (key : Key) (history : List Record) : Option Grant :=
  ((grants history).find? (·.1 = key)).map (·.2)

/-- How often the token of a call was redeemed. -/
def redemptions (issue : Nat) : List Record → Nat
  | [] => 0
  | .issued _ _ :: earlier => redemptions issue earlier
  | .redeemed _ redeemed _ :: earlier => redemptions issue earlier + if redeemed = issue then 1 else 0

/-- The token is the last one committed, is not expired and has redemptions left. -/
def Allowed (history : List Record) (key : Key) (issue now : Nat) : Prop :=
  ∃ grant ∈ current key history,
    grant.issue = issue ∧ now < grant.expiresAt ∧ (redemptions issue history : Int) < grant.budget

instance (history : List Record) (key : Key) (issue now : Nat) : Decidable (Allowed history key issue now) :=
  inferInstanceAs (Decidable (∃ grant ∈ current key history, _ ∧ _ ∧ (redemptions issue history : Int) < _))

/-- Every redemption was allowed when it happened. -/
def Honoured : List Record → Prop
  | [] => True
  | .issued _ _ :: earlier => Honoured earlier
  | .redeemed key issue now :: earlier => Allowed earlier key issue now ∧ Honoured earlier

instance decidableHonoured : (history : List Record) → Decidable (Honoured history)
  | [] => isTrue trivial
  | .issued _ _ :: earlier => decidableHonoured earlier
  | .redeemed _ _ _ :: earlier =>
      have := decidableHonoured earlier
      inferInstanceAs (Decidable (_ ∧ _))

/-- No token was redeemed more often than the budget stored with it. -/
def WithinBudget (history : List Record) : Prop :=
  ∀ granted ∈ grants history, (redemptions granted.2.issue history : Int) ≤ max granted.2.budget 0

/-- At most one unconsumed token per user and purpose. -/
def OneOutstanding (rows : List Row) : Prop :=
  rows.Pairwise fun row other => ¬ (row.Outstanding ∧ other.Outstanding ∧ row.key = other.key)

instance (rows : List Row) : Decidable (OneOutstanding rows) :=
  inferInstanceAs (Decidable (rows.Pairwise fun row other =>
    ¬ (row.Outstanding ∧ other.Outstanding ∧ row.key = other.key)))

@[simp] theorem mem_outstanding {rows : List Row} {key : Key} {row : Row} :
    row ∈ outstanding rows key ↔ row ∈ rows ∧ row.key = key ∧ row.Outstanding := by
  simp [outstanding]

theorem current_issued (key granted : Key) (grant : Grant) (earlier : List Record) :
    current key (.issued granted grant :: earlier) = if granted = key then some grant else current key earlier := by
  by_cases same : granted = key
  · simp [current, grants, same]
  · simp [current, grants, same]

theorem mem_grants_of_current {key : Key} {history : List Record} {grant : Grant}
    (last : current key history = some grant) : (key, grant) ∈ grants history := by
  obtain ⟨⟨granted, found⟩, first, rfl⟩ := Option.map_eq_some_iff.mp last
  obtain rfl : granted = key := by simpa using List.find?_some first
  exact List.mem_of_find?_eq_some first

theorem mem_issuedIds_of_current {key : Key} {history : List Record} {grant : Grant}
    (last : current key history = some grant) : grant.issue ∈ issuedIds history :=
  List.mem_map.mpr ⟨(key, grant), mem_grants_of_current last, rfl⟩

/-- A token that was not issued was not redeemed. -/
theorem redemptions_eq_zero {history : List Record} (honoured : Honoured history) {issue : Nat}
    (unissued : issue ∉ issuedIds history) : redemptions issue history = 0 := by
  induction history with
  | nil => rfl
  | cons record earlier ih =>
    cases record with
    | issued key grant =>
      apply ih honoured
      intro member
      exact unissued (List.mem_cons_of_mem _ member)
    | redeemed key redeemed now =>
      obtain ⟨⟨grant, last, same, _, _⟩, before⟩ := honoured
      have other : redeemed ≠ issue := by
        rintro rfl
        exact unissued (same ▸ mem_issuedIds_of_current last)
      simp [redemptions, other, ih before unissued]

theorem withinBudget_of_honoured {history : List Record} (honoured : Honoured history)
    (once : (issuedIds history).Nodup) : WithinBudget history := by
  induction history with
  | nil => simp [WithinBudget, grants]
  | cons record earlier ih =>
    intro granted member
    cases record with
    | issued key grant =>
      obtain ⟨fresh, distinct⟩ := List.nodup_cons.mp once
      rcases List.mem_cons.mp member with rfl | before
      · have none := @redemptions_eq_zero earlier honoured _ fresh
        simp only [redemptions, none]
        omega
      · exact ih honoured distinct granted before
    | redeemed key redeemed now =>
      obtain ⟨⟨grant, last, same, _, left⟩, before⟩ := honoured
      have earlierBudget := ih before once granted member
      by_cases chosen : redeemed = granted.2.issue
      · have one : granted = (key, grant) :=
          List.inj_on_of_nodup_map once member (mem_grants_of_current last) (chosen.symm.trans same.symm)
        obtain rfl := one
        simp only [redemptions, chosen, ↓reduceIte] at left ⊢
        omega
      · simpa [redemptions, chosen] using earlierBudget

/-! ## Issuing and redeeming keep this -/

/-- A call past its `DELETE` holds every outstanding row of its snapshot. -/
def Issue.Caught (issue : Issue) (rows : List Row) : Prop :=
  match issue.phase with
  | .deleted snapshot locks | .inserted snapshot locks =>
      (∀ id ∈ locks, id ∈ snapshot) ∧
        ∀ row ∈ outstanding rows issue.key, row.issue ∈ snapshot → row.issue ∈ locks
  | .begun | .deleting _ | .committed | .aborted => True

/-- An outstanding row is the last token committed for its user and purpose, with what is left
of its budget. -/
def Row.Backed (row : Row) (history : List Record) : Prop :=
  ∃ grant, current row.key history = some grant ∧ grant.issue = row.issue ∧ grant.expiresAt = row.expiresAt ∧
    redemptions row.issue history + row.redemptionsRemaining = grant.budget

structure Kept (state : State) : Prop where
  committed : ∀ id ∈ issuedIds state.history, ∃ issue, state.issues[id]? = some issue ∧ issue.phase = .committed
  once : (issuedIds state.history).Nodup
  rows : (state.rows.map Row.issue).Nodup
  known : ∀ row ∈ state.rows, row.issue ∈ issuedIds state.history
  backed : ∀ row ∈ state.rows, row.Outstanding → row.Backed state.history
  seen : ∀ issue ∈ state.issues, ∀ id ∈ issue.phase.snapshot, id ∈ issuedIds state.history
  caught : ∀ issue ∈ state.issues, issue.Caught state.rows
  honoured : Honoured state.history

theorem Kept.oneOutstanding {state : State} (kept : Kept state) : OneOutstanding state.rows := by
  refine List.Pairwise.imp_of_mem ?_ (List.pairwise_map.mp kept.rows)
  rintro row other member found different ⟨live, alive, same⟩
  obtain ⟨grant, last, issued, _⟩ := kept.backed row member live
  obtain ⟨_, final, given, _⟩ := kept.backed other found alive
  rw [← same, last] at final
  cases final
  exact different (issued.symm.trans given)

/-- A call that has not committed has issued nothing. -/
theorem Kept.unissued {state : State} (kept : Kept state) {index : Nat} {issue : Issue}
    (found : state.issues[index]? = some issue) (uncommitted : issue.phase ≠ .committed) :
    index ∉ issuedIds state.history := by
  intro member
  obtain ⟨other, same, committed⟩ := kept.committed index member
  obtain rfl := Option.some.inj (found.symm.trans same)
  exact uncommitted committed

theorem Kept.move {state : State} (kept : Kept state) {index : Nat} {issue : Issue}
    (found : state.issues[index]? = some issue) (uncommitted : issue.phase ≠ .committed) {phase : Phase}
    (seen : ∀ id ∈ phase.snapshot, id ∈ issuedIds state.history)
    (caught : Issue.Caught { issue with phase } state.rows) : Kept (state.move index issue phase) where
  committed := by
    intro id member
    obtain ⟨other, same, committed⟩ := kept.committed id member
    refine ⟨other, ?_, committed⟩
    have apart : index ≠ id := by
      rintro rfl
      exact kept.unissued found uncommitted member
    exact (List.getElem?_set_ne apart).trans same
  once := kept.once
  rows := kept.rows
  known := kept.known
  backed := kept.backed
  seen := Runs.forall_mem_set kept.seen seen index
  caught := Runs.forall_mem_set kept.caught caught index
  honoured := kept.honoured

theorem Issue.Caught.of_outstanding {issue : Issue} {rows next : List Row} (caught : issue.Caught rows)
    (earlier : ∀ row ∈ outstanding next issue.key, row.issue ∈ issue.phase.snapshot →
      ∃ before ∈ outstanding rows issue.key, before.issue = row.issue) : issue.Caught next := by
  unfold Issue.Caught at caught ⊢
  split at caught
  all_goals rename_i phase
  all_goals simp only [phase, Phase.snapshot] at earlier ⊢
  all_goals
    refine ⟨caught.1, ?_⟩
    intro row member visible
    obtain ⟨before, present, same⟩ := earlier row member visible
    exact same ▸ caught.2 before present (same ▸ visible)

/-- At its commit a call has seen every outstanding row of its user and purpose. -/
def Issue.Lone (issue : Issue) (rows : List Row) : Prop :=
  match issue.phase with
  | .inserted snapshot _ => ∀ row ∈ outstanding rows issue.key, row.issue ∈ snapshot
  | .begun | .deleting _ | .deleted _ _ | .committed | .aborted => True

instance (issue : Issue) (rows : List Row) : Decidable (issue.Lone rows) :=
  match phase : issue.phase with
  | .inserted snapshot _ =>
      decidable_of_iff (∀ row ∈ outstanding rows issue.key, row.issue ∈ snapshot) (by simp [Issue.Lone, phase])
  | .begun | .deleting _ | .deleted _ _ | .committed | .aborted => isTrue (by simp [Issue.Lone, phase])

/-- No token is outstanding at a commit that was committed after the call's `DELETE` began. -/
def CommitsAlone (state : State) : Event → Prop
  | .commit index => ∀ issue ∈ state.issues[index]?, issue.Lone state.rows
  | .begin _ _ _ _ | .startDelete _ | .finishDelete _ | .insert _ | .abort _ | .consume _ _ _
  | .purgeExpiredTokens _ => True

instance (state : State) : (event : Event) → Decidable (CommitsAlone state event)
  | .commit index => inferInstanceAs (Decidable (∀ issue ∈ state.issues[index]?, issue.Lone state.rows))
  | .begin _ _ _ _ | .startDelete _ | .finishDelete _ | .insert _ | .abort _ | .consume _ _ _
  | .purgeExpiredTokens _ => isTrue trivial

theorem Row.Backed.issued {row : Row} {history : List Record} (backed : row.Backed history) {key : Key} {grant : Grant}
    (other : row.key ≠ key) : row.Backed (.issued key grant :: history) := by
  obtain ⟨held, last, facts⟩ := backed
  refine ⟨held, ?_, facts⟩
  rw [current_issued, if_neg (Ne.symm other)]
  exact last

theorem Kept.commit {state : State} (kept : Kept state) {index : Nat} {issue : Issue} {snapshot locks : List Nat}
    (found : state.issues[index]? = some issue) (phase : issue.phase = .inserted snapshot locks)
    (lone : issue.Lone state.rows) : Kept (state.commit index issue locks) := by
  have fresh : index ∉ issuedIds state.history := kept.unissued found (by simp [phase])
  have caught := kept.caught issue (List.mem_of_getElem? found)
  simp only [Issue.Caught, phase] at caught
  simp only [Issue.Lone, phase] at lone
  have unseen : ∀ {row}, row ∈ state.rows → row.issue ≠ index := by
    rintro row member rfl
    exact fresh (kept.known row member)
  refine ⟨?_, ?_, ?_, ?_, ?_, ?_, ?_, kept.honoured⟩
  · intro id member
    rcases List.mem_cons.mp member with rfl | earlier
    · obtain ⟨within, _⟩ := List.getElem?_eq_some_iff.mp found
      exact ⟨_, List.getElem?_set_self within, rfl⟩
    · obtain ⟨other, same, committed⟩ := kept.committed id earlier
      have apart : index ≠ id := by
        rintro rfl
        exact fresh earlier
      exact ⟨other, (List.getElem?_set_ne apart).trans same, committed⟩
  · exact List.nodup_cons.mpr ⟨fresh, kept.once⟩
  · simp only [State.commit, List.map_append, List.map_cons, List.map_nil, Issue.row]
    refine List.Nodup.append (kept.rows.sublist (List.filter_sublist.map Row.issue)) (List.nodup_singleton _) ?_
    intro id earlier new
    obtain rfl := List.mem_singleton.mp new
    obtain ⟨row, member, same⟩ := List.mem_map.mp earlier
    exact unseen (List.mem_filter.mp member).1 same
  · refine Runs.forall_mem_concat ?_ (List.mem_cons_self ..)
    intro row member
    exact List.mem_cons_of_mem _ (kept.known row (List.mem_filter.mp member).1)
  · refine Runs.forall_mem_concat ?_ ?_
    · intro row member live
      obtain ⟨present, held⟩ := List.mem_filter.mp member
      apply (kept.backed row present live).issued
      -- A row of the same user and purpose was caught by the `DELETE`.
      intro same
      have visible := lone row (mem_outstanding.mpr ⟨present, same, live⟩)
      have deleted := caught.2 row (mem_outstanding.mpr ⟨present, same, live⟩) visible
      exact (of_decide_eq_true held) deleted
    · intro _
      refine ⟨⟨index, issue.expiresAt, issue.budget⟩, ?_, rfl, rfl, ?_⟩
      · exact (current_issued ..).trans (if_pos rfl)
      · have none := redemptions_eq_zero kept.honoured fresh
        simp [State.commit, Issue.row, redemptions, none]
  · refine Runs.forall_mem_set ?_ ?_ index
    · intro other member id visible
      exact List.mem_cons_of_mem _ (kept.seen other member id visible)
    · intro id visible
      cases visible
  · refine Runs.forall_mem_set ?_ trivial index
    intro other member
    apply (kept.caught other member).of_outstanding
    intro row survives visible
    obtain ⟨present, same, live⟩ := mem_outstanding.mp survives
    rcases List.mem_append.mp present with before | new
    · exact ⟨row, mem_outstanding.mpr ⟨(List.mem_filter.mp before).1, same, live⟩, rfl⟩
    · obtain rfl := List.mem_singleton.mp new
      exact absurd (kept.seen other member index visible) fresh

@[simp] theorem grants_redeemedAt (now : Nat) (rows : List Row) (history : List Record) :
    grants (redeemedAt now rows ++ history) = grants history := by
  induction rows with
  | nil => rfl
  | cons row rest ih => exact ih

@[simp] theorem redemptions_redeemedAt (issue now : Nat) (rows : List Row) (history : List Record) :
    redemptions issue (redeemedAt now rows ++ history) =
      redemptions issue history + (rows.map Row.issue).count issue := by
  induction rows with
  | nil => rfl
  | cons row rest ih =>
    change redemptions issue (redeemedAt now rest ++ history) + _ = _
    simp only [ih, List.map_cons, List.count_cons, beq_iff_eq]
    omega

@[simp] theorem current_redeemedAt (key : Key) (now : Nat) (rows : List Row) (history : List Record) :
    current key (redeemedAt now rows ++ history) = current key history := by
  simp [current]

theorem honoured_redeemedAt {now : Nat} {rows : List Row} {history : List Record} (honoured : Honoured history)
    (distinct : (rows.map Row.issue).Nodup)
    (allowed : ∀ row ∈ rows, Allowed history row.key row.issue now) : Honoured (redeemedAt now rows ++ history) := by
  induction rows with
  | nil => exact honoured
  | cons row rest ih =>
    obtain ⟨fresh, others⟩ := List.nodup_cons.mp distinct
    have before := ih others fun other member => allowed other (List.mem_cons_of_mem _ member)
    refine ⟨?_, before⟩
    change Allowed (redeemedAt now rest ++ history) row.key row.issue now
    obtain ⟨grant, last, same, unexpired, left⟩ := allowed row (List.mem_cons_self ..)
    refine ⟨grant, ?_, same, unexpired, ?_⟩
    · simpa using last
    · simpa [List.count_eq_zero_of_not_mem fresh] using left

theorem Row.Backed.allowed {row : Row} {history : List Record} (backed : row.Backed history) {tokenHash : String}
    {expected : Option Purpose} {now : Nat} (redeemable : row.Redeemable tokenHash expected now) :
    Allowed history row.key row.issue now := by
  obtain ⟨grant, last, same, expires, left⟩ := backed
  obtain ⟨_, _, _, unexpired, remaining⟩ := redeemable
  exact ⟨grant, last, same, expires ▸ unexpired, by omega⟩

theorem redeem_outstanding {row : Row} {now : Nat} (live : (row.redeem now).Outstanding) : row.Outstanding := by
  simp only [Row.Outstanding, Row.redeem] at live ⊢
  split at live
  · cases live
  · exact live

section Redeem
variable {state : State} (kept : Kept state) (tokenHash : String) (expected : Option Purpose) (now : Nat)
include kept

theorem redeemed_once : ((redeemable state.rows tokenHash expected now).map Row.issue).Nodup :=
  kept.rows.sublist (List.filter_sublist.map Row.issue)

/-- The redemption counts for the rows it finds and for no other. -/
theorem count_redeemable {row : Row} (member : row ∈ state.rows) :
    ((redeemable state.rows tokenHash expected now).map Row.issue).count row.issue =
      if row.Redeemable tokenHash expected now then 1 else 0 := by
  split
  · rename_i found
    apply List.count_eq_one_of_mem (redeemed_once kept tokenHash expected now)
    exact List.mem_map_of_mem (List.mem_filter.mpr ⟨member, by simpa using found⟩)
  · rename_i missed
    apply List.count_eq_zero_of_not_mem
    intro counted
    obtain ⟨other, found, same⟩ := List.mem_map.mp counted
    obtain ⟨present, chosen⟩ := List.mem_filter.mp found
    obtain rfl := List.inj_on_of_nodup_map kept.rows present member same
    exact missed (by simpa using chosen)

theorem Row.Backed.redeem {row : Row} (member : row ∈ state.rows) (backed : row.Backed state.history) :
    Row.Backed (if row.Redeemable tokenHash expected now then row.redeem now else row)
      (state.redeem tokenHash expected now).history := by
  obtain ⟨grant, last, same, expires, left⟩ := backed
  have counted := count_redeemable kept tokenHash expected now member
  simp only [Row.Backed, State.redeem, current_redeemedAt, redemptions_redeemedAt]
  split
  · rename_i found
    refine ⟨grant, last, same, expires, ?_⟩
    simp only [Row.redeem, counted, if_pos found]
    omega
  · rename_i missed
    refine ⟨grant, last, same, expires, ?_⟩
    simp only [counted, if_neg missed]
    omega

theorem Kept.redeem : Kept (state.redeem tokenHash expected now) := by
  have ids : issuedIds (state.redeem tokenHash expected now).history = issuedIds state.history := by
    simp [issuedIds, State.redeem]
  have sameIssue : Row.issue ∘ (fun row => if row.Redeemable tokenHash expected now then row.redeem now else row) =
      Row.issue := by
    funext row
    by_cases found : row.Redeemable tokenHash expected now
    · simp [found, Row.redeem]
    · simp [found]
  refine ⟨?_, ?_, ?_, ?_, ?_, ?_, ?_, ?_⟩
  · exact ids ▸ kept.committed
  · exact ids ▸ kept.once
  · simpa only [State.redeem, List.map_map, sameIssue] using kept.rows
  · intro row member
    obtain ⟨before, present, rfl⟩ := List.mem_map.mp member
    have same : Row.issue _ = before.issue := congrFun sameIssue before
    rw [ids, same]
    exact kept.known before present
  · intro row member live
    obtain ⟨before, present, rfl⟩ := List.mem_map.mp member
    refine (kept.backed before present ?_).redeem kept tokenHash expected now present
    split at live
    · exact redeem_outstanding live
    · exact live
  · intro issue member
    exact ids ▸ kept.seen issue member
  · intro issue member
    apply (kept.caught issue member).of_outstanding
    intro row survives _
    obtain ⟨found, sameKey, live⟩ := mem_outstanding.mp survives
    obtain ⟨before, present, rfl⟩ := List.mem_map.mp found
    refine ⟨before, mem_outstanding.mpr ⟨present, ?_, ?_⟩, (congrFun sameIssue before).symm⟩
    · split at sameKey
      · exact sameKey
      · exact sameKey
    · split at live
      · exact redeem_outstanding live
      · exact live
  · apply honoured_redeemedAt kept.honoured (redeemed_once kept tokenHash expected now)
    intro row member
    obtain ⟨present, chosen⟩ := List.mem_filter.mp member
    have found : row.Redeemable tokenHash expected now := of_decide_eq_true chosen
    exact (kept.backed row present found.2.2.1).allowed found

end Redeem

/-- Rows may go: what is left stays backed and caught. -/
theorem Kept.drop {state : State} (kept : Kept state) {rows : List Row} (fewer : rows.Sublist state.rows) :
    Kept { state with rows } where
  committed := kept.committed
  once := kept.once
  rows := kept.rows.sublist (fewer.map Row.issue)
  known := fun row member => kept.known row (fewer.subset member)
  backed := fun row member => kept.backed row (fewer.subset member)
  seen := kept.seen
  caught := by
    intro issue member
    apply (kept.caught issue member).of_outstanding
    intro row survives _
    obtain ⟨found, same, live⟩ := mem_outstanding.mp survives
    exact ⟨row, mem_outstanding.mpr ⟨fewer.subset found, same, live⟩, rfl⟩
  honoured := kept.honoured

/-! ## Runs -/

section Runs
variable {hashToken : String → String}

theorem kept_step {state next : State} {event : Event} (met : CommitsAlone state event) (kept : Kept state)
    (stepped : step hashToken state event = some next) : Kept next := by
  cases event with
  | begin token key now settings =>
    obtain rfl := Option.some.inj stepped
    refine ⟨?_, kept.once, kept.rows, kept.known, kept.backed, ?_, ?_, kept.honoured⟩
    · intro id member
      obtain ⟨issue, found, committed⟩ := kept.committed id member
      obtain ⟨within, _⟩ := List.getElem?_eq_some_iff.mp found
      exact ⟨issue, (List.getElem?_append_left within).trans found, committed⟩
    · refine Runs.forall_mem_concat kept.seen ?_
      intro id visible
      cases visible
    · exact Runs.forall_mem_concat kept.caught trivial
  | startDelete index =>
    obtain ⟨issue, found, chosen⟩ := Option.bind_eq_some_iff.mp stepped
    split at chosen
    · rename_i phase
      obtain rfl := Option.some.inj chosen
      refine kept.move found (by simp [phase]) ?_ trivial
      intro id visible
      obtain ⟨row, member, rfl⟩ := List.mem_map.mp visible
      exact kept.known row (mem_outstanding.mp member).1
    · cases chosen
  | finishDelete index =>
    obtain ⟨issue, found, chosen⟩ := Option.bind_eq_some_iff.mp stepped
    split at chosen
    · rename_i snapshot phase
      dsimp only at chosen
      split at chosen
      · cases chosen
      · obtain rfl := Option.some.inj chosen
        have seen := kept.seen issue (List.mem_of_getElem? found)
        simp only [phase] at seen
        refine kept.move found (by simp [phase]) seen ⟨?_, ?_⟩
        · intro id locked
          obtain ⟨row, member, rfl⟩ := List.mem_map.mp locked
          exact of_decide_eq_true (List.mem_filter.mp member).2
        · intro row member visible
          exact List.mem_map_of_mem (List.mem_filter.mpr ⟨member, by simpa using visible⟩)
    · cases chosen
  | insert index =>
    obtain ⟨issue, found, chosen⟩ := Option.bind_eq_some_iff.mp stepped
    split at chosen
    · rename_i snapshot locks phase
      have seen := kept.seen issue (List.mem_of_getElem? found)
      have caught := kept.caught issue (List.mem_of_getElem? found)
      simp only [phase, Issue.Caught] at seen caught
      dsimp only at chosen
      split at chosen
      · cases chosen
      · split at chosen
        · obtain rfl := Option.some.inj chosen
          exact kept.move found (by simp [phase]) (fun id visible => by cases visible) trivial
        · obtain rfl := Option.some.inj chosen
          exact kept.move found (by simp [phase]) seen caught
    · cases chosen
  | commit index =>
    obtain ⟨issue, found, chosen⟩ := Option.bind_eq_some_iff.mp stepped
    split at chosen
    · rename_i snapshot locks phase
      obtain rfl := Option.some.inj chosen
      exact kept.commit found phase (met issue found)
    · cases chosen
  | abort index =>
    obtain ⟨issue, found, chosen⟩ := Option.bind_eq_some_iff.mp stepped
    split at chosen
    · rename_i opened
      obtain rfl := Option.some.inj chosen
      refine kept.move found ?_ (fun id visible => by cases visible) trivial
      intro committed
      simp [committed, Phase.Open] at opened
    · cases chosen
  | consume token expected now =>
    simp only [step] at stepped
    split at stepped
    · cases stepped
    · obtain rfl := Option.some.inj stepped
      exact kept.redeem (hashToken token) expected now
  | purgeExpiredTokens now =>
    simp only [step] at stepped
    split at stepped
    · cases stepped
    · obtain rfl := Option.some.inj stepped
      exact kept.drop List.filter_sublist

theorem kept_empty : Kept empty where
  committed := by simp [empty, issuedIds, grants]
  once := List.nodup_nil
  rows := List.nodup_nil
  known := by simp [empty]
  backed := by simp [empty]
  seen := by simp [empty]
  caught := by simp [empty]
  honoured := trivial

/-- A commit that leaves one token outstanding has caught every other. -/
theorem lone_of_oneOutstanding {state : State} (kept : Kept state) {index : Nat} {issue : Issue}
    (found : state.issues[index]? = some issue) {snapshot locks : List Nat}
    (phase : issue.phase = .inserted snapshot locks)
    (one : OneOutstanding (state.commit index issue locks).rows) : issue.Lone state.rows := by
  have caught := kept.caught issue (List.mem_of_getElem? found)
  simp only [Issue.Caught, phase] at caught
  simp only [Issue.Lone, phase]
  intro row member
  obtain ⟨present, same, live⟩ := mem_outstanding.mp member
  by_contra unseen
  have survives : row ∈ state.rows.filter (·.issue ∉ locks) :=
    List.mem_filter.mpr ⟨present, by simpa using fun locked => unseen (caught.1 row.issue locked)⟩
  have apart := (List.pairwise_append.mp one).2.2 row survives (issue.row index) (List.mem_singleton_self _)
  exact apart ⟨live, rfl, same⟩

theorem oneOutstanding_step_iff {state : State} {event : Event} (kept : Kept state) :
    (∀ next, step hashToken state event = some next → OneOutstanding next.rows) ↔ CommitsAlone state event := by
  constructor
  · intro one
    cases event with
    | commit index =>
      intro issue found
      cases phase : issue.phase with
      | inserted snapshot locks =>
        have present : state.issues[index]? = some issue := found
        have stepped : step hashToken state (.commit index) = some (state.commit index issue locks) := by
          simp only [step, present, Option.bind_eq_bind, Option.bind_some, phase]
        exact lone_of_oneOutstanding kept found phase (one _ stepped)
      | _ => simp [Issue.Lone, phase]
    | _ => trivial
  · intro met next stepped
    exact (kept_step met kept stepped).oneOutstanding

end Runs

/-- Every commit leaves one token outstanding for its user and purpose exactly where it commits
alone; in the runs where every commit does, each redemption is one of the last token committed,
before its expiry and within its budget. -/
theorem outstanding_token (hashToken : String → String) (events : List Event) :
    (Runs.EveryStep (step hashToken)
        (fun state event => ∀ next, step hashToken state event = some next → OneOutstanding next.rows) empty events ↔
      Runs.EveryStep (step hashToken) CommitsAlone empty events) ∧
    (Runs.EveryStep (step hashToken) CommitsAlone empty events →
      ∀ last, Runs.run (step hashToken) empty events = some last →
        OneOutstanding last.rows ∧ Honoured last.history ∧ WithinBudget last.history) := by
  constructor
  · refine Runs.everyStep_congr_of_kept (step hashToken) ?_ oneOutstanding_step_iff kept_empty
    exact fun met kept stepped => kept_step met kept stepped
  · intro met last reached
    have kept : Kept last := by
      refine Runs.invariant_of_step (step hashToken) ?_ kept_empty met reached
      exact fun cond kept stepped => kept_step cond kept stepped
    exact ⟨kept.oneOutstanding, kept.honoured, withinBudget_of_honoured kept.honoured kept.once⟩

private def login : Key := ⟨7, .login⟩

/-- A token is issued and redeemed once, and the next one revokes it. -/
private def oneAfterTheOther : List Event :=
  [.begin "a" login 100 ⟨15, 3⟩, .startDelete 0, .finishDelete 0, .insert 0, .commit 0,
    .consume "a" (some .login) 200,
    .begin "b" login 300 ⟨15, 3⟩, .startDelete 1, .finishDelete 1, .insert 1, .commit 1,
    .consume "a" none 400, .consume "b" none 400, .purgeExpiredTokens 1300]

theorem outstanding_token_sequential :
    ∃ last, Runs.run (step id) empty oneAfterTheOther = some last ∧
      OneOutstanding last.rows ∧ Honoured last.history ∧ WithinBudget last.history ∧
      redemptions 0 last.history = 1 ∧ redemptions 1 last.history = 1 := by
  have met : Runs.EveryStep (step id) CommitsAlone empty oneAfterTheOther := by decide +kernel
  obtain ⟨one, honoured, budget⟩ := (outstanding_token id oneAfterTheOther).2 met _ rfl
  exact ⟨_, rfl, one, honoured, budget, by decide +kernel, by decide +kernel⟩

/-- Two calls delete before either inserts: both tokens stay, and the older is redeemed after the
newer was committed. -/
theorem outstanding_token_two_issuers :
    ∃ last, Runs.run (step id) empty
        [.begin "a" login 100 ⟨15, 3⟩, .begin "b" login 100 ⟨15, 3⟩, .startDelete 0, .startDelete 1,
          .finishDelete 0, .finishDelete 1, .insert 0, .insert 1, .commit 0, .commit 1,
          .consume "a" none 200] = some last ∧
      (∀ issue ∈ last.issues, ¬ issue.phase.Open) ∧ ¬ OneOutstanding last.rows ∧ ¬ Honoured last.history := by
  refine ⟨_, rfl, ?_, ?_, ?_⟩
  · decide +kernel
  · decide +kernel
  · decide +kernel

end TransactionMonitoring.Tokens
