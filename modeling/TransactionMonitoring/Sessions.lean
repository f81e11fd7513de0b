import Mathlib.Data.List.Nodup
import Mathlib.Logic.Function.Basic
import TransactionMonitoring.Runs

/-! Who is let in.

A link is redeemed in three steps, and a session is looked up and then claimed; every step of every
request may come between those of others, and a user may be deleted, log out or let a link or a session
expire at any time.  The foreign keys of the tables do part of the work.  Times are those of the database;
what a link or a cookie is made of is random, and none is minted twice.
-/
namespace TransactionMonitoring.Sessions
open Runs

inductive Status where
  | pending
  | active
  | disabled
deriving DecidableEq, Repr

/-- A row of `magic_link_tokens`. -/
structure Token where
  tokenHash : String
  user : ℕ
  expiresAt : ℕ
  consumed : Bool
  remaining : ℕ
deriving DecidableEq, Repr

/-- A row of `user_sessions`. -/
structure Session where
  sessionId : String
  user : ℕ
  expiresAt : ℕ
  /-- `created_by_token_hash`. -/
  createdBy : Option String
deriving DecidableEq, Repr

/-- What a lookup answers, and when: at which step, at which time. -/
structure Lookup where
  sessionId : String
  user : ℕ
  at_ : ℕ
  time : ℕ
deriving DecidableEq, Repr

inductive Progress where
  /-- `verify` has redeemed a link at this time, -/
  | redeemed (tokenHash : String) (user : ℕ) (time : ℕ)
  /-- and has read the user. -/
  | checked (tokenHash : String) (user : ℕ) (time : ℕ)
  /-- `current_user` has found a session that is not claimed yet. -/
  | found (lookup : Lookup) (tokenHash : String)
deriving DecidableEq, Repr

/-- A link that was sent to a user. -/
structure Issued where
  tokenHash : String
  user : ℕ
  expiresAt : ℕ
deriving DecidableEq, Repr

/-- A session that was opened; they are numbered. -/
structure Minted where
  number : ℕ
  sessionId : String
  user : ℕ
  tokenHash : String
  redeemedAt : ℕ
  expiresAt : ℕ
deriving DecidableEq, Repr

/-- A claim: at which step, and how many sessions there were. -/
structure Claim where
  sessionId : String
  tokenHash : String
  at_ : ℕ
  minted : ℕ
deriving DecidableEq, Repr

/-- Bookkeeping. -/
structure Books where
  users : List ℕ := []
  issued : List Issued := []
  minted : List Minted := []
  claimed : List Claim := []
  /-- The users that were deleted and the sessions that were ended, and at which step. -/
  deleted : List (ℕ × ℕ) := []
  loggedOut : List (String × ℕ) := []
deriving DecidableEq, Repr

structure State (ι : Type) where
  now : ℕ := 0
  steps : ℕ := 0
  users : ℕ → Option Status := fun _ => none
  tokens : List Token := []
  sessions : List Session := []
  requests : ι → Option Progress := fun _ => none
  books : Books := {}
  /-- The lookups of the requests that were let in. -/
  accepted : List Lookup := []

inductive Event (ι : Type) where
  | passes (seconds : ℕ)
  | createsUser (user : ℕ)
  | deletesUser (user : ℕ)
  /-- `issue_token`; which of the outstanding links its `DELETE` sees is left open. -/
  | issues (tokenHash : String) (user : ℕ) (ttl redemptions : ℕ) (revoked : List String)
  | consumes (request : ι) (tokenHash : String)
  | readsUser (request : ι)
  | creates (request : ι) (sessionId : String) (ttl : ℕ)
  | looksUp (request : ι) (sessionId : String)
  | claims (request : ι)
  | logsOut (sessionId : String)
  | purgesTokens
  | purgesSessions
  /-- An error, or the end of the process. -/
  | fails (request : ι)

def Token.Redeemable (token : Token) (tokenHash : String) (now : ℕ) : Prop :=
  token.tokenHash = tokenHash ∧ token.consumed = false ∧ now < token.expiresAt ∧ 0 < token.remaining

instance (token : Token) (tokenHash : String) (now : ℕ) : Decidable (token.Redeemable tokenHash now) :=
  inferInstanceAs (Decidable (_ ∧ _))

def Token.redeem (token : Token) : Token :=
  { token with consumed := token.consumed || decide (token.remaining - 1 = 0), remaining := token.remaining - 1 }

section
variable {ι : Type} [DecidableEq ι]

def State.set (state : State ι) (request : ι) (progress : Option Progress) : State ι :=
  { state with requests := Function.update state.requests request progress }

/-- The join of `lookup_session`. -/
def State.visible (state : State ι) (session : Session) (sessionId : String) : Bool :=
  session.sessionId = sessionId && decide (state.now < session.expiresAt) &&
    match state.users session.user with
    | none | some .disabled => false
    | some .pending | some .active => true

/-- The `UPDATE` of `consume_token`. -/
def State.redeem (state : State ι) (tokenHash : String) : State ι :=
  { state with
    tokens := state.tokens.map fun token => if token.Redeemable tokenHash state.now then token.redeem else token }

/-- The transaction of `create_session`, for a user who is there. -/
def State.opening (state : State ι) (sessionId tokenHash : String) (user time ttl : ℕ) (status : Status) : State ι :=
  { state with
    users := Function.update state.users user (some (if status = .pending then .active else status))
    sessions := state.sessions ++ [⟨sessionId, user, state.now + ttl, some tokenHash⟩]
    books := { state.books with
      minted := state.books.minted ++
        [⟨state.books.minted.length, sessionId, user, tokenHash, time, state.now + ttl⟩] } }

/-- The transaction of `claim_session_token`. -/
def State.claim (state : State ι) (lookup : Lookup) (tokenHash : String) : State ι :=
  { state with
    sessions := (state.sessions.filter fun session =>
      ¬ (session.createdBy = some tokenHash ∧ session.sessionId ≠ lookup.sessionId)).map fun session =>
        if session.sessionId = lookup.sessionId then { session with createdBy := none } else session
    books := { state.books with
      claimed := state.books.claimed ++
        [⟨lookup.sessionId, tokenHash, state.steps, state.books.minted.length⟩] } }

def State.accept (state : State ι) (lookup : Lookup) : State ι :=
  { state with accepted := state.accepted ++ [lookup] }

/-- What happens; the steps are counted beside it. -/
def move (state : State ι) : Event ι → Option (State ι)
  | .passes seconds => some { state with now := state.now + seconds }
  | .createsUser user =>
      if user ∈ state.books.users then none
      else some { state with
        users := Function.update state.users user (some .pending)
        books := { state.books with users := state.books.users ++ [user] } }
  | .deletesUser user =>
      if state.users user = none then none
      else some { state with
        users := Function.update state.users user none
        -- `ON DELETE CASCADE`
        tokens := state.tokens.filter (·.user ≠ user)
        sessions := state.sessions.filter (·.user ≠ user)
        books := { state.books with deleted := state.books.deleted ++ [(user, state.steps)] } }
  | .issues tokenHash user ttl redemptions revoked =>
      if state.users user = none ∨ tokenHash ∈ state.books.issued.map Issued.tokenHash then none
      else some { state with
        tokens := (state.tokens.filter fun token => ¬ (token.user = user ∧ token.consumed = false ∧
          token.tokenHash ∈ revoked)) ++ [⟨tokenHash, user, state.now + ttl, false, redemptions⟩]
        books := { state.books with issued := state.books.issued ++ [⟨tokenHash, user, state.now + ttl⟩] } }
  | .consumes request tokenHash =>
      if state.requests request = none then
        match state.tokens.find? fun token => token.Redeemable tokenHash state.now with
        | none => some state
        | some token =>
            some ((state.redeem tokenHash).set request (some (.redeemed tokenHash token.user state.now)))
      else none
  | .readsUser request =>
      match state.requests request with
      | some (.redeemed tokenHash user time) =>
          match state.users user with
          | none | some .disabled => some (state.set request none)
          | some .pending | some .active => some (state.set request (some (.checked tokenHash user time)))
      | _ => none
  | .creates request sessionId ttl =>
      match state.requests request with
      | some (.checked tokenHash user time) =>
          if sessionId ∈ state.books.minted.map Minted.sessionId then none
          else
            match state.users user with
            -- `REFERENCES users(id)`
            | none => some (state.set request none)
            | some status => some ((state.opening sessionId tokenHash user time ttl status).set request none)
      | _ => none
  | .looksUp request sessionId =>
      if state.requests request = none then
        match state.sessions.find? fun session => state.visible session sessionId with
        | none => some state
        | some session =>
            let lookup : Lookup := ⟨sessionId, session.user, state.steps, state.now⟩
            match session.createdBy with
            | none => some (state.accept lookup)
            | some tokenHash => some (state.set request (some (.found lookup tokenHash)))
      else none
  | .claims request =>
      match state.requests request with
      | some (.found lookup tokenHash) => some (((state.claim lookup tokenHash).accept lookup).set request none)
      | _ => none
  | .logsOut sessionId =>
      let known := sessionId ∈ state.books.minted.map Minted.sessionId
      some { state with
        sessions := state.sessions.filter (·.sessionId ≠ sessionId)
        books := { state.books with
          loggedOut := if known then state.books.loggedOut ++ [(sessionId, state.steps)] else state.books.loggedOut } }
  | .purgesTokens => some { state with
      tokens := state.tokens.filter fun token => ¬ (token.expiresAt < state.now ∨ token.consumed = true) }
  | .purgesSessions => some { state with
      sessions := state.sessions.filter fun session => ¬ session.expiresAt < state.now }
  | .fails request => some (state.set request none)

def step (state : State ι) (event : Event ι) : Option (State ι) :=
  (move state event).map fun next => { next with steps := state.steps + 1 }

end

/-! What is kept. -/

/-- The session lives on past a claim of its link: it is the one that was claimed, or had been claimed before. -/
def Outlives (claimed : List Claim) (minted : Minted) (claim : Claim) : Prop :=
  minted.sessionId = claim.sessionId ∨ ∃ own ∈ claimed, own.sessionId = minted.sessionId ∧ own.at_ < claim.at_

/-- A lookup was right to answer: the session was opened for the user with a link that was sent to the user and had not
expired, and neither had the session, the user was not deleted, nobody had logged out of it, and no other session of
its link had been claimed over its head. -/
structure Legitimate (books : Books) (steps : ℕ) (lookup : Lookup) : Prop where
  past : lookup.at_ < steps
  opened : ∃ minted ∈ books.minted, minted.sessionId = lookup.sessionId ∧ minted.user = lookup.user ∧
    lookup.time < minted.expiresAt
  present : ∀ user at_, (user, at_) ∈ books.deleted → user = lookup.user → lookup.at_ < at_
  open_ : ∀ sessionId at_, (sessionId, at_) ∈ books.loggedOut → sessionId = lookup.sessionId → lookup.at_ < at_
  outlives : ∀ claim ∈ books.claimed, claim.at_ ≤ lookup.at_ → ∀ minted ∈ books.minted,
    minted.sessionId = lookup.sessionId → minted.tokenHash = claim.tokenHash → minted.number < claim.minted →
    Outlives books.claimed minted claim

/-- A row of `user_sessions` stands for a session that was opened, and that nothing has ended. -/
structure Stands (books : Books) (users : ℕ → Option Status) (session : Session) : Prop where
  opened : ∃ minted ∈ books.minted, minted.sessionId = session.sessionId ∧ minted.user = session.user ∧
    minted.expiresAt = session.expiresAt ∧ (session.createdBy = some minted.tokenHash ∨
      session.createdBy = none ∧ ∃ claim ∈ books.claimed, claim.sessionId = session.sessionId)
  present : users session.user ≠ none
  open_ : ∀ sessionId at_, (sessionId, at_) ∈ books.loggedOut → sessionId ≠ session.sessionId
  outlives : ∀ claim ∈ books.claimed, ∀ minted ∈ books.minted, minted.sessionId = session.sessionId →
    minted.tokenHash = claim.tokenHash → minted.number < claim.minted → Outlives books.claimed minted claim

/-- A link was sent to the user, and not yet expired when it was redeemed. -/
def Redeemed (books : Books) (tokenHash : String) (user time : ℕ) : Prop :=
  ∃ issued ∈ books.issued, issued.tokenHash = tokenHash ∧ issued.user = user ∧ time < issued.expiresAt

def Progress.Sound (books : Books) (steps : ℕ) : Progress → Prop
  | .redeemed tokenHash user time | .checked tokenHash user time => Redeemed books tokenHash user time
  | .found lookup tokenHash => Legitimate books steps lookup ∧
      ∃ minted ∈ books.minted, minted.sessionId = lookup.sessionId ∧ minted.tokenHash = tokenHash

structure Sound {ι : Type} (state : State ι) : Prop where
  users : ∀ user, state.users user ≠ none → user ∈ state.books.users
  deleted : ∀ user at_, (user, at_) ∈ state.books.deleted →
    state.users user = none ∧ user ∈ state.books.users ∧ at_ < state.steps
  claims : ∀ claim ∈ state.books.claimed, claim.at_ < state.steps ∧ claim.minted ≤ state.books.minted.length
  ended : ∀ entry ∈ state.books.loggedOut, entry.1 ∈ state.books.minted.map Minted.sessionId
  numbered : state.books.minted.map Minted.number = List.range state.books.minted.length
  unique : (state.books.minted.map Minted.sessionId).Nodup
  tokens : ∀ token ∈ state.tokens, ∃ issued ∈ state.books.issued, issued.tokenHash = token.tokenHash ∧
    issued.user = token.user ∧ issued.expiresAt = token.expiresAt
  minted : ∀ minted ∈ state.books.minted, Redeemed state.books minted.tokenHash minted.user minted.redeemedAt
  sessions : ∀ session ∈ state.sessions, Stands state.books state.users session
  requests : ∀ request progress, state.requests request = some progress → progress.Sound state.books state.steps
  accepted : ∀ lookup ∈ state.accepted, Legitimate state.books state.steps lookup

/-- What a step may add to the books. -/
structure Grows (steps : ℕ) (books next : Books) : Prop where
  issued : books.issued ⊆ next.issued
  minted : books.minted ⊆ next.minted
  claimed : books.claimed ⊆ next.claimed
  mintedNew : ∀ minted ∈ next.minted, minted ∈ books.minted ∨ minted.sessionId ∉ books.minted.map Minted.sessionId
  claimedNew : ∀ claim ∈ next.claimed, claim ∈ books.claimed ∨ claim.at_ = steps
  deletedNew : ∀ entry ∈ next.deleted, entry ∈ books.deleted ∨ entry.2 = steps
  loggedOutNew : ∀ entry ∈ next.loggedOut, entry ∈ books.loggedOut ∨ entry.2 = steps

section
variable {books next : Books} {steps : ℕ}

theorem Grows.refl (steps : ℕ) (books : Books) : Grows steps books books where
  issued := List.Subset.refl _
  minted := List.Subset.refl _
  claimed := List.Subset.refl _
  mintedNew := fun _ member => .inl member
  claimedNew := fun _ member => .inl member
  deletedNew := fun _ member => .inl member
  loggedOutNew := fun _ member => .inl member

theorem Outlives.grows (grows : Grows steps books next) {minted : Minted} {claim : Claim}
    (outlives : Outlives books.claimed minted claim) : Outlives next.claimed minted claim := by
  obtain same | ⟨own, member, mine, before⟩ := outlives
  · exact .inl same
  · exact .inr ⟨own, grows.claimed member, mine, before⟩

/-- A session that was opened before is none that is opened now. -/
theorem Grows.old (grows : Grows steps books next) {minted old : Minted} (member : minted ∈ next.minted)
    (known : old ∈ books.minted) (same : minted.sessionId = old.sessionId) : minted ∈ books.minted := by
  refine (grows.mintedNew minted member).resolve_right fun fresh => fresh ?_
  rw [same]
  exact List.mem_map_of_mem known

/-- A lookup that was right remains so: whatever happens later is no matter to it. -/
theorem Legitimate.grows (grows : Grows steps books next) {lookup : Lookup}
    (legitimate : Legitimate books steps lookup) : Legitimate next (steps + 1) lookup := by
  obtain ⟨own, opened, same, facts⟩ := legitimate.opened
  refine ⟨Nat.lt_succ_of_lt legitimate.past, ⟨own, grows.minted opened, same, facts⟩, fun user at_ member mine => ?_,
    fun sessionId at_ member mine => ?_, fun claim member before minted known mine link below => ?_⟩
  · obtain old | new := grows.deletedNew _ member
    · exact legitimate.present user at_ old mine
    · rw [show at_ = steps from new]
      exact legitimate.past
  · obtain old | new := grows.loggedOutNew _ member
    · exact legitimate.open_ sessionId at_ old mine
    · rw [show at_ = steps from new]
      exact legitimate.past
  · obtain old | new := grows.claimedNew claim member
    · have knownToo := grows.old known opened (mine.trans same.symm)
      exact (legitimate.outlives claim old before minted knownToo mine link below).grows grows
    · rw [new] at before
      exact absurd legitimate.past (Nat.not_lt.mpr before)

theorem Redeemed.grows (grows : Grows steps books next) {tokenHash : String} {user time : ℕ}
    (redeemed : Redeemed books tokenHash user time) : Redeemed next tokenHash user time := by
  obtain ⟨issued, member, facts⟩ := redeemed
  exact ⟨issued, grows.issued member, facts⟩

theorem Progress.Sound.grows (grows : Grows steps books next) {progress : Progress}
    (sound : progress.Sound books steps) : progress.Sound next (steps + 1) := by
  cases progress with
  | redeemed tokenHash user time => exact Redeemed.grows grows sound
  | checked tokenHash user time => exact Redeemed.grows grows sound
  | found lookup tokenHash =>
    obtain ⟨legitimate, minted, member, facts⟩ := sound
    exact ⟨legitimate.grows grows, minted, grows.minted member, facts⟩

/-- A row stands on if nothing new ends it. -/
theorem Stands.grows (grows : Grows steps books next) {users nextUsers : ℕ → Option Status} {session : Session}
    (stands : Stands books users session) (present : nextUsers session.user ≠ none)
    (open_ : ∀ entry ∈ next.loggedOut, entry ∉ books.loggedOut → entry.1 ≠ session.sessionId)
    (outlives : ∀ claim ∈ next.claimed, claim ∉ books.claimed → ∀ minted ∈ books.minted,
      minted.sessionId = session.sessionId → minted.tokenHash = claim.tokenHash → Outlives next.claimed minted claim) :
    Stands next nextUsers session := by
  obtain ⟨own, opened, same, user, expires, link⟩ := stands.opened
  refine ⟨⟨own, grows.minted opened, same, user, expires, ?_⟩, present, fun sessionId at_ member => ?_,
    fun claim member minted known mine ofLink below => ?_⟩
  · obtain unclaimed | ⟨claimed, claim, member, mine⟩ := link
    · exact .inl unclaimed
    · exact .inr ⟨claimed, claim, grows.claimed member, mine⟩
  · by_cases old : (sessionId, at_) ∈ books.loggedOut
    · exact stands.open_ sessionId at_ old
    · exact open_ (sessionId, at_) member old
  · have knownToo := grows.old known opened (mine.trans same.symm)
    by_cases old : claim ∈ books.claimed
    · exact (stands.outlives claim old minted knownToo mine ofLink below).grows grows
    · exact outlives claim member old minted knownToo mine ofLink

end

section
variable {ι : Type} [DecidableEq ι] {state next : State ι} {request : ι}

theorem set_requests_cases {progress : Option Progress} {other : ι} {there : Progress}
    (found : (state.set request progress).requests other = some there) :
    progress = some there ∨ state.requests other = some there := by
  rw [State.set] at found
  dsimp only at found
  by_cases own : other = request
  · subst own
    rw [Function.update_self] at found
    exact .inl found
  · rw [Function.update_of_ne own] at found
    exact .inr found

omit [DecidableEq ι] in
/-- A step that writes nothing into the books. -/
theorem Sound.quiet (sound : Sound state) (users : next.users = state.users) (books : next.books = state.books)
    (steps : next.steps = state.steps + 1)
    (tokens : ∀ token ∈ next.tokens, ∃ old ∈ state.tokens, old.tokenHash = token.tokenHash ∧ old.user = token.user ∧
      old.expiresAt = token.expiresAt)
    (sessions : next.sessions ⊆ state.sessions)
    (requests : ∀ request progress, next.requests request = some progress →
      progress.Sound state.books (state.steps + 1) ∨ state.requests request = some progress)
    (accepted : ∀ lookup ∈ next.accepted, Legitimate state.books (state.steps + 1) lookup ∨ lookup ∈ state.accepted) :
    Sound next := by
  have grows := Grows.refl state.steps state.books
  refine ⟨?_, ?_, ?_, ?_, ?_, ?_, fun token member => ?_, ?_, fun session member => ?_,
    fun request progress found => ?_, fun lookup member => ?_⟩
  · rw [users, books]
    exact sound.users
  · rw [users, books, steps]
    intro user at_ member
    obtain ⟨gone, known, before⟩ := sound.deleted user at_ member
    exact ⟨gone, known, Nat.lt_succ_of_lt before⟩
  · rw [books, steps]
    intro claim member
    obtain ⟨before, many⟩ := sound.claims claim member
    exact ⟨Nat.lt_succ_of_lt before, many⟩
  · rw [books]
    exact sound.ended
  · rw [books]
    exact sound.numbered
  · rw [books]
    exact sound.unique
  · obtain ⟨old, among, link, user, expires⟩ := tokens token member
    obtain ⟨issued, known, sameLink, sameUser, sameTime⟩ := sound.tokens old among
    rw [books]
    exact ⟨issued, known, sameLink.trans link, sameUser.trans user, sameTime.trans expires⟩
  · rw [books]
    exact sound.minted
  · rw [books, users]
    exact sound.sessions session (sessions member)
  · rw [books, steps]
    obtain new | old := requests request progress found
    · exact new
    · exact (sound.requests request progress old).grows grows
  · rw [books, steps]
    obtain new | old := accepted lookup member
    · exact new
    · exact (sound.accepted lookup old).grows grows

omit [DecidableEq ι] in
theorem Sound.createsUser (sound : Sound state) {user : ℕ} (fresh : user ∉ state.books.users) :
    Sound { state with
      users := Function.update state.users user (some .pending)
      books := { state.books with users := state.books.users ++ [user] }
      steps := state.steps + 1 } := by
  have grows : Grows state.steps state.books { state.books with users := state.books.users ++ [user] } :=
    { Grows.refl state.steps state.books with }
  refine ⟨fun other there => ?_, fun other at_ member => ?_, fun claim member => ?_, sound.ended, sound.numbered,
    sound.unique,
    sound.tokens, sound.minted, fun session member => ?_, fun request progress found => ?_, fun lookup member => ?_⟩
  · dsimp only at there
    by_cases own : other = user
    · exact List.mem_append_right _ (List.mem_singleton.mpr own)
    · rw [Function.update_of_ne own] at there
      exact List.mem_append_left _ (sound.users other there)
  · obtain ⟨gone, known, before⟩ := sound.deleted other at_ member
    refine ⟨?_, List.mem_append_left _ known, Nat.lt_succ_of_lt before⟩
    dsimp only
    by_cases own : other = user
    · exact absurd (own ▸ known) fresh
    · rw [Function.update_of_ne own]
      exact gone
  · obtain ⟨before, many⟩ := sound.claims claim member
    exact ⟨Nat.lt_succ_of_lt before, many⟩
  · have stands := sound.sessions session member
    refine stands.grows grows ?_ (fun entry new old => absurd new old) (fun claim new old => absurd new old)
    dsimp only
    by_cases own : session.user = user
    · rw [own, Function.update_self]
      exact Option.some_ne_none _
    · rw [Function.update_of_ne own]
      exact stands.present
  · exact (sound.requests request progress found).grows grows
  · exact (sound.accepted lookup member).grows grows

omit [DecidableEq ι] in
/-- Whoever is deleted takes its links and sessions along. -/
theorem Sound.deletesUser (sound : Sound state) {user : ℕ} (there : state.users user ≠ none) :
    Sound { state with
      users := Function.update state.users user none
      tokens := state.tokens.filter (·.user ≠ user)
      sessions := state.sessions.filter (·.user ≠ user)
      books := { state.books with deleted := state.books.deleted ++ [(user, state.steps)] }
      steps := state.steps + 1 } := by
  have grows : Grows state.steps state.books
      { state.books with deleted := state.books.deleted ++ [(user, state.steps)] } := by
    refine { Grows.refl state.steps state.books with deletedNew := fun entry member => ?_ }
    obtain old | new := List.mem_append.mp member
    · exact .inl old
    · rw [List.mem_singleton.mp new]
      exact .inr rfl
  refine ⟨fun other stays => ?_, fun other at_ member => ?_, fun claim member => ?_, sound.ended, sound.numbered,
    sound.unique,
    fun token member => sound.tokens token (List.mem_filter.mp member).1, sound.minted, fun session member => ?_,
    fun request progress found => ?_, fun lookup member => ?_⟩
  · dsimp only at stays
    by_cases own : other = user
    · rw [own, Function.update_self] at stays
      exact absurd rfl stays
    · rw [Function.update_of_ne own] at stays
      exact sound.users other stays
  · dsimp only
    obtain old | new := List.mem_append.mp member
    · obtain ⟨gone, known, before⟩ := sound.deleted other at_ old
      refine ⟨?_, known, Nat.lt_succ_of_lt before⟩
      by_cases own : other = user
      · rw [own, Function.update_self]
      · rw [Function.update_of_ne own]
        exact gone
    · cases List.mem_singleton.mp new
      exact ⟨Function.update_self .., sound.users user there, Nat.lt_succ_self _⟩
  · obtain ⟨before, many⟩ := sound.claims claim member
    exact ⟨Nat.lt_succ_of_lt before, many⟩
  · obtain ⟨among, other⟩ := List.mem_filter.mp member
    have stands := sound.sessions session among
    refine stands.grows grows ?_ (fun entry new old => absurd new old) (fun claim new old => absurd new old)
    dsimp only
    rw [Function.update_of_ne (of_decide_eq_true other)]
    exact stands.present
  · exact (sound.requests request progress found).grows grows
  · exact (sound.accepted lookup member).grows grows

omit [DecidableEq ι] in
theorem Sound.issues (sound : Sound state) (issued : Issued) {tokens : List Token}
    (there : ∀ token ∈ tokens, token ∈ state.tokens ∨ issued.tokenHash = token.tokenHash ∧ issued.user = token.user ∧
      issued.expiresAt = token.expiresAt) :
    Sound { state with
      tokens
      books := { state.books with issued := state.books.issued ++ [issued] }
      steps := state.steps + 1 } := by
  have grows : Grows state.steps state.books { state.books with issued := state.books.issued ++ [issued] } :=
    { Grows.refl state.steps state.books with issued := List.subset_append_left _ _ }
  refine ⟨sound.users, fun other at_ member => ?_, fun claim member => ?_, sound.ended, sound.numbered, sound.unique,
    fun token member => ?_, fun minted member => (sound.minted minted member).grows grows, fun session member => ?_,
    fun request progress found => (sound.requests request progress found).grows grows,
    fun lookup member => (sound.accepted lookup member).grows grows⟩
  · obtain ⟨gone, known, before⟩ := sound.deleted other at_ member
    exact ⟨gone, known, Nat.lt_succ_of_lt before⟩
  · obtain ⟨before, many⟩ := sound.claims claim member
    exact ⟨Nat.lt_succ_of_lt before, many⟩
  · obtain old | new := there token member
    · obtain ⟨own, known, facts⟩ := sound.tokens token old
      exact ⟨own, List.mem_append_left _ known, facts⟩
    · exact ⟨issued, List.mem_append_right _ List.mem_cons_self, new⟩
  · have stands := sound.sessions session member
    exact stands.grows grows stands.present (fun entry new old => absurd new old) (fun claim new old => absurd new old)

/-- A session is opened for a user who is there, whatever happened since the link was redeemed. -/
theorem Sound.opening (sound : Sound state) {sessionId tokenHash : String} {user time : ℕ} (ttl : ℕ) {status : Status}
    (redeemed : Redeemed state.books tokenHash user time)
    (fresh : sessionId ∉ state.books.minted.map Minted.sessionId) (there : state.users user = some status) :
    Sound { (state.opening sessionId tokenHash user time ttl status).set request none with
      steps := state.steps + 1 } := by
  set minted : Minted := ⟨state.books.minted.length, sessionId, user, tokenHash, time, state.now + ttl⟩ with opened
  have grows : Grows state.steps state.books { state.books with minted := state.books.minted ++ [minted] } := by
    refine { Grows.refl state.steps state.books with
      minted := List.subset_append_left _ _
      mintedNew := fun other member => ?_ }
    obtain old | new := List.mem_append.mp member
    · exact .inl old
    · rw [List.mem_singleton.mp new]
      exact .inr fresh
  have stays : ∀ other,
    Function.update state.users user (some (if status = .pending then .active else status)) other ≠ none ↔
      state.users other ≠ none := by
    intro other
    by_cases own : other = user
    · rw [own, Function.update_self, there]
      simp
    · rw [Function.update_of_ne own]
  refine ⟨fun other present => sound.users other ((stays other).mp present), fun other at_ member => ?_,
    fun claim member => ?_, fun entry member => ?_, ?_, ?_, sound.tokens, fun own member => ?_,
    fun session member => ?_,
    fun other progress found => ?_, fun lookup member => (sound.accepted lookup member).grows grows⟩
  · obtain ⟨gone, known, before⟩ := sound.deleted other at_ member
    exact ⟨not_not.mp fun present => (stays other).mp present gone, known, Nat.lt_succ_of_lt before⟩
  · obtain ⟨before, many⟩ := sound.claims claim member
    refine ⟨Nat.lt_succ_of_lt before, Nat.le_trans many ?_⟩
    change _ ≤ (state.books.minted ++ [minted]).length
    rw [List.length_append]
    exact Nat.le_add_right _ _
  · change entry.1 ∈ (state.books.minted ++ [minted]).map Minted.sessionId
    rw [List.map_append]
    exact List.mem_append_left _ (sound.ended entry member)
  · change (state.books.minted ++ [minted]).map Minted.number = List.range (state.books.minted ++ [minted]).length
    rw [List.map_append, sound.numbered, List.length_append, List.length_singleton, List.range_succ]
    rfl
  · change ((state.books.minted ++ [minted]).map Minted.sessionId).Nodup
    rw [List.map_append]
    exact List.nodup_append_comm.mp (List.nodup_cons.mpr ⟨fresh, sound.unique⟩)
  · obtain old | new := List.mem_append.mp member
    · exact (sound.minted own old).grows grows
    · rw [List.mem_singleton.mp new]
      exact redeemed.grows grows
  · obtain old | new := List.mem_append.mp member
    · have stands := sound.sessions session old
      exact stands.grows grows ((stays session.user).mpr stands.present) (fun entry new old => absurd new old)
        (fun claim new old => absurd new old)
    · rw [List.mem_singleton.mp new]
      have itself : minted ∈ state.books.minted ++ [minted] := List.mem_append_right _ List.mem_cons_self
      refine ⟨⟨minted, itself, rfl, rfl, rfl, .inl rfl⟩, (stays user).mpr ?_, fun other at_ entry => ?_,
        fun claim member own known same _ below => ?_⟩
      · rw [there]
        exact Option.some_ne_none _
      · rintro rfl
        exact fresh (sound.ended _ entry)
      · obtain old | new := List.mem_append.mp known
        · refine absurd ?_ fresh
          rw [← show own.sessionId = sessionId from same]
          exact List.mem_map_of_mem old
        · rw [List.mem_singleton.mp new] at below
          exact absurd below (Nat.not_lt.mpr (sound.claims claim member).2)
  · obtain none_ | old := set_requests_cases found
    · cases none_
    · exact (sound.requests other progress old).grows grows

/-- A claim ends the other sessions of its link that are not claimed yet. -/
theorem Sound.claim (sound : Sound state) {lookup : Lookup} {tokenHash : String}
    (found : state.requests request = some (.found lookup tokenHash)) :
    Sound { ((state.claim lookup tokenHash).accept lookup).set request none with steps := state.steps + 1 } := by
  set claim : Claim := ⟨lookup.sessionId, tokenHash, state.steps, state.books.minted.length⟩ with claimed
  have grows : Grows state.steps state.books { state.books with claimed := state.books.claimed ++ [claim] } := by
    refine { Grows.refl state.steps state.books with
      claimed := List.subset_append_left _ _
      claimedNew := fun other member => ?_ }
    obtain old | new := List.mem_append.mp member
    · exact .inl old
    · rw [List.mem_singleton.mp new]
      exact .inr rfl
  have itself : claim ∈ state.books.claimed ++ [claim] := List.mem_append_right _ List.mem_cons_self
  obtain ⟨legitimate, own, opened, same, link⟩ := sound.requests request _ found
  refine ⟨sound.users, fun other at_ member => ?_, fun other member => ?_, sound.ended, sound.numbered, sound.unique,
    sound.tokens, fun minted member => (sound.minted minted member).grows grows, fun session member => ?_,
    fun other progress there => ?_, fun other member => ?_⟩
  · obtain ⟨gone, known, before⟩ := sound.deleted other at_ member
    exact ⟨gone, known, Nat.lt_succ_of_lt before⟩
  · obtain old | new := List.mem_append.mp member
    · obtain ⟨before, many⟩ := sound.claims other old
      exact ⟨Nat.lt_succ_of_lt before, many⟩
    · rw [List.mem_singleton.mp new]
      exact ⟨Nat.lt_succ_self _, Nat.le_refl _⟩
  · obtain ⟨row, kept, rfl⟩ := List.mem_map.mp member
    obtain ⟨among, stays⟩ := List.mem_filter.mp kept
    have stands := sound.sessions row among
    -- Whoever is left is the session that is claimed, or was not of this link any more.
    have later : Stands { state.books with claimed := state.books.claimed ++ [claim] } state.users row := by
      refine stands.grows grows stands.present (fun entry new old => absurd new old)
        fun other new old minted known mine ofLink => ?_
      obtain earlier | now := List.mem_append.mp new
      · exact absurd earlier old
      · rw [List.mem_singleton.mp now] at ofLink ⊢
        by_cases claims : row.sessionId = lookup.sessionId
        · exact .inl (mine.trans claims)
        · obtain ⟨ownMinted, ownOpened, ownSame, -, -, unclaimed | ⟨-, before, beforeMember, beforeSame⟩⟩ :=
            stands.opened
          · have one : minted = ownMinted :=
              List.inj_on_of_nodup_map sound.unique known ownOpened (mine.trans ownSame.symm)
            refine absurd ?_ (of_decide_eq_true stays)
            rw [unclaimed, ← one]
            exact ⟨congrArg some ofLink, claims⟩
          · exact .inr ⟨before, List.mem_append_left _ beforeMember, beforeSame.trans mine.symm,
              (sound.claims before beforeMember).1⟩
    split
    · next claims =>
      obtain ⟨ownMinted, ownOpened, ownSame, ownUser, ownTime, -⟩ := later.opened
      exact ⟨⟨ownMinted, ownOpened, ownSame, ownUser, ownTime, .inr ⟨rfl, claim, itself, claims.symm⟩⟩, later.present,
        later.open_, later.outlives⟩
    · exact later
  · obtain none_ | old := set_requests_cases there
    · cases none_
    · exact (sound.requests other progress old).grows grows
  · obtain old | new := List.mem_append.mp member
    · exact (sound.accepted other old).grows grows
    · rw [List.mem_singleton.mp new]
      exact legitimate.grows grows

omit [DecidableEq ι] in
theorem Sound.logsOut (sound : Sound state) (sessionId : String) :
    Sound { state with
      sessions := state.sessions.filter (·.sessionId ≠ sessionId)
      books := { state.books with
        loggedOut := if sessionId ∈ state.books.minted.map Minted.sessionId then
          state.books.loggedOut ++ [(sessionId, state.steps)] else state.books.loggedOut }
      steps := state.steps + 1 } := by
  have cases_ : ∀ entry ∈ (if sessionId ∈ state.books.minted.map Minted.sessionId then
      state.books.loggedOut ++ [(sessionId, state.steps)] else state.books.loggedOut),
      entry ∈ state.books.loggedOut ∨
        entry = (sessionId, state.steps) ∧ sessionId ∈ state.books.minted.map Minted.sessionId := by
    intro entry member
    split at member
    · next known =>
      obtain old | new := List.mem_append.mp member
      · exact .inl old
      · exact .inr ⟨List.mem_singleton.mp new, known⟩
    · exact .inl member
  have grows : Grows state.steps state.books { state.books with
      loggedOut := if sessionId ∈ state.books.minted.map Minted.sessionId then
        state.books.loggedOut ++ [(sessionId, state.steps)] else state.books.loggedOut } := by
    refine { Grows.refl state.steps state.books with loggedOutNew := fun entry member => ?_ }
    obtain old | ⟨rfl, -⟩ := cases_ entry member
    · exact .inl old
    · exact .inr rfl
  refine ⟨sound.users, fun other at_ member => ?_, fun claim member => ?_, fun entry member => ?_, sound.numbered,
    sound.unique, sound.tokens, sound.minted, fun session member => ?_,
    fun request progress found => (sound.requests request progress found).grows grows,
    fun lookup member => (sound.accepted lookup member).grows grows⟩
  · obtain ⟨gone, known, before⟩ := sound.deleted other at_ member
    exact ⟨gone, known, Nat.lt_succ_of_lt before⟩
  · obtain ⟨before, many⟩ := sound.claims claim member
    exact ⟨Nat.lt_succ_of_lt before, many⟩
  · obtain old | ⟨rfl, known⟩ := cases_ entry member
    · exact sound.ended entry old
    · exact known
  · obtain ⟨among, other⟩ := List.mem_filter.mp member
    have stands := sound.sessions session among
    refine stands.grows grows stands.present (fun entry new old => ?_) (fun claim new old => absurd new old)
    obtain earlier | ⟨rfl, -⟩ := cases_ entry new
    · exact absurd earlier old
    · exact (of_decide_eq_true other).symm

omit [DecidableEq ι] in
theorem Sound.initial : Sound ({} : State ι) where
  users := fun _ there => absurd rfl there
  deleted := by
    intro user at_ none
    cases none
  claims := List.forall_mem_nil _
  ended := List.forall_mem_nil _
  numbered := rfl
  unique := .nil
  tokens := List.forall_mem_nil _
  minted := List.forall_mem_nil _
  sessions := List.forall_mem_nil _
  requests := by
    intro request progress none
    cases none
  accepted := List.forall_mem_nil _

omit [DecidableEq ι] in
/-- What a lookup finds. -/
theorem Sound.lookup (sound : Sound state) {session : Session} {sessionId : String} (member : session ∈ state.sessions)
    (visible : state.visible session sessionId = true) :
    Legitimate state.books (state.steps + 1) ⟨sessionId, session.user, state.steps, state.now⟩ ∧
    ∀ tokenHash, session.createdBy = some tokenHash →
      ∃ minted ∈ state.books.minted, minted.sessionId = sessionId ∧ minted.tokenHash = tokenHash := by
  have stands := sound.sessions session member
  rw [State.visible, Bool.and_eq_true, Bool.and_eq_true] at visible
  obtain ⟨⟨same, open_⟩, -⟩ := visible
  obtain rfl := of_decide_eq_true same
  obtain ⟨own, opened, mine, user, expires, link⟩ := stands.opened
  refine ⟨⟨Nat.lt_succ_self _, ⟨own, opened, mine, user, ?_⟩, fun other at_ deleted is => ?_,
    fun other at_ ended is => absurd is (stands.open_ other at_ ended),
    fun claim claimed _ minted known is ofLink below => stands.outlives claim claimed minted known is ofLink below⟩,
    fun tokenHash unclaimed => ⟨own, opened, mine, ?_⟩⟩
  · rw [expires]
    exact of_decide_eq_true open_
  · refine absurd (sound.deleted other at_ deleted).1 ?_
    rw [is]
    exact stands.present
  · obtain by_ | ⟨claimed, -⟩ := link
    · exact Option.some.inj (by_.symm.trans unclaimed)
    · rw [claimed] at unclaimed
      cases unclaimed

theorem Sound.kept (sound : Sound state) {event : Event ι} (stepped : step state event = some next) : Sound next := by
  obtain ⟨moved, there, rfl⟩ := Option.map_eq_some_iff.mp stepped
  have same : ∀ token ∈ state.tokens, ∃ old ∈ state.tokens, old.tokenHash = token.tokenHash ∧ old.user = token.user ∧
      old.expiresAt = token.expiresAt := fun token member => ⟨token, member, rfl, rfl, rfl⟩
  cases event with
  | passes seconds =>
    cases there
    exact sound.quiet rfl rfl rfl same (List.Subset.refl _) (fun _ _ found => .inr found) fun _ member => .inr member
  | createsUser user =>
    simp only [move] at there
    split at there
    · cases there
    · next fresh =>
      cases there
      exact sound.createsUser fresh
  | deletesUser user =>
    simp only [move] at there
    split at there
    · cases there
    · next present =>
      cases there
      exact sound.deletesUser present
  | issues tokenHash user ttl redemptions revoked =>
    simp only [move] at there
    split at there
    · cases there
    · cases there
      refine sound.issues ⟨tokenHash, user, state.now + ttl⟩ fun token member => ?_
      obtain old | new := List.mem_append.mp member
      · exact .inl (List.mem_filter.mp old).1
      · rw [List.mem_singleton.mp new]
        exact .inr ⟨rfl, rfl, rfl⟩
  | consumes request tokenHash =>
    simp only [move] at there
    split at there
    · split at there
      · cases there
        exact sound.quiet rfl rfl rfl same (List.Subset.refl _)
          (fun _ _ found => .inr found) fun _ member => .inr member
      · next token found =>
        cases there
        refine sound.quiet rfl rfl rfl (fun other member => ?_) (List.Subset.refl _) (fun other progress redeems => ?_)
          fun _ member => .inr member
        · obtain ⟨old, among, rfl⟩ := List.mem_map.mp member
          refine ⟨old, among, ?_⟩
          split
          · exact ⟨rfl, rfl, rfl⟩
          · exact ⟨rfl, rfl, rfl⟩
        · obtain new | old := set_requests_cases redeems
          · cases new
            have redeems := List.find?_some found
            have redeemable : token.Redeemable tokenHash state.now := of_decide_eq_true redeems
            obtain ⟨issued, known, link, user, expires⟩ := sound.tokens token (List.mem_of_find?_eq_some found)
            refine .inl ⟨issued, known, link.trans redeemable.1, user, ?_⟩
            rw [expires]
            exact redeemable.2.2.1
          · exact .inr old
    · cases there
  | readsUser request =>
    simp only [move] at there
    split at there
    · next tokenHash user time redeemed =>
      have known : Redeemed state.books tokenHash user time := sound.requests request _ redeemed
      split at there
      · cases there
        refine sound.quiet rfl rfl rfl same (List.Subset.refl _)
          (fun other progress found => ?_) fun _ member => .inr member
        obtain new | old := set_requests_cases found
        · cases new
        · exact .inr old
      · cases there
        refine sound.quiet rfl rfl rfl same (List.Subset.refl _)
          (fun other progress found => ?_) fun _ member => .inr member
        obtain new | old := set_requests_cases found
        · cases new
        · exact .inr old
      · cases there
        refine sound.quiet rfl rfl rfl same (List.Subset.refl _)
          (fun other progress found => ?_) fun _ member => .inr member
        obtain new | old := set_requests_cases found
        · cases new
          exact .inl known
        · exact .inr old
      · cases there
        refine sound.quiet rfl rfl rfl same (List.Subset.refl _)
          (fun other progress found => ?_) fun _ member => .inr member
        obtain new | old := set_requests_cases found
        · cases new
          exact .inl known
        · exact .inr old
    · cases there
  | creates request sessionId ttl =>
    simp only [move] at there
    split at there
    · next tokenHash user time checked =>
      split at there
      · cases there
      · next fresh =>
        split at there
        · cases there
          refine sound.quiet rfl rfl rfl same (List.Subset.refl _) (fun other progress found => ?_)
            fun _ member => .inr member
          obtain new | old := set_requests_cases found
          · cases new
          · exact .inr old
        · next status present =>
          cases there
          exact sound.opening ttl (sound.requests request _ checked) fresh present
    · cases there
  | looksUp request sessionId =>
    simp only [move] at there
    split at there
    · split at there
      · cases there
        exact sound.quiet rfl rfl rfl same (List.Subset.refl _)
          (fun _ _ found => .inr found) fun _ member => .inr member
      · next session found =>
        have seen := List.find?_some found
        obtain ⟨legitimate, linked⟩ := sound.lookup (List.mem_of_find?_eq_some found) seen
        split at there
        · cases there
          refine sound.quiet rfl rfl rfl same (List.Subset.refl _) (fun _ _ found => .inr found) fun lookup member => ?_
          obtain old | new := List.mem_append.mp member
          · exact .inr old
          · rw [List.mem_singleton.mp new]
            exact .inl legitimate
        · next tokenHash unclaimed =>
          cases there
          refine sound.quiet rfl rfl rfl same (List.Subset.refl _) (fun other progress found => ?_)
            fun _ member => .inr member
          obtain new | old := set_requests_cases found
          · cases new
            exact .inl ⟨legitimate, linked tokenHash unclaimed⟩
          · exact .inr old
    · cases there
  | claims request =>
    simp only [move] at there
    split at there
    · next lookup tokenHash found =>
      cases there
      exact sound.claim found
    · cases there
  | logsOut sessionId =>
    cases there
    exact sound.logsOut sessionId
  | purgesTokens =>
    cases there
    exact sound.quiet rfl rfl rfl (fun token member => same token (List.mem_filter.mp member).1) (List.Subset.refl _)
      (fun _ _ found => .inr found) fun _ member => .inr member
  | purgesSessions =>
    cases there
    exact sound.quiet rfl rfl rfl same List.filter_sublist.subset (fun _ _ found => .inr found) fun _ member =>
      .inr member
  | fails request =>
    cases there
    refine sound.quiet rfl rfl rfl same (List.Subset.refl _)
      (fun other progress found => ?_) fun _ member => .inr member
    obtain new | old := set_requests_cases found
    · cases new
    · exact .inr old

/-- Nobody is let in but by a link of one's own: whatever interleaves, each request that is let in as a user presents
a session that had not expired and was opened for that user with a link that had been sent to that user and had not
expired when it was redeemed. -/
theorem every_login_has_a_link {events : List (Event ι)} (reached : run step {} events = some state) :
    ∀ lookup ∈ state.accepted, ∃ minted ∈ state.books.minted, ∃ issued ∈ state.books.issued,
      minted.sessionId = lookup.sessionId ∧ minted.user = lookup.user ∧ lookup.time < minted.expiresAt ∧
      issued.tokenHash = minted.tokenHash ∧ issued.user = lookup.user ∧ minted.redeemedAt < issued.expiresAt := by
  have sound := invariant step (fun sound stepped => Sound.kept sound stepped) Sound.initial reached
  intro lookup member
  obtain ⟨minted, opened, same, user, live⟩ := (sound.accepted lookup member).opened
  obtain ⟨issued, known, link, ownUser, redeemed⟩ := sound.minted minted opened
  exact ⟨minted, opened, issued, known, same, user, live, link, ownUser.trans user, redeemed⟩

theorem every_login_has_a_link_once_claimed : ∃ state : State ℕ,
    run step {} [.createsUser 1, .issues "link" 1 900 1 [], .consumes 0 "link", .readsUser 0, .creates 0 "session" 600,
      .passes 60, .looksUp 0 "session", .claims 0] = some state ∧
    state.accepted = [⟨"session", 1, 6, 60⟩] ∧ ∀ lookup ∈ state.accepted, ∃ minted ∈ state.books.minted,
      ∃ issued ∈ state.books.issued, minted.sessionId = lookup.sessionId ∧ minted.user = lookup.user ∧
      lookup.time < minted.expiresAt ∧ issued.tokenHash = minted.tokenHash ∧ issued.user = lookup.user ∧
      minted.redeemedAt < issued.expiresAt := by
  have ran : ∃ state : State ℕ,
      run step {} [.createsUser 1, .issues "link" 1 900 1 [], .consumes 0 "link", .readsUser 0,
        .creates 0 "session" 600, .passes 60, .looksUp 0 "session", .claims 0] = some state ∧
      state.accepted = [⟨"session", 1, 6, 60⟩] := ⟨_, rfl, rfl⟩
  obtain ⟨state, reached, accepted⟩ := ran
  exact ⟨state, reached, accepted, every_login_has_a_link reached⟩

/-- What is revoked is revoked at once: no request is let in by a lookup that comes after its user was deleted, though a
link of the user be just redeemed then, or after its session was logged out of, or after another session of its link was
claimed, unless it had been claimed before or was opened only afterwards. -/
theorem revocation_is_immediate {events : List (Event ι)} (reached : run step {} events = some state) :
    ∀ lookup ∈ state.accepted,
      (∀ at_, (lookup.user, at_) ∈ state.books.deleted → lookup.at_ < at_) ∧
      (∀ at_, (lookup.sessionId, at_) ∈ state.books.loggedOut → lookup.at_ < at_) ∧
      ∀ minted ∈ state.books.minted, minted.sessionId = lookup.sessionId → ∀ claim ∈ state.books.claimed,
        claim.tokenHash = minted.tokenHash → claim.sessionId ≠ minted.sessionId → minted.number < claim.minted →
        lookup.at_ < claim.at_ ∨
          ∃ own ∈ state.books.claimed, own.sessionId = minted.sessionId ∧ own.at_ < claim.at_ := by
  have sound := invariant step (fun sound stepped => Sound.kept sound stepped) Sound.initial reached
  intro lookup member
  have legitimate := sound.accepted lookup member
  refine ⟨fun at_ deleted => legitimate.present _ at_ deleted rfl, fun at_ ended => legitimate.open_ _ at_ ended rfl,
    fun minted opened mine claim claimed link other below => ?_⟩
  by_cases before : claim.at_ ≤ lookup.at_
  · obtain same | earlier := legitimate.outlives claim claimed before minted opened mine link.symm below
    · exact absurd same.symm other
    · exact .inr earlier
  · exact .inl (Nat.lt_of_not_le before)

theorem revocation_is_immediate_once_claimed : ∃ state : State ℕ,
    run step {} [.createsUser 1, .issues "link" 1 900 2 [], .consumes 0 "link", .readsUser 0, .creates 0 "bot" 600,
      .consumes 0 "link", .readsUser 0, .creates 0 "human" 600, .looksUp 1 "bot", .looksUp 0 "human", .claims 0,
      .looksUp 2 "bot", .looksUp 0 "human", .deletesUser 1, .looksUp 0 "human"] = some state ∧
    state.accepted = [⟨"human", 1, 9, 0⟩, ⟨"human", 1, 12, 0⟩] ∧ ∀ lookup ∈ state.accepted,
      (∀ at_, (lookup.user, at_) ∈ state.books.deleted → lookup.at_ < at_) ∧
      (∀ at_, (lookup.sessionId, at_) ∈ state.books.loggedOut → lookup.at_ < at_) ∧
      ∀ minted ∈ state.books.minted, minted.sessionId = lookup.sessionId → ∀ claim ∈ state.books.claimed,
        claim.tokenHash = minted.tokenHash → claim.sessionId ≠ minted.sessionId → minted.number < claim.minted →
        lookup.at_ < claim.at_ ∨
          ∃ own ∈ state.books.claimed, own.sessionId = minted.sessionId ∧ own.at_ < claim.at_ := by
  have ran : ∃ state : State ℕ,
      run step {} [.createsUser 1, .issues "link" 1 900 2 [], .consumes 0 "link", .readsUser 0, .creates 0 "bot" 600,
        .consumes 0 "link", .readsUser 0, .creates 0 "human" 600, .looksUp 1 "bot", .looksUp 0 "human", .claims 0,
        .looksUp 2 "bot", .looksUp 0 "human", .deletesUser 1, .looksUp 0 "human"] = some state ∧
      state.accepted = [⟨"human", 1, 9, 0⟩, ⟨"human", 1, 12, 0⟩] := ⟨_, rfl, rfl⟩
  obtain ⟨state, reached, accepted⟩ := ran
  exact ⟨state, reached, accepted, revocation_is_immediate reached⟩

end

end TransactionMonitoring.Sessions
