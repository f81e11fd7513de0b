import Mathlib.Data.List.Nodup
import TransactionMonitoring.Runs

/-! The users who administer the system.

A request is authorised by its session first and reaches its transaction at any later time.
A role change or a deletion runs under one advisory lock, first the guard and then the write;
the insert of a new user and the sign-in of an invited one take no lock and may come between.
Users and sessions are rows; the email addresses are compared after `lower`, a parameter.
-/
namespace TransactionMonitoring.Admins

inductive Role where
  | admin
  | reviewer
deriving DecidableEq, Repr

inductive Status where
  | pending
  | active
  | disabled
deriving DecidableEq, Repr

/-- A row of `users`. -/
structure User where
  id : Nat
  email : String
  fullName : String
  role : Role
  status : Status
deriving DecidableEq, Repr

def User.IsActiveAdmin (user : User) : Prop := user.role = .admin ∧ user.status = .active

instance (user : User) : Decidable user.IsActiveAdmin :=
  inferInstanceAs (Decidable (user.role = .admin ∧ user.status = .active))

/-- The `users` table with its primary key. -/
structure Users where
  rows : List User
  ids : (rows.map User.id).Nodup
deriving DecidableEq

def Users.find (users : Users) (id : Nat) : Option User := users.rows.find? (·.id = id)

/-- `UPDATE users SET … WHERE id = …`. -/
def Users.update (users : Users) (id : Nat) (change : User → User) (same : ∀ user, (change user).id = user.id) :
    Users where
  rows := users.rows.map fun user => if user.id = id then change user else user
  ids := by
    have unchanged : User.id ∘ (fun user => if user.id = id then change user else user) = User.id := by
      funext user
      by_cases chosen : user.id = id
      · simp [chosen, same]
      · simp [chosen]
    simpa [List.map_map, unchanged] using users.ids

/-- `DELETE FROM users WHERE id = …`. -/
def Users.delete (users : Users) (id : Nat) : Users where
  rows := users.rows.filter (·.id ≠ id)
  ids := users.ids.sublist (List.filter_sublist.map User.id)

/-- `INSERT INTO users`; `none` where the primary key or the index on `lower(email)` refuses the row. -/
def Users.insert (lower : String → String) (users : Users) (user : User) : Option Users :=
  if fresh : user.id ∉ users.rows.map User.id ∧ ∀ other ∈ users.rows, lower other.email ≠ lower user.email then
    some ⟨users.rows ++ [user], by
      rw [List.map_append, List.nodup_append]
      refine ⟨users.ids, by simp, ?_⟩
      intro id member other single
      obtain rfl : other = user.id := by simpa using single
      rintro rfl
      exact fresh.1 member⟩
  else none

def Users.setRole (users : Users) (id : Nat) (role : Role) : Users :=
  users.update id (fun user => { user with role }) fun _ => rfl

/-- The `UPDATE` of `create_session`: a pending user becomes active. -/
def Users.signIn (users : Users) (id : Nat) : Users :=
  users.update id (fun user => { user with status := if user.status = .pending then .active else user.status })
    fun _ => rfl

/-- A row of `user_sessions`: whose it is. -/
structure Session where
  user : Nat
deriving DecidableEq, Repr

inductive Request where
  | createUser (id : Nat) (email fullName : String) (role : Role)
  | updateUser (target : Nat) (role : Role)
  | deleteUser (target : Nat)
deriving DecidableEq, Repr

structure Refusal where
  status : Nat
  detail : String
deriving DecidableEq, Repr

/-- `require_admin` for the user of a session. -/
def requireAdmin (users : Users) (session : Session) : Except Refusal User :=
  match users.find session.user with
  | none => .error ⟨401, "Authentication required."⟩
  | some user =>
      if user.status = .disabled then .error ⟨401, "Authentication required."⟩
      else if user.role ≠ .admin then .error ⟨403, "Admin role required."⟩
      else .ok user

/-- The count of `_assert_admin_remains`. -/
def otherActiveAdmins (users : Users) (id : Nat) : Nat :=
  users.rows.countP fun user => user.role = .admin ∧ user.status ≠ .disabled ∧ user.id ≠ id

/-- `_assert_admin_remains`. -/
def assertAdminRemains (users : Users) (id : Nat) (action : String) : Except Refusal Unit :=
  if otherActiveAdmins users id = 0 then .error ⟨400, "Cannot " ++ action ++ " the last active Admin."⟩ else .ok ()

/-- Everything a role change or a deletion decides under the lock before it writes. -/
def check (users : Users) (admin : Nat) : Request → Except Refusal Unit
  | .createUser _ _ _ _ => .ok ()
  | .updateUser target role =>
      if target = admin then .error ⟨400, "You cannot change your own role."⟩
      else match users.find target with
        | none => .error ⟨404, "User not found."⟩
        | some user =>
            if user.role = .admin ∧ role = .reviewer then assertAdminRemains users target "demote" else .ok ()
  | .deleteUser target =>
      if target = admin then .error ⟨400, "You cannot delete your own account."⟩
      else match users.find target with
        | none => .error ⟨404, "User not found."⟩
        | some user => if user.role = .admin then assertAdminRemains users target "delete" else .ok ()

structure Tables where
  users : Users
  sessions : List Session
deriving DecidableEq

/-- The write of a request that passed its checks. -/
def write (lower : String → String) (tables : Tables) : Request → Except Refusal Tables
  | .createUser id email fullName role =>
      if ∃ other ∈ tables.users.rows, lower other.email = lower email then
        .error ⟨409, "A user with this email already exists."⟩
      else match tables.users.insert lower ⟨id, email, fullName, role, .pending⟩ with
        | some users => .ok { tables with users }
        | none => .error ⟨500, "Internal Server Error"⟩
  | .updateUser target role => .ok { tables with users := tables.users.setRole target role }
  | .deleteUser target =>
      .ok ⟨tables.users.delete target, tables.sessions.filter (·.user ≠ target)⟩

/-- Where a call stands. -/
inductive Call where
  /-- `require_admin` has let the request in. -/
  | admitted (admin : Nat) (request : Request)
  /-- The lock is held and the guard has passed. -/
  | checked (request : Request)
  /-- A token was redeemed and the user read; the session is still to be created. -/
  | redeemed (user : Nat)
  | answered
  | refused (refusal : Refusal)
deriving DecidableEq

structure State where
  tables : Tables
  calls : List Call
  /-- The call that holds the advisory lock. -/
  lock : Option Nat
deriving DecidableEq

def start (tables : Tables) : State := ⟨tables, [], none⟩

inductive Event where
  | authorize (session : Nat) (request : Request)
  /-- The locked transaction of a role change or deletion, up to its write. -/
  | check (call : Nat)
  /-- The write and the commit. -/
  | write (call : Nat)
  /-- The locked transaction fails and rolls back. -/
  | abort (call : Nat)
  /-- `verify`, up to the session: the token named this user. -/
  | redeem (user : Nat)
  /-- The transaction of `create_session`. -/
  | signIn (call : Nat)
deriving DecidableEq

def State.move (state : State) (index : Nat) (call : Call) : State :=
  { state with calls := state.calls.set index call }

def Request.locks : Request → Bool
  | .createUser _ _ _ _ => false
  | .updateUser _ _ | .deleteUser _ => true

def step (lower : String → String) (state : State) : Event → Option State
  | .authorize index request => do
      let session ← state.tables.sessions[index]?
      match requireAdmin state.tables.users session with
      | .ok user => some { state with calls := state.calls ++ [.admitted user.id request] }
      | .error refusal => some { state with calls := state.calls ++ [.refused refusal] }
  | .check index =>
      match state.calls[index]?, state.lock with
      | some (.admitted admin request), none =>
          if request.locks then
            match check state.tables.users admin request with
            | .ok () => some { state.move index (.checked request) with lock := some index }
            | .error refusal => some (state.move index (.refused refusal))
          else none
      | _, _ => none
  | .write index =>
      match state.calls[index]? with
      | some (.checked request) =>
          match write lower state.tables request with
          | .ok tables => some { state.move index .answered with tables, lock := none }
          | .error refusal => some { state.move index (.refused refusal) with lock := none }
      | some (.admitted _ request) =>
          -- A creation has no lock and no guard.
          if request.locks then none
          else match write lower state.tables request with
            | .ok tables => some { state.move index .answered with tables }
            | .error refusal => some (state.move index (.refused refusal))
      | _ => none
  | .abort index =>
      match state.calls[index]? with
      | some (.checked _) => some { state.move index .answered with lock := none }
      | _ => none
  | .redeem id =>
      match state.tables.users.find id with
      | some user =>
          if user.status = .disabled then
            some { state with calls := state.calls ++ [.refused ⟨400, "This link is invalid or has expired."⟩] }
          else some { state with calls := state.calls ++ [.redeemed user.id] }
      | none => some { state with calls := state.calls ++ [.refused ⟨400, "This link is invalid or has expired."⟩] }
  | .signIn index =>
      match state.calls[index]? with
      | some (.redeemed id) =>
          -- The session's foreign key refuses a user deleted meanwhile.
          if (state.tables.users.find id).isSome then
            some { state.move index .answered with
              tables := ⟨state.tables.users.signIn id, state.tables.sessions ++ [⟨id⟩]⟩ }
          else some (state.move index .answered)
      | _ => none

/-! ## Who is left -/

/-- Someone can log in and administer the system. -/
def AdminRemains (users : Users) : Prop := ∃ user ∈ users.rows, user.IsActiveAdmin

instance (users : Users) : Decidable (AdminRemains users) :=
  inferInstanceAs (Decidable (∃ user ∈ users.rows, user.IsActiveAdmin))

/-- Someone can without this user. -/
def OtherActive (users : Users) (id : Nat) : Prop := ∃ user ∈ users.rows, user.IsActiveAdmin ∧ user.id ≠ id

instance (users : Users) (id : Nat) : Decidable (OtherActive users id) :=
  inferInstanceAs (Decidable (∃ user ∈ users.rows, user.IsActiveAdmin ∧ user.id ≠ id))

/-- Another Admin is invited and has not signed in yet. -/
def OtherPending (users : Users) (id : Nat) : Prop :=
  ∃ user ∈ users.rows, user.role = .admin ∧ user.status = .pending ∧ user.id ≠ id

instance (users : Users) (id : Nat) : Decidable (OtherPending users id) :=
  inferInstanceAs (Decidable (∃ user ∈ users.rows, user.role = .admin ∧ user.status = .pending ∧ user.id ≠ id))

/-- The guard counts the invited with the active. -/
theorem otherActiveAdmins_pos_iff (users : Users) (id : Nat) :
    otherActiveAdmins users id ≠ 0 ↔ OtherActive users id ∨ OtherPending users id := by
  rw [← Nat.pos_iff_ne_zero, otherActiveAdmins, List.countP_pos_iff]
  constructor
  · rintro ⟨user, member, counted⟩
    obtain ⟨role, enabled, other⟩ := of_decide_eq_true counted
    cases status : user.status with
    | pending => exact Or.inr ⟨user, member, role, status, other⟩
    | active => exact Or.inl ⟨user, member, ⟨role, status⟩, other⟩
    | disabled => exact absurd status enabled
  · rintro (⟨user, member, ⟨role, status⟩, other⟩ | ⟨user, member, role, status, other⟩)
    · exact ⟨user, member, by simp [role, status, other]⟩
    · exact ⟨user, member, by simp [role, status, other]⟩

/-- The user whose privilege the request may take away. -/
def Request.strips : Request → Option Nat
  | .updateUser target .reviewer | .deleteUser target => some target
  | .updateUser _ .admin | .createUser _ _ _ _ => none

/-- A request whose guard has passed leaves another active Admin. -/
def Spares (users : Users) (request : Request) : Prop := ∀ target ∈ request.strips, OtherActive users target

/-- `_assert_admin_remains` is asked: someone else's Admin privilege is to be taken away. -/
def Asks (users : Users) (admin target : Nat) : Prop :=
  target ≠ admin ∧ ∃ user ∈ users.find target, user.role = .admin

instance (users : Users) (admin target : Nat) : Decidable (Asks users admin target) :=
  inferInstanceAs (Decidable (target ≠ admin ∧ ∃ user ∈ users.find target, user.role = .admin))

/-- Where the guard is asked, it counts no pending Admin unless it counts an active one too. -/
def CountsActive (users : Users) (admin : Nat) (request : Request) : Prop :=
  ∀ target ∈ request.strips, Asks users admin target → OtherPending users target → OtherActive users target

instance (users : Users) (admin : Nat) (request : Request) : Decidable (CountsActive users admin request) :=
  inferInstanceAs (Decidable (∀ target ∈ request.strips, Asks users admin target → OtherPending users target →
    OtherActive users target))

theorem otherActive_of_find {users : Users} {target : Nat} {user : User} (found : users.find target = some user)
    (reviewer : user.role ≠ .admin) (remains : AdminRemains users) : OtherActive users target := by
  obtain ⟨admin, member, active⟩ := remains
  refine ⟨admin, member, active, ?_⟩
  intro same
  have keyed : user.id = target := by simpa using List.find?_some found
  have one : user = admin :=
    List.inj_on_of_nodup_map users.ids (List.mem_of_find?_eq_some found) member (keyed.trans same.symm)
  exact reviewer (one ▸ active.1)

theorem otherActive_of_assert {users : Users} {target : Nat} {action : String}
    (passed : assertAdminRemains users target action = .ok ())
    (counts : OtherPending users target → OtherActive users target) : OtherActive users target := by
  have counted : otherActiveAdmins users target ≠ 0 := by
    intro zero
    simp [assertAdminRemains, zero] at passed
  rcases (otherActiveAdmins_pos_iff users target).mp counted with active | pending
  · exact active
  · exact counts pending

theorem spares_of_check {users : Users} {admin : Nat} {request : Request}
    (passed : check users admin request = .ok ()) (remains : AdminRemains users)
    (counts : CountsActive users admin request) : Spares users request := by
  intro target strips
  cases request with
  | createUser id email fullName role => cases strips
  | updateUser other role =>
    cases role with
    | admin => cases strips
    | reviewer =>
      obtain rfl : other = target := Option.some.inj strips
      simp only [check] at passed
      split at passed
      · cases passed
      · rename_i foreign
        split at passed
        · cases passed
        · rename_i user found
          split at passed
          · rename_i demotes
            exact otherActive_of_assert passed (counts other strips ⟨foreign, user, found, demotes.1⟩)
          · rename_i spared
            exact otherActive_of_find found (fun role => spared ⟨role, trivial⟩) remains
  | deleteUser other =>
    obtain rfl : other = target := Option.some.inj strips
    simp only [check] at passed
    split at passed
    · cases passed
    · rename_i foreign
      split at passed
      · cases passed
      · rename_i user found
        split at passed
        · rename_i isAdmin
          exact otherActive_of_assert passed (counts other strips ⟨foreign, user, found, isAdmin⟩)
        · rename_i reviewer
          exact otherActive_of_find found reviewer remains

/-! ## What a write keeps -/

/-- Every active Admin is still one. -/
def KeepsAdmins (users next : Users) : Prop :=
  ∀ user ∈ users.rows, user.IsActiveAdmin → ∃ kept ∈ next.rows, kept.IsActiveAdmin ∧ kept.id = user.id

theorem KeepsAdmins.remains {users next : Users} (keeps : KeepsAdmins users next) (remains : AdminRemains users) :
    AdminRemains next := by
  obtain ⟨user, member, active⟩ := remains
  obtain ⟨kept, found, still, _⟩ := keeps user member active
  exact ⟨kept, found, still⟩

theorem KeepsAdmins.spares {users next : Users} (keeps : KeepsAdmins users next) {request : Request}
    (spared : Spares users request) : Spares next request := by
  intro target strips
  obtain ⟨user, member, active, other⟩ := spared target strips
  obtain ⟨kept, found, still, same⟩ := keeps user member active
  exact ⟨kept, found, still, same ▸ other⟩

theorem keepsAdmins_insert {lower : String → String} {users next : Users} {user : User}
    (inserted : users.insert lower user = some next) : KeepsAdmins users next := by
  intro admin member active
  simp only [Users.insert] at inserted
  split at inserted
  · obtain rfl := Option.some.inj inserted
    exact ⟨admin, List.mem_append_left _ member, active, rfl⟩
  · cases inserted

theorem keepsAdmins_signIn (users : Users) (id : Nat) : KeepsAdmins users (users.signIn id) := by
  intro admin member active
  refine ⟨_, List.mem_map_of_mem member, ?_, ?_⟩
  · split
    · exact ⟨active.1, by simp [active.2]⟩
    · exact active
  · split
    · rfl
    · rfl

theorem remains_of_write {lower : String → String} {tables next : Tables} {request : Request}
    (wrote : write lower tables request = .ok next) (remains : AdminRemains tables.users)
    (spared : Spares tables.users request) : AdminRemains next.users := by
  cases request with
  | createUser id email fullName role =>
    simp only [write] at wrote
    split at wrote
    · cases wrote
    · split at wrote
      · rename_i users inserted
        obtain rfl := Except.ok.inj wrote
        exact (keepsAdmins_insert inserted).remains remains
      · cases wrote
  | updateUser target role =>
    obtain rfl := Except.ok.inj wrote
    cases role with
    | admin =>
      obtain ⟨user, member, active⟩ := remains
      refine ⟨_, List.mem_map_of_mem member, ?_⟩
      split
      · exact ⟨rfl, active.2⟩
      · exact active
    | reviewer =>
      obtain ⟨user, member, active, other⟩ := spared target rfl
      refine ⟨_, List.mem_map_of_mem member, ?_⟩
      rw [if_neg other]
      exact active
  | deleteUser target =>
    obtain rfl := Except.ok.inj wrote
    obtain ⟨user, member, active, other⟩ := spared target rfl
    exact ⟨user, List.mem_filter.mpr ⟨member, by simpa using other⟩, active⟩

/-! ## Runs -/

structure Kept (state : State) : Prop where
  remains : AdminRemains state.tables.users
  /-- A guard that has passed still holds, and only one call is past it. -/
  checked : ∀ index request, state.calls[index]? = some (.checked request) →
    state.lock = some index ∧ Spares state.tables.users request

theorem kept_start {tables : Tables} (remains : AdminRemains tables.users) : Kept (start tables) where
  remains := remains
  checked := by simp [start]

def Call.CountsActive (users : Users) : Call → Prop
  | .admitted admin request => Admins.CountsActive users admin request
  | .checked _ | .redeemed _ | .answered | .refused _ => True

instance (users : Users) (call : Call) : Decidable (call.CountsActive users) :=
  match call with
  | .admitted admin request => inferInstanceAs (Decidable (Admins.CountsActive users admin request))
  | .checked _ | .redeemed _ | .answered | .refused _ => isTrue trivial

def Event.CountsActive (state : State) : Event → Prop
  | .check index => ∀ call ∈ state.calls[index]?, call.CountsActive state.tables.users
  | .authorize _ _ | .write _ | .abort _ | .redeem _ | .signIn _ => True

instance (state : State) (event : Event) : Decidable (event.CountsActive state) :=
  match event with
  | .check index =>
      inferInstanceAs (Decidable (∀ call ∈ state.calls[index]?, call.CountsActive state.tables.users))
  | .authorize _ _ | .write _ | .abort _ | .redeem _ | .signIn _ => isTrue trivial

/-- A call past its guard; only such a call holds the lock. -/
def Call.IsChecked : Call → Prop
  | .checked _ => True
  | .admitted _ _ | .redeemed _ | .answered | .refused _ => False

section Steps

variable {state : State}

theorem checked_concat (kept : Kept state) {call : Call} (unchecked : ¬ call.IsChecked) {index : Nat}
    {request : Request}
    (found : (state.calls ++ [call])[index]? = some (.checked request)) :
    state.lock = some index ∧ Spares state.tables.users request := by
  rcases Nat.lt_or_ge index state.calls.length with earlier | later
  · rw [List.getElem?_append_left earlier] at found
    exact kept.checked index request found
  · rw [List.getElem?_append_right later] at found
    obtain rfl := List.mem_singleton.mp (List.mem_of_getElem? found)
    exact absurd trivial unchecked

/-- A call that moves to where it holds no lock leaves every other call as it was. -/
theorem checked_move (kept : Kept state) {moved index : Nat} {call : Call} (unchecked : ¬ call.IsChecked)
    {request : Request} (found : (state.move moved call).calls[index]? = some (.checked request)) :
    index ≠ moved ∧ state.lock = some index ∧ Spares state.tables.users request := by
  simp only [State.move, List.getElem?_set] at found
  split at found
  · split at found
    · obtain rfl := Option.some.inj found
      exact absurd trivial unchecked
    · cases found
  · rename_i other
    exact ⟨Ne.symm other, kept.checked index request found⟩

/-- The call that holds the lock lets it go. -/
theorem kept_release (kept : Kept state) {holder : Nat} {request : Request}
    (held : state.calls[holder]? = some (.checked request)) {call : Call} (unchecked : ¬ call.IsChecked)
    {tables : Tables} (remains : AdminRemains tables.users) :
    Kept { state.move holder call with tables, lock := none } where
  remains := remains
  checked := by
    intro index other found
    obtain ⟨different, locked, _⟩ := checked_move kept unchecked found
    rw [(kept.checked holder request held).1] at locked
    exact absurd (Option.some.inj locked).symm different

/-- A call without the lock writes, or not; no Admin is lost. -/
theorem kept_move (kept : Kept state) {index : Nat} {call : Call} (unchecked : ¬ call.IsChecked) {tables : Tables}
    (keeps : KeepsAdmins state.tables.users tables.users) : Kept { state.move index call with tables } where
  remains := keeps.remains kept.remains
  checked := by
    intro other request found
    obtain ⟨_, locked, spared⟩ := checked_move kept unchecked found
    exact ⟨locked, keeps.spares spared⟩

theorem keepsAdmins_refl (users : Users) : KeepsAdmins users users :=
  fun user member active => ⟨user, member, active, rfl⟩

theorem kept_concat (kept : Kept state) {call : Call} (unchecked : ¬ call.IsChecked) :
    Kept { state with calls := state.calls ++ [call] } :=
  ⟨kept.remains, fun _ _ found => checked_concat kept unchecked found⟩

theorem kept_check (kept : Kept state) {admin : Nat} {request : Request} (free : state.lock = none)
    (passed : check state.tables.users admin request = .ok ())
    (counts : CountsActive state.tables.users admin request) (index : Nat) :
    Kept { state.move index (.checked request) with lock := some index } where
  remains := kept.remains
  checked := by
    intro other guarded held
    simp only [State.move, List.getElem?_set] at held
    split at held
    · rename_i same
      split at held
      · obtain rfl : request = guarded := by simpa using held
        exact ⟨congrArg some same, spares_of_check passed kept.remains counts⟩
      · cases held
    · -- Nobody else is past the guard while the lock is free.
      have locked := (kept.checked other guarded held).1
      rw [free] at locked
      cases locked

theorem kept_write {lower : String → String} {next : State} (kept : Kept state) (index : Nat)
    (stepped : step lower state (.write index) = some next) : Kept next := by
  simp only [step] at stepped
  split at stepped
  · rename_i request found
    split at stepped
    · rename_i tables wrote
      obtain rfl := Option.some.inj stepped
      exact kept_release kept found id (remains_of_write wrote kept.remains (kept.checked index request found).2)
    · obtain rfl := Option.some.inj stepped
      exact kept_release kept found id kept.remains
  · rename_i admin request found
    split at stepped
    · cases stepped
    · rename_i unlocked
      split at stepped
      · rename_i tables wrote
        obtain rfl := Option.some.inj stepped
        refine kept_move kept id ?_
        cases request with
        | createUser id email fullName role =>
          simp only [write] at wrote
          split at wrote
          · cases wrote
          · split at wrote
            · rename_i users inserted
              obtain rfl := Except.ok.inj wrote
              exact keepsAdmins_insert inserted
            · cases wrote
        | updateUser target role => exact absurd rfl unlocked
        | deleteUser target => exact absurd rfl unlocked
      · obtain rfl := Option.some.inj stepped
        exact kept_move kept id (keepsAdmins_refl _)
  · cases stepped

theorem kept_step {lower : String → String} {event : Event} {next : State} (counts : event.CountsActive state)
    (kept : Kept state) (stepped : step lower state event = some next) : Kept next := by
  cases event with
  | authorize session request =>
    simp only [step, Option.bind_eq_bind, Option.bind_eq_some_iff] at stepped
    obtain ⟨session, _, answered⟩ := stepped
    split at answered
    · obtain rfl := Option.some.inj answered
      exact kept_concat kept id
    · obtain rfl := Option.some.inj answered
      exact kept_concat kept id
  | check index =>
    simp only [step] at stepped
    split at stepped
    · rename_i admin request found free
      split at stepped
      · split at stepped
        · rename_i passed
          obtain rfl := Option.some.inj stepped
          exact kept_check kept free passed (counts _ found) index
        · obtain rfl := Option.some.inj stepped
          exact kept_move kept id (keepsAdmins_refl _)
      · cases stepped
    · cases stepped
  | write index => exact kept_write kept index stepped
  | abort index =>
    simp only [step] at stepped
    split at stepped
    · rename_i request found
      obtain rfl := Option.some.inj stepped
      exact kept_release kept found id kept.remains
    · cases stepped
  | redeem user =>
    simp only [step] at stepped
    split at stepped
    · split at stepped
      · obtain rfl := Option.some.inj stepped
        exact kept_concat kept id
      · obtain rfl := Option.some.inj stepped
        exact kept_concat kept id
    · obtain rfl := Option.some.inj stepped
      exact kept_concat kept id
  | signIn index =>
    simp only [step] at stepped
    split at stepped
    · rename_i user _
      split at stepped
      · obtain rfl := Option.some.inj stepped
        exact kept_move kept id (keepsAdmins_signIn _ user)
      · obtain rfl := Option.some.inj stepped
        exact kept_move kept id (keepsAdmins_refl _)
    · cases stepped

end Steps

/-- **An active Admin remains** over every interleaving in which no guard passes on the
strength of pending Admins alone. -/
theorem admin_remains_of_counts_active {lower : String → String} {tables : Tables} {events : List Event} {state : State}
    (initially : AdminRemains tables.users)
    (met : Runs.EveryStep (step lower) (fun state event => event.CountsActive state) (start tables) events)
    (reached : Runs.run (step lower) (start tables) events = some state) : AdminRemains state.tables.users := by
  have kept : Kept state :=
    Runs.invariant_of_step (step lower) (fun counts kept stepped => kept_step counts kept stepped)
      (kept_start initially) met reached
  exact kept.remains

private def admin (id : Nat) (status : Status) : User :=
  ⟨id, toString id ++ "@example.org", "Admin", .admin, status⟩

/-- Two active Admins, signed in, and a third one invited. -/
private def twoAndInvited : Tables :=
  ⟨⟨[admin 1 .active, admin 2 .active, admin 3 .pending], by decide⟩, [⟨1⟩, ⟨2⟩]⟩

private def signsInBetween : List Event :=
  [.authorize 0 (.deleteUser 2), .authorize 1 (.deleteUser 1), .redeem 3, .signIn 2, .check 0, .write 0, .check 1,
    .write 1]

/-- The invited Admin signs in between the two deletions: the second one finds her active. -/
theorem admin_remains_after_sign_in :
    ∃ state, Runs.run (step id) (start twoAndInvited) signsInBetween = some state ∧
      AdminRemains state.tables.users ∧ state.tables.users.rows = [admin 3 .active] := by
  have met : Runs.EveryStep (step id) (fun state event => event.CountsActive state) (start twoAndInvited)
      signsInBetween := by decide +kernel
  exact ⟨_, rfl, admin_remains_of_counts_active (by decide) met rfl, rfl⟩

/-- Two Admins delete each other while a third is only invited. -/
theorem no_admin_remains_after_mutual_deletion :
    AdminRemains twoAndInvited.users ∧
      ∃ state, Runs.run (step id) (start twoAndInvited)
          [.authorize 0 (.deleteUser 2), .authorize 1 (.deleteUser 1), .check 0, .write 0, .check 1, .write 1] =
            some state ∧
        ¬ AdminRemains state.tables.users ∧ state.tables.users.rows = [admin 3 .pending] :=
  ⟨by decide, _, rfl, by decide, rfl⟩

end TransactionMonitoring.Admins
