import Mathlib.Logic.Function.Basic
import TransactionMonitoring.Runs

/-! The leader guard of ingestion and analysis, over any number of processes.

A process leads while one connection of its own holds an advisory lock of the database.  The lock
belongs to the session behind the connection: it ends with the session, and the process is not
told.  Answers travel, processes crash and are started again, a shutdown may land in the middle of
a probe, and the server may end any session at any time.

`LEADER_LOCK_ENABLED` is set; without it every process starts its duties at once.
-/
namespace TransactionMonitoring.Leader
open Runs

abbrev Session := Nat

/-- Where a process stands in `lifespan`. -/
inductive Phase where
  | down
  | starting
  | standby
  | leading
  /-- A promotion failed after the lock was won. -/
  | unwinding
  | shuttingDown
deriving DecidableEq, Repr

/-- The connection that a process has open, if any: the probe of `try_acquire`, `_conn`, or what
`release` still has to close. -/
inductive Link where
  | none
  | asking (session : Session)
  | answered (session : Session) (acquired : Bool)
  | held (session : Session)
  | releasing (session : Session)
deriving DecidableEq, Repr

def Link.session : Link → Option Session
  | .none => Option.none
  | .asking session | .answered session _ | .held session | .releasing session => some session

/-- What the process takes to be its lock, or is about to. -/
def Link.won : Link → Option Session
  | .answered session true | .held session => some session
  | _ => Option.none

structure Process where
  phase : Phase := .down
  link : Link := .none
  /-- `_leader_duties_started`. -/
  duties : Bool := false
deriving DecidableEq, Repr

/-- The processes and the database server. -/
structure System (ι : Type) where
  processes : ι → Process := fun _ => {}
  /-- The sessions that the server keeps, and the one that holds the lock. -/
  sessions : Session → Bool := fun _ => false
  holder : Option Session := none
  fresh : Session := 0

inductive Event (ι : Type) where
  | boot (process : ι)
  /-- `try_acquire` connects. -/
  | probe (process : ι)
  /-- The server runs `pg_try_advisory_lock`. -/
  | serve (process : ι)
  /-- The answer arrives; the duties that a won lock starts may fail. -/
  | receive (process : ι) (fails : Bool)
  | probeFails (process : ι)
  | shutdown (process : ι)
  /-- `_stop_leader_duties` is through. -/
  | stop (process : ι)
  /-- `release` forgets the connection, -/
  | release (process : ι)
  /-- has the server run `pg_advisory_unlock`, -/
  | unlock (process : ι)
  /-- and closes it. -/
  | close (process : ι)
  | crash (process : ι)
  /-- The server ends a session, for whatever reason. -/
  | ended (session : Session)

variable {ι : Type} [DecidableEq ι]

section
variable (system : System ι)

def System.set (index : ι) (process : Process) : System ι :=
  { system with processes := Function.update system.processes index process }

/-- `pg_try_advisory_lock` in the session: an ended one takes no lock, and answers nothing. -/
def serveLock (session : Session) : Option (System ι × Bool) :=
  if system.sessions session then
    match system.holder with
    | none => some ({ system with holder := some session }, true)
    | some holder => some (system, decide (holder = session))
  else none

/-- The session ends; a lock it holds is free. -/
def endSession (session : Session) : System ι :=
  { system with
    sessions := Function.update system.sessions session false
    holder := if system.holder = some session then none else system.holder }

def step : Event ι → Option (System ι)
  | .boot index =>
      if (system.processes index).phase = .down then some (system.set index { phase := .starting }) else none
  | .probe index =>
      let process := system.processes index
      if (process.phase = .starting ∨ process.phase = .standby) ∧ process.link = .none then
        some { system.set index { process with link := .asking system.fresh } with
          sessions := Function.update system.sessions system.fresh true
          fresh := system.fresh + 1 }
      else none
  | .serve index =>
      let process := system.processes index
      match process.link with
      | .asking session => do
          let (served, acquired) ← serveLock system session
          some (served.set index { process with link := .answered session acquired })
      | _ => none
  | .receive index fails =>
      let process := system.processes index
      match process.link with
      | .answered session true =>
          -- what fails in `lifespan` ends the process, what fails in `_standby_promote` is unwound
          if fails then
            if process.phase = .starting then some (system.set index {})
            else some (system.set index { phase := .unwinding, link := .held session, duties := true })
          else some (system.set index { phase := .leading, link := .held session, duties := true })
      | .answered _ false => some (system.set index { process with phase := .standby, link := .none })
      | _ => none
  | .probeFails index =>
      let process := system.processes index
      match process.link with
      | .asking _ | .answered _ _ =>
          if process.phase = .starting then some (system.set index {})
          else some (system.set index { process with link := .none })
      | _ => none
  | .shutdown index =>
      let process := system.processes index
      match process.phase with
      -- a probe that is cancelled is forgotten, and its session stays with the server
      | .standby => some (system.set index { phase := .shuttingDown })
      | .leading => some (system.set index { process with phase := .shuttingDown })
      | .unwinding => some (system.set index { process with
          phase := .shuttingDown
          link := match process.link with
            | .releasing _ => .none
            | link => link })
      | _ => none
  | .stop index =>
      let process := system.processes index
      if process.phase = .unwinding ∨ process.phase = .shuttingDown then
        some (system.set index { process with duties := false })
      else none
  | .release index =>
      let process := system.processes index
      match process.link with
      | .held session =>
          if (process.phase = .unwinding ∨ process.phase = .shuttingDown) ∧ process.duties = false then
            some (system.set index { process with link := .releasing session })
          else none
      | _ => none
  | .unlock index =>
      match (system.processes index).link with
      | .releasing session =>
          some { system with holder := if system.holder = some session then none else system.holder }
      | _ => none
  | .close index =>
      let process := system.processes index
      match process.link with
      | .releasing _ =>
          some (system.set index { process with
            phase := if process.phase = .unwinding then .standby else .down, link := .none })
      | _ => none
  | .crash index => some (system.set index {})
  | .ended session => some (endSession system session)

end

/-- A lock that a process takes to be its own is its own, as long as the session lives. -/
structure Safe (system : System ι) : Prop where
  fresh : ∀ index session, (system.processes index).link.session = some session → session < system.fresh
  separate : ∀ one other session, (system.processes one).link.session = some session →
    (system.processes other).link.session = some session → one = other
  won : ∀ index session, (system.processes index).link.won = some session → system.sessions session = true →
    system.holder = some session
  duties : ∀ index, (system.processes index).duties = true → ∃ session, (system.processes index).link = .held session

theorem Link.session_of_won {link : Link} {session : Session} (won : link.won = some session) :
    link.session = some session := by
  match link, won with
  | .answered _ true, won => exact won
  | .held _, won => exact won

section
variable {system next : System ι} {index : ι} {process : Process}

theorem set_self : (system.set index process).processes index = process := Function.update_self ..

theorem set_other {other : ι} (different : other ≠ index) :
    (system.set index process).processes other = system.processes other := Function.update_of_ne different ..

omit [DecidableEq ι] in
theorem safe_initial : Safe ({} : System ι) where
  fresh := nofun
  separate := nofun
  won := nofun
  duties := nofun

/-- One process moves on and opens nothing; that its lock is right is left to show. -/
theorem Safe.replace (safe : Safe system) (processes : next.processes = (system.set index process).processes)
    (fresh : next.fresh = system.fresh)
    (keeps : ∀ session, process.link.session = some session → (system.processes index).link.session = some session)
    (works : process.duties = true → ∃ session, process.link = .held session)
    (won : ∀ other session, ((system.set index process).processes other).link.won = some session →
      next.sessions session = true → next.holder = some session) : Safe next := by
  have sessions : ∀ other session, (next.processes other).link.session = some session →
      (system.processes other).link.session = some session := by
    intro other session linked
    rw [processes] at linked
    by_cases same : other = index
    · subst same
      rw [set_self] at linked
      exact keeps session linked
    · rwa [set_other same] at linked
  constructor
  · exact fun other session linked => fresh ▸ safe.fresh other session (sessions other session linked)
  · exact fun one other session first second =>
      safe.separate one other session (sessions one session first) (sessions other session second)
  · rwa [processes]
  · intro other working
    rw [processes] at working ⊢
    by_cases same : other = index
    · subst same
      rw [set_self] at working ⊢
      exact works working
    · rw [set_other same] at working ⊢
      exact safe.duties other working

/-- A process that wins nothing and opens nothing leaves the system safe. -/
theorem Safe.set (safe : Safe system)
    (keeps : ∀ session, process.link.session = some session → (system.processes index).link.session = some session)
    (wins : ∀ session, process.link.won = some session → (system.processes index).link.won = some session)
    (works : process.duties = true → ∃ session, process.link = .held session) : Safe (system.set index process) := by
  refine safe.replace rfl rfl keeps works fun other session linked lives => ?_
  refine safe.won other session ?_ lives
  by_cases same : other = index
  · subst same
    rw [set_self] at linked
    exact wins session linked
  · rwa [set_other same] at linked

theorem Safe.probe (safe : Safe system) {phase : Phase} : Safe ({ system.set index
    { phase := phase, link := .asking system.fresh } with
      sessions := Function.update system.sessions system.fresh true
      fresh := system.fresh + 1 } : System ι) := by
  have sessions : ∀ other session, ((system.set index
      { phase := phase, link := .asking system.fresh }).processes other).link.session = some session →
      other = index ∧ session = system.fresh ∨
        other ≠ index ∧ (system.processes other).link.session = some session := by
    intro other session linked
    by_cases same : other = index
    · subst same
      rw [set_self] at linked
      exact .inl ⟨rfl, (Option.some.inj linked).symm⟩
    · rw [set_other same] at linked
      exact .inr ⟨same, linked⟩
  constructor
  · intro other session linked
    obtain ⟨-, rfl⟩ | ⟨-, before⟩ := sessions other session linked
    · exact Nat.lt_succ_self _
    · exact Nat.lt_succ_of_lt (safe.fresh other session before)
  · intro one other session first second
    obtain ⟨rfl, rfl⟩ | ⟨-, before⟩ := sessions one session first
    · obtain ⟨rfl, -⟩ | ⟨-, earlier⟩ := sessions other _ second
      · rfl
      · exact absurd (safe.fresh other _ earlier) (Nat.lt_irrefl _)
    · obtain ⟨-, rfl⟩ | ⟨-, earlier⟩ := sessions other session second
      · exact absurd (safe.fresh one _ before) (Nat.lt_irrefl _)
      · exact safe.separate one other session before earlier
  · intro other session linked lives
    by_cases same : other = index
    · subst same
      rw [set_self] at linked
      cases linked
    · rw [set_other same] at linked
      have older := safe.fresh other session (Link.session_of_won linked)
      have lived : Function.update system.sessions system.fresh true session = true := lives
      rw [Function.update_of_ne (Nat.ne_of_lt older)] at lived
      exact safe.won other session linked lived
  · intro other working
    by_cases same : other = index
    · subst same
      rw [set_self] at working
      cases working
    · rw [set_other same] at working ⊢
      exact safe.duties other working

omit [DecidableEq ι] in
/-- The server answers for a session it keeps, and the lock is then that session's or another's. -/
theorem serveLock_cases {session : Session} {acquired : Bool} {served : System ι}
    (serves : serveLock system session = some (served, acquired)) :
    (system.holder = none ∧ served = { system with holder := some session } ∧ acquired = true) ∨
      served = system ∧ ∃ holder, system.holder = some holder ∧ acquired = decide (holder = session) := by
  rw [serveLock] at serves
  split at serves
  · split at serves
    · next free =>
      cases serves
      exact .inl ⟨free, rfl, rfl⟩
    · next holder taken =>
      cases serves
      exact .inr ⟨rfl, holder, taken, rfl⟩
  · cases serves

omit [DecidableEq ι] in
theorem serveLock_keeps {session : Session} {acquired : Bool} {served : System ι}
    (serves : serveLock system session = some (served, acquired)) :
    (served.processes = system.processes ∧ served.sessions = system.sessions) ∧ system.sessions session = true := by
  rw [serveLock] at serves
  split at serves
  · next lives =>
    refine ⟨?_, lives⟩
    split at serves
    · cases serves
      exact ⟨rfl, rfl⟩
    · cases serves
      exact ⟨rfl, rfl⟩
  · cases serves

theorem Safe.serve (safe : Safe system) {session : Session} {acquired : Bool} {served : System ι}
    (asks : (system.processes index).link = .asking session)
    (serves : serveLock system session = some (served, acquired))
    {phase : Phase} : Safe (served.set index { phase := phase, link := .answered session acquired }) := by
  have granted : acquired = true → served.holder = some session := by
    rintro rfl
    obtain ⟨-, rfl, -⟩ | ⟨rfl, holder, taken, own⟩ := serveLock_cases serves
    · rfl
    · rw [taken, of_decide_eq_true own.symm]
  have others : ∀ other held, (system.processes other).link.won = some held → system.sessions held = true →
      served.holder = some held := by
    intro other held linked lives
    have holds := safe.won other held linked lives
    obtain ⟨free, -⟩ | ⟨rfl, -⟩ := serveLock_cases serves
    · rw [free] at holds
      cases holds
    · exact holds
  have fresh : served.fresh = system.fresh := by
    obtain ⟨-, rfl, -⟩ | ⟨rfl, -⟩ := serveLock_cases serves
    · rfl
    · rfl
  obtain ⟨⟨processes, sessions⟩, -⟩ := serveLock_keeps serves
  refine @Safe.replace _ _ system _ index { phase := phase, link := .answered session acquired } safe ?_ fresh ?_ nofun
    fun other held linked lives => ?_
  · rw [System.set, System.set, processes]
  · rw [asks]
    exact fun _ linked => linked
  · rw [System.set, sessions] at lives
    by_cases own : other = index
    · subst own
      rw [set_self] at linked
      cases acquired with
      | false => cases linked
      | true =>
        rw [← Option.some.inj linked]
        exact granted rfl
    · rw [set_other own] at linked
      exact others other held linked lives

omit [DecidableEq ι] in
/-- Whatever ends a session or gives its lock back leaves the others theirs. -/
theorem Safe.endSession (safe : Safe system) (session : Session) : Safe (endSession system session) := by
  refine ⟨safe.fresh, safe.separate, ?_, safe.duties⟩
  intro other held linked lives
  have lived : Function.update system.sessions session false held = true := lives
  have different : held ≠ session := by
    rintro rfl
    rw [Function.update_self] at lived
    cases lived
  rw [Function.update_of_ne different] at lived
  have holds := safe.won other held linked lived
  show (if system.holder = some session then none else system.holder) = some held
  rw [holds, if_neg (by simpa using different)]

omit [DecidableEq ι] in
theorem Safe.unlock (safe : Safe system) {session : Session}
    (releases : (system.processes index).link = .releasing session) :
    Safe { system with holder := if system.holder = some session then none else system.holder } := by
  refine ⟨safe.fresh, safe.separate, ?_, safe.duties⟩
  intro other held linked lives
  have holds := safe.won other held linked lives
  have different : held ≠ session := by
    rintro rfl
    have same := safe.separate other index held (Link.session_of_won linked) (by rw [releases]; rfl)
    subst same
    rw [releases] at linked
    cases linked
  show (if system.holder = some session then none else system.holder) = some held
  rw [holds, if_neg (by simpa using different)]

omit [DecidableEq ι] in
/-- A process without a held link runs no duties. -/
theorem Safe.idle (safe : Safe system) (index : ι) (unheld : ∀ session, (system.processes index).link ≠ .held session) :
    (system.processes index).duties = false := by
  cases working : (system.processes index).duties with
  | false => rfl
  | true =>
    obtain ⟨session, held⟩ := safe.duties index working
    exact absurd held (unheld session)

/-- A process moves on without opening a session or winning a lock. -/
structure Quiet (system : System ι) (index : ι) (process : Process) : Prop where
  keeps : ∀ session, process.link.session = some session → (system.processes index).link.session = some session
  wins : ∀ session, process.link.won = some session → (system.processes index).link.won = some session
  works : process.duties = true → ∃ session, process.link = .held session

omit [DecidableEq ι] in
theorem Quiet.down {phase : Phase} : Quiet system index { phase := phase } := ⟨nofun, nofun, nofun⟩

/-- What a step can do. -/
theorem step_cases (safe : Safe system) {event : Event ι} (steps : step system event = some next) :
    (∃ index process, Quiet system index process ∧ next = system.set index process ∧
      ∀ session, event ≠ .ended session) ∨
    (∃ index phase, next = { system.set index { phase := phase, link := .asking system.fresh } with
      sessions := Function.update system.sessions system.fresh true
      fresh := system.fresh + 1 } ∧ ∀ session, event ≠ .ended session) ∨
    (∃ index phase session served acquired, (system.processes index).link = .asking session ∧
      serveLock system session = some (served, acquired) ∧
      next = served.set index { phase := phase, link := .answered session acquired } ∧
      ∀ session, event ≠ .ended session) ∨
    (∃ index session, (system.processes index).link = .releasing session ∧
      next = { system with holder := if system.holder = some session then none else system.holder } ∧
      ∀ session, event ≠ .ended session) ∨
    ∃ session, event = .ended session ∧ next = endSession system session := by
  cases event with
  | boot index =>
    simp only [step] at steps
    split at steps
    · cases steps
      exact .inl ⟨index, _, .down, rfl, nofun⟩
    · cases steps
  | probe index =>
    simp only [step] at steps
    split at steps
    · next ready =>
      cases steps
      rw [safe.idle index (by rw [ready.2]; exact nofun)]
      exact .inr (.inl ⟨index, _, rfl, nofun⟩)
    · cases steps
  | serve index =>
    simp only [step] at steps
    split at steps
    · next session asks =>
      obtain ⟨⟨served, acquired⟩, serves, same⟩ := Option.bind_eq_some_iff.mp steps
      cases same
      rw [safe.idle index (by rw [asks]; exact nofun)]
      exact .inr (.inr (.inl ⟨index, _, session, served, acquired, asks, serves, rfl, nofun⟩))
    · cases steps
  | receive index fails =>
    simp only [step] at steps
    split at steps
    · next session answered =>
      have keeps : ∀ other, (Link.held session).session = some other →
          (system.processes index).link.session = some other := by rw [answered]; exact fun _ linked => linked
      have wins : ∀ other, (Link.held session).won = some other →
          (system.processes index).link.won = some other := by rw [answered]; exact fun _ linked => linked
      split at steps
      · split at steps
        · cases steps
          exact .inl ⟨index, _, .down, rfl, nofun⟩
        · cases steps
          exact .inl ⟨index, _, ⟨keeps, wins, fun _ => ⟨session, rfl⟩⟩, rfl, nofun⟩
      · cases steps
        exact .inl ⟨index, _, ⟨keeps, wins, fun _ => ⟨session, rfl⟩⟩, rfl, nofun⟩
    · next session answered =>
      cases steps
      rw [safe.idle index (by rw [answered]; exact nofun)]
      exact .inl ⟨index, _, .down, rfl, nofun⟩
    · cases steps
  | probeFails index =>
    simp only [step] at steps
    split at steps
    · next session asks =>
      rw [safe.idle index (by rw [asks]; exact nofun)] at steps
      split at steps
      · cases steps
        exact .inl ⟨index, _, .down, rfl, nofun⟩
      · cases steps
        exact .inl ⟨index, _, .down, rfl, nofun⟩
    · next session acquired answered =>
      rw [safe.idle index (by rw [answered]; exact nofun)] at steps
      split at steps
      · cases steps
        exact .inl ⟨index, _, .down, rfl, nofun⟩
      · cases steps
        exact .inl ⟨index, _, .down, rfl, nofun⟩
    · cases steps
  | shutdown index =>
    simp only [step] at steps
    split at steps
    · cases steps
      exact .inl ⟨index, _, .down, rfl, nofun⟩
    · cases steps
      refine .inl ⟨index, _, ?_, rfl, nofun⟩
      exact ⟨fun _ linked => linked, fun _ linked => linked, safe.duties index⟩
    · cases steps
      split
      · next session releases =>
        rw [safe.idle index (by rw [releases]; exact nofun)]
        exact .inl ⟨index, _, .down, rfl, nofun⟩
      · refine .inl ⟨index, _, ?_, rfl, nofun⟩
        exact ⟨fun _ linked => linked, fun _ linked => linked, safe.duties index⟩
    · cases steps
  | stop index =>
    simp only [step] at steps
    split at steps
    · cases steps
      refine .inl ⟨index, _, ?_, rfl, nofun⟩
      exact ⟨fun _ linked => linked, fun _ linked => linked, nofun⟩
    · cases steps
  | release index =>
    simp only [step] at steps
    split at steps
    · next session held =>
      split at steps
      · next stopped =>
        cases steps
        rw [stopped.2]
        refine .inl ⟨index, _, ?_, rfl, nofun⟩
        refine ⟨?_, nofun, nofun⟩
        rw [held]
        exact fun _ linked => linked
      · cases steps
    · cases steps
  | unlock index =>
    simp only [step] at steps
    split at steps
    · next session releases =>
      cases steps
      exact .inr (.inr (.inr (.inl ⟨index, session, releases, rfl, nofun⟩)))
    · cases steps
  | close index =>
    simp only [step] at steps
    split at steps
    · next session releases =>
      cases steps
      rw [safe.idle index (by rw [releases]; exact nofun)]
      exact .inl ⟨index, _, .down, rfl, nofun⟩
    · cases steps
  | crash index =>
    cases steps
    exact .inl ⟨index, _, .down, rfl, nofun⟩
  | ended session =>
    cases steps
    exact .inr (.inr (.inr (.inr ⟨session, rfl, rfl⟩)))

theorem safe_step (safe : Safe system) {event : Event ι} (steps : step system event = some next) : Safe next := by
  obtain ⟨index, process, quiet, rfl, -⟩ | ⟨index, phase, rfl, -⟩ | ⟨index, phase, session, served, acquired, asks,
    serves, rfl, -⟩ | ⟨index, session, releases, rfl, -⟩ | ⟨session, -, rfl⟩ := step_cases safe steps
  · exact safe.set quiet.keeps quiet.wins quiet.works
  · exact safe.probe
  · exact safe.serve asks serves
  · exact safe.unlock releases
  · exact safe.endSession session

theorem safe_run {events : List (Event ι)} (reached : run step ({} : System ι) events = some system) : Safe system :=
  invariant step (fun safe steps => safe_step safe steps) safe_initial reached

/-- `_conn`, as far as the server still keeps its session. -/
def Live (system : System ι) (index : ι) : Prop :=
  ∃ session, (system.processes index).link = .held session ∧ system.sessions session = true

omit [DecidableEq ι] in
/-- Two processes with a live lock are one. -/
theorem Safe.unique (safe : Safe system) {one other : ι} (first : Live system one) (second : Live system other) :
    one = other := by
  obtain ⟨session, held, lives⟩ := first
  obtain ⟨later, holds, alive⟩ := second
  have owner := safe.won one session (by rw [held]; rfl) lives
  have owns := safe.won other later (by rw [holds]; rfl) alive
  rw [owner] at owns
  cases owns
  exact safe.separate one other session (by rw [held]; rfl) (by rw [holds]; rfl)

/-- Whatever crashes, restarts, shuts down or is cut off in whatever order: of two processes that run
the duties, one runs them on a session that the server has ended. -/
theorem one_of_two_is_cut_off {events : List (Event ι)} (reached : run step ({} : System ι) events = some system)
    {one other : ι} (different : one ≠ other) (first : (system.processes one).duties = true)
    (second : (system.processes other).duties = true) :
    ∃ index ∈ [one, other], ∃ session, (system.processes index).link = .held session ∧
      system.sessions session = false := by
  have safe := safe_run reached
  obtain ⟨session, held⟩ := safe.duties one first
  obtain ⟨later, holds⟩ := safe.duties other second
  cases lives : system.sessions session with
  | false => exact ⟨one, List.mem_cons_self, session, held, lives⟩
  | true =>
    cases alive : system.sessions later with
    | false => exact ⟨other, List.mem_cons_of_mem _ List.mem_cons_self, later, holds, alive⟩
    | true => exact absurd (safe.unique ⟨session, held, lives⟩ ⟨later, holds, alive⟩) different

/-- The server ends no session that a process takes its lock to be on. -/
def Undisturbed (system : System ι) : Event ι → Prop
  | .ended session => ∀ index, (system.processes index).link.won ≠ some session
  | _ => True

/-- Every lock won is won on a session that the server still keeps. -/
def AllLive (system : System ι) : Prop :=
  ∀ index session, (system.processes index).link.won = some session → system.sessions session = true

theorem allLive_step (safe : Safe system) (live : AllLive system) {event : Event ι} (calm : Undisturbed system event)
    (steps : step system event = some next) : AllLive next := by
  intro other session won
  obtain ⟨index, process, quiet, rfl, -⟩ | ⟨index, phase, rfl, -⟩ | ⟨index, phase, asked, served, acquired, asks,
    serves, rfl, -⟩ | ⟨index, asked, releases, rfl, -⟩ | ⟨ended, rfl, rfl⟩ := step_cases safe steps
  · refine live other session ?_
    by_cases same : other = index
    · subst same
      rw [set_self] at won
      exact quiet.wins session won
    · rwa [set_other same] at won
  · by_cases same : other = index
    · subst same
      rw [show (System.processes _ other) = _ from set_self] at won
      cases won
    · rw [show (System.processes _ other) = _ from set_other same] at won
      have lives := live other session won
      show Function.update system.sessions system.fresh true session = true
      by_cases same : session = system.fresh
      · rw [same, Function.update_self]
      · rwa [Function.update_of_ne same]
  · obtain ⟨keeps, asked⟩ := serveLock_keeps serves
    rw [System.set, keeps.2]
    by_cases same : other = index
    · subst same
      rw [set_self] at won
      cases acquired with
      | false => cases won
      | true =>
        rw [← Option.some.inj won]
        exact asked
    · rw [set_other same, keeps.1] at won
      exact live other session won
  · exact live other session won
  · have different : session ≠ ended := by
      rintro rfl
      exact calm other won
    show Function.update system.sessions ended false session = true
    rw [Function.update_of_ne different]
    exact live other session won

/-- As long as the server ends no session that a lock is taken to be on, one process at most runs the
duties, whatever crashes, restarts and shuts down. -/
theorem leader_unique {events : List (Event ι)} (calm : EveryStep step Undisturbed ({} : System ι) events)
    (reached : run step ({} : System ι) events = some system) {one other : ι}
    (first : (system.processes one).duties = true) (second : (system.processes other).duties = true) :
    one = other := by
  obtain ⟨safe, live⟩ : Safe system ∧ AllLive system :=
    @invariant_of_step _ _ step Undisturbed (fun system => Safe system ∧ AllLive system)
      (fun calm held steps => ⟨safe_step held.1 steps, allLive_step held.1 held.2 calm steps⟩)
      _ _ _ ⟨safe_initial, nofun⟩ calm reached
  obtain ⟨session, held⟩ := safe.duties one first
  obtain ⟨later, holds⟩ := safe.duties other second
  exact safe.unique ⟨session, held, live one session (by rw [held]; rfl)⟩
    ⟨later, holds, live other later (by rw [holds]; rfl)⟩

end

/-- One process leads and another stands by. -/
def settled : List (Event Bool) :=
  [.boot true, .boot false, .probe true, .probe false, .serve true, .serve false, .receive true false,
    .receive false false]

theorem leader_unique_once_settled : ∃ system, run step ({} : System Bool) settled = some system ∧
    (system.processes true).duties = true ∧ ∀ other, (system.processes other).duties = true → true = other :=
  have calm : EveryStep step Undisturbed ({} : System Bool) settled := by simp [EveryStep, Undisturbed, settled]
  ⟨_, rfl, rfl, fun _ working => leader_unique calm rfl rfl working⟩

/-- The server cuts the leader off, and the standby is promoted. -/
def takenOver : List (Event Bool) := settled ++ [.ended 0, .probe false, .serve false, .receive false false]

theorem one_of_two_is_cut_off_after_takeover : ∃ system, run step ({} : System Bool) takenOver = some system ∧
    (system.processes true).duties = true ∧ (system.processes false).duties = true ∧
    ∃ index ∈ [true, false], ∃ session, (system.processes index).link = .held session ∧
      system.sessions session = false :=
  ⟨_, rfl, rfl, rfl, one_of_two_is_cut_off (show run step ({} : System Bool) takenOver = some _ from rfl) nofun rfl rfl⟩

end TransactionMonitoring.Leader
