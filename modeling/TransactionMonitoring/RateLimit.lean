import Mathlib.Algebra.Order.Floor.Ring
import Mathlib.Data.Rat.Floor
import Mathlib.Logic.Function.Basic
import Mathlib.Tactic.Linarith
import TransactionMonitoring.Runs
import TransactionMonitoring.SlidingWindow

/-! The in-memory rate limiter.

`check` and the cleanup loop await nothing between reading the clock and releasing the lock,
so each of them is one step.  The clock is monotonic; times are exact.
-/
namespace TransactionMonitoring.RateLimit

open SlidingWindow (Kept)

/-- The arguments of a `RateLimiter`. -/
structure Limits where
  maxRequests : Nat
  windowSeconds : ℤ
deriving DecidableEq, Repr

/-- `_windows`, a dictionary of deques. -/
abbrev Windows := String → Option (List ℚ)

/-- A read of the `defaultdict`, which makes an empty deque of a missing key. -/
def Windows.get (windows : Windows) (key : String) : List ℚ := (windows key).getD []

inductive Answer where
  | allowed
  | refused (retryAfter : ℤ)
  /-- `window[0]` of an empty deque: the limit is zero. -/
  | indexError
deriving DecidableEq, Repr

/-- `int` of a number, which rounds toward zero. -/
def int (number : ℚ) : ℤ := if 0 ≤ number then ⌊number⌋ else ⌈number⌉

/-- The time up to which timestamps are expired. -/
def Limits.cutoff (limits : Limits) (now : ℚ) : ℚ := now - limits.windowSeconds

def check (limits : Limits) (now : ℚ) (key : String) (windows : Windows) : Answer × Windows :=
  let window := (windows.get key).dropWhile (· ≤ limits.cutoff now)
  if limits.maxRequests ≤ window.length then
    match window with
    | [] => (.indexError, Function.update windows key (some []))
    | oldest :: _ =>
        (.refused (int (limits.windowSeconds - (now - oldest)) + 1), Function.update windows key (some window))
  else (.allowed, Function.update windows key (some (window ++ [now])))

/-- `not dq or dq[-1] <= cutoff`. -/
def stale (cutoff : ℚ) (window : List ℚ) : Bool :=
  match window.getLast? with
  | none => true
  | some newest => newest ≤ cutoff

/-- One turn of `_run_cleanup`. -/
def cleanup (limits : Limits) (now : ℚ) (windows : Windows) : Windows := fun key =>
  (windows key).filter fun window => !stale (limits.cutoff now) window

inductive Call where
  | check (key : String)
  | cleanup
deriving DecidableEq, Repr

structure Event where
  time : ℚ
  call : Call
deriving DecidableEq, Repr

structure State where
  clock : ℚ
  windows : Windows
  /-- Bookkeeping: the times of the allowed calls of each key. -/
  admitted : String → List ℚ

/-- A limiter as it is built. -/
def State.initial (clock : ℚ) : State := ⟨clock, fun _ => none, fun _ => []⟩

/-- What `check` leaves, its answer put on record. -/
def State.checked (limits : Limits) (now : ℚ) (key : String) (state : State) : State :=
  match check limits now key state.windows with
  | (.allowed, windows) =>
      ⟨now, windows, Function.update state.admitted key (state.admitted key ++ [now])⟩
  | (_, windows) => ⟨now, windows, state.admitted⟩

/-- No call happens before an earlier one. -/
def step (limits : Limits) (state : State) (event : Event) : Option State :=
  if event.time < state.clock then none
  else match event.call with
    | .check key => some (state.checked limits event.time key)
    | .cleanup => some { state with clock := event.time, windows := cleanup limits event.time state.windows }

/-- For each key the deque is what is kept of the allowed calls. -/
def Faithful (limits : Limits) (state : State) : Prop :=
  ∀ key, Kept (limits.windowSeconds : ℚ) limits.maxRequests state.clock (state.admitted key) (state.windows.get key)

theorem faithful_initial (limits : Limits) (clock : ℚ) : Faithful limits (.initial clock) :=
  fun _ => .empty _ _ clock

@[simp] theorem Windows.get_update_self (windows : Windows) (key : String) (window : List ℚ) :
    Windows.get (Function.update windows key (some window)) key = window := by
  simp [Windows.get]

theorem Windows.get_update_of_ne {key other : String} (different : other ≠ key) (windows : Windows)
    (window : List ℚ) : Windows.get (Function.update windows key (some window)) other = windows.get other := by
  simp [Windows.get, different]

/-- What `int` leaves off is less than one. -/
theorem lt_int_add_one (number : ℚ) : number < int number + 1 := by
  unfold int
  split
  · exact Int.lt_floor_add_one number
  · have above := Int.le_ceil number
    linarith

section Step
variable {limits : Limits} {now : ℚ} {key other : String} {windows : Windows} {state next : State}

/-- The three ways of a `check`. -/
theorem check_cases (limits : Limits) (now : ℚ) (key : String) (windows : Windows) :
    let window := (windows.get key).dropWhile (· ≤ limits.cutoff now)
    (window.length < limits.maxRequests ∧
        check limits now key windows = (.allowed, Function.update windows key (some (window ++ [now])))) ∨
      (∃ oldest rest, window = oldest :: rest ∧
        check limits now key windows =
          (.refused (int (limits.windowSeconds - (now - oldest)) + 1), Function.update windows key (some window))) ∨
      (window = [] ∧ check limits now key windows = (.indexError, Function.update windows key (some window))) := by
  intro window
  by_cases full : limits.maxRequests ≤ window.length
  · cases shape : window with
    | nil =>
      refine .inr (.inr ⟨rfl, ?_⟩)
      simp only [check]
      rw [if_pos full]
      simp only [window] at shape
      simp [shape]
    | cons oldest rest =>
      refine .inr (.inl ⟨oldest, rest, rfl, ?_⟩)
      simp only [check]
      rw [if_pos full]
      simp only [window] at shape
      simp [shape]
  · refine .inl ⟨Nat.lt_of_not_le full, ?_⟩
    simp only [check]
    rw [if_neg full]

/-- A check of one key leaves the deques of the others. -/
theorem get_check_of_ne (different : other ≠ key) :
    (check limits now key windows).2.get other = windows.get other := by
  rcases check_cases limits now key windows with ⟨-, ran⟩ | ⟨oldest, rest, -, ran⟩ | ⟨-, ran⟩ <;>
    rw [ran] <;> exact Windows.get_update_of_ne different windows _

theorem get_cleanup (limits : Limits) (now : ℚ) (windows : Windows) (key : String) :
    (cleanup limits now windows).get key =
      if stale (limits.cutoff now) (windows.get key) then [] else windows.get key := by
  cases found : windows key with
  | none => simp [Windows.get, cleanup, found]
  | some window =>
    cases old : stale (limits.cutoff now) window with
    | true => simp [Windows.get, cleanup, found, Option.filter, old]
    | false => simp [Windows.get, cleanup, found, Option.filter, old]

theorem le_of_stale {cutoff newest : ℚ} {window : List ℚ} (old : stale cutoff window = true)
    (found : window.getLast? = some newest) : newest ≤ cutoff := by
  unfold stale at old
  rw [found] at old
  exact of_decide_eq_true old

theorem step_inv {event : Event} (stepped : step limits state event = some next) :
    state.clock ≤ event.time ∧
      ((∃ key, event.call = .check key ∧ next = state.checked limits event.time key) ∨
        event.call = .cleanup ∧
          next = { state with clock := event.time, windows := cleanup limits event.time state.windows }) := by
  unfold step at stepped
  by_cases early : event.time < state.clock
  · rw [if_pos early] at stepped
    cases stepped
  · rw [if_neg early] at stepped
    refine ⟨not_lt.mp early, ?_⟩
    cases called : event.call with
    | check key =>
      rw [called] at stepped
      exact .inl ⟨key, rfl, (Option.some.inj stepped).symm⟩
    | cleanup =>
      rw [called] at stepped
      exact .inr ⟨rfl, (Option.some.inj stepped).symm⟩

@[simp] theorem checked_clock : (state.checked limits now key).clock = now := by
  unfold State.checked
  split <;> rfl

@[simp] theorem checked_windows :
    (state.checked limits now key).windows = (check limits now key state.windows).2 := by
  unfold State.checked
  split <;> simp_all

theorem checked_admitted_of_ne (different : other ≠ key) :
    (state.checked limits now key).admitted other = state.admitted other := by
  unfold State.checked
  split
  · exact Function.update_of_ne different _ _
  · rfl

theorem faithful_checked (faithful : Faithful limits state) (passed : state.clock ≤ now) (key : String) :
    Faithful limits (state.checked limits now key) := by
  intro other
  have holds := (faithful other).advance passed
  by_cases same : other = key
  · subst same
    have evicted := holds.evict
    rcases check_cases limits now other state.windows with
      ⟨fits, ran⟩ | ⟨oldest, rest, front, ran⟩ | ⟨drained, ran⟩
    · simp only [State.checked, ran, Windows.get_update_self, Function.update_self]
      exact evicted.admit fits
    · simp only [State.checked, ran, Windows.get_update_self]
      exact evicted
    · simp only [State.checked, ran, Windows.get_update_self]
      exact evicted
  · rw [checked_admitted_of_ne same, checked_clock, checked_windows, get_check_of_ne same]
    exact holds

theorem faithful_cleanup (faithful : Faithful limits state) (passed : state.clock ≤ now) :
    Faithful limits { state with clock := now, windows := cleanup limits now state.windows } := by
  intro key
  have holds := (faithful key).advance passed
  change Kept _ _ now (state.admitted key) ((cleanup limits now state.windows).get key)
  rw [get_cleanup]
  split
  · next old => exact holds.clear fun newest found => le_of_stale old found
  · exact holds

theorem faithful_step {event : Event} (faithful : Faithful limits state)
    (stepped : step limits state event = some next) : Faithful limits next := by
  obtain ⟨passed, ⟨key, -, rfl⟩ | ⟨-, rfl⟩⟩ := step_inv stepped
  · exact faithful_checked faithful passed key
  · exact faithful_cleanup faithful passed

/-- Nothing kept of the key is older than its first time, which lies at or before `deadline`. -/
def FrontBy (deadline : ℚ) (key : String) (state : State) : Prop :=
  ∀ oldest rest, state.windows.get key = oldest :: rest → oldest ≤ deadline

/-- Without a check of the key its deque stays as it is, or is dropped. -/
theorem frontBy_step {deadline : ℚ} {event : Event} (other : event.call ≠ .check key)
    (front : FrontBy deadline key state) (stepped : step limits state event = some next) :
    FrontBy deadline key next := by
  obtain ⟨-, ⟨checked, called, rfl⟩ | ⟨-, rfl⟩⟩ := step_inv stepped
  · have different : key ≠ checked := by
      rintro rfl
      exact other called
    intro oldest rest shape
    rw [checked_windows, get_check_of_ne different] at shape
    exact front oldest rest shape
  · intro oldest rest shape
    change (cleanup limits event.time state.windows).get key = _ at shape
    rw [get_cleanup] at shape
    split at shape
    · cases shape
    · exact front oldest rest shape

/-- A refusal counts from the oldest time it keeps. -/
theorem refused_inv {retryAfter : ℤ} (refused : (check limits now key windows).1 = .refused retryAfter) :
    ∃ oldest rest, (windows.get key).dropWhile (· ≤ limits.cutoff now) = oldest :: rest ∧
      retryAfter = int (limits.windowSeconds - (now - oldest)) + 1 ∧
      (check limits now key windows).2.get key = oldest :: rest := by
  rcases check_cases limits now key windows with ⟨-, ran⟩ | ⟨oldest, rest, front, ran⟩ | ⟨-, ran⟩
  · rw [ran] at refused
    cases refused
  · rw [ran] at refused
    refine ⟨oldest, rest, front, (Answer.refused.inj refused).symm, ?_⟩
    rw [ran, Windows.get_update_self, front]
  · rw [ran] at refused
    cases refused

/-- A refusal leaves the oldest time in front, and asks to wait until that is expired. -/
theorem refused_front {retryAfter : ℤ}
    (refused : (check limits now key state.windows).1 = .refused retryAfter) :
    FrontBy (limits.cutoff (now + retryAfter)) key (state.checked limits now key) := by
  obtain ⟨oldest, rest, -, rfl, left⟩ := refused_inv refused
  intro first others shape
  rw [checked_windows, left] at shape
  obtain ⟨rfl, -⟩ := List.cons.inj shape
  have waited := lt_int_add_one (limits.windowSeconds - (now - oldest))
  unfold Limits.cutoff
  push_cast
  linarith

theorem limit_pos_of_refused {retryAfter : ℤ} (faithful : Faithful limits state) (passed : state.clock ≤ now)
    (refused : (check limits now key state.windows).1 = .refused retryAfter) : 0 < limits.maxRequests := by
  obtain ⟨oldest, rest, front, -, -⟩ := refused_inv refused
  have room := (((faithful key).advance passed).evict).room
  change ((state.windows.get key).dropWhile (· ≤ limits.cutoff now)).length ≤ _ at room
  rw [front, List.length_cons] at room
  omega

/-- A check is allowed once the first kept time is expired. -/
theorem allowed_of_frontBy {deadline : ℚ} (faithful : Faithful limits state) (limited : 0 < limits.maxRequests)
    (front : FrontBy deadline key state) (passed : state.clock ≤ now) (expired : deadline ≤ limits.cutoff now) :
    (check limits now key state.windows).1 = .allowed := by
  have fits : ((state.windows.get key).dropWhile (· ≤ limits.cutoff now)).length < limits.maxRequests := by
    cases shape : state.windows.get key with
    | nil => exact limited
    | cons oldest rest =>
      have holds := (faithful key).advance passed
      rw [← shape]
      exact holds.fits shape ((front oldest rest shape).trans expired)
  simp only [check]
  rw [if_neg (Nat.not_le.mpr fits)]

end Step

/-- After every run of checks and cleanups of any keys no span of the window's length has more
allowed calls of a key than the limit; and where a check of the key is then refused, a check
of it that comes `retryAfter` later is allowed, whatever cleanups and checks of other keys come
between. -/
theorem window_never_exceeds_limit (limits : Limits) (start : ℚ) (events : List Event) (state : State)
    (reached : Runs.run (step limits) (.initial start) events = some state) (key : String) :
    (∀ begins : ℚ,
        (state.admitted key).countP (fun time => begins ≤ time ∧ time < begins + limits.windowSeconds) ≤
          limits.maxRequests ∧
        (state.admitted key).countP (fun time => begins < time ∧ time ≤ begins + limits.windowSeconds) ≤
          limits.maxRequests) ∧
      ∀ now retryAfter next, step limits state ⟨now, .check key⟩ = some next →
        (check limits now key state.windows).1 = .refused retryAfter →
        ∀ between final, (∀ event ∈ between, event.call ≠ .check key) →
          Runs.run (step limits) next between = some final →
          ∀ later, final.clock ≤ later → now + retryAfter ≤ later →
            (check limits later key final.windows).1 = .allowed := by
  have faithful : Faithful limits state :=
    Runs.invariant (step limits) faithful_step (faithful_initial limits start) reached
  refine ⟨?_, ?_⟩
  · intro begins
    have sparse := (faithful key).sparse
    exact ⟨sparse _ (SlidingWindow.narrow_closed_open begins _), sparse _ (SlidingWindow.narrow_open_closed begins _)⟩
  · intro now retryAfter next stepped refused between final others ran later passed waited
    obtain ⟨early, ⟨checked, called, rfl⟩ | ⟨called, -⟩⟩ := step_inv stepped
    · obtain rfl := Call.check.inj called
      have limited := limit_pos_of_refused faithful early refused
      have faithfulThen := faithful_checked faithful early key
      have faithfulFinal := Runs.invariant (step limits) faithful_step faithfulThen ran
      have front : FrontBy (limits.cutoff (now + retryAfter)) key final :=
        Runs.invariant_of_step (step limits) (fun other held stepped => frontBy_step other held stepped)
          (refused_front refused) (Runs.everyStep_of_mem (step limits) others _) ran
      apply allowed_of_frontBy faithfulFinal limited front passed
      exact sub_le_sub_right waited _
    · cases called

/-- Two requests in ten seconds. -/
def fewLimits : Limits := ⟨2, 10⟩

def busy : State :=
  (Runs.run (step fewLimits) (.initial 0) [⟨0, .check "a"⟩, ⟨5, .check "a"⟩, ⟨6, .check "b"⟩]).get (by decide +kernel)

def turnedAway : State := (step fewLimits busy ⟨7, .check "a"⟩).get (by decide +kernel)

def waited : State :=
  (Runs.run (step fewLimits) turnedAway [⟨8, .cleanup⟩, ⟨9, .check "b"⟩]).get (by decide +kernel)

/-- The third check of a key is refused at 7 for 4 seconds, and allowed at 11. -/
theorem window_never_exceeds_limit_busy :
    (∀ begins : ℚ,
        (busy.admitted "a").countP (fun time => begins ≤ time ∧ time < begins + (10 : ℤ)) ≤ 2 ∧
        (busy.admitted "a").countP (fun time => begins < time ∧ time ≤ begins + (10 : ℤ)) ≤ 2) ∧
      (check fewLimits 7 "a" busy.windows).1 = .refused 4 ∧
      (check fewLimits 11 "a" waited.windows).1 = .allowed := by
  have refused : (check fewLimits 7 "a" busy.windows).1 = .refused 4 := by decide +kernel
  have holds := window_never_exceeds_limit fewLimits 0 [⟨0, .check "a"⟩, ⟨5, .check "a"⟩, ⟨6, .check "b"⟩] busy
    (Option.some_get _).symm "a"
  refine ⟨holds.1, refused, ?_⟩
  apply holds.2 7 4 turnedAway (Option.some_get _).symm refused [⟨8, .cleanup⟩, ⟨9, .check "b"⟩] waited
  · simp
  · exact (Option.some_get _).symm
  · decide +kernel
  · norm_num

end TransactionMonitoring.RateLimit
