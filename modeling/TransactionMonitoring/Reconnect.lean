import Mathlib.Algebra.Order.Archimedean.Basic
import Mathlib.Data.Nat.Log
import Mathlib.Data.Rat.Floor
import Mathlib.Tactic.Linarith
import TransactionMonitoring.Runs

/-! Reconnecting to the node: exponential backoff and circuit breaker.

`run_with_reconnect` connects, runs a session until it returns or raises, and backs off.
The breaker and the backoff move only where the loop handles an error or is about to
connect, never while a session lives.  Times are exact.
-/
namespace TransactionMonitoring.Reconnect

inductive CircuitState where
  | closed
  | open
  | halfOpen
deriving DecidableEq, Repr

/-- The parameters of the breaker, of the backoff and of the loop. -/
structure Config where
  failureThreshold : ℤ
  failureWindow : ℚ
  cooldown : ℚ
  baseDelay : ℚ
  maxDelay : ℚ
  jitterFactor : ℚ
  pollSeconds : ℚ
  stableResetSeconds : ℚ
deriving DecidableEq, Repr

structure CircuitBreaker where
  state : CircuitState
  failures : List ℚ
  openedAt : ℚ
  /-- Bookkeeping: the calls of `record_failure`. -/
  recorded : Nat
deriving DecidableEq, Repr

/-- `can_attempt`, which may turn an open breaker half-open. -/
def CircuitBreaker.canAttempt (config : Config) (now : ℚ) (breaker : CircuitBreaker) :
    Bool × CircuitBreaker :=
  match breaker.state with
  | .closed => (true, breaker)
  | .open =>
      if config.cooldown ≤ now - breaker.openedAt then (true, { breaker with state := .halfOpen })
      else (false, breaker)
  | .halfOpen => (true, breaker)

/-- `record_failure`. -/
def CircuitBreaker.recordFailure (config : Config) (now : ℚ) (breaker : CircuitBreaker) : CircuitBreaker :=
  let failures := (breaker.failures ++ [now]).filter fun time => now - time ≤ config.failureWindow
  let counted := { breaker with failures := failures, recorded := breaker.recorded + 1 }
  if breaker.state = .halfOpen then { counted with state := .open, openedAt := now }
  else if config.failureThreshold ≤ failures.length then { counted with state := .open, openedAt := now }
  else counted

/-- `record_success`. -/
def CircuitBreaker.recordSuccess (breaker : CircuitBreaker) : CircuitBreaker :=
  { breaker with state := .closed, failures := [] }

/-- `_exponent_ceiling`: the least exponent at which the delay reaches its maximum. -/
def exponentCeiling (baseDelay maxDelay : ℚ) : Nat :=
  if baseDelay ≤ 0 ∨ maxDelay ≤ baseDelay then 0 else Nat.clog 2 ⌈maxDelay / baseDelay⌉₊

/-- The delay `ExponentialBackoff.wait` computes, before the jitter. -/
def Config.delay (config : Config) (attempt : Nat) : ℚ :=
  min (config.baseDelay * 2 ^ min attempt (exponentCeiling config.baseDelay config.maxDelay))
    config.maxDelay

/-- Where the loop stands. -/
inductive Phase where
  /-- About to ask `can_attempt`. -/
  | head
  /-- Sleeping `poll_seconds`: the breaker is open. -/
  | gated (wakes : ℚ)
  | connecting (sessionStart : ℚ)
  | session (sessionStart connectedAt : ℚ)
  /-- Sleeping in `backoff.wait`. -/
  | waiting (wakes : ℚ)
deriving DecidableEq, Repr

structure State where
  now : ℚ
  phase : Phase
  breaker : CircuitBreaker
  attempt : Nat
  connected : Bool
deriving DecidableEq, Repr

/-- A client as it is constructed. -/
def State.initial (clock : ℚ) : State := ⟨clock, .head, ⟨.closed, [], 0, 0⟩, 0, false⟩

inductive Event where
  | advance (seconds : ℚ)
  /-- One pass through the head of the loop. -/
  | iterate
  /-- `connect` returns. -/
  | connect
  /-- `connect` or the session raises; the jitter is what `random.uniform` draws. -/
  | error (jitter : ℚ)
  /-- The session returns. -/
  | finish
  /-- A sleep is over. -/
  | wake
deriving DecidableEq, Repr

/-- `_reset_if_stable`: the session clock starts before `connect`. -/
def resetsIfStable (config : Config) (sessionStart now : ℚ) : Bool :=
  !(config.stableResetSeconds ≤ 0) && config.stableResetSeconds ≤ now - sessionStart

/-- Both `except` branches of the loop up to the sleep of `backoff.wait`. -/
def handleError (config : Config) (state : State) (sessionStart jitter : ℚ) : Option State :=
  let healed := resetsIfStable config sessionStart state.now
  let attempt := if healed then 0 else state.attempt
  let delay := config.delay attempt
  let most := delay * config.jitterFactor
  if min 0 most ≤ jitter ∧ jitter ≤ max 0 most then
    some { state with
      phase := .waiting (state.now + (delay + jitter))
      breaker := if healed then state.breaker.recordSuccess
        else state.breaker.recordFailure config state.now
      attempt := attempt, connected := false }
  else none

/-- One step of `run_with_reconnect` or of the clock. -/
def step (config : Config) (state : State) : Event → Option State
  | .advance seconds => if 0 ≤ seconds then some { state with now := state.now + seconds } else none
  | .iterate =>
      match state.phase with
      | .head =>
          let (allowed, breaker) := state.breaker.canAttempt config state.now
          some { state with
            breaker := breaker
            phase := if allowed then .connecting state.now else .gated (state.now + config.pollSeconds) }
      | _ => none
  | .connect =>
      match state.phase with
      | .connecting sessionStart =>
          let joined := { state with phase := .session sessionStart state.now, connected := true }
          some (if config.stableResetSeconds ≤ 0 then
              { joined with breaker := state.breaker.recordSuccess, attempt := 0 }
            else joined)
      | _ => none
  | .error jitter =>
      match state.phase with
      | .connecting sessionStart | .session sessionStart _ => handleError config state sessionStart jitter
      | _ => none
  | .finish =>
      match state.phase with
      | .session _ _ => some { state with phase := .head }
      | _ => none
  | .wake =>
      match state.phase with
      | .gated wakes => if wakes ≤ state.now then some { state with phase := .head } else none
      | .waiting wakes =>
          if wakes ≤ state.now then some { state with phase := .head, attempt := state.attempt + 1 } else none
      | _ => none

/-- The `PIPELINE_*` thresholds. -/
structure PipelineSettings where
  startupGraceSeconds : ℚ
  blockAgeDegradedSeconds : ℚ
  blockAgeDownSeconds : ℚ
deriving DecidableEq, Repr

inductive PipelineState where
  | ok
  | degraded
  | down
deriving DecidableEq, Repr

/-- `pipeline_state`, from the breaker, the age of the last block and the uptime. -/
def pipelineState (settings : PipelineSettings) (circuit : CircuitState) (blockAge : Option ℚ)
    (uptime : ℚ) : PipelineState :=
  if circuit = .open then .down
  else match blockAge with
    | none => if uptime < settings.startupGraceSeconds then .ok else .degraded
    | some age =>
        if settings.blockAgeDownSeconds < age then .down
        else if settings.blockAgeDegradedSeconds < age ∨ circuit = .halfOpen then .degraded
        else .ok

/-! ## The backoff -/

/-- The cap on the exponent changes no delay. -/
theorem delay_eq (config : Config) (attempt : Nat) (positive : 0 < config.baseDelay) :
    config.delay attempt = min (config.baseDelay * 2 ^ attempt) config.maxDelay := by
  unfold Config.delay
  rcases Nat.le_total attempt (exponentCeiling config.baseDelay config.maxDelay) with short | capped
  · rw [min_eq_left short]
  · rw [min_eq_right capped]
    have reached : config.maxDelay ≤
        config.baseDelay * 2 ^ exponentCeiling config.baseDelay config.maxDelay := by
      unfold exponentCeiling
      split
      · rename_i trivially
        rcases trivially with negative | equal
        · exact absurd positive (not_lt.mpr negative)
        · simpa using equal
      · have ceiling : ⌈config.maxDelay / config.baseDelay⌉₊ ≤
            2 ^ Nat.clog 2 ⌈config.maxDelay / config.baseDelay⌉₊ := Nat.le_pow_clog (by omega) _
        have ratio : config.maxDelay / config.baseDelay ≤
            2 ^ Nat.clog 2 ⌈config.maxDelay / config.baseDelay⌉₊ := by
          refine le_trans (Nat.le_ceil _) ?_
          exact_mod_cast ceiling
        rw [div_le_iff₀ positive] at ratio
        linarith
    have further : config.baseDelay * 2 ^ exponentCeiling config.baseDelay config.maxDelay ≤
        config.baseDelay * 2 ^ attempt := by
      apply mul_le_mul_of_nonneg_left _ positive.le
      exact pow_le_pow_right₀ (by norm_num) capped
    rw [min_eq_right reached, min_eq_right (reached.trans further)]

/-! ## What a step does -/

section Steps
variable {config : Config} {state next : State}

/-- An error is handled where an attempt is under way. -/
theorem step_error_iff {jitter : ℚ} :
    step config state (.error jitter) = some next ↔
      ∃ sessionStart, (state.phase = .connecting sessionStart ∨
          ∃ connectedAt, state.phase = .session sessionStart connectedAt) ∧
        handleError config state sessionStart jitter = some next := by
  simp only [step]
  cases phase : state.phase with
  | head => simp
  | gated wakes => simp
  | connecting sessionStart => simp
  | session sessionStart connectedAt => simp
  | waiting wakes => simp

theorem handleError_eq {sessionStart jitter : ℚ}
    (handled : handleError config state sessionStart jitter = some next) :
    ∃ wakes, next = { state with
      phase := .waiting wakes
      breaker := if resetsIfStable config sessionStart state.now then state.breaker.recordSuccess
        else state.breaker.recordFailure config state.now
      attempt := if resetsIfStable config sessionStart state.now then 0 else state.attempt
      connected := false } := by
  simp only [handleError, Option.ite_none_right_eq_some, Option.some.injEq] at handled
  exact ⟨_, handled.2.symm⟩

/-- Everything a step does that raises no error. -/
theorem quiet_step_cases {event : Event} (quiet : ∀ jitter, event ≠ .error jitter)
    (stepped : step config state event = some next) :
    (∃ seconds, 0 ≤ seconds ∧ next = { state with now := state.now + seconds }) ∨
    (∃ phase, state.phase = .head ∧
      phase = (if (state.breaker.canAttempt config state.now).1 then .connecting state.now
        else .gated (state.now + config.pollSeconds)) ∧
      next = { state with breaker := (state.breaker.canAttempt config state.now).2, phase := phase }) ∨
    (∃ sessionStart, state.phase = .connecting sessionStart ∧ 0 < config.stableResetSeconds ∧
      next = { state with phase := .session sessionStart state.now, connected := true }) ∨
    (∃ sessionStart, state.phase = .connecting sessionStart ∧ config.stableResetSeconds ≤ 0 ∧
      next = { state with
        phase := .session sessionStart state.now, connected := true
        breaker := state.breaker.recordSuccess, attempt := 0 }) ∨
    (((∃ sessionStart connectedAt, state.phase = .session sessionStart connectedAt) ∨
        ∃ wakes, state.phase = .gated wakes ∧ wakes ≤ state.now) ∧
      next = { state with phase := .head }) ∨
    (∃ wakes, state.phase = .waiting wakes ∧ wakes ≤ state.now ∧
      next = { state with phase := .head, attempt := state.attempt + 1 }) := by
  cases event with
  | advance seconds =>
    simp only [step, Option.ite_none_right_eq_some, Option.some.injEq] at stepped
    exact Or.inl ⟨seconds, stepped.1, stepped.2.symm⟩
  | iterate =>
    simp only [step] at stepped
    split at stepped
    · rename_i atHead
      exact Or.inr (Or.inl ⟨_, atHead, rfl, (Option.some.inj stepped).symm⟩)
    · cases stepped
  | connect =>
    simp only [step] at stepped
    split at stepped
    · rename_i sessionStart connecting
      obtain rfl := Option.some.inj stepped
      split
      · rename_i unasked
        exact Or.inr (Or.inr (Or.inr (Or.inl ⟨sessionStart, connecting, unasked, rfl⟩)))
      · rename_i asked
        exact Or.inr (Or.inr (Or.inl ⟨sessionStart, connecting, not_le.mp asked, rfl⟩))
    · cases stepped
  | error jitter => exact absurd rfl (quiet jitter)
  | finish =>
    simp only [step] at stepped
    split at stepped
    · rename_i sessionStart connectedAt living
      refine Or.inr (Or.inr (Or.inr (Or.inr (Or.inl ⟨Or.inl ⟨sessionStart, connectedAt, living⟩, ?_⟩))))
      exact (Option.some.inj stepped).symm
    · cases stepped
  | wake =>
    simp only [step] at stepped
    split at stepped
    · rename_i wakes gated
      simp only [Option.ite_none_right_eq_some, Option.some.injEq] at stepped
      refine Or.inr (Or.inr (Or.inr (Or.inr (Or.inl ⟨Or.inr ⟨wakes, gated, stepped.1⟩, ?_⟩))))
      exact stepped.2.symm
    · rename_i wakes waiting
      simp only [Option.ite_none_right_eq_some, Option.some.injEq] at stepped
      refine Or.inr (Or.inr (Or.inr (Or.inr (Or.inr ⟨wakes, waiting, stepped.1, ?_⟩))))
      exact stepped.2.symm
    · cases stepped

/-- Where stability is asked for, a half-open breaker stays half-open until an error. -/
theorem halfOpen_step {event : Event} (asked : 0 < config.stableResetSeconds)
    (quiet : ∀ jitter, event ≠ .error jitter) (probing : state.breaker.state = .halfOpen)
    (stepped : step config state event = some next) : next.breaker.state = .halfOpen := by
  rcases quiet_step_cases quiet stepped with ⟨_, _, rfl⟩ | ⟨phase, _, _, rfl⟩ | ⟨_, _, _, rfl⟩ |
    ⟨_, _, unasked, _⟩ | ⟨_, rfl⟩ | ⟨_, _, _, rfl⟩
  · exact probing
  · simp only [CircuitBreaker.canAttempt, probing]
  · exact probing
  · exact absurd asked (not_lt.mpr unasked)
  · exact probing
  · exact probing

end Steps

/-! ## In which state a long session lives -/

/-- An error has been handled: the backoff is about to count it, or has. -/
def Backed (state : State) : Prop :=
  (∃ wakes, state.phase = .waiting wakes) ∨ 1 ≤ state.attempt

/-- No error has been handled. -/
structure Unharmed (state : State) : Prop where
  closed : state.breaker.state = .closed
  reset : state.attempt = 0
  awake : ∀ wakes, state.phase ≠ .waiting wakes

private theorem backed_of_error {config : Config} {state next : State} {jitter : ℚ}
    (stepped : step config state (.error jitter) = some next) : Backed next := by
  obtain ⟨sessionStart, _, handled⟩ := step_error_iff.mp stepped
  obtain ⟨wakes, rfl⟩ := handleError_eq handled
  exact Or.inl ⟨wakes, rfl⟩

/-- Where stability is asked for, nothing but an error resets the backoff, and that one is
counted again before the next attempt. -/
private theorem backed_step {config : Config} (asked : 0 < config.stableResetSeconds) {state next : State}
    {event : Event} (backed : Backed state) (stepped : step config state event = some next) :
    Backed next := by
  by_cases failed : ∃ jitter, event = .error jitter
  · obtain ⟨jitter, rfl⟩ := failed
    exact backed_of_error stepped
  · have quiet : ∀ jitter, event ≠ .error jitter := not_exists.mp failed
    have counted (awake : ∀ wakes, state.phase ≠ .waiting wakes) : 1 ≤ state.attempt :=
      backed.resolve_left fun ⟨wakes, waiting⟩ => awake wakes waiting
    rcases quiet_step_cases quiet stepped with ⟨_, _, rfl⟩ | ⟨_, atHead, _, rfl⟩ | ⟨_, connecting, _, rfl⟩ |
      ⟨_, _, unasked, _⟩ | ⟨⟨_, _, living⟩ | ⟨_, gated, _⟩, rfl⟩ | ⟨_, _, _, rfl⟩
    · exact backed
    · exact Or.inr (counted (by simp [atHead]))
    · exact Or.inr (counted (by simp [connecting]))
    · exact absurd asked (not_lt.mpr unasked)
    · exact Or.inr (counted (by simp [living]))
    · exact Or.inr (counted (by simp [gated]))
    · exact Or.inr (Nat.le_add_left 1 state.attempt)

private theorem backed_of_run {config : Config} (asked : 0 < config.stableResetSeconds)
    {state last : State} {events : List Event} {jitter : ℚ} (failed : Event.error jitter ∈ events)
    (reached : Runs.run (step config) state events = some last) : Backed last := by
  induction events generalizing state with
  | nil => cases failed
  | cons event rest ih =>
    obtain ⟨next, stepped, later⟩ := (Runs.run_cons_iff (step config)).mp reached
    rcases List.mem_cons.mp failed with rfl | afterwards
    · exact Runs.invariant (step config) (backed_step asked) (backed_of_error stepped) later
    · exact ih afterwards later

private theorem unharmed_step {config : Config} {state next : State} {event : Event}
    (quiet : ∀ jitter, event ≠ .error jitter) (unharmed : Unharmed state)
    (stepped : step config state event = some next) : Unharmed next := by
  rcases quiet_step_cases quiet stepped with ⟨_, _, rfl⟩ | ⟨phase, _, chosen, rfl⟩ | ⟨_, _, _, rfl⟩ |
    ⟨_, _, _, rfl⟩ | ⟨_, rfl⟩ | ⟨wakes, waiting, _, _⟩
  · exact ⟨unharmed.closed, unharmed.reset, unharmed.awake⟩
  · simp only [CircuitBreaker.canAttempt, unharmed.closed, if_true] at chosen ⊢
    obtain rfl := chosen
    exact ⟨unharmed.closed, unharmed.reset, fun wakes => Phase.noConfusion⟩
  · exact ⟨unharmed.closed, unharmed.reset, fun wakes => Phase.noConfusion⟩
  · exact ⟨rfl, rfl, fun wakes => Phase.noConfusion⟩
  · exact ⟨unharmed.closed, unharmed.reset, fun wakes => Phase.noConfusion⟩
  · exact absurd waiting (unharmed.awake wakes)

private theorem unharmed_of_run {config : Config} {clock : ℚ} {last : State} {events : List Event}
    (quiet : ∀ jitter, Event.error jitter ∉ events)
    (reached : Runs.run (step config) (State.initial clock) events = some last) : Unharmed last := by
  have met : Runs.EveryStep (step config) (fun _ event => ∀ jitter, event ≠ .error jitter)
      (State.initial clock) events := by
    apply Runs.everyStep_of_mem
    intro event member jitter same
    exact quiet jitter (same ▸ member)
  exact Runs.invariant_of_step (step config) unharmed_step
    ⟨rfl, rfl, fun wakes => Phase.noConfusion⟩ met reached

/-- The breaker is closed, the backoff reset, and a pipeline that sees its blocks is not
reported as degraded. -/
def Settled (state : State) : Prop :=
  state.breaker.state = .closed ∧ state.attempt = 0 ∧
    ∀ (settings : PipelineSettings) (age uptime : ℚ), age ≤ settings.blockAgeDegradedSeconds →
      pipelineState settings state.breaker.state (some age) uptime ≠ .degraded

/-- A session has been connected for as long as stability asks for. -/
def LongSession (config : Config) (state : State) : Prop :=
  ∃ sessionStart connectedAt, state.phase = .session sessionStart connectedAt ∧
    config.stableResetSeconds ≤ state.now - connectedAt

private theorem settled_iff_of_session {config : Config} {clock : ℚ} {events : List Event} {state : State}
    (asked : 0 < config.stableResetSeconds)
    (reached : Runs.run (step config) (State.initial clock) events = some state)
    (long : LongSession config state) : Settled state ↔ ∀ jitter, Event.error jitter ∉ events := by
  obtain ⟨sessionStart, connectedAt, living, _⟩ := long
  constructor
  · rintro ⟨_, reset, _⟩ jitter failed
    rcases backed_of_run asked failed reached with ⟨wakes, waiting⟩ | counted
    · rw [waiting] at living
      cases living
    · omega
  · intro quiet
    have unharmed := unharmed_of_run quiet reached
    refine ⟨unharmed.closed, unharmed.reset, ?_⟩
    intro settings age uptime recent
    simp only [pipelineState, unharmed.closed, not_lt.mpr recent]
    split
    · simp
    · split <;> simp

/-- **Long sessions are settled exactly if no attempt has failed before them.**  Where
stability is asked for, the long sessions of a run all live with a closed breaker and a reset
backoff if and only if none of them comes after an attempt that ended in an error. -/
theorem long_sessions_settled_iff {config : Config} (clock : ℚ) (events : List Event)
    (asked : 0 < config.stableResetSeconds) :
    (∀ before state, before <+: events →
        Runs.run (step config) (State.initial clock) before = some state →
        LongSession config state → Settled state) ↔
      ∀ before state, before <+: events →
        Runs.run (step config) (State.initial clock) before = some state →
        LongSession config state → ∀ jitter, Event.error jitter ∉ before := by
  constructor
  · intro settled before state earlier reached long
    exact (settled_iff_of_session asked reached long).mp (settled before state earlier reached long)
  · intro quiet before state earlier reached long
    exact (settled_iff_of_session asked reached long).mpr (quiet before state earlier reached long)

/-- The settings as they are shipped. -/
private def shipped : Config := ⟨5, 300, 120, 1, 60, 3 / 10, 10, 60⟩

/-- A node that takes the connection at once. -/
private def healthy : List Event := [.iterate, .connect, .advance 60]

private theorem healthy_prefix_quiet {before : List Event} (earlier : before <+: healthy) (jitter : ℚ) :
    Event.error jitter ∉ before := by
  intro failed
  have member := earlier.subset failed
  simp [healthy] at member

/-- The first session of a client, a minute long. -/
theorem long_sessions_settled_healthy :
    Settled ⟨60, .session 0 0, ⟨.closed, [], 0, 0⟩, 0, true⟩ :=
  (long_sessions_settled_iff 0 healthy (show 0 < shipped.stableResetSeconds by decide +kernel)).mpr
    (fun _ _ earlier _ _ => healthy_prefix_quiet earlier) healthy _ (List.prefix_refl healthy)
    (by decide +kernel) ⟨0, 0, rfl, by decide +kernel⟩

/-- A connect that is refused at once, and the wait for the next one. -/
private def refused (pause : ℚ) : List Event := [.iterate, .error 0, .advance pause, .wake]

/-- The node is away for half a minute, which opens the breaker; the probe after the cooldown
finds it and stays connected for a minute. -/
private def outageAndProbe : List Event :=
  refused 1 ++ refused 2 ++ refused 4 ++ refused 8 ++ refused 16 ++
    [.advance 120, .iterate, .connect, .advance 60]

/-- The probe's session lives half-open, with the backoff at five. -/
theorem probe_session_unsettled :
    ¬ ∀ (config : Config) (clock : ℚ) (events : List Event) (state : State),
      0 < config.stableResetSeconds →
      Runs.run (step config) (State.initial clock) events = some state →
      LongSession config state → Settled state := by
  intro settled
  have closed := (settled shipped 0 outageAndProbe
    ⟨211, .session 151 151, ⟨.halfOpen, [0, 1, 3, 7, 15], 15, 5⟩, 5, true⟩ (by decide +kernel)
    (by decide +kernel) ⟨151, 151, rfl, by decide +kernel⟩).1
  cases closed

/-- A pipeline whose breaker has gone half-open is reported as degraded until an error, however
long its session lives. -/
theorem degraded_until_error {config : Config} {state last : State} {events : List Event}
    (asked : 0 < config.stableResetSeconds) (probing : state.breaker.state = .halfOpen)
    (quiet : ∀ jitter, Event.error jitter ∉ events)
    (reached : Runs.run (step config) state events = some last) (settings : PipelineSettings)
    {age : ℚ} (recent : age ≤ settings.blockAgeDownSeconds) (uptime : ℚ) :
    pipelineState settings last.breaker.state (some age) uptime = .degraded := by
  have met : Runs.EveryStep (step config) (fun _ event => ∀ jitter, event ≠ .error jitter) state events := by
    apply Runs.everyStep_of_mem
    intro event member jitter same
    exact quiet jitter (same ▸ member)
  have still : last.breaker.state = .halfOpen :=
    @Runs.invariant_of_step _ _ (step config) _ (fun state => state.breaker.state = .halfOpen)
      (fun quiet probing stepped => halfOpen_step asked quiet probing stepped) _ _ _ probing met reached
  simp [pipelineState, still, not_lt.mpr recent]

end TransactionMonitoring.Reconnect
