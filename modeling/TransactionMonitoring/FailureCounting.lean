import Mathlib.Tactic.Ring
import TransactionMonitoring.Reconnect

/-! Which failing attempts the breaker counts.

An error counts unless the attempt is taken for a stable session, and that is judged by a
clock that starts before `connect`: an attempt that spends its time connecting can pass for
one.  The failures a breaker holds open it once they reach its threshold inside its window.
-/
namespace TransactionMonitoring.Reconnect

/-- When the attempt under way began. -/
def Phase.sessionStart : Phase → Option ℚ
  | .connecting sessionStart | .session sessionStart _ => some sessionStart
  | .head | .gated _ | .waiting _ => none

/-- An attempt is under way that has not been connected for as long as stability asks for. -/
def Unstable (config : Config) (state : State) : Prop :=
  match state.phase with
  | .connecting _ => True
  | .session _ connectedAt => state.now - connectedAt < config.stableResetSeconds
  | .head | .gated _ | .waiting _ => False

/-- An unstable attempt that ends in an error here records exactly one failure. -/
def Counted (config : Config) (state : State) (event : Event) : Prop :=
  ∀ jitter next, event = .error jitter → Unstable config state → step config state event = some next →
    next.breaker.recorded = state.breaker.recorded + 1

/-- An unstable attempt that ends in an error here was shorter in all, its connecting included,
than what passes for stable. -/
def Short (config : Config) (state : State) (event : Event) : Prop :=
  ∀ jitter next, event = .error jitter → Unstable config state → step config state event = some next →
    ∀ sessionStart, state.phase.sessionStart = some sessionStart →
      resetsIfStable config sessionStart state.now = false

theorem resetsIfStable_eq_false_iff {config : Config} {sessionStart now : ℚ} :
    resetsIfStable config sessionStart now = false ↔
      config.stableResetSeconds ≤ 0 ∨ now - sessionStart < config.stableResetSeconds := by
  simp [resetsIfStable, or_iff_not_imp_left]

@[simp] theorem recordFailure_recorded (config : Config) (now : ℚ) (breaker : CircuitBreaker) :
    (breaker.recordFailure config now).recorded = breaker.recorded + 1 := by
  unfold CircuitBreaker.recordFailure
  dsimp only
  split
  · rfl
  · split <;> rfl

@[simp] theorem recordSuccess_recorded (breaker : CircuitBreaker) :
    breaker.recordSuccess.recorded = breaker.recorded := rfl

/-- An error is counted unless the attempt passes for a stable session. -/
theorem recorded_of_error {config : Config} {state next : State} {jitter sessionStart : ℚ}
    (handled : handleError config state sessionStart jitter = some next) :
    next.breaker.recorded = state.breaker.recorded + 1 ↔
      resetsIfStable config sessionStart state.now = false := by
  obtain ⟨wakes, rfl⟩ := handleError_eq handled
  cases resetsIfStable config sessionStart state.now with
  | false => simp
  | true => simp

/-- An error is handled as one of the session it ends. -/
private theorem handled_of_error {config : Config} {state next : State} {jitter : ℚ}
    (stepped : step config state (.error jitter) = some next) :
    ∃ start, state.phase.sessionStart = some start ∧ handleError config state start jitter = some next := by
  obtain ⟨start, phase, handled⟩ := step_error_iff.mp stepped
  refine ⟨start, ?_, handled⟩
  rcases phase with connecting | ⟨connectedAt, living⟩
  · simp [connecting, Phase.sessionStart]
  · simp [living, Phase.sessionStart]

private theorem counted_iff_short {config : Config} {state : State} {event : Event} :
    Counted config state event ↔ Short config state event := by
  constructor
  · rintro counted jitter next rfl unstable stepped sessionStart began
    obtain ⟨start, same, handled⟩ := handled_of_error stepped
    obtain rfl : start = sessionStart := Option.some.inj (same.symm.trans began)
    exact (recorded_of_error handled).mp (counted jitter next rfl unstable stepped)
  · rintro short jitter next rfl unstable stepped
    obtain ⟨start, same, handled⟩ := handled_of_error stepped
    exact (recorded_of_error handled).mpr (short jitter next rfl unstable stepped start same)

/-! ## A node that only times out -/

/-- An attempt whose connect raises after `connecting`, and the time until the next attempt. -/
structure Timeout where
  connecting : ℚ
  jitter : ℚ
  pause : ℚ
deriving DecidableEq, Repr

def Timeout.events (timeout : Timeout) : List Event :=
  [.iterate, .advance timeout.connecting, .error timeout.jitter, .advance timeout.pause, .wake]

/-- The time between the first failure and the last. -/
def span : Timeout → List Timeout → ℚ
  | _, [] => 0
  | timeout, next :: rest => timeout.pause + next.connecting + span next rest

/-- The attempt is too short to pass for a stable session. -/
def Timeout.Short (config : Config) (timeout : Timeout) : Prop :=
  config.stableResetSeconds ≤ 0 ∨ timeout.connecting < config.stableResetSeconds

instance (config : Config) (timeout : Timeout) : Decidable (timeout.Short config) :=
  inferInstanceAs (Decidable (_ ∨ _))

section Opening
variable {config : Config}

/-- A timeout from a closed breaker: the attempt is begun, fails and is slept out. -/
private theorem run_timeout {state last : State} {timeout : Timeout} {more : List Event}
    (atHead : state.phase = .head) (closed : state.breaker.state = .closed)
    (reached : Runs.run (step config) state (timeout.events ++ more) = some last) :
    0 ≤ timeout.connecting ∧ 0 ≤ timeout.pause ∧ ∃ next, Runs.run (step config) next more = some last ∧
      next.phase = .head ∧ next.now = state.now + timeout.connecting + timeout.pause ∧
      next.breaker = if resetsIfStable config state.now (state.now + timeout.connecting) then
          state.breaker.recordSuccess
        else state.breaker.recordFailure config (state.now + timeout.connecting) := by
  simp only [Timeout.events, List.cons_append, List.nil_append, Runs.run_cons_iff] at reached
  obtain ⟨begun, iterated, late, waited, failed, raised, slept, paused, next, woken, later⟩ := reached
  simp only [step, atHead, CircuitBreaker.canAttempt, closed, if_true, Option.some.injEq] at iterated
  obtain rfl := iterated
  simp only [step, Option.ite_none_right_eq_some, Option.some.injEq] at waited
  obtain ⟨forward, rfl⟩ := waited
  obtain ⟨start, phase, handled⟩ := step_error_iff.mp raised
  obtain rfl : state.now = start := by simpa using phase
  obtain ⟨wakes, rfl⟩ := handleError_eq handled
  simp only [step, Option.ite_none_right_eq_some, Option.some.injEq] at paused
  obtain ⟨onward, rfl⟩ := paused
  simp only [step, Option.ite_none_right_eq_some, Option.some.injEq] at woken
  obtain ⟨_, rfl⟩ := woken
  exact ⟨forward, onward, _, later, rfl, rfl, rfl⟩

private theorem resets_iff {now : ℚ} {timeout : Timeout} :
    resetsIfStable config now (now + timeout.connecting) = false ↔ timeout.Short config := by
  rw [resetsIfStable_eq_false_iff, add_sub_cancel_left]
  rfl

theorem recordFailure_failures (now : ℚ) (breaker : CircuitBreaker) :
    (breaker.recordFailure config now).failures =
      (breaker.failures ++ [now]).filter (fun time => now - time ≤ config.failureWindow) := by
  unfold CircuitBreaker.recordFailure
  dsimp only
  split
  · rfl
  · split <;> rfl

/-- A failure opens a closed breaker once the failures it holds meet the threshold. -/
theorem recordFailure_state {breaker : CircuitBreaker} (now : ℚ) (closed : breaker.state = .closed) :
    (breaker.recordFailure config now).state =
      if config.failureThreshold ≤ (breaker.recordFailure config now).failures.length then .open
      else .closed := by
  rw [recordFailure_failures]
  unfold CircuitBreaker.recordFailure
  simp only [closed, reduceCtorEq, if_false]
  split <;> rfl

private theorem recordFailure_length_le (now : ℚ) (breaker : CircuitBreaker) :
    (breaker.recordFailure config now).failures.length ≤ breaker.failures.length + 1 := by
  rw [recordFailure_failures]
  refine (List.length_filter_le _ _).trans ?_
  simp

private theorem advance_nonneg {state last : State} {events : List Event} {seconds : ℚ}
    (reached : Runs.run (step config) state events = some last) (member : .advance seconds ∈ events) :
    0 ≤ seconds := by
  induction events generalizing state with
  | nil => cases member
  | cons event rest ih =>
    obtain ⟨next, stepped, later⟩ := (Runs.run_cons_iff (step config)).mp reached
    rcases List.mem_cons.mp member with rfl | afterwards
    · simp only [step, Option.ite_none_right_eq_some] at stepped
      exact stepped.1
    · exact ih later afterwards

private theorem span_nonneg {first : Timeout} {rest : List Timeout}
    (forward : ∀ timeout ∈ first :: rest, 0 ≤ timeout.connecting ∧ 0 ≤ timeout.pause) :
    0 ≤ span first rest := by
  induction rest generalizing first with
  | nil => exact le_refl 0
  | cons next rest ih =>
    have begun := forward first List.mem_cons_self
    have tried := forward next (.tail _ List.mem_cons_self)
    have later := ih fun timeout member => forward timeout (.tail _ member)
    simp only [span]
    linarith

/-- Too few attempts are left to meet the threshold. -/
private theorem stays_closed {timeouts : List Timeout} {state last : State} (atHead : state.phase = .head)
    (closed : state.breaker.state = .closed)
    (few : (state.breaker.failures.length + timeouts.length : ℤ) < config.failureThreshold)
    (reached : Runs.run (step config) state (timeouts.flatMap Timeout.events) = some last) :
    last.breaker.state = .closed := by
  induction timeouts generalizing state with
  | nil =>
    obtain rfl : state = last := by simpa using reached
    exact closed
  | cons timeout rest ih =>
    obtain ⟨_, _, next, later, atHead', _, breaker⟩ := run_timeout atHead closed reached
    simp only [List.length_cons, Nat.cast_add, Nat.cast_one] at few
    split at breaker
    · apply ih atHead' (by rw [breaker]; rfl) ?_ later
      simp only [breaker, CircuitBreaker.recordSuccess, List.length_nil, Nat.cast_zero]
      omega
    · have atMost := @recordFailure_length_le config (state.now + timeout.connecting) state.breaker
      apply ih atHead' ?_ ?_ later
      · rw [breaker, recordFailure_state _ closed, if_neg]
        omega
      · rw [breaker]
        omega

/-- A counted failure while the oldest one is still inside the window. -/
private theorem recordFailure_held {breaker : CircuitBreaker} {oldest now : ℚ}
    (held : ∀ time ∈ breaker.failures, oldest ≤ time) (past : oldest ≤ now)
    (within : now - oldest ≤ config.failureWindow) :
    (breaker.recordFailure config now).failures = breaker.failures ++ [now] := by
  rw [recordFailure_failures, List.filter_eq_self]
  intro time member
  have since : oldest ≤ time := by
    rcases List.mem_append.mp member with earlier | latest
    · exact held time earlier
    · obtain rfl := List.mem_singleton.mp latest
      exact past
  simp only [decide_eq_true_eq]
  linarith

/-- A counted failure that finds the oldest one outside the window. -/
private theorem recordFailure_dropped {breaker : CircuitBreaker} {oldest now : ℚ}
    (first : oldest ∈ breaker.failures ++ [now]) (outside : config.failureWindow < now - oldest) :
    (breaker.recordFailure config now).failures.length ≤ breaker.failures.length := by
  have fewer : (breaker.recordFailure config now).failures.length < (breaker.failures ++ [now]).length := by
    rw [recordFailure_failures, List.length_filter_lt_length_iff_exists]
    exact ⟨oldest, first, by simpa using sub_le_iff_le_add.not.mp (not_le.mpr outside)⟩
  simpa [Nat.lt_succ_iff] using fewer

/-- One more timeout while every failure so far is still held: it is held with them, or the
breaker holds no more than before and stays closed. -/
private theorem after_timeout {timeout : Timeout} {state last : State} {more : List Event} {oldest : ℚ}
    (atHead : state.phase = .head) (closed : state.breaker.state = .closed)
    (held : ∀ time ∈ state.breaker.failures, oldest ≤ time)
    (first : oldest ∈ state.breaker.failures ++ [state.now + timeout.connecting])
    (past : oldest ≤ state.now + timeout.connecting)
    (below : (state.breaker.failures.length : ℤ) < config.failureThreshold)
    (reached : Runs.run (step config) state (timeout.events ++ more) = some last) :
    ∃ next, Runs.run (step config) next more = some last ∧ next.phase = .head ∧
      next.now = state.now + timeout.connecting + timeout.pause ∧
      if timeout.Short config ∧ state.now + timeout.connecting - oldest ≤ config.failureWindow then
        next.breaker.failures = state.breaker.failures ++ [state.now + timeout.connecting] ∧
        next.breaker.state =
          if config.failureThreshold ≤ state.breaker.failures.length + 1 then .open else .closed
      else next.breaker.failures.length ≤ state.breaker.failures.length ∧ next.breaker.state = .closed := by
  obtain ⟨onward, _, next, later, atHead', clock, breaker⟩ := run_timeout atHead closed reached
  refine ⟨next, later, atHead', clock, ?_⟩
  cases passes : resetsIfStable config state.now (state.now + timeout.connecting) with
  | true =>
    have notShort : ¬ timeout.Short config := by
      rw [← @resets_iff _ state.now, passes]
      simp
    rw [if_neg fun both => notShort both.1]
    simp [breaker, passes, CircuitBreaker.recordSuccess]
  | false =>
    have short := resets_iff.mp passes
    simp only [passes, Bool.false_eq_true, if_false] at breaker
    split
    · rename_i counted
      have kept := recordFailure_held held past counted.2
      refine ⟨by rw [breaker, kept], ?_⟩
      rw [breaker, recordFailure_state _ closed, kept]
      simp
    · rename_i dropped
      have outside : config.failureWindow < state.now + timeout.connecting - oldest := by
        rw [← not_le]
        exact fun within => dropped ⟨short, within⟩
      have atMost := recordFailure_dropped first outside
      rw [breaker]
      refine ⟨atMost, ?_⟩
      rw [recordFailure_state _ closed, if_neg]
      omega

/-- While every failure so far is still held, the breaker opens exactly if the attempts left
are all counted and the oldest failure stays inside the window. -/
private theorem opens_iff {timeout : Timeout} {rest : List Timeout} {state last : State} {oldest : ℚ}
    (atHead : state.phase = .head) (closed : state.breaker.state = .closed)
    (held : ∀ time ∈ state.breaker.failures, oldest ≤ time)
    (first : oldest ∈ state.breaker.failures ++ [state.now + timeout.connecting])
    (past : oldest ≤ state.now + timeout.connecting)
    (enough : (state.breaker.failures.length + (timeout :: rest).length : ℤ) = config.failureThreshold)
    (forward : ∀ each ∈ timeout :: rest, 0 ≤ each.connecting ∧ 0 ≤ each.pause)
    (reached : Runs.run (step config) state ((timeout :: rest).flatMap Timeout.events) = some last) :
    last.breaker.state = .open ↔ (∀ each ∈ timeout :: rest, each.Short config) ∧
      state.now + timeout.connecting + span timeout rest - oldest ≤ config.failureWindow := by
  induction rest generalizing timeout state with
  | nil =>
    simp only [List.length_cons, List.length_nil] at enough
    obtain ⟨next, later, _, _, outcome⟩ := after_timeout atHead closed held first past (by omega) reached
    obtain rfl : next = last := by simpa using later
    simp only [List.forall_mem_singleton, span, add_zero]
    split at outcome
    · rename_i counted
      rw [outcome.2, if_pos (by omega)]
      simpa using counted
    · rename_i lost
      rw [outcome.2]
      simpa using lost
  | cons following rest ih =>
    simp only [List.length_cons] at enough
    obtain ⟨next, later, atHead', clock, outcome⟩ :=
      after_timeout atHead closed held first past (by omega) reached
    have started := forward timeout List.mem_cons_self
    have onward := forward following (.tail _ List.mem_cons_self)
    have lasts := span_nonneg fun each member => forward each (.tail _ member)
    have total : state.now + timeout.connecting + span timeout (following :: rest) =
        next.now + following.connecting + span following rest := by
      simp only [span, clock]
      ring
    rw [total, List.forall_mem_cons]
    split at outcome
    · rename_i counted
      obtain ⟨failures, nextState⟩ := outcome
      rw [if_neg (by omega)] at nextState
      have decided := ih atHead' nextState ?_ ?_ ?_ ?_ (fun each member => forward each (.tail _ member)) later
      · rw [decided]
        simp [counted.1]
      · intro time member
        rw [failures] at member
        rcases List.mem_append.mp member with earlier | latest
        · exact held time earlier
        · obtain rfl := List.mem_singleton.mp latest
          linarith
      · rw [failures]
        exact List.mem_append_left _ first
      · linarith
      · simp only [failures, List.length_append, List.length_cons, List.length_nil]
        omega
    · rename_i lost
      have shut := stays_closed atHead' outcome.2 (by simp only [List.length_cons]; omega) later
      rw [shut]
      simp only [reduceCtorEq, false_iff]
      rintro ⟨⟨short, _⟩, within⟩
      exact lost ⟨short, by linarith⟩

end Opening

/-- **Every failing attempt is counted exactly if none passes for stable.**  In every run, each
attempt that ends in an error before it was stable records exactly one failure if and only if
each of them, its connecting included, was shorter than what passes for stable.  A new client
whose attempts only time out has its breaker opened by as many of them as the threshold says
if and only if they are all that short and the failures lie within one window. -/
theorem failures_counted_iff (config : Config) (clock : ℚ) (events : List Event) :
    (Runs.EveryStep (step config) (Counted config) (State.initial clock) events ↔
      Runs.EveryStep (step config) (Short config) (State.initial clock) events) ∧
    ∀ (timeout : Timeout) (rest : List Timeout) (last : State),
      ((timeout :: rest).length : ℤ) = config.failureThreshold →
      Runs.run (step config) (State.initial clock) ((timeout :: rest).flatMap Timeout.events) = some last →
      (last.breaker.state = .open ↔
        (∀ each ∈ timeout :: rest, each.Short config) ∧ span timeout rest ≤ config.failureWindow) := by
  refine ⟨?_, ?_⟩
  · apply @Runs.everyStep_congr_of_kept _ _ (step config) _ _ (fun _ => True)
    · intro state event next _ _ _
      trivial
    · intro state event _
      exact counted_iff_short
    · trivial
  · intro timeout rest last enough reached
    have forward : ∀ each ∈ timeout :: rest, 0 ≤ each.connecting ∧ 0 ≤ each.pause := by
      intro each member
      constructor
      · exact advance_nonneg reached (List.mem_flatMap.mpr ⟨each, member, by simp [Timeout.events]⟩)
      · exact advance_nonneg reached (List.mem_flatMap.mpr ⟨each, member, by simp [Timeout.events]⟩)
    have decided := @opens_iff config timeout rest (State.initial clock) last (clock + timeout.connecting)
      rfl rfl (by simp [State.initial]) (by simp [State.initial]) (le_refl _)
      (by simpa [State.initial] using enough) forward reached
    rw [decided]
    simp [State.initial]

/-- The settings as shipped, for how long a session must be connected. -/
private def stableAfter (seconds : ℚ) : Config := ⟨5, 300, 120, 1, 60, 3 / 10, 10, seconds⟩

/-- A connect that times out after ten seconds. -/
private def slowConnect (pause : ℚ) : Timeout := ⟨10, 0, pause⟩

private def openedState : State where
  now := 81
  phase := .head
  breaker := ⟨.open, [10, 21, 33, 47, 65], 65, 5⟩
  attempt := 5
  connected := false

/-- Five timeouts of ten seconds open the breaker where a session is stable after a minute. -/
theorem failures_counted_shipped : openedState.breaker.state = .open :=
  ((failures_counted_iff (stableAfter 60) 0 []).2 (slowConnect 1)
    [slowConnect 2, slowConnect 4, slowConnect 8, slowConnect 16] openedState rfl
    (by decide +kernel)).mpr (by decide +kernel)

private def slowConnects : List Timeout :=
  [slowConnect 1, slowConnect 1, slowConnect 1, slowConnect 1, slowConnect 1]

private def unopenedState : State where
  now := 55
  phase := .head
  breaker := ⟨.closed, [], 0, 0⟩
  attempt := 1
  connected := false

/-- Where a session is stable after five seconds, each of five timeouts of ten seconds passes
for a stable session: none is counted, and the breaker stays closed. -/
theorem slow_connects_uncounted :
    ¬ Runs.EveryStep (step (stableAfter 5)) (Counted (stableAfter 5)) (State.initial 0)
        (slowConnects.flatMap Timeout.events) ∧
      ¬ ∀ last, Runs.run (step (stableAfter 5)) (State.initial 0) (slowConnects.flatMap Timeout.events) =
        some last → last.breaker.state = .open := by
  constructor
  · intro counted
    have first := (counted.2 ⟨0, .connecting 0, ⟨.closed, [], 0, 0⟩, 0, false⟩ (by decide +kernel)).2
      ⟨10, .connecting 0, ⟨.closed, [], 0, 0⟩, 0, false⟩ (by decide +kernel)
    have recorded := first.1 0 ⟨10, .waiting 11, ⟨.closed, [], 0, 0⟩, 0, false⟩ rfl trivial
      (by decide +kernel)
    cases recorded
  · intro opened
    have state := opened unopenedState (by decide +kernel)
    cases state

end TransactionMonitoring.Reconnect
