import TransactionMonitoring.ClientIp
import TransactionMonitoring.RateLimit

/-! The middleware that limits the rate of requests.

A request is counted under its API key if that is a valid one, and else under its client's address:
guesses at a key share one deque, whatever else the client writes into its headers. The exempt paths
are served without being counted.
-/
namespace TransactionMonitoring.Throttle
open ClientIp RateLimit

/-- What the middleware and `app.auth` are configured with. -/
structure Config (Address Network : Type) where
  tools : Tools Address Network
  proxies : ClientIp.Settings
  apiKeyHeader : String
  validKeys : List String
  limits : Limits

/-- A request that reaches the middleware. -/
structure Request where
  time : ℚ
  path : String
  connection : Connection
deriving DecidableEq, Repr

def exemptPaths : List String := ["/", "/health", "/health/ready", "/docs", "/redoc", "/openapi.json"]

def isAscii (text : String) : Bool := text.toList.all fun char => char.toNat < 128

/-- `is_valid_api_key`; `compare_digest` raises on a text that is not ASCII. -/
def isValidApiKey (validKeys : List String) : Option String → Option Bool
  | none => some false
  | some supplied =>
      if supplied = "" ∨ validKeys = [] then some false
      else if isAscii supplied && validKeys.all isAscii then some (validKeys.contains supplied)
      else none

section
variable {Address Network : Type} (config : Config Address Network)

/-- The key under which a request is counted. -/
def identity (connection : Connection) : Option String := do
  let supplied := connection.get config.apiKeyHeader
  if ← isValidApiKey config.validKeys supplied then supplied
  else some ("ip:" ++ (← clientIp config.tools config.proxies connection).getD "unknown")

structure State where
  limiter : RateLimit.State
  /-- Bookkeeping: the requests that were passed on. -/
  served : List Request

/-- One request, or one turn of the limiter's cleanup. -/
inductive Event where
  | request (request : Request)
  | cleanup (time : ℚ)

/-- `dispatch`: an exception leaves the limiter alone and serves nothing. -/
def dispatch (request : Request) (state : State) : Option State :=
  if request.path ∈ exemptPaths then some { state with served := state.served ++ [request] }
  else match identity config request.connection with
    | none => some state
    | some key => do
        let limiter ← RateLimit.step config.limits state.limiter ⟨request.time, .check key⟩
        some {
          limiter
          served := if (check config.limits request.time key state.limiter.windows).1 = .allowed then
            state.served ++ [request] else state.served }

def step (state : State) : Event → Option State
  | .request request => dispatch config request state
  | .cleanup time => do some { state with limiter := ← RateLimit.step config.limits state.limiter ⟨time, .cleanup⟩ }

def State.initial (clock : ℚ) : State := ⟨.initial clock, []⟩

/-- A request of a client behind the configured number of trusted proxies, without a valid key. -/
structure FromClient (client : String) (request : Request) : Prop where
  trusted : isTrustedProxyPeer config.tools config.proxies request.connection = some true
  through : ∃ proxies sent, config.proxies.trustedProxyHops = (client :: proxies).length ∧
    (∀ peer ∈ client :: proxies, Plain peer) ∧
    Through (client :: proxies) sent (request.connection.getlist "x-forwarded-for")
  noKey : isValidApiKey config.validKeys (request.connection.get config.apiKeyHeader) = some false

/-- A request that the middleware counts under the key. -/
def CountedUnder (key : String) (request : Request) : Prop :=
  request.path ∉ exemptPaths ∧ identity config request.connection = some key

instance (key : String) (request : Request) : Decidable (CountedUnder config key request) :=
  inferInstanceAs (Decidable (_ ∧ _))

/-- The log of allowed calls is that of the served requests that are counted. -/
structure Recorded (state : State) : Prop where
  faithful : Faithful config.limits state.limiter
  log : ∀ key, state.limiter.admitted key = (state.served.filter (CountedUnder config key)).map Request.time

end

section
variable {Address Network : Type} {config : Config Address Network} {state next : State}

theorem recorded_initial (clock : ℚ) : Recorded config (.initial clock) := ⟨faithful_initial _ _, fun _ => rfl⟩

theorem checked_admitted_self (limits : Limits) (now : ℚ) (key : String) (state : RateLimit.State) :
    (state.checked limits now key).admitted key =
      if (check limits now key state.windows).1 = .allowed then state.admitted key ++ [now]
      else state.admitted key := by
  unfold RateLimit.State.checked
  split
  · next windows ran =>
    rw [ran, if_pos rfl]
    exact Function.update_self ..
  · next answer windows notAllowed ran =>
    rw [ran, if_neg notAllowed]

theorem served_filter_append_of_uncounted {key : String} {request : Request}
    (uncounted : ¬CountedUnder config key request) :
    (state.served ++ [request]).filter (CountedUnder config key) = state.served.filter (CountedUnder config key) := by
  rw [List.filter_append, List.filter_singleton, decide_eq_false uncounted]
  exact List.append_nil _

theorem recorded_request (recorded : Recorded config state) {request : Request}
    (steps : dispatch config request state = some next) : Recorded config next := by
  rw [dispatch] at steps
  split at steps
  · next exempt =>
    cases steps
    refine ⟨recorded.faithful, fun key => ?_⟩
    rw [recorded.log, served_filter_append_of_uncounted fun counted => counted.1 exempt]
  · next counts =>
    split at steps
    · cases steps
      exact recorded
    · next key named =>
      obtain ⟨limiter, checks, same⟩ := Option.bind_eq_some_iff.mp steps
      cases same
      refine ⟨faithful_step recorded.faithful checks, fun other => ?_⟩
      obtain ⟨-, ⟨checked, called, rfl⟩ | ⟨called, -⟩⟩ := step_inv checks
      · cases called
        by_cases same : other = key
        · subst same
          have counted : CountedUnder config other request := ⟨counts, named⟩
          rw [checked_admitted_self, recorded.log]
          split
          · rw [List.filter_append, List.map_append, List.filter_singleton, decide_eq_true counted]
            rfl
          · rfl
        · rw [checked_admitted_of_ne same, recorded.log]
          split
          · rw [served_filter_append_of_uncounted]
            rintro ⟨-, otherwise⟩
            exact same (Option.some.inj (otherwise.symm.trans named))
          · rfl
      · cases called

theorem recorded_step (recorded : Recorded config state) {event : Event}
    (steps : step config state event = some next) : Recorded config next := by
  cases event with
  | request request => exact recorded_request recorded steps
  | cleanup time =>
    obtain ⟨limiter, cleans, same⟩ := Option.bind_eq_some_iff.mp steps
    cases same
    refine ⟨faithful_step recorded.faithful cleans, fun key => ?_⟩
    obtain ⟨-, ⟨checked, called, -⟩ | ⟨-, rfl⟩⟩ := step_inv cleans
    · cases called
    · exact recorded.log key

/-- A client without a valid key is counted under its address, whatever it wrote into its headers. -/
theorem FromClient.identity {client address : String} {request : Request}
    (fromClient : FromClient config client request)
    (noEdge : WhiteSpace.strip config.proxies.trustedProxyClientIpHeader = "")
    (parses : parseIp config.tools (some client) = some address) :
    identity config request.connection = some ("ip:" ++ address) := by
  obtain ⟨proxies, sent, hops, plain, through⟩ := fromClient.through
  rw [Throttle.identity, fromClient.noKey, Option.bind_eq_bind, Option.bind_some, if_neg Bool.false_ne_true,
    clientIp_through fromClient.trusted noEdge plain hops through, parses]
  rfl

/-- In every run, however its requests are forged on the left of the forwarded header and whatever keys
they guess, a client gets no more requests for paths that are not exempt served in any span of the
window's length than the limit. -/
theorem guesses_are_limited {start : ℚ} {events : List Event}
    (reached : Runs.run (step config) (.initial start) events = some state)
    (noEdge : WhiteSpace.strip config.proxies.trustedProxyClientIpHeader = "") {client address : String}
    (parses : parseIp config.tools (some client) = some address) (own : Request → Bool)
    (fromClient : ∀ request, own request = true → FromClient config client request) (begins : ℚ) :
    state.served.countP (fun request => own request && decide (request.path ∉ exemptPaths) &&
      decide (begins ≤ request.time ∧ request.time < begins + config.limits.windowSeconds)) ≤
      config.limits.maxRequests := by
  have recorded : Recorded config state :=
    Runs.invariant (step config) (fun held steps => recorded_step held steps) (recorded_initial start) reached
  have sparse := (recorded.faithful ("ip:" ++ address)).sparse _ (SlidingWindow.narrow_closed_open begins _)
  rw [recorded.log, List.countP_map, List.countP_filter] at sparse
  refine le_trans (List.countP_mono_left fun request _ counted => ?_) sparse
  rw [Bool.and_eq_true, Bool.and_eq_true] at counted
  rw [Bool.and_eq_true]
  obtain ⟨⟨isOwn, notExempt⟩, inside⟩ := counted
  exact ⟨inside, decide_eq_true ⟨of_decide_eq_true notExempt, (fromClient request isOwn).identity noEdge parses⟩⟩

end

/-- Two addresses: one of the outside and one of a proxy. -/
def twoHosts : Tools Bool Unit where
  ipAddress text := if text = "1.2.3.4" then some true else if text = "10.0.0.1" then some false else none
  str outside := if outside then "1.2.3.4" else "10.0.0.1"
  ipv4Mapped _ := none
  ipNetwork text := if text = "10.0.0.0/8" then some () else none
  contains _ outside := !outside
  ipAddress_str := by decide

def oneProxy : Config Bool Unit where
  tools := twoHosts
  proxies := ⟨true, 1, "10.0.0.0/8", ""⟩
  apiKeyHeader := "X-API-Key"
  validKeys := ["k"]
  limits := ⟨2, 10⟩

/-- A guess at the key under a forged address. -/
def guess (time : ℚ) (forged key : String) : Request :=
  ⟨time, "/api", ⟨some "10.0.0.1", [("x-forwarded-for", forged ++ ", " ++ "1.2.3.4"), ("x-api-key", key)]⟩⟩

def guesses : List Request := [guess 0 "8.8.8.8" "a", guess 1 "9.9.9.9" "b", guess 2 "7.7.7.7" "c"]

def guessed : State := (Runs.run (step oneProxy) (.initial 0) (guesses.map .request)).get (by decide +kernel)

theorem guesses_are_limited_to_two : guessed.served.countP (fun request =>
    decide (request ∈ guesses) && decide (request.path ∉ exemptPaths) &&
      decide ((0 : ℚ) ≤ request.time ∧ request.time < 0 + (10 : ℤ))) ≤ 2 := by
  refine @guesses_are_limited _ _ oneProxy guessed 0 (guesses.map .request) (Option.some_get _).symm (by decide)
    "1.2.3.4" "1.2.3.4" (by decide) (fun request => decide (request ∈ guesses)) (fun request own => ?_) 0
  have fromClient : ∀ time forged key, isValidApiKey oneProxy.validKeys (some key) = some false →
      FromClient oneProxy "1.2.3.4" (guess time forged key) := by
    intro time forged key invalid
    refine ⟨rfl, ⟨[], [forged], rfl, by decide, .hop (.last [] forged) (.arrived _)⟩, invalid⟩
  have isGuess := of_decide_eq_true own
  simp only [guesses, List.mem_cons, List.not_mem_nil, or_false] at isGuess
  obtain rfl | rfl | rfl := isGuess
  · exact fromClient _ _ _ (by decide)
  · exact fromClient _ _ _ (by decide)
  · exact fromClient _ _ _ (by decide)

end TransactionMonitoring.Throttle
