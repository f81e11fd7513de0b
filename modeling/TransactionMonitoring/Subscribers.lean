import Mathlib.Data.List.Nodup
import Mathlib.Logic.Function.Basic
import Mathlib.Order.Bounds.Defs
import TransactionMonitoring.DropOldest
import TransactionMonitoring.Runs
import TransactionMonitoring.Throttle

/-! The live feed over web sockets.

Ingestion puts an event into the queue of every client and never waits; a task per client sends from
its queue, and a loop per client answers what it receives.  Handshakes, tasks and loops of any number
of connections interleave wherever one of them awaits.  A process that takes up the leader's duties
replaces the register of its connections by a fresh list, whoever is connected by then.
-/
namespace TransactionMonitoring.Subscribers
open DropOldest Runs

/-- A handshake as the endpoint reads it: the verdict of the limiter, the `Origin` and the `api_key`. -/
structure Request where
  allowed : Bool
  origin : Option String
  apiKey : Option String
deriving DecidableEq, Repr

structure Settings where
  rateLimitEnabled : Bool
  corsAllowOriginsList : List String
  validKeys : List String
  wsMaxConnections : Int
  wsClientQueueSize : Int
deriving DecidableEq, Repr

def wsCloseForbidden : Nat := 4403
def wsCloseOverloaded : Nat := 4429
def wsClosePolicyViolation : Nat := 1008

/-- What becomes of a handshake. -/
inductive Verdict where
  | admitted
  | rejected (code : Nat)
  | raised
deriving DecidableEq, Repr

/-- `_origin_allowed`. -/
def originAllowed (settings : Settings) : Option String → Bool
  | none => true
  | some origin =>
      let allowed := settings.corsAllowOriginsList
      if allowed = [] ∨ "*" ∈ allowed then true else allowed.contains origin

/-- The part of `websocket_endpoint` in front of `accept`, with so many connections active. -/
def handshake (settings : Settings) (request : Request) (active : Nat) : Verdict :=
  if settings.rateLimitEnabled && !request.allowed then .rejected wsCloseOverloaded
  else if !originAllowed settings request.origin then .rejected wsClosePolicyViolation
  else
    let capped := if settings.wsMaxConnections ≤ active then .rejected wsCloseOverloaded else .admitted
    -- `_dev_mode` is read first.
    if settings.validKeys = [] then capped
    else match Throttle.isValidApiKey settings.validKeys request.apiKey with
      | none => .raised
      | some false => .rejected wsCloseForbidden
      | some true => capped

/-- What is sent to a client. -/
inductive Payload (ε : Type) where
  | lifecycle (data : ε) (timestamp : String)
  | pong
deriving DecidableEq, Repr

/-- Where the task of `_sender` stands. -/
inductive Sender (ε : Type) where
  | waiting
  | sending (payload : Payload ε)
  /-- The client was given up and its socket is being closed. -/
  | closing
  | done
deriving DecidableEq, Repr

/-- The payload that `_sender` has taken and not sent. -/
def Sender.inFlight {ε : Type} : Sender ε → List (Payload ε)
  | .sending payload => [payload]
  | .waiting | .closing | .done => []

/-- The task takes from the queue as soon as it can. -/
def Sender.Runs {ε : Type} : Sender ε → Prop
  | .waiting | .sending _ => True
  | .closing | .done => False

instance {ε : Type} (sender : Sender ε) : Decidable sender.Runs := by
  cases sender
  · exact isTrue trivial
  · exact isTrue trivial
  · exact isFalse id
  · exact isFalse id

/-- A connection that was accepted. -/
structure Client (ε : Type) where
  queue : List (Payload ε) := []
  sender : Sender ε := .waiting
  /-- The endpoint is in its loop. -/
  reading : Bool := true
  /-- Bookkeeping: what was put into the queue so far, and what was sent. -/
  offered : List (Payload ε) := []
  sent : List (Payload ε) := []
deriving DecidableEq, Repr

structure State (ι ε : Type) where
  /-- Connections that wait for `accept`. -/
  accepting : List ι := []
  /-- The register of the router. -/
  activeConnections : List ι := []
  /-- `set_active_connections` has bound it to the list of `main`. -/
  leads : Bool := false
  /-- The keys of `_client_queues`, in order. -/
  clientQueues : List ι := []
  clients : ι → Option (Client ε) := fun _ => none
  /-- Bookkeeping: the clients that were subscribed when the register was bound anew. -/
  overlooked : List ι := []

inductive Event (ι ε : Type) where
  | upgrade (connection : ι) (request : Request)
  | accepted (connection : ι)
  | acceptFails (connection : ι)
  /-- `_start_leader_duties`, at startup or at the promotion of a standby. -/
  | promoted
  /-- `broadcast_lifecycle_event`. -/
  | lifecycle (data : ε) (timestamp : String)
  /-- `queue.get` returns. -/
  | get (connection : ι)
  /-- `send_json` returns, -/
  | sent (connection : ι)
  /-- or raises. -/
  | sendFails (connection : ι)
  | closed (connection : ι)
  /-- `receive_text` returns, -/
  | receives (connection : ι)
  /-- or raises. -/
  | leaves (connection : ι)

section
variable {ι ε : Type} [DecidableEq ι] (settings : Settings)

/-- `_enqueue`. -/
def Client.enqueue (client : Client ε) (payload : Payload ε) : Client ε :=
  { client with
    queue := put settings.wsClientQueueSize client.queue payload
    offered := client.offered ++ [payload] }

/-- `_enqueue` on the queue that is found under a connection. -/
def enqueueAt (payload : Payload ε) (clients : ι → Option (Client ε)) (connection : ι) : ι → Option (Client ε) :=
  Function.update clients connection ((clients connection).map fun client => client.enqueue settings payload)

/-- `broadcast`. -/
def broadcast (payload : Payload ε) (state : State ι ε) : State ι ε :=
  { state with clients := state.clientQueues.foldl (enqueueAt settings payload) state.clients }

/-- `active_connections` of `main`: nothing is added to it before it is the register of the router. -/
def State.ofMain (state : State ι ε) : List ι := if state.leads then state.activeConnections else []

/-- `set_active_connections`, with the list of `main`. -/
def setActiveConnections (state : State ι ε) : State ι ε :=
  if state.leads then state
  else { state with leads := true, activeConnections := state.ofMain, overlooked := state.clientQueues }

/-- `_cleanup`. -/
def cleanup (connection : ι) (state : State ι ε) : State ι ε :=
  { state with
    clientQueues := state.clientQueues.erase connection
    activeConnections := state.activeConnections.erase connection }

def State.set (state : State ι ε) (connection : ι) (client : Client ε) : State ι ε :=
  { state with clients := Function.update state.clients connection (some client) }

def step (state : State ι ε) : Event ι ε → Option (State ι ε)
  | .upgrade connection request =>
      if connection ∉ state.accepting ∧ state.clients connection = none then
        some (match handshake settings request state.activeConnections.length with
          | .admitted => { state with accepting := state.accepting ++ [connection] }
          -- `_reject` registers nothing, and neither does an exception.
          | .rejected _ | .raised => state)
      else none
  | .accepted connection =>
      if connection ∈ state.accepting then
        some { state with
          accepting := state.accepting.erase connection
          activeConnections := state.activeConnections ++ [connection]
          clientQueues := state.clientQueues ++ [connection]
          clients := Function.update state.clients connection (some {}) }
      else none
  | .acceptFails connection =>
      if connection ∈ state.accepting then some { state with accepting := state.accepting.erase connection } else none
  | .promoted => some (setActiveConnections state)
  | .lifecycle data timestamp =>
      some (if state.ofMain = [] then state else broadcast settings (.lifecycle data timestamp) state)
  | .get connection => do
      let client ← state.clients connection
      match client.sender with
      | .waiting => do
          let (payload, queue) ← getNowait client.queue
          some (state.set connection { client with queue, sender := .sending payload })
      | .sending _ | .closing | .done => none
  | .sent connection => do
      let client ← state.clients connection
      match client.sender with
      | .sending payload =>
          some (state.set connection { client with sender := .waiting, sent := client.sent ++ [payload] })
      | .waiting | .closing | .done => none
  | .sendFails connection => do
      let client ← state.clients connection
      match client.sender with
      | .sending _ => some (cleanup connection (state.set connection { client with sender := .closing }))
      | .waiting | .closing | .done => none
  | .closed connection => do
      let client ← state.clients connection
      match client.sender with
      | .closing => some (state.set connection { client with sender := .done })
      | .waiting | .sending _ | .done => none
  | .receives connection => do
      let client ← state.clients connection
      if client.reading then some (state.set connection (client.enqueue settings .pong)) else none
  | .leaves connection => do
      let client ← state.clients connection
      -- The sender is cancelled, whatever it is about.
      if client.reading then
        some (cleanup connection (state.set connection { client with reading := false, sender := .done }))
      else none

end

/-! The registers. -/

/-- What keeps the feed's registers together. -/
structure Sound {ι ε : Type} [DecidableEq ι] (state : State ι ε) : Prop where
  registered : state.activeConnections = state.clientQueues.filter (· ∉ state.overlooked)
  nodup : state.clientQueues.Nodup
  pending : state.accepting.Nodup ∧ ∀ connection ∈ state.accepting, state.clients connection = none
  subscribed : ∀ connection, connection ∈ state.clientQueues ↔
    ∃ client, state.clients connection = some client ∧ client.reading = true ∧ client.sender.Runs
  overlooked : ∀ connection, state.clients connection = none → connection ∉ state.overlooked

section
variable {ι ε : Type} [DecidableEq ι] {settings : Settings} {state next : State ι ε} {connection : ι}
  {client : Client ε}

theorem set_clients_self : (state.set connection client).clients connection = some client := Function.update_self ..

theorem set_clients_of_ne {other : ι} (different : other ≠ connection) :
    (state.set connection client).clients other = state.clients other := Function.update_of_ne different ..

theorem none_of_set {other : ι} (absent : (state.set connection client).clients other = none) :
    state.clients other = none := by
  by_cases own : other = connection
  · subst own
    rw [set_clients_self] at absent
    cases absent
  · rwa [set_clients_of_ne own] at absent

/-- A broadcast reaches every client that is subscribed once, and no other. -/
theorem broadcast_clients (nodup : state.clientQueues.Nodup) (payload : Payload ε) (other : ι) :
    (broadcast settings payload state).clients other =
      if other ∈ state.clientQueues then (state.clients other).map fun client => client.enqueue settings payload
      else state.clients other := by
  have folded : ∀ (keys : List ι) (clients : ι → Option (Client ε)), keys.Nodup →
      keys.foldl (enqueueAt settings payload) clients other =
        if other ∈ keys then (clients other).map fun client => client.enqueue settings payload else clients other := by
    intro keys
    induction keys with
    | nil => intro clients _; rfl
    | cons key keys ih =>
      intro clients nodup
      obtain ⟨absent, nodup⟩ := List.nodup_cons.mp nodup
      rw [List.foldl_cons, ih _ nodup, enqueueAt]
      by_cases own : other = key
      · subst own
        rw [if_neg absent, if_pos List.mem_cons_self, Function.update_self]
      · simp only [Function.update_of_ne own, List.mem_cons, own, false_or]
  exact folded state.clientQueues state.clients nodup

theorem Sound.initial : Sound ({} : State ι ε) where
  registered := rfl
  nodup := .nil
  pending := ⟨.nil, fun _ member => by cases member⟩
  subscribed _ := by
    constructor
    · intro member
      cases member
    · rintro ⟨_, found, -⟩
      cases found
  overlooked _ _ := List.not_mem_nil

/-- A connection that waits is no client yet. -/
theorem Sound.ne_of_pending (sound : Sound state) (found : state.clients connection = some client) {other : ι}
    (pending : other ∈ state.accepting) : other ≠ connection := by
  rintro rfl
  rw [sound.pending.2 _ pending] at found
  cases found

/-- Another client in the place of one that is subscribed likewise. -/
theorem Sound.set (sound : Sound state) (found : state.clients connection = some client) {after : Client ε}
    (reading : after.reading = client.reading) (runs : after.sender.Runs ↔ client.sender.Runs) :
    Sound (state.set connection after) := by
  refine ⟨sound.registered, sound.nodup, ⟨sound.pending.1, fun other member => ?_⟩, fun other => ?_,
    fun other absent => sound.overlooked other (none_of_set absent)⟩
  · rw [set_clients_of_ne (sound.ne_of_pending found member)]
    exact sound.pending.2 other member
  · by_cases own : other = connection
    · subst own
      rw [set_clients_self]
      refine (sound.subscribed other).trans ?_
      rw [found]
      constructor
      · rintro ⟨_, ⟨⟩, reads, sends⟩
        exact ⟨after, rfl, reading.trans reads, runs.mpr sends⟩
      · rintro ⟨_, ⟨⟩, reads, sends⟩
        exact ⟨client, rfl, reading.symm.trans reads, runs.mp sends⟩
    · rw [set_clients_of_ne own]
      exact sound.subscribed other

/-- A client that stops is given up. -/
theorem Sound.stop (sound : Sound state) (found : state.clients connection = some client) {after : Client ε}
    (stopped : ¬ (after.reading = true ∧ after.sender.Runs)) :
    Sound (cleanup connection (state.set connection after)) := by
  refine ⟨?_, sound.nodup.erase connection, ⟨sound.pending.1, fun other member => ?_⟩, fun other => ?_,
    fun other absent => sound.overlooked other (none_of_set absent)⟩
  · show state.activeConnections.erase connection = (state.clientQueues.erase connection).filter (· ∉ state.overlooked)
    rw [sound.registered, (sound.nodup.filter _).erase_eq_filter, sound.nodup.erase_eq_filter, List.filter_filter,
      List.filter_filter]
    simp only [Bool.and_comm]
  · exact (set_clients_of_ne (sound.ne_of_pending found member)).trans (sound.pending.2 other member)
  · refine sound.nodup.mem_erase_iff.trans ?_
    rw [cleanup]
    dsimp only
    by_cases own : other = connection
    · subst own
      rw [set_clients_self]
      constructor
      · rintro ⟨different, -⟩
        exact absurd rfl different
      · rintro ⟨_, ⟨⟩, runs⟩
        exact absurd runs stopped
    · rw [set_clients_of_ne own, sound.subscribed other]
      exact and_iff_right own

/-- A connection that is accepted is subscribed. -/
theorem Sound.accept (sound : Sound state) (member : connection ∈ state.accepting) :
    Sound { state with
      accepting := state.accepting.erase connection
      activeConnections := state.activeConnections ++ [connection]
      clientQueues := state.clientQueues ++ [connection]
      clients := Function.update state.clients connection (some {}) } := by
  have absent : connection ∉ state.clientQueues := by
    intro subscribed
    obtain ⟨client, found, -⟩ := (sound.subscribed connection).mp subscribed
    exact sound.ne_of_pending found member rfl
  refine ⟨?_, List.nodup_append_comm.mp (List.nodup_cons.mpr ⟨absent, sound.nodup⟩),
    ⟨sound.pending.1.erase connection, fun other still => ?_⟩, fun other => ?_, fun other still => ?_⟩
  · have fresh := sound.overlooked connection (sound.pending.2 connection member)
    dsimp only
    rw [sound.registered, List.filter_append, List.filter_singleton, decide_eq_true fresh]
    rfl
  · obtain ⟨different, member⟩ := (sound.pending.1.mem_erase_iff).mp still
    exact (Function.update_of_ne different ..).trans (sound.pending.2 other member)
  · dsimp only
    by_cases own : other = connection
    · subst own
      rw [Function.update_self]
      exact iff_of_true (List.mem_append_right _ List.mem_cons_self) ⟨{}, rfl, rfl, trivial⟩
    · rw [Function.update_of_ne own, ← sound.subscribed other, List.mem_append, List.mem_singleton]
      exact or_iff_left own
  · dsimp only at still
    by_cases own : other = connection
    · subst own
      rw [Function.update_self] at still
      cases still
    · rw [Function.update_of_ne own] at still
      exact sound.overlooked other still

/-- The register is bound anew: who is subscribed stays subscribed, and is overlooked. -/
theorem Sound.setActiveConnections (sound : Sound state) : Sound (setActiveConnections state) := by
  rw [Subscribers.setActiveConnections]
  split
  · exact sound
  · next follows =>
    refine ⟨?_, sound.nodup, sound.pending, sound.subscribed, fun other absent member => ?_⟩
    · rw [State.ofMain, if_neg follows, eq_comm, List.filter_eq_nil_iff]
      exact fun other member kept => of_decide_eq_true kept member
    · obtain ⟨client, found, -⟩ := (sound.subscribed other).mp member
      rw [absent] at found
      cases found

theorem Sound.broadcast (sound : Sound state) (payload : Payload ε) : Sound (broadcast settings payload state) := by
  refine ⟨sound.registered, sound.nodup, ⟨sound.pending.1, fun other member => ?_⟩, fun other => ?_,
    fun other absent => sound.overlooked other ?_⟩
  · rw [broadcast_clients sound.nodup, sound.pending.2 other member]
    exact ite_self none
  · rw [broadcast_clients sound.nodup]
    refine (sound.subscribed other).trans ?_
    split
    · constructor
      · rintro ⟨client, found, runs⟩
        exact ⟨client.enqueue settings payload, by rw [found]; rfl, runs⟩
      · rintro ⟨after, moved, runs⟩
        obtain ⟨client, found, rfl⟩ := Option.map_eq_some_iff.mp moved
        exact ⟨client, found, runs⟩
    · exact Iff.rfl
  · rw [broadcast_clients sound.nodup] at absent
    split at absent
    · exact Option.map_eq_none_iff.mp absent
    · exact absent

/-! One step. -/

/-- Whether an event puts something into the queue of a connection that is subscribed. -/
def Event.Puts (connection : ι) : Event ι ε → Prop
  | .lifecycle _ _ => True
  | .receives other => other = connection
  | .upgrade _ _ | .accepted _ | .acceptFails _ | .promoted | .get _ | .sent _ | .sendFails _ | .closed _
  | .leaves _ => False

instance (connection : ι) (event : Event ι ε) : Decidable (event.Puts connection) := by
  cases event
  case lifecycle => exact isTrue trivial
  case receives other => exact inferInstanceAs (Decidable (other = connection))
  all_goals exact isFalse id

/-- What one event may do to a client. -/
inductive Moves (settings : Settings) (puts : Prop) : Client ε → Client ε → Prop
  | stays (client : Client ε) : Moves settings puts client client
  | puts (may : puts) (client : Client ε) (payload : Payload ε) :
      Moves settings puts client (client.enqueue settings payload)
  | takes {client : Client ε} {payload : Payload ε} {queue : List (Payload ε)} (waiting : client.sender = .waiting)
      (took : getNowait client.queue = some (payload, queue)) :
      Moves settings puts client { client with queue, sender := .sending payload }
  | sends {client : Client ε} {payload : Payload ε} (sending : client.sender = .sending payload) :
      Moves settings puts client { client with sender := .waiting, sent := client.sent ++ [payload] }
  | stops (client : Client ε) {sender : Sender ε} (stopped : ¬ sender.Runs) (reading : Bool) :
      Moves settings puts client { client with sender, reading }

/-- Where the clients of a state come from. -/
def Follows (settings : Settings) (event : Event ι ε) (state next : State ι ε) : Prop :=
  ∀ connection after, next.clients connection = some after →
    after = {} ∨ ∃ client, state.clients connection = some client ∧ Moves settings (event.Puts connection) client after

theorem follows_set (found : state.clients connection = some client) {after : Client ε} {event : Event ι ε}
    (moves : Moves settings (event.Puts connection) client after) :
    Follows settings event state (state.set connection after) := by
  intro other one there
  right
  by_cases own : other = connection
  · subst own
    rw [set_clients_self] at there
    cases there
    exact ⟨client, found, moves⟩
  · rw [set_clients_of_ne own] at there
    exact ⟨one, there, .stays one⟩

/-- What a step comes to. -/
inductive Effect (settings : Settings) (state : State ι ε) : Event ι ε → State ι ε → Prop
  | turnedAway (connection : ι) (request : Request) : Effect settings state (.upgrade connection request) state
  | waits {connection : ι} {request : Request}
      (fresh : connection ∉ state.accepting ∧ state.clients connection = none)
      (passes : handshake settings request state.activeConnections.length = .admitted) :
      Effect settings state (.upgrade connection request) { state with accepting := state.accepting ++ [connection] }
  | accepted {connection : ι} (waiting : connection ∈ state.accepting) :
      Effect settings state (.accepted connection) { state with
        accepting := state.accepting.erase connection
        activeConnections := state.activeConnections ++ [connection]
        clientQueues := state.clientQueues ++ [connection]
        clients := Function.update state.clients connection (some {}) }
  | lost (connection : ι) : Effect settings state (.acceptFails connection)
      { state with accepting := state.accepting.erase connection }
  | leads : Effect settings state .promoted (setActiveConnections state)
  | unheard (data : ε) (timestamp : String) : Effect settings state (.lifecycle data timestamp) state
  | heard (data : ε) (timestamp : String) :
      Effect settings state (.lifecycle data timestamp) (broadcast settings (.lifecycle data timestamp) state)
  | goesOn {connection : ι} {event : Event ι ε} {client after : Client ε}
      (found : state.clients connection = some client) (moves : Moves settings (event.Puts connection) client after)
      (reading : after.reading = client.reading) (runs : after.sender.Runs ↔ client.sender.Runs) :
      Effect settings state event (state.set connection after)
  | stops {connection : ι} {event : Event ι ε} {client after : Client ε}
      (found : state.clients connection = some client) (moves : Moves settings (event.Puts connection) client after)
      (stopped : ¬ (after.reading = true ∧ after.sender.Runs)) :
      Effect settings state event (cleanup connection (state.set connection after))

theorem step_effect {event : Event ι ε} (stepped : step settings state event = some next) :
    Effect settings state event next := by
  cases event with
  | upgrade connection request =>
    rw [step] at stepped
    split at stepped
    · next fresh =>
      cases stepped
      split
      · next passes => exact .waits fresh passes
      · exact .turnedAway connection request
      · exact .turnedAway connection request
    · cases stepped
  | accepted connection =>
    rw [step] at stepped
    split at stepped
    · next waiting =>
      cases stepped
      exact .accepted waiting
    · cases stepped
  | acceptFails connection =>
    rw [step] at stepped
    split at stepped
    · cases stepped
      exact .lost connection
    · cases stepped
  | promoted =>
    rw [step] at stepped
    cases stepped
    exact .leads
  | lifecycle data timestamp =>
    rw [step] at stepped
    cases stepped
    split
    · exact .unheard data timestamp
    · exact .heard data timestamp
  | get connection =>
    obtain ⟨client, found, moved⟩ := Option.bind_eq_some_iff.mp stepped
    split at moved
    · next waiting =>
      obtain ⟨⟨payload, queue⟩, took, moved⟩ := Option.bind_eq_some_iff.mp moved
      cases moved
      exact .goesOn found (.takes waiting took) rfl (by rw [waiting]; exact Iff.rfl)
    all_goals cases moved
  | sent connection =>
    obtain ⟨client, found, moved⟩ := Option.bind_eq_some_iff.mp stepped
    split at moved
    · next payload sending =>
      cases moved
      exact .goesOn found (.sends sending) rfl (by rw [sending]; exact Iff.rfl)
    all_goals cases moved
  | sendFails connection =>
    obtain ⟨client, found, moved⟩ := Option.bind_eq_some_iff.mp stepped
    split at moved
    · cases moved
      exact .stops found (.stops client id client.reading) fun runs => runs.2
    all_goals cases moved
  | closed connection =>
    obtain ⟨client, found, moved⟩ := Option.bind_eq_some_iff.mp stepped
    split at moved
    · next closing =>
      cases moved
      exact .goesOn found (.stops client id client.reading) rfl (by rw [closing]; exact Iff.rfl)
    all_goals cases moved
  | receives connection =>
    obtain ⟨client, found, moved⟩ := Option.bind_eq_some_iff.mp stepped
    split at moved
    · cases moved
      exact .goesOn found (.puts rfl client .pong) rfl Iff.rfl
    · cases moved
  | leaves connection =>
    obtain ⟨client, found, moved⟩ := Option.bind_eq_some_iff.mp stepped
    split at moved
    · cases moved
      exact .stops found (.stops client id false) fun runs => runs.2
    · cases moved

/-- The registers stay in order, and a client moves on or is new. -/
theorem step_sound (sound : Sound state) {event : Event ι ε} (stepped : step settings state event = some next) :
    Sound next ∧ Follows settings event state next := by
  have stays : ∀ other after, state.clients other = some after → after = {} ∨ ∃ client,
      state.clients other = some client ∧ Moves settings (event.Puts other) client after :=
    fun other after there => .inr ⟨after, there, .stays after⟩
  cases step_effect stepped with
  | turnedAway | unheard => exact ⟨sound, stays⟩
  | waits fresh passes =>
    refine ⟨⟨sound.registered, sound.nodup, ⟨?_, fun other member => ?_⟩, sound.subscribed, sound.overlooked⟩, stays⟩
    · exact List.nodup_append_comm.mp (List.nodup_cons.mpr ⟨fresh.1, sound.pending.1⟩)
    · obtain earlier | own := List.mem_append.mp member
      · exact sound.pending.2 other earlier
      · rw [List.mem_singleton.mp own]
        exact fresh.2
  | @accepted connection waiting =>
    refine ⟨sound.accept waiting, fun other after there => ?_⟩
    dsimp only at there
    by_cases own : other = connection
    · subst own
      rw [Function.update_self] at there
      cases there
      exact .inl rfl
    · rw [Function.update_of_ne own] at there
      exact stays other after there
  | lost connection =>
    exact ⟨⟨sound.registered, sound.nodup, ⟨sound.pending.1.erase connection, fun other still =>
      sound.pending.2 other (List.mem_of_mem_erase still)⟩, sound.subscribed, sound.overlooked⟩, stays⟩
  | leads =>
    refine ⟨sound.setActiveConnections, fun other after there => stays other after ?_⟩
    rw [setActiveConnections] at there
    split at there
    · exact there
    · exact there
  | heard data timestamp =>
    refine ⟨sound.broadcast _, fun other after there => ?_⟩
    rw [broadcast_clients sound.nodup] at there
    split at there
    · obtain ⟨client, found, rfl⟩ := Option.map_eq_some_iff.mp there
      exact .inr ⟨client, found, .puts trivial client _⟩
    · exact stays other after there
  | goesOn found moves reading runs => exact ⟨sound.set found reading runs, follows_set found moves⟩
  | stops found moves stopped => exact ⟨sound.stop found stopped, follows_set found moves⟩

theorem sound_of_run {events : List (Event ι ε)} (reached : run (step settings) {} events = some state) : Sound state :=
  invariant (step settings) (fun sound stepped => (step_sound sound stepped).1) .initial reached

end

/-! What a client may rely on. -/

/-- What the task sends it sends in order, and while it runs the books of the queue are in order. -/
structure Client.Fair {ε : Type} (settings : Settings) (client : Client ε) : Prop where
  running : client.sender.Runs →
    Account settings.wsClientQueueSize client.offered (client.sent ++ client.sender.inFlight) client.queue
  inOrder : client.sent.Sublist client.offered

/-- Nothing was dropped for a client. -/
def Client.Complete {ε : Type} (client : Client ε) : Prop :=
  client.sender.Runs → client.offered = client.sent ++ client.sender.inFlight ++ client.queue

section
variable {ι ε : Type} {settings : Settings} {client after : Client ε} {puts : Prop}

theorem eq_cons_of_getNowait {α : Type} {queue rest : List α} {item : α} (took : getNowait queue = some (item, rest)) :
    queue = item :: rest := by
  cases queue with
  | nil => cases took
  | cons =>
    cases took
    rfl

theorem Client.Fair.moves (fair : client.Fair settings) (moves : Moves settings puts client after) :
    after.Fair settings := by
  cases moves with
  | stays => exact fair
  | puts _ _ payload =>
    exact ⟨fun runs => (fair.running runs).put payload, fair.inOrder.trans (List.sublist_append_left _ _)⟩
  | takes waiting took =>
    have account := fair.running (by rw [waiting]; trivial)
    rw [waiting, eq_cons_of_getNowait took] at account
    have taken := account.take
    rw [Sender.inFlight, List.append_nil] at taken
    exact ⟨fun _ => taken, fair.inOrder⟩
  | sends sending =>
    have account := fair.running (by rw [sending]; trivial)
    rw [sending, Sender.inFlight] at account
    refine ⟨fun _ => ?_, (List.sublist_append_left _ _).trans account.taken_sublist⟩
    rw [Sender.inFlight, List.append_nil]
    exact account
  | stops _ stopped => exact ⟨fun runs => absurd runs stopped, fair.inOrder⟩

theorem Client.Complete.moves (complete : client.Complete) (moves : Moves settings puts client after)
    (room : puts → client.sender.Runs → ¬ Full settings.wsClientQueueSize client.queue) : after.Complete := by
  cases moves with
  | stays => exact complete
  | puts may _ payload => exact fun runs => put_of_room (room may runs) (complete runs)
  | takes waiting took =>
    intro _
    have all := complete (by rw [waiting]; trivial)
    rw [waiting, eq_cons_of_getNowait took, Sender.inFlight, List.append_nil] at all
    rw [Sender.inFlight, List.append_assoc]
    exact all
  | sends sending =>
    intro _
    have all := complete (by rw [sending]; trivial)
    rw [sending, Sender.inFlight] at all
    rw [Sender.inFlight, List.append_nil]
    exact all
  | stops _ stopped => exact fun runs => absurd runs stopped

variable [DecidableEq ι] {state : State ι ε} {events : List (Event ι ε)} {connection : ι}

/-- The registers, and what every client may rely on. -/
structure Booked (settings : Settings) (state : State ι ε) : Prop where
  sound : Sound state
  fair : ∀ connection client, state.clients connection = some client → client.Fair settings

/-- A subscribed client is served. -/
theorem Sound.runs (sound : Sound state) (found : state.clients connection = some client)
    (subscribed : connection ∈ state.clientQueues) : client.sender.Runs := by
  obtain ⟨_, same, -, runs⟩ := (sound.subscribed connection).mp subscribed
  cases found.symm.trans same
  exact runs

/-- The newest events reach every client.  Whatever interleaves, a client has been sent some of what was put into
its queue, each item once and in order; while it is subscribed its queue is bounded and holds what was put last, and
of the newest items as many as the bound are sent, in flight or waiting, none of them missing. -/
theorem newest_reach_each (reached : run (step settings) {} events = some state)
    (found : state.clients connection = some client) :
    client.sent.Sublist client.offered ∧ (connection ∈ state.clientQueues →
      Account settings.wsClientQueueSize client.offered (client.sent ++ client.sender.inFlight) client.queue) := by
  have kept : ∀ {state : State ι ε} {event : Event ι ε} {next : State ι ε}, Booked settings state →
      step settings state event = some next → Booked settings next := by
    intro state event next booked stepped
    obtain ⟨sound, follows⟩ := step_sound booked.sound stepped
    refine ⟨sound, fun connection after there => ?_⟩
    obtain rfl | ⟨client, found, moves⟩ := follows connection after there
    · exact ⟨fun _ => .start _, .slnil⟩
    · exact (booked.fair connection client found).moves moves
  have booked := invariant (step settings) kept ⟨.initial, fun _ _ none => by cases none⟩ reached
  have fair := booked.fair connection client found
  exact ⟨fair.inOrder, fun subscribed => fair.running (booked.sound.runs found subscribed)⟩

/-- A dashboard behind a queue of one: the older of two events is dropped. -/
def behind : List (Event Nat String) :=
  [.promoted, .upgrade 0 ⟨true, none, none⟩, .accepted 0, .lifecycle "a" "t", .lifecycle "b" "t", .get 0, .sent 0]

theorem newest_reach_each_behind : ∃ client : Client String, client.sent = [.lifecycle "b" "t"] ∧
    client.sent.Sublist client.offered ∧
    Account 1 client.offered (client.sent ++ client.sender.inFlight) client.queue := by
  have fair := @newest_reach_each Nat String ⟨false, [], [], 1, 1⟩ _ _ _ behind 0 rfl rfl
  exact ⟨_, rfl, fair.1, fair.2 List.mem_cons_self⟩

/-- A client that is about to be put something is fewer items behind than its queue may hold. -/
def KeepsUp (settings : Settings) (connection : ι) (state : State ι ε) (event : Event ι ε) : Prop :=
  event.Puts connection → ∀ client ∈ state.clients connection, client.sender.Runs →
    settings.wsClientQueueSize ≤ 0 ∨
      (client.offered.length : Int) < client.sent.length + settings.wsClientQueueSize

instance (settings : Settings) (connection : ι) (state : State ι ε) (event : Event ι ε) :
    Decidable (KeepsUp settings connection state event) :=
  inferInstanceAs (Decidable (_ → ∀ client ∈ state.clients connection, _ → _ ∨ _))

/-- A client that keeps up misses nothing: what it was sent, what is in flight and what waits is all that was put. -/
theorem nothing_missed (keepsUp : EveryStep (step settings) (KeepsUp settings connection) {} events)
    (reached : run (step settings) {} events = some state) (found : state.clients connection = some client)
    (subscribed : connection ∈ state.clientQueues) :
    client.offered = client.sent ++ client.sender.inFlight ++ client.queue := by
  have kept : ∀ {state : State ι ε} {event : Event ι ε} {next : State ι ε}, KeepsUp settings connection state event →
      (Sound state ∧ ∀ client, state.clients connection = some client → client.Complete) →
      step settings state event = some next →
      Sound next ∧ ∀ client, next.clients connection = some client → client.Complete := by
    rintro state event next keepsUp ⟨sound, complete⟩ stepped
    obtain ⟨sound, follows⟩ := step_sound sound stepped
    refine ⟨sound, fun after there => ?_⟩
    obtain rfl | ⟨client, found, moves⟩ := follows connection after there
    · exact fun _ => rfl
    · refine (complete client found).moves moves fun puts runs full => ?_
      obtain unbounded | close := keepsUp puts client found runs
      · exact absurd full.1 (Int.not_lt.mpr unbounded)
      · have lengths := congrArg List.length (complete client found runs)
        simp only [List.length_append] at lengths
        have most := full.2
        omega
  obtain ⟨sound, complete⟩ := invariant_of_step (step settings) kept
    ⟨.initial, fun _ none => by cases none⟩ keepsUp reached
  exact complete client found (sound.runs found subscribed)

/-- A dashboard that reads in time. -/
def timely : List (Event Nat String) :=
  [.promoted, .upgrade 0 ⟨true, none, none⟩, .accepted 0, .lifecycle "a" "t", .get 0, .sent 0, .lifecycle "b" "t",
    .get 0]

theorem nothing_missed_timely : ∃ client : Client String, client.offered = [.lifecycle "a" "t", .lifecycle "b" "t"] ∧
    client.offered = client.sent ++ client.sender.inFlight ++ client.queue :=
  ⟨_, rfl, @nothing_missed Nat String ⟨false, [], [], 1, 1⟩ _ _ _ timely 0 (by decide) rfl rfl List.mem_cons_self⟩

/-- Nobody is subscribed when the process takes up the leader's duties, as at its startup. -/
def FindsNobody (state : State ι ε) (event : Event ι ε) : Prop :=
  event = .promoted → state.leads = false → state.clientQueues = []

/-- Clients are overlooked at the promotion only. -/
theorem overlooked_step {event : Event ι ε} {next : State ι ε} (stepped : step settings state event = some next) :
    next.overlooked = state.overlooked ∨
      event = .promoted ∧ state.leads = false ∧ next.overlooked = state.clientQueues := by
  cases step_effect stepped with
  | leads =>
    rw [setActiveConnections]
    split
    · exact .inl rfl
    · next follows => exact .inr ⟨rfl, Bool.eq_false_iff.mpr follows, rfl⟩
  | turnedAway | waits | accepted | lost | unheard | heard | goesOn | stops => exact .inl rfl

theorem nobody_overlooked (calm : EveryStep (step settings) FindsNobody {} events)
    (reached : run (step settings) {} events = some state) : state.overlooked = [] := by
  have kept : ∀ {state : State ι ε} {event : Event ι ε} {next : State ι ε}, FindsNobody state event →
      state.overlooked = [] → step settings state event = some next → next.overlooked = [] := by
    intro state event next finds nobody stepped
    obtain same | ⟨promoted, follows, overlooked⟩ := overlooked_step stepped
    · exact same.trans nobody
    · exact overlooked.trans (finds promoted follows)
  exact @invariant_of_step _ _ (step settings) FindsNobody (fun state => state.overlooked = []) kept _ _ _ rfl
    calm reached

/-- No zombies: the connections that a broadcast is put to are those that have a task that sends and a loop that reads,
each once.  Of them all count as active but those that the promotion of a standby overlooked; of a process in which it
finds nobody connected, they all do. -/
theorem subscribed_iff_served (reached : run (step settings) {} events = some state) (connection : ι) :
    state.clientQueues.Nodup ∧
    (connection ∈ state.clientQueues ↔
      ∃ client, state.clients connection = some client ∧ client.reading = true ∧ client.sender.Runs) ∧
    state.activeConnections = state.clientQueues.filter (· ∉ state.overlooked) ∧
    (EveryStep (step settings) FindsNobody {} events → state.activeConnections = state.clientQueues) := by
  have sound := sound_of_run reached
  refine ⟨sound.nodup, sound.subscribed connection, sound.registered, fun calm => ?_⟩
  rw [sound.registered, nobody_overlooked calm reached]
  exact List.filter_eq_self.mpr fun _ _ => rfl

theorem subscribed_iff_served_behind : ∃ state : State Nat String, state.clientQueues = [0] ∧
    state.activeConnections = state.clientQueues.filter (· ∉ state.overlooked) :=
  ⟨_, rfl, (@subscribed_iff_served Nat String ⟨false, [], [], 1, 1⟩ _ _ behind rfl 0).2.2.1⟩

/-- The events of a new leader pass over the client of a standby, as long as no other connects. -/
example : ((run (step ⟨false, [], [], 1, 1⟩) ({} : State Nat String)
    [.upgrade 0 ⟨true, none, none⟩, .accepted 0, .promoted, .lifecycle "a" "t"]).bind fun state =>
      state.clients 0) = some {} := rfl

end

/-! The cap on connections, which is checked before `accept` is awaited. -/

/-- Fewer handshakes than `pending` wait for `accept` when another one arrives. -/
def Overlaps {ι ε : Type} (pending : Nat) (state : State ι ε) (event : Event ι ε) : Prop :=
  ∀ connection request, event = .upgrade connection request → state.accepting.length < pending

section
variable {ι ε : Type} [DecidableEq ι] {settings : Settings} {most pending : Nat}

/-- A handshake that passes while nothing is connected passes until the cap is reached. -/
theorem handshake_of_passes {request : Request} (passes : handshake settings request 0 = .admitted) (active : Nat)
    (below : (active : Int) < settings.wsMaxConnections) : handshake settings request active = .admitted := by
  have room : ¬ settings.wsMaxConnections ≤ active := Int.not_le.mpr below
  have roomThen : ¬ settings.wsMaxConnections ≤ (0 : Nat) := by omega
  rw [handshake] at passes ⊢
  dsimp only at passes ⊢
  rw [if_neg roomThen] at passes
  rw [if_neg room]
  exact passes

theorem below_of_admitted {request : Request} {active : Nat}
    (admitted : handshake settings request active = .admitted) :
    (active : Int) < settings.wsMaxConnections := by
  by_contra full
  rw [handshake] at admitted
  dsimp only at admitted
  rw [if_pos (Int.not_lt.mp full)] at admitted
  split at admitted
  · cases admitted
  · split at admitted
    · cases admitted
    · split at admitted
      · cases admitted
      · split at admitted
        · cases admitted
        · cases admitted
        · cases admitted

variable {state next : State ι ε} {event : Event ι ε} {events : List (Event ι ε)}

/-- What a step may do to the connections: one more is pending, one is accepted, or some are gone. -/
theorem step_connections (stepped : step settings state event = some next) :
    (∃ connection request, event = .upgrade connection request ∧
      handshake settings request state.activeConnections.length = .admitted ∧
      next.activeConnections = state.activeConnections ∧ next.accepting = state.accepting ++ [connection]) ∨
    (∃ connection ∈ state.accepting, next.activeConnections = state.activeConnections ++ [connection] ∧
      next.accepting = state.accepting.erase connection) ∨
    next.activeConnections.Sublist state.activeConnections ∧ next.accepting.Sublist state.accepting := by
  cases step_effect stepped with
  | @waits connection request fresh passes => exact .inl ⟨connection, request, rfl, passes, rfl, rfl⟩
  | @accepted connection waiting => exact .inr (.inl ⟨connection, waiting, rfl, rfl⟩)
  | lost => exact .inr (.inr ⟨.refl _, List.erase_sublist⟩)
  | leads =>
    rw [setActiveConnections]
    split
    · exact .inr (.inr ⟨.refl _, .refl _⟩)
    · next follows =>
      refine .inr (.inr ⟨?_, .refl _⟩)
      rw [State.ofMain, if_neg follows]
      exact List.nil_sublist _
  | stops => exact .inr (.inr ⟨List.erase_sublist, .refl _⟩)
  | turnedAway | unheard | heard | goesOn => exact .inr (.inr ⟨.refl _, .refl _⟩)

/-- The connections that are active or will be are bounded by the cap and the handshakes that overlap. -/
theorem connections_bounded (cap : settings.wsMaxConnections = most) (positive : 0 < most) (overlap : 0 < pending)
    (overlaps : EveryStep (step settings) (Overlaps pending) {} events)
    (reached : run (step settings) {} events = some state) :
    state.activeConnections.length + state.accepting.length + 1 ≤ most + pending := by
  have kept : ∀ {state : State ι ε} {event : Event ι ε} {next : State ι ε}, Overlaps pending state event →
      state.activeConnections.length + state.accepting.length + 1 ≤ most + pending →
      step settings state event = some next →
      next.activeConnections.length + next.accepting.length + 1 ≤ most + pending := by
    intro state event next overlaps bounded stepped
    obtain ⟨connection, request, shape, admitted, active, accepting⟩ | ⟨connection, member, active, accepting⟩ |
      ⟨active, accepting⟩ := step_connections stepped
    · have few := overlaps connection request shape
      have below := below_of_admitted admitted
      rw [active, accepting, List.length_append, List.length_singleton]
      omega
    · have positive := List.length_pos_of_mem member
      rw [active, accepting, List.length_append, List.length_singleton, List.length_erase_of_mem member]
      omega
    · have fewer := active.length_le
      have fewerPending := accepting.length_le
      omega
  refine invariant_of_step (step settings) kept ?_ overlaps reached
  show 0 + 0 + 1 ≤ most + pending
  omega

end

section
variable {ε : Type} {settings : Settings} {most pending : Nat} {request : Request}

/-- A state with so many connections active and so many more pending, and the other numbers free. -/
structure Numbered (active waiting : Nat) (state : State Nat ε) : Prop where
  connected : state.activeConnections = List.range active
  accepting : state.accepting = List.range' active waiting
  free : ∀ connection, active ≤ connection → state.clients connection = none

/-- The next number shakes hands. -/
theorem Numbered.upgrade {active waiting : Nat} {state : State Nat ε} (numbered : Numbered active waiting state)
    (passes : handshake settings request 0 = .admitted) (below : (active : Int) < settings.wsMaxConnections) :
    ∃ next, step settings state (.upgrade (active + waiting) request) = some next ∧
      Numbered active (waiting + 1) next := by
  have fresh : active + waiting ∉ state.accepting ∧ state.clients (active + waiting) = none := by
    refine ⟨fun member => ?_, numbered.free _ (Nat.le_add_right _ _)⟩
    rw [numbered.accepting, List.mem_range'_1] at member
    omega
  have admitted : handshake settings request state.activeConnections.length = .admitted := by
    rw [numbered.connected, List.length_range]
    exact handshake_of_passes passes active below
  refine ⟨{ state with accepting := state.accepting ++ [active + waiting] }, ?_, numbered.connected, ?_, numbered.free⟩
  · rw [step, if_pos fresh, admitted]
  · rw [List.range'_concat, numbered.accepting, Nat.one_mul]

/-- The first that waits is accepted. -/
theorem Numbered.accepted (settings : Settings) {active waiting : Nat} {state : State Nat ε}
    (numbered : Numbered active (waiting + 1) state) :
    ∃ next, step settings state (.accepted active) = some next ∧ Numbered (active + 1) waiting next := by
  have member : active ∈ state.accepting := by
    rw [numbered.accepting, List.range'_succ]
    exact List.mem_cons_self
  refine ⟨_, if_pos member, ?_, ?_, fun connection later => ?_⟩
  · rw [numbered.connected, List.range_succ]
  · rw [numbered.accepting, List.range'_succ]
    exact List.erase_cons_head ..
  · exact (Function.update_of_ne (by omega) ..).trans (numbered.free connection (by omega))

/-- What a run reaches in which at most `pending` handshakes overlap. -/
def Reaches (settings : Settings) (pending : Nat) (state : State Nat ε) : Prop :=
  ∃ events, EveryStep (step settings) (Overlaps pending) {} events ∧ run (step settings) {} events = some state

theorem Reaches.step {state next : State Nat ε} {event : Event Nat ε} (reaches : Reaches settings pending state)
    (overlaps : Overlaps pending state event) (stepped : step settings state event = some next) :
    Reaches settings pending next := by
  obtain ⟨events, everyStep, reached⟩ := reaches
  refine ⟨events ++ [event], everyStep_concat _ everyStep reached overlaps, ?_⟩
  rw [run_append, reached]
  exact (run_cons_iff _).mpr ⟨next, stepped, rfl⟩

/-- One after the other, connections are accepted up to the cap. -/
theorem reaches_active (passes : handshake settings request 0 = .admitted) (overlap : 0 < pending) (active : Nat)
    (below : (active : Int) ≤ settings.wsMaxConnections) :
    ∃ state : State Nat ε, Reaches settings pending state ∧ Numbered active 0 state := by
  induction active with
  | zero => exact ⟨{}, ⟨[], trivial, rfl⟩, rfl, rfl, fun _ _ => rfl⟩
  | succ active ih =>
    obtain ⟨state, reaches, numbered⟩ := ih (by omega)
    obtain ⟨waits, upgraded, numberedWaiting⟩ := numbered.upgrade passes (by omega)
    obtain ⟨next, accepted, numberedNext⟩ := numberedWaiting.accepted settings
    refine ⟨next, (reaches.step ?_ upgraded).step ?_ accepted, numberedNext⟩
    · rintro _ _ -
      rw [numbered.accepting]
      exact overlap
    · rintro _ _ ⟨⟩

/-- Below the cap any number of handshakes may wait, -/
theorem reaches_waiting (passes : handshake settings request 0 = .admitted) {active : Nat} {state : State Nat ε}
    (reaches : Reaches settings pending state) (numbered : Numbered active 0 state)
    (below : (active : Int) < settings.wsMaxConnections) (waiting : Nat) (few : waiting ≤ pending) :
    ∃ next : State Nat ε, Reaches settings pending next ∧ Numbered active waiting next := by
  induction waiting with
  | zero => exact ⟨state, reaches, numbered⟩
  | succ waiting ih =>
    obtain ⟨state, reaches, numbered⟩ := ih (by omega)
    obtain ⟨next, upgraded, numberedNext⟩ := numbered.upgrade passes below
    refine ⟨next, reaches.step ?_ upgraded, numberedNext⟩
    rintro _ _ -
    rw [numbered.accepting, List.length_range']
    exact few

/-- and all that wait are accepted. -/
theorem reaches_accepted {active : Nat} (waiting : Nat) {state : State Nat ε} (reaches : Reaches settings pending state)
    (numbered : Numbered active waiting state) :
    ∃ next : State Nat ε, Reaches settings pending next ∧ Numbered (active + waiting) 0 next := by
  induction waiting generalizing active state with
  | zero => exact ⟨state, reaches, numbered⟩
  | succ waiting ih =>
    obtain ⟨next, accepted, numberedNext⟩ := numbered.accepted settings
    have reachesNext := reaches.step (fun _ _ same => by cases same) accepted
    rw [Nat.add_comm waiting, ← Nat.add_assoc]
    exact ih reachesNext numberedNext

/-- The cap bounds the connections only together with the handshakes that overlap: where so many do, the most
connections that are ever active are the cap and all but one of them. -/
theorem most_connections (passes : handshake settings request 0 = .admitted) (cap : settings.wsMaxConnections = most)
    (positive : 0 < most) (overlap : 0 < pending) :
    IsGreatest
      {active | ∃ state : State Nat ε, Reaches settings pending state ∧ state.activeConnections.length = active}
      (most + pending - 1) := by
  constructor
  · obtain ⟨state, reaches, numbered⟩ := reaches_active (ε := ε) passes overlap (most - 1) (by omega)
    obtain ⟨state, reaches, numbered⟩ := reaches_waiting passes reaches numbered (by omega) pending le_rfl
    obtain ⟨state, reaches, numbered⟩ := reaches_accepted pending reaches numbered
    refine ⟨state, reaches, ?_⟩
    rw [numbered.connected, List.length_range]
    omega
  · rintro active ⟨state, ⟨events, overlaps, reached⟩, rfl⟩
    have bounded := connections_bounded cap positive overlap overlaps reached
    omega

/-- A cap of one lets two in. -/
theorem most_connections_of_one : IsGreatest {active | ∃ state : State Nat String,
    Reaches ⟨false, [], [], 1, 1⟩ 2 state ∧ state.activeConnections.length = active} 2 :=
  @most_connections String ⟨false, [], [], 1, 1⟩ 1 2 ⟨true, none, none⟩ (by decide) rfl Nat.one_pos Nat.two_pos

end

end TransactionMonitoring.Subscribers
