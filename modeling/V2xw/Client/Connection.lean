import V2xw.Client.Mirrors
import V2xw.Lib.Mealy

/-!
# The connection of the browser client

The client opens a socket when it is told to and when its reconnect timer fires. What a socket does
later reaches the client as an event, and no handler asks which socket it is from. Sockets and
timers have numbers; a timer that is not cleared fires at some time.

## Main definitions

* `Client.Connection` — the client, with its sockets and timers.
* `Client.Connection.step` — one event.
* `Client.Connection.Keeps` — the event of a socket that is no longer the current one is harmless,
  the Hello timer of a socket closes it, and the client has one unclosed socket at most.
* `Client.Connection.Orderly` — when an event keeps that.
-/

namespace V2xw.Client

/-! ## The client -/

/-- Where the connection is. -/
inductive VwpConnectionState
  | idle
  | connecting
  | handshaking
  | streaming
  | reconnecting
  | closed
  | failed
  deriving DecidableEq, Repr

/-- What the client is made with. -/
structure VwpClientOptions where
  autoReconnect : Bool
  trackPoses : Bool
  poseCapacity : ℕ

/-- A request that awaits its reply, and the socket it was sent on. -/
structure Request where
  id : ℕ
  socket : ℕ
  deriving DecidableEq, Repr

/-- What a timer is for. The client does not know which socket a Hello timer was set for. -/
inductive TimerKind
  | reconnect
  | hello (socket : ℕ)
  deriving DecidableEq, Repr

/-- A timer that is set. -/
structure Timer where
  id : ℕ
  kind : TimerKind
  deriving DecidableEq, Repr

/-- The client, the sockets it has opened and the timers that are set. Of the sockets it is known
which ones the client has asked to close, which ones have closed, and which ones a Hello came
from. -/
structure Connection where
  mirrors : Mirrors
  state : VwpConnectionState
  socket : Option ℕ
  hello : Option HelloMessage
  attempt : ℕ
  reconnectTimer : Option ℕ
  helloTimer : Option ℕ
  closedByUs : Bool
  requests : List Request
  nextRequest : ℕ
  opened : ℕ
  asked : List ℕ
  ended : List ℕ
  greeted : List ℕ
  timers : List Timer
  nextTimer : ℕ

/-- What the client does to others: it reports to its listeners, closes a socket, or rejects a
request. -/
inductive Effect
  | protocolError (e : ProtocolError)
  | close (code : ℕ)
  | closeSocket (socket : ℕ) (code : ℕ) (reason : String)
  | rejected (r : Request)
  deriving DecidableEq, Repr

/-- What happens to the client. A binary frame decodes to a message or is malformed, and a text
frame is a reply, perhaps of an error, or is of no account here. -/
inductive Event
  | connect
  | close (code : ℕ) (reason : String)
  | request (sent : Bool)
  | open (socket : ℕ)
  | binary (socket : ℕ) (frame : Except ProtocolError Message)
  | reply (socket : ℕ) (id : ℕ) (isError : Bool)
  | closed (socket : ℕ) (code : ℕ)
  | error (socket : ℕ)
  | timer (id : ℕ)

/-- The socket that an event is of. -/
def Event.socket? : Event → Option ℕ
  | .open i | .binary i _ | .reply i _ _ | .closed i _ | .error i => some i
  | _ => none

namespace Connection

/-- A new client. -/
def new (o : VwpClientOptions) : Connection where
  mirrors := .new o.poseCapacity
  state := .idle
  socket := none
  hello := none
  attempt := 0
  reconnectTimer := none
  helloTimer := none
  closedByUs := false
  requests := []
  nextRequest := 1
  opened := 0
  asked := []
  ended := []
  greeted := []
  timers := []
  nextTimer := 0

/-- Clears a timer. -/
def clearTimeout (c : Connection) (t : Option ℕ) : Connection :=
  { c with timers := c.timers.filter fun x => some x.id != t }

/-- Sets a timer. -/
def setTimeout (c : Connection) (kind : TimerKind) : Connection :=
  { c with timers := c.timers ++ [⟨c.nextTimer, kind⟩], nextTimer := c.nextTimer + 1 }

/-- Forgets the Hello timer. -/
def clearHelloTimer (c : Connection) : Connection :=
  { c.clearTimeout c.helloTimer with helloTimer := none }

/-- Forgets the reconnect timer. -/
def clearReconnectTimer (c : Connection) : Connection :=
  { c.clearTimeout c.reconnectTimer with reconnectTimer := none }

/-- Closes the current socket, if there is one. -/
def closeSocket (c : Connection) (code : ℕ) (reason : String) : List Effect × Connection :=
  match c.socket with
  | none => ([], c)
  | some i => ([.closeSocket i code reason], { c with asked := i :: c.asked })

/-- Closes the connection. -/
def close (c : Connection) (code : ℕ) (reason : String) : List Effect × Connection :=
  let rejected := c.requests.map Effect.rejected
  let c' := { { c with closedByUs := true }.clearReconnectTimer.clearHelloTimer with requests := [] }
  let closing := c'.closeSocket code reason
  (rejected ++ closing.1, { closing.2 with socket := none, state := .closed })

/-- Reports a protocol error and closes the connection. -/
def fail (c : Connection) (e : ProtocolError) : List Effect × Connection :=
  let closing := c.close e.closeCode e.message
  (.protocolError e :: closing.1, closing.2)

/-- Opens a socket. -/
def openSocket (c : Connection) : Connection :=
  { c with
    closedByUs := false
    state := if c.attempt = 0 then .connecting else .reconnecting
    socket := some c.opened
    opened := c.opened + 1 }

/-- Sets the reconnect timer. -/
def scheduleReconnect (c : Connection) : Connection :=
  { c.setTimeout .reconnect with
    attempt := c.attempt + 1
    state := .reconnecting
    reconnectTimer := some c.nextTimer }

/-- The client as it routes a message: a Hello has come from its socket. -/
def noted (c : Connection) (i : ℕ) : Message → Connection
  | .hello h => { c.clearHelloTimer with attempt := 0, hello := some h, greeted := i :: c.greeted }
  | _ => c

/-- Sends a request, if the socket takes it. Without a socket it fails at once. -/
def request (c : Connection) (sent : Bool) : List Effect × Connection :=
  match c.socket with
  | none => ([], { c with nextRequest := c.nextRequest + 1 })
  | some i =>
    if sent then
      ([], { c with requests := c.requests ++ [⟨c.nextRequest, i⟩], nextRequest := c.nextRequest + 1 })
    else ([.rejected ⟨c.nextRequest, i⟩], { c with nextRequest := c.nextRequest + 1 })

/-- Routes a message that came from a socket. -/
def route (o : VwpClientOptions) (c : Connection) (i : ℕ) (msg : Message) :
    List Effect × Connection :=
  let c' := { c.noted i msg with mirrors := (c.mirrors.route o.trackPoses msg).2 }
  match (c.mirrors.route o.trackPoses msg).1, msg with
  | some e, _ => c'.fail e
  | none, .hello _ => ([], { c' with state := .streaming })
  | none, .bye true _ => ([], { c' with closedByUs := true, state := .failed })
  | none, _ => ([], c')

/-- A close code after which the client does not try again. -/
def isFinal (code : ℕ) : Bool := code == 4406 || code == 4404 || code == 4401

/-- The close event of a socket. -/
def onClose (o : VwpClientOptions) (c : Connection) (i code : ℕ) : List Effect × Connection :=
  let effects := c.requests.map Effect.rejected ++ [.close code]
  let c := { c.clearHelloTimer with socket := none, requests := [], ended := i :: c.ended }
  if c.closedByUs then (effects, { c with state := .closed })
  else if isFinal code then (effects, { c with state := .failed })
  else if !o.autoReconnect then (effects, { c with state := .closed })
  else (effects, c.scheduleReconnect)

/-- What the client reports when no Hello comes. -/
def noHello : ProtocolError :=
  ⟨.badState, "no Hello within 1000 ms of the upgrade (§1.3)", none⟩

/-- A timer fires. -/
def fire (c : Connection) (t : Timer) : List Effect × Connection :=
  let c := { c with timers := c.timers.filter fun x => x.id != t.id }
  match t.kind with
  | .reconnect => ([], c.openSocket)
  | .hello _ =>
    if c.hello.isSome then ([], c)
    else
      let closing := c.closeSocket 1002 "no Hello"
      (.protocolError noHello :: closing.1, closing.2)

/-- One event. -/
def step (o : VwpClientOptions) (c : Connection) : Event → List Effect × Connection
  | .connect => ([], c.openSocket)
  | .close code reason => c.close code reason
  | .request sent => c.request sent
  | .open i =>
    ([], { c.setTimeout (.hello i) with state := .handshaking, helloTimer := some c.nextTimer })
  | .binary i frame =>
    match frame with
    | .error e => c.fail e
    | .ok msg => c.route o i msg
  | .reply _ id isError =>
    (if isError then (c.requests.filter fun r => r.id == id).map Effect.rejected else [],
      { c with requests := c.requests.filter fun r => r.id != id })
  | .closed i code => c.onClose o i code
  | .error _ => ([], c)
  | .timer id =>
    match c.timers.find? fun t => t.id == id with
    | none => ([], c)
    | some t => c.fire t

/-- The client after some events. -/
def run (o : VwpClientOptions) (events : List Event) : Connection :=
  Mealy.run (step o) (new o) events

/-! ## Ownership -/

/-- A socket that has not closed and that the client has not asked to close. -/
def Unclosed (c : Connection) (i : ℕ) : Prop := i < c.opened ∧ i ∉ c.asked ∧ i ∉ c.ended

/-- There is one unclosed socket at most. -/
def Single (c : Connection) : Prop := ∀ i j, c.Unclosed i → c.Unclosed j → i = j

/-- The reconnects that are scheduled. -/
def reconnects (c : Connection) : List Timer := c.timers.filter fun t => t.kind == .reconnect

/-- An event of a socket that is not the current one does no harm: it leaves the state and the
current socket, rejects no request of that, and schedules no reconnect. -/
structure Harmless (o : VwpClientOptions) (c : Connection) (ev : Event) : Prop where
  state : (c.step o ev).2.state = c.state
  socket : (c.step o ev).2.socket = c.socket
  requests : ∀ r, .rejected r ∈ (c.step o ev).1 → c.socket ≠ some r.socket
  reconnects : (c.step o ev).2.reconnects ⊆ c.reconnects

/-- An event that can happen: the close event of a socket comes last. -/
def Possible (c : Connection) (ev : Event) : Prop :=
  ∀ i, ev.socket? = some i → i < c.opened ∧ i ∉ c.ended

instance (c : Connection) (ev : Event) : Decidable (c.Possible ev) :=
  match h : ev.socket? with
  | none => isTrue fun _ hi => nomatch h.symm.trans hi
  | some i => decidable_of_iff (i < c.opened ∧ i ∉ c.ended)
      ⟨fun hp _ hj => Option.some.inj (h.symm.trans hj) ▸ hp, fun hp => hp i h⟩

/-- What an event is to keep. -/
structure Keeps (o : VwpClientOptions) (c : Connection) (ev : Event) : Prop where
  stale : ∀ i, ev.socket? = some i → c.socket ≠ some i → c.Harmless o ev
  helloTimer : ∀ id t i, ev = .timer id → c.timers.find? (fun t => t.id == id) = some t →
    t.kind = .hello i → i ∉ c.greeted →
      .protocolError noHello ∈ (c.step o ev).1 ∧
        ∃ code reason, .closeSocket i code reason ∈ (c.step o ev).1
  single : (c.step o ev).2.Single

/-- No socket is unclosed. -/
def AllClosed (c : Connection) : Prop := ∀ i, ¬ c.Unclosed i

/-- The message of a socket that is not the current one changes nothing that matters. -/
def Inert (o : VwpClientOptions) (c : Connection) (msg : Message) : Prop :=
  match (c.mirrors.route o.trackPoses msg).1, msg with
  | some _, _ => c.socket = none ∧ c.state = .closed
  | none, .hello _ => c.state = .streaming
  | none, .bye true _ => c.state = .failed
  | none, _ => True

/-- When an event keeps what it is to keep: a socket is opened only when all others are closed or
asked to close, a Hello timer fires with no Hello ever received and with its socket the current one,
and an event of another socket finds the client as it would leave it. -/
def Orderly (o : VwpClientOptions) (c : Connection) : Event → Prop
  | .connect => c.AllClosed
  | .open i => c.socket = some i ∨ c.state = .handshaking
  | .binary i (.error _) => c.socket = some i ∨ (c.socket = none ∧ c.state = .closed)
  | .binary i (.ok msg) => c.socket = some i ∨ c.Inert o msg
  | .reply i id isError => c.socket = some i ∨
      (isError = true → ∀ r ∈ c.requests, r.id = id → c.socket ≠ some r.socket)
  | .closed i code => c.socket = some i ∨ (c.socket = none ∧
      if c.closedByUs then c.state = .closed
      else if isFinal code then c.state = .failed
      else o.autoReconnect = false ∧ c.state = .closed)
  | .timer id => ∀ t, c.timers.find? (fun t => t.id == id) = some t →
      match t.kind with
      | .reconnect => c.AllClosed
      | .hello i => i ∉ c.greeted → c.hello = none ∧ c.socket = some i
  | _ => True

end Connection

end V2xw.Client
