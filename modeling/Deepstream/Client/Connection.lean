import Deepstream.Client.Event
import Deepstream.Client.Presence

/-!
`Connection`: the handshake, its state machine and the entries of a client.

A change of state runs the event loops, which send, and sending changes the
state. `setState` therefore takes a number that bounds this recursion and the
loops inside of it.
-/

namespace Deepstream

open Program (lift assert ask ignore leave report build invoke)
open Reentrant (Prog)

section Transition
variable [Build]

/-- The assertions both transition functions make about the number of arguments -/
def checkArity (m : Message) : Except Failure Unit := do
  let expected ← m.header.numArguments
  check .connection "num_args >= expected_num_args.first" (expected.1 ≤ m.numArguments)
  check .connection "num_args <= expected_num_args.second" (m.numArguments ≤ expected.2)

/-- `transition_incoming` -/
def transitionIncoming (state : ConnectionState) (m : Message) :
    Except Failure ConnectionState := do
  check .connection "state != ConnectionState::ERROR" (state ≠ .error)
  checkArity m
  match state, m.header.topic, m.header.action with
  -- deepstream ping/pong (distinct from websocket heartbeats)
  | _, .connection, .ping => do
      check .connection "!is_ack" (m.header.isAck = false)
      return state
  | .awaitConnection, .connection, .challenge => do
      check .connection "!is_ack" (m.header.isAck = false)
      return .challenging
  | .challengingWait, .connection, .challengeResponse => do
      check .connection "is_ack" (m.header.isAck = true)
      return .awaitAuthentication
  | .challengingWait, .connection, .redirect => do
      check .connection "!is_ack" (m.header.isAck = false)
      return .awaitConnection
  | .challengingWait, .connection, .reject => do
      check .connection "!is_ack" (m.header.isAck = false)
      return .closed
  | .authenticating, .auth, .request => do
      check .connection "is_ack" (m.header.isAck = true)
      return .open
  | .authenticating, .auth, .errorTooManyAuthAttempts => do
      check .connection "!is_ack" (m.header.isAck = false)
      return .closed
  | .authenticating, .auth, .errorInvalidAuthData => do
      check .connection "!is_ack" (m.header.isAck = false)
      return .awaitAuthentication
  | .authenticating, .auth, .errorInvalidAuthMsg => do
      check .connection "!is_ack" (m.header.isAck = false)
      return .closed
  | .open, _, _ => return .open
  | _, _, _ => return .error

/-- `transition_outgoing` -/
def transitionOutgoing (state : ConnectionState) (m : Message) :
    Except Failure ConnectionState := do
  check .connection "state != ConnectionState::ERROR" (state ≠ .error)
  check .connection "state != ConnectionState::CLOSED" (state ≠ .closed)
  checkArity m
  match state, m.header.topic, m.header.action with
  | _, .connection, .pong => do
      check .connection "!is_ack" (m.header.isAck = false)
      return state
  | .challenging, .connection, .challengeResponse => do
      check .connection "!is_ack" (m.header.isAck = false)
      return .challengingWait
  | .awaitAuthentication, .auth, .request => do
      check .connection "!is_ack" (m.header.isAck = false)
      return .authenticating
  | _, _, _ => return .error

end Transition

namespace Connection

section Send
variable [Build]

/-- `DEBUG_MSG` of a header, which exists only when assertions do -/
def debugMsg (h : Header) : Program Unit :=
  Prog.when (Build.asserts = true) do
    let _ ← lift h.text
    pure ()

def transmit (m : MessageBuilder) : Program Bool := do
  let buffer ← lift m.toBinary
  ask (.wsSend m buffer)

/-- `send`, with the function that sets the state -/
def sendWith (setState : ConnectionState → Program Unit) (m : MessageBuilder) : Program Bool := do
  leave (.sending m)
  debugMsg m.header
  let c ← Prog.read
  if m.header.topic = .connection ∨ m.header.topic = .auth then do
    let newState ← lift (transitionOutgoing c.state m.view)
    Prog.when (newState = .error) (leave (.refused m))
    assert .connection "new_state != ConnectionState::ERROR" (newState ≠ .error)
    if newState = .error then .raise (.logicError "Invalid client state transition")
    else do
      setState newState
      transmit m
  else if c.state = .open then transmit m
  else return false

/-- `state` with an argument, and `on_connection_state_change_` -/
def setState : Nat → ConnectionState → Program Unit
  | n, state => do
      let c ← Prog.read
      Prog.when (state ≠ c.state) do
        Prog.modify fun c : Client => { c with state }
        leave (.became { c with state })
        match n with
        | 0 => .abort .exhausted
        | n + 1 => Event.onConnectionStateChange (sendWith (setState n)) n state

def send (n : Nat) : MessageBuilder → Program Bool :=
  sendWith (setState n)

end Send

section Handlers
variable [Build] (n : Nat)

def sendAuthenticationRequest : Program Unit := do
  let c ← Prog.read
  assert .connection "state_ == ConnectionState::AWAIT_AUTHENTICATION"
    (c.state = .awaitAuthentication)
  assert .connection "p_auth_params_" (c.authParams ≠ none)
  match c.authParams with
  | none => .abort .undefined
  | some authParams => do
      let authenticationRequest ← build .auth .request [authParams]
      ignore (send n authenticationRequest.val)

def login (authParams : Buffer) (callback : Function) : Program Unit := do
  let c ← Prog.read
  Prog.when (c.state ≠ .open) do
    Prog.modify fun c : Client => { c with
      loginCallback := some callback
      authParams := some authParams }
    let c ← Prog.read
    Prog.when (c.state = .awaitAuthentication) (sendAuthenticationRequest n)

def close : Program Unit := do
  Prog.modify fun c : Client => { c with deliberateClose := true }
  ask .wsClose

/-- What both handlers of responses do with the message and the state -/
def transition (m : MessageProxy) : Program Unit := do
  let c ← Prog.read
  let newState ← lift (transitionIncoming c.state m.view)
  Prog.when (newState = .error) (report (.connectionErrorState c.state m.header))
  setState n newState

/-- The switch in `handle_connection_response` -/
def connectionAction (m : MessageProxy) : Program Unit :=
  match m.header.action with
  | .ping => do
      let pong ← build .connection .pong []
      ignore (send n pong.val)
  | .challenge => do
      let uri ← ask .uri
      let challengeResponse ← build .connection .challengeResponse [uri]
      ignore (send n challengeResponse.val)
  | .challengeResponse => do
      let c ← Prog.read
      Prog.when (c.authParams ≠ none) (sendAuthenticationRequest n)
  | .redirect =>
      if m.numArguments < 1 then report .noRedirectUri
      else do
        let uri ← lift (m.get 0)
        ask (.setUri uri)
  | _ => do
      let c ← Prog.read
      report (.unknownConnectionAction c.state m.header)

def handleConnectionResponse (m : MessageProxy) : Program Unit := do
  transition n m
  connectionAction n m

/-- The switch in `handle_authentication_response` -/
def authenticationAction (m : MessageProxy) : Program Unit :=
  match m.header.action with
  | .errorTooManyAuthAttempts => do
      report .tooManyAuthAttempts
      close
  | .errorInvalidAuthData => do
      report .invalidAuthData
      close
  | .errorInvalidAuthMsg => do
      report .invalidAuthMsg
      close
  | .request => do
      assert .connection "message.is_ack()" (m.header.isAck = true)
      let c ← Prog.read
      match c.loginCallback with
      | none => pure ()
      | some loginCallback => do
          -- without data the callback is given `PayloadType::NULL_`
          let data ← lift (if m.numArguments < 1 then .ok (bytes "L") else m.get 0)
          invoke loginCallback fun f => ask (.loginCallback f data)
  | _ => do
      let c ← Prog.read
      report (.unknownAuthenticationAction c.state m.header)

def handleAuthenticationResponse (m : MessageProxy) : Program Unit := do
  authenticationAction m
  transition n m

/-- One round of the loop over the messages in `on_message` -/
def handleMessage (m : MessageProxy) : Program Unit := do
  let c ← Prog.read
  leave (.dispatched m c)
  debugMsg m.header
  match m.header.topic with
  | .event => Event.notify (send n) m.view
  | .presence => Presence.notify m.view
  | .connection => handleConnectionResponse n m
  | .auth => handleAuthenticationResponse n m
  | _ => do
      report (.unsolicited m.header)
      assert .connection "0" False

def onMessage (raw : Buffer) : Program Unit := do
  let (messages, errors) ← lift (Parser.execute (raw ++ [0, 0]))
  Prog.forEach errors fun error => report (.parserError error raw)
  Prog.forEach messages (handleMessage n)

def onOpen : Program Unit := do
  Prog.modify fun c : Client => { c with reconnectionAttempt := 0 }
  setState n .awaitConnection

def onClose : Program Unit := do
  let c ← Prog.read
  if c.deliberateClose = true ∨ 3 ≤ c.reconnectionAttempt then setState n .closed
  else do
    Prog.modify fun c : Client => { c with reconnectionAttempt := c.reconnectionAttempt + 1 }
    setState n .reconnecting
    ask .wsOpen

def onError (_error : Buffer) : Program Unit :=
  onClose n

/-- The constructor, with the event loop that comes after it. -/
def construct (uri : Buffer) : Program Unit := do
  let wsState ← ask .wsState
  assert .connection "ws_handler.state() == WSState::CLOSED" (wsState = .closed)
  ask (.setUri uri)
  ask .wsOpen
  let never ← ask .idle
  nomatch never

end Handlers
end Connection

section Entries
variable [Build]

open Connection

/-- Every way into a client, with a bound on the loops it may go through. -/
def program (n : Nat) : Entry → Program Unit
  | .construct uri => construct uri
  | .onOpen => onOpen n
  | .onClose => onClose n
  | .onError error => onError n error
  | .onMessage raw => onMessage n raw
  | .login auth callback => login n auth callback
  | .close => close
  | .emit name data => Event.emit (send n) name data
  | .subscribe name callback => do
      let _ ← Event.subscribe (send n) name callback
      pure ()
  | .unsubscribe name => Event.unsubscribe (send n) name
  | .unsubscribeId name id => Event.unsubscribeId (send n) name id
  | .listen pattern callback => Event.listen (send n) pattern callback
  | .unlisten pattern => Event.unlisten (send n) pattern
  | .presenceSubscribe callback => do
      let _ ← Presence.subscribe (send n) callback
      pure ()
  | .presenceUnsubscribeId id => Presence.unsubscribeId (send n) id
  | .presenceUnsubscribe => Presence.unsubscribe (send n)
  | .getAll f => Presence.getAll (send n) f

end Entries
end Deepstream
