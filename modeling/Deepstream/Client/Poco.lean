import Deepstream.Client.Socket
import Deepstream.Reentrant.Linked

/-!
`PocoWSHandler` as the server of a client's calls of its websocket.

Its methods call the client back: `on_open`, `on_close` and `on_error` right
after the state has changed, `on_message` with the data of a call of
`process_messages`. What the network does is given with every call.
-/

namespace Deepstream

open Reentrant (Prog Server Request)

/-- `Poco::URI`, and what becomes of a `std::runtime_error` -/
class PocoLibrary where
  Uri : Type
  empty : Uri
  parse : Buffer → Except Exception Uri
  toString : Uri → Buffer
  isEmpty : Uri → Bool
  getScheme : Uri → Buffer
  runtimeError : String → Exception

/-- A library whose addresses are texts -/
abbrev plainLibrary : PocoLibrary where
  Uri := Buffer
  empty := []
  parse := .ok
  toString := id
  isEmpty uri := uri = []
  getScheme uri := uri.takeWhile (· ≠ 58)
  runtimeError _ := .user 0

namespace Poco

/-- A `WebSocket`, of which `secure` is known -/
structure WebSocket where
  secure : Bool
  deriving DecidableEq

/-- The members of `PocoWSHandler`; `websocket_` may be null. -/
structure Members (Uri : Type) where
  state : WSState := .closed
  uri : Uri
  websocket : Option WebSocket := none

abbrev Handler [PocoLibrary] :=
  Members PocoLibrary.Uri

/-- The constructor -/
def construct [PocoLibrary] : Handler where
  uri := PocoLibrary.empty

/-- How a method can fail for good: `websocket_` is dereferenced while it is null, or an
assertion fails. -/
inductive Fault where
  | nullPointer
  | assertion (text : String)
  deriving DecidableEq

/-- How connecting ends. `made` tells whether `websocket_` was assigned before the exception. -/
inductive Connected where
  | opened
  | netException (made : Bool) (text : Buffer)
  | exception (made : Bool) (x : Exception)

/-- What `sendFrame` gives -/
inductive Sent where
  | bytes (n : Int)
  | ioException (text : Buffer)
  | exception (x : Exception)

/-- What `receiveFrame` gives: a frame with its flags, or an exception. A timeout only
happens on a secure socket, which is asserted. -/
inductive Received where
  | frame (payload : Buffer) (flags : Nat)
  | timeout
  | webSocketException (text : Buffer)
  | netException (text : Buffer)
  | exception (x : Exception)

/-- What the network does during one call. Before every frame the socket is polled; `last` is
what polling it gives when there is nothing more to read. -/
structure Network where
  connected : Connected := .opened
  sent : Sent := .bytes 0
  received : List Received := []
  last : Except Exception Unit := .ok ()
  shutdown : Except Exception Unit := .ok ()

/-- What others than the client ask of its handler. The class `Deepstream` keeps the handler to
itself and only offers `process_messages`; `reconnect`, which nothing calls, is left out. -/
inductive Task where
  | processMessages
  | shutdown

/-- `FRAME_FLAG_FIN | FRAME_OP_CLOSE` -/
def eofFlags : Nat :=
  0x80 ||| 0x08

/-- `static_cast<int>` of a `std::size_t` -/
def castInt (n : Nat) : Int :=
  (n : Int).bmod (2 ^ 32)

/-- `std::to_string` of an `int` -/
def decimalInt : Int → Buffer
  | .ofNat n => decimal n
  | .negSucc n => bytes "-" ++ decimal (n + 1)

section Methods
variable [Build] [PocoLibrary]

/-- A method notes the data of every frame that it reads. -/
abbrev Method :=
  Prog (interface.serving Handler Buffer Fault)

/-- `state` with an argument -/
def setState (state : WSState) : Method Unit :=
  Prog.modify fun h : Handler => { h with state }

def setWebsocket (websocket : Option WebSocket) : Method Unit :=
  Prog.modify fun h : Handler => { h with websocket }

/-- `*websocket_` -/
def websocket : Method WebSocket := do
  let h : Handler ← Prog.read
  match h.websocket with
  | some websocket => return websocket
  | none => .abort .nullPointer

/-- A callback, which is an entry of the client -/
def call (e : Entry) : Method Unit :=
  Prog.ask (I := interface.serving Handler Buffer Fault) e

/-- A change of state that is reported -/
def report (state : WSState) (e : Entry) : Method Unit := do
  setState state
  call e

def lift {α : Type} : Except Exception α → Method α
  | .ok a => .ret a
  | .error x => .raise x

def getState : Method WSState := do
  let h : Handler ← Prog.read
  return h.state

/-- `URI` without arguments -/
def getUri : Method Buffer := do
  let h : Handler ← Prog.read
  return PocoLibrary.toString h.uri

def «open» (network : Network) : Method Unit := do
  let h : Handler ← Prog.read
  if PocoLibrary.isEmpty h.uri then
    .raise (PocoLibrary.runtimeError "Unable to open websocket: no URI is set")
  else do
    let websocket : WebSocket := { secure := PocoLibrary.getScheme h.uri = bytes "wss" }
    match network.connected with
    | .opened => do
        setWebsocket (some websocket)
        report .open .onOpen
    | .netException made text => do
        Prog.when (made = true) (setWebsocket (some websocket))
        report .error (.onError text)
    | .exception made x => do
        Prog.when (made = true) (setWebsocket (some websocket))
        .raise x

/-- `URI` with an argument -/
def setUri (network : Network) (uri : Buffer) : Method Unit := do
  let uri ← lift (PocoLibrary.parse uri)
  Prog.modify fun h : Handler => { h with uri }
  let h : Handler ← Prog.read
  Prog.when (h.state = .open) («open» network)

def close : Method Unit := do
  let h : Handler ← Prog.read
  Prog.when (h.state = .open) do
    let _ ← websocket
    setState .closed
  setWebsocket none
  call .onClose

def shutdown (network : Network) : Method Unit := do
  let h : Handler ← Prog.read
  Prog.when (h.state = .open) do
    let _ ← websocket
    lift network.shutdown

/-- What `send` does when it has failed -/
def refuse (text : Buffer) : Method Bool := do
  report .error (.onError text)
  return false

def send (network : Network) (buffer : Buffer) : Method Bool := do
  let h : Handler ← Prog.read
  if h.state ≠ .open then refuse (bytes "Unable to send message on closed socket")
  else do
    let _ ← websocket
    match network.sent with
    | .ioException text => refuse (bytes "IO Exception: " ++ text)
    | .exception x => .raise x
    | .bytes n =>
        if n ≠ castInt buffer.length then
          refuse (bytes "Failed to send full buffer. Sent " ++ decimalInt n ++ bytes " of " ++
            decimal buffer.length)
        else return true

/-- `read_frame`, which returns the data instead of its length -/
def readFrame (received : Received) : Method Buffer := do
  let websocket ← websocket
  match received with
  | .frame payload flags =>
      if payload = [] then do
        setState .closed
        close
        return []
      else if flags = eofFlags then do
        report .closed .onClose
        return []
      else do
        Prog.leave (I := interface.serving Handler Buffer Fault) payload
        return payload
  | .timeout =>
      if Build.asserts = true ∧ websocket.secure = false then
        .abort (.assertion "websocket_->secure()")
      else return []
  | .webSocketException text | .netException text => do
      report .error (.onError text)
      return []
  | .exception x => .raise x

/-- The loop in `process_messages`, with the polls of the socket -/
def readFrames (last : Except Exception Unit) : Buffer → List Received → Method Buffer
  | buffer, [] => do
      let _ ← websocket
      lift last
      return buffer
  | buffer, received :: rest => do
      let payload ← readFrame received
      if payload = [] then return buffer
      else readFrames last (buffer ++ payload) rest

def processMessages (network : Network) : Method Unit := do
  let h : Handler ← Prog.read
  Prog.when (h.state = .open) do
    let buffer ← readFrames network.last [] network.received
    Prog.when (buffer ≠ []) (call (.onMessage buffer))

/-- The entries that are left to the application -/
def isApplication : Entry → Bool
  | .construct _ | .onOpen | .onClose | .onError _ | .onMessage _ => false
  | _ => true

def run (network : Network) : (q : Request interface Task) → Method q.Answer
  | .call .wsState => getState
  | .call .uri => getUri
  | .call (.setUri uri) => setUri network uri
  | .call .wsOpen => «open» network
  | .call .wsClose => close
  | .call (.wsSend _ buffer) => send network buffer
  -- not a method of the handler
  | .call _ => .raise .badFunctionCall
  | .task .processMessages => processMessages network
  | .task .shutdown => shutdown network

/-- The handler of a client of the class `Deepstream`, which leaves only `process_messages` to
the application -/
abbrev server : Server interface where
  State := Handler
  Note := Buffer
  Fault := Fault
  Oracle := Network
  Task := Task
  serves := Call.isSocket
  outside := isApplication
  run := run

end Methods
section Policy

/-- What holds of a handler whenever the client runs -/
structure Related [PocoLibrary] (h : Handler) (t : List Item) : Prop where
  opened : h.state = .open ↔ socketOpen t = true
  websocket : h.state = .open → h.websocket ≠ none

theorem pocoSocket_enter_external {w : World} {c : Call} {e : Entry}
    (hinnermost : innermost w = some c) (hc : c.isSocket = false)
    (he : e.isExternal (socketOpen w.trace) = true) :
    pocoSocket.enter w e := by
  unfold pocoSocket
  dsimp only
  rw [hinnermost]
  cases c with
  | wsState | uri | setUri _ | wsOpen | wsClose | wsSend _ _ => cases hc
  | _ => exact he

theorem pocoSocket_back_of_not_socket (w : World) {c : Call} (r : Except Exception c.Answer)
    (hc : c.isSocket = false) : pocoSocket.back w c r := by
  unfold pocoSocket
  dsimp only
  cases c with
  | wsState | uri | setUri _ | wsOpen | wsClose | wsSend _ _ => cases hc
  | _ => trivial

variable [Build] [PocoLibrary]

abbrev Serves {α : Type} : Method α → (Except Exception α → Handler → World → Prop) →
    Handler → World → Prop :=
  server.Serves pocoSocket Related (· ≠ .nullPointer)

variable {h : Handler} {w : World}

/-- A callback that was called at `w` has ended. -/
structure CameBack (e : Entry) (r : Except Exception Unit) (w w' : World) : Prop where
  during : Reentrant.World.During w w'
  ended : justEnded w' = some (e, r)

theorem serves_call {e : Entry} {Q : Except Exception Unit → Handler → World → Prop}
    (henter : pocoSocket.enter w e) (hrelated : Related h (.enter e :: w.trace))
    (hended : ∀ h' w' r, Related h' w'.trace → CameBack e r w w' → Q r h' w') :
    Serves (call e) Q h w := by
  refine ⟨henter, hrelated, fun h' w' r t hrelated' hduring htrace => ?_⟩
  have hjust : justEnded w' = some (e, r) := by
    unfold justEnded
    rw [htrace]
  have hQ := hended h' w' r hrelated' ⟨hduring, hjust⟩
  cases r with
  | ok a => exact hQ
  | error x => exact hQ

theorem serves_bind {α β : Type} {p : Method α} {f : α → Method β}
    {Q : Except Exception β → Handler → World → Prop}
    (hp : Serves p (server.Continues pocoSocket Related (· ≠ .nullPointer) f Q) h w) :
    Serves (p >>= f) Q h w :=
  (Server.serves_bind (S := server) p f Q h w).mpr hp

theorem serves_report {state : WSState} {e : Entry}
    {Q : Except Exception Unit → Handler → World → Prop} (henter : pocoSocket.enter w e)
    (hrelated : Related { h with state } (.enter e :: w.trace))
    (hended : ∀ h' w' r, Related h' w'.trace → CameBack e r w w' → Q r h' w') :
    Serves (report state e) Q h w := by
  apply serves_bind (p := setState state)
  exact serves_call henter hrelated hended

omit [Build] in
/-- A callback that reports that the socket is not open any more -/
theorem Related.ended {state : WSState} {e : Entry} (hstate : state ≠ .open)
    (he : e = .onClose ∨ e.isOnError = true) (h : Handler) (t : List Item) :
    Related { h with state } (.enter e :: t) := by
  have hclosed : socketOpen (.enter e :: t) = false := by
    cases e with
    | onClose | onError _ => rfl
    | _ => simp [Entry.isOnError] at he
  refine ⟨?_, fun hopen => absurd hopen hstate⟩
  rw [hclosed]
  exact iff_of_false hstate Bool.false_ne_true

/-- `open` calls back once, or raises an exception and leaves the state as it is. -/
theorem serves_open {Q : Except Exception Unit → Handler → World → Prop} (network : Network)
    (hrelated : Related h w.trace)
    (henter : ∀ e : Entry, e.isOutcome = true → pocoSocket.enter w e)
    (hraised : ∀ x h', Related h' w.trace → Q (.error x) h' w)
    (hended : ∀ e r h' w', Related h' w'.trace → CameBack e r w w' → Q r h' w') :
    Serves («open» network) Q h w := by
  apply serves_bind (p := Prog.read)
  change Serves (if _ then _ else _) Q h w
  split
  · exact hraised _ h hrelated
  · have hmade : ∀ websocket, Related { h with websocket := some websocket } w.trace :=
      fun _ => ⟨hrelated.opened, fun _ => Option.some_ne_none _⟩
    cases network.connected with
    | opened =>
        apply serves_bind (p := setWebsocket _)
        apply serves_report (henter _ rfl)
        · exact ⟨iff_of_true rfl rfl, fun _ => Option.some_ne_none _⟩
        · exact fun h' w' r => hended _ r h' w'
    | netException made text =>
        have hend : ∀ h : Handler, Serves (report .error (.onError text)) Q h w := by
          intro h
          apply serves_report (henter _ rfl)
          · exact Related.ended (by decide) (.inr rfl) h w.trace
          · exact fun h' w' r => hended _ r h' w'
        cases made with
        | true => exact serves_bind (p := setWebsocket _) (hend _)
        | false => exact hend h
    | exception made x =>
        cases made with
        | true => exact hraised x _ (hmade _)
        | false => exact hraised x h hrelated

/-- `websocket_` is not null while the handler is `OPEN`. -/
theorem serves_websocket {Q : Except Exception WebSocket → Handler → World → Prop}
    (hwebsocket : h.websocket ≠ none) (hnext : ∀ websocket, Q (.ok websocket) h w) :
    Serves websocket Q h w := by
  apply serves_bind (p := Prog.read)
  change Serves (match h.websocket with
    | some websocket => return websocket
    | none => .abort .nullPointer) Q h w
  cases hws : h.websocket with
  | none => exact absurd hws hwebsocket
  | some websocket => exact hnext websocket

/-- `close` calls `on_close`, whatever the state is. -/
theorem serves_close {Q : Except Exception Unit → Handler → World → Prop}
    (hwebsocket : h.state = .open → h.websocket ≠ none) (henter : pocoSocket.enter w .onClose)
    (hended : ∀ h' w' r, Related h' w'.trace → CameBack .onClose r w w' → Q r h' w') :
    Serves close Q h w := by
  have hend : ∀ h : Handler, h.state ≠ .open →
      Serves (do setWebsocket none; call .onClose) Q h w := by
    intro h hstate
    apply serves_bind (p := setWebsocket none)
    apply serves_call henter
    · exact Related.ended hstate (.inl rfl) { h with websocket := none } w.trace
    · exact hended
  apply serves_bind (p := Prog.read)
  apply serves_bind (p := Prog.when _ _)
  unfold Prog.when
  split
  · next hopen =>
      apply serves_bind (p := websocket)
      apply serves_websocket (hwebsocket hopen)
      exact fun _ => hend { h with state := .closed } fun hstate => nomatch hstate
  · next hstate => exact hend h hstate

theorem serves_refuse {text : Buffer} {Q : Except Exception Bool → Handler → World → Prop}
    (henter : pocoSocket.enter w (.onError text))
    (hended : ∀ h' w' r, Related h' w'.trace → CameBack (.onError text) r w w' →
      Q (r.map fun _ => false) h' w') : Serves (refuse text) Q h w := by
  apply serves_bind (p := report _ _)
  apply serves_report henter
  · exact Related.ended (by decide) (.inr rfl) h w.trace
  · intro h' w' r hrelated hback
    have hQ := hended h' w' r hrelated hback
    cases r with
    | ok a => exact hQ
    | error x => exact hQ

/-- Every failure of `send` is reported, and an exception changes nothing. -/
theorem serves_send {Q : Except Exception Bool → Handler → World → Prop} (network : Network)
    (buffer : Buffer) (hrelated : Related h w.trace)
    (henter : ∀ text, pocoSocket.enter w (.onError text))
    (hsent : h.state = .open → Q (.ok true) h w) (hraised : ∀ x, Q (.error x) h w)
    (hended : ∀ text h' w' r, Related h' w'.trace → CameBack (.onError text) r w w' →
      Q (r.map fun _ => false) h' w') : Serves (send network buffer) Q h w := by
  apply serves_bind (p := Prog.read)
  change Serves (if _ then _ else _) Q h w
  split
  · exact serves_refuse (henter _) (hended _)
  · next hopen =>
      have hopen : h.state = .open := not_not.mp hopen
      apply serves_bind (p := websocket)
      apply serves_websocket (hrelated.websocket hopen)
      intro websocket
      change Serves (match network.sent with
        | .ioException text => refuse (bytes "IO Exception: " ++ text)
        | .exception x => .raise x
        | .bytes n =>
            if n ≠ castInt buffer.length then
              refuse (bytes "Failed to send full buffer. Sent " ++ decimalInt n ++
                bytes " of " ++ decimal buffer.length)
            else return true) Q h w
      cases network.sent with
      | ioException text => exact serves_refuse (henter _) (hended _)
      | exception x => exact hraised x
      | bytes n =>
          dsimp only
          split
          · exact serves_refuse (henter _) (hended _)
          · exact hsent hopen

/-- `read_frame` reads data or nothing, or it reports an end of the connection. -/
theorem serves_readFrame {Q : Except Exception Buffer → Handler → World → Prop}
    (received : Received) (hrelated : Related h w.trace) (hopen : h.state = .open)
    (henter : ∀ e : Entry, e = .onClose ∨ e.isOnError = true → pocoSocket.enter w e)
    (hread : ∀ payload, Q (.ok payload) h w) (hraised : ∀ x, Q (.error x) h w)
    (hended : ∀ e h' w' r, Related h' w'.trace → CameBack e r w w' →
      Q (r.map fun _ => []) h' w') : Serves (readFrame received) Q h w := by
  have hreport : ∀ (state : WSState) (e : Entry), state ≠ .open →
      e = .onClose ∨ e.isOnError = true →
      Serves (do report state e; return ([] : Buffer)) Q h w := by
    intro state e hstate he
    apply serves_bind (p := report _ _)
    apply serves_report (henter e he)
    · exact Related.ended hstate he h w.trace
    · intro h' w' r hrelated' hback
      have hQ := hended e h' w' r hrelated' hback
      cases r with
      | ok a => exact hQ
      | error x => exact hQ
  apply serves_bind (p := websocket)
  apply serves_websocket (hrelated.websocket hopen)
  intro websocket
  cases received with
  | frame payload flags =>
      change Serves (if _ then _ else _) Q h w
      split
      · apply serves_bind (p := setState .closed)
        apply serves_bind (p := close)
        apply serves_close
        · exact fun hstate => nomatch hstate
        · exact henter _ (.inl rfl)
        · intro h' w' r hrelated' hback
          have hQ := hended _ h' w' r hrelated' hback
          cases r with
          | ok a => exact hQ
          | error x => exact hQ
      · split
        · exact hreport .closed .onClose (by decide) (.inl rfl)
        · exact hread payload
  | timeout =>
      change Serves (if _ then _ else _) Q h w
      split
      · exact fun hfault => nomatch hfault
      · exact hread []
  | webSocketException text => exact hreport .error _ (by decide) (.inr rfl)
  | netException text => exact hreport .error _ (by decide) (.inr rfl)
  | exception x => exact hraised x

/-- By induction on what is received: nothing has changed as long as there is data. -/
theorem serves_readFrames {Q : Except Exception Buffer → Handler → World → Prop}
    (last : Except Exception Unit) (received : List Received) (buffer : Buffer)
    (hrelated : Related h w.trace) (hopen : h.state = .open)
    (henter : ∀ e : Entry, e = .onClose ∨ e.isOnError = true → pocoSocket.enter w e)
    (hended : ∀ h' w' r, Related h' w'.trace → Reentrant.World.During w w' → Q r h' w') :
    Serves (readFrames last buffer received) Q h w := by
  induction received generalizing buffer with
  | nil =>
      apply serves_bind (p := websocket)
      apply serves_websocket (hrelated.websocket hopen)
      intro websocket
      cases last with
      | ok a => exact hended h w _ hrelated (.refl w)
      | error x => exact hended h w _ hrelated (.refl w)
  | cons r rest ih =>
      apply serves_bind (p := readFrame r)
      apply serves_readFrame r hrelated hopen henter
      · intro payload
        change Serves (if _ then _ else _) Q h w
        split
        · exact hended h w _ hrelated (.refl w)
        · exact ih (buffer ++ payload)
      · exact fun x => hended h w _ hrelated (.refl w)
      · intro e h' w' r hrelated' hback
        cases r with
        | ok a => exact hended h' w' _ hrelated' hback.during
        | error x => exact hended h' w' _ hrelated' hback.during

theorem serves_processMessages (network : Network) {c : Call}
    (hinnermost : innermost w = some c) (hc : c.isSocket = false)
    (hrelated : Related h w.trace) :
    Serves (processMessages network) (fun _ h' w' => Related h' w'.trace) h w := by
  apply serves_bind (p := Prog.read)
  change Serves (Prog.when _ _) _ h w
  unfold Prog.when
  split
  · next hopen =>
      apply serves_bind (p := readFrames _ _ _)
      apply serves_readFrames _ _ _ hrelated hopen
      · intro e he
        apply pocoSocket_enter_external hinnermost hc
        rw [hrelated.opened.mp hopen]
        cases e with
        | onClose | onError _ => rfl
        | _ => simp [Entry.isOnError] at he
      · intro h' w' r hrelated' hduring
        cases r with
        | error x => exact hrelated'
        | ok buffer =>
            change Serves (Prog.when _ _) _ h' w'
            unfold Prog.when
            split
            · have hinnermost' : innermost w' = some c := by
                unfold innermost at hinnermost ⊢
                rwa [hduring.stack]
              apply serves_call
              · exact pocoSocket_enter_external hinnermost' hc rfl
              · have hopened : socketOpen (.enter (.onMessage buffer) :: w'.trace) =
                    socketOpen w'.trace := rfl
                exact ⟨hopened ▸ hrelated'.opened, hrelated'.websocket⟩
              · exact fun h'' w'' r hrelated'' _ => hrelated''
            · exact hrelated'
  · exact hrelated

theorem serves_shutdown (network : Network) (hrelated : Related h w.trace) :
    Serves (shutdown network) (fun _ h' w' => Related h' w'.trace) h w := by
  apply serves_bind (p := Prog.read)
  change Serves (Prog.when _ _) _ h w
  unfold Prog.when
  split
  · next hopen =>
      apply serves_bind (p := websocket)
      apply serves_websocket (hrelated.websocket hopen)
      intro websocket
      change Serves (lift network.shutdown) _ h w
      cases network.shutdown with
      | ok a => exact hrelated
      | error x => exact hrelated
  · exact hrelated

/-- What the client may rely on when a call of the handler returns -/
abbrev Answers (c : Call) (r : Except Exception c.Answer) (h : Handler) (w : World) : Prop :=
  pocoSocket.back w c r ∧ Related h w.trace

theorem serves_call_open (network : Network) {t : List Item} (hcall : w.InCall .wsOpen)
    (htrace : w.trace = .call .wsOpen :: t) (hrelated : Related h w.trace) :
    Serves («open» network) (Answers .wsOpen) h w := by
  have hinnermost := innermost_of_inCall hcall
  apply serves_open network hrelated
  · intro e he
    unfold pocoSocket justCalled
    dsimp only
    rw [hinnermost, htrace]
    exact ⟨rfl, he⟩
  · intro x h' hrelated'
    refine ⟨?_, hrelated'⟩
    unfold pocoSocket justEnded
    dsimp only
    rw [htrace]
    rfl
  · intro e r h' w' hrelated' hback
    refine ⟨?_, hrelated'⟩
    unfold pocoSocket
    dsimp only
    rw [hback.ended]

theorem serves_call_setUri (network : Network) (uri : Buffer) {t : List Item}
    (hcall : w.InCall (.setUri uri)) (htrace : w.trace = .call (.setUri uri) :: t)
    (hrelated : Related h w.trace) :
    Serves (setUri network uri) (Answers (.setUri uri)) h w := by
  have hinnermost := innermost_of_inCall hcall
  have hnone : justEnded w = none := by
    unfold justEnded
    rw [htrace]
  have hraised : ∀ x h', Related h' w.trace → Answers (.setUri uri) (.error x) h' w := by
    intro x h' hrelated'
    refine ⟨?_, hrelated'⟩
    unfold pocoSocket
    dsimp only
    rw [hnone]
    exact fun _ => rfl
  apply serves_bind (p := lift _)
  cases PocoLibrary.parse uri with
  | error x => exact hraised x h hrelated
  | ok parsed =>
      change Serves (Prog.modify (fun h : Handler => { h with uri := parsed }) >>= _) _ h w
      apply serves_bind (p := Prog.modify _)
      apply serves_bind (p := Prog.read)
      have hrelated' : Related { h with uri := parsed } w.trace :=
        ⟨hrelated.opened, hrelated.websocket⟩
      change Serves (Prog.when _ _) _ { h with uri := parsed } w
      unfold Prog.when
      split
      · next hopen =>
          apply serves_open network hrelated'
          · intro e he
            unfold pocoSocket justCalled
            dsimp only
            rw [hinnermost, ← hrelated.opened, htrace]
            exact ⟨rfl, hopen, he⟩
          · exact hraised
          · intro e r h' w' hrelated'' hback
            refine ⟨?_, hrelated''⟩
            unfold pocoSocket
            dsimp only
            rw [hback.ended]
      · next hopen =>
          refine ⟨?_, hrelated'⟩
          unfold pocoSocket
          dsimp only
          rw [hnone]
          exact fun hsocket => absurd (hrelated.opened.mpr hsocket) hopen

theorem serves_call_close {t : List Item} (hcall : w.InCall .wsClose)
    (htrace : w.trace = .call .wsClose :: t) (hrelated : Related h w.trace) :
    Serves close (Answers .wsClose) h w := by
  have hinnermost := innermost_of_inCall hcall
  apply serves_close hrelated.websocket
  · unfold pocoSocket justCalled
    dsimp only
    rw [hinnermost, htrace]
    exact ⟨rfl, rfl⟩
  · intro h' w' r hrelated' hback
    refine ⟨?_, hrelated'⟩
    unfold pocoSocket
    dsimp only
    rw [hback.ended]

theorem serves_call_send (network : Network) (m : MessageBuilder) (buffer : Buffer)
    {t : List Item} (hcall : w.InCall (.wsSend m buffer))
    (htrace : w.trace = .call (.wsSend m buffer) :: t) (hrelated : Related h w.trace) :
    Serves (send network buffer) (Answers (.wsSend m buffer)) h w := by
  have hinnermost := innermost_of_inCall hcall
  have hnone : justEnded w = none := by
    unfold justEnded
    rw [htrace]
  apply serves_send network buffer hrelated
  · intro text
    unfold pocoSocket justCalled
    dsimp only
    rw [hinnermost, htrace]
    exact ⟨rfl, rfl⟩
  · intro hopen
    refine ⟨?_, hrelated⟩
    unfold pocoSocket
    dsimp only
    rw [hnone]
    exact ⟨rfl, hrelated.opened.mp hopen⟩
  · intro x
    refine ⟨?_, hrelated⟩
    unfold pocoSocket
    dsimp only
    rw [hnone]
    trivial
  · intro text h' w' r hrelated' hback
    refine ⟨?_, hrelated'⟩
    unfold pocoSocket
    dsimp only
    rw [hback.ended]
    cases r with
    | ok a => exact ⟨rfl, rfl⟩
    | error x => rfl

/-- The handler keeps to what the client may assume of it. -/
theorem follows : server.Follows pocoSocket Related (· ≠ .nullPointer) where
  steady h i t hi hrelated := by
    refine ⟨?_, hrelated.websocket⟩
    rw [socketOpen_of_not_enter hi]
    exact hrelated.opened
  serve network c h w t hserves hcall htrace hrelated := by
    cases c with
    | wsState => exact ⟨trivial, hrelated⟩
    | uri => exact ⟨trivial, hrelated⟩
    | setUri uri => exact serves_call_setUri network uri hcall htrace hrelated
    | wsOpen => exact serves_call_open network hcall htrace hrelated
    | wsClose => exact serves_call_close hcall htrace hrelated
    | wsSend m buffer => exact serves_call_send network m buffer hcall htrace hrelated
    | _ => cases hserves
  task network task c h w hc hcall hrelated := by
    cases task with
    | processMessages =>
        exact serves_processMessages network (innermost_of_inCall hcall) hc hrelated
    | shutdown => exact serves_shutdown network hrelated
  enter e c h w he hc hcall hrelated := by
    have hexternal : e.isExternal (socketOpen w.trace) = true := by
      cases e with
      | construct _ | onOpen | onClose | onError _ | onMessage _ => cases he
      | _ => rfl
    have hnotice : e.isNotice = false := by
      cases e with
      | construct _ | onOpen | onClose | onError _ | onMessage _ => cases he
      | _ => rfl
    refine ⟨pocoSocket_enter_external (innermost_of_inCall hcall) hc hexternal, ?_,
      hrelated.websocket⟩
    rw [socketOpen_enter hnotice]
    exact hrelated.opened
  back w c r hc := pocoSocket_back_of_not_socket w r hc

end Policy
end Poco
end Deepstream
