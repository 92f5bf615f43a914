import Deepstream.MessageBuilder
import Deepstream.Parser
import Deepstream.Reentrant.Program

/-!
The state of a client, the calls it makes and the ways into it.

Everything the client does not decide is a call: the websocket handler, the
error handler, the callbacks of the user and the event loop around all of them.
Entries of a `std::map` have an identity, so that a reference to one that was
erased can be told from a reference to its successor.
-/

namespace Deepstream

inductive ConnectionState where
  | closed | awaitConnection | challenging | challengingWait | awaitAuthentication
  | authenticating | open | reconnecting | error
  deriving DecidableEq, Repr

inductive WSState where
  | error | open | closed
  deriving DecidableEq, Repr

/-- A `std::function`, which may be empty. -/
abbrev Function := Option Nat

/-- `std::vector<char>` is ordered lexicographically, with signed letters. -/
def compareBytes (a b : Buffer) : Ordering :=
  compareOn (fun x : Buffer => x.map UInt8.toInt8) a b

instance : Std.TransCmp compareBytes :=
  inferInstanceAs (Std.TransCmp (compareOn _))

private theorem toInt8_injective : Function.Injective UInt8.toInt8 := by
  intro a b h
  simpa using congrArg Int8.toUInt8 h

instance : Std.LawfulEqCmp compareBytes where
  eq_of_compare h :=
    List.map_injective_iff.mpr toInt8_injective (Std.LawfulEqCmp.eq_of_compare h)

/-- A `std::map` whose keys are buffers. -/
abbrev NameMap (α : Type) := Std.TreeMap Buffer α compareBytes

/-- An entry of a `std::map`: `place` stands for its address. -/
structure Node (α : Type) where
  place : Nat
  value : α

/-- A message with the given header and arguments -/
def Built (topic : Topic) (action : Action) (arguments : List Buffer) :=
  { m : MessageBuilder // m.header = { topic, action } ∧ m.arguments = arguments }

/-- The messages that can wait to be sent -/
def EventMessage :=
  { m : MessageBuilder // m.header = { topic := .event, action := .event } ∧
    m.arguments.length = 2 }

/-- `Event` without the function it sends with. -/
structure Event where
  subscriberMap : NameMap (Node (List Nat)) := ∅
  subscribeFnMap : Std.TreeMap Nat Function := ∅
  listenerMap : NameMap (Node Function) := ∅
  sendQueue : List EventMessage := []
  /-- The next fresh place for an entry. -/
  places : Nat := 0

/-- `Presence` without the function it sends with. -/
structure Presence where
  subscribeFnMap : Std.TreeMap Nat Function := ∅
  subscribers : List Nat := []
  querents : List Function := []
  /-- How often `querents_` was modified, which invalidates its iterators. -/
  querentsVersion : Nat := 0

/-- The members of `Connection`, and what `Client` adds to them. -/
structure Client where
  state : ConnectionState := .closed
  loginCallback : Option Function := none
  authParams : Option Buffer := none
  deliberateClose : Bool := false
  reconnectionAttempt : Nat := 0
  subscriptionCounter : Nat := 0
  event : Event := {}
  presence : Presence := {}

/-- What is reported to the error handler. -/
inductive Report where
  | parserError (e : Parser.Error) (raw : Buffer)
  | unsolicited (h : Header)
  | connectionErrorState (previous : ConnectionState) (h : Header)
  | noRedirectUri
  | unknownConnectionAction (s : ConnectionState) (h : Header)
  | tooManyAuthAttempts
  | invalidAuthData
  | invalidAuthMsg
  | unknownAuthenticationAction (s : ConnectionState) (h : Header)

section Text

def decimal (n : Nat) : Buffer :=
  (Nat.toDigits 10 n).map fun c => UInt8.ofNat c.toNat

def ConnectionState.text : ConnectionState → Buffer
  | .closed => bytes "CLOSED"
  | .awaitConnection => bytes "AWAIT_CONNECTION"
  | .challenging => bytes "CHALLENGING"
  | .challengingWait => bytes "CHALLENGING_WAIT"
  | .awaitAuthentication => bytes "AWAIT_AUTHENTICATION"
  | .authenticating => bytes "AUTHENTICATING"
  | .open => bytes "OPEN"
  | .reconnecting => bytes "RECONNECTING"
  | .error => bytes "ERROR"

def Parser.Error.Tag.text : Parser.Error.Tag → Buffer
  | .unexpectedToken => bytes "unexpected token"
  | .unexpectedEof => bytes "unexpected eof"
  | .corruptPayload => bytes "corrupt payload"
  | .invalidNumberOfArguments => bytes "invalid number of message arguments"

def Parser.Error.text (e : Parser.Error) : Buffer :=
  decimal (e.location.offset + 1) ++ bytes ":" ++
    decimal (e.location.offset + e.location.size + 1) ++ bytes ": " ++ e.tag.text

/-- `Message::to_human_readable` -/
def toHumanReadable (xs : Buffer) : Buffer :=
  xs.map fun c => if c = asciiUnitSeparator then 124 else if c = asciiRecordSeparator then 43 else c

variable [Build]

/-- `operator<<` of a header, which prints enumerators as numbers. -/
def Header.text (h : Header) : Except Failure Buffer := do
  match ← h.toString with
  | some text =>
      return bytes "Message::Header(" ++ decimal h.topic.ctorIdx ++ bytes ", " ++
        decimal h.action.ctorIdx ++ bytes (if h.isAck then ", true" else "") ++ bytes ") - " ++
        bytes text
  | none => throw .undefined

def Report.text : Report → Except Failure Buffer
  | .parserError e raw =>
      .ok (bytes "parser error: " ++ e.text ++ bytes " \"" ++ toHumanReadable raw ++ bytes "\"")
  | .unsolicited h => do
      return bytes "unsolicited message: " ++ (← h.text)
  | .connectionErrorState previous h => do
      return bytes "connection error state reached, previous state: " ++ previous.text ++
        bytes ", message header: " ++ (← h.text)
  | .noRedirectUri => .ok (bytes "No URI given in connection redirect message")
  | .unknownConnectionAction s h => do
      return bytes "connection message with unknown action " ++ s.text ++ bytes "\n\t" ++ (← h.text)
  | .tooManyAuthAttempts => .ok (bytes "too many authentication attempts")
  | .invalidAuthData => .ok (bytes "invalid auth data")
  | .invalidAuthMsg => .ok (bytes "invalid auth message")
  | .unknownAuthenticationAction s h => do
      return bytes "authentication message with unknown action" ++ s.text ++
        bytes ", message header: " ++ (← h.text)

end Text

/-- The ways into a client; `construct` builds the connection and hands control to the
event loop. -/
inductive Entry where
  | construct (uri : Buffer)
  | onOpen
  | onClose
  | onError (error : Buffer)
  | onMessage (raw : Buffer)
  | login (auth : Buffer) (callback : Function)
  | close
  | emit (name data : Buffer)
  | subscribe (name : Buffer) (callback : Function)
  | unsubscribe (name : Buffer)
  | unsubscribeId (name : Buffer) (id : Nat)
  | listen (pattern : Buffer) (callback : Function)
  | unlisten (pattern : Buffer)
  | presenceSubscribe (callback : Function)
  | presenceUnsubscribeId (id : Nat)
  | presenceUnsubscribe
  | getAll (f : Function)
  deriving DecidableEq

/-- The calls out of a client. A message is handed to the socket as bytes; the message
itself is only there to be talked about. -/
inductive Call where
  | idle
  | errorHandler (report : Report) (text : Buffer)
  | wsState
  | uri
  | setUri (uri : Buffer)
  | wsOpen
  | wsClose
  | wsSend (m : MessageBuilder) (buffer : Buffer)
  | loginCallback (f : Nat) (data : Buffer)
  | subscribeFn (f : Nat) (data : Buffer)
  | listenFn (f : Nat) (matched : Buffer) (subscribed : Bool)
  | presenceFn (f : Nat) (name : Buffer) (online : Bool)
  | queryFn (f : Nat) (users : List Buffer)

/-- Calls other than of the socket's methods that change it, and of the callbacks of `login` and
`get_all` -/
def Call.isRoutine : Call → Bool
  | .setUri _ | .wsOpen | .wsClose | .wsSend _ _ | .loginCallback _ _ | .queryFn _ _ => false
  | _ => true

/-- Callbacks of `subscribe` and `listen` -/
def Call.isSubscriber : Call → Bool
  | .subscribeFn _ _ | .listenFn _ _ _ | .presenceFn _ _ _ => true
  | _ => false

theorem Call.isRoutine_of_isSubscriber {c : Call} (h : c.isSubscriber = true) :
    c.isRoutine = true := by
  cases c with
  | subscribeFn | listenFn | presenceFn => rfl
  | _ => cases h

/-- The event loop does not return. -/
@[reducible] def Call.Answer : Call → Type
  | .idle => Empty
  | .wsState => WSState
  | .uri => Buffer
  | .wsSend _ _ => Bool
  | .listenFn _ _ _ => Bool
  | _ => Unit

/-- Marks in the history of a client. `dispatched` and `became` have the client as it was
before the message was handled and after the state had changed. -/
inductive Note where
  | dispatched (m : MessageProxy) (c : Client)
  | became (c : Client)
  | sending (m : MessageBuilder)
  | refused (m : MessageBuilder)
  | emitted (m : MessageBuilder)

abbrev interface : Reentrant.Interface where
  State := Client
  Note := Note
  Exception := Exception
  Fault := Failure
  Entry := Entry
  Call := Call
  Answer := Call.Answer

abbrev Program := Reentrant.Prog interface
abbrev World := Reentrant.World interface
abbrev Item := Reentrant.Item interface

namespace Program

/-- A computation that fails raises an exception or ends the program. -/
def lift {α : Type} : Except Failure α → Program α
  | .ok a => .ret a
  | .error (.thrown e) => .raise e
  | .error f => .abort f

def assert [Build] (file : SourceFile) (text : String) (cond : Prop) [Decidable cond] :
    Program Unit :=
  lift (check file text cond)

def ignore (p : Program Bool) : Program Unit := do
  let _ ← p
  return ()

def ask (c : Call) : Program c.Answer :=
  Reentrant.Prog.ask (I := interface) c

def leave (n : Note) : Program Unit :=
  Reentrant.Prog.leave (I := interface) n

def modifyEvent (f : Event → Event) : Program Unit :=
  Reentrant.Prog.modify fun c : Client => { c with event := f c.event }

def modifyPresence (f : Presence → Presence) : Program Unit :=
  Reentrant.Prog.modify fun c : Client => { c with presence := f c.presence }

def report [Build] (r : Report) : Program Unit := do
  let text ← lift r.text
  ask (.errorHandler r text)

/-- The construction of a message and `add_argument` for each of its arguments -/
def build (topic : Topic) (action : Action) (arguments : List Buffer) :
    Program (Built topic action arguments) :=
  match h : MessageBuilder.addArguments (.ofHeader { topic, action }) arguments with
  | .ok m => .ret ⟨m, MessageBuilder.addArguments_eq_ok _ m arguments h⟩
  | .error f => lift (.error f)

/-- `subscription_counter_++`, of an `unsigned long` -/
def nextId : Program Nat := do
  let c ← .read
  .modify fun c => { c with subscriptionCounter := (c.subscriptionCounter + 1) % 2 ^ 64 }
  return c.subscriptionCounter

/-- Invoke a `std::function`. -/
def invoke {α : Type} (f : Function) (call : Nat → Program α) : Program α :=
  match f with
  | some f => call f
  | none => .raise .badFunctionCall

end Program

/-- What a handler of messages sees of one. -/
structure Message where
  header : Header
  numArguments : Nat
  get : Nat → Except Failure Buffer

def MessageBuilder.view (m : MessageBuilder) : Message where
  header := m.header
  numArguments := m.arguments.length
  get := m.get

def MessageProxy.view [Build] (m : MessageProxy) : Message where
  header := m.header
  numArguments := m.numArguments
  get := m.get

end Deepstream
