import Deepstream.Client.State

/-!
`Event`: publishing, subscribing and listening.

The functions take `send_`, as the class does. A loop over a map reads the map
again after every call, and going on from an erased entry is undefined; so is
the use of a reference to one.
-/

namespace Deepstream

namespace NameMap

/-- `operator++` of an iterator, from the entry of a name -/
def after {α : Type} (map : NameMap α) (name : Buffer) : Option (Buffer × α) :=
  map.toList.find? fun entry => compareBytes name entry.1 = .lt

section
variable {α : Type} {map : NameMap α}

theorem mem_of_getElem? {name : Buffer} {value : α} (h : map[name]? = some value) : name ∈ map :=
  Std.TreeMap.mem_iff_isSome_getElem?.mpr (by simp [h])

theorem mem_of_mem_toList {entry : Buffer × α} (h : entry ∈ map.toList) : entry.1 ∈ map :=
  mem_of_getElem? (Std.TreeMap.mem_toList_iff_getElem?_eq_some.mp h)

/-- Another value for a name that there is -/
theorem mem_insert_iff {about : Buffer} (habout : about ∈ map) (value : α) (name : Buffer) :
    name ∈ map.insert about value ↔ name ∈ map := by
  rw [Std.TreeMap.mem_insert, Std.LawfulEqCmp.compare_eq_iff_eq]
  refine ⟨?_, Or.inr⟩
  rintro (rfl | hmem)
  · exact habout
  · exact hmem

theorem mem_of_after {name : Buffer} {entry : Buffer × α} (h : map.after name = some entry) :
    entry.1 ∈ map :=
  mem_of_mem_toList (List.mem_of_find?_eq_some h)

end

end NameMap

namespace Event

open Program (lift assert ask ignore leave modifyEvent build nextId invoke)
open Reentrant (Prog)

/-- `subscriber_map_[name]`, which adds an empty list where there is none. -/
def subscriberList (name : Buffer) : Program (Node (List Nat)) := do
  let c ← Prog.read
  match c.event.subscriberMap[name]? with
  | some node => return node
  | none => do
      let node := { place := c.event.places, value := [] }
      modifyEvent fun e => { e with
        subscriberMap := e.subscriberMap.insert name node
        places := e.places + 1 }
      return node

/-- `subscribe_fn_map_.insert`, which says whether there was nothing at the key. -/
def insertFn (id : Nat) (callback : Function) : Program Bool := do
  let c ← Prog.read
  modifyEvent fun e => { e with subscribeFnMap := e.subscribeFnMap.insertIfNew id callback }
  return decide (id ∉ c.event.subscribeFnMap)

variable [Build] (send_ : MessageBuilder → Program Bool)

/-- `notify_subscribers_`; what it prints is left out. -/
def notifySubscribers (m : Message) : Program Unit := do
  assert .event "message.action() == Action::EVENT" (m.header.action = .event)
  assert .event "message.num_arguments() == (message.is_ack() ? 1 : 2)"
    (m.numArguments = if m.header.isAck then 1 else 2)
  Prog.when (m.header.isAck = false) do
    let name ← lift (m.get 0)
    let data ← lift (m.get 1)
    let c ← Prog.read
    match c.event.subscriberMap[name]? with
    | none => pure ()
    | some node =>
        Prog.forEach node.value fun id => do
          -- `subscribe_fn_map_[id]` adds an empty function where there is none
          modifyEvent fun e => { e with subscribeFnMap := e.subscribeFnMap.insertIfNew id none }
          let c ← Prog.read
          invoke (c.event.subscribeFnMap.getD id none) fun f => ask (.subscribeFn f data)

/-- `notify_listeners_`; what it prints is left out. -/
def notifyListeners (m : Message) : Program Unit := do
  assert .event "message.action() == SUBSCRIPTION_FOR_PATTERN_FOUND || REMOVED"
    (m.header.action = .subscriptionForPatternFound ∨
      m.header.action = .subscriptionForPatternRemoved)
  assert .event "!message.is_ack()" (m.header.isAck = false)
  assert .event "message.num_arguments() == 2" (m.numArguments = 2)
  let pattern ← lift (m.get 0)
  let matched ← lift (m.get 1)
  let c ← Prog.read
  match c.event.listenerMap[pattern]? with
  | none => pure ()
  | some node => do
      let accept ← invoke node.value fun f =>
        ask (.listenFn f matched (m.header.action = .subscriptionForPatternFound))
      Prog.when (m.header.action ≠ .subscriptionForPatternRemoved) do
        let el ← build .event (if accept then .listenAccept else .listenReject) [pattern, matched]
        ignore (send_ el.val)

/-- `notify_` -/
def notify (m : Message) : Program Unit := do
  assert .event "message.topic() == Topic::EVENT" (m.header.topic = .event)
  match m.header.action with
  | .event => notifySubscribers m
  | .subscriptionForPatternFound | .subscriptionForPatternRemoved => do
      assert .event "!message.is_ack()" (m.header.isAck = false)
      notifyListeners send_ m
  | .listen | .subscribe | .unlisten | .unsubscribe =>
      assert .event "message.is_ack()" (m.header.isAck = true)
  | _ => assert .event "0" False

/-- `send_queue_.emplace` -/
def enqueue {name data : Buffer} (evt : Built .event .event [name, data]) : Program Unit :=
  let message : EventMessage := ⟨evt.val, evt.property.1, by rw [evt.property.2]; rfl⟩
  modifyEvent fun e => { e with sendQueue := e.sendQueue ++ [message] }

def emit (name buffer : Buffer) : Program Unit :=
  if name = [] then .raise (.invalidArgument "Empty event name")
  else do
    let evt ← build .event .event [name, buffer]
    leave (.emitted evt.val)
    let sent ← send_ evt.val
    Prog.when (sent = false) (enqueue evt)
    let c ← Prog.read
    Prog.when (name ∈ c.event.subscriberMap) (notify send_ evt.val.view)

/-- `subscribers.push_back` through the reference that `subscribe` holds -/
def pushSubscriber (name : Buffer) (place id : Nat) : Program Unit := do
  let c ← Prog.read
  match c.event.subscriberMap[name]? with
  | none => .abort .undefined
  | some node =>
      if node.place = place then do
        assert .event "std::find(subscribers, subscription_id) == subscribers.end()"
          (id ∉ node.value)
        modifyEvent fun e => { e with
          subscriberMap := e.subscriberMap.insert name { node with value := node.value ++ [id] } }
      else .abort .undefined

def subscribe (name : Buffer) (callback : Function) : Program Nat :=
  if name = [] then .raise (.invalidArgument "Empty event subscription pattern")
  else do
    let id ← nextId
    let inserted ← insertFn id callback
    assert .event "insert_result.second" inserted
    let subscribers ← subscriberList name
    Prog.when (subscribers.value = []) do
      let message ← build .event .subscribe [name]
      ignore (send_ message.val)
    pushSubscriber name subscribers.place id
    return id

/-- `subscribe_fn_map_.erase` with its assertion -/
def eraseFn (id : Nat) : Program Unit := do
  let c ← Prog.read
  let removed := id ∈ c.event.subscribeFnMap
  modifyEvent fun e => { e with subscribeFnMap := e.subscribeFnMap.erase id }
  assert .event "removed == 1" removed

/-- `unsubscribe` of all callbacks of a name -/
def unsubscribe (name : Buffer) : Program Unit := do
  let c ← Prog.read
  match c.event.subscriberMap[name]? with
  | none => pure ()
  | some node => do
      Prog.forEach node.value eraseFn
      modifyEvent fun e => { e with subscriberMap := e.subscriberMap.erase name }
      let c ← Prog.read
      Prog.when c.event.subscriberMap.isEmpty do
        let message ← build .event .unsubscribe [name]
        ignore (send_ message.val)

/-- `unsubscribe` of one callback. The name is a value here, while the code still reads it after the
callback was erased, which may own it. -/
def unsubscribeId (name : Buffer) (id : Nat) : Program Unit := do
  let c ← Prog.read
  match c.event.subscriberMap[name]? with
  | none => pure ()
  | some node =>
      if id ∈ node.value then do
        let subscribers := node.value.erase id
        modifyEvent fun e => { e with
          subscriberMap := e.subscriberMap.insert name { node with value := subscribers } }
        eraseFn id
        Prog.when (subscribers = []) (unsubscribe send_ name)
      else
        assert .event "subscribe_fn_map_.find(subscription_id) == subscribe_fn_map_.end()"
          (id ∉ c.event.subscribeFnMap)

def listen (pattern : Buffer) (callback : Function) : Program Unit :=
  if pattern = [] then .raise (.invalidArgument "Cannot listen for empty patterns")
  else do
    let c ← Prog.read
    Prog.when (pattern ∉ c.event.listenerMap) do
      modifyEvent fun e => { e with
        listenerMap := e.listenerMap.insert pattern ⟨e.places, callback⟩
        places := e.places + 1 }
      let message ← build .event .listen [pattern]
      ignore (send_ message.val)

def unlisten (pattern : Buffer) : Program Unit := do
  let c ← Prog.read
  Prog.when (pattern ∈ c.event.listenerMap) do
    modifyEvent fun e => { e with listenerMap := e.listenerMap.erase pattern }
    let message ← build .event .unlisten [pattern]
    ignore (send_ message.val)

/-- A loop over a map that sends a message for every name until one is not sent. -/
def announce {α : Type} (map : Event → NameMap (Node α)) (action : Action) :
    Nat → Option (Buffer × Node α) → Program Unit
  | _, none => pure ()
  | 0, some _ => .abort .exhausted
  | n + 1, some (name, node) => do
      let message ← build .event action [name]
      let sent ← send_ message.val
      Prog.when sent do
        let c ← Prog.read
        if ((map c.event)[name]?).map Node.place = some node.place then
          announce map action n ((map c.event).after name)
        else .abort .undefined

/-- The loop over `subscriber_map_` -/
def resubscribe (n : Nat) : Program Unit := do
  let c ← Prog.read
  announce send_ Event.subscriberMap .subscribe n c.event.subscriberMap.toList.head?

/-- The loop over `listener_map_` -/
def relisten (n : Nat) : Program Unit := do
  let c ← Prog.read
  announce send_ Event.listenerMap .listen n c.event.listenerMap.toList.head?

/-- The loop over `send_queue_` -/
def flush : Nat → Program Unit
  | 0 => .abort .exhausted
  | n + 1 => do
      let c ← Prog.read
      match c.event.sendQueue with
      | [] => pure ()
      | message :: _ => do
          let sent ← send_ message.val
          Prog.when sent do
            let c ← Prog.read
            match c.event.sendQueue with
            | [] => .abort .undefined
            | _ :: queue => do
                modifyEvent fun e => { e with sendQueue := queue }
                flush n

/-- `on_connection_state_change_`; `n` bounds its loops. -/
def onConnectionStateChange (n : Nat) (state : ConnectionState) : Program Unit :=
  Prog.when (state = .open) do
    resubscribe send_ n
    relisten send_ n
    flush send_ n

end Event
end Deepstream
