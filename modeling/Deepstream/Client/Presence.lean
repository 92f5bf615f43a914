import Deepstream.Client.State

/-!
`Presence`: who is logged in.

The loop over `querents_` is not over a copy, so a callback that modifies the
vector invalidates it.
-/

namespace Deepstream
namespace Presence

open Program (lift assert ask ignore modifyPresence build nextId invoke)
open Reentrant (Prog)

/-- `subscribe_fn_map_.insert`, which says whether there was nothing at the key. -/
def insertFn (id : Nat) (callback : Function) : Program Bool := do
  let c ← Prog.read
  modifyPresence fun p => { p with subscribeFnMap := p.subscribeFnMap.insertIfNew id callback }
  return decide (id ∉ c.presence.subscribeFnMap)

variable [Build] (send_ : MessageBuilder → Program Bool)

def subscribe (callback : Function) : Program Nat := do
  let id ← nextId
  let inserted ← insertFn id callback
  assert .presence "insert_success" inserted
  let c ← Prog.read
  Prog.when (c.presence.subscribers = []) do
    let message ← build .presence .subscribe []
    ignore (send_ message.val)
  modifyPresence fun p => { p with subscribers := p.subscribers ++ [id] }
  return id

/-- `unsubscribe` of one callback -/
def unsubscribeId (id : Nat) : Program Unit := do
  let c ← Prog.read
  assert .presence "subscribe_fn_map_.size() == subscribers_.size()"
    (c.presence.subscribeFnMap.size = c.presence.subscribers.length)
  Prog.when (id ∈ c.presence.subscribers) do
    let subscribers := c.presence.subscribers.erase id
    let removed := id ∈ c.presence.subscribeFnMap
    modifyPresence fun p => { p with
      subscribers
      subscribeFnMap := p.subscribeFnMap.erase id }
    assert .presence "removed == 1" removed
    Prog.when (subscribers = []) do
      let message ← build .presence .unsubscribe []
      ignore (send_ message.val)

/-- `unsubscribe` of all callbacks -/
def unsubscribe : Program Unit := do
  let c ← Prog.read
  assert .presence "subscribe_fn_map_.size() == subscribers_.size()"
    (c.presence.subscribeFnMap.size = c.presence.subscribers.length)
  modifyPresence fun p => { p with subscribeFnMap := ∅, subscribers := [] }
  let message ← build .presence .unsubscribe []
  ignore (send_ message.val)

def getAll (f : Function) : Program Unit := do
  modifyPresence fun p => { p with
    querents := p.querents ++ [f]
    querentsVersion := p.querentsVersion + 1 }
  let c ← Prog.read
  Prog.when (c.presence.querents.length = 1) do
    let uqq ← build .presence .query [bytes "Q"]
    ignore (send_ uqq.val)

/-- The arguments of a message from one position on -/
def userList (m : Message) : Nat → Nat → Except Failure (List Buffer)
  | _, 0 => .ok []
  | i, n + 1 => do
      let user ← m.get i
      let users ← userList m (i + 1) n
      return user :: users

/-- `notify_` -/
def notify (m : Message) : Program Unit := do
  assert .presence "message.topic() == Topic::PRESENCE" (m.header.topic = .presence)
  if (m.header.action = .subscribe ∨ m.header.action = .unsubscribe) ∧ m.header.isAck = true then
    pure ()
  else if m.header.action = .query then do
    let users ← lift (userList m 0 m.numArguments)
    let c ← Prog.read
    let version := c.presence.querentsVersion
    Prog.forEach c.presence.querents fun f => do
      invoke f fun f => ask (.queryFn f users)
      let c ← Prog.read
      Prog.when (c.presence.querentsVersion ≠ version) (.abort .undefined)
    modifyPresence fun p => { p with querents := [], querentsVersion := p.querentsVersion + 1 }
  else if m.header.action ≠ .presenceJoin ∧ m.header.action ≠ .presenceLeave then
    assert .presence "0" False
  else do
    let c ← Prog.read
    Prog.forEach c.presence.subscribers fun id => do
      -- `subscribe_fn_map_[id]` adds an empty function where there is none
      modifyPresence fun p => { p with subscribeFnMap := p.subscribeFnMap.insertIfNew id none }
      let c ← Prog.read
      let callback := c.presence.subscribeFnMap.getD id none
      let name ← lift (m.get 0)
      invoke callback fun f => ask (.presenceFn f name (m.header.action = .presenceJoin))

end Presence
end Deepstream
