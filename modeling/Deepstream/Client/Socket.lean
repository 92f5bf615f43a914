import Deepstream.Client.Runs

/-!
What a socket does while the client waits for it.

A handler of websockets runs the entries of the client before it returns. What
has just happened is the head of the history: a call that was made, or an entry
that has ended. Whether the socket is open can be told from the entries it made.
-/

namespace Deepstream

open Reentrant (Policy)

/-- Nothing has happened since the innermost call was made. -/
def justCalled (w : World) : Bool :=
  match w.trace with
  | .call _ :: _ => true
  | _ => false

/-- How the entry that has just ended has ended -/
def justEnded (w : World) : Option (Entry × Except Exception Unit) :=
  match w.trace with
  | .leave e result :: _ => some (e, result)
  | _ => none

/-- The innermost call -/
def innermost (w : World) : Option Call :=
  match w.stack with
  | .inr c :: _ => some c
  | _ => none

theorem innermost_of_stack {w : World} {c : Call} {rest : List (Entry ⊕ Call)}
    (h : w.stack = .inr c :: rest) : innermost w = some c := by
  unfold innermost
  rw [h]

theorem innermost_of_inCall {w : World} {c : Call} (hcall : w.InCall c) :
    innermost w = some c := by
  obtain ⟨rest, hstack⟩ := hcall.stack
  exact innermost_of_stack hstack

/-- Whether the state of the socket is `OPEN`: every other state is left for `OPEN` right
before `on_open` is called, and `OPEN` is left right before `on_close` or `on_error` is. -/
def socketOpen : List Item → Bool
  | [] => false
  | .enter .onOpen :: _ => true
  | .enter .onClose :: _ => false
  | .enter (.onError _) :: _ => false
  | _ :: t => socketOpen t

/-- The entries that a socket makes when it changes -/
def Entry.isNotice : Entry → Bool
  | .onOpen | .onClose | .onError _ => true
  | _ => false

theorem socketOpen_of_not_enter {i : Item} (hi : ∀ e, i ≠ .enter e) (t : List Item) :
    socketOpen (i :: t) = socketOpen t := by
  cases i with
  | enter e => exact absurd rfl (hi e)
  | _ => rfl

theorem socketOpen_enter {e : Entry} (he : e.isNotice = false) (t : List Item) :
    socketOpen (.enter e :: t) = socketOpen t := by
  cases e with
  | onOpen | onClose | onError _ => cases he
  | _ => rfl

def Entry.isOnError : Entry → Bool
  | .onError _ => true
  | _ => false

/-- The ways in which `PocoWSHandler::open` calls back -/
def Entry.isOutcome : Entry → Bool
  | .onOpen => true
  | e => e.isOnError

/-- Entries of the application and of `PocoWSHandler::process_messages`, which reads an open
socket only. -/
def Entry.isExternal (opened : Bool) : Entry → Bool
  | .construct _ | .onOpen => false
  | .onClose | .onError _ => opened
  | _ => true

/-- `PocoWSHandler`, whose `close` does not throw before it calls `on_close`. What `open` and
`send` throw leaves them, as does what the entries throw that they call. -/
def pocoSocket : Policy interface where
  enter w e := match innermost w with
    | some .wsOpen => justCalled w = true ∧ e.isOutcome = true
    | some (.setUri _) => justCalled w = true ∧ socketOpen w.trace = true ∧ e.isOutcome = true
    | some .wsClose => justCalled w = true ∧ e = .onClose
    | some (.wsSend _ _) => justCalled w = true ∧ e.isOnError = true
    | some .uri | some .wsState => False
    | _ => e.isExternal (socketOpen w.trace) = true
  back w c r := match c, r, justEnded w with
    | .wsOpen, r, some (_, result) => r.isOk = result.isOk
    | .wsOpen, r, none => r.isOk = false
    | .setUri _, r, some (_, result) => r.isOk = result.isOk
    | .setUri _, r, none => socketOpen w.trace = true → r.isOk = false
    | .wsClose, r, some (_, result) => r.isOk = result.isOk
    | .wsClose, _, none => False
    | .wsSend _ _, .ok sent, some (_, result) => result.isOk = true ∧ sent = false
    | .wsSend _ _, .error _, some (_, result) => result.isOk = false
    | .wsSend _ _, .ok sent, none => sent = true ∧ socketOpen w.trace = true
    | .wsSend _ _, .error _, none => True
    | _, _, _ => True

instance (w : World) (e : Entry) : Decidable (pocoSocket.enter w e) := by
  unfold pocoSocket
  dsimp only
  split <;> infer_instance

instance (w : World) (c : Call) (r : Except Exception c.Answer) :
    Decidable (pocoSocket.back w c r) := by
  unfold pocoSocket
  dsimp only
  split <;> infer_instance

/-- A socket that runs nothing of the client while it sends a message of some topic, unless
sending fails, which it does only once the connection has left `OPEN` -/
def reportingSocket (topic : Topic) : Policy interface where
  enter _ _ := True
  back w c r := match c, r with
    | .wsSend m _, .ok true => m.header.topic = topic → justEnded w = none
    | .wsSend m _, .ok false => m.header.topic = topic → w.state.state ≠ .open
    | _, _ => True

instance (topic : Topic) (w : World) (e : Entry) :
    Decidable ((reportingSocket topic).enter w e) :=
  .isTrue trivial

instance (topic : Topic) (w : World) (c : Call) (r : Except Exception c.Answer) :
    Decidable ((reportingSocket topic).back w c r) := by
  unfold reportingSocket
  dsimp only
  split
  · next m _ =>
      exact decidable_of_iff (m.header.topic = topic → (justEnded w).isNone = true)
        (imp_congr_right fun _ => Option.isNone_iff_eq_none)
  · infer_instance
  · infer_instance

/-- Closing the socket reports the end of the connection before it returns. -/
def synchronousClose : Policy interface where
  enter w e := match innermost w with
    | some .wsClose => e = .onClose
    | _ => True
  back w c r := match c with
    | .wsClose => (justEnded w).isSome = true ∧ r.isOk = true
    | _ => True

instance (w : World) (e : Entry) : Decidable (synchronousClose.enter w e) := by
  unfold synchronousClose
  dsimp only
  split
  · infer_instance
  · infer_instance

instance (w : World) (c : Call) (r : Except Exception c.Answer) :
    Decidable (synchronousClose.back w c r) := by
  unfold synchronousClose
  dsimp only
  split
  · infer_instance
  · infer_instance

/-- A socket whose `open` calls either `on_open` or `on_error`, and whose `URI` may reopen it
if it is open, while the construction of the client happens once -/
def openingSocket : Policy interface where
  enter w e := match innermost w with
    | some .wsOpen => justCalled w = true ∧ e.isOutcome = true
    | some (.setUri _) =>
        justCalled w = true ∧ socketOpen w.trace = true ∧ e.isOutcome = true
    | some .uri | some .wsState => False
    | _ => ∀ uri, e ≠ .construct uri
  back w c r := match c, justEnded w with
    | .wsOpen, some (_, result) => r.isOk = result.isOk
    | .wsOpen, none => False
    | _, _ => True

def Entry.isConstruct : Entry → Bool
  | .construct _ => true
  | _ => false

theorem Entry.isConstruct_eq_false (e : Entry) :
    e.isConstruct = false ↔ ∀ uri, e ≠ .construct uri := by
  cases e with
  | construct uri => simp [Entry.isConstruct]
  | _ => simp [Entry.isConstruct]

instance (w : World) (e : Entry) : Decidable (openingSocket.enter w e) := by
  have hconstruct : Decidable (∀ uri, e ≠ .construct uri) :=
    decidable_of_iff _ e.isConstruct_eq_false
  unfold openingSocket
  dsimp only
  split <;> infer_instance

instance (w : World) (c : Call) (r : Except Exception c.Answer) :
    Decidable (openingSocket.back w c r) := by
  unfold openingSocket
  dsimp only
  split <;> infer_instance

/-- The message was accepted, and nothing has happened meanwhile. -/
theorem reportingSocket_back_true {topic : Topic} {m : MessageBuilder} {buffer : Buffer}
    {w w' : World} (hduring : Reentrant.World.During w w') (hm : m.header.topic = topic)
    (h : (reportingSocket topic).back w' (.wsSend m buffer) (.ok true)) : w' = w := by
  apply hduring.eq_of_head
  intro e r hhead
  have hended := h hm
  unfold justEnded at hended
  split at hended
  · cases hended
  · next hne =>
      obtain ⟨t, ht⟩ := List.head?_eq_some_iff.mp hhead
      exact hne e r t ht

theorem exists_of_justCalled {w : World} {c : Call} (hcall : w.InCall c)
    (h : justCalled w = true) : ∃ t, w.trace = .call c :: t := by
  unfold justCalled at h
  split at h
  · next c' t htrace =>
      cases hcall.head c' (by rw [htrace]; rfl)
      exact ⟨t, htrace⟩
  · cases h

theorem exists_of_justEnded {w : World} (h : (justEnded w).isSome = true) :
    ∃ e r t, w.trace = .leave e r :: t := by
  unfold justEnded at h
  split at h
  · next e r t htrace => exact ⟨e, r, t, htrace⟩
  · cases h

/-- `close` returns once it has called `on_close`. -/
theorem pocoSocket_back_wsClose {w : World} {r : Except Exception Unit}
    (h : pocoSocket.back w .wsClose r) : ∃ e r t, w.trace = .leave e r :: t := by
  cases hended : justEnded w with
  | some _ => exact exists_of_justEnded (by rw [hended]; rfl)
  | none =>
      unfold pocoSocket at h
      dsimp only at h
      rw [hended] at h
      exact h.elim

/-- The calls of the socket's methods -/
def Call.isSocket : Call → Bool
  | .wsState | .uri | .setUri _ | .wsOpen | .wsClose | .wsSend _ _ => true
  | _ => false

/-- What `PocoWSHandler` enters, and when -/
inductive PocoEnters (w : World) : Call → Entry → Prop where
  | wsOpen (t : List Item) (htrace : w.trace = .call .wsOpen :: t) (e : Entry)
      (he : e.isOutcome = true) : PocoEnters w .wsOpen e
  | setUri (uri : Buffer) (t : List Item) (htrace : w.trace = .call (.setUri uri) :: t)
      (hopen : socketOpen t = true) (e : Entry) (he : e.isOutcome = true) :
      PocoEnters w (.setUri uri) e
  | wsClose (t : List Item) (htrace : w.trace = .call .wsClose :: t) : PocoEnters w .wsClose .onClose
  | wsSend (m : MessageBuilder) (buffer : Buffer) (t : List Item)
      (htrace : w.trace = .call (.wsSend m buffer) :: t) (error : Buffer) :
      PocoEnters w (.wsSend m buffer) (.onError error)
  | external (c : Call) (hc : c.isSocket = false) (e : Entry)
      (he : e.isExternal (socketOpen w.trace) = true) : PocoEnters w c e

theorem pocoSocket_enter {w : World} {c : Call} {e : Entry} (hcall : w.InCall c)
    (h : pocoSocket.enter w e) : PocoEnters w c e := by
  obtain ⟨rest, hstack⟩ := hcall.stack
  unfold pocoSocket at h
  dsimp only at h
  rw [innermost_of_stack hstack] at h
  cases c with
  | wsOpen =>
      obtain ⟨t, htrace⟩ := exists_of_justCalled hcall h.1
      exact .wsOpen t htrace e h.2
  | setUri uri =>
      obtain ⟨t, htrace⟩ := exists_of_justCalled hcall h.1
      refine .setUri uri t htrace ?_ e h.2.2
      have hopen := h.2.1
      rw [htrace] at hopen
      exact hopen
  | wsClose =>
      obtain ⟨t, htrace⟩ := exists_of_justCalled hcall h.1
      obtain ⟨-, rfl⟩ := h
      exact .wsClose t htrace
  | wsSend m buffer =>
      obtain ⟨t, htrace⟩ := exists_of_justCalled hcall h.1
      cases e with
      | onError error => exact .wsSend m buffer t htrace error
      | _ => cases h.2
  | uri => exact h.elim
  | wsState => exact h.elim
  | _ => exact .external _ rfl e h

end Deepstream
