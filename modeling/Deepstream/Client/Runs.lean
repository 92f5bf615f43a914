import Deepstream.Client.Connection
import Deepstream.Reentrant.Machine

/-!
Runs of a client, from its construction on.
-/

namespace Deepstream

open Reentrant (Config Move Policy Reachable)

section Runs
variable [Build]

/-- The configurations of a client under a policy. -/
abbrev Reaches (P : Policy interface) (n : Nat) (uri : Buffer) (cfg : Config interface) : Prop :=
  Reachable P (program n) (.construct uri) {} cfg

/-- The configuration after some moves of the environment. -/
def after (n : Nat) (uri : Buffer) (moves : List (Move interface)) : Config interface :=
  Reentrant.run (program n) (.construct uri) {} moves

theorem reaches_after (n : Nat) (uri : Buffer) (moves : List (Move interface)) :
    Reaches (.any interface) n uri (after n uri moves) :=
  Reentrant.reachable_run (Reentrant.permittedFrom_any ..)

end Runs

/-- The messages that `send` was asked to send, newest first -/
def sending (w : World) : List MessageBuilder :=
  w.trace.filterMap fun
    | .note (.sending m) => some m
    | _ => none

/-- The messages handed to the socket, newest first, with their binary forms -/
def handed (w : World) : List (MessageBuilder × Buffer) :=
  w.trace.filterMap fun
    | .call (.wsSend m buffer) => some (m, buffer)
    | _ => none

theorem mem_sending {w : World} {m : MessageBuilder} :
    m ∈ sending w ↔ .note (.sending m) ∈ w.trace := by
  unfold sending
  rw [List.mem_filterMap]
  constructor
  · intro h
    obtain ⟨i, hi, hm⟩ := h
    split at hm
    · cases hm
      exact hi
    · cases hm
  · exact fun h => ⟨_, h, rfl⟩

theorem mem_handed {w : World} {m : MessageBuilder} {buffer : Buffer} :
    (m, buffer) ∈ handed w ↔ .call (.wsSend m buffer) ∈ w.trace := by
  unfold handed
  rw [List.mem_filterMap]
  constructor
  · intro h
    obtain ⟨i, hi, hm⟩ := h
    split at hm
    · cases hm
      exact hi
    · cases hm
  · exact fun h => ⟨_, h, rfl⟩

/-- The entries that were made, newest first -/
def entered (t : List Item) : List Entry :=
  t.filterMap fun
    | .enter e => some e
    | _ => none

/-- The entries that have returned, newest first -/
def returned (t : List Item) : List Entry :=
  t.filterMap fun
    | .leave e (.ok ()) => some e
    | _ => none

theorem mem_entered {t : List Item} {e : Entry} : e ∈ entered t ↔ .enter e ∈ t := by
  unfold entered
  rw [List.mem_filterMap]
  constructor
  · intro h
    obtain ⟨i, hi, he⟩ := h
    split at he
    · cases he
      exact hi
    · cases he
  · exact fun h => ⟨_, h, rfl⟩

theorem mem_returned {t : List Item} {e : Entry} : e ∈ returned t ↔ .leave e (.ok ()) ∈ t := by
  unfold returned
  rw [List.mem_filterMap]
  constructor
  · intro h
    obtain ⟨i, hi, he⟩ := h
    split at he
    · cases he
      exact hi
    · cases he
  · exact fun h => ⟨_, h, rfl⟩

/-- Whether a client had a property if it became `OPEN` -/
def Item.opensWith (p : Client → Bool) : Item → Bool
  | .note (.became c) => c.state ≠ .open || p c
  | _ => true

theorem opensWith_of_all {p : Client → Bool} {t : List Item}
    (h : t.all (Item.opensWith p) = true) (c : Client) (hmem : .note (.became c) ∈ t)
    (hopen : c.state = .open) : p c = true := by
  have hitem := List.all_eq_true.mp h _ hmem
  simpa [Item.opensWith, hopen] using hitem

/-- No handler is executing: the event loop has control and was called by nobody else. -/
def IsIdle (w : World) : Prop :=
  ∃ uri, w.stack = [.inr .idle, .inl (.construct uri)]

instance (w : World) : Decidable (IsIdle w) :=
  decidable_of_iff ((match w.stack with
      | [.inr .idle, .inl (.construct _)] => true
      | _ => false) = true) (by
    constructor
    · intro h
      split at h
      · next uri hstack => exact ⟨uri, hstack⟩
      · cases h
    · rintro ⟨uri, hstack⟩
      rw [hstack])

/-- An answer to every call: a socket that was closed, an address, and success. -/
def accept : Move interface :=
  .back fun c => match c with
    | .idle => .error (.user 0)
    | .wsState => .ok .closed
    | .uri => .ok (bytes "ws://a")
    | .wsSend _ _ => .ok true
    | .listenFn _ _ _ => .ok true
    | .errorHandler _ _ | .setUri _ | .wsOpen | .wsClose | .loginCallback _ _ | .subscribeFn _ _
    | .presenceFn _ _ _ | .queryFn _ _ => .ok ()

/-- A frame of the server, written as in `from_human_readable`. -/
def receive (text : String) : Move interface :=
  .enter (.onMessage (fromHumanReadable (bytes text)))

/-- The construction of a client whose socket opens, up to `AWAIT_CONNECTION` -/
def connecting : List (Move interface) :=
  [accept, accept, .enter .onOpen, accept]

/-- The handshake up to `AWAIT_AUTHENTICATION` -/
def challenged : List (Move interface) :=
  connecting ++ [receive "C|CH+", accept, accept, receive "C|A+"]

/-- The login that leads to `OPEN`, with a callback that returns -/
def loggedIn : List (Move interface) :=
  challenged ++ [.enter (.login (bytes "{}") (some 0)), accept, receive "A|A+", accept]

end Deepstream
