import Deepstream.Client.Rules

/-!
Invariants that leave events and presence aside.

Such an invariant only has to be checked for the handshake, the login and the
calls of the socket; all entries of the application about events and presence
keep it.
-/

namespace Deepstream

open Reentrant (Contract Policy Prog Keeps wp)

variable (C : Contract interface) (P : Policy interface) (Inv : World → Prop)

/-- An invariant that is indifferent to events, and to handing their messages over -/
structure EventAside : Prop where
  routine : Routine C P Inv
  sending : ∀ m, Keeps C P Inv (Program.leave (.sending m))
  modifyEvent : ∀ f, Keeps C P Inv (Program.modifyEvent f)
  emitted : ∀ m, Keeps C P Inv (Program.leave (.emitted m))
  handEvent : ∀ m buffer w, m.header.topic = .event → w.state.state = .open → Inv w →
    wp C P (Program.ask (.wsSend m buffer)) (fun _ => Inv) (fun _ => Inv) w

/-- An invariant that is indifferent to presence, and to handing its messages over -/
structure PresenceAside : Prop where
  routine : Routine C P Inv
  sending : ∀ m, Keeps C P Inv (Program.leave (.sending m))
  modifyPresence : ∀ f, Keeps C P Inv (Program.modifyPresence f)
  queryFn : ∀ f users, Keeps C P Inv (Program.ask (.queryFn f users))
  handPresence : ∀ m buffer w, m.header.topic = .presence → w.state.state = .open → Inv w →
    wp C P (Program.ask (.wsSend m buffer)) (fun _ => Inv) (fun _ => Inv) w

structure Aside : Prop extends EventAside C P Inv, PresenceAside C P Inv

/-- An invariant that every change of the connection's state keeps. -/
def KeepsChanges : Prop :=
  ∀ s w, s ≠ w.state.state → Inv w →
    Inv (Reentrant.World.noted { w with state := { w.state with state := s } }
      (.became { w.state with state := s }))

/-- Calls of the application about events -/
def Entry.IsEvent : Entry → Prop
  | .emit _ _ | .subscribe _ _ | .unsubscribe _ | .unsubscribeId _ _ | .listen _ _
  | .unlisten _ => True
  | _ => False

/-- Calls of the application about presence -/
def Entry.IsPresence : Entry → Prop
  | .presenceSubscribe _ | .presenceUnsubscribeId _ | .presenceUnsubscribe | .getAll _ => True
  | _ => False

def Entry.IsAside : Entry → Prop
  | .emit _ _ | .subscribe _ _ | .unsubscribe _ | .unsubscribeId _ _ | .listen _ _ | .unlisten _
  | .presenceSubscribe _ | .presenceUnsubscribeId _ | .presenceUnsubscribe | .getAll _ => True
  | _ => False

variable {C P Inv}

theorem not_handshake {m : MessageBuilder} {topic : Topic} (hm : m.header.topic = topic)
    (htopic : topic ≠ .connection ∧ topic ≠ .auth) :
    ¬(m.header.topic = .connection ∨ m.header.topic = .auth) := by
  rw [hm]
  exact not_or.mpr htopic

section Routine
variable [Build] (hr : SubscriberRoutine C P Inv) (hsending : ∀ m, Keeps C P Inv (Program.leave (.sending m)))
include hr

theorem SubscriberRoutine.transmit (m : MessageBuilder)
    (hask : ∀ buffer, Keeps C P Inv (Program.ask (.wsSend m buffer))) :
    Keeps C P Inv (Connection.transmit m) :=
  Reentrant.keeps_bind (hr.lift _) fun buffer => hask buffer

include hsending

/-- A message about events or presence, which is handed over in `OPEN` only -/
theorem SubscriberRoutine.sendWith (setState : ConnectionState → Program Unit) (m : MessageBuilder)
    (hm : ¬(m.header.topic = .connection ∨ m.header.topic = .auth))
    (hask : ∀ buffer w, w.state.state = .open → Inv w →
      wp C P (Program.ask (.wsSend m buffer)) (fun _ => Inv) (fun _ => Inv) w) :
    Keeps C P Inv (Connection.sendWith setState m) := by
  intro w hw
  have hnoted : Inv (w.noted (.sending m)) := hsending m w hw
  apply wp_sendWith
  · exact fun f => hr.abort f _ hnoted
  · exact hm
  · exact fun _ => hnoted
  · exact fun hopen buffer _ => hask buffer _ hopen hnoted
  · exact fun _ _ _ => hnoted

/-- A message of the handshake -/
theorem SubscriberRoutine.sendHandshake {n : Nat} (m : MessageBuilder)
    (hm : m.header.topic = .connection ∨ m.header.topic = .auth)
    (hrefused : Keeps C P Inv (Program.leave (.refused m)))
    (hset : ∀ s w, (s = .open → w.state.state = .open) → Inv w →
      wp C P (Connection.setState n s) (fun _ => Inv) (fun _ => Inv) w)
    (hask : ∀ buffer, Keeps C P Inv (Program.ask (.wsSend m buffer))) :
    Keeps C P Inv (Connection.send n m) := by
  apply Reentrant.keeps_bind (hsending m)
  intro _
  apply Reentrant.keeps_bind (hr.debugMsg _)
  intro _ w hw
  rw [Reentrant.wp_bind, Reentrant.wp_read, if_pos hm, Reentrant.wp_bind]
  apply wp_lift
  · intro s hs
    rw [Reentrant.wp_bind, wp_when]
    refine ⟨fun herror => ?_, fun hne => ?_⟩
    · have hraise : Keeps C P Inv (Program.leave (.refused m) >>= fun _ =>
          Program.assert .connection "new_state != ConnectionState::ERROR" (s ≠ .error) >>=
            fun _ => (Prog.raise (.logicError "Invalid client state transition") :
              Program Bool)) :=
        Reentrant.keeps_bind hrefused fun _ =>
          Reentrant.keeps_bind (hr.assert _ _ _) fun _ => Reentrant.keeps_raise _
      rw [if_pos herror]
      exact (Reentrant.wp_bind _ _ _ _ _).mp (hraise w hw)
    · rw [Reentrant.wp_bind]
      unfold Program.assert
      apply wp_lift
      · intro _ _
        have hout := (transitionOutgoing_eq_ok hs).2.resolve_right fun hrefused => hne hrefused.1
        rw [if_neg hne, Reentrant.wp_bind]
        apply Reentrant.wp_mono (hset s w hout.open hw)
        · exact fun _ w' hw' => hr.transmit m hask w' hw'
        · exact fun _ _ hw' => hw'
      · exact fun _ _ => hw
      · exact fun f _ => hr.abort f w hw
  · exact fun _ _ => hw
  · exact fun f _ => hr.abort f w hw

theorem SubscriberRoutine.handshakes {n : Nat} (hrefused : ∀ m, Keeps C P Inv (Program.leave (.refused m)))
    (hset : ∀ s w, (s = .open → w.state.state = .open) → Inv w →
      wp C P (Connection.setState n s) (fun _ => Inv) (fun _ => Inv) w)
    (hconnection : ∀ m buffer, m.header.topic = .connection →
      Keeps C P Inv (Program.ask (.wsSend m buffer)))
    (hrequest : Keeps C P Inv (Connection.sendAuthenticationRequest n)) :
    Handshakes C P Inv n where
  pong m := by
    have hm : m.val.header.topic = .connection := congrArg Header.topic m.property.1
    exact hr.sendHandshake hsending m.val (.inl hm) (hrefused _) hset
      fun buffer => hconnection _ buffer hm
  challengeResponse uri m := by
    have hm : m.val.header.topic = .connection := congrArg Header.topic m.property.1
    exact hr.sendHandshake hsending m.val (.inl hm) (hrefused _) hset
      fun buffer => hconnection _ buffer hm
  authenticationRequest := hrequest

end Routine

section Event
variable [Build] (h : EventAside C P Inv)
include h

theorem EventAside.sendWith (setState : ConnectionState → Program Unit) (m : MessageBuilder)
    (hm : m.header.topic = .event) : Keeps C P Inv (Connection.sendWith setState m) := by
  apply h.routine.sendWith h.sending setState m (not_handshake hm (by decide))
  exact fun buffer w => h.handEvent m buffer w hm

/-- A change of state to one where the invariant holds -/
theorem EventAside.wp_setState {n : Nat} {s : ConnectionState} {w : World}
    (hsame : s = w.state.state → Inv w) (hchanged : s ≠ w.state.state →
      Inv (Reentrant.World.noted { w with state := { w.state with state := s } }
        (.became { w.state with state := s }))) :
    wp C P (Connection.setState n s) (fun _ => Inv) (fun _ => Inv) w := by
  unfold Connection.setState
  rw [Reentrant.wp_bind, Reentrant.wp_read, wp_when]
  refine ⟨fun hne => ?_, fun h => hsame (Classical.not_not.mp h)⟩
  cases n with
  | zero => exact h.routine.abort _ _ (hchanged hne)
  | succ n =>
      have hloops : Keeps C P Inv (Event.onConnectionStateChange
          (Connection.sendWith (Connection.setState n)) n s) :=
        Event.keeps_onConnectionStateChange h.routine.toSubscriberRoutine h.modifyEvent (h.sendWith _) n s
      exact hloops _ (hchanged hne)

theorem EventAside.setState (hchanges : KeepsChanges Inv) (n : Nat) (s : ConnectionState) :
    Keeps C P Inv (Connection.setState n s) :=
  fun w hw => h.wp_setState (fun _ => hw) fun hne => hchanges s w hne hw

/-- The entries about events -/
theorem EventAside.program (n : Nat) (e : Entry) (he : e.IsEvent) :
    Keeps C P Inv (program n e) := by
  have hr := h.routine.toSubscriberRoutine
  have hsend : ∀ m : MessageBuilder, m.header.topic = .event →
      Keeps C P Inv (Connection.send n m) := h.sendWith _
  cases e with
  | emit name data => exact Event.keeps_emit hr h.modifyEvent hsend h.emitted name data
  | subscribe name callback =>
      exact Reentrant.keeps_bind (Event.keeps_subscribe hr h.modifyEvent hsend name callback)
        fun _ => Reentrant.keeps_pure _
  | unsubscribe name => exact Event.keeps_unsubscribe hr h.modifyEvent hsend name
  | unsubscribeId name id => exact Event.keeps_unsubscribeId hr h.modifyEvent hsend name id
  | listen pattern callback => exact Event.keeps_listen hr h.modifyEvent hsend pattern callback
  | unlisten pattern => exact Event.keeps_unlisten hr h.modifyEvent hsend pattern
  | _ => exact he.elim

/-- What a connection answers with, if every change of state is kept -/
theorem EventAside.responsive (hchanges : KeepsChanges Inv) (n : Nat)
    (hrefused : ∀ m, Keeps C P Inv (Program.leave (.refused m)))
    (hhandshake : ∀ m buffer, m.header.topic = .connection ∨ m.header.topic = .auth →
      Keeps C P Inv (Program.ask (.wsSend m buffer)))
    (hpresence : ∀ m, Keeps C P Inv (Presence.notify m)) : Responsive C P Inv n where
  toHandshakes := by
    have hset := fun s w (_ : s = .open → w.state.state = .open) (hw : Inv w) =>
      h.setState hchanges n s w hw
    apply h.routine.handshakes h.sending hrefused hset fun m buffer hm => hhandshake m buffer (.inl hm)
    apply Connection.keeps_sendAuthenticationRequest h.routine
    intro m hm
    exact h.routine.sendHandshake h.sending m (.inr hm) (hrefused m) hset
      fun buffer => hhandshake m buffer (.inr hm)
  transition := Connection.keeps_transition h.routine (h.setState hchanges n)
  event m := Event.keeps_notify h.routine.toSubscriberRoutine (fun _ => h.modifyEvent _) m
    fun _ => h.sendWith _
  presence := hpresence

end Event

section Presence
variable [Build] (h : PresenceAside C P Inv)
include h

theorem PresenceAside.presenceSends (n : Nat) : PresenceSends C P Inv (Connection.send n) := by
  have hsend : ∀ m : MessageBuilder, m.header.topic = .presence →
      Keeps C P Inv (Connection.send n m) := by
    intro m hm
    apply h.routine.sendWith h.sending _ m (not_handshake hm (by decide))
    exact fun buffer w => h.handPresence m buffer w hm
  constructor
  · exact fun m => hsend m.val (congrArg Header.topic m.property.1)
  · exact fun m => hsend m.val (congrArg Header.topic m.property.1)
  · exact fun m => hsend m.val (congrArg Header.topic m.property.1)

/-- The entries about presence -/
theorem PresenceAside.program (n : Nat) (e : Entry) (he : e.IsPresence) :
    Keeps C P Inv (program n e) := by
  have hr := h.routine.toSubscriberRoutine
  have hp := h.presenceSends n
  cases e with
  | presenceSubscribe callback =>
      exact Reentrant.keeps_bind (Presence.keeps_subscribe hr (fun f _ => h.modifyPresence f)
        hp.subscribe callback)
        fun _ => Reentrant.keeps_pure _
  | presenceUnsubscribeId id =>
      exact Presence.keeps_unsubscribeId hr (fun f _ => h.modifyPresence f) hp.unsubscribe id
  | presenceUnsubscribe =>
      exact Presence.keeps_unsubscribe hr (fun f _ => h.modifyPresence f) hp.unsubscribe
  | getAll f => exact Presence.keeps_getAll hr f (h.modifyPresence _) hp.query
  | _ => exact he.elim

end Presence

section Aside
variable [Build] (h : Aside C P Inv)
include h

/-- The entries about events and presence -/
theorem Aside.program (n : Nat) (e : Entry) (he : e.IsAside) : Keeps C P Inv (program n e) := by
  cases e with
  | emit | subscribe | unsubscribe | unsubscribeId | listen | unlisten =>
      exact h.toEventAside.program n _ trivial
  | presenceSubscribe | presenceUnsubscribeId | presenceUnsubscribe | getAll =>
      exact h.toPresenceAside.program n _ trivial
  | _ => exact he.elim

/-- What a connection answers with, if every change of state is kept -/
theorem Aside.responsive (hchanges : KeepsChanges Inv) (n : Nat)
    (hrefused : ∀ m, Keeps C P Inv (Program.leave (.refused m)))
    (hconnection : ∀ m buffer, m.header.topic = .connection →
      Keeps C P Inv (Program.ask (.wsSend m buffer)))
    (hrequest : Keeps C P Inv (Connection.sendAuthenticationRequest n)) :
    Responsive C P Inv n where
  toHandshakes := h.routine.handshakes h.sending hrefused
    (fun s w _ hw => h.setState hchanges n s w hw) hconnection hrequest
  transition := Connection.keeps_transition h.routine (h.setState hchanges n)
  event m := Event.keeps_notify h.routine.toSubscriberRoutine (fun _ => h.modifyEvent _) m
    fun _ => h.sendWith _
  presence m := Presence.keeps_notify h.routine.toSubscriberRoutine m (fun _ => h.modifyPresence _)
    (fun _ => h.queryFn) fun _ => h.modifyPresence _

end Aside

/-- The entries that are about the connection itself -/
theorem Connection.keeps_program [Build] {n : Nat} (hr : Routine C P Inv)
    (hs : SocketRoutine C P Inv) (hn : Handshakes C P Inv n)
    (hsetState : ∀ s, s ≠ .open → Keeps C P Inv (Connection.setState n s))
    (hmessage : ∀ m, Keeps C P Inv (Connection.handleMessage n m))
    (hlogin : ∀ auth callback, Keeps C P Inv (Prog.modify fun c : Client =>
      { c with loginCallback := some callback, authParams := some auth }))
    (e : Entry) (he : ¬e.IsAside) : Keeps C P Inv (program n e) := by
  cases e with
  | construct uri => exact Connection.keeps_construct hr hs uri
  | onOpen => exact Connection.keeps_onOpen hs hsetState
  | onClose | onError =>
      exact Connection.keeps_onClose hs (hsetState .closed nofun) (hsetState .reconnecting nofun)
  | onMessage raw => exact Connection.keeps_onMessage hr raw hmessage
  | login auth callback =>
      exact Connection.keeps_login hn.authenticationRequest auth callback (hlogin _ _)
  | close => exact hs.close
  | _ => exact absurd trivial he

end Deepstream
