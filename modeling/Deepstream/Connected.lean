import Deepstream.Client.Socket
import Deepstream.Handshake

/-!
The socket of a connection.

Whether the socket is open can be told from what the client was told about it.
A connection that has not just been told of its end is in one of the states
after `on_open` only while the socket is open, in any environment, and nothing
but a heartbeat is handed to a socket that is not open.
-/

namespace Deepstream

open Reentrant (Keeps Policy Prog Regime wp)

/-- The client has just been told that its socket is not open any more. -/
def justLost : List Item → Bool
  | .enter .onClose :: _ | .enter (.onError _) :: _ => true
  | _ => false

/-- `C|PO` -/
def MessageBuilder.IsPong (m : MessageBuilder) : Prop :=
  m.header.topic = .connection ∧ m.header.action = .pong

instance (m : MessageBuilder) : Decidable m.IsPong :=
  inferInstanceAs (Decidable (_ ∧ _))

theorem justLost_of_paused {w : World} (h : w.Paused) : justLost w.trace = false := by
  unfold justLost
  split
  · next t htrace => exact absurd (by rw [htrace]; rfl) (h .onClose)
  · next error t htrace => exact absurd (by rw [htrace]; rfl) (h (.onError error))
  · rfl

/-- A message is handed over. -/
def Item.isHanding : Item → Bool
  | .call (.wsSend _ _) => true
  | _ => false

/-- Every message was handed to an open socket, heartbeats aside. -/
def HandedOpen : List Item → Prop
  | [] => True
  | .call (.wsSend m _) :: t => (m.IsPong ∨ socketOpen t = true) ∧ HandedOpen t
  | _ :: t => HandedOpen t

/-- What is true of a client while one of its programs runs -/
structure IsConnected (w : World) : Prop where
  alive : w.state.state.IsAlive → socketOpen w.trace = true
  handed : HandedOpen w.trace

def connectedness : Regime interface where
  quiet _ := false
  inv _ w := (justLost w.trace = false → w.state.state.IsAlive →
    socketOpen w.trace = true) ∧ HandedOpen w.trace
  rel _ _ _ := True
  pre e w := ∃ t, w.trace = .enter e :: t
  abort _ _ := True

theorem Outgoes.alive {state s : ConnectionState} {topic : Topic} {action : Action}
    (h : Outgoes state topic action s) (hs : s.IsAlive) : state.IsAlive := by
  cases h with
  | pong => exact hs
  | challengeResponse | request => decide

theorem Outgoes.pong_or_alive {state s : ConnectionState} {topic : Topic} {action : Action}
    (h : Outgoes state topic action s) :
    (topic = .connection ∧ action = .pong) ∨ state.IsAlive := by
  cases h with
  | pong => exact .inl ⟨rfl, rfl⟩
  | challengeResponse | request => exact .inr (by decide)

theorem Incomes.alive {state s : ConnectionState} {topic : Topic} {action : Action}
    (h : Incomes state topic action s) (hs : s.IsAlive) : state.IsAlive := by
  cases h with
  | ping => exact hs
  | _ => decide

theorem handedOpen_silent {i : Item} (hi : i.isHanding = false) {t : List Item}
    (h : HandedOpen t) : HandedOpen (i :: t) := by
  cases i with
  | call c =>
      cases c with
      | wsSend m buffer => cases hi
      | _ => exact h
  | _ => exact h

section Programs
variable {P : Policy interface} {α : Type}

theorem IsConnected.inv {w : World} (h : IsConnected w) : connectedness.inv false w :=
  ⟨fun _ => h.alive, h.handed⟩

/-- Something has happened that is no entry, and no message was handed over. -/
theorem IsConnected.cons {w w' : World} (h : IsConnected w) {i : Item}
    (htrace : w'.trace = i :: w.trace) (henter : ∀ e, i ≠ .enter e)
    (hhanded : HandedOpen (i :: w.trace)) (hstate : w'.state.state = w.state.state) :
    IsConnected w' := by
  constructor
  · rw [htrace, socketOpen_of_not_enter henter, hstate]
    exact h.alive
  · rw [htrace]
    exact hhanded

theorem connectedly_modify {f : Client → Client} (hf : ∀ c, (f c).state = c.state) :
    Keeps connectedness.contract P IsConnected (Prog.modify f) :=
  Reentrant.keeps_modify fun w hw => ⟨fun hs => hw.alive (hf w.state ▸ hs), hw.handed⟩

theorem connectedly_leave (n : Note) :
    Keeps connectedness.contract P IsConnected (Program.leave n) :=
  Reentrant.keeps_leave fun _ hw =>
    hw.cons (i := .note n) rfl nofun (handedOpen_silent rfl hw.handed) rfl

/-- A call returns to a client that has been told of the end of its connection and has dealt with
it. -/
theorem wp_ask_connected {c : Call} {w : World} (hw : IsConnected w)
    (hhanded : HandedOpen (.call c :: w.trace)) :
    wp connectedness.contract P (Program.ask c) (fun _ => IsConnected) (fun _ => IsConnected)
      w := by
  have hcalling : IsConnected (Reentrant.World.calling w c) :=
    hw.cons (i := .call c) rfl nofun hhanded rfl
  apply Reentrant.wp_ask
  · exact ⟨hcalling.inv, _, rfl⟩
  · intro w' hduring hafter
    have hpaused := hduring.inCall.paused
    have hw' : IsConnected w' := ⟨hafter.1.1 (justLost_of_paused hpaused), hafter.1.2⟩
    have hreturned : ∀ r, IsConnected (w'.returned c r) := fun r =>
      hw'.cons (i := .back c r) rfl nofun (handedOpen_silent rfl hw'.handed) rfl
    exact ⟨fun a _ => hreturned _, fun x _ => hreturned _⟩

theorem connectedly_ask {c : Call} (hc : Item.isHanding (.call c) = false) :
    Keeps connectedness.contract P IsConnected (Program.ask c) :=
  fun _ hw => wp_ask_connected hw (handedOpen_silent hc hw.handed)

theorem routine_connected : Routine connectedness.contract P IsConnected where
  abort _ _ _ := trivial
  ask c hc := by
    apply connectedly_ask
    cases c with
    | wsSend m buffer => cases hc
    | _ => rfl
  nextId := Reentrant.keeps_read_bind fun _ =>
    Reentrant.keeps_bind (connectedly_modify fun _ => rfl) fun _ => Reentrant.keeps_pure _

/-- A message is handed over in an active state. -/
theorem wp_hand_connected (m : MessageBuilder) (buffer : Buffer) {w : World}
    (hm : m.IsPong ∨ socketOpen w.trace = true) (hw : IsConnected w) :
    wp connectedness.contract P (Program.ask (.wsSend m buffer)) (fun _ => IsConnected)
      (fun _ => IsConnected) w :=
  wp_ask_connected hw ⟨hm, hw.handed⟩

theorem aside_connected : Aside connectedness.contract P IsConnected where
  routine := routine_connected
  modifyEvent _ := connectedly_modify fun _ => rfl
  modifyPresence _ := connectedly_modify fun _ => rfl
  queryFn _ _ := connectedly_ask rfl
  emitted _ := connectedly_leave _
  sending _ := connectedly_leave _
  handEvent m buffer w _ hopen hw :=
    wp_hand_connected m buffer (.inr (hw.alive (by rw [hopen]; decide))) hw
  handPresence m buffer w _ hopen hw :=
    wp_hand_connected m buffer (.inr (hw.alive (by rw [hopen]; decide))) hw

theorem socketRoutine_connected : SocketRoutine connectedness.contract P IsConnected where
  setUri _ := connectedly_ask rfl
  wsOpen := connectedly_ask rfl
  close := Connection.keeps_close (connectedly_modify fun _ => rfl) (connectedly_ask rfl)
  attempt _ := connectedly_modify fun _ => rfl

theorem IsConnected.became {w : World} (hhanded : HandedOpen w.trace) {s : ConnectionState}
    (hs : s.IsAlive → socketOpen w.trace = true) :
    IsConnected (Reentrant.World.noted { w with state := { w.state with state := s } }
      (.became { w.state with state := s })) :=
  ⟨hs, hhanded⟩

section Handlers
variable [Build] {n : Nat}

/-- A change of state, to an active one only while the socket is open -/
theorem wp_setState_connected {s : ConnectionState} {w : World} (hw : IsConnected w)
    (hs : s.IsAlive → socketOpen w.trace = true) :
    wp connectedness.contract P (Connection.setState n s) (fun _ => IsConnected)
      (fun _ => IsConnected) w :=
  aside_connected.wp_setState (fun _ => hw) fun _ => .became hw.handed hs

/-- A message of the handshake is handed over right after its change of state, or it is a
heartbeat. -/
theorem connectedly_send (m : MessageBuilder)
    (hm : m.header.topic = .connection ∨ m.header.topic = .auth) :
    Keeps connectedness.contract P IsConnected (Connection.send n m) := by
  intro w hw
  have hnoted : IsConnected (w.noted (.sending m)) := connectedly_leave (P := P) _ w hw
  have htransmit : ∀ w' : World, m.IsPong ∨ socketOpen w'.trace = true → IsConnected w' →
      wp connectedness.contract P (Connection.transmit m) (fun _ => IsConnected)
        (fun _ => IsConnected) w' := by
    intro w' hhand hw'
    unfold Connection.transmit
    rw [Reentrant.wp_bind]
    apply wp_lift
    · exact fun buffer _ => wp_hand_connected m buffer hhand hw'
    · exact fun _ _ => hw'
    · exact fun _ _ => trivial
  apply wp_send_handshake (fun _ _ => trivial) hm
  · exact fun _ _ => connectedly_leave (P := P) _ _ hnoted
  · intro s _ hout
    have hhand : m.IsPong ∨ socketOpen w.trace = true :=
      hout.pong_or_alive.imp_right hw.alive
    rw [Reentrant.wp_bind]
    apply wp_setState (w := w.noted (.sending m)) (fun _ _ => trivial) hout.open
    · exact fun _ => htransmit _ hhand hnoted
    · exact fun _ => htransmit _ hhand (.became hnoted.handed fun hs => hw.alive (hout.alive hs))

theorem handshakes_connected : Handshakes connectedness.contract P IsConnected n where
  pong m := connectedly_send m.val (.inl (congrArg Header.topic m.property.1))
  challengeResponse _ m := connectedly_send m.val (.inl (congrArg Header.topic m.property.1))
  authenticationRequest := Connection.keeps_sendAuthenticationRequest routine_connected
    fun m hm => connectedly_send m (.inr hm)

/-- An active state is reached from an active one. -/
theorem connectedly_transition (m : MessageProxy) :
    Keeps connectedness.contract P IsConnected (Connection.transition n m) := by
  intro w hw
  unfold Connection.transition
  rw [Reentrant.wp_bind, Reentrant.wp_read, Reentrant.wp_bind]
  apply wp_lift
  · intro s hs
    rw [Reentrant.wp_bind, wp_when]
    refine ⟨fun herror => ?_, fun hne => ?_⟩
    · apply Reentrant.wp_mono (routine_connected.report _ w hw)
      · intro _ w' hw'
        rw [herror]
        exact wp_setState_connected hw' fun halive => absurd rfl halive.2.2
      · exact fun _ _ h => h
    · have hin := (transitionIncoming_eq_ok hs).2.resolve_right fun h => hne h.1
      exact wp_setState_connected hw fun halive => hw.alive (hin.alive halive)
  · exact fun _ _ => hw
  · exact fun _ _ => trivial

theorem responsive_connected : Responsive connectedness.contract P IsConnected n where
  toHandshakes := handshakes_connected
  transition := connectedly_transition
  event m := Event.keeps_notify routine_connected.toSubscriberRoutine
    (fun _ => connectedly_modify fun _ => rfl) m
    fun _ => aside_connected.toEventAside.sendWith _
  presence m := Presence.keeps_notify routine_connected.toSubscriberRoutine m
    (fun _ => connectedly_modify fun _ => rfl) (fun _ => aside_connected.queryFn)
    fun _ => connectedly_modify fun _ => rfl

theorem connectedly_onMessage (raw : Buffer) :
    Keeps connectedness.contract P IsConnected (Connection.onMessage n raw) :=
  Connection.keeps_onMessage routine_connected raw fun m =>
    Connection.keeps_handleMessage routine_connected responsive_connected
      socketRoutine_connected.setUri socketRoutine_connected.close m
      (fun _ _ _ _ => connectedly_ask rfl) fun _ => connectedly_leave _

theorem wp_onOpen_connected {w : World} (hw : IsConnected w) (hopen : socketOpen w.trace = true) :
    wp connectedness.contract P (Connection.onOpen n) (fun _ => IsConnected)
      (fun _ => IsConnected) w := by
  unfold Connection.onOpen
  rw [Reentrant.wp_bind, Reentrant.wp_modify]
  exact wp_setState_connected ⟨hw.alive, hw.handed⟩ fun _ => hopen

/-- Whatever the state was, the connection leaves it before anything else can happen. -/
theorem wp_lose_connected {s : ConnectionState} (hs : ¬s.IsAlive) (hopen : s ≠ .open) {w : World}
    (hhanded : HandedOpen w.trace) :
    wp connectedness.contract P (Connection.setState n s) (fun _ => IsConnected)
      (fun _ => IsConnected) w := by
  apply wp_setState (fun _ _ => trivial) fun h => absurd h hopen
  · exact fun hsame => ⟨fun halive => absurd (hsame ▸ halive) hs, hhanded⟩
  · exact fun _ => .became hhanded fun halive => absurd halive hs

theorem wp_onClose_connected {w : World} (hhanded : HandedOpen w.trace) :
    wp connectedness.contract P (Connection.onClose n) (fun _ => IsConnected)
      (fun _ => IsConnected) w := by
  unfold Connection.onClose
  rw [Reentrant.wp_bind, Reentrant.wp_read]
  split
  · exact wp_lose_connected (s := .closed) (by decide) nofun hhanded
  · rw [Reentrant.wp_bind, Reentrant.wp_modify, Reentrant.wp_bind]
    have hcounted : HandedOpen ({ w with state := { w.state with
        reconnectionAttempt := w.state.reconnectionAttempt + 1 } } : World).trace := hhanded
    apply Reentrant.wp_mono (wp_lose_connected (s := .reconnecting) (by decide) nofun hcounted)
    · exact fun _ w' hw' => socketRoutine_connected.wsOpen w' hw'
    · exact fun _ _ h => h

theorem wp_program_connected (e : Entry) {w : World} (hinv : connectedness.inv false w)
    (htrace : ∃ t, w.trace = .enter e :: t) :
    wp connectedness.contract P (program n e) (fun _ => IsConnected) (fun _ => IsConnected) w := by
  obtain ⟨t, htrace⟩ := htrace
  have hw : justLost w.trace = false → IsConnected w := fun hlost => ⟨hinv.1 hlost, hinv.2⟩
  rw [htrace] at hw
  cases e with
  | onOpen => exact wp_onOpen_connected (hw rfl) (by rw [htrace]; rfl)
  | onClose => exact wp_onClose_connected hinv.2
  | onError error => exact wp_onClose_connected hinv.2
  | onMessage raw => exact connectedly_onMessage raw w (hw rfl)
  | construct uri =>
      exact Connection.keeps_construct routine_connected socketRoutine_connected uri w (hw rfl)
  | login auth callback =>
      exact Connection.keeps_login handshakes_connected.authenticationRequest auth callback
        (connectedly_modify fun _ => rfl) w (hw rfl)
  | close => exact socketRoutine_connected.close w (hw rfl)
  | _ =>
      refine aside_connected.program n _ ?_ w (hw rfl)
      trivial

theorem connectedness_sound : connectedness.Sound P (program n) where
  refl _ _ := trivial
  trans _ _ _ _ _ _ := trivial
  enter w c e hcall hinv _ := by
    refine ⟨⟨fun hlost halive => ?_, hinv.2⟩, trivial, w.trace, rfl⟩
    have hopen := hinv.1 (justLost_of_paused hcall.paused) halive
    cases e with
    | onOpen => rfl
    | onClose | onError _ => cases hlost
    | _ => exact hopen
  entry e w hinv hpre := by
    have hleft : ∀ r, ∀ w' : World, IsConnected w' →
        connectedness.inv (connectedness.background w) (w'.left e r) ∧
          connectedness.rel (connectedness.background w) w (w'.left e r) :=
      fun r w' hw' => ⟨⟨fun _ => hw'.alive, hw'.handed⟩, trivial⟩
    exact Reentrant.wp_mono (wp_program_connected e hinv hpre) (fun _ => hleft _) fun _ => hleft _

/-- A connection that waits is in an active state only while its socket is open, and nothing but
heartbeats has been handed to a socket that was not. -/
theorem connected_of_reaches {uri : Buffer} {cfg : Reentrant.Config interface}
    (hreach : Reaches P n uri cfg) (hrunning : cfg.fault = none) : IsConnected cfg.world := by
  have hstart : ∀ w : World, w.state = {} → HandedOpen w.trace → connectedness.inv false w := by
    intro w hstate hhanded
    refine ⟨fun _ halive => ?_, hhanded⟩
    rw [hstate] at halive
    exact absurd rfl halive.1
  have hholds := (connectedness_sound (P := P)).holds (hstart _ rfl trivial)
    ⟨hstart _ rfl trivial, _, rfl⟩ hreach
  unfold Regime.Holds at hholds
  rw [hrunning] at hholds
  obtain ⟨hpaused, ⟨-, hinv⟩ | ⟨_, _, -, hinv⟩⟩ := hholds
  · exact ⟨hinv.1 (justLost_of_paused hpaused), hinv.2⟩
  · exact ⟨hinv.1 (justLost_of_paused hpaused), hinv.2⟩

end Handlers
end Programs
end Deepstream
