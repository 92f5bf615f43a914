import Deepstream.Client.Aside
import Deepstream.Client.Socket

/-!
The order in which a client speaks on a connection.

A connection begins when the socket is opened or the server redirects the
client. From then on the messages that are handed over and those that are
handled take it from one stage to the next, and the state of the client says
which stage it can be at. Heartbeats are left aside.
-/

namespace Deepstream

open Reentrant (Keeps Policy Prog Regime wp)

/-- What has come to pass on a connection -/
inductive Stage where
  /-- Nothing was handed over, and no challenge was handled. -/
  | fresh
  /-- A challenge was handled. -/
  | challenged
  /-- After that one `C|CHR` was handed over. -/
  | answered
  /-- After that a message about the response to the challenge was handled. -/
  | accepted
  /-- After that one or more `A|REQ` were handed over. -/
  | requested
  /-- After the first of them an answer to a request was handled. -/
  | acknowledged
  /-- After that messages about events and presence were handed over. -/
  | speaking
  deriving DecidableEq

/-- A message is handled, by a client as it was before. -/
def Stage.handle (m : MessageProxy) (c : Client) (stage : Stage) : Stage :=
  match m.header.topic, m.header.action, stage with
  | .connection, .redirect, stage => if c.state = .challengingWait then .fresh else stage
  | .connection, .challenge, .fresh => .challenged
  | .connection, .challengeResponse, .answered => .accepted
  | .auth, .request, .requested => .acknowledged
  | _, _, stage => stage

/-- A message is handed over, if it may be. -/
def Stage.hand (m : MessageBuilder) (stage : Stage) : Option Stage :=
  match m.header.topic, m.header.action, stage with
  | .connection, .pong, stage => some stage
  | .connection, .challengeResponse, .challenged => some .answered
  | .auth, .request, .accepted | .auth, .request, .requested => some .requested
  | .auth, .request, .acknowledged => some .acknowledged
  | .event, _, .acknowledged | .event, _, .speaking => some .speaking
  | .presence, _, .acknowledged | .presence, _, .speaking => some .speaking
  | _, _, _ => none

/-- The stage of the connection after some history, unless it was left out of order -/
def stageOf : List Item → Option Stage
  | [] => some .fresh
  | .enter .onOpen :: t => (stageOf t).map fun _ => .fresh
  | .note (.dispatched m c) :: t => (stageOf t).map (Stage.handle m c)
  | .call (.wsSend m _) :: t => (stageOf t).bind (Stage.hand m)
  | _ :: t => stageOf t

/-- The stages at which a client can be in a state -/
def Fits : ConnectionState → Stage → Prop
  | .awaitConnection, stage => stage = .fresh ∨ stage = .challenged
  | .challenging, stage => stage = .challenged
  | .challengingWait, stage => stage = .answered
  | .awaitAuthentication, stage =>
      stage = .accepted ∨ stage = .requested ∨ stage = .acknowledged
  | .authenticating, stage => stage = .requested ∨ stage = .acknowledged
  | .open, stage => stage = .acknowledged ∨ stage = .speaking
  | .closed, _ | .reconnecting, _ | .error, _ => True

/-- No login callback returns while the request on the connection is unanswered, and addresses and
authentication data can be written. -/
def patientLogin : Policy interface where
  enter _ e := match e with
    | .login auth _ => auth.length < 2 ^ 31
    | _ => True
  back w c r := match c, r with
    | .loginCallback _ _, .ok () =>
        w.state.state = .authenticating → stageOf w.trace ≠ some .requested
    | .uri, .ok uri => uri.length < 2 ^ 31
    | _, _ => True

instance (w : World) : (e : Entry) → Decidable (patientLogin.enter w e)
  | .login auth _ => inferInstanceAs (Decidable (auth.length < 2 ^ 31))
  | .construct _ | .onOpen | .onClose | .onError _ | .onMessage _ | .close | .emit _ _ |
    .subscribe _ _ | .unsubscribe _ | .unsubscribeId _ _ | .listen _ _ | .unlisten _ |
    .presenceSubscribe _ | .presenceUnsubscribeId _ | .presenceUnsubscribe | .getAll _ =>
      instDecidableTrue

instance (w : World) : (c : Call) → (r : Except Exception c.Answer) →
    Decidable (patientLogin.back w c r)
  | .loginCallback _ _, .ok () => inferInstanceAs (Decidable
      (w.state.state = .authenticating → stageOf w.trace ≠ some .requested))
  | .loginCallback _ _, .error _ => instDecidableTrue
  | .uri, .ok uri => inferInstanceAs (Decidable (uri.length < 2 ^ 31))
  | .uri, .error _ => instDecidableTrue
  | .idle, _ | .errorHandler _ _, _ | .wsState, _ | .setUri _, _ | .wsOpen, _ | .wsClose, _ |
    .wsSend _ _, _ | .subscribeFn _ _, _ | .listenFn _ _ _, _ | .presenceFn _ _ _, _ |
    .queryFn _ _, _ => instDecidableTrue

/-- What takes a connection to another stage -/
def Item.isStep : Item → Bool
  | .enter .onOpen | .note (.dispatched _ _) | .call (.wsSend _ _) => true
  | _ => false

theorem stageOf_cons {i : Item} (hi : i.isStep = false) (t : List Item) :
    stageOf (i :: t) = stageOf t := by
  rw [stageOf.eq_def]
  split
  · next h => cases h
  · next h =>
      cases h
      cases hi
  · next h =>
      cases h
      cases hi
  · next h =>
      cases h
      cases hi
  · next h =>
      cases h
      rfl

namespace Fits
variable {state s : ConnectionState} {stage : Stage}

/-- What is permitted in a state is in order at its stages. -/
theorem hand (h : Fits state stage) (hstate : state ≠ .error) {m : MessageBuilder}
    (hout : Outgoes state m.header.topic m.header.action s) :
    ∃ stage', stage.hand m = some stage' ∧ Fits s stage' := by
  unfold Stage.hand
  generalize m.header.topic = topic, m.header.action = action at hout
  cases hout with
  | pong => exact ⟨stage, rfl, h⟩
  | challengeResponse =>
      cases h
      exact ⟨.answered, rfl, rfl⟩
  | request =>
      obtain rfl | rfl | rfl := h
      · exact ⟨.requested, rfl, .inl rfl⟩
      · exact ⟨.requested, rfl, .inl rfl⟩
      · exact ⟨.acknowledged, rfl, .inr rfl⟩

theorem hand_open (h : Fits .open stage) {m : MessageBuilder}
    (hm : m.header.topic = .event ∨ m.header.topic = .presence) :
    stage.hand m = some .speaking := by
  unfold Stage.hand
  obtain rfl | rfl := h <;> obtain htopic | htopic := hm <;> rw [htopic]

/-- A message about the connection takes its state to where its stage is. -/
theorem handle_connection {m : MessageProxy} {c : Client} (h : Fits c.state stage)
    (hm : m.header.topic = .connection) :
    (∀ s, Incomes c.state m.header.topic m.header.action s → Fits s (stage.handle m c)) ∧
      ((∀ s, ¬Incomes c.state m.header.topic m.header.action s) →
        Fits c.state (stage.handle m c)) := by
  unfold Stage.handle
  generalize m.header.topic = topic, m.header.action = action, c.state = state at h hm ⊢
  subst hm
  constructor
  · intro s hin
    cases hin with
    | ping => exact h
    | challenge =>
        obtain rfl | rfl := h
        · exact rfl
        · exact rfl
    | challengeResponse =>
        cases h
        exact .inl rfl
    | redirect => exact .inl (if_pos rfl)
    | reject => trivial
    | «open» =>
        split
        · rw [if_neg nofun]
          exact h
        · simp [Fits] at h
        · simp [Fits] at h
        · next heq => cases heq
        · exact h
  · intro hno
    split
    · split
      · next hstate => exact absurd (hstate ▸ .redirect) (hno .awaitConnection)
      · exact h
    · cases state with
      | awaitConnection => exact absurd .challenge (hno .challenging)
      | closed | reconnecting | error => trivial
      | _ => simp [Fits] at h
    · cases state with
      | challengingWait => exact absurd .challengeResponse (hno .awaitAuthentication)
      | closed | reconnecting | error => trivial
      | _ => simp [Fits] at h
    · next heq => cases heq
    · exact h

/-- Other messages are handled at the stages of the state they find. -/
theorem handle {m : MessageProxy} {c : Client} (h : Fits c.state stage)
    (hm : m.header.topic ≠ .connection) : Fits c.state (stage.handle m c) := by
  unfold Stage.handle
  split
  · next htopic _ => exact absurd htopic hm
  · next htopic _ => exact absurd htopic hm
  · next htopic _ => exact absurd htopic hm
  · cases hstate : c.state with
    | awaitAuthentication => exact .inr (.inr rfl)
    | authenticating => exact .inr rfl
    | closed | reconnecting | error => trivial
    | _ =>
        rw [hstate] at h
        simp [Fits] at h
  · exact h

/-- A message about authentication that is expected leads to a state of the same stage, if the
request was answered where it is an answer. -/
theorem income {action : Action} (h : Fits state stage) (hin : Incomes state .auth action s)
    (hrequest : action = .request → state = .authenticating → stage ≠ .requested) :
    Fits s stage := by
  cases hin with
  | request => exact .inl (h.resolve_left (hrequest rfl rfl))
  | tooManyAuthAttempts | invalidAuthMsg => trivial
  | invalidAuthData => exact .inr h
  | «open» => exact h

end Fits

/-- An answer leaves no request unanswered. -/
theorem Stage.handle_ne_requested {m : MessageProxy} (c : Client) (stage : Stage)
    (htopic : m.header.topic = .auth) (haction : m.header.action = .request) :
    stage.handle m c ≠ .requested := by
  unfold Stage.handle
  rw [htopic, haction]
  cases stage <;> exact nofun

/-- The connection is at a stage of the client's state, and the client can write its request. -/
structure OnCourse (w : World) : Prop where
  stage : ∃ stage, stageOf w.trace = some stage ∧ Fits w.state.state stage
  authParams : ∀ auth, w.state.authParams = some auth → auth.length < 2 ^ 31

/-- An entry begins where the client was on course, and `on_open` is not yet there. -/
def progress : Regime interface where
  quiet _ := false
  inv _ w := w.Paused → OnCourse w
  rel _ _ _ := True
  pre e w := ∃ w', OnCourse w' ∧ patientLogin.enter w' e ∧ w = w'.entered e
  abort _ _ := True

namespace OnCourse
variable {w w' : World}

theorem same (h : OnCourse w) (htrace : stageOf w'.trace = stageOf w.trace)
    (hstate : w'.state.state = w.state.state)
    (hauth : w'.state.authParams = w.state.authParams) : OnCourse w' := by
  obtain ⟨⟨stage, hstage, hfits⟩, hparams⟩ := h
  exact ⟨⟨stage, htrace.trans hstage, hstate ▸ hfits⟩, hauth ▸ hparams⟩

theorem cons (h : OnCourse w) {i : Item} (hi : i.isStep = false) (htrace : w'.trace = i :: w.trace)
    (hstate : w'.state = w.state) : OnCourse w' :=
  h.same (by rw [htrace, stageOf_cons hi]) (by rw [hstate]) (by rw [hstate])

theorem became (h : OnCourse w) {s : ConnectionState} {stage : Stage}
    (hstage : stageOf w.trace = some stage) (hfits : Fits s stage) :
    OnCourse (Reentrant.World.noted { w with state := { w.state with state := s } }
      (.became { w.state with state := s })) :=
  ⟨⟨stage, (stageOf_cons rfl w.trace).trans hstage, hfits⟩, h.authParams⟩

end OnCourse

section Programs
variable {α : Type}

abbrev Proceeds (p : Program α) : Prop :=
  Keeps progress.contract patientLogin OnCourse p

theorem proceeds_modify {f : Client → Client} (hstate : ∀ c, (f c).state = c.state)
    (hauth : ∀ c, (f c).authParams = c.authParams) : Proceeds (Prog.modify f) :=
  Reentrant.keeps_modify fun _ hw => hw.same rfl (hstate _) (hauth _)

theorem proceeds_leave {n : Note} (hn : Item.isStep (.note n) = false) :
    Proceeds (Program.leave n) :=
  Reentrant.keeps_leave fun _ hw => hw.cons hn rfl rfl

/-- A call that keeps the course, and what is known when it returns -/
theorem wp_ask_progress {c : Call} {w : World} {Q : c.Answer → World → Prop}
    (hcalling : OnCourse (Reentrant.World.calling w c))
    (hreturned : ∀ a w', OnCourse w' → patientLogin.back w' c (.ok a) →
      Q a (w'.returned c (.ok a))) :
    wp progress.contract patientLogin (Program.ask c) Q (fun _ => OnCourse) w := by
  apply Reentrant.wp_ask
  · exact ⟨fun _ => hcalling, _, rfl⟩
  · intro w' hduring hafter
    have hw' : OnCourse w' := hafter.1 hduring.inCall.paused
    exact ⟨fun a hback => hreturned a w' hw' hback, fun _ _ => hw'.cons rfl rfl rfl⟩

theorem proceeds_ask {c : Call} (hc : Item.isStep (.call c) = false) : Proceeds (Program.ask c) :=
  fun _ hw => wp_ask_progress (hw.cons hc rfl rfl) fun _ _ hw' _ => hw'.cons rfl rfl rfl

/-- A message is handed over where it is in order. -/
theorem wp_hand_progress {m : MessageBuilder} {buffer : Buffer} {w : World} {stage : Stage}
    (hstage : ((stageOf w.trace).bind (Stage.hand m)) = some stage)
    (hfits : Fits w.state.state stage)
    (hauth : ∀ auth, w.state.authParams = some auth → auth.length < 2 ^ 31) :
    wp progress.contract patientLogin (Program.ask (.wsSend m buffer)) (fun _ => OnCourse)
      (fun _ => OnCourse) w :=
  wp_ask_progress ⟨⟨stage, hstage, hfits⟩, hauth⟩ fun _ _ hw' _ => hw'.cons rfl rfl rfl

theorem wp_handOver_progress {m : MessageBuilder} {buffer : Buffer} {w : World}
    (hm : m.header.topic = .event ∨ m.header.topic = .presence) (hopen : w.state.state = .open)
    (hw : OnCourse w) :
    wp progress.contract patientLogin (Program.ask (.wsSend m buffer)) (fun _ => OnCourse)
      (fun _ => OnCourse) w := by
  obtain ⟨⟨stage, hstage, hfits⟩, hauth⟩ := hw
  rw [hopen] at hfits
  have hhand : (stageOf w.trace).bind (Stage.hand m) = some .speaking := by
    rw [hstage]
    exact hfits.hand_open hm
  have hspeaking : Fits w.state.state .speaking := by
    rw [hopen]
    exact .inr rfl
  exact wp_hand_progress hhand hspeaking hauth

theorem routine_progress : Routine progress.contract patientLogin OnCourse where
  abort _ _ _ := trivial
  ask c hc := by
    apply proceeds_ask
    cases c with
    | wsSend => cases hc
    | _ => rfl
  nextId := Reentrant.keeps_read_bind fun _ =>
    Reentrant.keeps_bind (proceeds_modify (fun _ => rfl) fun _ => rfl) fun _ =>
      Reentrant.keeps_pure _

theorem aside_progress : Aside progress.contract patientLogin OnCourse where
  routine := routine_progress
  modifyEvent _ := proceeds_modify (fun _ => rfl) fun _ => rfl
  modifyPresence _ := proceeds_modify (fun _ => rfl) fun _ => rfl
  queryFn _ _ := proceeds_ask rfl
  emitted _ := proceeds_leave rfl
  sending _ := proceeds_leave rfl
  handEvent _ _ _ hm hopen hw := wp_handOver_progress (.inl hm) hopen hw
  handPresence _ _ _ hm hopen hw := wp_handOver_progress (.inr hm) hopen hw

theorem socketRoutine_progress : SocketRoutine progress.contract patientLogin OnCourse where
  setUri _ := proceeds_ask rfl
  wsOpen := proceeds_ask rfl
  close := Connection.keeps_close (proceeds_modify (fun _ => rfl) fun _ => rfl) (proceeds_ask rfl)
  attempt _ := proceeds_modify (fun _ => rfl) fun _ => rfl

section Handlers
variable [Build] {n : Nat}

/-- The state is left for one that has every stage. -/
theorem proceeds_setState (s : ConnectionState) (hs : ∀ stage, Fits s stage) :
    Proceeds (Connection.setState n s) := by
  intro w hw
  apply aside_progress.wp_setState (fun _ => hw)
  intro _
  obtain ⟨stage, hstage, -⟩ := hw.stage
  exact hw.became hstage (hs stage)

/-- A message of the handshake is handed over right after its change of state. -/
theorem proceeds_send {m : MessageBuilder} (h : TableHeader) (hheader : m.header = h.val)
    (hm : m.header.topic = .connection ∨ m.header.topic = .auth)
    (hsmall : m.payloadSize < 2 ^ 31) : Proceeds (Connection.send n m) := by
  intro w hw
  have hnoted : OnCourse (w.noted (.sending m)) := proceeds_leave rfl w hw
  have htransmit : ∀ w' : World, (∃ stage, (stageOf w'.trace).bind (Stage.hand m) = some stage ∧
        Fits w'.state.state stage) → w'.state.authParams = w.state.authParams →
      wp progress.contract patientLogin (Connection.transmit m) (fun _ => OnCourse)
        (fun _ => OnCourse) w' := by
    intro w' ⟨stage, hstage, hfits⟩ hauth
    unfold Connection.transmit
    rw [Reentrant.wp_bind, (m.toBinary_eq h hheader).1 hsmall, wp_lift_ok]
    exact wp_hand_progress hstage hfits (hauth ▸ hw.authParams)
  apply wp_send_handshake (fun _ _ => trivial) hm
  · exact fun _ _ => proceeds_leave rfl _ hnoted
  · intro s hstate hout
    obtain ⟨stage, hstage, hfits⟩ := hnoted.stage
    obtain ⟨stage', hhand, hfits'⟩ := Fits.hand hfits hstate hout
    have hnext : (stageOf (w.noted (.sending m)).trace).bind (Stage.hand m) = some stage' := by
      rw [hstage]
      exact hhand
    rw [Reentrant.wp_bind]
    apply wp_setState (w := w.noted (.sending m)) (fun _ _ => trivial) hout.open
    · exact fun hsame => htransmit _ ⟨stage', hnext, hsame ▸ hfits'⟩ rfl
    · exact fun _ => htransmit _ ⟨stage', hnext, hfits'⟩ rfl

omit [Build] in
theorem payloadSize_of_arguments {m : MessageBuilder} {arguments : List Buffer}
    (h : m.arguments = arguments) : m.payloadSize = (arguments.map List.length).sum := by
  unfold MessageBuilder.payloadSize
  rw [h]

theorem proceeds_request : Proceeds (Connection.sendAuthenticationRequest n) := by
  intro w hw
  unfold Connection.sendAuthenticationRequest
  rw [Reentrant.wp_bind, Reentrant.wp_read, Reentrant.wp_bind]
  apply wp_assert_of (fun _ _ => trivial)
  intro _
  rw [Reentrant.wp_bind]
  apply wp_assert_of (fun _ _ => trivial)
  intro _
  split
  · trivial
  · next auth hauth =>
      rw [Reentrant.wp_bind]
      apply wp_build
      · exact Nat.le_succ 1
      · intro _ m
        have hheader := m.property.1
        have hsize : m.val.payloadSize = auth.length := payloadSize_of_arguments m.property.2
        apply keeps_ignore (proceeds_send ⟨_, by decide⟩ hheader _ _) w hw
        · exact .inr (congrArg Header.topic hheader)
        · rw [hsize]
          exact hw.authParams auth hauth
      · exact fun _ => hw

/-- The challenge is answered with an address that can be written. -/
theorem proceeds_challengeResponse {m : MessageProxy} (hm : m.header.action = .challenge) :
    Proceeds (Connection.connectionAction n m) := by
  intro w hw
  unfold Connection.connectionAction
  rw [hm, Reentrant.wp_bind]
  apply wp_ask_progress (hw.cons rfl rfl rfl)
  intro uri w' hw' hback
  have hw' : OnCourse (w'.returned .uri (.ok uri)) := hw'.cons rfl rfl rfl
  rw [Reentrant.wp_bind]
  apply wp_build
  · exact Nat.le_succ 1
  · intro _ m
    have hheader := m.property.1
    have hsize : m.val.payloadSize = uri.length := payloadSize_of_arguments m.property.2
    apply keeps_ignore (proceeds_send ⟨_, by decide⟩ hheader _ _) _ hw'
    · exact .inl (congrArg Header.topic hheader)
    · rw [hsize]
      exact hback
  · exact fun _ => hw'

theorem proceeds_connectionAction (m : MessageProxy) :
    Proceeds (Connection.connectionAction n m) := by
  by_cases hm : m.header.action = .challenge
  · exact proceeds_challengeResponse hm
  unfold Connection.connectionAction
  split
  · apply Reentrant.keeps_bind (routine_progress.build _ _ _)
    intro pong
    apply keeps_ignore
    apply proceeds_send ⟨_, by decide⟩ pong.property.1
    · exact .inl (congrArg Header.topic pong.property.1)
    · rw [payloadSize_of_arguments pong.property.2]
      decide
  · next haction => exact absurd haction hm
  · exact Reentrant.keeps_read_bind fun _ => Reentrant.keeps_when fun _ => proceeds_request
  · split
    · exact routine_progress.report _
    · exact Reentrant.keeps_bind (routine_progress.lift _) fun _ => proceeds_ask rfl
  · exact Reentrant.keeps_read_bind fun _ => routine_progress.report _

/-- The state goes where the stage fits, and a message that is not expected changes no stage. -/
theorem wp_transition_progress {m : MessageProxy} {w : World} {stage : Stage}
    (hstage : stageOf w.trace = some stage)
    (hexpected : ∀ s, Incomes w.state.state m.header.topic m.header.action s → Fits s stage)
    (hunexpected : (∀ s, ¬Incomes w.state.state m.header.topic m.header.action s) →
      Fits w.state.state stage)
    (hauth : ∀ auth, w.state.authParams = some auth → auth.length < 2 ^ 31) :
    wp progress.contract patientLogin (Connection.transition n m) (fun _ => OnCourse)
      (fun _ => OnCourse) w := by
  unfold Connection.transition
  rw [Reentrant.wp_bind, Reentrant.wp_read, Reentrant.wp_bind]
  apply wp_lift_asserts (fun _ _ => trivial) (onlyAsserts_transitionIncoming _ _)
  intro s hs
  have hin := (transitionIncoming_eq_ok hs).2
  rw [Reentrant.wp_bind, wp_when]
  refine ⟨fun herror => ?_, fun hne => ?_⟩
  · have hw : OnCourse w := by
      refine ⟨⟨stage, hstage, ?_⟩, hauth⟩
      obtain hin | ⟨-, hno⟩ := hin
      · rw [hin.eq_error herror]
        trivial
      · exact hunexpected hno
    apply Reentrant.wp_mono (routine_progress.report _ w hw)
    · intro _ w' hw'
      rw [herror]
      exact proceeds_setState .error (fun _ => trivial) w' hw'
    · exact fun _ _ h => h
  · have hfits := hexpected s (hin.resolve_right fun h => hne h.1)
    apply aside_progress.wp_setState
    · exact fun hsame => ⟨⟨stage, hstage, hsame ▸ hfits⟩, hauth⟩
    · exact fun _ => ⟨⟨stage, (stageOf_cons rfl w.trace).trans hstage, hfits⟩, hauth⟩

/-- Once the login callback has returned, an answer to a request finds it answered. -/
structure Answerable (m : MessageProxy) (w : World) : Prop extends OnCourse w where
  request : m.header.action = .request → w.state.state = .authenticating →
    stageOf w.trace ≠ some .requested

theorem wp_authenticationAction_progress {m : MessageProxy} {w : World} (hw : Answerable m w) :
    wp progress.contract patientLogin (Connection.authenticationAction m)
      (fun _ => Answerable m) (fun _ => OnCourse) w := by
  by_cases haction : m.header.action = .request
  · unfold Connection.authenticationAction
    rw [haction, Reentrant.wp_bind]
    apply wp_assert_of (fun _ _ => trivial)
    intro _
    rw [Reentrant.wp_bind, Reentrant.wp_read]
    split
    · exact hw
    · next callback _ =>
        rw [Reentrant.wp_bind]
        apply wp_lift
        · intro data _
          cases callback with
          | none => exact hw.toOnCourse
          | some f =>
              apply wp_ask_progress (hw.toOnCourse.cons rfl rfl rfl)
              intro _ w' hw' hback
              exact ⟨hw'.cons rfl rfl rfl, fun _ => hback⟩
        · exact fun _ _ => hw.toOnCourse
        · exact fun _ _ => trivial
  · have hkeeps : Proceeds (Connection.authenticationAction m) :=
      Connection.keeps_authenticationAction routine_progress socketRoutine_progress.close m
        fun h => absurd h haction
    apply Reentrant.wp_mono (hkeeps w hw.toOnCourse)
    · exact fun _ _ h => ⟨h, fun hrequest => absurd hrequest haction⟩
    · exact fun _ _ h => h

theorem proceeds_handleMessage (m : MessageProxy) : Proceeds (Connection.handleMessage n m) := by
  intro w hw
  obtain ⟨⟨stage, hstage, hfits⟩, hauth⟩ := hw
  have hhandled : stageOf (w.noted (.dispatched m w.state)).trace = some (stage.handle m w.state) := by
    change (stageOf w.trace).map _ = _
    rw [hstage]
    rfl
  have hother : m.header.topic ≠ .connection → OnCourse (w.noted (.dispatched m w.state)) :=
    fun hm => ⟨⟨_, hhandled, hfits.handle hm⟩, hauth⟩
  unfold Connection.handleMessage
  rw [Reentrant.wp_bind, Reentrant.wp_read, Reentrant.wp_bind, wp_leave, Reentrant.wp_bind]
  apply wp_debugMsg (fun _ _ => trivial)
  split
  · next htopic =>
      exact Event.keeps_notify routine_progress.toSubscriberRoutine
        (fun _ => aside_progress.modifyEvent _) _
        (fun _ => aside_progress.toEventAside.sendWith _) _ (hother (htopic ▸ nofun))
  · next htopic =>
      exact Presence.keeps_notify routine_progress.toSubscriberRoutine _ (fun _ => aside_progress.modifyPresence _)
        (fun _ => aside_progress.queryFn) (fun _ => aside_progress.modifyPresence _) _
        (hother (htopic ▸ nofun))
  · next htopic =>
      unfold Connection.handleConnectionResponse
      rw [Reentrant.wp_bind]
      obtain ⟨hexpected, hunexpected⟩ := hfits.handle_connection htopic
      apply Reentrant.wp_mono (wp_transition_progress hhandled hexpected hunexpected hauth)
      · exact fun _ w' hw' => proceeds_connectionAction m w' hw'
      · exact fun _ _ h => h
  · next htopic =>
      unfold Connection.handleAuthenticationResponse
      rw [Reentrant.wp_bind]
      have hnoted : Answerable m (w.noted (.dispatched m w.state)) := by
        refine ⟨hother (htopic ▸ nofun), fun haction _ heq => ?_⟩
        rw [hhandled] at heq
        exact Stage.handle_ne_requested _ _ htopic haction (Option.some.inj heq)
      apply Reentrant.wp_mono (wp_authenticationAction_progress hnoted)
      · intro _ w' hw'
        obtain ⟨stage', hstage', hfits'⟩ := hw'.stage
        apply wp_transition_progress hstage'
        · intro s hin
          rw [htopic] at hin
          apply hfits'.income hin
          intro haction hstate heq
          exact hw'.request haction hstate (hstage'.trans (congrArg some heq))
        · exact fun _ => hfits'
        · exact hw'.authParams
      · exact fun _ _ h => h
  · have hreports : Proceeds (do
        Program.report (.unsolicited m.header)
        Program.assert .connection "0" False) :=
      Reentrant.keeps_bind (routine_progress.report _) fun _ => routine_progress.assert _ _ _
    exact hreports _ (hother ‹_›)

/-- Whatever the state was, `on_open` leaves it before anything else can happen. -/
theorem wp_onOpen_progress {w : World} (hstage : stageOf w.trace = some .fresh)
    (hauth : ∀ auth, w.state.authParams = some auth → auth.length < 2 ^ 31) :
    wp progress.contract patientLogin (Connection.onOpen n) (fun _ => OnCourse)
      (fun _ => OnCourse) w := by
  have hfits : Fits .awaitConnection .fresh := .inl rfl
  unfold Connection.onOpen
  rw [Reentrant.wp_bind, Reentrant.wp_modify]
  apply aside_progress.wp_setState
  · exact fun hsame => ⟨⟨.fresh, hstage, hsame ▸ hfits⟩, hauth⟩
  · exact fun _ => ⟨⟨.fresh, (stageOf_cons rfl w.trace).trans hstage, hfits⟩, hauth⟩

theorem wp_program_progress {e : Entry} {w : World} (hpre : progress.pre e w) :
    wp progress.contract patientLogin (program n e) (fun _ => OnCourse) (fun _ => OnCourse) w := by
  obtain ⟨w, hw, hpermits, rfl⟩ := hpre
  have hentered : e ≠ .onOpen → OnCourse (w.entered e) := by
    intro he
    have hstep : Item.isStep (.enter e) = false := by
      cases e with
      | onOpen => exact absurd rfl he
      | _ => rfl
    exact hw.cons hstep rfl rfl
  have haside := fun (he : e.IsAside) (hopen : e ≠ .onOpen) =>
    aside_progress.program n e he _ (hentered hopen)
  have hs := socketRoutine_progress
  cases e with
  | onOpen =>
      obtain ⟨stage, hstage, -⟩ := hw.stage
      apply wp_onOpen_progress
      · change (stageOf w.trace).map _ = _
        rw [hstage]
        rfl
      · exact hw.authParams
  | onClose | onError =>
      apply Connection.keeps_onClose hs _ _ _ (hentered nofun)
      · exact proceeds_setState .closed fun _ => trivial
      · exact proceeds_setState .reconnecting fun _ => trivial
  | construct uri =>
      exact Connection.keeps_construct routine_progress hs uri _ (hentered nofun)
  | onMessage raw =>
      exact Connection.keeps_onMessage routine_progress raw proceeds_handleMessage _
        (hentered nofun)
  | login auth callback =>
      apply Connection.keeps_login proceeds_request auth callback _ _ (hentered nofun)
      apply Reentrant.keeps_modify
      intro w' hw'
      refine ⟨hw'.stage, fun auth' heq => ?_⟩
      cases heq
      exact hpermits
  | close => exact hs.close _ (hentered nofun)
  | _ => exact haside trivial nofun

theorem progress_sound : progress.Sound patientLogin (program n) where
  refl _ _ := trivial
  trans _ _ _ _ _ _ := trivial
  enter w c e hcall hinv hpermits := by
    refine ⟨fun hpaused => absurd rfl (hpaused e), trivial, w, hinv hcall.paused, hpermits, rfl⟩
  entry e w _ hpre := by
    have hleft : ∀ r, ∀ w' : World, OnCourse w' →
        progress.inv (progress.background w) (w'.left e r) ∧
          progress.rel (progress.background w) w (w'.left e r) :=
      fun _ _ hw' => ⟨fun _ => hw'.cons rfl rfl rfl, trivial⟩
    exact Reentrant.wp_mono (wp_program_progress hpre) (fun _ => hleft _) fun _ => hleft _

end Handlers
end Programs

/-- If no login callback returns while the request is unanswered, then what the client says on a
connection is in order, and while it is `OPEN` its request was answered on that connection. -/
theorem handed_inOrder [Build] (n : Nat) (uri : Buffer) (cfg : Reentrant.Config interface)
    (hreach : Reaches patientLogin n uri cfg) (hfault : cfg.fault = none) :
    ∃ stage, stageOf cfg.world.trace = some stage ∧
      (cfg.world.state.state = .open → stage = .acknowledged ∨ stage = .speaking) := by
  have hinit : OnCourse { state := {} } := ⟨⟨.fresh, rfl, trivial⟩, nofun⟩
  have hstart : progress.inv false { state := {} } := fun _ => hinit
  have hmain : progress.inv false (Reentrant.World.entered { state := {} } (.construct uri)) ∧
      progress.pre (.construct uri) (Reentrant.World.entered { state := {} } (.construct uri)) :=
    ⟨fun hpaused => absurd rfl (hpaused _), _, hinit, trivial, rfl⟩
  have hholds := progress_sound.holds hstart hmain hreach
  unfold Regime.Holds at hholds
  rw [hfault] at hholds
  have hcourse : OnCourse cfg.world := by
    obtain ⟨hpaused, ⟨-, hinv⟩ | ⟨_, _, -, hinv⟩⟩ := hholds
    · exact hinv hpaused
    · exact hinv hpaused
  obtain ⟨stage, hstage, hfits⟩ := hcourse.stage
  refine ⟨stage, hstage, fun hopen => ?_⟩
  rw [hopen] at hfits
  exact hfits

/-- The handshake of a client that has logged in before, up to its request -/
def requestedAgain : List (Reentrant.Move interface) :=
  [receive "C|CH+", accept, accept, receive "C|A+", accept]

/-- An error of the socket, which opens again -/
def reconnected : List (Reentrant.Move interface) :=
  [.enter (.onError []), .enter .onOpen, accept]

/-- A client that lost its connection emits an event on the new one. -/
theorem handed_inOrder_reconnected : let _ : Build := release
    ∃ cfg stage, Reaches patientLogin 9 [] cfg ∧ cfg.fault = none ∧
      cfg.world.state.state = .open ∧ stageOf cfg.world.trace = some stage ∧
      (stage = .acknowledged ∨ stage = .speaking) := by
  intro _
  let cfg := after 9 [] (loggedIn ++ reconnected ++ requestedAgain ++
    [receive "A|A+", accept, .enter (.emit (bytes "a") (bytes "Sb")), accept])
  have hreach : Reaches patientLogin 9 [] cfg := by
    apply Reentrant.reachable_run
    decide +kernel
  have hfacts : cfg.fault.isNone = true ∧ cfg.world.state.state = .open := by decide +kernel
  clear_value cfg
  have hfault : cfg.fault = none := Option.isNone_iff_eq_none.mp hfacts.1
  obtain ⟨stage, hstage, hopen⟩ := handed_inOrder 9 [] cfg hreach hfault
  exact ⟨cfg, stage, hreach, hfault, hfacts.2, hstage, hopen hfacts.2⟩

/-- The connection is lost and opened again in the login callback, and when it returns the answer to
the old request makes the new connection `OPEN`, whose request was not answered. -/
theorem handed_not_inOrder : let _ : Build := release
    ¬∀ cfg : Reentrant.Config interface, Reaches pocoSocket 9 [] cfg → cfg.fault = none →
      ∃ stage, stageOf cfg.world.trace = some stage ∧
        (cfg.world.state.state = .open → stage = .acknowledged ∨ stage = .speaking) := by
  intro _ hclaim
  let cfg := after 9 [] (connecting ++ [.enter (.login (bytes "{}") (some 0))] ++
    requestedAgain ++ [receive "A|A+"] ++ reconnected ++ requestedAgain ++ [accept])
  have hreach : Reaches pocoSocket 9 [] cfg := by
    apply Reentrant.reachable_run
    decide +kernel
  have hfacts : cfg.fault.isNone = true ∧ cfg.world.state.state = .open ∧
      stageOf cfg.world.trace = some .requested := by decide +kernel
  clear_value cfg
  obtain ⟨stage, hstage, hopen⟩ := hclaim cfg hreach (Option.isNone_iff_eq_none.mp hfacts.1)
  cases hfacts.2.2.symm.trans hstage
  cases hopen hfacts.2.1 with
  | inl h => cases h
  | inr h => cases h

end Deepstream
