import Deepstream.Bounds
import Deepstream.Client.Wrapped
import Deepstream.Listening

/-!
The acknowledgement of a login that was made through `Deepstream`.

The connection invokes the wrapper around the user's callback before it changes
its state. Whether it gets as far as `OPEN`, and whether everything that waits
is sent there, depends on what the wrapper does and on what there is to send.
-/

namespace Deepstream

open Reentrant (answering evaluate wp)

/-- The messages that the socket accepted, newest first -/
def accepted (t : List Item) : List (Header × List Buffer) :=
  t.filterMap fun
    | .back (.wsSend m _) (.ok true) => some (m.header, m.arguments)
    | _ => none

/-- The arguments of a message can be sent. -/
def Sendable (arguments : List Buffer) : Prop :=
  (∀ arg ∈ arguments, asciiUnitSeparator ∉ arg) ∧ (arguments.map List.length).sum < 2 ^ 31

theorem NameMap.exists_mem_toList {α : Type} {map : NameMap α} {name : Buffer} (h : name ∈ map) :
    ∃ entry ∈ map.toList, entry.1 = name := by
  rw [← Std.TreeMap.mem_keys, ← Std.TreeMap.map_fst_toList_eq_keys] at h
  exact List.mem_map.mp h

instance (arguments : List Buffer) : Decidable (Sendable arguments) :=
  inferInstanceAs (Decidable (_ ∧ _))

namespace Event

/-- What is sent when the connection opens, in this order -/
def announcements (e : Event) : List (Header × List Buffer) :=
  e.subscriberMap.toList.map (fun entry => ({ topic := .event, action := .subscribe }, [entry.1])) ++
    e.listenerMap.toList.map (fun entry => ({ topic := .event, action := .listen }, [entry.1])) ++
    e.sendQueue.map fun message => (message.val.header, message.val.arguments)

/-- A bound on the loops that send them -/
def announcementBound (e : Event) : Nat :=
  e.subscriberMap.size + e.listenerMap.size + e.sendQueue.length + 2

structure Announceable (e : Event) : Prop where
  subscriptions : ∀ name ∈ e.subscriberMap, Sendable [name]
  listeners : ∀ pattern ∈ e.listenerMap, Sendable [pattern]
  queue : ∀ message ∈ e.sendQueue, Sendable message.val.arguments

theorem announceable_iff (e : Event) : e.Announceable ↔
    (∀ entry ∈ e.subscriberMap.toList, Sendable [entry.1]) ∧
      (∀ entry ∈ e.listenerMap.toList, Sendable [entry.1]) ∧
      ∀ message ∈ e.sendQueue, Sendable message.val.arguments := by
  constructor
  · intro h
    exact ⟨fun _ hentry => h.subscriptions _ (NameMap.mem_of_mem_toList hentry),
      fun _ hentry => h.listeners _ (NameMap.mem_of_mem_toList hentry), h.queue⟩
  · rintro ⟨hsubscriptions, hlisteners, hqueue⟩
    refine ⟨fun name hname => ?_, fun pattern hpattern => ?_, hqueue⟩
    · obtain ⟨entry, hentry, rfl⟩ := NameMap.exists_mem_toList hname
      exact hsubscriptions entry hentry
    · obtain ⟨entry, hentry, rfl⟩ := NameMap.exists_mem_toList hpattern
      exact hlisteners entry hentry

instance (e : Event) : Decidable e.Announceable :=
  decidable_of_iff _ e.announceable_iff.symm

end Event

/-- The world that the callback of a login leaves, when a message is handled -/
def leftByCallback [JsonLibrary] (made : Wrappers) (user : World → Nat → Json → World) (w : World)
    (m : MessageProxy) (f : Nat) (data : Buffer) : World :=
  made.duringCall user
    (Reentrant.World.calling (w.noted (.dispatched m w.state)) (.loginCallback f data))
    (.loginCallback f data)

/-- The socket accepted some messages, oldest first, and nothing else happened that matters. -/
structure Accepted [JsonLibrary] (made : Wrappers) (messages : List (Header × List Buffer))
    (w w' : World) : Prop where
  accepted : accepted w'.trace = messages.reverse ++ accepted w.trace
  invocations : made.invocations w'.trace = made.invocations w.trace

section Accepted
variable [JsonLibrary] {made : Wrappers} {w : World}

theorem Accepted.nil : Accepted made [] w w :=
  ⟨rfl, rfl⟩

theorem Accepted.trans {messages messages' : List (Header × List Buffer)} {w' w'' : World}
    (h : Accepted made messages w w') (h' : Accepted made messages' w' w'') :
    Accepted made (messages ++ messages') w w'' := by
  constructor
  · rw [h'.accepted, h.accepted, List.reverse_append, List.append_assoc]
  · rw [h'.invocations, h.invocations]

end Accepted

section Sending
variable [Build] [JsonLibrary] {made : Wrappers} {user : World → Nat → Json → World}
  {bad : Prop} {w : World}

/-- In `OPEN` a message about events is accepted, if it is not too long. -/
theorem wp_send_accepted {setState : ConnectionState → Program Unit} {m : MessageBuilder}
    (hheader : m.header ∈ headers) (htopic : m.header.topic = .event)
    (hopen : w.state.state = .open) {Q : Bool → World → Prop}
    (hQ : m.payloadSize < 2 ^ 31 → ∀ w' : World, w'.state = w.state →
      Accepted made [(m.header, m.arguments)] w w' → Q true w')
    (hbad : 2 ^ 31 ≤ m.payloadSize → bad) :
    wp (made.contract user bad)
      (answering made.answer) (Connection.sendWith setState m) Q (fun _ _ => bad) w := by
  have htoBinary := m.toBinary_eq ⟨m.header, hheader⟩ rfl
  have hnot : ¬(m.header.topic = .connection ∨ m.header.topic = .auth) := by
    rw [htopic]
    decide
  unfold Connection.sendWith
  rw [Reentrant.wp_bind, wp_leave, Reentrant.wp_bind, wp_debugMsg_iff hheader, Reentrant.wp_bind,
    Reentrant.wp_read, if_neg hnot]
  split
  · unfold Connection.transmit
    rw [Reentrant.wp_bind]
    apply wp_lift
    · intro buffer hbuffer
      apply Reentrant.wp_ask_happening rfl rfl
      by_cases hsize : m.payloadSize < 2 ^ 31
      · exact hQ hsize _ rfl ⟨rfl, rfl⟩
      · obtain herror | herror := htoBinary.2 (Nat.le_of_not_lt hsize)
        · cases herror.symm.trans hbuffer
        · cases herror.symm.trans hbuffer
    · intro x hx
      apply hbad
      by_contra hsize
      cases (htoBinary.1 (Nat.lt_of_not_le hsize)).symm.trans hx
    · intro x hx
      apply hbad
      by_contra hsize
      cases (htoBinary.1 (Nat.lt_of_not_le hsize)).symm.trans hx
  · next hclosed => exact absurd hopen hclosed

/-- The loop over the rest of a map announces every name in it. -/
theorem wp_announce_accepted {setState : ConnectionState → Program Unit} {α : Type}
    {map : Event → NameMap (Node α)} {action : Action}
    (haction : { topic := .event, action } ∈ headers) {n : Nat}
    {done rest : List (Buffer × Node α)} (hlist : (map w.state.event).toList = done ++ rest)
    (hlength : rest.length ≤ n) (hopen : w.state.state = .open) {Q : Unit → World → Prop}
    (hQ : (∀ entry ∈ rest, Sendable [entry.1]) → ∀ w' : World, w'.state = w.state →
      Accepted made (rest.map fun entry => ({ topic := .event, action }, [entry.1])) w w' →
      Q () w')
    (hbad : ∀ entry ∈ rest, ¬Sendable [entry.1] → bad) :
    wp (made.contract user bad)
      (answering made.answer)
      (Event.announce (Connection.sendWith setState) map action n rest.head?) Q
      (fun _ _ => bad) w := by
  induction rest generalizing done n w with
  | nil =>
      cases n <;> exact hQ (by simp) w rfl .nil
  | cons entry rest ih =>
      obtain ⟨n, rfl⟩ := Nat.exists_eq_succ_of_ne_zero (Nat.ne_of_gt (Nat.lt_of_lt_of_le
        (Nat.succ_pos _) hlength))
      obtain ⟨name, node⟩ := entry
      have hbound : (map w.state.event)[name]? = some node := by
        rw [← Std.TreeMap.mem_toList_iff_getElem?_eq_some, hlist]
        exact List.mem_append_right _ (List.mem_cons_self ..)
      have hbad' := hbad _ (List.mem_cons_self ..)
      unfold Event.announce
      rw [List.head?_cons]
      rw [Reentrant.wp_bind]
      apply wp_build
      · exact Nat.le_succ 1
      · intro hclean message
        obtain ⟨hheader, harguments⟩ := message.property
        have hpayload : message.val.payloadSize = ([name].map List.length).sum := by
          unfold MessageBuilder.payloadSize
          rw [harguments]
        rw [Reentrant.wp_bind]
        apply wp_send_accepted (by rwa [hheader]) (by rw [hheader]) hopen
        · intro hsize w₁ hstate haccepted
          rw [wp_when]
          refine ⟨fun _ => ?_, fun hne => (hne rfl).elim⟩
          rw [Reentrant.wp_bind, Reentrant.wp_read, hstate, hbound, Option.map_some, if_pos rfl,
            NameMap.after_eq hlist]
          have hrest : (map w₁.state.event).toList = (done ++ [(name, node)]) ++ rest := by
            rw [hstate, hlist, List.append_assoc]
            rfl
          apply ih hrest (Nat.le_of_succ_le_succ hlength) (hstate ▸ hopen)
          · intro hall w' hstate' haccepted'
            refine hQ ?_ w' (hstate'.trans hstate) ?_
            · intro entry hentry
              cases hentry with
              | head => exact ⟨hclean, hpayload ▸ hsize⟩
              | tail _ hentry => exact hall entry hentry
            · rw [hheader, harguments] at haccepted
              exact haccepted.trans haccepted'
          · exact fun entry hentry => hbad entry (List.mem_cons_of_mem _ hentry)
        · intro hsize
          exact hbad' fun hsendable => absurd hsendable.2 (Nat.not_lt.mpr (hpayload ▸ hsize))
      · rintro ⟨arg, hmem, hsep⟩
        exact hbad' fun hsendable => hsendable.1 arg hmem hsep

/-- The queue is emptied. -/
theorem wp_flush_accepted {setState : ConnectionState → Program Unit} {n : Nat}
    {queue : List EventMessage} (hqueue : w.state.event.sendQueue = queue)
    (hlength : queue.length < n) (hopen : w.state.state = .open) {Q : Unit → World → Prop}
    (hQ : (∀ message ∈ queue, Sendable message.val.arguments) → ∀ w' : World,
      w'.state = { w.state with event := { w.state.event with sendQueue := [] } } →
      Accepted made (queue.map fun message => (message.val.header, message.val.arguments)) w w' →
      Q () w')
    (hbad : ∀ message ∈ queue, ¬Sendable message.val.arguments → bad) :
    wp (made.contract user bad)
      (answering made.answer) (Event.flush (Connection.sendWith setState) n) Q
      (fun _ _ => bad) w := by
  induction queue generalizing n w with
  | nil =>
      obtain ⟨n, rfl⟩ := Nat.exists_eq_succ_of_ne_zero (Nat.ne_of_gt hlength)
      unfold Event.flush
      rw [Reentrant.wp_bind, Reentrant.wp_read, hqueue]
      refine hQ (by simp) w ?_ .nil
      rw [← hqueue]
  | cons message queue ih =>
      obtain ⟨n, rfl⟩ := Nat.exists_eq_succ_of_ne_zero (Nat.ne_of_gt (Nat.zero_lt_of_lt hlength))
      have hheader := message.property.1
      unfold Event.flush
      rw [Reentrant.wp_bind, Reentrant.wp_read, hqueue]
      change wp _ _ (Connection.sendWith setState message.val >>= _) _ _ w
      rw [Reentrant.wp_bind]
      apply wp_send_accepted (by rw [hheader]; decide) (by rw [hheader]) hopen
      · intro hsize w₁ hstate haccepted
        rw [wp_when]
        refine ⟨fun _ => ?_, fun hne => (hne rfl).elim⟩
        rw [Reentrant.wp_bind, Reentrant.wp_read, hstate, hqueue]
        change wp _ _ (Program.modifyEvent _ >>= _) _ _ w₁
        rw [Reentrant.wp_bind, wp_modifyEvent]
        apply ih rfl (Nat.lt_of_succ_lt_succ hlength) (hstate ▸ hopen)
        · intro hall w' hstate' haccepted'
          refine hQ ?_ w' (hstate'.trans (by rw [hstate]))
            (haccepted.trans ⟨haccepted'.accepted, haccepted'.invocations⟩)
          intro message' hmem
          cases hmem with
          | head => exact ⟨message.val.arguments_clean, hsize⟩
          | tail _ hmem => exact hall message' hmem
        · exact fun message' hmem => hbad message' (List.mem_cons_of_mem _ hmem)
      · intro hsize
        exact hbad message (List.mem_cons_self ..) fun hsendable =>
          absurd hsendable.2 (Nat.not_lt.mpr hsize)

/-- Everything that waits is sent when the connection opens. -/
theorem wp_onOpen_accepted {setState : ConnectionState → Program Unit} {n : Nat}
    (hn : w.state.event.announcementBound ≤ n) (hopen : w.state.state = .open)
    {Q : Unit → World → Prop}
    (hQ : w.state.event.Announceable → ∀ w' : World,
      w'.state = { w.state with event := { w.state.event with sendQueue := [] } } →
      Accepted made w.state.event.announcements w w' → Q () w')
    (hbad : ¬w.state.event.Announceable → bad) :
    wp (made.contract user bad)
      (answering made.answer)
      (Event.onConnectionStateChange (Connection.sendWith setState) n .open) Q
      (fun _ _ => bad) w := by
  unfold Event.announcementBound at hn
  have hsubscriptions : w.state.event.subscriberMap.toList.length ≤ n := by
    rw [Std.TreeMap.length_toList]
    omega
  have hlisteners : w.state.event.listenerMap.toList.length ≤ n := by
    rw [Std.TreeMap.length_toList]
    omega
  have hqueue : w.state.event.sendQueue.length < n := by omega
  have hlist : w.state.event.subscriberMap.toList = [] ++ w.state.event.subscriberMap.toList := rfl
  unfold Event.onConnectionStateChange
  rw [wp_when]
  refine ⟨fun _ => ?_, fun hne => (hne rfl).elim⟩
  rw [Reentrant.wp_bind]
  unfold Event.resubscribe
  rw [Reentrant.wp_bind, Reentrant.wp_read]
  apply wp_announce_accepted (by decide) hlist hsubscriptions hopen
  · intro hsubscribed w₁ hstate₁ haccepted₁
    have hlist₁ : w₁.state.event.listenerMap.toList = [] ++ w.state.event.listenerMap.toList := by
      rw [hstate₁]
      rfl
    rw [Reentrant.wp_bind]
    unfold Event.relisten
    rw [Reentrant.wp_bind, Reentrant.wp_read, hstate₁]
    apply wp_announce_accepted (by decide) hlist₁ hlisteners (hstate₁ ▸ hopen)
    · intro hlistened w₂ hstate₂ haccepted₂
      have hstate := hstate₂.trans hstate₁
      apply wp_flush_accepted (congrArg (fun c : Client => c.event.sendQueue) hstate) hqueue
        (hstate ▸ hopen)
      · intro hsent w₃ hstate₃ haccepted₃
        apply hQ
        · exact w.state.event.announceable_iff.mpr ⟨hsubscribed, hlistened, hsent⟩
        · rw [hstate₃, hstate]
        · exact (haccepted₁.trans haccepted₂).trans haccepted₃
      · exact fun message hmem hnot => hbad fun h => hnot (h.queue message hmem)
    · exact fun entry hentry hnot =>
        hbad fun h => hnot (h.listeners _ (NameMap.mem_of_mem_toList hentry))
  · exact fun entry hentry hnot =>
      hbad fun h => hnot (h.subscriptions _ (NameMap.mem_of_mem_toList hentry))

theorem wp_setState_accepted {n : Nat} (hn : w.state.event.announcementBound < n)
    (hclosed : w.state.state ≠ .open) {Q : Unit → World → Prop}
    (hQ : w.state.event.Announceable → ∀ w' : World, w'.state = { w.state with
        state := .open
        event := { w.state.event with sendQueue := [] } } →
      Accepted made w.state.event.announcements w w' → Q () w')
    (hbad : ¬w.state.event.Announceable → bad) :
    wp (made.contract user bad)
      (answering made.answer) (Connection.setState n .open) Q (fun _ _ => bad) w := by
  obtain ⟨n, rfl⟩ := Nat.exists_eq_succ_of_ne_zero (Nat.ne_of_gt (Nat.zero_lt_of_lt hn))
  unfold Connection.setState
  rw [Reentrant.wp_bind, Reentrant.wp_read, wp_when]
  refine ⟨fun _ => ?_, fun hsame => (hsame fun heq => hclosed heq.symm).elim⟩
  rw [Reentrant.wp_bind, Reentrant.wp_modify, Reentrant.wp_bind, wp_leave]
  apply wp_onOpen_accepted
  · exact Nat.le_of_lt_succ hn
  · rfl
  · intro hannounceable w' hstate haccepted
    exact hQ hannounceable w' hstate ⟨haccepted.accepted, haccepted.invocations⟩
  · exact hbad

end Sending

section Handling
variable [Build] [JsonLibrary] {made : Wrappers} {user : World → Nat → Json → World}

/-- `A|A` -/
def acknowledgement : Header :=
  { topic := .auth, action := .request, isAck := true }

/-- What the login callback is given: the argument of the acknowledgement, or `PayloadType::NULL_` -/
def loginData (m : MessageProxy) : Except Failure Buffer :=
  if m.numArguments < 1 then .ok (bytes "L") else m.get 0

omit [JsonLibrary] in
theorem checkArity_of_complete {m : Message} (hm : m.Complete) : checkArity m = .ok () := by
  obtain ⟨h, hheader, hallows⟩ := hm.exists_header
  unfold checkArity
  rw [hheader, numArguments_tableHeader]
  change (check .connection _ (h.arity.1 ≤ m.numArguments) >>= fun _ => _) = _
  rw [check_bind _ _ _ hallows.1, check_of _ _ _ hallows.2]

omit [JsonLibrary] in
theorem transitionIncoming_acknowledgement {m : Message} (hm : m.Complete)
    (hheader : m.header = acknowledgement) : transitionIncoming .authenticating m = .ok .open := by
  unfold transitionIncoming
  rw [check_bind _ _ _ (by decide), checkArity_of_complete hm, hheader]
  change (check .connection _ (true = true) >>= fun _ => _) = _
  rw [check_bind _ _ _ rfl]
  rfl

variable {m : MessageProxy} (hm : m.view.Complete) (hheader : m.header = acknowledgement)
  {bad : Prop} {w : World} {f : Nat} {data : Buffer} {v : Json} {n : Nat}
  (hstate : w.state.state = .authenticating) (hlogin : w.state.loginCallback = some (some f))
  (hdata : loginData m = .ok data)
  (hdecoded : (TypeSerializer.prefixedToJson data).2 = .ok v)
include hm hheader hstate hlogin hdata hdecoded

/-- The acknowledgement is handled: the callback is invoked, and the connection opens. -/
theorem wp_acknowledgement (hcourteous : made.Courteous user Client.state)
    (hn : (leftByCallback made user w m f data).state.event.announcementBound < n)
    {Q : Unit → World → Prop}
    (hQ : ∀ u, (made.login f).function = some u →
      (leftByCallback made user w m f data).state.event.Announceable →
      ∀ w' : World, w'.state = { (leftByCallback made user w m f data).state with
        state := .open
        event := { (leftByCallback made user w m f data).state.event with sendQueue := [] } } →
      Accepted made (leftByCallback made user w m f data).state.event.announcements
        (leftByCallback made user w m f data) w' →
      made.invocations (leftByCallback made user w m f data).trace =
        ⟨u, v⟩ :: made.invocations w.trace → Q () w')
    (hempty : (made.login f).function = none → bad)
    (hbad : ¬(leftByCallback made user w m f data).state.event.Announceable → bad) :
    wp (made.contract user bad)
      (answering made.answer) (Connection.handleMessage n m) Q (fun _ _ => bad) w := by
  have hmem : m.header ∈ headers := by
    rw [hheader]
    decide
  unfold Connection.handleMessage
  rw [Reentrant.wp_bind, Reentrant.wp_read, Reentrant.wp_bind, wp_leave, Reentrant.wp_bind,
    wp_debugMsg_iff hmem, hheader]
  change wp _ _ (Connection.handleAuthenticationResponse n m) _ _ _
  unfold Connection.handleAuthenticationResponse Connection.authenticationAction
  rw [Reentrant.wp_bind, hheader]
  change wp _ _ (Program.assert .connection "message.is_ack()" (true = true) >>= _) _ _ _
  rw [Reentrant.wp_bind, wp_assert _ _ _ rfl, Reentrant.wp_bind, Reentrant.wp_read]
  rw [show (w.noted (.dispatched m w.state)).state.loginCallback = some (some f) from hlogin]
  dsimp only
  rw [Reentrant.wp_bind]
  change wp _ _ (Program.lift (loginData m)) _ _ _
  rw [hdata, wp_lift_ok]
  change wp _ _ (Program.ask (.loginCallback f data)) _ _ _
  have hcallback := (made.login f).core_callback
  cases hfunction : (made.login f).function with
  | none =>
      rw [hfunction] at hcallback
      apply Reentrant.wp_ask _ _ _ _ trivial
      intro w' _ _
      refine ⟨fun a hback => ?_, fun x _ => hempty hfunction⟩
      have hanswer := hback.trans (congrArg (Except.map fun _ => ())
        ((congrArg Prod.snd (congrFun hcallback data)).trans (coreCallback_none hdecoded)))
      cases hanswer
  | some u =>
      rw [hfunction] at hcallback
      have hinvoked : ((made.login f).core.callback data).2 = .ok ⟨u, v⟩ := by
        rw [hcallback, coreCallback_some hdecoded]
      have houtcome : made.outcome (.loginCallback f data) = some (.ok ⟨u, v⟩) :=
        congrArg some hinvoked
      have hleft : leftByCallback made user w m f data = user (Reentrant.World.calling
          (w.noted (.dispatched m w.state)) (.loginCallback f data)) u v :=
        Wrappers.duringCall_of houtcome _
      have hinvocations : made.invocations
          (leftByCallback made user w m f data).trace =
            ⟨u, v⟩ :: made.invocations w.trace := by
        rw [hleft, hcourteous.invocations]
        exact Wrappers.invocations_call houtcome _
      have hauthenticating :
          (leftByCallback made user w m f data).state.state = .authenticating := by
        rw [hleft, hcourteous.kept]
        exact hstate
      apply Reentrant.wp_ask_happening rfl
      · change Except.map _ ((made.login f).core.callback data).2 = _
        rw [hinvoked]
        rfl
      change wp _ _ (Connection.transition n m) _ _ (Reentrant.World.returned
        (leftByCallback made user w m f data) (.loginCallback f data) (.ok ()))
      generalize leftByCallback made user w m f data = left at *
      unfold Connection.transition
      rw [Reentrant.wp_bind, Reentrant.wp_read, Reentrant.wp_bind]
      change wp _ _ (Program.lift (transitionIncoming left.state.state m.view)) _ _ _
      rw [hauthenticating, transitionIncoming_acknowledgement hm hheader, wp_lift_ok,
        Reentrant.wp_bind, wp_when]
      refine ⟨fun herror => absurd herror (by decide), fun _ => ?_⟩
      apply wp_setState_accepted
      · exact hn
      · change left.state.state ≠ .open
        rw [hauthenticating]
        decide
      · intro hannounceable w' hstate' haccepted
        exact hQ u hfunction hannounceable w' hstate'
          ⟨haccepted.accepted, haccepted.invocations⟩ hinvocations
      · exact hbad

end Handling

/-- The connection is open, everything that waited when the callback returned was sent, and
the function of the user, if one was given, was invoked once, with the decoded data. -/
structure Acknowledged [JsonLibrary] (made : Wrappers) (l : Login) (v : Json)
    (w left w' : World) : Prop where
  isOpen : w'.state.state = .open
  sent : Deepstream.accepted w'.trace =
    left.state.event.announcements.reverse ++ Deepstream.accepted left.trace
  queue : w'.state.event.sendQueue = []
  invoked : ∀ u, l.function = some u →
    made.invocations w'.trace = ⟨u, v⟩ :: made.invocations w.trace

section Acknowledged
variable [Build] [JsonLibrary] (made : Wrappers) (user : World → Nat → Json → World)
  (hcourteous : made.Courteous user Client.state) (raw : Buffer) (m : MessageProxy)
  (hexecute : Parser.execute (raw ++ [0, 0]) = .ok ([m], []))
  (hheader : m.header = acknowledgement) (w : World) (hstate : w.state.state = .authenticating)
  (f : Nat) (hlogin : w.state.loginCallback = some (some f)) (data : Buffer)
  (hdata : loginData m = .ok data) (v : Json)
  (hdecoded : (TypeSerializer.prefixedToJson data).2 = .ok v)

/-- There is a callback, and everything that waits when it returns can be sent. -/
def AcknowledgementOpens : Prop :=
  (made.login f).function ≠ none ∧
    (leftByCallback made user w m f data).state.event.Announceable

include hcourteous hexecute hheader hstate hlogin hdata hdecoded

/-- How a call of `on_message` with an acknowledgement ends -/
theorem ends_acknowledgement {n : Nat}
    (hn : (leftByCallback made user w m f data).state.event.announcementBound < n) :
    Reentrant.Ends
      (fun _ w' => AcknowledgementOpens made user m w f data ∧
        Acknowledged made (made.login f) v w (leftByCallback made user w m f data) w')
      (fun _ _ => ¬AcknowledgementOpens made user m w f data)
      (fun _ _ => ¬AcknowledgementOpens made user m w f data)
      (evaluate (made.conduct user) (Connection.onMessage n raw) w) := by
  have hm := complete_of_execute hexecute (List.mem_singleton_self m)
  apply Reentrant.ends_of_wp (hcourteous.obeys (¬AcknowledgementOpens made user m w f data))
  unfold Connection.onMessage
  rw [hexecute, Reentrant.wp_bind, wp_lift_ok]
  change wp _ _ (Connection.handleMessage n m >>= fun _ => pure ()) _ _ w
  rw [Reentrant.wp_bind]
  apply wp_acknowledgement hm hheader hstate hlogin hdata hdecoded hcourteous hn
  · intro u hfunction hannounceable w' hstate' haccepted hinvocations
    refine ⟨⟨by rw [hfunction]; exact Option.some_ne_none u, hannounceable⟩, ?_⟩
    refine ⟨by rw [hstate'], haccepted.accepted, by rw [hstate'], fun u' hu' => ?_⟩
    cases hfunction.symm.trans hu'
    rw [haccepted.invocations, hinvocations]
  · exact fun hempty hopens => hopens.1 hempty
  · exact fun hnot hopens => hnot hopens.2

/-- An acknowledgement is handled as it should iff there is a callback and everything that
waits can be sent. -/
theorem acknowledged_iff :
    (∃ n₀, ∀ n, n₀ ≤ n → ∃ w',
        evaluate (made.conduct user) (Connection.onMessage n raw) w = (.done (), w') ∧
        Acknowledged made (made.login f) v w (leftByCallback made user w m f data) w') ↔
      AcknowledgementOpens made user m w f data := by
  have hends := fun n hn => ends_acknowledgement made user hcourteous raw m hexecute hheader w
    hstate f hlogin data hdata v hdecoded (n := n) hn
  generalize (leftByCallback made user w m f data).state.event.announcementBound = bound
    at hends
  constructor
  · rintro ⟨n₀, hall⟩
    obtain ⟨w', hevaluate, -⟩ := hall (n₀ + bound + 1) (by omega)
    have hend := hends (n₀ + bound + 1) (by omega)
    rw [hevaluate] at hend
    exact hend.1
  · intro hopens
    refine ⟨bound + 1, fun n hn => ?_⟩
    have hend := hends n hn
    generalize evaluate _ (Connection.onMessage n raw) w = r at hend ⊢
    obtain ⟨outcome, w'⟩ := r
    cases outcome with
    | done a => exact ⟨w', rfl, hend.2⟩
    | raised x => exact absurd hopens hend
    | aborted x => exact absurd hopens hend

end Acknowledged

/-- `A|A` without an argument -/
def bareAcknowledgement : Buffer :=
  fromHumanReadable (bytes "A|A+")

def bareAcknowledgementMessage : MessageProxy where
  base := bareAcknowledgement ++ [0, 0]
  offset := 0
  size := 4
  header := acknowledgement

theorem execute_bareAcknowledgement :
    @Parser.execute release (bareAcknowledgement ++ [0, 0]) =
      .ok ([bareAcknowledgementMessage], []) := by
  decide +kernel

/-- A client that emitted an event and subscribed before it sent its request -/
def authenticating : World :=
  (@after release 9 [] (challenged ++ [.enter (.emit (bytes "a") []),
    .enter (.subscribe (bytes "b") (some 1)), .enter (.login (bytes "{}") (some 0)), accept])).world

/-- A login with a callback that returns is acknowledged. -/
theorem acknowledged_callback : let _ : Build := release
    let _ : JsonLibrary := exampleLibrary []
    let made : Wrappers := ⟨fun _ => .callback (some 7), fun _ => none⟩
    ∃ n₀, ∀ n, n₀ ≤ n → ∃ w',
      evaluate (made.conduct fun w _ _ => w) (Connection.onMessage n bareAcknowledgement)
        authenticating = (.done (), w') ∧
      Acknowledged made (made.login 0) .null authenticating
        (leftByCallback made (fun w _ _ => w) authenticating bareAcknowledgementMessage 0
          (bytes "L")) w' := by
  intro _ _ made
  refine (acknowledged_iff made _ (made.courteous_idle Client.state) _ _
    execute_bareAcknowledgement rfl authenticating (by decide +kernel) 0 (by decide +kernel) _ rfl
    .null rfl).mpr ⟨?_, ?_⟩
  · exact Option.some_ne_none 7
  · decide +kernel

/-- A login without a callback is not: the lambda throws before the connection opens. -/
theorem anonymously_not_acknowledged : let _ : Build := release
    let _ : JsonLibrary := exampleLibrary []
    ¬∀ l : Login, let made : Wrappers := ⟨fun _ => l, fun _ => none⟩
      ∃ n₀, ∀ n, n₀ ≤ n → ∃ w',
        evaluate (made.conduct fun w _ _ => w) (Connection.onMessage n bareAcknowledgement)
          authenticating = (.done (), w') ∧
        Acknowledged made l .null authenticating
          (leftByCallback made (fun w _ _ => w) authenticating bareAcknowledgementMessage 0
            (bytes "L")) w' := by
  intro _ _ hclaim
  obtain ⟨n₀, hall⟩ := hclaim .anonymously
  let made : Wrappers := ⟨fun _ => .anonymously, fun _ => none⟩
  have hends := fun n hn => ends_acknowledgement made _ (made.courteous_idle Client.state) _ _
    execute_bareAcknowledgement rfl authenticating (by decide +kernel) 0 (by decide +kernel) _
    rfl .null rfl (n := n) hn
  generalize (leftByCallback made (fun w _ _ => w) authenticating bareAcknowledgementMessage 0
    (bytes "L")).state.event.announcementBound = bound at hends
  obtain ⟨w', hevaluate, -⟩ := hall (n₀ + bound + 1) (by omega)
  have hend := hends (n₀ + bound + 1) (by omega)
  rw [hevaluate] at hend
  exact hend.1.1 rfl

end Deepstream
