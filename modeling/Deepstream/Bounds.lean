import Deepstream.Client.Failures
import Deepstream.Client.Runs

/-!
Nothing is read outside of the arguments of a message.

A message that was parsed or built has as many arguments as its header allows,
and the handlers read no others. Whatever else an entry may fail with, it is not
an argument that does not exist.
-/

namespace Deepstream

open Program (modifyEvent modifyPresence)
open Reentrant (Config Prog)

/-- Any failure but a read outside of a buffer or of the arguments of a message -/
def InBounds (f : Failure) : Prop :=
  f ≠ .outOfBounds ∧ ∀ text, f ≠ .assertion .messageProxy text

abbrev Bounded {α : Type} (p : Program α) : Prop :=
  Confined InBounds p

theorem tolerant_inBounds : Tolerant InBounds where
  assertion file text hfile := by
    refine ⟨nofun, ?_⟩
    rintro _ ⟨⟩
    exact hfile rfl
  undefined := ⟨nofun, nofun⟩
  exhausted := ⟨nofun, nofun⟩
  thrown _ _ := ⟨nofun, nofun⟩

/-- A read outside of the arguments of a message, or of the buffer that they lie in, does not
go unnoticed. -/
theorem inBounds_get_iff [Build] (m : MessageProxy) (i : Nat) :
    FailsIn InBounds (m.get i) ↔
      ∃ loc, m.arguments[i]? = some loc ∧ loc.offset + loc.size ≤ m.base.length := by
  unfold MessageProxy.get
  by_cases hi : i < m.arguments.length
  · rw [check_bind _ _ _ hi, List.getElem?_eq_getElem hi]
    change FailsIn InBounds (slice _ _ _) ↔ _
    unfold slice
    by_cases hroom : m.arguments[i].offset + m.arguments[i].size ≤ m.base.length
    · rw [if_pos hroom]
      exact iff_of_true (failsIn_ok _) ⟨_, rfl, hroom⟩
    · rw [if_neg hroom]
      refine iff_of_false (fun h => (h _ rfl).1 rfl) ?_
      rintro ⟨loc, ⟨⟩, hloc⟩
      exact hroom hloc
  · have hnone := List.getElem?_eq_none (Nat.not_lt.mp hi)
    rw [hnone]
    refine iff_of_false (fun h => ?_) ?_
    · unfold check at h
      split at h
      · exact (h _ rfl).2 _ rfl
      · exact (h _ rfl).1 rfl
    · rintro ⟨loc, ⟨⟩, -⟩

theorem inBounds_thrown (x : Exception) : InBounds (.thrown x) :=
  ⟨nofun, nofun⟩

section Senders
variable {α : Type} {send_ : MessageBuilder → Program Bool} (hsend : ∀ m, Bounded (send_ m))

theorem bounded_build (topic : Topic) (action : Action) {arguments : List Buffer}
    (hlen : arguments.length ≤ 2) : Bounded (Program.build topic action arguments) :=
  confined_build (fun _ => inBounds_thrown _) topic action hlen

include hsend

/-- A message that is built and sent -/
theorem bounded_tell (topic : Topic) (action : Action) {arguments : List Buffer}
    (hlen : arguments.length ≤ 2) :
    Bounded (Program.build topic action arguments >>= fun m => Program.ignore (send_ m.val)) :=
  Reentrant.only_bind (bounded_build topic action hlen) fun m => confined_ignore (hsend m.val)

theorem bounded_announce (map : Event → NameMap (Node α)) (action : Action) (n : Nat)
    (entry : Option (Buffer × Node α)) : Bounded (Event.announce send_ map action n entry) := by
  induction n generalizing entry with
  | zero =>
      cases entry with
      | none => exact Reentrant.only_pure ()
      | some entry => exact tolerant_inBounds.exhausted
  | succ n ih =>
      cases entry with
      | none => exact Reentrant.only_pure ()
      | some entry =>
          obtain ⟨name, node⟩ := entry
          unfold Event.announce
          apply Reentrant.only_bind (bounded_build .event action (by simp))
          intro message
          apply Reentrant.only_bind (hsend message.val)
          intro sent
          apply Reentrant.only_when
          intro _
          apply Reentrant.only_read_bind
          intro c
          split
          · exact ih _
          · exact tolerant_inBounds.undefined

theorem bounded_flush (n : Nat) : Bounded (Event.flush send_ n) := by
  induction n with
  | zero => exact tolerant_inBounds.exhausted
  | succ n ih =>
      unfold Event.flush
      apply Reentrant.only_read_bind
      intro c
      split
      · exact Reentrant.only_pure ()
      · apply Reentrant.only_bind (hsend _)
        intro sent
        apply Reentrant.only_when
        intro _
        apply Reentrant.only_read_bind
        intro c
        split
        · exact tolerant_inBounds.undefined
        · exact Reentrant.only_bind (confined_modifyEvent _) fun _ => ih

theorem bounded_onConnectionStateChange (n : Nat) (state : ConnectionState) :
    Bounded (Event.onConnectionStateChange send_ n state) := by
  apply Reentrant.only_when
  intro _
  apply Reentrant.only_bind
  · exact Reentrant.only_read_bind fun c => bounded_announce hsend _ _ _ _
  · intro _
    apply Reentrant.only_bind
    · exact Reentrant.only_read_bind fun c => bounded_announce hsend _ _ _ _
    · exact fun _ => bounded_flush hsend n

end Senders

section Send
variable [Build]

theorem bounded_sendWith {setState : ConnectionState → Program Unit}
    (hset : ∀ s, Bounded (setState s)) (m : MessageBuilder) :
    Bounded (Connection.sendWith setState m) := by
  unfold Connection.sendWith
  apply Reentrant.only_bind (Reentrant.only_leave _)
  intro _
  apply Reentrant.only_bind (tolerant_inBounds.debugMsg _)
  intro _
  apply Reentrant.only_read_bind
  intro c
  split
  · apply Reentrant.only_bind
      (confined_lift (tolerant_inBounds.onlyAsserts (onlyAsserts_transitionOutgoing _ _)))
    intro newState
    apply Reentrant.only_bind (Reentrant.only_when fun _ => Reentrant.only_leave _)
    intro _
    apply Reentrant.only_bind (tolerant_inBounds.assert (by decide) _ _)
    intro _
    split
    · exact inBounds_thrown _
    · exact Reentrant.only_bind (hset newState) fun _ => tolerant_inBounds.transmit m
  · split
    · exact tolerant_inBounds.transmit m
    · exact Reentrant.only_pure _

theorem bounded_setState (n : Nat) (state : ConnectionState) :
    Bounded (Connection.setState n state) := by
  induction n generalizing state with
  | zero =>
      unfold Connection.setState
      apply Reentrant.only_read_bind
      intro c
      apply Reentrant.only_when
      intro _
      apply Reentrant.only_bind (Reentrant.only_modify _)
      intro _
      exact Reentrant.only_bind (Reentrant.only_leave _) fun _ => tolerant_inBounds.exhausted
  | succ n ih =>
      unfold Connection.setState
      apply Reentrant.only_read_bind
      intro c
      apply Reentrant.only_when
      intro _
      apply Reentrant.only_bind (Reentrant.only_modify _)
      intro _
      apply Reentrant.only_bind (Reentrant.only_leave _)
      intro _
      exact bounded_onConnectionStateChange (bounded_sendWith ih) n state

theorem bounded_send (n : Nat) (m : MessageBuilder) : Bounded (Connection.send n m) :=
  bounded_sendWith (bounded_setState n) m

end Send

/-- A message has a header of the table, as many arguments as it allows, and each of them
can be read. -/
structure Message.Complete (m : Message) : Prop where
  exists_header : ∃ h : TableHeader, m.header = h.val ∧ h.Allows m.numArguments
  exists_get : ∀ i < m.numArguments, ∃ arg, m.get i = .ok arg

namespace Message
variable {m : Message} (hm : m.Complete)
include hm

/-- The headers that the handlers read two arguments of, or one -/
theorem Complete.two_le (htopic : m.header.topic = .event)
    (haction : m.header.action = .event ∨ m.header.action = .subscriptionForPatternFound ∨
      m.header.action = .subscriptionForPatternRemoved) : 2 ≤ m.numArguments := by
  obtain ⟨h, hheader, hallows⟩ := hm.exists_header
  have table : ∀ h : TableHeader, h.val.topic = .event → (h.val.action = .event ∨
      h.val.action = .subscriptionForPatternFound ∨
      h.val.action = .subscriptionForPatternRemoved) → 2 ≤ h.arity.1 := by
    rw [forall_tableHeader]
    decide
  rw [hheader] at htopic haction
  exact (table h htopic haction).trans hallows.1

theorem Complete.one_le (htopic : m.header.topic = .presence)
    (haction : m.header.action = .presenceJoin ∨ m.header.action = .presenceLeave) :
    1 ≤ m.numArguments := by
  obtain ⟨h, hheader, hallows⟩ := hm.exists_header
  have table : ∀ h : TableHeader, h.val.topic = .presence → (h.val.action = .presenceJoin ∨
      h.val.action = .presenceLeave) → 1 ≤ h.arity.1 := by
    rw [forall_tableHeader]
    decide
  rw [hheader] at htopic haction
  exact (table h htopic haction).trans hallows.1

theorem Complete.failsIn_get {i : Nat} (hi : i < m.numArguments) : FailsIn InBounds (m.get i) := by
  obtain ⟨arg, harg⟩ := hm.exists_get i hi
  rw [harg]
  exact failsIn_ok arg

end Message

section Handlers
variable [Build] {m : Message}

theorem bounded_notifySubscribers (hm : m.Complete) (htopic : m.header.topic = .event)
    (haction : m.header.action = .event) : Bounded (Event.notifySubscribers m) := by
  have htwo := hm.two_le htopic (.inl haction)
  unfold Event.notifySubscribers
  apply Reentrant.only_bind (tolerant_inBounds.assert (by decide) _ _)
  intro _
  apply Reentrant.only_bind (tolerant_inBounds.assert (by decide) _ _)
  intro _
  apply Reentrant.only_when
  intro _
  apply Reentrant.only_bind (confined_lift (hm.failsIn_get (by omega)))
  intro name
  apply Reentrant.only_bind (confined_lift (hm.failsIn_get (by omega)))
  intro data
  apply Reentrant.only_read_bind
  intro c
  split
  · exact Reentrant.only_pure ()
  · apply Reentrant.only_forEach
    intro id _
    apply Reentrant.only_bind (confined_modifyEvent _)
    intro _
    apply Reentrant.only_read_bind
    intro c
    exact tolerant_inBounds.invoke _ _ fun f => Reentrant.only_ask _

theorem bounded_notifyListeners {send_ : MessageBuilder → Program Bool}
    (hsend : ∀ m, Bounded (send_ m)) (hm : m.Complete) (htopic : m.header.topic = .event)
    (haction : m.header.action = .subscriptionForPatternFound ∨
      m.header.action = .subscriptionForPatternRemoved) :
    Bounded (Event.notifyListeners send_ m) := by
  have htwo := hm.two_le htopic (.inr haction)
  unfold Event.notifyListeners
  apply Reentrant.only_bind (tolerant_inBounds.assert (by decide) _ _)
  intro _
  apply Reentrant.only_bind (tolerant_inBounds.assert (by decide) _ _)
  intro _
  apply Reentrant.only_bind (tolerant_inBounds.assert (by decide) _ _)
  intro _
  apply Reentrant.only_bind (confined_lift (hm.failsIn_get (by omega)))
  intro pattern
  apply Reentrant.only_bind (confined_lift (hm.failsIn_get (by omega)))
  intro matched
  apply Reentrant.only_read_bind
  intro c
  split
  · exact Reentrant.only_pure ()
  · refine Reentrant.only_bind (tolerant_inBounds.invoke _ _ ?_) ?_
    · exact fun f => Reentrant.only_ask _
    intro accept
    apply Reentrant.only_when
    intro _
    exact bounded_tell hsend _ _ le_rfl

theorem bounded_event_notify {send_ : MessageBuilder → Program Bool}
    (hsend : ∀ m, Bounded (send_ m)) (hm : m.Complete) (htopic : m.header.topic = .event) :
    Bounded (Event.notify send_ m) := by
  have hassert : ∀ (text : String) (cond : Prop) [Decidable cond],
      Bounded (Program.assert .event text cond) :=
    fun text cond => tolerant_inBounds.assert (by decide) text cond
  unfold Event.notify
  apply Reentrant.only_bind (hassert _ _)
  intro _
  split
  · next haction => exact bounded_notifySubscribers hm htopic haction
  · next haction =>
      exact Reentrant.only_bind (hassert _ _) fun _ =>
        bounded_notifyListeners hsend hm htopic (.inl haction)
  · next haction =>
      exact Reentrant.only_bind (hassert _ _) fun _ =>
        bounded_notifyListeners hsend hm htopic (.inr haction)
  all_goals exact hassert _ _

omit [Build] in
theorem failsIn_userList (hm : m.Complete) (i n : Nat) (hn : i + n ≤ m.numArguments) :
    FailsIn InBounds (Presence.userList m i n) := by
  induction n generalizing i with
  | zero => exact failsIn_ok []
  | succ n ih =>
      unfold Presence.userList
      apply failsIn_bind (hm.failsIn_get (by omega))
      intro user
      exact failsIn_bind (ih (i + 1) (by omega)) fun users => failsIn_ok _

theorem bounded_presence_notify (hm : m.Complete) (htopic : m.header.topic = .presence) :
    Bounded (Presence.notify m) := by
  unfold Presence.notify
  apply Reentrant.only_bind (tolerant_inBounds.assert (by decide) _ _)
  intro _
  split
  · exact Reentrant.only_pure ()
  split
  · apply Reentrant.only_bind (confined_lift (failsIn_userList hm 0 _ (by omega)))
    intro users
    apply Reentrant.only_read_bind
    intro c
    apply Reentrant.only_bind
    · apply Reentrant.only_forEach
      intro f _
      refine Reentrant.only_bind (tolerant_inBounds.invoke _ _ ?_) ?_
      · exact fun f => Reentrant.only_ask _
      intro _
      apply Reentrant.only_read_bind
      intro c
      exact Reentrant.only_when fun _ => tolerant_inBounds.undefined
    · exact fun _ => confined_modifyPresence _
  split
  · exact tolerant_inBounds.assert (by decide) _ _
  · next haction =>
      have hone := hm.one_le htopic (by tauto)
      apply Reentrant.only_read_bind
      intro c
      apply Reentrant.only_forEach
      intro id _
      apply Reentrant.only_bind (confined_modifyPresence _)
      intro _
      apply Reentrant.only_read_bind
      intro c
      apply Reentrant.only_bind (confined_lift (hm.failsIn_get (by omega)))
      intro name
      exact tolerant_inBounds.invoke _ _ fun f => Reentrant.only_ask _

end Handlers

section Objects
variable [Build] {send_ : MessageBuilder → Program Bool} (hsend : ∀ m, Bounded (send_ m))
include hsend

omit [Build] hsend in
theorem complete_event {name data : Buffer} (evt : Built .event .event [name, data]) :
    evt.val.view.Complete := by
  have hlength : evt.val.arguments.length = 2 := congrArg List.length evt.property.2
  refine ⟨⟨⟨{ topic := .event, action := .event }, by decide⟩, evt.property.1, ?_⟩, fun i hi => ?_⟩
  · change _ ≤ evt.val.arguments.length ∧ evt.val.arguments.length ≤ _
    rw [hlength]
    decide
  · change ∃ arg, evt.val.get i = .ok arg
    unfold MessageBuilder.get
    rw [List.getElem?_eq_getElem hi]
    exact ⟨_, rfl⟩

theorem bounded_emit (name data : Buffer) : Bounded (Event.emit send_ name data) := by
  unfold Event.emit
  split
  · exact inBounds_thrown _
  · apply Reentrant.only_bind (bounded_build _ _ le_rfl)
    intro evt
    apply Reentrant.only_bind (Reentrant.only_leave _)
    intro _
    apply Reentrant.only_bind (hsend _)
    intro sent
    apply Reentrant.only_bind
    · apply Reentrant.only_when
      intro _
      unfold Event.enqueue
      exact confined_modifyEvent _
    · intro _
      apply Reentrant.only_read_bind
      intro c
      apply Reentrant.only_when
      intro _
      apply bounded_event_notify hsend (complete_event evt)
      change evt.val.header.topic = .event
      rw [evt.property.1]

theorem bounded_subscribe (name : Buffer) (callback : Function) :
    Bounded (Event.subscribe send_ name callback) := by
  unfold Event.subscribe
  split
  · exact inBounds_thrown _
  · apply Reentrant.only_bind confined_nextId
    intro id
    apply Reentrant.only_bind
    · exact Reentrant.only_read_bind fun c =>
        Reentrant.only_bind (confined_modifyEvent _) fun _ => Reentrant.only_pure _
    intro inserted
    apply Reentrant.only_bind (tolerant_inBounds.assert (by decide) _ _)
    intro _
    apply Reentrant.only_bind
    · apply Reentrant.only_read_bind
      intro c
      split
      · exact Reentrant.only_pure _
      · exact Reentrant.only_bind (confined_modifyEvent _) fun _ => Reentrant.only_pure _
    intro subscribers
    apply Reentrant.only_bind (Reentrant.only_when fun _ => bounded_tell hsend _ _ (by simp))
    intro _
    apply Reentrant.only_bind
    · apply Reentrant.only_read_bind
      intro c
      split
      · exact tolerant_inBounds.undefined
      · split
        · exact Reentrant.only_bind (tolerant_inBounds.assert (by decide) _ _)
            fun _ => confined_modifyEvent _
        · exact tolerant_inBounds.undefined
    · exact fun _ => Reentrant.only_pure _

omit hsend in
theorem bounded_eraseFn (id : Nat) : Bounded (Event.eraseFn id) :=
  Reentrant.only_read_bind fun c => Reentrant.only_bind (confined_modifyEvent _)
    fun _ => tolerant_inBounds.assert (by decide) _ _

theorem bounded_unsubscribe (name : Buffer) : Bounded (Event.unsubscribe send_ name) := by
  unfold Event.unsubscribe
  apply Reentrant.only_read_bind
  intro c
  split
  · exact Reentrant.only_pure _
  · apply Reentrant.only_bind (Reentrant.only_forEach fun id _ => bounded_eraseFn id)
    intro _
    apply Reentrant.only_bind (confined_modifyEvent _)
    intro _
    apply Reentrant.only_read_bind
    intro c
    exact Reentrant.only_when fun _ => bounded_tell hsend _ _ (by simp)

theorem bounded_unsubscribeId (name : Buffer) (id : Nat) :
    Bounded (Event.unsubscribeId send_ name id) := by
  unfold Event.unsubscribeId
  apply Reentrant.only_read_bind
  intro c
  split
  · exact Reentrant.only_pure _
  · split
    · apply Reentrant.only_bind (confined_modifyEvent _)
      intro _
      apply Reentrant.only_bind (bounded_eraseFn id)
      intro _
      exact Reentrant.only_when fun _ => bounded_unsubscribe hsend name
    · exact tolerant_inBounds.assert (by decide) _ _

omit [Build] in
theorem bounded_listen (pattern : Buffer) (callback : Function) :
    Bounded (Event.listen send_ pattern callback) := by
  unfold Event.listen
  split
  · exact inBounds_thrown _
  · apply Reentrant.only_read_bind
    intro c
    apply Reentrant.only_when
    intro _
    exact Reentrant.only_bind (confined_modifyEvent _) fun _ => bounded_tell hsend _ _ (by simp)

omit [Build] in
theorem bounded_unlisten (pattern : Buffer) : Bounded (Event.unlisten send_ pattern) := by
  apply Reentrant.only_read_bind
  intro c
  apply Reentrant.only_when
  intro _
  exact Reentrant.only_bind (confined_modifyEvent _) fun _ => bounded_tell hsend _ _ (by simp)

theorem bounded_presence_subscribe (callback : Function) :
    Bounded (Presence.subscribe send_ callback) := by
  apply Reentrant.only_bind confined_nextId
  intro id
  apply Reentrant.only_bind
  · exact Reentrant.only_read_bind fun c =>
      Reentrant.only_bind (confined_modifyPresence _) fun _ => Reentrant.only_pure _
  intro inserted
  apply Reentrant.only_bind (tolerant_inBounds.assert (by decide) _ _)
  intro _
  apply Reentrant.only_read_bind
  intro c
  apply Reentrant.only_bind (Reentrant.only_when fun _ => bounded_tell hsend _ _ (by decide))
  intro _
  exact Reentrant.only_bind (confined_modifyPresence _) fun _ => Reentrant.only_pure _

theorem bounded_presence_unsubscribeId (id : Nat) :
    Bounded (Presence.unsubscribeId send_ id) := by
  apply Reentrant.only_read_bind
  intro c
  apply Reentrant.only_bind (tolerant_inBounds.assert (by decide) _ _)
  intro _
  apply Reentrant.only_when
  intro _
  apply Reentrant.only_bind (confined_modifyPresence _)
  intro _
  apply Reentrant.only_bind (tolerant_inBounds.assert (by decide) _ _)
  intro _
  exact Reentrant.only_when fun _ => bounded_tell hsend _ _ (by decide)

theorem bounded_presence_unsubscribe : Bounded (Presence.unsubscribe send_) := by
  apply Reentrant.only_read_bind
  intro c
  apply Reentrant.only_bind (tolerant_inBounds.assert (by decide) _ _)
  intro _
  exact Reentrant.only_bind (confined_modifyPresence _)
    fun _ => bounded_tell hsend _ _ (by decide)

omit [Build] in
theorem bounded_getAll (f : Function) : Bounded (Presence.getAll send_ f) := by
  apply Reentrant.only_bind (confined_modifyPresence _)
  intro _
  apply Reentrant.only_read_bind
  intro c
  exact Reentrant.only_when fun _ => bounded_tell hsend _ _ (by decide)

end Objects

section Connection
variable [Build] (n : Nat)

theorem bounded_sendAuthenticationRequest : Bounded (Connection.sendAuthenticationRequest n) := by
  apply Reentrant.only_read_bind
  intro c
  apply Reentrant.only_bind (tolerant_inBounds.assert (by decide) _ _)
  intro _
  apply Reentrant.only_bind (tolerant_inBounds.assert (by decide) _ _)
  intro _
  split
  · exact tolerant_inBounds.undefined
  · exact bounded_tell (bounded_send n) _ _ (by simp)

theorem bounded_login (authParams : Buffer) (callback : Function) :
    Bounded (Connection.login n authParams callback) := by
  apply Reentrant.only_read_bind
  intro c
  apply Reentrant.only_when
  intro _
  apply Reentrant.only_bind (Reentrant.only_modify _)
  intro _
  apply Reentrant.only_read_bind
  intro c
  exact Reentrant.only_when fun _ => bounded_sendAuthenticationRequest n

omit [Build] in
theorem bounded_close : Bounded Connection.close :=
  Reentrant.only_bind (Reentrant.only_modify _) fun _ => Reentrant.only_ask _

theorem bounded_transition (m : MessageProxy) : Bounded (Connection.transition n m) := by
  apply Reentrant.only_read_bind
  intro c
  apply Reentrant.only_bind
    (confined_lift (tolerant_inBounds.onlyAsserts (onlyAsserts_transitionIncoming _ _)))
  intro newState
  exact Reentrant.only_bind (Reentrant.only_when fun _ => tolerant_inBounds.report _)
    fun _ => bounded_setState n newState

variable {m : MessageProxy} (hm : m.view.Complete)
include hm

theorem bounded_connectionAction : Bounded (Connection.connectionAction n m) := by
  unfold Connection.connectionAction
  split
  · exact bounded_tell (bounded_send n) _ _ (by simp)
  · apply Reentrant.only_bind (Reentrant.only_ask _)
    intro uri
    exact bounded_tell (bounded_send n) _ _ (by simp)
  · apply Reentrant.only_read_bind
    intro c
    exact Reentrant.only_when fun _ => bounded_sendAuthenticationRequest n
  · split
    · exact tolerant_inBounds.report _
    · next hnum =>
        have hget : FailsIn InBounds (m.get 0) := hm.failsIn_get (Nat.not_lt.mp hnum)
        exact Reentrant.only_bind (confined_lift hget) fun uri => Reentrant.only_ask _
  · apply Reentrant.only_read_bind
    intro c
    exact tolerant_inBounds.report _

theorem bounded_authenticationAction : Bounded (Connection.authenticationAction m) := by
  have hclose : ∀ r, Bounded (Program.report r >>= fun _ => Connection.close) :=
    fun r => Reentrant.only_bind (tolerant_inBounds.report r) fun _ => bounded_close
  unfold Connection.authenticationAction
  split
  · exact hclose _
  · exact hclose _
  · exact hclose _
  · apply Reentrant.only_bind (tolerant_inBounds.assert (by decide) _ _)
    intro _
    apply Reentrant.only_read_bind
    intro c
    split
    · exact Reentrant.only_pure _
    · have hdata : FailsIn InBounds (if m.numArguments < 1 then .ok (bytes "L") else m.get 0) := by
        split
        · exact failsIn_ok _
        · next hnum => exact hm.failsIn_get (Nat.not_lt.mp hnum)
      apply Reentrant.only_bind (confined_lift hdata)
      intro data
      exact tolerant_inBounds.invoke _ _ fun f => Reentrant.only_ask _
  · apply Reentrant.only_read_bind
    intro c
    exact tolerant_inBounds.report _

theorem bounded_handleMessage : Bounded (Connection.handleMessage n m) := by
  unfold Connection.handleMessage
  apply Reentrant.only_read_bind
  intro c
  apply Reentrant.only_bind (Reentrant.only_leave _)
  intro _
  apply Reentrant.only_bind (tolerant_inBounds.debugMsg _)
  intro _
  split
  · next htopic => exact bounded_event_notify (bounded_send n) hm htopic
  · next htopic => exact bounded_presence_notify hm htopic
  · exact Reentrant.only_bind (bounded_transition n m) fun _ => bounded_connectionAction n hm
  · exact Reentrant.only_bind (bounded_authenticationAction hm) fun _ => bounded_transition n m
  · exact Reentrant.only_bind (tolerant_inBounds.report _)
      fun _ => tolerant_inBounds.assert (by decide) _ _

end Connection

section Received
variable [Build] {raw : Buffer} {messages : List MessageProxy} {errors : List Parser.Error}
  (hexecute : Parser.execute (raw ++ [0, 0]) = .ok (messages, errors)) {m : MessageProxy}
  (hm : m ∈ messages)
include hexecute hm

theorem complete_of_execute : m.view.Complete := by
  obtain ⟨offset, s, hreads⟩ := Parser.exists_reads hexecute hm
  refine ⟨⟨s.header, hreads.header, ?_⟩, fun i hi => ?_⟩
  · change s.header.Allows m.numArguments
    rw [hreads.numArguments]
    exact s.allowed
  · have hlt : i < s.arguments.length := hreads.numArguments ▸ hi
    exact ⟨s.arguments[i], hreads.get i hlt⟩

omit [Build] hexecute hm in
theorem le_of_mem_locate {offset : Nat} {arguments : List Buffer} {loc : Location}
    (hloc : loc ∈ Parser.locate offset arguments) :
    loc.offset + loc.size ≤ offset + (payload arguments).length := by
  induction arguments generalizing offset with
  | nil => cases hloc
  | cons a as ih =>
      rw [payload_cons, List.length_append, List.length_cons]
      cases hloc with
      | head => dsimp only; omega
      | tail _ hmem =>
          have hle := ih hmem
          omega

/-- The arguments of a message lie in the buffer that was received. -/
theorem location_le_length {loc : Location} (hloc : loc ∈ m.arguments) :
    loc.offset + loc.size ≤ raw.length := by
  obtain ⟨messages', errors', hexecute', hread, -⟩ := Parser.execute_eq raw
  rw [hexecute] at hexecute'
  cases hexecute'
  obtain ⟨q, -, s, -, rfl, before, after, hraw, hbefore⟩ :=
    (Parser.exists_of_forall₂ hread).1 m hm
  have hle := le_of_mem_locate hloc
  have hlength := congrArg List.length (List.append_cancel_right hraw)
  rw [text_eq] at hlength
  simp only [List.length_append] at hlength
  omega

end Received

section Entries
variable [Build] (n : Nat)

theorem bounded_onMessage (raw : Buffer) : Bounded (Connection.onMessage n raw) := by
  obtain ⟨messages, errors, hexecute, -⟩ := Parser.execute_eq raw
  unfold Connection.onMessage
  rw [hexecute]
  change Bounded (Prog.forEach errors _ >>= fun _ => Prog.forEach messages _)
  apply Reentrant.only_bind
  · exact Reentrant.only_forEach fun error _ => tolerant_inBounds.report _
  · intro _
    apply Reentrant.only_forEach
    intro m hm
    exact bounded_handleMessage n (complete_of_execute hexecute hm)

theorem bounded_onClose : Bounded (Connection.onClose n) := by
  unfold Connection.onClose
  apply Reentrant.only_read_bind
  intro c
  split
  · exact bounded_setState n _
  · apply Reentrant.only_bind (Reentrant.only_modify _)
    intro _
    exact Reentrant.only_bind (bounded_setState n _) fun _ => Reentrant.only_ask _

/-- No entry reads outside of the arguments of a message. -/
theorem bounded_program (e : Entry) : Bounded (program n e) := by
  have hsend := bounded_send n
  cases e with
  | construct uri =>
      apply Reentrant.only_bind (Reentrant.only_ask _)
      intro wsState
      apply Reentrant.only_bind (tolerant_inBounds.assert (by decide) _ _)
      intro _
      apply Reentrant.only_bind (Reentrant.only_ask _)
      intro _
      apply Reentrant.only_bind (Reentrant.only_ask _)
      intro _
      apply Reentrant.only_bind (Reentrant.only_ask _)
      intro never
      nomatch never
  | onOpen =>
      exact Reentrant.only_bind (Reentrant.only_modify _) fun _ => bounded_setState n _
  | onClose => exact bounded_onClose n
  | onError error => exact bounded_onClose n
  | onMessage raw => exact bounded_onMessage n raw
  | login auth callback => exact bounded_login n auth callback
  | close => exact bounded_close
  | emit name data => exact bounded_emit hsend name data
  | subscribe name callback =>
      exact Reentrant.only_bind (bounded_subscribe hsend name callback)
        fun _ => Reentrant.only_pure ()
  | unsubscribe name => exact bounded_unsubscribe hsend name
  | unsubscribeId name id => exact bounded_unsubscribeId hsend name id
  | listen pattern callback => exact bounded_listen hsend pattern callback
  | unlisten pattern => exact bounded_unlisten hsend pattern
  | presenceSubscribe callback =>
      exact Reentrant.only_bind (bounded_presence_subscribe hsend callback)
        fun _ => Reentrant.only_pure ()
  | presenceUnsubscribeId id => exact bounded_presence_unsubscribeId hsend id
  | presenceUnsubscribe => exact bounded_presence_unsubscribe hsend
  | getAll f => exact bounded_getAll hsend f

end Entries

/-- In every run no message is read outside of its arguments, and the arguments of every message
lie in the buffer that was received. -/
theorem accesses_within [Build] (n : Nat) (uri : Buffer) (cfg : Config interface)
    (hreach : Reaches (.any interface) n uri cfg) :
    (∀ f, cfg.fault = some f → InBounds f) ∧
      ∀ raw messages errors, Parser.execute (raw ++ [0, 0]) = .ok (messages, errors) →
        ∀ m ∈ messages, ∀ loc ∈ m.arguments, loc.offset + loc.size ≤ raw.length := by
  refine ⟨fun f hfault => ?_, fun raw messages errors hexecute m hm loc hloc => ?_⟩
  · exact Reentrant.fault_of_reachable (bounded_program n) hreach hfault
  · exact location_le_length hexecute hm hloc

/-- The arguments that callbacks were given, newest first -/
def givenToCallbacks (t : List Item) : List (List Buffer) :=
  t.filterMap fun
    | .call (.subscribeFn _ data) => some [data]
    | .call (.listenFn _ matched _) => some [matched]
    | .call (.queryFn _ users) => some users
    | _ => none

/-- An event, a subscription to a pattern and the answer to a query are handled. -/
def informed : List (Reentrant.Move interface) :=
  loggedIn ++ [.enter (.subscribe (bytes "a") (some 1)), accept, receive "E|EVT|a|Sx+", accept,
    .enter (.listen (bytes "p") (some 2)), accept, receive "E|SP|p|pa+", accept, accept,
    .enter (.getAll (some 3)), accept, receive "U|Q|u|v+", accept]

theorem accesses_within_informed : let _ : Build := debug
    givenToCallbacks (after 9 [] informed).world.trace =
        [[bytes "u", bytes "v"], [bytes "pa"], [bytes "Sx"]] ∧
      (∀ f, (after 9 [] informed).fault = some f → InBounds f) ∧
      ∀ raw messages errors, Parser.execute (raw ++ [0, 0]) = .ok (messages, errors) →
        ∀ m ∈ messages, ∀ loc ∈ m.arguments, loc.offset + loc.size ≤ raw.length := by
  intro _
  exact ⟨by decide +kernel, accesses_within 9 [] _ (reaches_after 9 [] informed)⟩

end Deepstream
