import Deepstream.Attendance
import Deepstream.Delivery
import Deepstream.Reentrant.Nested

/-!
Notifications whose callbacks call back.

The subscribers of an `Event` and of a `Presence` object are notified from a
copy of a list of identifiers, while every callback may subscribe and
unsubscribe. The callback of an identifier is looked up when its turn comes, and
an empty one is called if it is no longer there.
-/

namespace Deepstream

open Reentrant (Lasting answering determined enterAll evaluate performAll undisturbed wp)

/-- An `Event` and a `Presence` object as they should be, and their common counter -/
structure Objects where
  event : List Event.Registration := []
  presence : List Presence.Follower := []
  counter : Nat := 0

/-- The calls that change the subscribers of either object -/
inductive Operation where
  | event (op : Event.Operation)
  | presence (op : Presence.Operation)

namespace Operation

def entry : Operation → Entry
  | event (.subscribe name callback) => .subscribe name.val callback
  | event (.unsubscribe name) => .unsubscribe name.val
  | event (.unsubscribeId name id) => .unsubscribeId name.val id
  | event (.listen pattern callback) => .listen pattern.val callback
  | event (.unlisten pattern) => .unlisten pattern.val
  | presence (.subscribe callback) => .presenceSubscribe callback
  | presence (.unsubscribeId id) => .presenceUnsubscribeId id
  | presence .unsubscribe => .presenceUnsubscribe

def program [Build] : Operation → Program Unit
  | event op => do
      let _ ← op.program
      pure ()
  | presence op => op.program

end Operation

namespace Objects

def registry (o : Objects) : Event.Registry :=
  ⟨o.event, o.counter⟩

def following (o : Objects) : Presence.Following :=
  ⟨o.presence, o.counter⟩

def step (o : Objects) : Operation → Objects
  | .event op =>
      { o with
        event := (o.registry.step op).registrations
        counter := (o.registry.step op).counter }
  | .presence op =>
      { o with
        presence := (o.following.step op).followers
        counter := (o.following.step op).counter }

def Admits [Build] (o : Objects) : Operation → Prop
  | .event op => o.registry.Admits op
  | .presence op => o.following.Admits op

/-- How a client holds both objects -/
structure Represents (o : Objects) (w : World) : Prop where
  event : Event.Represents o.registry w
  presence : Presence.Represents o.following w

theorem Represents.same {o : Objects} {w w' : World} (h : o.Represents w)
    (hstate : w'.state = w.state) : o.Represents w' := by
  constructor
  · apply h.event.same
    · rw [hstate]
      exact h.event.counter
    · rw [hstate]
    · rw [hstate]
      exact fun _ => rfl
  · apply h.presence.same
    · rw [hstate]
      exact h.presence.counter
    · rw [hstate]
    · rw [hstate]
      exact fun _ => rfl

theorem wp_operation [Build] {C : Reentrant.Contract interface} {P : Reentrant.Policy interface}
    (hsends : Sends C P) {o : Objects} {w : World} (op : Operation) (h : o.Represents w)
    (hadmits : o.Admits op) :
    wp C P op.program (fun _ w' => (o.step op).Represents w' ∧ called w' = called w)
      (fun _ _ => False) w := by
  cases op with
  | event op =>
      unfold Operation.program
      rw [Reentrant.wp_bind]
      refine Reentrant.wp_mono (Event.wp_operation hsends op h.event hadmits) ?_ fun _ _ hE => hE
      rintro _ w' ⟨hevent, -, hbeside⟩
      exact ⟨⟨hevent, h.presence.recount hevent.counter hbeside.other⟩, hbeside.called⟩
  | presence op =>
      refine Reentrant.wp_mono
        (Presence.Following.wp_operation hsends op h.presence hadmits) ?_ fun _ _ hE => hE
      rintro _ w' ⟨hpresence, hbeside⟩
      exact ⟨⟨h.event.recount hpresence.counter hbeside.other, hpresence⟩, hbeside.called⟩

end Objects

/-- The turn of an identifier in `Presence::notify_` -/
def Presence.turn (m : Message) (id : Nat) : Program Unit := do
  Program.modifyPresence fun p => { p with subscribeFnMap := p.subscribeFnMap.insertIfNew id none }
  let c ← Reentrant.Prog.read
  let callback := c.presence.subscribeFnMap.getD id none
  let name ← Program.lift (m.get 0)
  Program.invoke callback fun f =>
    Program.ask (.presenceFn f name (m.header.action = .presenceJoin))

/-- What subscribers are notified of -/
inductive Notification where
  | event (name data : Buffer)
  | presence (name : Buffer) (online : Bool)

namespace Notification

/-- The identifiers whose turns there will be -/
def ids (o : Objects) : Notification → List Nat
  | event name _ => o.registry.ids name
  | presence _ _ => o.following.ids

/-- The callback of an identifier -/
def callback (o : Objects) (id : Nat) : Notification → Option Function
  | event _ _ => (o.event.find? (·.id = id)).map Event.Registration.callback
  | presence _ _ => (o.presence.find? (·.id = id)).map Presence.Follower.callback

def call (f : Nat) : Notification → Call
  | event _ data => .subscribeFn f data
  | presence name online => .presenceFn f name online

def ask (f : Nat) : Notification → Program Unit
  | event _ data => Program.ask (.subscribeFn f data)
  | presence name online => Program.ask (.presenceFn f name online)

end Notification

/-- The objects as they should be, and the callbacks that should have been called, newest
first -/
structure Progress where
  objects : Objects := {}
  calls : List Call := []

section Progress
variable (behaviour : Nat → List Operation)

namespace Progress

/-- The callback of an identifier is called if there is one. The `k`-th call of a callback
performs the operations `behaviour k`. -/
def turn (n : Notification) (p : Progress) (id : Nat) : Progress :=
  match n.callback p.objects id with
  | some (some f) =>
      { objects := (behaviour (p.calls.length + 1)).foldl Objects.step p.objects
        calls := n.call f :: p.calls }
  | _ => p

/-- Everybody has a turn who is registered when the notification begins. -/
def notify (n : Notification) (p : Progress) : Progress :=
  (n.ids p.objects).foldl (turn behaviour n) p

/-- An identifier is still registered when its turn comes, its callback is not empty, and what
the callback does is admitted. -/
structure Present [Build] (n : Notification) (p : Progress) (id : Nat) : Prop where
  callback : ∃ f, n.callback p.objects id = some (some f)
  admits : ∀ older op newer, behaviour (p.calls.length + 1) = older ++ op :: newer →
    (older.foldl Objects.step p.objects).Admits op

/-- Nobody is unsubscribed before its turn. -/
def Undisturbed [Build] (n : Notification) (p : Progress) : Prop :=
  Lasting (Present behaviour n) (turn behaviour n) p (n.ids p.objects)

end Progress

/-- A client has done what it should have done. -/
structure Follows (p : Progress) (w : World) : Prop where
  represents : p.objects.Represents w
  called : called w = p.calls

/-- What happens when a callback of a subscriber is called -/
def callingBack [Build] (answer : Replies) (w : World) : Call → Except Failure World
  | .subscribeFn _ _ | .presenceFn _ _ _ =>
      enterAll (.quiet answer) Operation.entry Operation.program (behaviour (called w).length) w
  | _ => .ok w

end Progress

section Calls
variable [Build] {behaviour : Nat → List Operation} {answer : Replies} {fault : Failure → Prop}
  {n : Notification} {p : Progress} {w : World} {id : Nat}

theorem during_callingBack {c : Call} {w' : World}
    (hhappen : callingBack behaviour answer w c = .ok w') : Reentrant.World.During w w' := by
  have hquiet : ∀ (w : World) (c : Call),
      Reentrant.World.During w (Reentrant.Conduct.quiet answer w c).1 := fun w _ => .refl w
  cases c with
  | subscribeFn | presenceFn => exact Reentrant.during_enterAll hquiet hhappen
  | idle | errorHandler | wsState | uri | setUri | wsOpen | wsClose | wsSend | loginCallback
  | listenFn | queryFn =>
      cases hhappen
      exact .refl _

theorem callingBack_obeys (fault : Failure → Prop) :
    (Reentrant.Conduct.happening (callingBack behaviour answer) answer).Obeys
      (determined (callingBack behaviour answer) fault) (answering answer) :=
  Reentrant.happening_obeys (fun _ _ _ => during_callingBack) fault

theorem sends_callingBack (hsends : ∀ w m buffer, ∃ sent, answer w (.wsSend m buffer) = .ok sent) :
    Sends (determined (callingBack behaviour answer) fault) (answering answer) := by
  intro m w Q E hQ
  obtain ⟨sent, hsent⟩ := hsends (Reentrant.World.calling w (.wsSend m [])) m []
  exact Reentrant.wp_ask_happening rfl hsent (hQ sent)

/-- A callback that is called performs its operations and returns. -/
theorem exists_callingBack
    (hsends : ∀ w m buffer, ∃ sent, answer w (.wsSend m buffer) = .ok sent) {f : Nat}
    (h : Follows p w) (hpresent : p.Present behaviour n id) :
    ∃ w', callingBack behaviour answer (Reentrant.World.calling w (n.call f)) (n.call f) = .ok w' ∧
      Follows { objects := (behaviour (p.calls.length + 1)).foldl Objects.step p.objects
                calls := n.call f :: p.calls } w' := by
  have hcalled : called (Reentrant.World.calling w (n.call f)) = n.call f :: p.calls := by
    rw [← h.called]
    cases n <;> rfl
  have hstep : ∀ (o : Objects) (w : World) (op : Operation),
      o.Represents w ∧ called w = n.call f :: p.calls → o.Admits op →
      wp (undisturbed fun _ : Failure => False) (answering answer) op.program
        (fun _ w' => (o.step op).Represents w' ∧ called w' = n.call f :: p.calls)
        (fun _ w' => (o.step op).Represents w' ∧ called w' = n.call f :: p.calls) w := by
    rintro o w op ⟨ho, hw⟩ hadmits
    refine Reentrant.wp_mono (Objects.wp_operation (sends_answering hsends) op ho hadmits) ?_ ?_
    · exact fun _ _ hw' => ⟨hw'.1, hw'.2.trans hw⟩
    · exact fun _ _ hfalse => hfalse.elim
  have hexists : ∃ w', enterAll (.quiet answer) Operation.entry Operation.program
        (behaviour (p.calls.length + 1)) (Reentrant.World.calling w (n.call f)) = .ok w' ∧
      ((behaviour (p.calls.length + 1)).foldl Objects.step p.objects).Represents w' ∧
      called w' = n.call f :: p.calls := by
    apply Reentrant.exists_enterAll (Reentrant.quiet_obeys answer fun _ : Failure => False) hstep
    · exact fun _ _ _ hR => ⟨hR.1.same rfl, hR.2⟩
    · exact fun _ _ _ _ hR => ⟨hR.1.same rfl, hR.2⟩
    · exact fun _ _ hfalse => hfalse
    · exact ⟨h.represents.same rfl, hcalled⟩
    · exact hpresent.admits
  obtain ⟨w', henter, hw'⟩ := hexists
  refine ⟨w', ?_, hw'.1, hw'.2⟩
  rw [← henter, ← List.length_cons, ← hcalled]
  cases n <;> rfl

variable {E : Exception → World → Prop}
  (hsends : ∀ w m buffer, ∃ sent, answer w (.wsSend m buffer) = .ok sent)
  (hreturns : ∀ w f, (∀ data, answer w (.subscribeFn f data) = .ok ()) ∧
    ∀ name online, answer w (.presenceFn f name online) = .ok ())
include hsends hreturns

/-- The call of a callback that is there -/
theorem wp_call {f : Nat} {Q : Unit → World → Prop} (h : Follows p w)
    (hpresent : p.Present behaviour n id) (hf : n.callback p.objects id = some (some f))
    (hQ : ∀ w', Follows (p.turn behaviour n id) w' → Q () w') :
    wp (determined (callingBack behaviour answer) fault) (answering answer)
      (n.ask f) Q E w := by
  obtain ⟨w', hhappen, h'⟩ := exists_callingBack hsends (f := f) h hpresent
  have hturn : p.turn behaviour n id =
      { objects := (behaviour (p.calls.length + 1)).foldl Objects.step p.objects
        calls := n.call f :: p.calls } := by
    unfold Progress.turn
    rw [hf]
  rw [hturn] at hQ
  cases n with
  | event name data =>
      apply Reentrant.wp_ask_happening hhappen ((hreturns w' f).1 data)
      exact hQ _ ⟨h'.represents.same rfl, h'.called⟩
  | presence name online =>
      apply Reentrant.wp_ask_happening hhappen ((hreturns w' f).2 name online)
      exact hQ _ ⟨h'.represents.same rfl, h'.called⟩

omit [Build] hsends hreturns in
theorem Follows.callback_event {name data : Buffer} (h : Follows p w) {f : Nat}
    (hf : Notification.callback p.objects id (.event name data) = some (some f)) :
    w.state.event.subscribeFnMap[id]? = some (some f) := by
  obtain ⟨r, hr, hcallback⟩ := Option.map_eq_some_iff.mp hf
  have hid := List.find?_some hr
  rw [← of_decide_eq_true hid, ← hcallback]
  exact h.represents.event.registered r (List.mem_of_find?_eq_some hr)

omit [Build] hsends hreturns in
theorem Follows.callback_presence {name : Buffer} {online : Bool} (h : Follows p w) {f : Nat}
    (hf : Notification.callback p.objects id (.presence name online) = some (some f)) :
    w.state.presence.subscribeFnMap[id]? = some (some f) := by
  obtain ⟨r, hr, hcallback⟩ := Option.map_eq_some_iff.mp hf
  have hid := List.find?_some hr
  rw [← of_decide_eq_true hid, ← hcallback]
  exact h.represents.presence.registered r (List.mem_of_find?_eq_some hr)

/-- A turn in `Event::notify_subscribers_` -/
theorem wp_turn_event {name data : Buffer} (h : Follows p w)
    (hpresent : p.Present behaviour (.event name data) id) :
    wp (determined (callingBack behaviour answer) fault) (answering answer) (Event.turn data id)
      (fun _ => Follows (p.turn behaviour (.event name data) id)) E w := by
  obtain ⟨f, hf⟩ := hpresent.callback
  have hfound := h.callback_event hf
  have hfns := Event.lookup_insertIfNew_of_found hfound none
  have hcallback := Event.getD_insertIfNew_of_found hfound none none
  unfold Event.turn
  rw [Reentrant.wp_bind, wp_modifyEvent, Reentrant.wp_bind, Reentrant.wp_read, hcallback]
  refine wp_call hsends hreturns ?_ hpresent hf ?_
  · refine ⟨⟨?_, ?_⟩, h.called⟩
    · exact h.represents.event.same h.represents.event.counter rfl hfns
    · exact h.represents.presence.recount h.represents.presence.counter rfl
  · exact fun _ h' => h'

variable {m : Message} {name : Buffer} {online : Bool}

/-- A turn in `Presence::notify_` -/
theorem wp_turn_presence (h : Follows p w) (hname : m.get 0 = .ok name)
    (honline : decide (m.header.action = .presenceJoin) = online)
    (hpresent : p.Present behaviour (.presence name online) id) :
    wp (determined (callingBack behaviour answer) fault) (answering answer) (Presence.turn m id)
      (fun _ => Follows (p.turn behaviour (.presence name online) id)) E w := by
  obtain ⟨f, hf⟩ := hpresent.callback
  have hfound := h.callback_presence hf
  have hfns := Event.lookup_insertIfNew_of_found hfound none
  have hcallback := Event.getD_insertIfNew_of_found hfound none none
  unfold Presence.turn
  rw [Reentrant.wp_bind, wp_modifyPresence, Reentrant.wp_bind, Reentrant.wp_read, hcallback, hname,
    Reentrant.wp_bind, wp_lift_ok, honline]
  refine wp_call hsends hreturns ?_ hpresent hf ?_
  · refine ⟨⟨?_, ?_⟩, h.called⟩
    · exact h.represents.event.recount h.represents.event.counter rfl
    · exact h.represents.presence.same h.represents.presence.counter rfl hfns
  · exact fun _ h' => h'

/-- A message says that somebody has come or gone. -/
structure Presence.Tells (m : Message) (name : Buffer) (online : Bool) : Prop where
  header : m.header =
    { topic := .presence, action := if online then .presenceJoin else .presenceLeave }
  name : m.get 0 = .ok name

/-- `Presence::notify_` goes through all subscribers. -/
theorem wp_notify_presence (hm : Presence.Tells m name online) (h : Follows p w)
    (hundisturbed : p.Undisturbed behaviour (.presence name online)) :
    wp (determined (callingBack behaviour answer) fault) (answering answer) (Presence.notify m)
      (fun _ => Follows (p.notify behaviour (.presence name online))) E w := by
  have htopic : m.header.topic = .presence := by rw [hm.header]
  have haction : m.header.action = if online then .presenceJoin else .presenceLeave := by
    rw [hm.header]
  have honline : decide (m.header.action = .presenceJoin) = online := by
    rw [haction]
    cases online <;> rfl
  have hack : ¬((m.header.action = .subscribe ∨ m.header.action = .unsubscribe) ∧
      m.header.isAck = true) := by
    rw [hm.header]
    exact fun hboth => absurd hboth.2 Bool.false_ne_true
  have hquery : m.header.action ≠ .query := by
    rw [haction]
    cases online <;> decide
  have hmoved : ¬(m.header.action ≠ .presenceJoin ∧ m.header.action ≠ .presenceLeave) := by
    rw [haction]
    cases online <;> decide
  unfold Presence.notify
  rw [Reentrant.wp_bind, wp_assert _ _ _ htopic, if_neg hack, if_neg hquery, if_neg hmoved,
    Reentrant.wp_bind, Reentrant.wp_read]
  change wp _ _ (Reentrant.Prog.forEach _ (Presence.turn m)) _ _ _
  rw [h.represents.presence.subscribers]
  exact Reentrant.wp_forEach_lasting (fun _ _ _ h hpresent =>
    wp_turn_presence hsends hreturns h hm.name honline hpresent) _ h hundisturbed

theorem wp_turns_event {data : Buffer} {node : Node (List Nat)} (h : Follows p w)
    (hnode : w.state.event.subscriberMap[name]? = some node)
    (hundisturbed : p.Undisturbed behaviour (.event name data)) :
    wp (determined (callingBack behaviour answer) fault) (answering answer)
      (Reentrant.Prog.forEach node.value (Event.turn data))
      (fun _ => Follows (p.notify behaviour (.event name data))) E w := by
  rw [(h.represents.event.found name node hnode).1]
  exact Reentrant.wp_forEach_lasting (fun _ _ _ h hpresent =>
    wp_turn_event hsends hreturns h hpresent) _ h hundisturbed

omit [Build] hsends hreturns in
theorem Follows.queued {w₁ : World} (h : Follows p w) (hqueued : Event.Queued w w₁) :
    Follows p w₁ := by
  obtain ⟨queue, hstate⟩ := hqueued.state
  refine ⟨⟨h.represents.event.queued hqueued, ?_⟩, hqueued.called.trans h.called⟩
  apply h.represents.presence.recount
  · rw [hstate]
    exact h.represents.presence.counter
  · rw [hstate]

omit [Build] hsends hreturns in
theorem Follows.notify_missing {data : Buffer} (h : Follows p w)
    (hnode : w.state.event.subscriberMap[name]? = none) :
    Follows (p.notify behaviour (.event name data)) w := by
  have hids : Notification.ids p.objects (.event name data) = [] :=
    h.represents.event.missing name hnode
  unfold Progress.notify
  rw [hids]
  exact h

/-- `Event::notify_` goes through the subscribers of the name. -/
theorem wp_notify_event {data : Buffer} (hm : Event.Carries m name data) (h : Follows p w)
    (hundisturbed : p.Undisturbed behaviour (.event name data)) :
    wp (determined (callingBack behaviour answer) fault) (answering answer)
      (Event.notify mockSend m) (fun _ => Follows (p.notify behaviour (.event name data))) E w :=
  Event.wp_notify_of hm h.notify_missing fun _ hnode =>
    wp_turns_event hsends hreturns h hnode hundisturbed

end Calls

/-- A message for a `Presence` object -/
structure Presence.Incoming [Build] where
  message : MessageProxy
  name : Buffer
  online : Bool
  tells : Presence.Tells message.view name online

/-- What can happen to the two objects -/
inductive Happening [Build] where
  | operation (op : Operation)
  | emit (name : Event.Name) (data : Buffer)
  | received (incoming : Event.Incoming)
  | presenceReceived (incoming : Presence.Incoming)

section Happenings
variable [Build]

namespace Happening

def program : Happening → Program Unit
  | operation op => op.program
  | emit name data => Event.emit mockSend name.val data
  | received incoming => Event.notify mockSend incoming.message.view
  | presenceReceived incoming => Presence.notify incoming.message.view

/-- What the subscribers are notified of; data that cannot be an argument is refused. -/
def notification : Happening → Option Notification
  | operation _ => none
  | emit name data => if asciiUnitSeparator ∈ data then none else some (.event name.val data)
  | received incoming => some (.event incoming.name incoming.data)
  | presenceReceived incoming => some (.presence incoming.name incoming.online)

end Happening

namespace Progress
variable (behaviour : Nat → List Operation)

def noticed (p : Progress) : Option Notification → Progress
  | none => p
  | some n => p.notify behaviour n

def after (p : Progress) : Happening → Progress
  | .operation op => { p with objects := p.objects.step op }
  | .emit name data => p.noticed behaviour (Happening.emit name data).notification
  | .received incoming => p.noticed behaviour (Happening.received incoming).notification
  | .presenceReceived incoming =>
      p.noticed behaviour (Happening.presenceReceived incoming).notification

variable {behaviour}

theorem after_of_notification {p : Progress} {h : Happening} {n : Notification}
    (hn : h.notification = some n) : p.after behaviour h = p.notify behaviour n := by
  have hnoticed : p.noticed behaviour h.notification = p.notify behaviour n := by
    rw [hn]
    rfl
  cases h with
  | operation op => cases hn
  | emit | received | presenceReceived => exact hnoticed

theorem after_of_refused {p : Progress} {name : Event.Name} {data : Buffer}
    (hdata : asciiUnitSeparator ∈ data) : p.after behaviour (.emit name data) = p := by
  change p.noticed behaviour (if asciiUnitSeparator ∈ data then none else _) = p
  rw [if_pos hdata]
  rfl

variable (behaviour)

/-- Operations are admitted, and nobody is unsubscribed before its turn. -/
structure Admits (p : Progress) (h : Happening) : Prop where
  operation : ∀ op, h = .operation op → p.objects.Admits op
  notification : ∀ n ∈ h.notification, p.Undisturbed behaviour n

end Progress

/-- The keys of `subscribe_fn_map_` are the subscribers. -/
structure Presence.WellFormed (p : Presence) : Prop where
  nodup : p.subscribers.Nodup
  keys : ∀ id : Nat, id ∈ p.subscribeFnMap ↔ id ∈ p.subscribers

omit [Build] in
theorem Presence.Represents.wellFormed {s : Presence.Following} {w : World}
    (h : Presence.Represents s w) : Presence.WellFormed w.state.presence where
  nodup := by
    rw [h.subscribers]
    exact h.nodup
  keys id := by
    rw [h.subscribers]
    exact h.mem_fns id

/-- Nothing is thrown, the callbacks that should be called are called in order, and both objects
are well formed afterwards. -/
def Notifies (answer : Replies) (behaviour : Nat → List Operation) (n : Notification)
    (p : Progress) (h : Happening) (w : World) : Prop :=
  Reentrant.Ends
    (fun _ w' => Follows (p.notify behaviour n) w' ∧ Event.WellFormed w'.state.event ∧
      Presence.WellFormed w'.state.presence)
    (fun _ _ => False) (fun _ _ => False)
    (evaluate (.happening (callingBack behaviour answer) answer) h.program w)

section Step
variable {answer : Replies} {behaviour : Nat → List Operation}
  (hsends : ∀ w m buffer, ∃ sent, answer w (.wsSend m buffer) = .ok sent)
  (hreturns : ∀ w f, (∀ data, answer w (.subscribeFn f data) = .ok ()) ∧
    ∀ name online, answer w (.presenceFn f name online) = .ok ())
include hsends hreturns

theorem wp_happening {p : Progress} {w : World} (h : Happening) (hfollows : Follows p w)
    (hadmits : p.Admits behaviour h) :
    wp (determined (callingBack behaviour answer) fun _ : Failure => False) (answering answer)
      h.program (fun _ => Follows (p.after behaviour h))
      (fun _ w' => h.notification = none ∧ Follows (p.after behaviour h) w') w := by
  cases h with
  | operation op =>
      refine Reentrant.wp_mono (Objects.wp_operation (sends_callingBack hsends) op
        hfollows.represents (hadmits.operation op rfl)) ?_ fun _ _ hfalse => hfalse.elim
      exact fun _ _ hw => ⟨hw.1, hw.2.trans hfollows.called⟩
  | emit name data =>
      apply Event.wp_emit_of (sends_callingBack hsends) name.property.1 name.property.2
      · intro hdata _
        rw [Progress.after_of_refused hdata]
        exact ⟨if_pos hdata, hfollows⟩
      · intro hdata w₁ hqueued hnode
        have hsome : (Happening.emit name data).notification = some (.event name.val data) :=
          if_neg hdata
        rw [Progress.after_of_notification hsome]
        exact (hfollows.queued hqueued).notify_missing hnode
      · intro hdata w₁ node hqueued hnode
        have hsome : (Happening.emit name data).notification = some (.event name.val data) :=
          if_neg hdata
        rw [Progress.after_of_notification hsome]
        exact wp_turns_event hsends hreturns (hfollows.queued hqueued) hnode
          (hadmits.notification _ hsome)
  | received incoming =>
      exact wp_notify_event hsends hreturns incoming.carries hfollows (hadmits.notification _ rfl)
  | presenceReceived incoming =>
      exact wp_notify_presence hsends hreturns incoming.tells hfollows
        (hadmits.notification _ rfl)

end Step

/-- As long as operations are admitted and nobody is unsubscribed before its turn, every
notification calls the callbacks that it should call. -/
theorem notifies_of_undisturbed (answer : Replies)
    (hsends : ∀ w m buffer, ∃ sent, answer w (.wsSend m buffer) = .ok sent)
    (hreturns : ∀ w f, (∀ data, answer w (.subscribeFn f data) = .ok ()) ∧
      ∀ name online, answer w (.presenceFn f name online) = .ok ())
    (behaviour : Nat → List Operation) (hs : List Happening) (h : Happening)
    (hadmits : ∀ older h' newer, hs ++ [h] = older ++ h' :: newer →
      (older.foldl (Progress.after behaviour) {}).Admits behaviour h') :
    ∃ w, performAll (.happening (callingBack behaviour answer) answer) Happening.program hs
        { state := {} } = .ok w ∧
      ∀ n ∈ h.notification,
        Notifies answer behaviour n (hs.foldl (Progress.after behaviour) {}) h w := by
  have hobeys : (Reentrant.Conduct.happening (callingBack behaviour answer) answer).Obeys
      (determined (callingBack behaviour answer) fun _ => False) (answering answer) :=
    callingBack_obeys fun _ => False
  have hstart : Follows {} { state := {} } :=
    ⟨⟨Event.represents_nil, Presence.represents_nil⟩, rfl⟩
  have hstep : ∀ (p : Progress) (w : World) (h : Happening), Follows p w → p.Admits behaviour h →
      wp (determined (callingBack behaviour answer) fun _ : Failure => False) (answering answer)
        h.program (fun _ => Follows (p.after behaviour h))
        (fun _ => Follows (p.after behaviour h)) w :=
    fun _ _ h hfollows hadmits => Reentrant.wp_mono
      (wp_happening hsends hreturns h hfollows hadmits) (fun _ _ hw => hw) fun _ _ hw => hw.2
  have hearlier : ∀ older h' newer, hs = older ++ h' :: newer →
      (older.foldl (Progress.after behaviour) {}).Admits behaviour h' := by
    rintro older h' newer rfl
    apply hadmits older h' (newer ++ [h])
    rw [List.append_assoc, List.cons_append]
  obtain ⟨w, hperform⟩ := Reentrant.exists_performAll hobeys hstep (fun _ _ hfalse => hfalse) hs
    hstart hearlier
  have hfollows := Reentrant.simulates hobeys hstep hs hstart hearlier hperform
  refine ⟨w, hperform, fun n hn => ?_⟩
  have hwp := wp_happening hsends hreturns h hfollows (hadmits hs h [] rfl)
  have hafter : (hs.foldl (Progress.after behaviour) {}).after behaviour h =
      (hs.foldl (Progress.after behaviour) {}).notify behaviour n :=
    Progress.after_of_notification hn
  rw [hafter] at hwp
  refine Reentrant.ends_of_wp hobeys (Reentrant.wp_mono hwp ?_ ?_)
  · exact fun _ _ hw => ⟨hw, hw.represents.event.wellFormed, hw.represents.presence.wellFormed⟩
  · rintro _ _ ⟨hnone, -⟩
    rw [hnone] at hn
    cases hn

end Happenings

/-- Two subscribers of `a` -/
def twoSubscribers [Build] : List Happening :=
  [.operation (.event (.subscribe Event.nameA (some 0))),
    .operation (.event (.subscribe Event.nameA (some 1)))]

/-- The first callback that is called unsubscribes from `a`. -/
def unsubscribing (id : Nat) (k : Nat) : List Operation :=
  if k = 1 then [.event (.unsubscribeId Event.nameA id)] else []

theorem notifies_unsubscribed_itself : let _ : Build := release
    ∃ w, performAll (.happening (callingBack (unsubscribing 0) accepting) accepting)
        Happening.program twoSubscribers { state := {} } = .ok w ∧
      ∀ n ∈ (Happening.emit Event.nameA []).notification,
        Notifies accepting (unsubscribing 0) n
          (twoSubscribers.foldl (Progress.after (unsubscribing 0)) {})
          (.emit Event.nameA []) w := by
  intro _
  refine notifies_of_undisturbed accepting (fun _ _ _ => ⟨true, rfl⟩)
    (fun _ _ => ⟨fun _ => rfl, fun _ _ => rfl⟩) (unsubscribing 0) twoSubscribers _ ?_
  intro older h newer hhs
  rcases older with _ | ⟨_, _ | ⟨_, _ | ⟨_, older⟩⟩⟩
  · cases hhs
    refine ⟨?_, by rintro _ ⟨⟩⟩
    rintro _ ⟨⟩
    exact List.not_mem_nil
  · cases hhs
    refine ⟨?_, by rintro _ ⟨⟩⟩
    rintro _ ⟨⟩
    change 1 ∉ [0]
    decide
  · cases hhs
    refine ⟨by rintro _ ⟨⟩, ?_⟩
    rintro _ ⟨⟩
    refine ⟨⟨⟨0, rfl⟩, ?_⟩, ⟨⟨1, rfl⟩, ?_⟩, trivial⟩
    · intro older op newer hops
      change [_] = older ++ op :: newer at hops
      rcases older with _ | ⟨_, older⟩
      · cases hops
        rintro ⟨⟩
      · exact absurd (congrArg List.length hops) (by simp)
    · intro older op newer hops
      change [] = older ++ op :: newer at hops
      exact absurd hops.symm (List.append_ne_nil_of_right_ne_nil _ (List.cons_ne_nil _ _))
  · exact absurd (congrArg List.length hhs) (by simp [twoSubscribers])

/-- A callback unsubscribes the next one, which is then looked up and is empty. -/
theorem not_notifies_unsubscribed : let _ : Build := release
    ¬∀ answer : Replies, (∀ w m buffer, ∃ sent, answer w (.wsSend m buffer) = .ok sent) →
      (∀ w f, (∀ data, answer w (.subscribeFn f data) = .ok ()) ∧
        ∀ name online, answer w (.presenceFn f name online) = .ok ()) →
      ∀ behaviour hs h, ∃ w,
        performAll (.happening (callingBack behaviour answer) answer) Happening.program hs
          { state := {} } = .ok w ∧
        ∀ n ∈ h.notification,
          Notifies answer behaviour n (hs.foldl (Progress.after behaviour) {}) h w := by
  intro _ hclaim
  obtain ⟨w, hperform, hnotifies⟩ := hclaim accepting (fun _ _ _ => ⟨true, rfl⟩)
    (fun _ _ => ⟨fun _ => rfl, fun _ _ => rfl⟩) (unsubscribing 1) twoSubscribers
    (.emit Event.nameA [])
  cases hperform
  exact hnotifies (.event (bytes "a") []) rfl

end Deepstream
