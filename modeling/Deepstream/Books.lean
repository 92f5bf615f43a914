import Deepstream.Client.Aside
import Deepstream.Client.Socket
import Deepstream.Listening

/-!
The books of a client: the events it emitted and its server accepted, and what the server was
told of patterns and subscriptions.

Events are sent as they are emitted or wait in the queue. Subscriptions and
patterns are sent as they are registered or when the connection opens. Outside
of the calls of the socket nothing is in between: what was accepted and what
waits is what was emitted, and an open connection has no queue and nothing left
to announce.
-/

namespace Deepstream

open Reentrant (Keeps Policy Prog Regime wp)

/-- What is announced when something is registered, and when it is removed -/
inductive Announces : Action → Action → Prop where
  | listeners : Announces .listen .unlisten
  | subscribers : Announces .subscribe .unsubscribe

/-- Messages about events that the books are kept of -/
def MessageBuilder.isBooked (m : MessageBuilder) : Bool :=
  m.header.topic = .event ∧ m.header.action ∈ [Action.event, Action.listen, Action.unlisten,
    Action.subscribe, Action.unsubscribe]

/-- The events that were emitted, newest first -/
def emittedEvents : List Item → List MessageBuilder
  | [] => []
  | .note (.emitted m) :: t => m :: emittedEvents t
  | _ :: t => emittedEvents t

/-- The events that the socket accepted, newest first -/
def acceptedEvents : List Item → List MessageBuilder
  | [] => []
  | .back (.wsSend m _) (.ok true) :: t =>
      if m.header.topic = .event ∧ m.header.action = .event then m :: acceptedEvents t
      else acceptedEvents t
  | _ :: t => acceptedEvents t

namespace NameMap

theorem not_mem_of_toList {α : Type} {map : NameMap α} {done rest : List (Buffer × α)}
    {entry : Buffer × α} (h : map.toList = done ++ entry :: rest) :
    entry.1 ∉ rest.map Prod.fst := by
  have hordered := Std.TreeMap.ordered_keys_toList (t := map)
  rw [h, List.pairwise_append, List.pairwise_cons] at hordered
  intro hmem
  obtain ⟨other, hother, hname⟩ := List.mem_map.mp hmem
  have hlt := hordered.2.1.1 other hother
  have hself : compareBytes entry.1 entry.1 = .eq := Std.ReflCmp.compare_self
  rw [hname, hself] at hlt
  cases hlt

end NameMap

/-- What the books say something about -/
def Item.isBooked : Item → Bool
  | .note (.emitted _) => true
  | .note (.became c) => c.state = .open
  | .back (.wsSend m _) (.ok true) => m.isBooked
  | _ => false

section Books
variable {i : Item} (hi : i.isBooked = false) (t : List Item)
include hi

theorem emittedEvents_cons : emittedEvents (i :: t) = emittedEvents t := by
  rw [emittedEvents.eq_def]
  split
  · next h => cases h
  · next h =>
      cases h
      cases hi
  · next h =>
      cases h
      rfl

theorem acceptedEvents_cons : acceptedEvents (i :: t) = acceptedEvents t := by
  rw [acceptedEvents.eq_def]
  split
  · next h => cases h
  · next m _ _ h =>
      cases h
      have hm : ¬(m.header.topic = .event ∧ m.header.action = .event) := fun hevent =>
        of_decide_eq_false hi ⟨hevent.1, by rw [hevent.2]; decide⟩
      rw [if_neg hm]
  · next h =>
      cases h
      rfl

theorem acceptedSince_cons {first second : Action} (hpair : Announces first second)
    (name : Buffer) : acceptedSince first second name (i :: t) =
      acceptedSince first second name t := by
  rw [acceptedSince.eq_def]
  split
  · next h => cases h
  · next h =>
      cases h
      exact if_neg (of_decide_eq_false hi)
  · next m _ _ h =>
      cases h
      have hm : ¬(m.header.topic = .event ∧
          (m.header.action = first ∨ m.header.action = second) ∧ m.arguments = [name]) := by
        rintro ⟨htopic, haction, -⟩
        refine of_decide_eq_false hi ⟨htopic, ?_⟩
        cases hpair <;> rcases haction with haction | haction <;> rw [haction] <;> decide
      rw [if_neg hm]
  · next h =>
      cases h
      rfl

end Books

/-- Nothing has happened that the books say something about. -/
structure Unbooked (w w' : World) : Prop where
  trace : ∃ t, w'.trace = t ++ w.trace ∧ ∀ i ∈ t, Item.isBooked i = false
  event : w'.state.event = w.state.event

namespace Unbooked

theorem refl (w : World) : Unbooked w w :=
  ⟨⟨[], rfl, by simp⟩, rfl⟩

theorem trans {w w' w'' : World} (h : Unbooked w w') (h' : Unbooked w' w'') : Unbooked w w'' := by
  obtain ⟨t, ht, hquiet⟩ := h.trace
  obtain ⟨t', ht', hquiet'⟩ := h'.trace
  refine ⟨⟨t' ++ t, by rw [ht', ht, List.append_assoc], ?_⟩, h'.event.trans h.event⟩
  exact List.forall_mem_append.mpr ⟨hquiet', hquiet⟩

theorem cons {w w' : World} {i : Item} (htrace : w'.trace = i :: w.trace)
    (hi : i.isBooked = false) (hevent : w'.state.event = w.state.event) : Unbooked w w' :=
  ⟨⟨[i], htrace, by simpa using hi⟩, hevent⟩

theorem modified {w w' : World} (htrace : w'.trace = w.trace)
    (hevent : w'.state.event = w.state.event) : Unbooked w w' :=
  ⟨⟨[], htrace, by simp⟩, hevent⟩

theorem emittedEvents {w w' : World} (h : Unbooked w w') :
    emittedEvents w'.trace = emittedEvents w.trace := by
  obtain ⟨t, ht, hquiet⟩ := h.trace
  rw [ht]
  clear ht
  induction t with
  | nil => rfl
  | cons i t ih =>
      obtain ⟨hi, ht⟩ := List.forall_mem_cons.mp hquiet
      rw [List.cons_append, emittedEvents_cons hi, ih ht]

theorem acceptedEvents {w w' : World} (h : Unbooked w w') :
    acceptedEvents w'.trace = acceptedEvents w.trace := by
  obtain ⟨t, ht, hquiet⟩ := h.trace
  rw [ht]
  clear ht
  induction t with
  | nil => rfl
  | cons i t ih =>
      obtain ⟨hi, ht⟩ := List.forall_mem_cons.mp hquiet
      rw [List.cons_append, acceptedEvents_cons hi, ih ht]

theorem acceptedSince {w w' : World} (h : Unbooked w w') {first second : Action}
    (hpair : Announces first second) (name : Buffer) :
    acceptedSince first second name w'.trace = acceptedSince first second name w.trace := by
  obtain ⟨t, ht, hquiet⟩ := h.trace
  rw [ht]
  clear ht
  induction t with
  | nil => rfl
  | cons i t ih =>
      obtain ⟨hi, ht⟩ := List.forall_mem_cons.mp hquiet
      rw [List.cons_append, acceptedSince_cons hi _ hpair, ih ht]

end Unbooked

/-- A name that can be announced -/
def Announceable (name : Buffer) : Prop :=
  asciiUnitSeparator ∉ name ∧ name.length < 2 ^ 31

instance (name : Buffer) : Decidable (Announceable name) :=
  inferInstanceAs (Decidable (_ ∧ _))

/-- Nothing that waits to be sent can fail to be written. -/
structure Writable (e : Event) : Prop where
  subscribers : ∀ name ∈ e.subscriberMap, Announceable name
  listeners : ∀ pattern ∈ e.listenerMap, Announceable pattern
  queue : ∀ m ∈ e.sendQueue, m.val.payloadSize < 2 ^ 31

/-- The events that wait to be sent, oldest first -/
def queuedEvents (e : Event) : List MessageBuilder :=
  e.sendQueue.map fun m : EventMessage => m.val

/-- What was accepted and what waits is what was emitted. -/
structure Booked (w : World) : Prop where
  writable : Writable w.state.event
  events : emittedEvents w.trace =
    (queuedEvents w.state.event).reverse ++ acceptedEvents w.trace

/-- The server was told once of every pattern that is listened to, and of no other. A pattern is not
given up while the connection is open, since the message about it cannot be written. -/
def KnowsPatterns (w : World) : Prop :=
  ∀ pattern, acceptedSince .listen .unlisten pattern w.trace =
    if pattern ∈ w.state.event.listenerMap then [.listen] else []

/-- The server was told of every name in turns, and believes of no other name than those with
subscribers that there is a subscription. -/
def KnowsSubscriptions (w : World) : Prop :=
  ∀ name, Alternates .subscribe .unsubscribe (acceptedSince .subscribe .unsubscribe name w.trace) ∧
    ((acceptedSince .subscribe .unsubscribe name w.trace).head? = some .subscribe →
      name ∈ w.state.event.subscriberMap)

/-- The server knows the patterns that are listened to, and of the subscriptions that there are. It
may know of subscriptions that were removed, unless the application is tidy. -/
structure Told (tidy : Prop) (w : World) : Prop where
  listeners : KnowsPatterns w
  subscribers : ∀ name ∈ w.state.event.subscriberMap,
    (acceptedSince .subscribe .unsubscribe name w.trace).head? = some .subscribe
  exact : tidy → KnowsSubscriptions w

/-- Nothing waits while the connection is open. -/
structure Current (tidy : Prop) (w : World) : Prop extends Booked w where
  queue : w.state.state = .open → w.state.event.sendQueue = []
  told : w.state.state = .open → Told tidy w

/-- Every name has subscribers, except for some. -/
def PeopledBut (excepted : Buffer → Prop) (e : Event) : Prop :=
  ∀ name node, e.subscriberMap[name]? = some node → ¬excepted name → node.value ≠ []

/-- Nothing waits, and every name has subscribers. -/
structure UpToDate (tidy : Prop) (w : World) : Prop extends Current tidy w where
  peopled : PeopledBut (fun _ => False) w.state.event

/-- Nothing waits, while the last subscriber of a name may be gone, or the first one to come. -/
structure UpToDateBut (tidy : Prop) (name : Buffer) (w : World) : Prop extends Current tidy w where
  peopled : PeopledBut (· = name) w.state.event

theorem UpToDate.but {tidy : Prop} {w : World} (h : UpToDate tidy w) (name : Buffer) :
    UpToDateBut tidy name w :=
  ⟨h.toCurrent, fun other node hnode _ => h.peopled other node hnode not_false⟩

theorem Booked.unbooked {w w' : World} (h : Booked w) (hsame : Unbooked w w') : Booked w' := by
  constructor
  · rw [hsame.event]
    exact h.writable
  · rw [hsame.emittedEvents, hsame.acceptedEvents, hsame.event]
    exact h.events

theorem KnowsPatterns.same {w w' : World} (h : KnowsPatterns w)
    (hlisteners : w'.state.event.listenerMap = w.state.event.listenerMap)
    (hsince : ∀ pattern, acceptedSince .listen .unlisten pattern w'.trace =
      acceptedSince .listen .unlisten pattern w.trace) : KnowsPatterns w' := by
  intro pattern
  rw [hsince, hlisteners]
  exact h pattern

section Same
variable {tidy : Prop} {w w' : World}

/-- Nothing is announced or removed. -/
theorem Told.same (h : Told tidy w)
    (hlisteners : w'.state.event.listenerMap = w.state.event.listenerMap)
    (hsubscribers : ∀ name,
      name ∈ w'.state.event.subscriberMap ↔ name ∈ w.state.event.subscriberMap)
    (hsince : ∀ first second, Announces first second → ∀ name,
      acceptedSince first second name w'.trace = acceptedSince first second name w.trace) :
    Told tidy w' where
  listeners := h.listeners.same hlisteners (hsince _ _ .listeners)
  subscribers name hmem := by
    rw [hsince _ _ .subscribers]
    exact h.subscribers name ((hsubscribers name).mp hmem)
  exact htidy name := by
    rw [hsince _ _ .subscribers, hsubscribers]
    exact h.exact htidy name

theorem UpToDate.unbooked (h : UpToDate tidy w) (hsame : Unbooked w w')
    (hstate : w'.state.state = .open → w.state.state = .open) : UpToDate tidy w' where
  toBooked := h.toBooked.unbooked hsame
  queue hopen := hsame.event ▸ h.queue (hstate hopen)
  told hopen := (h.told (hstate hopen)).same (congrArg _ hsame.event)
    (fun _ => by rw [hsame.event]) fun _ _ => hsame.acceptedSince
  peopled := hsame.event ▸ h.peopled

/-- A connection that is not open only has to keep its books. -/
theorem Booked.closed (h : Booked w) (hpeopled : PeopledBut (fun _ => False) w.state.event)
    (hstate : w.state.state ≠ .open) : UpToDate tidy w :=
  ⟨⟨h, fun hopen => absurd hopen hstate, fun hopen => absurd hopen hstate⟩, hpeopled⟩

theorem UpToDate.lost (h : UpToDate tidy w) (hsame : Unbooked w w')
    (hstate : w'.state.state ≠ .open) : UpToDate tidy w' :=
  h.unbooked hsame fun hopen => absurd hopen hstate

end Same

/-- The names and events of the application can be written. -/
def Entry.IsWritable : Entry → Prop
  | .emit name data => name.length + data.length < 2 ^ 31
  | .subscribe name _ | .listen name _ => Announceable name
  | _ => True

instance : (e : Entry) → Decidable e.IsWritable
  | .emit _ _ => Nat.decLt _ _
  | .subscribe name _ | .listen name _ => instDecidableAnnounceable name
  | .construct _ | .onOpen | .onClose | .onError _ | .onMessage _ | .login _ _ | .close |
    .unsubscribe _ | .unsubscribeId _ _ | .unlisten _ | .presenceSubscribe _ |
    .presenceUnsubscribeId _ | .presenceUnsubscribe | .getAll _ => instDecidableTrue

/-- A subscription is only given up while the connection is open if it is the only one. -/
def Entry.IsTidy (c : Client) : Entry → Prop
  | .unsubscribe name => c.state = .open → name ∈ c.event.subscriberMap →
      c.event.subscriberMap.size = 1
  | .unsubscribeId name id => c.state = .open →
      (c.event.subscriberMap[name]?).map Node.value = some [id] →
      c.event.subscriberMap.size = 1
  | _ => True

instance (c : Client) : (e : Entry) → Decidable (e.IsTidy c)
  | .unsubscribe _ | .unsubscribeId _ _ => inferInstanceAs (Decidable (_ → _ → _))
  | .construct _ | .onOpen | .onClose | .onError _ | .onMessage _ | .login _ _ | .close |
    .emit _ _ | .subscribe _ _ | .listen _ _ | .unlisten _ | .presenceSubscribe _ |
    .presenceUnsubscribeId _ | .presenceUnsubscribe | .getAll _ => instDecidableTrue

/-- The methods during which a socket may report what has become of the connection -/
def Call.isTransfer : Call → Bool
  | .wsOpen | .wsSend _ _ => true
  | _ => false

/-- A socket that calls back about the connection only while it opens or sends, and does so before
it refuses a message about events, unless the connection is lost without it -/
def honestSocket : Policy interface where
  enter w e := ∀ c ∈ innermost w, c.isTransfer = true → e.isNotice = true
  back w c r := match c, r with
    | .wsSend m _, .ok false => m.header.topic = .event →
        (justEnded w).isSome = true ∨ w.state.state ≠ .open
    | .wsSend m _, .error _ => m.header.topic ≠ .event
    | _, _ => True

instance (w : World) (e : Entry) : Decidable (honestSocket.enter w e) :=
  inferInstanceAs (Decidable (∀ c ∈ innermost w, c.isTransfer = true → e.isNotice = true))

instance (w : World) : (c : Call) → (r : Except Exception c.Answer) →
    Decidable (honestSocket.back w c r)
  | .wsSend m _, .ok false => inferInstanceAs (Decidable (m.header.topic = .event →
      (justEnded w).isSome = true ∨ w.state.state ≠ .open))
  | .wsSend m _, .error _ => inferInstanceAs (Decidable (m.header.topic ≠ .event))
  | .wsSend _ _, .ok true => instDecidableTrue
  | .idle, _ | .errorHandler _ _, _ | .wsState, _ | .uri, _ | .setUri _, _ | .wsOpen, _ |
    .wsClose, _ | .loginCallback _ _, _ | .subscribeFn _ _, _ | .listenFn _ _ _, _ |
    .presenceFn _ _ _, _ | .queryFn _ _, _ => instDecidableTrue

/-- An honest socket, where the names and events of the application can be written -/
def moderateSocket : Policy interface where
  enter w e := honestSocket.enter w e ∧ e.IsWritable
  back := honestSocket.back

instance (w : World) (e : Entry) : Decidable (moderateSocket.enter w e) :=
  inferInstanceAs (Decidable (_ ∧ _))

instance (w : World) (c : Call) (r : Except Exception c.Answer) :
    Decidable (moderateSocket.back w c r) :=
  inferInstanceAs (Decidable (honestSocket.back w c r))

/-- The same in an application that is tidy -/
def tidySocket : Policy interface where
  enter w e := moderateSocket.enter w e ∧ e.IsTidy w.state
  back := honestSocket.back

instance (w : World) (e : Entry) : Decidable (tidySocket.enter w e) :=
  inferInstanceAs (Decidable (_ ∧ _))

instance (w : World) (c : Call) (r : Except Exception c.Answer) :
    Decidable (tidySocket.back w c r) :=
  inferInstanceAs (Decidable (honestSocket.back w c r))

/-- Whether a message about events is handed over -/
def Call.handsEvent : Call → Bool
  | .wsSend m _ => m.header.topic = .event
  | _ => false

/-- `PocoWSHandler`, which says of every message about events whether it was sent. -/
def dependableSocket : Policy interface where
  enter w e := pocoSocket.enter w e ∧ e.IsWritable
  back w c r := pocoSocket.back w c r ∧ (c.handsEvent = true → r.isOk = true)

instance (w : World) (e : Entry) : Decidable (dependableSocket.enter w e) :=
  inferInstanceAs (Decidable (_ ∧ _))

instance (w : World) (c : Call) (r : Except Exception c.Answer) :
    Decidable (dependableSocket.back w c r) :=
  inferInstanceAs (Decidable (_ ∧ (_ → _)))

theorem Entry.isNotice_of_isOutcome {e : Entry} (he : e.isOutcome = true) : e.isNotice = true := by
  cases e with
  | onOpen | onError => rfl
  | _ => cases he

theorem Entry.isNotice_of_isOnError {e : Entry} (he : e.isOnError = true) : e.isNotice = true := by
  cases e with
  | onError => rfl
  | _ => cases he

/-- `PocoWSHandler` is honest as long as it throws nothing out of sending a message about
events. -/
theorem dependableSocket_enter {w : World} {e : Entry} (h : dependableSocket.enter w e) :
    moderateSocket.enter w e := by
  refine ⟨fun c hc htransfer => ?_, h.2⟩
  have hpermit : pocoSocket.enter w e := h.1
  unfold pocoSocket at hpermit
  dsimp only at hpermit
  rw [Option.mem_def.mp hc] at hpermit
  cases c with
  | wsOpen => exact Entry.isNotice_of_isOutcome hpermit.2
  | wsSend m buffer => exact Entry.isNotice_of_isOnError hpermit.2
  | _ => cases htransfer

theorem dependableSocket_back {w : World} {c : Call} {r : Except Exception c.Answer}
    (h : dependableSocket.back w c r) : honestSocket.back w c r := by
  obtain ⟨hpermit, hreturns⟩ := h
  cases c with
  | wsSend m buffer =>
      cases r with
      | error x =>
          intro hm
          cases hreturns (decide_eq_true hm)
      | ok sent =>
          cases sent with
          | true => trivial
          | false =>
              refine fun _ => .inl ?_
              unfold pocoSocket at hpermit
              dsimp only at hpermit
              cases hended : justEnded w with
              | some ended => rfl
              | none =>
                  rw [hended] at hpermit
                  cases hpermit.1
  | _ => trivial

/-- An event is handed over, by `emit` or from the queue. -/
def carriesEvent : Entry ⊕ Call → Bool
  | .inr (.wsSend m _) => m.header.topic = .event ∧ m.header.action = .event
  | _ => false

/-- No event is being handed over. -/
def BetweenEvents (w : World) : Prop :=
  ∀ frame ∈ w.stack, carriesEvent frame = false

instance (w : World) : Decidable (BetweenEvents w) :=
  inferInstanceAs (Decidable (∀ frame ∈ w.stack, carriesEvent frame = false))

/-- What the socket does while a message is on its way is not booked, and the connection is lost
if it does anything. -/
def bookkeeping (tidy : Prop) : Regime interface where
  quiet := Call.isTransfer
  inv
    | true, w => Writable w.state.event ∧ (BetweenEvents w → Booked w)
    | false, w => UpToDate tidy w
  rel quiet w w' := quiet = true → Unbooked w w' ∧
    ((∃ e t, w'.trace = .enter e :: t) ∨ w' = w ∨ w'.state.state ≠ .open)
  pre e w := e.IsWritable ∧ (tidy → e.IsTidy w.state) ∧
    ∃ outer, w.stack = .inl e :: outer ∧
      ∀ c rest, outer = .inr c :: rest → c.isTransfer = true → e.isNotice = true
  abort _ _ := True

end Deepstream
